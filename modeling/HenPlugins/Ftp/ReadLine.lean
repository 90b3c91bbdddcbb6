import HenPlugins.Ftp.SessionCalls

/-!
# `ftp_readline`

The buffer grows by 1024 bytes that nobody has written, a carriage return puts
a NUL and goes back to the first byte, and a line feed returns the buffer as it
is.
-/

set_option autoImplicit false

namespace HenPlugins.Ftp.ReadLine

open HenPlugins.Lib.ByteText

def carriageReturn : UInt8 := '\r'.toUInt8
def lineFeed : UInt8 := '\n'.toUInt8

/-- The first `bufsize`, and what is added to it. -/
def chunk : Nat := 1024

/-- `bufsize` is an `int`. -/
def intMax : Nat := 2147483647

structure LineBuffer where
  buffer : List UInt8
  position : Nat
  inside : position < buffer.length

/-- What `realloc` adds; allocation succeeds for every size that is an
`int`. -/
def grow (junk : Nat → UInt8) (buffer : List UInt8) : List UInt8 :=
  buffer ++ (List.range' buffer.length chunk).map junk

theorem length_grow (junk : Nat → UInt8) (buffer : List UInt8) :
    (grow junk buffer).length = buffer.length + chunk := by
  simp [grow]

/-- `calloc`. -/
def startBuffer : LineBuffer where
  buffer := List.replicate chunk 0
  position := 0
  inside := by
    rw [List.length_replicate]
    decide

/-- `buffer[position] = '\0'`, and the position goes back. -/
def LineBuffer.rewind (line : LineBuffer) : LineBuffer where
  buffer := line.buffer.set line.position 0
  position := 0
  inside := by
    have inside := line.inside
    rw [List.length_set]
    omega

/-- A byte that is not a line feed; `none` if the buffer cannot grow. -/
def LineBuffer.put (junk : Nat → UInt8) (line : LineBuffer) (c : UInt8) :
    Option LineBuffer :=
  if c = carriageReturn then some line.rewind
  else if room : line.position + 1 < line.buffer.length then
    some {
      buffer := line.buffer.set line.position c
      position := line.position + 1
      inside := by rwa [List.length_set] }
  else if line.buffer.length + chunk ≤ intMax then
    some {
      buffer := grow junk (line.buffer.set line.position c)
      position := line.position + 1
      inside := by
        have inside := line.inside
        have more : 0 < chunk := by decide
        rw [length_grow, List.length_set]
        omega }
  else none

/-- The buffer that a call returns and what is left of the stream; `none` is
`NULL`. -/
def ftpReadline (junk : Nat → UInt8) :
    LineBuffer → Text → Option (LineBuffer × Text)
  | _, [] => none
  | line, c :: rest =>
      if c = lineFeed then some (line, rest)
      else
        match line.put junk c with
        | none => none
        | some next => ftpReadline junk next rest

/-- The string in the buffer; `none` if it runs past the end. -/
def LineBuffer.text (line : LineBuffer) : Option Text :=
  if (0 : UInt8) ∈ line.buffer then some (before 0 line.buffer) else none

/-- The strings that the calls of `ftp_thread` return, until one returns
`NULL`; every call finds junk of its own. -/
def readLines (junk : Nat → Nat → UInt8) : Nat → Text → List (Option Text)
  | 0, _ => []
  | count + 1, stream =>
      match ftpReadline (junk count) startBuffer stream with
      | none => []
      | some (line, rest) => line.text :: readLines junk count rest

/-! ## What is expected -/

structure ByteStream where
  bytes : Text
  noNul : (0 : UInt8) ∉ bytes

/-- What stands in front of the line feeds. -/
def pieces (stream : Text) : List Text :=
  (stream.splitOn lineFeed).dropLast

/-- A piece without its final carriage return. -/
def chop (piece : Text) : Text :=
  if piece.getLast? = some carriageReturn then piece.dropLast else piece

/-- Whatever is in memory, and however often the function is called. -/
def SplitsLines (stream : Text) : Prop :=
  ∀ junk count, readLines junk count stream =
    ((pieces stream).take count).map fun piece => some (chop piece)

/-- The lengths from which on the buffer cannot grow. -/
def maxLine : Nat := 2147482624

/-- A carriage return only at the end; without one the line has to fit the first
buffer. -/
def PieceFits (piece : Text) : Prop :=
  carriageReturn ∉ chop piece ∧
    (chop piece).length <
      if piece.getLast? = some carriageReturn then maxLine else chunk

/-! ## Text without carriage returns -/

/-- What is in the buffer at an offset that has not been written. -/
def background (junk : Nat → UInt8) (offset : Nat) : UInt8 :=
  if offset < chunk then 0 else junk offset

/-- The text stands in the buffer, and nothing else was written. -/
structure Written (junk : Nat → UInt8) (text : Text) (line : LineBuffer) :
    Prop where
  position : line.position = text.length
  size : line.buffer.length = chunk * (text.length / chunk + 1)
  front : line.buffer.take text.length = text
  back : ∀ offset, text.length ≤ offset → offset < line.buffer.length →
    line.buffer[offset]? = some (background junk offset)

section Writing
variable (junk : Nat → UInt8)

theorem written_start : Written junk [] startBuffer := by
  refine ⟨rfl, ?_, rfl, ?_⟩
  · rw [startBuffer, List.length_replicate]
    rfl
  · intro offset _ inside
    rw [startBuffer, List.length_replicate] at inside
    rw [startBuffer, List.getElem?_replicate, if_pos inside, background,
      if_pos inside]

theorem take_set_length (buffer text : List UInt8) (c : UInt8)
    (front : buffer.take text.length = text)
    (inside : text.length < buffer.length) :
    (buffer.set text.length c).take (text ++ [c]).length = text ++ [c] := by
  rw [List.length_append, List.length_singleton, List.take_add_one,
    List.take_set_of_le (Nat.le_refl _), front,
    List.getElem?_set_self inside]
  rfl

theorem getElem?_grow (buffer : List UInt8) (offset : Nat)
    (past : buffer.length ≤ offset)
    (inside : offset < buffer.length + chunk) :
    (grow junk buffer)[offset]? = some (junk offset) := by
  rw [grow, List.getElem?_append_right past, List.getElem?_map,
    List.getElem?_range' (by omega), Option.map_some]
  congr 2
  omega

section Byte
variable (text : Text) (line : LineBuffer) (c : UInt8)
  (written : Written junk text line)

include written in
theorem position_inside : text.length < line.buffer.length := by
  rw [← written.position]
  exact line.inside

include written in
theorem written_set (next : LineBuffer)
    (room : text.length + 1 < line.buffer.length)
    (buffer : next.buffer = line.buffer.set line.position c)
    (position : next.position = line.position + 1) :
    Written junk (text ++ [c]) next := by
  have inside := position_inside junk text line written
  have size := written.size
  have longer : (text ++ [c]).length = text.length + 1 := by simp
  rw [written.position] at buffer position
  refine ⟨by rw [position, longer], ?_, ?_, ?_⟩
  · rw [buffer, List.length_set, size, longer]
    rw [size, chunk] at room
    rw [chunk]
    omega
  · rw [buffer]
    exact take_set_length line.buffer text c written.front inside
  · intro offset behind bound
    rw [buffer, List.length_set] at bound
    rw [longer] at behind
    rw [buffer, List.getElem?_set_ne (by omega)]
    exact written.back offset (by omega) bound

include written in
theorem written_grow (next : LineBuffer)
    (full : text.length + 1 = line.buffer.length)
    (buffer : next.buffer = grow junk (line.buffer.set line.position c))
    (position : next.position = line.position + 1) :
    Written junk (text ++ [c]) next := by
  have inside := position_inside junk text line written
  have size := written.size
  have longer : (text ++ [c]).length = text.length + 1 := by simp
  rw [written.position] at buffer position
  refine ⟨by rw [position, longer], ?_, ?_, ?_⟩
  · rw [buffer, length_grow, List.length_set, size, longer]
    rw [size, chunk] at full
    rw [chunk]
    omega
  · rw [buffer, grow, List.take_append_of_le_length (by
      rw [List.length_set, longer]
      omega)]
    exact take_set_length line.buffer text c written.front inside
  · intro offset behind bound
    rw [buffer, length_grow, List.length_set] at bound
    rw [longer] at behind
    have past : ¬ offset < chunk := by
      rw [size, chunk] at full
      rw [chunk]
      omega
    rw [buffer, getElem?_grow junk _ offset (by rw [List.length_set]; omega)
      (by rw [List.length_set]; exact bound), background, if_neg past]

include written in
/-- One byte more stands in the buffer, or the buffer cannot grow. -/
theorem put_written (notReturn : c ≠ carriageReturn)
    (short : text.length < maxLine) :
    (text.length + 1 < maxLine ∧ ∃ next, line.put junk c = some next ∧
        Written junk (text ++ [c]) next) ∨
      (text.length + 1 = maxLine ∧ line.put junk c = none) := by
  have inside := position_inside junk text line written
  have size := written.size
  rw [chunk] at size
  rw [maxLine] at short ⊢
  rw [LineBuffer.put, if_neg notReturn]
  by_cases room : line.position + 1 < line.buffer.length
  · rw [dif_pos room]
    rw [written.position] at room
    exact Or.inl ⟨by omega, _, rfl,
      written_set junk text line c written _ room rfl rfl⟩
  · rw [dif_neg room]
    rw [written.position] at room
    by_cases possible : line.buffer.length + chunk ≤ intMax
    · rw [if_pos possible]
      rw [chunk, intMax] at possible
      exact Or.inl ⟨by omega, _, rfl,
        written_grow junk text line c written _ (by omega) rfl rfl⟩
    · rw [if_neg possible]
      rw [chunk, intMax] at possible
      exact Or.inr ⟨by omega, rfl⟩

end Byte

/-- The bytes of a piece, one by one. -/
def LineBuffer.feed (line : LineBuffer) : Text → Option LineBuffer
  | [] => some line
  | c :: rest => (line.put junk c).bind fun next => feed next rest

theorem feed_append (line : LineBuffer) (front back : Text) :
    line.feed junk (front ++ back) =
      (line.feed junk front).bind fun next => next.feed junk back := by
  induction front generalizing line with
  | nil => rfl
  | cons c front ih =>
      rw [List.cons_append, LineBuffer.feed, LineBuffer.feed,
        Option.bind_assoc]
      simp only [ih]

theorem feed_singleton (line : LineBuffer) (c : UInt8) :
    line.feed junk [c] = line.put junk c := by
  rw [LineBuffer.feed]
  cases line.put junk c <;> rfl

theorem feed_text (text : Text) (plain : carriageReturn ∉ text) :
    (text.length < maxLine → ∃ line, startBuffer.feed junk text = some line ∧
        Written junk text line) ∧
      (maxLine ≤ text.length → startBuffer.feed junk text = none) := by
  induction text using List.reverseRecOn with
  | nil => exact ⟨fun _ => ⟨startBuffer, rfl, written_start junk⟩, nofun⟩
  | append_singleton text c ih =>
      simp only [List.mem_append, List.mem_singleton, not_or] at plain
      obtain ⟨reads, fails⟩ := ih plain.1
      rw [feed_append, List.length_append, List.length_singleton]
      simp only [feed_singleton]
      rcases Nat.lt_or_ge text.length maxLine with short | long
      · obtain ⟨line, fed, written⟩ := reads short
        rw [fed, Option.bind_some]
        rcases put_written junk text line c written (Ne.symm plain.2) short
          with more | full
        · exact ⟨fun _ => more.2, fun beyond => absurd more.1 (by omega)⟩
        · exact ⟨fun below => absurd full.1 (by omega), fun _ => full.2⟩
      · rw [fails long]
        exact ⟨fun below => absurd long (by omega), fun _ => rfl⟩

/-! ## The string that is returned -/

theorem text_of_split (line : LineBuffer) (text more : Text) (c : UInt8)
    (noNul : (0 : UInt8) ∉ text) (split : line.buffer = text ++ c :: more) :
    line.text = some text ↔ c = 0 := by
  constructor
  · intro same
    rw [LineBuffer.text] at same
    split at same
    · have front := Option.some.inj same
      rw [split, before, List.takeWhile_append_of_pos] at front
      · by_contra notNul
        have longer := congrArg List.length front
        rw [List.takeWhile_cons_of_pos (by simpa using notNul)] at longer
        simp at longer
      · intro byte member
        rw [bne_iff_ne]
        intro nul
        exact noNul (nul ▸ member)
    · contradiction
  · intro nul
    rw [LineBuffer.text, split, nul, if_pos (by simp),
      before_append_of_not_mem 0 text more noNul]

theorem split_written (text : Text) (line : LineBuffer)
    (written : Written junk text line) :
    ∃ more, line.buffer = text ++ background junk text.length :: more := by
  have inside := line.inside
  rw [written.position] at inside
  have here := written.back text.length (Nat.le_refl _) inside
  obtain ⟨bound, found⟩ := List.getElem?_eq_some_iff.mp here
  refine ⟨line.buffer.drop (text.length + 1), ?_⟩
  rw [← found, ← List.drop_eq_getElem_cons bound]
  conv_lhs => rw [← List.take_append_drop text.length line.buffer]
  rw [written.front]

theorem rewind_written (text : Text) (line : LineBuffer)
    (written : Written junk text line) :
    ∃ more, line.rewind.buffer = text ++ 0 :: more := by
  obtain ⟨more, split⟩ := split_written junk text line written
  refine ⟨more, ?_⟩
  rw [LineBuffer.rewind]
  simp only
  rw [written.position, split, List.set_append_right _ _ (Nat.le_refl _),
    Nat.sub_self, List.set_cons_zero]

/-! ## Carriage returns are never stored -/

theorem put_noReturn (line next : LineBuffer) (c : UInt8)
    (clean : ∀ offset, junk offset ≠ carriageReturn)
    (plain : carriageReturn ∉ line.buffer)
    (put : line.put junk c = some next) : carriageReturn ∉ next.buffer := by
  have stored : ∀ byte, byte ≠ carriageReturn →
      carriageReturn ∉ line.buffer.set line.position byte := by
    intro byte differ member
    rcases List.mem_or_eq_of_mem_set member with old | new
    · exact plain old
    · exact differ new.symm
  rw [LineBuffer.put] at put
  split at put
  · cases Option.some.inj put
    exact stored 0 (by decide)
  · rename_i notReturn
    split at put
    · cases Option.some.inj put
      exact stored c notReturn
    · split at put
      · cases Option.some.inj put
        simp only [grow, List.mem_append, List.mem_map, not_or]
        refine ⟨stored c notReturn, ?_⟩
        intro added
        obtain ⟨offset, -, same⟩ := added
        exact clean offset same
      · contradiction

theorem feed_noReturn (line final : LineBuffer) (text : Text)
    (clean : ∀ offset, junk offset ≠ carriageReturn)
    (plain : carriageReturn ∉ line.buffer)
    (fed : line.feed junk text = some final) :
    carriageReturn ∉ final.buffer := by
  induction text generalizing line with
  | nil =>
      cases Option.some.inj fed
      exact plain
  | cons c rest ih =>
      rw [LineBuffer.feed] at fed
      obtain ⟨next, put, later⟩ := Option.bind_eq_some_iff.mp fed
      exact ih next (put_noReturn junk line next c clean plain put) later

theorem startBuffer_noReturn : carriageReturn ∉ startBuffer.buffer := by
  intro member
  exact absurd (List.eq_of_mem_replicate member) (by decide)

end Writing

/-! ## One piece -/

/-- A call that is given the piece and a line feed returns the piece. -/
def ReadsPiece (piece : Text) : Prop :=
  ∀ junk, ∃ line, startBuffer.feed junk piece = some line ∧
    line.text = some (chop piece)

theorem chop_returned (text : Text) : chop (text ++ [carriageReturn]) = text := by
  rw [chop, List.getLast?_concat, if_pos rfl, List.dropLast_concat]

theorem chop_of_plain (text : Text) (plain : carriageReturn ∉ text) :
    chop text = text := by
  rw [chop, if_neg]
  intro last
  exact plain (List.mem_of_getLast? last)

/-- The string of a line has no carriage return, so neither has the piece. -/
theorem chop_plain_of_reads (piece : Text) (reads : ReadsPiece piece) :
    carriageReturn ∉ chop piece := by
  obtain ⟨line, fed, text⟩ := reads fun _ => 1
  have plain := feed_noReturn (fun _ => 1) startBuffer line piece
    (fun _ => by decide) startBuffer_noReturn fed
  rw [LineBuffer.text] at text
  split at text
  · rw [← Option.some.inj text]
    exact fun member => plain ((before_isPrefix 0 _).subset member)
  · contradiction

theorem readsPiece_plain_iff (text : Text) (noNul : (0 : UInt8) ∉ text)
    (plain : carriageReturn ∉ text) :
    ReadsPiece text ↔ text.length < chunk := by
  have same := chop_of_plain text plain
  constructor
  · intro reads
    obtain ⟨line, fed, found⟩ := reads fun _ => 1
    obtain ⟨writes, fails⟩ := feed_text (fun _ => 1) text plain
    have short : text.length < maxLine := by
      by_contra long
      rw [fails (Nat.le_of_not_lt long)] at fed
      contradiction
    obtain ⟨other, fed', written⟩ := writes short
    rw [fed'] at fed
    cases Option.some.inj fed
    obtain ⟨more, split⟩ := split_written _ text line written
    rw [same, text_of_split line text more _ noNul split, background] at found
    by_contra long
    rw [if_neg long] at found
    exact absurd found (by decide)
  · intro short junk
    obtain ⟨line, fed, written⟩ := (feed_text junk text plain).1 (by
      rw [chunk] at short
      rw [maxLine]
      omega)
    obtain ⟨more, split⟩ := split_written junk text line written
    refine ⟨line, fed, ?_⟩
    rw [same, text_of_split line text more _ noNul split, background,
      if_pos short]

/-- With one the NUL is written, if the buffer could grow so far. -/
theorem readsPiece_returned_iff (text : Text) (noNul : (0 : UInt8) ∉ text)
    (plain : carriageReturn ∉ text) :
    ReadsPiece (text ++ [carriageReturn]) ↔ text.length < maxLine := by
  constructor
  · intro reads
    obtain ⟨line, fed, -⟩ := reads fun _ => 1
    by_contra long
    rw [feed_append, (feed_text _ text plain).2 (Nat.le_of_not_lt long)] at fed
    contradiction
  · intro short junk
    obtain ⟨line, fed, written⟩ := (feed_text junk text plain).1 short
    obtain ⟨more, split⟩ := rewind_written junk text line written
    refine ⟨line.rewind, ?_, ?_⟩
    · rw [feed_append, fed, Option.bind_some, feed_singleton, LineBuffer.put,
        if_pos rfl]
    · rw [chop_returned]
      exact (text_of_split line.rewind text more 0 noNul split).mpr rfl

theorem readsPiece_iff (piece : Text) (noNul : (0 : UInt8) ∉ piece) :
    ReadsPiece piece ↔ PieceFits piece := by
  rw [PieceFits]
  by_cases plain : carriageReturn ∉ chop piece
  · by_cases returned : piece.getLast? = some carriageReturn
    · have whole : chop piece ++ [carriageReturn] = piece := by
        rw [chop, if_pos returned]
        exact List.dropLast_append_getLast? _ returned
      have clean : (0 : UInt8) ∉ chop piece := by
        intro nul
        rw [← whole] at noNul
        exact noNul (List.mem_append_left _ nul)
      have reads := readsPiece_returned_iff (chop piece) clean plain
      rw [whole] at reads
      rw [reads, if_pos returned]
      simp [plain]
    · have whole : chop piece = piece := if_neg returned
      rw [whole] at plain ⊢
      rw [readsPiece_plain_iff piece noNul plain, if_neg returned]
      simp [plain]
  · constructor
    · intro reads
      exact absurd (chop_plain_of_reads piece reads) plain
    · intro fits
      exact absurd fits.1 plain

/-! ## The stream -/

theorem ftpReadline_feed (junk : Nat → UInt8) (line : LineBuffer)
    (piece rest : Text) (noFeed : lineFeed ∉ piece) :
    ftpReadline junk line (piece ++ lineFeed :: rest) =
      (line.feed junk piece).map fun final => (final, rest) := by
  induction piece generalizing line with
  | nil =>
      rw [List.nil_append, ftpReadline, if_pos rfl]
      rfl
  | cons c piece ih =>
      rw [List.mem_cons, not_or] at noFeed
      rw [List.cons_append, ftpReadline, if_neg (Ne.symm noFeed.1),
        LineBuffer.feed]
      cases line.put junk c with
      | none => rfl
      | some next => exact ih next noFeed.2

theorem ftpReadline_incomplete (junk : Nat → UInt8) (line : LineBuffer)
    (stream : Text) (noFeed : lineFeed ∉ stream) :
    ftpReadline junk line stream = none := by
  induction stream generalizing line with
  | nil => rfl
  | cons c stream ih =>
      rw [List.mem_cons, not_or] at noFeed
      rw [ftpReadline, if_neg (Ne.symm noFeed.1)]
      cases line.put junk c with
      | none => rfl
      | some next => exact ih next noFeed.2

theorem pieces_incomplete (stream : Text) (noFeed : lineFeed ∉ stream) :
    pieces stream = [] := by
  rw [pieces, List.splitOn_eq_singleton noFeed]
  rfl

theorem pieces_append (piece rest : Text) (noFeed : lineFeed ∉ piece) :
    pieces (piece ++ lineFeed :: rest) = piece :: pieces rest := by
  rw [pieces, pieces, List.splitOn_append_cons_self_of_not_mem noFeed,
    List.dropLast_cons_of_ne_nil (List.splitOn_ne_nil _ _)]

theorem splitsLines_append_iff (piece rest : Text)
    (noFeed : lineFeed ∉ piece) :
    SplitsLines (piece ++ lineFeed :: rest) ↔
      ReadsPiece piece ∧ SplitsLines rest := by
  have call : ∀ junk count,
      readLines junk (count + 1) (piece ++ lineFeed :: rest) =
        ((startBuffer.feed (junk count) piece).map fun line =>
          line.text :: readLines junk count rest).getD [] := by
    intro junk count
    rw [readLines, ftpReadline_feed _ _ piece rest noFeed]
    cases startBuffer.feed (junk count) piece <;> rfl
  constructor
  · intro splits
    have first : ∀ junk count, ∃ line,
        startBuffer.feed (junk count) piece = some line ∧
          line.text = some (chop piece) ∧
          readLines junk count rest =
            ((pieces rest).take count).map fun piece => some (chop piece) := by
      intro junk count
      have here := splits junk (count + 1)
      rw [call, pieces_append piece rest noFeed, List.take_succ_cons,
        List.map_cons] at here
      cases fed : startBuffer.feed (junk count) piece with
      | none =>
          rw [fed] at here
          contradiction
      | some line =>
          rw [fed, Option.map_some, Option.getD_some] at here
          exact ⟨line, rfl, (List.cons.inj here).1, (List.cons.inj here).2⟩
    refine ⟨?_, ?_⟩
    · intro junk
      obtain ⟨line, fed, text, -⟩ := first (fun _ => junk) 0
      exact ⟨line, fed, text⟩
    · intro junk count
      obtain ⟨-, -, -, later⟩ := first junk count
      exact later
  · intro both junk count
    cases count with
    | zero => rfl
    | succ count =>
        obtain ⟨line, fed, text⟩ := both.1 (junk count)
        rw [call, fed, Option.map_some, Option.getD_some, text,
          both.2 junk count, pieces_append piece rest noFeed,
          List.take_succ_cons, List.map_cons]

theorem splitsLines_incomplete (stream : Text) (noFeed : lineFeed ∉ stream) :
    SplitsLines stream := by
  intro junk count
  rw [pieces_incomplete stream noFeed]
  cases count with
  | zero => rfl
  | succ count =>
      rw [readLines, ftpReadline_incomplete _ _ stream noFeed]
      rfl

theorem splitsLines_bytes_iff (length : Nat) (stream : Text)
    (bound : stream.length = length) (noNul : (0 : UInt8) ∉ stream) :
    SplitsLines stream ↔ ∀ piece ∈ pieces stream, PieceFits piece := by
  induction length using Nat.strongRecOn generalizing stream with
  | ind length ih =>
      by_cases complete : lineFeed ∈ stream
      · obtain ⟨piece, rest, rfl, noFeed⟩ :=
          List.eq_append_cons_of_mem complete
        simp only [List.mem_append, List.mem_cons, not_or] at noNul
        obtain ⟨pieceClean, -, restClean⟩ := noNul
        have shorter : rest.length < length := by
          rw [← bound, List.length_append, List.length_cons]
          omega
        rw [splitsLines_append_iff piece rest noFeed,
          readsPiece_iff piece pieceClean,
          ih rest.length shorter rest rfl restClean,
          pieces_append piece rest noFeed, List.forall_mem_cons]
      · rw [pieces_incomplete stream complete]
        simp [splitsLines_incomplete stream complete]

/-- The stream is split right if and only if in every complete line a carriage
return stands at most at the end, and a line without one is shorter than the
first buffer. -/
theorem splitsLines_iff (stream : ByteStream) :
    SplitsLines stream.bytes ↔
      ∀ piece ∈ pieces stream.bytes, PieceFits piece :=
  splitsLines_bytes_iff _ stream.bytes rfl stream.noNul

/-- A carriage return inside a line. -/
def strayReturn : ByteStream where
  bytes := ascii "ab\rcd\n"
  noNul := by decide

theorem strayReturn_not_split :
    ¬ ∀ stream : ByteStream, SplitsLines stream.bytes := by
  intro splits
  have fits := (splitsLines_bytes_iff _ strayReturn.bytes rfl
    strayReturn.noNul).mp (splits strayReturn) (ascii "ab\rcd") (by decide)
  exact absurd fits.1 (by decide)

end HenPlugins.Ftp.ReadLine
