import HenPlugins.Lib.ByteText

/-!
# Line-level text functions of the INI parser

`trim_whitespace`, `extract_comment` and the `fgets` loop of `ini_load`.
Strings are bytes without the terminating NUL; the writes of a NUL into a
line buffer are cuts of the list.
-/

set_option autoImplicit false

namespace HenPlugins.Ini.Text

open HenPlugins.Lib.ByteText

abbrev newline : UInt8 := '\n'.toUInt8
abbrev carriageReturn : UInt8 := '\r'.toUInt8
abbrev semicolon : UInt8 := ';'.toUInt8
abbrev hash : UInt8 := '#'.toUInt8
abbrev equalsSign : UInt8 := '='.toUInt8
abbrev openBracket : UInt8 := '['.toUInt8
abbrev closeBracket : UInt8 := ']'.toUInt8
abbrev backslash : UInt8 := '\\'.toUInt8
abbrev space : UInt8 := ' '.toUInt8

def isQuote (byte : UInt8) : Bool :=
  byte == '"'.toUInt8 || byte == '\''.toUInt8

def trimWhitespace (str : Text) : Text :=
  trim isSpace str

/-- `in_quotes` after the scan of the bytes before `comment_pos`.  A backslash
before a quote skips the quote; the byte at `comment_pos` is never a quote. -/
def scanQuotes : Bool → Text → Bool
  | inQuotes, [] => inQuotes
  | inQuotes, [byte] => if isQuote byte then !inQuotes else inQuotes
  | inQuotes, byte :: next :: rest =>
      if isQuote byte then scanQuotes (!inQuotes) (next :: rest)
      else if byte == backslash && isQuote next then scanQuotes inQuotes rest
      else scanQuotes inQuotes (next :: rest)

/-- The line cut at the comment character and the trimmed comment, or `none`
when there is no such character or the first one is inside quotes. -/
def extractComment (line : Text) (commentChar : UInt8) :
    Option (Text × Text) :=
  if commentChar ∈ line then
    if scanQuotes false (before commentChar line) then none
    else some (before commentChar line,
      trimWhitespace (after commentChar line))
  else none

/-- `;` is tried first and `#` only when that gave no comment.  The result is
the line as the two calls leave it, with the comment if there was one. -/
def extractInline (line : Text) : Text × Option Text :=
  match extractComment line semicolon with
  | some (rest, comment) => (rest, some comment)
  | none =>
      match extractComment line hash with
      | some (rest, comment) => (rest, some comment)
      | none => (line, none)

/-- The first `mark` of the line stands outside quotes. -/
def Cuts (mark : UInt8) (line : Text) : Prop :=
  mark ∈ line ∧ scanQuotes false (before mark line) = false

instance (mark : UInt8) (line : Text) : Decidable (Cuts mark line) :=
  inferInstanceAs (Decidable (mark ∈ line ∧
    scanQuotes false (before mark line) = false))

theorem extractComment_eq (line : Text) (mark : UInt8) :
    extractComment line mark =
      if Cuts mark line then
        some (before mark line, trimWhitespace (after mark line))
      else none := by
  unfold extractComment Cuts
  by_cases present : mark ∈ line
  · by_cases quoted : scanQuotes false (before mark line) = true
    · simp [present, quoted]
    · have unquoted : scanQuotes false (before mark line) = false := by
        simpa using quoted
      simp [present, unquoted]
  · simp [present]

theorem extractInline_eq (line : Text) :
    extractInline line =
      if Cuts semicolon line then
        (before semicolon line, some (trimWhitespace (after semicolon line)))
      else if Cuts hash line then
        (before hash line, some (trimWhitespace (after hash line)))
      else (line, none) := by
  rw [extractInline, extractComment_eq, extractComment_eq]
  by_cases first : Cuts semicolon line
  · simp [first]
  · by_cases second : Cuts hash line
    · simp [first, second]
    · simp [first, second]

/-- Nothing is cut, or the line is cut at its first `;` or its first `#`. -/
theorem extractInline_cases (line : Text) :
    extractInline line = (line, none) ∨
      ∃ mark, (mark = semicolon ∨ mark = hash) ∧ mark ∈ line ∧
        extractInline line =
          (before mark line, some (trimWhitespace (after mark line))) := by
  rw [extractInline_eq]
  by_cases first : Cuts semicolon line
  · exact Or.inr ⟨semicolon, Or.inl rfl, first.1, by rw [if_pos first]⟩
  · by_cases second : Cuts hash line
    · exact Or.inr ⟨hash, Or.inr rfl, second.1,
        by rw [if_neg first, if_pos second]⟩
    · exact Or.inl (by rw [if_neg first, if_neg second])

theorem extractInline_isPrefix (line : Text) :
    (extractInline line).1 <+: line := by
  rcases extractInline_cases line with same | ⟨mark, -, -, cut⟩
  · simp [same]
  · rw [cut]
    exact before_isPrefix mark line

theorem extractInline_comment_subset (line : Text) :
    (extractInline line).2.getD [] ⊆ line := by
  rcases extractInline_cases line with same | ⟨mark, -, -, cut⟩
  · simp [same]
  · rw [cut]
    exact List.Subset.trans (trim_subset isSpace _)
      (after_suffix mark line).subset

/-! ## Quotes -/

theorem scanQuotes_plain (inQuotes : Bool) (text : Text)
    (plain : ∀ byte ∈ text, isQuote byte = false) :
    scanQuotes inQuotes text = inQuotes := by
  induction inQuotes, text using scanQuotes.induct with
  | case1 => rfl
  | case2 inQuotes byte quoted =>
      rw [plain byte (by simp)] at quoted
      contradiction
  | case3 inQuotes byte unquoted => simp [scanQuotes, plain byte (by simp)]
  | case4 inQuotes byte next rest quoted ih =>
      rw [plain byte (by simp)] at quoted
      contradiction
  | case5 inQuotes byte next rest unquoted escaped ih =>
      rw [plain next (by simp)] at escaped
      simp at escaped
  | case6 inQuotes byte next rest unquoted unescaped ih =>
      rw [scanQuotes, if_neg unquoted, if_neg unescaped]
      exact ih fun other member => plain other (List.mem_cons_of_mem _ member)

theorem scanQuotes_append_plain (inQuotes : Bool) (front rest : Text)
    (plain : ∀ byte ∈ rest, isQuote byte = false) :
    scanQuotes inQuotes (front ++ rest) = scanQuotes inQuotes front := by
  induction inQuotes, front using scanQuotes.induct with
  | case1 inQuotes => exact scanQuotes_plain inQuotes rest plain
  | case2 inQuotes byte quoted =>
      cases rest with
      | nil => rfl
      | cons next rest =>
          simp only [List.singleton_append, scanQuotes, if_pos quoted]
          exact scanQuotes_plain _ _ plain
  | case3 inQuotes byte unquoted =>
      cases rest with
      | nil => rfl
      | cons next rest =>
          have nextPlain := plain next (by simp)
          simp only [List.singleton_append, scanQuotes, if_neg unquoted,
            nextPlain, Bool.and_false, Bool.false_eq_true, if_false]
          exact scanQuotes_plain _ _ plain
  | case4 inQuotes byte next front quoted ih =>
      simp only [List.cons_append, scanQuotes, if_pos quoted]
      exact ih
  | case5 inQuotes byte next front unquoted escaped ih =>
      simp only [List.cons_append, scanQuotes, if_neg unquoted,
        if_pos escaped]
      exact ih
  | case6 inQuotes byte next front unquoted unescaped ih =>
      simp only [List.cons_append, scanQuotes, if_neg unquoted,
        if_neg unescaped]
      exact ih

/-! ## Reading lines -/

/-- `MAX_LINE_LENGTH`: the size of the line buffer. -/
def maxLineLength : Nat := 1024

/-- `fgets` with room for `room` bytes: stops after a newline, when the room
is used up or at the end of the stream. -/
def fgets : Nat → Text → Text × Text
  | 0, stream => ([], stream)
  | _ + 1, [] => ([], [])
  | room + 1, byte :: rest =>
      if byte == newline then ([byte], rest)
      else
        let (line, remaining) := fgets room rest
        (byte :: line, remaining)

/-- The buffers the `while (fgets(..))` loop sees, with a bound on the number
of iterations. -/
def fgetsLoop : Nat → Text → List Text
  | 0, _ => []
  | _ + 1, [] => []
  | fuel + 1, byte :: rest =>
      let (line, remaining) := fgets (maxLineLength - 1) (byte :: rest)
      line :: fgetsLoop fuel remaining

def isLineEnd (byte : UInt8) : Bool :=
  byte == 0 || byte == carriageReturn || byte == newline

/-- `line[strcspn(line, "\r\n")] = '\0'`, read as a C string. -/
def cutLine (line : Text) : Text :=
  line.takeWhile fun byte => !isLineEnd byte

/-- The lines `ini_load` parses.  Every `fgets` call consumes a byte, so the
length of the file bounds the iterations. -/
def readLines (content : Text) : List Text :=
  (fgetsLoop content.length content).map cutLine

theorem fgets_stops_at_newline (room : Nat) (line rest : Text)
    (fits : line.length < room) (single : newline ∉ line) :
    fgets room (line ++ newline :: rest) = (line ++ [newline], rest) := by
  induction line generalizing room with
  | nil =>
      cases room with
      | zero => simp at fits
      | succ room => simp [fgets]
  | cons byte line ih =>
      cases room with
      | zero => simp at fits
      | succ room =>
          simp only [List.mem_cons, not_or] at single
          simp only [List.length_cons] at fits
          have differ : (byte == newline) = false := by
            simpa using fun same : byte = newline => single.1 same.symm
          simp [fgets, differ, ih room (by omega) single.2]

theorem fgets_fills_room (line rest : Text) (single : newline ∉ line) :
    fgets line.length (line ++ rest) = (line, rest) := by
  induction line with
  | nil => simp [fgets]
  | cons byte line ih =>
      simp only [List.mem_cons, not_or] at single
      have differ : (byte == newline) = false := by
        simpa using fun same : byte = newline => single.1 same.symm
      simp [fgets, differ, ih single.2]

theorem fgets_append (room : Nat) (stream : Text) :
    (fgets room stream).1 ++ (fgets room stream).2 = stream := by
  induction room generalizing stream with
  | zero => rfl
  | succ room ih =>
      cases stream with
      | nil => rfl
      | cons byte rest =>
          by_cases isEnd : (byte == newline) = true
          · simp [fgets, isEnd]
          · simp only [fgets, if_neg isEnd, List.cons_append]
            rw [ih rest]

theorem fgets_shrinks (room : Nat) (positive : 0 < room) (byte : UInt8)
    (rest : Text) : (fgets room (byte :: rest)).2.length ≤ rest.length := by
  have whole := congrArg List.length (fgets_append room (byte :: rest))
  have progress : 1 ≤ (fgets room (byte :: rest)).1.length := by
    cases room with
    | zero => simp at positive
    | succ room =>
        by_cases isEnd : (byte == newline) = true
        · simp [fgets, isEnd]
        · simp only [fgets, if_neg isEnd, List.length_cons]
          omega
  simp only [List.length_append, List.length_cons] at whole
  omega

theorem lineRoom_positive : 0 < maxLineLength - 1 := by decide

theorem fgetsLoop_fuel (fuel : Nat) (content : Text)
    (enough : content.length ≤ fuel) :
    fgetsLoop fuel content = fgetsLoop content.length content := by
  induction fuel using Nat.strongRecOn generalizing content with
  | ind fuel ih =>
      cases content with
      | nil => cases fuel <;> rfl
      | cons byte rest =>
          cases fuel with
          | zero => simp at enough
          | succ fuel =>
              simp only [List.length_cons] at enough
              have shorter := fgets_shrinks _ lineRoom_positive byte rest
              have left := ih fuel (Nat.lt_succ_self fuel)
                (fgets (maxLineLength - 1) (byte :: rest)).2
                (Nat.le_trans shorter (by omega))
              have right := ih rest.length (by omega)
                (fgets (maxLineLength - 1) (byte :: rest)).2 shorter
              simp only [fgetsLoop, List.length_cons]
              rw [left, right]

theorem readLines_cons (byte : UInt8) (rest : Text) :
    readLines (byte :: rest) =
      cutLine (fgets (maxLineLength - 1) (byte :: rest)).1 ::
        readLines (fgets (maxLineLength - 1) (byte :: rest)).2 := by
  have shorter := fgets_shrinks _ lineRoom_positive byte rest
  simp only [readLines, List.length_cons, fgetsLoop, List.map_cons]
  rw [fgetsLoop_fuel rest.length _ shorter]

@[simp] theorem readLines_nil : readLines [] = [] := rfl

theorem readLines_of_ne_nil (content : Text) (nonempty : content ≠ []) :
    readLines content =
      cutLine (fgets (maxLineLength - 1) content).1 ::
        readLines (fgets (maxLineLength - 1) content).2 := by
  cases content with
  | nil => exact absurd rfl nonempty
  | cons byte rest => exact readLines_cons byte rest

/-- A buffer taken from text that goes on after a newline is the one taken
from the text up to that newline. -/
theorem fgets_of_append (room : Nat) (positive : 0 < room)
    (front rest : Text) :
    fgets room (front ++ newline :: rest) =
      ((fgets room (front ++ [newline])).1,
        (fgets room (front ++ [newline])).2 ++ rest) ∧
    ((fgets room (front ++ [newline])).2 = [] ∨
      ∃ shorter, (fgets room (front ++ [newline])).2 =
        shorter ++ [newline] ∧ shorter.length < front.length) := by
  induction front generalizing room with
  | nil =>
      cases room with
      | zero => simp at positive
      | succ room => simp [fgets]
  | cons byte front ih =>
      cases room with
      | zero => simp at positive
      | succ room =>
          by_cases isEnd : (byte == newline) = true
          · simp only [List.cons_append, fgets, isEnd, if_true]
            exact ⟨by simp, Or.inr ⟨front, rfl, by simp⟩⟩
          · simp only [List.cons_append, fgets, if_neg isEnd]
            cases room with
            | zero =>
                exact ⟨by simp [fgets], Or.inr ⟨front, by simp [fgets], by simp⟩⟩
            | succ room =>
                obtain ⟨split, remaining⟩ := ih (room + 1) (Nat.succ_pos room)
                refine ⟨by rw [split], ?_⟩
                rcases remaining with ended | ⟨shorter, same, bound⟩
                · exact Or.inl ended
                · refine Or.inr ⟨shorter, same, ?_⟩
                  simp only [List.length_cons]
                  omega

theorem readLines_append (front rest : Text) :
    readLines (front ++ newline :: rest) =
      readLines (front ++ [newline]) ++ readLines rest := by
  induction size : front.length using Nat.strongRecOn generalizing front with
  | ind size ih =>
      obtain ⟨split, remaining⟩ :=
        fgets_of_append _ lineRoom_positive front rest
      rw [readLines_of_ne_nil (front ++ newline :: rest) (by simp),
        readLines_of_ne_nil (front ++ [newline]) (by simp), split]
      rcases remaining with ended | ⟨shorter, same, bound⟩
      · simp [ended]
      · have tail := ih shorter.length (by omega) shorter rfl
        rw [same]
        simp only [List.append_assoc, List.cons_append, List.nil_append]
        rw [tail]

/-! ## Files as lines -/

/-- Lines that end with a newline, and what follows the last newline. -/
def linesText (lines : List Text) (last : Text) : Text :=
  lines.flatMap (fun line => line ++ [newline]) ++ last

theorem linesText_cons (line : Text) (lines : List Text) (last : Text) :
    linesText (line :: lines) last =
      line ++ newline :: linesText lines last := by
  simp [linesText]

theorem readLines_linesText (lines : List Text) (last : Text) :
    readLines (linesText lines last) =
      lines.flatMap (fun line => readLines (line ++ [newline])) ++
        readLines last := by
  induction lines with
  | nil => rfl
  | cons line lines ih =>
      rw [linesText_cons, readLines_append, ih, List.flatMap_cons,
        List.append_assoc]

theorem exists_linesText (content : Text) :
    ∃ lines last, content = linesText lines last ∧
      ∀ line ∈ last :: lines, newline ∉ line := by
  induction content with
  | nil => exact ⟨[], [], rfl, by simp⟩
  | cons byte content ih =>
      obtain ⟨lines, last, rfl, single⟩ := ih
      by_cases isEnd : byte = newline
      · refine ⟨[] :: lines, last, ?_, ?_⟩
        · rw [linesText_cons, isEnd]
          rfl
        · simp only [List.mem_cons] at single ⊢
          rintro line (rfl | rfl | member)
          · exact single line (Or.inl rfl)
          · exact List.not_mem_nil
          · exact single line (Or.inr member)
      · have extended : ∀ line, newline ∉ line → newline ∉ byte :: line := by
          intro line absent
          rw [List.mem_cons, not_or]
          exact ⟨fun same => isEnd same.symm, absent⟩
        cases lines with
        | nil =>
            refine ⟨[], byte :: last, rfl, ?_⟩
            rw [List.forall_mem_singleton]
            exact extended last (single last (by simp))
        | cons line lines =>
            refine ⟨(byte :: line) :: lines, last, ?_, ?_⟩
            · rw [linesText_cons, linesText_cons, List.cons_append]
            · simp only [List.mem_cons] at single ⊢
              rintro other (rfl | rfl | member)
              · exact single other (Or.inl rfl)
              · exact extended line (single line (Or.inr (Or.inl rfl)))
              · exact single other (Or.inr (Or.inr member))

theorem cutLine_append_newline (line : Text) :
    cutLine (line ++ [newline]) = cutLine line := by
  induction line with
  | nil => rfl
  | cons byte line ih =>
      rw [cutLine, cutLine] at ih ⊢
      rw [List.cons_append, List.takeWhile_cons, List.takeWhile_cons, ih]

/-- A line that fits the buffer with its newline is read in one piece. -/
theorem readLines_shortLine (line : Text) (single : newline ∉ line)
    (short : line.length < maxLineLength - 1) :
    readLines (line ++ [newline]) = [cutLine line] := by
  rw [readLines_of_ne_nil _ (by simp),
    fgets_stops_at_newline _ line [] short single]
  simp [cutLine_append_newline]

theorem fgets_whole (room : Nat) (line : Text) (single : newline ∉ line)
    (short : line.length ≤ room) : fgets room line = (line, []) := by
  induction line generalizing room with
  | nil => cases room <;> rfl
  | cons byte line ih =>
      cases room with
      | zero => simp at short
      | succ room =>
          simp only [List.mem_cons, not_or] at single
          simp only [List.length_cons, Nat.add_le_add_iff_right] at short
          have differ : (byte == newline) = false := by
            simpa using fun same : byte = newline => single.1 same.symm
          simp [fgets, differ, ih room single.2 short]

theorem readLines_lastLine (line : Text) (single : newline ∉ line)
    (short : line.length ≤ maxLineLength - 1) (some : line ≠ []) :
    readLines line = [cutLine line] := by
  rw [readLines_of_ne_nil _ some, fgets_whole _ line single short,
    readLines_nil]

theorem readLines_shortLines (lines : List Text) (last : Text)
    (single : ∀ line ∈ last :: lines, newline ∉ line)
    (short : ∀ line ∈ last :: lines, line.length < maxLineLength - 1) :
    readLines (linesText lines last) =
      (lines ++ if last = [] then [] else [last]).map cutLine := by
  have whole : lines.flatMap (fun line => readLines (line ++ [newline])) =
      lines.map cutLine := by
    rw [← List.flatMap_pure_eq_map]
    apply List.flatMap_congr
    intro line member
    exact readLines_shortLine line
      (single line (List.mem_cons_of_mem last member))
      (short line (List.mem_cons_of_mem last member))
  rw [readLines_linesText, whole, List.map_append]
  congr 1
  by_cases empty : last = []
  · rw [if_pos empty, empty]
    rfl
  · rw [if_neg empty, readLines_lastLine last (single last List.mem_cons_self)
      (Nat.le_of_lt (short last List.mem_cons_self)) empty]
    rfl

/-- A full buffer is a piece, and what is behind it is read as if it stood
alone. -/
theorem readLines_overrun (front rest : Text) (single : newline ∉ front)
    (full : front.length = maxLineLength - 1) :
    readLines (front ++ rest) = cutLine front :: readLines rest := by
  have some : front ++ rest ≠ [] := by
    intro empty
    have positive := lineRoom_positive
    rw [← full, (List.append_eq_nil_iff.mp empty).1] at positive
    contradiction
  have filled := fgets_fills_room front rest single
  rw [full] at filled
  rw [readLines_of_ne_nil _ some, filled]

/-! ## The length of lines -/

/-- Every stretch of the text without a newline is shorter than the limit. -/
def ShortLines (limit : Nat) (content : Text) : Prop :=
  ∀ line, line <:+: content → newline ∉ line → line.length < limit

theorem ShortLines.of_length (limit : Nat) (content : Text)
    (short : content.length < limit) : ShortLines limit content := by
  intro line inside _
  exact Nat.lt_of_le_of_lt inside.length_le short

/-- Every line the loop parses stands in the file. -/
theorem readLines_isInfix (content : Text) :
    ∀ line ∈ readLines content, line <:+: content := by
  induction size : content.length using Nat.strongRecOn generalizing content with
  | ind size ih =>
      cases content with
      | nil => simp
      | cons byte rest =>
          have whole := fgets_append (maxLineLength - 1) (byte :: rest)
          have shorter := fgets_shrinks _ lineRoom_positive byte rest
          rw [readLines_cons]
          intro line member
          rcases List.mem_cons.mp member with rfl | later
          · have inBuffer : cutLine (fgets (maxLineLength - 1)
                (byte :: rest)).1 <+: byte :: rest := by
              rw [cutLine]
              exact (List.takeWhile_prefix _).trans
                (by conv_rhs => rw [← whole]
                    exact List.prefix_append _ _)
            exact inBuffer.isInfix
          · have inRest := ih _ (by
              rw [← size, List.length_cons]
              omega) (fgets (maxLineLength - 1) (byte :: rest)).2 rfl line later
            have isSuffix : (fgets (maxLineLength - 1) (byte :: rest)).2 <:+
                byte :: rest := by
              conv_rhs => rw [← whole]
              exact List.suffix_append _ _
            exact inRest.trans isSuffix.isInfix

theorem readLines_short (limit : Nat) (content : Text)
    (short : ShortLines limit content) :
    ∀ line ∈ readLines content, line.length < limit := by
  intro line member
  refine short line (readLines_isInfix content line member) ?_
  intro clash
  obtain ⟨buffer, -, rfl⟩ := List.mem_map.mp member
  have kept := List.mem_takeWhile_imp clash
  contradiction

end HenPlugins.Ini.Text
