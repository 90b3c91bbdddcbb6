import HenPlugins.Ini.WrittenLines
import HenPlugins.Lib.ItemStream

/-!
# What the written lines carry

A written header carries its name unless a comment mark cuts it, and a written
key line the value up to the mark that cuts the line.  Which mark that is, the
quotes in front of it decide; a comment that no mark cuts off becomes part of
the value, and what overruns the line buffer is a line of its own.
-/

set_option autoImplicit false

namespace HenPlugins.Ini.CarriedLines

open HenPlugins.Lib.ByteText
open HenPlugins.Lib.SectionedDocument
open HenPlugins.Ini.Text
open HenPlugins.Ini.Store
open HenPlugins.Ini.Load
open HenPlugins.Ini.Save
open HenPlugins.Ini.Loaded
open HenPlugins.Ini.WrittenLines

/-- A `;` behind the text is found: it is the first one and no quote is open. -/
def OpenTo (text : Text) : Prop :=
  semicolon ∉ text ∧ scanQuotes false text = false

instance (text : Text) : Decidable (OpenTo text) :=
  inferInstanceAs (Decidable (semicolon ∉ text ∧
    scanQuotes false text = false))

/-- No comment mark falls into the name of the section. -/
def HeaderCarried (current : Section) : Prop :=
  ¬ Cuts semicolon current.name.text ∧
    (¬ Cuts hash current.name.text ∨
      current.comment.text ≠ [] ∧ OpenTo current.name.text)

instance (current : Section) : Decidable (HeaderCarried current) :=
  inferInstanceAs (Decidable (¬ Cuts semicolon current.name.text ∧
    (¬ Cuts hash current.name.text ∨
      current.comment.text ≠ [] ∧ OpenTo current.name.text)))

/-- The room that the line buffer leaves behind `key = value ; `. -/
def commentRoom (key : KeyValue) : Nat :=
  1017 - key.key.text.length - key.value.text.length

/-- The value, and of the comment what the line buffer holds. -/
def valuePart (key : KeyValue) : Text :=
  if key.comment.text = [] then key.value.text
  else key.value.text ++ ascii " ; " ++
    key.comment.text.take (commentRoom key)

def bufferLine (key : KeyValue) : Text :=
  key.key.text ++ ascii " = " ++ valuePart key

/-- The rest of the comment, which the next `fgets` reads. -/
def overrun (key : KeyValue) : Text :=
  key.comment.text.drop (commentRoom key)

def storedValue (part : Text) : Text :=
  (trimWhitespace part).take 511

/-- What is left of the value when the mark cuts the line. -/
def cutValue (mark : UInt8) (key : KeyValue) : Option Text :=
  if mark ∈ key.key.text then none
  else some (storedValue (before mark (valuePart key)))

def carriedValue (key : KeyValue) : Option Text :=
  if Cuts semicolon (bufferLine key) then cutValue semicolon key
  else if Cuts hash (bufferLine key) then cutValue hash key
  else some (storedValue (valuePart key))

def carriedHeader (current : Section) : Option (Item Text Text Text) :=
  if HeaderCarried current then
    some (.header (trimWhitespace current.name.text))
  else none

def carriedKey (key : KeyValue) : List (Item Text Text Text) :=
  ((carriedValue key).map fun value =>
      .entry (trimWhitespace key.key.text) value).toList ++
    (lineItem (overrun key)).toList

/-- The names and values that the lines of the store carry, in chain order. -/
def carriedLines (ini : INIFile) : List (Item Text Text Text) :=
  ini.sections.flatMap fun current =>
    (carriedHeader current).toList ++ current.keys.flatMap carriedKey

/-! ## Which mark cuts -/

/-- The separator in front of a comment cuts unless a mark of the text does. -/
theorem cuts_separator (text middle comment : Text)
    (plain : ∀ byte ∈ middle, isQuote byte = false)
    (noSemicolon : semicolon ∉ middle) :
    Cuts semicolon (text ++ middle ++ semicolon :: comment) ↔
      Cuts semicolon text ∨ OpenTo text := by
  by_cases present : semicolon ∈ text
  · rw [List.append_assoc, cuts_append_of_mem _ _ _ present]
    simp [OpenTo, present]
  · have absent : semicolon ∉ text ++ middle := by
      simp [present, noSemicolon]
    rw [Cuts, before_append_of_not_mem _ _ _ absent,
      scanQuotes_append_plain _ _ _ plain]
    simp [Cuts, OpenTo, present]

theorem mem_cut_iff (text rest : Text) (solid mark : UInt8)
    (absent : solid ∉ text) (apart : mark ≠ solid) :
    solid ∈ before mark (text ++ solid :: rest) ↔ mark ∉ text := by
  by_cases present : mark ∈ text
  · rw [before_eq_of_mem_front _ _ _ present]
    simp only [present, not_true_eq_false, iff_false]
    exact fun member => absent ((before_isPrefix mark text).subset member)
  · rw [before_append_of_absent _ _ _ present]
    have here : solid ∈ before mark (solid :: rest) := by
      rw [before, List.takeWhile_cons_of_pos (by simpa using Ne.symm apart)]
      exact List.mem_cons_self ..
    simp [present, here]

/-- A line is cut at its first `;`, or at its first `#`, or not at all. -/
theorem mem_extractInline_iff (text rest : Text) (solid : UInt8)
    (absent : solid ∉ text) (noSemicolon : semicolon ≠ solid)
    (noHash : hash ≠ solid) :
    solid ∈ (extractInline (text ++ solid :: rest)).1 ↔
      ¬ Cuts semicolon text ∧
        (¬ Cuts hash text ∨ Cuts semicolon (text ++ solid :: rest)) := by
  have inText : ∀ mark, mark ∈ text →
      (Cuts mark (text ++ solid :: rest) ↔ Cuts mark text) :=
    fun mark present => cuts_append_of_mem mark text _ present
  rw [extractInline_eq]
  by_cases first : Cuts semicolon (text ++ solid :: rest)
  · rw [if_pos first, mem_cut_iff _ _ _ _ absent noSemicolon]
    by_cases present : semicolon ∈ text
    · simp [present, (inText _ present).mp first]
    · have uncut : ¬ Cuts semicolon text := fun cut => present cut.1
      simp [present, uncut, first]
  · have uncut : ¬ Cuts semicolon text := fun cut =>
      first ((inText _ cut.1).mpr cut)
    rw [if_neg first]
    by_cases second : Cuts hash (text ++ solid :: rest)
    · rw [if_pos second, mem_cut_iff _ _ _ _ absent noHash]
      by_cases present : hash ∈ text
      · simp [present, (inText _ present).mp second, first]
      · have unhashed : ¬ Cuts hash text := fun cut => present cut.1
        simp [present, uncut, unhashed]
    · have unhashed : ¬ Cuts hash text := fun cut =>
        second ((inText _ cut.1).mpr cut)
      rw [if_neg second]
      simp [uncut, unhashed]

/-! ## Headers -/

theorem scanQuotes_bracket (text : Text) :
    scanQuotes false (openBracket :: text) = scanQuotes false text := by
  cases text with
  | nil => rfl
  | cons next rest => rfl

theorem cuts_bracket (mark : UInt8) (text : Text)
    (apart : openBracket ≠ mark) :
    Cuts mark (openBracket :: text) ↔ Cuts mark text := by
  have cut : before mark (openBracket :: text) =
      openBracket :: before mark text := by
    rw [before, List.takeWhile_cons_of_pos (by simpa using apart)]
    rfl
  rw [Cuts, Cuts, cut, scanQuotes_bracket, List.mem_cons]
  simp [Ne.symm apart]

theorem sectionLine_split (current : Section) :
    sectionLine current = (openBracket :: current.name.text) ++
      closeBracket :: if current.comment.text = [] then []
        else space :: semicolon :: space :: current.comment.text := by
  rw [sectionLine]
  by_cases plain : current.comment.text = []
  · rw [if_neg (by simp [plain]), if_pos plain]
    rfl
  · rw [if_pos (List.length_pos_iff.mpr plain), if_neg plain]
    simp only [List.append_assoc]
    rfl

theorem cuts_sectionLine (current : Section) :
    Cuts semicolon (sectionLine current) ↔
      Cuts semicolon current.name.text ∨
        current.comment.text ≠ [] ∧ OpenTo current.name.text := by
  have bracketed : OpenTo (openBracket :: current.name.text) ↔
      OpenTo current.name.text := by
    rw [OpenTo, OpenTo, scanQuotes_bracket, List.mem_cons]
    simp [show semicolon ≠ openBracket by decide]
  rw [sectionLine_split]
  by_cases plain : current.comment.text = []
  · rw [if_pos plain, cuts_append_of_absent _ _ _ (by decide),
      cuts_bracket _ _ (by decide)]
    simp [plain]
  · have separated := cuts_separator (openBracket :: current.name.text)
      [closeBracket, space] (space :: current.comment.text)
      (List.forall_mem_cons.mpr ⟨rfl, List.forall_mem_singleton.mpr rfl⟩)
      (by decide)
    rw [bracketed, cuts_bracket _ _ (by decide)] at separated
    rw [if_neg plain]
    simp only [List.append_assoc, List.cons_append, List.nil_append]
      at separated ⊢
    rw [separated]
    simp [plain]

theorem lineItem_header (current : Section)
    (shaped : ShapedName current.name.text) :
    lineItem (sectionLine current) = carriedHeader current := by
  have absent : closeBracket ∉ openBracket :: current.name.text := by
    intro member
    rcases List.mem_cons.mp member with clash | inside
    · exact absurd clash (by decide)
    · exact shaped.noBracket inside
  have carried : closeBracket ∈ (extractInline (sectionLine current)).1 ↔
      HeaderCarried current := by
    have kept := mem_extractInline_iff (openBracket :: current.name.text)
      (if current.comment.text = [] then []
        else space :: semicolon :: space :: current.comment.text)
      closeBracket absent (by decide) (by decide)
    rw [← sectionLine_split, cuts_sectionLine, cuts_bracket _ _ (by decide),
      cuts_bracket _ _ (by decide)] at kept
    rw [kept, HeaderCarried]
    by_cases cut : Cuts semicolon current.name.text
    · simp [cut]
    · simp [cut]
  rw [carriedHeader]
  by_cases kept : HeaderCarried current
  · rw [if_pos kept]
    rcases lineItem_sectionLine current shaped with lost | read
    · rw [lineItem_eq_readSectionLine, readSectionLine] at lost
      simp only [if_pos (carried.mpr kept)] at lost
      contradiction
    · exact read
  · rw [if_neg kept, lineItem_eq_readSectionLine, readSectionLine]
    simp only [if_neg (carried.not.mpr kept)]
    rfl

/-! ## Key lines -/

theorem keyLine_split (key : KeyValue) :
    keyLine key = bufferLine key ++ overrun key := by
  rw [keyLine, bufferLine, valuePart, overrun]
  by_cases plain : key.comment.text = []
  · rw [if_neg (by simp [plain]), if_pos plain]
    simp [plain]
  · rw [if_pos (List.length_pos_iff.mpr plain), if_neg plain]
    simp only [List.append_assoc, List.take_append_drop]

/-- Only a full line buffer leaves something over. -/
theorem length_bufferLine (key : KeyValue) :
    (bufferLine key).length ≤ maxLineLength - 1 ∧
      (overrun key ≠ [] → (bufferLine key).length = maxLineLength - 1) := by
  have name := key.key.fits
  have value := key.value.fits
  have comment := key.comment.fits
  have equals : (ascii " = ").length = 3 := rfl
  have separator : (ascii " ; ").length = 3 := rfl
  simp only [maxKeyLength] at name
  simp only [maxValueLength] at value
  simp only [maxCommentLength] at comment
  rw [bufferLine, valuePart, overrun, maxLineLength]
  by_cases plain : key.comment.text = []
  · rw [if_pos plain]
    simp only [plain, List.length_append, List.drop_nil, ne_eq,
      not_true_eq_false, false_implies, and_true]
    omega
  · rw [if_neg plain]
    simp only [List.length_append, List.length_take, commentRoom, ne_eq,
      List.drop_eq_nil_iff]
    omega

theorem lineItem_bufferLine (key : KeyValue) (shaped : ShapedKey key) :
    lineItem (bufferLine key) = (carriedValue key).map fun value =>
      .entry (trimWhitespace key.key.text) value := by
  have bound := key.key.fits
  simp only [maxKeyLength] at bound
  have shape : bufferLine key =
      key.key.text ++ space :: equalsSign :: space :: valuePart key := by
    rw [bufferLine, List.append_assoc]
    rfl
  have blank : ∀ part, trimWhitespace (space :: part) = trimWhitespace part :=
    fun part => trim_cons_of_blank isSpace space part rfl
  have cutAt : ∀ mark, mark ≠ space → mark ≠ equalsSign →
      (extractInline (bufferLine key)).1 = before mark (bufferLine key) →
      lineItem (bufferLine key) = (cutValue mark key).map fun value =>
        .entry (trimWhitespace key.key.text) value := by
    intro mark notSpace notEquals cut
    rw [shape] at cut ⊢
    rw [cutValue]
    by_cases inName : mark ∈ key.key.text
    · rw [if_pos inName]
      apply lineItem_lost _ shaped.keyStart
      rw [cut, before_eq_of_mem_front mark _ _ inName]
      exact fun member => shaped.noEquals
        ((before_isPrefix mark key.key.text).subset member)
    · have front : before mark
            (key.key.text ++ space :: equalsSign :: space :: valuePart key) =
          key.key.text ++ space :: equalsSign ::
            space :: before mark (valuePart key) := by
        rw [before_append_of_absent mark _ _ inName]
        simp [before, notSpace.symm, notEquals.symm]
      rw [if_neg inName, lineItem_read _ (by omega) shaped.noEquals
        shaped.keyStart _ (cut.trans front), blank]
      rfl
  rw [carriedValue]
  by_cases first : Cuts semicolon (bufferLine key)
  · rw [if_pos first]
    exact cutAt semicolon (by decide) (by decide) (by
      rw [extractInline_eq, if_pos first])
  · rw [if_neg first]
    by_cases second : Cuts hash (bufferLine key)
    · rw [if_pos second]
      exact cutAt hash (by decide) (by decide) (by
        rw [extractInline_eq, if_neg first, if_pos second])
    · have whole : (extractInline (bufferLine key)).1 = bufferLine key := by
        rw [extractInline_eq, if_neg first, if_neg second]
      rw [if_neg second]
      rw [shape] at whole ⊢
      rw [lineItem_read _ (by omega) shaped.noEquals shaped.keyStart _ whole,
        blank]
      rfl

theorem keyItems_eq_carried (key : KeyValue) (safe : SafeKey key)
    (shaped : ShapedKey key) : keyItems key = carriedKey key := by
  obtain ⟨bounded, full⟩ := length_bufferLine key
  have lineSafe := keyLine_safe key safe
  have bound := keyLine_bound key
  rw [keyLine_split] at lineSafe bound
  rw [keyItems, carriedKey, ← lineItem_bufferLine key shaped, keyLine_split]
  by_cases fits : overrun key = []
  · rw [fits, List.append_nil] at lineSafe ⊢
    rw [contentItems_line _ lineSafe (by rw [maxLineLength] at *; omega)]
    exact (List.append_nil _).symm
  · have filled := full fits
    rw [contentItems_long_line _ lineSafe (by
      rw [List.length_append]
      omega) bound, ← filled, List.take_left, List.drop_left]

theorem savedItems_eq_carried (ini : INIFile) (loaded : LoadedStore ini) :
    ini.sections.flatMap savedSectionItems = carriedLines ini := by
  apply List.flatMap_congr
  intro current member
  have keys := (loaded.sections current member).keys
  rw [savedSectionItems, lineItem_header current (loaded.names current member)]
  congr 1
  exact List.flatMap_congr fun key inside => keyItems_eq_carried key
    (keys key inside) (loaded.shaped current member key inside)

/-! ## Lines that carry what they were written for -/

def bareLine (key : KeyValue) : Text :=
  key.key.text ++ ascii " = " ++ key.value.text

/-- The header carries its name and no blank at its end is trimmed. -/
def HeaderKept (current : Section) : Prop :=
  trimWhitespace current.name.text = current.name.text ∧
    HeaderCarried current

/-- No mark of the name or the value cuts the line, and no blank at the end of
the value is trimmed.  A comment whose `;` is not found becomes part of the
value, which then must fill its field already. -/
def ValueKept (key : KeyValue) : Prop :=
  ¬ Cuts semicolon (bareLine key) ∧
    if key.comment.text ≠ [] ∧ OpenTo (bareLine key) then
      trimWhitespace key.value.text = key.value.text
    else
      ¬ Cuts hash (bareLine key) ∧
        if key.comment.text = [] then
          trimWhitespace key.value.text = key.value.text
        else key.value.text.length = 511

def KeyKept (key : KeyValue) : Prop :=
  trimWhitespace key.key.text = key.key.text ∧ ValueKept key

instance (current : Section) : Decidable (HeaderKept current) :=
  inferInstanceAs (Decidable (
    trimWhitespace current.name.text = current.name.text ∧
      HeaderCarried current))

instance (key : KeyValue) : Decidable (ValueKept key) :=
  inferInstanceAs (Decidable (¬ Cuts semicolon (bareLine key) ∧
    if key.comment.text ≠ [] ∧ OpenTo (bareLine key) then
      trimWhitespace key.value.text = key.value.text
    else
      ¬ Cuts hash (bareLine key) ∧
        if key.comment.text = [] then
          trimWhitespace key.value.text = key.value.text
        else key.value.text.length = 511))

instance (key : KeyValue) : Decidable (KeyKept key) :=
  inferInstanceAs (Decidable (
    trimWhitespace key.key.text = key.key.text ∧ ValueKept key))

theorem carriedHeader_iff (current : Section) :
    carriedHeader current = some (.header current.name.text) ↔
      HeaderKept current := by
  rw [carriedHeader, HeaderKept]
  by_cases carried : HeaderCarried current
  · simp [carried]
  · simp [carried]

section Values
variable (key : KeyValue)

theorem value_fits : key.value.text.length ≤ 511 := by
  have bound := key.value.fits
  simp only [maxValueLength] at bound
  omega

theorem storedValue_whole :
    storedValue key.value.text = trimWhitespace key.value.text :=
  List.take_of_length_le
    (Nat.le_trans (trimWhitespace_length _) (value_fits key))

theorem storedValue_before_ne (mark : UInt8) (text : Text)
    (present : mark ∈ text) : storedValue (before mark text) ≠ text := by
  intro same
  have whole := congrArg List.length (split_at_mark mark text present)
  have kept := congrArg List.length same
  have shorter := trimWhitespace_length (before mark text)
  rw [List.length_append, List.length_cons] at whole
  rw [storedValue, List.length_take] at kept
  omega

theorem cutValue_ne (mark : UInt8) (notMiddle : mark ∉ ascii " = ")
    (rest : Text) (part : valuePart key = key.value.text ++ rest)
    (cut : Cuts mark (bareLine key)) :
    cutValue mark key ≠ some key.value.text := by
  rw [cutValue]
  split
  · simp
  · rename_i notName
    have present : mark ∈ key.value.text := by
      have member := cut.1
      rw [bareLine, List.mem_append, List.mem_append] at member
      exact (member.resolve_left fun front =>
        front.elim notName notMiddle)
    rw [part, before_eq_of_mem_front _ _ _ present]
    exact fun same => storedValue_before_ne mark _ present
      (Option.some.inj same)

variable (valueStart : ∀ first ∈ key.value.text.head?, isSpace first = false)

include valueStart in
/-- With a comment behind it only a value that fills its field is kept. -/
theorem storedValue_swallowed (rest : Text) :
    storedValue (key.value.text ++ space :: semicolon :: rest) =
        key.value.text ↔ key.value.text.length = 511 := by
  have fits := value_fits key
  have trimmed : trimWhitespace
      (key.value.text ++ space :: semicolon :: rest) =
      (key.value.text ++ [space]).dropWhile isSpace ++
        semicolon :: rest.rdropWhile isSpace := by
    have regroup : key.value.text ++ space :: semicolon :: rest =
        (key.value.text ++ [space]) ++ semicolon :: rest := by simp
    have dropped : ((key.value.text ++ [space]) ++
          semicolon :: rest).dropWhile isSpace =
        (key.value.text ++ [space]).dropWhile isSpace ++
          semicolon :: rest := by
      rw [List.dropWhile_append]
      split
      · rename_i empty
        rw [List.isEmpty_iff.mp empty]
        rfl
      · rfl
    rw [regroup, trimWhitespace, trim, dropped]
    exact rdropWhile_append_of_solid isSpace _ semicolon rest rfl
  rw [storedValue, trimmed]
  cases value : key.value.text with
  | nil =>
      simp [show isSpace space = true from rfl]
  | cons first others =>
      have solid : isSpace first = false := valueStart first (by simp [value])
      rw [value] at fits
      rw [List.cons_append, List.dropWhile_cons_of_neg (by simp [solid])]
      constructor
      · intro same
        have length := congrArg List.length same
        simp only [List.length_take, List.length_cons, List.length_append]
          at length fits
        simp only [List.length_cons]
        omega
      · intro full
        rw [← List.cons_append, List.append_assoc, List.take_left' full]

theorem carriedValue_plain (plain : key.comment.text = []) :
    carriedValue key = some key.value.text ↔ ValueKept key := by
  have part : valuePart key = key.value.text ++ [] := by
    rw [valuePart, if_pos plain, List.append_nil]
  have line : bufferLine key = bareLine key := by
    rw [bufferLine, part, List.append_nil, bareLine]
  have alone : ¬ (key.comment.text ≠ [] ∧ OpenTo (bareLine key)) :=
    fun both => both.1 plain
  rw [carriedValue, ValueKept, line, if_neg alone, if_pos plain]
  by_cases first : Cuts semicolon (bareLine key)
  · have lost := cutValue_ne key semicolon (by decide) [] part first
    rw [if_pos first]
    simp [first, lost]
  · rw [if_neg first]
    by_cases second : Cuts hash (bareLine key)
    · have lost := cutValue_ne key hash (by decide) [] part second
      rw [if_pos second]
      simp [second, lost]
    · rw [if_neg second, part, List.append_nil, storedValue_whole]
      simp [first, second]

section Commented
variable (commented : key.comment.text ≠ [])

include commented in
theorem valuePart_commented :
    valuePart key = key.value.text ++ space :: semicolon :: space ::
      key.comment.text.take (commentRoom key) := by
  rw [valuePart, if_neg commented, List.append_assoc]
  rfl

include commented in
theorem bufferLine_commented :
    bufferLine key = bareLine key ++ [space] ++ semicolon :: space ::
      key.comment.text.take (commentRoom key) := by
  rw [bufferLine, valuePart_commented key commented, bareLine]
  simp

theorem cutValue_opened (opened : OpenTo (bareLine key))
    (rest : Text)
    (part : valuePart key = key.value.text ++ space :: semicolon :: rest) :
    cutValue semicolon key = some (trimWhitespace key.value.text) := by
  have outside := opened.1
  simp only [bareLine, List.mem_append, not_or] at outside
  have absent : semicolon ∉ key.value.text ++ [space] := by
    simp [outside.2, show semicolon ≠ space by decide]
  have cut := before_append_of_not_mem semicolon (key.value.text ++ [space])
    rest absent
  have trimmed : trimWhitespace (key.value.text ++ [space]) =
      trimWhitespace key.value.text :=
    trim_append_of_all isSpace _ _ (List.forall_mem_singleton.mpr rfl)
  rw [List.append_assoc, List.singleton_append, ← part] at cut
  rw [cutValue, if_neg outside.1.1, cut, storedValue, trimmed,
    ← storedValue_whole, storedValue, List.take_take]
  rfl

include commented valueStart in
/-- Without a `;` that cuts, the comment is swallowed up to a `#`. -/
theorem carried_swallowed :
    (if Cuts hash (bufferLine key) then cutValue hash key
      else some (storedValue (valuePart key))) = some key.value.text ↔
      ¬ Cuts hash (bareLine key) ∧ key.value.text.length = 511 := by
  have part := valuePart_commented key commented
  have line := bufferLine_commented key commented
  have swallowed := storedValue_swallowed key valueStart
  by_cases present : hash ∈ bareLine key
  · have same : Cuts hash (bufferLine key) ↔ Cuts hash (bareLine key) := by
      rw [line, List.append_assoc]
      exact cuts_append_of_mem hash _ _ present
    by_cases second : Cuts hash (bareLine key)
    · have lost := cutValue_ne key hash (by decide) _ part second
      rw [if_pos (same.mpr second)]
      simp [second, lost]
    · rw [if_neg (same.not.mpr second), part, Option.some.injEq, swallowed]
      simp [second]
  · have uncut : ¬ Cuts hash (bareLine key) := fun cut => present cut.1
    simp only [bareLine, List.mem_append, not_or] at present
    by_cases second : Cuts hash (bufferLine key)
    · have cut : before hash (valuePart key) = key.value.text ++
          space :: semicolon ::
            before hash (space :: key.comment.text.take (commentRoom key)) := by
        rw [part, before_append_of_absent _ _ _ present.2]
        rfl
      rw [if_pos second, cutValue, if_neg present.1.1, cut,
        Option.some.injEq, swallowed]
      simp [uncut]
    · rw [if_neg second, part, Option.some.injEq, swallowed]
      simp [uncut]

include commented valueStart in
theorem carriedValue_commented :
    carriedValue key = some key.value.text ↔ ValueKept key := by
  have part := valuePart_commented key commented
  have separated : Cuts semicolon (bufferLine key) ↔
      Cuts semicolon (bareLine key) ∨ OpenTo (bareLine key) := by
    rw [bufferLine_commented key commented]
    exact cuts_separator _ _ _ (List.forall_mem_singleton.mpr rfl) (by decide)
  rw [carriedValue, ValueKept]
  by_cases first : Cuts semicolon (bareLine key)
  · have lost := cutValue_ne key semicolon (by decide) _ part first
    rw [if_pos (separated.mpr (Or.inl first))]
    simp [first, lost]
  · by_cases opened : OpenTo (bareLine key)
    · rw [if_pos (separated.mpr (Or.inr opened)), if_pos ⟨commented, opened⟩,
        cutValue_opened key opened _ part, Option.some.injEq]
      simp [first]
    · have unfound : ¬ (key.comment.text ≠ [] ∧ OpenTo (bareLine key)) :=
        fun both => opened both.2
      rw [if_neg (separated.not.mpr (not_or.mpr ⟨first, opened⟩)),
        if_neg unfound, if_neg commented,
        carried_swallowed key valueStart commented]
      simp [first]

end Commented

include valueStart in
theorem carriedValue_iff :
    carriedValue key = some key.value.text ↔ ValueKept key := by
  by_cases plain : key.comment.text = []
  · exact carriedValue_plain key plain
  · exact carriedValue_commented key valueStart plain

end Values

end HenPlugins.Ini.CarriedLines
