import HenPlugins.Ini.Loaded

/-!
# What the loader reads from a line `ini_save` wrote

A header line gives the trimmed name or nothing, and a key line gives the
trimmed key with a value read from the text after ` = `, possibly cut at a
comment character, or nothing when the cut falls into the key.
-/

set_option autoImplicit false

namespace HenPlugins.Ini.WrittenLines

open HenPlugins.Lib.ByteText
open HenPlugins.Lib.SectionedDocument
open HenPlugins.Ini.Text
open HenPlugins.Ini.Store
open HenPlugins.Ini.Load
open HenPlugins.Ini.Save
open HenPlugins.Ini.Loaded

theorem trimWhitespace_length (text : Text) :
    (trimWhitespace text).length ≤ text.length :=
  Nat.le_trans (List.rdropWhile_prefix isSpace _).length_le
    (List.dropWhile_suffix isSpace).length_le

theorem sectionLine_shape (current : Section) :
    ∃ rest, sectionLine current =
      openBracket :: current.name.text ++ closeBracket :: rest := by
  rw [sectionLine]
  split
  · exact ⟨ascii " ; " ++ current.comment.text, by
      simp only [List.cons_append, List.append_assoc]
      rfl⟩
  · exact ⟨[], by
      simp only [List.cons_append]
      rfl⟩

theorem lineItem_eq_readSectionLine (current : Section) :
    lineItem (sectionLine current) =
      (readSectionLine (sectionLine current)).map fun parts =>
        .header (sectionField parts.1).text := by
  obtain ⟨rest, shape⟩ := sectionLine_shape current
  have trimmed : trimWhitespace (sectionLine current) =
      openBracket ::
        (current.name.text ++ closeBracket :: rest).rdropWhile isSpace := by
    rw [shape, List.cons_append]
    exact trim_cons_of_solid isSpace openBracket _ rfl
  rw [lineItem, trimmed]
  rfl

theorem lineItem_sectionLine (current : Section)
    (shaped : ShapedName current.name.text) :
    lineItem (sectionLine current) = none ∨
      lineItem (sectionLine current) =
        some (.header (trimWhitespace current.name.text)) := by
  obtain ⟨rest, shape⟩ := sectionLine_shape current
  rw [lineItem_eq_readSectionLine, readSectionLine]
  simp only
  split
  · rename_i present
    right
    have absent : closeBracket ∉ openBracket :: current.name.text := by
      intro member
      rcases List.mem_cons.mp member with clash | inside
      · exact absurd clash (by decide)
      · exact shaped.noBracket inside
    have isPrefix := extractInline_isPrefix (sectionLine current)
    rw [shape] at isPrefix present
    obtain ⟨shorter, same, -⟩ := prefix_through_mark closeBracket
      (openBracket :: current.name.text) rest _ absent isPrefix present
    have bound := Nat.lt_of_le_of_lt
      (trimWhitespace_length current.name.text) current.name.fits
    simp only [maxSectionLength] at bound
    rw [shape, same, before_append_of_not_mem _ _ _ absent]
    simp only [Option.map_some, sectionField_text, List.drop_succ_cons,
      List.drop_zero]
    rw [List.take_of_length_le (by omega)]
  · exact Or.inl rfl

/-- The readings of the text after ` = `: all of it, or a cut at the first
comment character of either kind. -/
def Reading (tail part : Text) : Prop :=
  part = tail ∨ part = before semicolon tail ∨ part = before hash tail

theorem before_append_of_absent (mark : UInt8) (front tail : Text)
    (absent : mark ∉ front) :
    before mark (front ++ tail) = front ++ before mark tail := by
  rw [before, List.takeWhile_append_of_pos]
  · rfl
  · intro byte member
    simpa using fun same : byte = mark => absent (same ▸ member)

theorem before_eq_of_mem_front (mark : UInt8) (front tail : Text)
    (present : mark ∈ front) :
    before mark (front ++ tail) = before mark front := by
  conv_lhs => rw [split_at_mark mark front present, List.append_assoc]
  exact before_append_of_not_mem mark _ _ (not_mem_before mark front)

theorem cuts_append_of_mem (mark : UInt8) (name rest : Text)
    (present : mark ∈ name) :
    Cuts mark (name ++ rest) ↔ Cuts mark name := by
  simp only [Cuts]
  rw [before_eq_of_mem_front mark name rest present]
  simp [present]

theorem cuts_append_of_absent (mark : UInt8) (name rest : Text)
    (absent : mark ∉ rest) :
    Cuts mark (name ++ rest) ↔ Cuts mark name := by
  by_cases present : mark ∈ name
  · exact cuts_append_of_mem mark name rest present
  · simp only [Cuts]
    simp [present, absent]

section Keyed
variable {name : Text} (tail : Text) (fits : name.length ≤ 255)
  (noEquals : equalsSign ∉ name)
  (keyStart : ∀ first ∈ name.head?, KeyStart first)

include keyStart in
theorem lineItem_eq_readKeyLine :
    lineItem (name ++ space :: equalsSign :: tail) =
      (readKeyLine (name ++ space :: equalsSign :: tail)).map fun parts =>
        .entry (keyField parts.1).text (valueField parts.2.1).text := by
  cases name with
  | nil =>
      have trimmed : trimWhitespace (space :: equalsSign :: tail) =
          equalsSign :: tail.rdropWhile isSpace := by
        rw [trimWhitespace, trim_cons_of_blank isSpace _ _ rfl]
        exact trim_cons_of_solid isSpace _ _ rfl
      rw [lineItem, List.nil_append, trimmed]
      rfl
  | cons first name =>
      obtain ⟨solid, notSemicolon, notHash, notBracket⟩ :=
        keyStart first (by simp)
      rw [lineItem, List.cons_append, trimWhitespace,
        trim_cons_of_solid isSpace first _ solid]
      simp [notSemicolon, notHash, notBracket]

include keyStart in
/-- A comment cut that falls into the name loses the line. -/
theorem lineItem_lost
    (lost : equalsSign ∉
      (extractInline (name ++ space :: equalsSign :: tail)).1) :
    lineItem (name ++ space :: equalsSign :: tail) = none := by
  rw [lineItem_eq_readKeyLine tail keyStart, readKeyLine, if_pos (by simp)]
  simp only [if_neg lost]
  rfl

include keyStart in
theorem trimWhitespace_before_equals :
    trimWhitespace (name ++ [space]) = trimWhitespace name := by
  cases name with
  | nil => decide
  | cons first name =>
      have solid := (keyStart first (by simp)).1
      rw [trimWhitespace, trimWhitespace,
        trim_of_head isSpace (first :: name) (by simpa using solid),
        trim_of_head isSpace _ (by simpa using solid)]
      exact rdropWhile_append_of_all isSpace _ _
        (List.forall_mem_singleton.mpr rfl)

include fits noEquals keyStart in
/-- A cut behind the `=` leaves the name and what the cut keeps of the rest. -/
theorem lineItem_read (part : Text)
    (cut : (extractInline (name ++ space :: equalsSign :: tail)).1 =
      name ++ space :: equalsSign :: part) :
    lineItem (name ++ space :: equalsSign :: tail) =
      some (.entry (trimWhitespace name)
        ((trimWhitespace part).take 511)) := by
  have absent : equalsSign ∉ name ++ [space] := by
    intro member
    rcases List.mem_append.mp member with inside | clash
    · exact noEquals inside
    · exact absurd (List.mem_singleton.mp clash) (by decide)
  have nameFits : (trimWhitespace name).take 255 = trimWhitespace name :=
    List.take_of_length_le
      (Nat.le_trans (trimWhitespace_length name) fits)
  have regroup : name ++ space :: equalsSign :: part =
      (name ++ [space]) ++ equalsSign :: part := by simp
  rw [lineItem_eq_readKeyLine tail keyStart, readKeyLine, if_pos (by simp)]
  simp only [cut]
  rw [if_pos (by simp), regroup, before_append_of_not_mem _ _ _ absent,
    after_append_of_not_mem _ _ _ absent]
  simp only [Option.map_some, keyField_text, valueField_text,
    trimWhitespace_before_equals keyStart, nameFits]

include fits noEquals keyStart in
theorem lineItem_keyed :
    (lineItem (name ++ space :: equalsSign :: tail) = none ∧
        (semicolon ∈ name ∨ hash ∈ name)) ∨
      ∃ part, Reading tail part ∧
        lineItem (name ++ space :: equalsSign :: tail) =
          some (.entry (trimWhitespace name)
            ((trimWhitespace part).take 511)) := by
  rcases extractInline_cases (name ++ space :: equalsSign :: tail) with
    same | ⟨mark, markKind, present, cut⟩
  · right
    exact ⟨tail, Or.inl rfl,
      lineItem_read tail fits noEquals keyStart tail (by rw [same])⟩
  · have markSpace : mark ≠ space := by
      rcases markKind with rfl | rfl <;> decide
    have markEquals : mark ≠ equalsSign := by
      rcases markKind with rfl | rfl <;> decide
    by_cases inName : mark ∈ name
    · left
      refine ⟨lineItem_lost tail keyStart ?_, ?_⟩
      · rw [cut, before_eq_of_mem_front mark name _ inName]
        intro member
        exact noEquals ((before_isPrefix mark name).subset member)
      · rcases markKind with rfl | rfl
        · exact Or.inl inName
        · exact Or.inr inName
    · right
      have notFront : mark ∉ (name ++ [space]) ++ [equalsSign] := by
        simp [inName, markSpace, markEquals]
      have shape : before mark (name ++ space :: equalsSign :: tail) =
          name ++ space :: equalsSign :: before mark tail := by
        have front := before_append_of_absent mark
          ((name ++ [space]) ++ [equalsSign]) tail notFront
        simpa using front
      refine ⟨before mark tail, ?_, lineItem_read tail fits noEquals keyStart
        _ (by rw [cut, shape])⟩
      rcases markKind with rfl | rfl
      · exact Or.inr (Or.inl rfl)
      · exact Or.inr (Or.inr rfl)

end Keyed

/-- The text a key line holds after its ` =`. -/
def keyTail (key : KeyValue) : Text :=
  if key.comment.text.length > 0 then
    space :: (key.value.text ++ ascii " ; " ++ key.comment.text)
  else space :: key.value.text

theorem keyLine_shape (key : KeyValue) :
    keyLine key = key.key.text ++ space :: equalsSign :: keyTail key := by
  unfold keyLine keyTail
  split
  · simp only [List.append_assoc]
    rfl
  · simp only [List.append_assoc]
    rfl

theorem keyItems_of_fits (key : KeyValue) (safe : SafeKey key)
    (fits : (keyLine key).length < maxLineLength) :
    keyItems key = (lineItem (keyLine key)).toList :=
  contentItems_line (keyLine key) (keyLine_safe key safe) fits

theorem lineItem_keyLine (key : KeyValue) (shaped : ShapedKey key) :
    (lineItem (keyLine key) = none ∧
        (semicolon ∈ key.key.text ∨ hash ∈ key.key.text)) ∨
      ∃ part, Reading (keyTail key) part ∧
        lineItem (keyLine key) = some (.entry (trimWhitespace key.key.text)
          ((trimWhitespace part).take 511)) := by
  have bound := key.key.fits
  simp only [maxKeyLength] at bound
  rw [keyLine_shape]
  exact lineItem_keyed (keyTail key) (by omega) shaped.noEquals
    shaped.keyStart

end HenPlugins.Ini.WrittenLines
