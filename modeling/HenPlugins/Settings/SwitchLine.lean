import HenPlugins.Ini.WrittenLines

/-!
# The line of a switch

A switch is a key whose value is a single digit.  Its line reads back exactly
when no comment mark cuts the name: without a stored comment each mark of the
name must be missing or quoted, and with one the name must hold no `;` and
leave no quote open, or the stored comment becomes part of the value.
-/

set_option autoImplicit false

namespace HenPlugins.Settings.SwitchLine

open HenPlugins.Lib.ByteText
open HenPlugins.Lib.SectionedDocument
open HenPlugins.Ini.Text
open HenPlugins.Ini.Store
open HenPlugins.Ini.Load
open HenPlugins.Ini.Save
open HenPlugins.Ini.Loaded
open HenPlugins.Ini.WrittenLines

/-- No comment cut falls into the name or goes missing because of it. -/
def NameKept (name : Text) (commented : Bool) : Prop :=
  if commented then semicolon ∉ name ∧ scanQuotes false name = false
  else ¬ Cuts semicolon name ∧ ¬ Cuts hash name

instance (name : Text) (commented : Bool) :
    Decidable (NameKept name commented) :=
  inferInstanceAs (Decidable (if commented then
    semicolon ∉ name ∧ scanQuotes false name = false
  else ¬ Cuts semicolon name ∧ ¬ Cuts hash name))

/-- With no mark behind the name, the name alone decides the cut. -/
theorem extractInline_plain_tail (name rest : Text)
    (noSemicolon : semicolon ∉ rest) (noHash : hash ∉ rest) :
    (¬ Cuts semicolon name ∧ ¬ Cuts hash name →
        (extractInline (name ++ rest)).1 = name ++ rest) ∧
      (¬ (¬ Cuts semicolon name ∧ ¬ Cuts hash name) →
        (extractInline (name ++ rest)).1 <+: name) := by
  rw [extractInline_eq]
  simp only [cuts_append_of_absent semicolon name rest noSemicolon,
    cuts_append_of_absent hash name rest noHash]
  refine ⟨?_, ?_⟩
  · intro kept
    rw [if_neg kept.1, if_neg kept.2]
  · intro cut
    by_cases first : Cuts semicolon name
    · rw [if_pos first, before_eq_of_mem_front _ _ _ first.1]
      exact before_isPrefix _ _
    · have second : Cuts hash name := by
        by_contra absent
        exact cut ⟨first, absent⟩
      rw [if_neg first, if_pos second,
        before_eq_of_mem_front _ _ _ second.1]
      exact before_isPrefix _ _

/-- The `;` that `ini_save` puts before a comment is found, unless the name
holds one already or leaves a quote open; then the cut falls into the name or
behind the separator. -/
theorem extractInline_separator (name middle comment : Text)
    (plain : ∀ byte ∈ middle, isQuote byte = false)
    (noSemicolon : semicolon ∉ middle) (noHash : hash ∉ middle) :
    (semicolon ∉ name ∧ scanQuotes false name = false →
        (extractInline (name ++ middle ++ semicolon :: comment)).1 =
          name ++ middle) ∧
      (¬ (semicolon ∉ name ∧ scanQuotes false name = false) →
        (extractInline (name ++ middle ++ semicolon :: comment)).1 <+: name ∨
          ∃ rest,
            (extractInline (name ++ middle ++ semicolon :: comment)).1 =
              name ++ middle ++ semicolon :: rest) := by
  have opened : semicolon ∉ name →
      (Cuts semicolon (name ++ middle ++ semicolon :: comment) ↔
        scanQuotes false name = false) := by
    intro present
    have absent : semicolon ∉ name ++ middle := by
      simp [present, noSemicolon]
    rw [Cuts, before_append_of_not_mem _ _ _ absent,
      scanQuotes_append_plain _ _ _ plain]
    simp
  rw [extractInline_eq]
  refine ⟨?_, ?_⟩
  · intro kept
    have absent : semicolon ∉ name ++ middle := by
      simp [kept.1, noSemicolon]
    rw [if_pos ((opened kept.1).mpr kept.2),
      before_append_of_not_mem _ _ _ absent]
  · intro broken
    by_cases first : Cuts semicolon (name ++ middle ++ semicolon :: comment)
    · left
      have present : semicolon ∈ name := by
        by_contra absent
        exact broken ⟨absent, (opened absent).mp first⟩
      rw [if_pos first, List.append_assoc,
        before_eq_of_mem_front _ _ _ present]
      exact before_isPrefix _ _
    · rw [if_neg first]
      by_cases second : Cuts hash (name ++ middle ++ semicolon :: comment)
      · rw [if_pos second]
        by_cases present : hash ∈ name
        · left
          rw [List.append_assoc, before_eq_of_mem_front _ _ _ present]
          exact before_isPrefix _ _
        · right
          have absent : hash ∉ name ++ middle ++ [semicolon] := by
            have apart : hash ≠ semicolon := by decide
            simp [present, noHash, apart]
          refine ⟨before hash comment, ?_⟩
          have front := before_append_of_absent hash
            (name ++ middle ++ [semicolon]) comment absent
          simpa using front
      · right
        exact ⟨comment, by rw [if_neg second]⟩

theorem trimmed_separator_ne_digit (digit : UInt8) (rest : Text)
    (solid : isSpace digit = false) :
    (trimWhitespace (space :: digit :: space :: semicolon :: rest)).take 511 ≠
      [digit] := by
  have remains : (space :: semicolon :: rest).rdropWhile isSpace ≠ [] := by
    intro empty
    rw [List.rdropWhile_eq_nil_iff] at empty
    exact absurd (empty semicolon (by simp)) (by decide)
  obtain ⟨next, others, shape⟩ := List.exists_cons_of_ne_nil remains
  rw [trimWhitespace, trim_cons_of_blank isSpace _ _ rfl,
    trim_cons_of_solid isSpace digit _ solid, shape]
  simp

section Switch
variable (key : KeyValue) (digit : UInt8)
  (isDigit : digit = '0'.toUInt8 ∨ digit = '1'.toUInt8)
  (shaped : ShapedKey key)
  (trimmed : trimWhitespace key.key.text = key.key.text)
  (value : key.value.text = [digit])

theorem name_fits : key.key.text.length ≤ 255 := by
  have bound := key.key.fits
  simp only [maxKeyLength] at bound
  omega

include shaped in
/-- A cut that leaves no more than the name loses the line. -/
theorem lineItem_ne_of_cut (tail : Text)
    (cut : (extractInline
      (key.key.text ++ space :: equalsSign :: tail)).1 <+: key.key.text) :
    lineItem (key.key.text ++ space :: equalsSign :: tail) ≠
      some (.entry key.key.text [digit]) := by
  intro read
  rw [lineItem_lost tail shaped.keyStart fun member =>
    shaped.noEquals (cut.subset member)] at read
  contradiction

include isDigit shaped trimmed value in
theorem commentedLine_reads_iff (commented : key.comment.text.length > 0) :
    lineItem (keyLine key) = some (.entry key.key.text [digit]) ↔
      semicolon ∉ key.key.text ∧ scanQuotes false key.key.text = false := by
  have fits := name_fits key
  have digitSolid : isSpace digit = false := by
    rcases isDigit with rfl | rfl <;> rfl
  have middlePlain : ∀ byte ∈ [space, equalsSign, space, digit, space],
      isQuote byte = false := by
    simp only [List.forall_mem_cons, List.not_mem_nil, false_implies,
      implies_true, and_true]
    rcases isDigit with rfl | rfl <;> decide
  have noSemicolon : semicolon ∉ [space, equalsSign, space, digit, space] := by
    rcases isDigit with rfl | rfl <;> decide
  have noHash : hash ∉ [space, equalsSign, space, digit, space] := by
    rcases isDigit with rfl | rfl <;> decide
  have shape : keyTail key =
      space :: digit :: space :: semicolon :: space :: key.comment.text := by
    rw [keyTail, if_pos commented, value]
    rfl
  have regroup : ∀ rest, key.key.text ++ space :: equalsSign ::
        space :: digit :: space :: semicolon :: rest =
      key.key.text ++ [space, equalsSign, space, digit, space] ++
        semicolon :: rest := by simp
  obtain ⟨found, notFound⟩ := extractInline_separator key.key.text
    [space, equalsSign, space, digit, space] (space :: key.comment.text)
    middlePlain noSemicolon noHash
  rw [← regroup] at found notFound
  rw [keyLine_shape, shape]
  constructor
  · intro read
    by_contra broken
    rcases notFound broken with cut | ⟨rest, cut⟩
    · exact lineItem_ne_of_cut key digit shaped _ cut read
    · rw [← regroup] at cut
      rw [lineItem_read _ fits shaped.noEquals shaped.keyStart _ cut] at read
      simp only [Option.some.injEq, Item.entry.injEq] at read
      exact trimmed_separator_ne_digit digit rest digitSolid read.2
  · intro kept
    rw [lineItem_read _ fits shaped.noEquals shaped.keyStart
      [space, digit, space] (found kept), trimmed]
    rcases isDigit with rfl | rfl <;> rfl

include isDigit shaped value in
theorem plainLine_item (plain : ¬ key.comment.text.length > 0) :
    lineItem (keyLine key) =
      if NameKept key.key.text false then
        some (.entry (trimWhitespace key.key.text) [digit])
      else none := by
  have noSemicolon : semicolon ∉ [space, equalsSign, space, digit] := by
    rcases isDigit with rfl | rfl <;> decide
  have noHash : hash ∉ [space, equalsSign, space, digit] := by
    rcases isDigit with rfl | rfl <;> decide
  have shape : keyTail key = [space, digit] := by
    rw [keyTail, if_neg plain, value]
  obtain ⟨kept, cut⟩ := extractInline_plain_tail key.key.text
    [space, equalsSign, space, digit] noSemicolon noHash
  rw [keyLine_shape, shape]
  by_cases uncut : NameKept key.key.text false
  · rw [if_pos uncut, lineItem_read _ (name_fits key) shaped.noEquals
      shaped.keyStart [space, digit] (kept uncut)]
    rcases isDigit with rfl | rfl <;> rfl
  · rw [if_neg uncut, lineItem_lost _ shaped.keyStart]
    intro member
    exact shaped.noEquals ((cut uncut).subset member)

include isDigit shaped trimmed value in
theorem plainLine_reads_iff (plain : ¬ key.comment.text.length > 0) :
    lineItem (keyLine key) = some (.entry key.key.text [digit]) ↔
      ¬ Cuts semicolon key.key.text ∧ ¬ Cuts hash key.key.text := by
  rw [plainLine_item key digit isDigit shaped value plain, trimmed]
  by_cases uncut : NameKept key.key.text false
  · rw [if_pos uncut]
    exact ⟨fun _ => uncut, fun _ => rfl⟩
  · rw [if_neg uncut]
    constructor
    · intro impossible
      exact absurd impossible.symm (Option.some_ne_none _)
    · exact fun kept => absurd kept uncut

include isDigit shaped trimmed value in
/-- Exactly a kept name makes the line read as what it was written for. -/
theorem switchLine_reads_iff :
    lineItem (keyLine key) = some (.entry key.key.text [digit]) ↔
      NameKept key.key.text (key.comment.text.length > 0) := by
  by_cases commented : key.comment.text.length > 0
  · rw [NameKept, if_pos (by simpa using commented)]
    exact commentedLine_reads_iff key digit isDigit shaped trimmed value
      commented
  · rw [NameKept, if_neg (by simpa using commented)]
    exact plainLine_reads_iff key digit isDigit shaped trimmed value commented

end Switch

end HenPlugins.Settings.SwitchLine
