import HenPlugins.Ini.WrittenLines
import HenPlugins.Loader.LoadPlugins

/-!
# Truth values across a rewrite

`simple_get_bool` looks at the first word of a value only, and the first word
is what every reading of a written key line keeps: a comment cut, trimming and
the field size change a value behind it.
-/

set_option autoImplicit false

namespace HenPlugins.Loader.Truthiness

open HenPlugins.Lib.ByteText
open HenPlugins.Ini.Text
open HenPlugins.Ini.Store
open HenPlugins.Ini.Load
open HenPlugins.Ini.Save
open HenPlugins.Ini.Loaded
open HenPlugins.Ini.WrittenLines
open HenPlugins.Loader.LoadPlugins

/-- A byte that neither ends a word nor starts a comment. -/
def isWordByte (byte : UInt8) : Bool :=
  !isSpace byte && byte != semicolon && byte != hash

def firstWord (text : Text) : Text :=
  text.takeWhile isWordByte

theorem isWordByte_of_truthy_letter :
    ∀ byte : UInt8, toLower byte ∈
      ascii "1" ++ ascii "enabled" ++ ascii "yes" ++ ascii "on" ++
        ascii "true" → isWordByte byte = true := by
  rintro ⟨⟨byte⟩⟩
  revert byte
  decide +kernel

theorem not_isSpace_of_isWordByte (byte : UInt8)
    (kept : isWordByte byte = true) : isSpace byte = false := by
  simp only [isWordByte, Bool.and_eq_true, Bool.not_eq_true'] at kept
  exact kept.1.1

/-- A prefix test with a word of word bytes sees the first word only. -/
theorem startsWithCase_firstWord (text word : Text)
    (letters : ∀ byte, toLower byte ∈ word.map toLower →
      isWordByte byte = true) :
    startsWithCase (firstWord text) word = startsWithCase text word := by
  rw [Bool.eq_iff_iff]
  simp only [startsWithCase, List.isPrefixOf_iff_prefix]
  constructor
  · intro short
    exact short.trans ((List.takeWhile_prefix isWordByte).map toLower)
  · intro long
    obtain ⟨rest, whole⟩ := long
    obtain ⟨front, back, rfl, frontLower, -⟩ :=
      List.map_eq_append_iff.mp whole.symm
    have inWord : ∀ byte ∈ front, isWordByte byte = true := by
      intro byte member
      apply letters
      rw [← frontLower]
      exact List.mem_map_of_mem member
    rw [firstWord, List.takeWhile_append_of_pos inWord, List.map_append,
      frontLower]
    exact List.prefix_append _ _

theorem simpleGetBool_eq (val : Text) :
    simpleGetBool val =
      (startsWithCase val (ascii "1") || startsWithCase val (ascii "enabled") ||
        startsWithCase val (ascii "yes") || startsWithCase val (ascii "y") ||
        startsWithCase val (ascii "on") ||
        startsWithCase val (ascii "true")) := by
  cases val with
  | nil => rfl
  | cons byte rest => rfl

theorem simpleGetBool_firstWord (val : Text) :
    simpleGetBool (firstWord val) = simpleGetBool val := by
  have letter := isWordByte_of_truthy_letter
  have each : ∀ word : Text,
      word.map toLower ⊆ ascii "1" ++ ascii "enabled" ++ ascii "yes" ++
        ascii "on" ++ ascii "true" →
      startsWithCase (firstWord val) word = startsWithCase val word := by
    intro word inside
    apply startsWithCase_firstWord
    intro byte member
    exact letter byte (inside member)
  rw [simpleGetBool_eq, simpleGetBool_eq, each _ (by decide),
    each _ (by decide), each _ (by decide), each _ (by decide),
    each _ (by decide), each _ (by decide)]

theorem firstWord_before (mark : UInt8) (isMark : isWordByte mark = false)
    (text : Text) : firstWord (before mark text) = firstWord text := by
  rw [firstWord, firstWord, before, List.takeWhile_takeWhile]
  congr 1
  funext byte
  by_cases same : byte = mark
  · simp [same, isMark]
  · simp [same]

theorem firstWord_dropBlanks_before (mark : UInt8)
    (isMark : isWordByte mark = false) (solid : isSpace mark = false)
    (text : Text) :
    firstWord ((before mark text).dropWhile isSpace) =
      firstWord (text.dropWhile isSpace) := by
  induction text with
  | nil => rfl
  | cons byte rest ih =>
      by_cases blank : isSpace byte = true
      · have differ : byte ≠ mark := by
          rintro rfl
          rw [solid] at blank
          contradiction
        have shape : before mark (byte :: rest) = byte :: before mark rest := by
          simp [before, differ]
        rw [shape, List.dropWhile_cons_of_pos blank,
          List.dropWhile_cons_of_pos blank]
        exact ih
      · have headSolid : ∀ head ∈ (byte :: rest).head?,
            isSpace head = false := by
          simpa using blank
        have shortSolid := head_of_isPrefix isSpace
          (before_isPrefix mark (byte :: rest)) headSolid
        rw [dropWhile_of_head isSpace _ headSolid,
          dropWhile_of_head isSpace _ shortSolid,
          firstWord_before mark isMark]

theorem firstWord_trim (text : Text) :
    firstWord (trimWhitespace text) =
      firstWord (text.dropWhile isSpace) :=
  takeWhile_rdropWhile isSpace isWordByte not_isSpace_of_isWordByte _

theorem firstWord_reading (tail part : Text) (reading : Reading tail part) :
    firstWord (trimWhitespace part) = firstWord (tail.dropWhile isSpace) := by
  rw [firstWord_trim]
  rcases reading with rfl | rfl | rfl
  · rfl
  · exact firstWord_dropBlanks_before semicolon rfl rfl tail
  · exact firstWord_dropBlanks_before hash rfl rfl tail

/-- What `ini_save` writes behind a value starts with a blank and a `;`. -/
theorem firstWord_value_tail (value rest comment : Text)
    (valueStart : ∀ first ∈ value.head?, isSpace first = false)
    (isPrefix : rest <+: space :: semicolon :: comment) :
    firstWord ((space :: (value ++ rest)).dropWhile isSpace) =
      firstWord value := by
  have restWord : firstWord (rest.dropWhile isSpace) = [] ∧
      firstWord rest = [] := by
    cases rest with
    | nil => exact ⟨rfl, rfl⟩
    | cons first rest =>
        obtain ⟨rfl, tailPrefix⟩ := List.cons_prefix_cons.mp isPrefix
        refine ⟨?_, rfl⟩
        cases rest with
        | nil => rfl
        | cons second rest =>
            obtain ⟨rfl, -⟩ := List.cons_prefix_cons.mp tailPrefix
            rfl
  rw [List.dropWhile_cons_of_pos rfl]
  cases value with
  | nil => exact restWord.1
  | cons first value =>
      have headSolid := valueStart first (by simp)
      rw [dropWhile_of_head isSpace (first :: value ++ rest)
        (by simpa using headSolid), firstWord, List.takeWhile_append]
      split
      · rename_i whole
        have same := List.IsPrefix.eq_of_length
          (List.takeWhile_prefix isWordByte) whole
        have stop : rest.takeWhile isWordByte = [] := restWord.2
        rw [stop, List.append_nil, firstWord, same]
      · rfl

/-- A value is truthy exactly when what its line is read as is truthy. -/
theorem simpleGetBool_reading (value rest comment part : Text)
    (fits : value.length ≤ 511)
    (valueStart : ∀ first ∈ value.head?, isSpace first = false)
    (isPrefix : rest <+: space :: semicolon :: comment)
    (reading : Reading (space :: (value ++ rest)) part) :
    simpleGetBool ((trimWhitespace part).take 511) = simpleGetBool value := by
  have word : firstWord (trimWhitespace part) = firstWord value := by
    rw [firstWord_reading _ _ reading,
      firstWord_value_tail value rest comment valueStart isPrefix]
  have short : (firstWord value).length ≤ 511 :=
    Nat.le_trans (List.takeWhile_prefix isWordByte).length_le fits
  have cut : firstWord ((trimWhitespace part).take 511) = firstWord value := by
    rw [firstWord, ← List.take_takeWhile, ← firstWord, word,
      List.take_of_length_le short]
  rw [← simpleGetBool_firstWord, cut, simpleGetBool_firstWord]

end HenPlugins.Loader.Truthiness
