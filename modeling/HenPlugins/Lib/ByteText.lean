import Mathlib.Data.List.DropRight

/-!
# Byte strings of the C library

A C string is the list of its bytes before the terminating NUL.  The module
fixes the character classes of the "C" locale, blank trimming on both sides,
splitting at the first occurrence of a character, prefix comparison with and
without case, and the fixed-size character field that `strncpy` fills.
-/

set_option autoImplicit false

namespace HenPlugins.Lib.ByteText

abbrev Text := List UInt8

/-- The bytes of an ASCII literal. -/
def ascii (literal : String) : Text :=
  literal.toList.map Char.toUInt8

/-- `isspace`: space, and `\t \n \v \f \r`. -/
def isSpace (byte : UInt8) : Bool :=
  byte == 0x20 || (0x09 ≤ byte && byte ≤ 0x0d)

def toLower (byte : UInt8) : UInt8 :=
  if 0x41 ≤ byte && byte ≤ 0x5a then byte + 0x20 else byte

def toUpper (byte : UInt8) : UInt8 :=
  if 0x61 ≤ byte && byte ≤ 0x7a then byte - 0x20 else byte

/-- `strncmp(subject, word, strlen(word)) == 0`. -/
def startsWith (subject word : Text) : Bool :=
  word.isPrefixOf subject

/-- `strncasecmp(subject, word, strlen(word)) == 0`. -/
def startsWithCase (subject word : Text) : Bool :=
  (word.map toLower).isPrefixOf (subject.map toLower)

section Trim
variable {α : Type} (blank : α → Bool)

/-- Drop a maximal blank prefix, then a maximal blank suffix. -/
def trim (line : List α) : List α :=
  (line.dropWhile blank).rdropWhile blank

theorem dropWhile_of_head (line : List α)
    (headSolid : ∀ head ∈ line.head?, blank head = false) :
    line.dropWhile blank = line := by
  cases line with
  | nil => rfl
  | cons head rest =>
      have solid : blank head = false := headSolid head (by simp)
      simp [solid]

theorem head_dropWhile (line : List α) :
    ∀ head ∈ (line.dropWhile blank).head?, blank head = false := by
  intro head member
  induction line with
  | nil => simp at member
  | cons first rest ih =>
      by_cases solid : blank first
      · rw [List.dropWhile_cons_of_pos solid] at member
        exact ih member
      · rw [List.dropWhile_cons_of_neg solid] at member
        simp only [List.head?_cons, Option.mem_def, Option.some.injEq] at member
        subst member
        simpa using solid

theorem head_of_isPrefix {front line : List α} (isPrefix : front <+: line)
    (property : ∀ head ∈ line.head?, blank head = false) :
    ∀ head ∈ front.head?, blank head = false := by
  intro head member
  obtain ⟨rest, rfl⟩ := isPrefix
  cases front with
  | nil => simp at member
  | cons first tail => exact property head (by simpa using member)

theorem head_trim (line : List α) :
    ∀ head ∈ (trim blank line).head?, blank head = false :=
  head_of_isPrefix blank (List.rdropWhile_prefix blank _)
    (head_dropWhile blank line)

theorem trim_of_head (line : List α)
    (headSolid : ∀ head ∈ line.head?, blank head = false) :
    trim blank line = line.rdropWhile blank := by
  rw [trim, dropWhile_of_head blank line headSolid]

theorem trim_idempotent (line : List α) :
    trim blank (trim blank line) = trim blank line := by
  rw [trim_of_head blank _ (head_trim blank line)]
  exact List.rdropWhile_idempotent blank _

theorem trim_cons_of_blank (head : α) (rest : List α) (isBlank : blank head) :
    trim blank (head :: rest) = trim blank rest := by
  rw [trim, trim, List.dropWhile_cons_of_pos isBlank]

/-- The blanks that are dropped lie behind the last solid item. -/
theorem rdropWhile_append_of_solid (front : List α) (solid : α)
    (rest : List α) (isSolid : blank solid = false) :
    (front ++ solid :: rest).rdropWhile blank =
      front ++ solid :: rest.rdropWhile blank := by
  have stops : (solid :: front.reverse).dropWhile blank =
      solid :: front.reverse :=
    List.dropWhile_cons_of_neg (by simp [isSolid])
  rw [List.rdropWhile, List.rdropWhile, List.reverse_append,
    List.reverse_cons, List.append_assoc, List.singleton_append,
    List.dropWhile_append, stops]
  cases kept : rest.reverse.dropWhile blank with
  | nil => simp
  | cons first others => simp

theorem rdropWhile_cons_of_solid (head : α) (rest : List α)
    (solid : blank head = false) :
    (head :: rest).rdropWhile blank = head :: rest.rdropWhile blank :=
  rdropWhile_append_of_solid blank [] head rest solid

theorem trim_cons_of_solid (head : α) (rest : List α)
    (solid : blank head = false) :
    trim blank (head :: rest) = head :: rest.rdropWhile blank := by
  rw [trim, List.dropWhile_cons_of_neg (by simp [solid])]
  exact rdropWhile_cons_of_solid blank head rest solid

/-- A prefix starts, after its blanks, with the byte the whole starts with. -/
theorem head_trim_of_isPrefix {front line : List α} (isPrefix : front <+: line) :
    ∀ head ∈ (trim blank front).head?, head ∈ (trim blank line).head? := by
  obtain ⟨rest, rfl⟩ := isPrefix
  intro head member
  induction front with
  | nil => simp [trim] at member
  | cons first front ih =>
      by_cases solid : blank first
      · rw [List.cons_append, trim, List.dropWhile_cons_of_pos solid]
        rw [trim, List.dropWhile_cons_of_pos solid] at member
        exact ih member
      · rw [List.cons_append, trim_cons_of_solid blank _ _ (by simpa using solid)]
        rw [trim_cons_of_solid blank _ _ (by simpa using solid)] at member
        simpa using member

theorem trim_subset (line : List α) : trim blank line ⊆ line :=
  List.Subset.trans (List.rdropWhile_prefix blank _).subset
    (List.dropWhile_suffix blank).subset

theorem rdropWhile_append_of_all (front tail : List α)
    (allBlank : ∀ item ∈ tail, blank item) :
    (front ++ tail).rdropWhile blank = front.rdropWhile blank := by
  induction tail using List.reverseRecOn with
  | nil => simp
  | append_singleton tail last ih =>
      rw [← List.append_assoc,
        List.rdropWhile_concat_pos blank _ last (allBlank last (by simp))]
      exact ih fun item member => allBlank item (by simp [member])

theorem trim_append_of_all (front tail : List α)
    (allBlank : ∀ item ∈ tail, blank item) :
    trim blank (front ++ tail) = trim blank front := by
  rw [trim, trim, List.dropWhile_append]
  split
  · rename_i empty
    rw [List.isEmpty_iff.mp empty, List.dropWhile_eq_nil_iff.mpr allBlank]
  · exact rdropWhile_append_of_all blank _ tail allBlank

theorem rdropWhile_decompose (line : List α) :
    ∃ tail, line = line.rdropWhile blank ++ tail ∧ ∀ item ∈ tail, blank item :=
  ⟨line.rtakeWhile blank, List.rdropWhile_append_rtakeWhile.symm,
    fun _ member => List.mem_rtakeWhile_imp member⟩

theorem mem_trim_of_solid (line : List α) (item : α) (member : item ∈ line)
    (solid : blank item = false) : item ∈ trim blank line := by
  have inner : item ∈ line.dropWhile blank := by
    rw [← List.takeWhile_append_dropWhile (p := blank) (l := line)] at member
    rcases List.mem_append.mp member with early | late
    · rw [List.mem_takeWhile_imp early] at solid
      contradiction
    · exact late
  obtain ⟨tail, split, allBlank⟩ :=
    rdropWhile_decompose blank (line.dropWhile blank)
  rw [split] at inner
  rcases List.mem_append.mp inner with kept | dropped
  · exact kept
  · rw [allBlank item dropped] at solid
    contradiction

theorem takeWhile_rdropWhile (keep : α → Bool)
    (apart : ∀ item, keep item = true → blank item = false) (line : List α) :
    (line.rdropWhile blank).takeWhile keep = line.takeWhile keep := by
  obtain ⟨tail, split, allBlank⟩ := rdropWhile_decompose blank line
  have tailStops : tail.takeWhile keep = [] := by
    cases tail with
    | nil => rfl
    | cons head rest =>
        have headBlank := allBlank head (by simp)
        have dropped : keep head = false := by
          by_contra kept
          rw [apart head (by simpa using kept)] at headBlank
          exact absurd headBlank (by simp)
        simp [dropped]
  conv_rhs => rw [split]
  rw [List.takeWhile_append]
  split
  · rename_i whole
    rw [tailStops, List.append_nil]
    exact List.takeWhile_eq_self_iff.mpr fun item member => by
      have same := List.IsPrefix.eq_of_length (List.takeWhile_prefix keep) whole
      rw [← same] at member
      exact List.mem_takeWhile_imp member
  · rfl

end Trim

/-- The bytes before the first `mark` (the whole string when there is none). -/
def before (mark : UInt8) (line : Text) : Text :=
  line.takeWhile (· != mark)

/-- The bytes after the first `mark`. -/
def after (mark : UInt8) (line : Text) : Text :=
  (line.dropWhile (· != mark)).drop 1

theorem before_append_of_not_mem (mark : UInt8) (front rest : Text)
    (absent : mark ∉ front) :
    before mark (front ++ mark :: rest) = front := by
  rw [before, List.takeWhile_append_of_pos]
  · simp
  · intro byte member
    simpa using fun same : byte = mark => absent (same ▸ member)

theorem after_append_of_not_mem (mark : UInt8) (front rest : Text)
    (absent : mark ∉ front) :
    after mark (front ++ mark :: rest) = rest := by
  rw [after, List.dropWhile_append_of_pos]
  · simp
  · intro byte member
    simpa using fun same : byte = mark => absent (same ▸ member)

theorem before_isPrefix (mark : UInt8) (line : Text) :
    before mark line <+: line :=
  List.takeWhile_prefix _

theorem after_suffix (mark : UInt8) (line : Text) :
    after mark line <:+ line :=
  (List.drop_suffix 1 _).trans (List.dropWhile_suffix _)

theorem not_mem_before (mark : UInt8) (line : Text) :
    mark ∉ before mark line := by
  intro member
  have kept := List.mem_takeWhile_imp member
  simp at kept

/-- A prefix that still has the first mark agrees with the whole up to it. -/
theorem prefix_through_mark (mark : UInt8) (front rest part : Text)
    (absent : mark ∉ front) (isPrefix : part <+: front ++ mark :: rest)
    (present : mark ∈ part) :
    ∃ shorter, part = front ++ mark :: shorter ∧ shorter <+: rest := by
  rcases List.prefix_or_prefix_of_prefix isPrefix
    (List.prefix_append front (mark :: rest)) with short | ⟨tail, rfl⟩
  · exact absurd (short.subset present) absent
  · rw [List.prefix_append_right_inj] at isPrefix
    cases tail with
    | nil =>
        rw [List.append_nil] at present
        exact absurd present absent
    | cons head tail =>
        rw [List.cons_prefix_cons] at isPrefix
        exact ⟨tail, by rw [isPrefix.1], isPrefix.2⟩

theorem split_at_mark (mark : UInt8) (line : Text) (present : mark ∈ line) :
    line = before mark line ++ mark :: after mark line := by
  have whole := List.takeWhile_append_dropWhile (p := (· != mark)) (l := line)
  cases tail : line.dropWhile (· != mark) with
  | nil =>
      rw [List.dropWhile_eq_nil_iff] at tail
      exact absurd (tail mark present) (by simp)
  | cons head rest =>
      have stop := head_dropWhile (· != mark) line head (by simp [tail])
      have headMark : head = mark := by simpa using stop
      rw [tail, headMark] at whole
      rw [before, after, tail]
      exact whole.symm

/-- `snprintf`: what fits in front of the NUL. -/
def snprintf (outSz : Nat) (text : Text) : Text := text.take (outSz - 1)

theorem snprintf_of_fits (outSz : Nat) (text : Text)
    (fits : text.length < outSz) : snprintf outSz text = text :=
  List.take_of_length_le (by omega)

/-- A `char[size]` array that holds a NUL-terminated string. -/
structure CField (size : Nat) where
  text : Text
  fits : text.length < size
  deriving DecidableEq

/-- `strncpy(field, source, size - 1)` followed by a NUL in the last byte. -/
def CField.copy (size : Nat) (positive : 0 < size) (source : Text) :
    CField size :=
  ⟨source.take (size - 1), by
    have bound := List.length_take_le (size - 1) source
    omega⟩

end HenPlugins.Lib.ByteText
