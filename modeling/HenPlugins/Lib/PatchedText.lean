import Mathlib.Data.List.Basic

/-!
# Patches in a text and patterns they do not fit

A text gives every offset a byte, and a patch replaces the bytes from an offset
on.  Bytes are inert for a pattern when the pattern occurs nowhere over them, so
writing them makes no new occurrence.
-/

set_option autoImplicit false

namespace HenPlugins.Lib.PatchedText

variable {Byte : Type}

/-- The two ranges of offsets have no offset in common. -/
def Clear (first count second otherCount : Nat) : Prop :=
  first + count ≤ second ∨ second + otherCount ≤ first

instance (first count second otherCount : Nat) :
    Decidable (Clear first count second otherCount) :=
  inferInstanceAs (Decidable (_ ∨ _))

/-- The bytes stand in the text from the offset on. -/
def Stands (text : Nat → Byte) (start : Nat) (data : List Byte) : Prop :=
  ∀ (index : Nat) (byte : Byte), data[index]? = some byte →
    text (start + index) = byte

def splice (text : Nat → Byte) (start : Nat) (data : List Byte) :
    Nat → Byte :=
  fun offset =>
    if start ≤ offset then (data[offset - start]?).getD (text offset)
    else text offset

theorem clear_symm (first count second otherCount : Nat)
    (clear : Clear first count second otherCount) :
    Clear second otherCount first count :=
  Or.symm clear

theorem splice_outside (text : Nat → Byte) (start : Nat) (data : List Byte)
    (offset : Nat) (outside : Clear offset 1 start data.length) :
    splice text start data offset = text offset := by
  rw [splice]
  split
  · rename_i behind
    rw [List.getElem?_eq_none (by unfold Clear at outside; omega)]
    rfl
  · rfl

theorem splice_congr (text other : Nat → Byte) (start : Nat)
    (data : List Byte) (offset : Nat) (same : other offset = text offset) :
    splice other start data offset = splice text start data offset := by
  rw [splice, splice, same]

theorem stands_splice (text : Nat → Byte) (start : Nat) (data : List Byte) :
    Stands (splice text start data) start data := by
  intro index byte found
  rw [splice, if_pos (Nat.le_add_right start index),
    Nat.add_sub_cancel_left, found]
  rfl

theorem stands_congr (text other : Nat → Byte) (start : Nat)
    (data : List Byte) (stands : Stands text start data)
    (same : ∀ index < data.length,
      other (start + index) = text (start + index)) :
    Stands other start data := by
  intro index byte found
  obtain ⟨inside, -⟩ := List.getElem?_eq_some_iff.mp found
  rw [same index inside]
  exact stands index byte found

theorem outside_of_clear (start count other otherCount index : Nat)
    (clear : Clear start count other otherCount) (inside : index < count) :
    Clear (start + index) 1 other otherCount := by
  unfold Clear at *
  omega

theorem stands_splice_clear (text : Nat → Byte) (start : Nat)
    (data : List Byte) (other : Nat) (otherData : List Byte)
    (clear : Clear start data.length other otherData.length) :
    Stands (splice text other otherData) start data ↔
      Stands text start data := by
  have same : ∀ index < data.length,
      splice text other otherData (start + index) = text (start + index) := by
    intro index inside
    exact splice_outside text other otherData _
      (outside_of_clear start data.length other otherData.length index clear
        inside)
  constructor
  · intro stands
    exact stands_congr _ _ start data stands fun index inside =>
      (same index inside).symm
  · intro stands
    exact stands_congr _ _ start data stands same

/-- The pattern occurs nowhere over the bytes, whatever stands around them. -/
def Inert (pattern data : List Byte) : Prop :=
  ∀ (text : Nat → Byte) (start position : Nat), Stands text start data →
    Stands text position pattern →
      Clear position pattern.length start data.length

/-- The two byte strings contradict each other, the second one being shifted
by so many places. -/
def Conflict (pattern data : List Byte) (shift : Nat) : Prop :=
  ∃ (index : Nat) (byte other : Byte), pattern[index]? = some byte ∧
    data[index + shift]? = some other ∧ byte ≠ other

/-- No occurrence covers the first of the bytes and none begins behind it. -/
theorem inert_of_conflicts (pattern data : List Byte) (head : Byte)
    (first : data.head? = some head) (foreign : head ∉ pattern)
    (conflicts : ∀ shift, 0 < shift → shift < data.length →
      Conflict pattern data shift) : Inert pattern data := by
  intro text start position stands occurs
  by_contra overlap
  unfold Clear at overlap
  rw [not_or, Nat.not_le, Nat.not_le] at overlap
  obtain ⟨reaches, before⟩ := overlap
  rcases Nat.lt_or_ge start position with behind | front
  · obtain ⟨index, byte, other, inPattern, inData, differ⟩ :=
      conflicts (position - start) (by omega) (by omega)
    have fromPattern := occurs index byte inPattern
    have fromData := stands _ other inData
    rw [show start + (index + (position - start)) = position + index by
      omega, fromPattern] at fromData
    exact differ fromData
  · have inPattern : start - position < pattern.length := by omega
    have fromPattern := occurs (start - position) _
      (List.getElem?_eq_getElem inPattern)
    have fromData := stands 0 head (by rw [← List.head?_eq_getElem?, first])
    rw [Nat.add_sub_of_le front] at fromPattern
    rw [Nat.add_zero, fromPattern] at fromData
    exact foreign (fromData ▸ List.getElem_mem inPattern)

theorem inert_snoc (pattern data : List Byte) (head last : Byte)
    (first : pattern[0]? = some head) (differ : head ≠ last)
    (inert : Inert pattern data) : Inert pattern (data ++ [last]) := by
  intro text start position stands occurs
  have front : Stands text start data := by
    intro index byte found
    obtain ⟨inside, -⟩ := List.getElem?_eq_some_iff.mp found
    apply stands index byte
    rw [List.getElem?_append_left inside]
    exact found
  have final := stands data.length last (by simp)
  have clear := inert text start position front occurs
  have begins := occurs 0 head first
  rw [Nat.add_zero] at begins
  rw [List.length_append, List.length_singleton]
  rcases clear with before | behind
  · exact Or.inl before
  · right
    by_contra near
    have here : position = start + data.length := by omega
    rw [here, final] at begins
    exact differ begins.symm

/-- A patch of inert bytes makes no new occurrence, and none overlaps it. -/
theorem occurrence_of_splice (pattern data : List Byte)
    (inert : Inert pattern data) (text : Nat → Byte) (start position : Nat)
    (occurs : Stands (splice text start data) position pattern) :
    Stands text position pattern ∧
      Clear position pattern.length start data.length := by
  have clear := inert _ start position (stands_splice text start data) occurs
  exact ⟨(stands_splice_clear text position pattern start data clear).mp
    occurs, clear⟩

end HenPlugins.Lib.PatchedText
