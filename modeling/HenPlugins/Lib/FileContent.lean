import Mathlib.Data.List.Basic

/-!
# The content of a file

A write replaces the bytes from a position on; between the end of the file and
the position there are zeros.  Resizing cuts the file or fills it with zeros.
-/

set_option autoImplicit false

namespace HenPlugins.Lib.FileContent

variable {Byte : Type} (zero : Byte)

def resize (file : List Byte) (size : Nat) : List Byte :=
  file.take size ++ List.replicate (size - file.length) zero

/-- Writing nothing does not extend the file. -/
def writeAt (file : List Byte) (position : Nat) (data : List Byte) :
    List Byte :=
  if data = [] then file
  else resize zero file position ++ data ++ file.drop (position + data.length)

@[simp] theorem length_resize (file : List Byte) (size : Nat) :
    (resize zero file size).length = size := by
  rw [resize, List.length_append, List.length_take, List.length_replicate]
  omega

theorem resize_within (file : List Byte) (size : Nat)
    (within : size ≤ file.length) : resize zero file size = file.take size := by
  rw [resize, Nat.sub_eq_zero_of_le within, List.replicate_zero,
    List.append_nil]

theorem resize_append (front back : List Byte) (size : Nat)
    (within : size ≤ front.length) :
    resize zero (front ++ back) size = front.take size := by
  rw [resize_within zero _ size (by rw [List.length_append]; omega),
    List.take_append_of_le_length within]

theorem writeAt_append (file data later : List Byte) (position : Nat) :
    writeAt zero (writeAt zero file position data) (position + data.length)
        later =
      writeAt zero file position (data ++ later) := by
  by_cases none : data = []
  · subst none
    rfl
  by_cases nothing : later = []
  · subst nothing
    rw [List.append_nil, writeAt, if_pos rfl]
  have both : data ++ later ≠ [] := by simp [none]
  rw [writeAt, if_neg nothing, writeAt, if_neg none, writeAt, if_neg both]
  have front : (resize zero file position ++ data).length =
      position + data.length := by
    rw [List.length_append, length_resize]
  have kept : resize zero (resize zero file position ++ data ++
      file.drop (position + data.length)) (position + data.length) =
        resize zero file position ++ data := by
    rw [resize_append zero _ _ _ (Nat.le_of_eq front.symm), ← front, List.take_length]
  have rest : (resize zero file position ++ data ++
      file.drop (position + data.length)).drop
        (position + data.length + later.length) =
          file.drop (position + (data ++ later).length) := by
    rw [← front, List.drop_length_add_append, front, List.drop_drop,
      List.length_append, Nat.add_assoc]
  rw [kept, rest, ← List.append_assoc]

/-- Cutting behind what was written leaves the start and the data. -/
theorem resize_writeAt (file data : List Byte) (position : Nat) :
    resize zero (writeAt zero file position data) (position + data.length) =
      resize zero file position ++ data := by
  rw [writeAt]
  split
  · rename_i none
    rw [none, List.length_nil, Nat.add_zero, List.append_nil]
  · have front : (resize zero file position ++ data).length =
        position + data.length := by
      rw [List.length_append, length_resize]
    rw [resize_append zero _ _ _ (Nat.le_of_eq front.symm), ← front, List.take_length]

/-- The bytes stand in the file from the position on. -/
def Contains (file : List Byte) (position : Nat) (data : List Byte) : Prop :=
  ∀ (index : Nat) (byte : Byte), data[index]? = some byte →
    file[position + index]? = some byte

theorem contains_writeAt (file data : List Byte) (position : Nat) :
    Contains (writeAt zero file position data) position data := by
  intro index byte found
  obtain ⟨inside, -⟩ := List.getElem?_eq_some_iff.mp found
  have some : data ≠ [] := List.ne_nil_of_length_pos (by omega)
  have start : (resize zero file position).length = position :=
    length_resize zero file position
  rw [writeAt, if_neg some, List.append_assoc,
    List.getElem?_append_right (by omega), start, Nat.add_sub_cancel_left,
    List.getElem?_append_left inside, found]

theorem getElem?_resize (file : List Byte) (size index : Nat) (byte : Byte)
    (inside : index < size) (found : file[index]? = some byte) :
    (resize zero file size)[index]? = some byte := by
  obtain ⟨before, -⟩ := List.getElem?_eq_some_iff.mp found
  rw [resize, List.getElem?_append_left (by rw [List.length_take]; omega),
    List.getElem?_take, if_pos inside, found]

theorem contains_resize_iff (file data : List Byte) (position size : Nat)
    (contains : Contains file position data) :
    Contains (resize zero file size) position data ↔
      data = [] ∨ position + data.length ≤ size := by
  constructor
  · intro kept
    by_contra neither
    rw [not_or, Nat.not_le] at neither
    obtain ⟨some, cut⟩ := neither
    have positive := List.length_pos_iff.mpr some
    have last := kept (data.length - 1) _
      (List.getElem?_eq_getElem (by omega))
    obtain ⟨inside, -⟩ := List.getElem?_eq_some_iff.mp last
    rw [length_resize] at inside
    omega
  · intro fits index byte found
    obtain ⟨inside, -⟩ := List.getElem?_eq_some_iff.mp found
    apply getElem?_resize zero file size _ byte ?_ (contains index byte found)
    rcases fits with none | fits
    · rw [none] at inside
      contradiction
    · omega

end HenPlugins.Lib.FileContent
