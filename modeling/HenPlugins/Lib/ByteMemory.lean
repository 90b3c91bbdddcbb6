import Mathlib.Data.BitVec

/-!
# Byte-addressed memory

A memory maps the words of an address space to bytes, and addresses wrap
around.  A range is a base and a length; a write replaces the bytes of a range
and leaves every other byte alone.
-/

set_option autoImplicit false

namespace HenPlugins.Lib.ByteMemory

variable {width : Nat} {Byte : Type}

/-- The address lies in the range. -/
def Within (base : BitVec width) (count : Nat) (address : BitVec width) :
    Prop :=
  (address - base).toNat < count

instance (base : BitVec width) (count : Nat) (address : BitVec width) :
    Decidable (Within base count address) :=
  inferInstanceAs (Decidable (_ < _))

/-- No address lies in both ranges. -/
def Apart (base : BitVec width) (count : Nat) (other : BitVec width)
    (otherCount : Nat) : Prop :=
  ∀ address, Within base count address → ¬ Within other otherCount address

def read (memory : BitVec width → Byte) (base : BitVec width) (count : Nat) :
    List Byte :=
  (List.range count).map fun index => memory (base + BitVec.ofNat width index)

def write (memory : BitVec width → Byte) (base : BitVec width)
    (data : List Byte) : BitVec width → Byte :=
  fun address => (data[(address - base).toNat]?).getD (memory address)

/-- The bytes stand in memory from the base on. -/
def Holds (memory : BitVec width → Byte) (base : BitVec width)
    (data : List Byte) : Prop :=
  ∀ (index : Nat) (byte : Byte), data[index]? = some byte →
    memory (base + BitVec.ofNat width index) = byte

theorem offset_of_add (base : BitVec width) (index : Nat) :
    (base + BitVec.ofNat width index - base).toNat = index % 2 ^ width := by
  rw [BitVec.add_comm, BitVec.add_sub_cancel, BitVec.toNat_ofNat]

theorem within_add (base : BitVec width) (count index : Nat)
    (inside : index < count) :
    Within base count (base + BitVec.ofNat width index) := by
  rw [Within, offset_of_add]
  exact Nat.lt_of_le_of_lt (Nat.mod_le _ _) inside

theorem within_mono (base : BitVec width) (count larger : Nat)
    (grows : count ≤ larger) (address : BitVec width)
    (inside : Within base count address) : Within base larger address :=
  Nat.lt_of_lt_of_le inside grows

/-- Offsets from a later base are counted on from the first. -/
theorem offset_of_later (base : BitVec width) (first : Nat)
    (address : BitVec width)
    (fits : first + (address - (base + BitVec.ofNat width first)).toNat <
      2 ^ width) :
    (address - base).toNat =
      first + (address - (base + BitVec.ofNat width first)).toNat := by
  have parts : address - base = BitVec.ofNat width first +
      (address - (base + BitVec.ofNat width first)) := by
    rw [sub_add_eq_sub_sub, add_sub_cancel]
  have bounded := (address - (base + BitVec.ofNat width first)).isLt
  have firstSmall : first < 2 ^ width := by omega
  rw [parts, BitVec.toNat_add, BitVec.toNat_ofNat, Nat.mod_eq_of_lt
    firstSmall]
  exact Nat.mod_eq_of_lt fits

theorem offset_of_within (base : BitVec width) (first count : Nat)
    (fits : first + count ≤ 2 ^ width) (address : BitVec width)
    (inside : Within (base + BitVec.ofNat width first) count address) :
    (address - base).toNat =
      first + (address - (base + BitVec.ofNat width first)).toNat := by
  apply offset_of_later
  rw [Within] at inside
  omega

/-- A later part of a range. -/
theorem within_of_later (base : BitVec width) (first count : Nat)
    (fits : first + count ≤ 2 ^ width) (address : BitVec width)
    (inside : Within (base + BitVec.ofNat width first) count address) :
    Within base (first + count) address := by
  have offset := offset_of_within base first count fits address inside
  unfold Within at *
  omega

/-- Consecutive parts of one range. -/
theorem apart_consecutive (base : BitVec width) (first second : Nat)
    (count otherCount : Nat) (order : first + count ≤ second)
    (fits : second + otherCount ≤ 2 ^ width) :
    Apart (base + BitVec.ofNat width first) count
      (base + BitVec.ofNat width second) otherCount := by
  intro address inFirst inSecond
  have fromFirst := offset_of_within base first count (by omega) address
    inFirst
  have fromSecond := offset_of_within base second otherCount fits address
    inSecond
  unfold Within at *
  omega

@[simp] theorem length_read (memory : BitVec width → Byte)
    (base : BitVec width) (count : Nat) :
    (read memory base count).length = count := by
  simp [read]

theorem getElem?_read (memory : BitVec width → Byte) (base : BitVec width)
    (count index : Nat) (inside : index < count) :
    (read memory base count)[index]? =
      some (memory (base + BitVec.ofNat width index)) := by
  rw [read, List.getElem?_map, List.getElem?_range inside]
  rfl

theorem read_of_holds (memory : BitVec width → Byte) (base : BitVec width)
    (data : List Byte) (holds : Holds memory base data) :
    read memory base data.length = data := by
  apply List.ext_getElem
  · exact length_read memory base data.length
  · intro index _ inside
    have byte := holds index data[index] (List.getElem?_eq_getElem inside)
    simp [read, byte]

theorem read_congr (memory other : BitVec width → Byte)
    (base : BitVec width) (count : Nat)
    (same : ∀ address, Within base count address →
      other address = memory address) :
    read other base count = read memory base count := by
  apply List.map_congr_left
  intro index member
  exact same _ (within_add base count index (List.mem_range.mp member))

theorem holds_congr (memory other : BitVec width → Byte)
    (base : BitVec width) (data : List Byte) (holds : Holds memory base data)
    (same : ∀ address, Within base data.length address →
      other address = memory address) : Holds other base data := by
  intro index byte found
  obtain ⟨inside, -⟩ := List.getElem?_eq_some_iff.mp found
  rw [same _ (within_add base data.length index inside)]
  exact holds index byte found

theorem write_outside (memory : BitVec width → Byte) (base : BitVec width)
    (data : List Byte) (address : BitVec width)
    (outside : ¬ Within base data.length address) :
    write memory base data address = memory address := by
  rw [write, List.getElem?_eq_none (Nat.le_of_not_lt outside)]
  rfl

theorem holds_write (memory : BitVec width → Byte) (base : BitVec width)
    (data : List Byte) (fits : data.length ≤ 2 ^ width) :
    Holds (write memory base data) base data := by
  intro index byte found
  obtain ⟨inside, -⟩ := List.getElem?_eq_some_iff.mp found
  rw [write, offset_of_add, Nat.mod_eq_of_lt (by omega), found]
  rfl

/-- A write elsewhere leaves the bytes standing. -/
theorem holds_write_apart (memory : BitVec width → Byte)
    (base : BitVec width) (data : List Byte) (other : BitVec width)
    (otherData : List Byte) (holds : Holds memory base data)
    (apart : Apart base data.length other otherData.length) :
    Holds (write memory other otherData) base data := by
  apply holds_congr memory _ base data holds
  intro address inside
  exact write_outside memory other otherData address (apart address inside)

theorem holds_append (memory : BitVec width → Byte) (base : BitVec width)
    (data later : List Byte) :
    Holds memory base (data ++ later) ↔
      Holds memory base data ∧
        Holds memory (base + BitVec.ofNat width data.length) later := by
  constructor
  · intro holds
    constructor
    · intro index byte found
      obtain ⟨inside, -⟩ := List.getElem?_eq_some_iff.mp found
      exact holds index byte (by rw [List.getElem?_append_left inside, found])
    · intro index byte found
      rw [BitVec.add_assoc, ← BitVec.ofNat_add]
      apply holds
      rw [List.getElem?_append_right (by omega), Nat.add_sub_cancel_left,
        found]
  · intro both
    obtain ⟨holds, laterHolds⟩ := both
    intro index byte found
    rcases Nat.lt_or_ge index data.length with inside | beyond
    · rw [List.getElem?_append_left inside] at found
      exact holds index byte found
    · rw [List.getElem?_append_right beyond] at found
      have later := laterHolds (index - data.length) byte found
      rwa [BitVec.add_assoc, ← BitVec.ofNat_add,
        Nat.add_sub_of_le beyond] at later

/-- Two consecutive writes are one. -/
theorem write_append (memory : BitVec width → Byte) (base : BitVec width)
    (data later : List Byte)
    (fits : data.length + later.length ≤ 2 ^ width) :
    write (write memory base data) (base + BitVec.ofNat width data.length)
      later = write memory base (data ++ later) := by
  funext address
  by_cases inLater : Within (base + BitVec.ofNat width data.length)
      later.length address
  · have offset := offset_of_within base data.length later.length fits address
      inLater
    simp only [write]
    rw [offset, List.getElem?_append_right (by omega),
      Nat.add_sub_cancel_left]
    rw [List.getElem?_eq_getElem inLater]
    rfl
  · rw [write_outside _ _ _ _ inLater]
    simp only [write]
    rcases Nat.lt_or_ge (address - base).toNat data.length with inside | beyond
    · rw [List.getElem?_append_left inside]
    · have outside : data.length + later.length ≤ (address - base).toNat := by
        by_contra short
        apply inLater
        have shifted : address - (base + BitVec.ofNat width data.length) =
            address - base - BitVec.ofNat width data.length :=
          sub_add_eq_sub_sub _ _ _
        have small : data.length < 2 ^ width := by
          have bounded := (address - base).isLt
          omega
        have lengthToNat :
            (BitVec.ofNat width data.length).toNat = data.length := by
          rw [BitVec.toNat_ofNat, Nat.mod_eq_of_lt small]
        rw [Within, shifted, BitVec.toNat_sub_of_le (by
          rw [BitVec.le_def, lengthToNat]
          exact beyond), lengthToNat]
        omega
      rw [List.getElem?_eq_none beyond, List.getElem?_eq_none (by
        rw [List.length_append]
        exact outside)]

def littleEndian : Nat → Nat → List UInt8
  | 0, _ => []
  | count + 1, value =>
      UInt8.ofNat value :: littleEndian count (value / 256)

def fromLittleEndian : List UInt8 → Nat
  | [] => 0
  | byte :: rest => byte.toNat + 256 * fromLittleEndian rest

@[simp] theorem length_littleEndian (count value : Nat) :
    (littleEndian count value).length = count := by
  induction count generalizing value with
  | zero => rfl
  | succ count ih => rw [littleEndian, List.length_cons, ih]

theorem fromLittleEndian_littleEndian (count value : Nat) :
    fromLittleEndian (littleEndian count value) = value % 256 ^ count := by
  induction count generalizing value with
  | zero => rw [Nat.pow_zero, Nat.mod_one]; rfl
  | succ count ih =>
      rw [littleEndian, fromLittleEndian, ih, Nat.pow_succ', Nat.mod_mul]
      rfl

theorem fromLittleEndian_lt (bytes : List UInt8) :
    fromLittleEndian bytes < 256 ^ bytes.length := by
  induction bytes with
  | nil => exact Nat.one_pos
  | cons byte rest ih =>
      have bounded := byte.toNat_lt
      rw [fromLittleEndian, List.length_cons, Nat.pow_succ]
      omega

/-- Bytes are determined by their number. -/
theorem littleEndian_fromLittleEndian (bytes : List UInt8) :
    littleEndian bytes.length (fromLittleEndian bytes) = bytes := by
  induction bytes with
  | nil => rfl
  | cons byte rest ih =>
      have bounded := byte.toNat_lt
      have first : UInt8.ofNat (fromLittleEndian (byte :: rest)) = byte := by
        apply UInt8.toNat.inj
        rw [UInt8.toNat_ofNat', fromLittleEndian]
        omega
      have later : fromLittleEndian (byte :: rest) / 256 =
          fromLittleEndian rest := by
        rw [fromLittleEndian]
        omega
      rw [List.length_cons, littleEndian, first, later, ih]

end HenPlugins.Lib.ByteMemory
