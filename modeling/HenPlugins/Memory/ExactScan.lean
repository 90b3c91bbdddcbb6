import HenPlugins.Lib.ByteMemory
import HenPlugins.Lib.ByteText
import HenPlugins.Lib.CellReads

/-!
# Scanning for a value

`Mem_Scan`, `u64_Scan` and `char_Scan` try one index after another below
`sizeOfImage` less the length of the value.  The last index at which the value
fits is not tried, and the bound wraps around when the value is longer than the
image.
-/

set_option autoImplicit false

namespace HenPlugins.Memory.ExactScan

open HenPlugins.Lib.ByteMemory
open HenPlugins.Lib.ByteText
open HenPlugins.Lib.CellReads

/-- The bytes to look for; their number is a `size_t`. -/
structure Value where
  bytes : Text
  sized : bytes.length < 2 ^ 64

/-- A string ends at its first zero byte. -/
structure CString extends Value where
  noZero : (0 : UInt8) ∉ bytes

/-- The loop of the scanners; the result is the index of the pointer. -/
def scanImage (sizeOfImage : BitVec 64) (valueSz : Nat)
    (sameAt : Nat → Reading UInt8 Bool) : Reading UInt8 (Option Nat) :=
  firstHit sameAt (sizeOfImage - BitVec.ofNat 64 valueSz).toNat 0

/-- `memcmp` may read all of the bytes. -/
def memcmp (value : Text) (i : Nat) : Reading UInt8 Bool :=
  andThen (block value.length i) fun v => .done (v == value)

def currentValue (value : BitVec 64) (i : Nat) : Reading UInt8 Bool :=
  andThen (block 8 i) fun p =>
    .done (BitVec.ofNat 64 (fromLittleEndian p) == value)

/-- `strncmp` stops at the first difference, and at a zero byte in both. -/
def strncmp : Nat → Text → Nat → Reading UInt8 Bool
  | 0, _, _ => .done true
  | count + 1, value, i =>
      .read i fun byte =>
        if byte ≠ value.headD 0 then .done false
        else if byte = 0 then .done true
        else strncmp count value.tail (i + 1)

def memScan (sizeOfImage : BitVec 64) (value : Value) :
    Reading UInt8 (Option Nat) :=
  scanImage sizeOfImage value.bytes.length (memcmp value.bytes)

def u64Scan (sizeOfImage value : BitVec 64) : Reading UInt8 (Option Nat) :=
  scanImage sizeOfImage 8 (currentValue value)

def charScan (sizeOfImage : BitVec 64) (value : CString) :
    Reading UInt8 (Option Nat) :=
  scanImage sizeOfImage value.bytes.length
    (strncmp value.bytes.length value.bytes)

/-- The value stands at the index. -/
def OccursAt (image : Nat → UInt8) (value : Text) (i : Nat) : Prop :=
  ∀ (j : Nat) (byte : UInt8), value[j]? = some byte → image (i + j) = byte

def OccursInside (image : Nat → UInt8) (sizeOfImage : BitVec 64)
    (value : Text) (i : Nat) : Prop :=
  i + value.length ≤ sizeOfImage.toNat ∧ OccursAt image value i

structure FindsExactly (image : Nat → UInt8) (sizeOfImage : BitVec 64)
    (value : Text) (scan : Reading UInt8 (Option Nat)) : Prop where
  lowest : ∀ i, run image scan = some i →
    OccursInside image sizeOfImage value i ∧
      ∀ other, OccursInside image sizeOfImage value other → i ≤ other
  null : run image scan = none ↔
    ∀ i, ¬ OccursInside image sizeOfImage value i
  inside : ∀ index ∈ reads image scan, index < sizeOfImage.toNat

/-- The value occurs flush with the end of the image, and not before. -/
def OnlyAtEnd (image : Nat → UInt8) (sizeOfImage : BitVec 64)
    (value : Text) : Prop :=
  OccursAt image value (sizeOfImage.toNat - value.length) ∧
    ∀ i < sizeOfImage.toNat - value.length, ¬ OccursAt image value i

theorem occursAt_take (image : Nat → UInt8) (value : Text) (i count : Nat)
    (occurs : OccursAt image value i) :
    OccursAt image (value.take count) i := by
  intro j byte found
  rw [List.getElem?_take] at found
  split at found
  · exact occurs j byte found
  · contradiction

theorem occursAt_nil (image : Nat → UInt8) (i : Nat) :
    OccursAt image [] i := by
  intro j byte found
  contradiction

theorem occursAt_cons (image : Nat → UInt8) (byte : UInt8) (value : Text)
    (i : Nat) :
    OccursAt image (byte :: value) i ↔
      image i = byte ∧ OccursAt image value (i + 1) := by
  constructor
  · intro occurs
    refine ⟨occurs 0 byte rfl, ?_⟩
    intro j other found
    rw [Nat.add_right_comm]
    exact occurs (j + 1) other found
  · intro both j other found
    cases j with
    | zero =>
        cases Option.some.inj found
        exact both.1
    | succ j =>
        have later := both.2 j other found
        rw [Nat.add_right_comm] at later
        exact later

theorem occursAt_iff_block (image : Nat → UInt8) (value : Text) (i : Nat) :
    OccursAt image value i ↔
      (List.range' i value.length).map image = value := by
  induction value generalizing i with
  | nil => exact iff_of_true (occursAt_nil image i) rfl
  | cons byte value ih =>
      rw [occursAt_cons, ih, List.length_cons, List.range'_succ,
        List.map_cons, List.cons.injEq]

/-- A comparison tells whether the value stands at the index.  It reads no
byte behind the value, and every one up to the first difference. -/
structure Compares (image : Nat → UInt8) (value : Text)
    (sameAt : Nat → Reading UInt8 Bool) : Prop where
  hit : ∀ i, run image (sameAt i) = true ↔ OccursAt image value i
  within : ∀ i, ∀ index ∈ reads image (sameAt i), index < i + value.length
  reaches : ∀ i, ∀ j < value.length, OccursAt image (value.take j) i →
    i + j ∈ reads image (sameAt i)

theorem compares_memcmp (image : Nat → UInt8) (value : Text) :
    Compares image value (memcmp value) where
  hit := by
    intro i
    rw [memcmp, run_andThen, run, run_block, beq_iff_eq, occursAt_iff_block]
  within := by
    intro i index read
    rw [memcmp, reads_andThen, reads_block, reads, List.append_nil,
      List.mem_range'_1] at read
    exact read.2
  reaches := by
    intro i j inside _
    rw [memcmp, reads_andThen, reads_block, reads, List.append_nil,
      List.mem_range'_1]
    omega

theorem currentValue_eq_memcmp (image : Nat → UInt8) (value : BitVec 64)
    (i : Nat) :
    run image (currentValue value i) =
        run image (memcmp (littleEndian 8 value.toNat) i) ∧
      reads image (currentValue value i) =
        reads image (memcmp (littleEndian 8 value.toNat) i) := by
  have length : (littleEndian 8 value.toNat).length = 8 :=
    length_littleEndian 8 value.toNat
  have blockLength : ((List.range' i 8).map image).length = 8 := by
    rw [List.length_map, List.length_range']
  constructor
  · rw [currentValue, memcmp, length, run_andThen, run_andThen, run, run,
      run_block, Bool.eq_iff_iff, beq_iff_eq, beq_iff_eq]
    have bounded := fromLittleEndian_lt ((List.range' i 8).map image)
    rw [blockLength] at bounded
    constructor
    · intro same
      have small : fromLittleEndian ((List.range' i 8).map image) < 2 ^ 64 :=
        bounded
      rw [← same, BitVec.toNat_ofNat, Nat.mod_eq_of_lt small]
      have back := littleEndian_fromLittleEndian
        ((List.range' i 8).map image)
      rw [blockLength] at back
      exact back.symm
    · intro same
      rw [same, fromLittleEndian_littleEndian]
      apply BitVec.eq_of_toNat_eq
      rw [BitVec.toNat_ofNat]
      have small := value.isLt
      omega
  · rw [currentValue, memcmp, length, reads_andThen, reads_andThen, reads,
      reads]

theorem compares_currentValue (image : Nat → UInt8) (value : BitVec 64) :
    Compares image (littleEndian 8 value.toNat) (currentValue value) := by
  have same := compares_memcmp image (littleEndian 8 value.toNat)
  constructor
  · intro i
    rw [(currentValue_eq_memcmp image value i).1]
    exact same.hit i
  · intro i
    rw [(currentValue_eq_memcmp image value i).2]
    exact same.within i
  · intro i
    rw [(currentValue_eq_memcmp image value i).2]
    exact same.reaches i

/-- Up to the length of a string no zero byte is met in both. -/
theorem strncmp_eq_agree (value : Text) (noZero : (0 : UInt8) ∉ value)
    (i : Nat) :
    strncmp value.length value i =
      agree (value.map fun expected byte => byte == expected) i := by
  induction value generalizing i with
  | nil => rfl
  | cons first rest ih =>
      rw [List.mem_cons, not_or] at noZero
      rw [List.length_cons, strncmp, List.map_cons, agree,
        List.tail_cons, ih noZero.2, List.headD_cons]
      congr 1
      funext byte
      by_cases same : byte = first
      · rw [same, if_neg (not_not.mpr rfl), if_neg (Ne.symm noZero.1),
          if_pos (beq_self_eq_true first)]
      · rw [if_pos same, if_neg (by rw [beq_iff_eq]; exact same)]

theorem run_agree_bytes (image : Nat → UInt8) (value : Text) (i : Nat) :
    run image (agree (value.map fun expected byte => byte == expected) i) =
        true ↔ OccursAt image value i := by
  induction value generalizing i with
  | nil => exact iff_of_true rfl (occursAt_nil image i)
  | cons first rest ih =>
      rw [List.map_cons, run_agree_cons, Bool.and_eq_true, beq_iff_eq, ih,
        occursAt_cons]

theorem compares_strncmp (image : Nat → UInt8) (value : Text)
    (noZero : (0 : UInt8) ∉ value) :
    Compares image value (strncmp value.length value) := by
  constructor
  · intro i
    rw [strncmp_eq_agree value noZero, run_agree_bytes]
  · intro i index read
    rw [strncmp_eq_agree value noZero, mem_reads_agree] at read
    obtain ⟨offset, inside, rfl, -⟩ := read
    rw [List.length_map] at inside
    omega
  · intro i j inside before
    rw [strncmp_eq_agree value noZero, mem_reads_agree, List.length_map]
    refine ⟨j, inside, rfl, ?_⟩
    rw [← List.map_take, run_agree_bytes]
    exact before

section Loop
variable (image : Nat → UInt8) (sizeOfImage : BitVec 64) (value : Text)
  (sameAt : Nat → Reading UInt8 Bool) (compares : Compares image value sameAt)

theorem bound_of_fits (fits : value.length ≤ sizeOfImage.toNat) :
    (sizeOfImage - BitVec.ofNat 64 value.length).toNat =
      sizeOfImage.toNat - value.length := by
  have bounded := sizeOfImage.isLt
  rw [BitVec.toNat_sub, BitVec.toNat_ofNat]
  omega

/-- A value that is too long leaves the whole image to the loop. -/
theorem bound_of_longer (sized : value.length < 2 ^ 64)
    (longer : sizeOfImage.toNat < value.length) :
    sizeOfImage.toNat <
      (sizeOfImage - BitVec.ofNat 64 value.length).toNat := by
  have bounded := sizeOfImage.isLt
  rw [BitVec.toNat_sub, BitVec.toNat_ofNat]
  omega

include compares

theorem reads_end (sized : value.length < 2 ^ 64)
    (longer : sizeOfImage.toNat < value.length) :
    sizeOfImage.toNat ∈
      reads image (scanImage sizeOfImage value.length sameAt) := by
  have bound := bound_of_longer sizeOfImage value sized longer
  apply mem_reads_of_reaches image sameAt _ _
    (fun i => i ≤ sizeOfImage.toNat ∧
      OccursAt image (value.take (sizeOfImage.toNat - i)) i)
  · refine ⟨sizeOfImage.toNat, Nat.le_refl _, ?_⟩
    rw [Nat.sub_self, List.take_zero]
    exact occursAt_nil image _
  · intro i reaches
    exact Nat.lt_of_le_of_lt reaches.1 bound
  · intro earlier i before reaches hit
    exact ⟨Nat.le_trans (Nat.le_of_lt before) reaches.1,
      occursAt_take image value earlier _ ((compares.hit earlier).mp hit)⟩
  · intro i reaches
    have reached := compares.reaches i (sizeOfImage.toNat - i) (by omega)
      reaches.2
    rw [Nat.add_sub_of_le reaches.1] at reached
    exact reached

section Fits
variable (fits : value.length ≤ sizeOfImage.toNat)

include fits

theorem inside_of_fits (index : Nat)
    (read : index ∈ reads image (scanImage sizeOfImage value.length sameAt)) :
    index < sizeOfImage.toNat := by
  rw [scanImage, mem_reads_firstHit, bound_of_fits sizeOfImage value fits]
    at read
  obtain ⟨i, -, before, -, there⟩ := read
  have within := compares.within i index there
  omega

theorem run_eq_some (i : Nat)
    (stop : run image (scanImage sizeOfImage value.length sameAt) = some i) :
    OccursInside image sizeOfImage value i ∧
      ∀ earlier < i, ¬ OccursAt image value earlier := by
  rw [scanImage, run_firstHit_eq_some, bound_of_fits sizeOfImage value fits]
    at stop
  obtain ⟨before, hit, clear⟩ := stop
  refine ⟨⟨by omega, (compares.hit i).mp hit⟩, ?_⟩
  intro earlier first occurs
  have missed := clear earlier first
  rw [(compares.hit earlier).mpr occurs] at missed
  contradiction

theorem run_eq_none :
    run image (scanImage sizeOfImage value.length sameAt) = none ↔
      ∀ i < sizeOfImage.toNat - value.length, ¬ OccursAt image value i := by
  rw [scanImage, run_firstHit_eq_none, bound_of_fits sizeOfImage value fits]
  simp only [Bool.eq_false_iff, ne_eq, compares.hit]

end Fits

/-- The loop finds the value exactly unless it is longer than the image, or
occurs at the end of the image only. -/
theorem findsExactly_scanImage (sized : value.length < 2 ^ 64) :
    FindsExactly image sizeOfImage value
        (scanImage sizeOfImage value.length sameAt) ↔
      value.length ≤ sizeOfImage.toNat ∧
        ¬ OnlyAtEnd image sizeOfImage value := by
  constructor
  · intro exactly
    have fits : value.length ≤ sizeOfImage.toNat := by
      apply Nat.le_of_not_lt
      intro longer
      have behind := exactly.inside _
        (reads_end image sizeOfImage value sameAt compares sized longer)
      exact Nat.lt_irrefl _ behind
    refine ⟨fits, ?_⟩
    intro onlyAtEnd
    have missed := (run_eq_none image sizeOfImage value sameAt compares
      fits).mpr onlyAtEnd.2
    exact exactly.null.mp missed (sizeOfImage.toNat - value.length)
      ⟨by omega, onlyAtEnd.1⟩
  · intro both
    obtain ⟨fits, elsewhere⟩ := both
    constructor
    · intro i stop
      obtain ⟨here, clear⟩ := run_eq_some image sizeOfImage value sameAt
        compares fits i stop
      refine ⟨here, ?_⟩
      intro other occurs
      apply Nat.le_of_not_lt
      intro before
      exact clear other before occurs.2
    · rw [run_eq_none image sizeOfImage value sameAt compares fits]
      constructor
      · intro clear i occurs
        by_cases before : i < sizeOfImage.toNat - value.length
        · exact clear i before occurs.2
        · have atEnd : i = sizeOfImage.toNat - value.length := by
            have inside := occurs.1
            omega
          exact elsewhere ⟨atEnd ▸ occurs.2, clear⟩
      · intro none i before occurs
        exact none i ⟨by omega, occurs⟩
    · exact inside_of_fits image sizeOfImage value sameAt compares fits

end Loop

/-- The three scanners fail alike: at a value that is longer than the image,
and at one that occurs at the end of the image only. -/
theorem exactScanners_iff (image : Nat → UInt8) (sizeOfImage : BitVec 64)
    (value : Value) (word : BitVec 64) (text : CString) :
    (FindsExactly image sizeOfImage value.bytes (memScan sizeOfImage value) ↔
        value.bytes.length ≤ sizeOfImage.toNat ∧
          ¬ OnlyAtEnd image sizeOfImage value.bytes) ∧
      (FindsExactly image sizeOfImage (littleEndian 8 word.toNat)
          (u64Scan sizeOfImage word) ↔
        8 ≤ sizeOfImage.toNat ∧
          ¬ OnlyAtEnd image sizeOfImage (littleEndian 8 word.toNat)) ∧
      (FindsExactly image sizeOfImage text.bytes (charScan sizeOfImage text) ↔
        text.bytes.length ≤ sizeOfImage.toNat ∧
          ¬ OnlyAtEnd image sizeOfImage text.bytes) := by
  refine ⟨?_, ?_, ?_⟩
  · exact findsExactly_scanImage image sizeOfImage value.bytes _
      (compares_memcmp image value.bytes) value.sized
  · have length := length_littleEndian 8 word.toNat
    have exactly := findsExactly_scanImage image sizeOfImage
      (littleEndian 8 word.toNat) _ (compares_currentValue image word)
      (by rw [length]; decide)
    rw [length] at exactly
    exact exactly
  · exact findsExactly_scanImage image sizeOfImage text.bytes _
      (compares_strncmp image text.bytes text.noZero) text.sized

/-- An image that is the value itself is not tried. -/
theorem whole_image_is_missed :
    ¬ FindsExactly (fun _ => 1) 1 [1] (memScan 1 ⟨[1], by decide⟩) ∧
      ¬ FindsExactly (fun _ => 1) 8 (littleEndian 8 0x0101010101010101)
        (u64Scan 8 0x0101010101010101) ∧
      ¬ FindsExactly (fun _ => 1) 1 [1]
        (charScan 1 ⟨⟨[1], by decide⟩, by decide⟩) := by
  have byte : OccursAt (fun _ => 1) [1] 0 :=
    (occursAt_iff_block _ _ _).mpr rfl
  have word : OccursAt (fun _ => 1) (littleEndian 8 0x0101010101010101) 0 :=
    (occursAt_iff_block _ _ _).mpr (by decide)
  refine ⟨?_, ?_, ?_⟩
  · intro exactly
    exact exactly.null.mp rfl 0 ⟨by decide, byte⟩
  · intro exactly
    exact exactly.null.mp rfl 0 ⟨by decide, word⟩
  · intro exactly
    exact exactly.null.mp rfl 0 ⟨by decide, byte⟩

end HenPlugins.Memory.ExactScan
