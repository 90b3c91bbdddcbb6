import HenPlugins.Memory.PatternScan

/-!
# Wildcards and the byte `ff`

The signature is kept in an array of bytes in which `0xff` stands for a
wildcard.  A token `ff` gets the same code, so the scan stops at places that
have another byte there.
-/

set_option autoImplicit false

namespace HenPlugins.Memory.LiteralBytes

open HenPlugins.Lib.ByteText
open HenPlugins.Memory.PatternScan

section Scan
variable (scanBytes : Nat → UInt8) (moduleBase : BitVec 64)
  (moduleSize : Nat) (tokens : List Token) (text : Text)
  (offset : BitVec 64)

/-- At a position that the result leads to, every hexadecimal token stands in
memory. -/
def GenuineHits : Prop :=
  ∀ position < moduleSize,
    patternScan scanBytes moduleBase moduleSize text offset =
      moduleBase + BitVec.ofNat 64 position + offset →
    patternScan scanBytes moduleBase moduleSize text offset ≠ 0 →
    ∀ (index : Nat) (value : UInt8), tokens[index]? = some (.byte value) →
      scanBytes (position + index) = value

/-- The first place at which all but the tokens `ff` match. -/
structure FirstLoosely (position : Nat) : Prop where
  inside : position < moduleSize
  loose : LooselyAt scanBytes position tokens
  clear : ∀ earlier < position, ¬ LooselyAt scanBytes earlier tokens

/-- There the tokens `ff` match as well. -/
def LiteralsMatch : Prop :=
  ∀ position, FirstLoosely scanBytes moduleSize tokens position →
    moduleBase + BitVec.ofNat 64 position + offset ≠ 0 →
    ∀ index, tokens[index]? = some (.byte 0xff) →
      scanBytes (position + index) = 0xff

variable {scanBytes moduleSize tokens}

theorem firstLoosely_unique (first second : Nat)
    (one : FirstLoosely scanBytes moduleSize tokens first)
    (other : FirstLoosely scanBytes moduleSize tokens second) :
    first = second := by
  apply Nat.le_antisymm
  · apply Nat.le_of_not_lt
    intro before
    exact one.clear second before other.loose
  · apply Nat.le_of_not_lt
    intro before
    exact other.clear first before one.loose

theorem literal_of_looselyAt (position : Nat)
    (loose : LooselyAt scanBytes position tokens) (index : Nat)
    (value : UInt8) (found : tokens[index]? = some (.byte value))
    (other : value ≠ 0xff) : scanBytes (position + index) = value := by
  obtain same | wild := loose index (.byte value) found
  · exact same
  · exact absurd wild other

end Scan

theorem patternScan_null (scanBytes : Nat → UInt8) (moduleSize : Nat)
    (text : Text) (offset : BitVec 64) :
    patternScan scanBytes 0 moduleSize text offset = 0 := by
  rw [patternScan, if_pos (Or.inl rfl)]

theorem position_of_address (base offset : BitVec 64) (first second : Nat)
    (firstFits : first < 2 ^ 64) (secondFits : second < 2 ^ 64)
    (same : base + BitVec.ofNat 64 first + offset =
      base + BitVec.ofNat 64 second + offset) : first = second := by
  rw [BitVec.add_left_inj, BitVec.add_right_inj] at same
  have numbers := congrArg BitVec.toNat same
  rw [BitVec.toNat_ofNat, BitVec.toNat_ofNat, Nat.mod_eq_of_lt firstFits,
    Nat.mod_eq_of_lt secondFits] at numbers
  exact numbers

/-- The hits are genuine when the first loose match has `ff` wherever the
signature does. -/
theorem genuineHits_iff (scanBytes : Nat → UInt8) (moduleBase : BitVec 64)
    (moduleSize : Nat) (tokens : List Token) (text : Text)
    (offset : BitVec 64) (signature : Signature tokens text)
    (short : tokens.length ≤ 511) (sized : moduleSize < 2 ^ 64) :
    GenuineHits scanBytes moduleBase moduleSize tokens text offset ↔
      moduleBase = 0 ∨
        LiteralsMatch scanBytes moduleBase moduleSize tokens offset := by
  by_cases base : moduleBase = 0
  · rw [base]
    refine iff_of_true ?_ (Or.inl rfl)
    intro position inside result nonzero
    exact absurd (patternScan_null scanBytes moduleSize text offset) nonzero
  rw [or_iff_right base]
  by_cases size : moduleSize = 0
  · rw [size]
    constructor
    · intro genuine position first
      exact absurd first.inside (Nat.not_lt_zero position)
    · intro literals position inside
      exact absurd inside (Nat.not_lt_zero position)
  have scanned := patternScan_spec scanBytes moduleBase moduleSize tokens text
    signature short offset base size
  constructor
  · intro genuine position first nonzero index found
    obtain ⟨stop, inside, loose, clear, result⟩ | ⟨clear, -⟩ := scanned
    · have same := firstLoosely_unique position stop first
        ⟨inside, loose, clear⟩
      rw [← same] at result
      exact genuine position first.inside result (result ▸ nonzero) index 0xff
        found
    · exact absurd first.loose (clear position first.inside)
  · intro literals position inside result nonzero index value found
    obtain ⟨stop, stopInside, loose, clear, stopped⟩ | ⟨-, zero⟩ := scanned
    · have same := position_of_address moduleBase offset position stop
        (Nat.lt_trans inside sized) (Nat.lt_trans stopInside sized)
        (result.symm.trans stopped)
      rw [← same] at loose clear
      by_cases wild : value = 0xff
      · rw [wild] at found
        rw [wild]
        exact literals position ⟨inside, loose, clear⟩ (result ▸ nonzero)
          index found
      · exact literal_of_looselyAt position loose index value found wild
    · exact absurd zero nonzero

theorem signature_ff : Signature [.byte 0xff] (ascii "ff") :=
  .last _ _ (.byte _ _ 15 15 rfl rfl)

theorem genuineHits_ff :
    GenuineHits (fun _ => 0xff) 0x1000 1 [.byte 0xff] (ascii "ff") 0 :=
  (genuineHits_iff (fun _ => 0xff) 0x1000 1 [.byte 0xff] (ascii "ff") 0
    signature_ff (by decide) (by decide)).mpr (Or.inr fun _ _ _ _ _ => rfl)

/-- A scan for `ff` stops at a zero byte. -/
theorem zero_passes_for_ff :
    ¬ GenuineHits (fun _ => 0) 0x1000 1 [.byte 0xff] (ascii "ff") 0 := by
  intro genuine
  have zero := genuine 0 (by decide) (by decide) (by decide) 0 0xff rfl
  exact absurd zero (by decide)

end HenPlugins.Memory.LiteralBytes
