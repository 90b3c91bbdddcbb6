import HenPlugins.Lib.ByteMemory

/-!
# A ledger of patches

A memory is patched again and again.  As long as a new patch lies apart from
the earlier ones, every patch stands, and what no patch covers is as it was.
Part of the memory may be scratch: nothing is said of its other bytes.
-/

set_option autoImplicit false

namespace HenPlugins.Lib.PatchLedger

open HenPlugins.Lib.ByteMemory

variable {width : Nat} {Byte : Type}

structure Patch (width : Nat) (Byte : Type) where
  address : BitVec width
  data : List Byte

def Patch.Covers (patch : Patch width Byte) (address : BitVec width) :
    Prop :=
  Within patch.address patch.data.length address

/-- The patch leaves the range alone. -/
def Patch.Off (patch : Patch width Byte) (base : BitVec width)
    (count : Nat) : Prop :=
  Apart patch.address patch.data.length base count

def Patch.apply (patch : Patch width Byte) (memory : BitVec width → Byte) :
    BitVec width → Byte :=
  write memory patch.address patch.data

theorem apart_symm (base other : BitVec width) (count otherCount : Nat)
    (apart : Apart base count other otherCount) :
    Apart other otherCount base count := by
  intro address inOther inBase
  exact apart address inBase inOther

theorem apart_mono (base other : BitVec width)
    (count larger otherCount otherLarger : Nat)
    (grows : count ≤ larger) (otherGrows : otherCount ≤ otherLarger)
    (apart : Apart base larger other otherLarger) :
    Apart base count other otherCount := by
  intro address inBase inOther
  exact apart address (within_mono _ _ _ grows address inBase)
    (within_mono _ _ _ otherGrows address inOther)

/-- A write that starts where an earlier one did leaves what it does not
reach of it. -/
theorem write_overwrites (memory : BitVec width → Byte) (base : BitVec width)
    (data later : List Byte) :
    write (write memory base data) base later =
      write memory base (later ++ data.drop later.length) := by
  funext address
  simp only [write]
  rcases Nat.lt_or_ge (address - base).toNat later.length with inside | beyond
  · rw [List.getElem?_append_left inside, List.getElem?_eq_getElem inside]
    rfl
  · rw [List.getElem?_append_right beyond, List.getElem?_drop,
      Nat.add_sub_of_le beyond, List.getElem?_eq_none beyond]
    rfl

/-- Every patch of the ledger stands, and nothing else has changed. -/
structure Kept (scratch : BitVec width → Prop)
    (original memory : BitVec width → Byte)
    (patches : List (Patch width Byte)) : Prop where
  stands : ∀ patch ∈ patches, Holds memory patch.address patch.data
  elsewhere : ∀ address, ¬ scratch address →
    (∀ patch ∈ patches, ¬ patch.Covers address) →
    memory address = original address

section Ledger
variable (scratch : BitVec width → Prop)
  (original memory : BitVec width → Byte)
  (patches : List (Patch width Byte))

theorem kept_start : Kept scratch original original [] where
  stands := by simp
  elsewhere := by simp

variable (kept : Kept scratch original memory patches)
include kept

theorem kept_write (patch : Patch width Byte)
    (fits : patch.data.length ≤ 2 ^ width)
    (apart : ∀ earlier ∈ patches,
      earlier.Off patch.address patch.data.length) :
    Kept scratch original (patch.apply memory) (patches ++ [patch]) where
  stands := by
    intro other member
    rcases List.mem_append.mp member with earlier | new
    · exact holds_write_apart memory _ _ _ _ (kept.stands other earlier)
        (apart other earlier)
    · rw [List.mem_singleton.mp new]
      exact holds_write memory _ _ fits
  elsewhere := by
    intro address solid uncovered
    have outside := uncovered patch
      (List.mem_append_right _ (List.mem_singleton_self _))
    rw [Patch.apply, write_outside memory _ _ address outside]
    exact kept.elsewhere address solid fun earlier member =>
      uncovered earlier (List.mem_append_left _ member)

/-- The scratch may change as long as no patch lies in it. -/
theorem kept_scratch (other : BitVec width → Byte)
    (same : ∀ address, ¬ scratch address → other address = memory address)
    (solid : ∀ patch ∈ patches, ∀ address, patch.Covers address →
      ¬ scratch address) :
    Kept scratch original other patches where
  stands := by
    intro patch member
    apply holds_congr memory other _ _ (kept.stands patch member)
    intro address inside
    exact same address (solid patch member address inside)
  elsewhere := by
    intro address outside uncovered
    rw [same address outside]
    exact kept.elsewhere address outside uncovered

theorem kept_range (base : BitVec width) (count : Nat)
    (solid : ∀ address, Within base count address → ¬ scratch address)
    (off : ∀ patch ∈ patches, patch.Off base count)
    (address : BitVec width) (inside : Within base count address) :
    memory address = original address := by
  apply kept.elsewhere address (solid address inside)
  intro patch member covers
  exact off patch member address covers inside

end Ledger

end HenPlugins.Lib.PatchLedger
