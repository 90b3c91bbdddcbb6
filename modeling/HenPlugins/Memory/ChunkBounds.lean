import HenPlugins.Lib.ByteMemory
import HenPlugins.Memory.ChunkScan

/-!
# The reads of the chunk scan

A round reads the chunk that the counter stands at.  For a region of a chunk
and more the bound keeps every chunk inside; for a smaller one it wraps around,
and the first read already leaves the region.
-/

set_option autoImplicit false

namespace HenPlugins.Memory.ChunkBounds

open HenPlugins.Lib.ByteMemory
open HenPlugins.Lib.WhileLoop
open HenPlugins.Memory.PatternScan
open HenPlugins.Memory.ChunkScan

section Scan
variable (scan : Scan) (stack : Nat → UInt8)

/-- The state after so many rounds, or the last one. -/
def stateAfter (count : Nat) : ScanState :=
  runFor (scanGuard scan) (scanBody scan stack) count scanStart

/-- The bytes that the round in this state reads from the target. -/
def Asked (state : ScanState) (address : BitVec 64) : Prop :=
  scanGuard scan state = true ∧
    Within (scan.memStart + state.i) chunkSize address

structure BoundedByRegion : Prop where
  terminates : Halts (scanGuard scan) (scanBody scan stack) scanStart
  inside : ∀ count address, Asked scan (stateAfter scan stack count) address →
    Within scan.memStart scan.memSz.toNat address

theorem counter_of_guard (state : ScanState)
    (continues : scanGuard scan state = true) :
    state.i.toNat < (scan.memSz - BitVec.ofNat 64 chunkSize).toNat := by
  rw [scanGuard, Bool.and_eq_true, decide_eq_true_eq, BitVec.lt_def]
    at continues
  exact continues.2

theorem inside_of_asked (large : chunkSize ≤ scan.memSz.toNat)
    (state : ScanState) (address : BitVec 64)
    (asked : Asked scan state address) :
    Within scan.memStart scan.memSz.toNat address := by
  obtain ⟨continues, chunk⟩ := asked
  have counter := counter_of_guard scan state continues
  rw [loopBound, if_pos large] at counter
  have bounded := scan.memSz.isLt
  have counted : BitVec.ofNat 64 state.i.toNat = state.i := by
    rw [BitVec.ofNat_toNat, BitVec.setWidth_eq]
  rw [← counted] at chunk
  exact within_mono scan.memStart (state.i.toNat + chunkSize) _ (by omega)
    address (within_of_later scan.memStart state.i.toNat chunkSize (by omega)
      address chunk)

/-- The first round of a scan that is too small reads the byte behind the
region. -/
theorem asked_behind (small : scan.memSz.toNat < chunkSize) :
    Asked scan scanStart (scan.memStart + scan.memSz) := by
  have bound := loopBound scan
  rw [if_neg (Nat.not_le.mpr small)] at bound
  constructor
  · rw [scanGuard, Bool.and_eq_true, decide_eq_true_eq, BitVec.lt_def, bound]
    refine ⟨rfl, ?_⟩
    rw [scanStart, chunkSize]
    simp only [BitVec.ofNat_eq_ofNat, BitVec.toNat_zero]
    omega
  · rw [Within, scanStart]
    simp only [BitVec.ofNat_eq_ofNat, BitVec.add_zero]
    rw [BitVec.add_comm, BitVec.add_sub_cancel]
    exact small

theorem outside_behind :
    ¬ Within scan.memStart scan.memSz.toNat (scan.memStart + scan.memSz) := by
  rw [Within, BitVec.add_comm, BitVec.add_sub_cancel]
  exact Nat.lt_irrefl _

theorem round_cases (chunk : Nat) :
    (scanBody scan stack (atChunk chunk)).broke = true ∨
      scanBody scan stack (atChunk chunk) = atChunk (chunk + 1) := by
  by_cases nothing : patternScan (scanBytes scan stack
      (scan.memStart + (atChunk chunk).i)) scan.mem chunkSize scan.pattern
      scan.patternOffset = 0
  · exact Or.inr (body_onward scan stack chunk nothing)
  · left
    rw [scanBody]
    simp only [ne_eq, nothing, not_false_eq_true, if_true]

theorem halts_or_atChunk (count : Nat) :
    Halts (scanGuard scan) (scanBody scan stack) scanStart ∨
      stateAfter scan stack count = atChunk count := by
  induction count with
  | zero => exact Or.inr rfl
  | succ count ih =>
      obtain halted | here := ih
      · exact Or.inl halted
      by_cases continues : scanGuard scan (atChunk count) = true
      · have next : stateAfter scan stack (count + 1) =
            scanBody scan stack (atChunk count) := by
          rw [stateAfter, runFor_add]
          rw [stateAfter] at here
          rw [here, runFor_succ, if_pos continues]
          rfl
        obtain broke | onward := round_cases scan stack count
        · left
          refine ⟨_, count + 1, next, ?_⟩
          rw [scanGuard, broke]
          rfl
        · exact Or.inr (next.trans onward)
      · exact Or.inl ⟨_, count, here, Bool.eq_false_iff.mpr continues⟩

theorem halts_of_large (large : chunkSize ≤ scan.memSz.toNat) :
    Halts (scanGuard scan) (scanBody scan stack) scanStart := by
  have bounded := scan.memSz.isLt
  obtain halted | here := halts_or_atChunk scan stack
    (scan.memSz.toNat / chunkSize)
  · exact halted
  · refine ⟨_, _, here, ?_⟩
    rw [Bool.eq_false_iff]
    intro continues
    have inRange : scan.memSz.toNat / chunkSize < 2 ^ 51 := by
      rw [chunkSize]
      omega
    have before := (scanGuard_atChunk scan _ inRange).mp continues
    rw [loopBound, if_pos large] at before
    unfold chunkSize at *
    omega

/-- The scan keeps to its region if and only if the region holds a chunk. -/
theorem boundedByRegion_iff :
    BoundedByRegion scan stack ↔ chunkSize ≤ scan.memSz.toNat := by
  constructor
  · intro bounded
    apply Nat.le_of_not_lt
    intro small
    exact outside_behind scan
      (bounded.inside 0 _ (asked_behind scan small))
  · intro large
    constructor
    · exact halts_of_large scan stack large
    · intro count address asked
      exact inside_of_asked scan large _ address asked

end Scan

/-- A region of one byte. -/
def byteRegion : Scan where
  memory := fun _ => 0
  memStart := 0x1000
  memSz := 1
  pattern := []
  patternOffset := 0
  mem := 0x2000
  allocated := by decide

theorem byteRegion_is_left : ¬ BoundedByRegion byteRegion fun _ => 0 := by
  intro bounded
  exact outside_behind byteRegion
    (bounded.inside 0 _ (asked_behind byteRegion (by decide)))

end HenPlugins.Memory.ChunkBounds
