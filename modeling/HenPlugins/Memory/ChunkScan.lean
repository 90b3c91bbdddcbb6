import HenPlugins.Lib.WhileLoop
import HenPlugins.Memory.PatternScan

/-!
# Scanning another process chunk by chunk

`pid_chunk_scan` copies 8 KiB chunks of the target into a local buffer and
scans each on its own.  A comparison near the end of the buffer runs on into
whatever the stack holds behind it, and the loop bound leaves out the last
chunk; for a region smaller than a chunk it wraps around.
-/

set_option autoImplicit false

namespace HenPlugins.Memory.ChunkScan

open HenPlugins.Lib.ByteText
open HenPlugins.Lib.WhileLoop
open HenPlugins.Memory.PatternScan

def chunkSize : Nat := 8 * 1024

/-- The arguments, the target's memory (reads succeed) and the address of the
local buffer. -/
structure Scan where
  memory : BitVec 64 → UInt8
  memStart : BitVec 64
  memSz : BitVec 64
  pattern : Text
  patternOffset : BitVec 64
  mem : BitVec 64
  allocated : mem ≠ 0

structure ScanState where
  i : BitVec 64
  found : BitVec 64
  broke : Bool
  deriving DecidableEq

/-- What a comparison reads: the buffer, then the stack behind it. -/
def scanBytes (scan : Scan) (stack : Nat → UInt8) (chunkStart : BitVec 64)
    (index : Nat) : UInt8 :=
  if index < chunkSize then scan.memory (chunkStart + BitVec.ofNat 64 index)
  else stack (index - chunkSize)

def scanGuard (scan : Scan) (state : ScanState) : Bool :=
  !state.broke &&
    decide (state.i < scan.memSz - BitVec.ofNat 64 chunkSize)

def scanBody (scan : Scan) (stack : Nat → UInt8) (state : ScanState) :
    ScanState :=
  let chunkStart := scan.memStart + state.i
  let foundPattern := patternScan (scanBytes scan stack chunkStart) scan.mem
    chunkSize scan.pattern scan.patternOffset
  if foundPattern ≠ 0 then
    let chunkOffset := foundPattern - scan.mem
    { state with found := chunkStart + chunkOffset, broke := true }
  else { state with i := state.i + BitVec.ofNat 64 chunkSize }

def scanStart : ScanState :=
  { i := 0, found := 0, broke := false }

/-- `pid_chunk_scan` returns, with the given value. -/
def PidChunkScanReturns (scan : Scan) (stack : Nat → UInt8)
    (value : BitVec 64) : Prop :=
  ∃ final, EndsIn (scanGuard scan) (scanBody scan stack) scanStart final ∧
    final.found = value

/-! ## What is asked of the scan -/

/-- The byte at a position of the region. -/
def regionByte (scan : Scan) (position : Nat) : UInt8 :=
  scan.memory (scan.memStart + BitVec.ofNat 64 position)

/-- The signature matches at the position, wholly inside the region. -/
def MatchesInside (scan : Scan) (tokens : List Token) (position : Nat) :
    Prop :=
  position + tokens.length ≤ scan.memSz.toNat ∧
    ∀ (index : Nat) (token : Token), tokens[index]? = some token →
      token.accepts (regionByte scan (position + index))

/-! ## Where the scan can stop -/

/-- The part of the signature inside the chunk of the position matches, in the
scanner's reading. -/
def CutMatch (scan : Scan) (tokens : List Token) (position : Nat) : Prop :=
  ∀ (index : Nat) (token : Token), tokens[index]? = some token →
    position % chunkSize + index < chunkSize →
    regionByte scan (position + index) = token.code ∨ token.code = 0xff

/-- The part of the signature behind the chunk of the position is wild. -/
def TailWild (tokens : List Token) (position : Nat) : Prop :=
  ∀ (index : Nat) (token : Token), tokens[index]? = some token →
    chunkSize ≤ position % chunkSize + index → token.code = 0xff

/-- The chunk of the position is read. -/
def Scanned (scan : Scan) (position : Nat) : Prop :=
  position < 2 ^ 64 ∧ chunkSize * (position / chunkSize) <
    (scan.memSz - BitVec.ofNat 64 chunkSize).toNat

instance (scan : Scan) (position : Nat) : Decidable (Scanned scan position) :=
  inferInstanceAs (Decidable (_ ∧ _))

/-! ## One chunk -/

/-- A match in the scanner's reading, with this stack behind the buffer. -/
def LooseMatch (scan : Scan) (stack : Nat → UInt8) (tokens : List Token)
    (position : Nat) : Prop :=
  ∀ (index : Nat) (token : Token), tokens[index]? = some token →
    (if position % chunkSize + index < chunkSize then
        regionByte scan (position + index)
      else stack (position % chunkSize + index - chunkSize)) = token.code ∨
      token.code = 0xff

/-- Where the scan of a chunk stops: the first match in it, unless the address
found is zero and passes for none. -/
structure Hit (scan : Scan) (stack : Nat → UInt8) (tokens : List Token)
    (position : Nat) : Prop where
  loose : LooseMatch scan stack tokens position
  first : ∀ earlier < position, earlier / chunkSize = position / chunkSize →
    ¬ LooseMatch scan stack tokens earlier
  nonzero : scan.mem + BitVec.ofNat 64 (position % chunkSize) +
    scan.patternOffset ≠ 0

theorem cutMatch_of_looseMatch (scan : Scan) (stack : Nat → UInt8)
    (tokens : List Token) (position : Nat)
    (loose : LooseMatch scan stack tokens position) :
    CutMatch scan tokens position := by
  intro index token found inside
  have here := loose index token found
  rw [if_pos inside] at here
  exact here

theorem looseMatch_of_tailWild (scan : Scan) (stack : Nat → UInt8)
    (tokens : List Token) (position : Nat)
    (cut : CutMatch scan tokens position) (wild : TailWild tokens position) :
    LooseMatch scan stack tokens position := by
  intro index token found
  split
  · rename_i inside
    exact cut index token found inside
  · rename_i beyond
    exact Or.inr (wild index token found (by omega))

theorem cutMatch_of_matchesInside (scan : Scan) (tokens : List Token)
    (position : Nat) (inside : MatchesInside scan tokens position) :
    CutMatch scan tokens position := by
  intro index token found _
  have accepted := inside.2 index token found
  cases token with
  | byte value => exact Or.inl accepted
  | any => exact Or.inr rfl

/-- The state before the chunk of the given number. -/
def atChunk (chunk : Nat) : ScanState :=
  { i := BitVec.ofNat 64 (chunkSize * chunk), found := 0, broke := false }

section Scanning
variable (scan : Scan) (stack : Nat → UInt8) {tokens : List Token}
  (signature : Signature tokens scan.pattern) (short : tokens.length ≤ 511)

theorem looselyAt_iff (chunk index : Nat) (inside : index < chunkSize) :
    LooselyAt (scanBytes scan stack
        (scan.memStart + BitVec.ofNat 64 (chunkSize * chunk))) index tokens ↔
      LooseMatch scan stack tokens (chunkSize * chunk + index) := by
  have place : (chunkSize * chunk + index) % chunkSize = index := by
    rw [Nat.mul_add_mod, Nat.mod_eq_of_lt inside]
  unfold LooselyAt LooseMatch scanBytes regionByte
  simp only [place, Nat.add_assoc, BitVec.add_assoc,
    BitVec.ofNat_add (chunkSize * chunk)]

include signature short in
theorem chunk_spec (chunk : Nat) :
    (∃ index < chunkSize,
        LooseMatch scan stack tokens (chunkSize * chunk + index) ∧
        (∀ earlier < index,
          ¬ LooseMatch scan stack tokens (chunkSize * chunk + earlier)) ∧
        patternScan (scanBytes scan stack
            (scan.memStart + (atChunk chunk).i)) scan.mem chunkSize
            scan.pattern scan.patternOffset =
          scan.mem + BitVec.ofNat 64 index + scan.patternOffset) ∨
      ((∀ index < chunkSize,
          ¬ LooseMatch scan stack tokens (chunkSize * chunk + index)) ∧
        patternScan (scanBytes scan stack
            (scan.memStart + (atChunk chunk).i)) scan.mem chunkSize
            scan.pattern scan.patternOffset = 0) := by
  rcases patternScan_spec (scanBytes scan stack
      (scan.memStart + (atChunk chunk).i)) scan.mem chunkSize tokens
      scan.pattern signature short scan.patternOffset scan.allocated
      (by decide) with ⟨index, inside, loose, first, value⟩ | ⟨miss, value⟩
  · left
    refine ⟨index, inside, (looselyAt_iff scan stack chunk index inside).mp
      loose, ?_, value⟩
    intro earlier before early
    exact first earlier before
      ((looselyAt_iff scan stack chunk earlier (by omega)).mpr early)
  · right
    refine ⟨?_, value⟩
    intro index inside loose
    exact miss index inside
      ((looselyAt_iff scan stack chunk index inside).mpr loose)

theorem next_chunk (chunk : Nat) :
    (atChunk chunk).i + BitVec.ofNat 64 chunkSize =
      (atChunk (chunk + 1)).i := by
  simp only [atChunk]
  rw [← BitVec.ofNat_add, Nat.mul_succ]

theorem chunk_parts (chunk index : Nat) (inside : index < chunkSize) :
    (chunkSize * chunk + index) / chunkSize = chunk ∧
      (chunkSize * chunk + index) % chunkSize = index := by
  unfold chunkSize at *
  omega

theorem body_onward (chunk : Nat)
    (nothing : patternScan (scanBytes scan stack
        (scan.memStart + (atChunk chunk).i)) scan.mem chunkSize
        scan.pattern scan.patternOffset = 0) :
    scanBody scan stack (atChunk chunk) = atChunk (chunk + 1) := by
  rw [scanBody]
  simp only [nothing, ne_eq, not_true_eq_false, if_false]
  rw [next_chunk]
  rfl

include signature short in
theorem body_miss (chunk : Nat) (miss : ∀ index < chunkSize,
      ¬ Hit scan stack tokens (chunkSize * chunk + index)) :
    scanBody scan stack (atChunk chunk) = atChunk (chunk + 1) := by
  rcases chunk_spec scan stack signature short chunk with
    ⟨index, inside, loose, first, value⟩ | ⟨-, value⟩
  · obtain ⟨quotient, remainder⟩ := chunk_parts chunk index inside
    apply body_onward
    rw [value]
    -- the first match of the chunk is no hit, so its address is zero
    by_contra nonzero
    apply miss index inside
    refine ⟨loose, ?_, by rw [remainder]; exact nonzero⟩
    intro earlier before same
    rw [quotient] at same
    have parts := Nat.div_add_mod earlier chunkSize
    rw [same] at parts
    rw [← parts]
    exact first _ (by omega)
  · exact body_onward scan stack chunk value

theorem translated (chunk index : Nat) :
    scan.memStart + (atChunk chunk).i +
        (scan.mem + BitVec.ofNat 64 index + scan.patternOffset - scan.mem) =
      scan.memStart + BitVec.ofNat 64 (chunkSize * chunk + index) +
        scan.patternOffset := by
  have cancelled :
      scan.mem + BitVec.ofNat 64 index + scan.patternOffset - scan.mem =
        BitVec.ofNat 64 index + scan.patternOffset := by
    rw [BitVec.add_assoc, BitVec.add_comm, BitVec.add_sub_cancel]
  rw [cancelled]
  simp only [atChunk, BitVec.ofNat_add, BitVec.add_assoc]

include signature short in
theorem body_hit (chunk index : Nat) (inside : index < chunkSize)
    (hit : Hit scan stack tokens (chunkSize * chunk + index)) :
    scanBody scan stack (atChunk chunk) =
      { i := (atChunk chunk).i
        found := scan.memStart + BitVec.ofNat 64 (chunkSize * chunk + index) +
          scan.patternOffset
        broke := true } := by
  obtain ⟨quotient, remainder⟩ := chunk_parts chunk index inside
  have nonzero := hit.nonzero
  rw [remainder] at nonzero
  rcases chunk_spec scan stack signature short chunk with
    ⟨other, otherInside, otherLoose, otherFirst, value⟩ | ⟨miss, -⟩
  · have same : other = index := by
      rcases Nat.lt_trichotomy other index with before | same | behind
      · have otherQuotient := (chunk_parts chunk other otherInside).1
        exact absurd otherLoose (hit.first _ (by omega)
          (by rw [otherQuotient, quotient]))
      · exact same
      · exact absurd hit.loose (otherFirst index behind)
    subst same
    rw [scanBody]
    simp only [value, ne_eq, nonzero, not_false_eq_true, if_true]
    rw [translated]
  · exact absurd hit.loose (miss index inside)

/-! ## The loop -/

theorem scanGuard_atChunk (chunk : Nat) (inRange : chunk < 2 ^ 51) :
    scanGuard scan (atChunk chunk) = true ↔
      chunkSize * chunk < (scan.memSz - BitVec.ofNat 64 chunkSize).toNat := by
  have small : chunkSize * chunk < 2 ^ 64 := by
    rw [chunkSize]
    omega
  have counter :
      (BitVec.ofNat 64 (chunkSize * chunk)).toNat = chunkSize * chunk := by
    rw [BitVec.toNat_ofNat, Nat.mod_eq_of_lt small]
  simp only [scanGuard, atChunk, Bool.not_false, Bool.true_and,
    decide_eq_true_eq, BitVec.lt_def, counter]

theorem loopBound (scan : Scan) :
    (scan.memSz - BitVec.ofNat 64 chunkSize).toNat =
      if chunkSize ≤ scan.memSz.toNat then scan.memSz.toNat - chunkSize
      else scan.memSz.toNat + 2 ^ 64 - chunkSize := by
  have bounded := scan.memSz.isLt
  rw [BitVec.toNat_sub, BitVec.toNat_ofNat]
  rw [chunkSize]
  split <;> omega

theorem run_misses (count : Nat)
    (misses : ∀ chunk < count, scanGuard scan (atChunk chunk) = true ∧
      scanBody scan stack (atChunk chunk) = atChunk (chunk + 1)) :
    runFor (scanGuard scan) (scanBody scan stack) count scanStart =
      atChunk count := by
  induction count with
  | zero => rfl
  | succ count ih =>
      have before := ih fun chunk inside => misses chunk (by omega)
      obtain ⟨continues, onward⟩ := misses count (by omega)
      rw [runFor_add, before, runFor_succ, if_pos continues, onward]
      rfl

include signature short in
theorem endsIn_hit (position : Nat) (scanned : Scanned scan position)
    (here : Hit scan stack tokens position)
    (first : ∀ earlier < position, ¬ Hit scan stack tokens earlier) :
    PidChunkScanReturns scan stack
      (scan.memStart + BitVec.ofNat 64 position + scan.patternOffset) := by
  obtain ⟨bounded, inside⟩ := scanned
  have split : chunkSize * (position / chunkSize) + position % chunkSize =
      position := Nat.div_add_mod position chunkSize
  have inRange : position / chunkSize < 2 ^ 51 := by
    unfold chunkSize at *
    omega
  have small : position % chunkSize < chunkSize :=
    Nat.mod_lt _ (by decide)
  have reached := run_misses scan stack (position / chunkSize) (by
    intro chunk before
    constructor
    · apply (scanGuard_atChunk scan chunk (by omega)).mpr
      have below : chunkSize * chunk ≤ chunkSize * (position / chunkSize) :=
        Nat.mul_le_mul_left _ (by omega)
      omega
    · apply body_miss scan stack signature short
      intro index indexInside
      apply first
      have below : chunkSize * (chunk + 1) ≤
          chunkSize * (position / chunkSize) :=
        Nat.mul_le_mul_left _ before
      rw [Nat.mul_succ] at below
      omega)
  have hit := body_hit scan stack signature short (position / chunkSize)
    (position % chunkSize) small (by rw [split]; exact here)
  have continues := (scanGuard_atChunk scan _ inRange).mpr inside
  rw [split] at hit
  refine ⟨_, ⟨position / chunkSize + 1, rfl, ?_⟩, ?_⟩
  · rw [runFor_add, reached, runFor_succ, if_pos continues, hit]
    rfl
  · rw [runFor_add, reached, runFor_succ, if_pos continues, hit]
    rfl

include signature short in
/-- Without a hit the loop ends with 0, unless the bound wrapped around. -/
theorem endsIn_miss
    (miss : ∀ position, Scanned scan position →
      ¬ Hit scan stack tokens position)
    (regular : ¬ (0 < scan.memSz.toNat ∧ scan.memSz.toNat < chunkSize)) :
    PidChunkScanReturns scan stack 0 := by
  have bound := loopBound scan
  have bounded := scan.memSz.isLt
  obtain ⟨count, enough, fits⟩ : ∃ count,
      (scan.memSz - BitVec.ofNat 64 chunkSize).toNat ≤ chunkSize * count ∧
      ∀ chunk < count, chunkSize * chunk <
        (scan.memSz - BitVec.ofNat 64 chunkSize).toNat := by
    refine ⟨((scan.memSz - BitVec.ofNat 64 chunkSize).toNat +
      (chunkSize - 1)) / chunkSize, ?_, ?_⟩
    · rw [chunkSize]
      omega
    · intro chunk before
      unfold chunkSize at *
      omega
  have inRange : count < 2 ^ 51 := by
    by_contra large
    have last := fits (2 ^ 51 - 1) (by omega)
    split at bound <;> unfold chunkSize at * <;> omega
  have reached := run_misses scan stack count (by
    intro chunk before
    constructor
    · exact (scanGuard_atChunk scan chunk (by omega)).mpr (fits chunk before)
    · apply body_miss scan stack signature short
      intro index inside
      have quotient : (chunkSize * chunk + index) / chunkSize = chunk := by
        unfold chunkSize at *
        omega
      apply miss
      refine ⟨?_, by rw [quotient]; exact fits chunk before⟩
      unfold chunkSize at *
      omega)
  refine ⟨atChunk count, ⟨count, reached, ?_⟩, rfl⟩
  apply Bool.eq_false_iff.mpr
  intro continues
  have below := (scanGuard_atChunk scan count inRange).mp continues
  omega

theorem atChunk_wraps : atChunk (2 ^ 51) = atChunk 0 := by
  decide

include signature short in
/-- A region smaller than a chunk is never left without a hit. -/
theorem diverges_of_small
    (miss : ∀ position, Scanned scan position →
      ¬ Hit scan stack tokens position)
    (some : 0 < scan.memSz.toNat) (small : scan.memSz.toNat < chunkSize) :
    ¬ Halts (scanGuard scan) (scanBody scan stack) scanStart := by
  have bound := loopBound scan
  rw [if_neg (by omega)] at bound
  have continues : ∀ chunk < 2 ^ 51,
      scanGuard scan (atChunk chunk) = true := by
    intro chunk inRange
    apply (scanGuard_atChunk scan chunk inRange).mpr
    unfold chunkSize at *
    omega
  intro halted
  obtain ⟨final, count, run, stopped⟩ := halted
  have somewhere := runFor_invariant (scanGuard scan) (scanBody scan stack)
    (fun state => ∃ chunk < 2 ^ 51, state = atChunk chunk) (by
      rintro state - ⟨chunk, inRange, rfl⟩
      have onward := body_miss scan stack signature short chunk (by
        intro index inside
        have quotient : (chunkSize * chunk + index) / chunkSize = chunk := by
          unfold chunkSize at *
          omega
        apply miss
        refine ⟨?_, ?_⟩
        · unfold chunkSize at *
          omega
        · rw [quotient]
          exact (scanGuard_atChunk scan chunk inRange).mp
            (continues chunk inRange))
      rw [onward]
      by_cases last : chunk + 1 < 2 ^ 51
      · exact ⟨chunk + 1, last, rfl⟩
      · refine ⟨0, by decide, ?_⟩
        rw [← atChunk_wraps, show chunk + 1 = 2 ^ 51 by omega])
    count scanStart ⟨0, by decide, rfl⟩
  rw [run] at somewhere
  obtain ⟨chunk, inRange, rfl⟩ := somewhere
  rw [continues chunk inRange] at stopped
  contradiction

end Scanning

end HenPlugins.Memory.ChunkScan
