import HenPlugins.Memory.ChunkScan

/-!
# Finding the lowest match of a region

The chunked scan answers for the region exactly when the first place where a
chunk has something like a match is a match that the stack cannot spoil, or
when there is no such place and nothing to find.
-/

set_option autoImplicit false

namespace HenPlugins.Memory.RegionSearch

open HenPlugins.Lib.ByteText
open HenPlugins.Lib.WhileLoop
open HenPlugins.Memory.PatternScan
open HenPlugins.Memory.ChunkScan

/-- Whatever the stack holds, the scan returns, gives the lowest match and
gives 0 exactly when there is none. -/
def FindsLowest (scan : Scan) (tokens : List Token) : Prop :=
  ∀ stack, ∃ value, PidChunkScanReturns scan stack value ∧
    (value = 0 ↔ ∀ position, ¬ MatchesInside scan tokens position) ∧
    ∀ position, MatchesInside scan tokens position →
      (∀ earlier < position, ¬ MatchesInside scan tokens earlier) →
      value = scan.memStart + BitVec.ofNat 64 position + scan.patternOffset

structure FirstCutMatch (scan : Scan) (tokens : List Token)
    (position : Nat) : Prop where
  scanned : Scanned scan position
  cut : CutMatch scan tokens position
  first : ∀ earlier < position, ¬ CutMatch scan tokens earlier

/-- The match is reported at an address other than zero, in the buffer and in
the target. -/
def Reported (scan : Scan) (position : Nat) : Prop :=
  scan.mem + BitVec.ofNat 64 (position % chunkSize) +
      scan.patternOffset ≠ 0 ∧
    scan.memStart + BitVec.ofNat 64 position + scan.patternOffset ≠ 0

instance (scan : Scan) (position : Nat) :
    Decidable (Reported scan position) :=
  inferInstanceAs (Decidable (_ ∧ _))

/-- No chunk has anything like a match, and rightly so; a nonempty region is
not smaller than a chunk. -/
def NothingReached (scan : Scan) (tokens : List Token) : Prop :=
  (∀ position, Scanned scan position → ¬ CutMatch scan tokens position) ∧
    (∀ position, ¬ MatchesInside scan tokens position) ∧
    ¬ (0 < scan.memSz.toNat ∧ scan.memSz.toNat < chunkSize)

/-- The first place where a chunk has something like a match is a match that
does not depend on the stack. -/
def RightlyReached (scan : Scan) (tokens : List Token) : Prop :=
  ∃ position, FirstCutMatch scan tokens position ∧
    TailWild tokens position ∧ MatchesInside scan tokens position ∧
    Reported scan position

/-- The address reported for the position is that of the lowest match; or it is
zero, and there is no match. -/
def RightAnswer (scan : Scan) (tokens : List Token) (position : Nat) : Prop :=
  if scan.memStart + BitVec.ofNat 64 position + scan.patternOffset = 0 then
    ∀ place, ¬ MatchesInside scan tokens place
  else
    MatchesInside scan tokens position ∧
      ∀ earlier < position, ¬ MatchesInside scan tokens earlier

structure FirstHit (scan : Scan) (stack : Nat → UInt8) (tokens : List Token)
    (position : Nat) : Prop where
  scanned : Scanned scan position
  hit : Hit scan stack tokens position
  first : ∀ earlier < position, ¬ Hit scan stack tokens earlier

/-- With this stack, the first hit is the right answer; or there is no hit,
no match, and no endless loop. -/
def AnswersRight (scan : Scan) (stack : Nat → UInt8) (tokens : List Token) :
    Prop :=
  (∃ position, FirstHit scan stack tokens position ∧
      RightAnswer scan tokens position) ∨
    ((∀ position, Scanned scan position → ¬ Hit scan stack tokens position) ∧
      (∀ position, ¬ MatchesInside scan tokens position) ∧
      ¬ (0 < scan.memSz.toNat ∧ scan.memSz.toNat < chunkSize))

/-- A stack on which the part behind the chunk matches too. -/
def matchingStack (tokens : List Token) (position : Nat) (beyond : Nat) :
    UInt8 :=
  match tokens[beyond + chunkSize - position % chunkSize]? with
  | some token => token.code
  | none => 0

theorem looseMatch_matchingStack (scan : Scan) (tokens : List Token)
    (position : Nat) (cut : CutMatch scan tokens position) :
    LooseMatch scan (matchingStack tokens position) tokens position := by
  intro index token found
  split
  · rename_i inside
    exact cut index token found inside
  · rename_i beyond
    left
    have place : position % chunkSize + index - chunkSize + chunkSize -
        position % chunkSize = index := by
      omega
    rw [matchingStack, place, found]

theorem exists_mismatchingStack (scan : Scan) (tokens : List Token)
    (position : Nat) (dependent : ¬ TailWild tokens position) :
    ∃ stack, ¬ LooseMatch scan stack tokens position := by
  rw [TailWild] at dependent
  push Not at dependent
  obtain ⟨index, token, found, beyond, strict⟩ := dependent
  refine ⟨fun _ => token.code + 1, ?_⟩
  intro loose
  have here := loose index token found
  rw [if_neg (by omega)] at here
  rcases here with same | wild
  · exact absurd same (by simp)
  · exact strict wild

theorem matchesInside_lt (scan : Scan) (tokens : List Token) (position : Nat)
    (inside : MatchesInside scan tokens position) : position < 2 ^ 64 := by
  have bounded := scan.memSz.isLt
  have fits := inside.1
  by_contra large
  have full : tokens.length = 0 := by omega
  omega

theorem scanned_earlier (scan : Scan) (position earlier : Nat)
    (before : earlier ≤ position) (scanned : Scanned scan position) :
    Scanned scan earlier := by
  have below : chunkSize * (earlier / chunkSize) ≤
      chunkSize * (position / chunkSize) :=
    Nat.mul_le_mul_left _ (Nat.div_le_div_right before)
  exact ⟨by have := scanned.1; omega, by have := scanned.2; omega⟩

theorem returned_unique (scan : Scan) (stack : Nat → UInt8)
    (left right : BitVec 64) (first : PidChunkScanReturns scan stack left)
    (second : PidChunkScanReturns scan stack right) : left = right := by
  obtain ⟨leftFinal, leftEnds, rfl⟩ := first
  obtain ⟨rightFinal, rightEnds, rfl⟩ := second
  rw [endsIn_unique _ _ _ _ _ leftEnds rightEnds]

theorem address_injective (scan : Scan) (left right : Nat)
    (leftBound : left < 2 ^ 64)
    (same : scan.memStart + BitVec.ofNat 64 left + scan.patternOffset =
      scan.memStart + BitVec.ofNat 64 right + scan.patternOffset) :
    left = right % 2 ^ 64 := by
  have offsets := (BitVec.add_right_inj _).mp ((BitVec.add_left_inj _).mp same)
  have numbers := congrArg BitVec.toNat offsets
  rwa [BitVec.toNat_ofNat, BitVec.toNat_ofNat, Nat.mod_eq_of_lt leftBound]
    at numbers

/-- What is asked of a returned value. -/
def RightValue (scan : Scan) (tokens : List Token) (value : BitVec 64) :
    Prop :=
  (value = 0 ↔ ∀ position, ¬ MatchesInside scan tokens position) ∧
    ∀ position, MatchesInside scan tokens position →
      (∀ earlier < position, ¬ MatchesInside scan tokens earlier) →
      value = scan.memStart + BitVec.ofNat 64 position + scan.patternOffset

section Whole
variable (scan : Scan) {tokens : List Token}
  (signature : Signature tokens scan.pattern) (short : tokens.length ≤ 511)

theorem rightAnswer_iff (position : Nat) (inRange : position < 2 ^ 64) :
    RightAnswer scan tokens position ↔ RightValue scan tokens
      (scan.memStart + BitVec.ofNat 64 position + scan.patternOffset) := by
  rw [RightAnswer]
  split
  · rename_i zero
    constructor
    · intro unmatched
      exact ⟨iff_of_true zero unmatched,
        fun place inside => absurd inside (unmatched place)⟩
    · intro right
      exact right.1.mp zero
  · rename_i nonzero
    constructor
    · intro found
      obtain ⟨inside, lowest⟩ := found
      refine ⟨iff_of_false nonzero fun none => none position inside, ?_⟩
      intro other otherInside otherLowest
      rcases Nat.lt_trichotomy other position with before | same | behind
      · exact absurd otherInside (lowest other before)
      · rw [same]
      · exact absurd inside (otherLowest position behind)
    · intro right
      obtain ⟨zeroIff, lowestValue⟩ := right
      have matched : ∃ place, MatchesInside scan tokens place := by
        by_contra none
        push Not at none
        exact nonzero (zeroIff.mpr none)
      obtain ⟨lowest, inside, lowestFirst⟩ := least_of_exists _ matched
      have same := address_injective scan lowest position
        (matchesInside_lt scan tokens lowest inside)
        (lowestValue lowest inside lowestFirst).symm
      rw [Nat.mod_eq_of_lt inRange] at same
      subst same
      exact ⟨inside, lowestFirst⟩

theorem firstHit_of_exists (stack : Nat → UInt8)
    (some : ∃ position, Scanned scan position ∧
      Hit scan stack tokens position) :
    ∃ position, FirstHit scan stack tokens position := by
  obtain ⟨position, ⟨scanned, hit⟩, least⟩ := least_of_exists _ some
  refine ⟨position, scanned, hit, ?_⟩
  intro earlier before earlierHit
  exact least earlier before
    ⟨scanned_earlier scan position earlier (by omega) scanned, earlierHit⟩

include signature short in
theorem findsLowest_iff_answersRight :
    FindsLowest scan tokens ↔ ∀ stack, AnswersRight scan stack tokens := by
  constructor
  · intro finds stack
    obtain ⟨value, returned, right⟩ := finds stack
    by_cases some : ∃ position, Scanned scan position ∧
        Hit scan stack tokens position
    · left
      obtain ⟨position, firstHit⟩ := firstHit_of_exists scan stack some
      refine ⟨position, firstHit, ?_⟩
      rw [rightAnswer_iff scan position firstHit.scanned.1,
        returned_unique scan _ _ _ (endsIn_hit scan stack signature short
          position firstHit.scanned firstHit.hit firstHit.first) returned]
      exact right
    · right
      push Not at some
      have regular :
          ¬ (0 < scan.memSz.toNat ∧ scan.memSz.toNat < chunkSize) := by
        intro irregular
        obtain ⟨nonempty, small⟩ := irregular
        obtain ⟨final, ends, -⟩ := returned
        exact diverges_of_small scan _ signature short some nonempty small
          ⟨final, ends⟩
      have zero := returned_unique scan _ _ _ returned
        (endsIn_miss scan _ signature short some regular)
      exact ⟨some, right.1.mp zero, regular⟩
  · intro answers stack
    rcases answers stack with ⟨position, ⟨scanned, hit, first⟩, right⟩ |
      ⟨miss, unmatched, regular⟩
    · exact ⟨_, endsIn_hit scan stack signature short position scanned hit
        first, (rightAnswer_iff scan position scanned.1).mp right⟩
    · exact ⟨0, endsIn_miss scan stack signature short miss regular,
        iff_of_true rfl unmatched,
        fun place inside => absurd inside (unmatched place)⟩

end Whole

theorem cutMatch_of_hit (scan : Scan) (stack : Nat → UInt8)
    (tokens : List Token) (position : Nat)
    (hit : Hit scan stack tokens position) :
    CutMatch scan tokens position :=
  cutMatch_of_looseMatch scan stack tokens position hit.loose

theorem firstHit_of_cut (scan : Scan) (stack : Nat → UInt8)
    (tokens : List Token) (position : Nat)
    (reached : FirstCutMatch scan tokens position)
    (loose : LooseMatch scan stack tokens position)
    (reported : Reported scan position) :
    FirstHit scan stack tokens position := by
  have none : ∀ earlier < position,
      ¬ LooseMatch scan stack tokens earlier := by
    intro earlier before earlierLoose
    exact reached.first earlier before
      (cutMatch_of_looseMatch scan stack tokens earlier earlierLoose)
  exact ⟨reached.scanned,
    ⟨loose, fun earlier before _ => none earlier before, reported.1⟩,
    fun earlier before hit => none earlier before hit.loose⟩

theorem answersRight_of_rightlyReached (scan : Scan) (stack : Nat → UInt8)
    (tokens : List Token) (right : RightlyReached scan tokens) :
    AnswersRight scan stack tokens := by
  obtain ⟨position, reached, wild, inside, reported⟩ := right
  left
  refine ⟨position, firstHit_of_cut scan stack tokens position reached
    (looseMatch_of_tailWild scan stack tokens position reached.cut wild)
    reported, ?_⟩
  rw [RightAnswer, if_neg reported.2]
  refine ⟨inside, ?_⟩
  intro earlier before earlierInside
  exact reached.first earlier before
    (cutMatch_of_matchesInside scan tokens earlier earlierInside)

theorem firstHit_unique (scan : Scan) (stack : Nat → UInt8)
    (tokens : List Token) (left right : Nat)
    (first : FirstHit scan stack tokens left)
    (second : FirstHit scan stack tokens right) : left = right := by
  rcases Nat.lt_trichotomy left right with before | same | behind
  · exact absurd first.hit (second.first left before)
  · exact same
  · exact absurd second.hit (first.first right behind)

/-- A right answer whatever the stack holds leaves no choice at the first place
with something like a match. -/
theorem rightlyReached_of_answersRight (scan : Scan) (tokens : List Token)
    (position : Nat) (reached : FirstCutMatch scan tokens position)
    (reported : Reported scan position)
    (answers : ∀ stack, AnswersRight scan stack tokens) :
    RightlyReached scan tokens := by
  have right : RightAnswer scan tokens position := by
    have here := firstHit_of_cut scan (matchingStack tokens position) tokens
      position reached
      (looseMatch_matchingStack scan tokens position reached.cut) reported
    rcases answers (matchingStack tokens position) with
      ⟨place, firstHit, right⟩ | ⟨miss, -⟩
    · rw [firstHit_unique scan _ tokens position place here firstHit]
      exact right
    · exact absurd here.hit (miss position here.scanned)
  rw [RightAnswer, if_neg reported.2] at right
  refine ⟨position, reached, ?_, right.1, reported⟩
  -- A stack that mismatches behind the chunk would change the answer.
  by_contra dependent
  obtain ⟨stack, strict⟩ := exists_mismatchingStack scan tokens position
    dependent
  rcases answers stack with ⟨place, firstHit, otherRight⟩ | ⟨-, unmatched, -⟩
  · rw [RightAnswer] at otherRight
    split at otherRight
    · exact otherRight position right.1
    · rcases Nat.lt_trichotomy place position with before | same | behind
      · exact right.2 place before otherRight.1
      · rw [same] at firstHit
        exact strict firstHit.hit.loose
      · exact otherRight.2 position behind right.1
  · exact unmatched position right.1

/-- When scanning chunk by chunk finds what scanning the region finds: with
each stack, exactly when the first hit is the right answer.  This does not
depend on the stack where the first place with something like a match is a
match up to wild tokens, or where there is no such place; and when that place
is reported at all, in no other case. -/
theorem findsLowest_iff (scan : Scan) (tokens : List Token)
    (signature : Signature tokens scan.pattern) (short : tokens.length ≤ 511) :
    (FindsLowest scan tokens ↔ ∀ stack, AnswersRight scan stack tokens) ∧
      (NothingReached scan tokens ∨ RightlyReached scan tokens →
        FindsLowest scan tokens) ∧
      ((∀ position, FirstCutMatch scan tokens position →
          Reported scan position) →
        FindsLowest scan tokens →
        NothingReached scan tokens ∨ RightlyReached scan tokens) := by
  have exactly := findsLowest_iff_answersRight scan signature short
  refine ⟨exactly, ?_, ?_⟩
  · rw [exactly]
    rintro (⟨unreached, unmatched, regular⟩ | right) stack
    · refine Or.inr ⟨?_, unmatched, regular⟩
      intro position scanned hit
      exact unreached position scanned
        (cutMatch_of_hit scan stack tokens position hit)
    · exact answersRight_of_rightlyReached scan stack tokens right
  · rw [exactly]
    intro reported answers
    by_cases some : ∃ position, Scanned scan position ∧
        CutMatch scan tokens position
    · right
      obtain ⟨position, ⟨scanned, cut⟩, first⟩ := least_of_exists _ some
      have reached : FirstCutMatch scan tokens position := by
        refine ⟨scanned, cut, ?_⟩
        intro earlier before earlierCut
        exact first earlier before
          ⟨scanned_earlier scan position earlier (by omega) scanned,
            earlierCut⟩
      exact rightlyReached_of_answersRight scan tokens position reached
        (reported position reached) answers
    · left
      push Not at some
      rcases answers fun _ => 0 with ⟨position, firstHit, -⟩ |
        ⟨-, unmatched, regular⟩
      · exact absurd (cutMatch_of_hit scan _ tokens position firstHit.hit)
          (some position firstHit.scanned)
      · exact ⟨some, unmatched, regular⟩

def nopScan (memSz : BitVec 64) : Scan :=
  { memory := fun _ => 0x90
    memStart := 0x1000
    memSz := memSz
    pattern := ascii "90"
    patternOffset := 4
    mem := 0x7000
    allocated := by decide }

def nopTokens : List Token := [.byte 0x90]

theorem nopTokens_signature (memSz : BitVec 64) :
    Signature nopTokens (nopScan memSz).pattern :=
  Signature.last _ _
    (Spelling.byte '9'.toUInt8 '0'.toUInt8 9 0 (by decide) (by decide))

theorem nopScan_matchesInside (memSz : BitVec 64) (position : Nat)
    (fits : position + 1 ≤ memSz.toNat) :
    MatchesInside (nopScan memSz) nopTokens position := by
  refine ⟨fits, ?_⟩
  intro index token found
  cases index with
  | zero =>
      cases found
      rfl
  | succ index => contradiction

/-- Two chunks of `nop`: the first of them is found. -/
theorem findsLowest_nopScan : FindsLowest (nopScan 16384) nopTokens := by
  have matched := nopScan_matchesInside 16384 0 (by decide)
  refine (findsLowest_iff (nopScan 16384) nopTokens
    (nopTokens_signature 16384) (by decide)).2.1 (Or.inr ⟨0, ⟨by decide,
      cutMatch_of_matchesInside _ _ 0 matched, ?_⟩, ?_, matched, by decide⟩)
  · intro earlier before
    contradiction
  · intro index token found beyond
    cases index with
    | zero => contradiction
    | succ index => contradiction

/-- A single chunk is not read at all. -/
theorem singleChunk_not_findsLowest :
    Signature nopTokens (nopScan 8192).pattern ∧
      ¬ FindsLowest (nopScan 8192) nopTokens := by
  refine ⟨nopTokens_signature 8192, ?_⟩
  intro finds
  obtain ⟨value, returned, zeroIff, -⟩ := finds fun _ => 0
  have nothing : PidChunkScanReturns (nopScan 8192) (fun _ => 0) 0 :=
    ⟨scanStart, endsIn_of_guard_false _ _ _ (by decide), rfl⟩
  have zero := returned_unique _ _ _ _ returned nothing
  exact zeroIff.mp zero 0 (nopScan_matchesInside 8192 0 (by decide))

end HenPlugins.Memory.RegionSearch
