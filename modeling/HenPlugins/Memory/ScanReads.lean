import HenPlugins.Lib.CellReads
import HenPlugins.Memory.PatternScan

/-!
# What the scan reads

The outer loop runs over the whole module, and the comparison goes on behind it
as long as the pattern matches.  A match inside stops the scan in time; without
one, the scan leaves the module when its last bytes match a part of the
pattern.
-/

set_option autoImplicit false

namespace HenPlugins.Memory.ScanReads

open HenPlugins.Lib.ByteText
open HenPlugins.Lib.CellReads
open HenPlugins.Memory.PatternScan

/-- The comparison of a byte with one of the pattern. -/
def comparison (patternByte scanByte : UInt8) : Bool :=
  !(scanByte != patternByte && patternByte != 0xff)

/-- The inner loop. -/
def matchReads (patternBytes : List UInt8) (i : Nat) : Reading UInt8 Bool :=
  agree (patternBytes.map comparison) i

/-- `PatternScan` up to the index that it stops at. -/
def scanReads (moduleBase : BitVec 64) (moduleSize : Nat) (signature : Text) :
    Reading UInt8 (Option Nat) :=
  if moduleBase = 0 ∨ moduleSize = 0 then .done none
  else
    let patternBytes := patternToByte signature
    if patternBytes.length = 0 ∨ maxPatternLength ≤ patternBytes.length then
      .done none
    else firstHit (matchReads patternBytes) moduleSize 0

theorem run_matchReads (scanBytes : Nat → UInt8) (patternBytes : List UInt8)
    (i : Nat) :
    run scanBytes (matchReads patternBytes i) =
      matchesAt scanBytes i patternBytes := by
  rw [matchReads]
  induction patternBytes generalizing i with
  | nil => rfl
  | cons patternByte rest ih =>
      rw [List.map_cons, run_agree_cons, ih, matchesAt, comparison]
      split
      · rename_i differ
        rw [differ]
        rfl
      · rename_i same
        rw [Bool.eq_false_iff.mpr same]
        rfl

/-- The reads are those of `PatternScan`: it returns what they lead to. -/
theorem patternScan_eq_run (scanBytes : Nat → UInt8)
    (moduleBase : BitVec 64) (moduleSize : Nat) (signature : Text)
    (offset : BitVec 64) :
    patternScan scanBytes moduleBase moduleSize signature offset =
      (run scanBytes (scanReads moduleBase moduleSize signature)).elim 0
        fun i => moduleBase + BitVec.ofNat 64 i + offset := by
  rw [patternScan, scanReads]
  split
  · rfl
  · simp only
    split
    · rfl
    · rw [run_firstHit_zero]
      simp only [run_matchReads]
      cases (List.range moduleSize).find? fun i =>
          matchesAt scanBytes i (patternToByte signature) with
      | none => rfl
      | some i => rfl

/-- Only bytes of the module are read, and a match that is reported lies in
it. -/
structure StaysInside (scanBytes : Nat → UInt8) (moduleBase : BitVec 64)
    (moduleSize : Nat) (signature : Text) : Prop where
  read : ∀ index ∈ reads scanBytes (scanReads moduleBase moduleSize signature),
    index < moduleSize
  reported : ∀ i, run scanBytes (scanReads moduleBase moduleSize signature) =
      some i →
    ∀ j < (patternToByte signature).length, i + j < moduleSize

/-- Nothing is scanned. -/
def Refused (moduleBase : BitVec 64) (moduleSize : Nat)
    (patternBytes : List UInt8) : Prop :=
  (moduleBase = 0 ∨ moduleSize = 0) ∨
    patternBytes.length = 0 ∨ maxPatternLength ≤ patternBytes.length

section Module
variable (scanBytes : Nat → UInt8) (moduleSize : Nat)
  (patternBytes : List UInt8)

/-- The pattern matches somewhere inside. -/
def MatchInside : Prop :=
  ∃ i, i + patternBytes.length ≤ moduleSize ∧
    matchesAt scanBytes i patternBytes = true

/-- The last bytes of the module, from the index on, are fewer than the pattern
has, and match the first of it. -/
def EndMatch (i : Nat) : Prop :=
  i < moduleSize ∧ moduleSize < i + patternBytes.length ∧
    matchesAt scanBytes i (patternBytes.take (moduleSize - i)) = true

theorem mem_matchReads (i index : Nat) :
    index ∈ reads scanBytes (matchReads patternBytes i) ↔
      ∃ j < patternBytes.length, index = i + j ∧
        matchesAt scanBytes i (patternBytes.take j) = true := by
  rw [matchReads, mem_reads_agree, List.length_map]
  simp only [← List.map_take]
  constructor
  · intro some
    obtain ⟨j, inside, here, passed⟩ := some
    exact ⟨j, inside, here, (run_matchReads scanBytes _ i) ▸ passed⟩
  · intro some
    obtain ⟨j, inside, here, passed⟩ := some
    exact ⟨j, inside, here, (run_matchReads scanBytes _ i).trans passed⟩

theorem matchesAt_take (i count : Nat)
    (matched : matchesAt scanBytes i patternBytes = true) :
    matchesAt scanBytes i (patternBytes.take count) = true := by
  rw [← run_matchReads, matchReads, run_agree_iff] at *
  intro j accepts found
  rw [List.map_take, List.getElem?_take] at found
  split at found
  · exact matched j accepts found
  · contradiction

end Module

section Scan
variable (scanBytes : Nat → UInt8) (moduleBase : BitVec 64)
  (moduleSize : Nat) (signature : Text)

theorem scanReads_of_refused
    (refused : Refused moduleBase moduleSize (patternToByte signature)) :
    scanReads moduleBase moduleSize signature = .done none := by
  rw [scanReads]
  by_cases null : moduleBase = 0 ∨ moduleSize = 0
  · rw [if_pos null]
  · rw [if_neg null]
    exact if_pos (refused.resolve_left null)

theorem scanReads_of_accepted
    (accepted : ¬ Refused moduleBase moduleSize (patternToByte signature)) :
    scanReads moduleBase moduleSize signature =
      firstHit (matchReads (patternToByte signature)) moduleSize 0 := by
  obtain ⟨module, pattern⟩ := not_or.mp accepted
  rw [scanReads, if_neg module]
  exact if_neg pattern

variable
  (accepted : ¬ Refused moduleBase moduleSize (patternToByte signature))

include accepted

/-- A byte is read if the pattern matches up to it, from an index with no match
before it. -/
theorem mem_scanReads (index : Nat) :
    index ∈ reads scanBytes (scanReads moduleBase moduleSize signature) ↔
      ∃ i < moduleSize,
        (∀ earlier < i,
          matchesAt scanBytes earlier (patternToByte signature) = false) ∧
        ∃ j < (patternToByte signature).length, index = i + j ∧
          matchesAt scanBytes i ((patternToByte signature).take j) = true := by
  rw [scanReads_of_accepted moduleBase moduleSize signature accepted,
    mem_reads_firstHit]
  simp only [run_matchReads, mem_matchReads, Nat.zero_le, true_and,
    Nat.zero_add, true_implies]

theorem stops_at (i : Nat)
    (stop : run scanBytes (scanReads moduleBase moduleSize signature) =
      some i) :
    i < moduleSize ∧
      (∀ earlier < i,
        matchesAt scanBytes earlier (patternToByte signature) = false) ∧
      matchesAt scanBytes i (patternToByte signature) = true := by
  rw [scanReads_of_accepted moduleBase moduleSize signature accepted,
    run_firstHit_eq_some] at stop
  simp only [run_matchReads] at stop
  exact ⟨stop.1, stop.2.2, stop.2.1⟩

theorem reads_of_stop (i : Nat)
    (stop : run scanBytes (scanReads moduleBase moduleSize signature) =
      some i) (j : Nat) (inside : j < (patternToByte signature).length) :
    i + j ∈ reads scanBytes (scanReads moduleBase moduleSize signature) := by
  obtain ⟨here, clear, matched⟩ := stops_at scanBytes moduleBase moduleSize
    signature accepted i stop
  rw [mem_scanReads scanBytes moduleBase moduleSize signature accepted]
  exact ⟨i, here, clear, j, inside, rfl,
    matchesAt_take scanBytes (patternToByte signature) i j matched⟩

theorem reads_behind
    (noMatch : ¬ MatchInside scanBytes moduleSize (patternToByte signature))
    (some : ∃ i, EndMatch scanBytes moduleSize (patternToByte signature) i) :
    moduleSize ∈
      reads scanBytes (scanReads moduleBase moduleSize signature) := by
  rw [scanReads_of_accepted moduleBase moduleSize signature accepted]
  apply mem_reads_of_reaches scanBytes _ moduleSize moduleSize
    (EndMatch scanBytes moduleSize (patternToByte signature)) some
  · intro i endMatch
    exact endMatch.1
  · intro earlier i before endMatch hit
    rw [run_matchReads] at hit
    have inside := endMatch.1
    by_cases fits : earlier + (patternToByte signature).length ≤ moduleSize
    · exact absurd ⟨earlier, fits, hit⟩ noMatch
    · exact ⟨by omega, by omega,
        matchesAt_take scanBytes (patternToByte signature) earlier _ hit⟩
  · intro i endMatch
    obtain ⟨inside, beyond, matched⟩ := endMatch
    rw [mem_matchReads]
    exact ⟨moduleSize - i, by omega, by omega, matched⟩

theorem inside_of_match
    (some : MatchInside scanBytes moduleSize (patternToByte signature))
    (index : Nat)
    (read : index ∈
      reads scanBytes (scanReads moduleBase moduleSize signature)) :
    index < moduleSize := by
  rw [mem_scanReads scanBytes moduleBase moduleSize signature accepted] at read
  obtain ⟨i, -, clear, j, within, here, -⟩ := read
  obtain ⟨stop, fits, matched⟩ := some
  have reached : i ≤ stop := by
    apply Nat.le_of_not_lt
    intro before
    rw [clear stop before] at matched
    contradiction
  omega

theorem inside_of_mismatch
    (none : ∀ i, ¬ EndMatch scanBytes moduleSize (patternToByte signature) i)
    (index : Nat)
    (read : index ∈
      reads scanBytes (scanReads moduleBase moduleSize signature)) :
    index < moduleSize := by
  rw [mem_scanReads scanBytes moduleBase moduleSize signature accepted] at read
  obtain ⟨i, inside, -, j, within, here, passed⟩ := read
  apply Nat.lt_of_not_le
  intro behind
  apply none i
  refine ⟨inside, by omega, ?_⟩
  have shorter := matchesAt_take scanBytes _ i (moduleSize - i) passed
  rw [List.take_take, Nat.min_eq_left (by omega)] at shorter
  exact shorter

end Scan

/-- The scan stays inside if and only if it is refused, or there is a match
inside, or the last bytes never match a part of the pattern. -/
theorem staysInside_iff (scanBytes : Nat → UInt8) (moduleBase : BitVec 64)
    (moduleSize : Nat) (signature : Text) :
    StaysInside scanBytes moduleBase moduleSize signature ↔
      Refused moduleBase moduleSize (patternToByte signature) ∨
        MatchInside scanBytes moduleSize (patternToByte signature) ∨
        ∀ i, ¬ EndMatch scanBytes moduleSize (patternToByte signature) i := by
  by_cases accepted : ¬ Refused moduleBase moduleSize (patternToByte signature)
  · rw [or_iff_right accepted]
    constructor
    · intro stays
      by_cases matched :
          MatchInside scanBytes moduleSize (patternToByte signature)
      · exact Or.inl matched
      · right
        intro i endMatch
        have behind := stays.read moduleSize (reads_behind scanBytes
          moduleBase moduleSize signature accepted matched ⟨i, endMatch⟩)
        exact Nat.lt_irrefl moduleSize behind
    · intro either
      have inside : ∀ index ∈ reads scanBytes
          (scanReads moduleBase moduleSize signature), index < moduleSize := by
        obtain some | none := either
        · exact inside_of_match scanBytes moduleBase moduleSize signature
            accepted some
        · exact inside_of_mismatch scanBytes moduleBase moduleSize signature
            accepted none
      refine ⟨inside, ?_⟩
      intro i stop j within
      exact inside _ (reads_of_stop scanBytes moduleBase moduleSize signature
        accepted i stop j within)
  · have refused := not_not.mp accepted
    refine iff_of_true ?_ (Or.inl refused)
    have nothing := scanReads_of_refused moduleBase moduleSize signature
      refused
    constructor
    · intro index read
      rw [nothing] at read
      exact absurd read (List.not_mem_nil)
    · intro i stop
      rw [nothing, run] at stop
      contradiction

/-- The last byte of the module begins a match, and the byte behind it is
read. -/
theorem last_byte_leads_out :
    ¬ StaysInside (fun _ => 0x90) 0x1000 1 (ascii "90 90") := by
  intro stays
  have behind := stays.read 1 (by decide)
  exact absurd behind (by decide)

end HenPlugins.Memory.ScanReads
