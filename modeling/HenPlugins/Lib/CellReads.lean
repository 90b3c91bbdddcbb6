import Mathlib.Data.List.Basic
import HenPlugins.Lib.WhileLoop

/-!
# Computations that read cells

A computation asks for cells by their index, and may choose the next index by
what it has read.  Run on some cells, it has a result and a list of the indices
it read.  The rules are about comparisons that stop at the first difference,
about blocks, and about loops that try one index after another.
-/

set_option autoImplicit false

namespace HenPlugins.Lib.CellReads

open HenPlugins.Lib.WhileLoop

inductive Reading (Cell Result : Type) where
  | done (result : Result)
  | read (index : Nat) (next : Cell → Reading Cell Result)

variable {Cell Result Later : Type}

def run (cells : Nat → Cell) : Reading Cell Result → Result
  | .done result => result
  | .read index next => run cells (next (cells index))

/-- The indices that are read, in order. -/
def reads (cells : Nat → Cell) : Reading Cell Result → List Nat
  | .done _ => []
  | .read index next => index :: reads cells (next (cells index))

def andThen : Reading Cell Result → (Result → Reading Cell Later) →
    Reading Cell Later
  | .done result, later => later result
  | .read index next, later => .read index fun cell => andThen (next cell) later

section Rules
variable (cells : Nat → Cell)

@[simp] theorem run_andThen (first : Reading Cell Result)
    (later : Result → Reading Cell Later) :
    run cells (andThen first later) = run cells (later (run cells first)) := by
  induction first with
  | done result => rfl
  | read index next ih => exact ih (cells index)

@[simp] theorem reads_andThen (first : Reading Cell Result)
    (later : Result → Reading Cell Later) :
    reads cells (andThen first later) =
      reads cells first ++ reads cells (later (run cells first)) := by
  induction first with
  | done result => rfl
  | read index next ih =>
      rw [andThen, reads, reads, ih (cells index), List.cons_append]
      rfl

end Rules

/-- The cells from an index on are tested one by one, up to the first that
fails. -/
def agree : List (Cell → Bool) → Nat → Reading Cell Bool
  | [], _ => .done true
  | accepts :: rest, index =>
      .read index fun cell =>
        if accepts cell then agree rest (index + 1) else .done false

section Agree
variable (cells : Nat → Cell)

theorem run_agree_cons (accepts : Cell → Bool) (rest : List (Cell → Bool))
    (index : Nat) :
    run cells (agree (accepts :: rest) index) =
      (accepts (cells index) && run cells (agree rest (index + 1))) := by
  rw [agree, run]
  by_cases accepted : accepts (cells index) = true
  · rw [if_pos accepted, accepted, Bool.true_and]
  · rw [if_neg accepted, Bool.eq_false_iff.mpr accepted, Bool.false_and]
    rfl

theorem run_agree_iff (tests : List (Cell → Bool)) (index : Nat) :
    run cells (agree tests index) = true ↔
      ∀ (offset : Nat) (accepts : Cell → Bool),
        tests[offset]? = some accepts →
          accepts (cells (index + offset)) = true := by
  induction tests generalizing index with
  | nil => simp [agree, run]
  | cons first rest ih =>
      rw [run_agree_cons, Bool.and_eq_true, ih]
      constructor
      · intro both offset accepts found
        cases offset with
        | zero =>
            cases Option.some.inj found
            exact both.1
        | succ offset =>
            have later := both.2 offset accepts found
            rw [Nat.add_right_comm] at later
            exact later
      · intro all
        refine ⟨all 0 first rfl, ?_⟩
        intro offset accepts found
        rw [Nat.add_right_comm]
        exact all (offset + 1) accepts found

theorem mem_reads_agree (tests : List (Cell → Bool)) (index target : Nat) :
    target ∈ reads cells (agree tests index) ↔
      ∃ offset < tests.length, target = index + offset ∧
        run cells (agree (tests.take offset) index) = true := by
  induction tests generalizing index with
  | nil => simp [agree, reads]
  | cons first rest ih =>
      have onward : target ∈ reads cells (agree (first :: rest) index) ↔
          target = index ∨ first (cells index) = true ∧
            target ∈ reads cells (agree rest (index + 1)) := by
        rw [agree, reads, List.mem_cons]
        by_cases accepted : first (cells index) = true
        · rw [if_pos accepted, and_iff_right accepted]
        · rw [if_neg accepted]
          simp [reads, accepted]
      rw [onward, ih]
      constructor
      · intro either
        obtain here | ⟨accepted, offset, inside, reached, passed⟩ := either
        · exact ⟨0, Nat.succ_pos _, here, rfl⟩
        · refine ⟨offset + 1, Nat.succ_lt_succ inside, by omega, ?_⟩
          rw [List.take_succ_cons, run_agree_cons, accepted, passed]
          rfl
      · intro some
        obtain ⟨offset, inside, reached, passed⟩ := some
        cases offset with
        | zero => exact Or.inl reached
        | succ offset =>
            rw [List.take_succ_cons, run_agree_cons, Bool.and_eq_true]
              at passed
            exact Or.inr ⟨passed.1, offset, Nat.lt_of_succ_lt_succ inside,
              by omega, passed.2⟩

end Agree

/-- So many cells from an index on. -/
def block : Nat → Nat → Reading Cell (List Cell)
  | 0, _ => .done []
  | count + 1, index =>
      .read index fun cell =>
        andThen (block count (index + 1)) fun rest => .done (cell :: rest)

section Block
variable (cells : Nat → Cell)

theorem run_block (count index : Nat) :
    run cells (block count index) =
      (List.range' index count).map cells := by
  induction count generalizing index with
  | zero => rfl
  | succ count ih =>
      rw [block, run, run_andThen, ih, List.range'_succ, List.map_cons]
      rfl

theorem reads_block (count index : Nat) :
    reads cells (block count index) = List.range' index count := by
  induction count generalizing index with
  | zero => rfl
  | succ count ih =>
      rw [block, reads, reads_andThen, ih, List.range'_succ]
      simp only [reads, List.append_nil]

end Block

/-- So many indices are tried, up to the first hit. -/
def firstHit (test : Nat → Reading Cell Bool) : Nat → Nat →
    Reading Cell (Option Nat)
  | 0, _ => .done none
  | count + 1, index =>
      andThen (test index) fun hit =>
        if hit then .done (some index) else firstHit test count (index + 1)

section Loop
variable (cells : Nat → Cell) (test : Nat → Reading Cell Bool)

theorem run_firstHit (count start : Nat) :
    run cells (firstHit test count start) =
      (List.range' start count).find? fun index => run cells (test index) := by
  induction count generalizing start with
  | zero => rfl
  | succ count ih =>
      rw [firstHit, run_andThen, List.range'_succ]
      by_cases hit : run cells (test start) = true
      · rw [if_pos hit, List.find?_cons, hit]
        rfl
      · rw [if_neg hit, List.find?_cons, Bool.eq_false_iff.mpr hit, ih]

theorem run_firstHit_zero (count : Nat) :
    run cells (firstHit test count 0) =
      (List.range count).find? fun index => run cells (test index) := by
  rw [run_firstHit, List.range_eq_range']

theorem mem_reads_firstHit (count start target : Nat) :
    target ∈ reads cells (firstHit test count start) ↔
      ∃ index, start ≤ index ∧ index < start + count ∧
        (∀ earlier, start ≤ earlier → earlier < index →
          run cells (test earlier) = false) ∧
        target ∈ reads cells (test index) := by
  induction count generalizing start with
  | zero =>
      simp only [firstHit, reads, List.not_mem_nil, false_iff]
      intro some
      obtain ⟨index, after, before, -⟩ := some
      omega
  | succ count ih =>
      rw [firstHit, reads_andThen, List.mem_append]
      constructor
      · intro either
        obtain here | later := either
        · exact ⟨start, Nat.le_refl _, by omega, by
            intro earlier after before
            omega, here⟩
        · split at later
          · contradiction
          · rename_i missed
            obtain ⟨index, after, before, clear, there⟩ := (ih _).mp later
            refine ⟨index, by omega, by omega, ?_, there⟩
            intro earlier first second
            by_cases same : earlier = start
            · rw [same]
              exact Bool.eq_false_iff.mpr missed
            · exact clear earlier (by omega) second
      · intro some
        obtain ⟨index, after, before, clear, there⟩ := some
        by_cases same : index = start
        · rw [same] at there
          exact Or.inl there
        · right
          rw [clear start (Nat.le_refl _) (by omega), if_neg (by decide), ih]
          exact ⟨index, by omega, by omega, fun earlier first second =>
            clear earlier (by omega) second, there⟩

theorem run_firstHit_eq_some (count index : Nat) :
    run cells (firstHit test count 0) = some index ↔
      index < count ∧ run cells (test index) = true ∧
        ∀ earlier < index, run cells (test earlier) = false := by
  rw [run_firstHit_zero, List.find?_range_eq_some, List.mem_range]
  constructor
  · intro all
    obtain ⟨hit, inside, clear⟩ := all
    exact ⟨inside, hit, fun earlier before => by
      simpa using clear earlier before⟩
  · intro all
    obtain ⟨inside, hit, clear⟩ := all
    exact ⟨hit, inside, fun earlier before => by
      simpa using clear earlier before⟩

theorem run_firstHit_eq_none (count : Nat) :
    run cells (firstHit test count 0) = none ↔
      ∀ index < count, run cells (test index) = false := by
  rw [run_firstHit_zero, List.find?_eq_none]
  simp only [List.mem_range, Bool.not_eq_true]

/-- A target is read if some try gets to it, and every hit before such a try
gets to it as well. -/
theorem mem_reads_of_reaches (count target : Nat) (Reaches : Nat → Prop)
    (some : ∃ index, Reaches index)
    (bounded : ∀ index, Reaches index → index < count)
    (hits : ∀ earlier index, earlier < index → Reaches index →
      run cells (test earlier) = true → Reaches earlier)
    (there : ∀ index, Reaches index → target ∈ reads cells (test index)) :
    target ∈ reads cells (firstHit test count 0) := by
  obtain ⟨index, reaches, earliest⟩ := least_of_exists Reaches some
  rw [mem_reads_firstHit]
  refine ⟨index, Nat.zero_le _, ?_, ?_, there index reaches⟩
  · rw [Nat.zero_add]
    exact bounded index reaches
  · intro earlier _ before
    rw [Bool.eq_false_iff]
    intro hit
    exact earliest earlier before (hits earlier index before reaches hit)

end Loop

end HenPlugins.Lib.CellReads
