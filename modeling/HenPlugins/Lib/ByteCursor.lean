import Mathlib.Data.List.Basic

/-!
# Cursors

A computation at a cursor looks at the cell under it, moves it forward by one,
or gives up.  A computation is steady when its result depends on the cells that
it leaves behind only; it may look at one cell more.
-/

set_option autoImplicit false

namespace HenPlugins.Lib.ByteCursor

inductive Cursor (Cell Result : Type) where
  | done (result : Result)
  | stuck
  | peek (next : Cell → Cursor Cell Result)
  | advance (next : Cursor Cell Result)

variable {Cell Result Later : Type}

/-- The result, and where the cursor stands then. -/
def run (cells : Nat → Cell) : Cursor Cell Result → Nat → Option (Result × Nat)
  | .done result, position => some (result, position)
  | .stuck, _ => none
  | .peek next, position => run cells (next (cells position)) position
  | .advance next, position => run cells next (position + 1)

/-- The indices that are looked at, in order. -/
def reads (cells : Nat → Cell) : Cursor Cell Result → Nat → List Nat
  | .done _, _ => []
  | .stuck, _ => []
  | .peek next, position =>
      position :: reads cells (next (cells position)) position
  | .advance next, position => reads cells next (position + 1)

def andThen : Cursor Cell Result → (Result → Cursor Cell Later) →
    Cursor Cell Later
  | .done result, later => later result
  | .stuck, _ => .stuck
  | .peek next, later => .peek fun cell => andThen (next cell) later
  | .advance next, later => .advance (andThen next later)

instance : Monad (Cursor Cell) where
  pure := .done
  bind := andThen

/-- The cell under the cursor, which moves on. -/
def take : Cursor Cell Cell := .peek fun cell => .advance (.done cell)

/-- The cell under the cursor, which stays. -/
def look : Cursor Cell Cell := .peek fun cell => .done cell

def takes : Nat → Cursor Cell (List Cell)
  | 0 => pure []
  | count + 1 => do
      let cell ← take
      let rest ← takes count
      pure (cell :: rest)

def ofOption : Option Result → Cursor Cell Result
  | some result => .done result
  | none => .stuck

section Runs
variable (cells : Nat → Cell) (position : Nat)

@[simp] theorem run_pure (result : Result) :
    run cells (pure result : Cursor Cell Result) position =
      some (result, position) := rfl

@[simp] theorem reads_pure (result : Result) :
    reads cells (pure result : Cursor Cell Result) position = [] := rfl

theorem run_bind (first : Cursor Cell Result)
    (later : Result → Cursor Cell Later) :
    run cells (first >>= later) position =
      (run cells first position).bind fun outcome =>
        run cells (later outcome.1) outcome.2 := by
  show run cells (andThen first later) position = _
  induction first generalizing position with
  | done result => rfl
  | stuck => rfl
  | peek next ih => exact ih (cells position) position
  | advance next ih => exact ih (position + 1)

theorem reads_bind (first : Cursor Cell Result)
    (later : Result → Cursor Cell Later) :
    reads cells (first >>= later) position =
      reads cells first position ++
        ((run cells first position).elim [] fun outcome =>
          reads cells (later outcome.1) outcome.2) := by
  show reads cells (andThen first later) position = _
  induction first generalizing position with
  | done result => rfl
  | stuck => rfl
  | peek next ih =>
      rw [andThen, reads, reads, ih (cells position) position,
        List.cons_append]
      rfl
  | advance next ih => exact ih (position + 1)

/-- A sequence that succeeds is one of successes. -/
theorem run_bind_eq_some (first : Cursor Cell Result)
    (later : Result → Cursor Cell Later) (result : Later) (stop : Nat) :
    run cells (first >>= later) position = some (result, stop) ↔
      ∃ middle between, run cells first position = some (middle, between) ∧
        run cells (later middle) between = some (result, stop) := by
  rw [run_bind, Option.bind_eq_some_iff, Prod.exists]

theorem run_bind_pure (computation : Cursor Cell Result) :
    run cells (computation >>= fun result => pure result) position =
      run cells computation position := by
  rw [run_bind]
  cases run cells computation position <;> rfl

@[simp] theorem run_take :
    run cells (take : Cursor Cell Cell) position =
      some (cells position, position + 1) := rfl

@[simp] theorem run_look :
    run cells (look : Cursor Cell Cell) position =
      some (cells position, position) := rfl

theorem run_takes (count : Nat) :
    run cells (takes count) position =
      some ((List.range' position count).map cells, position + count) := by
  induction count generalizing position with
  | zero => rfl
  | succ count ih =>
      rw [takes, run_bind, run_take, Option.bind_some, run_bind, ih,
        Option.bind_some, run_pure, List.range'_succ, List.map_cons,
        Nat.add_right_comm, Nat.add_assoc]

@[simp] theorem run_ofOption (outcome : Option Result) :
    run cells (ofOption outcome : Cursor Cell Result) position =
      outcome.map fun result => (result, position) := by
  cases outcome <;> rfl

theorem run_ofOption_eq_some (outcome : Option Result) (result : Result)
    (stop : Nat) :
    run cells (ofOption outcome : Cursor Cell Result) position =
      some (result, stop) ↔ outcome = some result ∧ stop = position := by
  rw [run_ofOption, Option.map_eq_some_iff]
  constructor
  · rintro ⟨found, given, same⟩
    cases same
    exact ⟨given, rfl⟩
  · rintro ⟨given, rfl⟩
    exact ⟨result, given, rfl⟩

@[simp] theorem reads_ofOption (outcome : Option Result) :
    reads cells (ofOption outcome : Cursor Cell Result) position = [] := by
  cases outcome <;> rfl

end Runs

def Spells (cells : Nat → Cell) (start stop : Nat) (word : List Cell) : Prop :=
  stop = start + word.length ∧
    (List.range' start word.length).map cells = word

section Spelling
variable (cells : Nat → Cell)

theorem spells_nil (start : Nat) : Spells cells start start [] := ⟨rfl, rfl⟩

theorem spells_single (start : Nat) :
    Spells cells start (start + 1) [cells start] := ⟨rfl, rfl⟩

theorem spells_append (start middle stop : Nat) (first second : List Cell)
    (spellsFirst : Spells cells start middle first)
    (spellsSecond : Spells cells middle stop second) :
    Spells cells start stop (first ++ second) := by
  obtain ⟨rfl, sameFirst⟩ := spellsFirst
  obtain ⟨rfl, sameSecond⟩ := spellsSecond
  refine ⟨by rw [List.length_append, Nat.add_assoc], ?_⟩
  rw [List.length_append, ← List.range'_append_1, List.map_append, sameFirst,
    sameSecond]

theorem spells_shift (offset start stop : Nat) (word : List Cell)
    (spells : Spells (fun index => cells (offset + index)) start stop word) :
    Spells cells (offset + start) (offset + stop) word := by
  obtain ⟨rfl, same⟩ := spells
  refine ⟨(Nat.add_assoc offset start _).symm, ?_⟩
  rw [← List.map_add_range', List.map_map]
  exact same

theorem spells_takes (count position : Nat) (word : List Cell) (stop : Nat)
    (ran : run cells (takes count) position = some (word, stop)) :
    Spells cells position stop word ∧ word.length = count := by
  rw [run_takes] at ran
  cases ran
  have length : ((List.range' position count).map cells).length = count := by
    rw [List.length_map, List.length_range']
  exact ⟨⟨by rw [length], by rw [length]⟩, length⟩

end Spelling

structure Steady (computation : Cursor Cell Result) : Prop where
  forward : ∀ cells position result stop,
    run cells computation position = some (result, stop) → position ≤ stop
  settled : ∀ cells other position result stop,
    run cells computation position = some (result, stop) →
    (∀ index, position ≤ index → index < stop → other index = cells index) →
      run other computation position = some (result, stop)
  ahead : ∀ cells position result stop,
    run cells computation position = some (result, stop) →
    ∀ index ∈ reads cells computation position,
      position ≤ index ∧ index ≤ stop

theorem steady_pure (result : Result) :
    Steady (pure result : Cursor Cell Result) where
  forward := by
    intro cells position other stop ran
    cases ran
    exact Nat.le_refl _
  settled := fun _ _ _ _ _ ran _ => ran
  ahead := nofun

theorem steady_ofOption (outcome : Option Result) :
    Steady (ofOption outcome : Cursor Cell Result) := by
  cases outcome with
  | none => exact ⟨nofun, nofun, nofun⟩
  | some result => exact steady_pure result

theorem steady_take : Steady (take : Cursor Cell Cell) where
  forward := by
    intro cells position result stop ran
    cases ran
    exact Nat.le_succ _
  settled := by
    intro cells other position result stop ran same
    cases ran
    rw [run_take, same position (Nat.le_refl _) (Nat.lt_succ_self _)]
  ahead := by
    intro cells position result stop ran index member
    cases ran
    rw [List.mem_singleton.mp member]
    exact ⟨Nat.le_refl _, Nat.le_succ _⟩

theorem steady_bind (first : Cursor Cell Result)
    (later : Result → Cursor Cell Later) (steady : Steady first)
    (steadyLater : ∀ result, Steady (later result)) :
    Steady (first >>= later) where
  forward := by
    intro cells position result stop ran
    obtain ⟨middle, between, ranFirst, ranLater⟩ :=
      (run_bind_eq_some cells position first later result stop).mp ran
    exact Nat.le_trans (steady.forward _ _ _ _ ranFirst)
      ((steadyLater middle).forward _ _ _ _ ranLater)
  settled := by
    intro cells other position result stop ran same
    obtain ⟨middle, between, ranFirst, ranLater⟩ :=
      (run_bind_eq_some cells position first later result stop).mp ran
    have before := steady.forward _ _ _ _ ranFirst
    have behind := (steadyLater middle).forward _ _ _ _ ranLater
    refine (run_bind_eq_some other position first later result stop).mpr
      ⟨middle, between, ?_, ?_⟩
    · exact steady.settled cells other _ _ _ ranFirst fun index low high =>
        same index low (Nat.lt_of_lt_of_le high behind)
    · exact (steadyLater middle).settled cells other _ _ _ ranLater
        fun index low high => same index (Nat.le_trans before low) high
  ahead := by
    intro cells position result stop ran index member
    obtain ⟨middle, between, ranFirst, ranLater⟩ :=
      (run_bind_eq_some cells position first later result stop).mp ran
    have before := steady.forward _ _ _ _ ranFirst
    have behind := (steadyLater middle).forward _ _ _ _ ranLater
    rw [reads_bind, ranFirst, Option.elim_some, List.mem_append] at member
    rcases member with inFirst | inLater
    · have bounds := steady.ahead _ _ _ _ ranFirst index inFirst
      omega
    · have bounds := (steadyLater middle).ahead _ _ _ _ ranLater index inLater
      omega

theorem steady_takes (count : Nat) :
    Steady (takes count : Cursor Cell (List Cell)) := by
  induction count with
  | zero => exact steady_pure []
  | succ count ih =>
      exact steady_bind _ _ steady_take fun cell =>
        steady_bind _ _ ih fun rest => steady_pure (cell :: rest)

/-- A cell that is looked at for nothing. -/
theorem steady_look_unused (later : Cursor Cell Result)
    (steady : Steady later) : Steady (look >>= fun _ => later) where
  forward := fun cells position result stop ran =>
    steady.forward cells position result stop ran
  settled := fun cells other position result stop ran same =>
    steady.settled cells other position result stop ran same
  ahead := by
    intro cells position result stop ran index member
    rcases List.mem_cons.mp member with here | later
    · rw [here]
      exact ⟨Nat.le_refl _, steady.forward cells position result stop ran⟩
    · exact steady.ahead cells position result stop ran index later

/-- A cell that is looked at before it is taken. -/
theorem steady_look_take (later : Cell → Cell → Cursor Cell Result)
    (steady : ∀ seen cell, Steady (later seen cell)) :
    Steady (look >>= fun seen => take >>= later seen) where
  forward := fun cells position result stop ran =>
    (steady_bind take _ steady_take (steady (cells position))).forward cells
      position result stop ran
  settled := by
    intro cells other position result stop ran same
    have taken := steady_bind take _ steady_take (steady (cells position))
    have onward := (steady (cells position) (cells position)).forward cells
      (position + 1) result stop ran
    have alike := same position (Nat.le_refl _) onward
    have moved := taken.settled cells other position result stop ran same
    show run other (take >>= later (other position)) position = _
    rw [alike]
    exact moved
  ahead := by
    intro cells position result stop ran index member
    have taken := (steady_bind take _ steady_take
      (steady (cells position))).ahead cells position result stop ran index
    rcases List.mem_cons.mp member with here | later
    · exact taken (List.mem_cons.mpr (Or.inl here))
    · exact taken later

/-- It ends, at most so many cells further on, and its result is as stated. -/
def Yields (count : Nat) (post : Result → Prop)
    (computation : Cursor Cell Result) : Prop :=
  ∀ cells position, ∃ result stop,
    run cells computation position = some (result, stop) ∧
      stop ≤ position + count ∧ post result

theorem yields_pure (post : Result → Prop) (result : Result)
    (holds : post result) :
    Yields 0 post (pure result : Cursor Cell Result) :=
  fun _ position => ⟨result, position, rfl, Nat.le_refl _, holds⟩

theorem yields_take :
    Yields 1 (fun _ => True) (take : Cursor Cell Cell) :=
  fun cells position =>
    ⟨cells position, position + 1, rfl, Nat.le_refl _, trivial⟩

theorem yields_look :
    Yields 0 (fun _ => True) (look : Cursor Cell Cell) :=
  fun cells position => ⟨cells position, position, rfl, Nat.le_refl _, trivial⟩

theorem yields_takes (count : Nat) :
    Yields count (fun taken => taken.length = count)
      (takes count : Cursor Cell (List Cell)) := by
  intro cells position
  refine ⟨_, _, run_takes cells position count, Nat.le_refl _, ?_⟩
  show (List.map _ _).length = count
  rw [List.length_map, List.length_range']

theorem yields_ofOption (post : Result → Prop) (outcome : Option Result)
    (given : ∃ result, outcome = some result ∧ post result) :
    Yields 0 post (ofOption outcome : Cursor Cell Result) := by
  obtain ⟨result, rfl, holds⟩ := given
  exact yields_pure post result holds

theorem yields_mono (count more : Nat) (le : count ≤ more)
    (post weaker : Result → Prop) (implies : ∀ result, post result →
      weaker result) (computation : Cursor Cell Result)
    (yields : Yields count post computation) :
    Yields more weaker computation := by
  intro cells position
  obtain ⟨result, stop, ran, bounded, holds⟩ := yields cells position
  exact ⟨result, stop, ran, by omega, implies result holds⟩

theorem yields_done (count : Nat) (post : Result → Prop) (result : Result)
    (holds : post result) :
    Yields count post (pure result : Cursor Cell Result) :=
  yields_mono 0 count (Nat.zero_le count) post post (fun _ => id) _
    (yields_pure post result holds)

theorem yields_bind (count more : Nat) (post : Result → Prop)
    (postLater : Later → Prop) (first : Cursor Cell Result)
    (later : Result → Cursor Cell Later) (yields : Yields count post first)
    (yieldsLater : ∀ result, post result →
      Yields more postLater (later result)) :
    Yields (count + more) postLater (first >>= later) := by
  intro cells position
  obtain ⟨middle, between, ranFirst, boundFirst, holds⟩ :=
    yields cells position
  obtain ⟨result, stop, ranLater, boundLater, holdsLater⟩ :=
    yieldsLater middle holds cells between
  refine ⟨result, stop, ?_, by omega, holdsLater⟩
  rw [run_bind, ranFirst, Option.bind_some, ranLater]

end HenPlugins.Lib.ByteCursor
