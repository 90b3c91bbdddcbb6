import HenPlugins.Memory.PrologueHooks

/-!
# Any sequence of installs

After any sequence of installs on functions that lie apart, every hook works as
if it were the only one.
-/

set_option autoImplicit false

namespace HenPlugins.Memory.HookRun

open HenPlugins.Lib.ByteMemory
open HenPlugins.Memory.CodeCave
open HenPlugins.Memory.Trampoline
open HenPlugins.Memory.PrologueHooks

/-- The hooks asked for, each returned trampoline working and apart from the
others; a call that returned 0 did nothing but initialise the cave once. -/
structure Undisturbed (cave : Cave) (memory : CodeMemory)
    (requests : List Request) : Prop where
  answered : (installAll cave (processStart memory) requests).installed.map
    Installed.request = requests
  working : ∀ hook ∈
    (installAll cave (processStart memory) requests).installed,
      hook.entry ≠ 0 → ∃ size, hook.displaced = some size ∧
        Works cave memory
          (installAll cave (processStart memory) requests).state.memory hook
          size
  disjoint :
    (installAll cave (processStart memory) requests).installed.Pairwise
      fun first second => ∀ size otherSize, first.displaced = some size →
        second.displaced = some otherSize →
          Apart first.entry (size + 14) second.entry (otherSize + 14)
  quiet : ∀ (earlier later : List Request) (request : Request),
    requests = earlier ++ request :: later →
    (createPrologueHook cave
      (installAll cave (processStart memory) earlier).state request.address
      request.minInstructionSize).1 = 0 →
    (install cave (installAll cave (processStart memory) earlier)
        request).state =
        caveBlockInit cave
          (installAll cave (processStart memory) earlier).state ∧
      (earlier ≠ [] →
        (install cave (installAll cave (processStart memory) earlier)
          request).state =
          (installAll cave (processStart memory) earlier).state)

theorem laidOut_earlier (cave : Cave) (installed more : List Installed)
    (laidOut : LaidOut cave (installed ++ more)) : LaidOut cave installed where
  testFits := laidOut.testFits
  fits := fun hook member => laidOut.fits hook (List.mem_append_left _ member)
  offCave := fun hook member =>
    laidOut.offCave hook (List.mem_append_left _ member)
  apart := (List.pairwise_append.mp laidOut.apart).1

theorem install_installed (cave : Cave) (session : Session)
    (request : Request) : ∃ hook, hook.request = request ∧
      (install cave session request).installed =
        session.installed ++ [hook] :=
  ⟨_, rfl, rfl⟩

theorem standing_install (cave : Cave) (original : CodeMemory)
    (session : Session) (request : Request)
    (long : 14 ≤ request.minInstructionSize.toInt)
    (laidOut : LaidOut cave (install cave session request).installed)
    (standing : Standing cave original session) :
    Standing cave original (install cave session request) := by
  have ready := standing_caveBlockInit cave original session laidOut.testFits
    standing
  have initialised := caveBlockInit_sets cave session.state
  cases displaced : displacedSize cave (caveBlockInit cave session.state)
      request.address request.minInstructionSize with
  | none =>
      rw [install_refused cave session request displaced]
      exact standing_refused cave original _ session.installed request
        initialised ready
  | some size =>
      have bounded : Bounded cave (caveBlockInit cave session.state) := by
        have used := ready.used
        rw [Bounded]
        exact Nat.le_trans used (by omega)
      obtain ⟨instructions, accepted⟩ := (displacedSize_eq_some_iff cave _
        bounded request.address _ size).mp displaced
      have bounds := prologue_bounds _ _ _ _ _ _ accepted.prologue
      have minBound := minInstructionSize_lt request.minInstructionSize
      rw [install_accepted cave session request size displaced standing.used]
        at laidOut ⊢
      rw [← caveBlockInit_caveInstSize cave session.state] at laidOut ⊢
      obtain ⟨oldApart, -, apart⟩ := List.pairwise_append.mp laidOut.apart
      have newest := List.mem_append_right session.installed
        (List.mem_singleton_self (
          { request := request
            displaced := some size
            entry := cave.cavePadFunc +
              (caveBlockInit cave session.state).caveInstSize } : Installed))
      have fits := laidOut.fits _ newest size rfl
      rw [add_sub_cancel_left] at fits
      have fitting : Fitting cave (caveBlockInit cave session.state) request
          size := ⟨by omega, laidOut.offCave _ newest size rfl, by omega⟩
      have apartNew : ∀ hook ∈ session.installed, ∀ otherSize,
          hook.displaced = some otherSize →
            Apart hook.request.address otherSize request.address size := by
        intro hook member otherSize hookDisplaced
        exact apart hook member _ (List.mem_singleton_self _) otherSize size
          hookDisplaced rfl
      refine standing_accepted cave original _ session.installed request size
        ready fitting apartNew ?_ _ initialised ?_ ?_ ?_
      · intro hook member otherSize hookDisplaced
        exact laidOut.offCave hook (List.mem_append_left _ member) otherSize
          hookDisplaced
      · exact fillTrampoline_caveInstSize cave _ bounded request.address size
          (by omega)
      · rw [writeJump64_memory, fillTrampoline_memory cave _ request.address
          size (by omega)]
        rfl
      · apply firstBoundary_of_covers cave.disassembler _ _ size instructions
        apply covers_congr cave.disassembler _ _ _ 0 size instructions
          accepted.prologue.1
        intro index inside
        exact (prologue_untouched cave original _ session.installed request
          size ready fitting apartNew _
          (within_add request.address size index inside)).symm

theorem installAll_installed (cave : Cave) (session : Session)
    (requests : List Request) : ∃ hooks, hooks.map Installed.request = requests ∧
      (installAll cave session requests).installed =
        session.installed ++ hooks := by
  induction requests generalizing session with
  | nil => exact ⟨[], rfl, (List.append_nil _).symm⟩
  | cons request requests ih =>
      obtain ⟨hook, asked, first⟩ := install_installed cave session request
      obtain ⟨hooks, others, later⟩ := ih (install cave session request)
      refine ⟨hook :: hooks, by rw [List.map_cons, asked, others], ?_⟩
      rw [first, List.append_assoc] at later
      exact later

theorem standing_installAll (cave : Cave) (original : CodeMemory)
    (session : Session) (requests : List Request)
    (long : ∀ request ∈ requests, 14 ≤ request.minInstructionSize.toInt)
    (laidOut : LaidOut cave (installAll cave session requests).installed)
    (standing : Standing cave original session) :
    Standing cave original (installAll cave session requests) := by
  induction requests generalizing session with
  | nil => exact standing
  | cons request requests ih =>
      obtain ⟨hooks, -, later⟩ := installAll_installed cave
        (install cave session request) requests
      have laidOutLater : LaidOut cave
          (installAll cave (install cave session request) requests).installed :=
        laidOut
      rw [later] at laidOutLater
      have first := standing_install cave original session request
        (long request (List.mem_cons_self ..))
        (laidOut_earlier cave _ hooks laidOutLater) standing
      exact ih (install cave session request)
        (fun other member => long other (List.mem_cons_of_mem _ member))
        laidOut first

theorem works_of_standing (cave : Cave) (original : CodeMemory)
    (session : Session) (standing : Standing cave original session)
    (hook : Installed) (member : hook ∈ session.installed) (size : Nat)
    (displaced : hook.displaced = some size) :
    Works cave original session.state.memory hook size := by
  have placed := standing.placed hook member size displaced
  obtain ⟨copied, continued⟩ := (holds_append _ _ _ _).mp
    (standing.trampolines hook member size displaced)
  rw [length_read] at continued
  refine
    { redirected := jumpTarget_of_holds _ _ _
        (standing.jumps hook member size displaced)
      copied := ?_
      continued := jumpTarget_of_holds _ _ _ continued
      boundary := placed.boundary
      clear := by rw [length_jumpBytes]; exact placed.clear }
  intro index inside
  exact copied index _ (getElem?_read _ _ size index inside)

/-- A call that returns 0 wrote nothing after the initialisation. -/
theorem refused_of_zero (cave : Cave) (state : HookState)
    (used : state.caveInstSize.toNat ≤ cave.maxCaveSize.toNat)
    (address : Address) (minInstructionSize : BitVec 32)
    (zero : (createPrologueHook cave state address minInstructionSize).1 =
      0) :
    displacedSize cave (caveBlockInit cave state) address
      minInstructionSize = none := by
  cases displaced : displacedSize cave (caveBlockInit cave state) address
      minInstructionSize with
  | none => rfl
  | some size =>
      have hooked := createPrologueHook_some cave state address _ size
        displaced
      rw [hooked] at zero
      simp only [fillTrampoline, caveBlockInit_caveInstSize] at zero
      exact absurd zero (trampoline_ne_zero cave state used)

theorem installAll_append (cave : Cave) (session : Session)
    (first second : List Request) :
    installAll cave session (first ++ second) =
      installAll cave (installAll cave session first) second :=
  List.foldl_append ..

theorem standing_earlier (cave : Cave) (original : CodeMemory)
    (session : Session) (first second : List Request)
    (long : ∀ request ∈ first ++ second,
      14 ≤ request.minInstructionSize.toInt)
    (laidOut : LaidOut cave
      (installAll cave session (first ++ second)).installed)
    (standing : Standing cave original session) :
    Standing cave original (installAll cave session first) := by
  obtain ⟨hooks, -, later⟩ := installAll_installed cave
    (installAll cave session first) second
  rw [installAll_append, later] at laidOut
  exact standing_installAll cave original session first
    (fun request member => long request (List.mem_append_left _ member))
    (laidOut_earlier cave _ hooks laidOut) standing

/-- Prologue hooks work and leave one another alone. -/
theorem installed_hooks_work (cave : Cave) (memory : CodeMemory)
    (requests : List Request)
    (long : ∀ request ∈ requests, 14 ≤ request.minInstructionSize.toInt)
    (laidOut : LaidOut cave
      (installAll cave (processStart memory) requests).installed) :
    Undisturbed cave memory requests := by
  have standing := standing_installAll cave memory _ requests long laidOut
    (standing_start cave memory)
  refine ⟨?_, ?_, standing.disjoint, ?_⟩
  · obtain ⟨hooks, asked, installed⟩ := installAll_installed cave
      (processStart memory) requests
    rw [installed]
    exact asked
  · intro hook member nonzero
    cases displaced : hook.displaced with
    | none => exact absurd (standing.refused hook member displaced) nonzero
    | some size =>
        exact ⟨size, rfl, works_of_standing cave memory _ standing hook member
          size displaced⟩
  · intro earlier later request same zero
    subst same
    have standingBefore := standing_earlier cave memory _ earlier
      (request :: later) long laidOut (standing_start cave memory)
    have refused := refused_of_zero cave _ standingBefore.used request.address
      request.minInstructionSize zero
    rw [install_refused cave _ request refused]
    refine ⟨rfl, ?_⟩
    intro some
    apply caveBlockInit_once
    apply standingBefore.initialised
    obtain ⟨hooks, asked, installed⟩ := installAll_installed cave
      (processStart memory) earlier
    rw [installed]
    intro none
    have empty : hooks = [] := none
    rw [empty] at asked
    exact some asked.symm

def sledCave : Cave := shortCave 64 (by decide)

def sledRequests : List Request :=
  [{ address := 0x1000, minInstructionSize := 15, destination := 0x50000 },
    { address := 0x1100, minInstructionSize := 15, destination := 0x60000 }]

theorem sled_installed :
    (installAll sledCave (processStart fun _ => 0x90)
      sledRequests).installed =
      [{ request :=
          { address := 0x1000
            minInstructionSize := 15
            destination := 0x50000 }
         displaced := some 15
         entry := 0x20000 },
       { request :=
          { address := 0x1100
            minInstructionSize := 15
            destination := 0x60000 }
         displaced := some 15
         entry := 0x2001d }] := by
  decide +kernel

theorem apart_of_order (base other : Address) (count otherCount : Nat)
    (order : base.toNat + count ≤ other.toNat)
    (fits : other.toNat + otherCount ≤ 2 ^ 64) :
    Apart base count other otherCount := by
  have fromZero := apart_consecutive (0 : Address) base.toNat other.toNat
    count otherCount order fits
  rwa [zero_add, zero_add, BitVec.ofNat_toNat, BitVec.ofNat_toNat,
    BitVec.setWidth_eq, BitVec.setWidth_eq] at fromZero

theorem installed_hooks_work_sled :
    Undisturbed sledCave (fun _ => 0x90) sledRequests := by
  apply installed_hooks_work sledCave (fun _ => 0x90) sledRequests
  · decide
  · rw [sled_installed]
    refine ⟨by decide, ?_, ?_, ?_⟩
    · simp only [List.forall_mem_cons, Option.some.injEq]
      refine ⟨?_, ?_, by simp⟩
      · rintro _ rfl
        decide
      · rintro _ rfl
        decide
    · simp only [List.forall_mem_cons, Option.some.injEq]
      refine ⟨?_, ?_, by simp⟩
      · rintro _ rfl
        exact apart_of_order _ _ _ _ (by decide) (by decide)
      · rintro _ rfl
        exact apart_of_order _ _ _ _ (by decide) (by decide)
    · simp only [List.pairwise_cons, List.forall_mem_cons, Option.some.injEq]
      refine ⟨⟨?_, by simp⟩, by simp⟩
      rintro _ _ rfl rfl
      exact apart_of_order _ _ _ _ (by decide) (by decide)

end HenPlugins.Memory.HookRun
