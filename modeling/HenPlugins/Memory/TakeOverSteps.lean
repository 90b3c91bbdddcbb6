import HenPlugins.Memory.ServedSteps

/-!
# Step by step

Each kind of step leads from a session in which everything was served to
another one, with its own patches behind the earlier ones.
-/

set_option autoImplicit false

namespace HenPlugins.Memory.TakeOverSteps

open HenPlugins.Lib.ByteMemory
open HenPlugins.Lib.PatchedText
open HenPlugins.Lib.PatchLedger
open HenPlugins.Memory.CodeCave
open HenPlugins.Memory.FarHook
open HenPlugins.Memory.PatchedProcess
open HenPlugins.Memory.PrologueHooks (trampolineBytes length_trampolineBytes)
open HenPlugins.Memory.ServedSteps
open HenPlugins.Memory.TakeOver
open HenPlugins.Memory.Trampoline

/-! ## The steps one by one -/

section Performing
variable {Module Slot : Type} [DecidableEq Module] [DecidableEq Slot]
  (site : Site Module) (done : List (Step Module Slot)) (session : Session Slot)
  (patches : List (Patch 64 UInt8))
  (standing : Standing site done session patches)

/-- Where this step leads from a session. -/
def Leads (step : Step Module Slot) : Prop :=
  ∃ more, Standing site (done ++ [step])
    (perform site.cave site.segment session step) (patches ++ more)

include standing

theorem leads_unresolved (step : Step Module Slot) (next : Next site done step)
    (same : perform site.cave site.segment session step = session)
    (room : step.room site.cave site.original = 0)
    (served : Served site session.originals patches
      (areasTaken site done + step.far site.cave site.original) step) :
    Leads site done session patches step := by
  refine ⟨[], ?_⟩
  rw [same, List.append_nil]
  exact standing_still site done step session patches next standing session
    (patched_next site done step session patches standing _) rfl room
    (fun _ _ => rfl) served

omit [DecidableEq Module] [DecidableEq Slot] standing in
theorem displacedBy_unresolved (minInstructionSize : BitVec 32) :
    displacedBy site.cave site.original 0 minInstructionSize = none := by
  rw [displacedBy, if_pos (Or.inl rfl)]

omit [DecidableEq Module] standing in
theorem update_others (slot : Slot) (entry : Address) (step : Step Module Slot)
    (uses : step.slot = some slot) (other : Slot)
    (differ : step.slot ≠ some other) :
    Function.update session.originals slot entry other =
      session.originals other := by
  apply Function.update_of_ne
  rintro rfl
  exact differ uses

theorem leads_replace (address destination : Address)
    (next : Next site done (.replace address destination)) :
    Leads site done session patches (.replace address destination) := by
  by_cases given : address = 0
  · apply leads_unresolved site done session patches standing _ next
    · simp [perform, given]
    · rfl
    · intro resolved
      exact absurd given resolved
  · have own := own_next site done _ session patches next standing
    have extent : (Step.replace address destination : Step Module Slot).extentAt
        site = 14 := if_neg given
    rw [extent] at own
    refine ⟨[{ address := address, data := jumpBytes destination }], ?_⟩
    rw [perform, if_pos given]
    apply standing_next site done _ session patches next standing
    · exact patched_jump site _ _ session.state patches address 14 own
        (patched_next site done _ session patches standing 0) destination
        next.wellFormed (Nat.le_refl 14)
    · exact standing.room
    · intro patch member other covers
      rw [List.mem_singleton.mp member, Patch.Covers, length_jumpBytes]
        at covers
      right
      left
      rw [extent]
      exact covers
    · intro slot _
      rfl
    · intro _
      exact List.mem_append_right _ (List.mem_singleton_self _)

theorem leads_overwrite (address : Address) (data : List UInt8)
    (next : Next site done (.overwrite address data)) :
    Leads site done session patches (.overwrite address data) := by
  obtain ⟨small, fits⟩ := next.wellFormed
  by_cases given : address = 0
  · apply leads_unresolved site done session patches standing _ next
    · simp [perform, given]
    · rfl
    · intro resolved
      exact absurd given resolved
  · have own := own_next site done _ session patches next standing
    have extent : (Step.overwrite address data : Step Module Slot).extentAt site =
        data.length + 1 := if_neg given
    rw [extent] at own
    refine ⟨[{ address := address, data := data }], ?_⟩
    rw [perform, if_pos given]
    apply standing_next site done _ session patches next standing
    · exact patched_overwrite site _ _ session.state patches address _ own
        (patched_next site done _ session patches standing 0) data rfl small
        (fits given)
    · exact standing.room
    · intro patch member other covers
      rw [List.mem_singleton.mp member] at covers
      right
      left
      rw [extent]
      exact within_mono _ data.length _ (by omega) other covers
    · intro slot _
      rfl
    · intro _
      exact List.mem_append_right _ (List.mem_singleton_self _)

theorem leads_remember (slot : Slot) (address : Address)
    (next : Next site done (.remember slot address)) :
    Leads site done session patches (.remember slot address) := by
  refine ⟨[], ?_⟩
  rw [List.append_nil]
  apply standing_still site done _ session patches next standing
  · exact patched_next site done _ session patches standing _
  · rfl
  · rfl
  · exact update_others session slot address _ rfl
  · exact Function.update_self ..

omit [DecidableEq Slot] in
/-- What a refused hook comes to. -/
theorem standing_refused (step : Step Module Slot) (next : Next site done step)
    (slot : Slot) (minInstructionSize : BitVec 32) (led : Prop)
    (uses : step.slot = some slot)
    (extent : step.extentAt site =
      inspected site.cave site.original step.address minInstructionSize)
    (room : step.room site.cave site.original =
      trampolineRoom site.cave site.original step.address minInstructionSize)
    (served : Served site session.originals patches
        (areasTaken site done + step.far site.cave site.original) step =
      Hooked site session.originals patches slot step.address
        minInstructionSize led)
    (refused : displacedBy site.cave site.original step.address
      minInstructionSize = none) :
    createPrologueHook site.cave session.state step.address
        minInstructionSize = (0, caveBlockInit site.cave session.state) ∧
      Standing site (done ++ [step])
        { session with state := caveBlockInit site.cave session.state }
        patches := by
  have own := own_next site done step session patches next standing
  have nothing : trampolineRoom site.cave site.original step.address
      minInstructionSize = 0 := by
    rw [trampolineRoom, refused]
  rw [extent] at own
  have before := patched_next site done step session patches standing
    (step.far site.cave site.original)
  obtain ⟨created, patched⟩ := hook_refused site _ _ session.state patches
    step.address minInstructionSize before own (by
      rw [nothing]
      exact before.used) refused
  refine ⟨created, ?_⟩
  apply standing_still site done step session patches next standing _ patched
  · exact caveBlockInit_caveInstSize site.cave session.state
  · rw [room, nothing]
  · intro other _
    rfl
  · show Served site session.originals patches _ step
    rw [served, Hooked, refused]
    exact ⟨unset_next site done step session patches next standing slot uses,
      own.off⟩

omit [DecidableEq Module] [DecidableEq Slot] standing in
def trampolinePatch (entry address : Address) (size : Nat) :
    Patch 64 UInt8 where
  address := entry
  data := trampolineBytes site.original address size

/-- What an accepted hook comes to, before the function is redirected. -/
structure HookedFor (step : Step Module Slot) (size : Nat) (entry : Address)
    (hooked : HookState) : Prop where
  nonzero : entry ≠ 0
  grown : hooked.caveInstSize.toNat =
    roomTaken site done + step.room site.cave site.original
  inCave : ∀ address,
    (trampolinePatch site entry step.address size).Covers address →
      site.InCave address
  patched : Patched site (Claimed site (done ++ [step]))
    (areasTaken site done) hooked
    (patches ++ [trampolinePatch site entry step.address size])
  own : Own site (Claimed site (done ++ [step]))
    (patches ++ [trampolinePatch site entry step.address size]) step.address
    size

omit [DecidableEq Slot] in
theorem hooked_next (step : Step Module Slot) (next : Next site done step)
    (minInstructionSize : BitVec 32) (size : Nat)
    (extent : step.extentAt site =
      inspected site.cave site.original step.address minInstructionSize)
    (room : step.room site.cave site.original =
      trampolineRoom site.cave site.original step.address minInstructionSize)
    (accepted : displacedBy site.cave site.original step.address
      minInstructionSize = some size) :
    step.extentAt site = size ∧ minInstructionSize.toInt.toNat ≤ size ∧
      ∃ entry hooked,
        createPrologueHook site.cave session.state step.address
            minInstructionSize = (entry, hooked) ∧
          HookedFor site done patches step size entry hooked := by
  have own := own_next site done step session patches next standing
  obtain ⟨-, -, reach, instructions, prologue⟩ :=
    displacedBy_eq_some site.cave site.original step.address _ size accepted
  have bounds := prologue_bounds _ _ _ _ _ _ prologue
  refine ⟨extent.trans reach.symm, bounds.1, ?_⟩
  have before := patched_next site done step session patches standing 0
  have roomy : trampolineRoom site.cave site.original step.address
      minInstructionSize = size + 14 := by
    rw [trampolineRoom, accepted]
  have enough := next.room
  rw [← standing.room, room] at enough
  rw [extent] at own
  obtain ⟨entry, hooked, created, nonzero, grown, inCave, patched⟩ :=
    hook_accepted site _ _ session.state patches step.address
      minInstructionSize before own enough size accepted
      (fun other inside => Or.inl inside)
  have covered : ∀ address,
      (trampolinePatch site entry step.address size).Covers address →
        site.InCave address := by
    intro address covers
    rw [Patch.Covers, trampolinePatch, length_trampolineBytes] at covers
    exact inCave address covers
  rw [← reach] at own
  exact ⟨entry, hooked, created,
    { nonzero := nonzero
      grown := by rw [grown, standing.room, room, roomy]
      inCave := covered
      patched := patched
      own := own_trampoline site _ _ _ _ own _ covered }⟩

theorem leads_prologue (slot : Slot) (address : Address)
    (minInstructionSize : BitVec 32) (destination : Address)
    (next : Next site done
      (.prologue slot address minInstructionSize destination)) :
    Leads site done session patches
      (.prologue slot address minInstructionSize destination) := by
  have own := own_next site done _ session patches next standing
  obtain ⟨long, small⟩ := next.wellFormed
  by_cases given : address = 0
  · subst given
    apply leads_unresolved site done session patches standing _ next
    · simp [perform]
    · rw [Step.room, trampolineRoom, displacedBy_unresolved]
    · rw [Served, Hooked, displacedBy_unresolved]
      exact ⟨unset_next site done _ session patches next standing slot rfl,
        own.off⟩
  · cases displaced : displacedBy site.cave site.original address
        minInstructionSize with
    | none =>
        obtain ⟨created, result⟩ := standing_refused site done session patches
          standing _ next slot minInstructionSize _ rfl rfl rfl rfl displaced
        refine ⟨[], ?_⟩
        rw [List.append_nil, perform, if_pos given]
        rw [show createPrologueHook site.cave session.state address
          minInstructionSize = _ from created]
        exact result
    | some size =>
        obtain ⟨extent, enough, entry, hooked, created, hook⟩ :=
          hooked_next site done session patches standing _ next
            minInstructionSize size rfl rfl displaced
        have jumped := patched_jump site _ _ hooked _ address size hook.own
          hook.patched destination small (by omega)
        rw [List.append_assoc] at jumped
        refine ⟨[trampolinePatch site entry address size] ++
          [{ address := address, data := jumpBytes destination }], ?_⟩
        rw [perform, if_pos given]
        rw [show createPrologueHook site.cave session.state address
          minInstructionSize = _ from created]
        simp only [ne_eq, hook.nonzero, not_false_eq_true, if_true]
        apply standing_next site done _ session patches next standing
        · exact jumped
        · exact hook.grown
        · intro patch member other covers
          rcases List.mem_append.mp member with first | second
          · rw [List.mem_singleton.mp first] at covers
            exact Or.inl (hook.inCave other covers)
          · rw [List.mem_singleton.mp second, Patch.Covers,
              length_jumpBytes] at covers
            right
            left
            rw [extent]
            exact within_mono _ 14 _ (by omega) other covers
        · exact update_others session slot entry _ rfl
        · rw [Served, Hooked, displaced]
          simp only [Function.update_self]
          exact ⟨hook.nonzero,
            List.mem_append_right _ (List.mem_append_left _
              (List.mem_singleton_self _)),
            List.mem_append_right _ (List.mem_append_right _
              (List.mem_singleton_self _))⟩

omit [DecidableEq Module] [DecidableEq Slot] standing in
/-- What the patches of a far jump claim. -/
theorem farPatches_claimed (step : Step Module Slot) (info : Module)
    (call : Call) (area : Nat) (size : call.srclen = 5 ∨ call.srclen = 6)
    (source : ∀ address, Within call.src call.srclen address →
      Within step.address (step.extentAt site) address)
    (target : ∀ address,
      (areaPatch (site.segment info) call area).Covers address →
        ∃ position, PaddedAt (site.segment info) site.original position ∧
          Within ((site.segment info).textbase + BitVec.ofNat 64 position) 16
            address) :
    ∀ patch ∈ [sourcePatch (site.segment info) call area,
        areaPatch (site.segment info) call area],
      ∀ address, patch.Covers address → ClaimedBy site step address := by
  intro patch member address covers
  rcases List.mem_cons.mp member with first | second
  · rw [first, Patch.Covers,
      length_sourcePatch (site.segment info) call area size] at covers
    exact Or.inr (Or.inl (source address covers))
  · rw [List.mem_singleton.mp second] at covers
    exact Or.inr (Or.inr ⟨info, target address covers⟩)

/-! ### By way of the padding -/

section Near
variable (info : Module) (slot : Slot) (address : Address) (srclen : Nat)
  (destination : Address)

omit [DecidableEq Module] standing in
theorem perform_near (given : address ≠ 0) (entry : Address)
    (hooked : HookState)
    (created : createPrologueHook site.cave session.state address
      (BitVec.ofNat 32 srclen) = (entry, hooked)) (nonzero : entry ≠ 0) :
    perform site.cave site.segment session
        (.near info slot address srclen destination) =
      { state := (make32to64Jmp (site.segment info) hooked
          (nearCall address srclen destination) false).2
        originals := Function.update session.originals slot entry } := by
  rw [perform, if_pos given, created]
  simp only [ne_eq, nonzero, not_false_eq_true, if_true]
  rfl

variable (next : Next site done (.near info slot address srclen destination))
  (size : Nat) (entry : Address) (hooked : HookState)
  (hook : HookedFor site done patches
    (.near info slot address srclen destination) size entry hooked)
  (given : address ≠ 0)
  (extent : inspected site.cave site.original address
    (BitVec.ofNat 32 srclen) = size)
  (displaced : displacedBy site.cave site.original address
    (BitVec.ofNat 32 srclen) = some size)
  (created : createPrologueHook site.cave session.state address
    (BitVec.ofNat 32 srclen) = (entry, hooked))

omit [DecidableEq Slot] standing in
include displaced in
theorem far_near :
    (Step.near info slot address srclen destination).far site.cave
      site.original = Pi.single info 1 := by
  rw [Step.far, displaced]

include next hook given extent displaced created

theorem leads_near_unpadded
    (none : findJmpArea (site.segment info) hooked.memory = 0) :
    Leads site done session patches
      (.near info slot address srclen destination) := by
  have cost := far_near site info slot address srclen destination size
    displaced
  have used := far_none site _ _ hooked _ info hook.patched none
  refine ⟨[trampolinePatch site entry address size], ?_⟩
  rw [perform_near site session info slot address srclen destination given
    entry hooked created hook.nonzero,
    make32to64Jmp_none (site.segment info) hooked _ false none]
  apply standing_next site done _ session patches next standing
  · rw [cost]
    exact patched_mono site _ _ _ _ hook.patched _ _
      (fun _ claimed => claimed) fun _ => Nat.le_add_right _ _
  · exact hook.grown
  · intro patch member other covers
    rw [List.mem_singleton.mp member] at covers
    exact Or.inl (hook.inCave other covers)
  · exact update_others session slot entry _ rfl
  · rw [Served, Hooked, displaced, cost]
    simp only [Function.update_self]
    refine ⟨hook.nonzero, List.mem_append_right _
      (List.mem_singleton_self _), Or.inr ⟨?_, ?_⟩⟩
    · rw [Pi.add_apply, Pi.single_eq_same]
      exact used
    · rw [extent]
      exact hook.own.off

theorem leads_near_padded (covered : srclen ≤ size)
    (found : findJmpArea (site.segment info) hooked.memory ≠ 0) :
    Leads site done session patches
      (.near info slot address srclen destination) := by
  obtain ⟨long, small, inText⟩ := next.wellFormed
  have cost := far_near site info slot address srclen destination size
    displaced
  have source : FarSource site
      (Claimed site
        (done ++ [Step.near info slot address srclen destination]))
      (patches ++ [trampolinePatch site entry address size]) info
      (nearCall address srclen destination) :=
    { given := given
      size := long
      inText := inText given
      destination := small
      own := own_mono site _ _ _ _ hook.own srclen covered
      claimPadding := fun position padded other inside =>
        Or.inr (Or.inr ⟨info, position, padded, inside⟩) }
  obtain ⟨area, inReach, inPadding, jumped⟩ := far_found site _ _ hooked _
    info (nearCall address srclen destination) hook.patched source false found
  rw [List.append_assoc] at jumped
  refine ⟨[trampolinePatch site entry address size] ++
    [sourcePatch (site.segment info) (nearCall address srclen destination)
        area,
      areaPatch (site.segment info) (nearCall address srclen destination)
        area], ?_⟩
  rw [perform_near site session info slot address srclen destination given
    entry hooked created hook.nonzero]
  apply standing_next site done _ session patches next standing
  · rw [cost]
    exact jumped
  · show (make32to64Jmp _ _ _ _).2.caveInstSize.toNat = _
    rw [(make32to64Jmp_frame (site.segment info) _ hooked false).2]
    exact hook.grown
  · intro patch member other covers
    rcases List.mem_append.mp member with first | second
    · rw [List.mem_singleton.mp first] at covers
      exact Or.inl (hook.inCave other covers)
    · refine farPatches_claimed site _ info
        (nearCall address srclen destination) area long ?_ inPadding patch
        second other covers
      intro inner inside
      show Within address (inspected _ _ _ _) inner
      rw [extent]
      exact within_mono _ srclen _ covered inner inside
  · exact update_others session slot entry _ rfl
  · rw [Served, Hooked, displaced, cost]
    simp only [Function.update_self]
    refine ⟨hook.nonzero, List.mem_append_right _
      (List.mem_append_left _ (List.mem_singleton_self _)),
      Or.inl ⟨area, inReach, ?_, ?_⟩⟩
    · exact List.mem_append_right _ (List.mem_append_right _
        (List.mem_cons_self ..))
    · exact List.mem_append_right _ (List.mem_append_right _
        (List.mem_cons_of_mem _ (List.mem_singleton_self _)))

end Near

theorem leads_near (info : Module) (slot : Slot) (address : Address)
    (srclen : Nat) (destination : Address)
    (next : Next site done (.near info slot address srclen destination)) :
    Leads site done session patches
      (.near info slot address srclen destination) := by
  have own := own_next site done _ session patches next standing
  by_cases given : address = 0
  · subst given
    apply leads_unresolved site done session patches standing _ next
    · simp [perform]
    · rw [Step.room, trampolineRoom, displacedBy_unresolved]
    · rw [Served, Hooked, displacedBy_unresolved]
      exact ⟨unset_next site done _ session patches next standing slot rfl,
        own.off⟩
  · cases displaced : displacedBy site.cave site.original address
        (BitVec.ofNat 32 srclen) with
    | none =>
        obtain ⟨created, result⟩ := standing_refused site done session patches
          standing _ next slot (BitVec.ofNat 32 srclen) _ rfl rfl rfl rfl
          displaced
        refine ⟨[], ?_⟩
        rw [List.append_nil, perform, if_pos given]
        rw [show createPrologueHook site.cave session.state address
          (BitVec.ofNat 32 srclen) = _ from created]
        exact result
    | some size =>
        obtain ⟨extent, enough, entry, hooked, created, hook⟩ :=
          hooked_next site done session patches standing _ next
            (BitVec.ofNat 32 srclen) size rfl rfl displaced
        by_cases none : findJmpArea (site.segment info) hooked.memory = 0
        · exact leads_near_unpadded site done session patches standing info
            slot address srclen destination next size entry hooked hook given
            extent displaced created none
        · have covered : srclen ≤ size := by
            rcases next.wellFormed.1 with rfl | rfl
            · exact enough
            · exact enough
          exact leads_near_padded site done session patches standing info slot
            address srclen destination next size entry hooked hook given
            extent displaced created covered none

/-! ### A call -/

omit [DecidableEq Module] [DecidableEq Slot] standing in
/-- The operand of the call is still the original one. -/
theorem readLEA32_original (address : Address) (claims : Address → Prop)
    (taken : Module → Nat) (own : Own site claims patches address 5)
    (patched : Patched site claims taken session.state patches) :
    readLEA32 session.state.memory address 0 1 5 =
      readLEA32 site.original address 0 1 5 := by
  have operand : read session.state.memory (1 + address) 4 =
      read site.original (1 + address) 4 := by
    apply read_congr
    intro other inside
    apply own_original site claims taken session.state patches address 5 own
      patched other
    rw [BitVec.add_comm] at inside
    exact within_of_later address 1 4 (by decide) other inside
  rw [readLEA32, readLEA32, operand]

section Call
variable (info : Module) (slot : Option Slot) (address destination : Address)

/-- What a redirected call comes to. -/
def callPerformed (target : Address) : Session Slot where
  state := (make32to64Jmp (site.segment info) session.state
    (farCall address destination) slot.isSome).2
  originals :=
    match slot with
    | some kept => Function.update session.originals kept target
    | none => session.originals

omit [DecidableEq Module] standing in
theorem perform_call (given : address ≠ 0)
    (found : findJmpArea (site.segment info) session.state.memory ≠ 0) :
    perform site.cave site.segment session
        (.call info slot address destination) =
      callPerformed site session info slot address destination
        (readLEA32 session.state.memory address 0 1 5) := by
  rw [perform, if_pos given]
  cases slot with
  | none => rfl
  | some kept =>
      have result : (make32to64Jmp (site.segment info) session.state
          (farCall address destination) true).1 =
            some (readLEA32 session.state.memory address 0 1 5) := by
        rw [make32to64Jmp]
        simp only [ne_eq, found, not_false_eq_true, if_true]
        rfl
      rw [farCall] at result
      simp only [Option.isSome_some, result]
      rfl

omit [DecidableEq Module] standing in
theorem perform_call_none (given : address ≠ 0)
    (none : findJmpArea (site.segment info) session.state.memory = 0) :
    perform site.cave site.segment session
        (.call info slot address destination) = session := by
  rw [perform, if_pos given,
    make32to64Jmp_none (site.segment info) session.state _ _ none]
  cases slot <;> rfl

omit [DecidableEq Module] standing in
theorem keptAs_performed (target : Address) :
    KeptAs (callPerformed site session info slot address destination
      target).originals slot target := by
  rintro kept member
  cases Option.mem_def.mp member
  exact Function.update_self ..

omit [DecidableEq Module] standing in
theorem callPerformed_others (target : Address) (other : Slot)
    (differ : slot ≠ some other) :
    (callPerformed site session info slot address destination
      target).originals other = session.originals other := by
  cases slot with
  | none => rfl
  | some kept =>
      apply Function.update_of_ne
      rintro rfl
      exact differ rfl

variable (next : Next site done (.call info slot address destination))
  (given : address ≠ 0)

omit [DecidableEq Slot] standing in
include given in
theorem far_call :
    (Step.call info slot address destination).far site.cave site.original =
      Pi.single info 1 :=
  if_neg given

omit [DecidableEq Slot] in
include next in
theorem unset_call : KeptAs session.originals slot 0 := fun kept member =>
  unset_next site done _ session patches next standing kept
    (Option.mem_def.mp member)

include next given

omit [DecidableEq Slot] in
theorem own_call :
    Own site (Claimed site
      (done ++ [Step.call info slot address destination])) patches address
      5 := by
  have own := own_next site done _ session patches next standing
  have extent : (Step.call info slot address destination).extentAt site =
      5 := if_neg given
  rwa [extent] at own

theorem leads_call_unpadded
    (none : findJmpArea (site.segment info) session.state.memory = 0) :
    Leads site done session patches
      (.call info slot address destination) := by
  have own := own_call site done session patches standing info slot address
    destination next given
  have used := far_none site _ _ session.state patches info
    (patched_next site done (.call info slot address destination) session
      patches standing 0) none
  apply leads_unresolved site done session patches standing _ next
  · exact perform_call_none site session info slot address destination given
      none
  · rfl
  · rw [Served, if_neg given, far_call site info slot address destination
      given]
    refine Or.inr ⟨unset_call site done session patches standing info slot
      address destination next, ?_, own.off⟩
    rw [Pi.add_apply, Pi.single_eq_same]
    exact used

theorem leads_call_padded
    (found : findJmpArea (site.segment info) session.state.memory ≠ 0) :
    Leads site done session patches
      (.call info slot address destination) := by
  obtain ⟨small, inText⟩ := next.wellFormed
  have own := own_call site done session patches standing info slot address
    destination next given
  have before := patched_next site done
    (.call info slot address destination) session patches standing 0
  have source : FarSource site
      (Claimed site (done ++ [Step.call info slot address destination]))
      patches info (farCall address destination) :=
    { given := given
      size := Or.inl rfl
      inText := inText given
      destination := small
      own := own
      claimPadding := fun position padded other inside =>
        Or.inr (Or.inr ⟨info, position, padded, inside⟩) }
  obtain ⟨area, inReach, inPadding, jumped⟩ := far_found site _ _
    session.state patches info (farCall address destination) before source
    slot.isSome found
  have performed := perform_call site session info slot address destination
    given found
  rw [readLEA32_original site session patches address _ _ own before]
    at performed
  refine ⟨[sourcePatch (site.segment info) (farCall address destination) area,
    areaPatch (site.segment info) (farCall address destination) area], ?_⟩
  rw [performed]
  apply standing_next site done _ session patches next standing
  · rw [far_call site info slot address destination given]
    exact jumped
  · show (make32to64Jmp _ _ _ _).2.caveInstSize.toNat = _
    rw [(make32to64Jmp_frame (site.segment info) _ session.state _).2]
    exact standing.room
  · apply farPatches_claimed site _ info (farCall address destination) area
      (Or.inl rfl) ?_ inPadding
    intro inner inside
    rw [show (Step.call info slot address destination).extentAt site = 5
      from if_neg given]
    exact inside
  · exact callPerformed_others site session info slot address destination _
  · rw [Served, if_neg given]
    left
    refine ⟨keptAs_performed site session info slot address destination _,
      area, inReach, ?_, ?_⟩
    · exact List.mem_append_right _ (List.mem_cons_self ..)
    · exact List.mem_append_right _
        (List.mem_cons_of_mem _ (List.mem_singleton_self _))

end Call

theorem leads_call (info : Module) (slot : Option Slot)
    (address destination : Address)
    (next : Next site done (.call info slot address destination)) :
    Leads site done session patches
      (.call info slot address destination) := by
  by_cases given : address = 0
  · apply leads_unresolved site done session patches standing _ next
    · simp [perform, given]
    · rfl
    · rw [Served, if_pos given]
      exact unset_call site done session patches standing info slot address
        destination next
  · by_cases none : findJmpArea (site.segment info) session.state.memory = 0
    · exact leads_call_unpadded site done session patches standing info slot
        address destination next given none
    · exact leads_call_padded site done session patches standing info slot
        address destination next given none

/-! ### A table of pointers -/

omit [DecidableEq Module] [DecidableEq Slot] standing in
theorem length_pointerBytes (pointer : Address) :
    (pointerBytes pointer).length = 8 := by
  rw [pointerBytes, length_littleEndian]

theorem leads_swap (slot : Slot) (address destination : Address)
    (next : Next site done (.swap slot address destination)) :
    Leads site done session patches (.swap slot address destination) := by
  have unset := unset_next site done _ session patches next standing slot rfl
  by_cases given : address = 0
  · apply leads_unresolved site done session patches standing _ next
    · simp [perform, given]
    · rfl
    · rw [Served, if_pos given]
      exact unset
  · have own := own_next site done _ session patches next standing
    have before := patched_next site done
      (.swap slot address destination) session patches standing 0
    have extent : (Step.swap slot address destination :
        Step Module Slot).extentAt site = 8 := if_neg given
    have length := length_pointerBytes destination
    rw [extent] at own
    have kept : readPointer session.state.memory address =
        readPointer site.original address := by
      rw [readPointer, readPointer, read_congr _ _ _ _
        (own_original site _ _ session.state patches address 8 own before)]
    refine ⟨[{ address := address, data := pointerBytes destination }], ?_⟩
    rw [perform, if_pos given, kept]
    apply standing_next site done _ session patches next standing
    · apply patched_data site _ _ session.state patches address 8 own before
        (pointerBytes destination) (by omega) (by omega)
      intro info
      apply quiet_offText
      rw [Patch.Off, length]
      exact next.wellFormed given info
    · exact standing.room
    · intro patch member other covers
      rw [List.mem_singleton.mp member, Patch.Covers, length] at covers
      right
      left
      rw [extent]
      exact covers
    · exact update_others session slot _ _ rfl
    · rw [Served, if_neg given]
      exact ⟨Function.update_self ..,
        List.mem_append_right _ (List.mem_singleton_self _)⟩

theorem leads_step (step : Step Module Slot) (next : Next site done step) :
    Leads site done session patches step := by
  cases step with
  | prologue slot address minInstructionSize destination =>
      exact leads_prologue site done session patches standing slot address _
        destination next
  | near info slot address srclen destination =>
      exact leads_near site done session patches standing info slot address
        srclen destination next
  | call info slot address destination =>
      exact leads_call site done session patches standing info slot address
        destination next
  | replace address destination =>
      exact leads_replace site done session patches standing address
        destination next
  | overwrite address data =>
      exact leads_overwrite site done session patches standing address data
        next
  | swap slot address destination =>
      exact leads_swap site done session patches standing slot address
        destination next
  | remember slot address =>
      exact leads_remember site done session patches standing slot address
        next

end Performing

end HenPlugins.Memory.TakeOverSteps
