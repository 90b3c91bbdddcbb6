import Mathlib.Data.List.Flatten
import HenPlugins.Memory.TakenOver
import HenPlugins.Mono.EventOrder

/-!
# The uploads of the plugin

`RunPost`, the two uploads of a later load and `PrintTimeTick` take over the
functions of ShellUI.  Each of them runs at most once, in an order that the
loads and the boot effect decide, and no order spoils a hook.
-/

set_option autoImplicit false

namespace HenPlugins.Mono.Uploads

open HenPlugins.Lib.ByteMemory
open HenPlugins.Lib.ByteText
open HenPlugins.Lib.EventRun
open HenPlugins.Memory.CodeCave
open HenPlugins.Memory.ServedSteps
open HenPlugins.Memory.TakeOver
open HenPlugins.Memory.TakenOver
open HenPlugins.Mono.EventOrder (readyApi laterBoot)
open HenPlugins.Mono.HookSetup

/-! ## What is taken over -/

/-- The modules whose padding the far jumps take. -/
inductive Module where
  | eboot
  | appExe
  deriving DecidableEq

/-- The pointers through which the handlers reach the functions. -/
inductive Pointer where
  | downloadRegisterTaskByStorageEx
  | finishBootEffect
  | pkgInstallerSearchDir
  | pkgNewElement
  | onPress
  | onPreCreate
  | onPageActivating
  | onCheckVisible
  | startSettingsPage
  | settingsAppGetItem
  | topMenuPluginSetimage
  | topMenuPluginGetString
  | onConfirm
  | onPressed
  | readResourceStream
  deriving DecidableEq

/-- What the scans, `sceKernelDlsym` and `Mono_Get_Address_of_Method` found, 0
for nothing, and whether the modules could be looked up.  The download task is
the pointer behind its name in the table of internal calls. -/
structure Found where
  ebootModule : Bool
  eventProxyCall : Address
  appExeModule : Bool
  regStrCall : Address
  bgftPatched : Bool
  downloadRegisterTaskByStorageEx : Address
  finishBoot : Address
  sceKernelGetHwSerialNumber : Address
  sceKernelGetUtokenStoreModeForRcmgr : Address
  sceKernelGetDebugMenuModeForRcmgr : Address
  searchDir : Address
  pkgNewElement : Address
  installerModule : Bool
  onPress : Address
  onPreCreate : Address
  onPageActivating : Address
  branchModule : Bool
  onCheckVisible : Address
  startSettingsPage : Address
  getItem : Address
  topMenuPluginSetimage : Address
  topMenuPluginGetString : Address
  createOfflinePanel : Address
  initProperty : Address
  onConfirm : Address
  onPressed : Address
  onPageDeactivating : Address
  systemAreaIconPSPlusLaunchPlugin : Address
  getManifestResourceStream : Address
  checkRunningOnMainThread : Address

/-- The functions of the plugin. -/
structure Handlers where
  eventProxyCStr : Address
  regMgrStr : Address
  downloadRegisterTaskByStorageEx : Address
  finishBootEffect : Address
  sceKernelGetHwSerialNumberHook : Address
  pkgInstallerSearchDir : Address
  pkgNewElementEx : Address
  newOnPress : Address
  newOnPreCreate : Address
  newOnPageActivating : Address
  newOnCheckVisible : Address
  newStartSettingsPage : Address
  newTopMenuPluginSetimage : Address
  newTopMenuPluginGetString : Address
  newOnConfirm : Address
  newOnPageDeactivating : Address
  psPlusStart : Address
  readResourceStream : Address

section Uploading
variable (found : Found) (handlers : Handlers)

def uploadEventProxyCall : List (Step Module Pointer) :=
  [.call .eboot none found.eventProxyCall handlers.eventProxyCStr]

/-- Without the texts that it changes in `app.exe`. -/
def uploadRegStrCall : List (Step Module Pointer) :=
  [.call .eboot none found.regStrCall handlers.regMgrStr]

def uploadBgftFixup : List (Step Module Pointer) :=
  if found.bgftPatched then []
  else
    [.swap .downloadRegisterTaskByStorageEx
      found.downloadRegisterTaskByStorageEx
      handlers.downloadRegisterTaskByStorageEx]

def uploadFinishBootEffectCode : List (Step Module Pointer) :=
  [.prologue .finishBootEffect found.finishBoot 15 handlers.finishBootEffect]

/-- `mov eax, 1; ret` -/
def debugSettingsCode : List UInt8 := [0xB8, 0x01, 0x00, 0x00, 0x00, 0xC3]

def uploadDebugSettingsPatch : List (Step Module Pointer) :=
  [.overwrite found.sceKernelGetUtokenStoreModeForRcmgr debugSettingsCode,
    .overwrite found.sceKernelGetDebugMenuModeForRcmgr debugSettingsCode]

/-- The hooks of `RunPost`.  The texts and the error code that it changes in
`app.exe` belong to the process. -/
def runPostSteps : List (Step Module Pointer) :=
  (if found.ebootModule then
    uploadEventProxyCall found handlers ++
      if found.appExeModule then
        uploadRegStrCall found handlers ++ uploadBgftFixup found handlers ++
          uploadFinishBootEffectCode found handlers
      else []
  else []) ++
  [.replace found.sceKernelGetHwSerialNumber
    handlers.sceKernelGetHwSerialNumberHook] ++
  uploadDebugSettingsPatch found

def uploadNewPkgInstallerPath : List (Step Module Pointer) :=
  [.prologue .pkgInstallerSearchDir found.searchDir 15
    handlers.pkgInstallerSearchDir] ++
  if found.installerModule then
    [.near .appExe .pkgNewElement found.pkgNewElement 6 handlers.pkgNewElementEx]
  else []

def uploadOnBranch : List (Step Module Pointer) :=
  [.prologue .onPress found.onPress 15 handlers.newOnPress,
    .prologue .onPreCreate found.onPreCreate 15 handlers.newOnPreCreate,
    .prologue .onPageActivating found.onPageActivating 15
      handlers.newOnPageActivating] ++
  (if found.branchModule then
    [.near .appExe .onCheckVisible found.onCheckVisible 6 handlers.newOnCheckVisible,
      .remember .settingsAppGetItem found.getItem] ++
    (if found.getItem ≠ 0 then
      [.near .appExe .startSettingsPage found.startSettingsPage 6
        handlers.newStartSettingsPage]
    else []) ++
    [.near .appExe .topMenuPluginSetimage found.topMenuPluginSetimage 6
        handlers.newTopMenuPluginSetimage,
      .near .appExe .topMenuPluginGetString found.topMenuPluginGetString 6
        handlers.newTopMenuPluginGetString,
      .overwrite found.createOfflinePanel [ret],
      .overwrite found.initProperty [ret]]
  else []) ++
  [.prologue .onConfirm found.onConfirm 15 handlers.newOnConfirm,
    .remember .onPressed found.onPressed] ++
  (if found.onPressed ≠ 0 then
    [.replace found.onPageDeactivating handlers.newOnPageDeactivating]
  else []) ++
  [.replace found.systemAreaIconPSPlusLaunchPlugin handlers.psPlusStart]

/-- `UploadNewCorelibStreamReader` does nothing else. -/
def uploadResourceStreamBranch : List (Step Module Pointer) :=
  [.prologue .readResourceStream found.getManifestResourceStream 17
    handlers.readResourceStream]

def mainThreadCheck : List (Step Module Pointer) :=
  [.overwrite found.checkRunningOnMainThread [ret]]

/-- The three places from which functions are taken over. -/
inductive Stage where
  | runPost
  | laterLoad
  | printTimeTick
  deriving DecidableEq

def Stage.steps : Stage → List (Step Module Pointer)
  | .runPost => runPostSteps found handlers
  | .laterLoad =>
      uploadNewPkgInstallerPath found handlers ++
        uploadOnBranch found handlers
  | .printTimeTick =>
      uploadResourceStreamBranch found handlers ++ mainThreadCheck found

def stages : List Stage := [.runPost, .laterLoad, .printTimeTick]

def stepsOf (reached : List Stage) : List (Step Module Pointer) :=
  reached.flatMap (Stage.steps found handlers)

end Uploading

/-! ## When -/

section Events
variable {Domain Assembly Image : Type} (api : MonoApi Domain Assembly Image)

/-- The stage that an event runs through. -/
def stageOf (state : HookState Domain Image) : Event → Option Stage
  | .moduleLoad path md =>
      if !state.test && md > 0 && decide (appExeSprx <:+: path) then
        some .runPost
      else if state.test && decide (state.appExeH > 0) &&
          state.rootDomain.isSome && !state.once && state.appExe.isNone &&
          (monoGetImage api state.rootDomain appExePath).isSome then
        some .laterLoad
      else none
  | .bootEffect =>
      if !state.finishBootOnce && !state.printTimeTickOnce then
        some .printTimeTick
      else none

/-- The stages of a run, in their order. -/
def reached (state : HookState Domain Image) : List Event → List Stage
  | [] => []
  | event :: rest =>
      match step api state event with
      | none => []
      | some next => (stageOf api state event).toList ++ reached next rest

def latched (state : HookState Domain Image) : Stage → Bool
  | .runPost => state.test
  | .laterLoad => state.once
  | .printTimeTick => state.printTimeTickOnce

/-! ## Each stage once -/

section Steps
variable (state next : HookState Domain Image) (event : Event)

theorem latched_hook (path : Text) (md : Int) (stage : Stage)
    (already : latched state stage = true) :
    latched (sceKernelLoadStartModuleInternalForMonoHook api state path md)
      stage = true := by
  cases stage
  all_goals
    unfold sceKernelLoadStartModuleInternalForMonoHook runPost
    repeat' split
    all_goals first | rfl | exact already

theorem latched_finishBootEffect (stage : Stage)
    (already : latched state stage = true) :
    latched (finishBootEffect api state) stage = true := by
  cases stage
  all_goals
    unfold finishBootEffect printTimeTick
    repeat' split
    all_goals first | rfl | exact already

variable (taken : step api state event = some next)
include taken

theorem latched_step (stage : Stage) (already : latched state stage = true) :
    latched next stage = true := by
  rcases step_cases event taken with ⟨path, md, rfl, rfl⟩ | ⟨rfl, -, rfl⟩
  · exact latched_hook api state path md stage already
  · exact latched_finishBootEffect api state stage already

theorem stage_step (stage : Stage)
    (through : stageOf api state event = some stage) :
    latched state stage = false ∧ latched next stage = true := by
  rcases step_cases event taken with ⟨path, md, rfl, rfl⟩ | ⟨rfl, -, rfl⟩
  · rw [stageOf] at through
    split at through
    · rename_i first
      cases Option.some.inj through
      rw [sceKernelLoadStartModuleInternalForMonoHook, if_pos first]
      simp only [Bool.and_eq_true, Bool.not_eq_true'] at first
      exact ⟨first.1.1, rfl⟩
    · rename_i other
      split at through
      · rename_i later
        cases Option.some.inj through
        simp only [Bool.and_eq_true, Bool.not_eq_true', decide_eq_true_eq]
          at later
        obtain ⟨⟨⟨⟨⟨tested, handle⟩, root⟩, fresh⟩, noImage⟩, opened⟩ := later
        obtain ⟨domain, rooted⟩ := Option.isSome_iff_exists.mp root
        rw [rooted] at opened
        obtain ⟨image, read⟩ := Option.isSome_iff_exists.mp opened
        rw [hook_uploads path md domain image tested handle rooted
          (Option.isNone_iff_eq_none.mp noImage) fresh read]
        exact ⟨fresh, rfl⟩
      · contradiction
  · rw [stageOf] at through
    split at through
    · rename_i first
      cases Option.some.inj through
      simp only [Bool.and_eq_true, Bool.not_eq_true'] at first
      rw [finishBootEffect_first api first.1 first.2]
      exact ⟨first.2, rfl⟩
    · contradiction

theorem recorded_step :
    next.uploadOnBranch.length = state.uploadOnBranch.length +
      (stageOf api state event).toList.count .laterLoad := by
  rcases step_cases event taken with ⟨path, md, rfl, rfl⟩ | ⟨rfl, -, rfl⟩
  · by_cases first : (!state.test && decide (md > 0) &&
        decide (appExeSprx <:+: path)) = true
    · rw [stageOf, if_pos first,
        sceKernelLoadStartModuleInternalForMonoHook, if_pos first]
      rfl
    · by_cases later : (state.test && decide (state.appExeH > 0) &&
          state.rootDomain.isSome && !state.once && state.appExe.isNone &&
          (monoGetImage api state.rootDomain appExePath).isSome) = true
      · rw [stageOf, if_neg first, if_pos later]
        simp only [Bool.and_eq_true, Bool.not_eq_true', decide_eq_true_eq]
          at later
        obtain ⟨⟨⟨⟨⟨tested, handle⟩, root⟩, fresh⟩, noImage⟩, opened⟩ := later
        obtain ⟨domain, rooted⟩ := Option.isSome_iff_exists.mp root
        rw [rooted] at opened
        obtain ⟨image, read⟩ := Option.isSome_iff_exists.mp opened
        rw [hook_uploads path md domain image tested handle rooted
          (Option.isNone_iff_eq_none.mp noImage) fresh read]
        exact List.length_append
      · rw [stageOf, if_neg first, if_neg later,
          sceKernelLoadStartModuleInternalForMonoHook, if_neg first]
        repeat' split
        all_goals simp_all
  · have kept := (finishBootEffect_frame api state).2.1
    rw [kept, stageOf]
    split <;> rfl

end Steps

theorem reached_nodup (state final : HookState Domain Image)
    (events : List Event) (ran : run (step api) state events = some final) :
    (reached api state events).Nodup ∧
      ∀ stage ∈ reached api state events, latched state stage = false := by
  induction events generalizing state with
  | nil => exact ⟨List.nodup_nil, by simp [reached]⟩
  | cons event rest ih =>
      obtain ⟨next, taken, later⟩ := run_cons (step api) state final event rest
        ran
      obtain ⟨nodup, unlatched⟩ := ih next later
      have before : ∀ stage ∈ reached api next rest,
          latched state stage = false := by
        intro stage member
        cases already : latched state stage with
        | false => rfl
        | true =>
            have closed := latched_step api state next event taken stage
              already
            rw [unlatched stage member] at closed
            contradiction
      rw [reached, taken]
      cases through : stageOf api state event with
      | none => exact ⟨nodup, before⟩
      | some stage =>
          obtain ⟨fresh, closed⟩ := stage_step api state next event taken stage
            through
          refine ⟨List.nodup_cons.mpr ⟨?_, nodup⟩, ?_⟩
          · intro again
            have unclosed := unlatched stage again
            rw [closed] at unclosed
            contradiction
          · intro other member
            rcases List.mem_cons.mp member with rfl | further
            · exact fresh
            · exact before other further

/-- The record of `UploadOnBranch` tells whether the later load was reached. -/
theorem uploadOnBranch_recorded (state final : HookState Domain Image)
    (events : List Event) (ran : run (step api) state events = some final) :
    final.uploadOnBranch.length = state.uploadOnBranch.length +
      (reached api state events).count .laterLoad := by
  induction events generalizing state with
  | nil =>
      cases Option.some.inj ran
      rfl
  | cons event rest ih =>
      obtain ⟨next, taken, later⟩ := run_cons (step api) state final event rest
        ran
      rw [ih next later, recorded_step api state next event taken, reached,
        taken]
      simp only
      rw [List.count_append, Nat.add_assoc]

/-! ## No hook is spoilt -/

/-- Where a handler can be entered, the pointers it calls are set. -/
structure NoNullCalls (site : Site Module) (steps : List (Step Module Pointer))
    (session : Session Pointer) : Prop where
  prologue : ∀ pointer address minInstructionSize handler,
    Step.prologue pointer address minInstructionSize handler ∈ steps →
      session.originals pointer = 0 →
        LeftAlone site session.state.memory address
          (inspected site.cave site.original address minInstructionSize)
  near : ∀ info pointer address srclen handler,
    Step.near info pointer address srclen handler ∈ steps →
      session.originals pointer = 0 →
        LeftAlone site session.state.memory address
          (inspected site.cave site.original address
            (BitVec.ofNat 32 srclen))
  swap : ∀ pointer address handler,
    Step.swap pointer address handler ∈ steps →
      session.originals pointer = 0 →
        address = 0 ∨ readPointer site.original address = 0
  getItem : ∀ info address srclen handler,
    Step.near info .startSettingsPage address srclen handler ∈ steps →
      session.originals .settingsAppGetItem ≠ 0

section Pointers
variable (site : Site Module) (session : Session Pointer)

theorem leftAlone_of_rerouted (pointer address : Address)
    (minInstructionSize : BitVec 32) (redirected : Prop)
    (rerouted : Rerouted site session.state.memory pointer address
      minInstructionSize redirected) (unset : pointer = 0) :
    LeftAlone site session.state.memory address
      (inspected site.cave site.original address minInstructionSize) := by
  rw [Rerouted] at rerouted
  split at rerouted
  · exact rerouted.2
  · exact absurd unset rerouted.1.entered

variable (found : Found) (handlers : Handlers) (stages : List Stage)

/-- The page is started with `get_Item` or not at all. -/
theorem getItem_of_startSettingsPage (info : Module) (address : Address)
    (srclen : Nat) (handler : Address)
    (member : Step.near info .startSettingsPage address srclen handler ∈
      stepsOf found handlers stages) :
    found.getItem ≠ 0 ∧ Step.remember .settingsAppGetItem found.getItem ∈
      stepsOf found handlers stages := by
  obtain ⟨stage, reached, within⟩ := List.mem_flatMap.mp member
  cases stage with
  | runPost =>
      rw [Stage.steps, runPostSteps, uploadBgftFixup] at within
      split_ifs at within <;>
        simp [uploadEventProxyCall, uploadRegStrCall,
          uploadFinishBootEffectCode, uploadDebugSettingsPatch] at within
  | printTimeTick => simp [Stage.steps, uploadResourceStreamBranch,
      mainThreadCheck] at within
  | laterLoad =>
      have branch : found.branchModule = true := by
        by_contra absent
        rw [Stage.steps, uploadNewPkgInstallerPath, uploadOnBranch,
          if_neg absent] at within
        split_ifs at within <;> simp at within
      have given : found.getItem ≠ 0 := by
        intro absent
        rw [Stage.steps, uploadNewPkgInstallerPath, uploadOnBranch,
          if_pos branch, if_neg (not_not.mpr absent)] at within
        split_ifs at within <;> simp at within
      refine ⟨given, List.mem_flatMap.mpr ⟨.laterLoad, reached, ?_⟩⟩
      rw [Stage.steps, uploadOnBranch, if_pos branch]
      simp

theorem noNullCalls_of_allTaken
    (taken : AllTaken site (stepsOf found handlers stages) session) :
    NoNullCalls site (stepsOf found handlers stages) session where
  prologue := fun pointer address minInstructionSize handler member =>
    leftAlone_of_rerouted site session _ address minInstructionSize _
      (taken.took (.prologue pointer address minInstructionSize handler)
        member)
  near := fun info pointer address srclen handler member =>
    leftAlone_of_rerouted site session _ address _ _
      (taken.took (.near info pointer address srclen handler) member)
  swap := by
    intro pointer address handler member unset
    have took := taken.took (.swap pointer address handler) member
    rw [Took] at took
    split at took
    · rename_i unresolved
      exact Or.inl unresolved
    · rw [← took.1]
      exact Or.inr unset
  getItem := by
    intro info address srclen handler member
    obtain ⟨given, remembered⟩ := getItem_of_startSettingsPage found handlers
      stages info address srclen handler member
    rw [taken.took (.remember .settingsAppGetItem found.getItem) remembered]
    exact given

end Pointers

/-- What the stages of a run have come to. -/
structure Uploaded (site : Site Module) (found : Found) (handlers : Handlers)
    (stages : List Stage) (session : Session Pointer) : Prop where
  taken : AllTaken site (stepsOf found handlers stages) session
  safe : NoNullCalls site (stepsOf found handlers stages) session

theorem stepsOf_subperm (found : Found) (handlers : Handlers)
    (some : List Stage) (nodup : some.Nodup) :
    (stepsOf found handlers some).Subperm (stepsOf found handlers stages) := by
  obtain ⟨kept, perm, sublist⟩ := List.subperm_of_subset nodup
    (fun stage _ => show stage ∈ stages by cases stage <;> decide)
  exact ⟨stepsOf found handlers kept, perm.flatMap_right _,
    sublist.flatMap _⟩

/-- In whatever order loads and boot effects come, the stages they lead to
come once each and take over their functions without spoiling one another's
hooks. -/
theorem uploads_keep (site : Site Module) (found : Found)
    (handlers : Handlers)
    (layout : Layout site (stepsOf found handlers stages))
    (events : List Event) (final : HookState Domain Image)
    (ran : run (step api) start events = some final) :
    (reached api start events).Nodup ∧
      Uploaded site found handlers (reached api start events)
        (performAll site.cave site.segment (untouched site.original)
          (stepsOf found handlers (reached api start events))) ∧
      (.laterLoad ∈ reached api start events ↔
        final.uploadOnBranch ≠ []) := by
  obtain ⟨nodup, -⟩ := reached_nodup api start final events ran
  have recorded := uploadOnBranch_recorded api start final events ran
  have subperm := stepsOf_subperm found handlers _ nodup
  have taken := allTaken_performAll site _
    (layout_of_subperm site _ _ subperm layout)
  refine ⟨nodup,
    ⟨taken, noNullCalls_of_allTaken site _ found handlers _ taken⟩, ?_⟩
  have none : (start : HookState Domain Image).uploadOnBranch.length = 0 := rfl
  rw [← List.count_pos_iff, ← List.length_pos_iff, recorded, none,
    Nat.zero_add]

end Events

/-! ## A call, a pointer, two functions and a silenced check -/

def secondText : Module → Bool
  | .eboot => true
  | .appExe => false

theorem secondText_injective : Function.Injective secondText := by
  rintro (_ | _) (_ | _) same
  · rfl
  · contradiction
  · contradiction
  · rfl

/-- The process of `ShellUI` with both modules in it. -/
abbrev shellUI : Site Module := sledSite secondText secondText_injective

def someFound : Found where
  ebootModule := true
  eventProxyCall := 0x30010
  appExeModule := true
  regStrCall := 0
  bgftPatched := false
  downloadRegisterTaskByStorageEx := 0x60000
  finishBoot := 0x40000
  sceKernelGetHwSerialNumber := 0
  sceKernelGetUtokenStoreModeForRcmgr := 0
  sceKernelGetDebugMenuModeForRcmgr := 0
  searchDir := 0
  pkgNewElement := 0
  installerModule := false
  onPress := 0
  onPreCreate := 0
  onPageActivating := 0
  branchModule := true
  onCheckVisible := 0
  startSettingsPage := 0x10010
  getItem := 0x70000
  topMenuPluginSetimage := 0
  topMenuPluginGetString := 0
  createOfflinePanel := 0
  initProperty := 0
  onConfirm := 0
  onPressed := 0
  onPageDeactivating := 0
  systemAreaIconPSPlusLaunchPlugin := 0
  getManifestResourceStream := 0
  checkRunningOnMainThread := 0x50000

def someHandlers : Handlers where
  eventProxyCStr := 0x600f00
  regMgrStr := 0x601000
  downloadRegisterTaskByStorageEx := 0x601100
  finishBootEffect := 0x600000
  sceKernelGetHwSerialNumberHook := 0x600100
  pkgInstallerSearchDir := 0x600200
  pkgNewElementEx := 0x600300
  newOnPress := 0x600400
  newOnPreCreate := 0x600500
  newOnPageActivating := 0x600600
  newOnCheckVisible := 0x600700
  newStartSettingsPage := 0x600800
  newTopMenuPluginSetimage := 0x600900
  newTopMenuPluginGetString := 0x600a00
  newOnConfirm := 0x600b00
  newOnPageDeactivating := 0x600c00
  psPlusStart := 0x600d00
  readResourceStream := 0x600e00

theorem someFound_layout :
    Layout shellUI (stepsOf someFound someHandlers stages) := by
  apply sledSite_layout
  · decide +kernel
  · simp [stepsOf, stages, Stage.steps, runPostSteps, uploadEventProxyCall,
      uploadRegStrCall, uploadBgftFixup, uploadFinishBootEffectCode,
      uploadDebugSettingsPatch, uploadNewPkgInstallerPath, uploadOnBranch,
      uploadResourceStreamBranch, mainThreadCheck, someFound, someHandlers,
      Step.WellFormed]
    refine ⟨?_, fun info => ?_, by decide, ?_, Or.inl (by decide +kernel)⟩
    · rw [InText]
      decide +kernel
    · exact apart_of_bounds _ _ _ _ (by decide)
        (sledText_fits (secondText info) 48 (Nat.le_refl _))
        (by cases info <;> decide +kernel)
    · rw [InText]
      decide +kernel
  · decide +kernel
  · decide +kernel
  · decide +kernel

theorem uploads_keep_laterBoot :
    reached readyApi start laterBoot = stages ∧
      Uploaded shellUI someFound someHandlers
        (reached readyApi start laterBoot)
        (performAll shellUI.cave shellUI.segment (untouched shellUI.original)
          (stepsOf someFound someHandlers
            (reached readyApi start laterBoot))) :=
  ⟨by decide, (uploads_keep readyApi shellUI someFound someHandlers
    someFound_layout laterBoot _ rfl).2.1⟩

end HenPlugins.Mono.Uploads
