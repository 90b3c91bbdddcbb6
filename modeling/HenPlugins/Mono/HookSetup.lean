import HenPlugins.Lib.ByteText
import HenPlugins.Lib.EventRun
import Mathlib.Data.List.Infix

/-!
# The order of the hook set-up

`sceKernelLoadStartModuleInternalForMono_Hook` and `FinishBootEffect` share
the globals `Root_Domain` and `App_Exe`, and each keeps latches of its own.
The state holds the globals, the latches and a record of the upload calls.
-/

set_option autoImplicit false

namespace HenPlugins.Mono.HookSetup

open HenPlugins.Lib.ByteText
open HenPlugins.Lib.EventRun

/-- The functions of the Mono runtime that the hooks call, and whether
`UploadFinishBootEffectCode` finds the code it patches. -/
structure MonoApi (Domain Assembly Image : Type) where
  monoGetRootDomain : Option Domain
  monoDomainAssemblyOpen : Domain → Text → Option Assembly
  monoAssemblyGetImage : Assembly → Option Image
  finishBootFound : Bool

structure HookState (Domain Image : Type) where
  rootDomain : Option Domain
  appExe : Option Image
  test : Bool
  appExeH : Int
  once : Bool
  finishBootOnce : Bool
  printTimeTickOnce : Bool
  finishBootHooked : Bool
  uploadNewPkgInstallerPath : List (Image × Int)
  uploadOnBranch : List Image
  uploadNewCorelibStreamReader : List (Option Domain)
  deriving DecidableEq

inductive Event where
  | moduleLoad (path : Text) (md : Int)
  | bootEffect
  deriving DecidableEq

def appExeSprx : Text := ascii "/app0/psm/Application/app.exe.sprx"
def appExePath : Text := ascii "/app0/psm/Application/app.exe"

section Hooks
variable {Domain Assembly Image : Type} (api : MonoApi Domain Assembly Image)

def start : HookState Domain Image :=
  { rootDomain := none
    appExe := none
    test := false
    appExeH := 0
    once := false
    finishBootOnce := false
    printTimeTickOnce := false
    finishBootHooked := false
    uploadNewPkgInstallerPath := []
    uploadOnBranch := []
    uploadNewCorelibStreamReader := [] }

def monoGetImage (rootDomain : Option Domain) (path : Text) : Option Image :=
  match rootDomain with
  | none => none
  | some domain =>
      match api.monoDomainAssemblyOpen domain path with
      | none => none
      | some assembly => api.monoAssemblyGetImage assembly

/-- Of the patches of `RunPost` only the one that makes `FinishBootEffect`
reachable bears on the set-up. -/
def runPost (state : HookState Domain Image) : HookState Domain Image :=
  { state with finishBootHooked := api.finishBootFound }

/-- `md` is what the original function returned. -/
def sceKernelLoadStartModuleInternalForMonoHook
    (state : HookState Domain Image) (path : Text) (md : Int) :
    HookState Domain Image :=
  if !state.test && md > 0 && decide (appExeSprx <:+: path) then
    { runPost api { state with appExeH := md } with test := true }
  else if state.test then
    if state.appExeH > 0 then
      if state.rootDomain.isNone then
        { state with rootDomain := api.monoGetRootDomain }
      else if !state.once && state.rootDomain.isSome &&
          state.appExe.isNone then
        match monoGetImage api state.rootDomain appExePath with
        | none => { state with appExe := none }
        | some image =>
            { state with
              appExe := some image
              uploadNewPkgInstallerPath :=
                state.uploadNewPkgInstallerPath ++ [(image, state.appExeH)]
              uploadOnBranch := state.uploadOnBranch ++ [image]
              once := true }
      else state
    else state
  else state

/-- The global is set here only when the image was found. -/
def printTimeTick (state : HookState Domain Image) : HookState Domain Image :=
  if !state.printTimeTickOnce then
    let opened :=
      match monoGetImage api state.rootDomain appExePath with
      | none => state
      | some image => { state with appExe := some image }
    { opened with
      uploadNewCorelibStreamReader :=
        opened.uploadNewCorelibStreamReader ++ [opened.rootDomain]
      printTimeTickOnce := true }
  else state

def finishBootEffect (state : HookState Domain Image) :
    HookState Domain Image :=
  if !state.finishBootOnce then
    { printTimeTick api state with finishBootOnce := true }
  else state

/-- A boot effect needs the hook that `RunPost` installs. -/
def step (state : HookState Domain Image) :
    Event → Option (HookState Domain Image)
  | .moduleLoad path md =>
      some (sceKernelLoadStartModuleInternalForMonoHook api state path md)
  | .bootEffect =>
      if state.finishBootHooked then some (finishBootEffect api state)
      else none

end Hooks

def isModuleLoad : Event → Bool
  | .moduleLoad _ _ => true
  | .bootEffect => false

/-- A successful load of `app.exe.sprx`. -/
def isAppLoad : Event → Bool
  | .moduleLoad path md => md > 0 && decide (appExeSprx <:+: path)
  | .bootEffect => false

/-- The events after the first successful load of `app.exe.sprx`. -/
def afterAppLoad : List Event → List Event
  | [] => []
  | event :: rest => if isAppLoad event then rest else afterAppLoad rest

def LoadedThenTwo (events : List Event) : Prop :=
  ∃ front app back, events = front ++ app :: back ∧ isAppLoad app = true ∧
    2 ≤ back.countP isModuleLoad

theorem suffix_afterAppLoad (front back : List Event) (app : Event)
    (isApp : isAppLoad app = true) :
    back <:+ afterAppLoad (front ++ app :: back) := by
  induction front with
  | nil =>
      rw [List.nil_append, afterAppLoad, if_pos isApp]
  | cons event front ih =>
      rw [List.cons_append, afterAppLoad]
      split
      · exact (List.suffix_cons app back).trans
          (List.suffix_append front (app :: back))
      · exact ih

theorem split_at_appLoad (events : List Event)
    (loaded : LoadedThenTwo events) :
    2 ≤ (afterAppLoad events).countP isModuleLoad ∧
      ∃ front app, events = front ++ app :: afterAppLoad events ∧
        isAppLoad app = true ∧ ∀ event ∈ front, isAppLoad event = false := by
  obtain ⟨front, app, back, rfl, isApp, two⟩ := loaded
  have more := (suffix_afterAppLoad front back app isApp).sublist.countP_le
    (p := isModuleLoad)
  refine ⟨Nat.le_trans two more, ?_⟩
  clear more two
  induction front with
  | nil => exact ⟨[], app, by simp [afterAppLoad, isApp], isApp, by simp⟩
  | cons event front ih =>
      by_cases first : isAppLoad event = true
      · exact ⟨[], event, by simp [afterAppLoad, first], first, by simp⟩
      · obtain ⟨shorter, load, split, isLoad, clear⟩ := ih
        have unloaded : isAppLoad event = false := by simpa using first
        refine ⟨event :: shorter, load, ?_, isLoad, ?_⟩
        · rw [List.cons_append, afterAppLoad, if_neg first, List.cons_append,
            ← split]
        · intro other member
          rcases List.mem_cons.mp member with rfl | later
          · exact unloaded
          · exact clear other later

section Steps
variable {Domain Assembly Image : Type} {api : MonoApi Domain Assembly Image}
  {state next : HookState Domain Image}

theorem step_cases (event : Event) (taken : step api state event = some next) :
    (∃ path md, event = .moduleLoad path md ∧
        next = sceKernelLoadStartModuleInternalForMonoHook api state path md) ∨
      (event = .bootEffect ∧ state.finishBootHooked = true ∧
        next = finishBootEffect api state) := by
  cases event with
  | moduleLoad path md => exact Or.inl ⟨path, md, rfl, by
      simpa [step, eq_comm] using taken⟩
  | bootEffect =>
      right
      simp only [step] at taken
      split at taken
      · rename_i hooked
        exact ⟨rfl, hooked, (Option.some.inj taken).symm⟩
      · contradiction

/-- Before `app.exe.sprx` is loaded the hook does nothing. -/
theorem hook_before_appLoad (path : Text) (md : Int)
    (untested : state.test = false)
    (other : isAppLoad (.moduleLoad path md) = false) :
    sceKernelLoadStartModuleInternalForMonoHook api state path md =
      state := by
  have skipped : (!state.test && decide (md > 0) &&
      decide (appExeSprx <:+: path)) = false := by
    rw [untested]
    exact other
  rw [sceKernelLoadStartModuleInternalForMonoHook]
  simp only [skipped, Bool.false_eq_true, if_false]
  simp only [untested, Bool.false_eq_true, if_false]

theorem hook_at_appLoad (path : Text) (md : Int)
    (untested : state.test = false)
    (isApp : isAppLoad (.moduleLoad path md) = true) :
    sceKernelLoadStartModuleInternalForMonoHook api state path md =
      { state with
        appExeH := md
        finishBootHooked := api.finishBootFound
        test := true } := by
  have entered : (!state.test && decide (md > 0) &&
      decide (appExeSprx <:+: path)) = true := by
    rw [untested]
    exact isApp
  rw [sceKernelLoadStartModuleInternalForMonoHook]
  simp only [entered, if_true, runPost]

theorem hook_without_root (path : Text) (md : Int)
    (tested : state.test = true) (handle : 0 < state.appExeH)
    (noRoot : state.rootDomain = none) :
    sceKernelLoadStartModuleInternalForMonoHook api state path md =
      { state with rootDomain := api.monoGetRootDomain } := by
  rw [sceKernelLoadStartModuleInternalForMonoHook]
  simp [tested, handle, noRoot]

theorem hook_uploads (path : Text) (md : Int) (domain : Domain)
    (image : Image) (tested : state.test = true)
    (handle : 0 < state.appExeH) (root : state.rootDomain = some domain)
    (noImage : state.appExe = none) (fresh : state.once = false)
    (opened : monoGetImage api (some domain) appExePath = some image) :
    sceKernelLoadStartModuleInternalForMonoHook api state path md =
      { state with
        appExe := some image
        uploadNewPkgInstallerPath :=
          state.uploadNewPkgInstallerPath ++ [(image, state.appExeH)]
        uploadOnBranch := state.uploadOnBranch ++ [image]
        once := true } := by
  rw [sceKernelLoadStartModuleInternalForMonoHook]
  simp [tested, handle, root, noImage, fresh, opened]

variable (api) in
theorem hook_with_image (path : Text) (md : Int)
    (tested : state.test = true) (image : state.appExe.isSome = true) :
    sceKernelLoadStartModuleInternalForMonoHook api state path md = state ∨
      sceKernelLoadStartModuleInternalForMonoHook api state path md =
        { state with rootDomain := api.monoGetRootDomain } := by
  obtain ⟨found, appExe⟩ := Option.isSome_iff_exists.mp image
  rw [sceKernelLoadStartModuleInternalForMonoHook]
  simp only [tested, appExe, Bool.not_true, Bool.false_and, Bool.and_false,
    Option.isNone_some, Bool.false_eq_true, if_false, if_true]
  split
  · split
    · exact Or.inr rfl
    · exact Or.inl rfl
  · exact Or.inl rfl

variable (api state) in
/-- A load leaves the latches of the boot effect and the reader alone. -/
theorem hook_frame (path : Text) (md : Int) :
    (sceKernelLoadStartModuleInternalForMonoHook api state path
        md).finishBootOnce = state.finishBootOnce ∧
      (sceKernelLoadStartModuleInternalForMonoHook api state path
        md).uploadNewCorelibStreamReader =
          state.uploadNewCorelibStreamReader := by
  unfold sceKernelLoadStartModuleInternalForMonoHook runPost
  repeat' split
  all_goals exact ⟨rfl, rfl⟩

theorem finishBootEffect_once (latched : state.finishBootOnce = true) :
    finishBootEffect api state = state := by
  rw [finishBootEffect]
  simp [latched]

variable (api) in
theorem finishBootEffect_first (unlatched : state.finishBootOnce = false)
    (fresh : state.printTimeTickOnce = false) :
    finishBootEffect api state =
      { state with
        appExe :=
          match monoGetImage api state.rootDomain appExePath with
          | none => state.appExe
          | some image => some image
        uploadNewCorelibStreamReader :=
          state.uploadNewCorelibStreamReader ++ [state.rootDomain]
        printTimeTickOnce := true
        finishBootOnce := true } := by
  unfold finishBootEffect printTimeTick
  simp only [unlatched, fresh, Bool.not_false, if_true]
  cases monoGetImage api state.rootDomain appExePath <;> rfl

variable (api state) in
/-- The boot effect never runs `UploadOnBranch` and never clears `App_Exe`. -/
theorem finishBootEffect_frame :
    (finishBootEffect api state).test = state.test ∧
      (finishBootEffect api state).uploadOnBranch = state.uploadOnBranch ∧
      (finishBootEffect api state).finishBootOnce = true ∧
      (state.appExe.isSome = true →
        (finishBootEffect api state).appExe.isSome = true) := by
  unfold finishBootEffect printTimeTick
  cases latched : state.finishBootOnce with
  | true => simp [latched]
  | false =>
      cases ticked : state.printTimeTickOnce with
      | true => simp
      | false =>
          cases monoGetImage api state.rootDomain appExePath <;> simp

theorem step_finishBootOnce (event : Event)
    (taken : step api state event = some next) :
    next.finishBootOnce = (state.finishBootOnce || !isModuleLoad event) := by
  rcases step_cases event taken with ⟨path, md, rfl, rfl⟩ | ⟨rfl, -, rfl⟩
  · simp [isModuleLoad, hook_frame api state path md]
  · simp [isModuleLoad, finishBootEffect_frame api state]

end Steps

end HenPlugins.Mono.HookSetup
