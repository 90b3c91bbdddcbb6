import HenPlugins.Mono.HookSetup

/-!
# Which orders of events complete the set-up

After the load of `app.exe.sprx` the first further load fetches the root
domain and the second one uploads.  A boot effect before the second sets
`App_Exe` itself, so the upload is skipped for ever; before the first it runs
the reader upload without a root domain.
-/

set_option autoImplicit false

namespace HenPlugins.Mono.EventOrder

open HenPlugins.Lib.ByteText
open HenPlugins.Lib.EventRun
open HenPlugins.Mono.HookSetup

variable {Domain Assembly Image : Type} {api : MonoApi Domain Assembly Image}

/-- `UploadOnBranch` ran once, and after a boot effect so did
`UploadNewCorelibStreamReader`, with `Root_Domain` set. -/
def SetUpOnce (events : List Event) (final : HookState Domain Image) : Prop :=
  final.uploadOnBranch.length = 1 ∧
    (Event.bootEffect ∈ events →
      final.uploadNewCorelibStreamReader.length = 1 ∧
        ∀ root ∈ final.uploadNewCorelibStreamReader, root.isSome = true)

/-- The branch upload is done, and the reader upload too or still to come. -/
structure Uploaded (state : HookState Domain Image) : Prop where
  tested : state.test = true
  root : state.rootDomain.isSome = true
  image : state.appExe.isSome = true
  branch : state.uploadOnBranch.length = 1
  latches : state.printTimeTickOnce = state.finishBootOnce
  pending : state.finishBootOnce = false →
    state.uploadNewCorelibStreamReader = []
  reader : state.finishBootOnce = true →
    state.uploadNewCorelibStreamReader.length = 1 ∧
      ∀ root ∈ state.uploadNewCorelibStreamReader, root.isSome = true

/-- `App_Exe` is set and the branch upload has not run. -/
structure BranchLost (state : HookState Domain Image) : Prop where
  tested : state.test = true
  image : state.appExe.isSome = true
  branch : state.uploadOnBranch = []

/-- The reader upload has run without a root domain. -/
structure ReaderEarly (state : HookState Domain Image) : Prop where
  latched : state.finishBootOnce = true
  reader : none ∈ state.uploadNewCorelibStreamReader

theorem hook_unchanged {state : HookState Domain Image} (path : Text)
    (md : Int) (tested : state.test = true)
    (root : state.rootDomain.isSome = true)
    (image : state.appExe.isSome = true) :
    sceKernelLoadStartModuleInternalForMonoHook api state path md = state := by
  obtain ⟨domain, rootDomain⟩ := Option.isSome_iff_exists.mp root
  obtain ⟨found, appExe⟩ := Option.isSome_iff_exists.mp image
  rw [sceKernelLoadStartModuleInternalForMonoHook]
  simp [tested, rootDomain, appExe]

theorem uploaded_step (event : Event) (state next : HookState Domain Image)
    (uploaded : Uploaded state) (taken : step api state event = some next) :
    Uploaded next := by
  rcases step_cases event taken with ⟨path, md, rfl, rfl⟩ | ⟨rfl, -, rfl⟩
  · rw [hook_unchanged path md uploaded.tested uploaded.root uploaded.image]
    exact uploaded
  · cases latched : state.finishBootOnce with
    | true =>
        rw [finishBootEffect_once latched]
        exact uploaded
    | false =>
        have fresh : state.printTimeTickOnce = false := by
          rw [uploaded.latches, latched]
        have frame := finishBootEffect_frame api state
        have first := finishBootEffect_first api latched fresh
        have none := uploaded.pending latched
        refine ⟨?_, ?_, ?_, ?_, ?_, ?_, ?_⟩
        · rw [frame.1, uploaded.tested]
        · rw [first]
          exact uploaded.root
        · exact frame.2.2.2 uploaded.image
        · rw [frame.2.1, uploaded.branch]
        · rw [first]
        · intro unlatched
          rw [frame.2.2.1] at unlatched
          contradiction
        · intro _
          rw [first, none]
          simpa using uploaded.root

theorem branchLost_step (event : Event) (state next : HookState Domain Image)
    (lost : BranchLost state) (taken : step api state event = some next) :
    BranchLost next := by
  rcases step_cases event taken with ⟨path, md, rfl, rfl⟩ | ⟨rfl, -, rfl⟩
  · rcases hook_with_image api path md lost.tested lost.image with
      same | fetched
    · rw [same]
      exact lost
    · rw [fetched]
      exact ⟨lost.tested, lost.image, lost.branch⟩
  · obtain ⟨test, branch, -, image⟩ :=
      finishBootEffect_frame api state
    exact ⟨test.trans lost.tested, image lost.image, branch.trans lost.branch⟩

theorem readerEarly_step (event : Event) (state next : HookState Domain Image)
    (early : ReaderEarly state) (taken : step api state event = some next) :
    ReaderEarly next := by
  rcases step_cases event taken with ⟨path, md, rfl, rfl⟩ | ⟨rfl, -, rfl⟩
  · obtain ⟨latch, reader⟩ := hook_frame api state path md
    exact ⟨latch.trans early.latched, by rw [reader]; exact early.reader⟩
  · rw [finishBootEffect_once early.latched]
    exact early

/-- The state after the load of `app.exe.sprx`. -/
def appLoaded (api : MonoApi Domain Assembly Image) (handle : Int) :
    HookState Domain Image :=
  { start with
    appExeH := handle
    finishBootHooked := api.finishBootFound
    test := true }

theorem run_before_appLoad (front : List Event)
    (middle : HookState Domain Image)
    (clear : ∀ event ∈ front, isAppLoad event = false)
    (ran : run (step api) start front = some middle) : middle = start := by
  apply run_invariant (step api) (fun state => state = start) front _ start
    middle rfl ran
  intro event member state next initial taken
  rcases step_cases event taken with ⟨path, md, rfl, rfl⟩ | ⟨rfl, hooked, -⟩
  · rw [hook_before_appLoad path md (by rw [initial]; rfl)
      (clear _ member), initial]
  · rw [initial] at hooked
    contradiction

theorem run_to_appLoad (front : List Event) (app : Event)
    (middle : HookState Domain Image)
    (clear : ∀ event ∈ front, isAppLoad event = false)
    (isApp : isAppLoad app = true)
    (ran : run (step api) start (front ++ [app]) = some middle) :
    ∃ handle, 0 < handle ∧ middle = appLoaded api handle := by
  obtain ⟨before, first, last⟩ := run_append (step api) _ _ _ _ ran
  rw [run_before_appLoad front before clear first] at last
  obtain ⟨next, taken, rest⟩ := run_cons (step api) _ _ _ _ last
  cases Option.some.inj rest
  rcases step_cases app taken with ⟨path, md, rfl, rfl⟩ | ⟨rfl, -, -⟩
  · refine ⟨md, ?_, hook_at_appLoad path md rfl isApp⟩
    simp only [isAppLoad, Bool.and_eq_true, decide_eq_true_eq] at isApp
    exact isApp.1
  · contradiction

theorem load_of_isModuleLoad (event : Event)
    (isLoad : isModuleLoad event = true) :
    ∃ path md, event = .moduleLoad path md := by
  cases event with
  | moduleLoad path md => exact ⟨path, md, rfl⟩
  | bootEffect => contradiction

theorem boot_of_not_isModuleLoad (event : Event)
    (isBoot : isModuleLoad event = false) : event = .bootEffect := by
  cases event with
  | moduleLoad path md => contradiction
  | bootEffect => rfl

section Phases
variable (domain : Domain) (ready : api.monoGetRootDomain = some domain)
  (image : Image)
  (opened : monoGetImage api (some domain) appExePath = some image)
  (handle : Int) (positive : 0 < handle)

/-- The state after one further load. -/
def rootFetched (api : MonoApi Domain Assembly Image) (domain : Domain)
    (handle : Int) : HookState Domain Image :=
  { appLoaded api handle with rootDomain := some domain }

include ready positive in
theorem first_load (event : Event) (isLoad : isModuleLoad event = true)
    (next : HookState Domain Image)
    (taken : step api (appLoaded api handle) event = some next) :
    next = rootFetched api domain handle := by
  obtain ⟨path, md, rfl⟩ := load_of_isModuleLoad event isLoad
  cases Option.some.inj taken
  rw [hook_without_root path md rfl positive rfl, ready]
  rfl

include opened positive in
theorem second_load (event : Event) (isLoad : isModuleLoad event = true)
    (next : HookState Domain Image)
    (taken : step api (rootFetched api domain handle) event = some next) :
    Uploaded next := by
  obtain ⟨path, md, rfl⟩ := load_of_isModuleLoad event isLoad
  cases Option.some.inj taken
  rw [hook_uploads path md domain image rfl positive rfl rfl rfl opened]
  exact ⟨rfl, rfl, rfl, rfl, rfl, fun _ => rfl, fun latched => by
    contradiction⟩

/-- A boot effect as the first event uploads the reader without a domain. -/
theorem boot_before_first_load (next : HookState Domain Image)
    (taken : step api (appLoaded api handle) .bootEffect = some next) :
    ReaderEarly next := by
  rcases step_cases _ taken with ⟨path, md, clash, -⟩ | ⟨-, -, rfl⟩
  · contradiction
  · rw [finishBootEffect_first api rfl rfl]
    exact ⟨rfl, by simp [appLoaded, start]⟩

include opened in
/-- A boot effect between the two loads takes `App_Exe` away. -/
theorem boot_before_second_load (next : HookState Domain Image)
    (taken : step api (rootFetched api domain handle) .bootEffect =
      some next) : BranchLost next := by
  rcases step_cases _ taken with ⟨path, md, clash, -⟩ | ⟨-, -, rfl⟩
  · contradiction
  · rw [finishBootEffect_first api rfl rfl]
    refine ⟨rfl, ?_, rfl⟩
    simp [rootFetched, opened]

end Phases

theorem two_events (events : List Event)
    (two : 2 ≤ events.countP isModuleLoad) :
    ∃ first second rest, events = first :: second :: rest := by
  have long := Nat.le_trans two List.countP_le_length
  match events, long with
  | first :: second :: rest, _ => exact ⟨first, second, rest, rfl⟩

theorem not_setUpOnce_of_branchLost (events rest : List Event)
    (state final : HookState Domain Image) (lost : BranchLost state)
    (ran : run (step api) state rest = some final) :
    ¬ SetUpOnce events final := by
  have still := run_invariant (step api) BranchLost rest
    (fun event _ => branchLost_step event) state final lost ran
  intro done
  rw [SetUpOnce, still.branch] at done
  exact absurd done.1 (by simp)

theorem not_setUpOnce_of_readerEarly (events rest : List Event)
    (booted : Event.bootEffect ∈ events)
    (state final : HookState Domain Image) (early : ReaderEarly state)
    (ran : run (step api) state rest = some final) :
    ¬ SetUpOnce events final := by
  have still := run_invariant (step api) ReaderEarly rest
    (fun event _ => readerEarly_step event) state final early ran
  intro done
  have present := (done.2 booted).2 none still.reader
  contradiction

theorem setUpOnce_of_uploaded (events : List Event)
    (final : HookState Domain Image) (uploaded : Uploaded final)
    (ran : run (step api) start events = some final) :
    SetUpOnce events final := by
  refine ⟨uploaded.branch, ?_⟩
  intro booted
  apply uploaded.reader
  rw [run_latch (step api) (fun state => state.finishBootOnce)
    (fun event => !isModuleLoad event)
    (fun _ event _ => step_finishBootOnce event) _ _ _ ran]
  have seen : (events.any fun event => !isModuleLoad event) = true :=
    List.any_eq_true.mpr ⟨_, booted, rfl⟩
  rw [seen, Bool.or_true]

/-- In every trace with a load of `app.exe.sprx` and two more loads the set-up
is complete exactly when no boot effect comes before the second of these. -/
theorem setUpOnce_iff (rootReady : api.monoGetRootDomain ≠ none)
    (imageReady : ∀ domain,
      monoGetImage api (some domain) appExePath ≠ none)
    (events : List Event) (loaded : LoadedThenTwo events)
    (final : HookState Domain Image)
    (ran : run (step api) start events = some final) :
    SetUpOnce events final ↔
      ((afterAppLoad events).take 2).all isModuleLoad = true := by
  obtain ⟨domain, ready⟩ := Option.ne_none_iff_exists'.mp rootReady
  obtain ⟨image, opened⟩ := Option.ne_none_iff_exists'.mp (imageReady domain)
  obtain ⟨two, front, app, split, isApp, clear⟩ :=
    split_at_appLoad events loaded
  obtain ⟨first, second, rest, after⟩ := two_events _ two
  have regroup : events = (front ++ [app]) ++ first :: second :: rest := by
    rw [split, after]
    simp
  have whole := ran
  rw [regroup] at ran
  obtain ⟨middle, toApp, fromApp⟩ := run_append (step api) _ _ _ _ ran
  obtain ⟨handle, positive, rfl⟩ :=
    run_to_appLoad front app middle clear isApp toApp
  obtain ⟨afterFirst, firstTaken, fromFirst⟩ :=
    run_cons (step api) _ _ _ _ fromApp
  obtain ⟨afterSecond, secondTaken, later⟩ :=
    run_cons (step api) _ _ _ _ fromFirst
  rw [after]
  cases firstKind : isModuleLoad first with
  | false =>
      cases boot_of_not_isModuleLoad first firstKind
      have early := boot_before_first_load handle _ firstTaken
      have incomplete := not_setUpOnce_of_readerEarly events rest
        (by simp [regroup]) _ final
        (readerEarly_step second _ _ early secondTaken) later
      simp [incomplete, isModuleLoad]
  | true =>
      cases first_load domain ready handle positive first firstKind _
        firstTaken
      cases secondKind : isModuleLoad second with
      | false =>
          cases boot_of_not_isModuleLoad second secondKind
          have lost := boot_before_second_load domain image opened handle _
            secondTaken
          have incomplete := not_setUpOnce_of_branchLost events rest _ final
            lost later
          simp [incomplete, isModuleLoad]
      | true =>
          have uploaded := second_load domain image opened handle positive
            second secondKind _ secondTaken
          have still := run_invariant (step api) Uploaded rest
            (fun event _ => uploaded_step event) _ final uploaded later
          have complete := setUpOnce_of_uploaded events final still whole
          simp [complete, firstKind, secondKind]

/-- A runtime that opens every assembly. -/
def readyApi : MonoApi Unit Unit Unit :=
  { monoGetRootDomain := some ()
    monoDomainAssemblyOpen := fun _ _ => some ()
    monoAssemblyGetImage := fun _ => some ()
    finishBootFound := true }

def laterBoot : List Event :=
  [.moduleLoad appExeSprx 5, .moduleLoad (ascii "a.sprx") 6,
    .moduleLoad (ascii "b.sprx") 7, .bootEffect]

theorem setUpOnce_laterBoot :
    ∃ final, run (step readyApi) start laterBoot = some final ∧
      SetUpOnce laterBoot final :=
  ⟨_, rfl, (@setUpOnce_iff Unit Unit Unit readyApi (by decide)
    (fun _ => Option.some_ne_none ()) laterBoot
    ⟨[], _, _, rfl, by decide, by decide⟩ _ rfl).mpr (by decide)⟩

def earlyBoot : List Event :=
  [.moduleLoad appExeSprx 5, .moduleLoad (ascii "a.sprx") 6, .bootEffect,
    .moduleLoad (ascii "b.sprx") 7]

/-- A boot effect between the two further loads: the branch upload never
runs. -/
theorem earlyBoot_not_setUpOnce :
    ∃ final, run (step readyApi) start earlyBoot = some final ∧
      LoadedThenTwo earlyBoot ∧ ¬ SetUpOnce earlyBoot final :=
  ⟨_, rfl, ⟨[], _, _, rfl, by decide, by decide⟩,
    fun done => absurd done.1 (by decide)⟩

end HenPlugins.Mono.EventOrder
