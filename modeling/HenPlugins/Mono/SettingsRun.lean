import HenPlugins.Ini.TidyStore
import HenPlugins.Lib.EventRun
import HenPlugins.Mono.PageTracking
import HenPlugins.Settings.ReadSetting

/-!
# The settings pages over a whole run

What the user does on the two pages is stated over two maps from ids to values.
The callbacks keep the files in step with these maps, through every rewrite of
a file, and an element that is created shows what its map says.
-/

set_option autoImplicit false

namespace HenPlugins.Mono.SettingsRun

open HenPlugins.Lib.ByteText
open HenPlugins.Lib.EventRun
open HenPlugins.Lib.LabelledChain
open HenPlugins.Ini.Text
open HenPlugins.Ini.Store
open HenPlugins.Ini.Load
open HenPlugins.Ini.Save
open HenPlugins.Ini.Loaded
open HenPlugins.Ini.StoreMap
open HenPlugins.Ini.TidyStore
open HenPlugins.Loader.LoadPlugins
open HenPlugins.Settings.LocalSettings
open HenPlugins.Settings.ReadSetting
open HenPlugins.Mono.SettingsPages
open HenPlugins.Mono.PageTracking

/-! ## What the pages are for -/

inductive SettingsPage where
  | payload
  | plugins
  deriving DecidableEq

def SettingsPage.iniPath : SettingsPage → Text
  | .payload => hddIniPath
  | .plugins => pluginsIniPath

def SettingsPage.iniSection : SettingsPage → Text
  | .payload => henSection
  | .plugins => pluginsAllSection

def SettingsPage.target (page : SettingsPage) : Text × Text :=
  (page.iniPath, page.iniSection)

def pageOf (id : WideText) : Option SettingsPage :=
  if id = payloadOptions then some .payload
  else if id = idPluginManager then some .plugins
  else none

/-- The page that is open, and what is stored for each page. -/
structure Settings where
  current : Option SettingsPage
  stored : SettingsPage → AbstractStore

inductive UiEvent where
  | pageActivating (uPush : UInt32) (id : WideText)
  | pageDeactivating (id : WideText)
  | press (id value : Text) (type : UInt32)
  | preCreate (id value : Text) (type : UInt32)
  deriving DecidableEq

/-- The page an element of this type belongs to. -/
def Settings.pageFor (settings : Settings) (type : UInt32) :
    Option SettingsPage :=
  if isValidElementType type then settings.current else none

def Settings.value (settings : Settings) (page : SettingsPage) (id : Text) :
    Option Text :=
  (settings.stored page).get page.iniSection id

def Settings.store (settings : Settings) (page : SettingsPage)
    (id value : Text) : Settings :=
  { settings with
    stored := Function.update settings.stored page
      ((settings.stored page).set page.iniSection id value) }

/-- A press stores the value; an element that is created is off unless
something is stored for it. -/
def Settings.apply (settings : Settings) : UiEvent → Settings
  | .pageActivating uPush id =>
      if uPush = onPush ∨ uPush = onPop then
        { settings with current := pageOf id }
      else settings
  | .pageDeactivating _ => { settings with current := none }
  | .press id value type =>
      match settings.pageFor type with
      | some page => settings.store page id value
      | none => settings
  | .preCreate id _ type =>
      match settings.pageFor type with
      | some page =>
          if settings.value page id = none then
            settings.store page id (ascii "0")
          else settings
      | none => settings

/-- The value that the element is given, if any. -/
def Settings.shown (settings : Settings) (id : Text) (type : UInt32) :
    Option Text :=
  ((settings.pageFor type).bind fun page => settings.value page id).filter
    (· ≠ [])

/-! ## The callbacks -/

def UiEvent.handle (state : PageState) : UiEvent → PageState
  | .pageActivating uPush id => newOnPageActivating state uPush id
  | .pageDeactivating id => newOnPageDeactivating state id
  | .press id value type => newOnPress state id value type
  | .preCreate id value type => (newOnPreCreate state id value type []).1

/-- No other page has the hash of one of the two, and where an element is of a
type that is stored, its id and value are written as they are. -/
def UiEvent.Clean : UiEvent → Prop
  | .pageActivating _ id =>
      pageTarget (toStringId64W id) = (pageOf id).map SettingsPage.target
  | .pageDeactivating _ => True
  | .press id value type => isValidElementType type = true →
      ∀ page : SettingsPage, TidySetting page.iniSection id value
  | .preCreate id _ type => isValidElementType type = true →
      ∀ page : SettingsPage, TidySetting page.iniSection id (ascii "0")

instance decidableOnPages (holds : SettingsPage → Prop) [∀ page, Decidable (holds page)] :
    Decidable (∀ page, holds page) :=
  decidable_of_iff (holds .payload ∧ holds .plugins)
    ⟨fun both page => by cases page; exacts [both.1, both.2],
      fun every => ⟨every .payload, every .plugins⟩⟩

instance : (event : UiEvent) → Decidable event.Clean
  | .pageActivating _ _ => inferInstanceAs (Decidable (_ = _))
  | .pageDeactivating _ => inferInstanceAs (Decidable True)
  | .press _ _ _ => inferInstanceAs (Decidable (_ → ∀ _ : SettingsPage, _))
  | .preCreate _ _ _ =>
      inferInstanceAs (Decidable (_ → ∀ _ : SettingsPage, _))

/-- The files are in step with the maps. -/
structure InStep (state : PageState) (settings : Settings) : Prop where
  recorded : pageTarget state.gPageID =
    settings.current.map SettingsPage.target
  holds : ∀ page : SettingsPage,
    FileHolds state.files page.iniPath (settings.stored page)

/-- What one event does. -/
structure StepInStep (state : PageState × Settings) (event : UiEvent) :
    Prop where
  after : InStep (event.handle state.1) (state.2.apply event)
  shown : ∀ id value type beyond, event = .preCreate id value type →
    (newOnPreCreate state.1 id value type beyond).2.value =
      state.2.shown id type
  frame : ∀ path, (∀ page : SettingsPage, path ≠ page.iniPath) →
    (event.handle state.1).files path = state.1.files path

def uiNext (state : PageState × Settings) (event : UiEvent) :
    PageState × Settings :=
  (event.handle state.1, state.2.apply event)

/-! ## One callback -/

theorem iniPath_injective (page other : SettingsPage)
    (differ : other ≠ page) : other.iniPath ≠ page.iniPath := by
  cases page <;> cases other <;> first | contradiction | decide

/-- The files after `ini_set` and `ini_save`. -/
def storedFiles (files : Files) (page : SettingsPage) (id value : Text) :
    Files :=
  (iniSave files (iniSet (iniLoad files page.iniPath) page.iniSection id
    value).1).1

theorem storedFiles_frame (files : Files) (page : SettingsPage)
    (id value path : Text)
    (elsewhere : ∀ page : SettingsPage, path ≠ page.iniPath) :
    storedFiles files page id value path = files path :=
  iniSave_other files path page.iniPath page.iniSection id value
    (elsewhere page)

theorem valid_of_pageFor (settings : Settings) (type : UInt32)
    (page : SettingsPage) (opened : settings.pageFor type = some page) :
    isValidElementType type = true := by
  rw [Settings.pageFor] at opened
  by_contra invalid
  rw [if_neg invalid] at opened
  contradiction

section Callback
variable {state : PageState} {settings : Settings}
  (inStep : InStep state settings)
include inStep

theorem pageTarget_pageFor (type : UInt32)
    (valid : isValidElementType type = true) :
    pageTarget state.gPageID =
      (settings.pageFor type).map SettingsPage.target := by
  rw [Settings.pageFor, if_pos valid]
  exact inStep.recorded

theorem inStep_store (page : SettingsPage) (id value : Text)
    (setting : TidySetting page.iniSection id value) (later : PageState)
    (sameFiles : later.files = storedFiles state.files page id value)
    (samePage : later.gPageID = state.gPageID) :
    InStep later (settings.store page id value) := by
  refine ⟨?_, ?_⟩
  · rw [samePage]
    exact inStep.recorded
  · intro other
    rw [sameFiles]
    by_cases same : other = page
    · subst same
      simp only [Settings.store, Function.update_self]
      exact (inStep.holds other).set setting
    · simp only [Settings.store, Function.update_of_ne same]
      exact (inStep.holds other).congr
        (iniSave_other _ _ _ _ _ _ (iniPath_injective page other same))

theorem inStep_same (later : PageState) (sameFiles : later.files = state.files)
    (samePage : later.gPageID = state.gPageID) : InStep later settings := by
  refine ⟨?_, ?_⟩
  · rw [samePage]
    exact inStep.recorded
  · intro page
    rw [sameFiles]
    exact inStep.holds page

theorem pressStore_eq (id value : Text) (type : UInt32) :
    pressStore state id value type =
      match settings.pageFor type with
      | some page => storedFiles state.files page id value
      | none => state.files := by
  rw [pressStore]
  by_cases valid : isValidElementType type = true
  · rw [if_pos valid, pageTarget_pageFor inStep type valid]
    cases settings.pageFor type with
    | none => rfl
    | some page => rfl
  · rw [if_neg valid, Settings.pageFor, if_neg valid]

theorem iniGet_page (page : SettingsPage) (id : Text) :
    iniGet (iniLoad state.files page.iniPath) page.iniSection id =
      settings.value page id := by
  rw [iniGet_eq_get, (inStep.holds page).same, Settings.value]

theorem stored_short (page : SettingsPage) (id value : Text)
    (found : settings.value page id = some value) :
    value.length ≤ valueMax ∧ 0 ∉ value := by
  rw [← iniGet_page inStep] at found
  obtain ⟨current, listed, -, key, keyListed, -, rfl⟩ :=
    mem_of_iniGet _ _ _ value found
  have tidy := (inStep.holds page).tidy
  have safe := ((tidy.loaded.sections current listed).keys key
    keyListed).valueText
  refine ⟨((tidy.sections current listed).keys key keyListed).short, ?_⟩
  intro member
  exact absurd (safe 0 member) (by decide)

end Callback

/-- What the read of an element leaves in the files and in `buf`. -/
inductive ReadEffect (state : PageState) (settings : Settings) (id : Text)
    (type : UInt32) : Files × Text → Prop where
  | unread (closed : settings.pageFor type = none) :
      ReadEffect state settings id type
        (state.files, List.replicate preCreateBufSize 0)
  | found (page : SettingsPage) (value buf : Text)
      (opened : settings.pageFor type = some page)
      (stored : settings.value page id = some value)
      (holds : HoldsString preCreateBufSize buf value) :
      ReadEffect state settings id type (state.files, buf)
  | fresh (page : SettingsPage) (opened : settings.pageFor type = some page)
      (missing : settings.value page id = none) :
      ReadEffect state settings id type
        (storedFiles state.files page id (ascii "0"),
          List.replicate preCreateBufSize 0)

theorem preCreateRead_effect {state : PageState} {settings : Settings}
    (inStep : InStep state settings) (id value : Text) (type : UInt32) :
    ReadEffect state settings id type (preCreateRead state id value type) := by
  by_cases valid : isValidElementType type = true
  · cases opened : settings.pageFor type with
    | none =>
        have none' : pageTarget state.gPageID = none := by
          rw [pageTarget_pageFor inStep type valid, opened, Option.map_none]
        simp only [preCreateRead, if_pos valid, none']
        exact .unread opened
    | some page =>
        have named : pageTarget state.gPageID =
            some (page.iniPath, page.iniSection) := by
          rw [pageTarget_pageFor inStep type valid, opened, Option.map_some]
          rfl
        have got := iniGet_page inStep page id
        cases stored : settings.value page id with
        | none =>
            rw [stored] at got
            simp only [preCreateRead, if_pos valid, named,
              readWriteLocalSettings, got, if_true]
            exact .fresh page opened stored
        | some text =>
            obtain ⟨short, ends⟩ := stored_short inStep page id text stored
            rw [valueMax] at short
            rw [stored] at got
            have holds := holdsString_copyOver preCreateBufSize text.length
              text (by rw [preCreateBufSize]; omega) (Nat.le_refl _) ends
            rw [List.take_length] at holds
            have uncut : ¬ text.length > preCreateBufSize := by
              rw [preCreateBufSize]
              omega
            simp only [preCreateRead, if_pos valid, named,
              readWriteLocalSettings, got, if_true, Option.getD_some,
              if_neg uncut]
            exact .found page text _ opened stored holds
  · have closed : settings.pageFor type = none := by
      rw [Settings.pageFor, if_neg valid]
    simp only [preCreateRead, if_neg valid]
    exact .unread closed

/-- What `Mono_New_String` makes of a buffer that holds a string. -/
theorem bufferText (size : Nat) (buf text beyond : Text)
    (holds : HoldsString size buf text) :
    (if buf.headD 0 != 0 then some (before 0 (buf ++ beyond)) else none) =
      (some text).filter (· ≠ []) := by
  have string := holds.string
  cases buf with
  | nil => exact absurd holds.terminated List.not_mem_nil
  | cons first rest =>
      by_cases ended : first = 0
      · subst ended
        have empty : text = [] := by
          rw [← string, before]
          rfl
        simp [empty, Option.filter]
      · have filled : text ≠ [] := by
          rw [← string, before, List.takeWhile_cons_of_pos (by simpa using ended)]
          exact List.cons_ne_nil _ _
        have whole : before 0 (first :: rest ++ beyond) = text := by
          obtain ⟨front, back, split, absent⟩ :=
            List.eq_append_cons_of_mem holds.terminated
          rw [split, List.append_assoc, List.cons_append,
            before_append_of_not_mem 0 front _ absent]
          rw [split, before_append_of_not_mem 0 front _ absent] at string
          exact string
        rw [whole]
        simp [ended, filled, Option.filter]

theorem holdsString_zero :
    HoldsString preCreateBufSize (List.replicate preCreateBufSize 0) [] := by
  refine ⟨List.length_replicate, ?_, ?_⟩
  · rw [preCreateBufSize, List.replicate_succ]
    rfl
  · rw [preCreateBufSize, List.replicate_succ]
    exact List.mem_cons_self ..

/-! ## One event -/

section Event
variable {state : PageState} {settings : Settings}
  (inStep : InStep state settings)
include inStep

theorem newOnPreCreate_shown (id value : Text) (type : UInt32)
    (beyond : Text) :
    (newOnPreCreate state id value type beyond).2.value =
      settings.shown id type := by
  have effect := preCreateRead_effect inStep id value type
  have valid := valid_of_pageFor settings type
  simp only [newOnPreCreate]
  generalize preCreateRead state id value type = read at effect ⊢
  cases effect with
  | unread closed =>
      have empty := bufferText _ _ _ beyond holdsString_zero
      rw [Settings.shown, closed]
      by_cases valid : isValidElementType type = true
      · rw [valid, Bool.true_and, empty]
        rfl
      · simp [valid]
  | found page text buf opened stored holds =>
      rw [valid page opened, Bool.true_and, bufferText _ _ _ beyond holds,
        Settings.shown, opened, Option.bind_some, stored]
  | fresh page opened missing =>
      rw [valid page opened, Bool.true_and,
        bufferText _ _ _ beyond holdsString_zero, Settings.shown, opened,
        Option.bind_some, missing]
      rfl

theorem inStep_pageActivating (uPush : UInt32) (id : WideText)
    (clean : (UiEvent.pageActivating uPush id).Clean) :
    InStep (newOnPageActivating state uPush id)
      (settings.apply (.pageActivating uPush id)) := by
  by_cases recorded : uPush = onPush ∨ uPush = onPop
  · have taken : (uPush == onPush || uPush == onPop) = true := by
      simpa using recorded
    simp only [newOnPageActivating, taken, if_true, Settings.apply,
      if_pos recorded]
    exact ⟨clean, inStep.holds⟩
  · have skipped : (uPush == onPush || uPush == onPop) = false := by
      simpa using recorded
    simp only [newOnPageActivating, skipped, Bool.false_eq_true, if_false,
      Settings.apply, if_neg recorded]
    exact inStep

theorem inStep_press (id value : Text) (type : UInt32)
    (clean : (UiEvent.press id value type).Clean) :
    InStep (newOnPress state id value type)
      (settings.apply (.press id value type)) := by
  have pressed := pressStore_eq inStep id value type
  rw [Settings.apply]
  cases opened : settings.pageFor type with
  | none =>
      rw [opened] at pressed
      exact inStep_same inStep _ pressed rfl
  | some page =>
      rw [opened] at pressed
      exact inStep_store inStep page id value
        (clean (valid_of_pageFor settings type page opened) page) _ pressed
        rfl

theorem inStep_preCreate (id value : Text) (type : UInt32)
    (clean : (UiEvent.preCreate id value type).Clean) :
    InStep (newOnPreCreate state id value type []).1
      (settings.apply (.preCreate id value type)) := by
  have effect := preCreateRead_effect inStep id value type
  have files : (newOnPreCreate state id value type []).1.files =
      (preCreateRead state id value type).1 := rfl
  generalize preCreateRead state id value type = read at effect files
  rw [Settings.apply]
  cases effect with
  | unread closed =>
      rw [closed]
      exact inStep_same inStep _ files rfl
  | found page text buf opened stored holds =>
      simp only [opened, stored, reduceCtorEq, if_false]
      exact inStep_same inStep _ files rfl
  | fresh page opened missing =>
      simp only [opened, missing, if_true]
      exact inStep_store inStep page id (ascii "0")
        (clean (valid_of_pageFor settings type page opened) page) _ files rfl

theorem stepInStep (event : UiEvent) (clean : event.Clean) :
    StepInStep (state, settings) event := by
  refine ⟨?_, ?_, ?_⟩
  · cases event with
    | pageActivating uPush id => exact inStep_pageActivating inStep uPush id clean
    | pageDeactivating id => exact ⟨rfl, inStep.holds⟩
    | press id value type => exact inStep_press inStep id value type clean
    | preCreate id value type =>
        exact inStep_preCreate inStep id value type clean
  · intro id value type beyond _
    exact newOnPreCreate_shown inStep id value type beyond
  · intro path elsewhere
    cases event with
    | pageActivating uPush id =>
        simp only [UiEvent.handle, newOnPageActivating]
        split <;> rfl
    | pageDeactivating id => rfl
    | press id value type =>
        have pressed := pressStore_eq inStep id value type
        show pressStore state id value type path = _
        rw [pressed]
        cases settings.pageFor type with
        | none => rfl
        | some page => exact storedFiles_frame _ page id value path elsewhere
    | preCreate id value type =>
        have effect := preCreateRead_effect inStep id value type
        show (preCreateRead state id value type).1 path = _
        generalize preCreateRead state id value type = read at effect ⊢
        cases effect with
        | unread closed => rfl
        | found page text buf opened stored holds => rfl
        | fresh page opened missing =>
            exact storedFiles_frame _ page id _ path elsewhere

end Event

/-! ## Runs -/

theorem everyStep_inStep (events : List UiEvent)
    (clean : ∀ event ∈ events, event.Clean) (state : PageState × Settings)
    (inStep : InStep state.1 state.2) :
    EveryStep uiNext StepInStep state events := by
  induction events generalizing state with
  | nil => trivial
  | cons event events ih =>
      obtain ⟨first, later⟩ := List.forall_mem_cons.mp clean
      have step := stepInStep inStep event first
      exact ⟨step, ih later _ step.after⟩

theorem foldl_inStep (events : List UiEvent)
    (clean : ∀ event ∈ events, event.Clean) (state : PageState × Settings)
    (inStep : InStep state.1 state.2) :
    InStep (events.foldl uiNext state).1 (events.foldl uiNext state).2 ∧
      ∀ path, (∀ page : SettingsPage, path ≠ page.iniPath) →
        (events.foldl uiNext state).1.files path = state.1.files path := by
  induction events generalizing state with
  | nil => exact ⟨inStep, fun _ _ => rfl⟩
  | cons event events ih =>
      obtain ⟨first, later⟩ := List.forall_mem_cons.mp clean
      have step := stepInStep inStep event first
      obtain ⟨after, frame⟩ := ih later (uiNext state event) step.after
      refine ⟨after, ?_⟩
      intro path elsewhere
      exact (frame path elsewhere).trans (step.frame path elsewhere)

/-- No page is open, and the maps are those of the files. -/
def Settings.opened (files : Files) : Settings where
  current := none
  stored page := storeMap (iniLoad files page.iniPath)

/-- Both files are tidy. -/
def TidyFiles (files : Files) : Prop :=
  ∀ page : SettingsPage, Tidy (iniLoad files page.iniPath)

theorem inStep_opened (files : Files) (tidy : TidyFiles files) :
    InStep (start files) (Settings.opened files) :=
  ⟨rfl, fun page => ⟨tidy page, rfl⟩⟩

def onePlugin : Text := ascii "/data/hen/plugins/a.prx"

def onePluginOn : Files :=
  singleFile pluginsIniPath
    (ascii "; plugins\n[all] ; every title\n/data/hen/plugins/a.prx = 1\n")

/-- The plugin is switched off and the manager is opened again; the element
in front of it is of a type that is not stored. -/
def switchOff : List UiEvent :=
  [.pageActivating onPush idPluginManager,
    .preCreate (ascii "a;b") [] 0,
    .preCreate onePlugin (ascii "0") elementToggleSwitch,
    .press onePlugin (ascii "0") elementToggleSwitch,
    .pageDeactivating idPluginManager,
    .pageActivating onPush idPluginManager,
    .preCreate onePlugin (ascii "0") elementToggleSwitch]

theorem onePluginOn_tidy : TidyFiles onePluginOn := by
  intro page
  cases page with
  | payload => exact tidy_missing _ _ (by decide)
  | plugins => exact ⟨iniLoad_loaded _ _, ⟨by decide, by decide⟩, by decide⟩

end HenPlugins.Mono.SettingsRun
