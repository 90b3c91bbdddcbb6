import HenPlugins.Lib.EventRun
import HenPlugins.Mono.SettingsPages

/-!
# The page a toggle is stored for

Activating a page records it and deactivating any page records none, so the
recorded page is the most recently activated one for as long as no page is
deactivated under another active one.
-/

set_option autoImplicit false

namespace HenPlugins.Mono.PageTracking

open HenPlugins.Lib.ByteText
open HenPlugins.Lib.EventRun
open HenPlugins.Ini.Load
open HenPlugins.Loader.LoadPlugins
open HenPlugins.Settings.LocalSettings
open HenPlugins.Mono.SettingsPages

/-- A page object; two of them may carry one id. -/
structure Page where
  object : Nat
  id : WideText
  deriving DecidableEq

inductive Transition where
  | push
  | pop
  deriving DecidableEq

def Transition.code : Transition → UInt32
  | .push => onPush
  | .pop => onPop

inductive PageEvent where
  | activating (transition : Transition) (page : Page)
  | deactivating (page : Page)
  deriving DecidableEq

def handle (state : PageState) : PageEvent → PageState
  | .activating transition page =>
      newOnPageActivating state transition.code page.id
  | .deactivating page => newOnPageDeactivating state page.id

/-- The pages activated and not deactivated since, the latest in front. -/
def activePages (pages : List Page) : PageEvent → List Page
  | .activating _ page => page :: pages.filter (· ≠ page)
  | .deactivating page => pages.filter (· ≠ page)

/-- The id hash of the latest active page, 0 if there is none. -/
def latestHash (pages : List Page) : UInt64 :=
  match pages with
  | [] => 0
  | page :: _ => toStringId64W page.id

/-- A pressed toggle or list of the page is written to the page's file. -/
def PressStored (state : PageState) (page : Page) : Prop :=
  ∀ id value type, isValidElementType type = true →
    (page.id = payloadOptions →
      (newOnPress state id value type).files =
        (readWriteLocalSettings state.files hddIniPath henSection id value
          false [] 0).1) ∧
    (page.id = idPluginManager →
      (newOnPress state id value type).files =
        (readWriteLocalSettings state.files pluginsIniPath pluginsAllSection
          id value false [] 0).1)

/-- `g_PageID` names the latest active page, and a press on that page is
stored. -/
structure PageTracked (state : PageState) (pages : List Page) : Prop where
  recorded : state.gPageID = latestHash pages
  stored : ∀ page ∈ pages.head?, PressStored state page

theorem pageTarget_payloadOptions :
    pageTarget (toStringId64W payloadOptions) =
      some (hddIniPath, henSection) := by
  rw [pageTarget, if_pos (beq_self_eq_true _)]

theorem pageTarget_idPluginManager :
    pageTarget (toStringId64W idPluginManager) =
      some (pluginsIniPath, pluginsAllSection) := by
  have differ : (toStringId64W idPluginManager ==
      toStringId64W payloadOptions) = false := by
    decide
  rw [pageTarget, differ, if_neg Bool.false_ne_true,
    if_pos (beq_self_eq_true _)]

/-- The press finds its file through `g_PageID` alone. -/
theorem pressStored_of_recorded (state : PageState) (page : Page)
    (recorded : state.gPageID = toStringId64W page.id) :
    PressStored state page := by
  intro id value type valid
  refine ⟨?_, ?_⟩
  · intro named
    rw [named] at recorded
    simp only [newOnPress, pressStore, if_pos valid, recorded,
      pageTarget_payloadOptions]
  · intro named
    rw [named] at recorded
    simp only [newOnPress, pressStore, if_pos valid, recorded,
      pageTarget_idPluginManager]

theorem pageTracked_iff (state : PageState) (pages : List Page) :
    PageTracked state pages ↔ state.gPageID = latestHash pages := by
  constructor
  · intro tracked
    exact tracked.recorded
  · intro recorded
    refine ⟨recorded, ?_⟩
    intro page latest
    cases pages with
    | nil => simp at latest
    | cons first rest =>
        cases Option.some.inj latest
        exact pressStored_of_recorded state page recorded

def next (state : PageState × List Page) (event : PageEvent) :
    PageState × List Page :=
  (handle state.1 event, activePages state.2 event)

/-- After the event the latest active page is tracked. -/
def StaysTracked (state : PageState × List Page) (event : PageEvent) : Prop :=
  PageTracked (next state event).1 (next state event).2

/-- A deactivation leaves no active page behind, or one whose id hash is 0. -/
def LeavesNone (state : PageState × List Page) : PageEvent → Prop
  | .activating _ _ => True
  | .deactivating page =>
      latestHash (activePages state.2 (.deactivating page)) = 0

instance (state : PageState × List Page) :
    (event : PageEvent) → Decidable (LeavesNone state event)
  | .activating _ _ => inferInstanceAs (Decidable True)
  | .deactivating _ => inferInstanceAs (Decidable (_ = _))

/-- The state before any page is shown. -/
def start (files : Files) : PageState :=
  { gPageID := 0
    gPluginsRunThread := 0
    files
    pluginLists := 0
    shellKilled := false }

theorem handle_activating (state : PageState) (transition : Transition)
    (page : Page) :
    (handle state (.activating transition page)).gPageID =
      toStringId64W page.id := by
  cases transition <;> rfl

theorem staysTracked_iff (state : PageState × List Page) (event : PageEvent) :
    StaysTracked state event ↔ LeavesNone state event := by
  rw [StaysTracked, pageTracked_iff]
  cases event with
  | activating transition page =>
      exact iff_of_true (handle_activating state.1 transition page) trivial
  | deactivating page => exact eq_comm

/-- In a sequence of activations and deactivations the recorded page is right
after every event exactly when no deactivation leaves an active page. -/
theorem page_tracked_iff (files : Files) (events : List PageEvent) :
    PageTracked (start files) [] ∧
        EveryStep next StaysTracked (start files, []) events ↔
      EveryStep next LeavesNone (start files, []) events := by
  have initially : PageTracked (start files) [] :=
    (pageTracked_iff (start files) []).mpr rfl
  rw [and_iff_right initially]
  exact everyStep_iff next StaysTracked LeavesNone (fun _ => True)
    (fun state event _ => staysTracked_iff state event)
    (fun _ _ _ _ => trivial) (start files, []) events trivial

/-- The shell activates the payload options before it deactivates the page
below. -/
def nestedEvents : List PageEvent :=
  [.activating .push ⟨0, wide "hen_settings"⟩,
    .activating .push ⟨1, payloadOptions⟩,
    .deactivating ⟨0, wide "hen_settings"⟩]

def nestedState : PageState × List Page :=
  nestedEvents.foldl next (start fun _ => none, [])

/-- The recorded page is lost while the payload options are active, and a
pressed toggle is dropped. -/
theorem nestedEvents_dropped :
    nestedState.2 = [⟨1, payloadOptions⟩] ∧
      ¬ PageTracked nestedState.1 nestedState.2 ∧
      ∀ id value, (newOnPress nestedState.1 id value
        elementToggleSwitch).files = nestedState.1.files := by
  have recorded : nestedState.1.gPageID = 0 := rfl
  have unnamed : pageTarget 0 = none := by decide
  refine ⟨rfl, ?_, ?_⟩
  · intro tracked
    have latest := tracked.recorded
    rw [recorded] at latest
    exact absurd latest (by decide)
  · intro id value
    simp only [newOnPress, pressStore, recorded, unnamed]
    exact ite_self _

end HenPlugins.Mono.PageTracking
