import HenPlugins.Loader.LoadOrder
import HenPlugins.Loader.TitleScope
import HenPlugins.Mono.SettingsRun

/-!
# The plugins that are loaded are those that are switched on

The settings pages write `plugins.ini` in the shell, and `loadPlugins` reads it
in every game.  After any run of the pages the loader loads what the plugin
manager's map says, each plugin of a section once.
-/

set_option autoImplicit false

namespace HenPlugins.Loader.LoadedAsSet

open HenPlugins.Lib.ByteText
open HenPlugins.Lib.LabelledChain
open HenPlugins.Lib.WhileLoop
open HenPlugins.Ini.Store
open HenPlugins.Ini.Load
open HenPlugins.Ini.Loaded (iniLoad_loaded)
open HenPlugins.Ini.Rewrite
open HenPlugins.Ini.StoreMap
open HenPlugins.Ini.TidyStore
open HenPlugins.Loader.LoadPlugins
open HenPlugins.Loader.LoadOrder
open HenPlugins.Loader.TitleScope
open HenPlugins.Mono.PageTracking
open HenPlugins.Mono.SettingsPages
open HenPlugins.Mono.SettingsRun

/-- `loadPlugins` comes to its end and has made these calls. -/
def CompletesWith (files : Files) (beyond : Text) (calls : List LoadCall) :
    Prop :=
  ∃ entry final, loopEntry (iniLoad files pluginsIniPath)
      (files tempInfoPathSandbox) = some entry ∧
    EndsIn sectionGuard (sectionBody ((runningTitle files).mTitleid beyond))
      entry final ∧
    final.calls = calls

/-- The section name is for all titles or starts with the title id. -/
def NameMatches (titleId sectionName : Text) : Prop :=
  startsWithCase sectionName pluginsAllSection = true ∨
    startsWith sectionName titleId = true

theorem endsIn_sections_iff (titleId : Text) (sections : List Section)
    (final : LoopState) :
    EndsIn sectionGuard (sectionBody titleId) ⟨sections, []⟩ final ↔
      (∀ current ∈ sections, NameMatches titleId current.name.text) ∧
        final = ⟨[], sections.flatMap sectionCalls⟩ := by
  have matches_iff (current : Section) :
      sectionMatches titleId current = true ↔
        NameMatches titleId current.name.text := by
    rw [sectionMatches, Bool.or_eq_true]
    rfl
  have whole_iff : walked titleId sections = sections ↔
      ∀ current ∈ sections, NameMatches titleId current.name.text := by
    rw [walked, List.takeWhile_eq_self_iff]
    exact forall₂_congr fun current _ => matches_iff current
  rw [← whole_iff]
  constructor
  · intro ends
    obtain ⟨count, run, stopped⟩ := ends
    rw [runFor_sections] at run
    have prefixed : walked titleId sections <+: sections :=
      List.takeWhile_prefix _
    have drained : sections.length ≤
        min count (walked titleId sections).length := by
      rw [← run] at stopped
      simpa [sectionGuard] using stopped
    have least := Nat.min_le_right count (walked titleId sections).length
    have counted := Nat.min_le_left count (walked titleId sections).length
    have whole := prefixed.eq_of_length
      (Nat.le_antisymm prefixed.length_le (Nat.le_trans drained least))
    refine ⟨whole, ?_⟩
    rw [← run, whole, List.nil_append, List.take_of_length_le
      (Nat.le_trans drained counted), Nat.min_eq_right
      (Nat.le_trans drained counted), List.drop_length]
  · rintro ⟨whole, rfl⟩
    refine ⟨sections.length, ?_, rfl⟩
    rw [runFor_sections, whole, Nat.min_self, List.drop_length,
      List.take_length, List.nil_append]

theorem completesWith_iff (files : Files) (beyond : Text)
    (calls : List LoadCall) :
    CompletesWith files beyond calls ↔
      0 ≤ (runningTitle files).pid ∧
        (∀ current ∈ (iniLoad files pluginsIniPath).sections,
          NameMatches ((runningTitle files).mTitleid beyond)
            current.name.text) ∧
        calls = (iniLoad files pluginsIniPath).sections.flatMap
          sectionCalls := by
  have entered (entry : LoopState) :
      loopEntry (iniLoad files pluginsIniPath) (files tempInfoPathSandbox) =
          some entry ↔
        0 ≤ (runningTitle files).pid ∧
          entry = ⟨(iniLoad files pluginsIniPath).sections, []⟩ := by
    rw [loopEntry, ← runningTitle]
    by_cases negative : (runningTitle files).pid < 0
    · rw [if_pos negative]
      simp [Int.not_le.mpr negative]
    · rw [if_neg negative, Option.some_inj]
      simp [Int.not_lt.mp negative, eq_comm]
  constructor
  · rintro ⟨entry, final, started, ends, rfl⟩
    obtain ⟨running, rfl⟩ := (entered entry).mp started
    obtain ⟨every, rfl⟩ := (endsIn_sections_iff _ _ _).mp ends
    exact ⟨running, every, rfl⟩
  · rintro ⟨running, every, rfl⟩
    exact ⟨_, _, (entered _).mpr ⟨running, rfl⟩,
      (endsIn_sections_iff _ _ _).mpr ⟨every, rfl⟩, rfl⟩

theorem mem_callTrace_iff (ini : INIFile) (once : NamedOnce ini)
    (sectionName path : Text) :
    (sectionName, path) ∈ callTrace (ini.sections.flatMap sectionCalls) ↔
      ∃ value, (storeMap ini).get sectionName path = some value ∧
        simpleGetBool value = true := by
  have keyed (current : Section) (listed : current ∈ ini.sections)
      (value : Text) :
      keyMap current.keys path = some value ↔
        ∃ key ∈ current.keys, key.key.text = path ∧ key.value.text = value :=
    chainMap_eq_some_iff _ _ _ (once.keys current listed) _ _
  have stored (entries : Text → Option Text) :
      storeMap ini sectionName = some entries ↔
        ∃ current ∈ ini.sections, current.name.text = sectionName ∧
          keyMap current.keys = entries :=
    chainMap_eq_some_iff _ _ _ once.sections _ _
  simp only [callTrace, List.mem_map, List.mem_flatMap, TwoLevelMap.get,
    Option.bind_eq_some_iff, stored, Prod.mk.injEq]
  constructor
  · rintro ⟨call, ⟨current, listed, called⟩, named, pathed⟩
    obtain ⟨key, truthy, rfl⟩ := List.mem_map.mp called
    obtain ⟨keyListed, switchedOn⟩ := List.mem_filter.mp truthy
    exact ⟨key.value.text, ⟨_, ⟨current, listed, named, rfl⟩,
      (keyed current listed _).mpr ⟨key, keyListed, pathed, rfl⟩⟩, switchedOn⟩
  · rintro ⟨value, ⟨entries, ⟨current, listed, named, rfl⟩, got⟩, switchedOn⟩
    obtain ⟨key, keyListed, pathed, rfl⟩ := (keyed current listed _).mp got
    exact ⟨⟨current, key⟩, ⟨current, listed, List.mem_map.mpr
      ⟨key, List.mem_filter.mpr ⟨keyListed, switchedOn⟩, rfl⟩⟩, named, pathed⟩

theorem callTrace_nodup (ini : INIFile) (once : NamedOnce ini) :
    (callTrace (ini.sections.flatMap sectionCalls)).Nodup := by
  rw [callTrace_sections, List.nodup_flatMap]
  refine ⟨?_, ?_⟩
  · intro block member
    obtain ⟨current, listed, rfl⟩ := List.mem_map.mp member
    have keys : ((sectionView current).2.map Prod.fst).Nodup := by
      simpa [sectionView, keyView, Function.comp_def] using
        once.keys current listed
    have kept : ((sectionView current).2.filter fun pair =>
        simpleGetBool pair.2).Sublist (sectionView current).2 :=
      List.filter_sublist
    have paths := keys.sublist (kept.map Prod.fst)
    rw [blockTrace]
    apply List.Nodup.of_map Prod.snd
    rw [List.map_map]
    exact paths
  · rw [List.pairwise_map]
    have names := List.pairwise_map.mp once.sections
    apply names.imp
    intro first second differ
    apply List.disjoint_left.mpr
    rintro ⟨name, path⟩ here there
    obtain ⟨_, -, same⟩ := List.mem_map.mp here
    obtain ⟨_, -, other⟩ := List.mem_map.mp there
    exact differ ((Prod.mk.inj same).1.trans (Prod.mk.inj other).1.symm)

theorem sections_match_iff (ini : INIFile) (once : NamedOnce ini)
    (titleId : Text) :
    (∀ current ∈ ini.sections, NameMatches titleId current.name.text) ↔
      ∀ sectionName, storeMap ini sectionName ≠ none →
        NameMatches titleId sectionName := by
  have stored (sectionName : Text) :
      storeMap ini sectionName ≠ none ↔
        ∃ current ∈ ini.sections, current.name.text = sectionName := by
    rw [Option.ne_none_iff_exists']
    constructor
    · rintro ⟨entries, found⟩
      obtain ⟨current, listed, named, -⟩ :=
        (chainMap_eq_some_iff _ _ _ once.sections _ _).mp found
      exact ⟨current, listed, named⟩
    · rintro ⟨current, listed, named⟩
      exact ⟨keyMap current.keys, (chainMap_eq_some_iff _ _ _ once.sections _
        _).mpr ⟨current, listed, named, rfl⟩⟩
  constructor
  · intro every sectionName present
    obtain ⟨current, listed, rfl⟩ := (stored sectionName).mp present
    exact every current listed
  · intro every current listed
    exact every _ ((stored _).mpr ⟨current, listed, rfl⟩)

/-- A plugin for all titles is off, one for a single title is on. -/
def twoPlugins : Text :=
  ascii "; plugins\n[all]\n/data/hen/plugins/a.prx = 0\n" ++
    ascii "[CUSA00001]\n/data/hen/plugins/b.prx = 1 ; this title\n"

/-- Title `CUSA00001` runs as process 42. -/
def runningGame : Files := fun path =>
  if path = pluginsIniPath then some twoPlugins
  else if path = tempInfoPathSandbox then
    some ([42, 0, 0, 0] ++ ascii "CUSA00001")
  else none

theorem runningGame_tidy : TidyFiles runningGame := by
  intro page
  cases page with
  | payload => exact tidy_missing _ _ (by decide)
  | plugins => exact ⟨iniLoad_loaded _ _, ⟨by decide, by decide⟩, by decide⟩

def switchOn : List UiEvent :=
  [.pageActivating onPush idPluginManager,
    .preCreate onePlugin (ascii "0") elementToggleSwitch,
    .press onePlugin (ascii "1") elementToggleSwitch,
    .pageDeactivating idPluginManager]

theorem switchOn_clean : ∀ event ∈ switchOn, event.Clean := by decide

abbrev afterSwitchOn : PageState × Settings :=
  switchOn.foldl uiNext (start runningGame, Settings.opened runningGame)

end HenPlugins.Loader.LoadedAsSet
