import HenPlugins.Loader.LoadPlugins

/-!
# Title scoping

A section outside `[all…]` is meant for the title whose id its name begins
with.  The record of the running title is read with its error ignored, and an
empty title id is a prefix of every section name.
-/

set_option autoImplicit false

namespace HenPlugins.Loader.TitleScope

open HenPlugins.Lib.ByteText
open HenPlugins.Lib.WhileLoop
open HenPlugins.Ini.Store
open HenPlugins.Ini.Load
open HenPlugins.Loader.LoadPlugins

/-- The record `loadPlugins` works with. -/
def runningTitle (files : Files) : DiskAppinfo :=
  readFile (files tempInfoPathSandbox) DiskAppinfo.zero

/-- No run loads a key of a section for another title. -/
def TitleScoped (files : Files) (beyond : Text) : Prop :=
  ∀ count, ∀ call ∈ loadPlugins files beyond count,
    matchesAll call.section_ = false →
      (runningTitle files).titleIdField ≠ [] ∧
        startsWith call.section_.name.text
          (runningTitle files).titleIdField = true

theorem titleIdField_isPrefix (info : DiskAppinfo) (beyond : Text) :
    info.titleIdField <+: info.mTitleid beyond := by
  have whole : info.bytes.drop 4 ++ beyond =
      (info.bytes.drop 4).take 10 ++
        ((info.bytes.drop 4).drop 10 ++ beyond) := by
    rw [← List.append_assoc, List.take_append_drop]
  rw [DiskAppinfo.titleIdField, DiskAppinfo.mTitleid, whole,
    List.takeWhile_append]
  split
  · rename_i stopped
    have same := List.IsPrefix.eq_of_length
      (List.takeWhile_prefix (· != 0)) stopped
    rw [same]
    exact List.prefix_append _ _
  · exact List.prefix_refl _

/-- The id runs on past its field only when the field is full. -/
theorem mTitleid_of_field_empty (info : DiskAppinfo) (beyond : Text)
    (empty : info.titleIdField = []) : info.mTitleid beyond = [] := by
  have size := info.size
  have long : (info.bytes.drop 4).length = 28 := by
    rw [List.length_drop, size]
    rfl
  obtain ⟨first, rest, shape⟩ := List.exists_cons_of_length_pos
    (l := info.bytes.drop 4) (by omega)
  rw [DiskAppinfo.titleIdField, shape] at empty
  rw [DiskAppinfo.mTitleid, shape]
  by_cases ended : first = 0
  · simp [ended]
  · simp [ended] at empty

/-- A section outside `[all…]` that matches a non-empty id has it in front. -/
theorem startsWith_field_of_match (info : DiskAppinfo) (beyond : Text)
    (current : Section)
    (matched : sectionMatches (info.mTitleid beyond) current = true)
    (other : matchesAll current = false) :
    startsWith current.name.text info.titleIdField = true := by
  rw [sectionMatches, other, Bool.false_or, startsWith,
    List.isPrefixOf_iff_prefix] at matched
  rw [startsWith, List.isPrefixOf_iff_prefix]
  exact (titleIdField_isPrefix info beyond).trans matched

theorem walked_of_empty (sections : List Section) :
    walked [] sections = sections := by
  rw [walked, List.takeWhile_eq_self_iff]
  intro current member
  simp [sectionMatches, startsWith]

theorem mem_loadPlugins_iff (files : Files) (beyond : Text)
    (call : LoadCall) :
    (∃ count, call ∈ loadPlugins files beyond count) ↔
      0 ≤ (runningTitle files).pid ∧
        call.section_ ∈ walked ((runningTitle files).mTitleid beyond)
          (iniLoad files pluginsIniPath).sections ∧
        call.key ∈ truthyKeys call.section_ := by
  rw [← mem_calls_iff]
  by_cases negative : (runningTitle files).pid < 0
  · have refused : ∀ count, loadPlugins files beyond count = [] := by
      intro count
      rw [runningTitle] at negative
      rw [loadPlugins, loadPluginsFrom, loopEntry, if_pos negative]
    simp only [refused, List.not_mem_nil, exists_false, false_iff]
    intro entered
    omega
  · have entered : ∀ count, loadPlugins files beyond count =
        (runFor sectionGuard
          (sectionBody ((runningTitle files).mTitleid beyond)) count
          ⟨(iniLoad files pluginsIniPath).sections, []⟩).calls := by
      intro count
      rw [runningTitle] at negative
      rw [loadPlugins, loadPluginsFrom, loopEntry, if_neg negative]
      rfl
    simp only [entered]
    constructor
    · intro called
      exact ⟨by omega, called⟩
    · intro called
      exact called.2

/-- Title scoping holds exactly when the pid read from the record is negative,
the title id is non-empty, or no section outside `[all…]` enables a key. -/
theorem titleScoped_iff (files : Files) (beyond : Text) :
    TitleScoped files beyond ↔
      (runningTitle files).pid < 0 ∨
        (runningTitle files).titleIdField ≠ [] ∨
        ∀ current ∈ (iniLoad files pluginsIniPath).sections,
          matchesAll current = false → truthyKeys current = [] := by
  constructor
  · intro kept
    by_contra loose
    simp only [not_or, not_not] at loose
    obtain ⟨entered, empty, enabled⟩ := loose
    apply enabled
    intro current member other
    by_contra keyed
    obtain ⟨key, rest, chain⟩ := List.exists_cons_of_ne_nil keyed
    obtain ⟨count, called⟩ := (mem_loadPlugins_iff files beyond
      ⟨current, key⟩).mpr ⟨by omega, by
        rw [mTitleid_of_field_empty _ beyond empty, walked_of_empty]
        exact member, by simp [chain]⟩
    exact (kept count _ called other).1 empty
  · intro safe count call called other
    obtain ⟨entered, member, key⟩ :=
      (mem_loadPlugins_iff files beyond call).mp ⟨count, called⟩
    have matched := List.mem_takeWhile_imp member
    have front := startsWith_field_of_match _ beyond _ matched other
    rcases safe with refused | named | disabled
    · omega
    · exact ⟨named, front⟩
    · have inside := (List.takeWhile_prefix _).subset member
      rw [disabled _ inside other] at key
      contradiction

/-- No `app_info` at all: the plugin of another title is loaded. -/
theorem missingAppInfo_not_titleScoped :
    ¬ TitleScoped (singleFile pluginsIniPath (ascii "[CUSA00001]\na=1\n"))
      [] := by
  intro kept
  have called : ∃ call ∈ loadPlugins
      (singleFile pluginsIniPath (ascii "[CUSA00001]\na=1\n")) [] 1,
      matchesAll call.section_ = false := by decide
  obtain ⟨call, member, other⟩ := called
  exact (kept 1 call member other).1 (by decide)

end HenPlugins.Loader.TitleScope
