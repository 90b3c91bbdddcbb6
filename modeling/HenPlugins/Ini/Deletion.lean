import HenPlugins.Ini.StoreMap
import HenPlugins.Lib.ItemStream

/-!
# Deletion from a loaded file

The deleting calls unlink the first match.  `ini_set` looks a name up before it
creates anything, so there is never a second match; `ini_load` creates a
section for each section line and a key for each key line, and what stood
behind the deleted one is found from then on.
-/

set_option autoImplicit false

namespace HenPlugins.Ini.Deletion

open HenPlugins.Lib.ByteText
open HenPlugins.Lib.FirstMatch
open HenPlugins.Lib.LabelledChain
open HenPlugins.Lib.ItemStream
open HenPlugins.Ini.Text
open HenPlugins.Ini.Store
open HenPlugins.Ini.Load
open HenPlugins.Ini.StoreMap

/-- A call that deletes the key leaves no entry of its name and changes no
other entry. -/
def KeyGone (ini : INIFile) (sectionName keyName : Text) : Prop :=
  (iniDeleteKey ini sectionName keyName).2 = 1 →
    iniGet (iniDeleteKey ini sectionName keyName).1 sectionName keyName =
        none ∧
      ∀ otherSection otherKey,
        (otherSection, otherKey) ≠ (sectionName, keyName) →
        iniGet (iniDeleteKey ini sectionName keyName).1 otherSection otherKey =
          iniGet ini otherSection otherKey

/-- A call that deletes the section leaves no entry under its name and changes
no other entry. -/
def SectionGone (ini : INIFile) (sectionName : Text) : Prop :=
  (iniDeleteSection ini sectionName).2 = 1 →
    (∀ keyName,
      iniGet (iniDeleteSection ini sectionName).1 sectionName keyName =
        none) ∧
      ∀ otherSection otherKey, otherSection ≠ sectionName →
        iniGet (iniDeleteSection ini sectionName).1 otherSection otherKey =
          iniGet ini otherSection otherKey

/-- The last section of the name has the key once, if at all. -/
def KeyOnce (content sectionName keyName : Text) : Prop :=
  ∀ keys ∈ (keysUnder sectionName (contentItems content)).reverse[0]?,
    keys.count keyName ≤ 1

/-- The last but one section of the name, if there is one, has no keys. -/
def EmptyBefore (content sectionName : Text) : Prop :=
  ∀ keys ∈ (keysUnder sectionName (contentItems content)).reverse[1]?,
    keys = []

theorem namedKeys_view (ini : INIFile) (sectionName : Text) :
    namedKeys sectionName (view ini) =
      (ini.sections.filter (sectionNamed sectionName)).map fun current =>
        current.keys.map fun key => key.key.text := by
  rw [namedKeys, view, List.filter_map, List.map_map]
  simp only [Function.comp_def, sectionView, List.map_map, keyView]
  rfl

theorem count_keys (keys : List KeyValue) (keyName : Text) :
    (keys.map fun key => key.key.text).count keyName =
      (keys.filter (keyNamed keyName)).length := by
  rw [List.count, List.countP_map, List.countP_eq_length_filter]
  rfl

section Store
variable (ini : INIFile) (sectionName keyName : Text)

theorem firstKeys :
    (namedKeys sectionName (view ini))[0]? =
      (findSection ini sectionName).map fun current =>
        current.keys.map fun key => key.key.text := by
  rw [namedKeys_view, List.getElem?_map, ← List.head?_eq_getElem?,
    List.head?_filter]
  rfl

section Keys
variable (current : Section) (keys : List KeyValue)
  (home : findSection ini sectionName = some current)
  (kept : unlinkFirst (keyNamed keyName) current.keys = some keys)
include kept

theorem keyMap_unlinked_iff :
    keyMap keys keyName = none ↔
      (current.keys.map fun key => key.key.text).count keyName ≤ 1 := by
  have own := chainMap_unlinkFirst_self (fun key : KeyValue => key.key.text)
    (fun key => key.value.text) current.keys keys keyName kept
  rw [keyMap, own, Option.map_eq_none_iff, List.head?_eq_none_iff,
    List.drop_eq_nil_iff, count_keys]
  rfl

include home in
theorem get_unlinked_other (otherSection otherKey : Text)
    (differ : (otherSection, otherKey) ≠ (sectionName, keyName)) :
    (Function.update (storeMap ini) sectionName (some (keyMap keys))
        otherSection).bind (fun entries => entries otherKey) =
      (storeMap ini otherSection).bind fun entries => entries otherKey := by
  by_cases sameSection : otherSection = sectionName
  · have otherName : otherKey ≠ keyName := by
      rintro rfl
      exact differ (by rw [sameSection])
    rw [sameSection, Function.update_self, storeMap_eq, home, Option.map_some,
      Option.bind_some, Option.bind_some]
    exact chainMap_unlinkFirst_other (fun key : KeyValue => key.key.text)
      (fun key => key.value.text) current.keys keys keyName kept otherKey
      otherName
  · rw [Function.update_of_ne sameSection]

end Keys

/-- Deleting a key is final if and only if its section has no second one of the
name. -/
theorem keyGone_store_iff :
    KeyGone ini sectionName keyName ↔
      ∀ keys ∈ (namedKeys sectionName (view ini))[0]?,
        keys.count keyName ≤ 1 := by
  have deletion := iniDeleteKey_cases ini sectionName keyName
  rw [KeyGone, firstKeys]
  generalize iniDeleteKey ini sectionName keyName = result at deletion ⊢
  cases deletion with
  | absent missing =>
      rw [TwoLevelMap.get, storeMap_eq] at missing
      cases home : findSection ini sectionName with
      | none => simp
      | some current =>
          rw [home, Option.map_some, Option.bind_some, keyMap_eq,
            Option.map_eq_none_iff, findKey, ← List.head?_filter,
            List.head?_eq_none_iff] at missing
          simp [count_keys, missing]
  | unlinked current keys home kept present =>
      have after := storeMap_updateKeys ini sectionName current keys true home
      have others := get_unlinked_other ini sectionName keyName current keys
        home kept
      have gone := keyMap_unlinked_iff keyName current keys kept
      simp only [iniGet_eq_get, TwoLevelMap.get, after, home, forall_const,
        Function.update_self, Option.bind_some, Option.map_some, gone,
        Option.mem_def, Option.some.injEq, forall_eq']
      exact ⟨And.left, fun once => ⟨once, others⟩⟩

omit ini sectionName keyName in
/-- Only a section without keys answers no lookup. -/
theorem keyMap_empty_iff (keys : List KeyValue) :
    (∀ keyName, keyMap keys keyName = none) ↔
      (keys.map fun key => key.key.text) = [] := by
  cases keys with
  | nil => simp [keyMap, chainMap]
  | cons first rest =>
      have found : keyMap (first :: rest) first.key.text =
          some first.value.text := by
        rw [keyMap, chainMap_cons, Function.update_self]
      constructor
      · intro missing
        rw [missing] at found
        contradiction
      · intro empty
        contradiction

/-- Deleting a section is final if and only if the next one of the name has no
keys. -/
theorem sectionGone_store_iff :
    SectionGone ini sectionName ↔
      ∀ keys ∈ (namedKeys sectionName (view ini))[1]?, keys = [] := by
  have deletion := iniDeleteSection_cases ini sectionName
  rw [SectionGone, namedKeys_view, List.getElem?_map]
  generalize iniDeleteSection ini sectionName = result at deletion ⊢
  cases deletion with
  | absent missing =>
      rw [storeMap_eq, Option.map_eq_none_iff, findSection, ← List.head?_filter,
        List.head?_eq_none_iff] at missing
      simp [missing]
  | unlinked sections kept present =>
      have own := chainMap_unlinkFirst_self
        (fun current : Section => current.name.text)
        (fun current => keyMap current.keys) ini.sections sections sectionName
        kept
      have others := chainMap_unlinkFirst_other
        (fun current : Section => current.name.text)
        (fun current => keyMap current.keys) ini.sections sections sectionName
        kept
      have second : storeMap { ini with sections, modified := true }
          sectionName =
            (ini.sections.filter (sectionNamed sectionName))[1]?.map
              fun current => keyMap current.keys := by
        rw [← List.head?_drop]
        exact own
      have kept : ∀ otherSection otherKey, otherSection ≠ sectionName →
          iniGet { ini with sections, modified := true } otherSection
              otherKey = iniGet ini otherSection otherKey := by
        intro otherSection otherKey differ
        rw [iniGet_eq_get, iniGet_eq_get, TwoLevelMap.get, TwoLevelMap.get]
        exact congrArg (fun entries => entries.bind fun inner => inner otherKey)
          (others otherSection differ)
      simp only [iniGet_eq_get, TwoLevelMap.get, second] at kept ⊢
      rw [forall_const, and_iff_left kept]
      cases (ini.sections.filter (sectionNamed sectionName))[1]? with
      | none => simp
      | some current => simpa using keyMap_empty_iff current.keys

end Store

section Loaded
variable (path content sectionName keyName : Text)

theorem namedKeys_iniLoad (position : Nat) :
    (namedKeys sectionName
        (view (iniLoad (singleFile path content) path)))[position]? =
      (keysUnder sectionName (contentItems content)).reverse[position]?.map
        List.reverse := by
  rw [view_iniLoad _ path content (if_pos rfl), namedKeys_build,
    ← List.map_reverse, List.getElem?_map]

/-- Deletion from a loaded file is final if and only if the last section of the
name has the key once at most and the one before it has no keys. -/
theorem loadedDeletion_iff :
    KeyGone (iniLoad (singleFile path content) path) sectionName keyName ∧
        SectionGone (iniLoad (singleFile path content) path) sectionName ↔
      KeyOnce content sectionName keyName ∧ EmptyBefore content sectionName := by
  rw [keyGone_store_iff, sectionGone_store_iff, KeyOnce, EmptyBefore,
    namedKeys_iniLoad, namedKeys_iniLoad]
  simp

end Loaded

/-- `k` is set twice in the section `s`. -/
def twice : Text := ascii "[s]\nk=1\nk=2\n"

theorem repeatedKey_not_gone :
    ¬ ∀ path content sectionName keyName,
      KeyGone (iniLoad (singleFile path content) path) sectionName keyName ∧
        SectionGone (iniLoad (singleFile path content) path) sectionName := by
  intro final
  have gone := (final [] twice (ascii "s") (ascii "k")).1 (by decide)
  have left : iniGet (iniDeleteKey (iniLoad (singleFile [] twice) [])
      (ascii "s") (ascii "k")).1 (ascii "s") (ascii "k") =
        some (ascii "1") := by decide
  rw [left] at gone
  exact absurd gone.1 (Option.some_ne_none _)

end HenPlugins.Ini.Deletion
