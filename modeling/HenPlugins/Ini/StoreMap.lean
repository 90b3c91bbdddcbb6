import HenPlugins.Ini.Load
import HenPlugins.Ini.SetEntry
import HenPlugins.Lib.EventRun
import HenPlugins.Lib.LabelledChain

/-!
# The store as a two-level map

The chains of a store stand for a map from section names to maps from keys to
values.  The updating calls act on it as the operations of the abstract map
do, with every value cut to its field.  What makes deletion right is that no
name occurs twice, which every call keeps.
-/

set_option autoImplicit false

namespace HenPlugins.Ini.StoreMap

open HenPlugins.Lib.ByteText
open HenPlugins.Lib.EventRun
open HenPlugins.Lib.FirstMatch
open HenPlugins.Lib.LabelledChain
open HenPlugins.Ini.Store
open HenPlugins.Ini.Load
open HenPlugins.Ini.SetEntry

/-! ## The calls -/

/-- An updating call with non-null arguments; a null comment is `none`. -/
inductive Call where
  | set (sectionName keyName value : Text)
  | setWithComment (sectionName keyName value : Text) (comment : Option Text)
  | deleteKey (sectionName keyName : Text)
  | deleteSection (sectionName : Text)
  deriving DecidableEq

def nameFits (name : Text) : Prop := name.length ≤ 255

def Call.NamesFit : Call → Prop
  | .set sectionName keyName _ => nameFits sectionName ∧ nameFits keyName
  | .setWithComment sectionName keyName _ _ =>
      nameFits sectionName ∧ nameFits keyName
  | .deleteKey sectionName keyName => nameFits sectionName ∧ nameFits keyName
  | .deleteSection sectionName => nameFits sectionName

instance (name : Text) : Decidable (nameFits name) :=
  inferInstanceAs (Decidable (_ ≤ _))

instance : (call : Call) → Decidable call.NamesFit
  | .set .. => inferInstanceAs (Decidable (_ ∧ _))
  | .setWithComment .. => inferInstanceAs (Decidable (_ ∧ _))
  | .deleteKey .. => inferInstanceAs (Decidable (_ ∧ _))
  | .deleteSection _ => inferInstanceAs (Decidable (nameFits _))

def invoke (ini : INIFile) : Call → INIFile × Int
  | .set sectionName keyName value => iniSet ini sectionName keyName value
  | .setWithComment sectionName keyName value comment =>
      iniSetWithComment ini sectionName keyName value comment
  | .deleteKey sectionName keyName => iniDeleteKey ini sectionName keyName
  | .deleteSection sectionName => iniDeleteSection ini sectionName

/-! ## The abstract operations -/

abbrev AbstractStore := TwoLevelMap Text Text Text

/-- Setting always applies, deleting only when there is something to delete. -/
def Applies (map : AbstractStore) : Call → Prop
  | .set .. => True
  | .setWithComment .. => True
  | .deleteKey sectionName keyName => map.get sectionName keyName ≠ none
  | .deleteSection sectionName => map sectionName ≠ none

def apply (map : AbstractStore) : Call → AbstractStore
  | .set sectionName keyName value => map.set sectionName keyName value
  | .setWithComment sectionName keyName value _ =>
      map.set sectionName keyName value
  | .deleteKey sectionName keyName => map.deleteKey sectionName keyName
  | .deleteSection sectionName => map.deleteGroup sectionName

/-! ## The map a store stands for -/

def keyMap (keys : List KeyValue) : Text → Option Text :=
  chainMap (fun key => key.key.text) (fun key => key.value.text) keys

def storeMap (ini : INIFile) : AbstractStore :=
  chainMap (fun current => current.name.text)
    (fun current => keyMap current.keys) ini.sections

theorem storeMap_eq (ini : INIFile) (sectionName : Text) :
    storeMap ini sectionName =
      (findSection ini sectionName).map fun current => keyMap current.keys :=
  rfl

theorem keyMap_eq (current : Section) (keyName : Text) :
    keyMap current.keys keyName =
      (findKey current keyName).map fun key => key.value.text :=
  rfl

theorem iniGet_eq_get (ini : INIFile) (sectionName keyName : Text) :
    iniGet ini sectionName keyName =
      (storeMap ini).get sectionName keyName := by
  rw [iniGet, TwoLevelMap.get, storeMap_eq]
  cases findSection ini sectionName with
  | none => rfl
  | some current =>
      simp only [Option.bind_eq_bind, Option.bind_some, Option.map_some]
      rw [keyMap_eq]
      cases findKey current keyName <;> rfl

/-- No section name and, in no section, a key occurs twice. -/
structure NamedOnce (ini : INIFile) : Prop where
  sections : (ini.sections.map fun current => current.name.text).Nodup
  keys : ∀ current ∈ ini.sections,
    (current.keys.map fun key => key.key.text).Nodup

/-- Changing the first section of a name keeps names unique when it keeps the
name and unique keys. -/
theorem namedOnce_updateFirst (ini : INIFile) (sectionName : Text)
    (change : Section → Section) (modified : Bool) (once : NamedOnce ini)
    (keepsName : ∀ current, (change current).name = current.name)
    (keepsKeys : ∀ current ∈ ini.sections,
      sectionNamed sectionName current = true →
      ((change current).keys.map fun key => key.key.text).Nodup) :
    NamedOnce { ini with
      sections := updateFirst (sectionNamed sectionName) change ini.sections
      modified } := by
  refine ⟨?_, ?_⟩
  · simp only
    rw [labels_updateFirst (fun current : Section => current.name.text)]
    · exact once.sections
    · intro current
      rw [keepsName]
  · intro current member
    cases found : ini.sections.find? (sectionNamed sectionName) with
    | none =>
        have clear : ∀ other ∈ ini.sections,
            sectionNamed sectionName other = false := by
          intro other inside
          simpa using List.find?_eq_none.mp found other inside
        simp only [updateFirst_of_clear _ _ _ clear] at member
        exact once.keys current member
    | some home =>
        obtain ⟨front, back, chain, named, -, updated⟩ :=
          updateFirst_split (sectionNamed sectionName) change ini.sections
            home found
        simp only [updated] at member
        have inside : ∀ other, other ∈ front ∨ other ∈ back →
            other ∈ ini.sections := by
          intro other place
          rw [chain]
          rcases place with early | late
          · exact List.mem_append_left _ early
          · exact List.mem_append_right _ (List.mem_cons_of_mem _ late)
        rcases List.mem_append.mp member with early | later
        · exact once.keys current (inside current (Or.inl early))
        · rcases List.mem_cons.mp later with rfl | late
          · exact keepsKeys home (by simp [chain]) named
          · exact once.keys current (inside current (Or.inr late))

/-! ## `ini_set` -/

theorem writeKey_key (value : Text) (comment : Option Text) (key : KeyValue) :
    (writeKey value comment key).key = key.key := rfl

theorem writeKey_value (value : Text) (comment : Option Text)
    (key : KeyValue) :
    (writeKey value comment key).value.text = value.take 511 := rfl

theorem keyMap_setInSection (current : Section) (keyName value : Text)
    (comment : Option Text) (fits : nameFits keyName) :
    keyMap (setInSection keyName value comment current).keys =
      Function.update (keyMap current.keys) keyName
        (some (value.take 511)) := by
  rw [setInSection]
  cases found : findKey current keyName with
  | none =>
      have fresh := chainMap_cons (fun key : KeyValue => key.key.text)
        (fun key => key.value.text)
        (writeKey value comment (newKey keyName)) current.keys
      simp only [writeKey_key, newKey_text keyName fits, writeKey_value]
        at fresh
      exact fresh
  | some key =>
      have updated := chainMap_updateFirst
        (fun key : KeyValue => key.key.text) (fun key => key.value.text)
        (writeKey value comment) current.keys keyName
        (fun key => by rw [writeKey_key])
      have there : (current.keys.find?
          fun key : KeyValue => key.key.text == keyName) = some key := found
      rw [there] at updated
      exact updated

theorem setInSection_name (keyName value : Text) (comment : Option Text)
    (current : Section) :
    (setInSection keyName value comment current).name = current.name := by
  rw [setInSection]
  cases findKey current keyName <;> rfl

theorem setInSection_once (keyName value : Text) (comment : Option Text)
    (current : Section) (fits : nameFits keyName)
    (once : (current.keys.map fun key => key.key.text).Nodup) :
    ((setInSection keyName value comment current).keys.map
      fun key => key.key.text).Nodup := by
  rw [setInSection]
  cases found : findKey current keyName with
  | none =>
      simp only [List.map_cons, writeKey_key, newKey_text keyName fits,
        List.nodup_cons]
      exact ⟨not_mem_labels (fun key : KeyValue => key.key.text) current.keys
        keyName found, once⟩
  | some key =>
      simp only
      rw [labels_updateFirst (fun key : KeyValue => key.key.text)]
      · exact once
      · intro other
        rw [writeKey_key]

theorem storeMap_setEntry (ini : INIFile) (sectionName keyName value : Text)
    (comment : Option Text) (sectionFits : nameFits sectionName)
    (keyFits : nameFits keyName) :
    storeMap (setEntry ini sectionName keyName value comment) =
      (storeMap ini).set sectionName keyName (value.take 511) := by
  rw [setEntry, TwoLevelMap.set, storeMap_eq]
  cases found : findSection ini sectionName with
  | none =>
      have fresh := chainMap_cons (fun current : Section => current.name.text)
        (fun current => keyMap current.keys)
        (setInSection keyName value comment (newSection sectionName))
        ini.sections
      rw [setInSection_name, newSection_text sectionName sectionFits,
        keyMap_setInSection _ keyName value comment keyFits] at fresh
      exact fresh
  | some current =>
      have updated := chainMap_updateFirst
        (fun current : Section => current.name.text)
        (fun current => keyMap current.keys)
        (setInSection keyName value comment) ini.sections sectionName
        (fun current => by rw [setInSection_name])
      have there : (ini.sections.find?
          fun current : Section => current.name.text == sectionName) =
            some current := found
      rw [there] at updated
      simp only [Option.map_some,
        keyMap_setInSection current keyName value comment keyFits] at updated
      exact updated

theorem setEntry_once (ini : INIFile) (sectionName keyName value : Text)
    (comment : Option Text) (sectionFits : nameFits sectionName)
    (keyFits : nameFits keyName) (once : NamedOnce ini) :
    NamedOnce (setEntry ini sectionName keyName value comment) := by
  rw [setEntry]
  cases found : findSection ini sectionName with
  | none =>
      refine ⟨?_, ?_⟩
      · simp only [List.map_cons, setInSection_name,
          newSection_text sectionName sectionFits, List.nodup_cons]
        exact ⟨not_mem_labels (fun current : Section => current.name.text)
          ini.sections sectionName found, once.sections⟩
      · intro current member
        rcases List.mem_cons.mp member with rfl | old
        · exact setInSection_once keyName value comment _ keyFits
            (by simp [newSection])
        · exact once.keys current old
  | some current =>
      exact namedOnce_updateFirst ini sectionName _ true once
        (setInSection_name keyName value comment)
        (fun home inside _ => setInSection_once keyName value comment home
          keyFits (once.keys home inside))

/-! ## Deletion -/

/-- What `ini_delete_key` answers and leaves behind. -/
inductive KeyDeletion (ini : INIFile) (sectionName keyName : Text) :
    INIFile × Int → Prop where
  | absent (missing : (storeMap ini).get sectionName keyName = none) :
      KeyDeletion ini sectionName keyName (ini, 0)
  | unlinked (current : Section) (keys : List KeyValue)
      (home : findSection ini sectionName = some current)
      (kept : unlinkFirst (keyNamed keyName) current.keys = some keys)
      (present : (storeMap ini).get sectionName keyName ≠ none) :
      KeyDeletion ini sectionName keyName
        ({ ini with
            sections := updateFirst (sectionNamed sectionName)
              (fun home => { home with keys := keys }) ini.sections
            modified := true }, 1)

theorem iniDeleteKey_cases (ini : INIFile) (sectionName keyName : Text) :
    KeyDeletion ini sectionName keyName
      (iniDeleteKey ini sectionName keyName) := by
  rw [iniDeleteKey]
  cases home : findSection ini sectionName with
  | none =>
      apply KeyDeletion.absent
      rw [TwoLevelMap.get, storeMap_eq, home]
      rfl
  | some current =>
      have entry : (storeMap ini).get sectionName keyName =
          (findKey current keyName).map fun key => key.value.text := by
        rw [TwoLevelMap.get, storeMap_eq, home]
        rfl
      have found := unlinkFirst_isSome (keyNamed keyName) current.keys
      simp only
      cases kept : unlinkFirst (keyNamed keyName) current.keys with
      | none =>
          apply KeyDeletion.absent
          rw [kept, Option.isSome_none] at found
          rw [entry, findKey, Option.map_eq_none_iff]
          simpa using found.symm
      | some keys =>
          apply KeyDeletion.unlinked current keys home kept
          rw [kept, Option.isSome_some] at found
          rw [entry, ← Option.isSome_iff_ne_none, Option.isSome_map]
          exact found.symm

theorem storeMap_updateKeys (ini : INIFile) (sectionName : Text)
    (current : Section) (keys : List KeyValue) (modified : Bool)
    (home : findSection ini sectionName = some current) :
    storeMap { ini with
        sections := updateFirst (sectionNamed sectionName)
          (fun home => { home with keys := keys }) ini.sections
        modified } =
      Function.update (storeMap ini) sectionName (some (keyMap keys)) := by
  have updated := chainMap_updateFirst
    (fun current : Section => current.name.text)
    (fun current => keyMap current.keys)
    (fun home => { home with keys := keys }) ini.sections sectionName
    (fun _ => rfl)
  have there : (ini.sections.find?
      fun current : Section => current.name.text == sectionName) =
        some current := home
  rw [there] at updated
  exact updated

theorem storeMap_deleteKey (ini : INIFile) (sectionName keyName : Text)
    (once : NamedOnce ini) :
    storeMap (iniDeleteKey ini sectionName keyName).1 =
        (storeMap ini).deleteKey sectionName keyName ∧
      NamedOnce (iniDeleteKey ini sectionName keyName).1 := by
  have deletion := iniDeleteKey_cases ini sectionName keyName
  generalize iniDeleteKey ini sectionName keyName = result at deletion ⊢
  cases deletion with
  | absent missing =>
      refine ⟨?_, once⟩
      rw [TwoLevelMap.get] at missing
      rw [TwoLevelMap.deleteKey]
      cases entries : storeMap ini sectionName with
      | none => rw [Option.map_none, ← entries, Function.update_eq_self]
      | some inner =>
          rw [entries, Option.bind_some] at missing
          rw [Option.map_some, ← missing, Function.update_eq_self, ← entries,
            Function.update_eq_self]
  | unlinked current keys home kept present =>
      have inside : current ∈ ini.sections := List.mem_of_find?_eq_some home
      have shorter : keyMap keys =
          Function.update (keyMap current.keys) keyName none :=
        chainMap_unlinkFirst (fun key : KeyValue => key.key.text)
          (fun key => key.value.text) current.keys keys keyName kept
          (once.keys current inside)
      refine ⟨?_, ?_⟩
      · rw [TwoLevelMap.deleteKey, storeMap_eq ini, home,
          storeMap_updateKeys ini sectionName current keys true home]
        simp only [Option.map_some, ← shorter]
      · have sublist := (unlinkFirst_sublist _ _ _ kept).map
          fun key : KeyValue => key.key.text
        exact namedOnce_updateFirst ini sectionName _ true once
          (fun _ => rfl) fun _ _ _ => sublist.nodup (once.keys current inside)

/-- What `ini_delete_section` answers and leaves behind. -/
inductive SectionDeletion (ini : INIFile) (sectionName : Text) :
    INIFile × Int → Prop where
  | absent (missing : storeMap ini sectionName = none) :
      SectionDeletion ini sectionName (ini, 0)
  | unlinked (sections : List Section)
      (kept : unlinkFirst (sectionNamed sectionName) ini.sections =
        some sections)
      (present : storeMap ini sectionName ≠ none) :
      SectionDeletion ini sectionName
        ({ ini with sections, modified := true }, 1)

theorem iniDeleteSection_cases (ini : INIFile) (sectionName : Text) :
    SectionDeletion ini sectionName (iniDeleteSection ini sectionName) := by
  have found := unlinkFirst_isSome (sectionNamed sectionName) ini.sections
  have named : (ini.sections.find? (sectionNamed sectionName)).isSome =
      (storeMap ini sectionName).isSome := by
    rw [storeMap_eq, Option.isSome_map]
    rfl
  rw [named] at found
  rw [iniDeleteSection]
  cases kept : unlinkFirst (sectionNamed sectionName) ini.sections with
  | none =>
      apply SectionDeletion.absent
      rw [kept, Option.isSome_none] at found
      simpa using found.symm
  | some sections =>
      apply SectionDeletion.unlinked sections kept
      rw [kept, Option.isSome_some] at found
      exact Option.isSome_iff_ne_none.mp found.symm

theorem storeMap_deleteSection (ini : INIFile) (sectionName : Text)
    (once : NamedOnce ini) :
    storeMap (iniDeleteSection ini sectionName).1 =
        (storeMap ini).deleteGroup sectionName ∧
      NamedOnce (iniDeleteSection ini sectionName).1 := by
  have deletion := iniDeleteSection_cases ini sectionName
  generalize iniDeleteSection ini sectionName = result at deletion ⊢
  cases deletion with
  | absent missing =>
      refine ⟨?_, once⟩
      rw [TwoLevelMap.deleteGroup, ← missing, Function.update_eq_self]
  | unlinked sections kept present =>
      have sublist := unlinkFirst_sublist _ _ _ kept
      refine ⟨?_, ?_, ?_⟩
      · exact chainMap_unlinkFirst
          (fun current : Section => current.name.text)
          (fun current => keyMap current.keys) ini.sections sections
          sectionName kept once.sections
      · exact (sublist.map fun current : Section => current.name.text).nodup
          once.sections
      · intro current member
        exact once.keys current (sublist.subset member)

/-! ## The simulation -/

/-- The store stands for the map with every value cut to its field. -/
structure Represents (ini : INIFile) (map : AbstractStore) : Prop where
  same : storeMap ini = map.mapValues fun value => value.take 511
  once : NamedOnce ini

/-- Lookups give the abstract value cut to 511 bytes, and no name is
repeated. -/
structure Refines (ini : INIFile) (map : AbstractStore) : Prop where
  lookups : ∀ sectionName keyName, iniGet ini sectionName keyName =
    (map.get sectionName keyName).map fun value => value.take 511
  once : NamedOnce ini

theorem Represents.refines {ini : INIFile} {map : AbstractStore}
    (represents : Represents ini map) : Refines ini map := by
  refine ⟨?_, represents.once⟩
  intro sectionName keyName
  rw [iniGet_eq_get, represents.same, TwoLevelMap.get_mapValues]

theorem represents_invoke (ini : INIFile) (map : AbstractStore) (call : Call)
    (represents : Represents ini map) (fit : call.NamesFit) :
    Represents (invoke ini call).1 (apply map call) := by
  have setting (sectionName keyName value : Text) (comment : Option Text)
      (fits : nameFits sectionName ∧ nameFits keyName) :
      Represents (setEntry ini sectionName keyName value comment)
        (map.set sectionName keyName value) := by
    refine ⟨?_, setEntry_once ini sectionName keyName value comment fits.1
      fits.2 represents.once⟩
    rw [storeMap_setEntry ini sectionName keyName value comment fits.1 fits.2,
      represents.same, TwoLevelMap.mapValues_set]
  cases call with
  | set sectionName keyName value =>
      exact setting sectionName keyName value none fit
  | setWithComment sectionName keyName value comment =>
      exact setting sectionName keyName value comment fit
  | deleteKey sectionName keyName =>
      obtain ⟨same, once⟩ :=
        storeMap_deleteKey ini sectionName keyName represents.once
      exact ⟨by rw [invoke, same, represents.same, apply,
        TwoLevelMap.mapValues_deleteKey], once⟩
  | deleteSection sectionName =>
      obtain ⟨same, once⟩ :=
        storeMap_deleteSection ini sectionName represents.once
      exact ⟨by rw [invoke, same, represents.same, apply,
        TwoLevelMap.mapValues_deleteGroup], once⟩

/-- The return value says whether the abstract operation applies, and a
refused call changes nothing. -/
theorem invoke_answer (ini : INIFile) (map : AbstractStore) (call : Call)
    (represents : Represents ini map) :
    ((invoke ini call).2 = 1 ↔ Applies map call) ∧
      ((invoke ini call).2 = 0 → (invoke ini call).1 = ini) := by
  cases call with
  | set sectionName keyName value =>
      exact ⟨⟨fun _ => trivial, fun _ => rfl⟩, fun refused => absurd refused Int.one_ne_zero⟩
  | setWithComment sectionName keyName value comment =>
      exact ⟨⟨fun _ => trivial, fun _ => rfl⟩, fun refused => absurd refused Int.one_ne_zero⟩
  | deleteKey sectionName keyName =>
      have entry : (storeMap ini).get sectionName keyName =
          (map.get sectionName keyName).map fun value => value.take 511 := by
        rw [represents.same, TwoLevelMap.get_mapValues]
      have deletion := iniDeleteKey_cases ini sectionName keyName
      rw [invoke, Applies]
      generalize iniDeleteKey ini sectionName keyName = result at deletion ⊢
      cases deletion with
      | absent missing =>
          rw [entry, Option.map_eq_none_iff] at missing
          exact ⟨by simp [missing], fun _ => rfl⟩
      | unlinked current keys home kept present =>
          rw [entry, ne_eq, Option.map_eq_none_iff] at present
          exact ⟨by simp [present], fun refused => absurd refused Int.one_ne_zero⟩
  | deleteSection sectionName =>
      have group : storeMap ini sectionName = none ↔ map sectionName = none := by
        rw [represents.same, TwoLevelMap.mapValues, Option.map_eq_none_iff]
      have deletion := iniDeleteSection_cases ini sectionName
      rw [invoke, Applies]
      generalize iniDeleteSection ini sectionName = result at deletion ⊢
      cases deletion with
      | absent missing =>
          rw [group] at missing
          exact ⟨by simp [missing], fun _ => rfl⟩
      | unlinked sections kept present =>
          rw [ne_eq, group] at present
          exact ⟨by simp [present], fun refused => absurd refused Int.one_ne_zero⟩

/-- The store and the map after one more call. -/
def next (state : INIFile × AbstractStore) (call : Call) :
    INIFile × AbstractStore :=
  ((invoke state.1 call).1, apply state.2 call)

/-- What a call answers and leaves, compared with the abstract operation. -/
structure StepRefines (state : INIFile × AbstractStore) (call : Call) :
    Prop where
  answer : (invoke state.1 call).2 = 1 ↔ Applies state.2 call
  refused : (invoke state.1 call).2 = 0 → (invoke state.1 call).1 = state.1
  after : Refines (invoke state.1 call).1 (apply state.2 call)

theorem everyStep_refines (calls : List Call)
    (fit : ∀ call ∈ calls, call.NamesFit) (state : INIFile × AbstractStore)
    (represents : Represents state.1 state.2) :
    EveryStep next StepRefines state calls := by
  induction calls generalizing state with
  | nil => trivial
  | cons call calls ih =>
      obtain ⟨first, later⟩ := List.forall_mem_cons.mp fit
      have after := represents_invoke state.1 state.2 call represents first
      obtain ⟨answer, refused⟩ :=
        invoke_answer state.1 state.2 call represents
      exact ⟨⟨answer, refused, after.refines⟩, ih later (next state call) after⟩

/-- From the store of a missing file on, the calls refine the two-level map. -/
theorem store_refines_map (files : Files) (path : Text)
    (missing : files path = none) (calls : List Call)
    (fit : ∀ call ∈ calls, call.NamesFit) :
    Refines (iniLoad files path) TwoLevelMap.empty ∧
      EveryStep next StepRefines (iniLoad files path, TwoLevelMap.empty)
        calls := by
  have start : Represents (iniLoad files path) TwoLevelMap.empty := by
    rw [iniLoad, missing]
    exact ⟨rfl, by simp [emptyIni], by simp [emptyIni]⟩
  exact ⟨start.refines, everyStep_refines calls fit _ start⟩

/-- Two entries of one section, one of them deleted, then the section. -/
def someCalls : List Call :=
  [.set (ascii "all") (ascii "a") (ascii "1"),
    .setWithComment (ascii "all") (ascii "b") (ascii "0") (some (ascii "off")),
    .deleteKey (ascii "all") (ascii "a"), .deleteKey (ascii "all") (ascii "a"),
    .deleteSection (ascii "all")]

theorem store_refines_map_someCalls :
    Refines (iniLoad (fun _ => none) (ascii "p.ini")) TwoLevelMap.empty ∧
      EveryStep next StepRefines
        (iniLoad (fun _ => none) (ascii "p.ini"), TwoLevelMap.empty)
        someCalls :=
  store_refines_map (fun _ => none) (ascii "p.ini") rfl someCalls (by decide)

end HenPlugins.Ini.StoreMap
