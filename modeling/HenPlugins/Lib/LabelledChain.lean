import HenPlugins.Lib.FirstMatch
import Mathlib.Data.List.Nodup
import Mathlib.Logic.Function.Basic

/-!
# Chains of labelled nodes as maps

A chain that is searched for the first node of a label stands for a map from
labels to contents.  Changing the first match, putting a node in front and
unlinking the first match are updates of that map at one label; for unlinking,
no label may occur twice.
-/

set_option autoImplicit false

namespace HenPlugins.Lib.LabelledChain

open HenPlugins.Lib.FirstMatch

section Chain
variable {Node Label Content : Type} [DecidableEq Label] [BEq Label]
  [LawfulBEq Label] (label : Node → Label) (content : Node → Content)

/-- The content of the first node with the label. -/
def chainMap (nodes : List Node) (name : Label) : Option Content :=
  (nodes.find? fun node => label node == name).map content

theorem chainMap_cons (node : Node) (nodes : List Node) :
    chainMap label content (node :: nodes) =
      Function.update (chainMap label content nodes) (label node)
        (some (content node)) := by
  funext name
  by_cases same : name = label node
  · simp [chainMap, same]
  · have differ : (label node == name) = false := by
      simpa using fun clash : label node = name => same clash.symm
    simp [chainMap, same, differ]

theorem chainMap_updateFirst (change : Node → Node) (nodes : List Node)
    (name : Label) (keeps : ∀ node, label (change node) = label node) :
    chainMap label content
        (updateFirst (fun node => label node == name) change nodes) =
      Function.update (chainMap label content nodes) name
        ((nodes.find? fun node => label node == name).map
          fun node => content (change node)) := by
  induction nodes with
  | nil => simp [updateFirst, chainMap]
  | cons node rest ih =>
      rw [chainMap_cons]
      by_cases hit : label node = name
      · rw [updateFirst, if_pos (by simpa using hit), chainMap_cons, keeps,
          hit, Function.update_idem, List.find?_cons_of_pos (by simpa using hit)]
        rfl
      · rw [updateFirst, if_neg (by simpa using hit), chainMap_cons, ih,
          List.find?_cons_of_neg (by simpa using hit),
          Function.update_comm hit]

section Unlinking
variable (nodes kept : List Node) (name : Label)
  (unlinked : unlinkFirst (fun node => label node == name) nodes = some kept)
include unlinked

omit [DecidableEq Label] in
theorem chainMap_unlinkFirst_other (other : Label) (differ : other ≠ name) :
    chainMap label content kept other = chainMap label content nodes other := by
  have apart : ∀ node, (label node == name) = true →
      (label node == other) = false := by
    intro node same
    rw [eq_of_beq same]
    simpa using fun clash : name = other => differ clash.symm
  rw [chainMap, chainMap, find?_unlinkFirst_other _ _ _ _ apart unlinked]

omit [DecidableEq Label] [LawfulBEq Label] in
/-- What was hidden behind the unlinked node comes to light. -/
theorem chainMap_unlinkFirst_self :
    chainMap label content kept name =
      ((nodes.filter fun node => label node == name).drop 1).head?.map
        content := by
  rw [chainMap, find?_unlinkFirst _ _ _ unlinked]

theorem chainMap_unlinkFirst (distinct : (nodes.map label).Nodup) :
    chainMap label content kept =
      Function.update (chainMap label content nodes) name none := by
  funext other
  by_cases same : other = name
  · have single : (nodes.filter fun node => label node == name).length ≤ 1 := by
      have once := List.nodup_iff_count_le_one.mp distinct name
      rwa [List.count, List.countP_map, List.countP_eq_length_filter] at once
    rw [same, Function.update_self,
      chainMap_unlinkFirst_self label content nodes kept name unlinked,
      List.drop_eq_nil_of_le single]
    rfl
  · rw [Function.update_of_ne same,
      chainMap_unlinkFirst_other label content nodes kept name unlinked other
        same]

end Unlinking

omit [DecidableEq Label] [BEq Label] [LawfulBEq Label] in
theorem labels_updateFirst (hit : Node → Bool) (change : Node → Node)
    (nodes : List Node) (keeps : ∀ node, label (change node) = label node) :
    (updateFirst hit change nodes).map label = nodes.map label := by
  induction nodes with
  | nil => rfl
  | cons node rest ih =>
      rw [updateFirst]
      split
      · rw [List.map_cons, List.map_cons, keeps]
      · rw [List.map_cons, List.map_cons, ih]

omit [DecidableEq Label] in
theorem chainMap_eq_some_iff (nodes : List Node)
    (distinct : (nodes.map label).Nodup) (name : Label) (found : Content) :
    chainMap label content nodes name = some found ↔
      ∃ node ∈ nodes, label node = name ∧ content node = found := by
  induction nodes with
  | nil => simp [chainMap]
  | cons node rest ih =>
      obtain ⟨alone, apart⟩ := List.nodup_cons.mp distinct
      rw [List.exists_mem_cons_iff, ← ih apart]
      by_cases hit : label node = name
      · have gone : ∀ other ∈ rest, label other ≠ name := by
          intro other member same
          exact alone (List.mem_map.mpr ⟨other, member, same.trans hit.symm⟩)
        have missing : chainMap label content rest name = none := by
          rw [chainMap, Option.map_eq_none_iff, List.find?_eq_none]
          intro other member
          simpa using gone other member
        rw [missing, chainMap, List.find?_cons_of_pos (by simpa using hit)]
        simp [hit]
      · rw [chainMap, chainMap, List.find?_cons_of_neg (by simpa using hit)]
        simp [hit]

omit [DecidableEq Label] in
theorem chainMap_reverse (nodes : List Node)
    (distinct : (nodes.map label).Nodup) :
    chainMap label content nodes.reverse = chainMap label content nodes := by
  funext name
  have again : (nodes.reverse.map label).Nodup := by
    rw [List.map_reverse, List.nodup_reverse]
    exact distinct
  apply Option.ext
  intro found
  simp only [chainMap_eq_some_iff label content _ again,
    chainMap_eq_some_iff label content _ distinct, List.mem_reverse]

omit [DecidableEq Label] [LawfulBEq Label] in
theorem chainMap_map {Other : Type} (view : Other → Node)
    (nodes : List Other) :
    chainMap label content (nodes.map view) =
      chainMap (fun node => label (view node))
        (fun node => content (view node)) nodes := by
  funext name
  rw [chainMap, chainMap, List.find?_map, Option.map_map]
  rfl

omit [DecidableEq Label] [LawfulBEq Label] in
theorem chainMap_congr (other : Node → Content) (nodes : List Node)
    (same : ∀ node ∈ nodes, content node = other node) :
    chainMap label content nodes = chainMap label other nodes := by
  funext name
  rw [chainMap, chainMap]
  cases found : nodes.find? fun node => label node == name with
  | none => rfl
  | some node =>
      rw [Option.map_some, Option.map_some,
        same node (List.mem_of_find?_eq_some found)]

omit [DecidableEq Label] in
theorem not_mem_labels (nodes : List Node) (name : Label)
    (missing : (nodes.find? fun node => label node == name) = none) :
    name ∉ nodes.map label := by
  intro member
  obtain ⟨node, inside, same⟩ := List.mem_map.mp member
  have unnamed := List.find?_eq_none.mp missing node inside
  simp [same] at unnamed

end Chain

section TwoLevels
variable {Name Key Value Image : Type} [DecidableEq Name] [DecidableEq Key]

/-- Named groups of entries; a group may be empty. -/
abbrev TwoLevelMap (Name Key Value : Type) := Name → Option (Key → Option Value)

def TwoLevelMap.empty : TwoLevelMap Name Key Value := fun _ => none

def TwoLevelMap.get (map : TwoLevelMap Name Key Value) (name : Name)
    (key : Key) : Option Value :=
  (map name).bind fun entries => entries key

/-- Set one entry; a missing group is created. -/
def TwoLevelMap.set (map : TwoLevelMap Name Key Value) (name : Name) (key : Key)
    (value : Value) : TwoLevelMap Name Key Value :=
  Function.update map name
    (some (Function.update ((map name).getD fun _ => none) key (some value)))

/-- Remove one entry; its group stays. -/
def TwoLevelMap.deleteKey (map : TwoLevelMap Name Key Value) (name : Name)
    (key : Key) : TwoLevelMap Name Key Value :=
  Function.update map name
    ((map name).map fun entries => Function.update entries key none)

def TwoLevelMap.deleteGroup (map : TwoLevelMap Name Key Value) (name : Name) :
    TwoLevelMap Name Key Value :=
  Function.update map name none

def TwoLevelMap.mapValues (convert : Value → Image)
    (map : TwoLevelMap Name Key Value) : TwoLevelMap Name Key Image :=
  fun name => (map name).map fun entries key => (entries key).map convert

variable (convert : Value → Image) (map : TwoLevelMap Name Key Value)

omit [DecidableEq Name] [DecidableEq Key] in
theorem TwoLevelMap.get_mapValues (name : Name) (key : Key) :
    (map.mapValues convert).get name key =
      (map.get name key).map convert := by
  rw [get, get, mapValues]
  cases map name <;> rfl

theorem TwoLevelMap.get_set_other (map : TwoLevelMap Name Key Value)
    (name other : Name) (key otherKey : Key) (value : Value)
    (differ : (other, otherKey) ≠ (name, key)) :
    (map.set name key value).get other otherKey = map.get other otherKey := by
  by_cases same : other = name
  · subst same
    have keysDiffer : otherKey ≠ key := by
      intro sameKey
      exact differ (by rw [sameKey])
    rw [get, get, set, Function.update_self, Option.bind_some,
      Function.update_of_ne keysDiffer]
    cases map other <;> rfl
  · rw [get, get, set, Function.update_of_ne same]

theorem TwoLevelMap.mapValues_set (name : Name) (key : Key) (value : Value) :
    (map.set name key value).mapValues convert =
      (map.mapValues convert).set name key (convert value) := by
  funext other
  by_cases same : other = name
  · subst same
    simp only [mapValues, set, Function.update_self, Option.map_some]
    congr 1
    funext inner
    by_cases found : inner = key
    · subst found
      simp
    · simp only [Function.update_of_ne found]
      cases map other <;> rfl
  · simp [mapValues, set, same]

theorem TwoLevelMap.mapValues_deleteKey (name : Name) (key : Key) :
    (map.deleteKey name key).mapValues convert =
      (map.mapValues convert).deleteKey name key := by
  funext other
  by_cases same : other = name
  · subst same
    simp only [mapValues, deleteKey, Function.update_self, Option.map_map]
    congr 1
    funext entries inner
    by_cases found : inner = key
    · subst found
      simp
    · simp [found]
  · simp [mapValues, deleteKey, same]

omit [DecidableEq Key] in
theorem TwoLevelMap.mapValues_deleteGroup (name : Name) :
    (map.deleteGroup name).mapValues convert =
      (map.mapValues convert).deleteGroup name := by
  funext other
  by_cases same : other = name
  · simp [mapValues, deleteGroup, same]
  · simp [mapValues, deleteGroup, same]

end TwoLevels

end HenPlugins.Lib.LabelledChain
