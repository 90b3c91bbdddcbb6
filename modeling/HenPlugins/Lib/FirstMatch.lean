import Mathlib.Data.List.Basic

/-!
# In-place update of the first match

Singly linked lists are searched from the head, and the first node that
matches is changed in place.  The list of nodes is the model of the chain.
-/

set_option autoImplicit false

namespace HenPlugins.Lib.FirstMatch

variable {Node : Type}

def updateFirst (hit : Node → Bool) (change : Node → Node) :
    List Node → List Node
  | [] => []
  | node :: rest =>
      if hit node then change node :: rest
      else node :: updateFirst hit change rest

/-- The chain splits at the first match, and only that node changes. -/
theorem updateFirst_split (hit : Node → Bool) (change : Node → Node)
    (nodes : List Node) (node : Node) (found : nodes.find? hit = some node) :
    ∃ front back, nodes = front ++ node :: back ∧ hit node = true ∧
      (∀ other ∈ front, hit other = false) ∧
      updateFirst hit change nodes = front ++ change node :: back := by
  induction nodes with
  | nil => simp at found
  | cons first rest ih =>
      by_cases isHit : hit first
      · rw [List.find?_cons_of_pos isHit] at found
        cases Option.some.inj found
        exact ⟨[], rest, rfl, isHit, by simp, by simp [updateFirst, isHit]⟩
      · rw [List.find?_cons_of_neg isHit] at found
        obtain ⟨front, back, whole, nodeHit, clear, updated⟩ := ih found
        refine ⟨first :: front, back, by simp [whole], nodeHit, ?_, ?_⟩
        · intro other member
          rcases List.mem_cons.mp member with rfl | later
          · simpa using isHit
          · exact clear other later
        · simp [updateFirst, isHit, updated]

theorem updateFirst_of_clear (hit : Node → Bool) (change : Node → Node)
    (nodes : List Node) (clear : ∀ node ∈ nodes, hit node = false) :
    updateFirst hit change nodes = nodes := by
  induction nodes with
  | nil => rfl
  | cons node rest ih =>
      rw [updateFirst, clear node (List.mem_cons_self ..),
        ih fun other member => clear other (List.mem_cons_of_mem _ member)]
      rfl

theorem updateFirst_append (hit : Node → Bool) (change : Node → Node)
    (front back : List Node) (node : Node)
    (clear : ∀ other ∈ front, hit other = false) (isHit : hit node = true) :
    updateFirst hit change (front ++ node :: back) =
      front ++ change node :: back := by
  induction front with
  | nil => rw [List.nil_append, updateFirst, if_pos isHit, List.nil_append]
  | cons first rest ih =>
      rw [List.cons_append, updateFirst, clear first (List.mem_cons_self ..),
        ih fun other member => clear other (List.mem_cons_of_mem _ member)]
      rfl

/-- Unlink the first match; `none` when there is none. -/
def unlinkFirst (hit : Node → Bool) : List Node → Option (List Node)
  | [] => none
  | node :: rest =>
      if hit node then some rest
      else (unlinkFirst hit rest).map (node :: ·)

theorem unlinkFirst_isSome (hit : Node → Bool) (nodes : List Node) :
    (unlinkFirst hit nodes).isSome = (nodes.find? hit).isSome := by
  induction nodes with
  | nil => rfl
  | cons node rest ih =>
      by_cases isHit : hit node = true
      · rw [unlinkFirst, if_pos isHit, List.find?_cons_of_pos isHit]
        rfl
      · rw [unlinkFirst, if_neg isHit, List.find?_cons_of_neg isHit,
          Option.isSome_map, ih]

theorem unlinkFirst_sublist (hit : Node → Bool) (nodes kept : List Node)
    (unlinked : unlinkFirst hit nodes = some kept) : kept.Sublist nodes := by
  induction nodes generalizing kept with
  | nil => contradiction
  | cons node rest ih =>
      rw [unlinkFirst] at unlinked
      split at unlinked
      · cases Option.some.inj unlinked
        exact List.sublist_cons_self node rest
      · obtain ⟨later, found, rfl⟩ := Option.map_eq_some_iff.mp unlinked
        exact (ih later found).cons_cons node

theorem find?_unlinkFirst_other (hit other : Node → Bool)
    (nodes kept : List Node)
    (apart : ∀ node, hit node = true → other node = false)
    (unlinked : unlinkFirst hit nodes = some kept) :
    kept.find? other = nodes.find? other := by
  induction nodes generalizing kept with
  | nil => contradiction
  | cons node rest ih =>
      rw [unlinkFirst] at unlinked
      split at unlinked
      · rename_i isHit
        cases Option.some.inj unlinked
        rw [List.find?_cons, apart node isHit]
      · obtain ⟨later, found, rfl⟩ := Option.map_eq_some_iff.mp unlinked
        rw [List.find?_cons, List.find?_cons, ih later found]

theorem find?_unlinkFirst (hit : Node → Bool) (nodes kept : List Node)
    (unlinked : unlinkFirst hit nodes = some kept) :
    kept.find? hit = ((nodes.filter hit).drop 1).head? := by
  induction nodes generalizing kept with
  | nil => contradiction
  | cons node rest ih =>
      rw [unlinkFirst] at unlinked
      rw [List.filter_cons]
      split at unlinked
      · rename_i isHit
        cases Option.some.inj unlinked
        rw [if_pos isHit, List.drop_succ_cons, List.drop_zero, List.head?_filter]
      · rename_i isOther
        obtain ⟨later, found, rfl⟩ := Option.map_eq_some_iff.mp unlinked
        rw [if_neg isOther, List.find?_cons_of_neg isOther, ih later found]

theorem find?_updateFirst (hit : Node → Bool) (change : Node → Node)
    (nodes : List Node) (keeps : ∀ node, hit node = true →
      hit (change node) = true) :
    (updateFirst hit change nodes).find? hit =
      (nodes.find? hit).map change := by
  induction nodes with
  | nil => rfl
  | cons node rest ih =>
      rw [updateFirst]
      by_cases isHit : hit node = true
      · rw [if_pos isHit, List.find?_cons_of_pos isHit,
          List.find?_cons_of_pos (keeps node isHit), Option.map_some]
      · rw [if_neg isHit, List.find?_cons_of_neg isHit,
          List.find?_cons_of_neg isHit, ih]

/-- Put the updated fresh node in front when nothing matches. -/
def updateOrInsert (hit : Node → Bool) (change : Node → Node) (fresh : Node)
    (nodes : List Node) : List Node :=
  if (nodes.find? hit).isSome then updateFirst hit change nodes
  else change fresh :: nodes

/-- A change that settles the node it is made to. -/
structure Settles (hit : Node → Bool) (change : Node → Node) : Prop where
  keeps : ∀ node, hit node = true → hit (change node) = true
  again : ∀ node, change (change node) = change node

theorem updateFirst_twice (hit : Node → Bool) (change : Node → Node)
    (nodes : List Node) (settles : Settles hit change) :
    updateFirst hit change (updateFirst hit change nodes) =
      updateFirst hit change nodes := by
  induction nodes with
  | nil => rfl
  | cons node rest ih =>
      rw [updateFirst]
      by_cases isHit : hit node = true
      · rw [if_pos isHit, updateFirst, if_pos (settles.keeps node isHit),
          settles.again]
      · rw [if_neg isHit, updateFirst, if_neg isHit, ih]

/-- If the fresh node matches, the second time finds what the first left. -/
theorem updateOrInsert_twice (hit : Node → Bool) (change : Node → Node)
    (fresh : Node) (nodes : List Node) (settles : Settles hit change)
    (freshHit : hit fresh = true) :
    updateOrInsert hit change fresh (updateOrInsert hit change fresh nodes) =
      updateOrInsert hit change fresh nodes := by
  have changedHit := settles.keeps fresh freshHit
  by_cases present : (nodes.find? hit).isSome = true
  · have found : ((updateFirst hit change nodes).find? hit).isSome = true := by
      rw [find?_updateFirst hit change nodes settles.keeps, Option.isSome_map,
        present]
    rw [updateOrInsert, updateOrInsert, if_pos present, if_pos found,
      updateFirst_twice hit change nodes settles]
  · have found : ((change fresh :: nodes).find? hit).isSome = true := by
      rw [List.find?_cons_of_pos changedHit, Option.isSome_some]
    rw [updateOrInsert, updateOrInsert, if_neg present, if_pos found,
      updateFirst, if_pos changedHit, settles.again]

theorem updateOrInsert_of_clear (hit : Node → Bool) (change : Node → Node)
    (fresh : Node) (nodes : List Node)
    (clear : ∀ node ∈ nodes, hit node = false) :
    updateOrInsert hit change fresh nodes = change fresh :: nodes := by
  have missing : nodes.find? hit = none := by
    apply List.find?_eq_none.mpr
    intro node member
    simp [clear node member]
  rw [updateOrInsert, missing, if_neg (by simp)]

theorem length_flatMap_updateOrInsert {Item : Type} (hit : Node → Bool)
    (change : Node → Node) (fresh : Node) (nodes : List Node)
    (items : Node → List Item) (growth : Nat) (empty : items fresh = [])
    (grows : ∀ node, (items (change node)).length =
      (items node).length + growth) :
    ((updateOrInsert hit change fresh nodes).flatMap items).length =
      (nodes.flatMap items).length + growth := by
  rw [updateOrInsert]
  split
  · rename_i present
    obtain ⟨node, found⟩ := Option.isSome_iff_exists.mp present
    obtain ⟨front, back, whole, -, -, updated⟩ :=
      updateFirst_split hit change nodes node found
    rw [updated, whole]
    simp only [List.flatMap_append, List.flatMap_cons, List.length_append,
      grows]
    omega
  · rw [List.flatMap_cons, List.length_append, grows, empty, List.length_nil]
    omega

/-- The nodes before the first match; none when a match has to be put in
front. -/
def beforeFirst (hit : Node → Bool) (nodes : List Node) : List Node :=
  if nodes.any hit then nodes.takeWhile fun node => !hit node else []

def afterFirst (hit : Node → Bool) (nodes : List Node) : List Node :=
  if nodes.any hit then (nodes.dropWhile fun node => !hit node).drop 1
  else nodes

theorem around_of_clear (hit : Node → Bool) (nodes : List Node)
    (clear : ∀ node ∈ nodes, hit node = false) :
    beforeFirst hit nodes = [] ∧ afterFirst hit nodes = nodes := by
  have missing : nodes.any hit = false := by simpa using clear
  simp [beforeFirst, afterFirst, missing]

theorem around_append (hit : Node → Bool) (front back : List Node)
    (node : Node) (clear : ∀ other ∈ front, hit other = false)
    (isHit : hit node = true) :
    beforeFirst hit (front ++ node :: back) = front ∧
      afterFirst hit (front ++ node :: back) = back := by
  have present : (front ++ node :: back).any hit = true := by simp [isHit]
  have passed : ∀ other ∈ front, (!hit other) = true := by
    intro other member
    rw [clear other member]
    rfl
  rw [beforeFirst, afterFirst, if_pos present, if_pos present,
    List.takeWhile_append_of_pos passed, List.dropWhile_append_of_pos passed]
  simp [isHit]

end HenPlugins.Lib.FirstMatch
