import Mathlib.Data.List.Basic

/-!
# Paths resolved by their text

An absolute path is followed from the root, name by name: an empty name and a
dot stay, two dots go up, and above the root there is nothing.  Where a path
leads from two places is the same if it climbs out of what tells them apart.
-/

set_option autoImplicit false

namespace HenPlugins.Lib.LexicalPath

/-- The two characters that have a meaning in a path. -/
structure Signs (Letter : Type) where
  slash : Letter
  dot : Letter

section Paths
variable {Letter : Type} [DecidableEq Letter] (signs : Signs Letter)

/-- A directory, by the names from the root down to it. -/
abbrev Place (Letter : Type) := List (List Letter)

/-- Names that stay where they are. -/
def Stays (name : List Letter) : Prop := name = [] ∨ name = [signs.dot]

def Climbs (name : List Letter) : Prop := name = [signs.dot, signs.dot]

instance (name : List Letter) : Decidable (Stays signs name) :=
  inferInstanceAs (Decidable (_ ∨ _))

instance (name : List Letter) : Decidable (Climbs signs name) :=
  inferInstanceAs (Decidable (_ = _))

structure AbsolutePath where
  text : List Letter
  absolute : text.head? = some signs.slash

/-- The parent of the root is the root. -/
def parent (place : Place Letter) : Place Letter := place.dropLast

def enter (place : Place Letter) (name : List Letter) : Place Letter :=
  if Stays signs name then place
  else if Climbs signs name then parent place
  else place ++ [name]

def follow (place : Place Letter) (names : List (List Letter)) : Place Letter :=
  names.foldl (enter signs) place

def namesOf (path : List Letter) : List (List Letter) :=
  path.splitOn signs.slash

/-- Where the path leads from a directory. -/
def resolve (base : Place Letter) (path : List Letter) : Place Letter :=
  follow signs (if path.head? = some signs.slash then [] else base)
    (namesOf signs path)

/-- The place that an absolute path names. -/
def placeOf (path : List Letter) : Option (Place Letter) :=
  if path.head? = some signs.slash then
    some (follow signs [] (namesOf signs path))
  else none

/-- How far the names lead above where they begin; `depth` is how far they
have led below. -/
def climbs : Nat → List (List Letter) → Nat
  | _, [] => 0
  | depth, name :: rest =>
      if Stays signs name then climbs depth rest
      else if Climbs signs name then
        if depth = 0 then climbs 0 rest + 1 else climbs (depth - 1) rest
      else climbs (depth + 1) rest

theorem follow_append (place : Place Letter) (front back : List (List Letter)) :
    follow signs place (front ++ back) =
      follow signs (follow signs place front) back :=
  List.foldl_append

theorem follow_cons (place : Place Letter) (name : List Letter)
    (names : List (List Letter)) :
    follow signs place (name :: names) =
      follow signs (enter signs place name) names := rfl

theorem namesOf_append (front back : List Letter) :
    namesOf signs (front ++ signs.slash :: back) =
      namesOf signs front ++ namesOf signs back :=
  List.splitOn_append_cons_self front back

theorem namesOf_nil : namesOf signs [] = [[]] := rfl

theorem namesOf_of_noSlash (name : List Letter)
    (noSlash : signs.slash ∉ name) : namesOf signs name = [name] :=
  List.splitOn_eq_singleton noSlash

theorem enter_nil (place : Place Letter) : enter signs place [] = place := by
  simp [enter, Stays]

theorem resolve_of_absolute (base : Place Letter) (path : List Letter)
    (absolute : path.head? = some signs.slash) :
    resolve signs base path = follow signs [] (namesOf signs path) := by
  rw [resolve, if_pos absolute]

theorem resolve_of_relative (base : Place Letter) (path : List Letter)
    (relative : path.head? ≠ some signs.slash) :
    resolve signs base path = follow signs base (namesOf signs path) := by
  rw [resolve, if_neg relative]

theorem resolve_slash (base : Place Letter) (path : List Letter) :
    resolve signs base (signs.slash :: path) =
      follow signs [] (namesOf signs path) := by
  have names := namesOf_append signs [] path
  rw [List.nil_append, namesOf_nil, List.singleton_append] at names
  rw [resolve_of_absolute signs base _ rfl, names, follow_cons, enter_nil]

theorem resolve_slash_absolute (base : Place Letter) (path : List Letter)
    (absolute : path.head? = some signs.slash) :
    resolve signs base (signs.slash :: path) = resolve signs base path := by
  rw [resolve_slash, resolve_of_absolute signs base path absolute]

theorem placeOf_of_absolute (path : List Letter)
    (absolute : path.head? = some signs.slash) :
    placeOf signs path = some (resolve signs [] path) := by
  rw [placeOf, if_pos absolute, resolve_of_absolute signs [] path absolute]

theorem placeOf_slash (path : List Letter) :
    placeOf signs (signs.slash :: path) =
      some (follow signs [] (namesOf signs path)) := by
  rw [placeOf_of_absolute signs _ rfl, resolve_slash]

theorem resolve_append (base : Place Letter) (front back : List Letter)
    (nonempty : front ≠ []) :
    resolve signs base (front ++ signs.slash :: back) =
      follow signs (resolve signs base front) (namesOf signs back) := by
  have head : (front ++ signs.slash :: back).head? = front.head? := by
    cases front with
    | nil => exact absurd rfl nonempty
    | cons first rest => rfl
  rw [resolve, resolve, head, namesOf_append, follow_append]

theorem climbs_cons (depth : Nat) (name : List Letter)
    (rest : List (List Letter)) :
    climbs signs depth (name :: rest) =
      if Stays signs name then climbs signs depth rest
      else if Climbs signs name then
        if depth = 0 then climbs signs 0 rest + 1
        else climbs signs (depth - 1) rest
      else climbs signs (depth + 1) rest := rfl

/-- The names take away some of the base and add what they lead to by
themselves. -/
theorem follow_below (names : List (List Letter)) (base inner : Place Letter) :
    follow signs (base ++ inner) names =
      base.take (base.length - climbs signs inner.length names) ++
        follow signs inner names := by
  induction names generalizing base inner with
  | nil => simp [follow, climbs]
  | cons name rest ih =>
      rw [follow_cons, follow_cons, climbs_cons, enter, enter]
      by_cases stays : Stays signs name
      · simp only [if_pos stays, ih base inner]
      · simp only [if_neg stays]
        by_cases up : Climbs signs name
        · simp only [if_pos up]
          cases inner with
          | nil =>
              have above := ih (parent base) []
              rw [List.append_nil] at above ⊢
              rw [above]
              simp [parent, List.dropLast_eq_take, List.take_take]
              omega
          | cons first more =>
              have inside : parent (base ++ first :: more) =
                  base ++ parent (first :: more) := by
                simp [parent, List.dropLast_append_of_ne_nil]
              rw [inside, ih, if_neg (by simp)]
              simp [parent]
        · simp only [if_neg up]
          rw [List.append_assoc, ih, List.length_append,
            List.length_singleton]

theorem follow_eq (base : Place Letter) (names : List (List Letter)) :
    follow signs base names =
      base.take (base.length - climbs signs 0 names) ++
        follow signs [] names := by
  have below := follow_below signs names base []
  rw [List.append_nil] at below
  exact below

/-- Two bases make no difference if they agree below what is climbed. -/
theorem follow_eq_follow_iff (left right : Place Letter)
    (names : List (List Letter)) :
    follow signs left names = follow signs right names ↔
      left.take (left.length - climbs signs 0 names) =
        right.take (right.length - climbs signs 0 names) := by
  rw [follow_eq signs left, follow_eq signs right]
  exact List.append_left_inj _

theorem follow_eq_root_iff (base : Place Letter) (names : List (List Letter)) :
    follow signs base names = follow signs [] names ↔
      base.length ≤ climbs signs 0 names := by
  rw [follow_eq_follow_iff, List.take_nil, List.take_eq_nil_iff]
  constructor
  · intro cut
    rcases cut with none | root
    · omega
    · simp [root]
  · intro climbed
    exact Or.inl (by omega)

/-- An absolute path that loses what stands in front of a slash names the
same place exactly if the rest climbs out of what it lost. -/
theorem placeOf_drop_iff (front back : List Letter)
    (absolute : front.head? = some signs.slash) :
    placeOf signs (signs.slash :: back) =
        placeOf signs (front ++ signs.slash :: back) ↔
      (resolve signs [] front).length ≤
        climbs signs 0 (namesOf signs back) := by
  have nonempty : front ≠ [] := by
    intro empty
    rw [empty] at absolute
    contradiction
  have head : (front ++ signs.slash :: back).head? = some signs.slash := by
    rw [List.head?_append, absolute]
    rfl
  rw [placeOf_slash, placeOf_of_absolute signs _ head,
    resolve_append signs [] front back nonempty, Option.some.injEq, eq_comm,
    follow_eq_root_iff]

/-- What is behind the last slash. -/
def lastName (path : List Letter) : List Letter :=
  (path.reverse.takeWhile fun letter => letter ≠ signs.slash).reverse

/-- What is in front of the last slash. -/
def beforeLast (path : List Letter) : List Letter :=
  ((path.reverse.dropWhile fun letter => letter ≠ signs.slash).drop 1).reverse

omit [DecidableEq Letter] in
theorem exists_last (path : List Letter) (slash : signs.slash ∈ path) :
    ∃ front name, path = front ++ signs.slash :: name ∧
      signs.slash ∉ name := by
  obtain ⟨back, rest, split, plain⟩ :=
    List.eq_append_cons_of_mem (List.mem_reverse.mpr slash)
  refine ⟨rest.reverse, back.reverse, ?_, by simpa using plain⟩
  rw [← List.reverse_reverse path, split]
  simp

section Last
variable (front name : List Letter) (noSlash : signs.slash ∉ name)

include noSlash in
theorem last_append :
    lastName signs (front ++ signs.slash :: name) = name ∧
      beforeLast signs (front ++ signs.slash :: name) = front := by
  have plain : ∀ letter ∈ name.reverse,
      decide (letter ≠ signs.slash) = true := by
    intro letter member
    rw [List.mem_reverse] at member
    rw [decide_eq_true_eq]
    intro same
    exact noSlash (same ▸ member)
  have turned : (front ++ signs.slash :: name).reverse =
      name.reverse ++ signs.slash :: front.reverse := by simp
  rw [lastName, beforeLast, turned, List.takeWhile_append_of_pos plain,
    List.dropWhile_append_of_pos plain]
  simp

end Last

theorem enter_name (place : Place Letter) (name : List Letter)
    (stays : ¬ Stays signs name) (climbs : ¬ Climbs signs name) :
    enter signs place name = place ++ [name] := by
  rw [enter, if_neg stays, if_neg climbs]

omit [DecidableEq Letter] in
theorem parent_eq_self_iff (place : Place Letter) :
    place = parent place ↔ place = [] := by
  constructor
  · intro same
    have length := congrArg List.length same
    rw [parent, List.length_dropLast] at length
    exact List.eq_nil_of_length_eq_zero (by omega)
  · intro root
    rw [root]
    rfl

/-- Entering a name and leaving it again comes back exactly for a real name,
and at the root for every name. -/
theorem eq_parent_enter_iff (place : Place Letter) (name : List Letter) :
    place = parent (enter signs place name) ↔
      (¬ Stays signs name ∧ ¬ Climbs signs name) ∨ place = [] := by
  by_cases stays : Stays signs name
  · rw [enter, if_pos stays, parent_eq_self_iff]
    simp [stays]
  · by_cases up : Climbs signs name
    · rw [enter, if_neg stays, if_pos up]
      simp only [up, not_true_eq_false, and_false, false_or]
      constructor
      · intro same
        have length := congrArg List.length same
        simp only [parent, List.length_dropLast] at length
        exact List.eq_nil_of_length_eq_zero (by omega)
      · intro root
        rw [root]
        rfl
    · rw [enter_name signs place name stays up, parent,
        List.dropLast_concat]
      simp [stays, up]

/-- The directories of a tree without links. -/
structure Directories (Letter : Type) where
  isDir : Place Letter → Bool
  root : isDir [] = true
  closed : ∀ place name, isDir (place ++ [name]) = true → isDir place = true

section Directories
variable (tree : Directories Letter)

/-- Every step of the way begins and ends in a directory. -/
def Directories.walks : Place Letter → List (List Letter) → Bool
  | place, [] => tree.isDir place
  | place, name :: rest =>
      tree.isDir place && walks (enter signs place name) rest

/-- The directory that an absolute path names in the tree. -/
def Directories.locate (path : List Letter) : Option (Place Letter) :=
  if path.head? = some signs.slash ∧
      tree.walks signs [] (namesOf signs path) = true then
    some (resolve signs [] path)
  else none

theorem walks_append (place : Place Letter)
    (front back : List (List Letter))
    (whole : tree.walks signs place (front ++ back) = true) :
    tree.walks signs place front = true := by
  induction front generalizing place with
  | nil =>
      cases back with
      | nil => exact whole
      | cons name rest =>
          rw [List.nil_append, Directories.walks, Bool.and_eq_true] at whole
          exact whole.1
  | cons name front ih =>
      rw [List.cons_append, Directories.walks, Bool.and_eq_true] at whole
      rw [Directories.walks, Bool.and_eq_true]
      exact ⟨whole.1, ih _ whole.2⟩

theorem locate_eq_some_iff (path : List Letter) (place : Place Letter) :
    tree.locate signs path = some place ↔
      path.head? = some signs.slash ∧
        tree.walks signs [] (namesOf signs path) = true ∧
        resolve signs [] path = place := by
  rw [Directories.locate]
  split
  · rename_i found
    simp [found]
  · rename_i missing
    simp only [false_iff, reduceCtorEq]
    intro located
    exact missing ⟨located.1, located.2.1⟩

theorem locate_root : tree.locate signs [signs.slash] = some [] := by
  have names : namesOf signs [signs.slash] = [[], []] :=
    namesOf_append signs [] []
  rw [locate_eq_some_iff, resolve_slash, names, namesOf_nil]
  simp [Directories.walks, enter_nil, follow, tree.root]

theorem locate_front (front name : List Letter) (place : Place Letter)
    (located : tree.locate signs (front ++ signs.slash :: name) = some place)
    (noSlash : signs.slash ∉ name) :
    tree.locate signs (if front = [] then [signs.slash] else front) =
        some (resolve signs [] front) ∧
      place = enter signs (resolve signs [] front) name := by
  obtain ⟨absolute, whole, rfl⟩ := (locate_eq_some_iff ..).mp located
  rw [namesOf_append] at whole
  by_cases empty : front = []
  · subst empty
    have here : resolve signs [] ([] : List Letter) = [] := by
      simp [resolve, namesOf_nil, follow, enter_nil]
    rw [if_pos rfl, locate_root, here, List.nil_append, resolve_slash,
      namesOf_of_noSlash signs name noSlash]
    exact ⟨rfl, rfl⟩
  · rw [List.head?_append_of_ne_nil _ empty] at absolute
    rw [if_neg empty, locate_eq_some_iff, resolve_append signs [] _ _ empty,
      namesOf_of_noSlash signs name noSlash]
    exact ⟨⟨absolute, walks_append signs tree [] _ _ whole, rfl⟩, rfl⟩

end Directories

end Paths

end HenPlugins.Lib.LexicalPath
