import Mathlib.Data.List.Basic

/-!
# Substitution at the leftmost matches

A text is read from left to right.  Where the search text stands, some pieces
are put in its place and the reading goes on behind it; any other element is a
piece of its own.  Keeping the pieces apart says where a text may be cut.
-/

set_option autoImplicit false

namespace HenPlugins.Lib.Substitution

variable {α : Type} [DecidableEq α] (search : List α) (put : List (List α))

/-- The pieces, when so many elements still belong to a match. -/
def piecesAfter : Nat → List α → List (List α)
  | _, [] => []
  | passed + 1, _ :: rest => piecesAfter passed rest
  | 0, head :: rest =>
      if search.isPrefixOf (head :: rest) then
        put ++ piecesAfter (search.length - 1) rest
      else [head] :: piecesAfter 0 rest

def pieces (text : List α) : List (List α) :=
  piecesAfter search put 0 text

def substitute (text : List α) : List α :=
  (pieces search put text).flatten

theorem piecesAfter_eq_drop (passed : Nat) (text : List α) :
    piecesAfter search put passed text =
      pieces search put (text.drop passed) := by
  induction text generalizing passed with
  | nil =>
      rw [List.drop_nil]
      cases passed <;> rfl
  | cons head rest ih =>
      cases passed with
      | zero => rfl
      | succ passed =>
          rw [piecesAfter, List.drop_succ_cons]
          exact ih passed

@[simp] theorem pieces_nil : pieces search put [] = [] := rfl

theorem pieces_copy (head : α) (rest : List α)
    (noMatch : search.isPrefixOf (head :: rest) = false) :
    pieces search put (head :: rest) = [head] :: pieces search put rest := by
  rw [pieces, piecesAfter, noMatch]
  rfl

theorem pieces_hit (text : List α) (nonempty : search ≠ [])
    (found : search.isPrefixOf text = true) :
    pieces search put text =
      put ++ pieces search put (text.drop search.length) := by
  cases text with
  | nil =>
      have empty := List.isPrefixOf_iff_prefix.mp found
      exact absurd (List.prefix_nil.mp empty) nonempty
  | cons head rest =>
      rw [pieces, piecesAfter, if_pos found, piecesAfter_eq_drop]
      cases search with
      | nil => exact absurd rfl nonempty
      | cons first others => rfl

theorem mem_flatten_piecesAfter (element : α) (passed : Nat) (text : List α)
    (member : element ∈ (piecesAfter search put passed text).flatten) :
    element ∈ text ∨ element ∈ put.flatten := by
  induction text generalizing passed with
  | nil =>
      cases passed <;> exact absurd member (List.not_mem_nil)
  | cons head rest ih =>
      cases passed with
      | zero =>
          rw [piecesAfter] at member
          split at member
          · rw [List.flatten_append, List.mem_append] at member
            obtain inPut | later := member
            · exact Or.inr inPut
            · exact (ih _ later).imp_left (List.mem_cons_of_mem head)
          · rw [List.flatten_cons, List.mem_append, List.mem_singleton]
              at member
            obtain rfl | later := member
            · exact Or.inl List.mem_cons_self
            · exact (ih 0 later).imp_left (List.mem_cons_of_mem head)
      | succ passed =>
          rw [piecesAfter] at member
          exact (ih passed member).imp_left (List.mem_cons_of_mem head)

theorem pieces_induction {motive : List α → Prop} (nonempty : search ≠ [])
    (nil : motive [])
    (hit : ∀ text, search.isPrefixOf text = true →
      motive (text.drop search.length) → motive text)
    (copy : ∀ head rest, search.isPrefixOf (head :: rest) = false →
      motive rest → motive (head :: rest))
    (text : List α) : motive text := by
  induction shape : text.length using Nat.strongRecOn generalizing text with
  | _ size ih =>
      cases text with
      | nil => exact nil
      | cons head rest =>
          rw [List.length_cons] at shape
          cases found : search.isPrefixOf (head :: rest) with
          | true =>
              have positive := List.length_pos_iff.mpr nonempty
              apply hit _ found
              apply ih _ _ _ rfl
              rw [List.length_drop, List.length_cons]
              omega
          | false =>
              apply copy head rest found
              exact ih rest.length (by omega) rest rfl

/-- Only a match makes an empty piece here. -/
def countMatches (text : List α) : Nat :=
  (pieces search [[]] text).count []

theorem countMatches_hit (text : List α) (nonempty : search ≠ [])
    (found : search.isPrefixOf text = true) :
    countMatches search text =
      countMatches search (text.drop search.length) + 1 := by
  rw [countMatches, pieces_hit search [[]] text nonempty found,
    List.count_append, Nat.add_comm]
  rfl

theorem countMatches_copy (head : α) (rest : List α)
    (noMatch : search.isPrefixOf (head :: rest) = false) :
    countMatches search (head :: rest) = countMatches search rest := by
  rw [countMatches, pieces_copy search [[]] head rest noMatch,
    List.count_cons_of_ne (List.cons_ne_nil head [])]
  rfl

theorem length_substitute (nonempty : search ≠ []) (text : List α) :
    (substitute search put text).length +
        search.length * countMatches search text =
      text.length + put.flatten.length * countMatches search text := by
  induction text using pieces_induction search nonempty with
  | nil => rfl
  | hit text found ih =>
      have long := (List.isPrefixOf_iff_prefix.mp found).length_le
      rw [substitute, pieces_hit search put text nonempty found,
        List.flatten_append, List.length_append,
        countMatches_hit search text nonempty found]
      rw [substitute, List.length_drop] at ih
      rw [Nat.mul_succ, Nat.mul_succ]
      omega
  | copy head rest noMatch ih =>
      rw [substitute, pieces_copy search put head rest noMatch,
        List.flatten_cons, List.length_append,
        countMatches_copy search head rest noMatch]
      rw [substitute] at ih
      simp only [List.length_cons, List.length_nil]
      omega

/-- An element that the search text does not have ends every match before
it. -/
theorem isPrefixOf_append_foreign (foreign : α) (absent : foreign ∉ search)
    (left right : List α) :
    search.isPrefixOf (left ++ foreign :: right) = search.isPrefixOf left := by
  induction left generalizing search with
  | nil =>
      cases search with
      | nil => rfl
      | cons first others =>
          have other : first ≠ foreign := by
            rintro rfl
            exact absent List.mem_cons_self
          simp [List.isPrefixOf, other]
  | cons head rest ih =>
      cases search with
      | nil => rfl
      | cons first others =>
          have later := ih others (fun member =>
            absent (List.mem_cons_of_mem first member))
          simp [List.isPrefixOf, later]

theorem countMatches_append_foreign (foreign : α) (absent : foreign ∉ search)
    (nonempty : search ≠ []) (left right : List α) :
    countMatches search (left ++ foreign :: right) =
      countMatches search left + countMatches search right := by
  have same := isPrefixOf_append_foreign search foreign absent
  induction left using pieces_induction search nonempty with
  | nil =>
      have noMatch : search.isPrefixOf (foreign :: right) = false := by
        rw [← List.nil_append (foreign :: right), same]
        cases search with
        | nil => exact absurd rfl nonempty
        | cons first others => rfl
      rw [List.nil_append, countMatches_copy search foreign right noMatch]
      exact (Nat.zero_add _).symm
  | hit text found ih =>
      have long := (List.isPrefixOf_iff_prefix.mp found).length_le
      rw [countMatches_hit search text nonempty found,
        countMatches_hit search _ nonempty ((same text right).trans found),
        List.drop_append_of_le_length long, ih]
      omega
  | copy head rest noMatch ih =>
      have stays := (same (head :: rest) right).trans noMatch
      rw [List.cons_append] at stays ⊢
      rw [countMatches_copy search head _ stays,
        countMatches_copy search head rest noMatch, ih]

section LastElement
variable (last : α) (others : List α)

/-- A search text that has its last element nowhere else ends where that
element stands. -/
theorem isPrefixOf_append_last (once : last ∉ others) (left right : List α) :
    (others ++ [last]).isPrefixOf (left ++ last :: right) =
      (others ++ [last]).isPrefixOf (left ++ [last]) := by
  induction left generalizing others with
  | nil =>
      cases others with
      | nil => simp [List.isPrefixOf]
      | cons first later =>
          have other : first ≠ last := by
            rintro rfl
            exact once List.mem_cons_self
          simp [List.isPrefixOf, other]
  | cons head rest ih =>
      cases others with
      | nil => simp [List.isPrefixOf]
      | cons first later =>
          have same := ih later (fun member =>
            once (List.mem_cons_of_mem first member))
          simp [List.isPrefixOf, same]

omit [DecidableEq α] in
theorem ends_drop (count : Nat) (text : List α)
    (ended : text = [] ∨ ∃ left, text = left ++ [last]) :
    text.drop count = [] ∨ ∃ left, text.drop count = left ++ [last] := by
  obtain rfl | ⟨left, rfl⟩ := ended
  · exact Or.inl List.drop_nil
  · by_cases short : count ≤ left.length
    · right
      exact ⟨left.drop count, List.drop_append_of_le_length short⟩
    · left
      apply List.drop_eq_nil_of_le
      rw [List.length_append, List.length_singleton]
      omega

theorem countMatches_append_last (once : last ∉ others)
    (left right : List α) :
    countMatches (others ++ [last]) (left ++ last :: right) =
      countMatches (others ++ [last]) (left ++ [last]) +
        countMatches (others ++ [last]) right := by
  have nonempty : others ++ [last] ≠ [] := by simp
  have same := isPrefixOf_append_last last others once
  have divided : ∀ text : List α, (text = [] ∨ ∃ left, text = left ++ [last]) →
      countMatches (others ++ [last]) (text ++ right) =
        countMatches (others ++ [last]) text +
          countMatches (others ++ [last]) right := by
    intro text
    induction text using pieces_induction (others ++ [last]) nonempty with
    | nil =>
        intro _
        exact (Nat.zero_add _).symm
    | hit text found ih =>
        intro ended
        have isStart := List.isPrefixOf_iff_prefix.mp found
        have onward := List.isPrefixOf_iff_prefix.mpr
          (isStart.trans (List.prefix_append text right))
        rw [countMatches_hit _ _ nonempty found,
          countMatches_hit _ _ nonempty onward,
          List.drop_append_of_le_length isStart.length_le,
          ih (ends_drop last _ text ended)]
        omega
    | copy head rest noMatch ih =>
        rintro (impossible | ⟨left, shape⟩)
        · exact absurd impossible (List.cons_ne_nil head rest)
        · cases left with
          | nil =>
              rw [List.nil_append, List.cons.injEq] at shape
              obtain ⟨rfl, rfl⟩ := shape
              have stays := (same [] right).trans noMatch
              rw [List.nil_append] at stays
              rw [List.singleton_append, countMatches_copy _ _ _ stays,
                countMatches_copy _ _ _ noMatch]
              exact (Nat.zero_add _).symm
          | cons first left =>
              rw [List.cons_append, List.cons.injEq] at shape
              obtain ⟨rfl, rfl⟩ := shape
              have stays := (same (head :: left) right).trans noMatch
              rw [List.cons_append, List.append_assoc, List.singleton_append]
              rw [List.cons_append] at stays
              rw [countMatches_copy _ _ _ stays,
                countMatches_copy _ _ _ noMatch]
              have later := ih (Or.inr ⟨left, rfl⟩)
              rw [List.append_assoc, List.singleton_append] at later
              exact later
  have whole := divided (left ++ [last]) (Or.inr ⟨left, rfl⟩)
  rw [List.append_assoc] at whole
  exact whole

end LastElement

section Insertion
variable (foreign last : α) (others : List α)

/-- A text between an element that the search does not have and its last one
is divided off on both sides. -/
theorem countMatches_append_between (once : last ∉ others)
    (absent : foreign ∉ others ++ [last]) (between : List α)
    (quiet : countMatches (others ++ [last])
      (foreign :: between ++ [last]) = 0) (before after : List α) :
    countMatches (others ++ [last])
        (before ++ (foreign :: between ++ [last] ++ after)) =
      countMatches (others ++ [last]) before +
        countMatches (others ++ [last]) after := by
  have nonempty : others ++ [last] ≠ [] := by simp
  have front := countMatches_append_foreign (others ++ [last]) foreign absent
    nonempty
  have behind := countMatches_append_last last others once
    (foreign :: between) after
  have alone := front [] (between ++ last :: after)
  have none : countMatches (others ++ [last]) [] = 0 := rfl
  rw [quiet, List.cons_append] at behind
  rw [List.nil_append, none] at alone
  have shape : before ++ (foreign :: between ++ [last] ++ after) =
      before ++ foreign :: (between ++ last :: after) := by simp
  rw [shape, front]
  omega

/-- Inserting a text before the matches of one search makes no match of
another, if both the text and the search are divided off. -/
theorem countMatches_insertBefore (once : last ∉ others)
    (absent : foreign ∉ others ++ [last]) (search inserted : List α)
    (searchQuiet : countMatches (others ++ [last])
      (foreign :: search ++ [last]) = 0)
    (insertedQuiet : countMatches (others ++ [last])
      (foreign :: inserted ++ [last]) = 0) (text before : List α) :
    countMatches (others ++ [last]) (before ++
        substitute (foreign :: search ++ [last])
          ((foreign :: inserted ++ [last]) ::
            (foreign :: search ++ [last]).map fun element => [element]) text) =
      countMatches (others ++ [last]) (before ++ text) := by
  have nonempty : foreign :: search ++ [last] ≠ [] := by simp
  have dividedSearch := countMatches_append_between foreign last others once
    absent search searchQuiet
  have dividedInserted := countMatches_append_between foreign last others once
    absent inserted insertedQuiet
  have none : countMatches (others ++ [last]) [] = 0 := rfl
  generalize foreign :: search ++ [last] = found at *
  generalize foreign :: inserted ++ [last] = added at *
  have kept : (found.map fun element => [element]).flatten = found :=
    List.flatMap_singleton' found
  induction text using pieces_induction found nonempty generalizing before with
  | nil => rfl
  | hit text matches' ih =>
      have split := List.prefix_iff_eq_append.mp
        (List.isPrefixOf_iff_prefix.mp matches')
      have later := ih []
      have alone := dividedSearch []
      simp only [List.nil_append, none, Nat.zero_add] at later alone
      rw [substitute, pieces_hit _ _ text nonempty matches',
        List.flatten_append, List.flatten_cons, kept, List.append_assoc,
        dividedInserted, alone]
      rw [substitute] at later
      rw [later, ← dividedSearch before, split]
  | copy head rest noMatch ih =>
      have later := ih (before ++ [head])
      rw [List.append_assoc, List.append_assoc] at later
      rw [substitute, pieces_copy _ _ head rest noMatch, List.flatten_cons]
      exact later

end Insertion

/-- What stands before the first match. -/
def beforeMatch : List α → Option (List α)
  | [] => none
  | head :: rest =>
      if search.isPrefixOf (head :: rest) then some []
      else (beforeMatch rest).map (head :: ·)

theorem beforeMatch_eq_none_iff (nonempty : search ≠ []) (text : List α) :
    beforeMatch search text = none ↔ ¬ search <:+: text := by
  induction text with
  | nil =>
      rw [List.infix_nil]
      exact ⟨fun _ => nonempty, fun _ => rfl⟩
  | cons head rest ih =>
      rw [List.infix_cons_iff, beforeMatch]
      by_cases here : search.isPrefixOf (head :: rest) = true
      · rw [if_pos here]
        constructor
        · intro impossible
          exact absurd impossible (Option.some_ne_none [])
        · intro absent
          exact absurd (Or.inl (List.isPrefixOf_iff_prefix.mp here)) absent
      · rw [if_neg here, Option.map_eq_none_iff, ih, not_or]
        have noPrefix := mt List.isPrefixOf_iff_prefix.mpr here
        exact ⟨fun absent => ⟨noPrefix, absent⟩, And.right⟩

theorem beforeMatch_eq_nil_iff (nonempty : search ≠ []) (text : List α) :
    beforeMatch search text = some [] ↔ search <+: text := by
  cases text with
  | nil =>
      rw [List.prefix_nil]
      exact ⟨fun impossible => absurd impossible.symm (Option.some_ne_none _),
        fun empty => absurd empty nonempty⟩
  | cons head rest =>
      rw [beforeMatch, ← List.isPrefixOf_iff_prefix]
      by_cases here : search.isPrefixOf (head :: rest) = true
      · rw [if_pos here]
        exact ⟨fun _ => here, fun _ => rfl⟩
      · rw [if_neg here, Option.map_eq_some_iff]
        constructor
        · rintro ⟨before, -, impossible⟩
          exact absurd impossible (List.cons_ne_nil _ _)
        · exact fun found => absurd found here

theorem mem_of_mem_beforeMatch (text before : List α) (element : α)
    (found : beforeMatch search text = some before)
    (member : element ∈ before) : element ∈ text := by
  induction text generalizing before with
  | nil => exact absurd found.symm (Option.some_ne_none before)
  | cons head rest ih =>
      rw [beforeMatch] at found
      split at found
      · cases found
        exact absurd member List.not_mem_nil
      · obtain ⟨later, foundLater, rfl⟩ := Option.map_eq_some_iff.mp found
        obtain rfl | inLater := List.mem_cons.mp member
        · exact List.mem_cons_self
        · exact List.mem_cons_of_mem head (ih later foundLater inLater)

end HenPlugins.Lib.Substitution
