import Mathlib.Data.List.Basic
import Mathlib.Data.Multiset.MapFold

/-!
# Sectioned documents

A document is an ordered list of named sections, each an ordered list of
key/value entries; names and keys may repeat, and a lookup takes the first
section of the name and the first entry of the key in it.  A reader builds a
document from a stream of items and puts each new section and entry in front,
so reading a document's own items back gives its mirror image.
-/

set_option autoImplicit false

namespace HenPlugins.Lib.SectionedDocument

inductive Item (Name Key Value : Type) where
  | header (name : Name)
  | entry (key : Key) (value : Value)
  deriving DecidableEq, Repr

abbrev Document (Name Key Value : Type) := List (Name × List (Key × Value))

section Reading
variable {Name Key Value : Type}

def entryItem (pair : Key × Value) : Item Name Key Value :=
  .entry pair.1 pair.2

/-- A header opens a section in front; an entry goes in front of the newest
section and is dropped when there is none. -/
def feed (document : Document Name Key Value) :
    Item Name Key Value → Document Name Key Value
  | .header name => (name, []) :: document
  | .entry key value =>
      match document with
      | [] => []
      | (name, entries) :: rest => (name, (key, value) :: entries) :: rest

def build (stream : List (Item Name Key Value)) : Document Name Key Value :=
  stream.foldl feed []

def sectionItems (block : Name × List (Key × Value)) :
    List (Item Name Key Value) :=
  .header block.1 :: block.2.map entryItem

/-- The stream that writes a document out in list order. -/
def items (document : Document Name Key Value) : List (Item Name Key Value) :=
  document.flatMap sectionItems

def mirror (document : Document Name Key Value) : Document Name Key Value :=
  (document.map fun block => (block.1, block.2.reverse)).reverse

theorem foldl_feed_entries (pairs : List (Key × Value))
    (name : Name) (entries : List (Key × Value))
    (rest : Document Name Key Value) :
    (pairs.map entryItem).foldl feed ((name, entries) :: rest) =
      (name, pairs.reverse ++ entries) :: rest := by
  induction pairs generalizing entries with
  | nil => rfl
  | cons pair pairs ih =>
      simp only [List.map_cons, List.foldl_cons, entryItem, feed]
      rw [ih]
      simp

theorem foldl_feed_items (document start : Document Name Key Value) :
    (items document).foldl feed start = mirror document ++ start := by
  induction document generalizing start with
  | nil => rfl
  | cons block rest ih =>
      simp only [items, List.flatMap_cons, sectionItems, List.foldl_append,
        List.foldl_cons, feed]
      rw [foldl_feed_entries]
      have tail := ih ((block.1, block.2.reverse ++ []) :: start)
      simp only [items] at tail
      rw [tail]
      simp [mirror]

/-- Reading back the items of a document gives its mirror image. -/
theorem build_items (document : Document Name Key Value) :
    build (items document) = mirror document := by
  rw [build, foldl_feed_items, List.append_nil]

/-! ## The order of names -/

/-- The names of the sections and, in each, the keys, in list order. -/
def outline (document : Document Name Key Value) : List (Name × List Key) :=
  document.map fun block => (block.1, block.2.map Prod.fst)

theorem length_le_one_of_palindrome {Label : Type} (labels : List Label)
    (distinct : labels.Nodup) (same : labels.reverse = labels) :
    labels.length ≤ 1 := by
  cases labels with
  | nil => simp
  | cons first rest =>
      rcases List.eq_nil_or_concat rest with rfl | ⟨middle, last, rfl⟩
      · simp
      · simp only [List.concat_eq_append, List.reverse_cons,
          List.reverse_append, List.reverse_nil, List.nil_append,
          List.cons_append] at same
        have ends : last = first := (List.cons.inj same).1
        rw [ends] at distinct
        simp at distinct

theorem mirror_of_small (document : Document Name Key Value)
    (single : document.length ≤ 1)
    (one : ∀ block ∈ document, block.2.length ≤ 1) :
    mirror document = document := by
  cases document with
  | nil => rfl
  | cons block rest =>
      have empty : rest = [] := by
        simpa using single
      have short := one block (List.mem_cons_self ..)
      obtain ⟨name, entries⟩ := block
      cases entries with
      | nil => simp [empty, mirror]
      | cons entry others =>
          have none : others = [] := by
            simpa using short
          simp [empty, none, mirror]

/-- Without repeated names, only a single section with at most one key has the
same order in the mirror. -/
theorem outline_mirror_iff (document : Document Name Key Value)
    (names : (document.map Prod.fst).Nodup)
    (keys : ∀ block ∈ document, (block.2.map Prod.fst).Nodup) :
    outline (mirror document) = outline document ↔
      document.length ≤ 1 ∧ ∀ block ∈ document, block.2.length ≤ 1 := by
  constructor
  · intro same
    have namesSame := congrArg (List.map Prod.fst) same
    simp only [outline, mirror, List.map_map, List.map_reverse,
      Function.comp_def] at namesSame
    have single := length_le_one_of_palindrome _ names namesSame
    rw [List.length_map] at single
    refine ⟨single, ?_⟩
    intro block member
    obtain ⟨other, rfl⟩ : ∃ other, document = [other] := by
      cases document with
      | nil => simp at member
      | cons other rest =>
          have empty : rest = [] := by
            simpa using single
          exact ⟨other, by rw [empty]⟩
    cases List.mem_singleton.mp member
    simp only [outline, mirror, List.map_cons, List.map_nil,
      List.reverse_singleton, List.map_reverse, List.cons.injEq,
      Prod.mk.injEq, true_and, and_true] at same
    have one := length_le_one_of_palindrome _
      (keys block (List.mem_cons_self ..)) same
    rwa [List.length_map] at one
  · intro small
    rw [mirror_of_small document small.1 small.2]

/-- What a document holds, without the order of sections and entries. -/
def contents (document : Document Name Key Value) :
    Multiset (Name × Multiset (Key × Value)) :=
  document.map fun block => (block.1, (block.2 : Multiset (Key × Value)))

theorem contents_mirror (document : Document Name Key Value) :
    contents (mirror document) = contents document := by
  simp only [contents, mirror, List.map_reverse, Multiset.coe_reverse,
    List.map_map, Function.comp_def]

/-! ## Membership of entries -/

def Holds (document : Document Name Key Value) (key : Key) (value : Value) :
    Prop :=
  ∃ block ∈ document, (key, value) ∈ block.2

theorem holds_feed (document : Document Name Key Value)
    (item : Item Name Key Value) (key : Key) (value : Value) :
    Holds (feed document item) key value ↔
      Holds document key value ∨
        (item = .entry key value ∧ document ≠ []) := by
  cases item with
  | header name => simp [Holds, feed]
  | entry newKey newValue =>
      cases document with
      | nil => simp [Holds, feed]
      | cons block rest =>
          obtain ⟨name, entries⟩ := block
          simp only [Holds, feed, List.mem_cons, exists_eq_or_imp,
            Prod.mk.injEq, Item.entry.injEq, ne_eq, reduceCtorEq,
            not_false_eq_true, and_true]
          constructor
          · rintro ((⟨rfl, rfl⟩ | old) | later)
            · exact Or.inr ⟨rfl, rfl⟩
            · exact Or.inl (Or.inl old)
            · exact Or.inl (Or.inr later)
          · rintro ((old | later) | ⟨rfl, rfl⟩)
            · exact Or.inl (Or.inr old)
            · exact Or.inr later
            · exact Or.inl (Or.inl ⟨rfl, rfl⟩)

theorem feed_ne_nil (document : Document Name Key Value)
    (item : Item Name Key Value) (nonempty : document ≠ []) :
    feed document item ≠ [] := by
  cases item with
  | header name => simp [feed]
  | entry key value =>
      cases document with
      | nil => exact absurd rfl nonempty
      | cons block rest => simp [feed]

theorem holds_foldl_feed (stream : List (Item Name Key Value))
    (document : Document Name Key Value) (nonempty : document ≠ [])
    (key : Key) (value : Value) :
    Holds (stream.foldl feed document) key value ↔
      Holds document key value ∨ Item.entry key value ∈ stream := by
  induction stream generalizing document with
  | nil => simp
  | cons item stream ih =>
      rw [List.foldl_cons, ih _ (feed_ne_nil document item nonempty),
        holds_feed]
      simp only [ne_eq, nonempty, not_false_eq_true, and_true, List.mem_cons,
        or_assoc, eq_comm]

theorem holds_build_header (name : Name) (stream : List (Item Name Key Value))
    (key : Key) (value : Value) :
    Holds (build (.header name :: stream)) key value ↔
      Item.entry key value ∈ stream := by
  rw [build, List.foldl_cons, holds_foldl_feed _ _ (by simp [feed])]
  simp [Holds, feed]

theorem mem_of_holds_build (stream : List (Item Name Key Value))
    (key : Key) (value : Value) (held : Holds (build stream) key value) :
    Item.entry key value ∈ stream := by
  have step : ∀ (stream : List (Item Name Key Value))
      (document : Document Name Key Value),
      Holds (stream.foldl feed document) key value →
        Holds document key value ∨ Item.entry key value ∈ stream := by
    intro stream
    induction stream with
    | nil => intro document held; exact Or.inl held
    | cons item stream ih =>
        intro document held
        rcases ih _ held with early | later
        · rcases (holds_feed document item key value).mp early with old | new
          · exact Or.inl old
          · exact Or.inr (by simp [new.1])
        · exact Or.inr (List.mem_cons_of_mem _ later)
  rcases step stream [] held with impossible | member
  · simp [Holds] at impossible
  · exact member

/-- Every section of a built document was announced by its header. -/
theorem header_of_mem_build (stream : List (Item Name Key Value))
    (block : Name × List (Key × Value)) (member : block ∈ build stream) :
    Item.header block.1 ∈ stream := by
  have step : ∀ (stream : List (Item Name Key Value))
      (document : Document Name Key Value),
      block.1 ∈ (stream.foldl feed document).map Prod.fst →
        block.1 ∈ document.map Prod.fst ∨ Item.header block.1 ∈ stream := by
    intro stream
    induction stream with
    | nil => intro document named; exact Or.inl named
    | cons item stream ih =>
        intro document named
        rcases ih _ named with early | later
        · cases item with
          | header name =>
              simp only [feed, List.map_cons, List.mem_cons] at early
              rcases early with rfl | old
              · exact Or.inr (by simp)
              · exact Or.inl old
          | entry key value =>
              left
              cases document with
              | nil => simp [feed] at early
              | cons head rest => simpa [feed] using early
        · exact Or.inr (List.mem_cons_of_mem _ later)
  rcases step stream [] (List.mem_map_of_mem member) with impossible | header
  · simp at impossible
  · exact header

end Reading

/-! ## Lookup from either end -/

section Lookup
variable {Name Key Value : Type} [BEq Name] [BEq Key]

def firstValue (document : Document Name Key Value) (name : Name) (key : Key) :
    Option Value :=
  (document.lookup name).bind fun entries => entries.lookup key

/-- The last entry of the key in the last section of the name. -/
def lastValue (document : Document Name Key Value) (name : Name) (key : Key) :
    Option Value :=
  firstValue (mirror document) name key

/-- The entry that stands first and the one that stands last agree. -/
def Unambiguous (document : Document Name Key Value) : Prop :=
  ∀ name key, lastValue document name key = firstValue document name key

theorem lookup_reverse_of_nodup {Label Content : Type} [BEq Label]
    [LawfulBEq Label]
    (pairs : List (Label × Content)) (distinct : (pairs.map Prod.fst).Nodup)
    (label : Label) : pairs.reverse.lookup label = pairs.lookup label := by
  induction pairs with
  | nil => rfl
  | cons pair pairs ih =>
      obtain ⟨first, content⟩ := pair
      rw [List.map_cons, List.nodup_cons] at distinct
      rw [List.reverse_cons, List.lookup_append, ih distinct.2,
        List.lookup_cons, List.lookup_cons, List.lookup_nil]
      by_cases same : label = first
      · subst same
        have absent : pairs.lookup label = none := by
          rw [List.lookup_eq_none_iff]
          intro pair member
          have listed : pair.1 ∈ pairs.map Prod.fst :=
            List.mem_map_of_mem member
          simpa using fun clash : label = pair.1 =>
            distinct.1 (clash ▸ listed)
        simp [absent]
      · have differ : (label == first) = false := by simpa using same
        simp [differ]

theorem lookup_eq_some_iff_mem {Label Content : Type} [BEq Label]
    [LawfulBEq Label] (pairs : List (Label × Content))
    (distinct : (pairs.map Prod.fst).Nodup) (label : Label)
    (content : Content) :
    pairs.lookup label = some content ↔ (label, content) ∈ pairs := by
  induction pairs with
  | nil => simp
  | cons pair pairs ih =>
      obtain ⟨first, stored⟩ := pair
      rw [List.map_cons, List.nodup_cons] at distinct
      rw [List.lookup_cons, List.mem_cons, Prod.mk.injEq]
      by_cases same : label = first
      · subst same
        have absent : (label, content) ∉ pairs := by
          intro member
          have listed : (label, content).1 ∈ pairs.map Prod.fst :=
            List.mem_map_of_mem member
          exact distinct.1 listed
        simp [absent, eq_comm]
      · have differ : (label == first) = false := by simpa using same
        simp [differ, same, ih distinct.2]

theorem lookup_reverse_append {Label Content : Type} [BEq Label]
    (front back : List (Label × Content)) (label : Label) :
    (front ++ back).reverse.lookup label =
      (back.reverse.lookup label).or (front.reverse.lookup label) := by
  rw [List.reverse_append, List.lookup_append]

theorem lookup_map_snd {Label Content Image : Type} [BEq Label]
    (transform : Content → Image) (pairs : List (Label × Content))
    (label : Label) :
    (pairs.map fun pair => (pair.1, transform pair.2)).lookup label =
      (pairs.lookup label).map transform := by
  induction pairs with
  | nil => rfl
  | cons pair pairs ih =>
      obtain ⟨first, content⟩ := pair
      simp only [List.map_cons, List.lookup_cons, ih]
      cases label == first <;> rfl

theorem firstValue_eq_some_iff [LawfulBEq Name] [LawfulBEq Key]
    (document : Document Name Key Value)
    (names : (document.map Prod.fst).Nodup)
    (keys : ∀ block ∈ document, (block.2.map Prod.fst).Nodup)
    (name : Name) (key : Key) (value : Value) :
    firstValue document name key = some value ↔
      ∃ entries, (name, entries) ∈ document ∧ (key, value) ∈ entries := by
  rw [firstValue, Option.bind_eq_some_iff]
  constructor
  · intro looked
    obtain ⟨entries, found, inner⟩ := looked
    have member := (lookup_eq_some_iff_mem document names _ _).mp found
    exact ⟨entries, member,
      (lookup_eq_some_iff_mem entries (keys _ member) _ _).mp inner⟩
  · intro listed
    obtain ⟨entries, member, inner⟩ := listed
    exact ⟨entries, (lookup_eq_some_iff_mem document names _ _).mpr member,
      (lookup_eq_some_iff_mem entries (keys _ member) _ _).mpr inner⟩

theorem mem_of_firstValue [LawfulBEq Name] [LawfulBEq Key]
    (document : Document Name Key Value) (name : Name) (key : Key)
    (value : Value) (found : firstValue document name key = some value) :
    ∃ entries, (name, entries) ∈ document ∧ (key, value) ∈ entries := by
  obtain ⟨entries, outer, inner⟩ := Option.bind_eq_some_iff.mp found
  obtain ⟨front, back, whole, -⟩ := List.lookup_eq_some_iff.mp outer
  obtain ⟨before, after, inside, -⟩ := List.lookup_eq_some_iff.mp inner
  exact ⟨entries, by simp [whole], by simp [inside]⟩

omit [BEq Name] [BEq Key] in
theorem mirror_append_block (front back : Document Name Key Value)
    (name : Name) (entries : List (Key × Value)) :
    mirror (front ++ (name, entries) :: back) =
      mirror back ++ (name, entries.reverse) :: mirror front := by
  simp [mirror]

/-- Seen from the end, the last section of the name hides the others. -/
theorem lastValue_of_later [LawfulBEq Name]
    (front back : Document Name Key Value) (name : Name) (key : Key)
    (later : ∃ block ∈ back, block.1 = name) :
    lastValue (front ++ back) name key = lastValue back name key := by
  have found : (mirror back).lookup name ≠ none := by
    obtain ⟨block, member, rfl⟩ := later
    intro absent
    rw [List.lookup_eq_none_iff] at absent
    have listed : (block.1, block.2.reverse) ∈ mirror back := by
      rw [mirror, List.mem_reverse]
      exact List.mem_map.mpr ⟨block, member, rfl⟩
    simpa using absent _ listed
  have split : mirror (front ++ back) = mirror back ++ mirror front := by
    simp [mirror]
  rw [lastValue, lastValue, firstValue, firstValue, split, List.lookup_append]
  cases seen : (mirror back).lookup name with
  | none => exact absurd seen found
  | some entries => rfl

theorem lastValue_of_no_later [LawfulBEq Name]
    (front back : Document Name Key Value) (name : Name)
    (entries : List (Key × Value)) (key : Key)
    (noLater : ∀ block ∈ back, block.1 ≠ name) :
    lastValue (front ++ (name, entries) :: back) name key =
      entries.reverse.lookup key := by
  have absent : (mirror back).lookup name = none := by
    rw [List.lookup_eq_none_iff]
    intro block member
    rw [mirror, List.mem_reverse] at member
    obtain ⟨source, inside, rfl⟩ := List.mem_map.mp member
    simpa using fun same : name = source.1 =>
      noLater source inside same.symm
  rw [lastValue, firstValue, mirror_append_block, List.lookup_append, absent]
  simp

/-- Distinct section names and distinct keys leave nothing to shadow. -/
theorem unambiguous_of_nodup [LawfulBEq Name] [LawfulBEq Key]
    (document : Document Name Key Value)
    (names : (document.map Prod.fst).Nodup)
    (keys : ∀ block ∈ document, (block.2.map Prod.fst).Nodup) :
    Unambiguous document := by
  intro name key
  have mirroredNames : ((document.map fun block =>
      (block.1, block.2.reverse)).map Prod.fst).Nodup := by
    simpa [List.map_map, Function.comp_def] using names
  rw [lastValue, firstValue, firstValue, mirror,
    lookup_reverse_of_nodup _ mirroredNames, lookup_map_snd (fun entries => entries.reverse) document name]
  cases found : document.lookup name with
  | none => rfl
  | some entries =>
      have member : (name, entries) ∈ document :=
        (lookup_eq_some_iff_mem document names name entries).mp found
      exact lookup_reverse_of_nodup entries (keys _ member) key

end Lookup

end HenPlugins.Lib.SectionedDocument
