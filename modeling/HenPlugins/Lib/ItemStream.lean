import Mathlib.Data.BitVec
import Mathlib.Data.List.TakeWhile
import HenPlugins.Lib.SectionedDocument

/-!
# Lookups in a stream of items

What a lookup finds in the document built from a stream can be said of the
stream: the last entry of the key behind the last header of the name.  From
this follows what one more entry in the middle of the stream changes.
-/

set_option autoImplicit false

namespace HenPlugins.Lib.ItemStream

open HenPlugins.Lib.SectionedDocument

section Streams
variable {Name Key Value : Type}

def isEntry : Item Name Key Value → Bool
  | .header _ => false
  | .entry _ _ => true

/-- The keys of the entries in front of the first header. -/
def leadingKeys : List (Item Name Key Value) → List Key
  | [] => []
  | .header _ :: _ => []
  | .entry key _ :: rest => key :: leadingKeys rest

/-- What follows an entry hides it from the lookup. -/
def Hides (name : Name) (key : Key) (back : List (Item Name Key Value)) :
    Prop :=
  Item.header name ∈ back ∨ key ∈ leadingKeys back

instance [DecidableEq Name] [DecidableEq Key] [DecidableEq Value] (name : Name)
    (key : Key) (back : List (Item Name Key Value)) :
    Decidable (Hides name key back) :=
  inferInstanceAs (Decidable (_ ∨ _))

def nextHeader (last : Option Name) : Item Name Key Value → Option Name
  | .header name => some name
  | .entry _ _ => last

def lastHeader (stream : List (Item Name Key Value)) : Option Name :=
  stream.foldl nextHeader none

theorem build_dropWhile (stream : List (Item Name Key Value)) :
    build (stream.dropWhile isEntry) = build stream := by
  induction stream with
  | nil => rfl
  | cons item stream ih =>
      cases item with
      | header name => rfl
      | entry key value => exact ih

def headerName : Item Name Key Value → Option Name
  | .header name => some name
  | .entry _ _ => none

theorem map_fst_build (stream : List (Item Name Key Value)) :
    (build stream).map Prod.fst = (stream.filterMap headerName).reverse := by
  have step : ∀ (document : Document Name Key Value),
      (stream.foldl feed document).map Prod.fst =
        (stream.filterMap headerName).reverse ++ document.map Prod.fst := by
    induction stream with
    | nil => intro document; rfl
    | cons item stream ih =>
        intro document
        rw [List.foldl_cons, ih, List.filterMap_cons]
        cases item with
        | header name => simp [feed, headerName]
        | entry key value => cases document <;> rfl
  have whole := step []
  rw [List.map_nil, List.append_nil] at whole
  exact whole

theorem holds_build_iff (stream : List (Item Name Key Value)) (key : Key)
    (value : Value) :
    Holds (build stream) key value ↔
      Item.entry key value ∈ stream.dropWhile isEntry := by
  rw [← build_dropWhile]
  cases rest : stream.dropWhile isEntry with
  | nil => simp [build, Holds]
  | cons item later =>
      have stopped := List.head?_dropWhile_not isEntry stream
      rw [rest] at stopped
      cases item with
      | header name =>
          rw [holds_build_header, List.mem_cons]
          simp
      | entry key value => contradiction

theorem length_foldl_feed (stream : List (Item Name Key Value))
    (document : Document Name Key Value) :
    (stream.foldl feed document).length =
      document.length + stream.countP fun item => !isEntry item := by
  induction stream generalizing document with
  | nil => rfl
  | cons item stream ih =>
      rw [List.foldl_cons, ih, List.countP_cons]
      cases item with
      | header name =>
          have counted : (!isEntry (.header name : Item Name Key Value)) =
              true := rfl
          rw [counted, feed, List.length_cons, if_pos rfl]
          omega
      | entry key value =>
          cases document with
          | nil => simp [feed, isEntry]
          | cons block rest => simp [feed, isEntry]

def entryCount (document : Document Name Key Value) : Nat :=
  (document.map fun block => block.2.length).sum

theorem entryCount_foldl_feed (stream : List (Item Name Key Value))
    (document : Document Name Key Value) (opened : document ≠ []) :
    entryCount (stream.foldl feed document) =
      entryCount document + stream.countP isEntry := by
  induction stream generalizing document with
  | nil => rfl
  | cons item stream ih =>
      rw [List.foldl_cons, ih _ (feed_ne_nil document item opened),
        List.countP_cons]
      cases item with
      | header name => simp [feed, isEntry, entryCount]
      | entry key value =>
          cases document with
          | nil => contradiction
          | cons block rest =>
              simp only [feed, isEntry, entryCount, List.map_cons,
                List.sum_cons, List.length_cons, if_true]
              omega

theorem entryCount_build (stream : List (Item Name Key Value)) :
    entryCount (build stream) =
      (stream.dropWhile isEntry).countP isEntry := by
  rw [← build_dropWhile]
  have stopped := List.head?_dropWhile_not isEntry stream
  cases rest : stream.dropWhile isEntry with
  | nil => rfl
  | cons item later =>
      rw [rest] at stopped
      cases item with
      | entry key value => contradiction
      | header name =>
          have counted := entryCount_foldl_feed later [(name, [])] (by simp)
          simp only [build, List.foldl_cons, feed]
          rw [counted]
          simp [entryCount, isEntry]

/-! ## The keys under a name -/

section Under
variable [BEq Name] (name : Name)

/-- The keys behind each header of the name, in stream order. -/
def keysUnder : List (Item Name Key Value) → List (List Key)
  | [] => []
  | .entry _ _ :: rest => keysUnder rest
  | .header other :: rest =>
      if other == name then leadingKeys rest :: keysUnder rest
      else keysUnder rest

/-- The keys in each section of the name, in list order. -/
def namedKeys (document : Document Name Key Value) : List (List Key) :=
  (document.filter fun block => block.1 == name).map fun block =>
    block.2.map Prod.fst

theorem namedKeys_foldl (stream : List (Item Name Key Value))
    (newest : Name) (entries : List (Key × Value))
    (rest : Document Name Key Value) :
    namedKeys name (stream.foldl feed ((newest, entries) :: rest)) =
      ((keysUnder name stream).map List.reverse).reverse ++
        ((if newest == name then
            [(leadingKeys stream).reverse ++ entries.map Prod.fst]
          else []) ++ namedKeys name rest) := by
  induction stream generalizing newest entries rest with
  | nil =>
      rw [List.foldl_nil, namedKeys, namedKeys, List.filter_cons]
      split <;> simp [keysUnder, leadingKeys]
  | cons item stream ih =>
      cases item with
      | header other =>
          rw [List.foldl_cons, feed, ih, keysUnder, leadingKeys]
          have older : namedKeys name ((newest, entries) :: rest) =
              (if newest == name then [entries.map Prod.fst] else []) ++
                namedKeys name rest := by
            rw [namedKeys, namedKeys, List.filter_cons]
            split <;> rfl
          rw [older]
          by_cases same : (other == name) = true
          · simp [same]
          · simp [same]
      | entry key value =>
          rw [List.foldl_cons, feed, ih, keysUnder, leadingKeys]
          simp

theorem namedKeys_build (stream : List (Item Name Key Value)) :
    namedKeys name (build stream) =
      ((keysUnder name stream).map List.reverse).reverse := by
  induction stream with
  | nil => rfl
  | cons item stream ih =>
      cases item with
      | header other =>
          rw [build, List.foldl_cons, feed, namedKeys_foldl, keysUnder]
          by_cases same : (other == name) = true
          · simp [same, namedKeys]
          · simp [same, namedKeys]
      | entry key value => exact ih

end Under

/-! ## Blocks left out -/

theorem length_heard (stream : List (Item Name Key Value)) :
    (build stream).length + entryCount (build stream) =
      (stream.dropWhile isEntry).length := by
  have headers := length_foldl_feed (stream.dropWhile isEntry) []
  rw [List.length_nil, Nat.zero_add] at headers
  have entries := entryCount_build stream
  have both : (stream.dropWhile isEntry).length =
      (stream.dropWhile isEntry).countP isEntry +
        (stream.dropWhile isEntry).countP fun item => !isEntry item := by
    rw [List.length_eq_countP_add_countP isEntry]
    simp
  rw [entries, ← build_dropWhile, build, headers]
  omega

theorem build_append_of_entries (front back : List (Item Name Key Value))
    (entries : front.all isEntry = true) :
    build (front ++ back) = build back := by
  rw [← build_dropWhile, List.dropWhile_append_of_pos
    (by simpa using entries), build_dropWhile]

section Blocks
variable {Block : Type} (items : Block → List (Item Name Key Value))
  (kept : Block → Bool)

theorem length_filter_blocks (blocks : List Block) :
    ((blocks.filter kept).flatMap items).length ≤
      (blocks.flatMap items).length := by
  induction blocks with
  | nil => rfl
  | cons block blocks ih =>
      rw [List.filter_cons, List.flatMap_cons, List.length_append]
      split
      · rw [List.flatMap_cons, List.length_append]
        omega
      · omega

/-- The blocks left out are empty if no item is lost with them. -/
theorem empty_of_length_filter (blocks : List Block)
    (same : (blocks.flatMap items).length ≤
      ((blocks.filter kept).flatMap items).length) :
    ∀ block ∈ blocks, kept block = false → items block = [] := by
  induction blocks with
  | nil => simp
  | cons block blocks ih =>
      have fewer := length_filter_blocks items kept blocks
      rw [List.filter_cons, List.flatMap_cons, List.length_append] at same
      rw [List.forall_mem_cons]
      cases stays : kept block with
      | true =>
          simp only [stays, if_true, List.flatMap_cons,
            List.length_append] at same
          exact ⟨by simp, ih (by omega)⟩
      | false =>
          simp only [stays, Bool.false_eq_true, if_false] at same
          have none : items block = [] := List.length_eq_zero_iff.mp (by omega)
          exact ⟨fun _ => none, ih (by omega)⟩

theorem flatMap_filter_of_empty (blocks : List Block)
    (empty : ∀ block ∈ blocks, kept block = false → items block = []) :
    (blocks.filter kept).flatMap items = blocks.flatMap items := by
  induction blocks with
  | nil => rfl
  | cons block blocks ih =>
      rw [List.forall_mem_cons] at empty
      rw [List.filter_cons, List.flatMap_cons]
      cases stays : kept block with
      | true => simp [ih empty.2]
      | false => simp [ih empty.2, empty.1 stays]

theorem length_heard_append (front back : List (Item Name Key Value))
    (header : front.all isEntry = false) :
    ((front ++ back).dropWhile isEntry).length =
      (front.dropWhile isEntry).length + back.length ∧
    0 < (front.dropWhile isEntry).length := by
  have some : front.dropWhile isEntry ≠ [] := by
    intro none
    have all := List.dropWhile_eq_nil_iff.mp none
    simp only [List.all_eq_false] at header
    obtain ⟨item, member, other⟩ := header
    exact other (all item member)
  rw [List.dropWhile_append, if_neg (by simpa using some), List.length_append]
  exact ⟨rfl, List.length_pos_iff.mpr some⟩

/-- Blocks may be left out of a stream if and only if they are empty from the
first block with a header on. -/
theorem build_filter_iff (blocks : List Block) :
    build (blocks.flatMap items) =
        build ((blocks.filter kept).flatMap items) ↔
      ∀ block ∈ blocks.dropWhile fun block => (items block).all isEntry,
        kept block = false → items block = [] := by
  induction blocks with
  | nil => simp
  | cons block blocks ih =>
      rw [List.dropWhile_cons, List.filter_cons, List.flatMap_cons]
      cases entries : (items block).all isEntry with
      | true =>
          rw [build_append_of_entries _ _ entries, if_pos rfl, ← ih]
          cases stays : kept block with
          | true =>
              rw [if_pos rfl, List.flatMap_cons,
                build_append_of_entries _ _ entries]
          | false => rw [if_neg Bool.false_ne_true]
      | false =>
          rw [if_neg Bool.false_ne_true]
          constructor
          · intro same
            have heard := congrArg
              (fun document => document.length + entryCount document) same
            simp only [length_heard] at heard
            obtain ⟨whole, some⟩ := length_heard_append (items block)
              (blocks.flatMap items) entries
            have fewer := length_filter_blocks items kept blocks
            rw [whole] at heard
            cases stays : kept block with
            | true =>
                have part := (length_heard_append (items block)
                  ((blocks.filter kept).flatMap items) entries).1
                rw [stays, if_pos rfl, List.flatMap_cons, part] at heard
                have empty := empty_of_length_filter items kept blocks
                  (by omega)
                simp only [List.forall_mem_cons, stays, Bool.true_eq_false,
                  false_implies, true_and]
                exact empty
            | false =>
                have shorter : (((blocks.filter kept).flatMap items).dropWhile
                    isEntry).length ≤ _ :=
                  (List.dropWhile_suffix isEntry).length_le
                rw [stays, if_neg Bool.false_ne_true] at heard
                omega
          · intro empty
            have whole := flatMap_filter_of_empty items kept _ empty
            rw [List.filter_cons, List.flatMap_cons] at whole
            rw [whole]

end Blocks

/-- What is heard of a stream is not changed by an entry, but for itself. -/
theorem mem_heard_insert (front back : List (Item Name Key Value))
    (own item : Item Name Key Value) (entry : isEntry own = true)
    (other : item ≠ own) :
    item ∈ (front ++ own :: back).dropWhile isEntry ↔
      item ∈ (front ++ back).dropWhile isEntry := by
  induction front with
  | nil => rw [List.nil_append, List.nil_append, List.dropWhile_cons_of_pos entry]
  | cons first front ih =>
      cases first with
      | header name =>
          have heard : isEntry (.header name : Item Name Key Value) = false :=
            rfl
          rw [List.cons_append, List.cons_append, List.dropWhile_cons_of_neg
            (by simp [heard]), List.dropWhile_cons_of_neg (by simp [heard])]
          simp [other]
      | entry key value => exact ih

end Streams

section Lookup
variable {Name Key Value : Type} [BEq Name] [BEq Key] (name : Name) (key : Key)

/-- Whether the newest header has the name, and the value found so far. -/
def watch (state : Bool × Option Value) :
    Item Name Key Value → Bool × Option Value
  | .header other => if name == other then (true, none) else (false, state.2)
  | .entry other value =>
      if state.1 && key == other then (state.1, some value) else state

/-- The last entry of the key behind the last header of the name. -/
def lastRead (stream : List (Item Name Key Value)) : Option Value :=
  (stream.foldl (watch name key) (false, none)).2

/-- The state that belongs to a document. -/
def watched (document : Document Name Key Value) : Bool × Option Value :=
  (document.head?.any fun block => name == block.1,
    firstValue document name key)

theorem watched_feed [LawfulBEq Name] [LawfulBEq Key]
    (document : Document Name Key Value) (item : Item Name Key Value) :
    watched name key (feed document item) =
      watch name key (watched name key document) item := by
  cases item with
  | header other =>
      cases same : name == other <;>
        simp [watched, watch, feed, firstValue, List.lookup_cons, same]
  | entry other value =>
      cases document with
      | nil => simp [watched, watch, feed]
      | cons block rest =>
          obtain ⟨newest, entries⟩ := block
          cases under : name == newest <;> cases same : key == other <;>
            simp [watched, watch, feed, firstValue, List.lookup_cons, under,
              same]

/-- The lookup in a built document, read off the stream. -/
theorem firstValue_build [LawfulBEq Name] [LawfulBEq Key] (stream : List (Item Name Key Value)) :
    firstValue (build stream) name key = lastRead name key stream := by
  have step : ∀ (stream : List (Item Name Key Value))
      (document : Document Name Key Value),
      watched name key (stream.foldl feed document) =
        stream.foldl (watch name key) (watched name key document) := by
    intro stream
    induction stream with
    | nil => intro document; rfl
    | cons item stream ih =>
        intro document
        rw [List.foldl_cons, ih, watched_feed, List.foldl_cons]
  have whole := congrArg Prod.snd (step stream [])
  exact whole

end Lookup

/-! ## One more entry -/

section Insertion
variable {Name Key Value : Type} [BEq Name] [LawfulBEq Name] [BEq Key]
  (name : Name) (key : Key)

theorem watch_under (stream : List (Item Name Key Value)) (last : Option Name)
    (state : Bool × Option Value)
    (start : state.1 = true ↔ last = some name) :
    (stream.foldl (watch name key) state).1 = true ↔
      stream.foldl nextHeader last = some name := by
  induction stream generalizing last state with
  | nil => exact start
  | cons item stream ih =>
      rw [List.foldl_cons, List.foldl_cons]
      apply ih
      cases item with
      | header other =>
          by_cases same : name = other
          · simp [watch, nextHeader, same]
          · simp [watch, nextHeader, same, Ne.symm same]
      | entry other value =>
          simp only [watch, nextHeader]
          split <;> exact start

/-! ## Behind an entry -/

theorem watch_of_header (back : List (Item Name Key Value))
    (later : Item.header name ∈ back) (left right : Bool × Option Value) :
    back.foldl (watch name key) left = back.foldl (watch name key) right := by
  induction back generalizing left right with
  | nil => contradiction
  | cons item back ih =>
      rw [List.foldl_cons, List.foldl_cons]
      rcases List.mem_cons.mp later with here | later
      · rw [← here]
        simp [watch]
      · exact ih later _ _

theorem watch_otherHeader (other : Name) (state : Bool × Option Value)
    (differ : (Item.header name : Item Name Key Value) ≠ .header other) :
    watch name key state (.header other) = (false, state.2) := by
  have apart : (name == other) = false := by
    simpa using fun same : name = other => differ (by rw [same])
  simp [watch, apart]

theorem watch_outside (back : List (Item Name Key Value))
    (noHeader : Item.header name ∉ back) (found : Option Value) :
    (back.foldl (watch name key) (false, found)).2 = found := by
  induction back with
  | nil => rfl
  | cons item back ih =>
      rw [List.mem_cons, not_or] at noHeader
      rw [List.foldl_cons]
      cases item with
      | header other =>
          rw [watch_otherHeader name key other _ noHeader.1]
          exact ih noHeader.2
      | entry other value =>
          simp only [watch, Bool.false_and, Bool.false_eq_true, if_false]
          exact ih noHeader.2

variable [LawfulBEq Key]

theorem watch_unhidden (back : List (Item Name Key Value))
    (unhidden : ¬ Hides name key back) (found : Option Value) :
    (back.foldl (watch name key) (true, found)).2 = found := by
  obtain ⟨noHeader, noKey⟩ := not_or.mp unhidden
  induction back with
  | nil => rfl
  | cons item back ih =>
      rw [List.mem_cons, not_or] at noHeader
      rw [List.foldl_cons]
      cases item with
      | header other =>
          rw [watch_otherHeader name key other _ noHeader.1]
          exact watch_outside name key back noHeader.2 found
      | entry other value =>
          rw [leadingKeys, List.mem_cons, not_or] at noKey
          have differ : (key == other) = false := by simpa using noKey.1
          simp only [watch, differ, Bool.and_false, Bool.false_eq_true,
            if_false]
          exact ih (not_or.mpr ⟨noHeader.2, noKey.2⟩) noHeader.2 noKey.2

theorem watch_hidden (back : List (Item Name Key Value))
    (hidden : Hides name key back) (left right : Option Value) :
    (back.foldl (watch name key) (true, left)).2 =
      (back.foldl (watch name key) (true, right)).2 := by
  by_cases later : Item.header name ∈ back
  · rw [watch_of_header name key back later (true, left) (true, right)]
  · have keyed := hidden.resolve_left later
    clear hidden
    induction back with
    | nil => contradiction
    | cons item back ih =>
        rw [List.mem_cons, not_or] at later
        rw [List.foldl_cons, List.foldl_cons]
        cases item with
        | header other => contradiction
        | entry other value =>
            cases same : key == other with
            | true => simp only [watch, same, Bool.and_self, if_true]
            | false =>
                have differ : key ≠ other := by simpa using same
                rw [leadingKeys, List.mem_cons] at keyed
                simp only [watch, same, Bool.and_false, Bool.false_eq_true,
                  if_false]
                exact ih later.2 (keyed.resolve_left differ)

/-- One more entry decides the lookup when it stands under the name and nothing
hides it, and changes nothing otherwise. -/
theorem lastRead_insert (front back : List (Item Name Key Value))
    (value : Value) :
    (lastHeader front = some name ∧ ¬ Hides name key back →
        lastRead name key (front ++ .entry key value :: back) = some value) ∧
      (¬ (lastHeader front = some name ∧ ¬ Hides name key back) →
        lastRead name key (front ++ .entry key value :: back) =
          lastRead name key (front ++ back)) := by
  have under := watch_under name key front none (false, none)
    (by simp)
  simp only [lastRead]
  rw [List.foldl_append, List.foldl_append, List.foldl_cons]
  generalize front.foldl (watch name key) (false, none) = state at under ⊢
  obtain ⟨inside, found⟩ := state
  constructor
  · intro settled
    obtain ⟨named, unhidden⟩ := settled
    have here : inside = true := under.mpr named
    simp only [watch, here, BEq.rfl, Bool.and_self, if_true]
    exact watch_unhidden name key back unhidden (some value)
  · intro unsettled
    cases here : inside with
    | true =>
        have hidden : Hides name key back := by
          by_contra unhidden
          exact unsettled ⟨under.mp here, unhidden⟩
        simp only [watch, BEq.rfl, Bool.and_self, if_true]
        exact watch_hidden name key back hidden (some value) found
    | false => simp only [watch, Bool.false_and, Bool.false_eq_true, if_false]

omit [LawfulBEq Name] in
theorem lastRead_insert_other (front back : List (Item Name Key Value))
    (other : Key) (value : Value) (differ : key ≠ other) :
    lastRead name key (front ++ .entry other value :: back) =
      lastRead name key (front ++ back) := by
  have passed : (key == other) = false := by simpa using differ
  simp only [lastRead, List.foldl_append, List.foldl_cons, watch, passed,
    Bool.and_false, Bool.false_eq_true, if_false]

end Insertion

end HenPlugins.Lib.ItemStream
