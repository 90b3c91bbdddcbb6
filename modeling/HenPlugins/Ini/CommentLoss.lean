import HenPlugins.Ini.CommentTrail

/-!
# Which comment lines a load keeps

A comment line waits in the pending list until the next section or key is
defined.  A key takes the list over; a section is handed the list, but the
redirected pointer clears it at once.  So a comment line is lost exactly when
the next definition behind it is a section.
-/

set_option autoImplicit false

namespace HenPlugins.Ini.CommentLoss

open HenPlugins.Lib.ByteText
open HenPlugins.Ini.Text
open HenPlugins.Ini.Store
open HenPlugins.Ini.Load
open HenPlugins.Ini.CommentTrail

/-! ## Definitions in a file -/

/-- A key line defines a key only below a section. -/
def defines (opened : Bool) : LineKind → Bool
  | .note => false
  | .opening => true
  | .keyed => opened
  | .skipped => false

/-- Whether the lines open a section. -/
def opens (lines : List Text) : Bool :=
  lines.any fun line => lineKind line == .opening

/-- The number and kind of the first line that defines a section or key; the
first line of the list has the given number. -/
def nextDefinition (opened : Bool) :
    Nat → List Text → Option (Nat × LineKind)
  | _, [] => none
  | number, line :: rest =>
      if defines opened (lineKind line) then some (number, lineKind line)
      else nextDefinition opened (number + 1) rest

/-- The first definition behind the line with this number. -/
def definitionAfter (lines : List Text) (number : Nat) :
    Option (Nat × LineKind) :=
  nextDefinition (opens (lines.take number)) (number + 1)
    (lines.drop (number + 1))

/-- All the line numbers in the comment lists. -/
def numbers (trail : Trail) : List Nat :=
  trail.headerComments ++ trail.sections.flatMap fun current =>
    current.commentsBefore ++
      current.keys.flatMap fun key => key.commentsBefore

/-- The section or key that this line defines has the note in front of it. -/
def Owns (trail : Trail) (line note : Nat) : Prop :=
  ∃ current ∈ trail.sections,
    (current.line = line ∧ note ∈ current.commentsBefore) ∨
      ∃ key ∈ current.keys, key.line = line ∧ note ∈ key.commentsBefore

/-- Every comment line is in exactly one comment list: the one of the section
or key defined next, if there is one. -/
def CommentsKept (lines : List Text) : Prop :=
  ∀ number < lines.length, isCommentLine (lines.getD number []) = true →
    (numbers (trailOf lines)).count number = 1 ∧
      ∀ definition ∈ definitionAfter lines number,
        Owns (trailOf lines) definition.1 number

/-- No comment line has a section as the next definition behind it. -/
def SectionsUncommented (lines : List Text) : Prop :=
  ∀ number < lines.length, isCommentLine (lines.getD number []) = true →
    ∀ definition ∈ definitionAfter lines number, definition.2 ≠ .opening

instance (lines : List Text) : Decidable (SectionsUncommented lines) :=
  inferInstanceAs (Decidable (∀ number < lines.length,
    isCommentLine (lines.getD number []) = true →
      ∀ definition ∈ definitionAfter lines number, definition.2 ≠ .opening))

/-- The trail of the file is that of the loaded store, comment texts are
whole, and no comment line is lost. -/
def NoCommentLost (files : Files) (path content : Text) : Prop :=
  Traced (readLines content) (iniLoad files path)
      (trailOf (readLines content)) ∧
    CommentsKept (readLines content)

/-! ## What one line does to the count of a number -/

section Steps
variable (trail : Trail) (note : Nat)

theorem count_setPending (list : List Nat) :
    (numbers (trail.setPending list)).count note +
        trail.pending.count note =
      (numbers trail).count note + list.count note := by
  rw [Trail.setPending, Trail.pending]
  cases chain : trail.sections with
  | nil =>
      simp only [numbers, chain, List.flatMap_nil, List.append_nil]
      omega
  | cons current rest =>
      simp only [numbers, chain, List.flatMap_cons, List.count_append]
      omega

theorem pending_setPending (list : List Nat) :
    (trail.setPending list).pending = list := by
  rw [Trail.setPending, Trail.pending]
  cases chain : trail.sections with
  | nil => simp
  | cons current rest => simp

theorem count_note (number : Nat) :
    (numbers (trail.advance number .note)).count note =
      (numbers trail).count note + [number].count note := by
  have moved := count_setPending trail note (trail.pending ++ [number])
  rw [List.count_append] at moved
  rw [Trail.advance]
  omega

theorem count_opening (number : Nat) :
    (numbers (trail.advance number .opening)).count note +
        trail.pending.count note =
      (numbers trail).count note := by
  have cleared := count_setPending trail note []
  rw [List.count_nil, Nat.add_zero] at cleared
  have same : numbers (trail.advance number .opening) =
      numbers (trail.setPending []) := by
    simp [numbers, Trail.advance]
  rw [same, cleared]

theorem pending_opening (number : Nat) :
    (trail.advance number .opening).pending = [] := rfl

theorem count_keyed (number : Nat) :
    (numbers (trail.advance number .keyed)).count note =
      (numbers trail).count note := by
  rw [Trail.advance]
  cases chain : trail.sections with
  | nil => rfl
  | cons current rest =>
      simp only [numbers, chain, List.flatMap_cons, List.count_append,
        List.count_nil]
      omega

/-- A key that owns a note keeps it. -/
def KeyOwns (trail : Trail) (line note : Nat) : Prop :=
  ∃ current ∈ trail.sections, ∃ key ∈ current.keys,
    key.line = line ∧ note ∈ key.commentsBefore

theorem keyOwns_first (line : Nat) (owns : KeyOwns trail line note)
    (first changed : TrailSection) (rest : List TrailSection)
    (chain : trail.sections = first :: rest)
    (keeps : ∀ key ∈ first.keys, key ∈ changed.keys) :
    KeyOwns { trail with sections := changed :: rest } line note := by
  obtain ⟨current, member, key, inside, same, listed⟩ := owns
  rw [chain] at member
  rcases List.mem_cons.mp member with rfl | later
  · exact ⟨changed, List.mem_cons_self .., key, keeps key inside, same, listed⟩
  · exact ⟨current, List.mem_cons_of_mem _ later, key, inside, same, listed⟩

theorem keyOwns_setPending (line : Nat) (list : List Nat)
    (owns : KeyOwns trail line note) :
    KeyOwns (trail.setPending list) line note := by
  rw [Trail.setPending]
  cases chain : trail.sections with
  | nil =>
      obtain ⟨current, member, -⟩ := owns
      rw [chain] at member
      contradiction
  | cons first rest =>
      exact keyOwns_first trail note line owns first _ rest chain
        fun _ inside => inside

theorem keyOwns_advance (line number : Nat) (kind : LineKind)
    (owns : KeyOwns trail line note) :
    KeyOwns (trail.advance number kind) line note := by
  cases kind with
  | note => exact keyOwns_setPending trail note line _ owns
  | opening =>
      obtain ⟨current, member, rest⟩ :=
        keyOwns_setPending trail note line [] owns
      exact ⟨current, List.mem_cons_of_mem _ member, rest⟩
  | keyed =>
      rw [Trail.advance]
      cases chain : trail.sections with
      | nil => exact owns
      | cons first rest =>
          exact keyOwns_first trail note line owns first _ rest chain
            fun _ inside => List.mem_cons_of_mem _ inside
  | skipped => exact owns

end Steps

/-! ## The fate of one note -/

/-- The note is in the pending list and nowhere else. -/
structure Waiting (note : Nat) (trail : Trail) : Prop where
  once : (numbers trail).count note = 1
  pending : trail.pending.count note = 1

/-- The note is in the list of this key and nowhere else. -/
structure Settled (line note : Nat) (trail : Trail) : Prop where
  once : (numbers trail).count note = 1
  pending : trail.pending.count note = 0
  owned : KeyOwns trail line note

theorem pending_count_le (trail : Trail) (note : Nat) :
    trail.pending.count note ≤ (numbers trail).count note := by
  rw [Trail.pending]
  cases chain : trail.sections with
  | nil => simp [numbers, chain]
  | cons current rest =>
      simp only [numbers, chain, List.flatMap_cons, List.count_append]
      omega

theorem count_other (number note : Nat) (differ : note ≠ number) :
    [number].count note = 0 := by
  rw [List.count_eq_zero, List.mem_singleton]
  exact differ

theorem pending_note (trail : Trail) (number : Nat) :
    (trail.advance number .note).pending = trail.pending ++ [number] :=
  pending_setPending trail _

theorem pending_keyed_count (trail : Trail) (number note : Nat)
    (idle : trail.pending.count note = 0) :
    (trail.advance number .keyed).pending.count note = 0 := by
  rw [Trail.advance]
  cases chain : trail.sections with
  | nil => exact idle
  | cons current rest => rfl

theorem settled_advance (trail : Trail) (line note number : Nat)
    (kind : LineKind) (differ : note ≠ number)
    (settled : Settled line note trail) :
    Settled line note (trail.advance number kind) := by
  have owned := keyOwns_advance trail note line number kind settled.owned
  have other := count_other number note differ
  have once := settled.once
  have idle := settled.pending
  cases kind with
  | note =>
      have counted := count_note trail note number
      have pending : (trail.advance number .note).pending.count note = 0 := by
        rw [pending_note, List.count_append]
        omega
      exact ⟨by omega, pending, owned⟩
  | opening =>
      have counted := count_opening trail note number
      exact ⟨by omega, by rw [pending_opening]; rfl, owned⟩
  | keyed =>
      have counted := count_keyed trail note number
      exact ⟨by omega, pending_keyed_count trail number note idle, owned⟩
  | skipped => exact settled

theorem lost_advance (trail : Trail) (note number : Nat) (kind : LineKind)
    (differ : note ≠ number) (lost : (numbers trail).count note = 0) :
    (numbers (trail.advance number kind)).count note = 0 := by
  have other := count_other number note differ
  cases kind with
  | note =>
      have counted := count_note trail note number
      omega
  | opening =>
      have counted := count_opening trail note number
      omega
  | keyed =>
      have counted := count_keyed trail note number
      omega
  | skipped => exact lost

theorem settled_run (lines : List Text) (trail : Trail)
    (line note number : Nat) (later : note < number)
    (settled : Settled line note trail) :
    Settled line note (trailFrom trail number lines) := by
  induction lines generalizing trail number with
  | nil => exact settled
  | cons text lines ih =>
      exact ih _ (number + 1) (by omega) (settled_advance trail line note
        number (lineKind text) (by omega) settled)

theorem lost_run (lines : List Text) (trail : Trail) (note number : Nat)
    (later : note < number) (lost : (numbers trail).count note = 0) :
    (numbers (trailFrom trail number lines)).count note = 0 := by
  induction lines generalizing trail number with
  | nil => exact lost
  | cons text lines ih =>
      exact ih _ (number + 1) (by omega) (lost_advance trail note number
        (lineKind text) (by omega) lost)

/-- Whether a section is open, as the trail shows it. -/
def opened (trail : Trail) : Bool :=
  !trail.sections.isEmpty

theorem opened_setPending (trail : Trail) (list : List Nat) :
    opened (trail.setPending list) = opened trail := by
  rw [Trail.setPending]
  cases chain : trail.sections with
  | nil => simp [opened, chain]
  | cons current rest => simp [opened, chain]

theorem opened_advance (trail : Trail) (number : Nat) (kind : LineKind) :
    opened (trail.advance number kind) =
      (opened trail || kind == .opening) := by
  cases kind with
  | note =>
      rw [Trail.advance, opened_setPending]
      exact (Bool.or_false _).symm
  | opening =>
      have open_ : opened (trail.advance number .opening) = true := rfl
      rw [open_]
      exact (Bool.or_true _).symm
  | keyed =>
      rw [Trail.advance, opened]
      cases chain : trail.sections with
      | nil => simp [opened, chain]
      | cons current rest => simp [opened, chain]
  | skipped => exact (Bool.or_false _).symm

theorem opened_run (lines : List Text) (trail : Trail) (number : Nat) :
    opened (trailFrom trail number lines) = (opened trail || opens lines) := by
  induction lines generalizing trail number with
  | nil => exact (Bool.or_false _).symm
  | cons line lines ih =>
      rw [trailFrom, ih, opened_advance, opens, opens, List.any_cons,
        Bool.or_assoc]

theorem waiting_advance (trail : Trail) (note number : Nat) (kind : LineKind)
    (differ : note ≠ number) (waiting : Waiting note trail)
    (undefined : defines (opened trail) kind = false) :
    Waiting note (trail.advance number kind) := by
  have other := count_other number note differ
  have once := waiting.once
  have pending := waiting.pending
  cases kind with
  | note =>
      have counted := count_note trail note number
      have kept : (trail.advance number .note).pending.count note = 1 := by
        rw [pending_note, List.count_append]
        omega
      exact ⟨by omega, kept⟩
  | opening => contradiction
  | keyed =>
      have shut : trail.sections = [] := by
        simpa [defines, opened] using undefined
      rw [Trail.advance, shut]
      exact waiting
  | skipped => exact waiting

/-- A section line loses the waiting notes. -/
theorem lost_of_opening (trail : Trail) (note number : Nat)
    (waiting : Waiting note trail) :
    (numbers (trail.advance number .opening)).count note = 0 := by
  have counted := count_opening trail note number
  have once := waiting.once
  have pending := waiting.pending
  omega

/-- A key takes the waiting notes over. -/
theorem settled_of_keyed (trail : Trail) (note number : Nat)
    (waiting : Waiting note trail) (isOpen : opened trail = true) :
    Settled number note (trail.advance number .keyed) := by
  have counted := count_keyed trail note number
  have once := waiting.once
  have listed : note ∈ trail.pending :=
    List.count_pos_iff.mp (by rw [waiting.pending]; exact Nat.one_pos)
  rw [Trail.advance] at counted ⊢
  rw [Trail.pending] at listed
  cases chain : trail.sections with
  | nil => simp [opened, chain] at isOpen
  | cons current rest =>
      rw [chain] at listed counted
      exact ⟨by omega, rfl, _, List.mem_cons_self .., _,
        List.mem_cons_self .., rfl, listed⟩

/-- What becomes of a waiting note depends on the next definition. -/
theorem fate_of_waiting (lines : List Text) (trail : Trail)
    (note number : Nat) (later : note < number)
    (waiting : Waiting note trail) :
    (nextDefinition (opened trail) number lines = none →
        Waiting note (trailFrom trail number lines)) ∧
      ∀ definition,
        nextDefinition (opened trail) number lines = some definition →
        (definition.2 = .opening →
            (numbers (trailFrom trail number lines)).count note = 0) ∧
          (definition.2 ≠ .opening →
            Settled definition.1 note (trailFrom trail number lines)) := by
  induction lines generalizing trail number with
  | nil => exact ⟨fun _ => waiting, fun _ found => by contradiction⟩
  | cons line lines ih =>
      rw [nextDefinition, trailFrom]
      cases defined : defines (opened trail) (lineKind line) with
      | false =>
          have same : opened (trail.advance number (lineKind line)) =
              opened trail := by
            rw [opened_advance]
            cases kind : lineKind line with
            | opening =>
                rw [kind] at defined
                contradiction
            | note => exact Bool.or_false _
            | keyed => exact Bool.or_false _
            | skipped => exact Bool.or_false _
          have tail := ih _ (number + 1) (by omega) (waiting_advance trail note
            number (lineKind line) (by omega) waiting defined)
          rw [same] at tail
          exact tail
      | true =>
          simp only [if_true, reduceCtorEq, false_implies, true_and,
            Option.some.injEq, forall_eq']
          cases kind : lineKind line with
          | note =>
              rw [kind] at defined
              contradiction
          | opening =>
              refine ⟨fun _ => ?_, fun differ => absurd rfl differ⟩
              exact lost_run lines _ note (number + 1) (by omega)
                (lost_of_opening trail note number waiting)
          | keyed =>
              rw [kind] at defined
              refine ⟨fun same => by contradiction, fun _ => ?_⟩
              exact settled_run lines _ number note (number + 1) (by omega)
                (settled_of_keyed trail note number waiting defined)
          | skipped =>
              rw [kind] at defined
              contradiction

/-! ## The whole file -/

theorem trailFrom_append (front back : List Text) (trail : Trail)
    (number : Nat) :
    trailFrom trail number (front ++ back) =
      trailFrom (trailFrom trail number front) (number + front.length)
        back := by
  induction front generalizing trail number with
  | nil => rfl
  | cons line front ih =>
      rw [List.cons_append, trailFrom, ih, trailFrom, List.length_cons,
        Nat.add_right_comm, Nat.add_assoc]

theorem fresh_run (lines : List Text) (trail : Trail) (number note : Nat)
    (later : number + lines.length ≤ note)
    (fresh : (numbers trail).count note = 0) :
    (numbers (trailFrom trail number lines)).count note = 0 := by
  induction lines generalizing trail number with
  | nil => exact fresh
  | cons line lines ih =>
      rw [List.length_cons] at later
      exact ih _ (number + 1) (by omega) (lost_advance trail note number
        (lineKind line) (by omega) fresh)

theorem waiting_of_comment (trail : Trail) (number : Nat)
    (fresh : (numbers trail).count number = 0) :
    Waiting number (trail.advance number .note) := by
  have counted := count_note trail number number
  have own : [number].count number = 1 := List.count_singleton_self
  have idle := pending_count_le trail number
  refine ⟨by omega, ?_⟩
  rw [pending_note, List.count_append]
  omega

/-- The trail of the file, cut behind one of its comment lines. -/
theorem trailOf_comment (lines : List Text) (number : Nat)
    (inside : number < lines.length)
    (comment : isCommentLine (lines.getD number []) = true) :
    ∃ trail, Waiting number trail ∧
      opened trail = opens (lines.take number) ∧
      trailOf lines =
        trailFrom trail (number + 1) (lines.drop (number + 1)) := by
  have split : lines = lines.take number ++
      lines.getD number [] :: lines.drop (number + 1) := by
    have whole := List.take_append_drop number lines
    rw [List.drop_eq_getElem_cons inside] at whole
    rw [List.getD_eq_getElem?_getD, List.getElem?_eq_getElem inside,
      Option.getD_some]
    exact whole.symm
  have size : (lines.take number).length = number := by
    rw [List.length_take]
    omega
  have fresh : (numbers (trailFrom ⟨[], []⟩ 0
      (lines.take number))).count number = 0 :=
    fresh_run _ _ 0 number (by omega) rfl
  refine ⟨(trailFrom ⟨[], []⟩ 0 (lines.take number)).advance number .note,
    waiting_of_comment _ number fresh, ?_, ?_⟩
  · rw [opened_advance, opened_run]
    exact Bool.or_false _
  · rw [trailOf]
    conv_lhs => rw [split]
    rw [trailFrom_append, size, Nat.zero_add, trailFrom,
      lineKind_of_comment _ comment]

theorem owns_of_keyOwns (trail : Trail) (line note : Nat)
    (owns : KeyOwns trail line note) : Owns trail line note := by
  obtain ⟨current, member, key, inside, same, listed⟩ := owns
  exact ⟨current, member, Or.inr ⟨key, inside, same, listed⟩⟩

theorem commentsKept_iff (lines : List Text) :
    CommentsKept lines ↔ SectionsUncommented lines := by
  constructor
  · intro kept number inside comment definition found isOpening
    obtain ⟨trail, waiting, open_, whole⟩ :=
      trailOf_comment lines number inside comment
    have once := (kept number inside comment).1
    rw [definitionAfter, ← open_] at found
    have lost := ((fate_of_waiting _ trail number (number + 1)
      (Nat.lt_succ_self number) waiting).2 definition found).1 isOpening
    rw [← whole] at lost
    omega
  · intro uncommented number inside comment
    obtain ⟨trail, waiting, open_, whole⟩ :=
      trailOf_comment lines number inside comment
    obtain ⟨undefined, defined⟩ := fate_of_waiting
      (lines.drop (number + 1)) trail number (number + 1)
      (Nat.lt_succ_self number) waiting
    have clear := uncommented number inside comment
    rw [definitionAfter, ← open_] at clear
    rw [definitionAfter, ← open_, whole]
    cases next : nextDefinition (opened trail) (number + 1)
        (lines.drop (number + 1)) with
    | none => exact ⟨(undefined next).once, by simp⟩
    | some definition =>
        have settled := (defined definition next).2 (clear definition next)
        refine ⟨settled.once, ?_⟩
        intro other same
        cases Option.some.inj same
        exact owns_of_keyOwns _ _ _ settled.owned

/-- A load of short lines keeps every comment line, in the list of the next
section or key, exactly when no comment line has a section next. -/
theorem noCommentLost_iff (files : Files) (path content : Text)
    (present : files path = some content) (short : ShortLines 512 content) :
    NoCommentLost files path content ↔
      SectionsUncommented (readLines content) := by
  rw [NoCommentLost, commentsKept_iff]
  exact and_iff_right (traced_iniLoad files path content present short)

/-- A comment in front of a key. -/
def keyCommentFile : Text := ascii "[all]\n; loader\na = 1\n# end\n"

theorem noCommentLost_keyComment :
    NoCommentLost (singleFile (ascii "p.ini") keyCommentFile) (ascii "p.ini")
      keyCommentFile :=
  (noCommentLost_iff _ (ascii "p.ini") keyCommentFile rfl
    (ShortLines.of_length 512 _ (by decide))).mpr (by decide)

/-- All comment texts of a store. -/
def allComments (ini : INIFile) : List Comment :=
  ini.headerComments ++ ini.sections.flatMap fun current =>
    current.commentsBefore ++ current.keys.flatMap fun key =>
      key.commentsBefore

/-- A comment in front of a section. -/
def sectionCommentFile : Text := ascii "; all titles\n[all]\na = 1\n"

/-- The only comment line of the file is in no list of the loaded store. -/
theorem sectionComment_lost :
    isCommentLine ((readLines sectionCommentFile).getD 0 []) = true ∧
      allComments (iniLoad (singleFile (ascii "p.ini") sectionCommentFile)
        (ascii "p.ini")) = [] ∧
      ¬ NoCommentLost (singleFile (ascii "p.ini") sectionCommentFile)
        (ascii "p.ini") sectionCommentFile := by
  refine ⟨by decide, by decide, ?_⟩
  intro kept
  have once := (kept.2 0 (by decide) (by decide)).1
  exact absurd once (by decide)

end HenPlugins.Ini.CommentLoss
