import HenPlugins.Ini.CommentedView
import Mathlib.Data.List.Forall2

/-!
# Where the comment lines end up

The trail of a load has the shape of the loaded store, with the number of the
line that defined each section and key, and with comment lists that hold line
numbers instead of texts.  Reading the texts of those lines back gives the
comment lists of the store, so the trail says which line each stored comment
came from.
-/

set_option autoImplicit false

namespace HenPlugins.Ini.CommentTrail

open HenPlugins.Lib.ByteText
open HenPlugins.Ini.Text
open HenPlugins.Ini.Store
open HenPlugins.Ini.Load
open HenPlugins.Ini.CommentedView

/-- What the loop makes of a line: a comment or blank line is noted, a section
line with its `]` opens a section, a line with a key becomes one when there is
a section, and anything else is skipped. -/
inductive LineKind where
  | note
  | opening
  | keyed
  | skipped
  deriving DecidableEq

def lineKind (line : Text) : LineKind :=
  match trimWhitespace line with
  | [] => .note
  | first :: _ =>
      if first == semicolon || first == hash then .note
      else if first == openBracket then
        if (readSectionLine line).isSome then .opening else .skipped
      else if (readKeyLine line).isSome then .keyed else .skipped

/-- The first non-blank character is `;` or `#`. -/
def isCommentLine (line : Text) : Bool :=
  match trimWhitespace line with
  | [] => false
  | first :: _ => first == semicolon || first == hash

/-- The trimmed text behind the mark; empty for a blank line. -/
def noteText (line : Text) : Text :=
  trimWhitespace ((trimWhitespace line).drop 1)

theorem lineKind_of_comment (line : Text) (comment : isCommentLine line = true) :
    lineKind line = .note := by
  rw [isCommentLine] at comment
  rw [lineKind]
  cases shape : trimWhitespace line with
  | nil => rfl
  | cons first rest =>
      rw [shape] at comment
      simp only
      rw [if_pos comment]

/-- The effect of one iteration, by the kind of its line. -/
inductive KindEffect (ini : INIFile) (line : Text) :
    LineKind → INIFile → Prop where
  | note : KindEffect ini line .note (addPendingComment ini (noteText line))
  | opening (sectionName comment : Text)
      (read : readSectionLine line = some (sectionName, comment)) :
      KindEffect ini line .opening (loadSection ini sectionName comment)
  | keyed (keyName value comment : Text)
      (read : readKeyLine line = some (keyName, value, comment)) :
      KindEffect ini line .keyed (loadKey ini keyName value comment)
  | skipped : KindEffect ini line .skipped ini

theorem loadLine_kind (ini : INIFile) (line : Text) :
    KindEffect ini line (lineKind line) (loadLine ini line) := by
  have noted : KindEffect ini line .note
    (addPendingComment ini (noteText line)) := .note
  rw [loadLine, lineKind]
  rw [noteText] at noted
  cases shape : trimWhitespace line with
  | nil =>
      rw [shape] at noted
      exact noted
  | cons first rest =>
      rw [shape] at noted
      simp only
      split
      · exact noted
      · split
        · cases read : readSectionLine line with
          | none => exact .skipped
          | some parts => exact .opening parts.1 parts.2 read
        · cases read : readKeyLine line with
          | none => exact .skipped
          | some parts => exact .keyed parts.1 parts.2.1 parts.2.2 read

structure TrailKey where
  line : Nat
  commentsBefore : List Nat
  deriving DecidableEq

structure TrailSection where
  line : Nat
  commentsBefore : List Nat
  keys : List TrailKey
  deriving DecidableEq

structure Trail where
  sections : List TrailSection
  headerComments : List Nat
  deriving DecidableEq

def Trail.pending (trail : Trail) : List Nat :=
  match trail.sections with
  | [] => trail.headerComments
  | current :: _ => current.commentsBefore

def Trail.setPending (trail : Trail) (numbers : List Nat) : Trail :=
  match trail.sections with
  | [] => { trail with headerComments := numbers }
  | current :: rest =>
      { trail with
        sections := { current with commentsBefore := numbers } :: rest }

/-- One iteration of the load loop on the line with this number. -/
def Trail.advance (trail : Trail) (number : Nat) : LineKind → Trail
  | .note => trail.setPending (trail.pending ++ [number])
  | .opening =>
      let emptied := trail.setPending []
      { emptied with
        sections := ⟨number, [], []⟩ :: emptied.sections }
  | .keyed =>
      match trail.sections with
      | [] => trail
      | current :: rest =>
          { trail with
            sections :=
              { current with
                keys := ⟨number, current.commentsBefore⟩ :: current.keys
                commentsBefore := [] } :: rest }
  | .skipped => trail

def trailFrom : Trail → Nat → List Text → Trail
  | trail, _, [] => trail
  | trail, number, line :: rest =>
      trailFrom (trail.advance number (lineKind line)) (number + 1) rest

def trailOf (lines : List Text) : Trail :=
  trailFrom ⟨[], []⟩ 0 lines

section Tracing
variable (lines : List Text)

/-- The stored texts are the whole texts of the lines with these numbers. -/
def TracedNotes (comments : List Comment) (numbers : List Nat) : Prop :=
  comments.map (fun comment => comment.text) =
    numbers.map fun number => noteText (lines.getD number [])

structure TracedKey (key : KeyValue) (trail : TrailKey) : Prop where
  defined : ∃ keyName value comment,
    readKeyLine (lines.getD trail.line []) =
        some (keyName, value, comment) ∧
      key.key = keyField keyName
  notes : TracedNotes lines key.commentsBefore trail.commentsBefore

structure TracedSection (current : Section) (trail : TrailSection) : Prop where
  defined : ∃ sectionName comment,
    readSectionLine (lines.getD trail.line []) =
        some (sectionName, comment) ∧
      current.name = sectionField sectionName
  notes : TracedNotes lines current.commentsBefore trail.commentsBefore
  keys : List.Forall₂ (TracedKey lines) current.keys trail.keys

/-- The trail has the shape of the store and names the line each of its
sections, keys and comments came from. -/
structure Traced (ini : INIFile) (trail : Trail) : Prop where
  header : TracedNotes lines ini.headerComments trail.headerComments
  sections : List.Forall₂ (TracedSection lines) ini.sections trail.sections

variable (ini : INIFile) (trail : Trail) (traced : Traced lines ini trail)

include traced in
theorem traced_pending :
    TracedNotes lines (pendingComments ini) trail.pending := by
  have sections := traced.sections
  rw [pendingComments, Trail.pending]
  cases chain : ini.sections with
  | nil =>
      rw [chain, List.forall₂_nil_left_iff] at sections
      rw [sections]
      exact traced.header
  | cons current rest =>
      rw [chain] at sections
      obtain ⟨marks, later, first, -, shape⟩ :=
        List.forall₂_cons_left_iff.mp sections
      rw [shape]
      exact first.notes

include traced in
theorem traced_setPending (comments : List Comment) (numbers : List Nat)
    (notes : TracedNotes lines comments numbers) :
    Traced lines (setPendingComments ini comments)
      (trail.setPending numbers) := by
  have sections := traced.sections
  rw [setPendingComments, Trail.setPending]
  cases chain : ini.sections with
  | nil =>
      rw [chain, List.forall₂_nil_left_iff] at sections
      rw [sections]
      exact ⟨notes, by simp⟩
  | cons current rest =>
      rw [chain] at sections
      obtain ⟨marks, later, first, tail, shape⟩ :=
        List.forall₂_cons_left_iff.mp sections
      rw [shape]
      exact ⟨traced.header,
        List.Forall₂.cons ⟨first.defined, notes, first.keys⟩ tail⟩

include traced in
theorem traced_loadLine (line : Text) (number : Nat)
    (numbered : lines.getD number [] = line)
    (short : line.length < 512) :
    Traced lines (loadLine ini line)
      (trail.advance number (lineKind line)) := by
  have effect := loadLine_kind ini line
  generalize loadLine ini line = next at effect ⊢
  generalize lineKind line = kind at effect ⊢
  cases effect with
  | note =>
      apply traced_setPending lines ini trail traced
      have old := traced_pending lines ini trail traced
      have whole : (noteText line).take 511 = noteText line := by
        have bound : (noteText line).length ≤ line.length := by
          rw [noteText, trimWhitespace, trim, trimWhitespace, trim]
          refine (List.rdropWhile_prefix isSpace _).length_le.trans ?_
          refine (List.dropWhile_suffix isSpace).length_le.trans ?_
          refine (List.drop_suffix 1 _).length_le.trans ?_
          exact (List.rdropWhile_prefix isSpace _).length_le.trans
            (List.dropWhile_suffix isSpace).length_le
        exact List.take_of_length_le (by omega)
      rw [TracedNotes] at old ⊢
      rw [addCommentToList, List.map_append, List.map_append, old]
      simp only [List.map_cons, List.map_nil, createComment, commentField_text,
        whole, numbered]
  | opening sectionName comment read =>
      have emptied := traced_setPending lines ini trail traced [] [] rfl
      refine ⟨emptied.header, List.Forall₂.cons ⟨?_, rfl, ?_⟩
        emptied.sections⟩
      · exact ⟨sectionName, comment, by rw [numbered, read], rfl⟩
      · exact List.Forall₂.nil
  | keyed keyName value comment read =>
      have sections := traced.sections
      rw [loadKey, Trail.advance]
      cases chain : ini.sections with
      | nil =>
          rw [chain, List.forall₂_nil_left_iff] at sections
          rw [sections]
          exact traced
      | cons current rest =>
          rw [chain] at sections
          obtain ⟨marks, later, first, tail, shape⟩ :=
            List.forall₂_cons_left_iff.mp sections
          rw [shape]
          have key : TracedKey lines
              { newKey keyName with
                value := valueField value
                commentsBefore := current.commentsBefore
                comment := commentField comment }
              ⟨number, marks.commentsBefore⟩ :=
            ⟨⟨keyName, value, comment, by rw [numbered, read], rfl⟩,
              first.notes⟩
          exact ⟨traced.header, List.Forall₂.cons
            ⟨first.defined, rfl, List.Forall₂.cons key first.keys⟩ tail⟩
  | skipped => exact traced

end Tracing

theorem traced_foldl (lines done rest : List Text) (ini : INIFile)
    (trail : Trail) (split : lines = done ++ rest)
    (short : ∀ line ∈ lines, line.length < 512)
    (traced : Traced lines ini trail) :
    Traced lines (rest.foldl loadLine ini)
      (trailFrom trail done.length rest) := by
  induction rest generalizing done ini trail with
  | nil => exact traced
  | cons line rest ih =>
      have numbered : lines.getD done.length [] = line := by
        rw [split]
        simp
      have next := traced_loadLine lines ini trail traced line done.length
        numbered (short line (by simp [split]))
      have later := ih (done ++ [line]) _ _ (by simp [split]) next
      rw [List.length_append, List.length_singleton] at later
      exact later

/-- The trail of a file of short lines is the trail of the store loaded from
it. -/
theorem traced_iniLoad (files : Files) (path content : Text)
    (present : files path = some content) (short : ShortLines 512 content) :
    Traced (readLines content) (iniLoad files path)
      (trailOf (readLines content)) := by
  simp only [iniLoad, present]
  exact traced_foldl (readLines content) [] (readLines content) _ _ rfl
    (readLines_short 512 content short) ⟨rfl, List.Forall₂.nil⟩

end HenPlugins.Ini.CommentTrail
