import HenPlugins.Ini.Load

/-!
# The store with its inline comments

In this view a section is a header that carries its inline comment and a key
an entry that carries value and comment.  Only section and key lines change
it.
-/

set_option autoImplicit false

namespace HenPlugins.Ini.CommentedView

open HenPlugins.Lib.ByteText
open HenPlugins.Lib.SectionedDocument
open HenPlugins.Ini.Text
open HenPlugins.Ini.Store
open HenPlugins.Ini.Load

def commentedKey (key : KeyValue) : Text × (Text × Text) :=
  (key.key.text, key.value.text, key.comment.text)

def commentedSection (current : Section) :
    (Text × Text) × List (Text × (Text × Text)) :=
  ((current.name.text, current.comment.text), current.keys.map commentedKey)

def commentedView (ini : INIFile) : Document (Text × Text) Text (Text × Text) :=
  ini.sections.map commentedSection

theorem commentedView_setPendingComments (ini : INIFile)
    (comments : List Comment) :
    commentedView (setPendingComments ini comments) = commentedView ini := by
  rw [setPendingComments]
  cases chain : ini.sections with
  | nil => simp [commentedView, chain]
  | cons current rest => simp [commentedView, chain, commentedSection]

theorem commentedView_loadSection (ini : INIFile)
    (sectionName comment : Text) :
    commentedView (loadSection ini sectionName comment) =
      feed (commentedView ini)
        (.header ((sectionField sectionName).text,
          (commentField comment).text)) := by
  have same := commentedView_setPendingComments ini []
  simp only [commentedView] at same
  simp only [loadSection, commentedView, List.map_cons, feed, same]
  rfl

theorem commentedView_loadKey (ini : INIFile)
    (keyName value comment : Text) :
    commentedView (loadKey ini keyName value comment) =
      feed (commentedView ini)
        (.entry (keyField keyName).text
          ((valueField value).text, (commentField comment).text)) := by
  rw [loadKey]
  cases chain : ini.sections with
  | nil => simp [commentedView, chain, feed]
  | cons current rest =>
      simp [commentedView, chain, feed, commentedSection, commentedKey,
        newKey]

/-- All that an iteration of the load loop can do. -/
inductive LineEffect (ini : INIFile) (line : Text) : INIFile → Prop where
  | comment (commentText : Text) :
      LineEffect ini line (addPendingComment ini commentText)
  | skipped : LineEffect ini line ini
  | opened (sectionName comment : Text)
      (read : readSectionLine line = some (sectionName, comment)) :
      LineEffect ini line (loadSection ini sectionName comment)
  | keyed (keyName value comment : Text)
      (read : readKeyLine line = some (keyName, value, comment)) :
      LineEffect ini line (loadKey ini keyName value comment)

theorem loadLine_effect (ini : INIFile) (line : Text) :
    LineEffect ini line (loadLine ini line) := by
  rw [loadLine]
  cases trimWhitespace line with
  | nil => exact .comment []
  | cons first rest =>
      simp only
      split
      · exact .comment _
      · split
        · cases read : readSectionLine line with
          | none => exact .skipped
          | some parts => exact .opened parts.1 parts.2 read
        · cases read : readKeyLine line with
          | none => exact .skipped
          | some parts => exact .keyed parts.1 parts.2.1 parts.2.2 read

/-- Trimmed, and of fewer than 256 bytes. -/
def KeptWhole (text : Text) : Prop :=
  trimWhitespace text = text ∧ text.length < 256

theorem KeptWhole.take {text : Text} (kept : KeptWhole text) (count : Nat)
    (room : 255 ≤ count) : text.take count = text := by
  have short := kept.2
  rw [List.take_of_length_le (by omega)]

/-- The names, values and comments of the store are the trimmed texts of the
lines they come from. -/
structure KeptStore (ini : INIFile) : Prop where
  headers : ∀ block ∈ commentedView ini,
    KeptWhole block.1.1 ∧ KeptWhole block.1.2
  entries : ∀ block ∈ commentedView ini, ∀ entry ∈ block.2,
    KeptWhole entry.1 ∧ KeptWhole entry.2.1 ∧ KeptWhole entry.2.2

theorem keptWhole_trim (text line : Text) (inside : text <:+: line)
    (short : line.length < 256) : KeptWhole (trimWhitespace text) := by
  refine ⟨trim_idempotent isSpace text, ?_⟩
  have trimmed := (List.rdropWhile_prefix isSpace _).length_le.trans
    (List.dropWhile_suffix (l := text) isSpace).length_le
  have within := inside.length_le
  rw [trimWhitespace, trim]
  omega

theorem keptWhole_nil : KeptWhole [] :=
  ⟨rfl, by decide⟩

/-- The inline comment of a short line. -/
theorem keptWhole_comment (line : Text) (short : line.length < 256) :
    KeptWhole ((extractInline line).2.getD []) := by
  rcases extractInline_cases line with same | ⟨mark, -, -, cut⟩
  · rw [same]
    exact keptWhole_nil
  · rw [cut]
    exact keptWhole_trim _ line (after_suffix mark line).isInfix short

theorem readSectionLine_kept (line sectionName comment : Text)
    (short : line.length < 256)
    (read : readSectionLine line = some (sectionName, comment)) :
    KeptWhole sectionName ∧ KeptWhole comment := by
  rw [readSectionLine] at read
  simp only at read
  split at read
  · cases Option.some.inj read
    refine ⟨keptWhole_trim _ line ?_ short, keptWhole_comment line short⟩
    exact (List.drop_suffix 1 _).isInfix.trans
      ((before_isPrefix _ _).trans (extractInline_isPrefix line)).isInfix
  · contradiction

theorem readKeyLine_kept (line keyName value comment : Text)
    (short : line.length < 256)
    (read : readKeyLine line = some (keyName, value, comment)) :
    KeptWhole keyName ∧ KeptWhole value ∧ KeptWhole comment := by
  rw [readKeyLine] at read
  split at read
  · simp only at read
    split at read
    · cases Option.some.inj read
      refine ⟨keptWhole_trim _ line ?_ short, keptWhole_trim _ line ?_ short,
        keptWhole_comment line short⟩
      · exact ((before_isPrefix _ _).trans
          (extractInline_isPrefix line)).isInfix
      · exact (after_suffix _ _).isInfix.trans
          (extractInline_isPrefix line).isInfix
    · contradiction
  · contradiction

/-- A short line keeps the store free of cut texts. -/
theorem keptStore_loadLine (ini : INIFile) (line : Text)
    (kept : KeptStore ini) (short : line.length < 256) :
    KeptStore (loadLine ini line) := by
  have effect := loadLine_effect ini line
  generalize loadLine ini line = next at effect ⊢
  cases effect with
  | comment commentText =>
      have same := commentedView_setPendingComments ini
        (addCommentToList (pendingComments ini) commentText)
      rw [← addPendingComment] at same
      exact ⟨same ▸ kept.headers, same ▸ kept.entries⟩
  | skipped => exact kept
  | opened sectionName comment read =>
      obtain ⟨name, inline⟩ :=
        readSectionLine_kept line sectionName comment short read
      have same := commentedView_loadSection ini sectionName comment
      rw [sectionField_text, commentField_text, name.take 255 (by omega),
        inline.take 511 (by omega)] at same
      refine ⟨?_, ?_⟩
      · rw [same, feed]
        exact List.forall_mem_cons.mpr ⟨⟨name, inline⟩, kept.headers⟩
      · rw [same, feed]
        exact List.forall_mem_cons.mpr ⟨by simp, kept.entries⟩
  | keyed keyName value comment read =>
      obtain ⟨name, content, inline⟩ :=
        readKeyLine_kept line keyName value comment short read
      have same := commentedView_loadKey ini keyName value comment
      rw [keyField_text, valueField_text, commentField_text,
        name.take 255 (by omega), content.take 511 (by omega),
        inline.take 511 (by omega)] at same
      have headers := kept.headers
      have entries := kept.entries
      cases chain : commentedView ini with
      | nil =>
          rw [chain, feed] at same
          exact ⟨by simp [same], by simp [same]⟩
      | cons block rest =>
          rw [chain] at headers entries
          rw [chain, feed] at same
          obtain ⟨headHeader, restHeaders⟩ := List.forall_mem_cons.mp headers
          obtain ⟨headEntries, restEntries⟩ := List.forall_mem_cons.mp entries
          refine ⟨?_, ?_⟩
          · rw [same]
            exact List.forall_mem_cons.mpr ⟨headHeader, restHeaders⟩
          · rw [same]
            exact List.forall_mem_cons.mpr
              ⟨List.forall_mem_cons.mpr ⟨⟨name, content, inline⟩, headEntries⟩,
                restEntries⟩

theorem keptStore_iniLoad (files : Files) (path content : Text)
    (present : files path = some content) (short : ShortLines 256 content) :
    KeptStore (iniLoad files path) := by
  have folded : ∀ (lines : List Text) (ini : INIFile), KeptStore ini →
      (∀ line ∈ lines, line.length < 256) →
      KeptStore (lines.foldl loadLine ini) := by
    intro lines
    induction lines with
    | nil =>
        intro ini kept _
        exact kept
    | cons line lines ih =>
        intro ini kept shorts
        obtain ⟨first, later⟩ := List.forall_mem_cons.mp shorts
        exact ih _ (keptStore_loadLine ini line kept first) later
  have start : KeptStore (emptyIni path) :=
    ⟨by simp [commentedView, emptyIni], by simp [commentedView, emptyIni]⟩
  simp only [iniLoad, present]
  exact folded _ _ start (readLines_short 256 content short)

end HenPlugins.Ini.CommentedView
