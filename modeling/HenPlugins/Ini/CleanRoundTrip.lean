import HenPlugins.Ini.CleanLines
import HenPlugins.Ini.CommentedView

/-!
# The round trip of a clean store

Each written line of a clean store feeds exactly its own item to the view with
comments, so the reloaded document is the mirror image of the saved one and
holds the same sections, keys, values and comments.
-/

set_option autoImplicit false

namespace HenPlugins.Ini.CleanRoundTrip

open HenPlugins.Lib.ByteText
open HenPlugins.Lib.SectionedDocument
open HenPlugins.Ini.Text
open HenPlugins.Ini.Store
open HenPlugins.Ini.Load
open HenPlugins.Ini.Save
open HenPlugins.Ini.Rewrite
open HenPlugins.Ini.CommentedView
open HenPlugins.Ini.CleanLines

structure CleanSection (current : Section) : Prop where
  header : CleanHeader current
  nameNonempty : current.name.text ≠ []
  noneBefore : current.commentsBefore = []
  headerShort : (sectionLine current).length < maxLineLength - 1
  keysDistinct : (current.keys.map fun key => key.key.text).Nodup
  keys : ∀ key ∈ current.keys, CleanKey key ∧ key.key.text ≠ [] ∧
    key.commentsBefore = [] ∧ (keyLine key).length < maxLineLength - 1

/-- The stores the format can represent: no comments before sections and
keys, distinct names, clean texts, and lines that fit one `fgets`. -/
structure CleanStore (ini : INIFile) : Prop where
  headerTexts : ∀ header ∈ ini.headerComments, LineSafe header.text
  sectionsDistinct : (ini.sections.map fun current =>
    current.name.text).Nodup
  sections : ∀ current ∈ ini.sections, CleanSection current

instance (current : Section) : Decidable (CleanSection current) :=
  decidable_of_iff (CleanHeader current ∧ current.name.text ≠ [] ∧
      current.commentsBefore = [] ∧
      (sectionLine current).length < maxLineLength - 1 ∧
      (current.keys.map fun key => key.key.text).Nodup ∧
      ∀ key ∈ current.keys, CleanKey key ∧ key.key.text ≠ [] ∧
        key.commentsBefore = [] ∧ (keyLine key).length < maxLineLength - 1)
    ⟨fun facts => ⟨facts.1, facts.2.1, facts.2.2.1, facts.2.2.2.1,
        facts.2.2.2.2.1, facts.2.2.2.2.2⟩,
      fun clean => ⟨clean.header, clean.nameNonempty, clean.noneBefore,
        clean.headerShort, clean.keysDistinct, clean.keys⟩⟩

instance (ini : INIFile) : Decidable (CleanStore ini) :=
  decidable_of_iff ((∀ header ∈ ini.headerComments, LineSafe header.text) ∧
      (ini.sections.map fun current => current.name.text).Nodup ∧
      ∀ current ∈ ini.sections, CleanSection current)
    ⟨fun facts => ⟨facts.1, facts.2.1, facts.2.2⟩,
      fun clean => ⟨clean.headerTexts, clean.sectionsDistinct,
        clean.sections⟩⟩

/-- The lines `ini_save` writes for a section without comments before. -/
def writtenLines (current : Section) : List Text :=
  sectionLine current :: current.keys.map keyLine ++ [[]]

theorem readLines_flatMap (lines : List Text)
    (fits : ∀ line ∈ lines, LineSafe line ∧
      line.length < maxLineLength - 1) (rest : Text) :
    readLines (lines.flatMap (fun line => line ++ [newline]) ++ rest) =
      lines ++ readLines rest := by
  induction lines with
  | nil => rfl
  | cons line lines ih =>
      have tail := ih fun other member =>
        fits other (List.mem_cons_of_mem _ member)
      obtain ⟨safe, short⟩ := fits line (List.mem_cons_self ..)
      rw [List.flatMap_cons, List.append_assoc, List.append_assoc,
        List.singleton_append, readLines_append, readLines_line line safe short,
        tail]
      rfl

/-- The line of a comment without its newline. -/
def commentLine (comment : Comment) : Text :=
  if comment.text.length == 0 then [] else ascii "; " ++ comment.text

theorem saveComments_eq (comments : List Comment) :
    saveComments comments =
      (comments.map commentLine).flatMap fun line => line ++ [newline] := by
  rw [saveComments, List.flatMap_map]
  apply List.flatMap_congr
  intro comment _
  rw [saveComment, commentLine]
  split <;> rfl

theorem saveSection_eq (current : Section) (clean : CleanSection current) :
    saveSection current =
      (writtenLines current).flatMap fun line => line ++ [newline] := by
  have keyTexts : current.keys.flatMap saveKey =
      (current.keys.map keyLine).flatMap fun line => line ++ [newline] := by
    rw [List.flatMap_map]
    apply List.flatMap_congr
    intro key member
    rw [saveKey, (clean.keys key member).2.2.1]
    rfl
  rw [saveSection, clean.noneBefore, keyTexts, writtenLines]
  simp [saveComments]

theorem commentLine_fits (comment : Comment) (safe : LineSafe comment.text) :
    LineSafe (commentLine comment) ∧
      (commentLine comment).length < maxLineLength - 1 := by
  have bound := comment.fits
  simp only [maxCommentLength] at bound
  have marker : (ascii "; ").length = 2 := rfl
  rw [commentLine, maxLineLength]
  split
  · exact ⟨by decide, by decide⟩
  · refine ⟨LineSafe.append (by decide) safe, ?_⟩
    simp only [List.length_append, marker]
    omega

theorem writtenLines_fit (current : Section) (clean : CleanSection current) :
    ∀ line ∈ writtenLines current, LineSafe line ∧
      line.length < maxLineLength - 1 := by
  have header : SafeSection { current with keys := [] } :=
    ⟨clean.header.name.lineSafe, clean.header.comment.lineSafe,
      by simp [clean.noneBefore], by simp⟩
  intro line member
  rcases List.mem_append.mp member with written | blank
  · rcases List.mem_cons.mp written with rfl | inside
    · exact ⟨sectionLine_safe { current with keys := [] } header,
        clean.headerShort⟩
    · obtain ⟨key, keyMember, rfl⟩ := List.mem_map.mp inside
      obtain ⟨cleanKey, -, noneBefore, short⟩ := clean.keys key keyMember
      exact ⟨keyLine_safe key ⟨cleanKey.name.lineSafe,
        cleanKey.value.lineSafe, cleanKey.comment.lineSafe,
        by simp [noneBefore]⟩, short⟩
  · rw [List.mem_singleton.mp blank]
    exact ⟨by decide, by decide⟩

theorem readLines_saveText (ini : INIFile) (clean : CleanStore ini) :
    readLines (saveText ini) =
      ini.headerComments.map commentLine ++
        ini.sections.flatMap writtenLines := by
  have headerFits : ∀ line ∈ ini.headerComments.map commentLine,
      LineSafe line ∧ line.length < maxLineLength - 1 := by
    intro line member
    obtain ⟨comment, inside, rfl⟩ := List.mem_map.mp member
    exact commentLine_fits comment (clean.headerTexts comment inside)
  have sectionFits : ∀ line ∈ ini.sections.flatMap writtenLines,
      LineSafe line ∧ line.length < maxLineLength - 1 := by
    intro line member
    obtain ⟨current, inside, written⟩ := List.mem_flatMap.mp member
    exact writtenLines_fit current (clean.sections current inside) line written
  have sectionTexts : ini.sections.flatMap saveSection =
      (ini.sections.flatMap writtenLines).flatMap
        fun line => line ++ [newline] := by
    rw [List.flatMap_assoc]
    exact List.flatMap_congr fun current member =>
      saveSection_eq current (clean.sections current member)
  have whole := readLines_flatMap (ini.sections.flatMap writtenLines)
    sectionFits []
  rw [List.append_nil, readLines_nil, List.append_nil] at whole
  rw [saveText, saveComments_eq, sectionTexts,
    readLines_flatMap _ headerFits, whole]

theorem loadLine_commentLine (ini : INIFile) (comment : Comment) :
    commentedView (loadLine ini (commentLine comment)) =
      commentedView ini := by
  rw [commentLine]
  split
  · exact commentedView_setPendingComments ini _
  · have shape : trimWhitespace (ascii "; " ++ comment.text) =
        semicolon :: (space :: comment.text).rdropWhile isSpace :=
      trim_cons_of_solid isSpace semicolon _ rfl
    rw [loadLine, shape]
    exact commentedView_setPendingComments ini _

theorem foldl_commentLines (comments : List Comment) (ini : INIFile) :
    commentedView ((comments.map commentLine).foldl loadLine ini) =
      commentedView ini := by
  induction comments generalizing ini with
  | nil => rfl
  | cons comment comments ih =>
      rw [List.map_cons, List.foldl_cons, ih, loadLine_commentLine]

theorem loadLine_written_header (ini : INIFile) (current : Section)
    (clean : CleanHeader current) :
    commentedView (loadLine ini (sectionLine current)) =
      feed (commentedView ini)
        (.header (current.name.text, current.comment.text)) := by
  have nameFits := current.name.fits
  have commentFits := current.comment.fits
  simp only [maxSectionLength] at nameFits
  simp only [maxCommentLength] at commentFits
  rw [loadLine_sectionLine ini current clean, commentedView_loadSection,
    sectionField_text, commentField_text, List.take_of_length_le (by omega),
    List.take_of_length_le (by omega)]

theorem loadLine_written_key (ini : INIFile) (key : KeyValue)
    (clean : CleanKey key) :
    commentedView (loadLine ini (keyLine key)) =
      feed (commentedView ini) (entryItem (commentedKey key)) := by
  have keyFits := key.key.fits
  have valueFits := key.value.fits
  have commentFits := key.comment.fits
  simp only [maxKeyLength] at keyFits
  simp only [maxValueLength] at valueFits
  simp only [maxCommentLength] at commentFits
  rw [loadLine_keyLine ini key clean, commentedView_loadKey, keyField_text,
    valueField_text, commentField_text, List.take_of_length_le (by omega),
    List.take_of_length_le (by omega), List.take_of_length_le (by omega)]
  rfl

theorem foldl_keyLines (keys : List KeyValue) (ini : INIFile)
    (clean : ∀ key ∈ keys, CleanKey key) :
    commentedView ((keys.map keyLine).foldl loadLine ini) =
      ((keys.map commentedKey).map entryItem).foldl feed
        (commentedView ini) := by
  induction keys generalizing ini with
  | nil => rfl
  | cons key keys ih =>
      rw [List.map_cons, List.foldl_cons,
        ih _ fun other member => clean other (List.mem_cons_of_mem _ member),
        loadLine_written_key ini key (clean key (List.mem_cons_self ..))]
      rfl

theorem foldl_writtenLines (current : Section) (ini : INIFile)
    (clean : CleanSection current) :
    commentedView ((writtenLines current).foldl loadLine ini) =
      (sectionItems (commentedSection current)).foldl feed
        (commentedView ini) := by
  have blank (state : INIFile) :
      commentedView (loadLine state []) = commentedView state :=
    commentedView_setPendingComments state _
  rw [writtenLines, List.foldl_append, List.foldl_cons, List.foldl_nil, blank,
    List.foldl_cons,
    foldl_keyLines _ _ fun key member => (clean.keys key member).1,
    loadLine_written_header ini current clean.header]
  rfl

theorem foldl_sections (sections : List Section) (ini : INIFile)
    (clean : ∀ current ∈ sections, CleanSection current) :
    commentedView ((sections.flatMap writtenLines).foldl loadLine ini) =
      (items (sections.map commentedSection)).foldl feed
        (commentedView ini) := by
  induction sections generalizing ini with
  | nil => rfl
  | cons current sections ih =>
      have tail := ih ((writtenLines current).foldl loadLine ini)
        fun other member => clean other (List.mem_cons_of_mem _ member)
      rw [List.flatMap_cons, List.foldl_append, tail,
        foldl_writtenLines current ini (clean current (List.mem_cons_self ..)),
        ← List.foldl_append]
      rfl

/-- A clean store comes back as its mirror image, comments included. -/
theorem commentedView_reload (files : Files) (ini : INIFile)
    (clean : CleanStore ini) :
    commentedView (reload files ini) = mirror (commentedView ini) := by
  have loaded : reload files ini =
      (readLines (saveText ini)).foldl loadLine (emptyIni ini.filename) := by
    simp [reload, iniLoad, iniSave]
  rw [loaded, readLines_saveText ini clean, List.foldl_append,
    foldl_sections _ _ clean.sections, foldl_commentLines]
  exact build_items (commentedView ini)

/-- What `ini_save` writes, `ini_load` reads: the same sections with their
inline comments and, in each, the same keys, values and inline comments. -/
theorem clean_round_trip (files : Files) (ini : INIFile)
    (clean : CleanStore ini) :
    contents (commentedView (reload files ini)) =
      contents (commentedView ini) := by
  rw [commentedView_reload files ini clean, contents_mirror]

/-- Two sections with inline comments that hold marks, an empty value and a
value that holds `=`. -/
def cleanIni : INIFile :=
  { sections :=
      [{ name := sectionField (ascii "all")
         comment := commentField (ascii "on; #always")
         commentsBefore := []
         keys :=
           [{ key := keyField (ascii "a")
              value := valueField []
              comment := commentField (ascii "x;y#z")
              commentsBefore := [] },
            { key := keyField (ascii "b")
              value := valueField (ascii "1=2")
              comment := commentField []
              commentsBefore := [] }] },
       { name := sectionField (ascii "CUSA00001")
         comment := commentField []
         commentsBefore := []
         keys := [] }]
    headerComments := []
    filename := ascii "p.ini"
    modified := true }

theorem clean_round_trip_cleanIni :
    contents (commentedView (reload (fun _ => none) cleanIni)) =
      contents (commentedView cleanIni) :=
  clean_round_trip (fun _ => none) cleanIni (by decide)

end HenPlugins.Ini.CleanRoundTrip
