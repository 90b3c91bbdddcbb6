import HenPlugins.Ini.Load

/-!
# `ini_save`

The written text, and what the line reader of `ini_load` makes of it: comment
lines contribute nothing, a header line at most one header, and a key line the
items of the one or two buffers it is read into.
-/

set_option autoImplicit false

namespace HenPlugins.Ini.Save

open HenPlugins.Lib.ByteText
open HenPlugins.Lib.SectionedDocument
open HenPlugins.Ini.Text
open HenPlugins.Ini.Store
open HenPlugins.Ini.Load

def saveComment (comment : Comment) : Text :=
  if comment.text.length == 0 then [newline]
  else ascii "; " ++ comment.text ++ [newline]

def saveComments (comments : List Comment) : Text :=
  comments.flatMap saveComment

/-- The `[name]` line without its newline. -/
def sectionLine (current : Section) : Text :=
  if current.comment.text.length > 0 then
    ascii "[" ++ current.name.text ++ ascii "] ; " ++ current.comment.text
  else ascii "[" ++ current.name.text ++ ascii "]"

/-- The `key = value` line without its newline. -/
def keyLine (key : KeyValue) : Text :=
  if key.comment.text.length > 0 then
    key.key.text ++ ascii " = " ++ key.value.text ++ ascii " ; " ++
      key.comment.text
  else key.key.text ++ ascii " = " ++ key.value.text

def saveKey (key : KeyValue) : Text :=
  saveComments key.commentsBefore ++ (keyLine key ++ [newline])

def saveSection (current : Section) : Text :=
  saveComments current.commentsBefore ++ (sectionLine current ++ [newline]) ++
    current.keys.flatMap saveKey ++ [newline]

def saveText (ini : INIFile) : Text :=
  saveComments ini.headerComments ++ ini.sections.flatMap saveSection

/-- The file is taken to open for writing; the call then returns 1. -/
def iniSave (files : Files) (ini : INIFile) : Files × INIFile :=
  (fun path => if path = ini.filename then some (saveText ini) else files path,
    { ini with modified := false })

def LineSafe (text : Text) : Prop :=
  ∀ byte ∈ text, isLineEnd byte = false

instance (text : Text) : Decidable (LineSafe text) :=
  (List.decidableBAll _ text :
    Decidable (∀ byte ∈ text, isLineEnd byte = false))

theorem LineSafe.append {left right : Text} (first : LineSafe left)
    (second : LineSafe right) : LineSafe (left ++ right) := by
  intro byte member
  rcases List.mem_append.mp member with early | late
  · exact first byte early
  · exact second byte late

theorem LineSafe.of_subset {part whole : Text} (safe : LineSafe whole)
    (inside : part ⊆ whole) : LineSafe part :=
  fun byte member => safe byte (inside member)

theorem LineSafe.take {text : Text} (safe : LineSafe text) (count : Nat) :
    LineSafe (text.take count) :=
  safe.of_subset (List.take_subset count text)

structure SafeKey (key : KeyValue) : Prop where
  keyText : LineSafe key.key.text
  valueText : LineSafe key.value.text
  commentText : LineSafe key.comment.text
  beforeTexts : ∀ before ∈ key.commentsBefore, LineSafe before.text

structure SafeSection (current : Section) : Prop where
  nameText : LineSafe current.name.text
  commentText : LineSafe current.comment.text
  beforeTexts : ∀ before ∈ current.commentsBefore, LineSafe before.text
  keys : ∀ key ∈ current.keys, SafeKey key

/-- No stored text contains a NUL, a carriage return or a newline. -/
structure SafeStore (ini : INIFile) : Prop where
  headerTexts : ∀ header ∈ ini.headerComments, LineSafe header.text
  sections : ∀ current ∈ ini.sections, SafeSection current

theorem sectionLine_safe (current : Section) (safe : SafeSection current) :
    LineSafe (sectionLine current) := by
  have opened : LineSafe (ascii "[" ++ current.name.text) :=
    LineSafe.append (by decide) safe.nameText
  rw [sectionLine]
  split
  · exact (opened.append (by decide)).append safe.commentText
  · exact opened.append (by decide)

theorem keyLine_safe (key : KeyValue) (safe : SafeKey key) :
    LineSafe (keyLine key) := by
  have body : LineSafe (key.key.text ++ ascii " = " ++ key.value.text) :=
    (safe.keyText.append (by decide)).append safe.valueText
  rw [keyLine]
  split
  · exact (body.append (by decide)).append safe.commentText
  · exact body

theorem sectionLine_fits (current : Section) :
    (sectionLine current).length < maxLineLength := by
  have name := current.name.fits
  have comment := current.comment.fits
  have opening : (ascii "[").length = 1 := rfl
  have separator : (ascii "] ; ").length = 4 := rfl
  have closing : (ascii "]").length = 1 := rfl
  simp only [maxSectionLength] at name
  simp only [maxCommentLength] at comment
  unfold sectionLine maxLineLength
  split
  · simp only [List.length_append]
    omega
  · simp only [List.length_append]
    omega

theorem keyLine_bound (key : KeyValue) :
    (keyLine key).length < maxLineLength - 1 + maxLineLength := by
  have name := key.key.fits
  have value := key.value.fits
  have comment := key.comment.fits
  have equals : (ascii " = ").length = 3 := rfl
  have separator : (ascii " ; ").length = 3 := rfl
  simp only [maxKeyLength] at name
  simp only [maxValueLength] at value
  simp only [maxCommentLength] at comment
  unfold keyLine maxLineLength
  split
  · simp only [List.length_append]
    omega
  · simp only [List.length_append]
    omega

/-- Whatever follows a text of whole lines is read on its own. -/
def WholeLines (text : Text) : Prop :=
  ∀ rest, contentItems (text ++ rest) = contentItems text ++ contentItems rest

theorem wholeLines_nil : WholeLines [] := fun _ => rfl

theorem wholeLines_line (line : Text) : WholeLines (line ++ [newline]) := by
  intro rest
  rw [List.append_assoc]
  exact contentItems_append line rest

theorem WholeLines.append {left right : Text} (first : WholeLines left)
    (second : WholeLines right) : WholeLines (left ++ right) := by
  intro rest
  rw [List.append_assoc, first, second, first right, List.append_assoc]

theorem wholeLines_flatMap {Node : Type} (write : Node → Text)
    (nodes : List Node) (whole : ∀ node ∈ nodes, WholeLines (write node)) :
    WholeLines (nodes.flatMap write) ∧
      contentItems (nodes.flatMap write) =
        nodes.flatMap fun node => contentItems (write node) := by
  induction nodes with
  | nil => exact ⟨wholeLines_nil, rfl⟩
  | cons node nodes ih =>
      obtain ⟨tailWhole, tailItems⟩ :=
        ih fun other member => whole other (List.mem_cons_of_mem _ member)
      have head := whole node (List.mem_cons_self ..)
      refine ⟨?_, ?_⟩
      · rw [List.flatMap_cons]
        exact head.append tailWhole
      · rw [List.flatMap_cons, head, tailItems, List.flatMap_cons]

theorem saveComment_items (comment : Comment) (safe : LineSafe comment.text) :
    WholeLines (saveComment comment) ∧
      contentItems (saveComment comment) = [] := by
  rw [saveComment]
  split
  · exact ⟨wholeLines_line [], rfl⟩
  · refine ⟨wholeLines_line _, ?_⟩
    have bound := comment.fits
    have marker : (ascii "; ").length = 2 := rfl
    have lineSafe : LineSafe (ascii "; " ++ comment.text) :=
      LineSafe.append (by decide) safe
    rw [contentItems_line _ lineSafe]
    · have shape : trimWhitespace (ascii "; " ++ comment.text) =
          semicolon :: (space :: comment.text).rdropWhile isSpace :=
        trim_cons_of_solid isSpace semicolon _ rfl
      simp only [lineItem, shape]
      rfl
    · simp only [List.length_append, marker]
      simp only [maxCommentLength] at bound
      rw [maxLineLength]
      omega

theorem saveComments_items (comments : List Comment)
    (safe : ∀ comment ∈ comments, LineSafe comment.text) :
    WholeLines (saveComments comments) ∧
      contentItems (saveComments comments) = [] := by
  obtain ⟨whole, items⟩ := wholeLines_flatMap saveComment comments
    fun comment member => (saveComment_items comment (safe comment member)).1
  refine ⟨whole, ?_⟩
  rw [saveComments, items, List.flatMap_eq_nil_iff]
  intro comment member
  exact (saveComment_items comment (safe comment member)).2

/-- What the loader reads from the written line of a key. -/
def keyItems (key : KeyValue) : List (Item Text Text Text) :=
  contentItems (keyLine key ++ [newline])

/-- What the loader reads from the written lines of a section. -/
def savedSectionItems (current : Section) : List (Item Text Text Text) :=
  (lineItem (sectionLine current)).toList ++ current.keys.flatMap keyItems

theorem saveKey_items (key : KeyValue) (safe : SafeKey key) :
    WholeLines (saveKey key) ∧ contentItems (saveKey key) = keyItems key := by
  obtain ⟨commentsWhole, commentsItems⟩ :=
    saveComments_items key.commentsBefore safe.beforeTexts
  refine ⟨commentsWhole.append (wholeLines_line _), ?_⟩
  rw [saveKey, commentsWhole, commentsItems]
  rfl

theorem saveSection_items (current : Section) (safe : SafeSection current) :
    WholeLines (saveSection current) ∧
      contentItems (saveSection current) = savedSectionItems current := by
  obtain ⟨commentsWhole, commentsItems⟩ :=
    saveComments_items current.commentsBefore safe.beforeTexts
  obtain ⟨keysWhole, keysItems⟩ := wholeLines_flatMap saveKey current.keys
    fun key member => (saveKey_items key (safe.keys key member)).1
  have header := wholeLines_line (sectionLine current)
  have keyTexts : current.keys.flatMap (fun key => contentItems (saveKey key)) =
      current.keys.flatMap keyItems :=
    List.flatMap_congr fun key member =>
      (saveKey_items key (safe.keys key member)).2
  have blank : contentItems [newline] = [] := rfl
  refine ⟨((commentsWhole.append header).append keysWhole).append
    (wholeLines_line []), ?_⟩
  rw [saveSection, (commentsWhole.append header).append keysWhole,
    commentsWhole.append header, commentsWhole, commentsItems, keysItems,
    keyTexts, contentItems_line _ (sectionLine_safe current safe)
      (sectionLine_fits current), blank]
  simp [savedSectionItems]

/-- The items of a saved store: its section and key lines in chain order. -/
theorem contentItems_saveText (ini : INIFile) (safe : SafeStore ini) :
    contentItems (saveText ini) =
      ini.sections.flatMap savedSectionItems := by
  obtain ⟨headerWhole, headerItems⟩ :=
    saveComments_items ini.headerComments safe.headerTexts
  obtain ⟨-, sectionsItems⟩ := wholeLines_flatMap saveSection ini.sections
    fun current member => (saveSection_items current
      (safe.sections current member)).1
  rw [saveText, headerWhole, headerItems, sectionsItems, List.nil_append]
  exact List.flatMap_congr fun current member =>
    (saveSection_items current (safe.sections current member)).2

end HenPlugins.Ini.Save
