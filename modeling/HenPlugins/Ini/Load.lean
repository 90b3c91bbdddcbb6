import HenPlugins.Ini.Store

/-!
# `ini_load`

One call of `loadLine` is one iteration of the `fgets` loop.
`create_section` puts the new section in front, so `current_section` is always
the head of the chain, and `pending_comments` points to the header list until
a section exists and to the head section's list from then on.
-/

set_option autoImplicit false

namespace HenPlugins.Ini.Load

open HenPlugins.Lib.ByteText
open HenPlugins.Lib.SectionedDocument
open HenPlugins.Ini.Text
open HenPlugins.Ini.Store

/-- The contents of the files by path; `none` is a missing file. -/
abbrev Files := Text → Option Text

def singleFile (path content : Text) : Files :=
  fun other => if other = path then some content else none

/-- `[name] ; comment`: the trimmed name and the comment (empty if none). -/
def readSectionLine (originalLine : Text) : Option (Text × Text) :=
  let (lineCopy, comment) := extractInline originalLine
  if closeBracket ∈ lineCopy then
    some (trimWhitespace ((before closeBracket lineCopy).drop 1),
      comment.getD [])
  else none

/-- `key = value ; comment`.  The line is tested for `=` before and again
after the comment has been cut. -/
def readKeyLine (originalLine : Text) : Option (Text × Text × Text) :=
  if equalsSign ∈ originalLine then
    let (lineCopy, comment) := extractInline originalLine
    if equalsSign ∈ lineCopy then
      some (trimWhitespace (before equalsSign lineCopy),
        trimWhitespace (after equalsSign lineCopy), comment.getD [])
    else none
  else none

def pendingComments (ini : INIFile) : List Comment :=
  match ini.sections with
  | [] => ini.headerComments
  | current :: _ => current.commentsBefore

def setPendingComments (ini : INIFile) (comments : List Comment) : INIFile :=
  match ini.sections with
  | [] => { ini with headerComments := comments }
  | current :: rest =>
      { ini with
        sections := { current with commentsBefore := comments } :: rest }

def addPendingComment (ini : INIFile) (commentText : Text) : INIFile :=
  setPendingComments ini
    (addCommentToList (pendingComments ini) commentText)

/-- The new section is handed the pending comments, but the redirected pointer
clears that very list afterwards. -/
def loadSection (ini : INIFile) (sectionName comment : Text) : INIFile :=
  let emptied := setPendingComments ini []
  let current :=
    { newSection sectionName with
      commentsBefore := pendingComments ini
      comment := commentField comment }
  { emptied with
    sections := { current with commentsBefore := [] } :: emptied.sections }

/-- A key before any section has no `current_section` and is dropped. -/
def loadKey (ini : INIFile) (keyName value comment : Text) : INIFile :=
  match ini.sections with
  | [] => ini
  | current :: rest =>
      let key :=
        { newKey keyName with
          value := valueField value
          commentsBefore := current.commentsBefore
          comment := commentField comment }
      { ini with
        sections :=
          { current with
            keys := key :: current.keys
            commentsBefore := [] } :: rest }

def loadLine (ini : INIFile) (line : Text) : INIFile :=
  match trimWhitespace line with
  | [] => addPendingComment ini []
  | first :: rest =>
      if first == semicolon || first == hash then
        addPendingComment ini (trimWhitespace rest)
      else if first == openBracket then
        match readSectionLine line with
        | none => ini
        | some (sectionName, comment) => loadSection ini sectionName comment
      else
        match readKeyLine line with
        | none => ini
        | some (keyName, value, comment) => loadKey ini keyName value comment

def emptyIni (filename : Text) : INIFile :=
  { sections := [], headerComments := [], filename, modified := false }

def iniLoad (files : Files) (filename : Text) : INIFile :=
  match files filename with
  | none => emptyIni filename
  | some content => (readLines content).foldl loadLine (emptyIni filename)

theorem loadLine_filename (ini : INIFile) (line : Text) :
    (loadLine ini line).filename = ini.filename := by
  have pending : ∀ comments,
      (setPendingComments ini comments).filename = ini.filename := by
    intro comments
    rw [setPendingComments]
    cases ini.sections <;> rfl
  rw [loadLine]
  cases trimWhitespace line with
  | nil => exact pending _
  | cons first rest =>
      simp only
      split
      · exact pending _
      · split
        · cases readSectionLine line with
          | none => rfl
          | some parts => exact pending []
        · cases readKeyLine line with
          | none => rfl
          | some parts =>
              simp only [loadKey]
              cases ini.sections <;> rfl

theorem iniLoad_filename (files : Files) (filename : Text) :
    (iniLoad files filename).filename = filename := by
  have folded : ∀ (lines : List Text) (ini : INIFile),
      (lines.foldl loadLine ini).filename = ini.filename := by
    intro lines
    induction lines with
    | nil => intro ini; rfl
    | cons line lines ih =>
        intro ini
        rw [List.foldl_cons, ih, loadLine_filename]
  rw [iniLoad]
  cases files filename with
  | none => rfl
  | some content => exact folded _ _

def lineItem (line : Text) : Option (Item Text Text Text) :=
  match trimWhitespace line with
  | [] => none
  | first :: _ =>
      if first == semicolon || first == hash then none
      else if first == openBracket then
        (readSectionLine line).map fun parts =>
          .header (sectionField parts.1).text
      else
        (readKeyLine line).map fun parts =>
          .entry (keyField parts.1).text (valueField parts.2.1).text

/-- The section and key lines of a text, in file order. -/
def contentItems (content : Text) : List (Item Text Text Text) :=
  (readLines content).filterMap lineItem

theorem view_setPendingComments (ini : INIFile) (comments : List Comment) :
    view (setPendingComments ini comments) = view ini := by
  rw [setPendingComments]
  cases chain : ini.sections with
  | nil => simp [view, chain]
  | cons current rest => simp [view, chain, sectionView]

theorem view_loadSection (ini : INIFile) (sectionName comment : Text) :
    view (loadSection ini sectionName comment) =
      feed (view ini) (.header (sectionField sectionName).text) := by
  have same := view_setPendingComments ini []
  simp only [view] at same
  simp only [loadSection, view, List.map_cons, feed, same]
  rfl

theorem view_loadKey (ini : INIFile) (keyName value comment : Text) :
    view (loadKey ini keyName value comment) =
      feed (view ini)
        (.entry (keyField keyName).text (valueField value).text) := by
  rw [loadKey]
  cases chain : ini.sections with
  | nil => simp [view, chain, feed]
  | cons current rest =>
      simp [view, chain, feed, sectionView, keyView, newKey]

/-- One line feeds its item to the document, if it has one. -/
theorem view_loadLine (ini : INIFile) (line : Text) :
    view (loadLine ini line) =
      (lineItem line).elim (view ini) (feed (view ini)) := by
  unfold loadLine lineItem
  cases trimWhitespace line with
  | nil => exact view_setPendingComments ini _
  | cons first rest =>
      simp only
      split
      · exact view_setPendingComments ini _
      · split
        · cases readSectionLine line with
          | none => rfl
          | some parts => exact view_loadSection ini parts.1 parts.2
        · cases readKeyLine line with
          | none => rfl
          | some parts =>
              exact view_loadKey ini parts.1 parts.2.1 parts.2.2

theorem view_foldl_loadLine (lines : List Text) (ini : INIFile) :
    view (lines.foldl loadLine ini) =
      (lines.filterMap lineItem).foldl feed (view ini) := by
  induction lines generalizing ini with
  | nil => rfl
  | cons line lines ih =>
      rw [List.foldl_cons, ih, view_loadLine, List.filterMap_cons]
      cases lineItem line <;> rfl

theorem view_iniLoad (files : Files) (filename content : Text)
    (present : files filename = some content) :
    view (iniLoad files filename) = build (contentItems content) := by
  simp only [iniLoad, present, build, contentItems]
  exact view_foldl_loadLine _ _

theorem contentItems_append (front rest : Text) :
    contentItems (front ++ newline :: rest) =
      contentItems (front ++ [newline]) ++ contentItems rest := by
  rw [contentItems, readLines_append, List.filterMap_append]
  rfl

theorem cutLine_safeLine (line : Text)
    (safe : ∀ byte ∈ line, isLineEnd byte = false) : cutLine line = line := by
  rw [cutLine, List.takeWhile_eq_self_iff]
  intro byte member
  simp [safe byte member]

theorem newline_not_mem_of_safe (line : Text)
    (safe : ∀ byte ∈ line, isLineEnd byte = false) : newline ∉ line := by
  intro member
  have clash := safe newline member
  contradiction

theorem readLines_line (line : Text)
    (safe : ∀ byte ∈ line, isLineEnd byte = false)
    (short : line.length < maxLineLength - 1) :
    readLines (line ++ [newline]) = [line] := by
  rw [readLines_shortLine line (newline_not_mem_of_safe line safe) short,
    cutLine_safeLine line safe]

theorem contentItems_overrun (front rest : Text) (single : newline ∉ front)
    (full : front.length = maxLineLength - 1) :
    contentItems (front ++ rest) =
      (lineItem (cutLine front)).toList ++ contentItems rest := by
  rw [contentItems, readLines_overrun front rest single full,
    List.filterMap_cons, contentItems]
  cases lineItem (cutLine front) <;> rfl

theorem contentItems_append_newline (line : Text) (single : newline ∉ line) :
    contentItems (line ++ [newline]) = contentItems line := by
  induction size : line.length using Nat.strongRecOn generalizing line with
  | ind size ih =>
      by_cases empty : line = []
      · rw [empty]
        rfl
      · by_cases short : line.length < maxLineLength - 1
        · rw [contentItems, contentItems, readLines_shortLine line single short,
            readLines_lastLine line single (Nat.le_of_lt short) empty]
        · have positive := lineRoom_positive
          have some := List.length_pos_iff.mpr empty
          have filled : (line.take (maxLineLength - 1)).length =
              maxLineLength - 1 := List.length_take_of_le (by omega)
          have firstSingle : newline ∉ line.take (maxLineLength - 1) :=
            fun member => single (List.mem_of_mem_take member)
          have later := ih (line.drop (maxLineLength - 1)).length
            (by
              rw [List.length_drop]
              omega)
            (line.drop (maxLineLength - 1))
            (fun member => single (List.mem_of_mem_drop member)) rfl
          conv_lhs => rw [← List.take_append_drop (maxLineLength - 1) line]
          conv_rhs => rw [← List.take_append_drop (maxLineLength - 1) line]
          rw [List.append_assoc, contentItems_overrun _ _ firstSingle filled,
            contentItems_overrun _ _ firstSingle filled, later]

theorem contentItems_line (line : Text)
    (safe : ∀ byte ∈ line, isLineEnd byte = false)
    (fits : line.length < maxLineLength) :
    contentItems (line ++ [newline]) = (lineItem line).toList := by
  have single := newline_not_mem_of_safe line safe
  rw [contentItems_append_newline line single]
  by_cases empty : line = []
  · rw [empty]
    rfl
  · rw [contentItems, readLines_lastLine line single
      (Nat.le_sub_one_of_lt fits) empty, cutLine_safeLine line safe,
      List.filterMap_cons]
    cases lineItem line <;> rfl

/-- A line that overruns the buffer once is parsed as two lines. -/
theorem contentItems_long_line (line : Text)
    (safe : ∀ byte ∈ line, isLineEnd byte = false)
    (overruns : maxLineLength - 1 ≤ line.length)
    (twice : line.length < maxLineLength - 1 + maxLineLength) :
    contentItems (line ++ [newline]) =
      (lineItem (line.take (maxLineLength - 1))).toList ++
        (lineItem (line.drop (maxLineLength - 1))).toList := by
  have firstSafe : ∀ byte ∈ line.take (maxLineLength - 1),
      isLineEnd byte = false :=
    fun byte member => safe byte (List.mem_of_mem_take member)
  have second := contentItems_line (line.drop (maxLineLength - 1))
    (fun byte member => safe byte (List.mem_of_mem_drop member))
    (by rw [List.length_drop]; omega)
  conv_lhs => rw [← List.take_append_drop (maxLineLength - 1) line]
  rw [List.append_assoc, contentItems_overrun _ _
    (newline_not_mem_of_safe _ firstSafe) (List.length_take_of_le overruns),
    second, cutLine_safeLine _ firstSafe]

end HenPlugins.Ini.Load
