import HenPlugins.Ini.Load
import HenPlugins.Lib.ItemStream

/-!
# Commented-out lines

`fgets` hands a line of 1023 bytes or more to the parser in pieces.  Only the
first piece of a commented-out line starts with the comment character; the
others are parsed as lines of their own and can open sections and set keys.
-/

set_option autoImplicit false

namespace HenPlugins.Ini.CommentedOut

open HenPlugins.Lib.ByteText
open HenPlugins.Lib.SectionedDocument
open HenPlugins.Lib.ItemStream
open HenPlugins.Ini.Text
open HenPlugins.Ini.Store
open HenPlugins.Ini.Load

/-- The first byte that is not blank is a comment character. -/
def isCommented (line : Text) : Bool :=
  match trimWhitespace line with
  | [] => false
  | first :: _ => first == semicolon || first == hash

/-- A file by its lines; what follows the last newline is the last one. -/
structure LineFile where
  lines : List Text
  last : Text
  single : ∀ line ∈ last :: lines, newline ∉ line

section File
variable (file : LineFile)

def LineFile.content : Text := linesText file.lines file.last

/-- The file with its commented-out lines deleted. -/
def LineFile.uncommented : Text :=
  linesText (file.lines.filter fun line => !isCommented line)
    (if isCommented file.last then [] else file.last)

/-- Deleting the commented-out lines changes no section, key or value. -/
def LineFile.CommentsInert : Prop :=
  ∀ path, view (iniLoad (singleFile path file.content) path) =
    view (iniLoad (singleFile path file.uncommented) path)

end File

/-- Every file is that of some lines. -/
theorem exists_lineFile (content : Text) :
    ∃ file : LineFile, file.content = content := by
  obtain ⟨lines, last, same, single⟩ := exists_linesText content
  exact ⟨⟨lines, last, single⟩, same.symm⟩

theorem contentItems_linesText (lines : List Text) (last : Text)
    (single : ∀ line ∈ lines, newline ∉ line) :
    contentItems (linesText lines last) =
      (lines ++ [last]).flatMap contentItems := by
  have each : lines.flatMap (fun line => contentItems (line ++ [newline])) =
      lines.flatMap contentItems := by
    apply List.flatMap_congr
    intro line member
    exact contentItems_append_newline line (single line member)
  rw [contentItems, readLines_linesText, List.filterMap_append,
    List.filterMap_flatMap, List.flatMap_append, List.flatMap_singleton, ← each]
  rfl

/-- The first piece of a commented-out line is a comment or blank. -/
theorem lineItem_firstPiece (line : Text) (commented : isCommented line = true)
    (room : Nat) : lineItem (cutLine (fgets room line).1) = none := by
  have isPrefix : cutLine (fgets room line).1 <+: line := by
    conv_rhs => rw [← fgets_append room line]
    exact (List.takeWhile_prefix _).trans (List.prefix_append _ _)
  have head := head_trim_of_isPrefix isSpace isPrefix
  rw [lineItem]
  cases piece : trimWhitespace (cutLine (fgets room line).1) with
  | nil => rfl
  | cons first rest =>
      have starts := head first (by
        rw [trimWhitespace] at piece
        simp [piece])
      cases whole : trimWhitespace line with
      | nil =>
          rw [trimWhitespace] at whole
          simp [whole] at starts
      | cons other tail =>
          rw [isCommented, whole] at commented
          rw [trimWhitespace] at whole
          simp only [whole, List.head?_cons, Option.mem_def,
            Option.some.injEq] at starts
          rw [starts] at commented
          simp only [commented, if_true]

/-- A commented-out line contributes what the pieces behind the first do. -/
theorem contentItems_commented (line : Text)
    (commented : isCommented line = true) :
    contentItems line = [] ↔
      ∀ piece ∈ (readLines line).tail, lineItem piece = none := by
  cases line with
  | nil => contradiction
  | cons byte rest =>
      have first := lineItem_firstPiece (byte :: rest) commented
        (maxLineLength - 1)
      rw [contentItems, readLines_cons, List.filterMap_cons, first,
        List.tail_cons]
      simp

/-- No piece of the line is a section line. -/
def opensNoSection (line : Text) : Bool := (contentItems line).all isEntry

section Deletion
variable (file : LineFile)

theorem contentItems_content :
    contentItems file.content =
      (file.lines ++ [file.last]).flatMap contentItems :=
  contentItems_linesText file.lines file.last fun line member =>
    file.single line (List.mem_cons_of_mem file.last member)

theorem contentItems_uncommented :
    contentItems file.uncommented =
      ((file.lines ++ [file.last]).filter
        fun line => !isCommented line).flatMap contentItems := by
  have single : ∀ line ∈ file.lines.filter fun line => !isCommented line,
      newline ∉ line := by
    intro line member
    exact file.single line (List.mem_cons_of_mem file.last
      (List.mem_of_mem_filter member))
  rw [LineFile.uncommented, contentItems_linesText _ _ single,
    List.filter_append, List.flatMap_append, List.flatMap_append]
  congr 1
  cases commented : isCommented file.last with
  | true => simp [commented, contentItems]
  | false => simp [commented]

/-- Deleting the commented-out lines changes nothing if and only if, from the
first line on that opens a section, none of them has a piece behind its first
that is a section line or a key line. -/
theorem commentsInert_iff :
    file.CommentsInert ↔
      ∀ line ∈ (file.lines ++ [file.last]).dropWhile opensNoSection,
        isCommented line = true →
          ∀ piece ∈ (readLines line).tail, lineItem piece = none := by
  have blocks := build_filter_iff contentItems (fun line => !isCommented line)
    (file.lines ++ [file.last])
  rw [← contentItems_content, ← contentItems_uncommented] at blocks
  have loaded : file.CommentsInert ↔
      build (contentItems file.content) =
        build (contentItems file.uncommented) := by
    rw [LineFile.CommentsInert]
    simp only [view_iniLoad (singleFile _ _) _ _ (if_pos rfl), forall_const]
  rw [loaded, blocks]
  refine forall₂_congr fun line _ => ?_
  cases commented : isCommented line with
  | true => simp [contentItems_commented line commented]
  | false => simp

end Deletion

/-- The first buffer of a comment with more text behind it. -/
def firstBuffer : Text := semicolon :: List.replicate 1022 'x'.toUInt8

theorem firstBuffer_single : newline ∉ firstBuffer := by
  rw [firstBuffer, List.mem_cons, not_or]
  refine ⟨by decide, ?_⟩
  intro member
  exact absurd (List.eq_of_mem_replicate member) (by decide)

/-- A comment line with a section line from byte 1023 on. -/
def hiddenSection : LineFile where
  lines := []
  last := firstBuffer ++ ascii "[s]"
  single := by
    intro line member
    obtain rfl := List.mem_singleton.mp member
    rw [List.mem_append, not_or]
    exact ⟨firstBuffer_single, by decide⟩

theorem firstBuffer_commented (rest : Text) :
    isCommented (firstBuffer ++ rest) = true := by
  rw [isCommented, trimWhitespace, firstBuffer, List.cons_append,
    trim_cons_of_solid _ _ _ rfl]
  rfl

theorem hiddenSection_notInert : ¬ ∀ file : LineFile, file.CommentsInert := by
  intro inert
  have same := inert hiddenSection []
  have filled : firstBuffer.length = maxLineLength - 1 := by
    rw [firstBuffer, List.length_cons, List.length_replicate]
    rfl
  have comment : lineItem (cutLine firstBuffer) = none := by
    have piece := lineItem_firstPiece (firstBuffer ++ [])
      (firstBuffer_commented []) firstBuffer.length
    rwa [fgets_fills_room firstBuffer [] firstBuffer_single] at piece
  have items : contentItems hiddenSection.content =
      [.header (ascii "s")] := by
    rw [contentItems_content]
    simp only [hiddenSection, List.nil_append, List.flatMap_singleton]
    rw [contentItems_overrun firstBuffer _ firstBuffer_single filled, comment]
    decide
  have nothing : hiddenSection.uncommented = [] := by
    simp only [LineFile.uncommented, hiddenSection, firstBuffer_commented,
      if_true]
    rfl
  rw [nothing, view_iniLoad _ [] _ (if_pos rfl),
    view_iniLoad _ [] _ (if_pos rfl), items] at same
  contradiction

end HenPlugins.Ini.CommentedOut
