import HenPlugins.Ini.WrittenLines
import HenPlugins.Lib.ItemStream

/-!
# Indented files

`ini_load` looks at the trimmed copy of a line to see what it is, but takes the
name of a section from the second byte of the line as it stands.  So blanks in
front of a line change nothing, except in front of a section line: there the
bracket becomes part of the name.
-/

set_option autoImplicit false

namespace HenPlugins.Ini.Indentation

open HenPlugins.Lib.ByteText
open HenPlugins.Lib.SectionedDocument
open HenPlugins.Lib.ItemStream
open HenPlugins.Ini.Text
open HenPlugins.Ini.Store
open HenPlugins.Ini.Load
open HenPlugins.Ini.WrittenLines

def tab : UInt8 := '\t'.toUInt8

/-- A line of a file and what is put in front of it. -/
structure IndentedLine where
  indent : Text
  line : Text
  blank : ∀ byte ∈ indent, byte = space ∨ byte = tab
  single : newline ∉ line
  short : (indent ++ line).length < 1023

/-- Behind the last newline there may be one more line, unless it is empty. -/
structure IndentedFile where
  lines : List IndentedLine
  last : IndentedLine
  noLine : last.line = [] → last.indent = []

def IndentedLine.indented (line : IndentedLine) : Text :=
  line.indent ++ line.line

section File
variable (file : IndentedFile)

def IndentedFile.before : Text :=
  linesText (file.lines.map IndentedLine.line) file.last.line

def IndentedFile.after : Text :=
  linesText (file.lines.map IndentedLine.indented) file.last.indented

/-- The file before and after is loaded as the same store. -/
def IndentedFile.LoadsAlike : Prop :=
  ∀ path, iniLoad (singleFile path file.before) path =
    iniLoad (singleFile path file.after) path

end File

/-! ## Blanks in front of a text -/

section Blank
variable (indent : Text) (blank : ∀ byte ∈ indent, byte = space ∨ byte = tab)
include blank

theorem not_mem_of_blank (byte : UInt8) (other : byte ≠ space ∧ byte ≠ tab) :
    byte ∉ indent := by
  intro member
  exact (blank byte member).elim other.1 other.2

theorem trim_indent (text : Text) :
    trimWhitespace (indent ++ text) = trimWhitespace text := by
  induction indent with
  | nil => rfl
  | cons byte indent ih =>
      have isBlank : isSpace byte = true := by
        rcases blank byte List.mem_cons_self with rfl | rfl <;> rfl
      rw [List.cons_append, trimWhitespace, trim_cons_of_blank _ _ _ isBlank]
      exact ih fun other member => blank other (List.mem_cons_of_mem byte member)

theorem cutLine_indent (text : Text) :
    cutLine (indent ++ text) = indent ++ cutLine text := by
  rw [cutLine, List.takeWhile_append_of_pos]
  · rfl
  · intro byte member
    rcases blank byte member with rfl | rfl <;> rfl

theorem scanQuotes_indent (inQuotes : Bool) (text : Text) :
    scanQuotes inQuotes (indent ++ text) = scanQuotes inQuotes text := by
  induction indent with
  | nil => rfl
  | cons byte indent ih =>
      have later := ih fun other member =>
        blank other (List.mem_cons_of_mem byte member)
      have plain : isQuote byte = false ∧ (byte == backslash) = false := by
        rcases blank byte List.mem_cons_self with rfl | rfl <;> exact ⟨rfl, rfl⟩
      cases rest : indent ++ text with
      | nil =>
          rw [rest] at later
          rw [List.cons_append, rest, ← later]
          simp [scanQuotes, plain]
      | cons next others =>
          rw [rest] at later
          rw [List.cons_append, rest, ← later]
          simp [scanQuotes, plain]

theorem cuts_indent (mark : UInt8) (other : mark ≠ space ∧ mark ≠ tab)
    (text : Text) : Cuts mark (indent ++ text) ↔ Cuts mark text := by
  have absent := not_mem_of_blank indent blank mark other
  rw [Cuts, Cuts, before_append_of_absent mark indent text absent,
    scanQuotes_indent indent blank]
  simp [absent]

theorem after_indent (mark : UInt8) (other : mark ≠ space ∧ mark ≠ tab)
    (text : Text) : after mark (indent ++ text) = after mark text := by
  have absent := not_mem_of_blank indent blank mark other
  rw [after, List.dropWhile_append_of_pos]
  · rfl
  · intro byte member
    simpa using fun same : byte = mark => absent (same ▸ member)

theorem extractInline_indent (text : Text) :
    extractInline (indent ++ text) =
      (indent ++ (extractInline text).1, (extractInline text).2) := by
  have semicolonOther : semicolon ≠ space ∧ semicolon ≠ tab := by decide
  have hashOther : hash ≠ space ∧ hash ≠ tab := by decide
  rw [extractInline_eq, extractInline_eq]
  simp only [cuts_indent indent blank _ semicolonOther,
    cuts_indent indent blank _ hashOther,
    after_indent indent blank _ semicolonOther,
    after_indent indent blank _ hashOther,
    before_append_of_absent _ indent text
      (not_mem_of_blank indent blank _ semicolonOther),
    before_append_of_absent _ indent text
      (not_mem_of_blank indent blank _ hashOther)]
  split
  · rfl
  · split <;> rfl

theorem readKeyLine_indent (text : Text) :
    readKeyLine (indent ++ text) = readKeyLine text := by
  have other : equalsSign ≠ space ∧ equalsSign ≠ tab := by decide
  have absent := not_mem_of_blank indent blank equalsSign other
  rw [readKeyLine, readKeyLine, extractInline_indent indent blank]
  simp only [List.mem_append, absent, false_or,
    before_append_of_absent _ indent _ absent,
    after_indent indent blank _ other, trim_indent indent blank]

theorem readSectionLine_indent (started : indent ≠ []) (text : Text) :
    readSectionLine (indent ++ text) = (readSectionLine text).map fun parts =>
      (trimWhitespace (before closeBracket (extractInline text).1),
        parts.2) := by
  have other : closeBracket ≠ space ∧ closeBracket ≠ tab := by decide
  have absent := not_mem_of_blank indent blank closeBracket other
  rw [readSectionLine, readSectionLine, extractInline_indent indent blank]
  simp only [List.mem_append, absent, false_or,
    before_append_of_absent _ indent _ absent]
  cases indent with
  | nil => exact absurd rfl started
  | cons byte indent =>
      have dropped := trim_indent indent (fun other member =>
        blank other (List.mem_cons_of_mem byte member))
      rw [List.cons_append, List.drop_succ_cons, List.drop_zero, dropped]
      split <;> rfl

end Blank

/-! ## Names of sections -/

/-- The line up to its comment. -/
def uncommented (line : Text) : Text := (extractInline (cutLine line)).1

/-- What stands between the brackets of a section line. -/
def bracketed (line : Text) : Text :=
  (before closeBracket (uncommented line)).drop 1

/-- Where a section line is indented, its name must read the same with the
bracket in front. -/
def IndentedLine.HeaderKept (line : IndentedLine) : Prop :=
  line.indent = [] ∨ line.line.head? ≠ some openBracket ∨
    closeBracket ∉ uncommented line.line ∨
    (trimWhitespace (bracketed line.line)).take 255 =
      (trimWhitespace (openBracket :: bracketed line.line)).take 255

/-- The section name a line gives, if it is a section line. -/
def sectionName (line : Text) : Option Text := (lineItem line).bind headerName

theorem cutLine_head (line : Text) (byte : UInt8)
    (plain : isLineEnd byte = false) :
    (cutLine line).head? = some byte ↔ line.head? = some byte := by
  cases line with
  | nil => rfl
  | cons first line =>
      rw [cutLine, List.takeWhile_cons]
      split
      · rfl
      · rename_i ends
        simp only [List.head?_nil, List.head?_cons, Option.some.injEq,
          reduceCtorEq, false_iff]
        rintro rfl
        simp [plain] at ends

/-- A text that is a section line once trimmed starts with the bracket or with
a blank. -/
theorem blank_of_unopened (byte : UInt8) (text : Text)
    (opened : (trimWhitespace (byte :: text)).head? = some openBracket)
    (other : byte ≠ openBracket) : isSpace byte = true := by
  by_contra solid
  rw [trimWhitespace,
    trim_cons_of_solid _ _ _ (Bool.eq_false_of_not_eq_true solid)] at opened
  exact other (Option.some.inj opened)

section Header
variable (line : IndentedLine)
  (opened : (trimWhitespace (cutLine line.line)).head? = some openBracket)
  (closed : closeBracket ∈ uncommented line.line)

include closed in
theorem uncommented_head :
    (uncommented line.line).head? = (cutLine line.line).head? := by
  obtain ⟨rest, whole⟩ := extractInline_isPrefix (cutLine line.line)
  rw [← whole]
  rw [uncommented] at closed ⊢
  cases text : (extractInline (cutLine line.line)).1 with
  | nil => simp [text] at closed
  | cons first text => rfl

include opened closed in
/-- The bracket of a section line is dropped only where the line begins with
it. -/
theorem headerKept_iff (started : line.indent ≠ []) :
    line.HeaderKept ↔
      (trimWhitespace (bracketed line.line)).take 255 =
        (trimWhitespace
          (before closeBracket (uncommented line.line))).take 255 := by
  have sameHead := uncommented_head line closed
  have lineHead := cutLine_head line.line openBracket rfl
  rw [IndentedLine.HeaderKept, bracketed, ne_eq, ← lineHead, ← sameHead]
  cases text : uncommented line.line with
  | nil => simp [text] at closed
  | cons first rest =>
      rw [text] at closed sameHead
      by_cases bracket : first = openBracket
      · subst bracket
        have split : before closeBracket (openBracket :: rest) =
            openBracket :: before closeBracket rest := rfl
        simp only [List.head?_cons, started, closed, split, not_true,
          false_or, List.drop_succ_cons, List.drop_zero]
      · cases whole : cutLine line.line with
        | nil => simp [whole] at sameHead
        | cons other tail =>
            rw [whole] at sameHead opened
            have same : first = other := Option.some.inj sameHead
            have isBlank := blank_of_unopened other tail opened
              (fun clash => bracket (same.trans clash))
            have notClose : (first != closeBracket) = true := by
              rw [same, bne_iff_ne]
              rintro rfl
              contradiction
            have split : before closeBracket (first :: rest) =
                first :: before closeBracket rest := by
              rw [before, List.takeWhile_cons, if_pos notClose]
              rfl
            have dropped : trimWhitespace (first :: before closeBracket rest) =
                trimWhitespace (before closeBracket rest) :=
              trim_cons_of_blank _ _ _ (same ▸ isBlank)
            simp [bracket, split, dropped]

end Header

theorem cutLine_indented (line : IndentedLine) :
    cutLine line.indented = line.indent ++ cutLine line.line :=
  cutLine_indent line.indent line.blank line.line

theorem readSectionLine_of_closed (line : Text)
    (closed : closeBracket ∈ uncommented line) :
    readSectionLine (cutLine line) =
      some (trimWhitespace (bracketed line),
        (extractInline (cutLine line)).2.getD []) := by
  rw [readSectionLine]
  exact if_pos closed

theorem readSectionLine_of_open (line : Text)
    (unclosed : closeBracket ∉ uncommented line) :
    readSectionLine (cutLine line) = none := by
  rw [readSectionLine]
  exact if_neg unclosed

theorem loadSection_congr (ini : INIFile) (left right comment : Text)
    (same : left.take 255 = right.take 255) :
    loadSection ini left comment = loadSection ini right comment := by
  have fields : sectionField left = sectionField right := by
    rw [sectionField, sectionField, CField.copy, CField.copy, CField.mk.injEq]
    exact same
  rw [loadSection, loadSection, newSection, newSection, fields]

/-- A line that keeps its header is loaded as if it were not indented. -/
theorem loadLine_indented (ini : INIFile) (line : IndentedLine)
    (kept : line.HeaderKept) :
    loadLine ini (cutLine line.indented) =
      loadLine ini (cutLine line.line) := by
  by_cases started : line.indent = []
  · rw [IndentedLine.indented, started, List.nil_append]
  · have trimmed := trim_indent line.indent line.blank (cutLine line.line)
    have asKey := readKeyLine_indent line.indent line.blank (cutLine line.line)
    have asSection :=
      readSectionLine_indent line.indent line.blank started (cutLine line.line)
    rw [cutLine_indented, loadLine, loadLine, trimmed, asKey, asSection]
    cases shape : trimWhitespace (cutLine line.line) with
    | nil => rfl
    | cons first rest =>
        simp only
        split
        · rfl
        · split
          · rename_i bracket
            by_cases closed : closeBracket ∈ uncommented line.line
            · have opened : (trimWhitespace (cutLine line.line)).head? =
                  some openBracket := by
                simpa [shape] using bracket
              have same := (headerKept_iff line opened closed started).mp kept
              rw [readSectionLine_of_closed line.line closed]
              exact (loadSection_congr ini _ _ _ same).symm
            · rw [readSectionLine_of_open line.line closed]
              rfl
          · rfl

/-! ## What equal stores say of the lines -/

theorem sectionName_of_unopened (line : Text)
    (unopened : (trimWhitespace line).head? ≠ some openBracket) :
    sectionName line = none := by
  rw [sectionName, lineItem]
  cases shape : trimWhitespace line with
  | nil => rfl
  | cons first rest =>
      have other : (first == openBracket) = false := by
        simpa [shape] using unopened
      simp only [other, Bool.false_eq_true, if_false]
      split
      · rfl
      · cases readKeyLine line <;> rfl

theorem sectionName_of_opened (line : Text)
    (opened : (trimWhitespace line).head? = some openBracket) :
    sectionName line = (readSectionLine line).map fun parts =>
      parts.1.take 255 := by
  rw [sectionName, lineItem]
  cases shape : trimWhitespace line with
  | nil => simp [shape] at opened
  | cons first rest =>
      rw [shape] at opened
      obtain rfl := Option.some.inj opened
      cases readSectionLine line <;> rfl

section Names
variable (line : IndentedLine)

theorem trim_indented :
    trimWhitespace (cutLine line.indented) =
      trimWhitespace (cutLine line.line) := by
  rw [cutLine_indented, trim_indent line.indent line.blank]

theorem sectionName_isSome :
    (sectionName (cutLine line.indented)).isSome =
      (sectionName (cutLine line.line)).isSome := by
  by_cases started : line.indent = []
  · rw [IndentedLine.indented, started, List.nil_append]
  · by_cases opened : (trimWhitespace (cutLine line.line)).head? =
        some openBracket
    · rw [sectionName_of_opened _ opened, sectionName_of_opened _
        ((trim_indented line).symm ▸ opened), cutLine_indented,
        readSectionLine_indent _ line.blank started]
      simp
    · rw [sectionName_of_unopened _ opened, sectionName_of_unopened _
        ((trim_indented line).symm ▸ opened)]

theorem headerKept_of_sectionName
    (same : sectionName (cutLine line.indented) =
      sectionName (cutLine line.line)) : line.HeaderKept := by
  by_cases started : line.indent = []
  · exact Or.inl started
  · by_cases bracket : line.line.head? = some openBracket
    · by_cases closed : closeBracket ∈ uncommented line.line
      · have opened : (trimWhitespace (cutLine line.line)).head? =
            some openBracket := by
          rw [← cutLine_head line.line openBracket rfl] at bracket
          cases whole : cutLine line.line with
          | nil => simp [whole] at bracket
          | cons first rest =>
              obtain rfl := Option.some.inj ((whole ▸ bracket : _))
              rw [trimWhitespace, trim_cons_of_solid _ _ _ rfl]
              rfl
        rw [sectionName_of_opened _ opened, sectionName_of_opened _
          ((trim_indented line).symm ▸ opened), cutLine_indented,
          readSectionLine_indent _ line.blank started,
          readSectionLine_of_closed line.line closed] at same
        exact (headerKept_iff line opened closed started).mpr
          (Option.some.inj same).symm
      · exact Or.inr (Or.inr (Or.inl closed))
    · exact Or.inr (Or.inl bracket)

end Names

/-! ## Whole files -/

section Whole
variable (file : IndentedFile)

/-- The lines of the file. -/
def IndentedFile.allLines : List IndentedLine :=
  file.lines ++ if file.last.line = [] then [] else [file.last]

theorem indented_single (line : IndentedLine) : newline ∉ line.indented := by
  rw [IndentedLine.indented, List.mem_append, not_or]
  exact ⟨not_mem_of_blank line.indent line.blank newline (by decide),
    line.single⟩

theorem line_short (line : IndentedLine) :
    line.line.length < maxLineLength - 1 := by
  have short := line.short
  rw [List.length_append] at short
  rw [maxLineLength]
  omega

theorem readLines_before :
    readLines file.before =
      file.allLines.map fun line => cutLine line.line := by
  rw [IndentedFile.before, readLines_shortLines]
  · rw [IndentedFile.allLines]
    split <;> simp
  · simpa using ⟨file.last.single, fun line _ => line.single⟩
  · simpa using ⟨line_short file.last, fun line _ => line_short line⟩

theorem readLines_after :
    readLines file.after =
      file.allLines.map fun line => cutLine line.indented := by
  have absent : file.last.indented = [] ↔ file.last.line = [] := by
    rw [IndentedLine.indented, List.append_eq_nil_iff]
    exact ⟨And.right, fun empty => ⟨file.noLine empty, empty⟩⟩
  rw [IndentedFile.after, readLines_shortLines]
  · rw [IndentedFile.allLines]
    simp only [absent]
    split <;> simp
  · simpa using ⟨indented_single file.last, fun line _ => indented_single line⟩
  · simpa using ⟨file.last.short, fun line _ => line.short⟩

theorem foldl_indented (lines : List IndentedLine) (ini : INIFile)
    (kept : ∀ line ∈ lines, line.HeaderKept) :
    (lines.map fun line => cutLine line.indented).foldl loadLine ini =
      (lines.map fun line => cutLine line.line).foldl loadLine ini := by
  induction lines generalizing ini with
  | nil => rfl
  | cons line lines ih =>
      simp only [List.map_cons, List.foldl_cons]
      rw [loadLine_indented ini line (kept line List.mem_cons_self)]
      exact ih _ fun other member =>
        kept other (List.mem_cons_of_mem line member)

/-- Two readings that agree on which members they drop agree on each member
where they agree on the list. -/
theorem eq_of_filterMap_eq {α β : Type} (left right : α → Option β)
    (members : List α)
    (sameKind : ∀ member, (left member).isSome = (right member).isSome)
    (same : members.filterMap left = members.filterMap right) :
    ∀ member ∈ members, left member = right member := by
  induction members with
  | nil => simp
  | cons first members ih =>
      have kind := sameKind first
      rw [List.filterMap_cons, List.filterMap_cons] at same
      rw [List.forall_mem_cons]
      cases here : left first with
      | none =>
          cases there : right first with
          | none =>
              rw [here, there] at same
              exact ⟨rfl, ih same⟩
          | some value => simp [here, there] at kind
      | some value =>
          cases there : right first with
          | none => simp [here, there] at kind
          | some other =>
              rw [here, there] at same
              obtain ⟨rfl, later⟩ := List.cons.inj same
              exact ⟨rfl, ih later⟩

theorem sectionNames_iniLoad (path content : Text) :
    ((view (iniLoad (singleFile path content) path)).map Prod.fst).reverse =
      (readLines content).filterMap sectionName := by
  rw [view_iniLoad _ path content (by simp [singleFile]), map_fst_build,
    List.reverse_reverse, contentItems, List.filterMap_filterMap]
  rfl

/-- An indented file is loaded as the same store if and only if each section
line keeps its header. -/
theorem loadsAlike_iff :
    file.LoadsAlike ↔ ∀ line ∈ file.allLines, line.HeaderKept := by
  constructor
  · intro alike
    have names := congrArg (fun ini => ((view ini).map Prod.fst).reverse)
      (alike [])
    simp only [sectionNames_iniLoad, readLines_before, readLines_after,
      List.filterMap_map] at names
    intro line member
    apply headerKept_of_sectionName line
    exact (eq_of_filterMap_eq _ _ file.allLines
      (fun other => (sectionName_isSome other).symm) names line member).symm
  · intro kept path
    simp only [iniLoad, singleFile, if_pos, readLines_before, readLines_after]
    exact (foldl_indented file.allLines (emptyIni path) kept).symm

end Whole

/-- `[s]` indented by one space is the section `[s`. -/
def headerFile : IndentedFile where
  lines :=
    [{ indent := [space]
       line := ascii "[s]"
       blank := by simp
       single := by decide
       short := by decide }]
  last :=
    { indent := []
      line := []
      blank := by simp
      single := by simp
      short := by decide }
  noLine := fun _ => rfl

theorem indentedHeader_not_alike :
    ¬ ∀ file : IndentedFile, file.LoadsAlike := by
  intro alike
  have names := congrArg (fun ini => ini.sections.map fun current =>
    current.name.text) (alike headerFile [])
  have before : (iniLoad (singleFile [] headerFile.before) []).sections.map
      (fun current => current.name.text) = [ascii "s"] := by decide
  have after : (iniLoad (singleFile [] headerFile.after) []).sections.map
      (fun current => current.name.text) = [ascii "[s"] := by decide
  simp only [before, after] at names
  contradiction

end HenPlugins.Ini.Indentation
