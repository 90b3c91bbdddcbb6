import HenPlugins.Ini.Rewrite

/-!
# Lines that read back whole

A section or key whose texts are trimmed and hold no quote, backslash or mark
of their line is parsed from its written line as exactly the name, or the key
and value, and the inline comment it was written for.  Marks inside the
comment do no harm: the separator in front of it is the first `;`.
-/

set_option autoImplicit false

namespace HenPlugins.Ini.CleanLines

open HenPlugins.Lib.ByteText
open HenPlugins.Lib.SectionedDocument
open HenPlugins.Ini.Text
open HenPlugins.Ini.Store
open HenPlugins.Ini.Load
open HenPlugins.Ini.Save
open HenPlugins.Ini.Loaded
open HenPlugins.Ini.WrittenLines
open HenPlugins.Ini.Rewrite

/-- No white space at the ends, no line end, no quote and no backslash. -/
structure CleanText (text : Text) : Prop where
  trimmed : trimWhitespace text = text
  lineSafe : LineSafe text
  noQuote : ∀ byte ∈ text, isQuote byte = false
  noBackslash : backslash ∉ text

/-- A text that no comment mark cuts. -/
structure MarkFree (text : Text) : Prop where
  noSemicolon : semicolon ∉ text
  noHash : hash ∉ text

structure CleanKey (key : KeyValue) : Prop where
  name : CleanText key.key.text
  value : CleanText key.value.text
  comment : CleanText key.comment.text
  nameMarks : MarkFree key.key.text
  valueMarks : MarkFree key.value.text
  noEquals : equalsSign ∉ key.key.text
  noOpening : key.key.text.head? ≠ some openBracket

structure CleanHeader (current : Section) : Prop where
  name : CleanText current.name.text
  comment : CleanText current.comment.text
  nameMarks : MarkFree current.name.text
  noBracket : closeBracket ∉ current.name.text

instance (text : Text) : Decidable (CleanText text) :=
  have _ : Decidable (∀ byte ∈ text, isQuote byte = false) :=
    List.decidableBAll _ text
  decidable_of_iff (trimWhitespace text = text ∧ LineSafe text ∧
      (∀ byte ∈ text, isQuote byte = false) ∧ backslash ∉ text)
    ⟨fun facts => ⟨facts.1, facts.2.1, facts.2.2.1, facts.2.2.2⟩,
      fun clean => ⟨clean.trimmed, clean.lineSafe, clean.noQuote,
        clean.noBackslash⟩⟩

instance (text : Text) : Decidable (MarkFree text) :=
  decidable_of_iff (semicolon ∉ text ∧ hash ∉ text)
    ⟨fun facts => ⟨facts.1, facts.2⟩,
      fun marks => ⟨marks.noSemicolon, marks.noHash⟩⟩

instance (key : KeyValue) : Decidable (CleanKey key) :=
  decidable_of_iff (CleanText key.key.text ∧ CleanText key.value.text ∧
      CleanText key.comment.text ∧ MarkFree key.key.text ∧
      MarkFree key.value.text ∧ equalsSign ∉ key.key.text ∧
      key.key.text.head? ≠ some openBracket)
    ⟨fun facts => ⟨facts.1, facts.2.1, facts.2.2.1, facts.2.2.2.1,
        facts.2.2.2.2.1, facts.2.2.2.2.2.1, facts.2.2.2.2.2.2⟩,
      fun clean => ⟨clean.name, clean.value, clean.comment, clean.nameMarks,
        clean.valueMarks, clean.noEquals, clean.noOpening⟩⟩

instance (current : Section) : Decidable (CleanHeader current) :=
  decidable_of_iff (CleanText current.name.text ∧
      CleanText current.comment.text ∧ MarkFree current.name.text ∧
      closeBracket ∉ current.name.text)
    ⟨fun facts => ⟨facts.1, facts.2.1, facts.2.2.1, facts.2.2.2⟩,
      fun clean => ⟨clean.name, clean.comment, clean.nameMarks,
        clean.noBracket⟩⟩

theorem head_of_trimmed (text : Text)
    (trimmed : trimWhitespace text = text) :
    ∀ first ∈ text.head?, isSpace first = false := by
  intro first member
  rw [← trimmed] at member
  exact head_trim isSpace text first member

/-- Blanks on both sides of a trimmed text are all that is trimmed. -/
theorem trimWhitespace_padded (text : Text)
    (trimmed : trimWhitespace text = text) :
    trimWhitespace (space :: text) = text ∧
      trimWhitespace (space :: (text ++ [space])) = text ∧
      trimWhitespace (text ++ [space]) = text := by
  have blank : ∀ byte ∈ [space], isSpace byte = true :=
    List.forall_mem_singleton.mpr rfl
  have backPadded : trimWhitespace (text ++ [space]) = text := by
    cases text with
    | nil => rfl
    | cons first rest =>
        have solid := head_of_trimmed _ trimmed first (by simp)
        have whole : (first :: rest).rdropWhile isSpace = first :: rest := by
          rw [← trim_of_head isSpace (first :: rest) (by simpa using solid)]
          exact trimmed
        rw [trimWhitespace, trim_of_head isSpace _ (by simpa using solid),
          rdropWhile_append_of_all isSpace _ _ blank, whole]
  refine ⟨?_, ?_, backPadded⟩
  · rw [trimWhitespace, trim_cons_of_blank isSpace _ _ rfl]
    exact trimmed
  · rw [trimWhitespace, trim_cons_of_blank isSpace _ _ rfl]
    exact backPadded

theorem extractInline_markFree (line : Text) (marks : MarkFree line) :
    extractInline line = (line, none) := by
  rw [extractInline_eq, if_neg fun cut => marks.noSemicolon cut.1,
    if_neg fun cut => marks.noHash cut.1]

/-- The `;` in front of the comment is the first one and stands outside
quotes. -/
theorem extractInline_commented (front comment : Text)
    (marks : MarkFree front)
    (noQuote : ∀ byte ∈ front, isQuote byte = false)
    (trimmed : trimWhitespace comment = comment) :
    extractInline (front ++ semicolon :: space :: comment) =
      (front, some comment) := by
  have cut : Cuts semicolon (front ++ semicolon :: space :: comment) := by
    refine ⟨by simp, ?_⟩
    rw [before_append_of_not_mem _ _ _ marks.noSemicolon]
    exact scanQuotes_plain false front noQuote
  rw [extractInline_eq, if_pos cut,
    before_append_of_not_mem _ _ _ marks.noSemicolon,
    after_append_of_not_mem _ _ _ marks.noSemicolon,
    (trimWhitespace_padded comment trimmed).1]

theorem MarkFree.append {left right : Text} (first : MarkFree left)
    (second : MarkFree right) : MarkFree (left ++ right) := by
  refine ⟨?_, ?_⟩
  · intro member
    exact (List.mem_append.mp member).elim first.noSemicolon
      second.noSemicolon
  · intro member
    exact (List.mem_append.mp member).elim first.noHash second.noHash

/-- A written line is a front without marks, and the comment behind a
separator if there is one. -/
def commented (front comment : Text) : Text :=
  if comment.length > 0 then front ++ ascii " ; " ++ comment else front

theorem extractInline_written (front comment : Text)
    (marks : MarkFree front)
    (noQuote : ∀ byte ∈ front, isQuote byte = false)
    (trimmed : trimWhitespace comment = comment) :
    (extractInline (commented front comment)).2.getD [] = comment ∧
      ((extractInline (commented front comment)).1 = front ∨
        (extractInline (commented front comment)).1 = front ++ [space]) := by
  rw [commented]
  split
  · have shape : front ++ ascii " ; " ++ comment =
        (front ++ [space]) ++ semicolon :: space :: comment := by
      simp only [List.append_assoc]
      rfl
    have spaceMarks : MarkFree [space] := by
      constructor <;> decide
    rw [shape, extractInline_commented _ comment (marks.append spaceMarks) ?_
      trimmed]
    · exact ⟨rfl, Or.inr rfl⟩
    · intro byte member
      rcases List.mem_append.mp member with inside | last
      · exact noQuote byte inside
      · rw [List.mem_singleton.mp last]
        rfl
  · rename_i none
    rw [extractInline_markFree front marks]
    have empty : comment = [] := by
      simpa using none
    exact ⟨empty.symm, Or.inl rfl⟩

theorem sectionLine_eq (current : Section) :
    sectionLine current =
      commented (openBracket :: current.name.text ++ [closeBracket])
        current.comment.text := by
  rw [sectionLine, commented]
  split
  · simp only [List.append_assoc]
    rfl
  · rfl

theorem keyLine_eq (key : KeyValue) :
    keyLine key =
      commented (key.key.text ++ space :: equalsSign :: space ::
        key.value.text) key.comment.text := by
  rw [keyLine, commented]
  split
  · simp only [List.append_assoc]
    rfl
  · simp only [List.append_assoc]
    rfl

theorem readSectionLine_written (current : Section)
    (clean : CleanHeader current) :
    readSectionLine (sectionLine current) =
      some (current.name.text, current.comment.text) := by
  have absent : closeBracket ∉ openBracket :: current.name.text := by
    intro member
    rcases List.mem_cons.mp member with clash | inside
    · exact absurd clash (by decide)
    · exact clean.noBracket inside
  have marks : MarkFree
      (openBracket :: current.name.text ++ [closeBracket]) := by
    have opening : MarkFree [openBracket] := by constructor <;> decide
    have closing : MarkFree [closeBracket] := by constructor <;> decide
    exact (opening.append clean.nameMarks).append closing
  have noQuote : ∀ byte ∈ openBracket :: current.name.text ++ [closeBracket],
      isQuote byte = false := by
    intro byte member
    rcases List.mem_append.mp member with front | last
    · rcases List.mem_cons.mp front with rfl | inside
      · rfl
      · exact clean.name.noQuote byte inside
    · rw [List.mem_singleton.mp last]
      rfl
  obtain ⟨comment, copy⟩ := extractInline_written _ current.comment.text
    marks noQuote clean.comment.trimmed
  have shape : ∃ rest, (extractInline (sectionLine current)).1 =
      openBracket :: current.name.text ++ closeBracket :: rest := by
    rw [sectionLine_eq]
    rcases copy with same | padded
    · exact ⟨[], same⟩
    · exact ⟨[space], by rw [padded, List.append_assoc]; rfl⟩
  obtain ⟨rest, shape⟩ := shape
  rw [← sectionLine_eq] at comment
  simp only [readSectionLine]
  rw [if_pos (by rw [shape]; simp), comment, shape,
    before_append_of_not_mem _ _ _ absent]
  simp only [List.drop_succ_cons, List.drop_zero]
  rw [clean.name.trimmed]

theorem readKeyLine_written (key : KeyValue) (clean : CleanKey key) :
    readKeyLine (keyLine key) =
      some (key.key.text, key.value.text, key.comment.text) := by
  have absent : equalsSign ∉ key.key.text ++ [space] := by
    intro member
    rcases List.mem_append.mp member with inside | last
    · exact clean.noEquals inside
    · exact absurd (List.mem_singleton.mp last) (by decide)
  have separator : MarkFree [space, equalsSign, space] := by
    constructor <;> decide
  have marks : MarkFree (key.key.text ++
      ([space, equalsSign, space] ++ key.value.text)) :=
    clean.nameMarks.append (separator.append clean.valueMarks)
  have plain : ∀ byte ∈ [space, equalsSign, space], isQuote byte = false :=
    List.forall_mem_cons.mpr ⟨rfl,
      List.forall_mem_cons.mpr ⟨rfl, List.forall_mem_singleton.mpr rfl⟩⟩
  have noQuote : ∀ byte ∈ key.key.text ++
      ([space, equalsSign, space] ++ key.value.text),
      isQuote byte = false :=
    List.forall_mem_append.mpr ⟨clean.name.noQuote,
      List.forall_mem_append.mpr ⟨plain, clean.value.noQuote⟩⟩
  obtain ⟨comment, copy⟩ := extractInline_written _ key.comment.text
    marks noQuote clean.comment.trimmed
  have shape : ∃ rest, (extractInline (keyLine key)).1 =
        (key.key.text ++ [space]) ++ equalsSign :: rest ∧
      trimWhitespace rest = key.value.text := by
    rw [keyLine_eq]
    obtain ⟨front, both, -⟩ :=
      trimWhitespace_padded key.value.text clean.value.trimmed
    rcases copy with same | padded
    · exact ⟨space :: key.value.text, by
        rw [List.append_assoc]
        exact same, front⟩
    · refine ⟨space :: (key.value.text ++ [space]), ?_, both⟩
      rw [List.append_assoc]
      exact padded.trans (by simp)
  obtain ⟨rest, shape, value⟩ := shape
  have inLine : equalsSign ∈ keyLine key := by
    rw [keyLine_shape]
    simp
  have inCopy : equalsSign ∈ (extractInline (keyLine key)).1 := by
    rw [shape]
    simp
  have commentSame : (extractInline (keyLine key)).2.getD [] =
      key.comment.text := by
    rw [keyLine_eq]
    exact comment
  rw [readKeyLine, if_pos inLine]
  simp only [if_pos inCopy, commentSame]
  rw [shape, before_append_of_not_mem _ _ _ absent,
    after_append_of_not_mem _ _ _ absent, value,
    (trimWhitespace_padded key.key.text clean.name.trimmed).2.2]

theorem CleanKey.keyStart {key : KeyValue} (clean : CleanKey key) :
    ∀ first ∈ key.key.text.head?, KeyStart first := by
  intro first member
  have inside : first ∈ key.key.text := List.mem_of_mem_head? member
  refine ⟨head_of_trimmed _ clean.name.trimmed first member, ?_, ?_, ?_⟩
  · intro same
    exact clean.nameMarks.noSemicolon (same ▸ inside)
  · intro same
    exact clean.nameMarks.noHash (same ▸ inside)
  · intro same
    rw [same] at member
    exact clean.noOpening member

theorem sectionLine_classified (current : Section) :
    ∃ rest, trimWhitespace (sectionLine current) = openBracket :: rest := by
  obtain ⟨rest, shape⟩ := sectionLine_shape current
  rw [shape, List.cons_append]
  exact ⟨_, trim_cons_of_solid isSpace openBracket _ rfl⟩

theorem keyLine_classified (key : KeyValue) (clean : CleanKey key) :
    ∃ first rest, trimWhitespace (keyLine key) = first :: rest ∧
      first ≠ semicolon ∧ first ≠ hash ∧ first ≠ openBracket := by
  rw [keyLine_shape]
  have start := clean.keyStart
  cases named : key.key.text with
  | nil =>
      refine ⟨equalsSign, (keyTail key).rdropWhile isSpace, ?_, by decide,
        by decide, by decide⟩
      rw [List.nil_append, trimWhitespace, trim_cons_of_blank isSpace _ _ rfl]
      exact trim_cons_of_solid isSpace _ _ rfl
  | cons first name =>
      obtain ⟨solid, notSemicolon, notHash, notBracket⟩ :=
        start first (by simp [named])
      exact ⟨first, _, trim_cons_of_solid isSpace first _ solid,
        notSemicolon, notHash, notBracket⟩

theorem loadLine_sectionLine (ini : INIFile) (current : Section)
    (clean : CleanHeader current) :
    loadLine ini (sectionLine current) =
      loadSection ini current.name.text current.comment.text := by
  obtain ⟨rest, classified⟩ := sectionLine_classified current
  rw [loadLine, classified]
  simp only [readSectionLine_written current clean]
  rfl

theorem loadLine_keyLine (ini : INIFile) (key : KeyValue)
    (clean : CleanKey key) :
    loadLine ini (keyLine key) =
      loadKey ini key.key.text key.value.text key.comment.text := by
  obtain ⟨first, rest, classified, notSemicolon, notHash, notBracket⟩ :=
    keyLine_classified key clean
  rw [loadLine, classified]
  simp [readKeyLine_written key clean, notSemicolon, notHash, notBracket]

theorem headerReadsBack_of_clean (current : Section)
    (clean : CleanHeader current) : HeaderReadsBack current := by
  obtain ⟨rest, classified⟩ := sectionLine_classified current
  have fits := current.name.fits
  simp only [maxSectionLength] at fits
  rw [HeaderReadsBack, lineItem, classified]
  simp only [readSectionLine_written current clean, Option.map_some,
    sectionField_text]
  rw [List.take_of_length_le (by omega)]
  rfl

theorem keyReadsBack_of_clean (key : KeyValue) (clean : CleanKey key)
    (safe : SafeKey key) (fits : (keyLine key).length < maxLineLength) :
    KeyReadsBack key := by
  obtain ⟨first, rest, classified, notSemicolon, notHash, notBracket⟩ :=
    keyLine_classified key clean
  have nameFits := key.key.fits
  have valueFits := key.value.fits
  simp only [maxKeyLength] at nameFits
  simp only [maxValueLength] at valueFits
  rw [KeyReadsBack, keyItems_of_fits key safe fits, lineItem, classified]
  simp only [readKeyLine_written key clean, Option.map_some, keyField_text,
    valueField_text]
  rw [List.take_of_length_le (by omega), List.take_of_length_le (by omega)]
  simp [notSemicolon, notHash, notBracket]

end HenPlugins.Ini.CleanLines
