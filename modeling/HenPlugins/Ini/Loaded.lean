import HenPlugins.Ini.Save

/-!
# What every loaded store satisfies

No text of a loaded store contains a line end, and a loaded key is what stood
before an `=` on a line that is neither blank, a comment nor a section line.
Both facts are invariants of the line loop, and `ini_set` keeps them for
arguments of the same kind.
-/

set_option autoImplicit false

namespace HenPlugins.Ini.Loaded

open HenPlugins.Lib.ByteText
open HenPlugins.Lib.FirstMatch
open HenPlugins.Ini.Text
open HenPlugins.Ini.Store
open HenPlugins.Ini.Load
open HenPlugins.Ini.Save

/-- The first byte of a key name, which decides how its line is classified. -/
def KeyStart (first : UInt8) : Prop :=
  isSpace first = false ∧ first ≠ semicolon ∧ first ≠ hash ∧
    first ≠ openBracket

structure ShapedKey (key : KeyValue) : Prop where
  noEquals : equalsSign ∉ key.key.text
  keyStart : ∀ first ∈ key.key.text.head?, KeyStart first
  valueStart : ∀ first ∈ key.value.text.head?, isSpace first = false

structure ShapedName (name : Text) : Prop where
  noBracket : closeBracket ∉ name
  nameStart : ∀ first ∈ name.head?, isSpace first = false

structure LoadedStore (ini : INIFile) : Prop extends SafeStore ini where
  names : ∀ current ∈ ini.sections, ShapedName current.name.text
  shaped : ∀ current ∈ ini.sections, ∀ key ∈ current.keys, ShapedKey key

theorem cutLine_safe (line : Text) : LineSafe (cutLine line) := by
  intro byte member
  simpa using List.mem_takeWhile_imp member

theorem head_take {Byte : Type} (text : List Byte) (count : Nat) :
    ∀ first ∈ (text.take count).head?, first ∈ text.head? := by
  intro first member
  cases text with
  | nil => simp at member
  | cons byte rest =>
      cases count with
      | zero => simp at member
      | succ count => simpa using member

theorem ShapedName.take {name : Text} (shaped : ShapedName name)
    (count : Nat) : ShapedName (name.take count) :=
  ⟨fun member => shaped.noBracket (List.mem_of_mem_take member),
    fun first start => shaped.nameStart first (head_take _ _ first start)⟩

theorem readSectionLine_safe (line name comment : Text)
    (safe : LineSafe line)
    (found : readSectionLine line = some (name, comment)) :
    LineSafe name ∧ LineSafe comment := by
  rw [readSectionLine] at found
  simp only at found
  split at found
  · cases Option.some.inj found
    refine ⟨?_, safe.of_subset (extractInline_comment_subset line)⟩
    have inside : trimWhitespace
        ((before closeBracket (extractInline line).1).drop 1) ⊆ line :=
      List.Subset.trans (trim_subset isSpace _)
        (List.Subset.trans (List.drop_subset 1 _)
          ((before_isPrefix _ _).trans (extractInline_isPrefix line)).subset)
    exact safe.of_subset inside
  · contradiction

theorem readSectionLine_shaped (line name comment : Text)
    (found : readSectionLine line = some (name, comment)) :
    ShapedName name := by
  rw [readSectionLine] at found
  simp only at found
  split at found
  · cases Option.some.inj found
    refine ⟨?_, head_trim isSpace _⟩
    intro member
    exact not_mem_before closeBracket (extractInline line).1
      (List.mem_of_mem_drop (trim_subset isSpace _ member))
  · contradiction

/-- The parts of a key line come from a prefix of the line that keeps its
first `=`. -/
theorem readKeyLine_parts (line name value comment : Text)
    (found : readKeyLine line = some (name, value, comment)) :
    ∃ lineCopy, lineCopy <+: line ∧ equalsSign ∈ lineCopy ∧
      name = trimWhitespace (before equalsSign lineCopy) ∧
      value = trimWhitespace (after equalsSign lineCopy) ∧
      comment ⊆ line := by
  rw [readKeyLine] at found
  split at found
  · simp only at found
    split at found
    · rename_i present
      cases Option.some.inj found
      exact ⟨(extractInline line).1, extractInline_isPrefix line, present, rfl,
        rfl, extractInline_comment_subset line⟩
    · contradiction
  · contradiction

theorem readKeyLine_safe (line name value comment : Text)
    (safe : LineSafe line)
    (found : readKeyLine line = some (name, value, comment)) :
    LineSafe name ∧ LineSafe value ∧ LineSafe comment := by
  obtain ⟨lineCopy, isPrefix, -, rfl, rfl, inside⟩ :=
    readKeyLine_parts line name value comment found
  refine ⟨safe.of_subset ?_, safe.of_subset ?_, safe.of_subset inside⟩
  · exact List.Subset.trans (trim_subset isSpace _)
      ((before_isPrefix _ _).trans isPrefix).subset
  · exact List.Subset.trans (trim_subset isSpace _)
      (List.Subset.trans (after_suffix _ _).subset isPrefix.subset)

theorem readKeyLine_shaped (line name value comment : Text)
    (found : readKeyLine line = some (name, value, comment))
    (lineStart : ∀ first ∈ (trimWhitespace line).head?, KeyStart first) :
    equalsSign ∉ name ∧ (∀ first ∈ name.head?, KeyStart first) ∧
      ∀ first ∈ value.head?, isSpace first = false := by
  obtain ⟨lineCopy, isPrefix, -, rfl, rfl, -⟩ :=
    readKeyLine_parts line name value comment found
  refine ⟨?_, ?_, head_trim isSpace _⟩
  · intro member
    exact not_mem_before equalsSign lineCopy (trim_subset isSpace _ member)
  · intro first member
    exact lineStart first (head_trim_of_isPrefix isSpace
      ((before_isPrefix _ _).trans isPrefix) first member)

theorem pendingComments_safe (ini : INIFile) (loaded : LoadedStore ini) :
    ∀ comment ∈ pendingComments ini, LineSafe comment.text := by
  rw [pendingComments]
  cases chain : ini.sections with
  | nil => exact loaded.headerTexts
  | cons current rest =>
      exact (loaded.sections current (by simp [chain])).beforeTexts

theorem setPendingComments_loaded (ini : INIFile) (comments : List Comment)
    (loaded : LoadedStore ini)
    (safe : ∀ comment ∈ comments, LineSafe comment.text) :
    LoadedStore (setPendingComments ini comments) := by
  rw [setPendingComments]
  cases chain : ini.sections with
  | nil =>
      exact ⟨⟨safe, by simp⟩, by simp, by simp⟩
  | cons current rest =>
      have head := loaded.sections current (by simp [chain])
      refine ⟨⟨loaded.headerTexts, ?_⟩, ?_, ?_⟩
      · intro other member
        rcases List.mem_cons.mp member with rfl | later
        · exact ⟨head.nameText, head.commentText, safe, head.keys⟩
        · exact loaded.sections other (by simp [chain, later])
      · intro other member
        rcases List.mem_cons.mp member with rfl | later
        · exact loaded.names current (by simp [chain])
        · exact loaded.names other (by simp [chain, later])
      · intro other member
        rcases List.mem_cons.mp member with rfl | later
        · exact loaded.shaped current (by simp [chain])
        · exact loaded.shaped other (by simp [chain, later])

theorem addPendingComment_loaded (ini : INIFile) (commentText : Text)
    (loaded : LoadedStore ini) (safe : LineSafe commentText) :
    LoadedStore (addPendingComment ini commentText) := by
  apply setPendingComments_loaded ini _ loaded
  intro comment member
  rcases List.mem_append.mp member with old | new
  · exact pendingComments_safe ini loaded comment old
  · rw [List.mem_singleton.mp new]
    exact safe.take 511

theorem loadSection_loaded (ini : INIFile) (sectionName comment : Text)
    (loaded : LoadedStore ini) (nameSafe : LineSafe sectionName)
    (commentSafe : LineSafe comment) (shaped : ShapedName sectionName) :
    LoadedStore (loadSection ini sectionName comment) := by
  have emptied := setPendingComments_loaded ini [] loaded (by simp)
  refine ⟨⟨emptied.headerTexts, ?_⟩, ?_, ?_⟩
  · intro other member
    rcases List.mem_cons.mp member with rfl | later
    · exact ⟨nameSafe.take 255, commentSafe.take 511, by simp,
        by simp [newSection]⟩
    · exact emptied.sections other later
  · intro other member
    rcases List.mem_cons.mp member with rfl | later
    · exact shaped.take 255
    · exact emptied.names other later
  · intro other member
    rcases List.mem_cons.mp member with rfl | later
    · simp [newSection]
    · exact emptied.shaped other later

theorem loadKey_loaded (ini : INIFile) (keyName value comment : Text)
    (loaded : LoadedStore ini) (keySafe : LineSafe keyName)
    (valueSafe : LineSafe value) (commentSafe : LineSafe comment)
    (noEquals : equalsSign ∉ keyName)
    (keyStart : ∀ first ∈ keyName.head?, KeyStart first)
    (valueStart : ∀ first ∈ value.head?, isSpace first = false) :
    LoadedStore (loadKey ini keyName value comment) := by
  rw [loadKey]
  cases chain : ini.sections with
  | nil => exact loaded
  | cons current rest =>
      have head := loaded.sections current (by simp [chain])
      refine ⟨⟨loaded.headerTexts, ?_⟩, ?_, ?_⟩
      · intro other member
        rcases List.mem_cons.mp member with rfl | later
        · refine ⟨head.nameText, head.commentText, by simp, ?_⟩
          intro key keyMember
          rcases List.mem_cons.mp keyMember with rfl | old
          · exact ⟨keySafe.take 255, valueSafe.take 511, commentSafe.take 511,
              head.beforeTexts⟩
          · exact head.keys key old
        · exact loaded.sections other (by simp [chain, later])
      · intro other member
        rcases List.mem_cons.mp member with rfl | later
        · exact loaded.names current (by simp [chain])
        · exact loaded.names other (by simp [chain, later])
      · intro other member key keyMember
        rcases List.mem_cons.mp member with rfl | later
        · rcases List.mem_cons.mp keyMember with rfl | old
          · exact ⟨fun clash => noEquals (List.mem_of_mem_take clash),
              fun first start => keyStart first (head_take _ _ first start),
              fun first start => valueStart first (head_take _ _ first start)⟩
          · exact loaded.shaped current (by simp [chain]) key old
        · exact loaded.shaped other (by simp [chain, later]) key keyMember

/-- One iteration of the line loop keeps the invariant. -/
theorem loadLine_loaded (ini : INIFile) (line : Text)
    (loaded : LoadedStore ini) (safe : LineSafe line) :
    LoadedStore (loadLine ini line) := by
  rw [loadLine]
  cases trimmed : trimWhitespace line with
  | nil => exact addPendingComment_loaded ini [] loaded (by decide)
  | cons first rest =>
      have inside : first :: rest ⊆ line := by
        rw [← trimmed]
        exact trim_subset isSpace line
      have solid : isSpace first = false :=
        head_trim isSpace line first (by
          rw [trimWhitespace] at trimmed
          simp [trimmed])
      simp only
      split
      · apply addPendingComment_loaded ini _ loaded
        exact safe.of_subset (List.Subset.trans (trim_subset isSpace rest)
          (List.Subset.trans (List.subset_cons_self first rest) inside))
      · rename_i notComment
        split
        · cases found : readSectionLine line with
          | none => exact loaded
          | some parts =>
              obtain ⟨nameSafe, commentSafe⟩ :=
                readSectionLine_safe line parts.1 parts.2 safe found
              exact loadSection_loaded ini parts.1 parts.2 loaded nameSafe
                commentSafe (readSectionLine_shaped line _ _ found)
        · rename_i notSection
          cases found : readKeyLine line with
          | none => exact loaded
          | some parts =>
              obtain ⟨keySafe, valueSafe, commentSafe⟩ :=
                readKeyLine_safe line parts.1 parts.2.1 parts.2.2 safe found
              have lineStart : ∀ start ∈ (trimWhitespace line).head?,
                  KeyStart start := by
                intro start member
                rw [trimmed] at member
                simp only [List.head?_cons, Option.mem_def,
                  Option.some.injEq] at member
                subst member
                simp only [Bool.or_eq_true, beq_iff_eq, not_or]
                  at notComment notSection
                exact ⟨solid, notComment.1, notComment.2, notSection⟩
              obtain ⟨noEquals, keyStart, valueStart⟩ :=
                readKeyLine_shaped line parts.1 parts.2.1 parts.2.2 found
                  lineStart
              exact loadKey_loaded ini parts.1 parts.2.1 parts.2.2 loaded
                keySafe valueSafe commentSafe noEquals keyStart valueStart

theorem foldl_loadLine_loaded (lines : List Text) (ini : INIFile)
    (loaded : LoadedStore ini) (safe : ∀ line ∈ lines, LineSafe line) :
    LoadedStore (lines.foldl loadLine ini) := by
  induction lines generalizing ini with
  | nil => exact loaded
  | cons line lines ih =>
      rw [List.foldl_cons]
      exact ih _ (loadLine_loaded ini line loaded
          (safe line (List.mem_cons_self ..)))
        fun other member => safe other (List.mem_cons_of_mem _ member)

theorem emptyIni_loaded (filename : Text) : LoadedStore (emptyIni filename) :=
  ⟨⟨by simp [emptyIni], by simp [emptyIni]⟩, by simp [emptyIni],
    by simp [emptyIni]⟩

/-- Every store `ini_load` returns, whatever the file holds. -/
theorem iniLoad_loaded (files : Files) (filename : Text) :
    LoadedStore (iniLoad files filename) := by
  rw [iniLoad]
  cases files filename with
  | none => exact emptyIni_loaded filename
  | some content =>
      apply foldl_loadLine_loaded _ _ (emptyIni_loaded filename)
      intro line member
      obtain ⟨buffer, -, rfl⟩ := List.mem_map.mp member
      exact cutLine_safe buffer

end HenPlugins.Ini.Loaded
