import HenPlugins.Ini.CleanRoundTrip
import HenPlugins.Ini.StoreMap

/-!
# Stores that a rewrite keeps

A tidy store may have comments in front of its sections and keys.  Saved and
loaded it comes back as its mirror image, which is tidy again, and so is what
`ini_set` makes of it.
-/

set_option autoImplicit false

namespace HenPlugins.Ini.TidyStore

open HenPlugins.Lib.ByteText
open HenPlugins.Lib.SectionedDocument
open HenPlugins.Lib.LabelledChain
open HenPlugins.Ini.Text
open HenPlugins.Ini.Store
open HenPlugins.Ini.Load
open HenPlugins.Ini.Save
open HenPlugins.Ini.Loaded
open HenPlugins.Ini.Rewrite
open HenPlugins.Ini.SetEntry
open HenPlugins.Ini.CommentedView
open HenPlugins.Ini.CleanLines
open HenPlugins.Ini.CleanRoundTrip
open HenPlugins.Ini.StoreMap

/-- With a value of this length every line fits, whatever its comment. -/
def valueMax : Nat := 127

structure TidyKey (key : KeyValue) : Prop where
  clean : CleanKey key
  short : key.value.text.length ≤ valueMax

structure TidySection (current : Section) : Prop where
  header : CleanHeader current
  keys : ∀ key ∈ current.keys, TidyKey key

structure Tidy (ini : INIFile) : Prop where
  loaded : LoadedStore ini
  once : NamedOnce ini
  sections : ∀ current ∈ ini.sections, TidySection current

instance (key : KeyValue) : Decidable (TidyKey key) :=
  decidable_of_iff (CleanKey key ∧ key.value.text.length ≤ valueMax)
    ⟨fun facts => ⟨facts.1, facts.2⟩, fun tidy => ⟨tidy.clean, tidy.short⟩⟩

instance (current : Section) : Decidable (TidySection current) :=
  decidable_of_iff (CleanHeader current ∧ ∀ key ∈ current.keys, TidyKey key)
    ⟨fun facts => ⟨facts.1, facts.2⟩, fun tidy => ⟨tidy.header, tidy.keys⟩⟩

theorem TidyKey.line_fits {key : KeyValue} (tidy : TidyKey key) :
    (keyLine key).length < maxLineLength - 1 := by
  have name := key.key.fits
  have comment := key.comment.fits
  have value := tidy.short
  have equals : (ascii " = ").length = 3 := rfl
  have separator : (ascii " ; ").length = 3 := rfl
  simp only [maxKeyLength] at name
  simp only [maxCommentLength] at comment
  simp only [valueMax] at value
  unfold keyLine maxLineLength
  split
  · simp only [List.length_append]
    omega
  · simp only [List.length_append]
    omega

theorem header_fits (current : Section) :
    (sectionLine current).length < maxLineLength - 1 := by
  have name := current.name.fits
  have comment := current.comment.fits
  have opening : (ascii "[").length = 1 := rfl
  have separator : (ascii "] ; ").length = 4 := rfl
  have closing : (ascii "]").length = 1 := rfl
  simp only [maxSectionLength] at name
  simp only [maxCommentLength] at comment
  unfold sectionLine maxLineLength
  split
  · simp only [List.length_append]
    omega
  · simp only [List.length_append]
    omega

/-! ## The lines that are written -/

def keyLines (key : KeyValue) : List Text :=
  key.commentsBefore.map commentLine ++ [keyLine key]

def sectionLines (current : Section) : List Text :=
  current.commentsBefore.map commentLine ++ sectionLine current ::
    (current.keys.flatMap keyLines ++ [[]])

theorem saveKey_lines (key : KeyValue) :
    saveKey key = (keyLines key).flatMap fun line => line ++ [newline] := by
  rw [saveKey, saveComments_eq, keyLines, List.flatMap_append,
    List.flatMap_singleton]

theorem saveSection_lines (current : Section) :
    saveSection current = (sectionLines current).flatMap fun line => line ++ [newline] := by
  have keys : current.keys.flatMap saveKey =
      (current.keys.flatMap keyLines).flatMap fun line => line ++ [newline] := by
    rw [List.flatMap_assoc]
    exact List.flatMap_congr fun key _ => saveKey_lines key
  rw [saveSection, saveComments_eq, keys, sectionLines, List.flatMap_append,
    List.flatMap_cons, List.flatMap_append]
  simp only [List.append_assoc, List.flatMap_cons, List.flatMap_nil,
    List.nil_append, List.append_nil]

def Fits (line : Text) : Prop :=
  LineSafe line ∧ line.length < maxLineLength - 1

theorem commentLines_fit (comments : List Comment)
    (safe : ∀ comment ∈ comments, LineSafe comment.text) :
    ∀ line ∈ comments.map commentLine, Fits line := by
  intro line member
  obtain ⟨comment, inside, rfl⟩ := List.mem_map.mp member
  exact commentLine_fits comment (safe comment inside)

theorem sectionLines_fit (current : Section) (safe : SafeSection current)
    (tidy : TidySection current) : ∀ line ∈ sectionLines current, Fits line := by
  intro line member
  rcases List.mem_append.mp member with comment | own
  · exact commentLines_fit _ safe.beforeTexts line comment
  rcases List.mem_cons.mp own with rfl | rest
  · exact ⟨sectionLine_safe current safe, header_fits current⟩
  rcases List.mem_append.mp rest with keyed | blank
  · obtain ⟨key, inside, written⟩ := List.mem_flatMap.mp keyed
    have safeKey := safe.keys key inside
    rcases List.mem_append.mp written with comment | line
    · exact commentLines_fit _ safeKey.beforeTexts _ comment
    · rw [List.mem_singleton.mp line]
      exact ⟨keyLine_safe key safeKey, (tidy.keys key inside).line_fits⟩
  · rw [List.mem_singleton.mp blank]
    exact ⟨by decide, by decide⟩

theorem readLines_saved (ini : INIFile) (tidy : Tidy ini) :
    readLines (saveText ini) =
      ini.headerComments.map commentLine ++
        ini.sections.flatMap sectionLines := by
  have texts : ini.sections.flatMap saveSection =
      (ini.sections.flatMap sectionLines).flatMap
        fun line => line ++ [newline] := by
    rw [List.flatMap_assoc]
    exact List.flatMap_congr fun current _ => saveSection_lines current
  have fits : ∀ line ∈ ini.sections.flatMap sectionLines, Fits line := by
    intro line member
    obtain ⟨current, inside, written⟩ := List.mem_flatMap.mp member
    exact sectionLines_fit current (tidy.loaded.sections current inside)
      (tidy.sections current inside) line written
  have whole := readLines_flatMap (ini.sections.flatMap sectionLines) fits []
  rw [List.append_nil, readLines_nil, List.append_nil] at whole
  rw [saveText, saveComments_eq, texts,
    readLines_flatMap _ (commentLines_fit _ tidy.loaded.headerTexts)]
  exact congrArg _ whole

/-! ## Loading them -/

theorem foldl_keyLines (keys : List KeyValue) (ini : INIFile)
    (clean : ∀ key ∈ keys, CleanKey key) :
    commentedView ((keys.flatMap keyLines).foldl loadLine ini) =
      ((keys.map commentedKey).map entryItem).foldl feed
        (commentedView ini) := by
  induction keys generalizing ini with
  | nil => rfl
  | cons key keys ih =>
      have first := clean key (List.mem_cons_self ..)
      rw [List.flatMap_cons, List.foldl_append,
        ih _ fun other member => clean other (List.mem_cons_of_mem _ member),
        keyLines, List.foldl_append, List.foldl_cons, List.foldl_nil,
        loadLine_written_key _ key first, foldl_commentLines]
      rfl

theorem foldl_sectionLines (current : Section) (ini : INIFile)
    (tidy : TidySection current) :
    commentedView ((sectionLines current).foldl loadLine ini) =
      (sectionItems (commentedSection current)).foldl feed
        (commentedView ini) := by
  have blank (state : INIFile) :
      commentedView (loadLine state []) = commentedView state :=
    commentedView_setPendingComments state _
  rw [sectionLines, List.foldl_append, List.foldl_cons, List.foldl_append,
    List.foldl_cons, List.foldl_nil, blank,
    foldl_keyLines _ _ fun key member => (tidy.keys key member).clean,
    loadLine_written_header _ current tidy.header, foldl_commentLines]
  rfl

theorem foldl_tidySections (sections : List Section) (ini : INIFile)
    (tidy : ∀ current ∈ sections, TidySection current) :
    commentedView ((sections.flatMap sectionLines).foldl loadLine ini) =
      (items (sections.map commentedSection)).foldl feed
        (commentedView ini) := by
  induction sections generalizing ini with
  | nil => rfl
  | cons current sections ih =>
      have tail := ih ((sectionLines current).foldl loadLine ini)
        fun other member => tidy other (List.mem_cons_of_mem _ member)
      rw [List.flatMap_cons, List.foldl_append, tail,
        foldl_sectionLines current ini (tidy current (List.mem_cons_self ..)),
        ← List.foldl_append]
      rfl

/-- A tidy store comes back as its mirror image. -/
theorem commentedView_saved (files : Files) (ini : INIFile)
    (tidy : Tidy ini) :
    commentedView (reload files ini) = mirror (commentedView ini) := by
  have loaded : reload files ini =
      (readLines (saveText ini)).foldl loadLine (emptyIni ini.filename) := by
    simp [reload, iniLoad, iniSave]
  rw [loaded, readLines_saved ini tidy, List.foldl_append,
    foldl_tidySections _ _ tidy.sections, foldl_commentLines]
  exact build_items (commentedView ini)

/-! ## Tidy again -/

theorem cleanHeader_congr (current other : Section)
    (name : other.name.text = current.name.text)
    (comment : other.comment.text = current.comment.text)
    (clean : CleanHeader current) : CleanHeader other where
  name := name ▸ clean.name
  comment := comment ▸ clean.comment
  nameMarks := name ▸ clean.nameMarks
  noBracket := name ▸ clean.noBracket

theorem tidyKey_congr (key other : KeyValue)
    (same : commentedKey other = commentedKey key) (tidy : TidyKey key) :
    TidyKey other := by
  obtain ⟨name, rest⟩ := Prod.mk.inj same
  obtain ⟨value, comment⟩ := Prod.mk.inj rest
  have clean := tidy.clean
  refine ⟨⟨?_, ?_, ?_, ?_, ?_, ?_, ?_⟩, ?_⟩
  · exact name ▸ clean.name
  · exact value ▸ clean.value
  · exact comment ▸ clean.comment
  · exact name ▸ clean.nameMarks
  · exact value ▸ clean.valueMarks
  · exact name ▸ clean.noEquals
  · exact name ▸ clean.noOpening
  · exact value ▸ tidy.short

/-- The sections of a reloaded store are those that were saved. -/
theorem section_of_reload (files : Files) (ini : INIFile)
    (tidy : Tidy ini) (again : Section)
    (member : again ∈ (reload files ini).sections) :
    ∃ current ∈ ini.sections, again.name.text = current.name.text ∧
      again.comment.text = current.comment.text ∧
      again.keys.map commentedKey = (current.keys.map commentedKey).reverse := by
  have viewed : commentedSection again ∈ mirror (commentedView ini) := by
    rw [← commentedView_saved files ini tidy]
    exact List.mem_map_of_mem member
  rw [mirror, List.mem_reverse] at viewed
  obtain ⟨block, inside, same⟩ := List.mem_map.mp viewed
  obtain ⟨current, listed, rfl⟩ := List.mem_map.mp inside
  obtain ⟨header, keys⟩ := Prod.mk.inj same
  obtain ⟨name, comment⟩ := Prod.mk.inj header
  exact ⟨current, listed, name.symm, comment.symm, keys.symm⟩

theorem namedOnce_reload (files : Files) (ini : INIFile)
    (tidy : Tidy ini) : NamedOnce (reload files ini) := by
  refine ⟨?_, ?_⟩
  · have names : (reload files ini).sections.map
        (fun current => current.name.text) =
          (ini.sections.map fun current => current.name.text).reverse := by
      have same := congrArg (List.map fun block => block.1.1)
        (commentedView_saved files ini tidy)
      simpa [commentedView, commentedSection, mirror, Function.comp_def]
        using same
    rw [names, List.nodup_reverse]
    exact tidy.once.sections
  · intro again member
    obtain ⟨current, listed, -, -, keys⟩ :=
      section_of_reload files ini tidy again member
    have names : again.keys.map (fun key => key.key.text) =
        (current.keys.map fun key => key.key.text).reverse := by
      have same := congrArg (List.map Prod.fst) keys
      simpa [commentedKey, Function.comp_def] using same
    rw [names, List.nodup_reverse]
    exact tidy.once.keys current listed

theorem tidy_reload (files : Files) (ini : INIFile) (tidy : Tidy ini) :
    Tidy (reload files ini) := by
  refine ⟨iniLoad_loaded _ _, namedOnce_reload files ini tidy, ?_⟩
  intro again member
  obtain ⟨current, listed, name, comment, keys⟩ :=
    section_of_reload files ini tidy again member
  have before := tidy.sections current listed
  refine ⟨cleanHeader_congr current again name comment before.header, ?_⟩
  intro key inside
  have viewed : commentedKey key ∈ (current.keys.map commentedKey).reverse := by
    rw [← keys]
    exact List.mem_map_of_mem inside
  obtain ⟨source, sourceListed, same⟩ :=
    List.mem_map.mp (List.mem_reverse.mp viewed)
  exact tidyKey_congr source key same.symm (before.keys source sourceListed)

theorem keyMap_view (keys : List KeyValue) :
    keyMap keys =
      chainMap Prod.fst (fun entry => entry.2.1)
        (keys.map commentedKey) := by
  rw [chainMap_map]
  rfl

theorem storeMap_view (ini : INIFile) :
    storeMap ini =
      chainMap (fun block => block.1.1)
        (fun block => chainMap Prod.fst (fun entry => entry.2.1) block.2)
        (commentedView ini) := by
  rw [commentedView, chainMap_map]
  exact chainMap_congr _ _ _ _ fun current _ => keyMap_view current.keys

/-- The mirror image of a view with distinct names stands for the same map. -/
theorem storeMap_saved (files : Files) (ini : INIFile) (tidy : Tidy ini) :
    storeMap (reload files ini) = storeMap ini := by
  have names : ((commentedView ini).map fun block => block.1.1).Nodup := by
    simpa [commentedView, commentedSection, Function.comp_def] using
      tidy.once.sections
  have keys : ∀ block ∈ commentedView ini, (block.2.map Prod.fst).Nodup := by
    intro block member
    obtain ⟨current, listed, rfl⟩ := List.mem_map.mp member
    simpa [commentedSection, commentedKey, Function.comp_def] using
      tidy.once.keys current listed
  rw [storeMap_view, storeMap_view, commentedView_saved files ini tidy, mirror,
    chainMap_reverse, chainMap_map]
  · exact chainMap_congr _ _ _ _ fun block member =>
      chainMap_reverse _ _ _ (keys block member)
  · simpa [Function.comp_def] using names

/-! ## `ini_set` -/

/-- What a section, an id and a value need to be written as they are. -/
structure TidySetting (sectionName keyName value : Text) : Prop where
  sectionFits : sectionName.length ≤ 255
  sectionText : CleanText sectionName
  sectionMarks : MarkFree sectionName
  sectionBracket : closeBracket ∉ sectionName
  keyFits : keyName.length ≤ 255
  keyText : CleanText keyName
  keyMarks : MarkFree keyName
  keyEquals : equalsSign ∉ keyName
  keyOpening : keyName.head? ≠ some openBracket
  valueText : CleanText value
  valueMarks : MarkFree value
  valueShort : value.length ≤ valueMax

instance (sectionName keyName value : Text) :
    Decidable (TidySetting sectionName keyName value) :=
  decidable_of_iff ((sectionName.length ≤ 255 ∧ CleanText sectionName ∧
      MarkFree sectionName ∧ closeBracket ∉ sectionName) ∧
      (keyName.length ≤ 255 ∧ CleanText keyName ∧ MarkFree keyName ∧
        equalsSign ∉ keyName ∧ keyName.head? ≠ some openBracket) ∧
      CleanText value ∧ MarkFree value ∧ value.length ≤ valueMax)
    ⟨fun ⟨⟨fits, text, marks, bracket⟩,
        ⟨keyFits, keyText, keyMarks, equals, opening⟩,
        valueText, valueMarks, short⟩ =>
      ⟨fits, text, marks, bracket, keyFits, keyText, keyMarks, equals,
        opening, valueText, valueMarks, short⟩,
      fun setting =>
        ⟨⟨setting.sectionFits, setting.sectionText, setting.sectionMarks,
            setting.sectionBracket⟩,
          ⟨setting.keyFits, setting.keyText, setting.keyMarks,
            setting.keyEquals, setting.keyOpening⟩,
          setting.valueText, setting.valueMarks, setting.valueShort⟩⟩

theorem cleanText_nil : CleanText [] := by decide

section Setting
variable {ini : INIFile} {sectionName keyName value : Text}
  (setting : TidySetting sectionName keyName value)

include setting in
theorem TidySetting.argument : KeyArgument keyName where
  fits := setting.keyFits
  safe := setting.keyText.lineSafe
  noEquals := setting.keyEquals
  keyStart := by
    intro first member
    have inside : first ∈ keyName := List.mem_of_mem_head? member
    refine ⟨head_of_trimmed _ setting.keyText.trimmed first member, ?_, ?_, ?_⟩
    · intro same
      exact setting.keyMarks.noSemicolon (same ▸ inside)
    · intro same
      exact setting.keyMarks.noHash (same ▸ inside)
    · intro same
      rw [same] at member
      exact setting.keyOpening member

include setting in
theorem loaded_setEntry (loaded : LoadedStore ini) :
    LoadedStore (setEntry ini sectionName keyName value none) := by
  apply setEntry_loaded ini loaded sectionName keyName value
    setting.sectionFits setting.sectionText.lineSafe _ setting.argument
    setting.valueText.lineSafe (head_of_trimmed _ setting.valueText.trimmed)
  exact ⟨setting.sectionBracket,
    head_of_trimmed _ setting.sectionText.trimmed⟩

include setting in
/-- The key that is written, old or new. -/
theorem tidyKey_written (tidy : Tidy ini) (place : Place)
    (located : place.Located ini sectionName keyName) :
    TidyKey (writeKey value none place.target) := by
  have named : (writeKey value none place.target).key.text = keyName :=
    located.targetNamed
  have valued : (writeKey value none place.target).value.text = value := by
    have short := setting.valueShort
    rw [valueMax] at short
    rw [writeKey, valueField_text, List.take_of_length_le (by omega)]
  have comment : CleanText (writeKey value none place.target).comment.text := by
    rcases located.home_mem with
      ⟨before, member, -, -, -, -, known | fresh⟩ | ⟨-, -, -, fresh⟩
    · exact ((tidy.sections before member).keys _ known).clean.comment
    · show CleanText place.target.comment.text
      rw [fresh]
      exact cleanText_nil
    · show CleanText place.target.comment.text
      rw [fresh]
      exact cleanText_nil
  refine ⟨⟨?_, ?_, comment, ?_, ?_, ?_, ?_⟩, ?_⟩
  · rw [named]
    exact setting.keyText
  · rw [valued]
    exact setting.valueText
  · rw [named]
    exact setting.keyMarks
  · rw [valued]
    exact setting.valueMarks
  · rw [named]
    exact setting.keyEquals
  · rw [named]
    exact setting.keyOpening
  · rw [valued]
    exact setting.valueShort

include setting in
theorem cleanHeader_home (tidy : Tidy ini) (place : Place)
    (located : place.Located ini sectionName keyName) (key : KeyValue) :
    CleanHeader (place.homeWith key) := by
  have named : (place.homeWith key).name.text = sectionName :=
    located.homeNamed
  have comment : CleanText (place.homeWith key).comment.text := by
    show CleanText place.home.comment.text
    rcases located.home_mem with ⟨before, member, -, same, -⟩ | ⟨fresh, -⟩
    · rw [← same]
      exact (tidy.sections before member).header.comment
    · rw [fresh]
      exact cleanText_nil
  refine ⟨?_, comment, ?_, ?_⟩
  · rw [named]
    exact setting.sectionText
  · rw [named]
    exact setting.sectionMarks
  · rw [named]
    exact setting.sectionBracket

include setting in
theorem tidy_setEntry (tidy : Tidy ini) :
    Tidy (setEntry ini sectionName keyName value none) := by
  obtain ⟨place, located, chain⟩ := setEntry_located ini sectionName keyName
    value none setting.sectionFits setting.keyFits
  refine ⟨loaded_setEntry setting tidy.loaded,
    setEntry_once ini sectionName keyName value none setting.sectionFits
      setting.keyFits tidy.once, ?_⟩
  intro current member
  rw [chain] at member
  rcases located.mem_sectionsWith _ current member with old | rfl
  · exact tidy.sections current old
  · refine ⟨cleanHeader_home setting tidy place located _, ?_⟩
    intro key inside
    rcases located.mem_homeWith _ key inside with rfl | ⟨before, listed, old⟩
    · exact tidyKey_written setting tidy place located
    · exact (tidy.sections before listed).keys key old

end Setting

/-! ## Files that hold a map -/

/-- The file is tidy and stands for the map. -/
structure FileHolds (files : Files) (path : Text) (map : AbstractStore) :
    Prop where
  tidy : Tidy (iniLoad files path)
  same : storeMap (iniLoad files path) = map

theorem tidy_missing (files : Files) (path : Text)
    (missing : files path = none) : Tidy (iniLoad files path) := by
  have empty : iniLoad files path = emptyIni path := by
    rw [iniLoad, missing]
  refine ⟨iniLoad_loaded files path, ?_, ?_⟩
  · rw [empty]
    exact ⟨List.nodup_nil, by simp [emptyIni]⟩
  · rw [empty]
    simp [emptyIni]

/-- Set one key of the file and write it back. -/
theorem FileHolds.set {files : Files} {path : Text} {map : AbstractStore}
    (holds : FileHolds files path map) {sectionName keyName value : Text}
    (setting : TidySetting sectionName keyName value) :
    FileHolds (iniSave files (iniSet (iniLoad files path) sectionName keyName
      value).1).1 path (map.set sectionName keyName value) := by
  have tidy := tidy_setEntry setting holds.tidy
  have filename : (setEntry (iniLoad files path) sectionName keyName value
      none).filename = path := by
    rw [setEntry_filename, iniLoad_filename]
  have again : iniLoad (iniSave files (iniSet (iniLoad files path) sectionName
      keyName value).1).1 path =
        reload files (setEntry (iniLoad files path) sectionName keyName value
          none) := by
    rw [reload, filename]
    rfl
  have whole : value.take 511 = value := by
    have short := setting.valueShort
    rw [valueMax] at short
    exact List.take_of_length_le (by omega)
  refine ⟨?_, ?_⟩
  · rw [again]
    exact tidy_reload files _ tidy
  · rw [again, storeMap_saved files _ tidy, storeMap_setEntry _ _ _ _ _
      setting.sectionFits setting.keyFits, holds.same, whole]

/-- A save does not touch another file. -/
theorem iniSave_other (files : Files) (path other : Text)
    (sectionName keyName value : Text) (differ : path ≠ other) :
    (iniSave files (iniSet (iniLoad files other) sectionName keyName
      value).1).1 path = files path := by
  have filename : (iniSet (iniLoad files other) sectionName keyName
      value).1.filename = other :=
    (setEntry_filename (iniLoad files other) sectionName keyName value
      none).trans (iniLoad_filename files other)
  exact if_neg (filename.symm ▸ differ)

theorem FileHolds.congr {files other : Files} {path : Text}
    {map : AbstractStore} (holds : FileHolds files path map)
    (same : other path = files path) : FileHolds other path map := by
  have loaded : iniLoad other path = iniLoad files path := by
    rw [iniLoad, iniLoad, same]
  exact ⟨loaded ▸ holds.tidy, loaded ▸ holds.same⟩

end HenPlugins.Ini.TidyStore
