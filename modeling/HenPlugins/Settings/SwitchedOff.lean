import HenPlugins.Loader.TitleScope
import HenPlugins.Loader.Truthiness
import HenPlugins.Settings.SwitchedOn

/-!
# A plugin that is switched off

The settings menu updates one entry, found by exact comparison; the loader
runs over every entry of every section whose name matches without case.  The
two agree when no other line of the saved file enables the plugin.
-/

set_option autoImplicit false

namespace HenPlugins.Settings.SwitchedOff

open HenPlugins.Lib.ByteText
open HenPlugins.Lib.SectionedDocument
open HenPlugins.Lib.ItemStream
open HenPlugins.Ini.Text
open HenPlugins.Ini.Store
open HenPlugins.Ini.Load
open HenPlugins.Ini.Save
open HenPlugins.Ini.Loaded
open HenPlugins.Ini.WrittenLines
open HenPlugins.Ini.SetEntry
open HenPlugins.Ini.OtherLines
open HenPlugins.Ini.Rewrite
open HenPlugins.Loader.LoadPlugins
open HenPlugins.Loader.TitleScope
open HenPlugins.Loader.Truthiness
open HenPlugins.Settings.LocalSettings
open HenPlugins.Settings.SwitchLine
open HenPlugins.Settings.SwitchedOn

/-- Letters, digits, `/`, `_`, `-` and `.`. -/
def isPlainByte (byte : UInt8) : Bool :=
  ('a'.toUInt8 ≤ byte && byte ≤ 'z'.toUInt8) ||
    ('A'.toUInt8 ≤ byte && byte ≤ 'Z'.toUInt8) ||
    ('0'.toUInt8 ≤ byte && byte ≤ '9'.toUInt8) ||
    byte == '/'.toUInt8 || byte == '_'.toUInt8 || byte == '-'.toUInt8 ||
    byte == '.'.toUInt8

/-- A plugin path without any character that the parser treats specially. -/
structure PlainId where
  text : Text
  fits : text.length ≤ 255
  plain : ∀ byte ∈ text, isPlainByte byte = true

theorem plainByte_facts : ∀ byte : UInt8, isPlainByte byte = true →
    isSpace byte = false ∧ isQuote byte = false ∧ isLineEnd byte = false ∧
      byte ≠ semicolon ∧ byte ≠ hash ∧ byte ≠ openBracket ∧
      byte ≠ equalsSign := by
  rintro ⟨⟨byte⟩⟩
  revert byte
  decide +kernel

theorem PlainId.absent (id : PlainId) (mark : UInt8)
    (special : isPlainByte mark = false) : mark ∉ id.text := by
  intro member
  rw [id.plain mark member] at special
  contradiction

theorem PlainId.argument (id : PlainId) : KeyArgument id.text := by
  refine ⟨id.fits, ?_, id.absent equalsSign (by decide), ?_⟩
  · intro byte member
    exact (plainByte_facts byte (id.plain byte member)).2.2.1
  · intro first start
    have facts := plainByte_facts first
      (id.plain first (List.mem_of_mem_head? start))
    exact ⟨facts.1, facts.2.2.2.1, facts.2.2.2.2.1, facts.2.2.2.2.2.1⟩

theorem PlainId.trimmed (id : PlainId) :
    trimWhitespace id.text = id.text := by
  have solid : ∀ byte ∈ id.text, isSpace byte = false :=
    fun byte member => (plainByte_facts byte (id.plain byte member)).1
  rw [trimWhitespace, trim_of_head isSpace _ fun first start =>
    solid first (List.mem_of_mem_head? start), List.rdropWhile_eq_self_iff]
  intro nonempty
  simpa using solid _ (List.getLast_mem nonempty)

theorem PlainId.kept (id : PlainId) (commented : Bool) :
    NameKept id.text commented := by
  have noSemicolon := id.absent semicolon (by decide)
  have noHash := id.absent hash (by decide)
  have closed : scanQuotes false id.text = false :=
    scanQuotes_plain false id.text fun byte member =>
      (plainByte_facts byte (id.plain byte member)).2.1
  rw [NameKept]
  split
  · exact ⟨noSemicolon, closed⟩
  · exact ⟨fun cut => noSemicolon cut.1, fun cut => noHash cut.1⟩

/-! ## Lines that enable a plugin -/

def enables (id : Text) : Item Text Text Text → Bool
  | .header _ => false
  | .entry keyName value => keyName == id && simpleGetBool value

/-- Neither the written line of the key nor what overruns the line buffer
enables the plugin. -/
def Silent (id : Text) (key : KeyValue) : Prop :=
  ¬ (trimWhitespace key.key.text = id ∧
      simpleGetBool key.value.text = true) ∧
    ∀ item ∈ lineItem ((keyLine key).drop (maxLineLength - 1)),
      enables id item = false

instance (id : Text) (key : KeyValue) : Decidable (Silent id key) :=
  inferInstanceAs (Decidable (¬ (_ ∧ _) ∧ ∀ item ∈ lineItem
    ((keyLine key).drop (maxLineLength - 1)), enables id item = false))

theorem keyItems_buffers (key : KeyValue) (safe : SafeKey key) :
    keyItems key =
      (lineItem ((keyLine key).take (maxLineLength - 1))).toList ++
        (lineItem ((keyLine key).drop (maxLineLength - 1))).toList := by
  by_cases overruns : maxLineLength - 1 ≤ (keyLine key).length
  · exact contentItems_long_line _ (keyLine_safe key safe) overruns
      (keyLine_bound key)
  · have nothing : lineItem [] = none := rfl
    rw [keyItems_of_fits key safe (by omega),
      List.take_of_length_le (by omega), List.drop_of_length_le (by omega),
      nothing]
    simp

theorem firstBuffer_shape (key : KeyValue) :
    ∃ rest, rest <+: space :: semicolon :: space :: key.comment.text ∧
      (keyLine key).take (maxLineLength - 1) =
        key.key.text ++ space :: equalsSign ::
          space :: (key.value.text ++ rest) := by
  have name := key.key.fits
  have value := key.value.fits
  simp only [maxKeyLength] at name
  simp only [maxValueLength] at value
  have whole : ∃ rest,
      rest <+: space :: semicolon :: space :: key.comment.text ∧
      keyLine key = (key.key.text ++ space :: equalsSign :: space ::
        key.value.text) ++ rest := by
    rw [keyLine_shape, keyTail]
    split
    · refine ⟨space :: semicolon :: space :: key.comment.text,
        List.prefix_refl _, ?_⟩
      simp [ascii]
    · exact ⟨[], List.nil_prefix, by simp⟩
  obtain ⟨rest, isPrefix, shape⟩ := whole
  have room : (key.key.text ++ space :: equalsSign :: space ::
      key.value.text).length ≤ maxLineLength - 1 := by
    rw [maxLineLength]
    simp only [List.length_append, List.length_cons]
    omega
  refine ⟨rest.take (maxLineLength - 1 - (key.key.text ++ space ::
    equalsSign :: space :: key.value.text).length),
    (List.take_prefix _ _).trans isPrefix, ?_⟩
  rw [shape, List.take_append, List.take_of_length_le room]
  simp

/-- A plain id is enabled by the first buffer exactly when the key has that
name and a truthy value. -/
theorem firstBuffer_enables_iff (id : PlainId) (key : KeyValue)
    (shaped : ShapedKey key) :
    (∃ item ∈ lineItem ((keyLine key).take (maxLineLength - 1)),
        enables id.text item = true) ↔
      trimWhitespace key.key.text = id.text ∧
        simpleGetBool key.value.text = true := by
  have name := key.key.fits
  have value := key.value.fits
  simp only [maxKeyLength] at name
  simp only [maxValueLength] at value
  obtain ⟨rest, isPrefix, shape⟩ := firstBuffer_shape key
  rw [shape]
  rcases lineItem_keyed (space :: (key.value.text ++ rest)) (by omega)
      shaped.noEquals shaped.keyStart with ⟨lost, mark⟩ | ⟨part, reading, read⟩
  · have other : trimWhitespace key.key.text ≠ id.text := by
      intro same
      rcases mark with inName | inName
      · have kept := mem_trim_of_solid isSpace _ _ inName (by decide)
        rw [← trimWhitespace, same] at kept
        exact id.absent semicolon (by decide) kept
      · have kept := mem_trim_of_solid isSpace _ _ inName (by decide)
        rw [← trimWhitespace, same] at kept
        exact id.absent hash (by decide) kept
    simp [lost, other]
  · have truth := simpleGetBool_reading key.value.text rest _ part (by omega)
      shaped.valueStart isPrefix reading
    simp [read, enables, truth]

theorem enables_iff_not_silent (id : PlainId) (key : KeyValue)
    (safe : SafeKey key) (shaped : ShapedKey key) :
    (∃ item ∈ keyItems key, enables id.text item = true) ↔
      ¬ Silent id.text key := by
  have first := firstBuffer_enables_iff id key shaped
  rw [keyItems_buffers key safe, Silent, ← first]
  simp only [List.mem_append, Option.mem_toList, Option.mem_def]
  constructor
  · rintro ⟨item, early | late, enabled⟩ ⟨quiet, quietTail⟩
    · exact quiet ⟨item, early, enabled⟩
    · rw [quietTail item late] at enabled
      contradiction
  · intro loud
    by_contra none
    apply loud
    refine ⟨?_, ?_⟩
    · intro heard
      obtain ⟨item, early, enabled⟩ := heard
      exact none ⟨item, Or.inl early, enabled⟩
    · intro item late
      by_contra enabled
      exact none ⟨item, Or.inr late, by simpa using enabled⟩

theorem stream_enables_iff (id : PlainId) (store : INIFile)
    (loaded : LoadedStore store) :
    (∃ item ∈ store.sections.flatMap savedSectionItems,
        enables id.text item = true) ↔
      ∃ key ∈ store.sections.flatMap Section.keys, ¬ Silent id.text key := by
  constructor
  · intro heard
    obtain ⟨item, member, enabled⟩ := heard
    obtain ⟨current, listed, inside⟩ := List.mem_flatMap.mp member
    rcases List.mem_append.mp inside with header | entry
    · rcases lineItem_sectionLine current (loaded.names current listed) with
        lost | read
      · simp [lost] at header
      · rw [read] at header
        simp only [Option.toList_some, List.mem_singleton] at header
        rw [header] at enabled
        contradiction
    · obtain ⟨key, keyListed, itemListed⟩ := List.mem_flatMap.mp entry
      refine ⟨key, List.mem_flatMap.mpr ⟨current, listed, keyListed⟩, ?_⟩
      exact (enables_iff_not_silent id key
        ((loaded.sections current listed).keys key keyListed)
        (loaded.shaped current listed key keyListed)).mp
          ⟨item, itemListed, enabled⟩
  · intro listed
    obtain ⟨key, member, loud⟩ := listed
    obtain ⟨current, listed, keyListed⟩ := List.mem_flatMap.mp member
    obtain ⟨item, itemListed, enabled⟩ := (enables_iff_not_silent id key
      ((loaded.sections current listed).keys key keyListed)
      (loaded.shaped current listed key keyListed)).mpr loud
    refine ⟨item, List.mem_flatMap.mpr ⟨current, listed, ?_⟩, enabled⟩
    exact List.mem_append_right _
      (List.mem_flatMap.mpr ⟨key, keyListed, itemListed⟩)

/-! ## The written store -/

section Written
variable (files : Files) (iniPath : Text) (id : PlainId)

theorem zero_isDigit :
    '0'.toUInt8 = '0'.toUInt8 ∨ '0'.toUInt8 = '1'.toUInt8 :=
  Or.inl rfl

theorem zeroStore_loaded :
    LoadedStore (writtenStore files iniPath id.text (ascii "0")) :=
  writtenStore_loaded files iniPath id.text id.argument '0'.toUInt8
    zero_isDigit

theorem ownLine_zero {place : Place}
    (located : place.Located (iniLoad files iniPath) pluginsAllSection id.text) :
    keyItems (writeKey (ascii "0") none place.target) =
      [.entry id.text (ascii "0")] := by
  have safe := located.target_safe (iniLoad_loaded files iniPath)
    id.argument.safe
  obtain ⟨reading, read, reads, -⟩ := ownLine_items located id.argument
    id.trimmed '0'.toUInt8 zero_isDigit safe
  have zero := reads.mpr (id.kept _)
  rw [zero] at read
  exact read

theorem zeroEntry_disabled :
    enables id.text (.entry id.text (ascii "0")) = false := by
  have off : simpleGetBool (ascii "0") = false := by decide
  rw [enables, off, Bool.and_false]

theorem ownLine_silent {place : Place}
    (located : place.Located (iniLoad files iniPath) pluginsAllSection id.text) :
    Silent id.text (writeKey (ascii "0") none place.target) := by
  have safe := located.target_safe (iniLoad_loaded files iniPath)
    id.argument.safe
  by_contra loud
  have writtenSafe := writeKey_safe (ascii "0") _ safe (by decide)
  obtain ⟨item, listed, enabled⟩ := (enables_iff_not_silent id _ writtenSafe
    (ownKey_shaped located id.argument '0'.toUInt8 zero_isDigit)).mpr loud
  rw [ownLine_zero files iniPath id located, List.mem_singleton] at listed
  rw [listed, zeroEntry_disabled id] at enabled
  contradiction

theorem heard_enables_iff :
    (∃ item ∈ ((writtenStore files iniPath id.text
          (ascii "0")).sections.flatMap savedSectionItems).dropWhile isEntry,
        enables id.text item = true) ↔
      ∃ item ∈ (linesBefore (iniLoad files iniPath) pluginsAllSection id.text ++
          linesAfter (iniLoad files iniPath) pluginsAllSection
            id.text).dropWhile isEntry, enables id.text item = true := by
  obtain ⟨place, located, chain⟩ := writtenStore_located files iniPath
    id.text (ascii "0") id.fits
  rw [chain, sectionsWith_lines located, ownLine_zero files iniPath id located,
    List.append_assoc, List.singleton_append]
  have other : ∀ item, enables id.text item = true →
      item ≠ .entry id.text (ascii "0") := by
    intro item enabled same
    rw [same, zeroEntry_disabled id] at enabled
    contradiction
  constructor
  · intro heard
    obtain ⟨item, member, enabled⟩ := heard
    exact ⟨item, (mem_heard_insert _ _ _ item rfl (other item enabled)).mp
      member, enabled⟩
  · intro heard
    obtain ⟨item, member, enabled⟩ := heard
    exact ⟨item, (mem_heard_insert _ _ _ item rfl (other item enabled)).mpr
      member, enabled⟩

/-- Switching off silences one key and leaves the others as they are. -/
theorem zeroStore_enables_iff :
    (∃ item ∈ (writtenStore files iniPath id.text (ascii "0")).sections.flatMap
        savedSectionItems, enables id.text item = true) ↔
      ∃ key ∈ untouchedKeys (iniLoad files iniPath) pluginsAllSection id.text,
        ¬ Silent id.text key := by
  obtain ⟨place, located, chain⟩ := writtenStore_located files iniPath
    id.text (ascii "0") id.fits
  have own := ownLine_silent files iniPath id located
  have keys : (place.sectionsWith (writeKey (ascii "0") none
      place.target)).flatMap Section.keys =
      place.front.flatMap Section.keys ++
        (place.keysFront ++ writeKey (ascii "0") none place.target ::
          place.keysBack) ++ place.back.flatMap Section.keys := by
    simp [Place.sectionsWith, Place.homeWith]
  rw [stream_enables_iff id _ (zeroStore_loaded files iniPath id), chain, keys,
    located.untouchedKeys_eq]
  constructor
  · intro listed
    obtain ⟨key, member, loud⟩ := listed
    have other : key ≠ writeKey (ascii "0") none place.target := by
      intro same
      rw [same] at loud
      exact loud own
    refine ⟨key, ?_, loud⟩
    simpa [other] using member
  · intro listed
    obtain ⟨key, member, loud⟩ := listed
    refine ⟨key, ?_, loud⟩
    simp only [List.mem_append, List.mem_cons] at member ⊢
    tauto

end Written

/-! ## The loader on the saved file -/

def withAppInfo (files : Files) (appInfo : Option Text) : Files :=
  fun path => if path = tempInfoPathSandbox then appInfo else files path

theorem iniLoad_withAppInfo (files : Files) (appInfo : Option Text) :
    iniLoad (withAppInfo files appInfo) pluginsIniPath =
      iniLoad files pluginsIniPath := by
  have other : pluginsIniPath ≠ tempInfoPathSandbox := by decide
  unfold iniLoad withAppInfo
  rw [if_neg other]

theorem runningTitle_withAppInfo_none (files : Files) :
    runningTitle (withAppInfo files none) = DiskAppinfo.zero := by
  unfold runningTitle withAppInfo
  rw [if_pos rfl]
  rfl

/-- After the plugin has been switched off, no run of the loader under any
`app_info` loads it. -/
def NeverLoaded (files : Files) (id : Text) : Prop :=
  ∀ appInfo beyond count,
    ∀ call ∈ loadPlugins (withAppInfo (readWriteLocalSettings files
        pluginsIniPath pluginsAllSection id (ascii "0") false [] 0).1 appInfo)
      beyond count, call.path ≠ id

theorem neverLoaded_iff_holds (files : Files) (id : Text) :
    NeverLoaded files id ↔
      ¬ ∃ value, Holds (view (freshLoad files pluginsIniPath id (ascii "0")))
        id value ∧ simpleGetBool value = true := by
  constructor
  · rintro never ⟨value, ⟨block, blockMember, entry⟩, truthy⟩
    obtain ⟨current, listed, rfl⟩ := List.mem_map.mp blockMember
    obtain ⟨key, keyListed, same⟩ := List.mem_map.mp entry
    rw [keyView, Prod.mk.injEq] at same
    -- a missing record has an empty title id, which matches every section
    obtain ⟨count, called⟩ := (mem_loadPlugins_iff
      (withAppInfo (readWriteLocalSettings files pluginsIniPath
        pluginsAllSection id (ascii "0") false [] 0).1 none) []
      ⟨current, key⟩).mpr ⟨by
        rw [runningTitle_withAppInfo_none]
        decide, by
        rw [runningTitle_withAppInfo_none, mTitleid_of_field_empty _ []
          (by decide), walked_of_empty, iniLoad_withAppInfo]
        exact listed, by
        rw [truthyKeys, List.mem_filter, same.2]
        exact ⟨keyListed, truthy⟩⟩
    exact never none [] count _ called same.1
  · intro absent appInfo beyond count call called same
    obtain ⟨-, section_, key⟩ := (mem_loadPlugins_iff _ beyond call).mp
      ⟨count, called⟩
    rw [iniLoad_withAppInfo] at section_
    have listed := (List.takeWhile_prefix _).subset section_
    rw [truthyKeys, List.mem_filter] at key
    refine absent ⟨call.key.value.text, ⟨sectionView call.section_,
      List.mem_map_of_mem listed, ?_⟩, key.2⟩
    rw [← same]
    exact List.mem_map_of_mem key.1

theorem holds_of_headed (store : INIFile) (loaded : LoadedStore store)
    (headed : ∀ current ∈ store.sections.head?,
      lineItem (sectionLine current) ≠ none)
    (id value : Text)
    (member : Item.entry id value ∈
      store.sections.flatMap savedSectionItems) :
    Holds (build (store.sections.flatMap savedSectionItems)) id value := by
  cases chain : store.sections with
  | nil => simp [chain] at member
  | cons current rest =>
      rw [chain] at member headed
      rcases lineItem_sectionLine current
          (loaded.names current (by simp [chain])) with lost | header
      · exact absurd lost (headed current (by simp))
      · rw [List.flatMap_cons, savedSectionItems, header] at member ⊢
        simp only [Option.toList_some, List.cons_append, List.nil_append,
          List.mem_cons, reduceCtorEq, false_or] at member ⊢
        exact (holds_build_header _ _ _ _).mpr member

theorem neverLoaded_iff_heard (files : Files) (id : PlainId) :
    NeverLoaded files id.text ↔
      ∀ item ∈ (linesBefore (iniLoad files pluginsIniPath) pluginsAllSection
          id.text ++ linesAfter (iniLoad files pluginsIniPath)
            pluginsAllSection id.text).dropWhile isEntry,
        enables id.text item = false := by
  have loaded := zeroStore_loaded files pluginsIniPath id
  have heard := heard_enables_iff files pluginsIniPath id
  rw [neverLoaded_iff_holds, freshLoad_eq_reload,
    view_reload _ _ loaded.toSafeStore]
  simp only [holds_build_iff]
  constructor
  · intro absent item member
    by_contra enabled
    obtain ⟨item, written, loud⟩ :=
      heard.mpr ⟨item, member, by simpa using enabled⟩
    cases item with
    | header name => contradiction
    | entry keyName value =>
        simp only [enables, Bool.and_eq_true, beq_iff_eq] at loud
        obtain ⟨rfl, truthy⟩ := loud
        exact absent ⟨value, written, truthy⟩
  · rintro disabled ⟨value, written, truthy⟩
    obtain ⟨item, member, enabled⟩ := heard.mp
      ⟨.entry id.text value, written, by simp [enables, truthy]⟩
    rw [disabled item member] at enabled
    contradiction

/-- The plugin stays off exactly when no other line that is heard behind a
section line enables it.  It does so if no other key enables it; and only if,
when the first section line of the file is read as one. -/
theorem staysOff_iff (files : Files) (id : PlainId) :
    (NeverLoaded files id.text ↔
      ∀ item ∈ (linesBefore (iniLoad files pluginsIniPath) pluginsAllSection
          id.text ++ linesAfter (iniLoad files pluginsIniPath)
            pluginsAllSection id.text).dropWhile isEntry,
        enables id.text item = false) ∧
      ((∀ key ∈ untouchedKeys (iniLoad files pluginsIniPath) pluginsAllSection
        id.text, Silent id.text key) → NeverLoaded files id.text) ∧
      ((∀ current ∈ (writtenStore files pluginsIniPath id.text
          (ascii "0")).sections.head?, lineItem (sectionLine current) ≠ none) →
        NeverLoaded files id.text →
        ∀ key ∈ untouchedKeys (iniLoad files pluginsIniPath)
          pluginsAllSection id.text, Silent id.text key) := by
  have loaded := zeroStore_loaded files pluginsIniPath id
  have stream := zeroStore_enables_iff files pluginsIniPath id
  have held : view (freshLoad files pluginsIniPath id.text (ascii "0")) =
      build ((writtenStore files pluginsIniPath id.text
        (ascii "0")).sections.flatMap savedSectionItems) := by
    rw [freshLoad_eq_reload, view_reload _ _ loaded.toSafeStore]
  refine ⟨neverLoaded_iff_heard files id, ?_⟩
  rw [neverLoaded_iff_holds, held]
  refine ⟨?_, ?_⟩
  · rintro silent ⟨value, holds, truthy⟩
    have member := mem_of_holds_build _ _ _ holds
    obtain ⟨key, listed, loud⟩ := stream.mp
      ⟨.entry id.text value, member, by simp [enables, truthy]⟩
    exact loud (silent key listed)
  · intro headed absent key listed
    by_contra loud
    obtain ⟨item, member, enabled⟩ := stream.mpr ⟨key, listed, loud⟩
    apply absent
    cases item with
    | header name => contradiction
    | entry keyName value =>
        simp only [enables, Bool.and_eq_true, beq_iff_eq] at enabled
        obtain ⟨rfl, truthy⟩ := enabled
        exact ⟨value, holds_of_headed _ loaded headed _ _ member, truthy⟩

/-- A switch in `[all]` next to another plugin's and another title's. -/
theorem neverLoaded_sharedFile :
    NeverLoaded (singleFile pluginsIniPath
      (ascii "[all]\nq=1\np=1\n[CUSA00001]\nr=1\n")) (ascii "p") :=
  (staysOff_iff (singleFile pluginsIniPath
    (ascii "[all]\nq=1\np=1\n[CUSA00001]\nr=1\n"))
    ⟨ascii "p", by decide, List.forall_mem_singleton.mpr rfl⟩).2.1
      (by decide)

/-- `[ALL]` is a section of its own for the menu and an `[all]` section for
the loader. -/
theorem upperCaseSection_loaded :
    ¬ NeverLoaded (singleFile pluginsIniPath (ascii "[ALL]\np=1\n"))
      (ascii "p") := by
  intro never
  have called : ∃ call ∈ loadPlugins (withAppInfo (readWriteLocalSettings
      (singleFile pluginsIniPath (ascii "[ALL]\np=1\n")) pluginsIniPath
      pluginsAllSection (ascii "p") (ascii "0") false [] 0).1 none) [] 2,
      call.path = ascii "p" := by decide
  obtain ⟨call, member, same⟩ := called
  exact never none [] 2 call member same

end HenPlugins.Settings.SwitchedOff
