import HenPlugins.Ini.CarriedLines
import Mathlib.Data.List.Nodup

/-!
# Loading, saving and loading again

The reloaded document is the mirror image of the saved one whenever every
written line reads back as the entry it was written for: `ini_save` walks the
chains from the head while `create_section` and `create_key` put what they
read in front.  A value then survives exactly when the first and the last
entry of its name agree.
-/

set_option autoImplicit false

namespace HenPlugins.Ini.Rewrite

open HenPlugins.Lib.ByteText
open HenPlugins.Lib.SectionedDocument
open HenPlugins.Lib.ItemStream
open HenPlugins.Ini.Text
open HenPlugins.Ini.Store
open HenPlugins.Ini.Load
open HenPlugins.Ini.Save
open HenPlugins.Ini.Loaded
open HenPlugins.Ini.WrittenLines
open HenPlugins.Ini.CarriedLines

/-- A fresh load of the file after the store has been saved. -/
def reload (files : Files) (ini : INIFile) : INIFile :=
  iniLoad (iniSave files ini).1 ini.filename

def HeaderReadsBack (current : Section) : Prop :=
  lineItem (sectionLine current) = some (.header current.name.text)

def KeyReadsBack (key : KeyValue) : Prop :=
  keyItems key = [.entry key.key.text key.value.text]

instance (current : Section) : Decidable (HeaderReadsBack current) :=
  inferInstanceAs (Decidable (_ = _))

instance (key : KeyValue) : Decidable (KeyReadsBack key) :=
  inferInstanceAs (Decidable (_ = _))

/-- Every section and key line that `ini_save` writes is read by the loader as
the name, or the key and value, it was written for, and as nothing else. -/
def LinesReadBack (ini : INIFile) : Prop :=
  ∀ current ∈ ini.sections,
    HeaderReadsBack current ∧ ∀ key ∈ current.keys, KeyReadsBack key

instance (ini : INIFile) : Decidable (LinesReadBack ini) :=
  inferInstanceAs (Decidable (∀ current ∈ ini.sections,
    HeaderReadsBack current ∧ ∀ key ∈ current.keys, KeyReadsBack key))

theorem view_reload (files : Files) (ini : INIFile) (safe : SafeStore ini) :
    view (reload files ini) =
      build (ini.sections.flatMap savedSectionItems) := by
  rw [reload, view_iniLoad _ _ (saveText ini) (by simp [iniSave]),
    contentItems_saveText ini safe]

/-- The lookup finds the last line read as the key under the last line read as
the section. -/
theorem iniGet_reload_eq (files : Files) (ini : INIFile) (safe : SafeStore ini)
    (sectionName keyName : Text) :
    iniGet (reload files ini) sectionName keyName =
      lastRead sectionName keyName
        (ini.sections.flatMap savedSectionItems) := by
  rw [iniGet_eq_firstValue, view_reload files ini safe, firstValue_build]

theorem savedSectionItems_readBack (current : Section)
    (header : HeaderReadsBack current)
    (keys : ∀ key ∈ current.keys, KeyReadsBack key) :
    savedSectionItems current = sectionItems (sectionView current) := by
  have entries : current.keys.flatMap keyItems =
      (current.keys.map keyView).map entryItem := by
    rw [List.map_map, List.map_eq_flatMap]
    exact List.flatMap_congr keys
  rw [savedSectionItems, header, entries]
  rfl

theorem savedItems_readBack (ini : INIFile) (readBack : LinesReadBack ini) :
    ini.sections.flatMap savedSectionItems = items (view ini) := by
  rw [items, view, List.flatMap_map]
  exact List.flatMap_congr fun current member =>
    savedSectionItems_readBack current (readBack current member).1
      (readBack current member).2

/-- A saved and reloaded store is the mirror image of the saved one. -/
theorem view_reload_mirror (files : Files) (ini : INIFile)
    (safe : SafeStore ini) (readBack : LinesReadBack ini) :
    view (reload files ini) = mirror (view ini) := by
  rw [view_reload files ini safe, savedItems_readBack ini readBack,
    build_items]

theorem iniGet_reload (files : Files) (ini : INIFile) (safe : SafeStore ini)
    (readBack : LinesReadBack ini) (sectionName keyName : Text) :
    iniGet (reload files ini) sectionName keyName =
      lastValue (view ini) sectionName keyName := by
  rw [iniGet_eq_firstValue, view_reload_mirror files ini safe readBack,
    lastValue]

def ValuesSurvive (files : Files) (ini : INIFile) : Prop :=
  ∀ sectionName keyName,
    iniGet (reload files ini) sectionName keyName =
      iniGet ini sectionName keyName

theorem valuesSurvive_iff_of_readBack (files : Files) (ini : INIFile)
    (safe : SafeStore ini) (readBack : LinesReadBack ini) :
    ValuesSurvive files ini ↔ Unambiguous (view ini) := by
  unfold ValuesSurvive Unambiguous
  simp only [iniGet_reload files ini safe readBack, iniGet_eq_firstValue]

/-! ## Stores without repeated names -/

/-- No name is repeated, also after the blanks that a cut to the field size
may have left at its end are trimmed. -/
structure DistinctNames (ini : INIFile) : Prop where
  sections : (ini.sections.map fun current =>
    trimWhitespace current.name.text).Nodup
  keys : ∀ current ∈ ini.sections,
    (current.keys.map fun key => trimWhitespace key.key.text).Nodup

def LinesFit (ini : INIFile) : Prop :=
  ∀ current ∈ ini.sections, ∀ key ∈ current.keys,
    (keyLine key).length < maxLineLength

/-- The lines of the sections that hold keys carry their names and values; the
header of a section without keys carries no value. -/
def KeyedLinesKept (ini : INIFile) : Prop :=
  ∀ current ∈ ini.sections, current.keys ≠ [] →
    HeaderKept current ∧ ∀ key ∈ current.keys, KeyKept key

theorem headerReadsBack_iff (current : Section)
    (shaped : ShapedName current.name.text) :
    HeaderReadsBack current ↔ HeaderKept current := by
  rw [HeaderReadsBack, lineItem_header current shaped, carriedHeader_iff]

theorem keyReadsBack_iff (key : KeyValue) (safe : SafeKey key)
    (shaped : ShapedKey key) (silent : lineItem (overrun key) = none) :
    KeyReadsBack key ↔ KeyKept key := by
  rw [KeyReadsBack, keyItems_eq_carried key safe shaped, carriedKey, silent,
    KeyKept, ← carriedValue_iff key shaped.valueStart]
  cases carriedValue key with
  | none => simp
  | some value => simp

theorem silent_of_fits (key : KeyValue)
    (fits : (keyLine key).length < maxLineLength) :
    lineItem (overrun key) = none := by
  have none : overrun key = [] := by
    by_contra further
    have full := (length_bufferLine key).2 further
    have some := List.length_pos_iff.mpr further
    rw [keyLine_split, List.length_append] at fits
    rw [maxLineLength] at full fits
    omega
  rw [none]
  rfl

def readKey (key : KeyValue) : Option (Text × Text) :=
  match lineItem (keyLine key) with
  | some (.entry keyName value) => some (keyName, value)
  | _ => none

def readSection (current : Section) : Option (Text × List (Text × Text)) :=
  match lineItem (sectionLine current) with
  | some (.header sectionName) =>
      some (sectionName, current.keys.filterMap readKey)
  | _ => none

theorem readKey_eq_some_iff (key : KeyValue) (pair : Text × Text) :
    readKey key = some pair ↔
      lineItem (keyLine key) = some (.entry pair.1 pair.2) := by
  obtain ⟨keyName, value⟩ := pair
  rw [readKey]
  cases lineItem (keyLine key) with
  | none => simp
  | some item => cases item <;> simp

theorem readKey_items (key : KeyValue) (safe : SafeKey key)
    (shaped : ShapedKey key) (fits : (keyLine key).length < maxLineLength) :
    keyItems key = (readKey key).toList.map entryItem := by
  rw [keyItems_of_fits key safe fits, readKey]
  rcases lineItem_keyLine key shaped with ⟨lost, -⟩ | ⟨part, -, read⟩
  · rw [lost]
    rfl
  · rw [read]
    rfl

theorem readKey_name (key : KeyValue) (shaped : ShapedKey key)
    (pair : Text × Text) (read : readKey key = some pair) :
    pair.1 = trimWhitespace key.key.text := by
  rw [readKey] at read
  rcases lineItem_keyLine key shaped with ⟨lost, -⟩ | ⟨part, -, entry⟩
  · rw [lost] at read
    contradiction
  · rw [entry] at read
    cases Option.some.inj read
    rfl

theorem readSection_some (current : Section)
    (shaped : ShapedName current.name.text)
    (block : Text × List (Text × Text))
    (read : readSection current = some block) :
    block = (trimWhitespace current.name.text,
      current.keys.filterMap readKey) := by
  rw [readSection] at read
  rcases lineItem_sectionLine current shaped with lost | header
  · rw [lost] at read
    contradiction
  · rw [header] at read
    exact (Option.some.inj read).symm

theorem map_filterMap_sublist {Node Image Label : Type}
    (read : Node → Option Image) (imageLabel : Image → Label)
    (nodeLabel : Node → Label) (nodes : List Node)
    (agree : ∀ node ∈ nodes, ∀ image, read node = some image →
      imageLabel image = nodeLabel node) :
    ((nodes.filterMap read).map imageLabel).Sublist
      (nodes.map nodeLabel) := by
  induction nodes with
  | nil => simp
  | cons node nodes ih =>
      have tail := ih fun other member =>
        agree other (List.mem_cons_of_mem _ member)
      rw [List.map_cons, List.filterMap_cons]
      cases found : read node with
      | none => exact tail.cons _
      | some image =>
          rw [List.map_cons,
            agree node (List.mem_cons_self ..) image found]
          exact tail.cons_cons _

section Distinct
variable (ini : INIFile) (loaded : LoadedStore ini)
  (distinct : DistinctNames ini) (fits : LinesFit ini)

include loaded distinct in
theorem readSections_distinct :
    ((ini.sections.filterMap readSection).map Prod.fst).Nodup ∧
      ∀ block ∈ ini.sections.filterMap readSection,
        (block.2.map Prod.fst).Nodup := by
  refine ⟨(map_filterMap_sublist readSection Prod.fst _ ini.sections
    ?_).nodup distinct.sections, ?_⟩
  · intro current member block read
    rw [readSection_some current (loaded.names current member) block read]
  · intro block member
    obtain ⟨current, inside, read⟩ := List.mem_filterMap.mp member
    rw [readSection_some current (loaded.names current inside) block read]
    exact (map_filterMap_sublist readKey Prod.fst _ current.keys
      fun key keyMember pair => readKey_name key
        (loaded.shaped current inside key keyMember) pair).nodup
          (distinct.keys current inside)

include distinct in
theorem view_distinct :
    ((view ini).map Prod.fst).Nodup ∧
      ∀ block ∈ view ini, (block.2.map Prod.fst).Nodup := by
  refine ⟨?_, ?_⟩
  · have names := List.Nodup.of_map trimWhitespace
      (l := ini.sections.map fun current => current.name.text)
      (by simpa [List.map_map, Function.comp_def] using distinct.sections)
    simpa [view, List.map_map, Function.comp_def, sectionView] using names
  · intro block member
    obtain ⟨current, inside, rfl⟩ := List.mem_map.mp member
    have keys := List.Nodup.of_map trimWhitespace
      (l := current.keys.map fun key => key.key.text)
      (by simpa [List.map_map, Function.comp_def] using
        distinct.keys current inside)
    simpa [sectionView, List.map_map, Function.comp_def, keyView] using keys

include loaded fits in
theorem keyItems_readKeys (current : Section)
    (member : current ∈ ini.sections) :
    current.keys.flatMap keyItems =
      (current.keys.filterMap readKey).map entryItem := by
  rw [List.filterMap_eq_flatMap_toList, List.map_flatMap]
  exact List.flatMap_congr fun key inside =>
    readKey_items key ((loaded.sections current member).keys key inside)
      (loaded.shaped current member key inside) (fits current member key inside)

include loaded fits in
/-- When no section with keys loses its header, the saved text reads as the
sections that `readSection` gives, one after the other. -/
theorem savedItems_readSections
    (headers : ∀ current ∈ ini.sections, current.keys ≠ [] →
      HeaderReadsBack current) :
    ini.sections.flatMap savedSectionItems =
      items (ini.sections.filterMap readSection) := by
  rw [items, List.filterMap_eq_flatMap_toList, List.flatMap_assoc]
  apply List.flatMap_congr
  intro current member
  rcases lineItem_sectionLine current (loaded.names current member) with
    lost | header
  · have empty : current.keys = [] := by
      by_contra keyed
      have kept := headers current member keyed
      rw [HeaderReadsBack, lost] at kept
      contradiction
    simp [savedSectionItems, readSection, lost, empty]
  · simp [savedSectionItems, readSection, header, sectionItems,
      keyItems_readKeys ini loaded fits current member]

include loaded distinct fits in
/-- The lookups of the reloaded store, for as long as no section with keys
loses its header. -/
theorem iniGet_reload_iff (files : Files)
    (headers : ∀ current ∈ ini.sections, current.keys ≠ [] →
      HeaderReadsBack current)
    (sectionName keyName value : Text) :
    iniGet (reload files ini) sectionName keyName = some value ↔
      ∃ current ∈ ini.sections, ∃ key ∈ current.keys,
        readSection current =
          some (sectionName, current.keys.filterMap readKey) ∧
        readKey key = some (keyName, value) := by
  obtain ⟨names, keys⟩ := readSections_distinct ini loaded distinct
  have mirrored := unambiguous_of_nodup _ names keys sectionName keyName
  rw [iniGet_eq_firstValue, view_reload files ini loaded.toSafeStore,
    savedItems_readSections ini loaded fits headers, build_items,
    ← lastValue, mirrored, firstValue_eq_some_iff _ names keys]
  constructor
  · intro stored
    obtain ⟨entries, outer, inner⟩ := stored
    obtain ⟨current, member, read⟩ := List.mem_filterMap.mp outer
    have shape := readSection_some current (loaded.names current member) _ read
    rw [Prod.mk.injEq] at shape
    rw [shape.2] at inner read
    obtain ⟨key, keyMember, keyRead⟩ := List.mem_filterMap.mp inner
    exact ⟨current, member, key, keyMember, read, keyRead⟩
  · intro written
    obtain ⟨current, member, key, keyMember, read, keyRead⟩ := written
    exact ⟨_, List.mem_filterMap.mpr ⟨current, member, read⟩,
      List.mem_filterMap.mpr ⟨key, keyMember, keyRead⟩⟩

include distinct in
theorem iniGet_iff (sectionName keyName value : Text) :
    iniGet ini sectionName keyName = some value ↔
      ∃ current ∈ ini.sections, ∃ key ∈ current.keys,
        current.name.text = sectionName ∧
        keyView key = (keyName, value) := by
  obtain ⟨names, keys⟩ := view_distinct ini distinct
  rw [iniGet_eq_firstValue, firstValue_eq_some_iff _ names keys]
  constructor
  · intro stored
    obtain ⟨entries, outer, inner⟩ := stored
    obtain ⟨current, member, same⟩ := List.mem_map.mp outer
    rw [sectionView, Prod.mk.injEq] at same
    rw [← same.2] at inner
    obtain ⟨key, keyMember, keySame⟩ := List.mem_map.mp inner
    exact ⟨current, member, key, keyMember, same.1, keySame⟩
  · intro listed
    obtain ⟨current, member, key, keyMember, named, keySame⟩ := listed
    exact ⟨current.keys.map keyView,
      List.mem_map.mpr ⟨current, member, by rw [sectionView, named]⟩,
      List.mem_map.mpr ⟨key, keyMember, keySame⟩⟩

include distinct in
/-- Trimming does not make two sections of one name. -/
theorem section_of_trimmed (current other : Section)
    (member : current ∈ ini.sections) (otherMember : other ∈ ini.sections)
    (trimmed : current.name.text = trimWhitespace other.name.text) :
    other = current := by
  have sameTrim : trimWhitespace other.name.text =
      trimWhitespace current.name.text := by
    rw [trimmed, trimWhitespace, trimWhitespace, trim_idempotent]
  exact List.inj_on_of_nodup_map distinct.sections otherMember member sameTrim

include distinct in
theorem key_of_trimmed (current : Section) (member : current ∈ ini.sections)
    (key source : KeyValue) (keyMember : key ∈ current.keys)
    (sourceMember : source ∈ current.keys)
    (trimmed : key.key.text = trimWhitespace source.key.text) :
    source = key := by
  have sameTrim : trimWhitespace source.key.text =
      trimWhitespace key.key.text := by
    rw [trimmed, trimWhitespace, trimWhitespace, trim_idempotent]
  exact List.inj_on_of_nodup_map (distinct.keys current member) sourceMember
    keyMember sameTrim

include loaded distinct fits in
/-- A section whose values survive keeps its header line. -/
theorem header_readsBack_of_survive (files : Files)
    (survive : ValuesSurvive files ini) (current : Section)
    (member : current ∈ ini.sections) (keyed : current.keys ≠ []) :
    HeaderReadsBack current := by
  obtain ⟨key, rest, chain⟩ := List.exists_cons_of_ne_nil keyed
  have stored := (iniGet_iff ini distinct current.name.text key.key.text
    key.value.text).mpr ⟨current, member, key, by simp [chain], rfl, rfl⟩
  rw [← survive, iniGet_eq_firstValue,
    view_reload files ini loaded.toSafeStore] at stored
  obtain ⟨entries, outer, -⟩ := mem_of_firstValue _ _ _ _ stored
  have header := header_of_mem_build _ _ outer
  obtain ⟨other, otherMember, itemMember⟩ := List.mem_flatMap.mp header
  rcases List.mem_append.mp itemMember with own | keyHeader
  · rcases lineItem_sectionLine other (loaded.names other otherMember) with
      lost | read
    · simp [lost] at own
    · have trimmed : current.name.text = trimWhitespace other.name.text := by
        simpa [read] using own
      cases section_of_trimmed ini distinct current other member otherMember
        trimmed
      rw [HeaderReadsBack, read, ← trimmed]
  · rw [keyItems_readKeys ini loaded fits other otherMember] at keyHeader
    obtain ⟨pair, -, clash⟩ := List.mem_map.mp keyHeader
    simp [entryItem] at clash

include loaded distinct fits in
/-- A key whose value survives keeps its line. -/
theorem key_readsBack_of_survive (files : Files)
    (survive : ValuesSurvive files ini) (current : Section)
    (member : current ∈ ini.sections) (key : KeyValue)
    (keyMember : key ∈ current.keys) : KeyReadsBack key := by
  have headers := header_readsBack_of_survive ini loaded distinct fits files
    survive
  have stored := (iniGet_iff ini distinct current.name.text key.key.text
    key.value.text).mpr ⟨current, member, key, keyMember, rfl, rfl⟩
  rw [← survive, iniGet_reload_iff ini loaded distinct fits files headers]
    at stored
  obtain ⟨other, otherMember, source, sourceMember, read, keyRead⟩ := stored
  have otherName := readSection_some other (loaded.names other otherMember)
    _ read
  rw [Prod.mk.injEq] at otherName
  cases section_of_trimmed ini distinct current other member otherMember
    otherName.1
  have keyName : key.key.text = trimWhitespace source.key.text :=
    readKey_name source
      (loaded.shaped current member source sourceMember) _ keyRead
  cases key_of_trimmed ini distinct current member key source keyMember
    sourceMember keyName
  rw [KeyReadsBack, readKey_items key
    ((loaded.sections current member).keys key keyMember)
    (loaded.shaped current member key keyMember)
    (fits current member key keyMember), keyRead]
  rfl

theorem readSection_of_readBack (current : Section)
    (header : HeaderReadsBack current) :
    readSection current =
      some (current.name.text, current.keys.filterMap readKey) := by
  rw [HeaderReadsBack] at header
  rw [readSection, header]

theorem readKey_of_readBack (key : KeyValue) (safe : SafeKey key)
    (shaped : ShapedKey key) (lineFits : (keyLine key).length < maxLineLength)
    (back : KeyReadsBack key) : readKey key = some (keyView key) := by
  rw [KeyReadsBack, readKey_items key safe shaped lineFits] at back
  cases read : readKey key with
  | none => simp [read] at back
  | some pair =>
      obtain ⟨keyName, value⟩ := pair
      simpa [read, entryItem, keyView] using back

include loaded distinct fits in
theorem survive_of_readBack (files : Files)
    (headers : ∀ current ∈ ini.sections, current.keys ≠ [] →
      HeaderReadsBack current)
    (keys : ∀ current ∈ ini.sections, ∀ key ∈ current.keys,
      KeyReadsBack key) : ValuesSurvive files ini := by
  intro sectionName keyName
  apply Option.ext
  intro value
  rw [iniGet_reload_iff ini loaded distinct fits files headers,
    iniGet_iff ini distinct]
  have each : ∀ current ∈ ini.sections, ∀ key ∈ current.keys,
      (readSection current =
          some (sectionName, current.keys.filterMap readKey) ∧
        readKey key = some (keyName, value)) ↔
      (current.name.text = sectionName ∧
        keyView key = (keyName, value)) := by
    intro current member key keyMember
    rw [readSection_of_readBack current
        (headers current member (List.ne_nil_of_mem keyMember)),
      readKey_of_readBack key ((loaded.sections current member).keys key
          keyMember) (loaded.shaped current member key keyMember)
        (fits current member key keyMember)
        (keys current member key keyMember)]
    simp
  constructor
  · intro written
    obtain ⟨current, member, key, keyMember, facts⟩ := written
    exact ⟨current, member, key, keyMember,
      (each current member key keyMember).mp facts⟩
  · intro listed
    obtain ⟨current, member, key, keyMember, facts⟩ := listed
    exact ⟨current, member, key, keyMember,
      (each current member key keyMember).mpr facts⟩

include loaded distinct fits in
/-- Without repeated names and with lines that fit, every value survives
exactly when the lines of all sections with keys carry what they should. -/
theorem valuesSurvive_iff_of_distinct (files : Files) :
    ValuesSurvive files ini ↔ KeyedLinesKept ini := by
  have keyLines : ∀ current ∈ ini.sections, ∀ key ∈ current.keys,
      (KeyReadsBack key ↔ KeyKept key) :=
    fun current member key keyMember => keyReadsBack_iff key
      ((loaded.sections current member).keys key keyMember)
      (loaded.shaped current member key keyMember)
      (silent_of_fits key (fits current member key keyMember))
  have headerLines : ∀ current ∈ ini.sections,
      (HeaderReadsBack current ↔ HeaderKept current) :=
    fun current member =>
      headerReadsBack_iff current (loaded.names current member)
  constructor
  · intro survive current member keyed
    refine ⟨(headerLines current member).mp (header_readsBack_of_survive ini
      loaded distinct fits files survive current member keyed), ?_⟩
    intro key keyMember
    exact (keyLines current member key keyMember).mp (key_readsBack_of_survive
      ini loaded distinct fits files survive current member key keyMember)
  · intro kept
    apply survive_of_readBack ini loaded distinct fits files
    · intro current member keyed
      exact (headerLines current member).mpr (kept current member keyed).1
    · intro current member key keyMember
      exact (keyLines current member key keyMember).mpr
        ((kept current member (List.ne_nil_of_mem keyMember)).2 key keyMember)

end Distinct

/-! ## The rewrite of a loaded file -/

/-- Every line carries what it was written for, and nothing is read from what
overruns the line buffer. -/
def LinesKept (ini : INIFile) : Prop :=
  ∀ current ∈ ini.sections, HeaderKept current ∧
    ∀ key ∈ current.keys, KeyKept key ∧ lineItem (overrun key) = none

instance (ini : INIFile) : Decidable (LinesKept ini) :=
  inferInstanceAs (Decidable (∀ current ∈ ini.sections, HeaderKept current ∧
    ∀ key ∈ current.keys, KeyKept key ∧ lineItem (overrun key) = none))

theorem linesReadBack_of_kept (ini : INIFile) (loaded : LoadedStore ini)
    (kept : LinesKept ini) : LinesReadBack ini := by
  intro current member
  obtain ⟨header, keys⟩ := kept current member
  refine ⟨(headerReadsBack_iff current (loaded.names current member)).mpr
    header, ?_⟩
  intro key keyMember
  obtain ⟨carried, silent⟩ := keys key keyMember
  exact (keyReadsBack_iff key
    ((loaded.sections current member).keys key keyMember)
    (loaded.shaped current member key keyMember) silent).mpr carried

/-- All values survive a rewrite exactly when the last of the lines that carry
a name carries the value of its first entry.  When every line carries what it
was written for, that means that no repeated name has two values; when no name
is repeated and no line overruns the line buffer, that no mark, quote or blank
of a name or a value gets in the way. -/
theorem values_survive_rewrite_iff (files : Files) (path : Text) :
    (ValuesSurvive files (iniLoad files path) ↔
      ∀ sectionName keyName, lastRead sectionName keyName
          (carriedLines (iniLoad files path)) =
        iniGet (iniLoad files path) sectionName keyName) ∧
    (LinesKept (iniLoad files path) →
      (ValuesSurvive files (iniLoad files path) ↔
        Unambiguous (view (iniLoad files path)))) ∧
    (DistinctNames (iniLoad files path) → LinesFit (iniLoad files path) →
      (ValuesSurvive files (iniLoad files path) ↔
        KeyedLinesKept (iniLoad files path))) := by
  have loaded := iniLoad_loaded files path
  refine ⟨?_, ?_, ?_⟩
  · rw [ValuesSurvive, ← savedItems_eq_carried _ loaded]
    simp only [iniGet_reload_eq files _ loaded.toSafeStore]
  · intro kept
    exact valuesSurvive_iff_of_readBack files _ loaded.toSafeStore
      (linesReadBack_of_kept _ loaded kept)
  · intro distinct fits
    exact valuesSurvive_iff_of_distinct _ loaded distinct fits files

/-- A `plugins.ini` with two sections and an inline comment. -/
def commentedFile : Files :=
  singleFile (ascii "p.ini")
    (ascii "[all]\na = 1 ; on\nb=0\n[CUSA00001]\nc=yes\n")

theorem values_survive_commentedFile :
    ValuesSurvive commentedFile (iniLoad commentedFile (ascii "p.ini")) :=
  ((values_survive_rewrite_iff commentedFile (ascii "p.ini")).2.1
    (by decide)).mpr (unambiguous_of_nodup _ (by decide) (by decide))

/-- `k=1` before `k=2`: the load finds 2, the load after a save finds 1. -/
def repeatedKeyFile : Files :=
  singleFile (ascii "p.ini") (ascii "[a]\nk=1\nk=2\n")

theorem repeatedKey_changes_value :
    iniGet (iniLoad repeatedKeyFile (ascii "p.ini")) (ascii "a") (ascii "k") =
        some (ascii "2") ∧
      iniGet (reload repeatedKeyFile
          (iniLoad repeatedKeyFile (ascii "p.ini"))) (ascii "a") (ascii "k") =
        some (ascii "1") := by
  decide

end HenPlugins.Ini.Rewrite
