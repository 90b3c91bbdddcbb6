import HenPlugins.Ini.SetEntry
import HenPlugins.Ini.Rewrite

/-!
# What a fresh load finds after `ini_set` and `ini_save`

The saved file is read from its end, so an entry that follows the written one
hides it.  When nothing follows, the lookup finds what the written line itself
is read as.
-/

set_option autoImplicit false

namespace HenPlugins.Ini.SetAndReload

open HenPlugins.Lib.ByteText
open HenPlugins.Lib.SectionedDocument
open HenPlugins.Ini.Text
open HenPlugins.Ini.Store
open HenPlugins.Ini.Load
open HenPlugins.Ini.Save
open HenPlugins.Ini.Loaded
open HenPlugins.Ini.WrittenLines
open HenPlugins.Ini.SetEntry
open HenPlugins.Ini.Rewrite

/-- The document with the given entries in the place of the target. -/
def Place.document (place : Place) (sectionName : Text)
    (entries : List (Text × Text)) : Document Text Text Text :=
  place.front.map sectionView ++
    (sectionName, place.keysFront.map keyView ++ entries ++
      place.keysBack.map keyView) :: place.back.map sectionView

section Located
variable {place : Place} {ini : INIFile} {sectionName keyName : Text}
  (located : place.Located ini sectionName keyName)

include located in
theorem view_sectionsWith (key : KeyValue) :
    (place.sectionsWith key).map sectionView =
      Place.document place sectionName [keyView key] := by
  simp [Place.sectionsWith, Place.homeWith, Place.document, sectionView,
    located.homeNamed]

theorem lookup_eq_none_of_clear (keys : List KeyValue)
    (clear : ∀ key ∈ keys, keyNamed keyName key = false) :
    (keys.map keyView).reverse.lookup keyName = none := by
  rw [List.lookup_eq_none_iff]
  intro pair member
  rw [List.mem_reverse] at member
  obtain ⟨key, inside, rfl⟩ := List.mem_map.mp member
  have unnamed := clear key inside
  simpa [keyView] using fun clash : keyName = key.key.text => by
    simp [keyNamed, clash] at unnamed

theorem later_of_named (named : ∃ current ∈ place.back,
      sectionNamed sectionName current = true) :
    ∃ block ∈ place.back.map sectionView, block.1 = sectionName := by
  obtain ⟨current, member, same⟩ := named
  exact ⟨sectionView current, List.mem_map_of_mem member,
    by simpa [sectionNamed, sectionView] using same⟩

theorem no_later_of_clear (clear : ∀ current ∈ place.back,
      sectionNamed sectionName current = false) :
    ∀ block ∈ place.back.map sectionView, block.1 ≠ sectionName := by
  intro block member
  obtain ⟨current, inside, rfl⟩ := List.mem_map.mp member
  have unnamed := clear current inside
  simpa [sectionNamed, sectionView] using unnamed

include located in
theorem lastValue_of_sole (entries : List (Text × Text))
    (sole : SoleEntry ini sectionName keyName) :
    lastValue (Place.document place sectionName entries) sectionName keyName =
      entries.reverse.lookup keyName := by
  obtain ⟨noBack, noKeysBack⟩ := located.soleEntry_iff.mp sole
  rw [Place.document, lastValue_of_no_later _ _ _ _ _ (no_later_of_clear noBack),
    lookup_reverse_append, lookup_reverse_append,
    lookup_eq_none_of_clear _ noKeysBack,
    lookup_eq_none_of_clear _ located.keysFrontClear]
  simp

theorem lookup_ne_none_of_hidden (keys : List KeyValue)
    (hidden : ¬ ∀ key ∈ keys, keyNamed keyName key = false) :
    (keys.map keyView).reverse.lookup keyName ≠ none := by
  intro absent
  rw [List.lookup_eq_none_iff] at absent
  apply hidden
  intro key member
  have unnamed := absent (keyView key)
    (List.mem_reverse.mpr (List.mem_map_of_mem member))
  simpa [keyNamed] using fun clash : key.key.text = keyName => by
    simp [keyView, clash] at unnamed

include located in
/-- The last section of the name, or the last key of the home section, is the
same whatever stands in the place of the target. -/
theorem lastValue_document_congr (left right : List (Text × Text))
    (repeated : ¬ SoleEntry ini sectionName keyName) :
    lastValue (Place.document place sectionName left) sectionName keyName =
      lastValue (Place.document place sectionName right) sectionName
        keyName := by
  by_cases noBack : ∀ current ∈ place.back,
      sectionNamed sectionName current = false
  · have found := lookup_ne_none_of_hidden place.keysBack fun noKeysBack =>
      repeated (located.soleEntry_iff.mpr ⟨noBack, noKeysBack⟩)
    rw [Place.document, Place.document,
      lastValue_of_no_later _ _ _ _ _ (no_later_of_clear noBack),
      lastValue_of_no_later _ _ _ _ _ (no_later_of_clear noBack),
      lookup_reverse_append _ (place.keysBack.map keyView),
      lookup_reverse_append _ (place.keysBack.map keyView)]
    cases seen : (place.keysBack.map keyView).reverse.lookup keyName with
    | none => exact absurd seen found
    | some value => rfl
  · have named : ∃ current ∈ place.back,
        sectionNamed sectionName current = true := by
      simpa using noBack
    have later := later_of_named named
    have regroup : ∀ entries, Place.document place sectionName entries =
        (place.front.map sectionView ++ [(sectionName,
          place.keysFront.map keyView ++ entries ++
            place.keysBack.map keyView)]) ++
          place.back.map sectionView := by
      intro entries
      simp [Place.document]
    rw [regroup left, regroup right, lastValue_of_later _ _ _ _ later,
      lastValue_of_later _ _ _ _ later]

include located in
theorem lastValue_of_not_sole (entries : List (Text × Text))
    (repeated : ¬ SoleEntry ini sectionName keyName) :
    lastValue (Place.document place sectionName entries) sectionName keyName =
      lastValue (view ini) sectionName keyName := by
  cases located.origin with
  | entry chain =>
      rw [view, chain, view_sectionsWith located]
      exact lastValue_document_congr located _ _ repeated
  | freshKey chain noKeysFront =>
      have before : view ini = Place.document place sectionName [] := by
        simp [view, chain, Place.document, noKeysFront, sectionView,
          located.homeNamed]
      rw [before]
      exact lastValue_document_congr located _ _ repeated
  | freshSection chain noFront home noKeysFront noKeysBack target noSection =>
      have sole := located.soleEntry_iff.mpr ⟨noSection, by simp [noKeysBack]⟩
      exact absurd sole repeated

end Located

section ReadBack
variable {place : Place} {ini : INIFile} {sectionName keyName : Text}
  (located : place.Located ini sectionName keyName)
  (readBack : LinesReadBack ini)

theorem sectionLine_congr (left right : Section)
    (name : left.name = right.name) (comment : left.comment = right.comment) :
    sectionLine left = sectionLine right := by
  rw [sectionLine, sectionLine, name, comment]

include located readBack in
theorem home_header (newHeader : lineItem (sectionLine
      (newSection sectionName)) = some (.header sectionName))
    (key : KeyValue) :
    lineItem (sectionLine (place.homeWith key)) =
      some (.header sectionName) := by
  rcases located.home_mem with ⟨before, member, name, comment, -⟩ | ⟨fresh, -⟩
  · have header := (readBack before member).1
    rw [HeaderReadsBack, sectionLine_congr before (place.homeWith key) name
      comment, name, located.homeNamed] at header
    exact header
  · rw [sectionLine_congr (place.homeWith key) (newSection sectionName)
      (by rw [Place.homeWith, fresh]) (by rw [Place.homeWith, fresh])]
    exact newHeader

include located readBack in
theorem home_keys_readBack (key : KeyValue)
    (member : key ∈ place.keysFront ∨ key ∈ place.keysBack) :
    KeyReadsBack key := by
  rcases located.home_mem with ⟨before, listed, -, -, -, keys, -⟩ |
    ⟨-, noFront, noBack, -⟩
  · exact (readBack before listed).2 key (keys key member)
  · simp [noFront, noBack] at member

include located readBack in
/-- The saved text reads as the document with whatever the written line is
read as in its place. -/
theorem sectionsWith_items (newHeader : lineItem (sectionLine
      (newSection sectionName)) = some (.header sectionName))
    (key : KeyValue) (entries : List (Text × Text))
    (read : keyItems key = entries.map entryItem) :
    (place.sectionsWith key).flatMap savedSectionItems =
      items (Place.document place sectionName entries) := by
  have outer : ∀ current, current ∈ place.front ∨ current ∈ place.back →
      savedSectionItems current = sectionItems (sectionView current) := by
    intro current member
    have back := readBack current (located.outer_mem current member)
    exact savedSectionItems_readBack current back.1 back.2
  have keysRead : ∀ keys : List KeyValue,
      (∀ key ∈ keys, key ∈ place.keysFront ∨ key ∈ place.keysBack) →
      keys.flatMap keyItems = (keys.map keyView).map entryItem := by
    intro keys inside
    rw [List.map_map, List.map_eq_flatMap]
    exact List.flatMap_congr fun key member =>
      home_keys_readBack located readBack key (inside key member)
  have home : savedSectionItems (place.homeWith key) =
      sectionItems (sectionName, place.keysFront.map keyView ++ entries ++
        place.keysBack.map keyView) := by
    rw [savedSectionItems, home_header located readBack newHeader]
    simp only [Place.homeWith, List.flatMap_append, List.flatMap_cons]
    rw [keysRead place.keysFront fun key => Or.inl,
      keysRead place.keysBack fun key => Or.inr, read]
    simp [sectionItems]
  rw [Place.sectionsWith, Place.document, items, List.flatMap_append,
    List.flatMap_append, List.flatMap_cons, List.flatMap_cons, home,
    List.flatMap_map, List.flatMap_map]
  rw [List.flatMap_congr fun current member => outer current (Or.inl member),
    List.flatMap_congr fun current member => outer current (Or.inr member)]

include located readBack in
/-- With every old line intact, the lookup finds the written line when nothing
of its name follows it, and otherwise the value that follows. -/
theorem iniGet_reload_of_readBack (newHeader : lineItem (sectionLine
      (newSection sectionName)) = some (.header sectionName))
    (store : INIFile) (safe : SafeStore store) (key : KeyValue)
    (chain : store.sections = place.sectionsWith key)
    (reading : Option Text)
    (read : keyItems key =
      reading.toList.map fun value => .entry keyName value)
    (files : Files) :
    (SoleEntry ini sectionName keyName →
        iniGet (reload files store) sectionName keyName = reading) ∧
      (¬ SoleEntry ini sectionName keyName →
        iniGet (reload files store) sectionName keyName =
          lastValue (view ini) sectionName keyName) := by
  have entries : keyItems key =
      (reading.toList.map fun value => (keyName, value)).map entryItem := by
    rw [read, List.map_map]
    rfl
  have found : iniGet (reload files store) sectionName keyName =
      lastValue (Place.document place sectionName
        (reading.toList.map fun value => (keyName, value)))
        sectionName keyName := by
    rw [iniGet_eq_firstValue, view_reload files store safe, chain,
      sectionsWith_items located readBack newHeader key _ entries,
      build_items, lastValue]
  rw [found]
  refine ⟨?_, ?_⟩
  · intro sole
    rw [lastValue_of_sole located _ sole]
    cases reading with
    | none => rfl
    | some value => simp
  · intro repeated
    exact lastValue_of_not_sole located _ repeated

end ReadBack

section Distinct
variable {place : Place} {ini store : INIFile} {sectionName keyName : Text}
  (located : place.Located ini sectionName keyName) {key : KeyValue}
  (chain : store.sections = place.sectionsWith key)
  (named : key.key.text = keyName) (distinct : DistinctNames store)

include chain in
theorem homeWith_mem : place.homeWith key ∈ store.sections := by
  simp [chain, Place.sectionsWith]

theorem key_mem_homeWith : key ∈ (place.homeWith key).keys := by
  simp [Place.homeWith]

include located chain named distinct in
theorem soleEntry_of_distinct : SoleEntry ini sectionName keyName := by
  have names := distinct.sections
  have keys := distinct.keys _ (homeWith_mem chain)
  rw [chain, Place.sectionsWith, List.map_append, List.map_cons,
    List.nodup_append] at names
  rw [Place.homeWith, List.map_append, List.map_cons, List.nodup_append]
    at keys
  apply located.soleEntry_iff.mpr
  refine ⟨?_, ?_⟩
  · intro current member
    by_contra same
    have sameName : current.name.text = sectionName := by
      simpa [sectionNamed] using same
    apply (List.nodup_cons.mp names.2.1).1
    have listed := List.mem_map_of_mem
      (f := fun other : Section => trimWhitespace other.name.text) member
    rw [sameName] at listed
    rw [Place.homeWith, located.homeNamed]
    exact listed
  · intro other member
    by_contra same
    have sameName : other.key.text = keyName := by
      simpa [keyNamed] using same
    apply (List.nodup_cons.mp keys.2.1).1
    have listed := List.mem_map_of_mem
      (f := fun other : KeyValue => trimWhitespace other.key.text) member
    rw [sameName] at listed
    rw [named]
    exact listed

include located chain named distinct in
theorem iniGet_reload_of_distinct (loaded : LoadedStore store)
    (fits : LinesFit store)
    (headers : ∀ current ∈ store.sections, current.keys ≠ [] →
      HeaderReadsBack current)
    (sectionTrimmed : trimWhitespace sectionName = sectionName)
    (keyTrimmed : trimWhitespace keyName = keyName)
    (files : Files) (value : Text) :
    iniGet (reload files store) sectionName keyName = some value ↔
      readKey key = some (keyName, value) := by
  have homeMember := homeWith_mem chain
  have keyMember : key ∈ (place.homeWith key).keys := key_mem_homeWith
  rw [iniGet_reload_iff store loaded distinct fits files headers]
  constructor
  · intro written
    obtain ⟨current, member, other, otherMember, read, otherRead⟩ := written
    have sameSection : trimWhitespace current.name.text =
        trimWhitespace (place.homeWith key).name.text := by
      have block := readSection_some current (loaded.names current member) _
        read
      rw [Prod.mk.injEq] at block
      rw [Place.homeWith, located.homeNamed, sectionTrimmed]
      exact block.1.symm
    have here : current = place.homeWith key :=
      List.inj_on_of_nodup_map distinct.sections member homeMember sameSection
    subst here
    have sameKey : trimWhitespace other.key.text =
        trimWhitespace key.key.text := by
      rw [named, keyTrimmed]
      exact (readKey_name other (loaded.shaped _ member other otherMember) _
        otherRead).symm
    have same : other = key := List.inj_on_of_nodup_map
      (distinct.keys _ member) otherMember keyMember sameKey
    rw [← same]
    exact otherRead
  · intro read
    refine ⟨place.homeWith key, homeMember, key, keyMember, ?_, read⟩
    have header := headers _ homeMember (List.ne_nil_of_mem keyMember)
    rw [HeaderReadsBack] at header
    rw [readSection, header, Place.homeWith, located.homeNamed]

end Distinct

end HenPlugins.Ini.SetAndReload
