import HenPlugins.Ini.StoreMap

/-!
# Setting an entry twice

`find_section` and `find_key` compare whole names, `create_section` and
`create_key` store names cut to their fields.  A name that was cut is not found
again, and the second call creates the entry once more.
-/

set_option autoImplicit false

namespace HenPlugins.Ini.SetTwice

open HenPlugins.Lib.ByteText
open HenPlugins.Lib.FirstMatch
open HenPlugins.Lib.LabelledChain
open HenPlugins.Ini.Store
open HenPlugins.Ini.Load
open HenPlugins.Ini.SetEntry
open HenPlugins.Ini.StoreMap

/-- The second of two equal calls changes nothing, and the first has changed
the value of its own entry only. -/
structure SetsOnce (ini : INIFile) (sectionName keyName value : Text) :
    Prop where
  again : iniSet (iniSet ini sectionName keyName value).1 sectionName keyName
    value = iniSet ini sectionName keyName value
  others : ∀ otherSection otherKey,
    (otherSection, otherKey) ≠ (sectionName, keyName) →
      iniGet (iniSet ini sectionName keyName value).1 otherSection otherKey =
        iniGet ini otherSection otherKey

section Chains
variable (keyName value : Text) (comment : Option Text)

theorem setInSection_keys (current : Section) :
    setInSection keyName value comment current =
      { current with
        keys := updateOrInsert (keyNamed keyName) (writeKey value comment)
          (newKey keyName) current.keys } := by
  rw [setInSection, updateOrInsert, ← findKey]
  cases findKey current keyName <;> rfl

theorem setEntry_sections (ini : INIFile) (sectionName : Text) :
    setEntry ini sectionName keyName value comment =
      { ini with
        sections := updateOrInsert (sectionNamed sectionName)
          (setInSection keyName value comment) (newSection sectionName)
          ini.sections
        modified := true } := by
  rw [setEntry, updateOrInsert, ← findSection]
  cases findSection ini sectionName <;> rfl

theorem writeKey_settles :
    Settles (keyNamed keyName) (writeKey value comment) := by
  refine ⟨?_, ?_⟩
  · intro key named
    rw [keyNamed, writeKey_key]
    exact named
  · intro key
    cases comment <;> rfl

theorem setInSection_settles (sectionName : Text)
    (fits : nameFits keyName) :
    Settles (sectionNamed sectionName)
      (setInSection keyName value comment) := by
  refine ⟨?_, ?_⟩
  · intro current named
    rw [sectionNamed, setInSection_name]
    exact named
  · intro current
    have freshNamed : keyNamed keyName (newKey keyName) = true := by
      rw [keyNamed, newKey_text keyName fits]
      exact beq_self_eq_true keyName
    rw [setInSection_keys, setInSection_keys]
    simp only
    rw [updateOrInsert_twice _ _ _ _ (writeKey_settles keyName value comment)
      freshNamed]

theorem setEntry_twice (ini : INIFile) (sectionName : Text)
    (sectionFits : nameFits sectionName) (keyFits : nameFits keyName) :
    setEntry (setEntry ini sectionName keyName value comment) sectionName
        keyName value comment =
      setEntry ini sectionName keyName value comment := by
  have freshNamed :
      sectionNamed sectionName (newSection sectionName) = true := by
    rw [sectionNamed, newSection_text sectionName sectionFits]
    exact beq_self_eq_true sectionName
  rw [setEntry_sections, setEntry_sections]
  simp only
  rw [updateOrInsert_twice _ _ _ _
    (setInSection_settles keyName value comment sectionName keyFits)
    freshNamed]

theorem iniGet_setEntry_other (ini : INIFile) (sectionName : Text)
    (sectionFits : nameFits sectionName) (keyFits : nameFits keyName)
    (otherSection otherKey : Text)
    (differ : (otherSection, otherKey) ≠ (sectionName, keyName)) :
    iniGet (setEntry ini sectionName keyName value comment) otherSection
        otherKey =
      iniGet ini otherSection otherKey := by
  rw [iniGet_eq_get, iniGet_eq_get,
    storeMap_setEntry ini sectionName keyName value comment sectionFits
      keyFits]
  exact TwoLevelMap.get_set_other _ _ _ _ _ _ differ

/-- What is stored is shorter than a name that does not fit. -/
theorem setInSection_grows (current : Section) (cut : ¬ nameFits keyName) :
    (setInSection keyName value comment current).keys.length =
      current.keys.length + 1 := by
  have unnamed : ∀ key ∈ current.keys, keyNamed keyName key = false := by
    intro key _
    rw [keyNamed, beq_eq_false_iff_ne]
    intro same
    have fits := key.key.fits
    rw [same, maxKeyLength] at fits
    exact cut (Nat.le_of_lt_succ fits)
  rw [setInSection_keys, updateOrInsert_of_clear _ _ _ _ unnamed]
  rfl

theorem setEntry_grows (ini : INIFile) (sectionName : Text)
    (cut : ¬ nameFits sectionName) :
    (setEntry ini sectionName keyName value comment).sections.length =
      ini.sections.length + 1 := by
  have unnamed : ∀ current ∈ ini.sections,
      sectionNamed sectionName current = false := by
    intro current _
    rw [sectionNamed, beq_eq_false_iff_ne]
    intro same
    have fits := current.name.fits
    rw [same, maxSectionLength] at fits
    exact cut (Nat.le_of_lt_succ fits)
  rw [setEntry_sections, updateOrInsert_of_clear _ _ _ _ unnamed]
  rfl

def keyCount (ini : INIFile) : Nat :=
  (ini.sections.flatMap Section.keys).length

theorem setEntry_keyCount (ini : INIFile) (sectionName : Text)
    (cut : ¬ nameFits keyName) :
    keyCount (setEntry ini sectionName keyName value comment) =
      keyCount ini + 1 := by
  rw [setEntry_sections]
  exact length_flatMap_updateOrInsert (sectionNamed sectionName)
    (setInSection keyName value comment) (newSection sectionName)
    ini.sections Section.keys 1 rfl
    fun current => setInSection_grows keyName value comment current cut

end Chains

section Stores
variable (ini : INIFile) (sectionName keyName value : Text)

theorem setsOnce_of_fits (sectionFits : nameFits sectionName)
    (keyFits : nameFits keyName) :
    SetsOnce ini sectionName keyName value := by
  refine ⟨?_, ?_⟩
  · exact congrArg (fun store => (store, (1 : Int)))
      (setEntry_twice keyName value none ini sectionName sectionFits keyFits)
  · exact iniGet_setEntry_other keyName value none ini sectionName
      sectionFits keyFits

theorem fits_of_setsOnce (once : SetsOnce ini sectionName keyName value) :
    nameFits sectionName ∧ nameFits keyName := by
  have same := congrArg Prod.fst once.again
  refine ⟨?_, ?_⟩
  · by_contra cut
    have grown := setEntry_grows keyName value none
      (iniSet ini sectionName keyName value).1 sectionName cut
    have length := congrArg (fun store => store.sections.length) same
    exact absurd (length.symm.trans grown) (Nat.succ_ne_self _).symm
  · by_contra cut
    have grown := setEntry_keyCount keyName value none
      (iniSet ini sectionName keyName value).1 sectionName cut
    have count := congrArg keyCount same
    exact absurd (count.symm.trans grown) (Nat.succ_ne_self _).symm

/-- In every store, whatever calls have led to it, setting twice is setting
once if and only if both names fit their fields. -/
theorem setsOnce_iff :
    SetsOnce ini sectionName keyName value ↔
      nameFits sectionName ∧ nameFits keyName :=
  ⟨fits_of_setsOnce ini sectionName keyName value,
    fun fits => setsOnce_of_fits ini sectionName keyName value fits.1 fits.2⟩

end Stores

/-- The path of a plugin whose file name is of `count` letters and `.prx`. -/
def pluginPath (count : Nat) : Text :=
  ascii "/data/hen/plugins/" ++ List.replicate count 'a'.toUInt8 ++
    ascii ".prx"

theorem length_pluginPath (count : Nat) :
    (pluginPath count).length = count + 22 := by
  simp [pluginPath, ascii]

/-- A file name of 238 bytes, in the section of every title. -/
theorem longPath_not_setsOnce :
    ¬ ∀ (files : Files) (path sectionName keyName value : Text),
      SetsOnce (iniLoad files path) sectionName keyName value := by
  intro always
  have once := always (fun _ => none) (ascii "/data/hen/plugins.ini")
    (ascii "default") (pluginPath 234) (ascii "1")
  have fits := (fits_of_setsOnce _ _ _ _ once).2
  rw [nameFits, length_pluginPath] at fits
  omega

end HenPlugins.Ini.SetTwice
