import HenPlugins.Ini.SetEntry
import HenPlugins.Ini.Rewrite
import HenPlugins.Lib.ItemStream

/-!
# The lines around an updated entry

The text that `ini_save` writes after `ini_set` consists of the lines of the
loaded store in their order and one line of the updated entry.  What a fresh
load finds depends on what those other lines are read as.
-/

set_option autoImplicit false

namespace HenPlugins.Ini.OtherLines

open HenPlugins.Lib.ByteText
open HenPlugins.Lib.FirstMatch
open HenPlugins.Lib.SectionedDocument
open HenPlugins.Lib.ItemStream
open HenPlugins.Ini.Text
open HenPlugins.Ini.Store
open HenPlugins.Ini.Load
open HenPlugins.Ini.Save
open HenPlugins.Ini.Loaded
open HenPlugins.Ini.SetEntry
open HenPlugins.Ini.Rewrite

section Around
variable (ini : INIFile) (sectionName keyName : Text)

def homeSection : Section :=
  (findSection ini sectionName).getD (newSection sectionName)

def targetKey : KeyValue :=
  (findKey (homeSection ini sectionName) keyName).getD (newKey keyName)

/-- What the lines before the updated one are read as. -/
def linesBefore : List (Item Text Text Text) :=
  (beforeFirst (sectionNamed sectionName) ini.sections).flatMap
      savedSectionItems ++
    (lineItem (sectionLine (homeSection ini sectionName))).toList ++
    (beforeFirst (keyNamed keyName)
      (homeSection ini sectionName).keys).flatMap keyItems

/-- What the lines behind it are read as. -/
def linesAfter : List (Item Text Text Text) :=
  (afterFirst (keyNamed keyName)
      (homeSection ini sectionName).keys).flatMap keyItems ++
    (afterFirst (sectionNamed sectionName) ini.sections).flatMap
      savedSectionItems

/-- The updated line stands under a header of its section, and no line behind
it hides it. -/
def Counts : Prop :=
  lastHeader (linesBefore ini sectionName keyName) = some sectionName ∧
    ¬ Hides sectionName keyName (linesAfter ini sectionName keyName)

instance : Decidable (Counts ini sectionName keyName) :=
  inferInstanceAs (Decidable (_ ∧ _))

/-- What a lookup finds when the updated line is left out. -/
def othersRead : Option Text :=
  lastRead sectionName keyName
    (linesBefore ini sectionName keyName ++ linesAfter ini sectionName keyName)

end Around

section Located
variable {place : Place} {ini : INIFile} {sectionName keyName : Text}
  (located : place.Located ini sectionName keyName)
include located

theorem homeSection_facts :
    (homeSection ini sectionName).name = place.home.name ∧
      (homeSection ini sectionName).comment = place.home.comment ∧
      beforeFirst (keyNamed keyName) (homeSection ini sectionName).keys =
        place.keysFront ∧
      afterFirst (keyNamed keyName) (homeSection ini sectionName).keys =
        place.keysBack ∧
      targetKey ini sectionName keyName = place.target := by
  have homeNamed : ∀ keys, sectionNamed sectionName
      { place.home with keys := keys } = true := by
    intro keys
    simp [sectionNamed, located.homeNamed]
  have targetNamed : keyNamed keyName place.target = true := by
    simp [keyNamed, located.targetNamed]
  have passedSections : place.front.find? (sectionNamed sectionName) = none :=
    List.find?_eq_none.mpr fun current member => by
      simp [located.frontClear current member]
  have passedKeys : place.keysFront.find? (keyNamed keyName) = none :=
    List.find?_eq_none.mpr fun key member => by
      simp [located.keysFrontClear key member]
  rw [targetKey]
  cases located.origin with
  | entry chain =>
      have here : sectionNamed sectionName (place.homeWith place.target) =
          true := homeNamed _
      have home : homeSection ini sectionName =
          place.homeWith place.target := by
        rw [homeSection, findSection, chain, Place.sectionsWith,
          List.find?_append, passedSections, Option.none_or,
          List.find?_cons_of_pos here, Option.getD_some]
      obtain ⟨before, after⟩ := around_append (keyNamed keyName)
        place.keysFront place.keysBack place.target located.keysFrontClear
        targetNamed
      rw [home, findKey, Place.homeWith]
      refine ⟨rfl, rfl, before, after, ?_⟩
      rw [List.find?_append, passedKeys, Option.none_or,
        List.find?_cons_of_pos targetNamed, Option.getD_some]
  | freshKey chain noKeysFront target noKey =>
      have home : homeSection ini sectionName =
          { place.home with keys := place.keysBack } := by
        rw [homeSection, findSection, chain, List.find?_append, passedSections,
          Option.none_or, List.find?_cons_of_pos (homeNamed _),
          Option.getD_some]
      have missing : place.keysBack.find? (keyNamed keyName) = none :=
        List.find?_eq_none.mpr fun key member => by simp [noKey key member]
      obtain ⟨before, after⟩ := around_of_clear (keyNamed keyName)
        place.keysBack noKey
      rw [home, findKey]
      refine ⟨rfl, rfl, ?_, after, ?_⟩
      · rw [before, noKeysFront]
      · rw [missing, target, Option.getD_none]
  | freshSection chain noFront home noKeysFront noKeysBack target noSection =>
      have missing : findSection ini sectionName = none := by
        rw [findSection, chain]
        exact List.find?_eq_none.mpr fun current member => by
          simp [noSection current member]
      rw [homeSection, missing, Option.getD_none, noKeysFront, noKeysBack, home,
        target]
      exact ⟨rfl, rfl, rfl, rfl, rfl⟩

theorem sections_around :
    beforeFirst (sectionNamed sectionName) ini.sections = place.front ∧
      afterFirst (sectionNamed sectionName) ini.sections = place.back := by
  have homeNamed : ∀ keys, sectionNamed sectionName
      { place.home with keys := keys } = true := by
    intro keys
    simp [sectionNamed, located.homeNamed]
  cases located.origin with
  | entry chain =>
      rw [chain]
      exact around_append _ _ _ _ located.frontClear (homeNamed _)
  | freshKey chain noKeysFront target noKey =>
      rw [chain]
      exact around_append _ _ _ _ located.frontClear (homeNamed _)
  | freshSection chain noFront home noKeysFront noKeysBack target noSection =>
      rw [chain, noFront]
      exact around_of_clear _ _ noSection

theorem sectionsWith_lines (key : KeyValue) :
    (place.sectionsWith key).flatMap savedSectionItems =
      linesBefore ini sectionName keyName ++ keyItems key ++
        linesAfter ini sectionName keyName := by
  obtain ⟨name, comment, before, after, -⟩ := homeSection_facts located
  obtain ⟨front, back⟩ := sections_around located
  have header : sectionLine (place.homeWith key) =
      sectionLine (homeSection ini sectionName) := by
    rw [sectionLine, sectionLine, name, comment]
    rfl
  rw [linesBefore, linesAfter, front, back, before, after, ← header,
    Place.sectionsWith, List.flatMap_append, List.flatMap_cons,
    savedSectionItems]
  simp [Place.homeWith]

/-- What a fresh load finds: the updated line, where it counts and is read as
an entry, or else what the other lines say. -/
theorem iniGet_reload_around (store : INIFile) (safe : SafeStore store)
    (key : KeyValue) (chain : store.sections = place.sectionsWith key)
    (reading : Option Text)
    (read : keyItems key =
      reading.toList.map fun value => .entry keyName value)
    (files : Files) :
    iniGet (reload files store) sectionName keyName =
      if Counts ini sectionName keyName ∧ reading ≠ none then reading
      else othersRead ini sectionName keyName := by
  rw [iniGet_eq_firstValue, view_reload files store safe, chain,
    sectionsWith_lines located, firstValue_build, read]
  cases reading with
  | none =>
      rw [if_neg (by simp)]
      simp [othersRead]
  | some value =>
      obtain ⟨counting, hidden⟩ := lastRead_insert sectionName keyName
        (linesBefore ini sectionName keyName)
        (linesAfter ini sectionName keyName) value
      have shape : linesBefore ini sectionName keyName ++
          ((some value).toList.map fun value => .entry keyName value) ++
            linesAfter ini sectionName keyName =
          linesBefore ini sectionName keyName ++
            .entry keyName value :: linesAfter ini sectionName keyName := by
        simp
      rw [shape]
      by_cases counts : Counts ini sectionName keyName
      · rw [if_pos ⟨counts, by simp⟩, counting counts]
      · rw [if_neg fun both => counts both.1, hidden counts, othersRead]

end Located

end HenPlugins.Ini.OtherLines
