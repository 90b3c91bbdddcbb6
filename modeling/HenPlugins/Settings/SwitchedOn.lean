import HenPlugins.Ini.OtherLines
import HenPlugins.Ini.SetAndReload
import HenPlugins.Loader.LoadPlugins
import HenPlugins.Settings.LocalSettings
import HenPlugins.Settings.SwitchLine

/-!
# A plugin that is switched on

The write call saves the loaded file with the plugin's entry set to `1`.  A
fresh load finds the `1` when the plugin's own line reads back and no second
entry of its name stands nearer to the end of the chain.
-/

set_option autoImplicit false

namespace HenPlugins.Settings.SwitchedOn

open HenPlugins.Lib.ByteText
open HenPlugins.Lib.SectionedDocument
open HenPlugins.Ini.Text
open HenPlugins.Ini.Store
open HenPlugins.Ini.Load
open HenPlugins.Ini.Save
open HenPlugins.Ini.Loaded
open HenPlugins.Ini.WrittenLines
open HenPlugins.Ini.SetEntry
open HenPlugins.Ini.OtherLines
open HenPlugins.Ini.Rewrite
open HenPlugins.Ini.SetAndReload
open HenPlugins.Loader.LoadPlugins
open HenPlugins.Settings.LocalSettings
open HenPlugins.Settings.SwitchLine

/-- The store that the write call saves. -/
def writtenStore (files : Files) (iniPath id value : Text) : INIFile :=
  setEntry (iniLoad files iniPath) pluginsAllSection id value none

/-- A fresh load of the file that the write call leaves. -/
def freshLoad (files : Files) (iniPath id value : Text) : INIFile :=
  iniLoad (readWriteLocalSettings files iniPath pluginsAllSection id value
    false [] 0).1 iniPath

theorem freshLoad_eq_reload (files : Files) (iniPath id value : Text) :
    freshLoad files iniPath id value =
      reload files (writtenStore files iniPath id value) := by
  have filename : (writtenStore files iniPath id value).filename = iniPath := by
    rw [writtenStore, setEntry_filename, iniLoad_filename]
  rw [reload, filename]
  rfl

def StaysOn (files : Files) (iniPath id : Text) : Prop :=
  iniGet (freshLoad files iniPath id (ascii "1")) pluginsAllSection id =
    some (ascii "1")

/-- The id fits its field and its line reads back. -/
def IdKept (ini : INIFile) (id : Text) : Prop :=
  id.length ≤ 255 ∧ equalsSign ∉ id ∧
    NameKept id ((storedComment ini pluginsAllSection id).length > 0)

instance (ini : INIFile) (id : Text) : Decidable (IdKept ini id) :=
  inferInstanceAs (Decidable (id.length ≤ 255 ∧ equalsSign ∉ id ∧
    NameKept id ((storedComment ini pluginsAllSection id).length > 0)))

/-- The line of the switch is read as an entry, if with a spoilt value. -/
def OwnLineRead (ini : INIFile) (id : Text) : Prop :=
  lineItem (keyLine (writeKey (ascii "1") none
    (targetKey ini pluginsAllSection id))) ≠ none

instance (ini : INIFile) (id : Text) : Decidable (OwnLineRead ini id) :=
  inferInstanceAs (Decidable (_ ≠ _))

/-- The lines of the other entries are accounted for: all of them read back,
or no two share a name, none overruns the line buffer and no section that
holds keys loses its header. -/
inductive OthersSettled (ini store : INIFile) : Prop where
  | readBack (intact : LinesReadBack ini)
  | distinct (names : DistinctNames store) (fits : LinesFit store)
      (headers : ∀ current ∈ store.sections, current.keys ≠ [] →
        HeaderReadsBack current)

theorem storable_of_mem_view (ini : INIFile) (loaded : LoadedStore ini)
    (block : Text × List (Text × Text)) (member : block ∈ view ini)
    (pair : Text × Text) (inside : pair ∈ block.2) :
    pair.1.length ≤ 255 ∧ equalsSign ∉ pair.1 := by
  obtain ⟨current, listed, rfl⟩ := List.mem_map.mp member
  obtain ⟨key, keyListed, rfl⟩ := List.mem_map.mp inside
  have bound := key.key.fits
  simp only [maxKeyLength] at bound
  exact ⟨Nat.le_of_lt_succ bound,
    (loaded.shaped current listed key keyListed).noEquals⟩

theorem storable_of_iniGet (ini : INIFile) (loaded : LoadedStore ini)
    (sectionName keyName value : Text)
    (found : iniGet ini sectionName keyName = some value) :
    keyName.length ≤ 255 ∧ equalsSign ∉ keyName := by
  obtain ⟨current, listed, -, key, keyListed, rfl, -⟩ :=
    mem_of_iniGet ini sectionName keyName value found
  have bound := key.key.fits
  simp only [maxKeyLength] at bound
  exact ⟨Nat.le_of_lt_succ bound,
    (loaded.shaped current listed key keyListed).noEquals⟩

theorem storable_of_lastValue (ini : INIFile) (loaded : LoadedStore ini)
    (sectionName keyName value : Text)
    (found : lastValue (view ini) sectionName keyName = some value) :
    keyName.length ≤ 255 ∧ equalsSign ∉ keyName := by
  obtain ⟨entries, outer, inner⟩ := mem_of_firstValue _ _ _ _ found
  rw [mirror, List.mem_reverse] at outer
  obtain ⟨block, member, same⟩ := List.mem_map.mp outer
  cases same
  exact storable_of_mem_view ini loaded block member _
    (List.mem_reverse.mp inner)

section Own
variable {place : Place} {ini : INIFile} {sectionName keyName : Text}
  (located : place.Located ini sectionName keyName)
  (argument : KeyArgument keyName)
  (trimmed : trimWhitespace keyName = keyName)
  (digit : UInt8) (isDigit : digit = '0'.toUInt8 ∨ digit = '1'.toUInt8)

theorem writeKey_digit (key : KeyValue) :
    (writeKey [digit] none key).value.text = [digit] := rfl

include isDigit in
theorem digit_safe : LineSafe [digit] := by
  rcases isDigit with rfl | rfl <;> decide

include isDigit in
theorem digit_start : ∀ first ∈ [digit].head?, isSpace first = false := by
  intro first member
  have here : digit = first := Option.some.inj member
  rw [← here]
  rcases isDigit with rfl | rfl <;> rfl

include located argument isDigit in
theorem ownKey_shaped : ShapedKey (writeKey [digit] none place.target) := by
  refine ⟨?_, ?_, ?_⟩
  · simpa [writeKey, located.targetNamed] using argument.noEquals
  · simpa [writeKey, located.targetNamed] using argument.keyStart
  · intro first member
    rw [writeKey_digit digit] at member
    exact digit_start digit isDigit first member

include located argument isDigit trimmed in
theorem ownLine_reads_iff :
    lineItem (keyLine (writeKey [digit] none place.target)) =
        some (.entry keyName [digit]) ↔
      NameKept keyName ((storedComment ini sectionName keyName).length > 0) := by
  have named : (writeKey [digit] none place.target).key.text = keyName :=
    located.targetNamed
  have switch := switchLine_reads_iff (writeKey [digit] none place.target)
    digit isDigit (ownKey_shaped located argument digit isDigit)
    (by rw [named, trimmed]) (writeKey_digit digit _)
  rw [named] at switch
  rw [switch, ← located.targetComment]
  rfl

theorem ownLine_fits (key : KeyValue) :
    (keyLine (writeKey [digit] none key)).length < maxLineLength := by
  have name := key.key.fits
  have comment := key.comment.fits
  have equals : (ascii " = ").length = 3 := by decide
  have separator : (ascii " ; ").length = 3 := by decide
  simp only [maxKeyLength] at name
  simp only [maxCommentLength] at comment
  unfold keyLine maxLineLength
  split
  · simp only [List.length_append, writeKey, valueField_text, List.length_take,
      List.length_cons, List.length_nil]
    omega
  · simp only [List.length_append, writeKey, valueField_text, List.length_take,
      List.length_cons, List.length_nil]
    omega

include located argument isDigit trimmed in
/-- The line is read as an entry of its own name or as nothing. -/
theorem ownLine_items (safe : SafeKey place.target) :
    ∃ reading : Option Text,
      keyItems (writeKey [digit] none place.target) =
        reading.toList.map (fun value => .entry keyName value) ∧
      (reading = some [digit] ↔ NameKept keyName
        ((storedComment ini sectionName keyName).length > 0)) ∧
      (reading ≠ none ↔
        lineItem (keyLine (writeKey [digit] none place.target)) ≠ none) := by
  have digitSafe := digit_safe digit isDigit
  have reads := ownLine_reads_iff located argument trimmed digit isDigit
  rw [keyItems_of_fits _ (writeKey_safe _ _ safe digitSafe)
    (ownLine_fits digit place.target)]
  rcases lineItem_keyLine _ (ownKey_shaped located argument digit isDigit) with
    ⟨lost, -⟩ | ⟨part, -, read⟩
  · refine ⟨none, by rw [lost]; rfl, ?_, by simp [lost]⟩
    rw [lost] at reads
    rw [← reads]
    simp
  · have named : (writeKey [digit] none place.target).key.text = keyName :=
      located.targetNamed
    rw [named, trimmed] at read
    refine ⟨some ((trimWhitespace part).take 511), by rw [read]; rfl, ?_,
      by simp [read]⟩
    rw [read] at reads
    rw [← reads]
    simp

end Own

theorem pluginFile_argument (plugin : PluginFile)
    (fits : plugin.path.length ≤ 255) (noEquals : equalsSign ∉ plugin.path) :
    KeyArgument plugin.path :=
  ⟨fits, plugin.path_safe, noEquals, plugin.path_keyStart⟩

theorem pluginsAllSection_shaped : ShapedName pluginsAllSection where
  noBracket := by decide
  nameStart := by
    intro first member
    have here : 'a'.toUInt8 = first := Option.some.inj member
    rw [← here]
    rfl

theorem writtenStore_loaded (files : Files) (iniPath id : Text)
    (argument : KeyArgument id) (digit : UInt8)
    (isDigit : digit = '0'.toUInt8 ∨ digit = '1'.toUInt8) :
    LoadedStore (writtenStore files iniPath id [digit]) :=
  setEntry_loaded _ (iniLoad_loaded files iniPath) pluginsAllSection id [digit]
    (by decide) (by decide) pluginsAllSection_shaped argument
    (digit_safe digit isDigit) (digit_start digit isDigit)

theorem writtenStore_located (files : Files) (iniPath id value : Text)
    (fits : id.length ≤ 255) :
    ∃ place : Place,
      place.Located (iniLoad files iniPath) pluginsAllSection id ∧
        (writtenStore files iniPath id value).sections =
          place.sectionsWith (writeKey value none place.target) :=
  setEntry_located (iniLoad files iniPath) pluginsAllSection id value none
    (by decide) fits

section Storable
variable (files : Files) (iniPath : Text) (plugin : PluginFile)
  (fits : plugin.path.length ≤ 255) (noEquals : equalsSign ∉ plugin.path)

theorem one_isDigit :
    '1'.toUInt8 = '0'.toUInt8 ∨ '1'.toUInt8 = '1'.toUInt8 :=
  Or.inr rfl

theorem idKept_iff (ini : INIFile) (id : Text) (fits : id.length ≤ 255)
    (noEquals : equalsSign ∉ id) :
    IdKept ini id ↔
      NameKept id ((storedComment ini pluginsAllSection id).length > 0) := by
  rw [IdKept]
  simp [fits, noEquals]

include fits noEquals in
theorem staysOn_of_storable :
    StaysOn files iniPath plugin.path ↔
      (Counts (iniLoad files iniPath) pluginsAllSection plugin.path ∧
          IdKept (iniLoad files iniPath) plugin.path) ∨
        (¬ (Counts (iniLoad files iniPath) pluginsAllSection plugin.path ∧
            OwnLineRead (iniLoad files iniPath) plugin.path) ∧
          othersRead (iniLoad files iniPath) pluginsAllSection plugin.path =
            some (ascii "1")) := by
  have loaded := iniLoad_loaded files iniPath
  have argument := pluginFile_argument plugin fits noEquals
  obtain ⟨place, located, chain⟩ := writtenStore_located files iniPath
    plugin.path (ascii "1") fits
  have written := writtenStore_loaded files iniPath plugin.path argument
    '1'.toUInt8 one_isDigit
  obtain ⟨reading, read, reads, readsAny⟩ := ownLine_items located argument
    (plugin.path_trimmed fits) '1'.toUInt8 one_isDigit
    (located.target_safe loaded argument.safe)
  have found := iniGet_reload_around located
    (writtenStore files iniPath plugin.path (ascii "1")) written.toSafeStore _
    chain reading read files
  have target := (homeSection_facts located).2.2.2.2
  have lineRead : OwnLineRead (iniLoad files iniPath) plugin.path ↔
      reading ≠ none := by
    rw [OwnLineRead, target]
    exact readsAny.symm
  rw [StaysOn, freshLoad_eq_reload, found, idKept_iff _ _ fits noEquals,
    ← reads, lineRead]
  by_cases counts : Counts (iniLoad files iniPath) pluginsAllSection
      plugin.path
  · cases reading with
    | none => simp
    | some value =>
        simp only [counts, ne_eq, reduceCtorEq, not_false_eq_true, and_self,
          if_true, true_and, not_true_eq_false, false_and, or_false]
        exact Iff.rfl
  · simp [counts]

include fits noEquals in
theorem staysOn_of_readBack (intact : LinesReadBack (iniLoad files iniPath)) :
    (SoleEntry (iniLoad files iniPath) pluginsAllSection plugin.path →
        (StaysOn files iniPath plugin.path ↔
          IdKept (iniLoad files iniPath) plugin.path)) ∧
      (¬ SoleEntry (iniLoad files iniPath) pluginsAllSection plugin.path →
        (StaysOn files iniPath plugin.path ↔
          lastValue (view (iniLoad files iniPath)) pluginsAllSection
            plugin.path = some (ascii "1"))) := by
  have loaded := iniLoad_loaded files iniPath
  have argument := pluginFile_argument plugin fits noEquals
  obtain ⟨place, located, chain⟩ := writtenStore_located files iniPath
    plugin.path (ascii "1") fits
  have written := writtenStore_loaded files iniPath plugin.path argument
    '1'.toUInt8 one_isDigit
  obtain ⟨reading, read, reads, -⟩ := ownLine_items located argument
    (plugin.path_trimmed fits) '1'.toUInt8 one_isDigit
    (located.target_safe loaded argument.safe)
  obtain ⟨sole, repeated⟩ := iniGet_reload_of_readBack located intact
    (by decide) (writtenStore files iniPath plugin.path (ascii "1"))
    written.toSafeStore _ chain reading read files
  rw [StaysOn, freshLoad_eq_reload, idKept_iff _ _ fits noEquals, ← reads]
  refine ⟨?_, ?_⟩
  · intro single
    rw [sole single]
    exact Iff.rfl
  · intro several
    rw [repeated several]

include fits noEquals in
theorem staysOn_of_distinct
    (names : DistinctNames
      (writtenStore files iniPath plugin.path (ascii "1")))
    (lines : LinesFit (writtenStore files iniPath plugin.path (ascii "1")))
    (headers : ∀ current ∈
      (writtenStore files iniPath plugin.path (ascii "1")).sections,
      current.keys ≠ [] → HeaderReadsBack current) :
    SoleEntry (iniLoad files iniPath) pluginsAllSection plugin.path ∧
      (StaysOn files iniPath plugin.path ↔
        IdKept (iniLoad files iniPath) plugin.path) := by
  have argument := pluginFile_argument plugin fits noEquals
  have trimmed := plugin.path_trimmed fits
  obtain ⟨place, located, chain⟩ := writtenStore_located files iniPath
    plugin.path (ascii "1") fits
  have written := writtenStore_loaded files iniPath plugin.path argument
    '1'.toUInt8 one_isDigit
  have named : (writeKey (ascii "1") none place.target).key.text =
      plugin.path := located.targetNamed
  have reads := ownLine_reads_iff located argument trimmed '1'.toUInt8
    one_isDigit
  refine ⟨soleEntry_of_distinct located chain named names, ?_⟩
  rw [StaysOn, freshLoad_eq_reload, idKept_iff _ _ fits noEquals, ← reads,
    iniGet_reload_of_distinct located chain named names written lines headers
      (by decide) trimmed, readKey_eq_some_iff]
  exact Iff.rfl

end Storable

theorem staysOn_of_settled (files : Files) (iniPath : Text)
    (plugin : PluginFile)
    (others : OthersSettled (iniLoad files iniPath)
      (writtenStore files iniPath plugin.path (ascii "1"))) :
    StaysOn files iniPath plugin.path ↔
      (SoleEntry (iniLoad files iniPath) pluginsAllSection plugin.path ∧
          IdKept (iniLoad files iniPath) plugin.path) ∨
        (¬ SoleEntry (iniLoad files iniPath) pluginsAllSection plugin.path ∧
          lastValue (view (iniLoad files iniPath)) pluginsAllSection
            plugin.path = some (ascii "1")) := by
  by_cases storable : plugin.path.length ≤ 255 ∧ equalsSign ∉ plugin.path
  · obtain ⟨fits, noEquals⟩ := storable
    cases others with
    | readBack intact =>
        obtain ⟨sole, repeated⟩ :=
          staysOn_of_readBack files iniPath plugin fits noEquals intact
        by_cases single : SoleEntry (iniLoad files iniPath) pluginsAllSection
            plugin.path
        · simp [single, sole single]
        · simp [single, repeated single]
    | distinct names lines headers =>
        obtain ⟨single, kept⟩ := staysOn_of_distinct files iniPath plugin fits
          noEquals names lines headers
        simp [single, kept]
  · -- no loaded key has the id, so both sides fail
    have never : ¬ StaysOn files iniPath plugin.path := fun found =>
      storable (storable_of_iniGet _ (iniLoad_loaded _ _) _ _ _ found)
    have notKept : ¬ IdKept (iniLoad files iniPath) plugin.path :=
      fun kept => storable ⟨kept.1, kept.2.1⟩
    have notLast : lastValue (view (iniLoad files iniPath)) pluginsAllSection
        plugin.path ≠ some (ascii "1") := fun found => storable
      (storable_of_lastValue _ (iniLoad_loaded files iniPath) _ _ _ found)
    simp [never, notKept, notLast]

/-- The switch stays on exactly when the id fits a key and either its own line
counts and reads back, or it does not count and the other lines already have
the plugin switched on.  When the other lines read back, or hold no repeated
name, the line counts if no other entry of its name exists in `[all]`. -/
theorem staysOn_iff (files : Files) (iniPath : Text) (plugin : PluginFile) :
    (StaysOn files iniPath plugin.path ↔
      (plugin.path.length ≤ 255 ∧ equalsSign ∉ plugin.path) ∧
        ((Counts (iniLoad files iniPath) pluginsAllSection plugin.path ∧
            IdKept (iniLoad files iniPath) plugin.path) ∨
          (¬ (Counts (iniLoad files iniPath) pluginsAllSection plugin.path ∧
              OwnLineRead (iniLoad files iniPath) plugin.path) ∧
            othersRead (iniLoad files iniPath) pluginsAllSection plugin.path =
              some (ascii "1")))) ∧
    (OthersSettled (iniLoad files iniPath)
        (writtenStore files iniPath plugin.path (ascii "1")) →
      (StaysOn files iniPath plugin.path ↔
        (SoleEntry (iniLoad files iniPath) pluginsAllSection plugin.path ∧
            IdKept (iniLoad files iniPath) plugin.path) ∨
          (¬ SoleEntry (iniLoad files iniPath) pluginsAllSection plugin.path ∧
            lastValue (view (iniLoad files iniPath)) pluginsAllSection
              plugin.path = some (ascii "1")))) := by
  refine ⟨?_, staysOn_of_settled files iniPath plugin⟩
  constructor
  · intro found
    have storable := storable_of_iniGet _ (iniLoad_loaded _ _) _ _ _ found
    exact ⟨storable, (staysOn_of_storable files iniPath plugin storable.1
      storable.2).mp found⟩
  · intro condition
    obtain ⟨storable, reason⟩ := condition
    exact (staysOn_of_storable files iniPath plugin storable.1
      storable.2).mpr reason

def examplePlugin : PluginFile :=
  ⟨ascii "a.prx", by decide, by decide, by decide⟩

/-- An empty file takes the switch of `a.prx`. -/
theorem staysOn_emptyFile :
    StaysOn (singleFile pluginsIniPath []) pluginsIniPath examplePlugin.path :=
  ((staysOn_iff (singleFile pluginsIniPath []) pluginsIniPath
    examplePlugin).2 (.readBack (by decide))).mpr (Or.inl (by decide))

def semicolonPlugin : PluginFile :=
  ⟨ascii "a;b.prx", by decide, by decide, by decide⟩

/-- The switch of `a;b.prx` is lost: its line is cut in the name. -/
theorem semicolonPlugin_not_staysOn :
    ¬ StaysOn (singleFile pluginsIniPath []) pluginsIniPath
      semicolonPlugin.path := by
  rw [StaysOn]
  decide

end HenPlugins.Settings.SwitchedOn
