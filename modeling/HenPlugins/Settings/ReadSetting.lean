import HenPlugins.Settings.SwitchedOn

/-!
# Reading a setting

A read copies the stored value into the caller's buffer and stores a `0` where
there is none.  A value as long as the buffer fills it without a NUL, and the
stored `0` has to survive the way through the file.
-/

set_option autoImplicit false

namespace HenPlugins.Settings.ReadSetting

open HenPlugins.Lib.ByteText
open HenPlugins.Lib.SectionedDocument
open HenPlugins.Lib.ItemStream
open HenPlugins.Ini.Text
open HenPlugins.Ini.Store
open HenPlugins.Ini.Load
open HenPlugins.Ini.Save
open HenPlugins.Ini.Loaded
open HenPlugins.Ini.WrittenLines
open HenPlugins.Ini.SetEntry
open HenPlugins.Ini.OtherLines
open HenPlugins.Ini.Rewrite
open HenPlugins.Settings.LocalSettings
open HenPlugins.Settings.SwitchLine
open HenPlugins.Settings.SwitchedOn

/-- A call with `want_read`; `value` is not looked at. -/
structure ReadCall where
  files : Files
  iniPath : Text
  iniSection : Text
  id : Text
  value : Text
  dataOutBufSize : Nat
  positive : 0 < dataOutBufSize

section Call
variable (call : ReadCall)

def ReadCall.loaded : INIFile :=
  iniLoad call.files call.iniPath

def ReadCall.stored : Option Text :=
  iniGet call.loaded call.iniSection call.id

/-- The call on a zero-filled buffer. -/
def ReadCall.outcome : Files × Text :=
  readWriteLocalSettings call.files call.iniPath call.iniSection call.id
    call.value true (List.replicate call.dataOutBufSize 0) call.dataOutBufSize

/-- The text stands in the buffer and ends inside it. -/
structure HoldsString (size : Nat) (buffer text : Text) : Prop where
  sized : buffer.length = size
  string : before 0 buffer = text
  terminated : 0 ∈ buffer

structure ReadsProperly : Prop where
  present : ∀ value, call.stored = some value →
    HoldsString call.dataOutBufSize call.outcome.2
      (value.take (call.dataOutBufSize - 1))
  absent : call.stored = none →
    HoldsString call.dataOutBufSize call.outcome.2 []
  stores : call.stored = none →
    iniGet (iniLoad call.outcome.1 call.iniPath) call.iniSection call.id =
      some (ascii "0")

/-- A section name and a key that the loader can have read. -/
structure Storable (iniSection id : Text) : Prop where
  sectionFits : iniSection.length ≤ 255
  sectionSafe : LineSafe iniSection
  sectionShaped : ShapedName iniSection
  argument : KeyArgument id

/-- The line of the `0` is read as this key. -/
def LineKept (id : Text) : Prop :=
  trimWhitespace id = id ∧ NameKept id false

instance (id : Text) : Decidable (LineKept id) :=
  inferInstanceAs (Decidable (_ ∧ _))

/-- The stored `0` is what a fresh load finds. -/
def DefaultKept (ini : INIFile) (iniSection id : Text) : Prop :=
  Storable iniSection id ∧
    ((Counts ini iniSection id ∧ LineKept id) ∨
      othersRead ini iniSection id = some (ascii "0"))

theorem holdsString_copyOver (size count : Nat) (value : Text)
    (inside : count < size) (long : count ≤ value.length)
    (ends : 0 ∉ value) :
    HoldsString size (copyOver (List.replicate size 0) value count)
      (value.take count) := by
  have remains : size - count = (size - count - 1) + 1 := by omega
  have split : copyOver (List.replicate size 0) value count =
      value.take count ++ 0 :: List.replicate (size - count - 1) 0 := by
    rw [copyOver, List.drop_replicate, ← List.replicate_succ, ← remains]
  constructor
  · rw [copyOver, List.length_append, List.length_take, List.length_drop,
      List.length_replicate]
    omega
  · rw [split]
    apply before_append_of_not_mem
    exact fun member => ends (List.mem_of_mem_take member)
  · rw [split]
    simp

/-- The copy of a value as long as the buffer has no NUL. -/
theorem not_holdsString_full (size : Nat) (value text : Text)
    (full : value.length = size) (ends : 0 ∉ value) :
    ¬ HoldsString size (copyOver (List.replicate size 0) value value.length)
      text := by
  intro holds
  have member := holds.terminated
  rw [copyOver, List.take_length, full, List.drop_replicate, Nat.sub_self,
    List.replicate_zero, List.append_nil] at member
  exact ends member

theorem outcome_buffer (value : Text) (stored : call.stored = some value) :
    call.outcome.2 = copyOver (List.replicate call.dataOutBufSize 0) value
      (if value.length > call.dataOutBufSize then call.dataOutBufSize - 1
        else value.length) := by
  have got : iniGet (iniLoad call.files call.iniPath) call.iniSection call.id =
      some value := stored
  simp only [ReadCall.outcome, readWriteLocalSettings, got, if_true,
    Option.getD_some]

theorem outcome_absent (absent : call.stored = none) :
    call.outcome =
      ((iniSave call.files (setEntry call.loaded call.iniSection call.id
        (ascii "0") none)).1, List.replicate call.dataOutBufSize 0) := by
  have none' : iniGet (iniLoad call.files call.iniPath) call.iniSection
      call.id = none := absent
  have empty : ¬ 0 > call.dataOutBufSize := Nat.not_lt_zero _
  simp only [ReadCall.outcome, readWriteLocalSettings, none', if_true,
    Option.getD_none, List.length_nil, copyOver, if_neg empty,
    List.take_zero, List.nil_append, List.drop_zero]
  rfl

theorem zero_not_mem_stored (value : Text)
    (stored : call.stored = some value) : 0 ∉ value := by
  obtain ⟨current, listed, -, key, keyListed, -, rfl⟩ :=
    mem_of_iniGet _ _ _ value stored
  have loaded := iniLoad_loaded call.files call.iniPath
  have safe := ((loaded.sections current listed).keys key keyListed).valueText
  intro member
  exact absurd (safe 0 member) (by decide)

theorem present_iff (value : Text) (stored : call.stored = some value) :
    HoldsString call.dataOutBufSize call.outcome.2
        (value.take (call.dataOutBufSize - 1)) ↔
      value.length ≠ call.dataOutBufSize := by
  have ends := zero_not_mem_stored call value stored
  have positive := call.positive
  rw [outcome_buffer call value stored]
  constructor
  · intro holds same
    rw [if_neg (by omega)] at holds
    exact not_holdsString_full _ value _ same ends holds
  · intro different
    by_cases long : value.length > call.dataOutBufSize
    · rw [if_pos long]
      exact holdsString_copyOver _ _ value (by omega) (by omega) ends
    · rw [if_neg long]
      have whole := holdsString_copyOver call.dataOutBufSize value.length
        value (by omega) (Nat.le_refl _) ends
      rw [List.take_length] at whole
      rw [List.take_of_length_le (by omega)]
      exact whole

theorem storedComment_absent (absent : call.stored = none) :
    storedComment call.loaded call.iniSection call.id = [] := by
  rw [ReadCall.stored, iniGet] at absent
  rw [storedComment]
  cases home : findSection call.loaded call.iniSection with
  | none => rfl
  | some current =>
      simp only [home, Option.bind_eq_bind, Option.bind_some] at absent
      cases hit : findKey current call.id with
      | none => simp [hit]
      | some key => simp [hit] at absent

theorem storable_of_found (ini : INIFile) (loaded : LoadedStore ini)
    (iniSection id value : Text)
    (found : iniGet ini iniSection id = some value) :
    Storable iniSection id := by
  obtain ⟨current, listed, rfl, key, keyListed, rfl, -⟩ :=
    mem_of_iniGet ini iniSection id value found
  have sectionFits := current.name.fits
  have keyFits := key.key.fits
  simp only [maxSectionLength] at sectionFits
  simp only [maxKeyLength] at keyFits
  have safe := loaded.sections current listed
  have shaped := loaded.shaped current listed key keyListed
  exact ⟨Nat.le_of_lt_succ sectionFits, safe.nameText,
    loaded.names current listed, Nat.le_of_lt_succ keyFits,
    (safe.keys key keyListed).keyText, shaped.noEquals, shaped.keyStart⟩

/-- The line of the `0` is read as a key of the trimmed name, unless it is cut
in the name. -/
theorem ownLine_default {place : Place} {ini : INIFile}
    {iniSection id : Text} (located : place.Located ini iniSection id)
    (argument : KeyArgument id) (safe : SafeKey place.target)
    (fresh : storedComment ini iniSection id = []) :
    keyItems (writeKey (ascii "0") none place.target) =
      if NameKept id false then
        [.entry (trimWhitespace id) (ascii "0")]
      else [] := by
  have isDigit : '0'.toUInt8 = '0'.toUInt8 ∨ '0'.toUInt8 = '1'.toUInt8 :=
    Or.inl rfl
  have named : (writeKey (ascii "0") none place.target).key.text = id :=
    located.targetNamed
  have noComment : (writeKey (ascii "0") none place.target).comment.text =
      [] := located.targetComment.trans fresh
  have read := plainLine_item (writeKey (ascii "0") none place.target)
    '0'.toUInt8 isDigit (ownKey_shaped located argument '0'.toUInt8 isDigit)
    rfl (by rw [noComment]; exact Nat.lt_irrefl 0)
  have fits : (keyLine (writeKey (ascii "0") none place.target)).length <
      maxLineLength := ownLine_fits '0'.toUInt8 place.target
  rw [named] at read
  rw [keyItems_of_fits _ (writeKey_safe _ _ safe (by decide)) fits, read]
  split <;> rfl

theorem freshLoad_absent (absent : call.stored = none) :
    iniLoad call.outcome.1 call.iniPath =
      reload call.files (setEntry call.loaded call.iniSection call.id
        (ascii "0") none) := by
  have filename : (setEntry call.loaded call.iniSection call.id (ascii "0")
      none).filename = call.iniPath := by
    rw [setEntry_filename, ReadCall.loaded, iniLoad_filename]
  rw [outcome_absent call absent, reload, filename]

theorem fresh_eq (absent : call.stored = none)
    (storable : Storable call.iniSection call.id) :
    iniGet (iniLoad call.outcome.1 call.iniPath) call.iniSection call.id =
      if Counts call.loaded call.iniSection call.id ∧ LineKept call.id then
        some (ascii "0")
      else othersRead call.loaded call.iniSection call.id := by
  have loaded := iniLoad_loaded call.files call.iniPath
  obtain ⟨place, located, chain⟩ := setEntry_located call.loaded
    call.iniSection call.id (ascii "0") none storable.sectionFits
    storable.argument.fits
  have written := setEntry_loaded call.loaded loaded call.iniSection call.id
    (ascii "0") storable.sectionFits storable.sectionSafe
    storable.sectionShaped storable.argument (by decide)
    (digit_start '0'.toUInt8 (Or.inl rfl))
  have own := ownLine_default located storable.argument
    (located.target_safe loaded storable.argument.safe)
    (storedComment_absent call absent)
  rw [freshLoad_absent call absent,
    iniGet_reload_eq _ _ written.toSafeStore, chain,
    sectionsWith_lines located, own, othersRead]
  obtain ⟨counting, hidden⟩ := lastRead_insert call.iniSection call.id
    (linesBefore call.loaded call.iniSection call.id)
    (linesAfter call.loaded call.iniSection call.id) (ascii "0")
  by_cases kept : NameKept call.id false
  · rw [if_pos kept, List.append_assoc, List.singleton_append]
    by_cases trimmed : trimWhitespace call.id = call.id
    · rw [trimmed]
      by_cases counts : Counts call.loaded call.iniSection call.id
      · rw [if_pos ⟨counts, trimmed, kept⟩]
        exact counting counts
      · rw [if_neg fun both => counts both.1]
        exact hidden counts
    · rw [if_neg fun both => trimmed both.2.1]
      exact lastRead_insert_other _ _ _ _ _ _ (Ne.symm trimmed)
  · rw [if_neg kept, if_neg fun both => kept both.2.2, List.append_nil]

theorem stores_iff (absent : call.stored = none) :
    iniGet (iniLoad call.outcome.1 call.iniPath) call.iniSection call.id =
        some (ascii "0") ↔
      DefaultKept call.loaded call.iniSection call.id := by
  constructor
  · intro found
    have storable := storable_of_found _
      (iniLoad_loaded call.outcome.1 call.iniPath) _ _ _ found
    rw [fresh_eq call absent storable] at found
    split at found
    · rename_i kept
      exact ⟨storable, Or.inl kept⟩
    · exact ⟨storable, Or.inr found⟩
  · rintro ⟨storable, kept | others⟩
    · rw [fresh_eq call absent storable, if_pos kept]
    · rw [fresh_eq call absent storable, others]
      split <;> rfl

/-- A read gives the setting if and only if a stored value is not as long as
the buffer and a missing one survives being stored. -/
theorem readsProperly_iff :
    ReadsProperly call ↔
      (∀ value, call.stored = some value →
        value.length ≠ call.dataOutBufSize) ∧
      (call.stored = none →
        DefaultKept call.loaded call.iniSection call.id) := by
  constructor
  · intro reads
    exact ⟨fun value stored => (present_iff call value stored).mp
        (reads.present value stored),
      fun absent => (stores_iff call absent).mp (reads.stores absent)⟩
  · rintro ⟨different, kept⟩
    refine ⟨fun value stored => (present_iff call value stored).mpr
        (different value stored), ?_,
      fun absent => (stores_iff call absent).mpr (kept absent)⟩
    intro absent
    rw [outcome_absent call absent]
    have empty := holdsString_copyOver call.dataOutBufSize 0 []
      call.positive (Nat.zero_le _) List.not_mem_nil
    rw [copyOver, List.drop_zero] at empty
    exact empty

end Call

/-- A value of two bytes for a buffer of two. -/
def fullBuffer : ReadCall where
  files := singleFile (ascii "f") (ascii "[s]\nk=ab\n")
  iniPath := ascii "f"
  iniSection := ascii "s"
  id := ascii "k"
  value := []
  dataOutBufSize := 2
  positive := by decide

theorem fullBuffer_not_terminated : ¬ ReadsProperly fullBuffer := by
  intro reads
  have holds := reads.present (ascii "ab") (by decide)
  exact absurd holds.terminated (by decide)

end HenPlugins.Settings.ReadSetting
