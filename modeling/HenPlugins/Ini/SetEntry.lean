import HenPlugins.Ini.Loaded

/-!
# Where `ini_set` writes

The updated entry has a place: the section chain around its section and the
key chain around its key.  Everything off that place is as before, and a
section or key that was missing is the only thing added.
-/

set_option autoImplicit false

namespace HenPlugins.Ini.SetEntry

open HenPlugins.Lib.ByteText
open HenPlugins.Lib.FirstMatch
open HenPlugins.Lib.SectionedDocument
open HenPlugins.Ini.Text
open HenPlugins.Ini.Store
open HenPlugins.Ini.Load
open HenPlugins.Ini.Save
open HenPlugins.Ini.Loaded

structure Place where
  front : List Section
  home : Section
  back : List Section
  keysFront : List KeyValue
  target : KeyValue
  keysBack : List KeyValue

/-- The home section with the given key in the place of the target. -/
def Place.homeWith (place : Place) (key : KeyValue) : Section :=
  { place.home with keys := place.keysFront ++ key :: place.keysBack }

/-- The section chain with the given key in the place of the target. -/
def Place.sectionsWith (place : Place) (key : KeyValue) : List Section :=
  place.front ++ place.homeWith key :: place.back

/-- How the place sits in the store: the entry exists, only its section
exists, or neither does. -/
inductive Place.Origin (place : Place) (ini : INIFile)
    (sectionName keyName : Text) : Prop where
  | entry (chain : ini.sections = place.sectionsWith place.target)
  | freshKey
      (chain : ini.sections = place.front ++
        { place.home with keys := place.keysBack } :: place.back)
      (noKeysFront : place.keysFront = [])
      (target : place.target = newKey keyName)
      (noKey : ∀ key ∈ place.keysBack, keyNamed keyName key = false)
  | freshSection
      (chain : ini.sections = place.back)
      (noFront : place.front = [])
      (home : place.home = newSection sectionName)
      (noKeysFront : place.keysFront = [])
      (noKeysBack : place.keysBack = [])
      (target : place.target = newKey keyName)
      (noSection : ∀ current ∈ place.back,
        sectionNamed sectionName current = false)

/-- The comment stored with the entry, empty when there is no entry. -/
def storedComment (ini : INIFile) (sectionName keyName : Text) : Text :=
  match findSection ini sectionName with
  | none => []
  | some current =>
      match findKey current keyName with
      | none => []
      | some key => key.comment.text

structure Place.Located (place : Place) (ini : INIFile)
    (sectionName keyName : Text) : Prop where
  homeNamed : place.home.name.text = sectionName
  targetNamed : place.target.key.text = keyName
  frontClear : ∀ current ∈ place.front,
    sectionNamed sectionName current = false
  keysFrontClear : ∀ key ∈ place.keysFront, keyNamed keyName key = false
  targetComment : place.target.comment.text =
    storedComment ini sectionName keyName
  origin : place.Origin ini sectionName keyName

theorem newKey_text (keyName : Text) (fits : keyName.length ≤ 255) :
    (newKey keyName).key.text = keyName := by
  rw [newKey, keyField_text, List.take_of_length_le fits]

theorem newSection_text (sectionName : Text)
    (fits : sectionName.length ≤ 255) :
    (newSection sectionName).name.text = sectionName := by
  rw [newSection, sectionField_text, List.take_of_length_le fits]

theorem setEntry_located (ini : INIFile) (sectionName keyName value : Text)
    (comment : Option Text) (sectionFits : sectionName.length ≤ 255)
    (keyFits : keyName.length ≤ 255) :
    ∃ place : Place, place.Located ini sectionName keyName ∧
      (setEntry ini sectionName keyName value comment).sections =
        place.sectionsWith (writeKey value comment place.target) := by
  rw [setEntry]
  cases found : findSection ini sectionName with
  | none =>
      have noSection : ∀ current ∈ ini.sections,
          sectionNamed sectionName current = false := by
        intro current member
        have unnamed := List.find?_eq_none.mp found current member
        simpa using unnamed
      refine ⟨⟨[], newSection sectionName, ini.sections, [],
        newKey keyName, []⟩, ⟨newSection_text _ sectionFits,
          newKey_text _ keyFits, by simp, by simp, ?_, ?_⟩, rfl⟩
      · simp [storedComment, found, newKey]
      exact .freshSection rfl rfl rfl rfl rfl rfl noSection
  | some current =>
      obtain ⟨front, back, chain, named, frontClear, updated⟩ :=
        updateFirst_split (sectionNamed sectionName)
          (setInSection keyName value comment) ini.sections current found
      have homeNamed : current.name.text = sectionName := by
        simpa [sectionNamed] using named
      simp only [updated]
      rw [setInSection]
      cases keyFound : findKey current keyName with
      | none =>
          have noKey : ∀ key ∈ current.keys,
              keyNamed keyName key = false := by
            intro key member
            have unnamed := List.find?_eq_none.mp keyFound key member
            simpa using unnamed
          refine ⟨⟨front, current, back, [], newKey keyName, current.keys⟩,
            ⟨homeNamed, newKey_text _ keyFits, frontClear, by simp, ?_, ?_⟩,
            rfl⟩
          · simp [storedComment, found, keyFound, newKey]
          exact .freshKey chain rfl rfl noKey
      | some key =>
          obtain ⟨keysFront, keysBack, keyChain, keyIsNamed, keysClear,
            keysUpdated⟩ := updateFirst_split (keyNamed keyName)
              (writeKey value comment) current.keys key keyFound
          have targetNamed : key.key.text = keyName := by
            simpa [keyNamed] using keyIsNamed
          refine ⟨⟨front, current, back, keysFront, key, keysBack⟩,
            ⟨homeNamed, targetNamed, frontClear, keysClear, ?_, ?_⟩, ?_⟩
          · simp [storedComment, found, keyFound]
          · apply Place.Origin.entry
            rw [Place.sectionsWith, Place.homeWith, ← keyChain]
            exact chain
          · rw [Place.sectionsWith, Place.homeWith, keysUpdated]

theorem setEntry_filename (ini : INIFile) (sectionName keyName value : Text)
    (comment : Option Text) :
    (setEntry ini sectionName keyName value comment).filename =
      ini.filename := by
  rw [setEntry]
  cases findSection ini sectionName <;> rfl

theorem setEntry_headerComments (ini : INIFile)
    (sectionName keyName value : Text) (comment : Option Text) :
    (setEntry ini sectionName keyName value comment).headerComments =
      ini.headerComments := by
  rw [setEntry]
  cases findSection ini sectionName <;> rfl

/-- At most one section has the name, and at most one key in it. -/
def SoleEntry (ini : INIFile) (sectionName keyName : Text) : Prop :=
  ini.sections.countP (sectionNamed sectionName) ≤ 1 ∧
    ∀ current ∈ ini.sections, sectionNamed sectionName current = true →
      current.keys.countP (keyNamed keyName) ≤ 1

instance (ini : INIFile) (sectionName keyName : Text) :
    Decidable (SoleEntry ini sectionName keyName) :=
  inferInstanceAs (Decidable (_ ∧ _))

/-- All keys but the one that `ini_set` updates. -/
def untouchedKeys (ini : INIFile) (sectionName keyName : Text) :
    List KeyValue :=
  (updateFirst (sectionNamed sectionName)
    (fun current =>
      { current with keys := current.keys.eraseP (keyNamed keyName) })
    ini.sections).flatMap Section.keys

theorem countP_eq_zero_iff {Node : Type} (hit : Node → Bool)
    (nodes : List Node) :
    nodes.countP hit = 0 ↔ ∀ node ∈ nodes, hit node = false := by
  simp [List.countP_eq_zero]

/-! ## What lies off the place -/

section Located
variable {place : Place} {ini : INIFile} {sectionName keyName : Text}
  (located : place.Located ini sectionName keyName)

include located in
theorem Place.Located.outer_mem (current : Section)
    (member : current ∈ place.front ∨ current ∈ place.back) :
    current ∈ ini.sections := by
  cases located.origin with
  | entry chain =>
      rw [chain, Place.sectionsWith]
      rcases member with early | late
      · simp [early]
      · simp [late]
  | freshKey chain =>
      rw [chain]
      rcases member with early | late
      · simp [early]
      · simp [late]
  | freshSection chain noFront =>
      rw [noFront] at member
      rw [chain]
      rcases member with early | late
      · simp at early
      · exact late

include located in
/-- The home section was there before, with the other keys in it, unless it
is new and holds no other key. -/
theorem Place.Located.home_mem :
    (∃ before ∈ ini.sections, before.name = place.home.name ∧
        before.comment = place.home.comment ∧
        before.commentsBefore = place.home.commentsBefore ∧
        (∀ key, key ∈ place.keysFront ∨ key ∈ place.keysBack →
          key ∈ before.keys) ∧
        (place.target ∈ before.keys ∨ place.target = newKey keyName)) ∨
      (place.home = newSection sectionName ∧ place.keysFront = [] ∧
        place.keysBack = [] ∧ place.target = newKey keyName) := by
  cases located.origin with
  | entry chain =>
      refine Or.inl ⟨place.homeWith place.target, ?_, rfl, rfl, rfl, ?_, ?_⟩
      · simp [chain, Place.sectionsWith]
      · intro key member
        rcases member with early | late
        · simp [Place.homeWith, early]
        · simp [Place.homeWith, late]
      · simp [Place.homeWith]
  | freshKey chain noKeysFront target =>
      refine Or.inl ⟨{ place.home with keys := place.keysBack }, ?_, rfl, rfl,
        rfl, ?_, Or.inr target⟩
      · simp [chain]
      · intro key member
        rw [noKeysFront] at member
        rcases member with early | late
        · simp at early
        · exact late
  | freshSection chain noFront home noKeysFront noKeysBack target =>
      exact Or.inr ⟨home, noKeysFront, noKeysBack, target⟩

include located in
theorem Place.Located.untouchedKeys_eq :
    untouchedKeys ini sectionName keyName =
      place.front.flatMap Section.keys ++
        (place.keysFront ++ place.keysBack) ++
        place.back.flatMap Section.keys := by
  have homeNamed : ∀ keys, sectionNamed sectionName
      { place.home with keys := keys } = true := by
    intro keys
    simp [sectionNamed, located.homeNamed]
  rw [untouchedKeys]
  cases located.origin with
  | entry chain =>
      have erased : (place.keysFront ++ place.target :: place.keysBack).eraseP
          (keyNamed keyName) = place.keysFront ++ place.keysBack := by
        rw [List.eraseP_append_right, List.eraseP_cons_of_pos]
        · simp [keyNamed, located.targetNamed]
        · intro key member
          simp [located.keysFrontClear key member]
      rw [chain, Place.sectionsWith, Place.homeWith,
        updateFirst_append _ _ _ _ _ located.frontClear (homeNamed _)]
      simp [erased]
  | freshKey chain noKeysFront target noKey =>
      have kept : place.keysBack.eraseP (keyNamed keyName) =
          place.keysBack := by
        apply List.eraseP_of_forall_not
        intro key member
        simp [noKey key member]
      rw [chain, updateFirst_append _ _ _ _ _ located.frontClear
        (homeNamed _)]
      simp [kept, noKeysFront]
  | freshSection chain noFront home noKeysFront noKeysBack target noSection =>
      rw [chain, updateFirst_of_clear _ _ _ noSection]
      simp [noFront, noKeysFront, noKeysBack]

/-! ## Repetitions of the entry -/

include located in
/-- The entry is the only one of its name exactly when none follows it. -/
theorem Place.Located.soleEntry_iff :
    SoleEntry ini sectionName keyName ↔
      (∀ current ∈ place.back, sectionNamed sectionName current = false) ∧
        ∀ key ∈ place.keysBack, keyNamed keyName key = false := by
  have noFront := (countP_eq_zero_iff _ _).mpr located.frontClear
  have noKeysFront := (countP_eq_zero_iff _ _).mpr located.keysFrontClear
  -- the sections of the name are the home section and some of `back`
  have counted : ∀ keys, (place.front ++
      { place.home with keys := keys } :: place.back).countP
        (sectionNamed sectionName) =
      place.back.countP (sectionNamed sectionName) + 1 := by
    intro keys
    rw [List.countP_append, noFront, List.countP_cons_of_pos, Nat.zero_add]
    simp [sectionNamed, located.homeNamed]
  have keyed : ∀ keys, (∀ current ∈ place.back,
        sectionNamed sectionName current = false) →
      ((∀ current ∈ place.front ++
          { place.home with keys := keys } :: place.back,
        sectionNamed sectionName current = true →
          current.keys.countP (keyNamed keyName) ≤ 1) ↔
        keys.countP (keyNamed keyName) ≤ 1) := by
    intro keys noBack
    constructor
    · intro every
      exact every { place.home with keys := keys } (by simp)
        (by simp [sectionNamed, located.homeNamed])
    · intro once current member named
      rcases List.mem_append.mp member with early | here
      · rw [located.frontClear current early] at named
        contradiction
      · rcases List.mem_cons.mp here with rfl | late
        · exact once
        · rw [noBack current late] at named
          contradiction
  have outer : place.back.countP (sectionNamed sectionName) + 1 ≤ 1 ↔
      ∀ current ∈ place.back, sectionNamed sectionName current = false := by
    rw [← countP_eq_zero_iff]
    omega
  rw [SoleEntry]
  cases located.origin with
  | entry chain =>
      have keysCounted : (place.keysFront ++
          place.target :: place.keysBack).countP (keyNamed keyName) =
          place.keysBack.countP (keyNamed keyName) + 1 := by
        rw [List.countP_append, noKeysFront, List.countP_cons_of_pos,
          Nat.zero_add]
        simp [keyNamed, located.targetNamed]
      rw [chain, Place.sectionsWith, Place.homeWith, counted, outer]
      apply and_congr_right
      intro noBack
      rw [keyed _ noBack, keysCounted, ← countP_eq_zero_iff]
      omega
  | freshKey chain noKeysFront target noKey =>
      rw [chain, counted, outer]
      apply and_congr_right
      intro noBack
      rw [keyed _ noBack, ← countP_eq_zero_iff,
        (countP_eq_zero_iff _ _).mpr noKey]
      omega
  | freshSection chain noFront home noKeysFront noKeysBack target noSection =>
      rw [chain, noKeysBack, (countP_eq_zero_iff _ _).mpr noSection]
      constructor
      · intro sole
        exact ⟨noSection, by simp⟩
      · intro clear
        refine ⟨by omega, ?_⟩
        intro current member named
        rw [noSection current member] at named
        contradiction

end Located

/-! ## The loaded-store invariant -/

theorem lineSafe_nil : LineSafe [] := by decide

theorem writeKey_safe (value : Text) (key : KeyValue) (safe : SafeKey key)
    (valueSafe : LineSafe value) : SafeKey (writeKey value none key) :=
  ⟨safe.keyText, valueSafe.take 511, safe.commentText, safe.beforeTexts⟩

theorem newKey_safe (keyName : Text) (safe : LineSafe keyName) :
    SafeKey (newKey keyName) :=
  ⟨safe.take 255, lineSafe_nil, lineSafe_nil, by simp [newKey]⟩

/-- What an argument of `ini_set` needs in order to be written as a key that
the loader could have read. -/
structure KeyArgument (keyName : Text) : Prop where
  fits : keyName.length ≤ 255
  safe : LineSafe keyName
  noEquals : equalsSign ∉ keyName
  keyStart : ∀ first ∈ keyName.head?, KeyStart first

section Invariant
variable {place : Place} {ini : INIFile} {sectionName keyName : Text}
  (located : place.Located ini sectionName keyName)
  (loaded : LoadedStore ini)

include located in
theorem Place.Located.mem_sectionsWith (key : KeyValue) (current : Section)
    (member : current ∈ place.sectionsWith key) :
    current ∈ ini.sections ∨ current = place.homeWith key := by
  rcases List.mem_append.mp member with early | here
  · exact Or.inl (located.outer_mem current (Or.inl early))
  · rcases List.mem_cons.mp here with rfl | late
    · exact Or.inr rfl
    · exact Or.inl (located.outer_mem current (Or.inr late))

include located in
theorem Place.Located.mem_homeWith (key other : KeyValue)
    (member : other ∈ (place.homeWith key).keys) :
    other = key ∨ ∃ before ∈ ini.sections, other ∈ before.keys := by
  have old : other ∈ place.keysFront ∨ other ∈ place.keysBack →
      ∃ before ∈ ini.sections, other ∈ before.keys := by
    intro inside
    rcases located.home_mem with ⟨before, listed, -, -, -, keys, -⟩ |
      ⟨-, noFront, noBack, -⟩
    · exact ⟨before, listed, keys other inside⟩
    · simp [noFront, noBack] at inside
  rcases List.mem_append.mp member with early | here
  · exact Or.inr (old (Or.inl early))
  · rcases List.mem_cons.mp here with rfl | late
    · exact Or.inl rfl
    · exact Or.inr (old (Or.inr late))

include located loaded in
theorem Place.Located.target_safe (safe : LineSafe keyName) :
    SafeKey place.target := by
  rcases located.home_mem with
    ⟨before, member, -, -, -, -, known | fresh⟩ | ⟨-, -, -, fresh⟩
  · exact (loaded.sections before member).keys _ known
  · exact fresh ▸ newKey_safe keyName safe
  · exact fresh ▸ newKey_safe keyName safe

include located loaded in
theorem Place.Located.homeWith_safe (sectionSafe : LineSafe sectionName)
    (key : KeyValue) (safe : SafeKey key) :
    SafeSection (place.homeWith key) := by
  refine ⟨?_, ?_, ?_, ?_⟩
  · simpa [Place.homeWith, located.homeNamed] using sectionSafe
  · rcases located.home_mem with ⟨before, member, -, comment, -⟩ | ⟨fresh, -⟩
    · simpa [Place.homeWith, ← comment] using
        (loaded.sections before member).commentText
    · have empty : place.home.comment.text = [] := by
        rw [fresh]
        rfl
      simpa [Place.homeWith, empty] using lineSafe_nil
  · rcases located.home_mem with ⟨before, member, -, -, comments, -⟩ |
      ⟨fresh, -⟩
    · simpa [Place.homeWith, ← comments] using
        (loaded.sections before member).beforeTexts
    · simp [Place.homeWith, fresh, newSection]
  · intro other inside
    rcases located.mem_homeWith key other inside with rfl |
      ⟨before, member, old⟩
    · exact safe
    · exact (loaded.sections before member).keys other old

end Invariant

theorem setEntry_loaded (ini : INIFile) (loaded : LoadedStore ini)
    (sectionName keyName value : Text) (sectionFits : sectionName.length ≤ 255)
    (sectionSafe : LineSafe sectionName) (shapedName : ShapedName sectionName)
    (keyArgument : KeyArgument keyName) (valueSafe : LineSafe value)
    (valueStart : ∀ first ∈ value.head?, isSpace first = false) :
    LoadedStore (setEntry ini sectionName keyName value none) := by
  obtain ⟨place, located, chain⟩ := setEntry_located ini sectionName keyName
    value none sectionFits keyArgument.fits
  have writtenSafe := writeKey_safe value _
    (located.target_safe loaded keyArgument.safe) valueSafe
  have writtenShaped : ShapedKey (writeKey value none place.target) := by
    refine ⟨?_, ?_, ?_⟩
    · simpa [writeKey, located.targetNamed] using keyArgument.noEquals
    · simpa [writeKey, located.targetNamed] using keyArgument.keyStart
    · intro first start
      exact valueStart first (head_take _ _ first start)
  refine ⟨⟨?_, ?_⟩, ?_, ?_⟩
  · rw [setEntry_headerComments]
    exact loaded.headerTexts
  · intro current member
    rw [chain] at member
    rcases located.mem_sectionsWith _ current member with old | rfl
    · exact loaded.sections current old
    · exact located.homeWith_safe loaded sectionSafe _ writtenSafe
  · intro current member
    rw [chain] at member
    rcases located.mem_sectionsWith _ current member with old | rfl
    · exact loaded.names current old
    · simpa [Place.homeWith, located.homeNamed] using shapedName
  · intro current member key inside
    rw [chain] at member
    rcases located.mem_sectionsWith _ current member with old | rfl
    · exact loaded.shaped current old key inside
    · rcases located.mem_homeWith _ key inside with rfl |
        ⟨before, listed, old⟩
      · exact writtenShaped
      · exact loaded.shaped before listed key old

end HenPlugins.Ini.SetEntry
