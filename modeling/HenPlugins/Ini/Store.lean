import HenPlugins.Ini.Text
import HenPlugins.Lib.FirstMatch
import HenPlugins.Lib.SectionedDocument

/-!
# The in-memory INI store

The linked structures of `ini.h` as lists in chain order, with the lookup,
creation and update functions of `ini.c`.  Every text lives in a fixed-size
field, so the length limits are part of the types.  Allocation is taken to
succeed.
-/

set_option autoImplicit false

namespace HenPlugins.Ini.Store

open HenPlugins.Lib.ByteText
open HenPlugins.Lib.FirstMatch
open HenPlugins.Lib.SectionedDocument

def maxKeyLength : Nat := 256
def maxValueLength : Nat := 512
def maxSectionLength : Nat := 256
def maxCommentLength : Nat := 512

abbrev Comment := CField maxCommentLength

structure KeyValue where
  key : CField maxKeyLength
  value : CField maxValueLength
  comment : CField maxCommentLength
  commentsBefore : List Comment
  deriving DecidableEq

structure Section where
  name : CField maxSectionLength
  comment : CField maxCommentLength
  commentsBefore : List Comment
  keys : List KeyValue
  deriving DecidableEq

structure INIFile where
  sections : List Section
  headerComments : List Comment
  filename : Text
  modified : Bool
  deriving DecidableEq

def keyField (source : Text) : CField maxKeyLength :=
  CField.copy maxKeyLength (by decide) source

def valueField (source : Text) : CField maxValueLength :=
  CField.copy maxValueLength (by decide) source

def sectionField (source : Text) : CField maxSectionLength :=
  CField.copy maxSectionLength (by decide) source

def commentField (source : Text) : CField maxCommentLength :=
  CField.copy maxCommentLength (by decide) source

@[simp] theorem keyField_text (source : Text) :
    (keyField source).text = source.take 255 := rfl

@[simp] theorem valueField_text (source : Text) :
    (valueField source).text = source.take 511 := rfl

@[simp] theorem sectionField_text (source : Text) :
    (sectionField source).text = source.take 255 := rfl

@[simp] theorem commentField_text (source : Text) :
    (commentField source).text = source.take 511 := rfl

def createComment (commentText : Text) : Comment :=
  commentField commentText

def addCommentToList (list : List Comment) (commentText : Text) :
    List Comment :=
  list ++ [createComment commentText]

def sectionNamed (sectionName : Text) (current : Section) : Bool :=
  current.name.text == sectionName

def keyNamed (keyName : Text) (current : KeyValue) : Bool :=
  current.key.text == keyName

def findSection (ini : INIFile) (sectionName : Text) : Option Section :=
  ini.sections.find? (sectionNamed sectionName)

/-- What `create_section` puts at the head of the section chain. -/
def newSection (sectionName : Text) : Section :=
  { name := sectionField sectionName
    comment := commentField []
    commentsBefore := []
    keys := [] }

def findKey (current : Section) (keyName : Text) : Option KeyValue :=
  current.keys.find? (keyNamed keyName)

/-- What `create_key` puts at the head of the key chain. -/
def newKey (keyName : Text) : KeyValue :=
  { key := keyField keyName
    value := valueField []
    comment := commentField []
    commentsBefore := [] }

def iniGet (ini : INIFile) (sectionName keyName : Text) : Option Text := do
  let current ← findSection ini sectionName
  let key ← findKey current keyName
  some key.value.text

/-- The writes of `ini_set_with_comment` to the key it found or created; a
null comment leaves the stored one. -/
def writeKey (value : Text) (comment : Option Text) (key : KeyValue) :
    KeyValue :=
  { key with
    value := valueField value
    comment :=
      match comment with
      | none => key.comment
      | some comment => commentField comment }

/-- The key the pointer refers to is the first match, or the one just put in
front of the chain. -/
def setInSection (keyName value : Text) (comment : Option Text)
    (current : Section) : Section :=
  match findKey current keyName with
  | some _ =>
      { current with
        keys := updateFirst (keyNamed keyName) (writeKey value comment)
          current.keys }
  | none =>
      { current with
        keys := writeKey value comment (newKey keyName) :: current.keys }

def setEntry (ini : INIFile) (sectionName keyName value : Text)
    (comment : Option Text) : INIFile :=
  match findSection ini sectionName with
  | some _ =>
      { ini with
        sections := updateFirst (sectionNamed sectionName)
          (setInSection keyName value comment) ini.sections
        modified := true }
  | none =>
      { ini with
        sections := setInSection keyName value comment
          (newSection sectionName) :: ini.sections
        modified := true }

/-- With non-null arguments the call returns 1. -/
def iniSetWithComment (ini : INIFile) (sectionName keyName value : Text)
    (comment : Option Text) : INIFile × Int :=
  (setEntry ini sectionName keyName value comment, 1)

def iniSet (ini : INIFile) (sectionName keyName value : Text) :
    INIFile × Int :=
  iniSetWithComment ini sectionName keyName value none

/-- `ini_delete_key` with a non-null `ini`. -/
def iniDeleteKey (ini : INIFile) (sectionName keyName : Text) :
    INIFile × Int :=
  match findSection ini sectionName with
  | none => (ini, 0)
  | some current =>
      match unlinkFirst (keyNamed keyName) current.keys with
      | none => (ini, 0)
      | some keys =>
          ({ ini with
              sections := updateFirst (sectionNamed sectionName)
                (fun home => { home with keys := keys }) ini.sections
              modified := true }, 1)

def iniDeleteSection (ini : INIFile) (sectionName : Text) : INIFile × Int :=
  match unlinkFirst (sectionNamed sectionName) ini.sections with
  | none => (ini, 0)
  | some sections => ({ ini with sections, modified := true }, 1)

def keyView (key : KeyValue) : Text × Text :=
  (key.key.text, key.value.text)

def sectionView (current : Section) : Text × List (Text × Text) :=
  (current.name.text, current.keys.map keyView)

/-- Names, keys and values in chain order, without the comments. -/
def view (ini : INIFile) : Document Text Text Text :=
  ini.sections.map sectionView

theorem lookup_map_of_find {Node Content : Type} (nodes : List Node)
    (label : Node → Text) (content : Node → Content) (name : Text) :
    (nodes.map fun node => (label node, content node)).lookup name =
      (nodes.find? fun node => label node == name).map content := by
  induction nodes with
  | nil => rfl
  | cons node rest ih =>
      simp only [List.map_cons, List.lookup_cons, List.find?_cons]
      by_cases same : label node = name
      · simp [same]
      · have left : (name == label node) = false := by
          simpa using fun clash : name = label node => same clash.symm
        have right : (label node == name) = false := by simpa using same
        simp [left, right, ih]

theorem lookup_keyView (keys : List KeyValue) (keyName : Text) :
    (keys.map keyView).lookup keyName =
      (keys.find? (keyNamed keyName)).map fun key => key.value.text :=
  lookup_map_of_find keys (fun key => key.key.text)
    (fun key => key.value.text) keyName

theorem lookup_sectionView (sections : List Section) (sectionName : Text) :
    (sections.map sectionView).lookup sectionName =
      (sections.find? (sectionNamed sectionName)).map
        fun current => current.keys.map keyView :=
  lookup_map_of_find sections (fun current => current.name.text)
    (fun current => current.keys.map keyView) sectionName

/-- `ini_get` is the first-match lookup of the document. -/
theorem iniGet_eq_firstValue (ini : INIFile) (sectionName keyName : Text) :
    iniGet ini sectionName keyName =
      firstValue (view ini) sectionName keyName := by
  rw [firstValue, view, lookup_sectionView, iniGet, findSection]
  cases ini.sections.find? (sectionNamed sectionName) with
  | none => rfl
  | some current =>
      simp only [Option.bind_eq_bind, Option.bind_some, Option.map_some]
      rw [lookup_keyView, findKey]
      cases current.keys.find? (keyNamed keyName) <;> rfl

theorem mem_of_iniGet (ini : INIFile) (sectionName keyName value : Text)
    (found : iniGet ini sectionName keyName = some value) :
    ∃ current ∈ ini.sections, current.name.text = sectionName ∧
      ∃ key ∈ current.keys,
        key.key.text = keyName ∧ key.value.text = value := by
  simp only [iniGet, findSection, findKey, Option.bind_eq_bind,
    Option.bind_eq_some_iff, Option.some.injEq] at found
  obtain ⟨current, home, key, hit, same⟩ := found
  exact ⟨current, List.mem_of_find?_eq_some home,
    by simpa [sectionNamed] using List.find?_some home, key,
    List.mem_of_find?_eq_some hit,
    by simpa [keyNamed] using List.find?_some hit, same⟩

end HenPlugins.Ini.Store
