import Mathlib.Data.List.Basic
import HenPlugins.Lib.ByteText

/-!
# Directory trees and paths

A directory lists its entries in some order; regular files have a size.  A path
below a root is followed component by component, where an empty component and a
dot stay and two dots lead back.  There are no links.
-/

set_option autoImplicit false

namespace HenPlugins.Lib.DirectoryTree

open HenPlugins.Lib.ByteText

abbrev pathSlash : UInt8 := '/'.toUInt8

def dot : Text := ascii "."
def dotDot : Text := ascii ".."

variable {Size : Type}

/-- The entries of a directory. -/
inductive Listing (Size : Type) where
  | nil
  | file (name : Text) (size : Size) (rest : Listing Size)
  | special (name : Text) (rest : Listing Size)
  | dir (name : Text) (entries : Listing Size) (rest : Listing Size)

/-- What a path leads to. -/
inductive Found (Size : Type) where
  | file (size : Size)
  | special
  | dir (entries : Listing Size)

namespace Listing

def names : Listing Size → List Text
  | .nil => []
  | .file name _ rest => name :: rest.names
  | .special name rest => name :: rest.names
  | .dir name _ rest => name :: rest.names

def lookup (target : Text) : Listing Size → Option (Found Size)
  | .nil => none
  | .file name size rest =>
      if name = target then some (.file size) else rest.lookup target
  | .special name rest =>
      if name = target then some .special else rest.lookup target
  | .dir name entries rest =>
      if name = target then some (.dir entries) else rest.lookup target

end Listing

structure NameFits (name : Text) : Prop where
  nonempty : name ≠ []
  noSlash : pathSlash ∉ name
  notDot : name ≠ dot
  notDotDot : name ≠ dotDot

/-- The names of a directory differ, and so it is below it. -/
def Listing.Valid : Listing Size → Prop
  | .nil => True
  | .file name _ rest => NameFits name ∧ name ∉ rest.names ∧ rest.Valid
  | .special name rest => NameFits name ∧ name ∉ rest.names ∧ rest.Valid
  | .dir name entries rest =>
      NameFits name ∧ name ∉ rest.names ∧ entries.Valid ∧ rest.Valid

def components : Text → List Text
  | [] => [[]]
  | byte :: rest =>
      if byte = pathSlash then [] :: components rest
      else
        match components rest with
        | [] => [[byte]]
        | first :: more => (byte :: first) :: more

/-- From a directory, with those above it. -/
def follow : Listing Size → List (Listing Size) → List Text →
    Option (Found Size)
  | here, _, [] => some (.dir here)
  | here, above, name :: rest =>
      if name = [] ∨ name = dot then follow here above rest
      else if name = dotDot then
        match above with
        | [] => none
        | parent :: older => follow parent older rest
      else
        match here.lookup name with
        | none => none
        | some (.dir entries) => follow entries (here :: above) rest
        | some found => if rest = [] then some found else none

/-- A path below the root path. -/
def resolve (root : Text) (tree : Listing Size) (path : Text) :
    Option (Found Size) :=
  if root.isPrefixOf path then
    match path.drop root.length with
    | [] => some (.dir tree)
    | byte :: rest =>
        if byte = pathSlash then follow tree [] (components rest) else none
  else none

def child (dir name : Text) : Text := dir ++ pathSlash :: name

theorem components_of_noSlash (name : Text) (noSlash : pathSlash ∉ name) :
    components name = [name] := by
  induction name with
  | nil => rfl
  | cons byte rest ih =>
      rw [List.mem_cons, not_or] at noSlash
      obtain ⟨differ, later⟩ := noSlash
      rw [components, if_neg (Ne.symm differ), ih later]

theorem components_child (name rest : Text) (noSlash : pathSlash ∉ name) :
    components (name ++ pathSlash :: rest) = name :: components rest := by
  induction name with
  | nil => rw [List.nil_append, components, if_pos rfl]
  | cons byte name ih =>
      rw [List.mem_cons, not_or] at noSlash
      obtain ⟨differ, later⟩ := noSlash
      rw [List.cons_append, components, if_neg (Ne.symm differ), ih later]

theorem lookup_mem (listing : Listing Size) (name : Text)
    (found : Found Size) (here : listing.lookup name = some found) :
    name ∈ listing.names := by
  induction listing with
  | nil => contradiction
  | file other size rest ih | special other rest ih
  | dir other entries rest _ ih =>
      rw [Listing.lookup] at here
      rw [Listing.names]
      split at here
      · rename_i same
        rw [same]
        exact List.mem_cons_self ..
      · exact List.mem_cons_of_mem _ (ih here)

theorem nameFits_of_mem (listing : Listing Size) (valid : listing.Valid)
    (name : Text) (member : name ∈ listing.names) : NameFits name := by
  induction listing with
  | nil => contradiction
  | file other size rest ih | special other rest ih =>
      obtain ⟨fits, -, later⟩ := valid
      rcases List.mem_cons.mp member with rfl | behind
      · exact fits
      · exact ih later behind
  | dir other entries rest _ ih =>
      obtain ⟨fits, -, -, later⟩ := valid
      rcases List.mem_cons.mp member with rfl | behind
      · exact fits
      · exact ih later behind

theorem nameFits_of_lookup (listing : Listing Size) (valid : listing.Valid)
    (name : Text) (found : Found Size)
    (here : listing.lookup name = some found) : NameFits name :=
  nameFits_of_mem listing valid name (lookup_mem listing name found here)

theorem follow_name (here : Listing Size) (above : List (Listing Size))
    (name : Text) (rest : List Text) (fits : NameFits name) :
    follow here above (name :: rest) =
      match here.lookup name with
      | none => none
      | some (.dir entries) => follow entries (here :: above) rest
      | some found => if rest = [] then some found else none := by
  conv_lhs => unfold follow
  rw [if_neg (not_or.mpr ⟨fits.nonempty, fits.notDot⟩),
    if_neg fits.notDotDot]

theorem follow_single (here : Listing Size) (above : List (Listing Size))
    (name : Text) (fits : NameFits name) :
    follow here above [name] = here.lookup name := by
  rw [follow_name here above name [] fits]
  cases here.lookup name with
  | none => rfl
  | some found => cases found <;> rfl

theorem follow_noName (here : Listing Size) (above : List (Listing Size))
    (name : Text) (noName : name = [] ∨ name = dot ∨ name = dotDot)
    (size : Size) : follow here above [name] ≠ some (.file size) := by
  unfold follow
  split
  · simp [follow]
  · rename_i leaves
    have back : name = dotDot := by tauto
    rw [if_pos back]
    split
    · simp
    · simp [follow]

theorem follow_file_iff (here : Listing Size) (valid : here.Valid)
    (above : List (Listing Size)) (name : Text) (noSlash : pathSlash ∉ name)
    (size : Size) :
    follow here above [name] = some (.file size) ↔
      here.lookup name = some (.file size) := by
  by_cases noName : name = [] ∨ name = dot ∨ name = dotDot
  · refine iff_of_false (follow_noName here above name noName size) ?_
    intro found
    have fits := nameFits_of_lookup here valid name _ found
    rcases noName with empty | isDot | isDotDot
    · exact fits.nonempty empty
    · exact fits.notDot isDot
    · exact fits.notDotDot isDotDot
  · rw [not_or, not_or] at noName
    obtain ⟨nonempty, notDot, notDotDot⟩ := noName
    rw [follow_single here above name
      ⟨nonempty, noSlash, notDot, notDotDot⟩]

section Leading
variable (root : Text) (tree : Listing Size)

/-- The path leads to the directory, and on to what it holds. -/
structure Leads (dir : Text) (here : Listing Size)
    (above : List (Listing Size)) : Prop where
  there : resolve root tree dir = some (.dir here)
  onward : ∀ rest, resolve root tree (child dir rest) =
    follow here above (components rest)

theorem leads_root : Leads root tree root tree [] where
  there := by
    rw [resolve, if_pos (List.isPrefixOf_iff_prefix.mpr (List.prefix_refl _)),
      List.drop_length]
  onward := by
    intro rest
    rw [resolve, child, if_pos (List.isPrefixOf_iff_prefix.mpr
      (List.prefix_append _ _)), List.drop_left]
    simp only [if_true]

theorem leads_child (dir name : Text) (here entries : Listing Size)
    (above : List (Listing Size)) (fits : NameFits name)
    (found : here.lookup name = some (.dir entries))
    (leads : Leads root tree dir here above) :
    Leads root tree (child dir name) entries (here :: above) where
  there := by
    rw [leads.onward, components_of_noSlash name fits.noSlash,
      follow_single here above name fits, found]
  onward := by
    intro rest
    have joined : child (child dir name) rest =
        child dir (name ++ pathSlash :: rest) := by
      simp only [child, List.append_assoc, List.cons_append]
    rw [joined, leads.onward, components_child name rest fits.noSlash,
      follow_name here above name _ fits, found]

end Leading

end HenPlugins.Lib.DirectoryTree
