import Mathlib.Data.List.Infix
import HenPlugins.Lib.LexicalPath
import HenPlugins.Mono.SettingsPages

/-!
# The paths of packages

Internal storage is reached as `/mnt/../data`.  Before such a path is handed on
or shown, seven characters are cut off in front, wherever the marker stands.
-/

set_option autoImplicit false

namespace HenPlugins.Mono.PathFixups

open HenPlugins.Lib.ByteText
open HenPlugins.Lib.LexicalPath
open HenPlugins.Mono.SettingsPages

def byteSigns : Signs UInt8 where
  slash := '/'.toUInt8
  dot := '.'.toUInt8

def wideSigns : Signs UInt16 where
  slash := '/'.toNat.toUInt16
  dot := '.'.toNat.toUInt16

/-- The length of `mnt_sus_path`. -/
def mntSusLength : Nat := 7

section Fixups
variable {Letter : Type} [DecidableEq Letter]

/-- `strstr` looks for the marker everywhere. -/
def fixUp (marker path : List Letter) : List Letter :=
  if marker <:+: path then path.drop mntSusLength else path

end Fixups

/-- `content_url`, as UTF-8, when the original function is called. -/
def downloadRegisterTaskByStorageEx (contentUrl : Text) : Text :=
  fixUp (ascii "/mnt/..") contentUrl

/-- What `%ls` is given. -/
def shownPath (path : WideText) : WideText :=
  fixUp (wide "/mnt/../data") path

def pathDescSize : Nat := 260 + 128

/-- The `SecondTitle`; `encode` is the conversion of `%ls`. -/
def pkgNewElementEx (encode : WideText → Text) (path : WideText) : Text :=
  snprintf (pathDescSize - 1) (ascii "Path: " ++ encode (shownPath path))

/-- The path is short enough for `path_desc`. -/
def ShownWhole (encode : WideText → Text) (path : WideText) : Prop :=
  pkgNewElementEx encode path = ascii "Path: " ++ encode (shownPath path)

structure PathsKept (encode : WideText → Text)
    (url : AbsolutePath byteSigns) (path : AbsolutePath wideSigns) :
    Prop where
  passedOn : placeOf byteSigns (downloadRegisterTaskByStorageEx url.text) =
    placeOf byteSigns url.text
  shown : ShownWhole encode path.text →
    placeOf wideSigns (shownPath path.text) = placeOf wideSigns path.text

/-- What is cut off ends in front of a slash, and the rest climbs out of
it. -/
def CutClimbs {Letter : Type} [DecidableEq Letter] (signs : Signs Letter)
    (path : List Letter) : Prop :=
  path[mntSusLength]? = some signs.slash ∧
    (resolve signs [] (path.take mntSusLength)).length ≤
      climbs signs 0 (namesOf signs (path.drop (mntSusLength + 1)))

section Fixups
variable {Letter : Type} [DecidableEq Letter] (signs : Signs Letter)
  (path : AbsolutePath signs)

theorem placeOf_cut_iff :
    placeOf signs (path.text.drop mntSusLength) = placeOf signs path.text ↔
      CutClimbs signs path.text := by
  have whole := path.absolute
  rw [CutClimbs]
  by_cases slash : path.text[mntSusLength]? = some signs.slash
  · obtain ⟨bound, found⟩ := List.getElem?_eq_some_iff.mp slash
    have back : path.text.drop mntSusLength =
        signs.slash :: path.text.drop (mntSusLength + 1) := by
      rw [List.drop_eq_getElem_cons bound, found]
    have absolute :
        (path.text.take mntSusLength).head? = some signs.slash := by
      rw [List.head?_take, if_neg (by decide), whole]
    have cut := placeOf_drop_iff signs (path.text.take mntSusLength)
      (path.text.drop (mntSusLength + 1)) absolute
    rw [← back, List.take_append_drop] at cut
    rw [cut]
    simp [slash]
  · have relative : placeOf signs (path.text.drop mntSusLength) = none := by
      rw [placeOf, List.head?_drop, if_neg slash]
    rw [relative, placeOf_of_absolute signs _ whole]
    simp [slash]

theorem placeOf_fixUp_iff (marker : List Letter) :
    placeOf signs (fixUp marker path.text) = placeOf signs path.text ↔
      (marker <:+: path.text → CutClimbs signs path.text) := by
  rw [fixUp]
  by_cases marked : marker <:+: path.text
  · rw [if_pos marked, placeOf_cut_iff]
    simp [marked]
  · rw [if_neg marked]
    simp [marked]

end Fixups

/-- A fix-up keeps naming the file if and only if the marker is missing or what
is cut off makes no difference to the rest. -/
theorem pathsKept_iff (encode : WideText → Text)
    (url : AbsolutePath byteSigns) (path : AbsolutePath wideSigns) :
    PathsKept encode url path ↔
      (ascii "/mnt/.." <:+: url.text → CutClimbs byteSigns url.text) ∧
        (ShownWhole encode path.text →
          wide "/mnt/../data" <:+: path.text →
            CutClimbs wideSigns path.text) := by
  have passedOn := placeOf_fixUp_iff byteSigns url (ascii "/mnt/..")
  have shown := placeOf_fixUp_iff wideSigns path (wide "/mnt/../data")
  constructor
  · intro kept
    exact ⟨passedOn.mp kept.passedOn,
      fun short => shown.mp (kept.shown short)⟩
  · intro climbing
    exact ⟨passedOn.mpr climbing.1,
      fun short => shown.mpr (climbing.2 short)⟩

/-- A marker further on in the path: a relative path is handed on. -/
def strayUrl : AbsolutePath byteSigns where
  text := ascii "/mnt/usb0/mnt/../a.pkg"
  absolute := rfl

theorem strayUrl_not_kept :
    ¬ ∀ encode url path, PathsKept encode url path := by
  intro always
  have kept := (always (fun _ => []) strayUrl ⟨wide "/", rfl⟩).passedOn
  have lost : placeOf byteSigns
      (downloadRegisterTaskByStorageEx strayUrl.text) = none := by decide
  rw [lost, placeOf_of_absolute byteSigns _ strayUrl.absolute] at kept
  contradiction

end HenPlugins.Mono.PathFixups
