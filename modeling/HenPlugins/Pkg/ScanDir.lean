import HenPlugins.Lib.DirectoryTree
import HenPlugins.Pkg.PkgEntries

/-!
# The scan of a drive

`scan_dir_recursive` builds the path of every entry in a buffer of 512 bytes
and asks the system what is there.
-/

set_option autoImplicit false

namespace HenPlugins.Pkg.ScanDir

open HenPlugins.Lib.ByteText
open HenPlugins.Lib.DirectoryTree
open HenPlugins.Pkg.PkgEntries

/-- A drive below the path that it is mounted at; the callers keep that path in
buffers of at most 48 bytes. -/
structure Drive where
  root : Text
  tree : Listing (BitVec 64)
  rootFits : root.length < 48
  valid : tree.Valid

def Drive.stat (drive : Drive) (path : Text) : Option (Found (BitVec 64)) :=
  resolve drive.root drive.tree path

def Drive.opendir (drive : Drive) (path : Text) :
    Option (Listing (BitVec 64)) :=
  match drive.stat path with
  | some (.dir entries) => some entries
  | _ => none

/-- What `readdir` returns. -/
def dirents (entries : Listing (BitVec 64)) : List Text :=
  dot :: dotDot :: entries.names

def isSkipped (name : Text) : Bool :=
  name = ascii ".git" || name = ascii "node_modules"

theorem hasPkgExt_of_skipped (name : Text) (skip : isSkipped name = true) :
    hasPkgExt name = false := by
  rw [isSkipped, Bool.or_eq_true, decide_eq_true_eq, decide_eq_true_eq] at skip
  rcases skip with rfl | rfl <;> rfl

def fullPath (dir name : Text) : Text :=
  snprintf pkgMaxPathLen (child dir name)

theorem length_fullPath (dir name : Text) :
    (fullPath dir name).length < pkgMaxPathLen := by
  rw [fullPath, snprintf, List.length_take, pkgMaxPathLen]
  omega

def newEntry (full name : Text) (size : BitVec 64)
    (fits : full.length < pkgMaxPathLen) : PkgEntry where
  path := full
  titleId := extractTitleId name pkgTidLen
  size := size
  pathFits := fits
  titleIdFits := extractTitleId_fits name pkgTidLen (by decide)

/-- The loop over a directory, with the call for the directories in it. -/
def scanEntries (drive : Drive) (recurse : Text → PkgList → PkgList)
    (dir : Text) : List Text → PkgList → PkgList
  | [], list => list
  | name :: names, list =>
      if name = dot ∨ name = dotDot ∨ isSkipped name then
        scanEntries drive recurse dir names list
      else
        match drive.stat (fullPath dir name) with
        | none => scanEntries drive recurse dir names list
        | some .special => scanEntries drive recurse dir names list
        | some (.dir _) =>
            scanEntries drive recurse dir names
              (recurse (fullPath dir name) list)
        | some (.file size) =>
            if hasPkgExt name then
              if room : list.count < pkgMaxResults then
                scanEntries drive recurse dir names
                  (list.push (newEntry (fullPath dir name) name size
                    (length_fullPath dir name)) room)
              else { list with overflow := true }
            else scanEntries drive recurse dir names list

section Entry
variable (drive : Drive) (recurse : Text → PkgList → PkgList)
  (dir name : Text) (names : List Text) (list : PkgList)

theorem scanEntries_skip
    (skip : name = dot ∨ name = dotDot ∨ isSkipped name = true) :
    scanEntries drive recurse dir (name :: names) list =
      scanEntries drive recurse dir names list := by
  rw [scanEntries, if_pos skip]

variable (taken : ¬ (name = dot ∨ name = dotDot ∨ isSkipped name = true))

include taken in
theorem scanEntries_dir (entries : Listing (BitVec 64))
    (stat : drive.stat (fullPath dir name) = some (.dir entries)) :
    scanEntries drive recurse dir (name :: names) list =
      scanEntries drive recurse dir names
        (recurse (fullPath dir name) list) := by
  rw [scanEntries, if_neg taken]
  simp only [stat]

include taken in
/-- Nothing is listed but a regular file with the extension. -/
theorem scanEntries_other
    (noDir : ∀ entries, drive.stat (fullPath dir name) ≠ some (.dir entries))
    (noFile : hasPkgExt name = true → ∀ size,
      drive.stat (fullPath dir name) ≠ some (.file size)) :
    scanEntries drive recurse dir (name :: names) list =
      scanEntries drive recurse dir names list := by
  rw [scanEntries, if_neg taken]
  cases stat : drive.stat (fullPath dir name) with
  | none => rfl
  | some found =>
      cases found with
      | special => rfl
      | dir entries => exact absurd stat (noDir entries)
      | file size =>
          have noExt : hasPkgExt name ≠ true := fun ext =>
            noFile ext size stat
          simp only [if_neg noExt]

include taken in
theorem scanEntries_file (size : BitVec 64)
    (stat : drive.stat (fullPath dir name) = some (.file size))
    (ext : hasPkgExt name = true) :
    scanEntries drive recurse dir (name :: names) list =
      if room : list.count < pkgMaxResults then
        scanEntries drive recurse dir names
          (list.push (newEntry (fullPath dir name) name size
            (length_fullPath dir name)) room)
      else { list with overflow := true } := by
  rw [scanEntries, if_neg taken]
  simp only [stat, if_pos ext]

end Entry

/-- With so many levels left of `PKG_MAX_DEPTH`. -/
def scanLevels (drive : Drive) : Nat → Text → PkgList → PkgList
  | 0, _, list => list
  | levels + 1, dir, list =>
      if pkgMaxResults ≤ list.count then { list with overflow := true }
      else
        match drive.opendir dir with
        | none => list
        | some entries =>
            scanEntries drive (scanLevels drive levels) dir (dirents entries)
              list

theorem scanLevels_dir (drive : Drive) (levels : Nat) (dir : Text)
    (entries : Listing (BitVec 64)) (list : PkgList)
    (stat : drive.stat dir = some (.dir entries)) :
    scanLevels drive (levels + 1) dir list =
      if pkgMaxResults ≤ list.count then { list with overflow := true }
      else scanEntries drive (scanLevels drive levels) dir entries.names
        list := by
  have opened : drive.opendir dir = some entries := by
    rw [Drive.opendir, stat]
  rw [scanLevels, opened]
  simp only
  rw [dirents, scanEntries_skip drive _ dir dot _ list (Or.inl rfl),
    scanEntries_skip drive _ dir dotDot _ list (Or.inr (Or.inl rfl))]

def scanDirRecursive (drive : Drive) (dir : Text) (list : PkgList)
    (depth : Nat) : PkgList :=
  scanLevels drive (pkgMaxDepth + 1 - depth) dir list

end HenPlugins.Pkg.ScanDir
