import HenPlugins.Pkg.PkgPage
import HenPlugins.Pkg.ScanDir

/-!
# The package browser

`PkgBrowser_Refresh` scans every USB drive and writes the page, and
`PkgBrowser_InstallByPath` hands a path of the page to the installer of the
system.
-/

set_option autoImplicit false

namespace HenPlugins.Pkg.PkgBrowser

open HenPlugins.Lib.ByteText
open HenPlugins.Lib.DirectoryTree
open HenPlugins.Pkg.PkgEntries
open HenPlugins.Pkg.PkgPage
open HenPlugins.Pkg.ScanDir

/-- A path that a drive may be mounted at. -/
structure Root where
  path : Text
  fits : path.length < 48

/-- What is mounted, by the path. -/
structure Mounts where
  tree : Text → Option (Listing (BitVec 64))
  valid : ∀ path entries, tree path = some entries → entries.Valid

theorem snprintf_root (outSz : Nat) (text : Text) (some : 0 < outSz)
    (small : outSz ≤ 48) : (snprintf outSz text).length < 48 := by
  have short := length_snprintf outSz text
  omega

/-- `/mnt/usb%d` -/
def usbRoot (i : Nat) : Root where
  path := snprintf 32 (ascii "/mnt/usb" ++ decimal i)
  fits := snprintf_root 32 _ (by decide) (by decide)

/-- `/mnt/usb%d.%d` -/
def altRoot (i j : Nat) : Root where
  path := snprintf 48 (ascii "/mnt/usb" ++ decimal i ++ ascii "." ++ decimal j)
  fits := snprintf_root 48 _ (by decide) (by decide)

/-- Scan the drive if there is one. -/
def scanRoot (mounts : Mounts) (list : PkgList) (root : Root) : PkgList :=
  match mounted : mounts.tree root.path with
  | none => list
  | some entries =>
      scanDirRecursive
        ⟨root.path, entries, root.fits, mounts.valid _ _ mounted⟩ root.path
        list 0

def scanAllUsb (mounts : Mounts) : PkgList :=
  (List.range 8).foldl (fun list i =>
    (List.range 8).foldl (fun list j => scanRoot mounts list (altRoot i j))
      (scanRoot mounts list (usbRoot i))) emptyList

/-- `g_last_scan`, `g_has_scanned` and what is in the file of the page. -/
structure BrowserState where
  lastScan : PkgList
  hasScanned : Bool
  pageFile : Option Text

def getLastCount (state : BrowserState) : Nat :=
  if state.hasScanned then state.lastScan.count else 0

/-- `opened` says whether the file of the page can be opened for writing. -/
def refresh (mounts : Mounts) (opened : Bool) (state : BrowserState) :
    BrowserState :=
  let list := scanAllUsb mounts
  { lastScan := list
    hasScanned := true
    pageFile := (writePage opened list).2.or state.pageFile }

/-- The roots in the order in which the scan asks for them. -/
def driveRoots : List Root :=
  (List.range 8).flatMap fun i =>
    usbRoot i :: (List.range 8).map fun j => altRoot i j

/-- `stat` of a path below `/mnt`: the drive that the path is on says. -/
def Mounts.stat (mounts : Mounts) (path : Text) : Option (Found (BitVec 64)) :=
  driveRoots.findSome? fun root =>
    (mounts.tree root.path).bind fun entries => resolve root.path entries path

/-- The result, and what the installer is called with; `installer` is
`sceAppInstUtilAppInstallPkg`, if it is resolved. -/
def installByPath (mounts : Mounts) (installer : Option (Text → Int))
    (pkgPath : Text) : Int × Option Text :=
  if pkgPath = [] then (-1, none)
  else
    match mounts.stat pkgPath with
    | some (.file _) =>
        match installer with
        | none => (-3, none)
        | some fn => (fn pkgPath, some pkgPath)
    | _ => (-2, none)

end HenPlugins.Pkg.PkgBrowser
