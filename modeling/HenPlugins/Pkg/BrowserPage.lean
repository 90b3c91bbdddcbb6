import HenPlugins.Pkg.PageTags
import HenPlugins.Pkg.PkgBrowser
import HenPlugins.Pkg.TruncationNotice

/-!
# What a refresh of the browser shows

Every button of the page leads to a regular file that is on a drive, and the
installer takes it.  If all paths fit and no directory lies too deep, the
buttons are those of the package files of all drives, in the order of the
drives, as many as the list has room for.
-/

set_option autoImplicit false

namespace HenPlugins.Pkg.BrowserPage

open HenPlugins.Lib.ByteText
open HenPlugins.Lib.DirectoryTree
open HenPlugins.Lib.XmlText
open HenPlugins.Pkg.PkgEntries
open HenPlugins.Pkg.PkgPage
open HenPlugins.Pkg.PageTags
open HenPlugins.Pkg.ScanDir
open HenPlugins.Pkg.ScanVisits
open HenPlugins.Pkg.TruncationNotice
open HenPlugins.Pkg.PkgBrowser

/-! ## What is asked -/

/-- The package files below a directory, with path and size; two kinds of
directories are skipped. -/
def packages (dir : Text) : Listing (BitVec 64) → List (Text × BitVec 64)
  | .nil => []
  | .file name size rest =>
      (if hasPkgExt name then [(child dir name, size)] else []) ++
        packages dir rest
  | .special _ rest => packages dir rest
  | .dir name entries rest =>
      (if isSkipped name then [] else packages (child dir name) entries) ++
        packages dir rest

def drivePackages (mounts : Mounts) (root : Root) : List (Text × BitVec 64) :=
  match mounts.tree root.path with
  | none => []
  | some entries => packages root.path entries

def allPackages (mounts : Mounts) : List (Text × BitVec 64) :=
  driveRoots.flatMap (drivePackages mounts)

def driveMarks (mounts : Mounts) (root : Root) : List Mark :=
  match mounts.tree root.path with
  | none => []
  | some entries => .enter :: trail entries

def allMarks (mounts : Mounts) : List Mark :=
  driveRoots.flatMap (driveMarks mounts)

/-- Paths fit and directories are not too deep, on every drive. -/
def DrivesFit (mounts : Mounts) : Prop :=
  ∀ root ∈ driveRoots, ∀ entries, mounts.tree root.path = some entries →
    PathsFit root.path entries ∧ Shallow pkgMaxDepth entries

/-- A button that leads to the package file. -/
structure InstallButton (mounts : Mounts) (package : Text × BitVec 64)
    (tag : Tag) : Prop where
  button : tag.name = ascii "button"
  stands : mounts.stat package.1 = some (.file package.2)
  file : ∃ file, (ascii "file", file) ∈ tag.attributes ∧
    unescape file = ascii "pkg:" ++ package.1
  described : ∃ text, (ascii "description", text) ∈ tag.attributes ∧
    unescape text = ascii "Install package from " ++ package.1 ++
      ascii "&#xa;Size: " ++ formatSize package.2.toNat sizeStrSz

/-! ## Roots and paths -/

/-- The path is that of the root, or below it. -/
def OnRoot (root path : Text) : Prop :=
  path = root ∨ ∃ rest, path = child root rest

theorem onRoot_of_resolve (root : Text) (tree : Listing (BitVec 64))
    (path : Text) (found : Found (BitVec 64))
    (there : resolve root tree path = some found) : OnRoot root path := by
  rw [resolve] at there
  split at there
  · rename_i isPrefix
    obtain ⟨rest, rfl⟩ := List.isPrefixOf_iff_prefix.mp isPrefix
    rw [List.drop_left] at there
    cases rest with
    | nil => exact Or.inl (List.append_nil root)
    | cons byte rest =>
        simp only at there
        split at there
        · rename_i slash
          exact Or.inr ⟨rest, by rw [slash, child]⟩
        · contradiction
  · contradiction

/-- The part of a path behind `/mnt/`, up to the next slash. -/
def mountName (path : Text) : Text :=
  (path.drop 5).takeWhile (· != pathSlash)

theorem driveRoots_named :
    ∀ root ∈ driveRoots, root.path = ascii "/mnt/" ++ mountName root.path := by
  decide

theorem mountName_of_onRoot (root : Root) (listed : root ∈ driveRoots)
    (path : Text) (on : OnRoot root.path path) :
    root.path = ascii "/mnt/" ++ mountName path := by
  have named := driveRoots_named root listed
  rcases on with rfl | ⟨rest, rfl⟩
  · exact named
  · rw [named]
    generalize whole : mountName root.path = name at named
    have clear : ∀ byte ∈ name, (byte != pathSlash) = true := by
      intro byte member
      rw [← whole] at member
      exact List.mem_takeWhile_imp (p := fun byte => byte != pathSlash) member
    have mount : (ascii "/mnt/").length = 5 := rfl
    have same : mountName (child (ascii "/mnt/" ++ name) rest) = name := by
      rw [child, mountName, List.append_assoc, ← mount, List.drop_left,
        List.takeWhile_append_of_pos clear]
      simp
    rw [same]

theorem stat_of_drive (mounts : Mounts) (root : Root)
    (listed : root ∈ driveRoots) (entries : Listing (BitVec 64))
    (mounted : mounts.tree root.path = some entries) (path : Text)
    (found : Found (BitVec 64))
    (there : resolve root.path entries path = some found) :
    mounts.stat path = some found := by
  have here : ((mounts.tree root.path).bind fun entries =>
      resolve root.path entries path) = some found := by
    rw [mounted, Option.bind_some, there]
  have some : (mounts.stat path).isSome := by
    rw [Mounts.stat, List.findSome?_isSome_iff]
    exact ⟨root, listed, by rw [here]; rfl⟩
  obtain ⟨answer, stat⟩ := Option.isSome_iff_exists.mp some
  obtain ⟨other, otherListed, told⟩ := List.exists_of_findSome?_eq_some stat
  obtain ⟨otherEntries, otherMounted, otherThere⟩ :=
    Option.bind_eq_some_iff.mp told
  have same : other.path = root.path := by
    rw [mountName_of_onRoot other otherListed path
      (onRoot_of_resolve _ _ _ _ otherThere),
      mountName_of_onRoot root listed path (onRoot_of_resolve _ _ _ _ there)]
  rw [same, here] at told
  rw [stat, told]

/-! ## What is listed is there -/

/-- An entry that the scan of the drive may list. -/
def Listed (drive : Drive) (e : PkgEntry) : Prop :=
  drive.stat e.path = some (.file e.size)

theorem listed_scanEntries (drive : Drive)
    (recurse : Text → PkgList → PkgList) (holds : PkgEntry → Prop)
    (listed : ∀ e, Listed drive e → holds e) (dir : Text)
    (inner : ∀ dir list, (∀ e ∈ list.entries, holds e) →
      ∀ e ∈ (recurse dir list).entries, holds e)
    (names : List Text) (list : PkgList)
    (before : ∀ e ∈ list.entries, holds e) :
    ∀ e ∈ (scanEntries drive recurse dir names list).entries, holds e := by
  induction names generalizing list with
  | nil => exact before
  | cons name names ih =>
      rw [scanEntries]
      split
      · exact ih list before
      · split
        · exact ih list before
        · exact ih list before
        · exact ih _ (inner _ list before)
        · rename_i size stat
          split
          · split
            · apply ih
              intro e member
              rcases List.mem_append.mp member with old | fresh
              · exact before e old
              · rw [List.mem_singleton.mp fresh]
                exact listed _ stat
            · exact before
          · exact ih list before

theorem listed_scanLevels (drive : Drive) (holds : PkgEntry → Prop)
    (listed : ∀ e, Listed drive e → holds e) (levels : Nat) (dir : Text)
    (list : PkgList) (before : ∀ e ∈ list.entries, holds e) :
    ∀ e ∈ (scanLevels drive levels dir list).entries, holds e := by
  induction levels generalizing dir list with
  | zero => exact before
  | succ levels ih =>
      rw [scanLevels]
      split
      · exact before
      · split
        · exact before
        · exact listed_scanEntries drive _ holds listed dir
            (fun dir list => ih dir list) _ list before

theorem scanAllUsb_eq (mounts : Mounts) :
    scanAllUsb mounts = driveRoots.foldl (scanRoot mounts) emptyList := by
  rw [scanAllUsb, driveRoots, List.foldl_flatMap]
  rfl

theorem scanAllUsb_keeps (mounts : Mounts) (holds : PkgList → Prop)
    (initially : holds emptyList)
    (kept : ∀ root ∈ driveRoots, ∀ list, holds list →
      holds (scanRoot mounts list root)) : holds (scanAllUsb mounts) := by
  rw [scanAllUsb_eq]
  exact List.foldlRecOn driveRoots _ initially fun list before root listed =>
    kept root listed list before

theorem stat_of_listed (mounts : Mounts) :
    ∀ e ∈ (scanAllUsb mounts).entries,
      mounts.stat e.path = some (.file e.size) := by
  apply scanAllUsb_keeps mounts fun list => ∀ e ∈ list.entries,
    mounts.stat e.path = some (.file e.size)
  · intro e member
    contradiction
  · intro root rootListed list before
    rw [scanRoot]
    split
    · exact before
    · rename_i entries mounted
      apply listed_scanLevels _ _ _ _ _ list before
      intro e listed
      exact stat_of_drive mounts root rootListed entries mounted e.path _ listed

/-! ## What is there is listed -/

theorem entryVisits_of_fits (dir : Text) (here : Listing (BitVec 64))
    (name : Text) (inside : List Visit)
    (fits : (child dir name).length < pkgMaxPathLen) :
    entryVisits dir here name inside =
      if isSkipped name then [] else inside := by
  rw [entryVisits, if_pos fits]

def packageOf (visit : Visit) : Text × BitVec 64 := (visit.path, visit.size)

/-- Where paths fit and no level is missing, the walk visits the package
files. -/
theorem visits_packages (part : Listing (BitVec 64)) (levels : Nat)
    (dir : Text) (here : Listing (BitVec 64)) (short : PathsFit dir part)
    (shallow : Shallow levels part) :
    (visits levels dir here part).map packageOf = packages dir part := by
  induction part generalizing levels dir here with
  | nil => rfl
  | file name size rest ih =>
      obtain ⟨fits, later⟩ := short
      rw [Shallow] at shallow
      rw [visits, packages, entryVisits_of_fits dir here name _ fits,
        List.map_append, ih levels dir here later shallow]
      by_cases skip : isSkipped name = true
      · rw [if_pos skip, hasPkgExt_of_skipped name skip]
        rfl
      · rw [if_neg skip]
        by_cases ext : hasPkgExt name = true
        · simp only [if_pos ext, List.map_singleton, packageOf]
        · simp only [if_neg ext, List.map_nil]
  | special name rest ih =>
      obtain ⟨fits, later⟩ := short
      rw [Shallow] at shallow
      rw [visits, packages, entryVisits_of_fits dir here name _ fits, ite_self,
        List.nil_append, ih levels dir here later shallow]
  | dir name entries rest entriesInduction ih =>
      obtain ⟨fits, inner, later⟩ := short
      cases levels with
      | zero =>
          rw [Shallow] at shallow
          contradiction
      | succ levels =>
          rw [Shallow] at shallow
          rw [visits, packages, entryVisits_of_fits dir here name _ fits,
            List.map_append, ih (levels + 1) dir here later shallow.2]
          by_cases skip : isSkipped name = true
          · rw [if_pos skip, if_pos skip, List.map_nil]
          · rw [if_neg skip, if_neg skip, entriesInduction levels
              (child dir name) entries inner shallow.1]

/-- The scan lists these packages and makes these marks. -/
structure Scans (before after : PkgList) (found : List (Text × BitVec 64))
    (marks : List Mark) : Prop where
  filled : ∃ hits : List Visit, hits.map packageOf = found ∧
    Filled before hits after
  tally : tallyOf after = marks.foldl Tally.mark (tallyOf before)

theorem scans_drive (drive : Drive) (list : PkgList)
    (short : PathsFit drive.root drive.tree)
    (shallow : Shallow pkgMaxDepth drive.tree) :
    Scans list (scanDirRecursive drive drive.root list 0)
      (packages drive.root drive.tree) (.enter :: trail drive.tree) := by
  have walking := walking_root drive
  rw [scanDirRecursive, Nat.sub_zero]
  refine ⟨⟨visits pkgMaxDepth drive.root drive.tree drive.tree,
    visits_packages _ _ _ _ short shallow, ?_⟩, ?_⟩
  · rw [scanLevels_dir drive pkgMaxDepth drive.root drive.tree list
      walking.leads.there]
    by_cases full : pkgMaxResults ≤ list.count
    · rw [if_pos full]
      exact filled_full list _ _ full rfl
    · rw [if_neg full]
      exact filled_visits drive drive.tree pkgMaxDepth drive.root drive.tree
        [] walking drive.valid (fun _ _ there => there) list
  · apply tally_enter drive pkgMaxDepth drive.root drive.tree
      walking.leads.there
    intro list
    exact tally_scanEntries drive drive.tree pkgMaxDepth drive.root drive.tree
      [] walking drive.valid (fun _ _ there => there) short shallow list

section Fitting
variable (mounts : Mounts)

theorem scans_root (root : Root) (list : PkgList)
    (fits : ∀ entries, mounts.tree root.path = some entries →
      PathsFit root.path entries ∧ Shallow pkgMaxDepth entries) :
    Scans list (scanRoot mounts list root) (drivePackages mounts root)
      (driveMarks mounts root) := by
  rw [scanRoot]
  split
  · rename_i unmounted
    rw [drivePackages, driveMarks, unmounted]
    exact ⟨⟨[], rfl, filled_nil list list rfl⟩, rfl⟩
  · rename_i entries mounted
    have found : drivePackages mounts root = packages root.path entries := by
      rw [drivePackages, mounted]
    have marks : driveMarks mounts root = .enter :: trail entries := by
      rw [driveMarks, mounted]
    rw [found, marks]
    obtain ⟨short, shallow⟩ := fits entries mounted
    exact scans_drive _ list short shallow

theorem scans_roots (roots : List Root) (list : PkgList)
    (fits : ∀ root ∈ roots, ∀ entries, mounts.tree root.path = some entries →
      PathsFit root.path entries ∧ Shallow pkgMaxDepth entries) :
    Scans list (roots.foldl (scanRoot mounts) list)
      (roots.flatMap (drivePackages mounts))
      (roots.flatMap (driveMarks mounts)) := by
  induction roots generalizing list with
  | nil => exact ⟨⟨[], rfl, filled_nil list list rfl⟩, rfl⟩
  | cons root roots ih =>
      obtain ⟨first, later⟩ := List.forall_mem_cons.mp fits
      have here := scans_root mounts root list first
      have behind := ih (scanRoot mounts list root) later
      obtain ⟨hits, these, filledHere⟩ := here.filled
      obtain ⟨more, those, filledBehind⟩ := behind.filled
      rw [List.flatMap_cons, List.flatMap_cons, List.foldl_cons]
      refine ⟨⟨hits ++ more, ?_, filled_append _ _ _ _ _ filledHere
        filledBehind⟩, ?_⟩
      · rw [List.map_append, these, those]
      · rw [behind.tally, here.tally, List.foldl_append]

/-- All package files, as many as there is room for, and the flag by the
marks of all drives. -/
theorem scanAllUsb_fits (fits : DrivesFit mounts) :
    pairs (scanAllUsb mounts) = (allPackages mounts).take pkgMaxResults ∧
      (scanAllUsb mounts).overflow = decide (Overflows (allMarks mounts)) := by
  have scans := scans_roots mounts driveRoots emptyList fits
  rw [← scanAllUsb_eq, ← allPackages, ← allMarks] at scans
  obtain ⟨hits, all, filled⟩ := scans.filled
  refine ⟨?_, ?_⟩
  · rw [filled, ← all]
    rfl
  · have tally := scans.tally
    have marked := foldl_mark (allMarks mounts)
    exact congrArg Tally.overflow (tally.trans marked)

end Fitting

/-! ## The page -/

theorem installButton (mounts : Mounts) (i : Nat) (e : PkgEntry) (tag : Tag)
    (button : EntryButton i e tag)
    (stands : mounts.stat e.path = some (.file e.size)) :
    InstallButton mounts (e.path, e.size) tag := by
  obtain ⟨title, description, file, attributes, -, described, leads⟩ :=
    button.attributes
  refine ⟨button.name, stands, ⟨file, ?_, leads⟩, ⟨description, ?_, described⟩⟩
  · rw [attributes]
    simp
  · rw [attributes]
    simp

/-- The path of a button reaches the installer, if that is resolved. -/
def handedOver (installer : Option (Text → Int)) (path : Text) :
    Int × Option Text :=
  match installer with
  | none => (-3, none)
  | some fn => (fn path, some path)

theorem installByPath_button (mounts : Mounts) (package : Text × BitVec 64)
    (tag : Tag) (button : InstallButton mounts package tag)
    (installer : Option (Text → Int)) :
    installByPath mounts installer package.1 =
      handedOver installer package.1 := by
  have stands := button.stands
  have named : package.1 ≠ [] := by
    intro empty
    rw [empty, Mounts.stat] at stands
    obtain ⟨root, listed, there⟩ := List.exists_of_findSome?_eq_some stands
    obtain ⟨entries, -, resolved⟩ := Option.bind_eq_some_iff.mp there
    have prefixed := driveRoots_named root listed
    rcases onRoot_of_resolve _ _ _ _ resolved with same | ⟨rest, same⟩
    · rw [← same] at prefixed
      contradiction
    · rw [child] at same
      simp at same
  unfold installByPath
  rw [if_neg named, stands]
  rfl

/-- The page shows the packages that were found. -/
def Shows (mounts : Mounts) (found : List (Text × BitVec 64))
    (extra : List Tag) (text : Text) : Prop :=
  ∃ tags,
    lex .outside text =
      some (headTags found.length ++ tags ++ extra ++ tailTags) ∧
    List.Forall₂ (InstallButton mounts) found tags

/-- What a refresh has found and made of the page: a page that cannot be
opened for writing stays as it was. -/
structure PageInstalls (mounts : Mounts) (opened : Bool)
    (before after : BrowserState) (found : List (Text × BitVec 64))
    (extra : List Tag) : Prop where
  counted : getLastCount after = found.length
  written : opened = true →
    ∃ text, after.pageFile = some text ∧ Shows mounts found extra text
  stale : opened = false → after.pageFile = before.pageFile
  installs : ∀ package ∈ found, ∀ installer : Option (Text → Int),
    installByPath mounts installer package.1 =
      handedOver installer package.1

theorem installButtons (mounts : Mounts) :
    List.Forall₂ (InstallButton mounts) (pairs (scanAllUsb mounts))
      (entryTags 0 (scanAllUsb mounts).entries) := by
  have stands := stat_of_listed mounts
  generalize scanAllUsb mounts = list at stands
  rw [List.forall₂_iff_get]
  refine ⟨?_, ?_⟩
  · rw [length_entryTags, length_pairs]
    rfl
  · intro i first second
    have inside : i < list.entries.length := by
      rw [length_entryTags] at second
      exact second
    have entry : list.entries[i]? = some list.entries[i] :=
      List.getElem?_eq_getElem inside
    have tag := getElem?_entryTags 0 i list.entries _ entry
    rw [List.getElem?_eq_getElem second, Option.some_inj] at tag
    simp only [List.get_eq_getElem, tag, pairs, List.getElem_map]
    exact installButton mounts _ _ _ (entryTag_button _ _)
      (stands _ (List.getElem_mem inside))

/-- A drive with a package, and another with one in a directory. -/
def twoDrives : Mounts where
  tree path :=
    if path = ascii "/mnt/usb0" then some (.file (ascii "a.pkg") 5 .nil)
    else if path = ascii "/mnt/usb1.0" then
      some (.dir (ascii "games") (.file (ascii "b.pkg") 7 .nil) .nil)
    else none
  valid := by
    have first : NameFits (ascii "a.pkg") :=
      ⟨by decide, by decide, by decide, by decide⟩
    have outer : NameFits (ascii "games") :=
      ⟨by decide, by decide, by decide, by decide⟩
    have second : NameFits (ascii "b.pkg") :=
      ⟨by decide, by decide, by decide, by decide⟩
    intro path entries mounted
    split at mounted
    · cases mounted
      exact ⟨first, by decide, trivial⟩
    · split at mounted
      · cases mounted
        exact ⟨outer, by decide, ⟨second, by decide, trivial⟩, trivial⟩
      · contradiction

theorem twoDrives_fit : DrivesFit twoDrives := by
  intro root _ entries mounted
  simp only [twoDrives] at mounted
  split at mounted
  · rename_i here
    cases mounted
    rw [here]
    exact ⟨⟨by decide, trivial⟩, trivial⟩
  · split at mounted
    · rename_i here
      cases mounted
      rw [here]
      exact ⟨⟨by decide, ⟨by decide, trivial⟩, trivial⟩, trivial, trivial⟩
    · contradiction

end HenPlugins.Pkg.BrowserPage
