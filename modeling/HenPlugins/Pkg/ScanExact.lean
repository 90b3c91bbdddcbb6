import Mathlib.Data.List.Nodup
import Mathlib.Data.List.Perm.Subperm
import HenPlugins.Pkg.ScanVisits

/-!
# Which packages the scan finds

A package file is found under its own path if that is not cut.  What is listed
beside those are the strays: entries with the extension whose cut path names
another file.
-/

set_option autoImplicit false

namespace HenPlugins.Pkg.ScanExact

open HenPlugins.Lib.ByteText
open HenPlugins.Lib.DirectoryTree
open HenPlugins.Pkg.PkgEntries
open HenPlugins.Pkg.ScanDir
open HenPlugins.Pkg.ScanVisits

/-- The package files below a directory, with path and size. -/
def pkgFiles (dir : Text) : Listing (BitVec 64) → List (Text × BitVec 64)
  | .nil => []
  | .file name size rest =>
      (if hasPkgExt name then [(child dir name, size)] else []) ++
        pkgFiles dir rest
  | .special _ rest => pkgFiles dir rest
  | .dir name entries rest =>
      pkgFiles (child dir name) entries ++ pkgFiles dir rest

/-- No package file lies deeper than the scan goes, and none below a directory
that it skips. -/
def Reachable (depth : Nat) : Listing (BitVec 64) → Prop
  | .nil => True
  | .file name _ rest =>
      (hasPkgExt name = true → depth ≤ pkgMaxDepth) ∧ Reachable depth rest
  | .special _ rest => Reachable depth rest
  | .dir name entries rest =>
      (isSkipped name = true → ∀ dir, pkgFiles dir entries = []) ∧
        Reachable (depth + 1) entries ∧ Reachable depth rest

/-- Each package file once, with its path and size, and nothing else. -/
def FindsExactly (drive : Drive) : Prop :=
  (pairs (scanDirRecursive drive drive.root emptyList 0)).Perm
    (pkgFiles drive.root drive.tree)

/-- The stray takes the place of a package file that is not listed otherwise,
for which the list would have had no room. -/
structure StandsIn (drive : Drive) (visit : Visit) : Prop where
  many : (pkgFiles drive.root drive.tree).length = pkgMaxResults
  names : (visit.path, visit.size) ∈ pkgFiles drive.root drive.tree
  once : ((firstVisits drive).map Visit.path).count visit.path = 1

structure ScanReaches (drive : Drive) : Prop where
  short : ∀ file ∈ pkgFiles drive.root drive.tree,
    file.1.length < pkgMaxPathLen
  strays : ∀ visit ∈ firstVisits drive, visit.own = false →
    StandsIn drive visit

/-! ## Paths of package files -/

theorem pkgFiles_below (part : Listing (BitVec 64)) (dir : Text)
    (valid : part.Valid) (file : Text × BitVec 64)
    (member : file ∈ pkgFiles dir part) :
    ∃ rest, file.1 = child dir rest ∧
      ∃ name ∈ part.names, (components rest).head? = some name := by
  induction part generalizing dir with
  | nil => contradiction
  | file name size rest ih =>
      obtain ⟨fits, -, later⟩ := valid
      rw [pkgFiles, List.mem_append] at member
      rcases member with this | behind
      · split at this
        · rw [List.mem_singleton.mp this]
          refine ⟨name, rfl, name, List.mem_cons_self .., ?_⟩
          rw [components_of_noSlash name fits.noSlash]
          rfl
        · contradiction
      · obtain ⟨below, path, other, there, first⟩ := ih dir later behind
        exact ⟨below, path, other, List.mem_cons_of_mem _ there, first⟩
  | special name rest ih =>
      obtain ⟨-, -, later⟩ := valid
      obtain ⟨below, path, other, there, first⟩ := ih dir later member
      exact ⟨below, path, other, List.mem_cons_of_mem _ there, first⟩
  | dir name entries rest entriesInduction ih =>
      obtain ⟨fits, -, entriesValid, later⟩ := valid
      rw [pkgFiles, List.mem_append] at member
      rcases member with inside | behind
      · obtain ⟨below, path, -⟩ :=
          entriesInduction (child dir name) entriesValid inside
        refine ⟨name ++ pathSlash :: below, ?_, name,
          List.mem_cons_self .., ?_⟩
        · rw [path]
          simp only [child, List.append_assoc, List.cons_append]
        · rw [components_child name below fits.noSlash]
          rfl
      · obtain ⟨below, path, other, there, first⟩ := ih dir later behind
        exact ⟨below, path, other, List.mem_cons_of_mem _ there, first⟩

theorem length_child (dir name : Text) :
    (child dir name).length = dir.length + (name.length + 1) := by
  rw [child, List.length_append, List.length_cons]

theorem first_of_child_eq (dir rest other name otherName : Text)
    (same : child dir rest = child dir other)
    (first : (components rest).head? = some name)
    (otherFirst : (components other).head? = some otherName) :
    name = otherName := by
  have tails := List.append_cancel_left same
  rw [List.cons.injEq] at tails
  rw [tails.2, otherFirst] at first
  exact (Option.some.inj first).symm

theorem nodup_pkgFiles (part : Listing (BitVec 64)) (dir : Text)
    (valid : part.Valid) :
    ((pkgFiles dir part).map Prod.fst).Nodup := by
  induction part generalizing dir with
  | nil => exact List.nodup_nil
  | file name size rest ih =>
      obtain ⟨fits, fresh, later⟩ := valid
      rw [pkgFiles, List.map_append]
      refine List.Nodup.append ?_ (ih dir later) ?_
      · split
        · exact List.nodup_singleton _
        · exact List.nodup_nil
      · intro path here behind
        obtain ⟨file, member, rfl⟩ := List.mem_map.mp behind
        obtain ⟨below, path, other, there, first⟩ :=
          pkgFiles_below rest dir later file member
        split at here
        · have own : child dir name = child dir below := by
            rw [← path]
            exact (List.mem_singleton.mp here).symm
          apply fresh
          rw [first_of_child_eq dir name below name other own (by
            rw [components_of_noSlash name fits.noSlash]
            rfl) first]
          exact there
        · contradiction
  | special name rest ih =>
      obtain ⟨-, -, later⟩ := valid
      exact ih dir later
  | dir name entries rest entriesInduction ih =>
      obtain ⟨fits, fresh, entriesValid, later⟩ := valid
      rw [pkgFiles, List.map_append]
      refine List.Nodup.append (entriesInduction _ entriesValid)
        (ih dir later) ?_
      intro path inside behind
      obtain ⟨inner, innerMember, rfl⟩ := List.mem_map.mp inside
      obtain ⟨file, member, same⟩ := List.mem_map.mp behind
      obtain ⟨tail, innerPath, -⟩ :=
        pkgFiles_below entries (child dir name) entriesValid inner innerMember
      obtain ⟨below, path, other, there, first⟩ :=
        pkgFiles_below rest dir later file member
      have both : child dir (name ++ pathSlash :: tail) =
          child dir below := by
        rw [← path, same, innerPath]
        simp only [child, List.append_assoc, List.cons_append]
      apply fresh
      rw [first_of_child_eq dir _ below name other both (by
        rw [components_child name tail fits.noSlash]
        rfl) first]
      exact there

/-! ## What is listed under its own path -/

def ownPairs (hits : List Visit) : List (Text × BitVec 64) :=
  (hits.filter Visit.own).map fun visit => (visit.path, visit.size)

theorem ownPairs_append (hits more : List Visit) :
    ownPairs (hits ++ more) = ownPairs hits ++ ownPairs more := by
  rw [ownPairs, List.filter_append, List.map_append]
  rfl

theorem ownPairs_strayVisit (dir : Text) (here : Listing (BitVec 64))
    (name : Text) : ownPairs (strayVisit dir here name) = [] := by
  rw [strayVisit]
  split
  · split <;> rfl
  · rfl

/-- Nothing that counts is lost where an entry is skipped or its path cut. -/
theorem ownPairs_entry (dir : Text) (here : Listing (BitVec 64))
    (name : Text) (inside : List Visit) (files : List (Text × BitVec 64))
    (skipped : isSkipped name = true → files = [])
    (long : ¬ (child dir name).length < pkgMaxPathLen → files = [])
    (whole : (child dir name).length < pkgMaxPathLen →
      ownPairs inside = files) :
    ownPairs (entryVisits dir here name inside) = files := by
  rw [entryVisits]
  split
  · rename_i skip
    rw [skipped skip]
    rfl
  · split
    · rename_i short
      exact whole short
    · rename_i cut
      rw [ownPairs_strayVisit, long cut]

/-- There are no package files below the last level. -/
theorem pkgFiles_of_deep (part : Listing (BitVec 64)) (depth : Nat)
    (dir : Text) (reachable : Reachable depth part)
    (deep : pkgMaxDepth < depth) : pkgFiles dir part = [] := by
  induction part generalizing depth dir with
  | nil => rfl
  | file name size rest ih =>
      obtain ⟨reached, later⟩ := reachable
      have noExt : ¬ hasPkgExt name = true := by
        intro ext
        have := reached ext
        omega
      rw [pkgFiles, if_neg noExt, ih depth dir later deep, List.append_nil]
  | special name rest ih => exact ih depth dir reachable deep
  | dir name entries rest entriesInduction ih =>
      obtain ⟨-, inner, later⟩ := reachable
      rw [pkgFiles, entriesInduction (depth + 1) _ inner (by omega),
        ih depth dir later deep, List.append_nil]

theorem ownPairs_visits (part : Listing (BitVec 64)) (levels depth : Nat)
    (dir : Text) (here : Listing (BitVec 64)) (valid : part.Valid)
    (reachable : Reachable depth part) (left : depth + levels = pkgMaxDepth)
    (short : ∀ file ∈ pkgFiles dir part, file.1.length < pkgMaxPathLen) :
    ownPairs (visits levels dir here part) = pkgFiles dir part := by
  induction part generalizing levels depth dir here with
  | nil =>
      rw [visits]
      rfl
  | file name size rest ih =>
      obtain ⟨-, -, validRest⟩ := valid
      obtain ⟨-, later⟩ := reachable
      rw [pkgFiles] at short
      rw [visits, pkgFiles, ownPairs_append,
        ih levels depth dir here validRest later left fun file member =>
          short file (List.mem_append_right _ member)]
      congr 1
      apply ownPairs_entry
      · intro skip
        rw [hasPkgExt_of_skipped name skip, if_neg Bool.false_ne_true]
      · intro cut
        split
        · rename_i ext
          apply absurd (short (child dir name, size) _) cut
          rw [if_pos ext]
          exact List.mem_append_left _ (List.mem_singleton_self _)
        · rfl
      · intro _
        split <;> rfl
  | special name rest ih =>
      obtain ⟨-, -, validRest⟩ := valid
      rw [visits, ownPairs_append,
        ih levels depth dir here validRest reachable left short,
        ownPairs_entry dir here name [] [] (fun _ => rfl) (fun _ => rfl)
          (fun _ => rfl)]
      rfl
  | dir name entries rest entriesInduction ih =>
      obtain ⟨-, -, entriesValid, validRest⟩ := valid
      obtain ⟨noSkipped, inner, later⟩ := reachable
      rw [pkgFiles] at short
      rw [visits_dir, pkgFiles, ownPairs_append,
        ih levels depth dir here validRest later left fun file member =>
          short file (List.mem_append_right _ member)]
      congr 1
      apply ownPairs_entry
      · intro skip
        exact noSkipped skip _
      · intro cut
        rw [List.eq_nil_iff_forall_not_mem]
        intro file member
        obtain ⟨below, path, -⟩ :=
          pkgFiles_below entries (child dir name) entriesValid file member
        have fits := short file (List.mem_append_left _ member)
        rw [path, length_child] at fits
        omega
      · intro _
        cases levels with
        | zero =>
            rw [pkgFiles_of_deep entries (depth + 1) _ inner (by omega)]
            rfl
        | succ levels =>
            exact entriesInduction levels (depth + 1) _ entries entriesValid
              inner (by omega) fun file member =>
                short file (List.mem_append_left _ member)

/-! ## The strays -/

theorem nodup_map_of_filter {Item Key : Type} [BEq Key] [LawfulBEq Key]
    (items : List Item) (key : Item → Key) (own : Item → Bool)
    (owned : ((items.filter own).map key).Nodup)
    (others : ∀ item ∈ items, own item = false →
      (items.map key).count (key item) = 1) : (items.map key).Nodup := by
  rw [List.nodup_iff_count_le_one]
  intro path
  by_cases stray : ∃ item ∈ items, own item = false ∧ key item = path
  · obtain ⟨item, member, isStray, rfl⟩ := stray
    exact Nat.le_of_eq (others item member isStray)
  · have onlyOwn : (items.map key).count path =
        ((items.filter own).map key).count path := by
      rw [List.count_eq_countP, List.count_eq_countP, List.countP_map,
        List.countP_map, List.countP_filter]
      apply List.countP_congr
      intro item member
      cases isOwn : own item with
      | true => simp
      | false =>
          have differ : key item ≠ path := fun same =>
            stray ⟨item, member, isOwn, same⟩
          simp [differ]
    rw [onlyOwn]
    exact List.nodup_iff_count_le_one.mp owned path

section Exact
variable (drive : Drive) (reachable : Reachable 0 drive.tree)

include reachable in
theorem ownPairs_all
    (short : ∀ file ∈ pkgFiles drive.root drive.tree,
      file.1.length < pkgMaxPathLen) :
    ownPairs (visits pkgMaxDepth drive.root drive.tree drive.tree) =
      pkgFiles drive.root drive.tree :=
  ownPairs_visits drive.tree pkgMaxDepth 0 drive.root drive.tree drive.valid
    reachable (Nat.zero_add _) short

theorem short_of_findsExactly (exact : FindsExactly drive)
    (file : Text × BitVec 64)
    (member : file ∈ pkgFiles drive.root drive.tree) :
    file.1.length < pkgMaxPathLen := by
  have listed := exact.mem_iff.mpr member
  obtain ⟨e, -, rfl⟩ := List.mem_map.mp listed
  exact e.pathFits

include reachable in
theorem own_of_room (exact : FindsExactly drive)
    (room : (pkgFiles drive.root drive.tree).length < pkgMaxResults)
    (visit : Visit) (member : visit ∈ firstVisits drive) :
    visit.own = true := by
  have all := ownPairs_all drive reachable (short_of_findsExactly drive exact)
  have listed := exact.length_eq
  rw [pairs_scan, List.length_map, firstVisits, List.length_take] at listed
  have counted := congrArg List.length all
  rw [ownPairs, List.length_map] at counted
  have everything : ((visits pkgMaxDepth drive.root drive.tree
      drive.tree).filter Visit.own).length =
        (visits pkgMaxDepth drive.root drive.tree drive.tree).length := by
    omega
  exact List.length_filter_eq_length_iff.mp everything visit
    (List.mem_of_mem_take member)

include reachable in
theorem standsIn_of_findsExactly (exact : FindsExactly drive)
    (few : (pkgFiles drive.root drive.tree).length ≤ pkgMaxResults)
    (visit : Visit) (member : visit ∈ firstVisits drive)
    (stray : visit.own = false) : StandsIn drive visit where
  many := by
    by_contra differ
    have own := own_of_room drive reachable exact (by omega) visit member
    rw [stray] at own
    contradiction
  names := by
    rw [← exact.mem_iff, pairs_scan]
    exact List.mem_map.mpr ⟨visit, member, rfl⟩
  once := by
    have paths := exact.map Prod.fst
    rw [pairs_scan, List.map_map] at paths
    have distinct := paths.nodup_iff.mpr
      (nodup_pkgFiles drive.tree drive.root drive.valid)
    exact List.count_eq_one_of_mem distinct
      (List.mem_map.mpr ⟨visit, member, rfl⟩)

include reachable in
/-- The list holds different package files, and as many as there are. -/
theorem findsExactly_of_scanReaches (reaches : ScanReaches drive)
    (few : (pkgFiles drive.root drive.tree).length ≤ pkgMaxResults) :
    FindsExactly drive := by
  have all := ownPairs_all drive reachable reaches.short
  have first : ((firstVisits drive).filter Visit.own).Sublist
      ((visits pkgMaxDepth drive.root drive.tree drive.tree).filter
        Visit.own) :=
    (List.take_sublist _ _).filter _
  have distinct : ((firstVisits drive).map Visit.path).Nodup := by
    apply nodup_map_of_filter _ _ Visit.own _ fun visit member stray =>
      (reaches.strays visit member stray).once
    have files := nodup_pkgFiles drive.tree drive.root drive.valid
    rw [← all, ownPairs, List.map_map] at files
    exact files.sublist (first.map Visit.path)
  have within : ∀ file ∈ pairs (scanDirRecursive drive drive.root emptyList 0),
      file ∈ pkgFiles drive.root drive.tree := by
    intro file listed
    rw [pairs_scan] at listed
    obtain ⟨visit, member, rfl⟩ := List.mem_map.mp listed
    cases own : visit.own with
    | false => exact (reaches.strays visit member own).names
    | true =>
        rw [← all, ownPairs]
        exact List.mem_map.mpr ⟨visit, first.mem
          (List.mem_filter.mpr ⟨member, own⟩), rfl⟩
  have differ : (pairs (scanDirRecursive drive drive.root emptyList 0)).Nodup := by
    rw [pairs_scan]
    apply List.Nodup.of_map Prod.fst
    rw [List.map_map]
    exact distinct
  apply (List.subperm_of_subset differ within).perm_of_length_le
  have counted := congrArg List.length all
  rw [ownPairs, List.length_map] at counted
  have filtered := List.length_filter_le Visit.own
    (visits pkgMaxDepth drive.root drive.tree drive.tree)
  rw [pairs_scan, List.length_map, firstVisits, List.length_take]
  omega

end Exact

/-- The scan finds each package file once, and nothing else, just if their
paths fit and no stray is listed; of 1024 a stray may stand in for one. -/
theorem findsExactly_iff (drive : Drive) (reachable : Reachable 0 drive.tree)
    (few : (pkgFiles drive.root drive.tree).length ≤ pkgMaxResults) :
    FindsExactly drive ↔ ScanReaches drive := by
  constructor
  · intro exact
    exact {
      short := short_of_findsExactly drive exact
      strays := standsIn_of_findsExactly drive reachable exact few }
  · intro reaches
    exact findsExactly_of_scanReaches drive reachable reaches few

/-- A package in the root, and another one in a directory. -/
def nestedDrive : Drive where
  root := ascii "/mnt/usb0"
  tree := .file (ascii "a.pkg") 5
    (.dir (ascii "games")
      (.file (ascii "b.PKG") 7 (.file (ascii "b.txt") 1 .nil))
      (.special (ascii "c.pkg") .nil))
  rootFits := by decide
  valid := by
    have first : NameFits (ascii "a.pkg") :=
      ⟨by decide, by decide, by decide, by decide⟩
    have games : NameFits (ascii "games") :=
      ⟨by decide, by decide, by decide, by decide⟩
    have second : NameFits (ascii "b.PKG") :=
      ⟨by decide, by decide, by decide, by decide⟩
    have notes : NameFits (ascii "b.txt") :=
      ⟨by decide, by decide, by decide, by decide⟩
    have special : NameFits (ascii "c.pkg") :=
      ⟨by decide, by decide, by decide, by decide⟩
    exact ⟨first, by decide, games, by decide,
      ⟨second, by decide, notes, by decide, trivial⟩, special, by decide,
      trivial⟩

theorem findsExactly_nested : FindsExactly nestedDrive := by
  have noStray : ∀ visit ∈ firstVisits nestedDrive, visit.own ≠ false := by
    decide
  have few : ∀ depth ≤ 1, depth ≤ pkgMaxDepth := by decide
  have kept : isSkipped (ascii "games") ≠ true := by decide
  exact (findsExactly_iff nestedDrive
    ⟨fun _ => few 0 (by decide), fun skip => absurd skip kept,
      ⟨fun _ => few 1 (by decide), fun _ => few 1 (by decide), trivial⟩,
      trivial⟩ (by decide)).mpr
      { short := by decide
        strays := fun visit member stray =>
          absurd stray (noStray visit member) }

def longName : Text := List.replicate 255 'a'.toUInt8

/-- The path of a file in two directories with long names is cut. -/
def longDrive : Drive where
  root := ascii "/mnt/usb0"
  tree := .dir longName
    (.dir longName (.file (ascii "a.pkg") 5 .nil) .nil) .nil
  rootFits := by decide
  valid := by
    have long : NameFits longName :=
      ⟨by decide, by decide, by decide, by decide⟩
    have short : NameFits (ascii "a.pkg") :=
      ⟨by decide, by decide, by decide, by decide⟩
    exact ⟨long, nofun, ⟨long, nofun, ⟨short, nofun, trivial⟩, trivial⟩,
      trivial⟩

theorem longDrive_loses : longName.length = 255 ∧
    Reachable 0 longDrive.tree ∧
    (pkgFiles longDrive.root longDrive.tree).length = 1 ∧
    ¬ FindsExactly longDrive := by
  refine ⟨List.length_replicate, ?_, rfl, ?_⟩
  · have fits : (2 : Nat) ≤ pkgMaxDepth := by decide
    have kept : isSkipped longName ≠ true := by decide
    exact ⟨fun skip => absurd skip kept,
      ⟨fun skip => absurd skip kept, ⟨fun _ => fits, trivial⟩, trivial⟩,
      trivial⟩
  · intro exact
    have short : (child (child (child longDrive.root longName) longName)
        (ascii "a.pkg")).length < pkgMaxPathLen :=
      short_of_findsExactly longDrive exact _ (List.mem_singleton_self _)
    rw [length_child, length_child, length_child, longName,
      List.length_replicate] at short
    exact absurd short (by decide)

end HenPlugins.Pkg.ScanExact
