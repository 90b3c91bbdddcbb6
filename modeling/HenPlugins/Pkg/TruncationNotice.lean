import HenPlugins.Pkg.ScanVisits

/-!
# The notice that the list is not complete

The flag is set when a package file finds the list full, and also when a
directory does, whether there is a package file in it or not.
-/

set_option autoImplicit false

namespace HenPlugins.Pkg.TruncationNotice

open HenPlugins.Lib.ByteText
open HenPlugins.Lib.DirectoryTree
open HenPlugins.Pkg.PkgEntries
open HenPlugins.Pkg.ScanDir
open HenPlugins.Pkg.ScanVisits

/-! ## What is asked -/

/-- The package files that are not below a skipped directory. -/
def eligible : Listing (BitVec 64) → Nat
  | .nil => 0
  | .file name _ rest => (if hasPkgExt name then 1 else 0) + eligible rest
  | .special _ rest => eligible rest
  | .dir name entries rest =>
      (if isSkipped name then 0 else eligible entries) + eligible rest

def PathsFit (dir : Text) : Listing (BitVec 64) → Prop
  | .nil => True
  | .file name _ rest =>
      (child dir name).length < pkgMaxPathLen ∧ PathsFit dir rest
  | .special name rest =>
      (child dir name).length < pkgMaxPathLen ∧ PathsFit dir rest
  | .dir name entries rest =>
      (child dir name).length < pkgMaxPathLen ∧
        PathsFit (child dir name) entries ∧ PathsFit dir rest

/-- Directories lie in at most so many others. -/
def Shallow : Nat → Listing (BitVec 64) → Prop
  | _, .nil => True
  | levels, .file _ _ rest => Shallow levels rest
  | levels, .special _ rest => Shallow levels rest
  | 0, .dir _ _ _ => False
  | levels + 1, .dir _ entries rest =>
      Shallow levels entries ∧ Shallow (levels + 1) rest

structure TruthfulNotice (drive : Drive) : Prop where
  count : (scanDirRecursive drive drive.root emptyList 0).count =
    min pkgMaxResults (eligible drive.tree)
  overflow : (scanDirRecursive drive drive.root emptyList 0).overflow = true ↔
    pkgMaxResults < eligible drive.tree

/-! ## The trail of the walk -/

/-- The walk comes to a package file, or enters a directory. -/
inductive Mark where
  | hit
  | enter
  deriving DecidableEq

def trail : Listing (BitVec 64) → List Mark
  | .nil => []
  | .file name _ rest => (if hasPkgExt name then [.hit] else []) ++ trail rest
  | .special _ rest => trail rest
  | .dir name entries rest =>
      (if isSkipped name then [] else .enter :: trail entries) ++ trail rest

/-- The entries of the list, and its flag. -/
structure Tally where
  count : Nat
  overflow : Bool

def tallyOf (list : PkgList) : Tally := ⟨list.count, list.overflow⟩

/-- The flag is set where there is no room. -/
def Tally.mark (tally : Tally) (mark : Mark) : Tally :=
  if pkgMaxResults ≤ tally.count then { tally with overflow := true }
  else
    match mark with
    | .hit => { tally with count := tally.count + 1 }
    | .enter => tally

theorem mark_full (tally : Tally) (mark : Mark)
    (full : pkgMaxResults ≤ tally.count) :
    tally.mark mark = { tally with overflow := true } :=
  if_pos full

theorem mark_room (tally : Tally) (mark : Mark)
    (room : ¬ pkgMaxResults ≤ tally.count) :
    tally.mark mark =
      { tally with count := tally.count + [mark].count .hit } := by
  unfold Tally.mark
  rw [if_neg room]
  cases mark with
  | hit => rfl
  | enter => rfl

theorem foldl_mark_full (marks : List Mark) (count : Nat)
    (full : pkgMaxResults ≤ count) :
    marks.foldl Tally.mark ⟨count, true⟩ = ⟨count, true⟩ := by
  induction marks with
  | nil => rfl
  | cons mark rest ih =>
      rw [List.foldl_cons, mark_full ⟨count, true⟩ mark full, ih]

theorem foldl_cons_full (mark : Mark) (marks : List Mark) (tally : Tally)
    (full : pkgMaxResults ≤ tally.count) :
    (mark :: marks).foldl Tally.mark tally =
      { tally with overflow := true } := by
  rw [List.foldl_cons, mark_full tally mark full]
  exact foldl_mark_full marks tally.count full

def hits (marks : List Mark) : Nat := marks.count .hit

/-- The flag is set by one hit more than there is room for, or by a directory
behind the last hit. -/
def Overflows (marks : List Mark) : Prop :=
  pkgMaxResults < hits marks ∨
    (hits marks = pkgMaxResults ∧ marks.getLast? = some .enter)

instance (marks : List Mark) : Decidable (Overflows marks) :=
  inferInstanceAs (Decidable (_ ∨ _))

theorem overflows_concat (marks : List Mark) (mark : Mark) :
    Overflows (marks ++ [mark]) ↔ pkgMaxResults ≤ hits marks := by
  rw [Overflows, List.getLast?_concat, hits, hits, List.count_append]
  cases mark with
  | hit =>
      rw [List.count_singleton_self]
      simp only [Option.some.injEq, reduceCtorEq, and_false, or_false]
      omega
  | enter =>
      rw [List.count_singleton]
      simp only [beq_iff_eq, reduceCtorEq, if_false, and_true]
      omega

theorem foldl_mark (marks : List Mark) :
    marks.foldl Tally.mark ⟨0, false⟩ =
      ⟨min pkgMaxResults (hits marks), Overflows marks⟩ := by
  induction marks using List.reverseRecOn with
  | nil => rfl
  | append_singleton marks mark ih =>
      have counted : hits (marks ++ [mark]) = hits marks + [mark].count .hit :=
        List.count_append ..
      rw [List.foldl_append, ih, List.foldl_cons, List.foldl_nil, counted]
      by_cases full : pkgMaxResults ≤ hits marks
      · rw [mark_full _ mark (Nat.le_min.mpr ⟨Nat.le_refl _, full⟩),
          decide_eq_true ((overflows_concat marks mark).mpr full)]
        congr 1
        simp only
        omega
      · have clear : ¬ Overflows marks := by
          intro overflows
          rw [Overflows] at overflows
          omega
        have still : ¬ Overflows (marks ++ [mark]) := by
          rw [overflows_concat]
          exact full
        rw [mark_room _ mark (by
            rw [Nat.le_min]
            omega), decide_eq_false clear, decide_eq_false still]
        have one : [mark].count .hit ≤ 1 := List.count_le_length
        congr 1
        simp only
        omega

/-! ## The walk -/

theorem hits_trail (part : Listing (BitVec 64)) :
    hits (trail part) = eligible part := by
  have together : ∀ first second : List Mark,
      hits (first ++ second) = hits first + hits second := fun _ _ =>
    List.count_append ..
  induction part with
  | nil => rfl
  | file name size rest ih =>
      rw [trail, together, ih, eligible]
      split <;> rfl
  | special name rest ih => exact ih
  | dir name entries rest entriesInduction ih =>
      rw [trail, together, ih, eligible]
      split
      · rfl
      · rw [← entriesInduction]
        rfl

section Scan
variable (drive : Drive)

theorem tally_push (list : PkgList) (e : PkgEntry)
    (room : list.count < pkgMaxResults) :
    tallyOf (list.push e room) = (tallyOf list).mark .hit := by
  rw [mark_room (tallyOf list) .hit (Nat.not_le.mpr room)]
  simp only [tallyOf, PkgList.push, PkgList.count, List.length_append]
  rfl

def entryMarks (name : Text) (inside : List Mark) :
    Found (BitVec 64) → List Mark
  | .file _ => if hasPkgExt name then [.hit] else []
  | .special => []
  | .dir _ => inside

theorem tally_entry (recurse : Text → PkgList → PkgList) (dir : Text)
    (here : Listing (BitVec 64)) (above : List (Listing (BitVec 64)))
    (walking : Walking drive dir here above) (name : Text)
    (names : List Text) (found : Found (BitVec 64))
    (there : here.lookup name = some found) (fits : NameFits name)
    (short : (child dir name).length < pkgMaxPathLen)
    (inside later : List Mark)
    (below : ∀ entries, found = .dir entries →
      ∀ list, tallyOf (recurse (fullPath dir name) list) =
        inside.foldl Tally.mark (tallyOf list))
    (onward : ∀ list, tallyOf (scanEntries drive recurse dir names list) =
      later.foldl Tally.mark (tallyOf list)) (list : PkgList) :
    tallyOf (scanEntries drive recurse dir (name :: names) list) =
      ((if isSkipped name then [] else entryMarks name inside found) ++
        later).foldl Tally.mark (tallyOf list) := by
  by_cases skip : isSkipped name = true
  · rw [scanEntries_skip drive recurse dir name names list
      (Or.inr (Or.inr skip)), if_pos skip, List.nil_append, onward]
  rw [if_neg skip]
  have taken : ¬ (name = dot ∨ name = dotDot ∨ isSkipped name = true) := by
    simp [fits.notDot, fits.notDotDot, skip]
  have stat : drive.stat (fullPath dir name) = some found := by
    rw [stat_of_fits drive dir here above walking name fits short]
    exact there
  cases found with
  | dir entries =>
      rw [scanEntries_dir drive recurse dir name names list taken entries stat,
        onward, below entries rfl, ← List.foldl_append]
      rfl
  | special =>
      rw [scanEntries_other drive recurse dir name names list taken
        (by simp [stat]) (by simp [stat]), onward]
      rfl
  | file size =>
      rw [entryMarks]
      by_cases ext : hasPkgExt name = true
      · rw [scanEntries_file drive recurse dir name names list taken size stat
          ext, if_pos ext, List.singleton_append]
        split
        · rename_i room
          rw [onward, tally_push, List.foldl_cons]
        · rename_i full
          rw [foldl_cons_full .hit later (tallyOf list) (Nat.not_lt.mp full)]
          rfl
      · rw [scanEntries_other drive recurse dir name names list taken
          (by simp [stat]) (by simp [ext]), if_neg ext, List.nil_append,
          onward]

/-- A directory is a mark of its own, and then those of its trail. -/
theorem tally_enter (levels : Nat) (dir : Text)
    (entries : Listing (BitVec 64))
    (stat : drive.stat dir = some (.dir entries))
    (inside : ∀ list, tallyOf (scanEntries drive (scanLevels drive levels) dir
        entries.names list) =
      (trail entries).foldl Tally.mark (tallyOf list)) (list : PkgList) :
    tallyOf (scanLevels drive (levels + 1) dir list) =
      (.enter :: trail entries).foldl Tally.mark (tallyOf list) := by
  rw [scanLevels_dir drive levels dir entries list stat]
  by_cases full : pkgMaxResults ≤ list.count
  · rw [if_pos full, foldl_cons_full .enter _ (tallyOf list) full]
    rfl
  · rw [if_neg full, inside, List.foldl_cons,
      mark_room (tallyOf list) .enter full]
    rfl

/-- The scan of a directory makes the marks of its trail. -/
theorem tally_scanEntries (part : Listing (BitVec 64)) (levels : Nat)
    (dir : Text) (here : Listing (BitVec 64))
    (above : List (Listing (BitVec 64)))
    (walking : Walking drive dir here above) (valid : part.Valid)
    (within : Within part here) (short : PathsFit dir part)
    (shallow : Shallow levels part) (list : PkgList) :
    tallyOf (scanEntries drive (scanLevels drive levels) dir part.names list) =
      (trail part).foldl Tally.mark (tallyOf list) := by
  induction part generalizing levels dir here above list with
  | nil => rfl
  | file name size rest ih =>
      obtain ⟨fits, fresh, later⟩ := valid
      have behind : Within rest here :=
        within_tail (.file name size rest) rest here name fresh
          (fun _ differ => if_neg (Ne.symm differ)) within
      rw [Shallow] at shallow
      have entry := tally_entry drive (scanLevels drive levels) dir here above
        walking name rest.names (.file size) (within name _ (if_pos rfl)) fits
        short.1 [] (trail rest) (by
          intro entries isDir
          contradiction)
        (ih levels dir here above walking later behind short.2 shallow) list
      rw [Listing.names, entry, trail]
      split
      · rename_i skip
        rw [hasPkgExt_of_skipped name skip]
        rfl
      · rfl
  | special name rest ih =>
      obtain ⟨fits, fresh, later⟩ := valid
      have behind : Within rest here :=
        within_tail (.special name rest) rest here name fresh
          (fun _ differ => if_neg (Ne.symm differ)) within
      rw [Shallow] at shallow
      have entry := tally_entry drive (scanLevels drive levels) dir here above
        walking name rest.names .special (within name _ (if_pos rfl)) fits
        short.1 [] (trail rest) (by
          intro entries isDir
          contradiction)
        (ih levels dir here above walking later behind short.2 shallow) list
      rw [Listing.names, entry, trail]
      split <;> rfl
  | dir name entries rest entriesInduction ih =>
      obtain ⟨fits, fresh, entriesValid, later⟩ := valid
      obtain ⟨hereShort, innerShort, laterShort⟩ := short
      have behind : Within rest here :=
        within_tail (.dir name entries rest) rest here name fresh
          (fun _ differ => if_neg (Ne.symm differ)) within
      have found : here.lookup name = some (.dir entries) := by
        apply within
        rw [Listing.lookup, if_pos rfl]
      have stat : drive.stat (fullPath dir name) = some (.dir entries) := by
        rw [stat_of_fits drive dir here above walking name fits hereShort]
        exact found
      cases levels with
      | zero =>
          rw [Shallow] at shallow
          contradiction
      | succ levels =>
          rw [Shallow] at shallow
          have inner := walking_child drive dir here above walking name
            entries fits found entriesValid hereShort
          have below : ∀ list, tallyOf (scanLevels drive (levels + 1)
              (fullPath dir name) list) =
                (.enter :: trail entries).foldl Tally.mark
                  (tallyOf list) := by
            apply tally_enter drive levels (fullPath dir name) entries stat
            rw [fullPath_of_fits dir name hereShort]
            exact entriesInduction levels (child dir name) entries
              (here :: above) inner entriesValid (fun _ _ there => there)
              innerShort shallow.1
          have entry := tally_entry drive (scanLevels drive (levels + 1)) dir
            here above walking name rest.names (.dir entries) found fits
            hereShort (.enter :: trail entries) (trail rest)
            (fun _ _ => below)
            (ih (levels + 1) dir here above walking later behind laterShort
              shallow.2) list
          rw [Listing.names, entry, trail]
          rfl

theorem tally_scan (short : PathsFit drive.root drive.tree)
    (shallow : Shallow pkgMaxDepth drive.tree) :
    tallyOf (scanDirRecursive drive drive.root emptyList 0) =
      ⟨min pkgMaxResults (eligible drive.tree),
        Overflows (trail drive.tree)⟩ := by
  have walking := walking_root drive
  have scanned := tally_scanEntries drive drive.tree pkgMaxDepth drive.root
    drive.tree [] walking drive.valid (fun _ _ there => there) short shallow
    emptyList
  rw [scanDirRecursive, Nat.sub_zero,
    scanLevels_dir drive pkgMaxDepth drive.root drive.tree emptyList
      walking.leads.there, if_neg (by decide), scanned, ← hits_trail]
  exact foldl_mark (trail drive.tree)

end Scan

/-- The notice is truthful unless there are just as many package files as the
list has room for, and the walk enters a directory behind the last of them. -/
theorem truthfulNotice_iff (drive : Drive)
    (short : PathsFit drive.root drive.tree)
    (shallow : Shallow pkgMaxDepth drive.tree) :
    TruthfulNotice drive ↔ ¬ (eligible drive.tree = pkgMaxResults ∧
      (trail drive.tree).getLast? = some .enter) := by
  have scanned := tally_scan drive short shallow
  have count := congrArg Tally.count scanned
  have overflow := congrArg Tally.overflow scanned
  simp only [tallyOf] at count overflow
  constructor
  · intro truthful both
    have flag := truthful.overflow
    rw [overflow, decide_eq_true_eq, Overflows, hits_trail] at flag
    have more := flag.mp (Or.inr both)
    omega
  · intro notExact
    refine ⟨count, ?_⟩
    rw [overflow, decide_eq_true_eq, Overflows, hits_trail,
      or_iff_left notExact]

/-- A directory with one package file. -/
def smallDrive : Drive where
  root := ascii "/mnt/usb1"
  tree := .dir (ascii "games") (.file (ascii "a.pkg") 5 .nil) .nil
  rootFits := by decide
  valid := by
    have outer : NameFits (ascii "games") :=
      ⟨by decide, by decide, by decide, by decide⟩
    have inner : NameFits (ascii "a.pkg") :=
      ⟨by decide, by decide, by decide, by decide⟩
    exact ⟨outer, by decide, ⟨inner, by decide, trivial⟩, trivial⟩

theorem truthfulNotice_small : TruthfulNotice smallDrive :=
  (truthfulNotice_iff smallDrive
    ⟨by decide, ⟨by decide, trivial⟩, trivial⟩
    ⟨trivial, trivial⟩).mpr (by decide)

/-! ## Many files in front of a directory -/

/-- 1024 different names. -/
def fileName (i : Nat) : Text :=
  UInt8.ofNat (65 + i / 32) :: UInt8.ofNat (65 + i % 32) :: ascii ".pkg"

def files : Nat → Listing (BitVec 64) → Listing (BitVec 64)
  | 0, rest => rest
  | count + 1, rest => .file (fileName count) 0 (files count rest)

theorem fileName_inj (i j : Nat) (bound : i < 1024) (other : j < 1024)
    (same : fileName i = fileName j) : i = j := by
  rw [fileName, fileName, List.cons.injEq, List.cons.injEq] at same
  have first := congrArg UInt8.toNat same.1
  have second := congrArg UInt8.toNat same.2.1
  simp only [UInt8.toNat_ofNat'] at first second
  omega

theorem nameFits_fileName (i : Nat) (bound : i < 1024) :
    NameFits (fileName i) := by
  have differs : ∀ k < 32, UInt8.ofNat (65 + k) ≠ pathSlash ∧
      UInt8.ofNat (65 + k) ≠ '.'.toUInt8 := by decide
  have first := differs (i / 32) (by omega)
  have second := differs (i % 32) (by omega)
  refine ⟨by simp [fileName], ?_, ?_, ?_⟩
  · simp only [fileName, List.mem_cons, not_or]
    exact ⟨first.1.symm, second.1.symm, by decide⟩
  · intro same
    exact first.2 (List.cons.inj same).1
  · intro same
    exact first.2 (List.cons.inj same).1

theorem names_files (count : Nat) (rest : Listing (BitVec 64)) (name : Text) :
    name ∈ (files count rest).names ↔
      (∃ i < count, name = fileName i) ∨ name ∈ rest.names := by
  induction count with
  | zero => simp [files]
  | succ count ih =>
      rw [files, Listing.names, List.mem_cons, ih]
      constructor
      · intro either
        obtain same | ⟨i, bound, same⟩ | behind := either
        · exact Or.inl ⟨count, Nat.lt_succ_self count, same⟩
        · exact Or.inl ⟨i, Nat.lt_succ_of_lt bound, same⟩
        · exact Or.inr behind
      · intro either
        obtain ⟨i, bound, same⟩ | behind := either
        · obtain last | before := Nat.eq_or_lt_of_le (Nat.le_of_lt_succ bound)
          · exact Or.inl (last ▸ same)
          · exact Or.inr (Or.inl ⟨i, before, same⟩)
        · exact Or.inr (Or.inr behind)

section Files
variable (count : Nat) (rest : Listing (BitVec 64))

theorem valid_files (bound : count ≤ 1024) (valid : rest.Valid)
    (fresh : ∀ i < count, fileName i ∉ rest.names) :
    (files count rest).Valid := by
  induction count with
  | zero => exact valid
  | succ count ih =>
      refine ⟨nameFits_fileName count (by omega), ?_,
        ih (by omega) fun i before => fresh i (by omega)⟩
      rw [names_files]
      intro either
      obtain ⟨i, before, equal⟩ | behind := either
      · have same := fileName_inj count i (by omega) (by omega) equal
        omega
      · exact fresh count (Nat.lt_succ_self count) behind

theorem pathsFit_files (dir : Text) (short : dir.length < 48)
    (fits : PathsFit dir rest) : PathsFit dir (files count rest) := by
  induction count with
  | zero => exact fits
  | succ count ih =>
      refine ⟨?_, ih⟩
      have length : (child dir (fileName count)).length = dir.length + 7 := by
        rw [child, List.length_append]
        rfl
      rw [length, pkgMaxPathLen]
      omega

theorem shallow_files (levels : Nat) (shallow : Shallow levels rest) :
    Shallow levels (files count rest) := by
  induction count with
  | zero => exact shallow
  | succ count ih =>
      rw [files, Shallow]
      exact ih

theorem trail_files :
    trail (files count rest) = List.replicate count .hit ++ trail rest := by
  induction count with
  | zero => rfl
  | succ count ih =>
      have ext : hasPkgExt (fileName count) = true := rfl
      rw [files, trail, ext, ih, List.replicate_succ]
      rfl

end Files

def emptyDir : Listing (BitVec 64) := .dir (ascii "zz") .nil .nil

/-- So many package files and an empty directory behind them. -/
def filledDrive (count : Nat) (bound : count ≤ 1024) : Drive where
  root := ascii "/mnt/usb1"
  tree := files count emptyDir
  rootFits := by decide
  valid := by
    apply valid_files count emptyDir bound
    · exact ⟨⟨by decide, by decide, by decide, by decide⟩, by decide, trivial,
        trivial⟩
    · intro i _ member
      have length := congrArg List.length (List.mem_singleton.mp member)
      have six : (fileName i).length = 6 := rfl
      rw [six] at length
      exact absurd length (by decide)

theorem filledDrive_overflows (count : Nat) (bound : count ≤ 1024)
    (full : count = pkgMaxResults) :
    PathsFit (filledDrive count bound).root (filledDrive count bound).tree ∧
      Shallow pkgMaxDepth (filledDrive count bound).tree ∧
      ¬ TruthfulNotice (filledDrive count bound) := by
  have short : PathsFit (filledDrive count bound).root
      (files count emptyDir) :=
    pathsFit_files count emptyDir (ascii "/mnt/usb1") (by decide)
      ⟨show _ < _ by decide, trivial, trivial⟩
  have shallow : Shallow pkgMaxDepth (files count emptyDir) :=
    shallow_files count emptyDir _ ⟨trivial, trivial⟩
  refine ⟨short, shallow, ?_⟩
  intro truthful
  have marks : trail (filledDrive count bound).tree =
      List.replicate count .hit ++ [.enter] :=
    trail_files count emptyDir
  have exactly : hits (trail (filledDrive count bound).tree) =
      pkgMaxResults := by
    rw [marks, hits, List.count_append, List.count_replicate_self]
    exact full
  have overflow := congrArg Tally.overflow
    (tally_scan (filledDrive count bound) short shallow)
  have set : Overflows (trail (filledDrive count bound).tree) :=
    Or.inr ⟨exactly, by rw [marks, List.getLast?_concat]⟩
  have more := truthful.overflow.mp (overflow.trans (decide_eq_true set))
  rw [← hits_trail, exactly] at more
  exact Nat.lt_irrefl _ more

theorem fullDrive_overflows :
    PathsFit (filledDrive 1024 (Nat.le_refl _)).root
        (filledDrive 1024 (Nat.le_refl _)).tree ∧
      Shallow pkgMaxDepth (filledDrive 1024 (Nat.le_refl _)).tree ∧
      ¬ TruthfulNotice (filledDrive 1024 (Nat.le_refl _)) :=
  filledDrive_overflows 1024 (Nat.le_refl _) rfl

end HenPlugins.Pkg.TruncationNotice
