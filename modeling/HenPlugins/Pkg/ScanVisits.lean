import HenPlugins.Pkg.ScanDir

/-!
# The walk of a drive

The path of an entry is cut at 511 bytes.  A directory with a cut path is
entered under the cut one, below which every path is cut to the same directory
again; but a cut path may also name a file of the directory.
-/

set_option autoImplicit false

namespace HenPlugins.Pkg.ScanVisits

open HenPlugins.Lib.ByteText
open HenPlugins.Lib.DirectoryTree
open HenPlugins.Pkg.PkgEntries
open HenPlugins.Pkg.ScanDir

def pairs (list : PkgList) : List (Text × BitVec 64) :=
  list.entries.map fun e => (e.path, e.size)

/-- An entry that may be listed, under its own path or under a cut one. -/
structure Visit where
  path : Text
  size : BitVec 64
  own : Bool
  deriving DecidableEq

/-- The path of the entry is cut, and names a regular file. -/
def strayVisit (dir : Text) (here : Listing (BitVec 64)) (name : Text) :
    List Visit :=
  if hasPkgExt name then
    match here.lookup (name.take (pkgMaxPathLen - 1 - (dir.length + 1))) with
    | some (.file size) =>
        [{ path := fullPath dir name, size := size, own := false }]
    | _ => []
  else []

def entryVisits (dir : Text) (here : Listing (BitVec 64)) (name : Text)
    (inside : List Visit) : List Visit :=
  if isSkipped name then []
  else if (child dir name).length < pkgMaxPathLen then inside
  else strayVisit dir here name

/-- The entries that may be listed, in the order of the walk. -/
def visits : Nat → Text → Listing (BitVec 64) → Listing (BitVec 64) →
    List Visit
  | _, _, _, .nil => []
  | levels, dir, here, .file name size rest =>
      entryVisits dir here name
          (if hasPkgExt name then
            [{ path := child dir name, size := size, own := true }]
          else []) ++
        visits levels dir here rest
  | levels, dir, here, .special name rest =>
      entryVisits dir here name [] ++ visits levels dir here rest
  | levels, dir, here, .dir name entries rest =>
      entryVisits dir here name
          (match levels with
          | 0 => []
          | levels + 1 => visits levels (child dir name) entries entries) ++
        visits levels dir here rest

theorem visits_dir (levels : Nat) (dir name : Text)
    (here entries rest : Listing (BitVec 64)) :
    visits levels dir here (.dir name entries rest) =
      entryVisits dir here name
          (match levels with
          | 0 => []
          | levels + 1 => visits levels (child dir name) entries entries) ++
        visits levels dir here rest := by
  cases levels <;> rw [visits]

/-- The entries that the list has room for. -/
def firstVisits (drive : Drive) : List Visit :=
  (visits pkgMaxDepth drive.root drive.tree drive.tree).take pkgMaxResults

/-! ## Filling the list -/

/-- The list takes what it has room for. -/
def Filled (before : PkgList) (hits : List Visit) (after : PkgList) : Prop :=
  pairs after = pairs before ++
    (hits.map fun visit => (visit.path, visit.size)).take
      (pkgMaxResults - before.count)

theorem length_pairs (list : PkgList) : (pairs list).length = list.count :=
  List.length_map ..

theorem filled_nil (list after : PkgList)
    (same : after.entries = list.entries) : Filled list [] after := by
  rw [Filled, pairs, same, List.map_nil, List.take_nil, List.append_nil]
  rfl

theorem filled_full (list after : PkgList) (hits : List Visit)
    (full : pkgMaxResults ≤ list.count)
    (same : after.entries = list.entries) : Filled list hits after := by
  rw [Filled, Nat.sub_eq_zero_of_le full, List.take_zero, List.append_nil,
    pairs, same]
  rfl

theorem filled_append (first middle last : PkgList) (hits more : List Visit)
    (front : Filled first hits middle) (back : Filled middle more last) :
    Filled first (hits ++ more) last := by
  rw [Filled] at front back ⊢
  have counted := congrArg List.length front
  rw [List.length_append, length_pairs, length_pairs, List.length_take,
    List.length_map] at counted
  have bounded := first.fits
  rw [← PkgList.count] at bounded
  rw [back, front, List.map_append, List.take_append, List.append_assoc,
    List.length_map]
  congr 3
  omega

theorem filled_push (list : PkgList) (e : PkgEntry)
    (room : list.count < pkgMaxResults) (own : Bool) :
    Filled list [{ path := e.path, size := e.size, own := own }]
      (list.push e room) := by
  rw [Filled, pairs, PkgList.push, List.map_append, List.map_singleton,
    List.map_singleton, List.take_of_length_le (by
      rw [List.length_singleton]
      omega)]
  rfl

/-! ## Cut paths -/

theorem fullPath_of_fits (dir name : Text)
    (fits : (child dir name).length < pkgMaxPathLen) :
    fullPath dir name = child dir name :=
  snprintf_of_fits pkgMaxPathLen (child dir name) fits

/-- A path that is as long as it can be is not extended. -/
theorem fullPath_of_full (dir name : Text)
    (full : dir.length = pkgMaxPathLen - 1) : fullPath dir name = dir := by
  rw [fullPath, snprintf, child, ← full, List.take_left]

theorem fullPath_cut (dir name : Text)
    (room : dir.length + 1 ≤ pkgMaxPathLen - 1) :
    fullPath dir name = child dir
      (name.take (pkgMaxPathLen - 1 - (dir.length + 1))) := by
  obtain ⟨left, sum⟩ := Nat.exists_eq_add_of_le room
  rw [fullPath, snprintf, child, child, sum, Nat.add_sub_cancel_left,
    List.take_append, List.take_of_length_le (by omega),
    show dir.length + 1 + left - dir.length = left + 1 by omega,
    List.take_succ_cons]

theorem length_fullPath_of_cut (dir name : Text)
    (cut : ¬ (child dir name).length < pkgMaxPathLen) :
    (fullPath dir name).length = pkgMaxPathLen - 1 := by
  rw [fullPath, snprintf, List.length_take]
  omega

section Scanning
variable (drive : Drive)

/-- Below a path of full length nothing is listed. -/
theorem scanLevels_full (levels : Nat) (dir : Text) (list : PkgList)
    (full : dir.length = pkgMaxPathLen - 1) :
    (scanLevels drive levels dir list).entries = list.entries := by
  induction levels generalizing list with
  | zero => rfl
  | succ levels ih =>
      rw [scanLevels]
      split
      · rfl
      · cases opened : drive.opendir dir with
        | none => rfl
        | some entries =>
            have there : ∃ found, drive.stat dir = some (.dir found) := by
              rw [Drive.opendir] at opened
              split at opened
              · rename_i found stat
                exact ⟨found, stat⟩
              · contradiction
            obtain ⟨found, stat⟩ := there
            -- every entry is the directory itself
            have loop : ∀ (names : List Text) (list : PkgList),
                (scanEntries drive (scanLevels drive levels) dir names
                  list).entries = list.entries := by
              intro names
              induction names with
              | nil =>
                  intro list
                  rfl
              | cons name names later =>
                  intro list
                  have same := fullPath_of_full dir name full
                  by_cases skip : name = dot ∨ name = dotDot ∨
                      isSkipped name = true
                  · rw [scanEntries_skip drive _ dir name names list skip]
                    exact later list
                  · rw [scanEntries_dir drive _ dir name names list skip
                      found (by rw [same, stat]), later, same, ih]
            exact loop _ list

/-! ## The walk -/

/-- A part of a directory, with the entries that the whole has. -/
def Within (part here : Listing (BitVec 64)) : Prop :=
  ∀ name found, part.lookup name = some found →
    here.lookup name = some found

/-- Where the walk is. -/
structure Walking (dir : Text) (here : Listing (BitVec 64))
    (above : List (Listing (BitVec 64))) : Prop where
  leads : Leads drive.root drive.tree dir here above
  valid : here.Valid
  short : dir.length < pkgMaxPathLen

theorem walking_root : Walking drive drive.root drive.tree [] where
  leads := leads_root drive.root drive.tree
  valid := drive.valid
  short := Nat.lt_trans drive.rootFits (by decide)

variable (dir : Text) (here : Listing (BitVec 64))
  (above : List (Listing (BitVec 64)))
  (walking : Walking drive dir here above)

include walking in
theorem walking_child (name : Text) (entries : Listing (BitVec 64))
    (fits : NameFits name) (found : here.lookup name = some (.dir entries))
    (valid : entries.Valid)
    (short : (child dir name).length < pkgMaxPathLen) :
    Walking drive (child dir name) entries (here :: above) where
  leads := leads_child drive.root drive.tree dir name here entries above fits
    found walking.leads
  valid := valid
  short := short

include walking in
theorem stat_of_fits (name : Text) (fits : NameFits name)
    (short : (child dir name).length < pkgMaxPathLen) :
    drive.stat (fullPath dir name) = here.lookup name := by
  rw [fullPath_of_fits dir name short, Drive.stat, walking.leads.onward,
    components_of_noSlash name fits.noSlash,
    follow_single here above name fits]

include walking in
/-- The buffer leads to a file if the name, as far as it is kept, names one. -/
theorem stat_file_iff (name : Text) (fits : NameFits name)
    (size : BitVec 64) :
    drive.stat (fullPath dir name) = some (.file size) ↔
      here.lookup (name.take (pkgMaxPathLen - 1 - (dir.length + 1))) =
        some (.file size) := by
  have short := walking.short
  rcases Nat.lt_or_ge dir.length (pkgMaxPathLen - 1) with room | full
  · have noSlash : pathSlash ∉
        name.take (pkgMaxPathLen - 1 - (dir.length + 1)) := by
      intro member
      exact fits.noSlash (List.mem_of_mem_take member)
    rw [fullPath_cut dir name (by omega), Drive.stat, walking.leads.onward,
      components_of_noSlash _ noSlash,
      follow_file_iff here walking.valid above _ noSlash]
  · have whole : dir.length = pkgMaxPathLen - 1 := by omega
    rw [fullPath_of_full dir name whole, Drive.stat, walking.leads.there]
    refine iff_of_false (by simp) ?_
    intro found
    have empty : pkgMaxPathLen - 1 - (dir.length + 1) = 0 := by omega
    rw [empty, List.take_zero] at found
    exact (nameFits_of_lookup here walking.valid _ _ found).nonempty rfl

/-- What an entry gives, by what the system says of it. -/
def entryHits (own : Bool) (name : Text) (inside : List Visit) : List Visit :=
  match drive.stat (fullPath dir name) with
  | some (.file size) =>
      if hasPkgExt name then
        [{ path := fullPath dir name, size := size, own := own }]
      else []
  | some (.dir _) => inside
  | _ => []

theorem filled_entry (levels : Nat) (own : Bool) (name : Text)
    (names : List Text) (inside later : List Visit) (list : PkgList)
    (taken : ¬ (name = dot ∨ name = dotDot ∨ isSkipped name = true))
    (below : ∀ entries, drive.stat (fullPath dir name) = some (.dir entries) →
      Filled list inside
        (scanLevels drive levels (fullPath dir name) list))
    (onward : ∀ list, Filled list later
      (scanEntries drive (scanLevels drive levels) dir names list)) :
    Filled list (entryHits drive dir own name inside ++ later)
      (scanEntries drive (scanLevels drive levels) dir (name :: names)
        list) := by
  have other : (∀ entries,
        drive.stat (fullPath dir name) ≠ some (.dir entries)) →
      (hasPkgExt name = true → ∀ size,
        drive.stat (fullPath dir name) ≠ some (.file size)) →
      entryHits drive dir own name inside = [] →
      Filled list (entryHits drive dir own name inside ++ later)
        (scanEntries drive (scanLevels drive levels) dir (name :: names)
          list) := by
    intro noDir noFile none
    rw [none, List.nil_append,
      scanEntries_other drive _ dir name names list taken noDir noFile]
    exact onward list
  cases stat : drive.stat (fullPath dir name) with
  | none =>
      apply other
      · simp [stat]
      · simp [stat]
      · rw [entryHits, stat]
  | some found =>
      cases found with
      | special =>
          apply other
          · simp [stat]
          · simp [stat]
          · rw [entryHits, stat]
      | dir entries =>
          rw [scanEntries_dir drive _ dir name names list taken entries stat,
            entryHits, stat]
          exact filled_append list _ _ inside later (below entries stat)
            (onward _)
      | file size =>
          by_cases ext : hasPkgExt name = true
          · rw [scanEntries_file drive _ dir name names list taken size stat
              ext, entryHits, stat]
            simp only [if_pos ext]
            split
            · rename_i room
              exact filled_append list _ _ _ later
                (filled_push list (newEntry (fullPath dir name) name size
                  (length_fullPath dir name)) room own) (onward _)
            · rename_i full
              exact filled_full list _ _ (by omega) rfl
          · apply other
            · simp [stat]
            · intro isExt
              exact absurd isExt ext
            · rw [entryHits, stat]
              simp only [if_neg ext]

theorem entryHits_of_noFile (own : Bool) (name : Text)
    (noFile : ∀ size, drive.stat (fullPath dir name) ≠ some (.file size)) :
    entryHits drive dir own name [] = [] := by
  rw [entryHits]
  split
  · rename_i size stat
    exact absurd stat (noFile size)
  · rfl
  · rfl

theorem strayVisit_of_noFile (name : Text)
    (noFile : ∀ size,
      here.lookup (name.take (pkgMaxPathLen - 1 - (dir.length + 1))) ≠
        some (.file size)) :
    strayVisit dir here name = [] := by
  rw [strayVisit]
  split
  · split
    · rename_i size found
      exact absurd found (noFile size)
    · rfl
  · rfl

include walking in
theorem entryHits_cut (name : Text) (fits : NameFits name) :
    entryHits drive dir false name [] = strayVisit dir here name := by
  have file := stat_file_iff drive dir here above walking name fits
  by_cases some : ∃ size, drive.stat (fullPath dir name) =
      some (.file size)
  · obtain ⟨size, stat⟩ := some
    rw [entryHits, stat, strayVisit, (file size).mp stat]
  · have noFile : ∀ size, drive.stat (fullPath dir name) ≠
        Option.some (.file size) := by
      intro size stat
      exact some ⟨size, stat⟩
    rw [entryHits_of_noFile drive dir false name noFile,
      strayVisit_of_noFile dir here name fun size found =>
        noFile size ((file size).mpr found)]

theorem filled_entryVisits (levels : Nat) (name : Text) (names : List Text)
    (inside later : List Visit) (list : PkgList) (fits : NameFits name)
    (walking : Walking drive dir here above)
    (whole : (child dir name).length < pkgMaxPathLen →
      isSkipped name = false →
      inside = entryHits drive dir true name inside ∧
        ∀ entries, drive.stat (fullPath dir name) = some (.dir entries) →
          ∀ list, Filled list inside
            (scanLevels drive levels (fullPath dir name) list))
    (onward : ∀ list, Filled list later
      (scanEntries drive (scanLevels drive levels) dir names list)) :
    Filled list (entryVisits dir here name inside ++ later)
      (scanEntries drive (scanLevels drive levels) dir (name :: names)
        list) := by
  rw [entryVisits]
  split
  · rename_i skip
    rw [List.nil_append,
      scanEntries_skip drive _ dir name names list (Or.inr (Or.inr skip))]
    exact onward list
  · rename_i kept
    have taken : ¬ (name = dot ∨ name = dotDot ∨ isSkipped name = true) := by
      simp [fits.notDot, fits.notDotDot, kept]
    split
    · rename_i short
      obtain ⟨hits, below⟩ := whole short (by simpa using kept)
      rw [hits]
      exact filled_entry drive dir levels true name names inside later list
        taken (fun entries stat => below entries stat list) onward
    · rename_i cut
      rw [← entryHits_cut drive dir here above walking name fits]
      apply filled_entry drive dir levels false name names [] later list taken
        _ onward
      intro entries _
      exact filled_nil list _ (scanLevels_full drive levels _ list
        (length_fullPath_of_cut dir name cut))

theorem filled_leaf (levels : Nat) (name : Text) (names : List Text)
    (inside later : List Visit) (list : PkgList) (fits : NameFits name)
    (walking : Walking drive dir here above) (found : Found (BitVec 64))
    (there : here.lookup name = some found)
    (leaf : ∀ entries, found ≠ .dir entries)
    (hits : drive.stat (fullPath dir name) = some found →
      fullPath dir name = child dir name →
      inside = entryHits drive dir true name inside)
    (onward : ∀ list, Filled list later
      (scanEntries drive (scanLevels drive levels) dir names list)) :
    Filled list (entryVisits dir here name inside ++ later)
      (scanEntries drive (scanLevels drive levels) dir (name :: names)
        list) := by
  apply filled_entryVisits drive dir here above levels name names inside later
    list fits walking _ onward
  intro short _
  have stat : drive.stat (fullPath dir name) = some found := by
    rw [stat_of_fits drive dir here above walking name fits short]
    exact there
  refine ⟨hits stat (fullPath_of_fits dir name short), ?_⟩
  intro entries isDir
  rw [stat] at isDir
  exact absurd (Option.some.inj isDir) (leaf entries)

end Scanning

theorem within_tail (part rest here : Listing (BitVec 64)) (name : Text)
    (fresh : name ∉ rest.names)
    (same : ∀ other, other ≠ name → part.lookup other = rest.lookup other)
    (within : Within part here) : Within rest here := by
  intro other found there
  apply within
  rw [same, there]
  intro equal
  apply fresh
  rw [← equal]
  exact lookup_mem rest other found there

section Walk
variable (drive : Drive)

theorem filled_visits (part : Listing (BitVec 64)) (levels : Nat) (dir : Text)
    (here : Listing (BitVec 64)) (above : List (Listing (BitVec 64)))
    (walking : Walking drive dir here above) (valid : part.Valid)
    (within : Within part here) (list : PkgList) :
    Filled list (visits levels dir here part)
      (scanEntries drive (scanLevels drive levels) dir part.names list) := by
  induction part generalizing levels dir here above list with
  | nil => exact filled_nil list _ rfl
  | file name size rest ih =>
      obtain ⟨fits, fresh, later⟩ := valid
      have behind : Within rest here :=
        within_tail (.file name size rest) rest here name fresh
          (fun _ differ => if_neg (Ne.symm differ)) within
      rw [visits, Listing.names]
      apply filled_leaf drive dir here above levels name _ _ _ list fits
        walking (.file size)
      · exact within name _ (if_pos rfl)
      · intro entries isDir
        cases isDir
      · intro stat kept
        rw [entryHits, stat]
        simp only
        rw [kept]
      · exact fun list => ih levels dir here above walking later behind list
  | special name rest ih =>
      obtain ⟨fits, fresh, later⟩ := valid
      have behind : Within rest here :=
        within_tail (.special name rest) rest here name fresh
          (fun _ differ => if_neg (Ne.symm differ)) within
      rw [visits, Listing.names]
      apply filled_leaf drive dir here above levels name _ _ _ list fits
        walking .special
      · exact within name _ (if_pos rfl)
      · intro entries isDir
        cases isDir
      · intro stat _
        rw [entryHits, stat]
      · exact fun list => ih levels dir here above walking later behind list
  | dir name entries rest entriesInduction ih =>
      obtain ⟨fits, fresh, entriesValid, later⟩ := valid
      have behind : Within rest here :=
        within_tail (.dir name entries rest) rest here name fresh
          (fun _ differ => if_neg (Ne.symm differ)) within
      have found : here.lookup name = some (.dir entries) := by
        apply within
        rw [Listing.lookup, if_pos rfl]
      rw [visits_dir, Listing.names]
      apply filled_entryVisits drive dir here above levels name _ _ _ list fits
        walking _ fun list => ih levels dir here above walking later behind
          list
      intro short _
      have stat : drive.stat (fullPath dir name) = some (.dir entries) := by
        rw [stat_of_fits drive dir here above walking name fits short]
        exact found
      refine ⟨by rw [entryHits, stat], ?_⟩
      intro _ _ list
      cases levels with
      | zero => exact filled_nil list _ rfl
      | succ levels =>
          have inner := walking_child drive dir here above walking name
            entries fits found entriesValid short
          rw [scanLevels_dir drive levels _ entries list stat]
          by_cases full : pkgMaxResults ≤ list.count
          · rw [if_pos full]
            exact filled_full list _ _ full rfl
          · rw [if_neg full, fullPath_of_fits dir name short]
            exact entriesInduction levels (child dir name) entries
              (here :: above) inner entriesValid (fun _ _ there => there) list

end Walk

/-- The scan lists the visits that there is room for. -/
theorem pairs_scan (drive : Drive) :
    pairs (scanDirRecursive drive drive.root emptyList 0) =
      (firstVisits drive).map fun visit => (visit.path, visit.size) := by
  have walking := walking_root drive
  have walk := filled_visits drive drive.tree pkgMaxDepth drive.root
    drive.tree [] walking drive.valid (fun _ _ there => there) emptyList
  rw [scanDirRecursive, Nat.sub_zero,
    scanLevels_dir drive pkgMaxDepth drive.root drive.tree emptyList
      walking.leads.there, if_neg (by decide), walk, firstVisits,
    List.map_take]
  rfl

end HenPlugins.Pkg.ScanVisits
