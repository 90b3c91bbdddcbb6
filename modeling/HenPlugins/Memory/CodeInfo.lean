import HenPlugins.Lib.ByteMemory
import HenPlugins.Memory.CodeCave

/-!
# The mapping that `get_code_info` selects

The kernel answers with a table of records of one size.  The search for a
start address skips what comes before it, counts from there, and takes the
mapping that many pages later; without an address it takes the first code
mapping.
-/

set_option autoImplicit false

namespace HenPlugins.Memory.CodeInfo

open HenPlugins.Lib.ByteMemory
open HenPlugins.Memory.CodeCave

/-! ## Records -/

structure VmEntry where
  type : BitVec 32
  startAddr : Address
  endAddr : Address
  prot : BitVec 32
  deriving DecidableEq

def VmEntry.codeSize (record : VmEntry) : BitVec 64 :=
  record.endAddr - record.startAddr

/-- The number of so many bits that is stored at the address. -/
def loadBits (bits : Nat) (memory : CodeMemory) (address : Address) :
    BitVec bits :=
  BitVec.ofNat bits (fromLittleEndian (read memory address (bits / 8)))

def loadEntry (memory : CodeMemory) (entry : Address) : VmEntry where
  type := loadBits 32 memory (entry + 0x4)
  startAddr := loadBits 64 memory (entry + 0x8)
  endAddr := loadBits 64 memory (entry + 0x10)
  prot := loadBits 32 memory (entry + 0x38)

/-! ## The search -/

/-- The variables of the loop, except for the cursor and the count. -/
structure Search where
  valid : Bool
  idx : BitVec 32
  firstAddr : Address

def Search.start : Search where
  valid := false
  idx := 0
  firstAddr := 0

def Search.next (search : Search) : Search :=
  { search with idx := search.idx + 1 }

/-- A null `addrstart` is 0.  The result is `none` where the record is
skipped. -/
def Search.anchor (addrstart : Address) (record : VmEntry) (search : Search) :
    Option Search :=
  if addrstart ≠ 0 ∧ record.startAddr = addrstart then
    some { valid := true, idx := 0, firstAddr := record.startAddr }
  else if search.firstAddr = 0 ∧ addrstart ≠ 0 then none
  else some search

/-- The first code mapping of the process. -/
def VmEntry.isCode (record : VmEntry) : Bool :=
  record.type == 9 && (record.prot == 4 || record.prot == 5)

def Search.selects (pageIdx : BitVec 32) (record : VmEntry)
    (search : Search) : Bool :=
  (search.valid && search.idx == pageIdx) ||
    (pageIdx == 0 && record.isCode)

section Loop
variable (memory : CodeMemory) (structSize : BitVec 32) (addrstart : Address)
variable (pageIdx : BitVec 32)

def searchTable : Nat → Address → Search → Option VmEntry
  | 0, _, _ => none
  | count + 1, entry, search =>
      let record := loadEntry memory entry
      let following := entry + structSize.signExtend 64
      match search.anchor addrstart record with
      | none => searchTable count following search.next
      | some anchored =>
          if anchored.selects pageIdx record then some record
          else searchTable count following anchored.next

end Loop

/-! ## The call -/

/-- What the system answers for the process: `none` where `sysctl` fails, a
null address where `malloc` does.  The second `sysctl` fills the memory. -/
structure System where
  sizeQuery : Option (BitVec 64)
  allocated : Address
  dataQuery : Option (BitVec 64 × CodeMemory)

structure Outputs where
  address : BitVec 64
  size : BitVec 64
  deriving DecidableEq

/-- The division by the record size traps for 0: then there is no result. -/
def getCodeInfo (system : System) (addrstart : Address) (outputs : Outputs)
    (pageIdx : BitVec 32) : Option (Int × Outputs) :=
  match system.sizeQuery with
  | none => some (-1, outputs)
  | some asked =>
      if asked = 0 then some (-2, outputs)
      else if system.allocated = 0 then some (-3, outputs)
      else
        match system.dataQuery with
        | none => some (-4, outputs)
        | some (size, memory) =>
            let data := system.allocated
            let structSize := loadBits 32 memory data
            if structSize = 0 then none
            else
              let count := size / structSize.signExtend 64
              match searchTable memory structSize addrstart pageIdx
                  count.toNat data Search.start with
              | none => some (-5, outputs)
              | some record => some (0,
                  { address := record.startAddr, size := record.codeSize })

/-! ## Tables -/

/-- A table of `count` records as the kernel leaves it in the block, which may
stand before anything. -/
structure Table where
  count : Nat
  structSize : BitVec 32
  data : Address
  memory : CodeMemory
  positive : 0 < structSize.toInt
  allocated : data ≠ 0
  bounded : count * structSize.toNat < 2 ^ 64
  header : 0 < count → loadBits 32 memory data = structSize

variable (table : Table)

def Table.system : System where
  sizeQuery := some (BitVec.ofNat 64 (table.count * table.structSize.toNat))
  allocated := table.data
  dataQuery := some
    (BitVec.ofNat 64 (table.count * table.structSize.toNat), table.memory)

def Table.entryAt (index : Nat) : Address :=
  table.data + BitVec.ofNat 64 (index * table.structSize.toNat)

def Table.record (index : Nat) : VmEntry :=
  loadEntry table.memory (table.entryAt index)

/-- No two records begin at one address. -/
def Table.DistinctStarts : Prop :=
  ∀ index < table.count, ∀ other < table.count,
    (table.record index).startAddr = (table.record other).startAddr →
      index = other

/-- The call succeeds with the record of this index. -/
def Table.Gives (addrstart : Address) (outputs : Outputs)
    (pageIdx : BitVec 32) (index : Nat) : Prop :=
  getCodeInfo table.system addrstart outputs pageIdx = some (0,
    { address := (table.record index).startAddr
      size := (table.record index).codeSize })

def Table.Refuses (addrstart : Address) (outputs : Outputs)
    (pageIdx : BitVec 32) : Prop :=
  getCodeInfo table.system addrstart outputs pageIdx = some (-5, outputs)

/-- The mapping so many pages behind the one that begins at the address, or
without an address the first code mapping. -/
structure SelectsMapping (addrstart : Address) (outputs : Outputs)
    (pageIdx : BitVec 32) : Prop where
  behindAnchor : addrstart ≠ 0 → ∀ anchor,
    (table.record anchor).startAddr = addrstart →
      anchor + pageIdx.toNat < table.count →
        table.Gives addrstart outputs pageIdx (anchor + pageIdx.toNat)
  noPage : addrstart ≠ 0 → (∀ anchor < table.count,
    (table.record anchor).startAddr = addrstart →
      table.count ≤ anchor + pageIdx.toNat) →
        table.Refuses addrstart outputs pageIdx
  firstCode : addrstart = 0 → pageIdx = 0 → ∀ index < table.count,
    (table.record index).isCode = true →
      (∀ earlier < index, (table.record earlier).isCode = false) →
        table.Gives addrstart outputs pageIdx index
  noCode : addrstart = 0 → (pageIdx = 0 → ∀ index < table.count,
    (table.record index).isCode = false) →
      table.Refuses addrstart outputs pageIdx

/-! ## The cursor -/

theorem structSize_extended :
    table.structSize.signExtend 64 =
      BitVec.ofNat 64 table.structSize.toNat := by
  have positive := table.positive
  have bounded := table.structSize.isLt
  apply BitVec.eq_of_toInt_eq
  rw [BitVec.toInt_signExtend_of_le (by decide), BitVec.toInt_ofNat']
  rw [BitVec.toInt_eq_toNat_bmod] at positive ⊢
  simp only [Int.bmod] at positive ⊢
  omega

theorem structSize_pos : 0 < table.structSize.toNat := by
  have positive := table.positive
  apply Nat.pos_of_ne_zero
  intro zero
  rw [BitVec.toInt_eq_toNat_bmod, zero] at positive
  exact absurd positive (by decide)

theorem entryAt_zero : table.entryAt 0 = table.data := by
  rw [Table.entryAt, Nat.zero_mul, BitVec.add_zero]

theorem entryAt_succ (index : Nat) :
    table.entryAt index + table.structSize.signExtend 64 =
      table.entryAt (index + 1) := by
  rw [structSize_extended, Table.entryAt, Table.entryAt, Nat.succ_mul,
    BitVec.ofNat_add, BitVec.add_assoc]

theorem toNat_count :
    (BitVec.ofNat 64 (table.count * table.structSize.toNat) /
      table.structSize.signExtend 64).toNat = table.count := by
  have positive := structSize_pos table
  have small := table.structSize.isLt
  rw [structSize_extended, BitVec.toNat_udiv, BitVec.toNat_ofNat,
    BitVec.toNat_ofNat, Nat.mod_eq_of_lt table.bounded,
    Nat.mod_eq_of_lt (by omega), Nat.mul_div_cancel _ positive]

section Rounds
variable (addrstart : Address) (pageIdx : BitVec 32)

/-- The rounds from the record of this index on. -/
def searchFrom (count index : Nat) (search : Search) : Option VmEntry :=
  searchTable table.memory table.structSize addrstart pageIdx count
    (table.entryAt index) search

theorem searchFrom_succ (count index : Nat) (search : Search) :
    searchFrom table addrstart pageIdx (count + 1) index search =
      match search.anchor addrstart (table.record index) with
      | none => searchFrom table addrstart pageIdx count (index + 1) search.next
      | some anchored =>
          if anchored.selects pageIdx (table.record index) then
            some (table.record index)
          else searchFrom table addrstart pageIdx count (index + 1)
            anchored.next := by
  rw [searchFrom, searchTable, entryAt_succ]
  rfl

theorem searchFrom_before (given : addrstart ≠ 0) (skipped rest index : Nat)
    (search : Search) (fresh : search.firstAddr = 0)
    (before : ∀ earlier, index ≤ earlier → earlier < index + skipped →
      (table.record earlier).startAddr ≠ addrstart) :
    ∃ later : Search, later.firstAddr = 0 ∧
      searchFrom table addrstart pageIdx (skipped + rest) index search =
        searchFrom table addrstart pageIdx rest (index + skipped) later := by
  induction skipped generalizing index search with
  | zero =>
      refine ⟨search, fresh, ?_⟩
      rw [Nat.zero_add, Nat.add_zero]
  | succ skipped ih =>
      have different := before index (Nat.le_refl _) (by omega)
      have skips : search.anchor addrstart (table.record index) = none := by
        rw [Search.anchor, if_neg (fun both => different both.2),
          if_pos ⟨fresh, given⟩]
      obtain ⟨later, unset, same⟩ := ih (index + 1) search.next fresh
        (fun earlier behind inside => before earlier (by omega) (by omega))
      refine ⟨later, unset, ?_⟩
      rw [Nat.add_right_comm, searchFrom_succ, skips]
      rw [show index + (skipped + 1) = index + 1 + skipped by omega]
      exact same

/-- The variables so many records behind the anchor. -/
def anchoredAt (distance : Nat) : Search where
  valid := true
  idx := BitVec.ofNat 32 distance
  firstAddr := addrstart

theorem anchor_stays (given : addrstart ≠ 0) (record : VmEntry)
    (distance : Nat)
    (single : record.startAddr = addrstart → distance = 0) :
    (anchoredAt addrstart distance).anchor addrstart record =
      some (anchoredAt addrstart distance) := by
  rw [Search.anchor]
  by_cases here : record.startAddr = addrstart
  · rw [if_pos ⟨given, here⟩, here, single here]
    rfl
  · rw [if_neg (fun both => here both.2),
      if_neg (fun both => given both.1)]

theorem selects_anchored (record : VmEntry) (distance : Nat)
    (reached : distance ≤ pageIdx.toNat) :
    (anchoredAt addrstart distance).selects pageIdx record = true ↔
      distance = pageIdx.toNat := by
  have small := pageIdx.isLt
  rw [Search.selects, anchoredAt, Bool.true_and, Bool.or_eq_true,
    beq_iff_eq, Bool.and_eq_true, beq_iff_eq]
  constructor
  · rintro (same | ⟨zero, -⟩)
    · rw [← same, BitVec.toNat_ofNat, Nat.mod_eq_of_lt (by omega)]
    · rw [zero] at reached ⊢
      exact Nat.le_zero.mp reached
  · intro same
    left
    rw [same, BitVec.ofNat_toNat, BitVec.setWidth_eq]

theorem searchFrom_behind (given : addrstart ≠ 0)
    (count index distance : Nat) (reached : distance ≤ pageIdx.toNat)
    (single : ∀ offset < count,
      (table.record (index + offset)).startAddr = addrstart →
        distance + offset = 0) :
    searchFrom table addrstart pageIdx count index
        (anchoredAt addrstart distance) =
      if pageIdx.toNat < distance + count then
        some (table.record (index + (pageIdx.toNat - distance)))
      else none := by
  induction count generalizing index distance with
  | zero =>
      rw [if_neg (by omega)]
      rfl
  | succ count ih =>
      rw [searchFrom_succ, anchor_stays addrstart given (table.record index)
        distance (single 0 (Nat.succ_pos count))]
      have selected := selects_anchored addrstart pageIdx
        (table.record index) distance reached
      by_cases here : distance = pageIdx.toNat
      · have chosen := selected.mpr here
        simp only [chosen, if_true]
        rw [if_pos (by omega), here, Nat.sub_self, Nat.add_zero]
      · have passed : (anchoredAt addrstart distance).selects pageIdx
            (table.record index) = false :=
          Bool.eq_false_iff.mpr (mt selected.mp here)
        have counted : (anchoredAt addrstart distance).next =
            anchoredAt addrstart (distance + 1) := by
          rw [anchoredAt, Search.next, anchoredAt, BitVec.ofNat_add]
          rfl
        simp only [passed, counted, Bool.false_eq_true, if_false]
        rw [ih (index + 1) (distance + 1) (by omega)]
        · rw [show distance + 1 + count = distance + (count + 1) by omega,
            show index + 1 + (pageIdx.toNat - (distance + 1)) =
              index + (pageIdx.toNat - distance) by omega]
        · intro offset inside starts
          have none := single (offset + 1) (by omega) (by
            rw [show index + (offset + 1) = index + 1 + offset by omega]
            exact starts)
          omega

theorem searchFrom_anchor (given : addrstart ≠ 0) (count index : Nat)
    (search : Search)
    (here : (table.record index).startAddr = addrstart) :
    searchFrom table addrstart pageIdx (count + 1) index search =
      searchFrom table addrstart pageIdx (count + 1) index
        (anchoredAt addrstart 0) := by
  have anchored : search.anchor addrstart (table.record index) =
      some (anchoredAt addrstart 0) := by
    rw [Search.anchor, if_pos ⟨given, here⟩, here]
    rfl
  rw [searchFrom_succ, searchFrom_succ, anchored,
    anchor_stays addrstart given _ 0 fun _ => rfl]

theorem searchFrom_null (count index : Nat) (search : Search)
    (unset : search.valid = false) :
    searchFrom table 0 pageIdx (count + 1) index search =
      if pageIdx = 0 ∧ (table.record index).isCode = true then
        some (table.record index)
      else searchFrom table 0 pageIdx count (index + 1) search.next := by
  have stays : search.anchor 0 (table.record index) = some search := by
    rw [Search.anchor, if_neg (fun both => both.1 rfl),
      if_neg (fun both => both.2 rfl)]
  have selected : search.selects pageIdx (table.record index) = true ↔
      pageIdx = 0 ∧ (table.record index).isCode = true := by
    rw [Search.selects, unset, Bool.false_and, Bool.false_or,
      Bool.and_eq_true, beq_iff_eq]
  rw [searchFrom_succ, stays]
  simp only [selected]

theorem searchFrom_noCode (count index : Nat) (search : Search)
    (unset : search.valid = false)
    (none : pageIdx = 0 → ∀ offset < count,
      (table.record (index + offset)).isCode = false) :
    searchFrom table 0 pageIdx count index search = Option.none := by
  induction count generalizing index search with
  | zero => rfl
  | succ count ih =>
      rw [searchFrom_null table pageIdx count index search unset, if_neg]
      · apply ih (index + 1) search.next unset
        intro zero offset inside
        rw [show index + 1 + offset = index + (offset + 1) by omega]
        exact none zero (offset + 1) (by omega)
      · rintro ⟨zero, code⟩
        have other := none zero 0 (Nat.succ_pos count)
        rw [Nat.add_zero, code] at other
        exact Bool.noConfusion other

theorem searchFrom_firstCode (count index offset : Nat) (search : Search)
    (unset : search.valid = false) (inside : offset < count)
    (code : (table.record (index + offset)).isCode = true)
    (first : ∀ earlier < offset,
      (table.record (index + earlier)).isCode = false) :
    searchFrom table 0 0 count index search =
      some (table.record (index + offset)) := by
  induction count generalizing index offset search with
  | zero => exact absurd inside (Nat.not_lt_zero offset)
  | succ count ih =>
      rw [searchFrom_null table 0 count index search unset]
      cases offset with
      | zero =>
          rw [Nat.add_zero] at code
          rw [if_pos ⟨rfl, code⟩, Nat.add_zero]
      | succ offset =>
          have passed := first 0 (Nat.succ_pos offset)
          rw [Nat.add_zero] at passed
          rw [if_neg (by rw [passed]; exact fun both => Bool.noConfusion both.2)]
          rw [show index + (offset + 1) = index + 1 + offset by omega]
          rw [show index + (offset + 1) = index + 1 + offset by omega] at code
          apply ih (index + 1) offset search.next unset (by omega) code
          intro earlier before
          rw [show index + 1 + earlier = index + (earlier + 1) by omega]
          exact first (earlier + 1) (by omega)

end Rounds

/-! ## The call -/

section Call
variable (addrstart : Address) (outputs : Outputs) (pageIdx : BitVec 32)

theorem size_ne_zero (given : 0 < table.count) :
    BitVec.ofNat 64 (table.count * table.structSize.toNat) ≠ 0 := by
  have positive := Nat.mul_pos given (structSize_pos table)
  intro zero
  have small := congrArg BitVec.toNat zero
  rw [BitVec.toNat_ofNat, Nat.mod_eq_of_lt table.bounded] at small
  exact absurd small (Nat.ne_of_gt positive)

theorem getCodeInfo_table (given : 0 < table.count) :
    getCodeInfo table.system addrstart outputs pageIdx =
      some ((searchFrom table addrstart pageIdx table.count 0
        Search.start).elim (-5, outputs) fun record => (0,
          { address := record.startAddr, size := record.codeSize })) := by
  have sized : table.structSize ≠ 0 := by
    intro zero
    have positive := structSize_pos table
    rw [zero] at positive
    exact Nat.lt_irrefl 0 positive
  rw [getCodeInfo, Table.system]
  simp only [size_ne_zero table given, table.allocated, table.header given,
    sized, toNat_count, if_false]
  rw [searchFrom, entryAt_zero]
  cases searchTable table.memory table.structSize addrstart pageIdx
      table.count table.data Search.start with
  | none => rfl
  | some record => rfl

theorem gives_of_some (index : Nat) (given : 0 < table.count)
    (found : searchFrom table addrstart pageIdx table.count 0 Search.start =
      some (table.record index)) :
    table.Gives addrstart outputs pageIdx index := by
  rw [Table.Gives, getCodeInfo_table table _ _ _ given, found]
  rfl

theorem refuses_of_none (given : 0 < table.count)
    (none : searchFrom table addrstart pageIdx table.count 0 Search.start =
      Option.none) :
    table.Refuses addrstart outputs pageIdx := by
  rw [Table.Refuses, getCodeInfo_table table _ _ _ given, none]
  rfl

/-- From the first record the anchor is reached and the page counted off. -/
theorem searchFrom_reaches (present : addrstart ≠ 0) (anchor : Nat)
    (inside : anchor < table.count) (distinct : table.DistinctStarts)
    (here : (table.record anchor).startAddr = addrstart) :
    searchFrom table addrstart pageIdx table.count 0 Search.start =
      if anchor + pageIdx.toNat < table.count then
        some (table.record (anchor + pageIdx.toNat))
      else none := by
  obtain ⟨rest, total⟩ := Nat.exists_eq_add_of_lt inside
  have alone : ∀ index < table.count,
      (table.record index).startAddr = addrstart → index = anchor :=
    fun index bounded starts =>
      distinct index bounded anchor inside (starts.trans here.symm)
  obtain ⟨later, -, skipped⟩ := searchFrom_before table addrstart pageIdx
    present anchor (rest + 1) 0 Search.start rfl (by
      intro earlier _ before starts
      have same := alone earlier (by omega) starts
      omega)
  rw [show table.count = anchor + (rest + 1) by omega, skipped, Nat.zero_add,
    searchFrom_anchor table addrstart pageIdx present rest anchor later here,
    searchFrom_behind table addrstart pageIdx present (rest + 1) anchor 0
      (Nat.zero_le _) (by
        intro offset bounded starts
        have same := alone (anchor + offset) (by omega) starts
        omega),
    Nat.zero_add, Nat.sub_zero]
  by_cases bounded : pageIdx.toNat < rest + 1
  · rw [if_pos bounded, if_pos (by omega)]
  · rw [if_neg bounded, if_neg (by omega)]

theorem selectsMapping_of_records (given : 0 < table.count)
    (distinct : table.DistinctStarts) :
    SelectsMapping table addrstart outputs pageIdx := by
  constructor
  · intro present anchor here inside
    apply gives_of_some table addrstart outputs pageIdx _ given
    rw [searchFrom_reaches table addrstart pageIdx present anchor (by omega)
      distinct here, if_pos inside]
  · intro present tooFar
    apply refuses_of_none table addrstart outputs pageIdx given
    by_cases exists' : ∃ anchor < table.count,
        (table.record anchor).startAddr = addrstart
    · obtain ⟨anchor, inside, here⟩ := exists'
      have behind := tooFar anchor inside here
      rw [searchFrom_reaches table addrstart pageIdx present anchor inside
        distinct here, if_neg (by omega)]
    · obtain ⟨later, -, skipped⟩ := searchFrom_before table addrstart pageIdx
        present table.count 0 0 Search.start rfl (by
          intro earlier _ before starts
          exact exists' ⟨earlier, by omega, starts⟩)
      exact skipped
  · rintro rfl rfl index inside code first
    apply gives_of_some table 0 outputs 0 index given
    have found := searchFrom_firstCode table table.count 0 index Search.start
      rfl inside
    rw [Nat.zero_add] at found
    apply found code
    intro earlier before
    rw [Nat.zero_add]
    exact first earlier before
  · rintro rfl none
    apply refuses_of_none table 0 outputs pageIdx given
    apply searchFrom_noCode table pageIdx table.count 0 Search.start rfl
    intro zero offset inside
    rw [Nat.zero_add]
    exact none zero offset inside

/-- With records the right mapping is selected; a process without any is
answered before the search. -/
theorem getCodeInfo_of_table (distinct : table.DistinctStarts) :
    (0 < table.count → SelectsMapping table addrstart outputs pageIdx) ∧
      (table.count = 0 → getCodeInfo table.system addrstart outputs pageIdx =
        some (-2, outputs)) := by
  constructor
  · intro given
    exact selectsMapping_of_records table addrstart outputs pageIdx given
      distinct
  · intro empty
    rw [getCodeInfo, Table.system]
    simp only [empty, Nat.zero_mul]
    exact if_pos rfl

end Call

/-- A process without mappings. -/
def emptyTable : Table where
  count := 0
  structSize := 72
  data := 0x9000
  memory := fun _ => 0
  positive := by decide
  allocated := by decide
  bounded := by decide
  header := fun records => absurd records (Nat.lt_irrefl 0)

theorem emptyTable_not_selected :
    emptyTable.DistinctStarts ∧
      ¬ SelectsMapping emptyTable 0x400000 ⟨0, 0⟩ 1 := by
  constructor
  · intro index inside
    exact absurd inside (Nat.not_lt_zero index)
  · intro selects
    have refused := selects.noPage (by decide) (fun anchor inside =>
      absurd inside (Nat.not_lt_zero anchor))
    rw [Table.Refuses] at refused
    exact absurd refused (by decide)

/-- The text and the data of a module. -/
def moduleTable : Table where
  count := 2
  structSize := 64
  data := 0xa000
  memory := fun address =>
    if address = 0xa000 then 64
    else if address = 0xa00a then 0x40
    else if address = 0xa04a then 0x80
    else 0
  positive := by decide
  allocated := by decide
  bounded := by decide
  header := fun _ => by decide

theorem moduleTable_selects :
    (0 < moduleTable.count →
        SelectsMapping moduleTable 0x400000 ⟨0, 0⟩ 1) ∧
      (moduleTable.count = 0 →
        getCodeInfo moduleTable.system 0x400000 ⟨0, 0⟩ 1 =
          some (-2, ⟨0, 0⟩)) :=
  getCodeInfo_of_table moduleTable 0x400000 ⟨0, 0⟩ 1 (by
    unfold Table.DistinctStarts
    decide)

end HenPlugins.Memory.CodeInfo
