import HenPlugins.Lib.EventRun
import HenPlugins.Memory.FarHook

/-!
# Far hooks of one module

No jump that was written fits a padding, so every call finds padding of the
original text.  The scan reads behind the text, though: padding that begins in
the text may run past its end, and nothing keeps its area apart from a source.
-/

set_option autoImplicit false

namespace HenPlugins.Memory.FarHookRun

open HenPlugins.Lib.ByteMemory
open HenPlugins.Lib.EventRun
open HenPlugins.Lib.PatchedText
open HenPlugins.Memory.CodeCave
open HenPlugins.Memory.FarHook
open HenPlugins.Memory.Trampoline

/-- A call that found an area, and where. -/
structure Redirection where
  call : Call
  area : Nat
  deriving DecidableEq

structure FarHooks where
  state : HookState
  redirected : List Redirection

def place (segment : TextSegment) (address : Address) : Nat :=
  (address - segment.textbase).toNat

def hookFar (segment : TextSegment) (hooks : FarHooks) (call : Call) :
    FarHooks :=
  let jmparea := findJmpArea segment hooks.state.memory
  { state := (make32to64Jmp segment hooks.state call false).2
    redirected :=
      if jmparea ≠ 0 then
        hooks.redirected ++
          [{ call := call, area := place segment jmparea }]
      else hooks.redirected }

def unhooked (memory : CodeMemory) : FarHooks where
  state := { memory := memory, caveInstSize := 0, once := false, written := [] }
  redirected := []

def hookAll (segment : TextSegment) (hooks : FarHooks) (calls : List Call) :
    FarHooks :=
  calls.foldl (hookFar segment) hooks

/-! ## What is assumed and what is asked -/

/-- The sources lie in the text, apart from one another and from the padding. -/
structure SourcesFit (segment : TextSegment) (memory : CodeMemory)
    (calls : List Call) : Prop where
  sizes : ∀ call ∈ calls, call.srclen = 5 ∨ call.srclen = 6
  inText : ∀ call ∈ calls,
    place segment call.src + call.srclen ≤ segment.textsz
  disjoint : calls.Pairwise fun first second =>
    Clear (place segment first.src) first.srclen
      (place segment second.src) second.srclen
  offPadding : ∀ call ∈ calls, ∀ (padding : Padding) (position : Nat),
    position + 16 ≤ segment.textsz →
    Stands (codeAt memory segment.textbase) position padding.bytes →
      Clear (place segment call.src) call.srclen position 16
  destinations : ∀ call ∈ calls, call.dst.toNat < 2 ^ 48

/-- A call or jump whose target holds the jump to the destination. -/
def Redirected (memory : CodeMemory) (call : Call) : Prop :=
  ∃ relative : BitVec 32,
    Holds memory call.src
        (callOp call.call :: littleEndian 4 relative.toNat) ∧
      Holds memory (call.src + BitVec.ofNat 64 jmpcallbytes +
        relative.signExtend 64) (jumpBytes call.dst)

structure FarHooksKept (segment : TextSegment) (memory : CodeMemory)
    (calls : List Call) : Prop where
  redirected : ∀ (front back : List Call) (call : Call),
    calls = front ++ call :: back →
    findJmpArea segment
        (hookAll segment (unhooked memory) front).state.memory ≠ 0 →
      Redirected (hookAll segment (unhooked memory) calls).state.memory call
  quiet : ∀ (front back : List Call) (call : Call),
    calls = front ++ call :: back →
    findJmpArea segment
        (hookAll segment (unhooked memory) front).state.memory = 0 →
      (hookAll segment (unhooked memory) (front ++ [call])).state.memory =
        (hookAll segment (unhooked memory) front).state.memory

/-- The area of padding that begins in the text and ends behind it. -/
def OverhangingArea (segment : TextSegment) (memory : CodeMemory)
    (area : Nat) : Prop :=
  ∃ (padding : Padding) (position : Nat), position < segment.textsz ∧
    segment.textsz < position + 16 ∧
    Stands (codeAt memory segment.textbase) position padding.bytes ∧
    area = position + padding.offset

/-- If the scan leads to an area that hangs over, the jump at the source must
not reach into it; nor may a source cover such an area once it is taken. -/
structure StepClear (segment : TextSegment) (memory : CodeMemory)
    (hooks : FarHooks) (call : Call) : Prop where
  own : ∀ area, OverhangingArea segment memory area →
    findJmpArea segment hooks.state.memory =
      segment.textbase + BitVec.ofNat 64 area →
    Clear (place segment call.src) 5 area 14
  earlier : ∀ area, OverhangingArea segment memory area →
    findJmpArea segment hooks.state.memory ≠ 0 →
    (∃ hook ∈ hooks.redirected, hook.area = area) →
    Clear (place segment call.src) call.srclen area 14

/-! ## One call -/

/-- What is assumed of a single call. -/
structure CallFits (segment : TextSegment) (call : Call) : Prop where
  size : call.srclen = 5 ∨ call.srclen = 6
  inText : place segment call.src + call.srclen ≤ segment.textsz
  destination : call.dst.toNat < 2 ^ 48

/-- Every padding that now stands in the text stood there from the start, clear
of all that was written, and every redirection works. -/
structure Standing (segment : TextSegment) (memory : CodeMemory)
    (hooks : FarHooks) : Prop where
  fits : ∀ hook ∈ hooks.redirected, CallFits segment hook.call
  original : ∀ (padding : Padding) (position : Nat),
    position < segment.textsz →
    Stands (codeAt hooks.state.memory segment.textbase) position
      padding.bytes →
    Stands (codeAt memory segment.textbase) position padding.bytes ∧
      ∀ hook ∈ hooks.redirected,
        Clear position 16 (place segment hook.call.src)
            hook.call.srclen ∧
          Clear position 16 hook.area 14
  areas : ∀ hook ∈ hooks.redirected, ∃ (padding : Padding) (position : Nat),
    position < segment.textsz ∧
    Stands (codeAt memory segment.textbase) position padding.bytes ∧
    hook.area = position + padding.offset
  sources : ∀ hook ∈ hooks.redirected,
    Stands (codeAt hooks.state.memory segment.textbase)
      (place segment hook.call.src)
      (shortJump hook.call.src
        (segment.textbase + BitVec.ofNat 64 hook.area) hook.call.call)
  targets : ∀ hook ∈ hooks.redirected,
    Stands (codeAt hooks.state.memory segment.textbase) hook.area
      (jumpBytes hook.call.dst)

theorem standing_unhooked (segment : TextSegment) (memory : CodeMemory) :
    Standing segment memory (unhooked memory) where
  fits := by simp [unhooked]
  original := by
    intro padding position _ stands
    exact ⟨stands, by simp [unhooked]⟩
  areas := by simp [unhooked]
  sources := by simp [unhooked]
  targets := by simp [unhooked]

section Hooking
variable (segment : TextSegment) (hooks : FarHooks) (call : Call)

theorem source_of_place :
    segment.textbase + BitVec.ofNat 64 (place segment call.src) =
      call.src := by
  rw [place, BitVec.ofNat_toNat, BitVec.setWidth_eq, add_sub_cancel]

theorem place_of_offset (offset : Nat) (small : offset < 2 ^ 64) :
    place segment (segment.textbase + BitVec.ofNat 64 offset) = offset := by
  rw [place, offset_of_add, Nat.mod_eq_of_lt small]

theorem offset_ne_zero (offset : Nat) (near : offset < segment.textsz + 16) :
    segment.textbase + BitVec.ofNat 64 offset ≠ 0 := by
  have bounded := segment.inUserSpace
  have positive : segment.textbase.toNat ≠ 0 := by
    intro zero
    exact segment.notNull (BitVec.eq_of_toNat_eq zero)
  intro zero
  have value := congrArg BitVec.toNat zero
  have nothing : (0 : Address).toNat = 0 := rfl
  rw [BitVec.toNat_add, BitVec.toNat_ofNat, nothing] at value
  omega

theorem hookFar_none (none : findJmpArea segment hooks.state.memory = 0) :
    hookFar segment hooks call = hooks := by
  rw [hookFar, make32to64Jmp_none segment hooks.state call false none]
  simp only [none, ne_eq, not_true_eq_false, if_false]

/-- The text as a call leaves it. -/
def patchedText (text : Nat → UInt8) (area : Nat) : Nat → UInt8 :=
  splice (splice (if call.srclen = 5 then text
      else splice text (place segment call.src)
        (List.replicate call.srclen 0x90))
      (place segment call.src)
      (shortJump call.src (segment.textbase + BitVec.ofNat 64 area)
        call.call))
    area (jumpBytes call.dst)

/-- A call that finds an area. -/
structure Found (area : Nat) : Prop where
  reported : findJmpArea segment hooks.state.memory =
    segment.textbase + BitVec.ofNat 64 area
  padded : ∃ (padding : Padding) (position : Nat), position < segment.textsz ∧
    Stands (codeAt hooks.state.memory segment.textbase) position
      padding.bytes ∧
    area = position + padding.offset

theorem found_of_nonzero (fits : CallFits segment call)
    (nonzero : findJmpArea segment hooks.state.memory ≠ 0) :
    ∃ area, Found segment hooks area := by
  have some : segment.textsz ≠ 0 := by
    have inText := fits.inText
    rcases fits.size with size | size <;> omega
  obtain ⟨position, inside, padding, stands, value⟩ :=
    findJmpArea_spec segment hooks.state.memory some nonzero
  exact ⟨position + padding.offset, value, padding, position, inside, stands,
    rfl⟩

variable (area : Nat) (small : segment.textsz < 2 ^ 27)
  (fits : CallFits segment call) (found : Found segment hooks area)

include found in
theorem found_near : area < segment.textsz + 2 := by
  obtain ⟨padding, position, inside, -, rfl⟩ := found.padded
  have bounds := padding.offset_bounds
  omega

include found in
theorem hookFar_redirected :
    (hookFar segment hooks call).redirected =
      hooks.redirected ++ [{ call := call, area := area }] := by
  have near := found_near segment hooks area found
  have bounded := segment.inUserSpace
  have nonzero : findJmpArea segment hooks.state.memory ≠ 0 := by
    rw [found.reported]
    exact offset_ne_zero segment area (by omega)
  rw [hookFar]
  simp only [nonzero, ne_eq, not_false_eq_true, if_true]
  rw [found.reported, place_of_offset segment area (by omega)]

include found fits in
theorem hookFar_memory (index : Nat) (inRange : index < 2 ^ 64) :
    codeAt (hookFar segment hooks call).state.memory segment.textbase index =
      patchedText segment call (codeAt hooks.state.memory segment.textbase)
        area index := by
  have near := found_near segment hooks area found
  have bounded := segment.inUserSpace
  have inText := fits.inText
  have size := fits.size
  have nonzero := offset_ne_zero segment area (by omega)
  rw [← found.reported] at nonzero
  have given := offset_ne_zero segment (place segment call.src) (by omega)
  rw [source_of_place] at given
  rw [hookFar]
  simp only
  rw [make32to64Jmp_memory segment hooks.state call false given size nonzero,
    found.reported, patchedText]
  rw [codeAt_write _ _ _ _ (by rw [length_jumpBytes]; omega) index inRange]
  apply splice_congr
  have jumped := codeAt_write
    (if call.srclen = 5 then hooks.state.memory
      else write hooks.state.memory call.src
        (List.replicate call.srclen 0x90))
    segment.textbase (place segment call.src)
    (shortJump call.src (segment.textbase + BitVec.ofNat 64 area) call.call)
    (by rw [length_shortJump]; omega) index inRange
  rw [source_of_place] at jumped
  rw [jumped]
  apply splice_congr
  split
  · rfl
  · have cleared := codeAt_write hooks.state.memory segment.textbase
      (place segment call.src) (List.replicate call.srclen 0x90)
      (by rw [List.length_replicate]; omega) index inRange
    rw [source_of_place] at cleared
    exact cleared

/-! ## What a call leaves -/

include fits found in
theorem stands_hookFar (start : Nat) (data : List UInt8)
    (inRange : start + data.length ≤ 2 ^ 64) :
    Stands (codeAt (hookFar segment hooks call).state.memory
        segment.textbase) start data ↔
      Stands (patchedText segment call
        (codeAt hooks.state.memory segment.textbase) area) start data := by
  have same : ∀ index < data.length,
      codeAt (hookFar segment hooks call).state.memory segment.textbase
          (start + index) =
        patchedText segment call
          (codeAt hooks.state.memory segment.textbase) area
          (start + index) := by
    intro index inside
    exact hookFar_memory segment hooks call area fits found _ (by omega)
  constructor
  · intro stands
    exact stands_congr _ _ start data stands fun index inside =>
      (same index inside).symm
  · intro stands
    exact stands_congr _ _ start data stands same

include fits in
theorem stands_patchedText (text : Nat → UInt8) (start : Nat)
    (data : List UInt8)
    (offSource : Clear start data.length (place segment call.src)
      call.srclen)
    (offArea : Clear start data.length area 14)
    (stands : Stands text start data) :
    Stands (patchedText segment call text area) start data := by
  have size := fits.size
  apply (stands_splice_clear _ _ _ _ _ (by
    rw [length_jumpBytes]
    exact offArea)).mpr
  apply (stands_splice_clear _ _ _ _ _ (by
    rw [length_shortJump]
    unfold Clear at *
    omega)).mpr
  split
  · exact stands
  · apply (stands_splice_clear _ _ _ _ _ (by
      rw [List.length_replicate]
      exact offSource)).mpr
    exact stands

include small fits in
/-- A call makes no new padding. -/
theorem padding_patchedText (text : Nat → UInt8) (padding : Padding)
    (position : Nat) (near : area < segment.textsz + 2)
    (occurs : Stands (patchedText segment call text area) position
      padding.bytes) :
    Stands text position padding.bytes ∧
      Clear position 16 (place segment call.src) call.srclen ∧
      Clear position 16 area 14 := by
  have size := fits.size
  have inText := fits.inText
  obtain ⟨jumped, offArea⟩ := occurrence_of_splice padding.bytes
    (jumpBytes call.dst) (jumpBytes_inert call.dst fits.destination padding)
    _ area position occurs
  have inert := shortJump_inert segment.textbase (place segment call.src) area
    call.call (by omega) (by omega) padding
  rw [source_of_place] at inert
  obtain ⟨cleared, offJump⟩ := occurrence_of_splice padding.bytes _ inert _ _
    position jumped
  rw [padding.length_bytes, length_jumpBytes] at offArea
  rw [padding.length_bytes, length_shortJump] at offJump
  split at cleared
  · rename_i short
    exact ⟨cleared, by rw [short]; exact offJump, offArea⟩
  · rename_i long
    -- the sixth byte is a nop, and no padding begins with one
    have offSource : Clear position 16 (place segment call.src)
        call.srclen := by
      obtain ⟨byte, first, -, -, differ⟩ := padding_first padding
      by_contra overlap
      have begins : position = place segment call.src + 5 := by
        unfold Clear at *
        omega
      have fromPadding := cleared 0 byte first
      have nop := stands_splice text (place segment call.src)
        (List.replicate call.srclen 0x90) 5 0x90 (by
          rw [List.getElem?_replicate, if_pos (by omega)])
      rw [Nat.add_zero, begins, nop] at fromPadding
      exact differ fromPadding.symm
    refine ⟨?_, offSource, offArea⟩
    exact (stands_splice_clear text position padding.bytes _ _ (by
      rw [List.length_replicate, padding.length_bytes]
      exact offSource)).mp cleared

omit fits in
/-- The new jump stands, unless the area reaches into it. -/
theorem jump_patchedText (text : Nat → UInt8)
    (clear : Clear (place segment call.src) 5 area 14) :
    Stands (patchedText segment call text area) (place segment call.src)
      (shortJump call.src (segment.textbase + BitVec.ofNat 64 area)
        call.call) := by
  apply (stands_splice_clear _ _ _ _ _ (by
    rw [length_shortJump, length_jumpBytes]
    exact clear)).mpr
  exact stands_splice _ _ _

theorem target_patchedText (text : Nat → UInt8) :
    Stands (patchedText segment call text area) area
      (jumpBytes call.dst) :=
  stands_splice _ _ _

variable (memory : CodeMemory) (standing : Standing segment memory hooks)
  (offPadding : ∀ (padding : Padding) (position : Nat),
    position + 16 ≤ segment.textsz →
    Stands (codeAt memory segment.textbase) position padding.bytes →
      Clear (place segment call.src) call.srclen position 16)
  (clear : StepClear segment memory hooks call)

include offPadding in
/-- A source reaches an area only where its padding hangs over. -/
theorem source_off_area (padding : Padding) (position count : Nat)
    (shorter : count ≤ call.srclen)
    (inside : position < segment.textsz)
    (stands : Stands (codeAt memory segment.textbase) position padding.bytes)
    (overhanging : OverhangingArea segment memory
        (position + padding.offset) →
      Clear (place segment call.src) count (position + padding.offset) 14) :
    Clear (place segment call.src) count (position + padding.offset) 14 := by
  rcases Nat.lt_or_ge segment.textsz (position + 16) with beyond | within
  · exact overhanging ⟨padding, position, inside, beyond, stands, rfl⟩
  · have bounds := padding.offset_bounds
    have apart := offPadding padding position within stands
    unfold Clear at *
    omega

include fits found standing clear offPadding in
theorem jump_off_area : Clear (place segment call.src) 5 area 14 := by
  have size := fits.size
  obtain ⟨padding, position, inside, stands, areaPlace⟩ := found.padded
  obtain ⟨stood, -⟩ := standing.original padding position inside stands
  rw [areaPlace]
  apply source_off_area segment call memory offPadding padding position 5
    (by omega) inside stood
  rw [← areaPlace]
  intro overhanging
  exact clear.own area overhanging found.reported

include found standing clear offPadding in
theorem source_off_taken (hook : Redirection)
    (member : hook ∈ hooks.redirected) :
    Clear (place segment call.src) call.srclen hook.area 14 := by
  have near := found_near segment hooks area found
  have nonzero : findJmpArea segment hooks.state.memory ≠ 0 := by
    rw [found.reported]
    exact offset_ne_zero segment area (by omega)
  obtain ⟨padding, position, inside, stood, areaPlace⟩ :=
    standing.areas hook member
  rw [areaPlace]
  apply source_off_area segment call memory offPadding padding position
    call.srclen (Nat.le_refl _) inside stood
  rw [← areaPlace]
  intro overhanging
  exact clear.earlier hook.area overhanging nonzero ⟨hook, member, rfl⟩

include found standing in
theorem area_off_written (hook : Redirection)
    (member : hook ∈ hooks.redirected) :
    Clear area 14 (place segment hook.call.src) hook.call.srclen ∧
      Clear area 14 hook.area 14 := by
  obtain ⟨padding, position, inside, stands, areaPlace⟩ := found.padded
  have bounds := padding.offset_bounds
  obtain ⟨offSource, offArea⟩ :=
    (standing.original padding position inside stands).2 hook member
  unfold Clear at *
  omega

include found in
theorem forall_redirected (property : Redirection → Prop)
    (old : ∀ hook ∈ hooks.redirected, property hook)
    (new : property { call := call, area := area }) :
    ∀ hook ∈ (hookFar segment hooks call).redirected, property hook := by
  rw [hookFar_redirected segment hooks call area found]
  intro hook member
  rcases List.mem_append.mp member with before | added
  · exact old hook before
  · rw [List.mem_singleton.mp added]
    exact new

include standing small fits found in
theorem original_hookFar (padding : Padding) (position : Nat)
    (inside : position < segment.textsz)
    (occurs : Stands (codeAt (hookFar segment hooks call).state.memory
      segment.textbase) position padding.bytes) :
    Stands (codeAt memory segment.textbase) position padding.bytes ∧
      ∀ hook ∈ (hookFar segment hooks call).redirected,
        Clear position 16 (place segment hook.call.src) hook.call.srclen ∧
          Clear position 16 hook.area 14 := by
  have near := found_near segment hooks area found
  have bounded := segment.inUserSpace
  have patched := (stands_hookFar segment hooks call area fits found position
    padding.bytes (by rw [padding.length_bytes]; omega)).mp occurs
  obtain ⟨before, offNew⟩ := padding_patchedText segment call area small fits
    _ padding position near patched
  obtain ⟨first, offOld⟩ := standing.original padding position inside before
  exact ⟨first,
    forall_redirected segment hooks call area found _ offOld offNew⟩

include standing clear offPadding fits found in
theorem sources_hookFar
    (offSources : ∀ hook ∈ hooks.redirected,
      Clear (place segment hook.call.src) hook.call.srclen
        (place segment call.src) call.srclen) :
    ∀ hook ∈ (hookFar segment hooks call).redirected,
      Stands (codeAt (hookFar segment hooks call).state.memory
          segment.textbase) (place segment hook.call.src)
        (shortJump hook.call.src
          (segment.textbase + BitVec.ofNat 64 hook.area) hook.call.call) := by
  have bounded := segment.inUserSpace
  have kept := stands_hookFar segment hooks call area fits found
  apply forall_redirected segment hooks call area found
  · intro hook member
    have oldFits := standing.fits hook member
    have oldSize := oldFits.size
    have oldInText := oldFits.inText
    have offSource := offSources hook member
    obtain ⟨offPlace, -⟩ := area_off_written segment hooks area found memory
      standing hook member
    apply (kept _ _ (by rw [length_shortJump]; omega)).mpr
    apply stands_patchedText segment call area fits _ _ _ ?_ ?_
      (standing.sources hook member)
    · rw [length_shortJump]
      unfold Clear at *
      omega
    · rw [length_shortJump]
      unfold Clear at *
      omega
  · have size := fits.size
    have inText := fits.inText
    apply (kept _ _ (by
      rw [length_shortJump]
      simp only
      omega)).mpr
    exact jump_patchedText segment call area _
      (jump_off_area segment hooks call area fits found memory standing
        offPadding clear)

include standing clear offPadding fits found in
theorem targets_hookFar :
    ∀ hook ∈ (hookFar segment hooks call).redirected,
      Stands (codeAt (hookFar segment hooks call).state.memory
          segment.textbase) hook.area (jumpBytes hook.call.dst) := by
  have bounded := segment.inUserSpace
  have near := found_near segment hooks area found
  have kept := stands_hookFar segment hooks call area fits found
  apply forall_redirected segment hooks call area found
  · intro hook member
    obtain ⟨oldPadding, oldPosition, oldInside, -, oldPlace⟩ :=
      standing.areas hook member
    have oldBounds := oldPadding.offset_bounds
    have offSource := source_off_taken segment hooks call area found memory
      standing offPadding clear hook member
    obtain ⟨-, offArea⟩ := area_off_written segment hooks area found memory
      standing hook member
    apply (kept _ _ (by rw [length_jumpBytes]; omega)).mpr
    apply stands_patchedText segment call area fits _ _ _ ?_ ?_
      (standing.targets hook member)
    · rw [length_jumpBytes]
      exact clear_symm _ _ _ _ offSource
    · rw [length_jumpBytes]
      exact clear_symm _ _ _ _ offArea
  · apply (kept _ _ (by
      rw [length_jumpBytes]
      simp only
      omega)).mpr
    exact target_patchedText segment call area _

include standing clear offPadding small fits found in
theorem standing_found
    (offSources : ∀ hook ∈ hooks.redirected,
      Clear (place segment hook.call.src) hook.call.srclen
        (place segment call.src) call.srclen) :
    Standing segment memory (hookFar segment hooks call) where
  fits := forall_redirected segment hooks call area found _ standing.fits fits
  original := original_hookFar segment hooks call area small fits found memory
    standing
  areas := by
    obtain ⟨padding, position, inside, stands, areaPlace⟩ := found.padded
    have stood := (standing.original padding position inside stands).1
    exact forall_redirected segment hooks call area found _ standing.areas
      ⟨padding, position, inside, stood, areaPlace⟩
  sources := sources_hookFar segment hooks call area fits found memory
    standing offPadding clear offSources
  targets := targets_hookFar segment hooks call area fits found memory
    standing offPadding clear

end Hooking

/-! ## A sequence of calls -/

section Running
variable (segment : TextSegment) (memory : CodeMemory)
  (small : segment.textsz < 2 ^ 27)

theorem callFits_of_sourcesFit (calls : List Call)
    (fits : SourcesFit segment memory calls) (call : Call)
    (member : call ∈ calls) : CallFits segment call where
  size := fits.sizes call member
  inText := fits.inText call member
  destination := fits.destinations call member

theorem sourcesFit_tail (call : Call) (calls : List Call)
    (fits : SourcesFit segment memory (call :: calls)) :
    SourcesFit segment memory calls where
  sizes := fun other member => fits.sizes other
    (List.mem_cons_of_mem _ member)
  inText := fun other member => fits.inText other
    (List.mem_cons_of_mem _ member)
  disjoint := (List.pairwise_cons.mp fits.disjoint).2
  offPadding := fun other member => fits.offPadding other
    (List.mem_cons_of_mem _ member)
  destinations := fun other member => fits.destinations other
    (List.mem_cons_of_mem _ member)

include small in
theorem standing_hookFar (hooks : FarHooks) (call : Call)
    (calls : List Call) (fits : SourcesFit segment memory (call :: calls))
    (clear : StepClear segment memory hooks call)
    (standing : Standing segment memory hooks)
    (offSources : ∀ hook ∈ hooks.redirected,
      Clear (place segment hook.call.src) hook.call.srclen
        (place segment call.src) call.srclen) :
    Standing segment memory (hookFar segment hooks call) := by
  have callFits := callFits_of_sourcesFit segment memory _ fits call
    (List.mem_cons_self ..)
  by_cases none : findJmpArea segment hooks.state.memory = 0
  · rw [hookFar_none segment hooks call none]
    exact standing
  · obtain ⟨area, found⟩ := found_of_nonzero segment hooks call callFits none
    exact standing_found segment hooks call area small callFits found memory
      standing (fits.offPadding call (List.mem_cons_self ..)) clear offSources

theorem hookFar_grows (hooks : FarHooks) (call : Call) :
    ∃ more, (∀ hook ∈ more, hook.call = call) ∧
      (hookFar segment hooks call).redirected = hooks.redirected ++ more := by
  rw [hookFar]
  simp only
  split
  · exact ⟨_, fun hook member => by rw [List.mem_singleton.mp member], rfl⟩
  · exact ⟨[], fun hook member => by contradiction, (List.append_nil _).symm⟩

include small in
theorem standing_hookAll (hooks : FarHooks) (calls : List Call)
    (fits : SourcesFit segment memory calls)
    (clear : EveryStep (hookFar segment) (StepClear segment memory) hooks
      calls)
    (standing : Standing segment memory hooks)
    (offSources : ∀ hook ∈ hooks.redirected, ∀ call ∈ calls,
      Clear (place segment hook.call.src) hook.call.srclen
        (place segment call.src) call.srclen) :
    Standing segment memory (hookAll segment hooks calls) := by
  induction calls generalizing hooks with
  | nil => exact standing
  | cons call calls ih =>
      obtain ⟨here, later⟩ := clear
      have next := standing_hookFar segment memory small hooks call calls fits
        here standing fun hook member =>
          offSources hook member call (List.mem_cons_self ..)
      apply ih (hookFar segment hooks call)
        (sourcesFit_tail segment memory call calls fits) later next
      obtain ⟨more, added, redirected⟩ := hookFar_grows segment hooks call
      rw [redirected]
      intro hook member other otherMember
      rcases List.mem_append.mp member with old | new
      · exact offSources hook old other (List.mem_cons_of_mem _ otherMember)
      · rw [added hook new]
        exact (List.pairwise_cons.mp fits.disjoint).1 other otherMember

theorem hookAll_keeps (hooks : FarHooks) (calls : List Call)
    (hook : Redirection) (member : hook ∈ hooks.redirected) :
    hook ∈ (hookAll segment hooks calls).redirected := by
  induction calls generalizing hooks with
  | nil => exact member
  | cons call calls ih =>
      apply ih (hookFar segment hooks call)
      obtain ⟨more, -, redirected⟩ := hookFar_grows segment hooks call
      rw [redirected]
      exact List.mem_append_left _ member

theorem recorded (hooks : FarHooks) (front back : List Call) (call : Call)
    (found : findJmpArea segment
      (hookAll segment hooks front).state.memory ≠ 0) :
    ∃ hook ∈ (hookAll segment hooks (front ++ call :: back)).redirected,
      hook.call = call := by
  rw [hookAll, List.foldl_append, List.foldl_cons]
  have here : ∃ hook ∈ (hookFar segment (hookAll segment hooks front)
      call).redirected, hook.call = call := by
    rw [hookFar]
    simp only [ne_eq, found, not_false_eq_true, if_true]
    exact ⟨_, List.mem_append_right _ (List.mem_singleton_self _), rfl⟩
  obtain ⟨hook, member, same⟩ := here
  exact ⟨hook, hookAll_keeps segment _ back hook member, same⟩

include small in
theorem redirected_of_standing (hooks : FarHooks)
    (standing : Standing segment memory hooks) (hook : Redirection)
    (member : hook ∈ hooks.redirected) :
    Redirected hooks.state.memory hook.call := by
  have fits := standing.fits hook member
  have inText := fits.inText
  obtain ⟨padding, position, inside, -, areaPlace⟩ :=
    standing.areas hook member
  have bounds := padding.offset_bounds
  have size := fits.size
  have source := source_of_place segment hook.call
  have leads := displacement_leads segment.textbase
    (place segment hook.call.src) hook.area (by omega) (by omega)
  have jump := (holds_iff_stands _ _ _ _).mpr (standing.sources hook member)
  have target := (holds_iff_stands _ _ _ _).mpr (standing.targets hook member)
  rw [source] at leads jump
  refine ⟨_, jump, ?_⟩
  rw [leads]
  exact target

end Running

/-- Far hooks do not clobber one another. -/
theorem farHooks_kept (segment : TextSegment) (memory : CodeMemory)
    (small : segment.textsz < 2 ^ 27) (calls : List Call)
    (fits : SourcesFit segment memory calls)
    (clear : EveryStep (hookFar segment) (StepClear segment memory)
      (unhooked memory) calls) :
    FarHooksKept segment memory calls := by
  have standing := standing_hookAll segment memory small (unhooked memory)
    calls fits clear (standing_unhooked segment memory) (by simp [unhooked])
  constructor
  · intro front back call split found
    obtain ⟨hook, member, same⟩ := recorded segment (unhooked memory) front
      back call found
    rw [← split] at member
    rw [← same]
    exact redirected_of_standing segment memory small _ standing hook member
  · intro front back call _ none
    rw [hookAll, List.foldl_append, List.foldl_cons, List.foldl_nil]
    rw [show front.foldl (hookFar segment) (unhooked memory) =
      hookAll segment (unhooked memory) front from rfl,
      hookFar_none segment _ call none]

/-! ## Short texts -/

/-- Some bytes, and the same byte all around. -/
def memoryOf (base : Address) (bytes : List UInt8) (around : UInt8) :
    CodeMemory :=
  fun address => (bytes[(address - base).toNat]?).getD around

def shortSegment (textsz : Nat) (small : textsz ≤ 4096) : TextSegment where
  textbase := 0x10000
  textsz := textsz
  notNull := by decide
  inUserSpace := by
    show 0x10000 + textsz < 2 ^ 47
    omega

def paddedSegment : TextSegment := shortSegment 32 (by decide)

/-- One padding, and `nop` behind it. -/
def paddedMemory : CodeMemory := memoryOf 0x10000 [0x0f, 0x0b] 0x90

def paddedCalls : List Call :=
  [{ src := 0x10010, dst := 0x500000, srclen := 5, call := true },
    { src := 0x10015, dst := 0x600000, srclen := 6, call := false }]

theorem paddedMemory_padding (padding : Padding) (position : Nat)
    (inside : position < 32)
    (stands : Stands (codeAt paddedMemory 0x10000) position padding.bytes) :
    position = 0 := by
  cases padding with
  | trap =>
      have first := stands 0 0x0f rfl
      clear stands
      revert position
      decide
  | ret =>
      have first := stands 0 0xc3 rfl
      clear stands
      revert position
      decide

theorem paddedCalls_fit :
    SourcesFit paddedSegment paddedMemory paddedCalls where
  sizes := by decide
  inText := by decide
  disjoint := by decide
  offPadding := by
    intro call member padding position inside stands
    rw [paddedMemory_padding padding position (by
      have : position + 16 ≤ 32 := inside
      omega) stands]
    revert member call
    decide
  destinations := by decide

theorem paddedMemory_no_overhang (area : Nat) :
    ¬ OverhangingArea paddedSegment paddedMemory area := by
  intro overhanging
  obtain ⟨padding, position, inside, beyond, stands, -⟩ := overhanging
  rw [paddedMemory_padding padding position inside stands] at beyond
  contradiction

/-- The first call takes the padding, the second one finds none. -/
theorem farHooks_kept_padded :
    FarHooksKept paddedSegment paddedMemory paddedCalls := by
  have clear : ∀ hooks call,
      StepClear paddedSegment paddedMemory hooks call := by
    intro hooks call
    exact
      { own := fun area overhanging _ =>
          absurd overhanging (paddedMemory_no_overhang area)
        earlier := fun area overhanging _ _ =>
          absurd overhanging (paddedMemory_no_overhang area) }
  exact farHooks_kept paddedSegment paddedMemory (by decide) paddedCalls
    paddedCalls_fit ⟨clear _ _, clear _ _, trivial⟩

def cutSegment : TextSegment := shortSegment 16 (by decide)

/-- A function, and padding that only the bytes behind the text complete. -/
def cutMemory : CodeMemory :=
  memoryOf 0x10000
    [0x55, 0x48, 0x89, 0xe5, 0x31, 0xc0, 0x5d, 0xc3, 0x0f, 0x0b] 0x90

def cutCall : Call :=
  { src := 0x1000a, dst := 0x500000, srclen := 5, call := true }

theorem cutCall_fits : SourcesFit cutSegment cutMemory [cutCall] where
  sizes := by decide
  inText := by decide
  disjoint := by decide
  offPadding := by
    intro call _ padding position inside stands
    have start : position = 0 := by
      have : position + 16 ≤ 16 := inside
      omega
    rw [start] at stands
    cases padding with
    | trap => exact absurd (stands 0 0x0f rfl) (by decide)
    | ret => exact absurd (stands 0 0xc3 rfl) (by decide)
  destinations := by decide

/-- The jump to the area lies in the area and is overwritten. -/
theorem overhangingArea_clobbers :
    SourcesFit cutSegment cutMemory [cutCall] ∧
      ¬ FarHooksKept cutSegment cutMemory [cutCall] := by
  refine ⟨cutCall_fits, ?_⟩
  intro kept
  obtain ⟨relative, jump, -⟩ :=
    kept.redirected [] [] cutCall rfl (by decide +kernel)
  have opcode := jump 0 0xe8 rfl
  have written : (hookAll cutSegment (unhooked cutMemory)
      [cutCall]).state.memory (0x1000a + BitVec.ofNat 64 0) = 0xff := by
    decide +kernel
  have same := written.symm.trans opcode
  contradiction

end HenPlugins.Memory.FarHookRun
