import HenPlugins.Memory.TakeOver

/-!
# The patched process

The invariant says which patches stand in the process, that the cave is free
behind its trampolines, that all padding in sight is original padding which no
patch reaches, and how much of it is left at least.
-/

set_option autoImplicit false

namespace HenPlugins.Memory.PatchedProcess

open HenPlugins.Lib.ByteMemory
open HenPlugins.Lib.PatchedText
open HenPlugins.Lib.PatchLedger
open HenPlugins.Memory.CodeCave
open HenPlugins.Memory.FarHook
open HenPlugins.Memory.FarHookRun (place offset_ne_zero place_of_offset)
open HenPlugins.Memory.PrologueHooks (trampolineBytes length_trampolineBytes)
open HenPlugins.Memory.TakeOver
open HenPlugins.Memory.Trampoline

variable {Module : Type}

/-- The patches so far, in what they `claim`, after so many areas of each
module were `taken`. -/
structure Patched (site : Site Module) (claims : Address → Prop)
    (taken : Module → Nat) (state : HookState)
    (patches : List (Patch 64 UInt8)) : Prop where
  kept : Kept site.InCave site.original state.memory patches
  fresh : state.once = false → ∀ patch ∈ patches, ∀ address,
    patch.Covers address → ¬ site.InCave address
  used : state.caveInstSize.toNat ≤ site.cave.maxCaveSize.toNat
  unused : ∀ patch ∈ patches,
    patch.Off (site.cave.cavePadFunc + state.caveInstSize)
      (site.cave.maxCaveSize.toNat - state.caveInstSize.toNat)
  padded : ∀ info (padding : Padding) (position : Nat),
    position < (site.segment info).textsz →
    Stands (codeAt state.memory (site.segment info).textbase) position
      padding.bytes →
    Stands (codeAt site.original (site.segment info).textbase) position
        padding.bytes ∧
      ∀ patch ∈ patches,
        patch.Off ((site.segment info).textbase + BitVec.ofNat 64 position) 16
  spare : ∀ info count,
    Spare (site.segment info) site.original (count + taken info) →
      Spare (site.segment info) state.memory count
  claimed : ∀ patch ∈ patches, ∀ address, patch.Covers address →
    claims address

/-! ## The cave and the padding -/

section Cave
variable (site : Site Module) (info : Module) (memory other : CodeMemory)
  (outside : ∀ address, ¬ site.InCave address →
    other address = memory address)
include outside

/-- The padding in sight is as it was where the cave alone has changed. -/
theorem padding_of_outside (position : Nat)
    (inside : position < (site.segment info).textsz) (padding : Padding) :
    Stands (codeAt other (site.segment info).textbase) position
        padding.bytes ↔
      Stands (codeAt memory (site.segment info).textbase) position
        padding.bytes := by
  have solid : ∀ address,
      Within ((site.segment info).textbase + BitVec.ofNat 64 position) 16
        address → other address = memory address := by
    intro address here
    apply outside address
    intro inCave
    exact site.caveOffText info address inCave
      (within_scan (site.segment info) position inside address here)
  constructor
  · exact stands_of_same (site.segment info) other memory position padding
      fun address here => (solid address here).symm
  · exact stands_of_same (site.segment info) memory other position padding
      solid

theorem spare_of_outside (count : Nat)
    (enough : Spare (site.segment info) memory count) :
    Spare (site.segment info) other count := by
  obtain ⟨positions, nodup, long, padded⟩ := enough
  refine ⟨positions, nodup, long, ?_⟩
  intro position member
  obtain ⟨inside, padding, stands⟩ := padded position member
  exact ⟨inside, padding, (padding_of_outside site info memory other outside
    position inside padding).mpr stands⟩

end Cave

/-! ## What a patch leaves -/

section Steps
variable (site : Site Module) (claims : Address → Prop) (taken : Module → Nat)
  (state : HookState) (patches : List (Patch 64 UInt8))

theorem patched_start (memory : CodeMemory)
    (same : memory = site.original) :
    Patched site claims 0
      { memory := memory, caveInstSize := 0, once := false, written := [] }
      [] where
  kept := by
    rw [same]
    exact kept_start _ _
  fresh := by simp
  used := Nat.zero_le _
  unused := by simp
  padded := by
    intro info padding position _ stands
    rw [same] at stands
    exact ⟨stands, by simp⟩
  spare := by
    intro info count enough
    rw [same]
    exact enough
  claimed := by simp

variable (patched : Patched site claims taken state patches)
include patched

theorem patched_mono (larger : Address → Prop) (more : Module → Nat)
    (grows : ∀ address, claims address → larger address)
    (later : taken ≤ more) : Patched site larger more state patches where
  kept := patched.kept
  fresh := patched.fresh
  used := patched.used
  unused := patched.unused
  padded := patched.padded
  spare := fun info count enough => patched.spare info count
    (spare_mono _ _ _ _ (Nat.add_le_add_left (later info) count) enough)
  claimed := fun patch member address covers =>
    grows address (patched.claimed patch member address covers)

theorem padded_original (info : Module) (position : Nat)
    (padded : PaddedAt (site.segment info) state.memory position) :
    PaddedAt (site.segment info) site.original position ∧
      ∀ patch ∈ patches, patch.Off
        ((site.segment info).textbase + BitVec.ofNat 64 position) 16 := by
  obtain ⟨inside, padding, stands⟩ := padded
  obtain ⟨stood, off⟩ := patched.padded info padding position inside stands
  exact ⟨⟨inside, padding, stood⟩, off⟩

theorem off_unclaimed (base : Address) (count : Nat)
    (free : ∀ address, Within base count address → ¬ claims address) :
    ∀ patch ∈ patches, patch.Off base count := by
  intro patch member address covers inside
  exact free address inside
    (patched.claimed patch member address covers)

theorem patched_caveBlockInit :
    Patched site claims taken (caveBlockInit site.cave state) patches := by
  by_cases initialised : state.once = true
  · rw [caveBlockInit_once site.cave state initialised]
    exact patched
  · have early : state.once = false := by
      simpa using initialised
    have outside := caveBlockInit_outside site.cave state site.testFits
    refine
      { kept := ?_
        fresh := ?_
        used := ?_
        unused := ?_
        padded := ?_
        spare := ?_
        claimed := patched.claimed }
    · exact kept_scratch _ _ _ _ patched.kept _ outside
        (patched.fresh early)
    · intro late
      rw [caveBlockInit_sets] at late
      contradiction
    · rw [caveBlockInit_caveInstSize]
      exact patched.used
    · rw [caveBlockInit_caveInstSize]
      exact patched.unused
    · intro info padding position inside stands
      apply patched.padded info padding position inside
      exact (padding_of_outside site info _ _ outside position inside
        padding).mp stands
    · intro info count enough
      exact spare_of_outside site info _ _ outside count
        (patched.spare info count enough)

theorem patched_write (next : HookState) (patch : Patch 64 UInt8)
    (cost : Module → Nat)
    (memory : next.memory = patch.apply state.memory)
    (once : next.once = state.once)
    (used : next.caveInstSize = state.caveInstSize)
    (fits : patch.data.length ≤ 2 ^ 64)
    (off : ∀ earlier ∈ patches, earlier.Off patch.address patch.data.length)
    (solid : ∀ address, patch.Covers address → ¬ site.InCave address)
    (quiet : ∀ info, Quiet (site.segment info) state.memory patch)
    (spare : ∀ info count,
      Spare (site.segment info) state.memory (count + cost info) →
        Spare (site.segment info) next.memory count)
    (claim : ∀ address, patch.Covers address → claims address) :
    Patched site claims (taken + cost) next (patches ++ [patch]) := by
  refine
    { kept := ?_
      fresh := ?_
      used := ?_
      unused := ?_
      padded := ?_
      spare := ?_
      claimed := ?_ }
  · rw [memory]
    exact kept_write _ _ _ _ patched.kept patch fits off
  · intro early
    rw [once] at early
    exact List.forall_mem_append.mpr ⟨patched.fresh early,
      List.forall_mem_singleton.mpr solid⟩
  · rw [used]
    exact patched.used
  · rw [used]
    refine List.forall_mem_append.mpr ⟨patched.unused,
      List.forall_mem_singleton.mpr ?_⟩
    intro address covers inside
    have free : state.caveInstSize.toNat +
        (site.cave.maxCaveSize.toNat - state.caveInstSize.toNat) ≤
          site.cave.maxCaveSize.toNat := by
      have bounded := patched.used
      omega
    rw [entry_offset] at inside
    exact solid address covers
      (within_cave site.cave _ _ free address inside)
  · intro info padding position inside stands
    rw [memory] at stands
    obtain ⟨before, away⟩ := quiet info padding position inside stands
    obtain ⟨stood, offOld⟩ := patched.padded info padding position inside
      before
    exact ⟨stood, List.forall_mem_append.mpr ⟨offOld,
      List.forall_mem_singleton.mpr away⟩⟩
  · intro info count enough
    apply spare info count
    apply patched.spare
    rwa [Nat.add_assoc, Nat.add_comm (cost info) (taken info)]
  · exact List.forall_mem_append.mpr ⟨patched.claimed,
      List.forall_mem_singleton.mpr claim⟩

theorem patched_trampoline (next : HookState) (data : List UInt8)
    (memory : next.memory = write state.memory
      (site.cave.cavePadFunc + state.caveInstSize) data)
    (once : next.once = true)
    (used : next.caveInstSize.toNat = state.caveInstSize.toNat + data.length)
    (room : state.caveInstSize.toNat + data.length ≤
      site.cave.maxCaveSize.toNat)
    (claim : ∀ address, site.InCave address → claims address) :
    Patched site claims taken next
      (patches ++
        [{ address := site.cave.cavePadFunc + state.caveInstSize
           data := data }]) := by
  have space := site.cave.inUserSpace
  have inCave : ∀ address,
      Within (site.cave.cavePadFunc + state.caveInstSize) data.length
        address → site.InCave address := by
    intro address inside
    rw [entry_offset] at inside
    exact within_cave site.cave _ _ room address inside
  have outside : ∀ address, ¬ site.InCave address →
      next.memory address = state.memory address := by
    intro address away
    rw [memory]
    exact write_outside _ _ _ _ fun inside => away (inCave address inside)
  have further : site.cave.cavePadFunc + next.caveInstSize =
      site.cave.cavePadFunc + BitVec.ofNat 64
        (state.caveInstSize.toNat + data.length) := by
    rw [entry_offset, used]
  refine
    { kept := ?_
      fresh := ?_
      used := ?_
      unused := ?_
      padded := ?_
      spare := ?_
      claimed := ?_ }
  · rw [memory]
    refine kept_write _ _ _ _ patched.kept
      { address := site.cave.cavePadFunc + state.caveInstSize
        data := data } (by
          show data.length ≤ _
          omega) ?_
    intro earlier member
    exact apart_mono _ _ _ _ _ _ (Nat.le_refl _) (by
      show data.length ≤ _
      omega) (patched.unused earlier member)
  · intro early
    rw [once] at early
    contradiction
  · rw [used]
    exact room
  · rw [further, used]
    refine List.forall_mem_append.mpr ⟨?_, List.forall_mem_singleton.mpr ?_⟩
    · intro patch earlier address covers inside
      apply patched.unused patch earlier address covers
      rw [entry_offset]
      rw [BitVec.ofNat_add, ← BitVec.add_assoc] at inside
      have later := within_of_later _ data.length _ (by omega) address inside
      exact within_mono _ _ _ (by omega) address later
    · have consecutive := apart_consecutive site.cave.cavePadFunc
        state.caveInstSize.toNat (state.caveInstSize.toNat + data.length)
        data.length (site.cave.maxCaveSize.toNat -
          (state.caveInstSize.toNat + data.length)) (Nat.le_refl _) (by omega)
      rw [← entry_offset] at consecutive
      exact consecutive
  · intro info padding position inside stands
    have before := (padding_of_outside site info _ _ outside position inside
      padding).mp stands
    obtain ⟨stood, offOld⟩ := patched.padded info padding position inside
      before
    refine ⟨stood, List.forall_mem_append.mpr ⟨offOld,
      List.forall_mem_singleton.mpr ?_⟩⟩
    intro address covers here
    exact site.caveOffText info address (inCave address covers)
      (within_scan (site.segment info) position inside address here)
  · intro info count enough
    exact spare_of_outside site info _ _ outside count
      (patched.spare info count enough)
  · refine List.forall_mem_append.mpr ⟨patched.claimed,
      List.forall_mem_singleton.mpr ?_⟩
    intro address covers
    exact claim address (inCave address covers)

end Steps

/-! ## A range of one's own -/

/-- A range that nothing else has patched or will patch. -/
structure Own (site : Site Module) (claims : Address → Prop)
    (patches : List (Patch 64 UInt8)) (base : Address) (count : Nat) :
    Prop where
  off : ∀ patch ∈ patches, patch.Off base count
  solid : ∀ address, Within base count address → ¬ site.InCave address
  placed : ∀ info, InText (site.segment info) base count ∨
    OffText (site.segment info) base count
  offPadding : ∀ info position,
    PaddedAt (site.segment info) site.original position →
      Apart base count
        ((site.segment info).textbase + BitVec.ofNat 64 position) 16
  claim : ∀ address, Within base count address → claims address

section Owned
variable (site : Site Module) (claims : Address → Prop)
  (taken : Module → Nat) (state : HookState) (patches : List (Patch 64 UInt8)) (base : Address)
  (count : Nat) (own : Own site claims patches base count)
include own

theorem own_mono (fewer : Nat) (shorter : fewer ≤ count) :
    Own site claims patches base fewer where
  off := fun patch member => apart_mono _ _ _ _ _ _ (Nat.le_refl _) shorter
    (own.off patch member)
  solid := fun address inside =>
    own.solid address (within_mono _ _ _ shorter address inside)
  placed := by
    intro info
    rcases own.placed info with inText | offText
    · left
      rw [InText] at inText ⊢
      omega
    · exact Or.inr (apart_mono _ _ _ _ _ _ shorter (Nat.le_refl _) offText)
  offPadding := fun info position padded => apart_mono _ _ _ _ _ _ shorter
    (Nat.le_refl _) (own.offPadding info position padded)
  claim := fun address inside =>
    own.claim address (within_mono _ _ _ shorter address inside)

theorem own_trampoline (patch : Patch 64 UInt8)
    (inCave : ∀ address, patch.Covers address → site.InCave address) :
    Own site claims (patches ++ [patch]) base count where
  off := by
    intro other member
    rcases List.mem_append.mp member with earlier | last
    · exact own.off other earlier
    · rw [List.mem_singleton.mp last]
      intro address covers inside
      exact own.solid address inside (inCave address covers)
  solid := own.solid
  placed := own.placed
  offPadding := own.offPadding
  claim := own.claim

variable (patched : Patched site claims taken state patches)
include patched

theorem own_original (address : Address)
    (inside : Within base count address) :
    state.memory address = site.original address :=
  kept_range _ _ _ _ patched.kept base count own.solid own.off address inside

theorem own_spare (patch : Patch 64 UInt8)
    (within : ∀ address, patch.Covers address → Within base count address)
    (info : Module) (number : Nat)
    (enough : Spare (site.segment info) state.memory number) :
    Spare (site.segment info) (patch.apply state.memory) number := by
  apply spare_off (site.segment info) state.memory patch ?_ number enough
  intro position padded address covers
  exact own.offPadding info position (padded_original site claims taken state
    patches patched info position padded).1 address (within address covers)

theorem patched_jump (destination : Address)
    (bounded : destination.toNat < 2 ^ 48) (long : 14 ≤ count) :
    Patched site claims taken (writeJump64 state base destination)
      (patches ++ [{ address := base, data := jumpBytes destination }]) := by
  have jumping := own_mono site claims patches base count own 14 long
  have within : ∀ address,
      Patch.Covers { address := base, data := jumpBytes destination }
        address → Within base 14 address := by
    intro address covers
    rw [Patch.Covers, length_jumpBytes] at covers
    exact covers
  apply patched_write site claims taken state patches patched
    (writeJump64 state base destination)
    { address := base, data := jumpBytes destination } 0
    (writeJump64_memory state base destination) rfl rfl
  · rw [length_jumpBytes]
    decide
  · rw [length_jumpBytes]
    exact jumping.off
  · intro address covers
    exact jumping.solid address (within address covers)
  · intro info
    have space := (site.segment info).inUserSpace
    rcases jumping.placed info with inText | offText
    · apply quiet_inert
      · rw [length_jumpBytes]
        rw [InText] at inText
        show place (site.segment info) base + 14 ≤ 2 ^ 64
        omega
      · exact jumpBytes_inert destination bounded
    · apply quiet_offText
      rw [Patch.Off, length_jumpBytes]
      exact offText
  · intro info number enough
    rw [writeJump64_memory]
    exact own_spare site claims taken state patches base 14 jumping patched _
      within info number enough
  · intro address covers
    exact jumping.claim address (within address covers)

theorem patched_data (data : List UInt8) (long : data.length ≤ count)
    (small : data.length < 2 ^ 32)
    (quiet : ∀ info, Quiet (site.segment info) state.memory
      { address := base, data := data }) :
    Patched site claims taken (sysProcRw state base data)
      (patches ++ [{ address := base, data := data }]) := by
  have within : ∀ address,
      Patch.Covers { address := base, data := data } address →
        Within base count address := by
    intro address covers
    exact within_mono _ data.length _ long address covers
  have shorter := own_mono site claims patches base count own data.length
    long
  apply patched_write site claims taken state patches patched
    (sysProcRw state base data) { address := base, data := data } 0 rfl rfl
    rfl
  · show data.length ≤ 2 ^ 64
    omega
  · exact shorter.off
  · intro address covers
    exact own.solid address (within address covers)
  · exact quiet
  · intro info number enough
    exact own_spare site claims taken state patches base count own patched _
      within info number enough
  · intro address covers
    exact own.claim address (within address covers)

theorem patched_overwrite (data : List UInt8)
    (long : data.length + 1 = count) (small : data.length < 2 ^ 32)
    (fits : (data = [ret] ∧ site.original (base + 1) ≠ 0x66) ∨
      ∀ info, OffText (site.segment info) base data.length) :
    Patched site claims taken (sysProcRw state base data)
      (patches ++ [{ address := base, data := data }]) := by
  apply patched_data site claims taken state patches base count own patched
    data (by omega) small
  intro info
  rcases fits with ⟨rfl, next⟩ | offText
  · apply quiet_ret
    have behind : state.memory (base + 1) = site.original (base + 1) :=
      own_original site claims taken state patches base count own patched _
        (within_add base count 1 (by
          rw [List.length_singleton] at long
          omega))
    rw [behind]
    exact next
  · exact quiet_offText (site.segment info) state.memory _ (offText info)

end Owned

/-! ## A far jump -/

section Far
variable (segment : TextSegment) (call : Call) (area : Nat)

/-- What `Make32to64Jmp` leaves at the source. -/
def sourcePatch : Patch 64 UInt8 where
  address := call.src
  data := shortJump call.src (segment.textbase + BitVec.ofNat 64 area)
    call.call ++ List.replicate (call.srclen - 5) 0x90

def areaPatch : Patch 64 UInt8 where
  address := segment.textbase + BitVec.ofNat 64 area
  data := jumpBytes call.dst

theorem length_sourcePatch (size : call.srclen = 5 ∨ call.srclen = 6) :
    (sourcePatch segment call area).data.length = call.srclen := by
  rw [sourcePatch, List.length_append, length_shortJump,
    List.length_replicate]
  omega

theorem length_areaPatch : (areaPatch segment call area).data.length = 14 :=
  length_jumpBytes call.dst

theorem make32to64Jmp_patches (state : HookState) (srcOut : Bool)
    (given : call.src ≠ 0) (size : call.srclen = 5 ∨ call.srclen = 6)
    (reported : findJmpArea segment state.memory =
      segment.textbase + BitVec.ofNat 64 area)
    (found : findJmpArea segment state.memory ≠ 0) :
    (make32to64Jmp segment state call srcOut).2.memory =
      (areaPatch segment call area).apply
        ((sourcePatch segment call area).apply state.memory) := by
  rw [make32to64Jmp_memory segment state call srcOut given size found,
    reported]
  simp only [Patch.apply, areaPatch, sourcePatch]
  congr 1
  rcases size with short | long
  · rw [if_pos short, short, Nat.sub_self, List.replicate_zero,
      List.append_nil]
  · rw [if_neg (by omega), write_overwrites, length_shortJump,
      List.drop_replicate]

omit segment call area in
theorem writeJump32_frame (state : HookState) (src dst : Address) (len : Nat)
    (call : Bool) :
    (writeJump32 state src dst len call).once = state.once ∧
      (writeJump32 state src dst len call).caveInstSize =
        state.caveInstSize := by
  unfold writeJump32 sysProcMemset
  split
  · exact ⟨rfl, rfl⟩
  · simp only [sysProcRw]
    split
    · split <;> exact ⟨rfl, rfl⟩
    · exact ⟨rfl, rfl⟩

omit area in
theorem make32to64Jmp_frame (state : HookState) (srcOut : Bool) :
    (make32to64Jmp segment state call srcOut).2.once = state.once ∧
      (make32to64Jmp segment state call srcOut).2.caveInstSize =
        state.caveInstSize := by
  rw [make32to64Jmp]
  simp only
  split
  · exact writeJump32_frame state call.src _ call.srclen call.call
  · exact ⟨rfl, rfl⟩

theorem sourcePatch_inert (small : segment.textsz < 2 ^ 27)
    (size : call.srclen = 5 ∨ call.srclen = 6)
    (inText : InText segment call.src call.srclen)
    (near : area < segment.textsz + 2) (padding : Padding) :
    Inert padding.bytes (sourcePatch segment call area).data := by
  rw [InText] at inText
  have inert := shortJump_inert segment.textbase (place segment call.src) area
    call.call (by omega) (by omega) padding
  rw [address_of_place] at inert
  rw [sourcePatch]
  rcases size with short | long
  · rw [short, Nat.sub_self, List.replicate_zero, List.append_nil]
    exact inert
  · obtain ⟨byte, first, -, -, differ⟩ := padding_first padding
    rw [long]
    exact inert_snoc _ _ byte 0x90 first differ inert

end Far

section FarStep
variable (site : Site Module) (claims : Address → Prop)
  (taken : Module → Nat) (state : HookState)
  (patches : List (Patch 64 UInt8)) (info : Module) (call : Call)

/-- What is asked of the source of a far jump. -/
structure FarSource : Prop where
  given : call.src ≠ 0
  size : call.srclen = 5 ∨ call.srclen = 6
  inText : InText (site.segment info) call.src call.srclen
  destination : call.dst.toNat < 2 ^ 48
  own : Own site claims patches call.src call.srclen
  claimPadding : ∀ position,
    PaddedAt (site.segment info) site.original position → ∀ address,
      Within ((site.segment info).textbase + BitVec.ofNat 64 position) 16
        address → claims address

variable (patched : Patched site claims taken state patches)
  (source : FarSource site claims patches info call)

omit source in
include patched in
theorem far_none
    (none : findJmpArea (site.segment info) state.memory = 0) :
    ¬ Spare (site.segment info) site.original (taken info + 1) := by
  intro enough
  rw [Nat.add_comm] at enough
  exact found_of_spare (site.segment info) state.memory
    (patched.spare info 1 enough) none

/-- What lies in the text of one module lies off the others. -/
theorem offText_of_range (other : Module) (differ : other ≠ info)
    (address : Address) (count : Nat)
    (inRange : ∀ inner, Within address count inner →
      Within (site.segment info).textbase ((site.segment info).textsz + 16)
        inner) :
    OffText (site.segment other) address count := by
  intro inner here there
  exact site.modulesApart other info differ inner there (inRange inner here)

theorem within_text (address : Address) (count : Nat)
    (inText : InText (site.segment info) address count) (inner : Address)
    (inside : Within address count inner) :
    Within (site.segment info).textbase ((site.segment info).textsz + 16)
      inner := by
  have bounded := (site.segment info).inUserSpace
  rw [InText] at inText
  rw [← address_of_place (site.segment info) address] at inside
  exact within_mono _ _ _ (by omega) inner
    (within_of_later _ (place (site.segment info) address) count (by omega)
      inner inside)

include source in
theorem sourcePatch_covers (area : Nat) (address : Address)
    (covers : (sourcePatch (site.segment info) call area).Covers address) :
    Within call.src call.srclen address := by
  rw [Patch.Covers,
    length_sourcePatch (site.segment info) call area source.size] at covers
  exact covers

include patched source in
theorem sourcePatch_offPadding (area : Nat) (other : Module) (position : Nat)
    (padded : PaddedAt (site.segment other) state.memory position) :
    (sourcePatch (site.segment info) call area).Off
      ((site.segment other).textbase + BitVec.ofNat 64 position) 16 := by
  intro address covers
  exact source.own.offPadding other position
    (padded_original site claims taken state patches patched other position
      padded).1 address
    (sourcePatch_covers site claims patches info call source area address
      covers)

include patched source in
theorem patched_source (area : Nat)
    (near : area < (site.segment info).textsz + 2) :
    Patched site claims taken
      { state with
        memory :=
          (sourcePatch (site.segment info) call area).apply state.memory }
      (patches ++ [sourcePatch (site.segment info) call area]) := by
  have bounded := (site.segment info).inUserSpace
  have inText := source.inText
  rw [InText] at inText
  have covered := length_sourcePatch (site.segment info) call area source.size
  have within := sourcePatch_covers site claims patches info call source area
  apply patched_write site claims taken state patches patched
    { state with
      memory :=
        (sourcePatch (site.segment info) call area).apply state.memory }
    (sourcePatch (site.segment info) call area) 0 rfl rfl rfl
  · rw [covered]
    omega
  · rw [covered]
    exact source.own.off
  · intro address covers
    exact source.own.solid address (within address covers)
  · intro other
    by_cases same : other = info
    · subst same
      apply quiet_inert
      · rw [covered]
        have start : place (site.segment other)
            (sourcePatch (site.segment other) call area).address =
              place (site.segment other) call.src := rfl
        rw [start]
        omega
      · exact sourcePatch_inert (site.segment other) call area
          (site.small other) source.size source.inText near
    · apply quiet_offText
      rw [Patch.Off, covered]
      exact offText_of_range site info other same call.src call.srclen
        (within_text site info call.src call.srclen source.inText)
  · intro other count enough
    exact spare_off (site.segment other) state.memory _
      (sourcePatch_offPadding site claims taken state patches info call
        patched source area other) count enough
  · intro address covers
    exact source.own.claim address (within address covers)

theorem areaPatch_covers (segment : TextSegment) (padding : Padding)
    (position : Nat) (address : Address)
    (covers : (areaPatch segment call (position + padding.offset)).Covers
      address) :
    Within (segment.textbase + BitVec.ofNat 64 position) 16 address := by
  have bounds := padding.offset_bounds
  rw [Patch.Covers, length_areaPatch, areaPatch, BitVec.ofNat_add,
    ← BitVec.add_assoc] at covers
  have later := within_of_later _ padding.offset 14 (by omega) address covers
  exact within_mono _ _ _ (by omega) address later

variable [DecidableEq Module]

section Area
variable (padding : Padding) (position : Nat)
  (inside : position < (site.segment info).textsz)

omit [DecidableEq Module] in
include inside in
theorem areaPatch_inModule (address : Address)
    (covers : (areaPatch (site.segment info) call
      (position + padding.offset)).Covers address) :
    Within (site.segment info).textbase ((site.segment info).textsz + 16)
      address :=
  within_scan (site.segment info) position inside address
    (areaPatch_covers call (site.segment info) padding position address covers)

include inside in
theorem areaPatch_quiet (memory : CodeMemory)
    (destination : call.dst.toNat < 2 ^ 48) (other : Module) :
    Quiet (site.segment other) memory
      (areaPatch (site.segment info) call (position + padding.offset)) := by
  have bounded := (site.segment info).inUserSpace
  have bounds := padding.offset_bounds
  by_cases same : other = info
  · subst same
    apply quiet_inert
    · have start : place (site.segment other)
          (areaPatch (site.segment other) call
            (position + padding.offset)).address =
            position + padding.offset :=
        place_of_offset (site.segment other) _ (by omega)
      rw [start, length_areaPatch]
      omega
    · exact jumpBytes_inert call.dst destination
  · exact quiet_offText _ _ _ (offText_of_range site info other same _ _
      (areaPatch_inModule site info call padding position inside))

include inside in
/-- The area takes one padding of its own module and none of the others. -/
theorem areaPatch_spare (memory : CodeMemory)
    (padded : PaddedAt (site.segment info) memory position) (other : Module)
    (count : Nat)
    (enough : Spare (site.segment other) memory
      (count + (Pi.single info 1 : Module → Nat) other)) :
    Spare (site.segment other)
      ((areaPatch (site.segment info) call
        (position + padding.offset)).apply memory) count := by
  by_cases same : other = info
  · subst same
    rw [Pi.single_eq_same] at enough
    exact spare_area (site.segment other) _ _ position padded
      (areaPatch_covers call (site.segment other) padding position) count
      enough
  · rw [Pi.single_eq_of_ne same, Nat.add_zero] at enough
    apply spare_off (site.segment other) _ _ ?_ count enough
    intro further there address covers here
    exact offText_of_range site info other same _ _
      (areaPatch_inModule site info call padding position inside) address
      covers (within_scan (site.segment other) further there.1 address here)

include patched source inside in
theorem patched_area
    (stands : Stands (codeAt state.memory (site.segment info).textbase)
      position padding.bytes)
    (srcOut : Bool)
    (reported : findJmpArea (site.segment info) state.memory =
      (site.segment info).textbase +
        BitVec.ofNat 64 (position + padding.offset))
    (found : findJmpArea (site.segment info) state.memory ≠ 0) :
    Patched site claims (taken + Pi.single info 1)
      (make32to64Jmp (site.segment info) state call srcOut).2
      (patches ++
        [sourcePatch (site.segment info) call (position + padding.offset),
          areaPatch (site.segment info) call
            (position + padding.offset)]) := by
  have bounds := padding.offset_bounds
  have padded : PaddedAt (site.segment info) state.memory position :=
    ⟨inside, padding, stands⟩
  obtain ⟨paddedBefore, offPatches⟩ := padded_original site claims taken state
    patches patched info position padded
  have within := areaPatch_covers call (site.segment info) padding position
  have inModule :=
    areaPatch_inModule site info call padding position inside
  have offSource := sourcePatch_offPadding site claims taken state patches
    info call patched source (position + padding.offset) info position padded
  have still : PaddedAt (site.segment info)
      ((sourcePatch (site.segment info) call
        (position + padding.offset)).apply state.memory) position := by
    refine ⟨inside, padding, ?_⟩
    apply stands_of_same (site.segment info) state.memory _ position padding
      ?_ stands
    intro address here
    rw [Patch.apply, write_outside _ _ _ _ fun covers =>
      offSource address covers here]
  have first := patched_source site claims taken state patches info call
    patched source (position + padding.offset) (by omega)
  have frame := make32to64Jmp_frame (site.segment info) call state srcOut
  have memory := make32to64Jmp_patches (site.segment info) call
    (position + padding.offset) state srcOut source.given source.size
    reported found
  have second := patched_write site claims taken _ _ first
    (make32to64Jmp (site.segment info) state call srcOut).2
    (areaPatch (site.segment info) call (position + padding.offset))
    (Pi.single info 1) memory frame.1 frame.2
    (by rw [length_areaPatch]; decide)
  rw [List.append_assoc, List.singleton_append] at second
  apply second
  · refine List.forall_mem_append.mpr ⟨?_, List.forall_mem_singleton.mpr ?_⟩
    · intro earlier member address covers covered
      exact offPatches earlier member address covers (within address covered)
    · intro address covers covered
      exact offSource address covers (within address covered)
  · intro address covers inCave
    exact site.caveOffText info address inCave (inModule address covers)
  · exact areaPatch_quiet site info call padding position inside _
      source.destination
  · intro other count enough
    rw [memory]
    exact areaPatch_spare site info call padding position inside _ still
      other count enough
  · intro address covers
    exact source.claimPadding position paddedBefore address
      (within address covers)

end Area

include patched source in
theorem far_found (srcOut : Bool)
    (found : findJmpArea (site.segment info) state.memory ≠ 0) :
    ∃ area, area < (site.segment info).textsz + 2 ∧
      (∀ address,
        (areaPatch (site.segment info) call area).Covers address →
          ∃ position, PaddedAt (site.segment info) site.original position ∧
            Within
              ((site.segment info).textbase + BitVec.ofNat 64 position) 16
              address) ∧
      Patched site claims (taken + Pi.single info 1)
        (make32to64Jmp (site.segment info) state call srcOut).2
        (patches ++ [sourcePatch (site.segment info) call area,
          areaPatch (site.segment info) call area]) := by
  have inText := source.inText
  have size := source.size
  rw [InText] at inText
  obtain ⟨position, inside, padding, stands, reported⟩ :=
    findJmpArea_spec (site.segment info) state.memory (by omega) found
  have bounds := padding.offset_bounds
  have padded := (padded_original site claims taken state patches patched
    info position ⟨inside, padding, stands⟩).1
  exact ⟨position + padding.offset, by omega,
    fun address covers => ⟨position, padded,
      areaPatch_covers call (site.segment info) padding position address
        covers⟩,
    patched_area site claims taken state patches info call patched source
      padding position inside stands srcOut reported found⟩

end FarStep

end HenPlugins.Memory.PatchedProcess
