import Mathlib.Tactic.IntervalCases
import HenPlugins.Lib.PatchedText
import HenPlugins.Memory.PatternScan
import HenPlugins.Memory.Trampoline

/-!
# Far hooks in the padding of a module

`Make32to64Jmp` looks for padding between the functions of the text, writes an
absolute jump there and redirects the source to it with a 32-bit displacement.
The process is its own target, and its writes succeed.
-/

set_option autoImplicit false

namespace HenPlugins.Memory.FarHook

open HenPlugins.Lib.ByteMemory
open HenPlugins.Lib.ByteText
open HenPlugins.Lib.PatchedText
open HenPlugins.Memory.CodeCave
open HenPlugins.Memory.PatternScan
open HenPlugins.Memory.Trampoline

def jmpcallbytes : Nat := 5

def callOp (call : Bool) : UInt8 := if call then 0xe8 else 0xe9

def relativeAddress (src dst : Address) : BitVec 32 :=
  (dst - src - BitVec.ofNat 64 jmpcallbytes).setWidth 32

def writeJump32 (state : HookState) (src dst : Address) (len : Nat)
    (call : Bool) : HookState :=
  if src = 0 ∨ dst = 0 ∨ len < jmpcallbytes then state
  else
    let cleared :=
      if len ≠ jmpcallbytes then sysProcMemset state src 0x90 len else state
    let opened := sysProcRw cleared src [callOp call]
    sysProcRw opened (src + 1)
      (littleEndian 4 (relativeAddress src dst).toNat)

def readLEA32 (memory : CodeMemory) (address offset leaSize
    leaOpcodeSize : Address) : Address :=
  if address = 0 then 0
  else
    let patchAddress := if offset ≠ 0 then offset + address else address
    let leaOffset := BitVec.ofNat 32
      (fromLittleEndian (read memory (leaSize + address) 4))
    patchAddress + leaOffset.signExtend 64 + leaOpcodeSize

/-- `ud2` and padding -/
def trapPadding : Text := ascii "0f 0b 90 90 90 90 90 90 90 90 90 90 90 90 90 90"

/-- `ret` and padding -/
def retPadding : Text := ascii "c3 66 66 66 66 66 66 2e 0f 1f 84 00 00 00 00 00"

/-- The text of a module, in user space. -/
structure TextSegment where
  textbase : Address
  textsz : Nat
  notNull : textbase ≠ 0
  inUserSpace : textbase.toNat + textsz < 2 ^ 47

def findJmpArea (segment : TextSegment) (memory : CodeMemory) : Address :=
  let scanBytes := codeAt memory segment.textbase
  let jmparea := patternScan scanBytes segment.textbase segment.textsz
    trapPadding 2
  if jmparea = 0 then
    patternScan scanBytes segment.textbase segment.textsz retPadding 1
  else jmparea

structure Call where
  src : Address
  dst : Address
  srclen : Nat
  call : Bool
  deriving DecidableEq

/-- With what is stored through `src_out`, if that is given. -/
def make32to64Jmp (segment : TextSegment) (state : HookState) (call : Call)
    (srcOut : Bool) : Option Address × HookState :=
  let jmparea := findJmpArea segment state.memory
  if jmparea ≠ 0 then
    let res :=
      if srcOut then some (readLEA32 state.memory call.src 0 1 5) else none
    let redirected := writeJump32 state call.src jmparea call.srclen call.call
    (res, writeJump64 redirected jmparea call.dst)
  else (none, state)

/-- The call or jump that a redirected source holds. -/
def shortJump (src dst : Address) (call : Bool) : List UInt8 :=
  callOp call :: littleEndian 4 (relativeAddress src dst).toNat

@[simp] theorem length_shortJump (src dst : Address) (call : Bool) :
    (shortJump src dst call).length = 5 := by
  rw [shortJump, List.length_cons, length_littleEndian]

theorem writeJump32_memory (state : HookState) (src dst : Address) (len : Nat)
    (call : Bool) (given : src ≠ 0) (target : dst ≠ 0)
    (long : jmpcallbytes ≤ len) (bounded : len ≤ maxLen) :
    (writeJump32 state src dst len call).memory =
      write (if len = 5 then state.memory
        else write state.memory src (List.replicate len 0x90)) src
        (shortJump src dst call) := by
  have joined : ∀ memory : CodeMemory,
      write (write memory src [callOp call]) (src + 1)
          (littleEndian 4 (relativeAddress src dst).toNat) =
        write memory src (shortJump src dst call) := by
    intro memory
    have parts := write_append memory src [callOp call]
      (littleEndian 4 (relativeAddress src dst).toNat) (by
        rw [length_littleEndian, List.length_singleton]
        decide)
    exact parts
  rw [writeJump32, if_neg (by
    rintro (none | none | short)
    · exact given none
    · exact target none
    · omega)]
  by_cases exactly : len = 5
  · rw [if_pos exactly]
    simp only [jmpcallbytes, exactly, ne_eq, not_true_eq_false, if_false]
    exact joined state.memory
  · rw [if_neg exactly]
    simp only [jmpcallbytes, exactly, ne_eq, not_false_eq_true, if_true]
    rw [sysProcMemset, if_neg (Nat.not_lt.mpr bounded)]
    exact joined (write state.memory src (List.replicate len 0x90))

theorem make32to64Jmp_none (segment : TextSegment) (state : HookState)
    (call : Call) (srcOut : Bool)
    (none : findJmpArea segment state.memory = 0) :
    make32to64Jmp segment state call srcOut = (Option.none, state) := by
  rw [make32to64Jmp]
  simp only [none, ne_eq, not_true_eq_false, if_false]

theorem make32to64Jmp_memory (segment : TextSegment) (state : HookState)
    (call : Call) (srcOut : Bool) (given : call.src ≠ 0)
    (size : call.srclen = 5 ∨ call.srclen = 6)
    (found : findJmpArea segment state.memory ≠ 0) :
    (make32to64Jmp segment state call srcOut).2.memory =
      write (write (if call.srclen = 5 then state.memory
          else write state.memory call.src
            (List.replicate call.srclen 0x90)) call.src
        (shortJump call.src (findJmpArea segment state.memory) call.call))
        (findJmpArea segment state.memory) (jumpBytes call.dst) := by
  rw [make32to64Jmp]
  have fits : jmpcallbytes ≤ call.srclen ∧ call.srclen ≤ maxLen := by
    rw [jmpcallbytes, maxLen]
    omega
  simp only [found, ne_eq, not_false_eq_true, if_true]
  rw [writeJump64_memory, writeJump32_memory state call.src _ call.srclen
    call.call given found fits.1 fits.2]

theorem codeAt_write (memory : CodeMemory) (base : Address) (start : Nat)
    (data : List UInt8) (fits : start + data.length ≤ 2 ^ 64) (index : Nat)
    (inRange : index < 2 ^ 64) :
    codeAt (write memory (base + BitVec.ofNat 64 start) data) base index =
      splice (codeAt memory base) start data index := by
  by_cases inside : start ≤ index ∧ index < start + data.length
  · obtain ⟨behind, before⟩ := inside
    obtain ⟨further, rfl⟩ := Nat.exists_eq_add_of_le behind
    rw [codeAt, splice, if_pos behind, Nat.add_sub_cancel_left, write,
      BitVec.ofNat_add, ← BitVec.add_assoc, offset_of_add,
      Nat.mod_eq_of_lt (by omega),
      List.getElem?_eq_getElem (by omega)]
    rfl
  · rw [splice_outside _ _ _ _ (by unfold Clear; omega), codeAt, codeAt]
    apply write_outside
    intro within
    have offset := offset_of_within base start data.length fits _ within
    rw [offset_of_add, Nat.mod_eq_of_lt inRange] at offset
    rw [Within] at within
    omega

theorem holds_iff_stands (memory : CodeMemory) (base : Address) (start : Nat)
    (data : List UInt8) :
    Holds memory (base + BitVec.ofNat 64 start) data ↔
      Stands (codeAt memory base) start data := by
  unfold Holds Stands codeAt
  simp only [BitVec.ofNat_add, BitVec.add_assoc]

/-- The displacement leads from the source to the area. -/
theorem signExtend_setWidth (value : BitVec 64)
    (small : value.toNat < 2 ^ 31 ∨ 2 ^ 64 - 2 ^ 31 ≤ value.toNat) :
    (value.setWidth 32).signExtend 64 = value := by
  apply BitVec.eq_of_toInt_eq
  rw [BitVec.toInt_signExtend_of_le (by decide), BitVec.toInt_setWidth,
    BitVec.toInt_eq_toNat_bmod]
  have bounded := value.isLt
  simp only [Int.bmod]
  omega

inductive Padding where
  | trap
  | ret
  deriving DecidableEq

def Padding.bytes : Padding → List UInt8
  | .trap => 0x0f :: 0x0b :: List.replicate 14 0x90
  | .ret => 0xc3 :: List.replicate 6 0x66 ++
      [0x2e, 0x0f, 0x1f, 0x84, 0x00, 0x00, 0x00, 0x00, 0x00]

/-- Where the area begins in the padding. -/
def Padding.offset : Padding → Nat
  | .trap => 2
  | .ret => 1

def Padding.signature : Padding → Text
  | .trap => trapPadding
  | .ret => retPadding

@[simp] theorem Padding.length_bytes (padding : Padding) :
    padding.bytes.length = 16 := by
  cases padding <;> rfl

theorem Padding.offset_bounds (padding : Padding) :
    1 ≤ padding.offset ∧ padding.offset ≤ 2 := by
  cases padding <;> decide

theorem patternToByte_padding (padding : Padding) :
    patternToByte padding.signature =
      (padding.bytes.map Token.byte).map Token.code := by
  cases padding <;> decide +kernel

/-- None of the bytes is read as a wildcard. -/
theorem looselyAt_iff_stands (text : Nat → UInt8) (position : Nat)
    (padding : Padding) :
    LooselyAt text position (padding.bytes.map Token.byte) ↔
      Stands text position padding.bytes := by
  have exactly : (0xff : UInt8) ∉ padding.bytes := by
    cases padding <;> decide
  constructor
  · intro loose index byte found
    rcases loose index (Token.byte byte) (by
      rw [List.getElem?_map, found]
      rfl) with same | wild
    · exact same
    · have here : byte = 0xff := wild
      rw [here] at found
      exact absurd (List.mem_of_getElem? found) exactly
  · intro stands index token found
    rw [List.getElem?_map] at found
    obtain ⟨byte, here, rfl⟩ := Option.map_eq_some_iff.mp found
    exact Or.inl (stands index byte here)

theorem patternScan_padding (segment : TextSegment) (memory : CodeMemory)
    (some : segment.textsz ≠ 0) (padding : Padding) :
    (∃ position < segment.textsz,
        Stands (codeAt memory segment.textbase) position padding.bytes ∧
        patternScan (codeAt memory segment.textbase) segment.textbase
            segment.textsz padding.signature
            (BitVec.ofNat 64 padding.offset) =
          segment.textbase + BitVec.ofNat 64 (position + padding.offset)) ∨
      patternScan (codeAt memory segment.textbase) segment.textbase
        segment.textsz padding.signature
        (BitVec.ofNat 64 padding.offset) = 0 := by
  rcases patternScan_bytes (codeAt memory segment.textbase) segment.textbase
      segment.textsz (padding.bytes.map Token.byte) padding.signature
      (patternToByte_padding padding) (by cases padding <;> simp [Padding.bytes])
      (by simp) (BitVec.ofNat 64 padding.offset) segment.notNull some with
    ⟨position, inside, loose, -, value⟩ | ⟨-, value⟩
  · left
    refine ⟨position, inside, (looselyAt_iff_stands _ _ _).mp loose, ?_⟩
    rw [value, BitVec.ofNat_add, BitVec.add_assoc]
  · exact Or.inr value

theorem findJmpArea_spec (segment : TextSegment) (memory : CodeMemory)
    (some : segment.textsz ≠ 0)
    (found : findJmpArea segment memory ≠ 0) :
    ∃ position < segment.textsz, ∃ padding : Padding,
      Stands (codeAt memory segment.textbase) position padding.bytes ∧
        findJmpArea segment memory = segment.textbase +
          BitVec.ofNat 64 (position + padding.offset) := by
  rw [findJmpArea] at found ⊢
  split at found
  · rename_i none
    rw [if_pos none]
    rcases patternScan_padding segment memory some .ret with
      ⟨position, inside, stands, value⟩ | value
    · exact ⟨position, inside, .ret, stands, value⟩
    · exact absurd value found
  · rename_i first
    rw [if_neg first]
    rcases patternScan_padding segment memory some .trap with
      ⟨position, inside, stands, value⟩ | value
    · exact ⟨position, inside, .trap, stands, value⟩
    · exact absurd value first

theorem padding_first (padding : Padding) :
    ∃ byte, padding.bytes[0]? = some byte ∧ byte ≠ 0x25 ∧ byte ≠ 0x00 ∧
      byte ≠ 0x90 := by
  cases padding
  · exact ⟨0x0f, rfl, by decide⟩
  · exact ⟨0xc3, rfl, by decide⟩

theorem padding_nonzero (padding : Padding) (index : Nat)
    (early : index ≤ 10) :
    ∃ byte, padding.bytes[index]? = some byte ∧ byte ≠ 0x00 := by
  cases padding <;> interval_cases index <;> exact ⟨_, rfl, by decide⟩

/-- No top byte of a displacement within 128 MiB. -/
theorem padding_middle (padding : Padding) (index : Nat)
    (early : index ≤ 3) :
    ∃ byte, padding.bytes[index]? = some byte ∧ 0x09 ≤ byte.toNat ∧
      byte.toNat ≤ 0xf6 := by
  cases padding <;> interval_cases index <;> exact ⟨_, rfl, by decide⟩

theorem jumpBytes_bytes (dst : Address) (bounded : dst.toNat < 2 ^ 48) :
    (jumpBytes dst)[1]? = some 0x25 ∧ (jumpBytes dst)[2]? = some 0x00 ∧
      (jumpBytes dst)[13]? = some 0x00 := by
  have top : dst.toNat / 256 / 256 / 256 / 256 / 256 / 256 / 256 = 0 := by
    omega
  refine ⟨rfl, rfl, ?_⟩
  have last : (jumpBytes dst)[13]? = some (UInt8.ofNat
      (dst.toNat / 256 / 256 / 256 / 256 / 256 / 256 / 256)) := rfl
  rw [last, top]
  rfl

theorem jumpBytes_inert (dst : Address) (bounded : dst.toNat < 2 ^ 48)
    (padding : Padding) : Inert padding.bytes (jumpBytes dst) := by
  obtain ⟨second, third, last⟩ := jumpBytes_bytes dst bounded
  apply inert_of_conflicts padding.bytes (jumpBytes dst) 0xFF rfl
  · cases padding <;> decide
  · intro shift positive inside
    rw [length_jumpBytes] at inside
    rcases Nat.lt_or_ge shift 3 with near | far
    · obtain ⟨byte, inPadding, notSecond, notThird, -⟩ := padding_first padding
      rcases (show shift = 1 ∨ shift = 2 by omega) with rfl | rfl
      · exact ⟨0, byte, _, inPadding, second, notSecond⟩
      · exact ⟨0, byte, _, inPadding, third, notThird⟩
    · obtain ⟨byte, inPadding, nonzero⟩ :=
        padding_nonzero padding (13 - shift) (by omega)
      refine ⟨13 - shift, byte, 0x00, inPadding, ?_, nonzero⟩
      rw [Nat.sub_add_cancel (by omega)]
      exact last

theorem displacement_bounds (base : Address) (source area : Nat)
    (sourceSmall : source < 2 ^ 27) (areaSmall : area < 2 ^ 27 + 16) :
    (base + BitVec.ofNat 64 area - (base + BitVec.ofNat 64 source) -
        BitVec.ofNat 64 jmpcallbytes).toNat < 2 ^ 27 + 16 ∨
      2 ^ 64 - 2 ^ 27 - 5 ≤
        (base + BitVec.ofNat 64 area - (base + BitVec.ofNat 64 source) -
          BitVec.ofNat 64 jmpcallbytes).toNat := by
  have offsets : base + BitVec.ofNat 64 area -
      (base + BitVec.ofNat 64 source) =
        BitVec.ofNat 64 area - BitVec.ofNat 64 source :=
    add_sub_add_left_eq_sub _ _ _
  rw [offsets, jmpcallbytes, BitVec.toNat_sub, BitVec.toNat_sub,
    BitVec.toNat_ofNat, BitVec.toNat_ofNat, BitVec.toNat_ofNat]
  omega

theorem shortJump_last (base : Address) (source area : Nat) (call : Bool)
    (sourceSmall : source < 2 ^ 27) (areaSmall : area < 2 ^ 27 + 16) :
    ∃ top, (shortJump (base + BitVec.ofNat 64 source)
        (base + BitVec.ofNat 64 area) call)[4]? = some top ∧
      (top.toNat ≤ 0x08 ∨ 0xf7 ≤ top.toNat) := by
  refine ⟨_, rfl, ?_⟩
  have bounds := displacement_bounds base source area sourceSmall areaSmall
  rw [relativeAddress, BitVec.toNat_setWidth, UInt8.toNat_ofNat']
  omega

theorem shortJump_inert (base : Address) (source area : Nat) (call : Bool)
    (sourceSmall : source < 2 ^ 27) (areaSmall : area < 2 ^ 27 + 16)
    (padding : Padding) :
    Inert padding.bytes (shortJump (base + BitVec.ofNat 64 source)
      (base + BitVec.ofNat 64 area) call) := by
  obtain ⟨top, last, high⟩ := shortJump_last base source area call sourceSmall
    areaSmall
  apply inert_of_conflicts padding.bytes _ (callOp call) rfl
  · cases padding <;> cases call <;> decide
  · intro shift positive inside
    rw [length_shortJump] at inside
    obtain ⟨byte, inPadding, low, limit⟩ :=
      padding_middle padding (4 - shift) (by omega)
    refine ⟨4 - shift, byte, top, inPadding, ?_, ?_⟩
    · rw [Nat.sub_add_cancel (by omega)]
      exact last
    · intro same
      rw [same] at low limit
      omega

theorem displacement_leads (base : Address) (source area : Nat)
    (sourceSmall : source < 2 ^ 27) (areaSmall : area < 2 ^ 27 + 16) :
    base + BitVec.ofNat 64 source + BitVec.ofNat 64 jmpcallbytes +
        (relativeAddress (base + BitVec.ofNat 64 source)
          (base + BitVec.ofNat 64 area)).signExtend 64 =
      base + BitVec.ofNat 64 area := by
  have bounds := displacement_bounds base source area sourceSmall areaSmall
  rw [relativeAddress, signExtend_setWidth _ (by omega),
    sub_sub, add_sub_cancel]

end HenPlugins.Memory.FarHook
