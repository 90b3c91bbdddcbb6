import Mathlib.Tactic.IntervalCases
import HenPlugins.Ftp.Commands
import HenPlugins.Pkg.PkgPage

/-!
# `PORT` reads what `PASV` prints

The 227 reply gives an address and a port as six decimal fields, byte by byte
from the lowest one on, and `PORT` puts six such bytes together by shifts of
`int`s, which it widens to 64 bits and narrows again.
-/

set_option autoImplicit false

namespace HenPlugins.Ftp.PortEncoding

open HenPlugins.Lib.ByteText
open HenPlugins.Lib.CallProgram
open HenPlugins.Ftp.SessionCalls
open HenPlugins.Ftp.Commands
open HenPlugins.Pkg.PkgPage

def comma : UInt8 := ','.toUInt8

/-- `%hhu` of an `unsigned int`. -/
def hhu (value : BitVec 32) : Text := decimal (value.setWidth 8).toNat

/-- The values that the reply is given; the port is an `int` there. -/
def fieldValues (addr : BitVec 32) (port : BitVec 16) : List (BitVec 32) :=
  [(addr >>> 0) &&& 0xFF, (addr >>> 8) &&& 0xFF, (addr >>> 16) &&& 0xFF,
    (addr >>> 24) &&& 0xFF, (port.setWidth 32 >>> 0) &&& 0xFF,
    (port.setWidth 32 >>> 8) &&& 0xFF]

/-- The fields with commas between them. -/
def printFields : List (BitVec 32) → Text
  | [] => []
  | value :: rest =>
      if rest = [] then hhu value else hhu value ++ comma :: printFields rest

def sixFields (addr : BitVec 32) (port : BitVec 16) : Text :=
  printFields (fieldValues addr port)

/-- The reply of `ftp_cmd_PASV`. -/
def passiveReply (addr : BitVec 32) (port : BitVec 16) : Text :=
  ascii "227 Entering Passive Mode (" ++ sixFields addr port ++ ascii ").\r\n"

/-- The fields that a client takes from a reply. -/
def replyFields (reply : Text) : Text :=
  before ')'.toUInt8 (after '('.toUInt8 reply)

/-- An `int` of shifted bytes, as a `uint64_t`, in the 32 bits of `s_addr`. -/
def portSAddr (addr0 addr1 addr2 addr3 : BitVec 8) : BitVec 32 :=
  let sAddr : BitVec 64 :=
    ((addr3.setWidth 32 <<< 24) ||| (addr2.setWidth 32 <<< 16) |||
      (addr1.setWidth 32 <<< 8) ||| addr0.setWidth 32).signExtend 64
  sAddr.setWidth 32

def portSinPort (addr4 addr5 : BitVec 8) : BitVec 16 :=
  ((addr5.setWidth 32 <<< 8) ||| addr4.setWidth 32).setWidth 16

/-- What `ftp_cmd_PORT` makes of its argument. -/
def portSockAddr (arg : Text) : Option SockAddr :=
  match scanBytes 6 arg with
  | some [addr0, addr1, addr2, addr3, addr4, addr5] =>
      some {
        sAddr := portSAddr addr0 addr1 addr2 addr3
        sinPort := portSinPort addr4 addr5 }
  | _ => none

section Words
variable (addr0 addr1 addr2 addr3 addr4 addr5 : BitVec 8)

/-- The sign stands above the 32 bits that are kept. -/
theorem portSAddr_eq :
    portSAddr addr0 addr1 addr2 addr3 = addr3 ++ addr2 ++ addr1 ++ addr0 := by
  apply BitVec.eq_of_getLsbD_eq
  intro index bound
  simp only [portSAddr, BitVec.getLsbD_setWidth, BitVec.getLsbD_signExtend,
    BitVec.getLsbD_or, BitVec.getLsbD_shiftLeft, BitVec.getLsbD_append]
  grind

theorem portSinPort_eq : portSinPort addr4 addr5 = addr5 ++ addr4 := by
  apply BitVec.eq_of_getLsbD_eq
  intro index bound
  simp only [portSinPort, BitVec.getLsbD_setWidth, BitVec.getLsbD_or,
    BitVec.getLsbD_shiftLeft, BitVec.getLsbD_append]
  grind

end Words

theorem setWidth_and_byte (value : BitVec 32) :
    (value &&& 0xFF).setWidth 8 = value.setWidth 8 := by
  rw [BitVec.setWidth_and]
  exact BitVec.and_allOnes

theorem bytes_of_addr (addr : BitVec 32) :
    (addr >>> 24).setWidth 8 ++ (addr >>> 16).setWidth 8 ++
      (addr >>> 8).setWidth 8 ++ (addr >>> 0).setWidth 8 = addr := by
  apply BitVec.eq_of_getLsbD_eq
  intro index bound
  simp only [BitVec.getLsbD_setWidth, BitVec.getLsbD_append,
    BitVec.getLsbD_ushiftRight]
  grind

theorem bytes_of_port (port : BitVec 16) :
    (port.setWidth 32 >>> 8).setWidth 8 ++
      (port.setWidth 32 >>> 0).setWidth 8 = port := by
  apply BitVec.eq_of_getLsbD_eq
  intro index bound
  simp only [BitVec.getLsbD_setWidth, BitVec.getLsbD_append,
    BitVec.getLsbD_ushiftRight]
  grind

theorem digit_ofNat (value : Nat) (small : value < 10) :
    digit 10 (UInt8.ofNat (0x30 + value)) = some value := by
  interval_cases value <;> rfl

theorem digits_decimalLoop (fuel number : Nat) (rest : Text)
    (enough : number < fuel) :
    digits 10 (decimalLoop fuel number ++ rest) none =
      digits 10 rest (some (number, rest)) := by
  induction fuel generalizing number rest with
  | zero => omega
  | succ fuel ih =>
      rw [decimalLoop]
      by_cases small : number < 10
      · rw [if_pos small, List.singleton_append, digits,
          digit_ofNat number small]
        simp
      · have last : number % 10 < 10 := Nat.mod_lt _ (by decide)
        rw [if_neg small, List.append_assoc, List.singleton_append,
          ih (number / 10) _ (by omega), digits, digit_ofNat _ last]
        simp only [Option.elim_some]
        rw [Nat.div_add_mod' number 10]

/-- The number ends where no digit follows. -/
def EndsNumber (rest : Text) : Prop :=
  ∀ byte, rest.head? = some byte → digit 10 byte = none

theorem digits_decimal (number : Nat) (rest : Text)
    (ends : EndsNumber rest) :
    digits 10 (decimal number ++ rest) none = some (number, rest) := by
  rw [decimal, digits_decimalLoop _ _ _ (Nat.lt_succ_self number)]
  cases rest with
  | nil => rfl
  | cons byte rest =>
      rw [digits, ends byte rfl]

theorem decimalLoop_head (fuel number : Nat) (enough : number < fuel) :
    ∃ value more, value < 10 ∧
      decimalLoop fuel number = UInt8.ofNat (0x30 + value) :: more := by
  induction fuel generalizing number with
  | zero => omega
  | succ fuel ih =>
      rw [decimalLoop]
      by_cases small : number < 10
      · exact ⟨number, [], small, by rw [if_pos small]⟩
      · obtain ⟨value, more, bound, spelled⟩ :=
          ih (number / 10) (by omega)
        refine ⟨value, more ++ [UInt8.ofNat (0x30 + number % 10)], bound, ?_⟩
        rw [if_neg small, spelled, List.cons_append]

theorem signedDigits_decimal (number : Nat) (rest : Text)
    (ends : EndsNumber rest) :
    signedDigits 10 (decimal number ++ rest) =
      some ((number : Int), rest) := by
  have read := digits_decimal number rest ends
  obtain ⟨value, more, small, spelled⟩ :=
    decimalLoop_head (number + 1) number (Nat.lt_succ_self number)
  rw [decimal, spelled, List.cons_append] at read ⊢
  have plain : isSpace (UInt8.ofNat (0x30 + value)) = false ∧
      UInt8.ofNat (0x30 + value) ≠ '-'.toUInt8 ∧
      UInt8.ofNat (0x30 + value) ≠ '+'.toUInt8 := by
    interval_cases value <;> decide
  obtain ⟨notSpace, notMinus, notPlus⟩ := plain
  rw [signedDigits, List.dropWhile_cons, notSpace]
  simp only [Bool.false_eq_true, if_false, if_neg notMinus, if_neg notPlus,
    read, Option.map_some]

theorem scanByte_hhu (value : BitVec 32) (rest : Text)
    (ends : EndsNumber rest) :
    scanByte (hhu value ++ rest) = some (value.setWidth 8, rest) := by
  have bound := (value.setWidth 8).isLt
  rw [scanByte, hhu, signedDigits_decimal _ rest ends]
  simp only [Int.natAbs_natCast]
  rw [if_neg (by omega), BitVec.ofInt_natCast, BitVec.ofNat_toNat,
    BitVec.setWidth_eq]

theorem scanBytes_printFields (value : BitVec 32)
    (values : List (BitVec 32)) :
    scanBytes (values.length + 1) (printFields (value :: values)) =
      some ((value :: values).map fun field => field.setWidth 8) := by
  induction values generalizing value with
  | nil =>
      have read := scanByte_hhu value [] nofun
      rw [List.append_nil] at read
      simp [scanBytes, printFields, read]
  | cons next values ih =>
      have ends : EndsNumber (comma :: printFields (next :: values)) := by
        intro byte first
        cases Option.some.inj first
        rfl
      have read := scanByte_hhu value _ ends
      rw [printFields, if_neg (by simp), scanBytes, read]
      simp [comma, ih next]

theorem mem_decimalLoop (fuel number : Nat) :
    ∀ byte ∈ decimalLoop fuel number, (digit 10 byte).isSome = true := by
  induction fuel generalizing number with
  | zero => exact nofun
  | succ fuel ih =>
      intro byte member
      rw [decimalLoop] at member
      split at member
      · rename_i small
        rw [List.mem_singleton.mp member, digit_ofNat number small]
        rfl
      · rcases List.mem_append.mp member with front | last
        · exact ih _ byte front
        · rw [List.mem_singleton.mp last,
            digit_ofNat _ (Nat.mod_lt _ (by decide))]
          rfl

theorem mem_printFields (values : List (BitVec 32)) :
    ∀ byte ∈ printFields values,
      (digit 10 byte).isSome = true ∨ byte = comma := by
  induction values with
  | nil => exact nofun
  | cons value values ih =>
      intro byte member
      rw [printFields] at member
      split at member
      · exact Or.inl (mem_decimalLoop _ _ byte member)
      · rcases List.mem_append.mp member with front | later
        · exact Or.inl (mem_decimalLoop _ _ byte front)
        · rcases List.mem_cons.mp later with sep | rest
          · exact Or.inr sep
          · exact ih byte rest

theorem replyFields_passiveReply (addr : BitVec 32) (port : BitVec 16) :
    replyFields (passiveReply addr port) = sixFields addr port := by
  have closed : ')'.toUInt8 ∉ sixFields addr port := by
    intro member
    rcases mem_printFields _ _ member with isDigit | isComma
    · exact absurd isDigit (by decide)
    · exact absurd isComma (by decide)
  have opened := after_append_of_not_mem '('.toUInt8
    (ascii "227 Entering Passive Mode ")
    (sixFields addr port ++ ascii ").\r\n") (by decide)
  have reply : passiveReply addr port =
      ascii "227 Entering Passive Mode " ++
        '('.toUInt8 :: (sixFields addr port ++ ascii ").\r\n") := by
    have opening : ascii "227 Entering Passive Mode (" =
        ascii "227 Entering Passive Mode " ++ ['('.toUInt8] := by rfl
    rw [passiveReply, opening, List.append_assoc, List.append_assoc,
      List.singleton_append]
  rw [replyFields, reply, opened]
  exact before_append_of_not_mem ')'.toUInt8 _ (ascii ".\r\n") closed

theorem scanBytes_sixFields (addr : BitVec 32) (port : BitVec 16) :
    scanBytes 6 (sixFields addr port) =
      some [(addr >>> 0).setWidth 8, (addr >>> 8).setWidth 8,
        (addr >>> 16).setWidth 8, (addr >>> 24).setWidth 8,
        (port.setWidth 32 >>> 0).setWidth 8,
        (port.setWidth 32 >>> 8).setWidth 8] := by
  rw [sixFields, fieldValues]
  exact (scanBytes_printFields _ _).trans (by
    simp only [List.map_cons, List.map_nil, setWidth_and_byte])

theorem ftpCmdPort_eq (env : FtpEnv) (arg : Text) (addr : SockAddr)
    (parsed : portSockAddr arg = some addr) :
    ftpCmdPort env arg =
      .call (.acquire .data .socket none) fun answer =>
        if answer.value < 0 then
          ftpPerror { env with dataFd := answer.value }
            (returns { env with dataFd := answer.value })
        else
          answers (.line "200 PORT command successful.\r\n")
            { env with dataFd := answer.value, dataAddr := addr } := by
  rw [portSockAddr] at parsed
  split at parsed
  · rename_i addr0 addr1 addr2 addr3 addr4 addr5 scanned
    cases Option.some.inj parsed
    rw [ftpCmdPort, scanned, portSAddr_eq, portSinPort_eq]
  · contradiction

/-- The address that `PASV` prints is the one that `PORT` stores. -/
theorem port_decodes_pasv (addr : BitVec 32) (port : BitVec 16) :
    portSockAddr (replyFields (passiveReply addr port)) =
        some { sAddr := addr, sinPort := port } ∧
      ∀ env : FtpEnv,
        ftpCmdPort env (replyFields (passiveReply addr port)) =
          .call (.acquire .data .socket none) fun answer =>
            if answer.value < 0 then
              ftpPerror { env with dataFd := answer.value }
                (returns { env with dataFd := answer.value })
            else
              answers (.line "200 PORT command successful.\r\n")
                { env with
                  dataFd := answer.value
                  dataAddr := { sAddr := addr, sinPort := port } } := by
  have parsed : portSockAddr (sixFields addr port) =
      some { sAddr := addr, sinPort := port } := by
    rw [portSockAddr, scanBytes_sixFields]
    simp only [portSAddr_eq, portSinPort_eq, bytes_of_addr, bytes_of_port]
  rw [replyFields_passiveReply]
  exact ⟨parsed, fun env => ftpCmdPort_eq env _ _ parsed⟩

end HenPlugins.Ftp.PortEncoding
