import Mathlib.Data.BitVec
import HenPlugins.Lib.ByteText
import HenPlugins.Lib.CallProgram

/-!
# What an FTP session is made of

The environment of a session, the calls that it makes and what they leave in
its buffers, and the helpers that its commands share.  The calls on a
descriptor carry what they are asked for; of a `DIR` the descriptor counts.
-/

set_option autoImplicit false

namespace HenPlugins.Ftp.SessionCalls

open HenPlugins.Lib.ByteText
open HenPlugins.Lib.CallProgram

def pathMax : Nat := 1024

def slash : UInt8 := '/'.toUInt8

/-- The part of a `sockaddr_in` that varies, as it is in memory. -/
structure SockAddr where
  sAddr : BitVec 32
  sinPort : BitVec 16
  deriving DecidableEq

structure FtpEnv where
  dataFd : Int
  activeFd : Int
  passiveFd : Int
  cwd : Text
  type : UInt8
  dataOffset : BitVec 64
  renamePath : Text
  dataAddr : SockAddr

/-- What a descriptor is for; `file` and `dir` are local variables. -/
inductive Role where
  | active
  | passive
  | data
  | file
  | dir
  deriving DecidableEq

inductive Reply where
  | line (text : String)
  | perror
  | passiveMode (addr : BitVec 32) (port : BitVec 16)
  | directory (cwd : Text)
  | size (bytes : BitVec 64)
  | typeSet (type : UInt8)
  deriving DecidableEq

inductive Call where
  | calloc
  | readByte
  | greeting
  | reply (reply : Reply)
  | socket
  | accept
  | connect (addr : SockAddr)
  | bind
  | listen
  | getsockname
  | openRead (path : Text)
  | openWrite (path : Text)
  | opendir (path : Text)
  | readdir
  | sendEntry (name : Text) (size : BitVec 64)
  | readFile
  | send (len : Int)
  | recv
  | writeFile (len : Int)
  | lseek (off : BitVec 64)
  | ftruncate (off : BitVec 64)
  | stat (path : Text)
  | chmod (path : Text) (mode : Int)
  | remove (path : Text)
  | mkdir (path : Text)
  | rmdir (path : Text)
  | rename (source target : Text)
  | pthreadExit
  deriving DecidableEq

/-- What a call leaves: with the byte that ends a line the line that
`ftp_readline` returns, what `stat` says, a socket's address, the name of a
directory entry. -/
structure Buffers where
  interrupted : Bool := false
  line : Option Text := none
  isDir : Bool := false
  size : BitVec 64 := 0
  addr : SockAddr := ⟨0, 0⟩
  name : Text := []

/-- Where a loop begins again. -/
inductive Point where
  | serve (env : FtpEnv)
  | readLine (env : FtpEnv)
  | listing (env : FtpEnv) (path : Text) (dir : Int)
  | retrieving (env : FtpEnv) (fd : Int)
  | storing (env : FtpEnv) (fd : Int) (off : BitVec 64)

abbrev FtpProgram := Program Call Role Buffers Point

def closeIfPositive (role : Role) (fd : Int) (rest : FtpProgram) :
    FtpProgram :=
  if 0 < fd then .call (.close role fd) fun _ => rest else rest

/-- `ftp_thread` behind its loop. -/
def finish (env : FtpEnv) : FtpProgram :=
  closeIfPositive .active env.activeFd
    (closeIfPositive .passive env.passiveFd
      (closeIfPositive .data env.dataFd
        (.call (.plain .pthreadExit) fun _ => .done)))

/-- A command returns to `ftp_thread`. -/
def returns (env : FtpEnv) (result : Int) : FtpProgram :=
  if result = 0 then .again (.serve env) else finish env

/-- The write answers 0 if it wrote the whole text. -/
def ftpActivePrintf (env : FtpEnv) (reply : Reply)
    (next : Int → FtpProgram) : FtpProgram :=
  .call (.use (.reply reply) env.activeFd) fun answer =>
    next (if answer.value = 0 then 0 else -1)

def ftpPerror (env : FtpEnv) (next : Int → FtpProgram) : FtpProgram :=
  ftpActivePrintf env .perror next

def ftpDataOpen (env : FtpEnv) (next : FtpEnv → Int → FtpProgram) :
    FtpProgram :=
  if env.dataAddr.sinPort ≠ 0 then
    .call (.use (.connect env.dataAddr) env.dataFd) fun answer =>
      next env (if answer.value ≠ 0 then -1 else 0)
  else
    .call (.acquire .data .accept (some env.passiveFd)) fun answer =>
      next { env with dataFd := answer.value }
        (if answer.value < 0 then -1 else 0)

def ftpDataClose (env : FtpEnv) (next : Int → FtpProgram) : FtpProgram :=
  .call (.close .data env.dataFd) fun answer =>
    next (if answer.value = 0 then 0 else -1)

/-- What `ftp_abspath` leaves in a buffer of `PATH_MAX` bytes; it is not
terminated there if it fills the buffer. -/
def ftpAbspath (env : FtpEnv) (path : Text) : Text :=
  if path.head? ≠ some slash then
    (snprintf (pathMax + 1) (env.cwd ++ slash :: path)).take pathMax
  else path.take pathMax

/-- The last slash that the loop of `ftp_cmd_CDUP` finds. -/
def lastSlash : Text → Int → Int → Int
  | [], _, pos => pos
  | byte :: rest, i, pos =>
      lastSlash rest (i + 1) (if byte = slash then i else pos)

def digit (base : Nat) (byte : UInt8) : Option Nat :=
  if '0'.toUInt8 ≤ byte ∧ byte.toNat < '0'.toNat + base then
    some (byte.toNat - '0'.toNat)
  else none

/-- The number that a text begins with, and what is behind its digits; there
has to be one. -/
def digits (base : Nat) : Text → Option (Nat × Text) → Option (Nat × Text)
  | [], read => read
  | byte :: rest, read =>
      match digit base byte with
      | none => read
      | some value =>
          digits base rest
            (some ((read.elim 0 Prod.fst) * base + value, rest))

/-- An optional sign in front of the digits. -/
def signedDigits (base : Nat) (text : Text) : Option (Int × Text) :=
  match text.dropWhile isSpace with
  | [] => none
  | byte :: rest =>
      if byte = '-'.toUInt8 then
        (digits base rest none).map fun read => (-(read.1 : Int), read.2)
      else if byte = '+'.toUInt8 then
        (digits base rest none).map fun read => ((read.1 : Int), read.2)
      else
        (digits base (byte :: rest) none).map fun read =>
          ((read.1 : Int), read.2)

/-- `strtol` for the bases 8 and 10. -/
def strtol (base : Nat) (text : Text) : Int :=
  match signedDigits base text with
  | none => 0
  | some (value, _) => max (-(2 ^ 63)) (min (2 ^ 63 - 1) value)

/-- `%hhu` takes the low byte of what `strtoul` makes of the digits. -/
def scanByte (text : Text) : Option (BitVec 8 × Text) :=
  match signedDigits 10 text with
  | none => none
  | some (value, rest) =>
      if 2 ^ 64 ≤ value.natAbs then some (255, rest)
      else some (BitVec.ofInt 8 value, rest)

/-- So many `%hhu` with commas between them. -/
def scanBytes : Nat → Text → Option (List (BitVec 8))
  | 0, _ => some []
  | count + 1, text =>
      match scanByte text with
      | none => none
      | some (byte, rest) =>
          if count = 0 then some [byte]
          else if rest.head? = some ','.toUInt8 then
            (scanBytes count (rest.drop 1)).map (byte :: ·)
          else none

end HenPlugins.Ftp.SessionCalls
