import Mathlib.Data.BitVec
import HenPlugins.Lib.ByteText
import HenPlugins.Lib.FileContent
import HenPlugins.Lib.WhileLoop

/-!
# Uploads

`ftp_cmd_STOR` writes what it receives into a file, from an offset on, and cuts
the file where it stopped; `ftp_cmd_APPE` begins at the end of the file.  The
file is the one the argument names, if it is there.
-/

set_option autoImplicit false

namespace HenPlugins.Ftp.Upload

open HenPlugins.Lib.ByteText
open HenPlugins.Lib.FileContent
open HenPlugins.Lib.WhileLoop

def readbufSize : Nat := 0x4000

structure Chunk where
  bytes : List UInt8
  nonempty : bytes ≠ []
  fits : bytes.length ≤ readbufSize

inductive Received where
  | chunk (data : Chunk)
  | endOfStream
  | error

def Received.bytes : Received → List UInt8
  | .chunk data => data.bytes
  | .endOfStream => []
  | .error => []

/-- `ftp_data_read`: an `int` that the caller takes for a `size_t`. -/
def ftpDataRead : Received → BitVec 64
  | .chunk data => BitVec.ofNat 64 data.bytes.length
  | .endOfStream => 0
  | .error => -1

/-- Chunks, then the end of the stream or an error, and what `recv` answers if
it is called again. -/
structure Stream where
  chunks : List Chunk
  failed : Bool
  later : Nat → Received

def Stream.recv (stream : Stream) (call : Nat) : Received :=
  match stream.chunks[call]? with
  | some data => .chunk data
  | none =>
      if call = stream.chunks.length then
        if stream.failed then .error else .endOfStream
      else stream.later (call - stream.chunks.length - 1)

/-- Which of the calls around the transfer succeed: `stat`, `open`, the
greeting, `ftp_data_open`, `ftruncate` to an allowed length, `ftp_data_close`
and the last reply. -/
structure System where
  stats : Bool
  opens : Bool
  greets : Bool
  connects : Bool
  truncates : Bool
  closes : Bool
  answers : Bool

def ssizeMax : Nat := 2 ^ 63 - 1

/-- `write`: neither the count nor the offset behind it may be too large. -/
def sysWrite (file : List UInt8) (position : Nat) (data : List UInt8)
    (len : BitVec 64) : BitVec 64 × List UInt8 :=
  if ssizeMax < len.toNat ∨ ssizeMax < position + len.toNat then (-1, file)
  else (len, writeAt 0 file position data)

/-- `ftruncate` refuses a negative length. -/
def sysFtruncate (system : System) (file : List UInt8) (off : BitVec 64) :
    Option (List UInt8) :=
  if off.toInt < 0 ∨ system.truncates = false then none
  else some (resize 0 file off.toNat)

inductive Reply where
  | line (text : String)
  | perror
  deriving DecidableEq

def opening : Reply := .line "150 Opening data transfer\r\n"
def complete : Reply := .line "226 Data transfer complete\r\n"

structure FtpEnv where
  dataOffset : BitVec 64

/-- What a command leaves, which replies it wrote and how often `recv` answered
before the loop ended. -/
structure Outcome where
  file : Option (List UInt8)
  replies : List Reply
  returned : Int
  reads : Nat
  env : FtpEnv

/-- The result of a last `ftp_active_printf`. -/
def System.sent (system : System) : Int :=
  if system.answers then 0 else -1

structure Transfer where
  reads : Nat
  file : List UInt8
  position : Nat
  off : BitVec 64
  broke : Bool
  deriving DecidableEq

def refuse (system : System) (file : Option (List UInt8))
    (replies : List Reply) (env : FtpEnv) : Outcome :=
  { file := file
    replies := replies
    returned := system.sent
    reads := 0
    env := env }

/-- Up to the loop. -/
def storBegin (system : System) (env : FtpEnv) (arg : Text)
    (file : Option (List UInt8)) : Except Outcome Transfer :=
  let off := env.dataOffset
  let cleared : FtpEnv := { dataOffset := 0 }
  if arg = [] then
    .error (refuse system file [.line "501 Usage: STOR <FILENAME>\r\n"] cleared)
  else if system.opens = false then
    .error (refuse system file [.perror] cleared)
  else
    let content := file.getD []
    if off.toInt < 0 then
      .error (refuse system (some content) [.perror] cleared)
    else if system.greets = false then
      .error
        { refuse system (some content) [opening] cleared with returned := -1 }
    else if system.connects = false then
      .error (refuse system (some content) [opening, .perror] cleared)
    else
      .ok
        { reads := 0
          file := content
          position := off.toNat
          off := off
          broke := false }

def storGuard (stream : Stream) (transfer : Transfer) : Bool :=
  !transfer.broke && ftpDataRead (stream.recv transfer.reads) != 0

def storBody (stream : Stream) (transfer : Transfer) : Transfer :=
  let received := stream.recv transfer.reads
  let len := ftpDataRead received
  let (written, file) :=
    sysWrite transfer.file transfer.position received.bytes len
  if written ≠ len then
    { transfer with reads := transfer.reads + 1, broke := true }
  else
    { reads := transfer.reads + 1
      file := file
      position := transfer.position + received.bytes.length
      off := transfer.off + len
      broke := false }

/-- Behind the loop. -/
def storFinish (system : System) (transfer : Transfer) : Outcome :=
  let leave := fun (file : List UInt8) (reply : Reply) =>
    ({ file := some file
       replies := [opening, reply]
       returned := system.sent
       reads := transfer.reads
       env := { dataOffset := 0 } } : Outcome)
  if transfer.broke then leave transfer.file .perror
  else
    match sysFtruncate system transfer.file transfer.off with
    | none => leave transfer.file .perror
    | some file =>
        if system.closes = false then leave file .perror
        else leave file complete

def FtpCmdStorReturns (system : System) (stream : Stream) (env : FtpEnv)
    (arg : Text) (file : Option (List UInt8)) (outcome : Outcome) : Prop :=
  match storBegin system env arg file with
  | .error refused => outcome = refused
  | .ok transfer =>
      ∃ final, EndsIn (storGuard stream) (storBody stream) transfer final ∧
        outcome = storFinish system final

def appeBegin (system : System) (env : FtpEnv) (arg : Text)
    (file : Option (List UInt8)) : Except Outcome FtpEnv :=
  if arg = [] then
    .error (refuse system file [.line "501 Usage: APPE <FILENAME>\r\n"] env)
  else if env.dataOffset = 0 then
    match file with
    | some content =>
        if system.stats then
          .ok { dataOffset := BitVec.ofNat 64 content.length }
        else .error (refuse system file [.perror] env)
    | none => .error (refuse system file [.perror] env)
  else .ok env

def FtpCmdAppeReturns (system : System) (stream : Stream) (env : FtpEnv)
    (arg : Text) (file : Option (List UInt8)) (outcome : Outcome) : Prop :=
  match appeBegin system env arg file with
  | .error refused => outcome = refused
  | .ok started => FtpCmdStorReturns system stream started arg file outcome

end HenPlugins.Ftp.Upload
