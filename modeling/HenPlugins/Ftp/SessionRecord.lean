import HenPlugins.Lib.CallTrace
import HenPlugins.Ftp.FtpSessions

/-!
# What the calls of a session tell

An onlooker sees the lines that a client sends and the calls that the session
makes for them, replies included.  He notes how data connections were
negotiated, which restart offset was accepted and which path was announced.
-/

set_option autoImplicit false

namespace HenPlugins.Ftp.SessionRecord

open HenPlugins.Lib.ByteText
open HenPlugins.Lib.CallProgram
open HenPlugins.Lib.CallTrace
open HenPlugins.Ftp.SessionCalls
open HenPlugins.Ftp.Commands
open HenPlugins.Ftp.FtpSessions

abbrev FtpExchange := Exchange Call Role Buffers

def restDone : Reply := .line "350 REST OK\r\n"
def portDone : Reply := .line "200 PORT command successful.\r\n"
def storUsage : Reply := .line "501 Usage: STOR <FILENAME>\r\n"
def rnfrDone : Reply := .line "350 Awaiting new name\r\n"
def rnfrUsage : Reply := .line "501 Usage: RNFR <PATH>\r\n"
def opening : Reply := .line "150 Opening data transfer\r\n"

structure Spoken where
  name : Text := []
  arg : Text := []

def spokenIn (line : Text) : Spoken :=
  let command := if startsWith line (ascii "SITE ") then line.drop 5 else line
  { name := before ' '.toUInt8 command, arg := after ' '.toUInt8 command }

/-- The line that a call completes. -/
def lineRead : Request Call Role → Answer Buffers → Option Text
  | .use .readByte _, answer =>
      if 0 < answer.value then answer.data.line else none
  | _, _ => none

inductive Mode where
  | unset
  | passive (socket : Int)
  | active (addr : SockAddr)
  deriving DecidableEq

/-- The mode that was negotiated last.  The passive socket is lost when a later
`PASV` closes it or makes another one. -/
structure Negotiated where
  mode : Mode := .unset
  lost : Bool := false
  socket : Int := -1
  port : Option SockAddr := none

/-- The address that `PORT` is given. -/
def portAddr (arg : Text) : Option SockAddr :=
  match scanBytes 6 arg with
  | some [addr0, addr1, addr2, addr3, addr4, addr5] =>
      some {
        sAddr := addr3 ++ addr2 ++ addr1 ++ addr0
        sinPort := addr5 ++ addr4 }
  | _ => none

def Negotiated.answered (data : Negotiated) (arg : Text) (reply : Reply) :
    Negotiated :=
  if reply = portDone then
    match portAddr arg with
    | some addr => { data with mode := .active addr, port := some addr }
    | none => data
  else
    match reply with
    | .passiveMode _ _ =>
        { data with mode := .passive data.socket, lost := false }
    | _ => data

def Negotiated.after (data : Negotiated) (arg : Text) :
    Request Call Role → Answer Buffers → Negotiated
  | .acquire .passive .socket _, answer =>
      { data with socket := answer.value, lost := true }
  | .close .passive _, _ => { data with lost := true }
  | .use (.reply reply) _, _ => data.answered arg reply
  | _, _ => data

/-- The address of the last `PORT` that was answered with 200. -/
def Negotiated.portOrZero (data : Negotiated) : SockAddr :=
  data.port.getD ⟨0, 0⟩

/-- What became of the last offset that was accepted:
- `pending`, nothing since then touched it;
- `spoiled`, a `STOR` or `APPE` since then did not get its file open;
- `left`, a `RETR` was the first to get its file open. -/
inductive Restart where
  | idle
  | pending (offset : BitVec 64)
  | spoiled (offset : BitVec 64)
  | left (offset : BitVec 64)
  deriving DecidableEq

/-- The offset that the next transfer should start at. -/
def Restart.due : Restart → Option (BitVec 64)
  | .pending offset => some offset
  | .spoiled offset => some offset
  | _ => none

/-- The offset that is still stored. -/
def Restart.stored : Restart → BitVec 64
  | .pending offset => offset
  | .left offset => offset
  | _ => 0

def Restart.ignored : Restart → Restart
  | .pending offset => .left offset
  | .left offset => .left offset
  | _ => .idle

def Restart.dropped : Restart → Restart
  | .pending offset => .spoiled offset
  | .spoiled offset => .spoiled offset
  | _ => .idle

inductive TransferKind where
  | retr
  | stor
  | appe
  deriving DecidableEq

/-- A transfer whose file is open: the offset that was accepted before, the
size that its `stat` reported, the size of the file when it was opened, and
the position in the file. -/
structure Transfer where
  kind : TransferKind
  restart : Restart
  asked : Option (BitVec 64)
  opened : BitVec 64
  position : BitVec 64
  deriving DecidableEq

structure Offsets where
  restart : Restart := .idle
  asked : Option (BitVec 64) := none
  transfer : Option Transfer := none

def Offsets.opens (offsets : Offsets) (kind : TransferKind)
    (size : BitVec 64) : Transfer where
  kind := kind
  restart := offsets.restart
  asked := offsets.asked
  opened := size
  position := 0

def Transfer.seek (transfer : Transfer) (off : BitVec 64) : Transfer :=
  { transfer with position := transfer.position + off }

def Offsets.answered (offsets : Offsets) (arg : Text) (reply : Reply) :
    Offsets :=
  if reply = restDone then
    { offsets with restart := .pending (BitVec.ofInt 64 (strtol 10 arg)) }
  else if reply = storUsage then
    { offsets with restart := offsets.restart.dropped }
  else offsets

def Offsets.after (offsets : Offsets) (spoken : Spoken) :
    Request Call Role → Answer Buffers → Offsets
  | .plain (.stat _), answer =>
      { offsets with
        asked := if answer.value = 0 then some answer.data.size else none }
  | .acquire .file (.openRead _) _, answer =>
      if answer.value < 0 then offsets
      else
        { offsets with
          restart := offsets.restart.ignored
          transfer := some (offsets.opens .retr answer.data.size) }
  | .acquire .file (.openWrite _) _, answer =>
      if answer.value < 0 then
        { offsets with restart := offsets.restart.dropped }
      else
        { offsets with
          restart := .idle
          transfer := some (offsets.opens
            (if spoken.name = ascii "APPE" then .appe else .stor)
            answer.data.size) }
  | .use (.lseek off) _, answer =>
      if answer.value < 0 then offsets
      else { offsets with transfer := offsets.transfer.map (·.seek off) }
  | .use (.reply reply) _, _ => offsets.answered spoken.arg reply
  | _, _ => offsets

/-- The last path that a `RNFR` looked for; whether it is announced, which an
error or a rename ends; whether the `stat` of the command found its path. -/
structure RenameSource where
  path : Text := []
  announced : Option Text := none
  found : Bool := false

def RenameSource.answered (source : RenameSource) (name : Text)
    (reply : Reply) : RenameSource :=
  if reply = rnfrDone then { source with announced := some source.path }
  else if reply = rnfrUsage ∧ name = ascii "RNFR" then
    { source with announced := none }
  else source

/-- A `RNFR` that has not been answered yet announces nothing. -/
def RenameSource.after (source : RenameSource) (name : Text) :
    Request Call Role → Answer Buffers → RenameSource
  | .plain (.stat path), answer =>
      if name = ascii "RNFR" then
        { path := path, announced := none, found := answer.value = 0 }
      else { source with found := answer.value = 0 }
  | .plain (.rename _ _), answer =>
      { source with
        announced := if answer.value = 0 then none else source.announced
        found := false }
  | .use (.reply reply) _, _ => source.answered name reply
  | _, _ => source

structure Record where
  spoken : Spoken := {}
  data : Negotiated := {}
  offsets : Offsets := {}
  source : RenameSource := {}

/-- Nothing has been found or opened for a command that begins. -/
def Record.begin (record : Record) (line : Text) : Record :=
  { record with
    spoken := spokenIn line
    offsets := { record.offsets with asked := none, transfer := none }
    source := { record.source with found := false } }

def Record.after (record : Record) (request : Request Call Role)
    (answer : Answer Buffers) : Record :=
  { record with
    data := record.data.after record.spoken.arg request answer
    offsets := record.offsets.after record.spoken request answer
    source := record.source.after record.spoken.name request answer }

def note (record : Record) (exchange : FtpExchange) : Record :=
  match lineRead exchange.request exchange.answer with
  | some line => record.begin line
  | none => record.after exchange.request exchange.answer

end HenPlugins.Ftp.SessionRecord
