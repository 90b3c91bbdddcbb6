import HenPlugins.Lib.FileContent
import HenPlugins.Ftp.RecordedCalls
import HenPlugins.Ftp.WorkingDirectory

/-!
# What a client knows of the files

The calls of a session act on the files and on its data connections.  A client
sees the lines and the bytes that it sends, the bytes that it gets and the
replies; its ledger is what it concludes from them.  Nobody else changes the
files.
-/

set_option autoImplicit false

namespace HenPlugins.Ftp.ClientLedger

open HenPlugins.Lib.ByteText
open HenPlugins.Lib.CallProgram
open HenPlugins.Lib.FileContent
open HenPlugins.Ftp.SessionCalls
open HenPlugins.Ftp.SessionRecord
open HenPlugins.Ftp.WorkingDirectory (cdupCwd)

inductive Entry where
  | missing
  | directory
  | file (content : List UInt8)
  deriving DecidableEq

def Entry.isFile : Entry → Bool
  | .file _ => true
  | _ => false

def Entry.content : Entry → List UInt8
  | .file content => content
  | _ => []

/-- What a client sends over the last data connection, what of it has not been
received yet, and what arrived at the client. -/
structure Wire where
  connections : Nat := 0
  sending : List UInt8 := []
  left : List UInt8 := []
  arrived : List UInt8 := []

/-- `opened` is the file of the transfer, and `buffer` what was read last. -/
structure World (Node : Type) where
  entries : Node → Entry
  opened : Option Node := none
  position : Nat := 0
  buffer : List UInt8 := []
  wire : Wire := {}

variable {Node : Type} [DecidableEq Node]

/-- The content of the open file. -/
def World.content (world : World Node) : List UInt8 :=
  match world.opened with
  | some file => (world.entries file).content
  | none => []

def World.write (world : World Node) (content : List UInt8) : World Node :=
  match world.opened with
  | some file =>
      { world with
        entries := Function.update world.entries file (.file content) }
  | none => world

def World.enter (world : World Node) (place : Node) (entry : Entry) :
    World Node :=
  { world with entries := Function.update world.entries place entry }

def World.opens (world : World Node) (file : Node) : World Node :=
  { world with opened := some file, position := 0 }

/-- Over each data connection the client sends an upload of its own. -/
def World.connects (uploads : Nat → List UInt8) (world : World Node) :
    World Node :=
  { world with
    wire :=
      { connections := world.wire.connections + 1
        sending := uploads world.wire.connections
        left := uploads world.wire.connections
        arrived := [] } }

def moved {Value : Type} (table : Node → Value) (gone : Value)
    (source target : Node) : Node → Value :=
  Function.update (Function.update table source gone) target (table source)

section Acting
variable (node : Text → Node) (uploads : Nat → List UInt8)

/-- What a call does; `node` says which file a path names. -/
def World.after (world : World Node) :
    Request Call Role → Answer Buffers → World Node
  | .acquire .file (.openRead path) _, answer =>
      if answer.value < 0 then world else world.opens (node path)
  | .acquire .file (.openWrite path) _, answer =>
      if answer.value < 0 then world
      else
        (world.enter (node path)
          (.file (world.entries (node path)).content)).opens (node path)
  | .use (.lseek off) _, answer =>
      if answer.value < 0 then world
      else { world with position := world.position + off.toNat }
  | .use .readFile _, answer =>
      { world with
        buffer := (world.content.drop world.position).take answer.value.toNat
        position := world.position + answer.value.toNat }
  | .use (.send _) _, answer =>
      { world with
        wire := { world.wire with
          arrived := world.wire.arrived ++
            world.buffer.take answer.value.toNat } }
  | .use .recv _, answer =>
      { world with
        buffer := world.wire.left.take answer.value.toNat
        wire := { world.wire with
          left := world.wire.left.drop answer.value.toNat } }
  | .use (.writeFile _) _, answer =>
      { world.write (writeAt 0 world.content world.position
          (world.buffer.take answer.value.toNat)) with
        position := world.position + answer.value.toNat }
  | .use (.ftruncate off) _, answer =>
      if answer.value = 0 then world.write (resize 0 world.content off.toNat)
      else world
  | .use (.connect _) _, answer =>
      if answer.value = 0 then world.connects uploads else world
  | .acquire .data .accept _, answer =>
      if answer.value < 0 then world else world.connects uploads
  | .plain (.remove path), answer =>
      if answer.value = 0 then world.enter (node path) .missing else world
  | .plain (.mkdir path), answer =>
      if answer.value = 0 then world.enter (node path) .directory else world
  | .plain (.rmdir path), answer =>
      if answer.value = 0 then world.enter (node path) .missing else world
  | .plain (.rename source target), answer =>
      if answer.value = 0 then
        { world with
          entries := moved world.entries .missing (node source) (node target) }
      else world
  | _, _ => world

/-- The largest size of a file. -/
def sizeMax : Nat := 2 ^ 63 - 1

/-- What `stat` says of an entry. -/
def Entry.describes (st : Buffers) : Entry → Bool
  | .missing => false
  | .directory => st.isDir
  | .file content =>
      st.isDir = false ∧ st.size = BitVec.ofNat 64 content.length ∧
        content.length ≤ sizeMax

/-- The answers that a system gives.  No `recv` fails, and what is renamed is
a file. -/
def honest (world : World Node) : Request Call Role → Answer Buffers → Bool
  | .plain (.stat path), answer =>
      answer.value = 0 → (world.entries (node path)).describes answer.data
  | .acquire .file (.openWrite path) _, answer =>
      0 ≤ answer.value → world.entries (node path) ≠ .directory
  | .use (.lseek off) _, answer => 0 ≤ answer.value → 0 ≤ off.toInt
  | .use .readFile _, answer =>
      (answer.value = 0 → world.content.length ≤ world.position) ∧
        answer.value ≤ (world.content.length - world.position : Nat)
  | .use (.send len) _, answer => answer.value ≤ len
  | .use .recv _, answer =>
      0 ≤ answer.value ∧ (answer.value = 0 → world.wire.left = []) ∧
        answer.value ≤ world.wire.left.length
  | .use (.writeFile len) _, answer =>
      answer.value ≤ len ∧ world.position + answer.value ≤ sizeMax
  | .use (.ftruncate off) _, answer => answer.value = 0 → 0 ≤ off.toInt
  | .plain (.rename source _), answer =>
      answer.value = 0 → (world.entries (node source)).isFile
  | _, _ => true

end Acting

/-- What a command is for, to the client. -/
inductive Verb where
  | rest
  | enters
  | leaves
  | stores
  | appends
  | retrieves
  | measures
  | deletes
  | makes
  | unmakes
  | announces
  | renames
  | other
  deriving DecidableEq

/-- `XCUP` is answered as `CWD` is. -/
def verbs : List (Text × Verb) :=
  [(ascii "REST", .rest), (ascii "CWD", .enters), (ascii "XCUP", .enters),
    (ascii "CDUP", .leaves), (ascii "STOR", .stores), (ascii "APPE", .appends),
    (ascii "RETR", .retrieves), (ascii "SIZE", .measures),
    (ascii "DELE", .deletes), (ascii "MKD", .makes), (ascii "XMKD", .makes),
    (ascii "RMD", .unmakes), (ascii "XRMD", .unmakes),
    (ascii "RNFR", .announces), (ascii "RNTO", .renames)]

def verbOf (name : Text) : Verb :=
  match verbs.find? fun verb => verb.1 = name with
  | some verb => verb.2
  | none => .other

/-- `known` is what the client takes to be there, where it takes anything. -/
structure Client (Node : Type) where
  spoken : Spoken := {}
  cwd : Text := ascii "/"
  offset : BitVec 64 := 0
  source : Text := []
  known : Node → Option Entry := fun _ => none

def pathFrom (cwd arg : Text) : Text :=
  ftpAbspath { FtpSessions.startEnv 0 with cwd := cwd } arg

def Client.path (client : Client Node) : Text :=
  pathFrom client.cwd client.spoken.arg

def Client.learn (client : Client Node) (place : Node) (entry : Entry) :
    Client Node :=
  { client with known := Function.update client.known place (some entry) }

/-- The file after an upload from an offset on. -/
def storedAt (known : Option Entry) (start : Nat) (sent : List UInt8) :
    Option Entry :=
  match known with
  | some entry => some (.file (resize 0 entry.content start ++ sent))
  | none => if start = 0 then some (.file sent) else none

/-- An offset of 0 is none. -/
def appendedTo (known : Option Entry) (offset : BitVec 64)
    (sent : List UInt8) : Option Entry :=
  if offset = 0 then known.map fun entry => .file (entry.content ++ sent)
  else storedAt known offset.toNat sent

def storDone : Reply := .line "226 Data transfer complete\r\n"
def retrDone : Reply := .line "226 Transfer completed\r\n"
def appeUsage : Reply := .line "501 Usage: APPE <FILENAME>\r\n"
def cwdDone : Reply := .line "250 OK\r\n"

/-- The reply that ends an upload; an upload that fails leaves nobody knows
what. -/
def Client.uploaded (client : Client Node) (place : Node)
    (stored : Option Entry) (reply : Reply) : Client Node :=
  { client with
    offset := 0
    known := Function.update client.known place
      (if reply = storDone then stored else none) }

/-- A restart offset is kept by `RETR` and used up by uploads. -/
def Client.answered (node : Text → Node) (client : Client Node) (wire : Wire)
    (reply : Reply) : Client Node :=
  let place := node client.path
  match verbOf client.spoken.name with
  | .rest =>
      if reply = restDone then
        { client with
          offset := BitVec.ofInt 64 (strtol 10 client.spoken.arg) }
      else client
  | .enters =>
      if reply = cwdDone then
        { client with cwd := snprintf pathMax client.path }
      else client
  | .leaves =>
      if reply = cwdDone then { client with cwd := cdupCwd client.cwd }
      else client
  | .stores =>
      if reply = opening then client
      else if reply = storUsage then { client with offset := 0 }
      else
        client.uploaded place
          (storedAt (client.known place) client.offset.toNat wire.sending) reply
  | .appends =>
      if reply = opening ∨ reply = appeUsage then client
      else
        client.uploaded place
          (appendedTo (client.known place) client.offset wire.sending) reply
  | .retrieves =>
      if reply = retrDone then client.learn place (.file wire.arrived)
      else client
  | .deletes =>
      if reply = .line "226 File deleted\r\n" then client.learn place .missing
      else client
  | .makes =>
      if reply = .line "226 Directory created\r\n" then
        client.learn place .directory
      else client
  | .unmakes =>
      if reply = .line "226 Directory deleted\r\n" then
        client.learn place .missing
      else client
  | .announces =>
      if reply = rnfrUsage then client
      else { client with source := client.path }
  | .renames =>
      if reply = .line "226 Path renamed\r\n" then
        { client with
          known := moved client.known (some .missing) (node client.source)
            place }
      else client
  | .measures => client
  | .other => client

structure Books (Node : Type) where
  world : World Node
  client : Client Node

section Noting
variable (node : Text → Node) (uploads : Nat → List UInt8)

def Books.answered (books : Books Node) :
    Request Call Role → Client Node
  | .use (.reply reply) _ => books.client.answered node books.world.wire reply
  | _ => books.client

def note (books : Books Node) (exchange : FtpExchange) : Books Node :=
  match lineRead exchange.request exchange.answer with
  | some line =>
      { books with client := { books.client with spoken := spokenIn line } }
  | none =>
      { world := books.world.after node uploads exchange.request exchange.answer
        client := books.answered node exchange.request }

def Possible (books : Books Node) (exchange : FtpExchange) : Prop :=
  honest node books.world exchange.request exchange.answer = true

instance (books : Books Node) (exchange : FtpExchange) :
    Decidable (Possible node books exchange) :=
  inferInstanceAs (Decidable (_ = true))

/-- What is taken to be there is there. -/
def Holds (known : Node → Option Entry) (entries : Node → Entry) : Prop :=
  ∀ place entry, known place = some entry → entries place = entry

/-- Behind every final reply the ledger is true. -/
def LedgerTrue (books : Books Node) (exchange : FtpExchange) : Prop :=
  match exchange.request with
  | .use (.reply reply) _ =>
      reply ≠ opening →
        Holds (books.client.answered node books.world.wire reply).known
          books.world.entries
  | _ => True

/-- What a client gets is what it knew to be there: of a file all of it, whatever
restart offset it gave. -/
def DeliversKnown (books : Books Node) (exchange : FtpExchange) : Prop :=
  match exchange.request with
  | .use (.reply reply) _ =>
      ∀ entry, books.client.known (node books.client.path) = some entry →
        (verbOf books.client.spoken.name = .retrieves → reply = retrDone →
          entry = .file books.world.wire.arrived) ∧
        ∀ size content, verbOf books.client.spoken.name = .measures →
          reply = .size size → entry = .file content →
            size = BitVec.ofNat 64 content.length
  | _ => True

end Noting

end HenPlugins.Ftp.ClientLedger
