import Mathlib.Data.BitVec
import Mathlib.Data.Finset.Card
import HenPlugins.Lib.EventRun

/-!
# The log server

`serve_file_while_connected` waits with `select` for a connection or a byte of
the log, and writes each byte to all clients.  Next to its variables stands
what happens to the clients: the bytes that reach them, and their closing.
-/

set_option autoImplicit false

namespace HenPlugins.Klog.ServeFile

/-- `start` bytes of the log were read before the client was accepted, and
`stop` before the byte of its first failed write. -/
structure Client where
  start : Nat
  received : List UInt8 := []
  stop : Option Nat := none
  closed : Nat := 0
  deriving DecidableEq

/-- The log as far as it has been read, and the last client of each descriptor
number; the other ones are past. -/
structure World where
  log : List UInt8 := []
  current : Nat → Option Client := fun _ => none
  past : List Client := []

def World.isOpen (world : World) (fd : Nat) : Bool :=
  (world.current fd).any fun client => client.closed = 0

def World.accept (world : World) (fd : Nat) : World :=
  { world with
    current := Function.update world.current fd
      (some { start := world.log.length })
    past := (world.current fd).toList ++ world.past }

def World.read (world : World) (ch : UInt8) : World :=
  { world with log := world.log ++ [ch] }

def World.change (world : World) (fd : Nat) (change : Client → Client) :
    World :=
  { world with
    current := Function.update world.current fd
      ((world.current fd).map change) }

def World.write (world : World) (fd : Nat) (ch : UInt8) : World :=
  world.change fd fun client =>
    { client with received := client.received ++ [ch] }

/-- The write of the byte that was read last. -/
def World.writeFails (world : World) (fd : Nat) : World :=
  world.change fd fun client =>
    { client with stop := some (client.stop.getD (world.log.length - 1)) }

def World.close (world : World) (fd : Nat) : World :=
  world.change fd fun client => { client with closed := client.closed + 1 }

def fdSetSize : Nat := 1024

/-- `FD_SET` of a number that is too large writes beside the set. -/
def fdSet (fd : Nat) (set : Finset Nat) : Finset Nat :=
  if fd < fdSetSize then insert fd set else set

def fdClr (fd : Nat) (set : Finset Nat) : Finset Nat := set.erase fd

/-- In its loop, behind it, or returned from within. -/
inductive Phase where
  | running
  | left
  | returned
  deriving DecidableEq

structure Server where
  outputSet : Finset Nat := ∅
  nbConnections : BitVec 64 := 0
  err : Int := 0
  phase : Phase := .running
  world : World := {}

inductive Connection where
  | none
  | refused
  | accepted (fd : Nat)

/-- What `read` makes of the file, and which writes fail. -/
inductive LogData where
  | none
  | unreadable
  | byte (ch : UInt8) (fails : Nat → Bool)

/-- What `select` answers. -/
inductive Selected where
  | timeOut
  | error
  | ready (connection : Connection) (data : LogData)

/-- The kernel answers with a number that is not open. -/
def newConnection (server : Server) : Connection → Option Server
  | .none => some server
  | .refused => some { server with err := -1, phase := .left }
  | .accepted fd =>
      if server.world.isOpen fd then none
      else
        some { server with
          outputSet := fdSet fd server.outputSet
          nbConnections := server.nbConnections + 1
          world := server.world.accept fd }

def serveClient (ch : UInt8) (fails : Nat → Bool) (server : Server)
    (clientFd : Nat) : Server :=
  if clientFd ∈ server.outputSet then
    if fails clientFd then
      { server with
        outputSet := fdClr clientFd server.outputSet
        nbConnections := server.nbConnections - 1
        world := (server.world.writeFails clientFd).close clientFd }
    else { server with world := server.world.write clientFd ch }
  else server

def newData (server : Server) : LogData → Server
  | .none => server
  | .unreadable => { server with err := -1, phase := .left }
  | .byte ch fails =>
      (List.range fdSetSize).foldl (serveClient ch fails)
        { server with world := server.world.read ch }

/-- `while (nb_connections > 0)`. -/
def loopTest (server : Server) : Server :=
  if server.phase = .running ∧ server.nbConnections = 0 then
    { server with phase := .left }
  else server

/-- One round of the loop; there is none when the loop has been left, and
`accept` does not answer with an open number. -/
def step (server : Server) (selected : Selected) : Option Server :=
  if server.phase ≠ .running then none
  else
    match selected with
    | .timeOut => some (loopTest server)
    | .error => some { server with err := -1, phase := .returned }
    | .ready connection data =>
        (newConnection server connection).map fun server =>
          if server.phase = .running then loopTest (newData server data)
          else server

def closeClient (server : Server) (clientFd : Nat) : Server :=
  if clientFd ∈ server.outputSet then
    { server with
      outputSet := fdClr clientFd server.outputSet
      world := server.world.close clientFd }
  else server

/-- What is done behind the loop. -/
def atEnd (server : Server) : Server :=
  match server.phase with
  | .left => (List.range fdSetSize).foldl closeClient server
  | _ => server

end HenPlugins.Klog.ServeFile
