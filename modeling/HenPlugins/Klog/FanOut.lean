import HenPlugins.Klog.ServeFile

/-!
# What the clients of the log get

A client is connected while its number is in the set, and gets every byte of
the log.  A number beyond the set is counted but never served, and when `select`
fails, the connected clients stay open.
-/

set_option autoImplicit false

namespace HenPlugins.Klog.FanOut

open HenPlugins.Lib.EventRun
open HenPlugins.Klog.ServeFile

/-! ## What is asked -/

def Accepted (world : World) (client : Client) : Prop :=
  client ∈ world.past ∨ ∃ fd, world.current fd = some client

/-- The bytes of the log from the round that accepted the client up to its first
failed write. -/
def Contiguous (log : List UInt8) (client : Client) : Prop :=
  client.received =
    (log.take (client.stop.getD log.length)).drop client.start

structure FansOut (server : Server) : Prop where
  counted : server.nbConnections.toNat = server.outputSet.card
  contiguous : ∀ client, Accepted server.world client →
    Contiguous server.world.log client
  closed : server.phase ≠ .running → ∀ client,
    Accepted (atEnd server).world client → client.closed = 1

/-- Every round of the loop leads to a state in which the log is fanned out. -/
def RoundFansOut (server : Server) (selected : Selected) : Prop :=
  ∀ next, step server selected = some next → FansOut next

/-- The number of a new client fits the set, and `select` does not fail while a
client is connected. -/
def RoundFits (server : Server) (selected : Selected) : Prop :=
  match selected with
  | .error => server.outputSet = ∅
  | .ready (.accepted fd) _ => fd < fdSetSize
  | _ => True

instance (server : Server) : (selected : Selected) →
    Decidable (RoundFits server selected)
  | .timeOut => inferInstanceAs (Decidable True)
  | .error => inferInstanceAs (Decidable (server.outputSet = ∅))
  | .ready .none _ => inferInstanceAs (Decidable True)
  | .ready .refused _ => inferInstanceAs (Decidable True)
  | .ready (.accepted fd) _ => inferInstanceAs (Decidable (fd < fdSetSize))

/-! ## Single clients -/

structure IsOpen (log : List UInt8) (client : Client) : Prop where
  closed : client.closed = 0
  stop : client.stop = none
  start : client.start ≤ log.length
  received : client.received = log.drop client.start

def IsDone (log : List UInt8) (client : Client) : Prop :=
  client.closed = 1 ∧ ∃ stop ≤ log.length, client.stop = some stop ∧
    client.received = (log.take stop).drop client.start

theorem contiguous_of_open (log : List UInt8) (client : Client)
    (opened : IsOpen log client) : Contiguous log client := by
  rw [Contiguous, opened.stop, Option.getD_none, List.take_length]
  exact opened.received

theorem contiguous_of_done (log : List UInt8) (client : Client)
    (done : IsDone log client) : Contiguous log client := by
  obtain ⟨-, stop, -, stopped, received⟩ := done
  rw [Contiguous, stopped, Option.getD_some]
  exact received

theorem done_append (log more : List UInt8) (client : Client)
    (done : IsDone log client) : IsDone (log ++ more) client := by
  obtain ⟨closed, stop, bound, stopped, received⟩ := done
  refine ⟨closed, stop, ?_, stopped, ?_⟩
  · rw [List.length_append]
    omega
  · rw [List.take_append_of_le_length bound]
    exact received

theorem open_new (log : List UInt8) :
    IsOpen log { start := log.length } where
  closed := rfl
  stop := rfl
  start := Nat.le_refl _
  received := List.drop_length.symm

theorem open_write (log : List UInt8) (ch : UInt8) (client : Client)
    (opened : IsOpen log client) :
    IsOpen (log ++ [ch])
      { client with received := client.received ++ [ch] } where
  closed := opened.closed
  stop := opened.stop
  start := by
    rw [List.length_append]
    exact Nat.le_add_right_of_le opened.start
  received := by
    rw [List.drop_append_of_le_length opened.start, opened.received]

theorem done_fails (log : List UInt8) (ch : UInt8) (client : Client)
    (opened : IsOpen log client) :
    IsDone (log ++ [ch])
      { client with
        stop := some (client.stop.getD ((log ++ [ch]).length - 1))
        closed := client.closed + 1 } := by
  have behind : (log ++ [ch]).length - 1 = log.length := by
    rw [List.length_append, List.length_singleton]
    omega
  refine ⟨by rw [opened.closed], log.length, ?_, ?_, ?_⟩
  · rw [List.length_append]
    exact Nat.le_add_right _ _
  · rw [opened.stop, Option.getD_none, behind]
  · rw [List.take_left]
    exact opened.received

/-! ## The counter -/

/-- So many clients are counted beyond those in the set. -/
structure Counted (extra : Nat) (server : Server) : Prop where
  number : server.nbConnections =
    BitVec.ofNat 64 (server.outputSet.card + extra)
  small : ∀ fd ∈ server.outputSet, fd < fdSetSize

section Counter
variable (extra : Nat) (server : Server) (counted : Counted extra server)

include counted in
theorem card_le : server.outputSet.card ≤ fdSetSize := by
  have inside : server.outputSet ⊆ Finset.range fdSetSize := by
    intro fd member
    exact Finset.mem_range.mpr (counted.small fd member)
  have bound := Finset.card_le_card inside
  rw [Finset.card_range] at bound
  exact bound

include counted in
theorem toNat_counted (one : extra ≤ 1) :
    server.nbConnections.toNat = server.outputSet.card + extra := by
  have bound := card_le extra server counted
  rw [counted.number, BitVec.toNat_ofNat]
  apply Nat.mod_eq_of_lt
  rw [fdSetSize] at bound
  omega

include counted in
theorem counted_serveClient (ch : UInt8) (fails : Nat → Bool) (fd : Nat) :
    Counted extra (serveClient ch fails server fd) := by
  rw [serveClient]
  split
  · rename_i member
    split
    · refine ⟨?_, ?_⟩
      · have card := Finset.card_erase_add_one member
        simp only
        rw [counted.number, ← card, fdClr,
          show (server.outputSet.erase fd).card + 1 + extra =
            (server.outputSet.erase fd).card + extra + 1 by omega,
          BitVec.ofNat_add]
        exact BitVec.add_sub_cancel _ _
      · intro other there
        exact counted.small other (Finset.mem_of_mem_erase there)
    · exact ⟨counted.number, counted.small⟩
  · exact counted

theorem counted_foldl (ch : UInt8) (fails : Nat → Bool) (todo : List Nat)
    (server : Server) (counted : Counted extra server) :
    Counted extra (todo.foldl (serveClient ch fails) server) := by
  induction todo generalizing server with
  | nil => exact counted
  | cons fd rest ih =>
      exact ih _ (counted_serveClient extra server counted ch fails fd)

include counted in
theorem counted_newData (data : LogData) :
    Counted extra (newData server data) := by
  cases data with
  | none => exact counted
  | unreadable => exact ⟨counted.number, counted.small⟩
  | byte ch fails =>
      rw [newData]
      exact counted_foldl extra ch fails _ _ ⟨counted.number, counted.small⟩

include counted in
theorem counted_loopTest : Counted extra (loopTest server) := by
  rw [loopTest]
  split
  · exact ⟨counted.number, counted.small⟩
  · exact counted

end Counter

theorem counted_accept (server : Server) (counted : Counted 0 server)
    (fd : Nat) (absent : fd ∉ server.outputSet) (fits : fd < fdSetSize)
    (world : World) :
    Counted 0 { server with
      outputSet := fdSet fd server.outputSet
      nbConnections := server.nbConnections + 1
      world := world } := by
  rw [fdSet, if_pos fits]
  refine ⟨?_, ?_⟩
  · simp only
    rw [counted.number, Finset.card_insert_of_notMem absent]
    exact (BitVec.ofNat_add _ 1).symm
  · intro other member
    obtain same | there := Finset.mem_insert.mp member
    · rw [same]
      exact fits
    · exact counted.small other there

theorem counted_beyond (server : Server) (counted : Counted 0 server)
    (fd : Nat) (beyond : ¬ fd < fdSetSize) (world : World) :
    Counted 1 { server with
      outputSet := fdSet fd server.outputSet
      nbConnections := server.nbConnections + 1
      world := world } := by
  rw [fdSet, if_neg beyond]
  refine ⟨?_, counted.small⟩
  simp only
  rw [counted.number]
  exact (BitVec.ofNat_add _ 1).symm

/-! ## All clients -/

/-- The clients in the set are open, and each has got what is sent of the log;
the other ones are done. -/
structure Serving (sent : Nat → List UInt8) (server : Server) : Prop where
  counted : Counted 0 server
  served : ∀ fd ∈ server.outputSet, ∃ client,
    server.world.current fd = some client ∧ IsOpen (sent fd) client
  dropped : ∀ fd ∉ server.outputSet, ∀ client,
    server.world.current fd = some client → IsDone server.world.log client
  past : ∀ client ∈ server.world.past, IsDone server.world.log client

/-- Between two rounds all of the log is sent. -/
def Settled (server : Server) : Prop :=
  Serving (fun _ => server.world.log) server

theorem serving_congr (sent other : Nat → List UInt8) (server : Server)
    (serving : Serving sent server)
    (agree : ∀ fd ∈ server.outputSet, other fd = sent fd) :
    Serving other server where
  counted := serving.counted
  served := by
    intro fd member
    rw [agree fd member]
    exact serving.served fd member
  dropped := serving.dropped
  past := serving.past

/-! ## One byte -/

section Byte
variable (sent : Nat → List UInt8) (server : Server)
  (ch : UInt8) (fails : Nat → Bool) (old : List UInt8)

section Client
variable (serving : Serving sent server)
  (log : server.world.log = old ++ [ch]) (fd : Nat) (due : sent fd = old)

include serving log due

theorem serving_dropped (member : fd ∈ server.outputSet)
    (failed : fails fd = true) :
    Serving (Function.update sent fd (old ++ [ch]))
      (serveClient ch fails server fd) := by
  have counted := counted_serveClient 0 server serving.counted ch fails fd
  obtain ⟨client, here, opened⟩ := serving.served fd member
  rw [due] at opened
  unfold serveClient at counted ⊢
  rw [if_pos member, if_pos failed] at counted ⊢
  refine ⟨counted, ?_, ?_, serving.past⟩
  · intro other there
    obtain ⟨differ, there⟩ := Finset.mem_erase.mp there
    simp only [World.close, World.writeFails, World.change,
      Function.update_of_ne differ]
    exact serving.served other there
  · intro other absent gone holds
    by_cases same : other = fd
    · simp only [World.close, World.writeFails, World.change, same,
        Function.update_self, here, Option.map_some] at holds
      cases Option.some.inj holds
      simp only [World.close, World.writeFails, World.change, log]
      exact done_fails old ch client opened
    · simp only [World.close, World.writeFails, World.change,
        Function.update_of_ne same] at holds
      refine serving.dropped other ?_ gone holds
      intro there
      exact absent (Finset.mem_erase.mpr ⟨same, there⟩)

omit log in
theorem serving_written (member : fd ∈ server.outputSet)
    (written : ¬ fails fd = true) :
    Serving (Function.update sent fd (old ++ [ch]))
      (serveClient ch fails server fd) := by
  have counted := counted_serveClient 0 server serving.counted ch fails fd
  obtain ⟨client, here, opened⟩ := serving.served fd member
  rw [due] at opened
  unfold serveClient at counted ⊢
  rw [if_pos member, if_neg written] at counted ⊢
  refine ⟨counted, ?_, ?_, serving.past⟩
  · intro other there
    by_cases same : other = fd
    · simp only [World.write, World.change, same, Function.update_self,
        here, Option.map_some]
      exact ⟨_, rfl, open_write old ch client opened⟩
    · simp only [World.write, World.change, Function.update_of_ne same]
      exact serving.served other there
  · intro other absent gone holds
    have differ : other ≠ fd := by
      intro same
      rw [same] at absent
      exact absent member
    simp only [World.write, World.change, Function.update_of_ne differ]
      at holds
    exact serving.dropped other absent gone holds

theorem serving_serveClient :
    Serving (Function.update sent fd (old ++ [ch]))
      (serveClient ch fails server fd) := by
  by_cases member : fd ∈ server.outputSet
  · by_cases failed : fails fd = true
    · exact serving_dropped sent server ch fails old serving log fd due member
        failed
    · exact serving_written sent server ch fails old serving fd due member
        failed
  · unfold serveClient
    rw [if_neg member]
    apply serving_congr sent _ server serving
    intro other there
    have differ : other ≠ fd := by
      intro same
      rw [same] at there
      exact member there
    rw [Function.update_of_ne differ]

end Client

theorem log_serveClient (fd : Nat) :
    (serveClient ch fails server fd).world.log = server.world.log := by
  rw [serveClient]
  split
  · split <;> rfl
  · rfl

theorem serving_foldl (todo : List Nat) (once : todo.Nodup)
    (log : server.world.log = old ++ [ch])
    (due : ∀ fd ∈ todo, sent fd = old) (serving : Serving sent server) :
    Serving (fun fd => if fd ∈ todo then old ++ [ch] else sent fd)
        (todo.foldl (serveClient ch fails) server) ∧
      (todo.foldl (serveClient ch fails) server).world.log = old ++ [ch] := by
  induction todo generalizing sent server with
  | nil =>
      refine ⟨?_, log⟩
      apply serving_congr sent _ server serving
      intro fd _
      rw [if_neg List.not_mem_nil]
  | cons fd rest ih =>
      obtain ⟨fresh, once⟩ := List.nodup_cons.mp once
      have first := serving_serveClient sent server ch fails old serving
        log fd (due fd (List.mem_cons_self ..))
      have still : (serveClient ch fails server fd).world.log = old ++ [ch] :=
        (log_serveClient server ch fails fd).trans log
      have later : ∀ other ∈ rest,
          Function.update sent fd (old ++ [ch]) other = old := by
        intro other member
        have differ : other ≠ fd := by
          intro same
          rw [same] at member
          exact fresh member
        rw [Function.update_of_ne differ]
        exact due other (List.mem_cons_of_mem _ member)
      obtain ⟨all, last⟩ := ih _ _ once still later first
      refine ⟨?_, last⟩
      apply serving_congr _ _ _ all
      intro other _
      by_cases same : other = fd
      · simp [same]
      · simp [same]

theorem settled_of_all (log : List UInt8)
    (all : Serving
      (fun fd => if fd ∈ List.range fdSetSize then log else sent fd) server)
    (same : server.world.log = log) : Settled server := by
  apply serving_congr _ _ server all
  intro fd member
  rw [if_pos (List.mem_range.mpr (all.counted.small fd member))]
  exact same

end Byte

/-! ## One round -/

section Round
variable (server : Server) (settled : Settled server)

include settled in
theorem settled_leaves (err : Int) (phase : Phase) :
    Settled { server with err := err, phase := phase } :=
  ⟨⟨settled.counted.number, settled.counted.small⟩, settled.served,
    settled.dropped, settled.past⟩

include settled in
theorem settled_newData (data : LogData) : Settled (newData server data) := by
  cases data with
  | none => exact settled
  | unreadable => exact settled_leaves server settled (-1) .left
  | byte ch fails =>
      have read : Serving (fun _ => server.world.log)
          { server with world := server.world.read ch } := by
        refine ⟨⟨settled.counted.number, settled.counted.small⟩,
          settled.served, ?_, ?_⟩
        · intro fd absent client here
          exact done_append _ [ch] client
            (settled.dropped fd absent client here)
        · intro client member
          exact done_append _ [ch] client (settled.past client member)
      obtain ⟨all, log⟩ := serving_foldl _ _ ch fails server.world.log
        (List.range fdSetSize) List.nodup_range rfl (fun _ _ => rfl) read
      rw [newData]
      exact settled_of_all _ _ _ all log

include settled in
theorem settled_loopTest : Settled (loopTest server) := by
  rw [loopTest]
  split
  · exact settled_leaves server settled server.err .left
  · exact settled

include settled in
theorem absent_of_closed (fd : Nat)
    (closed : ¬ server.world.isOpen fd = true) : fd ∉ server.outputSet := by
  intro member
  obtain ⟨client, here, opened⟩ := settled.served fd member
  apply closed
  rw [World.isOpen, here, Option.any_some, opened.closed]
  rfl

include settled in
/-- A client that fits the set takes the place of one that is done. -/
theorem settled_accept (fd : Nat) (closed : ¬ server.world.isOpen fd = true)
    (fits : fd < fdSetSize) :
    Settled { server with
      outputSet := fdSet fd server.outputSet
      nbConnections := server.nbConnections + 1
      world := server.world.accept fd } := by
  have absent := absent_of_closed server settled fd closed
  refine ⟨counted_accept server settled.counted fd absent fits _, ?_, ?_, ?_⟩
  · intro other member
    simp only [fdSet, if_pos fits] at member
    by_cases same : other = fd
    · simp only [World.accept, same, Function.update_self]
      exact ⟨_, rfl, open_new server.world.log⟩
    · simp only [World.accept, Function.update_of_ne same]
      exact settled.served other (Finset.mem_of_mem_insert_of_ne member same)
  · intro other gone client here
    simp only [fdSet, if_pos fits] at gone
    have differ : other ≠ fd := by
      intro same
      rw [same] at gone
      exact gone (Finset.mem_insert_self ..)
    simp only [World.accept, Function.update_of_ne differ] at here
    exact settled.dropped other
      (fun there => gone (Finset.mem_insert_of_mem there)) client here
  · intro client member
    obtain here | there := List.mem_append.mp member
    · exact settled.dropped fd absent client (Option.mem_toList.mp here)
    · exact settled.past client there

end Round

/-! ## The end of the loop -/

/-- Those that are still in the set have not been closed, the other ones
once. -/
structure Closing (todo : List Nat) (server : Server) : Prop where
  within : ∀ fd ∈ server.outputSet, fd ∈ todo
  served : ∀ fd ∈ server.outputSet, ∃ client,
    server.world.current fd = some client ∧ client.closed = 0
  dropped : ∀ fd ∉ server.outputSet, ∀ client,
    server.world.current fd = some client → client.closed = 1
  past : ∀ client ∈ server.world.past, client.closed = 1

theorem closing_closeClient (fd : Nat) (rest : List Nat) (server : Server)
    (closing : Closing (fd :: rest) server) :
    Closing rest (closeClient server fd) := by
  rw [closeClient]
  split
  · rename_i member
    obtain ⟨client, here, opened⟩ := closing.served fd member
    refine ⟨?_, ?_, ?_, closing.past⟩
    · intro other there
      obtain ⟨differ, there⟩ := Finset.mem_erase.mp there
      exact (List.mem_cons.mp (closing.within other there)).resolve_left differ
    · intro other there
      obtain ⟨differ, there⟩ := Finset.mem_erase.mp there
      simp only [World.close, World.change, Function.update_of_ne differ]
      exact closing.served other there
    · intro other absent gone holds
      by_cases same : other = fd
      · simp only [World.close, World.change, same, Function.update_self, here,
          Option.map_some] at holds
        cases Option.some.inj holds
        simp only [opened]
      · simp only [World.close, World.change, Function.update_of_ne same]
          at holds
        refine closing.dropped other ?_ gone holds
        intro there
        exact absent (Finset.mem_erase.mpr ⟨same, there⟩)
  · rename_i absent
    refine ⟨?_, closing.served, closing.dropped, closing.past⟩
    intro other there
    have differ : other ≠ fd := by
      intro same
      rw [same] at there
      exact absent there
    exact (List.mem_cons.mp (closing.within other there)).resolve_left differ

theorem closed_foldl (todo : List Nat) (server : Server)
    (closing : Closing todo server) (client : Client)
    (accepted : Accepted (todo.foldl closeClient server).world client) :
    client.closed = 1 := by
  induction todo generalizing server with
  | nil =>
      obtain member | ⟨fd, here⟩ := accepted
      · exact closing.past client member
      · refine closing.dropped fd ?_ client here
        intro member
        exact List.not_mem_nil (closing.within fd member)
  | cons fd rest ih =>
      exact ih _ (closing_closeClient fd rest server closing) accepted

theorem closing_of_settled (server : Server) (settled : Settled server) :
    Closing (List.range fdSetSize) server where
  within := by
    intro fd member
    exact List.mem_range.mpr (settled.counted.small fd member)
  served := by
    intro fd member
    obtain ⟨client, here, opened⟩ := settled.served fd member
    exact ⟨client, here, opened.closed⟩
  dropped := by
    intro fd absent client here
    exact (settled.dropped fd absent client here).1
  past := by
    intro client member
    exact (settled.past client member).1

/-- If nobody is connected when `select` fails, the log is fanned out. -/
theorem fansOut_of_settled (server : Server) (settled : Settled server)
    (returned : server.phase = .returned → server.outputSet = ∅) :
    FansOut server where
  counted := toNat_counted 0 server settled.counted (Nat.zero_le 1)
  contiguous := by
    intro client accepted
    obtain member | ⟨fd, here⟩ := accepted
    · exact contiguous_of_done _ client (settled.past client member)
    · by_cases member : fd ∈ server.outputSet
      · obtain ⟨other, there, opened⟩ := settled.served fd member
        rw [here] at there
        cases Option.some.inj there
        exact contiguous_of_open _ client opened
      · exact contiguous_of_done _ client
          (settled.dropped fd member client here)
  closed := by
    intro stopped client accepted
    rw [atEnd] at accepted
    cases phase : server.phase with
    | running => exact absurd phase stopped
    | left =>
        rw [phase] at accepted
        exact closed_foldl _ server (closing_of_settled server settled) client
          accepted
    | returned =>
        rw [phase] at accepted
        obtain member | ⟨fd, here⟩ := accepted
        · exact (settled.past client member).1
        · refine (settled.dropped fd ?_ client here).1
          rw [returned phase]
          exact Finset.notMem_empty fd

/-! ## Runs -/

theorem step_cases (server next : Server) (selected : Selected)
    (taken : step server selected = some next) :
    server.phase = .running ∧
      match selected with
      | .timeOut => next = loopTest server
      | .error => next = { server with err := -1, phase := .returned }
      | .ready connection data => ∃ middle,
          newConnection server connection = some middle ∧
            next = if middle.phase = .running then
              loopTest (newData middle data) else middle := by
  unfold step at taken
  split at taken
  · contradiction
  rename_i running
  refine ⟨not_not.mp running, ?_⟩
  cases selected with
  | timeOut => exact (Option.some.inj taken).symm
  | error => exact (Option.some.inj taken).symm
  | ready connection data =>
      obtain ⟨middle, connected, same⟩ := Option.map_eq_some_iff.mp taken
      exact ⟨middle, connected, same.symm⟩

theorem phase_foldl (ch : UInt8) (fails : Nat → Bool) (todo : List Nat)
    (server : Server) :
    (todo.foldl (serveClient ch fails) server).phase = server.phase := by
  induction todo generalizing server with
  | nil => rfl
  | cons fd rest ih =>
      rw [List.foldl_cons, ih, serveClient]
      split
      · split <;> rfl
      · rfl

/-- Only an error of `select` returns from within the loop. -/
theorem phase_round (server : Server) (data : LogData)
    (running : server.phase = .running) :
    (loopTest (newData server data)).phase ≠ .returned := by
  have before : (newData server data).phase ≠ .returned := by
    cases data with
    | none =>
        rw [newData, running]
        decide
    | unreadable =>
        intro returned
        contradiction
    | byte ch fails =>
        rw [newData, phase_foldl, running]
        decide
  rw [loopTest]
  split
  · intro returned
    contradiction
  · exact before

theorem settled_newConnection (server middle : Server)
    (connection : Connection) (settled : Settled server)
    (fits : ∀ fd, connection = .accepted fd → fd < fdSetSize)
    (connected : newConnection server connection = some middle) :
    Settled middle ∧
      (server.phase = .running → middle.phase ≠ .returned) := by
  cases connection with
  | none =>
      cases Option.some.inj connected
      refine ⟨settled, ?_⟩
      intro running
      rw [running]
      decide
  | refused =>
      cases Option.some.inj connected
      refine ⟨settled_leaves server settled (-1) .left, ?_⟩
      intro _ returned
      contradiction
  | accepted fd =>
      rw [newConnection] at connected
      split at connected
      · contradiction
      · rename_i closed
        cases Option.some.inj connected
        refine ⟨settled_accept server settled fd closed (fits fd rfl), ?_⟩
        intro running
        simp only [running]
        decide

theorem settled_step (server next : Server) (selected : Selected)
    (settled : Settled server) (fits : RoundFits server selected)
    (taken : step server selected = some next) :
    Settled next ∧ (next.phase = .returned → next.outputSet = ∅) := by
  obtain ⟨running, here⟩ := step_cases server next selected taken
  cases selected with
  | timeOut =>
      simp only at here
      rw [here]
      refine ⟨settled_loopTest server settled, ?_⟩
      intro returned
      exact absurd returned (phase_round server .none running)
  | error =>
      simp only at here
      rw [here]
      exact ⟨settled_leaves server settled (-1) .returned, fun _ => fits⟩
  | ready connection data =>
      obtain ⟨middle, connected, same⟩ := here
      obtain ⟨still, goesOn⟩ := settled_newConnection server middle connection
        settled (by
          intro fd accepted
          rw [accepted] at fits
          exact fits) connected
      rw [same]
      split
      · rename_i onward
        refine ⟨settled_loopTest _ (settled_newData middle still data), ?_⟩
        intro returned
        exact absurd returned (phase_round middle data onward)
      · refine ⟨still, ?_⟩
        intro returned
        exact absurd returned (goesOn running)

/-- After a number beyond the set the counter is wrong. -/
theorem fits_of_counted (server middle : Server) (fd : Nat) (data : LogData)
    (settled : Settled server)
    (connected : newConnection server (.accepted fd) = some middle)
    (right : (loopTest (newData middle data)).nbConnections.toNat =
      (loopTest (newData middle data)).outputSet.card) : fd < fdSetSize := by
  by_contra beyond
  rw [newConnection] at connected
  split at connected
  · contradiction
  cases Option.some.inj connected
  have one := counted_beyond server settled.counted fd beyond
    (server.world.accept fd)
  have counted := toNat_counted 1 _ (counted_loopTest 1 _
    (counted_newData 1 _ one data)) (Nat.le_refl 1)
  omega

theorem fits_of_fansOut (server next : Server) (selected : Selected)
    (settled : Settled server) (taken : step server selected = some next)
    (fansOut : FansOut next) : RoundFits server selected := by
  obtain ⟨running, here⟩ := step_cases server next selected taken
  cases selected with
  | timeOut => trivial
  | error =>
      simp only at here
      rw [here] at fansOut
      refine Finset.eq_empty_of_forall_notMem ?_
      intro fd member
      obtain ⟨client, there, opened⟩ := settled.served fd member
      have stopped : Phase.returned ≠ .running := by decide
      have closed := fansOut.closed stopped client (Or.inr ⟨fd, there⟩)
      rw [opened.closed] at closed
      contradiction
  | ready connection data =>
      obtain ⟨middle, connected, same⟩ := here
      cases connection with
      | none => trivial
      | refused => trivial
      | accepted fd =>
          have onward : middle.phase = .running := by
            rw [newConnection] at connected
            split at connected
            · contradiction
            · cases Option.some.inj connected
              exact running
          rw [same, if_pos onward] at fansOut
          exact fits_of_counted server middle fd data settled connected
            fansOut.counted

theorem settled_start : Settled {} where
  counted := ⟨rfl, fun fd member => absurd member (Finset.notMem_empty fd)⟩
  served := fun fd member => absurd member (Finset.notMem_empty fd)
  dropped := by
    intro fd _ client here
    contradiction
  past := by
    intro client member
    contradiction

/-- Every round of a run leaves the log fanned out exactly where the numbers of
the clients fit the set and `select` fails for nobody. -/
theorem log_fans_out_iff (rounds : List Selected) (final : Server)
    (ran : run step {} rounds = some final) :
    Along step RoundFansOut {} rounds ↔ Along step RoundFits {} rounds := by
  constructor
  · intro fansOut
    refine (along_of_sound step Settled RoundFansOut RoundFits ?_ {} final
      rounds settled_start ran fansOut).1
    intro server selected next settled every taken
    have fits := fits_of_fansOut server next selected settled taken
      (every next taken)
    exact ⟨fits, (settled_step server next selected settled fits taken).1⟩
  · intro fits
    refine (along_of_sound step Settled RoundFits RoundFansOut ?_ {} final
      rounds settled_start ran fits).1
    intro server selected next settled fit taken
    obtain ⟨still, returned⟩ := settled_step server next selected settled fit
      taken
    refine ⟨?_, still⟩
    intro other same
    rw [taken] at same
    cases Option.some.inj same
    exact fansOut_of_settled next still returned

/-- A client gets the first byte and not the second one. -/
def twoBytes : List Selected :=
  [.ready (.accepted 5) (.byte 97 fun _ => false),
    .ready .none (.byte 98 fun _ => true)]

set_option maxRecDepth 16384 in
theorem twoBytes_fansOut : Along step RoundFansOut {} twoBytes := by
  have ends : (run step {} twoBytes).isSome = true := by decide +kernel
  obtain ⟨final, ran⟩ := Option.isSome_iff_exists.mp ends
  exact (log_fans_out_iff twoBytes final ran).mpr (by decide +kernel)

/-- `accept` answers with the first number beyond the set. -/
def beyondSet : List Selected := [.ready (.accepted 1024) .none]

/-- `select` is interrupted while a client is connected. -/
def interrupted : List Selected := [.ready (.accepted 5) .none, .error]

theorem rounds_go_wrong :
    ¬ Along step RoundFansOut {} beyondSet ∧
      ¬ Along step RoundFansOut {} interrupted := by
  constructor
  · intro along
    exact absurd (along.1 _ rfl).counted (by decide)
  · intro along
    have returned : Phase.returned ≠ .running := by decide
    have closed := (along.2.1 _ rfl).closed returned _ (Or.inr ⟨5, rfl⟩)
    contradiction

end HenPlugins.Klog.FanOut
