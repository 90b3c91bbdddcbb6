import HenPlugins.Ftp.SessionRecord

/-!
# The calls of a session are those that its record predicts

Each command keeps the environment in step with the record, and it opens data
connections, starts transfers and renames by what the record says.
-/

set_option autoImplicit false

namespace HenPlugins.Ftp.RecordedCalls

open HenPlugins.Lib.ByteText
open HenPlugins.Lib.CallProgram
open HenPlugins.Lib.CallTrace
open HenPlugins.Lib.EventRun
open HenPlugins.Lib.SharedDescriptors
open HenPlugins.Ftp.SessionCalls
open HenPlugins.Ftp.Commands
open HenPlugins.Ftp.FtpSessions
open HenPlugins.Ftp.SessionRecord

/-! ## What is predicted -/

/-- Where the code lets a transfer begin. -/
def reached (transfer : Transfer) : BitVec 64 :=
  match transfer.kind with
  | .retr => 0
  | .stor => transfer.restart.stored
  | .appe =>
      if transfer.restart.stored = 0 then transfer.asked.getD 0
      else transfer.restart.stored

structure StartPredicted (transfer : Transfer) : Prop where
  position : transfer.position = reached transfer
  asked : transfer.kind = .appe →
    (transfer.asked = none ↔ transfer.restart.stored ≠ 0)

def Predicted (record : Record) (exchange : FtpExchange) : Prop :=
  match exchange.request with
  | .use (.connect addr) _ =>
      addr = record.data.portOrZero ∧ addr.sinPort ≠ 0
  | .acquire .data .accept through =>
      through = some record.data.socket ∧ record.data.portOrZero.sinPort = 0
  | .use (.reply reply) _ =>
      reply = opening →
        ∀ transfer ∈ record.offsets.transfer, StartPredicted transfer
  | .plain (.rename path _) =>
      path = record.source.path ∧ record.source.found = true ∧
        record.spoken.name = ascii "RNTO"
  | _ => True

/-- The environment of the session, as it is noted. -/
structure Noted (env : FtpEnv) (record : Record) : Prop where
  socket : env.passiveFd = record.data.socket
  addr : env.dataAddr = record.data.portOrZero
  offset : env.dataOffset = record.offsets.restart.stored
  path : env.renamePath = record.source.path

def ready : Point → Record → Prop
  | .serve env, record => Noted env record
  | .readLine env, record => Noted env record
  | .listing env _ _, record =>
      Noted env record ∧ record.spoken.name ≠ ascii "RNFR"
  | .retrieving env _, record => Noted env record
  | .storing env _ _, record => Noted env record

abbrev Kept (program : FtpProgram) (record : Record) : Prop :=
  Keeps note Predicted ready program record

/-- A call that the onlooker makes nothing of. -/
theorem kept_silent (record : Record) (request : Request Call Role)
    (next : Answer Buffers → FtpProgram)
    (silent : ∀ answer, Predicted record ⟨request, answer⟩ ∧
      note record ⟨request, answer⟩ = record)
    (later : ∀ answer, Kept (next answer) record) :
    Kept (.call request next) record :=
  keeps_silent note Predicted ready request next record
    (fun answer => (silent answer).1) (fun answer => (silent answer).2) later

/-! ## Replies that tell nothing -/

def watched : List Reply :=
  [restDone, portDone, storUsage, rnfrDone, rnfrUsage, opening]

def ordinary : Reply → Bool
  | .line text => Reply.line text ∉ watched
  | .passiveMode _ _ => false
  | _ => true

theorem line_of_watched (reply : Reply) (member : reply ∈ watched) :
    ∃ text, reply = .line text := by
  simp only [watched, List.mem_cons, List.not_mem_nil, or_false] at member
  obtain rfl | rfl | rfl | rfl | rfl | rfl := member <;> exact ⟨_, rfl⟩

theorem apart_of_ordinary (reply : Reply) (plain : ordinary reply = true) :
    reply ∉ watched := by
  intro member
  obtain ⟨text, rfl⟩ := line_of_watched reply member
  exact of_decide_eq_true plain member

theorem note_reply (record : Record) (reply : Reply) (fd : Int)
    (answer : Answer Buffers) (rest : reply ≠ restDone)
    (port : reply ≠ portDone) (stor : reply ≠ storUsage)
    (done : reply ≠ rnfrDone) (usage : reply ≠ rnfrUsage)
    (passive : ∀ addr number, reply ≠ .passiveMode addr number) :
    note record ⟨.use (.reply reply) fd, answer⟩ = record := by
  have data : record.data.answered record.spoken.arg reply = record.data := by
    unfold Negotiated.answered
    rw [if_neg port]
    split
    · exact absurd rfl (passive _ _)
    · rfl
  have offsets : record.offsets.answered record.spoken.arg reply =
      record.offsets := by
    rw [Offsets.answered, if_neg rest, if_neg stor]
  have source : record.source.answered record.spoken.name reply =
      record.source := by
    rw [RenameSource.answered, if_neg done, if_neg fun both => usage both.1]
  simp only [note, lineRead, Record.after, Negotiated.after, Offsets.after,
    RenameSource.after, data, offsets, source]

theorem note_ordinary (record : Record) (reply : Reply) (fd : Int)
    (answer : Answer Buffers) (plain : ordinary reply = true) :
    note record ⟨.use (.reply reply) fd, answer⟩ = record := by
  have apart := apart_of_ordinary reply plain
  simp only [watched, List.mem_cons, List.not_mem_nil, or_false, not_or]
    at apart
  obtain ⟨rest, port, stor, done, usage, -⟩ := apart
  apply note_reply record reply fd answer rest port stor done usage
  intro addr number same
  rw [same] at plain
  contradiction

theorem note_opening (record : Record) (fd : Int) (answer : Answer Buffers) :
    note record ⟨.use (.reply opening) fd, answer⟩ = record := by
  apply note_reply record opening fd answer (by decide) (by decide)
    (by decide) (by decide) (by decide)
  intro addr number same
  contradiction

theorem predicted_ordinary (record : Record) (reply : Reply) (fd : Int)
    (answer : Answer Buffers) (plain : ordinary reply = true) :
    Predicted record ⟨.use (.reply reply) fd, answer⟩ := by
  intro same
  have apart := apart_of_ordinary reply plain
  rw [same] at apart
  exact absurd (by decide) apart

/-! ## The helpers -/

section Helpers
variable (env : FtpEnv) (record : Record)

/-- The end of a session opens nothing. -/
theorem kept_closeIfPositive (role : Role) (fd : Int) (rest : FtpProgram)
    (later : ∀ other, Kept rest other) :
    Kept (closeIfPositive role fd rest) record := by
  rw [closeIfPositive]
  split
  · intro answer
    exact ⟨trivial, later _⟩
  · exact later record

theorem kept_finish : Kept (finish env) record := by
  rw [finish]
  apply kept_closeIfPositive
  intro active
  apply kept_closeIfPositive
  intro passive
  apply kept_closeIfPositive
  intro data answer
  exact ⟨trivial, trivial⟩

theorem kept_returns (noted : Noted env record) (result : Int) :
    Kept (returns env result) record := by
  rw [returns]
  split
  · exact noted
  · exact kept_finish env record

theorem kept_printf (reply : Reply) (plain : ordinary reply = true)
    (next : Int → FtpProgram) (later : ∀ result, Kept (next result) record) :
    Kept (ftpActivePrintf env reply next) record := by
  intro answer
  refine ⟨predicted_ordinary record reply _ answer plain, ?_⟩
  rw [note_ordinary record reply _ answer plain]
  exact later _

theorem kept_perror (next : Int → FtpProgram)
    (later : ∀ result, Kept (next result) record) :
    Kept (ftpPerror env next) record :=
  kept_printf env record .perror rfl next later

theorem kept_answers (noted : Noted env record) (reply : Reply)
    (plain : ordinary reply = true) : Kept (answers reply env) record :=
  kept_printf env record reply plain _ fun result =>
    kept_returns env record noted result

theorem kept_fails (noted : Noted env record) :
    Kept (ftpPerror env (returns env)) record :=
  kept_answers env record noted .perror rfl

/-- A reply that is watched. -/
theorem kept_watched (reply : Reply)
    (predicted : ∀ answer, Predicted record
      ⟨.use (.reply reply) env.activeFd, answer⟩)
    (noted : ∀ answer, Noted env
      (note record ⟨.use (.reply reply) env.activeFd, answer⟩)) :
    Kept (answers reply env) record := by
  intro answer
  exact ⟨predicted answer, kept_returns env _ (noted answer) _⟩

theorem kept_callThen (call : Call) (next : Buffers → FtpProgram)
    (predicted : ∀ answer, Predicted record ⟨.plain call, answer⟩)
    (noted : ∀ answer, Noted env (note record ⟨.plain call, answer⟩))
    (later : ∀ answer : Answer Buffers, answer.value = 0 →
      Kept (next answer.data) (note record ⟨.plain call, answer⟩)) :
    Kept (callThen env call next) record := by
  apply keeps_call note Predicted ready _ _ record predicted
  intro answer
  split
  · exact kept_fails env _ (noted answer)
  · rename_i succeeded
    exact later answer (not_not.mp succeeded)

/-- The `stat` of a command other than `RNFR`. -/
theorem noted_stat (noted : Noted env record)
    (other : record.spoken.name ≠ ascii "RNFR") (path : Text)
    (answer : Answer Buffers) :
    Noted env (note record ⟨.plain (.stat path), answer⟩) where
  socket := noted.socket
  addr := noted.addr
  offset := noted.offset
  path := by
    simp only [note, lineRead, Record.after, RenameSource.after]
    rw [if_neg other]
    exact noted.path

theorem kept_dataOpen (noted : Noted env record)
    (next : FtpEnv → Int → FtpProgram)
    (later : ∀ opened failed, Noted opened record →
      Kept (next opened failed) record) :
    Kept (ftpDataOpen env next) record := by
  rw [ftpDataOpen]
  split
  · rename_i port
    intro answer
    exact ⟨⟨noted.addr, port⟩, later env _ noted⟩
  · rename_i port
    intro answer
    refine ⟨⟨congrArg some noted.socket, ?_⟩, later _ _ ?_⟩
    · rw [← noted.addr]
      exact not_not.mp port
    · exact ⟨noted.socket, noted.addr, noted.offset, noted.path⟩

theorem kept_dataClose (next : Int → FtpProgram)
    (later : ∀ failed, Kept (next failed) record) :
    Kept (ftpDataClose env next) record := by
  intro answer
  exact ⟨trivial, later _⟩

end Helpers

/-! ## Transfers -/

section Transfers
variable (env : FtpEnv) (record : Record) (fd : Int)
  (noted : Noted env record)

include noted in
theorem kept_closeThenReturn (role : Role) (other : role ≠ .passive)
    (result : Int) :
    Kept (.call (.close role fd) fun _ => returns env result) record := by
  apply kept_silent
  · intro answer
    cases role with
    | passive => contradiction
    | _ => exact ⟨trivial, rfl⟩
  · intro answer
    exact kept_returns env record noted result

include noted in
theorem kept_breakOff : Kept (breakOff env fd) record := by
  apply kept_perror
  intro err
  apply kept_dataClose
  intro failed
  exact kept_closeThenReturn env record fd noted .file (by decide) err

include noted in
theorem kept_closeBoth (reply : Reply) (plain : ordinary reply = true) :
    Kept (closeBoth env fd reply) record := by
  apply kept_silent
  · exact fun _ => ⟨trivial, rfl⟩
  intro closed
  apply kept_dataClose
  intro failed
  split
  · exact kept_fails env record noted
  · exact kept_answers env record noted reply plain

include noted in
theorem kept_retrieving : Kept (retrieving env fd) record := by
  apply kept_silent
  · exact fun _ => ⟨trivial, rfl⟩
  intro len
  split
  · exact kept_closeBoth env record fd noted _ (by decide)
  split
  · exact kept_breakOff env record fd noted
  apply kept_silent
  · exact fun _ => ⟨trivial, rfl⟩
  intro written
  split
  · exact kept_breakOff env record fd noted
  · exact noted

include noted in
theorem kept_storing (off : BitVec 64) :
    Kept (storing env fd off) record := by
  apply kept_silent
  · exact fun _ => ⟨trivial, rfl⟩
  intro len
  split
  · apply kept_silent
    · exact fun _ => ⟨trivial, rfl⟩
    intro cut
    split
    · exact kept_breakOff env record fd noted
    · exact kept_closeBoth env record fd noted _ (by decide)
  · apply kept_silent
    · exact fun _ => ⟨trivial, rfl⟩
    intro written
    split
    · exact kept_breakOff env record fd noted
    · exact noted

theorem kept_opening (next : Int → FtpProgram)
    (started : ∀ transfer ∈ record.offsets.transfer,
      StartPredicted transfer)
    (later : ∀ result, Kept (next result) record) :
    Kept (ftpActivePrintf env opening next) record := by
  apply kept_silent
  · intro answer
    exact ⟨fun _ => started, note_opening record env.activeFd answer⟩
  · intro answer
    exact later _

include noted in
theorem kept_openTransfer (loop : FtpEnv → Point)
    (started : ∀ transfer ∈ record.offsets.transfer,
      StartPredicted transfer)
    (enters : ∀ opened, Noted opened record → ready (loop opened) record) :
    Kept (openTransfer env fd loop) record := by
  apply kept_opening env record _ started
  intro failed
  split
  · exact kept_closeThenReturn env record fd noted .file (by decide) (-1)
  · apply kept_dataOpen env record noted
    intro opened failed still
    split
    · apply kept_perror
      intro err
      exact kept_closeThenReturn opened record fd still .file (by decide) err
    · exact enters opened still

include noted in
theorem kept_listingEnd : Kept (listingEnd env fd) record := by
  apply kept_dataClose
  intro failed
  split
  · apply kept_perror
    intro ret
    exact kept_closeThenReturn env record fd noted .dir (by decide) ret
  · apply kept_silent
    · exact fun _ => ⟨trivial, rfl⟩
    intro answer
    split
    · exact kept_fails env record noted
    · exact kept_answers env record noted _ (by decide)

include noted in
theorem kept_listing (path : Text)
    (other : record.spoken.name ≠ ascii "RNFR") :
    Kept (listing env path fd) record := by
  apply kept_silent
  · exact fun _ => ⟨trivial, rfl⟩
  intro ent
  split
  · exact kept_listingEnd env record fd noted
  apply keeps_call _ _ _ _ _ record fun _ => trivial
  intro found
  have still := noted_stat env record noted other
    (entryPath env path ent.data.name) found
  split
  · exact ⟨still, other⟩
  · apply kept_silent
    · exact fun _ => ⟨trivial, rfl⟩
    intro sent
    exact ⟨still, other⟩

end Transfers

/-! ## Commands -/

/-- A command begins with nothing found and no file open. -/
structure Begins (env : FtpEnv) (name arg : Text) (record : Record) :
    Prop where
  noted : Noted env record
  name : record.spoken.name = name
  arg : record.spoken.arg = arg
  asked : record.offsets.asked = none
  transfer : record.offsets.transfer = none

theorem Begins.apart {env : FtpEnv} {name arg : Text} {record : Record}
    (begins : Begins env name arg record) (other : name ≠ ascii "RNFR") :
    record.spoken.name ≠ ascii "RNFR" := by
  rw [begins.name]
  exact other

def KeptCommand (name : Text) (command : FtpCommand) : Prop :=
  ∀ env arg record, Begins env name arg record →
    Kept (command env arg) record

section Plain
variable (name : Text)

theorem kept_answering (reply : FtpEnv → Reply)
    (plain : ∀ env, ordinary (reply env) = true) :
    KeptCommand name fun env _ => answers (reply env) env := by
  intro env arg record begins
  exact kept_answers env record begins.noted (reply env) (plain env)

theorem kept_ftpCmdQuit : KeptCommand name ftpCmdQuit := by
  intro env arg record begins
  apply kept_printf env record _ (by decide)
  intro result
  exact kept_returns env record begins.noted (-1)

theorem kept_ftpCmdKill : KeptCommand name ftpCmdKill := by
  intro env arg record begins
  trivial

/-- Only these parts of the environment are noted. -/
theorem noted_congr (env other : FtpEnv) (record : Record)
    (noted : Noted env record) (socket : other.passiveFd = env.passiveFd)
    (addr : other.dataAddr = env.dataAddr)
    (offset : other.dataOffset = env.dataOffset)
    (path : other.renamePath = env.renamePath) : Noted other record where
  socket := socket.trans noted.socket
  addr := addr.trans noted.addr
  offset := offset.trans noted.offset
  path := path.trans noted.path

theorem kept_ftpCmdType : KeptCommand name ftpCmdType := by
  intro env arg record begins
  have refused : Kept
      (answers (.line "501 Invalid argument to TYPE\r\n") env) record :=
    kept_answers env record begins.noted _ (by decide)
  unfold ftpCmdType
  split
  · split
    · apply kept_answers _ record _ _ rfl
      exact noted_congr env _ record begins.noted rfl rfl rfl rfl
    · exact refused
  · exact refused

theorem kept_ftpCmdCdup : KeptCommand name ftpCmdCdup := by
  intro env arg record begins
  apply kept_answers _ record _ _ (by decide)
  exact noted_congr env _ record begins.noted rfl rfl rfl rfl

theorem kept_pathCommand (usage reply : String) (call : Text → Call)
    (refuses : ordinary (.line usage) = true)
    (tells : ordinary (.line reply) = true)
    (silent : ∀ record path answer,
      Predicted record ⟨.plain (call path), answer⟩ ∧
        note record ⟨.plain (call path), answer⟩ = record) :
    KeptCommand name (pathCommand usage reply call) := by
  intro env arg record begins
  rw [pathCommand]
  split
  · exact kept_answers env record begins.noted _ refuses
  apply kept_callThen
  · intro answer
    exact (silent record _ answer).1
  · intro answer
    rw [(silent record _ answer).2]
    exact begins.noted
  · intro answer succeeded
    rw [(silent record _ answer).2]
    exact kept_answers env record begins.noted _ tells

theorem kept_ftpCmdChmod : KeptCommand name ftpCmdChmod := by
  intro env arg record begins
  rw [ftpCmdChmod]
  split
  · exact kept_answers env record begins.noted _ (by decide)
  apply kept_callThen
  · exact fun _ => trivial
  · intro answer
    exact begins.noted
  · intro answer succeeded
    exact kept_answers env _ begins.noted _ (by decide)

variable (other : name ≠ ascii "RNFR")

include other in
theorem kept_ftpCmdCwd : KeptCommand name ftpCmdCwd := by
  intro env arg record begins
  have apart := begins.apart other
  rw [ftpCmdCwd]
  split
  · exact kept_answers env record begins.noted _ (by decide)
  have still := noted_stat env record begins.noted apart (ftpAbspath env arg)
  apply kept_callThen
  · exact fun _ => trivial
  · exact still
  · intro answer succeeded
    split
    · apply kept_answers _ _ _ _ (by decide)
      exact noted_congr env _ _ (still answer) rfl rfl rfl rfl
    · exact kept_answers env _ (still answer) _ (by decide)

include other in
theorem kept_ftpCmdSize : KeptCommand name ftpCmdSize := by
  intro env arg record begins
  have apart := begins.apart other
  rw [ftpCmdSize]
  split
  · exact kept_answers env record begins.noted _ (by decide)
  have still := noted_stat env record begins.noted apart (ftpAbspath env arg)
  apply kept_callThen
  · exact fun _ => trivial
  · exact still
  · intro answer succeeded
    exact kept_answers env _ (still answer) _ rfl

include other in
theorem kept_ftpCmdList : KeptCommand name ftpCmdList := by
  intro env arg record begins
  have apart := begins.apart other
  apply kept_silent
  · exact fun _ => ⟨trivial, rfl⟩
  intro dir
  split
  · exact kept_fails env record begins.noted
  apply kept_dataOpen env record begins.noted
  intro opened failed still
  split
  · exact kept_fails opened record still
  apply kept_opening
  · intro transfer member
    rw [begins.transfer] at member
    contradiction
  · intro result
    exact ⟨still, apart⟩

end Plain

/-! ## Commands that are noted -/

theorem kept_ftpCmdRest (name : Text) : KeptCommand name ftpCmdRest := by
  intro env arg record begins
  rw [ftpCmdRest]
  split
  · exact kept_answers env record begins.noted _ (by decide)
  · apply kept_watched
    · intro answer same
      exact absurd same (by decide)
    · intro answer
      rw [← begins.arg]
      exact ⟨begins.noted.socket, begins.noted.addr, rfl, begins.noted.path⟩

theorem kept_ftpCmdPort (name : Text) : KeptCommand name ftpCmdPort := by
  intro env arg record begins
  have refused : Kept (answers (.line "501 Usage: PORT <addr>\r\n") env)
      record := kept_answers env record begins.noted _ (by decide)
  unfold ftpCmdPort
  split
  · rename_i addr0 addr1 addr2 addr3 addr4 addr5 scanned
    have named : portAddr record.spoken.arg = some {
        sAddr := addr3 ++ addr2 ++ addr1 ++ addr0
        sinPort := addr5 ++ addr4 } := by
      rw [begins.arg, portAddr, scanned]
    apply kept_silent
    · exact fun _ => ⟨trivial, rfl⟩
    intro answer
    split
    · apply kept_fails
      exact noted_congr env _ record begins.noted rfl rfl rfl rfl
    · apply kept_watched
      · intro written same
        exact absurd same (by decide)
      · intro written
        have data : record.data.answered record.spoken.arg portDone =
            { record.data with
              mode := .active ⟨addr3 ++ addr2 ++ addr1 ++ addr0, addr5 ++ addr4⟩
              port := some
                ⟨addr3 ++ addr2 ++ addr1 ++ addr0, addr5 ++ addr4⟩ } := by
          unfold Negotiated.answered
          rw [if_pos rfl, named]
        refine ⟨?_, ?_, begins.noted.offset, begins.noted.path⟩
        · exact begins.noted.socket.trans (congrArg Negotiated.socket data).symm
        · exact (congrArg Negotiated.portOrZero data).symm
  · exact refused

/-- A passive socket that is closed keeps its number. -/
theorem noted_closePassive (env : FtpEnv) (record : Record)
    (noted : Noted env record) (fd : Int) (answer : Answer Buffers) :
    Noted env (note record ⟨.close .passive fd, answer⟩) :=
  ⟨noted.socket, noted.addr, noted.offset, noted.path⟩

theorem kept_refusePassive (env : FtpEnv) (record : Record)
    (noted : Noted env record) : Kept (refusePassive env) record := by
  apply kept_perror
  intro ret
  apply keeps_call
  · exact fun _ => trivial
  · intro answer
    exact kept_returns env _
      (noted_closePassive env record noted env.passiveFd answer) ret

theorem kept_pasvSocket (env : FtpEnv) (record : Record)
    (noted : Noted env record) (addr : BitVec 32) :
    Kept (pasvSocket env addr) record := by
  apply keeps_call
  · exact fun _ => trivial
  intro answer
  have still : Noted { env with passiveFd := answer.value }
      (note record ⟨.acquire .passive .socket none, answer⟩) :=
    ⟨rfl, noted.addr, noted.offset, noted.path⟩
  split
  · exact kept_fails _ _ still
  apply kept_silent
  · exact fun _ => ⟨trivial, rfl⟩
  intro bound
  split
  · exact kept_refusePassive _ _ still
  apply kept_silent
  · exact fun _ => ⟨trivial, rfl⟩
  intro listening
  split
  · exact kept_refusePassive _ _ still
  apply kept_silent
  · exact fun _ => ⟨trivial, rfl⟩
  intro named
  split
  · exact kept_refusePassive _ _ still
  apply kept_watched
  · intro written same
    contradiction
  · intro written
    exact ⟨still.socket, still.addr, still.offset, still.path⟩

theorem kept_ftpCmdPasv (name : Text) : KeptCommand name ftpCmdPasv := by
  intro env arg record begins
  apply kept_silent
  · exact fun _ => ⟨trivial, rfl⟩
  intro answer
  split
  · exact kept_fails env record begins.noted
  rw [closeIfPositive]
  split
  · apply keeps_call
    · exact fun _ => trivial
    · intro closed
      apply kept_pasvSocket
      exact noted_closePassive env record begins.noted env.passiveFd closed
  · exact kept_pasvSocket env record begins.noted _

theorem path_answered (source : RenameSource) (name : Text) (reply : Reply) :
    (source.answered name reply).path = source.path := by
  rw [RenameSource.answered]
  split
  · rfl
  · split <;> rfl

theorem kept_ftpCmdRnfr : KeptCommand (ascii "RNFR") ftpCmdRnfr := by
  intro env arg record begins
  rw [ftpCmdRnfr]
  split
  · apply kept_watched
    · intro answer same
      exact absurd same (by decide)
    · intro answer
      refine ⟨begins.noted.socket, begins.noted.addr, begins.noted.offset, ?_⟩
      exact begins.noted.path.trans (path_answered _ _ _).symm
  · have still : ∀ answer, Noted
        { env with renamePath := ftpAbspath env arg }
        (note record ⟨.plain (.stat (ftpAbspath env arg)), answer⟩) := by
      intro answer
      refine ⟨begins.noted.socket, begins.noted.addr, begins.noted.offset, ?_⟩
      simp only [note, lineRead, Record.after, RenameSource.after]
      rw [if_pos begins.name]
    apply kept_callThen
    · exact fun _ => trivial
    · exact still
    · intro answer succeeded
      apply kept_watched
      · intro written same
        exact absurd same (by decide)
      · intro written
        exact ⟨(still answer).socket, (still answer).addr,
          (still answer).offset, (still answer).path⟩

theorem kept_ftpCmdRnto : KeptCommand (ascii "RNTO") ftpCmdRnto := by
  intro env arg record begins
  have apart := begins.apart (by decide)
  rw [ftpCmdRnto]
  split
  · exact kept_answers env record begins.noted _ (by decide)
  have still := noted_stat env record begins.noted apart env.renamePath
  apply kept_callThen
  · exact fun _ => trivial
  · exact still
  intro answer succeeded
  apply kept_callThen
  · intro renamed
    refine ⟨(still answer).path, ?_, begins.name⟩
    simp only [note, lineRead, Record.after, RenameSource.after]
    rw [if_neg apart]
    exact decide_eq_true succeeded
  · intro renamed
    exact ⟨(still answer).socket, (still answer).addr, (still answer).offset,
      (still answer).path⟩
  · intro renamed done
    apply kept_answers _ _ _ _ (by decide)
    exact ⟨(still answer).socket, (still answer).addr, (still answer).offset,
      (still answer).path⟩

/-! ## Commands that open a file -/

theorem stored_ignored (restart : Restart) :
    restart.ignored.stored = restart.stored := by
  cases restart <;> rfl

theorem stored_dropped (restart : Restart) : restart.dropped.stored = 0 := by
  cases restart <;> rfl

theorem kept_ftpCmdRetr (name : Text) (other : name ≠ ascii "RNFR") :
    KeptCommand name ftpCmdRetr := by
  intro env arg record begins
  have apart := begins.apart other
  rw [ftpCmdRetr]
  split
  · exact kept_answers env record begins.noted _ (by decide)
  have still := noted_stat env record begins.noted apart (ftpAbspath env arg)
  apply kept_callThen
  · exact fun _ => trivial
  · exact still
  intro answer succeeded
  split
  · exact kept_answers env _ (still answer) _ (by decide)
  apply keeps_call
  · exact fun _ => trivial
  intro fd
  split
  · rename_i failed
    apply kept_answers _ _ _ _ rfl
    refine ⟨(still answer).socket, (still answer).addr, ?_,
      (still answer).path⟩
    simp only [note, lineRead, Record.after, Offsets.after]
    rw [if_pos failed]
    exact begins.noted.offset
  · rename_i opened
    apply kept_openTransfer
    · refine ⟨(still answer).socket, (still answer).addr, ?_,
        (still answer).path⟩
      simp only [note, lineRead, Record.after, Offsets.after]
      rw [if_neg opened, stored_ignored]
      exact begins.noted.offset
    · intro transfer member
      simp only [note, lineRead, Record.after, Offsets.after] at member
      rw [if_neg opened] at member
      cases Option.some.inj member
      refine ⟨rfl, ?_⟩
      intro appends
      contradiction
    · intro env noted
      exact noted

/-- What a `STOR` is by name. -/
def storKind (name : Text) : TransferKind :=
  if name = ascii "APPE" then .appe else .stor

section Predictions
variable (offsets : Offsets) (size : BitVec 64)

theorem predicted_stor : StartPredicted
    ((offsets.opens .stor size).seek offsets.restart.stored) where
  position := BitVec.zero_add _
  asked := by
    intro appends
    contradiction

/-- `APPE` at the size that it asked for. -/
theorem predicted_asked (asked : BitVec 64)
    (none : offsets.restart.stored = 0) (said : offsets.asked = some asked) :
    StartPredicted ((offsets.opens .appe size).seek asked) := by
  have reached : reached ((offsets.opens .appe size).seek asked) =
      if offsets.restart.stored = 0 then offsets.asked.getD 0
      else offsets.restart.stored := rfl
  refine ⟨?_, ?_⟩
  · rw [reached, if_pos none, said]
    exact BitVec.zero_add _
  · intro appends
    refine iff_of_false ?_ (not_not_intro none)
    intro unasked
    have both : some asked = Option.none := said.symm.trans unasked
    contradiction

/-- `APPE` at a stored offset. -/
theorem predicted_stored (some : offsets.restart.stored ≠ 0)
    (unasked : offsets.asked = none) : StartPredicted
      ((offsets.opens .appe size).seek offsets.restart.stored) := by
  have reached : reached ((offsets.opens .appe size).seek
      offsets.restart.stored) =
        if offsets.restart.stored = 0 then offsets.asked.getD 0
        else offsets.restart.stored := rfl
  refine ⟨?_, ?_⟩
  · rw [reached, if_neg some]
    exact BitVec.zero_add _
  · intro appends
    exact iff_of_true unasked some

end Predictions

/-- `STOR` by itself and as a part of `APPE`; the stored offset is the one at
which the transfer is predicted to begin. -/
theorem kept_stor (env : FtpEnv) (arg : Text) (record : Record)
    (socket : env.passiveFd = record.data.socket)
    (addr : env.dataAddr = record.data.portOrZero)
    (path : env.renamePath = record.source.path)
    (predicted : ∀ size, StartPredicted
      ((record.offsets.opens (storKind record.spoken.name) size).seek
        env.dataOffset)) :
    Kept (ftpCmdStor env arg) record := by
  rw [ftpCmdStor]
  split
  · apply kept_watched
    · intro answer same
      exact absurd same (by decide)
    · intro answer
      exact ⟨socket, addr, (stored_dropped _).symm, path⟩
  apply keeps_call
  · exact fun _ => trivial
  intro fd
  split
  · rename_i failed
    apply kept_fails
    refine ⟨socket, addr, ?_, path⟩
    simp only [note, lineRead, Record.after, Offsets.after]
    rw [if_pos failed, stored_dropped]
  rename_i opened
  -- the file is open, and no offset is stored
  have after : note record ⟨.acquire .file (.openWrite (ftpAbspath
      { env with dataOffset := 0 } arg)) none, fd⟩ = { record with
        offsets := { record.offsets with
          restart := .idle
          transfer := some (record.offsets.opens
            (storKind record.spoken.name) fd.data.size) } } := by
    simp only [note, lineRead, Record.after, Offsets.after, storKind]
    rw [if_neg opened]
    rfl
  rw [after]
  apply keeps_call
  · exact fun _ => trivial
  intro position
  split
  · rename_i failed
    apply kept_perror
    intro err
    apply kept_closeThenReturn _ _ _ _ .file (by decide)
    refine ⟨socket, addr, ?_, path⟩
    simp only [note, lineRead, Record.after, Offsets.after]
    rw [if_pos failed]
    rfl
  · rename_i sought
    apply kept_openTransfer
    · refine ⟨socket, addr, ?_, path⟩
      simp only [note, lineRead, Record.after, Offsets.after]
      rw [if_neg sought]
      rfl
    · intro transfer member
      simp only [note, lineRead, Record.after, Offsets.after] at member
      rw [if_neg sought] at member
      cases Option.some.inj member
      exact predicted fd.data.size
    · intro env noted
      exact noted

theorem kept_ftpCmdStor (name : Text) (other : name ≠ ascii "APPE") :
    KeptCommand name ftpCmdStor := by
  intro env arg record begins
  apply kept_stor env arg record begins.noted.socket begins.noted.addr
    begins.noted.path
  intro size
  rw [storKind, begins.name, if_neg other, begins.noted.offset]
  exact predicted_stor record.offsets size

theorem kept_ftpCmdAppe : KeptCommand (ascii "APPE") ftpCmdAppe := by
  intro env arg record begins
  have apart := begins.apart (by decide)
  have kind : storKind record.spoken.name = .appe := by
    rw [storKind, begins.name, if_pos rfl]
  have offset := begins.noted.offset
  rw [ftpCmdAppe]
  split
  · exact kept_answers env record begins.noted _ (by decide)
  split
  · rename_i zero
    have still := noted_stat env record begins.noted apart
      (ftpAbspath env arg)
    apply kept_callThen
    · exact fun _ => trivial
    · exact still
    intro answer succeeded
    have asked : (note record ⟨.plain (.stat (ftpAbspath env arg)),
        answer⟩).offsets.asked = some answer.data.size := by
      simp only [note, lineRead, Record.after, Offsets.after]
      rw [if_pos succeeded]
    apply kept_stor { env with dataOffset := answer.data.size } arg _
      (still answer).socket (still answer).addr (still answer).path
    intro size
    rw [show storKind (note record ⟨.plain (.stat (ftpAbspath env arg)),
      answer⟩).spoken.name = .appe from kind]
    exact predicted_asked _ size answer.data.size (offset.symm.trans zero)
      asked
  · rename_i nonzero
    apply kept_stor env arg record begins.noted.socket begins.noted.addr
      begins.noted.path
    intro size
    rw [kind]
    rw [offset] at nonzero ⊢
    exact predicted_stored record.offsets size nonzero begins.asked

/-! ## Sessions -/

theorem kept_commands : ∀ command ∈ commands,
    KeptCommand command.1 command.2 := by
  have dele : KeptCommand (ascii "DELE") ftpCmdDele :=
    kept_pathCommand _ _ _ _ (by decide) (by decide) fun _ _ _ =>
      ⟨trivial, rfl⟩
  have mkd : ∀ name, KeptCommand name ftpCmdMkd := fun name =>
    kept_pathCommand name _ _ _ (by decide) (by decide) fun _ _ _ =>
      ⟨trivial, rfl⟩
  have rmd : ∀ name, KeptCommand name ftpCmdRmd := fun name =>
    kept_pathCommand name _ _ _ (by decide) (by decide) fun _ _ _ =>
      ⟨trivial, rfl⟩
  have unavailable : ∀ name, KeptCommand name ftpCmdUnavailable :=
    fun name => kept_answering name _ fun _ => by decide
  have pwd : ∀ name, KeptCommand name ftpCmdPwd := fun name =>
    kept_answering name _ fun _ => rfl
  simp only [commands, List.forall_mem_cons, List.not_mem_nil, false_implies,
    implies_true, and_true]
  exact ⟨kept_ftpCmdAppe, kept_ftpCmdCdup _, kept_ftpCmdCwd _ (by decide),
    dele, kept_ftpCmdList _ (by decide), mkd _,
    kept_answering _ _ fun _ => by decide, kept_ftpCmdPasv _,
    kept_ftpCmdPort _, pwd _, kept_ftpCmdQuit _, kept_ftpCmdRest _,
    kept_ftpCmdRetr _ (by decide), rmd _, kept_ftpCmdRnfr, kept_ftpCmdRnto,
    kept_ftpCmdSize _ (by decide), kept_ftpCmdStor _ (by decide),
    kept_answering _ _ fun _ => by decide, kept_ftpCmdType _,
    kept_answering _ _ fun _ => by decide, kept_ftpCmdKill _,
    kept_answering _ _ fun _ => by decide, kept_ftpCmdChmod _,
    kept_ftpCmdCwd _ (by decide), mkd _, pwd _, rmd _, unavailable _,
    unavailable _, unavailable _, unavailable _⟩

theorem kept_execute (env : FtpEnv) (line : Text) (record : Record)
    (begins : Begins env (before ' '.toUInt8 line) (after ' '.toUInt8 line)
      record) : Kept (ftpExecute env line) record := by
  rw [ftpExecute]
  split
  · rename_i command found
    have named : command.1 = before ' '.toUInt8 line :=
      by simpa using List.find?_some found
    apply kept_commands command (List.mem_of_find?_eq_some found)
    rw [named]
    exact begins
  · exact kept_answers env record begins.noted _ (by decide)

/-- A byte that ends no line. -/
theorem note_readByte (record : Record) (fd : Int) (len : Answer Buffers)
    (none : lineRead (.use .readByte fd) len = none) :
    note record ⟨.use .readByte fd, len⟩ = record := by
  simp only [note, none]
  rfl

theorem kept_readLine (env : FtpEnv) (record : Record)
    (noted : Noted env record) : Kept (readLine env) record := by
  apply keeps_call
  · exact fun _ => trivial
  intro len
  split
  · rename_i interrupted
    have unread : lineRead (.use .readByte env.activeFd) len = none :=
      if_neg (by omega)
    rw [note_readByte record env.activeFd len unread]
    exact noted
  split
  · exact kept_finish env _
  rename_i positive
  split
  · rename_i unfinished
    have unread : lineRead (.use .readByte env.activeFd) len = none :=
      (if_pos (by omega)).trans unfinished
    rw [note_readByte record env.activeFd len unread]
    exact noted
  · rename_i line finished
    have read : lineRead (.use .readByte env.activeFd) len = some line :=
      (if_pos (by omega)).trans finished
    simp only [note, read]
    apply kept_execute
    exact ⟨⟨noted.socket, noted.addr, noted.offset, noted.path⟩, rfl, rfl,
      rfl, rfl⟩

theorem kept_body (point : Point) (record : Record)
    (enters : ready point record) : Kept (body point) record := by
  cases point with
  | serve env =>
      apply kept_silent
      · exact fun _ => ⟨trivial, rfl⟩
      intro buffer
      split
      · exact kept_finish env record
      · exact enters
  | readLine env => exact kept_readLine env record enters
  | listing env path dir =>
      exact kept_listing env record dir enters.1 path enters.2
  | retrieving env fd => exact kept_retrieving env record fd enters
  | storing env fd off => exact kept_storing env record fd enters off

theorem kept_thread (connfd : Nat) : Kept (ftpThread connfd) {} := by
  apply kept_silent
  · exact fun _ => ⟨trivial, rfl⟩
  intro answer
  split
  · exact ⟨rfl, rfl, rfl, rfl⟩
  · exact kept_finish _ _

/-- Every call of a session is one that its record predicts. -/
theorem predicted_trace (connfd : Nat) (trace : List FtpExchange)
    (rest : FtpProgram) (executes : Executes body (ftpThread connfd) trace rest) :
    EveryStep note Predicted {} trace :=
  everyStep_of_keeps body note Predicted ready kept_body _ rest trace executes
    {} (kept_thread connfd)

/-- The sessions that the server runs together execute such traces. -/
theorem sessions_traced (inUse : Nat → Bool) (events : List ServerEvent)
    (final : Server)
    (ran : run serverStep (startServer inUse) events = some final) :
    Traced body ftpThread final := by
  apply traced_run body ftpThread .active (startServer inUse) final events _ ran
  intro session member
  contradiction

/-! ## Sessions line by line -/

def given (value : Int) : Answer Buffers := ⟨value, {}⟩

/-- What lets a session read its next line. -/
def nextLine (line : String) : List (Answer Buffers) :=
  [given 0, ⟨1, { line := some (ascii line) }⟩]

/-- The calls of a session whose greeting was sent. -/
def sessionTrace (answers : List (Answer Buffers)) : List FtpExchange :=
  traceOf body (ftpThread 3) (given 0 :: answers)

theorem executes_sessionTrace (answers : List (Answer Buffers)) :
    Executes body (ftpThread 3) (sessionTrace answers)
      (restOf body (ftpThread 3) (given 0 :: answers)) :=
  executes_traceOf body (ftpThread 3) (given 0 :: answers)

end HenPlugins.Ftp.RecordedCalls
