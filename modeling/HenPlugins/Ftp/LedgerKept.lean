import HenPlugins.Ftp.ClientLedger

/-!
# The ledger of a client is true

While the answers are those of a system, each command leaves the files as its
final reply makes the client believe, and a download is what was stored.
-/

set_option autoImplicit false

namespace HenPlugins.Ftp.LedgerKept

open HenPlugins.Lib.ByteText
open HenPlugins.Lib.CallProgram
open HenPlugins.Lib.CallTrace
open HenPlugins.Lib.EventRun
open HenPlugins.Lib.FileContent
open HenPlugins.Ftp.SessionCalls
open HenPlugins.Ftp.Commands
open HenPlugins.Ftp.FtpSessions
open HenPlugins.Ftp.ClientLedger
open HenPlugins.Ftp.WorkingDirectory (cdupCwd)
open HenPlugins.Ftp.SessionRecord (FtpExchange lineRead opening restDone
  storUsage rnfrUsage rnfrDone Spoken spokenIn)
open HenPlugins.Ftp.RecordedCalls (given nextLine sessionTrace
  executes_sessionTrace)

section Sessions
variable {Node : Type} [DecidableEq Node] (node : Text → Node)
  (uploads : Nat → List UInt8)

def Good (books : Books Node) (exchange : FtpExchange) : Prop :=
  LedgerTrue node books exchange ∧ DeliversKnown node books exchange

/-! ## What stands between two commands -/

structure Settled (env : FtpEnv) (books : Books Node) : Prop where
  cwd : books.client.cwd = env.cwd
  offset : books.client.offset = env.dataOffset
  source : books.client.source = env.renamePath
  holds : Holds books.client.known books.world.entries

theorem line_ne_size {text : String} (bytes : BitVec 64) :
    Reply.line text ≠ .size bytes := by
  simp

theorem perror_ne_size (bytes : BitVec 64) : Reply.perror ≠ .size bytes := by
  simp

def verb (books : Books Node) : Verb := verbOf books.client.spoken.name

/-- The file of the command. -/
def place (books : Books Node) : Node := node books.client.path

structure Idle (env : FtpEnv) (books : Books Node) : Prop where
  settled : Settled env books
  other : verb books = .other

/-- A part of the file has arrived at the client. -/
structure Retrieving (env : FtpEnv) (books : Books Node) : Prop where
  settled : Settled env books
  verb : verb books = .retrieves
  opened : books.world.opened = some (place node books)
  isFile : ((books.world.entries (place node books)).isFile) = true
  within : books.world.position ≤ books.world.content.length
  arrived : books.world.wire.arrived =
    books.world.content.take books.world.position

/-- The client may take all other files to be what they were. -/
structure Uploading (env : FtpEnv) (books : Books Node) : Prop where
  cwd : books.client.cwd = env.cwd
  offset : env.dataOffset = 0
  source : books.client.source = env.renamePath
  apart : ∀ other, other ≠ place node books → ∀ entry,
    books.client.known other = some entry → books.world.entries other = entry
  verb : verb books = .stores ∨ verb books = .appends

/-- What the client concludes from the last reply of an upload. -/
def concluded (books : Books Node) (sent : List UInt8) : Option Entry :=
  if verb books = .appends then
    appendedTo (books.client.known (place node books)) books.client.offset sent
  else
    storedAt (books.client.known (place node books))
      books.client.offset.toNat sent

/-- The client is right about what it concludes: `old` was there, and the
upload starts at `start`. -/
def Concludes (books : Books Node) (old : List UInt8) (start : Nat) : Prop :=
  ∀ sent entry, concluded node books sent = some entry →
    entry = .file (resize 0 old start ++ sent)

/-- A part of what the client sends is in the file. -/
structure Written (books : Books Node) (old : List UInt8) (start : Nat)
    (received : List UInt8) : Prop where
  opened : books.world.opened = some (place node books)
  isFile : (books.world.entries (place node books)).isFile = true
  content : books.world.content = writeAt 0 old start received
  position : books.world.position = start + received.length
  bounded : books.world.position ≤ sizeMax
  sent : received ++ books.world.wire.left = books.world.wire.sending

structure Storing (env : FtpEnv) (off : BitVec 64) (books : Books Node) :
    Prop where
  uploading : Uploading node env books
  off : off.toNat = books.world.position
  written : ∃ old start received, Concludes node books old start ∧
    Written node books old start received

def ready : Point → Books Node → Prop
  | .serve env, books => Settled env books
  | .readLine env, books => Settled env books
  | .listing env _ _, books => Idle env books
  | .retrieving env _, books => Retrieving node env books
  | .storing env _ off, books => Storing node env off books

abbrev Kept (program : FtpProgram) (books : Books Node) : Prop :=
  KeepsWhile (note node uploads) (Possible node) (Good node) (ready node)
    program books

/-! ## Calls and replies -/

section Calls
variable (env : FtpEnv) (books : Books Node)

/-- The books behind a call that is no reply and ends no line. -/
def acted (request : Request Call Role) (answer : Answer Buffers) :
    Books Node :=
  { world := books.world.after node uploads request answer
    client := books.client }

def replied (reply : Reply) : Books Node :=
  { books with
    client := books.client.answered node books.world.wire reply }

def isCall : Request Call Role → Bool
  | .use (.reply _) _ => false
  | .use .readByte _ => false
  | _ => true

theorem note_call (request : Request Call Role) (answer : Answer Buffers)
    (call : isCall request = true) :
    note node uploads books ⟨request, answer⟩ =
      acted node uploads books request answer := by
  cases request with
  | use label fd => cases label <;> first | contradiction | rfl
  | plain label => rfl
  | acquire role label through => rfl
  | close role fd => rfl

theorem good_call (request : Request Call Role) (answer : Answer Buffers)
    (call : isCall request = true) : Good node books ⟨request, answer⟩ := by
  cases request with
  | use label fd => cases label <;> first | contradiction | exact ⟨trivial, trivial⟩
  | plain label => exact ⟨trivial, trivial⟩
  | acquire role label through => exact ⟨trivial, trivial⟩
  | close role fd => exact ⟨trivial, trivial⟩

theorem kept_call (request : Request Call Role)
    (next : Answer Buffers → FtpProgram) (call : isCall request = true)
    (later : ∀ answer, honest node books.world request answer = true →
      Kept node uploads (next answer)
        (acted node uploads books request answer)) :
    Kept node uploads (.call request next) books := by
  intro answer possible
  refine ⟨good_call node books request answer call, ?_⟩
  rw [note_call node uploads books request answer call]
  exact later answer possible

/-- A call that does nothing to the files. -/
theorem kept_idleCall (request : Request Call Role)
    (next : Answer Buffers → FtpProgram) (call : isCall request = true)
    (nothing : ∀ answer,
      books.world.after node uploads request answer = books.world)
    (later : ∀ answer, honest node books.world request answer = true →
      Kept node uploads (next answer) books) :
    Kept node uploads (.call request next) books := by
  apply kept_call node uploads books request next call
  intro answer possible
  have same : acted node uploads books request answer = books := by
    rw [acted, nothing]
  rw [same]
  exact later answer possible

theorem kept_close (role : Role) (fd : Int)
    (next : Answer Buffers → FtpProgram)
    (later : ∀ answer, Kept node uploads (next answer) books) :
    Kept node uploads (.call (.close role fd) next) books :=
  kept_idleCall node uploads books _ next rfl (fun _ => rfl) fun answer _ =>
    later answer

theorem kept_closeIfPositive (role : Role) (fd : Int) (rest : FtpProgram)
    (later : Kept node uploads rest books) :
    Kept node uploads (closeIfPositive role fd rest) books := by
  rw [closeIfPositive]
  split
  · exact kept_close node uploads books role fd _ fun _ => later
  · exact later

theorem kept_finish : Kept node uploads (finish env) books := by
  rw [finish]
  apply kept_closeIfPositive
  apply kept_closeIfPositive
  apply kept_closeIfPositive
  intro answer possible
  exact ⟨⟨trivial, trivial⟩, trivial⟩

theorem kept_returns (settled : Settled env books) (result : Int) :
    Kept node uploads (returns env result) books := by
  rw [returns]
  split
  · exact settled
  · exact kept_finish node uploads env books

/-- A reply that delivers nothing that the client knew. -/
def Delivers (reply : Reply) : Prop :=
  ∀ entry, books.client.known (place node books) = some entry →
    (verb books = .retrieves → reply = retrDone →
      entry = .file books.world.wire.arrived) ∧
    ∀ size content, verb books = .measures → reply = .size size →
      entry = .file content → size = BitVec.ofNat 64 content.length

omit [DecidableEq Node] in
theorem delivers_of_verb (reply : Reply) (retr : verb books ≠ .retrieves)
    (size : verb books ≠ .measures) : Delivers node books reply :=
  fun _ _ => ⟨fun same => absurd same retr,
    fun _ _ same => absurd same size⟩

omit [DecidableEq Node] in
theorem delivers_of_reply (reply : Reply) (retr : reply ≠ retrDone)
    (size : ∀ bytes, reply ≠ .size bytes) : Delivers node books reply :=
  fun _ _ => ⟨fun _ same => absurd same retr,
    fun bytes _ _ same => absurd same (size bytes)⟩

theorem kept_reply (reply : Reply) (next : Int → FtpProgram)
    (delivers : Delivers node books reply)
    (told : reply ≠ opening →
      Holds (replied node books reply).client.known books.world.entries)
    (later : ∀ result, Kept node uploads (next result)
      (replied node books reply)) :
    Kept node uploads (ftpActivePrintf env reply next) books := by
  intro answer possible
  exact ⟨⟨told, delivers⟩, later _⟩

/-- A final reply. -/
theorem kept_final (after : FtpEnv) (reply : Reply) (next : Int → FtpProgram)
    (delivers : Delivers node books reply)
    (settled : Settled after (replied node books reply))
    (later : ∀ result last, Settled after last →
      Kept node uploads (next result) last) :
    Kept node uploads (ftpActivePrintf env reply next) books :=
  kept_reply node uploads env books reply next delivers
    (fun _ => settled.holds) fun result => later result _ settled

theorem kept_answers (reply : Reply) (delivers : Delivers node books reply)
    (settled : Settled env (replied node books reply)) :
    Kept node uploads (answers reply env) books :=
  kept_final node uploads env books env reply _ delivers settled
    fun result last closed => kept_returns node uploads env last closed result

/-- A reply that tells the client nothing. -/
theorem settled_quiet (reply : Reply) (settled : Settled env books)
    (quiet : books.client.answered node books.world.wire reply =
      books.client) : Settled env (replied node books reply) := by
  have same : replied node books reply = books := by rw [replied, quiet]
  rw [same]
  exact settled

end Calls

/-! ## Replies that tell nothing -/

def watched : List Reply :=
  [restDone, cwdDone, retrDone, .line "226 File deleted\r\n",
    .line "226 Directory created\r\n", .line "226 Directory deleted\r\n",
    .line "226 Path renamed\r\n"]

/-- Uploads and `RNFR` change the books whatever they are answered. -/
def watchful : List Verb := [.stores, .appends, .announces]

theorem answered_quiet (books : Books Node) (reply : Reply)
    (quiet : reply ∉ watched) (calm : verb books ∉ watchful) :
    books.client.answered node books.world.wire reply = books.client := by
  simp only [watched, List.mem_cons, List.not_mem_nil, or_false, not_or]
    at quiet
  obtain ⟨rest, cwd, retr, dele, mkd, rmd, rnto⟩ := quiet
  simp only [watchful, List.mem_cons, List.not_mem_nil, or_false, not_or]
    at calm
  obtain ⟨stores, appends, announces⟩ := calm
  unfold Client.answered
  cases said : verbOf books.client.spoken.name with
  | stores => exact absurd said stores
  | appends => exact absurd said appends
  | announces => exact absurd said announces
  | rest => exact if_neg rest
  | enters => exact if_neg cwd
  | leaves => exact if_neg cwd
  | retrieves => exact if_neg retr
  | deletes => exact if_neg dele
  | makes => exact if_neg mkd
  | unmakes => exact if_neg rmd
  | renames => exact if_neg rnto
  | measures => rfl
  | other => rfl

section Quiet
variable (env : FtpEnv) (books : Books Node) (settled : Settled env books)

include settled in
theorem kept_quiet (reply : Reply) (quiet : reply ∉ watched)
    (calm : verb books ∉ watchful) (size : ∀ bytes, reply ≠ .size bytes) :
    Kept node uploads (answers reply env) books := by
  apply kept_answers
  · apply delivers_of_reply node books reply _ size
    intro retr
    rw [retr] at quiet
    exact quiet (by decide)
  · apply settled_quiet node env books reply settled
    exact answered_quiet node books reply quiet calm

include settled in
theorem kept_fails (calm : verb books ∉ watchful) :
    Kept node uploads (ftpPerror env (returns env)) books :=
  kept_quiet node uploads env books settled .perror (by decide) calm
    perror_ne_size

/-- The next point of a command that is of no interest to the client. -/
theorem kept_otherReply (reply : Reply) (next : Int → FtpProgram)
    (other : verb books = .other)
    (told : Holds books.client.known books.world.entries)
    (later : ∀ result, Kept node uploads (next result) books) :
    Kept node uploads (ftpActivePrintf env reply next) books := by
  have quiet : books.client.answered node books.world.wire reply =
      books.client := by
    rw [verb] at other
    unfold Client.answered
    rw [other]
  have same : replied node books reply = books := by rw [replied, quiet]
  apply kept_reply
  · apply delivers_of_verb node books reply
    · rw [other]
      decide
    · rw [other]
      decide
  · intro _
    rw [same]
    exact told
  · rw [same]
    exact later

theorem kept_idleAnswers (reply : Reply) (idle : Idle env books) :
    Kept node uploads (answers reply env) books :=
  kept_otherReply node uploads env books reply _ idle.other
    idle.settled.holds fun result =>
      kept_returns node uploads env books idle.settled result

theorem kept_idleFails (idle : Idle env books) :
    Kept node uploads (ftpPerror env (returns env)) books :=
  kept_idleAnswers node uploads env books .perror idle

end Quiet

/-! ## The data connection -/

section Connecting
variable (env : FtpEnv) (books : Books Node)

def connected : Books Node :=
  { books with world := books.world.connects uploads }

theorem kept_dataOpen (next : FtpEnv → Int → FtpProgram)
    (fails : ∀ fd failed, failed ≠ 0 →
      Kept node uploads (next { env with dataFd := fd } failed) books)
    (succeeds : ∀ fd, Kept node uploads (next { env with dataFd := fd } 0)
      (connected uploads books)) :
    Kept node uploads (ftpDataOpen env next) books := by
  rw [ftpDataOpen]
  split
  · apply kept_call node uploads books _ _ rfl
    intro answer possible
    split
    · rename_i failed
      have same : acted node uploads books (.use (.connect env.dataAddr)
          env.dataFd) answer = books := by
        show { books with world := if answer.value = 0 then _ else _ } = _
        rw [if_neg failed]
      rw [same]
      exact fails env.dataFd (-1) (by decide)
    · rename_i done
      have opens : acted node uploads books (.use (.connect env.dataAddr)
          env.dataFd) answer = connected uploads books := by
        show { books with world := if answer.value = 0 then _ else _ } = _
        rw [if_pos (not_not.mp done)]
        rfl
      rw [opens]
      exact succeeds env.dataFd
  · apply kept_call node uploads books _ _ rfl
    intro answer possible
    split
    · rename_i failed
      have same : acted node uploads books (.acquire .data .accept
          (some env.passiveFd)) answer = books := by
        show { books with world := if answer.value < 0 then _ else _ } = _
        rw [if_pos failed]
      rw [same]
      exact fails answer.value (-1) (by decide)
    · rename_i done
      have opens : acted node uploads books (.acquire .data .accept
          (some env.passiveFd)) answer = connected uploads books := by
        show { books with world := if answer.value < 0 then _ else _ } = _
        rw [if_neg done]
        rfl
      rw [opens]
      exact succeeds answer.value

theorem kept_dataClose (next : Int → FtpProgram)
    (later : ∀ failed, Kept node uploads (next failed) books) :
    Kept node uploads (ftpDataClose env next) books :=
  kept_close node uploads books .data env.dataFd _ fun _ => later _

end Connecting

/-! ## Commands that are of no interest -/

section Others
variable (env : FtpEnv) (books : Books Node) (idle : Idle env books)

omit [DecidableEq Node] in
/-- Only these parts of the environment are kept in step. -/
theorem Idle.congr {env : FtpEnv} {books : Books Node}
    (idle : Idle env books) (other : FtpEnv) (cwd : other.cwd = env.cwd)
    (offset : other.dataOffset = env.dataOffset)
    (source : other.renamePath = env.renamePath) : Idle other books where
  settled :=
    { cwd := idle.settled.cwd.trans cwd.symm
      offset := idle.settled.offset.trans offset.symm
      source := idle.settled.source.trans source.symm
      holds := idle.settled.holds }
  other := idle.other

include idle in
theorem kept_refusePassive : Kept node uploads (refusePassive env) books := by
  rw [refusePassive, ftpPerror]
  apply kept_otherReply node uploads env books .perror _ idle.other
    idle.settled.holds
  intro ret
  apply kept_close
  intro closed
  exact kept_returns node uploads env books idle.settled ret

include idle in
theorem kept_pasvSocket (addr : BitVec 32) :
    Kept node uploads (pasvSocket env addr) books := by
  apply kept_idleCall node uploads books _ _ rfl fun _ => rfl
  intro answer possible
  have still : Idle { env with passiveFd := answer.value } books :=
    idle.congr _ rfl rfl rfl
  split
  · exact kept_idleFails node uploads _ books still
  apply kept_idleCall node uploads books _ _ rfl fun _ => rfl
  intro bound possible
  split
  · exact kept_refusePassive node uploads _ books still
  apply kept_idleCall node uploads books _ _ rfl fun _ => rfl
  intro listening possible
  split
  · exact kept_refusePassive node uploads _ books still
  apply kept_idleCall node uploads books _ _ rfl fun _ => rfl
  intro named possible
  split
  · exact kept_refusePassive node uploads _ books still
  · exact kept_idleAnswers node uploads _ books _ still

include idle in
theorem kept_ftpCmdPasv (arg : Text) :
    Kept node uploads (ftpCmdPasv env arg) books := by
  apply kept_idleCall node uploads books _ _ rfl fun _ => rfl
  intro answer possible
  split
  · exact kept_idleFails node uploads env books idle
  · apply kept_closeIfPositive
    exact kept_pasvSocket node uploads env books idle _

include idle in
theorem kept_ftpCmdPort (arg : Text) :
    Kept node uploads (ftpCmdPort env arg) books := by
  unfold ftpCmdPort
  split
  · apply kept_idleCall node uploads books _ _ rfl fun _ => rfl
    intro answer possible
    split
    · exact kept_idleFails node uploads _ books (idle.congr _ rfl rfl rfl)
    · exact kept_idleAnswers node uploads _ books _ (idle.congr _ rfl rfl rfl)
  · exact kept_idleAnswers node uploads env books _ idle

include idle in
theorem kept_ftpCmdType (arg : Text) :
    Kept node uploads (ftpCmdType env arg) books := by
  have refused := kept_idleAnswers node uploads env books
    (.line "501 Invalid argument to TYPE\r\n") idle
  unfold ftpCmdType
  split
  · split
    · exact kept_idleAnswers node uploads _ books _ (idle.congr _ rfl rfl rfl)
    · exact refused
  · exact refused

include idle in
theorem kept_ftpCmdQuit (arg : Text) :
    Kept node uploads (ftpCmdQuit env arg) books :=
  kept_otherReply node uploads env books _ _ idle.other idle.settled.holds
    fun _ => kept_returns node uploads env books idle.settled (-1)

include idle in
theorem kept_ftpCmdChmod (arg : Text) :
    Kept node uploads (ftpCmdChmod env arg) books := by
  rw [ftpCmdChmod]
  split
  · exact kept_idleAnswers node uploads env books _ idle
  apply kept_idleCall node uploads books _ _ rfl fun _ => rfl
  intro answer possible
  split
  · exact kept_idleFails node uploads env books idle
  · exact kept_idleAnswers node uploads env books _ idle

include idle in
theorem kept_listingEnd (dir : Int) :
    Kept node uploads (listingEnd env dir) books := by
  apply kept_dataClose
  intro failed
  split
  · apply kept_otherReply node uploads env books .perror _ idle.other
      idle.settled.holds
    intro ret
    apply kept_close
    intro closed
    exact kept_returns node uploads env books idle.settled ret
  · apply kept_close
    intro closed
    split
    · exact kept_idleFails node uploads env books idle
    · exact kept_idleAnswers node uploads env books _ idle

include idle in
theorem kept_listing (path : Text) (dir : Int) :
    Kept node uploads (listing env path dir) books := by
  apply kept_idleCall node uploads books _ _ rfl fun _ => rfl
  intro ent possible
  split
  · exact kept_listingEnd node uploads env books idle dir
  apply kept_idleCall node uploads books _ _ rfl fun _ => rfl
  intro found possible
  split
  · exact idle
  apply kept_idleCall node uploads books _ _ rfl fun _ => rfl
  intro sent possible
  exact idle

include idle in
theorem kept_ftpCmdList (arg : Text) :
    Kept node uploads (ftpCmdList env arg) books := by
  apply kept_idleCall node uploads books _ _ rfl fun _ => rfl
  intro dir possible
  split
  · exact kept_idleFails node uploads env books idle
  apply kept_dataOpen
  · intro fd failed wrong
    rw [if_pos wrong]
    exact kept_idleFails node uploads _ books (idle.congr _ rfl rfl rfl)
  · intro fd
    rw [if_neg (by decide)]
    have still : Idle { env with dataFd := fd } (connected uploads books) :=
      ⟨⟨idle.settled.cwd, idle.settled.offset, idle.settled.source,
        idle.settled.holds⟩, idle.other⟩
    apply kept_otherReply node uploads _ _ _ _ still.other still.settled.holds
    exact fun _ => still

end Others

/-! ## Commands that begin -/

structure Begins (name arg : Text) (env : FtpEnv) (books : Books Node) :
    Prop where
  settled : Settled env books
  spoken : books.client.spoken = ⟨name, arg⟩

def KeptCommand (name : Text) (command : FtpCommand) : Prop :=
  ∀ env arg books, Begins name arg env books →
    Kept node uploads (command env arg) books

section Beginning
variable {name arg : Text} {env : FtpEnv} {books : Books Node}

omit [DecidableEq Node] in
theorem Begins.verb (begins : Begins name arg env books) :
    verb books = verbOf name := by
  rw [LedgerKept.verb, begins.spoken]

omit [DecidableEq Node] in
theorem Begins.path (begins : Begins name arg env books) :
    books.client.path = ftpAbspath env arg := by
  rw [Client.path, begins.spoken, begins.settled.cwd]
  rfl

omit [DecidableEq Node] in
theorem Begins.place (begins : Begins name arg env books) :
    place node books = node (ftpAbspath env arg) := by
  rw [LedgerKept.place, begins.path]

end Beginning

section Calls
variable (env : FtpEnv) (books : Books Node) (settled : Settled env books)

include settled in
/-- A call that changes nothing if it fails. -/
theorem kept_callThen (call : Call) (next : Buffers → FtpProgram)
    (calm : verb books ∉ watchful)
    (unchanged : ∀ answer : Answer Buffers, answer.value ≠ 0 →
      books.world.after node uploads (.plain call) answer = books.world)
    (later : ∀ answer : Answer Buffers,
      honest node books.world (.plain call) answer = true →
        answer.value = 0 → Kept node uploads (next answer.data)
          (acted node uploads books (.plain call) answer)) :
    Kept node uploads (callThen env call next) books := by
  apply kept_call node uploads books _ _ rfl
  intro answer possible
  split
  · rename_i failed
    have same : acted node uploads books (.plain call) answer = books := by
      rw [acted, unchanged answer failed]
    rw [same]
    exact kept_fails node uploads env books settled calm
  · rename_i succeeded
    exact later answer possible (not_not.mp succeeded)

end Calls

theorem kept_ftpCmdRest : KeptCommand node uploads (ascii "REST") ftpCmdRest := by
  intro env arg books begins
  have said : verb books = .rest := begins.verb
  rw [ftpCmdRest]
  split
  · apply kept_quiet node uploads env books begins.settled _ (by decide)
    · rw [said]
      decide
    · exact line_ne_size
  · apply kept_answers
    · exact delivers_of_reply node books restDone (by decide) line_ne_size
    · have told : books.client.answered node books.world.wire restDone =
          { books.client with offset := BitVec.ofInt 64 (strtol 10 arg) } := by
        rw [verb] at said
        unfold Client.answered
        rw [said]
        simp only [if_true, begins.spoken]
      refine ⟨?_, ?_, ?_, ?_⟩
      · exact (congrArg Client.cwd told).trans begins.settled.cwd
      · exact congrArg Client.offset told
      · exact (congrArg Client.source told).trans begins.settled.source
      · show Holds (books.client.answered node books.world.wire restDone).known _
        rw [told]
        exact begins.settled.holds

theorem kept_ftpCmdCdup : KeptCommand node uploads (ascii "CDUP") ftpCmdCdup := by
  intro env arg books begins
  have said : verb books = .leaves := begins.verb
  apply kept_answers
  · exact delivers_of_reply node books cwdDone (by decide) line_ne_size
  · have told : books.client.answered node books.world.wire cwdDone =
        { books.client with cwd := cdupCwd books.client.cwd } := by
      rw [verb] at said
      unfold Client.answered
      rw [said]
      exact if_pos rfl
    refine ⟨?_, ?_, ?_, ?_⟩
    · refine (congrArg Client.cwd told).trans ?_
      exact congrArg cdupCwd begins.settled.cwd
    · exact (congrArg Client.offset told).trans begins.settled.offset
    · exact (congrArg Client.source told).trans begins.settled.source
    · show Holds (books.client.answered node books.world.wire cwdDone).known _
      rw [told]
      exact begins.settled.holds

theorem kept_ftpCmdCwd (name : Text) (enters : verbOf name = .enters) :
    KeptCommand node uploads name ftpCmdCwd := by
  intro env arg books begins
  have said : verb books = .enters := begins.verb.trans enters
  have calm : verb books ∉ watchful := by
    rw [said]
    decide
  rw [ftpCmdCwd]
  split
  · exact kept_quiet node uploads env books begins.settled _ (by decide) calm
      line_ne_size
  apply kept_callThen node uploads env books begins.settled _ _ calm
  · exact fun _ _ => rfl
  intro answer possible found
  split
  · apply kept_answers
    · exact delivers_of_reply node _ cwdDone (by decide) line_ne_size
    · have told : books.client.answered node books.world.wire cwdDone =
          { books.client with
            cwd := snprintf pathMax (ftpAbspath env arg) } := by
        rw [verb] at said
        unfold Client.answered
        rw [said]
        simp only [if_true, begins.path]
      refine ⟨?_, ?_, ?_, ?_⟩
      · exact congrArg Client.cwd told
      · exact (congrArg Client.offset told).trans begins.settled.offset
      · exact (congrArg Client.source told).trans begins.settled.source
      · show Holds (books.client.answered node books.world.wire cwdDone).known _
        rw [told]
        exact begins.settled.holds
  · exact kept_quiet node uploads env books begins.settled _ (by decide) calm
      line_ne_size

/-! ## Commands that change the files -/

theorem holds_learn (known : Node → Option Entry) (entries : Node → Entry)
    (holds : Holds known entries) (place : Node) (entry : Entry) :
    Holds (Function.update known place (some entry))
      (Function.update entries place entry) := by
  intro other found same
  by_cases here : other = place
  · subst here
    rw [Function.update_self] at same ⊢
    exact Option.some.inj same
  · rw [Function.update_of_ne here] at same ⊢
    exact holds other found same

theorem holds_moved (known : Node → Option Entry) (entries : Node → Entry)
    (holds : Holds known entries) (source target : Node) :
    Holds (moved known (some .missing) source target)
      (moved entries .missing source target) := by
  intro other found same
  rw [moved] at same ⊢
  by_cases here : other = target
  · subst here
    rw [Function.update_self] at same ⊢
    exact holds source found same
  · rw [Function.update_of_ne here] at same ⊢
    exact holds_learn known entries holds source .missing other found same

theorem kept_pathCommand (name : Text) (usage done : String)
    (call : Text → Call) (entry : Entry)
    (quiet : Reply.line usage ∉ watched) (calm : verbOf name ∉ watchful)
    (unchanged : ∀ (world : World Node) path (answer : Answer Buffers),
      answer.value ≠ 0 →
        world.after node uploads (.plain (call path)) answer = world)
    (changed : ∀ (world : World Node) path (answer : Answer Buffers),
      answer.value = 0 →
        world.after node uploads (.plain (call path)) answer =
          world.enter (node path) entry)
    (other : Reply.line done ≠ retrDone)
    (told : ∀ (client : Client Node) wire,
      verbOf client.spoken.name = verbOf name →
        client.answered node wire (.line done) =
          client.learn (node client.path) entry) :
    KeptCommand node uploads name (pathCommand usage done call) := by
  intro env arg books begins
  have still : verb books ∉ watchful := by
    rw [begins.verb]
    exact calm
  rw [pathCommand]
  split
  · exact kept_quiet node uploads env books begins.settled _ quiet still
      line_ne_size
  apply kept_callThen node uploads env books begins.settled _ _ still
  · exact unchanged books.world _
  intro answer possible succeeded
  apply kept_answers
  · exact delivers_of_reply node _ _ other line_ne_size
  · have learnt : (replied node (acted node uploads books
        (.plain (call (ftpAbspath env arg))) answer) (.line done)).client =
          books.client.learn (node (ftpAbspath env arg)) entry := by
      rw [← begins.path]
      exact told books.client _ begins.verb
    refine ⟨?_, ?_, ?_, ?_⟩
    · exact (congrArg Client.cwd learnt).trans begins.settled.cwd
    · exact (congrArg Client.offset learnt).trans begins.settled.offset
    · exact (congrArg Client.source learnt).trans begins.settled.source
    · rw [learnt]
      show Holds _ (books.world.after node uploads
        (.plain (call (ftpAbspath env arg))) answer).entries
      rw [changed books.world _ answer succeeded]
      exact holds_learn _ _ begins.settled.holds _ _

theorem kept_ftpCmdDele : KeptCommand node uploads (ascii "DELE") ftpCmdDele := by
  apply kept_pathCommand node uploads _ _ _ _ .missing
  · decide
  · decide
  · exact fun _ _ _ failed => if_neg failed
  · exact fun _ _ _ done => if_pos done
  · decide
  · intro client wire same
    unfold Client.answered
    rw [same]
    exact if_pos rfl

theorem kept_ftpCmdMkd (name : Text) (makes : verbOf name = .makes) :
    KeptCommand node uploads name ftpCmdMkd := by
  apply kept_pathCommand node uploads _ _ _ _ .directory
  · decide
  · rw [makes]
    decide
  · exact fun _ _ _ failed => if_neg failed
  · exact fun _ _ _ done => if_pos done
  · decide
  · intro client wire same
    unfold Client.answered
    rw [same, makes]
    exact if_pos rfl

theorem kept_ftpCmdRmd (name : Text) (unmakes : verbOf name = .unmakes) :
    KeptCommand node uploads name ftpCmdRmd := by
  apply kept_pathCommand node uploads _ _ _ _ .missing
  · decide
  · rw [unmakes]
    decide
  · exact fun _ _ _ failed => if_neg failed
  · exact fun _ _ _ done => if_pos done
  · decide
  · intro client wire same
    unfold Client.answered
    rw [same, unmakes]
    exact if_pos rfl

theorem kept_ftpCmdRnfr : KeptCommand node uploads (ascii "RNFR") ftpCmdRnfr := by
  intro env arg books begins
  have said : verb books = .announces := begins.verb
  rw [verb] at said
  rw [ftpCmdRnfr]
  split
  · apply kept_answers
    · exact delivers_of_reply node books rnfrUsage (by decide) line_ne_size
    · apply settled_quiet node env books rnfrUsage begins.settled
      unfold Client.answered
      rw [said]
      exact if_pos rfl
  -- the path is announced whether it is there or not
  have announced : ∀ reply, reply ≠ rnfrUsage → Settled
      { env with renamePath := ftpAbspath env arg }
      (replied node books reply) := by
    intro reply other
    have told : books.client.answered node books.world.wire reply =
        { books.client with source := ftpAbspath env arg } := by
      unfold Client.answered
      rw [said]
      simp only [if_neg other, begins.path]
    refine ⟨?_, ?_, ?_, ?_⟩
    · exact (congrArg Client.cwd told).trans begins.settled.cwd
    · exact (congrArg Client.offset told).trans begins.settled.offset
    · exact congrArg Client.source told
    · show Holds (books.client.answered node books.world.wire reply).known _
      rw [told]
      exact begins.settled.holds
  apply kept_idleCall node uploads books _ _ rfl fun _ => rfl
  intro answer possible
  split
  · apply kept_answers
    · exact delivers_of_reply node books .perror (by decide) perror_ne_size
    · exact announced .perror (by decide)
  · apply kept_answers
    · exact delivers_of_reply node books rnfrDone (by decide) line_ne_size
    · exact announced rnfrDone (by decide)

theorem kept_ftpCmdRnto : KeptCommand node uploads (ascii "RNTO") ftpCmdRnto := by
  intro env arg books begins
  have said : verb books = .renames := begins.verb
  have calm : verb books ∉ watchful := by
    rw [said]
    decide
  rw [ftpCmdRnto]
  split
  · exact kept_quiet node uploads env books begins.settled _ (by decide) calm
      line_ne_size
  apply kept_callThen node uploads env books begins.settled _ _ calm
  · exact fun _ _ => rfl
  intro found possible there
  apply kept_callThen node uploads env books begins.settled _ _ calm
  · exact fun _ failed => if_neg failed
  intro answer possible succeeded
  apply kept_answers
  · exact delivers_of_reply node _ _ (by decide) line_ne_size
  · have told : books.client.answered node books.world.wire
        (.line "226 Path renamed\r\n") =
          { books.client with
            known := moved books.client.known (some .missing)
              (node env.renamePath) (node (ftpAbspath env arg)) } := by
      rw [verb] at said
      unfold Client.answered
      rw [said]
      simp only [if_true, begins.path, begins.settled.source]
    have learnt : (replied node (acted node uploads books
        (.plain (.rename env.renamePath (ftpAbspath env arg))) answer)
          (.line "226 Path renamed\r\n")).client =
            { books.client with
              known := moved books.client.known (some .missing)
                (node env.renamePath) (node (ftpAbspath env arg)) } := by
      rw [← told]
      show books.client.answered node (if answer.value = 0 then _ else _ :
        World Node).wire _ = _
      rw [if_pos succeeded]
    refine ⟨?_, ?_, ?_, ?_⟩
    · exact (congrArg Client.cwd learnt).trans begins.settled.cwd
    · exact (congrArg Client.offset learnt).trans begins.settled.offset
    · exact (congrArg Client.source learnt).trans begins.settled.source
    · rw [learnt]
      show Holds _ (if answer.value = 0 then _ else _ : World Node).entries
      rw [if_pos succeeded]
      exact holds_moved _ _ begins.settled.holds _ _

theorem kept_ftpCmdSize : KeptCommand node uploads (ascii "SIZE") ftpCmdSize := by
  intro env arg books begins
  have said : verb books = .measures := begins.verb
  have calm : verb books ∉ watchful := by
    rw [said]
    decide
  rw [ftpCmdSize]
  split
  · exact kept_quiet node uploads env books begins.settled _ (by decide) calm
      line_ne_size
  apply kept_callThen node uploads env books begins.settled _ _ calm
  · exact fun _ _ => rfl
  intro answer possible succeeded
  apply kept_answers
  · intro entry known
    refine ⟨fun _ same => absurd same (by simp [retrDone]), ?_⟩
    intro size content _ same file
    cases Reply.size.inj same
    have there : books.world.entries (place node books) = entry :=
      begins.settled.holds _ entry known
    have described : (books.world.entries
        (node (ftpAbspath env arg))).describes answer.data = true :=
      of_decide_eq_true possible succeeded
    rw [← begins.place node, there, file] at described
    exact (of_decide_eq_true described).2.1
  · apply settled_quiet node env books _ begins.settled
    apply answered_quiet node books _ _ calm
    simp [watched, restDone, cwdDone, retrDone]

/-! ## Transfers -/

section Transfers
variable (env : FtpEnv) (books : Books Node) (fd : Int)

/-- However the program goes on, an error is reported and the books are in
order again. -/
def MayFail : Prop :=
  ∀ next : Int → FtpProgram,
    (∀ result last, Settled env last → Kept node uploads (next result) last) →
      Kept node uploads (ftpPerror env next) books

variable (mayFail : MayFail node uploads env books)

include mayFail in
theorem kept_perrorClose :
    Kept node uploads (ftpPerror env fun err =>
      .call (.close .file fd) fun _ => returns env err) books := by
  apply mayFail
  intro result last settled
  exact kept_close node uploads last .file fd _ fun _ =>
    kept_returns node uploads env last settled result

include mayFail in
theorem kept_breakOff : Kept node uploads (breakOff env fd) books := by
  apply mayFail
  intro result last settled
  apply kept_dataClose
  intro failed
  exact kept_close node uploads last .file fd _ fun _ =>
    kept_returns node uploads env last settled result

include mayFail in
theorem kept_closeBoth (reply : Reply)
    (delivers : Delivers node books reply)
    (settled : Settled env (replied node books reply)) :
    Kept node uploads (closeBoth env fd reply) books := by
  apply kept_close
  intro closed
  apply kept_dataClose
  intro failed
  split
  · apply mayFail
    exact fun result last closed => kept_returns node uploads env last closed result
  · exact kept_answers node uploads env books reply delivers settled

/-- `opening` tells the client nothing. -/
theorem kept_openTransfer (loop : FtpEnv → Point)
    (quiet : books.client.answered node books.world.wire opening =
      books.client)
    (fails : ∀ other,
      MayFail node uploads { env with dataFd := other } books)
    (enters : ∀ other, ready node (loop { env with dataFd := other })
      (connected uploads books)) :
    Kept node uploads (openTransfer env fd loop) books := by
  have same : replied node books opening = books := by rw [replied, quiet]
  apply kept_reply
  · exact delivers_of_reply node books opening (by decide) line_ne_size
  · exact fun final => absurd rfl final
  intro result
  show Kept node uploads _ (replied node books opening)
  rw [same]
  split
  · apply kept_close
    intro closed
    exact kept_finish node uploads env books
  · apply kept_dataOpen
    · intro other failed wrong
      rw [if_pos wrong]
      exact kept_perrorClose node uploads _ books fd (fails other)
    · intro other
      rw [if_neg (by decide)]
      exact enters other

end Transfers

/-! ## Downloads -/

section Downloads
variable (env : FtpEnv) (books : Books Node)

theorem mayFail_of_settled (settled : Settled env books)
    (calm : verb books ∉ watchful) : MayFail node uploads env books := by
  intro next later
  apply kept_final node uploads env books env .perror next
  · exact delivers_of_reply node books .perror (by decide) perror_ne_size
  · apply settled_quiet node env books .perror settled
    exact answered_quiet node books .perror (by decide) calm
  · exact later

theorem isFile_iff (entry : Entry) :
    entry.isFile = true ↔ entry = .file entry.content := by
  cases entry with
  | missing => exact iff_of_false (by simp [Entry.isFile]) (by simp)
  | directory => exact iff_of_false (by simp [Entry.isFile]) (by simp)
  | file content => exact iff_of_true rfl rfl

omit [DecidableEq Node] in
theorem content_of_opened (world : World Node) (file : Node)
    (opened : world.opened = some file) :
    world.content = (world.entries file).content := by
  rw [World.content, opened]

/-- The whole file has arrived. -/
theorem kept_retrieved (settled : Settled env books)
    (said : verb books = .retrieves)
    (opened : books.world.opened = some (place node books))
    (isFile : (books.world.entries (place node books)).isFile = true)
    (whole : books.world.wire.arrived = books.world.content) (fd : Int) :
    Kept node uploads (closeBoth env fd retrDone) books := by
  have there : books.world.entries (place node books) =
      .file books.world.wire.arrived := by
    rw [whole, content_of_opened books.world _ opened]
    exact (isFile_iff _).mp isFile
  apply kept_closeBoth
  · apply mayFail_of_settled node uploads env books settled
    rw [said]
    decide
  · intro entry known
    refine ⟨fun _ _ => ?_, fun _ _ same => ?_⟩
    · rw [← settled.holds _ entry known, there]
    · rw [said] at same
      contradiction
  · have told : books.client.answered node books.world.wire retrDone =
        books.client.learn (place node books)
          (.file books.world.wire.arrived) := by
      rw [verb] at said
      unfold Client.answered
      rw [said]
      exact if_pos rfl
    refine ⟨?_, ?_, ?_, ?_⟩
    · exact (congrArg Client.cwd told).trans settled.cwd
    · exact (congrArg Client.offset told).trans settled.offset
    · exact (congrArg Client.source told).trans settled.source
    · show Holds (books.client.answered node books.world.wire retrDone).known _
      rw [told]
      have learnt := holds_learn _ _ settled.holds (place node books)
        (.file books.world.wire.arrived)
      rw [← there, Function.update_eq_self] at learnt
      rw [← there]
      exact learnt

theorem kept_retrieving (halfway : Retrieving node env books) (fd : Int) :
    Kept node uploads (retrieving env fd) books := by
  have settled := halfway.settled
  have calm : verb books ∉ watchful := by
    rw [halfway.verb]
    decide
  apply kept_call node uploads books _ _ rfl
  intro len possible
  obtain ⟨atEnd, available⟩ := of_decide_eq_true possible
  split
  · rename_i zero
    refine kept_retrieved node uploads env
      (acted node uploads books (.use .readFile fd) len)
      ⟨settled.cwd, settled.offset, settled.source, settled.holds⟩
      halfway.verb halfway.opened halfway.isFile ?_ fd
    show books.world.wire.arrived = books.world.content
    rw [halfway.arrived, List.take_of_length_le (atEnd zero)]
  split
  · apply kept_breakOff
    exact mayFail_of_settled node uploads env _
      ⟨settled.cwd, settled.offset, settled.source, settled.holds⟩ calm
  rename_i nonzero nonnegative
  apply kept_call node uploads _ _ _ rfl
  intro written bounded
  split
  · apply kept_breakOff
    exact mayFail_of_settled node uploads env _
      ⟨settled.cwd, settled.offset, settled.source, settled.holds⟩ calm
  · rename_i all
    have within := halfway.within
    refine ⟨⟨settled.cwd, settled.offset, settled.source, settled.holds⟩,
      halfway.verb, halfway.opened, halfway.isFile, ?_, ?_⟩
    · show books.world.position + len.value.toNat ≤ books.world.content.length
      omega
    · show books.world.wire.arrived ++
          ((books.world.content.drop books.world.position).take
            len.value.toNat).take written.value.toNat =
        books.world.content.take (books.world.position + len.value.toNat)
      rw [← not_not.mp all, List.take_take, Nat.min_self, halfway.arrived,
        List.take_add]

theorem kept_ftpCmdRetr : KeptCommand node uploads (ascii "RETR") ftpCmdRetr := by
  intro env arg books begins
  have settled := begins.settled
  have said : verb books = .retrieves := begins.verb
  have calm : verb books ∉ watchful := by
    rw [said]
    decide
  rw [ftpCmdRetr]
  split
  · exact kept_quiet node uploads env books settled _ (by decide) calm
      line_ne_size
  apply kept_callThen node uploads env books settled _ _ calm
  · exact fun _ _ => rfl
  intro st possible succeeded
  split
  · exact kept_quiet node uploads env books settled _ (by decide) calm
      line_ne_size
  rename_i file
  have isFile : (books.world.entries (place node books)).isFile = true := by
    have described : (books.world.entries
        (node (ftpAbspath env arg))).describes st.data = true :=
      of_decide_eq_true possible succeeded
    rw [begins.place]
    cases entry : books.world.entries (node (ftpAbspath env arg)) with
    | missing =>
        rw [entry] at described
        contradiction
    | directory =>
        rw [entry] at described
        exact absurd described file
    | file content => rfl
  apply kept_call node uploads books _ _ rfl
  intro fd possible
  split
  · rename_i failed
    have same : acted node uploads books (.acquire .file
        (.openRead (ftpAbspath env arg)) none) fd = books := by
      show { books with world := if fd.value < 0 then _ else _ } = _
      rw [if_pos failed]
    show Kept node uploads _ (acted node uploads books (.acquire .file
      (.openRead (ftpAbspath env arg)) none) fd)
    rw [same]
    exact kept_quiet node uploads env books settled _ (by decide) calm
      perror_ne_size
  · rename_i done
    have opens : acted node uploads books (.acquire .file
        (.openRead (ftpAbspath env arg)) none) fd =
          { books with world := books.world.opens (place node books) } := by
      show { books with world := if fd.value < 0 then _ else _ } = _
      rw [if_neg done, begins.place]
    show Kept node uploads _ (acted node uploads books (.acquire .file
      (.openRead (ftpAbspath env arg)) none) fd)
    rw [opens]
    apply kept_openTransfer
    · exact answered_quiet node _ opening (by decide) calm
    · intro other
      exact mayFail_of_settled node uploads _ _
        ⟨settled.cwd, settled.offset, settled.source, settled.holds⟩ calm
    · intro other
      exact ⟨⟨settled.cwd, settled.offset, settled.source, settled.holds⟩,
        said, rfl, isFile, Nat.zero_le _, rfl⟩

end Downloads

/-! ## Uploads -/

section Uploads
variable (env : FtpEnv) (books : Books Node)

/-- Replies that do not end the transfer of an upload. -/
def preliminary : List Reply := [opening, storUsage, appeUsage]

theorem answered_upload (reply : Reply)
    (kind : verb books = .stores ∨ verb books = .appends)
    (final : reply ∉ preliminary) :
    books.client.answered node books.world.wire reply =
      books.client.uploaded (place node books)
        (concluded node books books.world.wire.sending) reply := by
  simp only [preliminary, List.mem_cons, List.not_mem_nil, or_false, not_or]
    at final
  obtain ⟨opens, stor, appe⟩ := final
  unfold Client.answered
  rcases kind with stores | appends
  · have apart : verb books ≠ .appends := by
      rw [stores]
      decide
    simp only [concluded, if_neg apart]
    rw [verb] at stores
    rw [stores]
    simp only [if_neg opens, if_neg stor]
    rfl
  · simp only [concluded, if_pos appends]
    rw [verb] at appends
    rw [appends]
    simp only [if_neg (not_or.mpr ⟨opens, appe⟩)]
    rfl

theorem settled_uploaded (uploading : Uploading node env books)
    (reply : Reply) (final : reply ∉ preliminary)
    (right : reply = storDone → ∀ entry,
      concluded node books books.world.wire.sending = some entry →
        books.world.entries (place node books) = entry) :
    Settled env (replied node books reply) := by
  have told := answered_upload node books reply uploading.verb final
  refine ⟨?_, ?_, ?_, ?_⟩
  · exact (congrArg Client.cwd told).trans uploading.cwd
  · exact (congrArg Client.offset told).trans uploading.offset.symm
  · exact (congrArg Client.source told).trans uploading.source
  · show Holds (books.client.answered node books.world.wire reply).known _
    rw [told]
    intro other entry known
    simp only [Client.uploaded] at known
    by_cases here : other = place node books
    · subst here
      rw [Function.update_self] at known
      split at known
      · rename_i done
        exact right done entry known
      · contradiction
    · rw [Function.update_of_ne here] at known
      exact uploading.apart other here entry known

theorem mayFail_of_uploading (uploading : Uploading node env books) :
    MayFail node uploads env books := by
  intro next later
  apply kept_final node uploads env books env .perror next
  · exact delivers_of_reply node books .perror (by decide) perror_ne_size
  · exact settled_uploaded node env books uploading .perror (by decide)
      fun stored => absurd stored (by simp [storDone])
  · exact later

omit [DecidableEq Node] in
/-- Only the file of the upload changes. -/
theorem Uploading.acts {env : FtpEnv} {books : Books Node}
    (uploading : Uploading node env books) (world : World Node)
    (same : ∀ other, other ≠ place node books →
      world.entries other = books.world.entries other) :
    Uploading node env { books with world := world } where
  cwd := uploading.cwd
  offset := uploading.offset
  source := uploading.source
  apart := fun other apart entry known =>
    (same other apart).trans (uploading.apart other apart entry known)
  verb := uploading.verb

theorem entries_write (world : World Node) (file : Node)
    (opened : world.opened = some file) (content : List UInt8) :
    (world.write content).entries =
      Function.update world.entries file (.file content) := by
  rw [World.write, opened]

theorem opened_write (world : World Node) (content : List UInt8) :
    (world.write content).opened = world.opened := by
  unfold World.write
  split <;> rfl

theorem wire_write (world : World Node) (content : List UInt8) :
    (world.write content).wire = world.wire := by
  unfold World.write
  split <;> rfl

theorem content_write (world : World Node) (file : Node)
    (opened : world.opened = some file) (content : List UInt8) :
    (world.write content).content = content := by
  rw [content_of_opened _ file ((opened_write world content).trans opened),
    entries_write world file opened, Function.update_self, Entry.content]

theorem acted_ftruncate (off : BitVec 64) (fd : Int) (cut : Answer Buffers)
    (succeeded : cut.value = 0) :
    acted node uploads books (.use (.ftruncate off) fd) cut =
      { books with
        world := books.world.write
          (resize 0 books.world.content off.toNat) } := by
  show ({ world := if cut.value = 0 then _ else _, client := _ } :
    Books Node) = _
  rw [if_pos succeeded]

section Storing
variable (off : BitVec 64) (halfway : Storing node env off books) (fd : Int)

include halfway in
/-- All that the client sends is in the file, which is cut behind it. -/
theorem kept_stored (ended : books.world.wire.left = []) :
    Kept node uploads (closeBoth env fd storDone)
      { books with
        world := books.world.write
          (resize 0 books.world.content off.toNat) } := by
  obtain ⟨old, start, received, concludes, written⟩ := halfway.written
  have all := written.sent
  rw [ended, List.append_nil] at all
  have cut : resize 0 books.world.content off.toNat =
      resize 0 old start ++ books.world.wire.sending := by
    rw [halfway.off, written.content, written.position, resize_writeAt, all]
  have entries := entries_write books.world _ written.opened
    (resize 0 books.world.content off.toNat)
  have uploading := halfway.uploading.acts node
    (books.world.write (resize 0 books.world.content off.toNat)) (by
      intro other apart
      rw [entries, Function.update_of_ne apart])
  apply kept_closeBoth
  · exact mayFail_of_uploading node uploads env _ uploading
  · apply delivers_of_verb
    · rcases uploading.verb with said | said <;> rw [said] <;> decide
    · rcases uploading.verb with said | said <;> rw [said] <;> decide
  · apply settled_uploaded node env _ uploading storDone (by decide)
    intro _ entry known
    rw [wire_write] at known
    have right := concludes _ entry known
    show (books.world.write _).entries (place node books) = entry
    rw [entries, Function.update_self, right, cut]

include halfway in
/-- One block. -/
theorem storing_step (len written : Answer Buffers)
    (received : honest node books.world (.use .recv env.dataFd) len = true)
    (possible : honest node
      (books.world.after node uploads (.use .recv env.dataFd) len)
      (.use (.writeFile len.value) fd) written = true)
    (all : written.value = len.value) :
    Storing node env (off + BitVec.ofInt 64 len.value)
      (acted node uploads (acted node uploads books (.use .recv env.dataFd) len)
        (.use (.writeFile len.value) fd) written) := by
  obtain ⟨nonnegative, -, available⟩ := of_decide_eq_true received
  obtain ⟨-, bounded⟩ := of_decide_eq_true possible
  obtain ⟨old, start, before, concludes, kept⟩ := halfway.written
  obtain ⟨count, same⟩ := Int.eq_ofNat_of_zero_le nonnegative
  rw [all, same] at bounded
  rw [same] at available
  have inside : count ≤ books.world.wire.left.length := by omega
  have fits : books.world.position + count ≤ sizeMax := by
    have short : (books.world.position : Int) + count ≤ sizeMax := bounded
    omega
  -- the world behind `recv`, which leaves the file as it is
  have opened : (books.world.after node uploads (.use .recv env.dataFd)
      len).opened = some (place node books) := kept.opened
  have data : ((books.world.wire.left.take len.value.toNat).take
      written.value.toNat) = books.world.wire.left.take count := by
    rw [all, same, Int.toNat_natCast, List.take_take, Nat.min_self]
  have length : (books.world.wire.left.take count).length = count := by
    rw [List.length_take, Nat.min_eq_left inside]
  have entries := entries_write (books.world.after node uploads
    (.use .recv env.dataFd) len) _ opened
    (writeAt 0 books.world.content books.world.position
      ((books.world.wire.left.take len.value.toNat).take written.value.toNat))
  refine ⟨?_, ?_, old, start, before ++ books.world.wire.left.take count,
    concludes, ?_⟩
  · apply halfway.uploading.acts node
    intro other apart
    show (World.write _ _).entries other = _
    exact (congrFun entries other).trans (Function.update_of_ne apart _ _)
  · show (off + BitVec.ofInt 64 len.value).toNat =
      books.world.position + written.value.toNat
    rw [all, same, BitVec.toNat_add, BitVec.ofInt_natCast,
      BitVec.toNat_ofNat, halfway.off, Int.toNat_natCast]
    rw [sizeMax] at fits
    omega
  · refine ⟨?_, ?_, ?_, ?_, ?_, ?_⟩
    · exact (opened_write _ _).trans opened
    · have there := congrArg Entry.isFile (congrFun entries (place node books))
      rw [Function.update_self] at there
      exact there
    · refine (content_write _ _ opened _).trans ?_
      show writeAt 0 books.world.content books.world.position
        ((books.world.wire.left.take len.value.toNat).take
          written.value.toNat) = _
      rw [data, kept.content, kept.position, writeAt_append]
    · show books.world.position + written.value.toNat = _
      rw [all, same, Int.toNat_natCast, List.length_append, length,
        kept.position, Nat.add_assoc]
    · show books.world.position + written.value.toNat ≤ sizeMax
      rw [all, same, Int.toNat_natCast]
      exact fits
    · show _ ++ (World.write _ _).wire.left = (World.write _ _).wire.sending
      rw [wire_write]
      show before ++ books.world.wire.left.take count ++
        books.world.wire.left.drop len.value.toNat = books.world.wire.sending
      rw [same, Int.toNat_natCast, List.append_assoc, List.take_append_drop]
      exact kept.sent

include halfway in
theorem kept_storing : Kept node uploads (storing env fd off) books := by
  apply kept_call node uploads books _ _ rfl
  intro len received
  obtain ⟨nonnegative, ended, available⟩ := of_decide_eq_true received
  split
  · rename_i zero
    -- nothing was received
    have behind : Storing node env off
        (acted node uploads books (.use .recv env.dataFd) len) := by
      obtain ⟨old, start, before, concludes, kept⟩ := halfway.written
      refine ⟨halfway.uploading.acts node _ fun _ _ => rfl, halfway.off, old,
        start, before, concludes, kept.opened, kept.isFile, kept.content,
        kept.position, kept.bounded, ?_⟩
      show before ++ books.world.wire.left.drop len.value.toNat = _
      rw [zero]
      exact kept.sent
    have nothing : (acted node uploads books (.use .recv env.dataFd)
        len).world.wire.left = [] := by
      show books.world.wire.left.drop len.value.toNat = []
      rw [ended zero, List.drop_nil]
    apply kept_call node uploads _ _ _ rfl
    intro cut possible
    split
    · rename_i failed
      apply kept_breakOff
      apply mayFail_of_uploading
      apply behind.uploading.acts node
      intro other apart
      show (if cut.value = 0 then _ else _ : World Node).entries other = _
      rw [if_neg failed]
    · rename_i succeeded
      have stored := kept_stored node uploads env _ off behind fd nothing
      rw [acted_ftruncate node uploads _ off fd cut (not_not.mp succeeded)]
      exact stored
  · apply kept_call node uploads _ _ _ rfl
    intro written possible
    split
    · apply kept_breakOff
      apply mayFail_of_uploading
      obtain ⟨old, start, before, concludes, kept⟩ := halfway.written
      have opened : (books.world.after node uploads (.use .recv env.dataFd)
          len).opened = some (place node books) := kept.opened
      apply halfway.uploading.acts node
      intro other apart
      exact (congrFun (entries_write (books.world.after node uploads
        (.use .recv env.dataFd) len) _ opened _) other).trans
          (Function.update_of_ne apart _ _)
    · rename_i all
      exact storing_step node uploads env books off halfway fd len written
        received possible (not_not.mp all)

end Storing

/-- `STOR` once its name has been given; `APPE` comes here too. -/
theorem kept_ftpCmdStor_named (env : FtpEnv) (books : Books Node) (arg : Text)
    (named : arg ≠ [])
    (uploading : Uploading node { env with dataOffset := 0 } books)
    (here : place node books = node (ftpAbspath env arg))
    (concludes : books.world.entries (place node books) ≠ .directory →
      Concludes node books (books.world.entries (place node books)).content
        env.dataOffset.toNat) :
    Kept node uploads (ftpCmdStor env arg) books := by
  unfold ftpCmdStor
  simp only [if_neg named]
  apply kept_call node uploads books _ _ rfl
  intro fd possible
  split
  · rename_i failed
    have same : acted node uploads books (.acquire .file
        (.openWrite (ftpAbspath env arg)) none) fd = books := by
      show { books with world := if fd.value < 0 then _ else _ } = _
      rw [if_pos failed]
    show Kept node uploads _ (acted node uploads books (.acquire .file
      (.openWrite (ftpAbspath env arg)) none) fd)
    rw [same]
    apply mayFail_of_uploading node uploads _ books uploading
    exact fun result last closed => kept_returns node uploads _ last closed result
  rename_i done
  have apart : books.world.entries (place node books) ≠ .directory := by
    rw [here]
    exact of_decide_eq_true possible (by omega)
  have opens : acted node uploads books (.acquire .file
      (.openWrite (ftpAbspath env arg)) none) fd =
        { books with
          world := (books.world.enter (place node books)
            (.file (books.world.entries (place node books)).content)).opens
              (place node books) } := by
    show { books with world := if fd.value < 0 then _ else _ } = _
    rw [if_neg done, here]
  show Kept node uploads _ (acted node uploads books (.acquire .file
    (.openWrite (ftpAbspath env arg)) none) fd)
  rw [opens]
  have still : ∀ world : World Node,
      world.entries = Function.update books.world.entries (place node books)
        (.file (books.world.entries (place node books)).content) →
      ∀ dataFd, Uploading node { env with dataFd := dataFd, dataOffset := 0 }
        { books with world := world } := by
    intro world entries dataFd
    have acts := uploading.acts node world (by
      intro other outside
      rw [entries, Function.update_of_ne outside])
    exact ⟨acts.cwd, acts.offset, acts.source, acts.apart, acts.verb⟩
  apply kept_call node uploads _ _ _ rfl
  intro position possible
  split
  · rename_i failed
    apply kept_perrorClose
    apply mayFail_of_uploading
    refine still _ ?_ env.dataFd
    show (if position.value < 0 then _ else _ : World Node).entries = _
    rw [if_pos failed]
    rfl
  rename_i seeks
  have seekable : 0 ≤ env.dataOffset.toInt :=
    of_decide_eq_true possible (by omega)
  -- the file as it was, and the offset in it
  have seeks : ∀ world : World Node,
      ({ books with
        world := { world with position := world.position +
          env.dataOffset.toNat } } : Books Node) =
        acted node uploads { books with world := world }
          (.use (.lseek env.dataOffset) fd.value) position := by
    intro world
    show _ = ({
      world := if position.value < 0 then _ else _, client := _ } : Books Node)
    rw [if_neg seeks]
  rw [← seeks]
  apply kept_openTransfer
  · show books.client.answered node books.world.wire opening = books.client
    have said := uploading.verb
    rw [verb] at said
    unfold Client.answered
    rcases said with stores | appends
    · rw [stores]
      exact if_pos rfl
    · rw [appends]
      exact if_pos (Or.inl rfl)
  · intro other
    apply mayFail_of_uploading
    exact still _ rfl other
  · intro other
    refine ⟨still _ rfl other, ?_,
      (books.world.entries (place node books)).content, env.dataOffset.toNat,
      [], concludes apart, ?_⟩
    · exact (Nat.zero_add _).symm
    · refine ⟨rfl, ?_, ?_, ?_, ?_, rfl⟩
      · show ((Function.update books.world.entries (place node books) _)
          (place node books)).isFile = true
        rw [Function.update_self]
        rfl
      · show ((Function.update books.world.entries (place node books) _)
          (place node books)).content = _
        rw [Function.update_self, writeAt, if_pos rfl]
        rfl
      · exact Nat.zero_add _
      · show 0 + env.dataOffset.toNat ≤ sizeMax
        rw [sizeMax]
        have small := BitVec.toInt_pos_iff.mp seekable
        omega

theorem storedAt_right (known : Option Entry) (there : Entry)
    (holds : ∀ entry, known = some entry → there = entry) (start : Nat)
    (sent : List UInt8) (entry : Entry)
    (stored : storedAt known start sent = some entry) :
    entry = .file (resize 0 there.content start ++ sent) := by
  cases known with
  | some believed =>
      rw [holds believed rfl]
      exact (Option.some.inj stored).symm
  | none =>
      rw [storedAt] at stored
      split at stored
      · rename_i zero
        have empty : resize 0 there.content 0 = [] :=
          List.eq_nil_of_length_eq_zero (length_resize 0 _ 0)
        rw [zero, empty]
        exact (Option.some.inj stored).symm
      · contradiction

omit [DecidableEq Node] in
/-- The client may take the file to be what it was. -/
theorem uploading_of_settled (env : FtpEnv) (books : Books Node)
    (settled : Settled env books) (zero : env.dataOffset = 0)
    (kind : verb books = .stores ∨ verb books = .appends) :
    Uploading node env books :=
  ⟨settled.cwd, zero, settled.source, fun other _ entry known =>
    settled.holds other entry known, kind⟩

theorem kept_ftpCmdStor : KeptCommand node uploads (ascii "STOR") ftpCmdStor := by
  intro env arg books begins
  have settled := begins.settled
  have said : verb books = .stores := begins.verb
  by_cases unnamed : arg = []
  · unfold ftpCmdStor
    simp only [if_pos unnamed]
    apply kept_answers
    · exact delivers_of_reply node books storUsage (by decide) line_ne_size
    · have told : books.client.answered node books.world.wire storUsage =
          { books.client with offset := 0 } := by
        rw [verb] at said
        unfold Client.answered
        rw [said]
        rfl
      refine ⟨?_, ?_, ?_, ?_⟩
      · exact (congrArg Client.cwd told).trans settled.cwd
      · exact congrArg Client.offset told
      · exact (congrArg Client.source told).trans settled.source
      · show Holds (books.client.answered node books.world.wire
          storUsage).known _
        rw [told]
        exact settled.holds
  · apply kept_ftpCmdStor_named node uploads env books arg unnamed
    · exact ⟨settled.cwd, rfl, settled.source, fun other _ entry known =>
        settled.holds other entry known, Or.inl said⟩
    · exact begins.place node
    · intro _ sent entry concluded
      rw [LedgerKept.concluded, if_neg (by rw [said]; decide),
        settled.offset] at concluded
      exact storedAt_right _ _ (settled.holds _) _ sent entry concluded

omit [DecidableEq Node] in
/-- Where no offset is stored, the upload starts at the end of the file. -/
theorem concludes_appends (books : Books Node) (st : Buffers)
    (said : verb books = .appends) (zero : books.client.offset = 0)
    (holds : Holds books.client.known books.world.entries)
    (described :
      (books.world.entries (place node books)).describes st = true)
    (apart : books.world.entries (place node books) ≠ .directory) :
    Concludes node books (books.world.entries (place node books)).content
      st.size.toNat := by
  intro sent entry concluded
  rw [LedgerKept.concluded, if_pos said, appendedTo, if_pos zero] at concluded
  cases there : books.world.entries (place node books) with
  | missing =>
      rw [there] at described
      contradiction
  | directory => exact absurd there apart
  | file content =>
      rw [there] at described
      obtain ⟨-, size, short⟩ := of_decide_eq_true described
      have length : st.size.toNat = content.length := by
        rw [size, BitVec.toNat_ofNat]
        rw [sizeMax] at short
        omega
      obtain ⟨believed, known, rfl⟩ := Option.map_eq_some_iff.mp concluded
      have same := holds _ believed known
      rw [there] at same
      subst same
      rw [Entry.content, length, resize_within 0 _ _ (Nat.le_refl _),
        List.take_length]

theorem kept_ftpCmdAppe : KeptCommand node uploads (ascii "APPE") ftpCmdAppe := by
  intro env arg books begins
  have settled := begins.settled
  have said : verb books = .appends := begins.verb
  have uploading : Uploading node { env with dataOffset := 0 } books :=
    ⟨settled.cwd, rfl, settled.source, fun other _ entry known =>
      settled.holds other entry known, Or.inr said⟩
  rw [ftpCmdAppe]
  split
  · apply kept_answers
    · exact delivers_of_reply node books appeUsage (by decide) line_ne_size
    · apply settled_quiet node env books appeUsage settled
      rw [verb] at said
      unfold Client.answered
      rw [said]
      exact if_pos (Or.inr rfl)
  rename_i named
  split
  · rename_i zero
    apply kept_idleCall node uploads books _ _ rfl fun _ => rfl
    intro st possible
    split
    · apply mayFail_of_uploading node uploads env books
      · exact uploading_of_settled node env books settled zero (Or.inr said)
      · exact fun result last closed =>
          kept_returns node uploads env last closed result
    · rename_i found
      refine kept_ftpCmdStor_named node uploads
        { env with dataOffset := st.data.size } books arg named uploading
        (begins.place node) ?_
      apply concludes_appends node books st.data said
      · rw [settled.offset, zero]
      · exact settled.holds
      · rw [begins.place]
        exact of_decide_eq_true possible (not_not.mp found)
  · rename_i resumed
    apply kept_ftpCmdStor_named node uploads env books arg named uploading
    · exact begins.place node
    · intro _ sent entry concluded
      rw [LedgerKept.concluded, if_pos said, appendedTo, settled.offset,
        if_neg resumed] at concluded
      exact storedAt_right _ _ (settled.holds _) _ sent entry concluded

end Uploads

/-! ## Sessions -/

section Running

theorem kept_others (name : Text) (command : FtpCommand)
    (other : verbOf name = .other)
    (keeps : ∀ env arg books, Idle env books →
      Kept node uploads (command env arg) books) :
    KeptCommand node uploads name command := by
  intro env arg books begins
  exact keeps env arg books ⟨begins.settled, begins.verb.trans other⟩

theorem kept_commands : ∀ command ∈ commands,
    KeptCommand node uploads command.1 command.2 := by
  have answer : ∀ (name : Text) (reply : FtpEnv → Reply),
      verbOf name = .other →
        KeptCommand node uploads name fun env _ => answers (reply env) env :=
    fun name reply other => kept_others node uploads name _ other
      fun env _ books idle =>
        kept_idleAnswers node uploads env books (reply env) idle
  have list := kept_others node uploads (ascii "LIST") ftpCmdList rfl
    fun env arg books idle => kept_ftpCmdList node uploads env books idle arg
  have pasv := kept_others node uploads (ascii "PASV") ftpCmdPasv rfl
    fun env arg books idle => kept_ftpCmdPasv node uploads env books idle arg
  have port := kept_others node uploads (ascii "PORT") ftpCmdPort rfl
    fun env arg books idle => kept_ftpCmdPort node uploads env books idle arg
  have quit := kept_others node uploads (ascii "QUIT") ftpCmdQuit rfl
    fun env arg books idle => kept_ftpCmdQuit node uploads env books idle arg
  have type := kept_others node uploads (ascii "TYPE") ftpCmdType rfl
    fun env arg books idle => kept_ftpCmdType node uploads env books idle arg
  have kill := kept_others node uploads (ascii "KILL") ftpCmdKill rfl
    fun _ _ _ _ => trivial
  have chmod := kept_others node uploads (ascii "CHMOD") ftpCmdChmod rfl
    fun env arg books idle => kept_ftpCmdChmod node uploads env books idle arg
  simp only [commands, List.forall_mem_cons, List.not_mem_nil, false_implies,
    implies_true, and_true]
  exact ⟨kept_ftpCmdAppe node uploads, kept_ftpCmdCdup node uploads,
    kept_ftpCmdCwd node uploads _ rfl, kept_ftpCmdDele node uploads, list,
    kept_ftpCmdMkd node uploads _ rfl, answer _ _ rfl, pasv, port,
    answer _ _ rfl, quit, kept_ftpCmdRest node uploads,
    kept_ftpCmdRetr node uploads, kept_ftpCmdRmd node uploads _ rfl,
    kept_ftpCmdRnfr node uploads, kept_ftpCmdRnto node uploads,
    kept_ftpCmdSize node uploads, kept_ftpCmdStor node uploads,
    answer _ _ rfl, type, answer _ _ rfl, kill, answer _ _ rfl, chmod,
    kept_ftpCmdCwd node uploads _ rfl, kept_ftpCmdMkd node uploads _ rfl,
    answer _ _ rfl, kept_ftpCmdRmd node uploads _ rfl, answer _ _ rfl,
    answer _ _ rfl, answer _ _ rfl, answer _ _ rfl⟩

/-- The client names only commands that are there. -/
theorem verbs_subset : ∀ verb ∈ verbs, ∃ command ∈ commands,
    command.1 = verb.1 := by
  decide

theorem verbOf_unknown (name : Text)
    (unknown : commands.find? (fun command => command.1 = name) = none) :
    verbOf name = .other := by
  have missing : verbs.find? (fun verb => verb.1 = name) = none := by
    rw [List.find?_eq_none] at unknown ⊢
    intro verb member same
    obtain ⟨command, listed, alike⟩ := verbs_subset verb member
    refine unknown command listed ?_
    rw [alike]
    exact same
  rw [verbOf, missing]

theorem kept_execute (env : FtpEnv) (books : Books Node) (line : Text)
    (settled : Settled env books)
    (spoken : books.client.spoken =
      ⟨before ' '.toUInt8 line, after ' '.toUInt8 line⟩) :
    Kept node uploads (ftpExecute env line) books := by
  rw [ftpExecute]
  split
  · rename_i command found
    have named := List.find?_some found
    simp only [decide_eq_true_eq] at named
    apply kept_commands node uploads command (List.mem_of_find?_eq_some found)
    refine ⟨settled, ?_⟩
    rw [spoken, named]
  · rename_i unknown
    apply kept_idleAnswers
    refine ⟨settled, ?_⟩
    rw [verb, spoken]
    exact verbOf_unknown _ unknown

theorem kept_readLine (env : FtpEnv) (books : Books Node)
    (settled : Settled env books) :
    Kept node uploads (readLine env) books := by
  intro len possible
  refine ⟨⟨trivial, trivial⟩, ?_⟩
  have unread : lineRead (.use .readByte env.activeFd) len = none →
      note node uploads books ⟨.use .readByte env.activeFd, len⟩ = books := by
    intro none
    simp only [note, none]
    rfl
  dsimp only
  split
  · rename_i interrupted
    rw [unread (if_neg (by omega))]
    exact settled
  split
  · rename_i closed
    rw [unread (if_neg (by omega))]
    exact kept_finish node uploads env books
  rename_i positive
  split
  · rename_i unfinished
    rw [unread ((if_pos (by omega)).trans unfinished)]
    exact settled
  · rename_i line finished
    have whole : lineRead (.use .readByte env.activeFd) len = some line :=
      (if_pos (by omega)).trans finished
    have begins : note node uploads books ⟨.use .readByte env.activeFd, len⟩ =
        { books with client := { books.client with spoken := spokenIn line } } := by
      simp only [note, whole]
    rw [begins]
    apply kept_execute
    · exact ⟨settled.cwd, settled.offset, settled.source, settled.holds⟩
    · rfl

theorem kept_body (point : Point) (books : Books Node)
    (standing : ready node point books) :
    Kept node uploads (body point) books := by
  cases point with
  | serve env =>
      apply kept_idleCall node uploads books _ _ rfl fun _ => rfl
      intro buffer possible
      split
      · exact kept_finish node uploads env books
      · exact standing
  | readLine env => exact kept_readLine node uploads env books standing
  | listing env path dir =>
      exact kept_listing node uploads env books standing path dir
  | retrieving env fd =>
      exact kept_retrieving node uploads env books standing fd
  | storing env fd off =>
      exact kept_storing node uploads env books off standing fd

/-- The client knows nothing. -/
def opened (world : World Node) : Books Node where
  world := world
  client := {}

theorem kept_thread (connfd : Nat) (world : World Node) :
    Kept node uploads (ftpThread connfd) (opened world) := by
  apply kept_idleCall node uploads _ _ _ rfl fun _ => rfl
  intro answer possible
  split
  · exact ⟨rfl, rfl, rfl, by intro _ _ known; contradiction⟩
  · exact kept_finish node uploads _ _

theorem good_trace (connfd : Nat) (world : World Node)
    (trace : List FtpExchange) (rest : FtpProgram)
    (executes : Executes body (ftpThread connfd) trace rest)
    (possible : EveryStep (note node uploads) (Possible node) (opened world)
      trace) :
    EveryStep (note node uploads) (Good node) (opened world) trace :=
  everyStep_of_keepsWhile body (note node uploads) (Possible node)
    (Good node) (ready node) (kept_body node uploads) _ rest trace executes _
    (kept_thread node uploads connfd world) possible

end Running

end Sessions

/-! ## An upload in two parts -/

/-- What `stat` says of a file. -/
def described (size : Nat) : Answer Buffers where
  value := 0
  data := { size := BitVec.ofNat 64 size }

/-- `xyz`, then `wv` from the offset 2 on, and the file is sent back, whole
although an offset is given again. -/
def twoParts : List (Answer Buffers) :=
  nextLine "STOR /f" ++ [given 4, given 0, given 0, given 5, given 3, given 3,
      given 0, given 0, given 0, given 0, given 0] ++
    nextLine "REST 2" ++ [given 0] ++
    nextLine "STOR /f" ++ [given 4, given 2, given 0, given 5, given 2, given 2,
      given 0, given 0, given 0, given 0, given 0] ++
    nextLine "REST 1" ++ [given 0] ++
    nextLine "RETR /f" ++ [described 4, given 4, given 0, given 5, given 4,
      given 4, given 0, given 0, given 0, given 0]

def parts : Nat → List UInt8
  | 0 => ascii "xyz"
  | 1 => ascii "wv"
  | _ => []

def emptySystem : World Text where
  entries := fun _ => .missing

end HenPlugins.Ftp.LedgerKept
