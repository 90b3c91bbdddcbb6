import HenPlugins.Ftp.RecordedCalls

/-!
# What a client is told

An onlooker notes of the command that is executed whether it has been answered,
whether one of its calls failed and what it changed.  Each line gets one final
reply, and the reply tells what became of the command.
-/

set_option autoImplicit false

namespace HenPlugins.Ftp.Replies

open HenPlugins.Lib.ByteText
open HenPlugins.Lib.CallProgram
open HenPlugins.Lib.CallTrace
open HenPlugins.Lib.EventRun
open HenPlugins.Ftp.SessionCalls
open HenPlugins.Ftp.Commands
open HenPlugins.Ftp.FtpSessions
open HenPlugins.Ftp.SessionRecord (FtpExchange lineRead opening)
open HenPlugins.Ftp.RecordedCalls (given nextLine sessionTrace
  executes_sessionTrace)

/-! ## What replies say -/

/-- `501` and `502`. -/
def refusal : Reply → Bool
  | .line text => (ascii text).take 2 = ascii "50"
  | _ => false

/-- The replies that end `LIST`, `RETR` and `STOR`. -/
def completion : Reply → Bool
  | .line text =>
      text = "226 Transfer complete\r\n" ∨
        text = "226 Transfer completed\r\n" ∨
        text = "226 Data transfer complete\r\n"
  | _ => false

/-- What a command changes in the file system, apart from a file that it
transfers. -/
inductive Change where
  | removed
  | made
  | unmade
  | renamed
  | allowed
  deriving DecidableEq

def changeOf : Call → Option Change
  | .remove _ => some .removed
  | .mkdir _ => some .made
  | .rmdir _ => some .unmade
  | .rename _ _ => some .renamed
  | .chmod _ _ => some .allowed
  | _ => none

def changeTold : Reply → Option Change
  | .line text =>
      if text = "226 File deleted\r\n" then some .removed
      else if text = "226 Directory created\r\n" then some .made
      else if text = "226 Directory deleted\r\n" then some .unmade
      else if text = "226 Path renamed\r\n" then some .renamed
      else if text = "200 OK\r\n" then some .allowed
      else none
  | _ => none

/-- The replies that say whether an entry is a directory. -/
def kindTold : Reply → Option Bool
  | .line text =>
      if text = "550 No such directory\r\n" then some false
      else if text = "550 Not a file\r\n" then some true
      else if text = "250 OK\r\n" then some true
      else none
  | _ => none

def sizeTold : Reply → Option (BitVec 64)
  | .size bytes => some bytes
  | _ => none

/-! ## What is noted -/

/-- `opened` is a command that has been answered with 150. -/
inductive Phase where
  | idle
  | executing
  | opened
  deriving DecidableEq

structure Dialogue where
  phase : Phase := .idle
  /-- The last reply was not written. -/
  lost : Bool := false
  called : Bool := false
  failed : Bool := false
  changed : Option Change := none
  /-- Whether the last `stat` found a directory, and the size. -/
  found : Option (Bool × BitVec 64) := none
  /-- The end of the file, of the directory or of the data was reached. -/
  ended : Bool := false
  /-- Bytes that were read and are not passed on yet. -/
  held : Int := 0
  deriving DecidableEq

/-- The failures that commands ask for.  A `stat` behind the 150 is about an
entry of a listing; an error of `recv` is not asked for. -/
def fails (phase : Phase) : Request Call Role → Int → Bool
  | .plain (.stat _), value => phase ≠ .opened ∧ value ≠ 0
  | .plain _, value => value ≠ 0
  | .acquire _ _ _, value => value < 0
  | .use .readFile _, value => value < 0
  | .use (.lseek _) _, value => value < 0
  | .use (.send len) _, value => len ≠ value
  | .use (.writeFile len) _, value => value ≠ len
  | .use .readdir _, _ => false
  | .use .recv _, _ => false
  | .use (.sendEntry _ _) _, _ => false
  | .use _ _, value => value ≠ 0
  | .close .data _, value => value ≠ 0
  | .close .dir _, value => value ≠ 0
  | .close _ _, _ => false

def endsHere : Request Call Role → Int → Bool
  | .use .readFile _, value => value = 0
  | .use .recv _, value => value = 0
  | .use .readdir _, value => value < 0
  | _, _ => false

def heldAfter (held : Int) : Request Call Role → Int → Int
  | .use .readFile _, value => value
  | .use .recv _, value => value
  | .use (.send _) _, value => held - value
  | .use (.writeFile _) _, value => held - value
  | _, _ => held

def changedBy : Request Call Role → Int → Option Change
  | .plain call, value => if value = 0 then changeOf call else none
  | _, _ => none

def foundAfter (found : Option (Bool × BitVec 64)) :
    Request Call Role → Answer Buffers → Option (Bool × BitVec 64)
  | .plain (.stat _), answer =>
      if answer.value = 0 then some (answer.data.isDir, answer.data.size)
      else none
  | _, _ => found

/-- A call of the command. -/
def Dialogue.calls (dialogue : Dialogue) (request : Request Call Role)
    (answer : Answer Buffers) : Dialogue :=
  { dialogue with
    called := true
    failed := dialogue.failed || fails dialogue.phase request answer.value
    changed := dialogue.changed.or (changedBy request answer.value)
    found := foundAfter dialogue.found request answer
    ended := dialogue.ended || endsHere request answer.value
    held := heldAfter dialogue.held request answer.value }

def Dialogue.answered (dialogue : Dialogue) (reply : Reply) (value : Int) :
    Dialogue :=
  { dialogue with
    phase := if reply = opening then .opened else .idle
    lost := value ≠ 0 }

/-- Calls that belong to no command. -/
def between : Request Call Role → Bool
  | .plain .calloc => true
  | .plain .pthreadExit => true
  | .use .readByte _ => true
  | .use .greeting _ => true
  | _ => false

/-- A command that begins. -/
def begun : Dialogue := { phase := .executing }

def note (dialogue : Dialogue) (exchange : FtpExchange) : Dialogue :=
  match lineRead exchange.request exchange.answer with
  | some _ => begun
  | none =>
      match exchange.request with
      | .use (.reply reply) _ => dialogue.answered reply exchange.answer.value
      | request =>
          if between request then dialogue
          else dialogue.calls request exchange.answer

/-! ## What is due -/

/-- A line is read when the one before it has had its final reply, and nothing
but a `close` comes between the two. -/
def Orderly (dialogue : Dialogue) (exchange : FtpExchange) : Prop :=
  match exchange.request with
  | .use .greeting _ => True
  | .close _ _ => True
  | .plain .pthreadExit => dialogue.phase = .idle ∨
      (dialogue.phase = .opened ∧ dialogue.lost = true)
  | .plain .calloc => dialogue.phase = .idle ∧ dialogue.lost = false
  | .use .readByte _ => dialogue.phase = .idle ∧ dialogue.lost = false
  | .use (.reply reply) _ =>
      if reply = opening then dialogue.phase = .executing
      else dialogue.phase ≠ .idle
  | _ => dialogue.phase ≠ .idle

/-- What a reply says of an entry, `stat` has found; the 250 of `CDUP` is given
without a call. -/
structure FindingTold (dialogue : Dialogue) (reply : Reply) : Prop where
  kind : ∀ isDir, kindTold reply = some isDir →
    (∃ size, dialogue.found = some (isDir, size)) ∨
      (reply = .line "250 OK\r\n" ∧ dialogue.called = false)
  size : ∀ bytes, sizeTold reply = some bytes →
    ∃ isDir, dialogue.found = some (isDir, bytes)

/-- A reply tells what became of the calls of its command. -/
structure Truthful (dialogue : Dialogue) (reply : Reply) : Prop where
  error : reply = .perror ↔ dialogue.failed = true
  refused : refusal reply = true → dialogue.called = false
  complete : completion reply = true →
    dialogue.ended = true ∧ dialogue.held = 0
  changed : changeTold reply = dialogue.changed
  finding : FindingTold dialogue reply

def RepliesTruthful (dialogue : Dialogue) (exchange : FtpExchange) : Prop :=
  match exchange.request with
  | .use (.reply reply) _ => Truthful dialogue reply
  | _ => True

def Proper (dialogue : Dialogue) (exchange : FtpExchange) : Prop :=
  Orderly dialogue exchange ∧ RepliesTruthful dialogue exchange

/-- Between two commands. -/
structure Over (dialogue : Dialogue) : Prop where
  phase : dialogue.phase = .idle
  lost : dialogue.lost = false

/-- A command that waits for its final reply, with nothing failed so far. -/
structure Fine (dialogue : Dialogue) : Prop where
  phase : dialogue.phase ≠ .idle
  failed : dialogue.failed = false
  changed : dialogue.changed = none

structure Broken (dialogue : Dialogue) : Prop where
  phase : dialogue.phase ≠ .idle
  failed : dialogue.failed = true
  changed : dialogue.changed = none

/-- A transfer between two of its blocks. -/
structure Moving (dialogue : Dialogue) : Prop where
  fine : Fine dialogue
  phase : dialogue.phase = .opened
  held : dialogue.held = 0

def ready : Point → Dialogue → Prop
  | .serve _, dialogue => Over dialogue
  | .readLine _, dialogue => Over dialogue
  | .listing _ _ _, dialogue => Moving dialogue
  | .retrieving _ _, dialogue => Moving dialogue
  | .storing _ _ _, dialogue => Moving dialogue

abbrev Kept (program : FtpProgram) (dialogue : Dialogue) : Prop :=
  Keeps note Proper ready program dialogue

/-! ## Calls -/

/-- Calls that a command makes while it waits for its final reply. -/
def working : Request Call Role → Bool
  | .use (.reply _) _ => false
  | .close _ _ => false
  | request => !between request

theorem note_working (dialogue : Dialogue) (request : Request Call Role)
    (answer : Answer Buffers) (works : working request = true) :
    note dialogue ⟨request, answer⟩ = dialogue.calls request answer := by
  cases request with
  | plain label => cases label <;> first | contradiction | rfl
  | use label fd => cases label <;> first | contradiction | rfl
  | acquire role label through => rfl
  | close role fd => contradiction

theorem proper_working (dialogue : Dialogue) (request : Request Call Role)
    (answer : Answer Buffers) (works : working request = true)
    (phase : dialogue.phase ≠ .idle) :
    Proper dialogue ⟨request, answer⟩ := by
  cases request with
  | plain label => cases label <;> first | contradiction | exact ⟨phase, trivial⟩
  | use label fd => cases label <;> first | contradiction | exact ⟨phase, trivial⟩
  | acquire role label through => exact ⟨phase, trivial⟩
  | close role fd => contradiction

theorem fine_calls (dialogue : Dialogue) (request : Request Call Role)
    (answer : Answer Buffers) (fine : Fine dialogue)
    (succeeds : fails dialogue.phase request answer.value = false)
    (changes : changedBy request answer.value = none) :
    Fine (dialogue.calls request answer) where
  phase := fine.phase
  failed := by
    show (_ || _) = false
    rw [fine.failed, succeeds]
    rfl
  changed := by
    show Option.or _ _ = none
    rw [fine.changed, changes]
    rfl

theorem broken_calls (dialogue : Dialogue) (request : Request Call Role)
    (answer : Answer Buffers) (fine : Fine dialogue)
    (failing : fails dialogue.phase request answer.value = true)
    (changes : changedBy request answer.value = none) :
    Broken (dialogue.calls request answer) where
  phase := fine.phase
  failed := by
    show (_ || _) = true
    rw [failing, Bool.or_true]
  changed := by
    show Option.or _ _ = none
    rw [fine.changed, changes]
    rfl

theorem kept_call (dialogue : Dialogue) (request : Request Call Role)
    (next : Answer Buffers → FtpProgram) (works : working request = true)
    (fine : Fine dialogue)
    (changes : ∀ value, fails dialogue.phase request value = true →
      changedBy request value = none)
    (broken : ∀ answer after,
      fails dialogue.phase request answer.value = true → Broken after →
        Kept (next answer) after)
    (succeeds : ∀ answer,
      fails dialogue.phase request answer.value = false →
        Kept (next answer) (dialogue.calls request answer)) :
    Kept (.call request next) dialogue := by
  intro answer
  refine ⟨proper_working dialogue request answer works fine.phase, ?_⟩
  rw [note_working dialogue request answer works]
  cases failing : fails dialogue.phase request answer.value with
  | true =>
      exact broken answer _ failing (broken_calls dialogue request _ fine
        failing (changes _ failing))
  | false => exact succeeds answer failing

theorem kept_close (dialogue : Dialogue) (role : Role) (fd : Int)
    (next : Answer Buffers → FtpProgram)
    (later : ∀ answer, Kept (next answer)
      (dialogue.calls (.close role fd) answer)) :
    Kept (.call (.close role fd) next) dialogue :=
  keeps_call note Proper ready _ next dialogue
    (fun _ => ⟨trivial, trivial⟩) later

/-! ## Replies -/

section Replying
variable (env : FtpEnv) (dialogue : Dialogue)

/-- The phase that a session may end in. -/
def MayEnd : Prop :=
  dialogue.phase = .idle ∨ (dialogue.phase = .opened ∧ dialogue.lost = true)

theorem kept_closeIfPositive (role : Role) (fd : Int) (rest : FtpProgram)
    (ends : MayEnd dialogue)
    (later : ∀ other, MayEnd other → Kept rest other) :
    Kept (closeIfPositive role fd rest) dialogue := by
  rw [closeIfPositive]
  split
  · exact kept_close dialogue role fd _ fun answer => later _ ends
  · exact later dialogue ends

theorem kept_finish (ends : MayEnd dialogue) : Kept (finish env) dialogue := by
  rw [finish]
  refine kept_closeIfPositive dialogue _ _ _ ends fun active ends => ?_
  refine kept_closeIfPositive active _ _ _ ends fun passive ends => ?_
  refine kept_closeIfPositive passive _ _ _ ends fun data ends => ?_
  intro answer
  exact ⟨⟨ends, trivial⟩, trivial⟩

theorem kept_returns (result : Int) (phase : dialogue.phase = .idle)
    (written : result = 0 → dialogue.lost = false) :
    Kept (returns env result) dialogue := by
  rw [returns]
  split
  · rename_i zero
    exact ⟨phase, written zero⟩
  · exact kept_finish env dialogue (Or.inl phase)

theorem kept_final (reply : Reply) (final : reply ≠ opening)
    (phase : dialogue.phase ≠ .idle) (truthful : Truthful dialogue reply)
    (next : Int → FtpProgram)
    (later : ∀ result after, after.phase = .idle →
      (result = 0 → after.lost = false) → Kept (next result) after) :
    Kept (ftpActivePrintf env reply next) dialogue := by
  intro answer
  refine ⟨⟨?_, truthful⟩, ?_⟩
  · show if reply = opening then _ else _
    rw [if_neg final]
    exact phase
  · apply later
    · exact if_neg final
    · intro zero
      by_cases written : answer.value = 0
      · exact decide_eq_false (not_not_intro written)
      · rw [if_neg written] at zero
        contradiction

theorem kept_answers (reply : Reply) (final : reply ≠ opening)
    (phase : dialogue.phase ≠ .idle) (truthful : Truthful dialogue reply) :
    Kept (answers reply env) dialogue :=
  kept_final env dialogue reply final phase truthful _ fun result after idle
    written => kept_returns env after result idle written

theorem findingTold_of_untold (reply : Reply) (kind : kindTold reply = none)
    (size : sizeTold reply = none) : FindingTold dialogue reply where
  kind := by simp [kind]
  size := by simp [size]

theorem truthful_perror (broken : Broken dialogue) :
    Truthful dialogue .perror where
  error := iff_of_true rfl broken.failed
  refused := by simp [refusal]
  complete := by simp [completion]
  changed := broken.changed.symm
  finding := findingTold_of_untold dialogue _ rfl rfl

theorem kept_perror (broken : Broken dialogue) (next : Int → FtpProgram)
    (later : ∀ result after, after.phase = .idle →
      (result = 0 → after.lost = false) → Kept (next result) after) :
    Kept (ftpPerror env next) dialogue :=
  kept_final env dialogue .perror (by decide) broken.phase
    (truthful_perror dialogue broken) next later

theorem kept_fails (broken : Broken dialogue) :
    Kept (ftpPerror env (returns env)) dialogue :=
  kept_perror env dialogue broken _ fun result after idle written =>
    kept_returns env after result idle written

theorem kept_perror_close (broken : Broken dialogue) (role : Role) (fd : Int) :
    Kept (ftpPerror env fun err =>
      .call (.close role fd) fun _ => returns env err) dialogue :=
  kept_perror env dialogue broken _ fun result after idle written =>
    kept_close after role fd _ fun _ =>
      kept_returns env _ result idle written

/-- A reply that promises nothing but that no call failed, and tells no more
than what was found. -/
theorem kept_finding (fine : Fine dialogue) (reply : Reply)
    (other : reply ≠ .perror ∧ reply ≠ opening)
    (refuses : refusal reply = false) (completes : completion reply = false)
    (told : changeTold reply = none) (finding : FindingTold dialogue reply) :
    Kept (answers reply env) dialogue := by
  obtain ⟨other, final⟩ := other
  refine kept_answers env dialogue reply final fine.phase ?_
  refine ⟨?_, ?_, ?_, ?_, finding⟩
  · refine iff_of_false other ?_
    rw [fine.failed]
    exact Bool.false_ne_true
  · intro refused
    rw [refuses] at refused
    contradiction
  · intro complete
    rw [completes] at complete
    contradiction
  · rw [told, fine.changed]

theorem kept_ordinary (fine : Fine dialogue) (reply : Reply)
    (other : reply ≠ .perror ∧ reply ≠ opening)
    (refuses : refusal reply = false) (completes : completion reply = false)
    (told : changeTold reply = none) (kind : kindTold reply = none)
    (size : sizeTold reply = none) :
    Kept (answers reply env) dialogue :=
  kept_finding env dialogue fine reply other refuses completes told
    (findingTold_of_untold dialogue reply kind size)

end Replying

/-! ## Commands on paths -/

def KeptCommand (command : FtpCommand) : Prop :=
  ∀ env arg, Kept (command env arg) begun

theorem fine_begun : Fine begun := ⟨by decide, rfl, rfl⟩

/-- A line that is no 150, completes nothing and tells no change and no kind. -/
structure Plain (text : String) : Prop where
  final : text ≠ "150 Opening data transfer\r\n"
  completes : completion (.line text) = false
  told : changeTold (.line text) = none
  kind : kindTold (.line text) = none

theorem kept_refuses (env : FtpEnv) (text : String) (plain : Plain text) :
    Kept (answers (.line text) env) begun := by
  refine kept_answers env begun _ ?_ fine_begun.phase ?_
  · intro same
    exact plain.final (Reply.line.inj same)
  · refine ⟨iff_of_false (by simp) (by decide), fun _ => rfl, ?_, plain.told,
      findingTold_of_untold begun _ plain.kind rfl⟩
    intro complete
    rw [plain.completes] at complete
    contradiction

theorem kept_callThen (env : FtpEnv) (dialogue : Dialogue) (call : Call)
    (next : Buffers → FtpProgram)
    (works : working (.plain call) = true) (fine : Fine dialogue)
    (asked : ∀ value, fails dialogue.phase (.plain call) value =
      decide (value ≠ 0))
    (later : ∀ answer : Answer Buffers, answer.value = 0 →
      Kept (next answer.data) (dialogue.calls (.plain call) answer)) :
    Kept (callThen env call next) dialogue := by
  apply kept_call dialogue _ _ works fine
  · intro value failing
    rw [asked] at failing
    exact if_neg (of_decide_eq_true failing)
  · intro answer after failing broken
    rw [asked] at failing
    rw [if_pos (of_decide_eq_true failing)]
    exact kept_fails env after broken
  · intro answer succeeds
    rw [asked] at succeeds
    have zero := not_not.mp (of_decide_eq_false succeeds)
    rw [if_neg (not_not_intro zero)]
    exact later answer zero

theorem truthful_changed (dialogue : Dialogue) (fine : Fine dialogue)
    (call : Call) (reply : Reply) (change : Change)
    (changes : changeOf call = some change)
    (told : changeTold reply = some change)
    (plain : reply ≠ .perror ∧ refusal reply = false ∧
      completion reply = false)
    (kind : kindTold reply = none) (size : sizeTold reply = none)
    (answer : Answer Buffers) (zero : answer.value = 0)
    (succeeds : fails dialogue.phase (.plain call) 0 = false) :
    Truthful (dialogue.calls (.plain call) answer) reply where
  error := by
    refine iff_of_false plain.1 ?_
    show ¬ (_ || fails _ _ answer.value) = true
    rw [zero, fine.failed, succeeds]
    exact Bool.false_ne_true
  refused := by
    intro refused
    rw [plain.2.1] at refused
    contradiction
  complete := by
    intro complete
    rw [plain.2.2] at complete
    contradiction
  changed := by
    show changeTold reply =
      Option.or dialogue.changed
        (if answer.value = 0 then changeOf call else none)
    rw [if_pos zero, fine.changed, changes, told]
    rfl
  finding := findingTold_of_untold _ reply kind size

theorem kept_changes (env : FtpEnv) (dialogue : Dialogue) (call : Call)
    (reply : String) (change : Change) (fine : Fine dialogue)
    (works : working (.plain call) = true)
    (asked : ∀ value, fails dialogue.phase (.plain call) value =
      decide (value ≠ 0))
    (changes : changeOf call = some change)
    (told : changeTold (.line reply) = some change)
    (plain : refusal (.line reply) = false ∧ completion (.line reply) = false ∧
      reply ≠ "150 Opening data transfer\r\n")
    (kind : kindTold (.line reply) = none) :
    Kept (callThen env call fun _ => answers (.line reply) env) dialogue := by
  refine kept_callThen env dialogue call _ works fine asked fun answer zero => ?_
  refine kept_answers env _ (.line reply) ?_ fine.phase ?_
  · intro same
    exact plain.2.2 (Reply.line.inj same)
  · exact truthful_changed dialogue fine call _ change changes told
      ⟨by simp, plain.1, plain.2.1⟩ kind rfl answer zero
      ((asked 0).trans (by decide))

theorem kept_pathCommand (usage reply : String) (call : Text → Call)
    (change : Change)
    (refuses : Plain usage)
    (works : ∀ path, working (.plain (call path)) = true)
    (asked : ∀ path value, fails .executing (.plain (call path)) value =
      decide (value ≠ 0))
    (changes : ∀ path, changeOf (call path) = some change)
    (told : changeTold (.line reply) = some change)
    (plain : refusal (.line reply) = false ∧ completion (.line reply) = false ∧
      reply ≠ "150 Opening data transfer\r\n")
    (kind : kindTold (.line reply) = none) :
    KeptCommand (pathCommand usage reply call) := by
  intro env arg
  rw [pathCommand]
  split
  · exact kept_refuses env _ refuses
  · exact kept_changes env begun _ reply change fine_begun (works _) (asked _)
      (changes _) told plain kind

theorem kept_ftpCmdChmod : KeptCommand ftpCmdChmod := by
  intro env arg
  rw [ftpCmdChmod]
  split
  · exact kept_refuses env _ ⟨by decide, rfl, rfl, rfl⟩
  · exact kept_changes env begun _ _ .allowed fine_begun rfl (fun _ => rfl) rfl
      rfl ⟨rfl, rfl, by decide⟩ rfl

theorem fine_stat (dialogue : Dialogue) (fine : Fine dialogue) (path : Text)
    (answer : Answer Buffers) (zero : answer.value = 0) :
    Fine (dialogue.calls (.plain (.stat path)) answer) :=
  fine_calls dialogue _ answer fine (decide_eq_false fun both => both.2 zero)
    (ite_self _)

theorem found_stat (dialogue : Dialogue) (path : Text)
    (answer : Answer Buffers) (zero : answer.value = 0) :
    (dialogue.calls (.plain (.stat path)) answer).found =
      some (answer.data.isDir, answer.data.size) :=
  if_pos zero

theorem asked_stat (path : Text) (value : Int) :
    fails .executing (.plain (.stat path)) value = decide (value ≠ 0) := by
  show decide (Phase.executing ≠ .opened ∧ value ≠ 0) = _
  simp

theorem kept_statThen (env : FtpEnv) (path : Text) (next : Buffers → FtpProgram)
    (later : ∀ answer, answer.value = 0 →
      Kept (next answer.data) (begun.calls (.plain (.stat path)) answer)) :
    Kept (callThen env (.stat path) next) begun :=
  kept_callThen env begun _ next rfl fine_begun (asked_stat path) later

theorem kept_ftpCmdCwd : KeptCommand ftpCmdCwd := by
  intro env arg
  rw [ftpCmdCwd]
  split
  · exact kept_refuses env _ ⟨by decide, rfl, rfl, rfl⟩
  · refine kept_statThen env _ _ fun st zero => ?_
    have fine := fine_stat begun fine_begun (ftpAbspath env arg) st zero
    have found := found_stat begun (ftpAbspath env arg) st zero
    split
    · rename_i isDir
      rw [isDir] at found
      refine kept_finding _ _ fine _ ⟨by simp, by decide⟩ rfl rfl rfl
        ⟨fun told same => Or.inl ⟨st.data.size, ?_⟩, by simp [sizeTold]⟩
      cases Option.some.inj same
      exact found
    · rename_i notDir
      rw [Bool.eq_false_iff.mpr notDir] at found
      refine kept_finding _ _ fine _ ⟨by simp, by decide⟩ rfl rfl rfl
        ⟨fun told same => Or.inl ⟨st.data.size, ?_⟩, by simp [sizeTold]⟩
      cases Option.some.inj same
      exact found

theorem kept_ftpCmdSize : KeptCommand ftpCmdSize := by
  intro env arg
  rw [ftpCmdSize]
  split
  · exact kept_refuses env _ ⟨by decide, rfl, rfl, rfl⟩
  · refine kept_statThen env _ _ fun st zero => ?_
    refine kept_finding _ _ (fine_stat begun fine_begun _ st zero) _
      ⟨by simp, by simp [opening]⟩ rfl rfl rfl
      ⟨by simp [kindTold], fun bytes same => ⟨st.data.isDir, ?_⟩⟩
    cases Option.some.inj same
    exact found_stat begun _ st zero

theorem kept_ftpCmdRnfr : KeptCommand ftpCmdRnfr := by
  intro env arg
  rw [ftpCmdRnfr]
  split
  · exact kept_refuses env _ ⟨by decide, rfl, rfl, rfl⟩
  · refine kept_statThen _ _ _ fun st zero => ?_
    exact kept_ordinary _ _ (fine_stat begun fine_begun _ st zero) _
      ⟨by simp, by decide⟩ rfl rfl rfl rfl rfl

theorem kept_ftpCmdRnto : KeptCommand ftpCmdRnto := by
  intro env arg
  rw [ftpCmdRnto]
  split
  · exact kept_refuses env _ ⟨by decide, rfl, rfl, rfl⟩
  · refine kept_statThen _ _ _ fun st zero => ?_
    exact kept_changes env _ _ _ .renamed
      (fine_stat begun fine_begun _ st zero) rfl (fun _ => rfl) rfl rfl
      ⟨rfl, rfl, by decide⟩ rfl

/-! ## Commands that only answer -/

theorem kept_answering (reply : FtpEnv → Reply)
    (other : ∀ env, reply env ≠ .perror ∧ reply env ≠ opening)
    (completes : ∀ env, completion (reply env) = false)
    (told : ∀ env, changeTold (reply env) = none)
    (kind : ∀ env, kindTold (reply env) = none)
    (size : ∀ env, sizeTold (reply env) = none) :
    KeptCommand fun env _ => answers (reply env) env := by
  intro env arg
  refine kept_answers env begun _ (other env).2 fine_begun.phase ?_
  refine ⟨iff_of_false (other env).1 (by decide), fun _ => rfl, ?_, told env,
    findingTold_of_untold begun _ (kind env) (size env)⟩
  intro complete
  rw [completes env] at complete
  contradiction

/-- `CDUP` asks nothing. -/
theorem kept_ftpCmdCdup : KeptCommand ftpCmdCdup := by
  intro env arg
  refine kept_finding _ begun fine_begun _ ⟨by simp, by decide⟩ rfl rfl rfl ?_
  exact ⟨fun _ _ => Or.inr ⟨rfl, rfl⟩, by simp [sizeTold]⟩

theorem kept_ftpCmdQuit : KeptCommand ftpCmdQuit := by
  intro env arg
  refine kept_final env begun _ (by decide) fine_begun.phase ?_ _
    fun result after idle _ => kept_finish env after (Or.inl idle)
  exact ⟨by decide, fun refused => absurd refused (by decide),
    by simp [completion], rfl, findingTold_of_untold begun _ rfl rfl⟩

theorem kept_ftpCmdType : KeptCommand ftpCmdType := by
  intro env arg
  have refused := kept_refuses env "501 Invalid argument to TYPE\r\n"
    ⟨by decide, rfl, rfl, rfl⟩
  unfold ftpCmdType
  split
  · split
    · exact kept_ordinary _ _ fine_begun _ ⟨by simp, by simp [opening]⟩
        rfl rfl rfl rfl rfl
    · exact refused
  · exact refused

theorem kept_ftpCmdRest : KeptCommand ftpCmdRest := by
  intro env arg
  rw [ftpCmdRest]
  split
  · exact kept_refuses env _ ⟨by decide, rfl, rfl, rfl⟩
  · exact kept_ordinary _ _ fine_begun _ ⟨by simp, by decide⟩ rfl rfl rfl rfl
      rfl

/-! ## The data connection -/

theorem kept_checked (dialogue : Dialogue)
    (request : Request Call Role) (next : Answer Buffers → FtpProgram)
    (works : working request = true) (fine : Fine dialogue)
    (changes : ∀ value, changedBy request value = none)
    (broken : ∀ answer after,
      fails dialogue.phase request answer.value = true → Broken after →
        Kept (next answer) after)
    (succeeds : ∀ answer,
      fails dialogue.phase request answer.value = false →
        ∀ after, after = dialogue.calls request answer → Fine after →
          Kept (next answer) after) :
    Kept (.call request next) dialogue :=
  kept_call dialogue request next works fine (fun value _ => changes value)
    broken fun answer good => succeeds answer good _ rfl
      (fine_calls dialogue request _ fine good (changes _))

theorem kept_refusePassive (env : FtpEnv) (dialogue : Dialogue)
    (broken : Broken dialogue) : Kept (refusePassive env) dialogue :=
  kept_perror_close env dialogue broken .passive env.passiveFd

theorem kept_passiveCall (env : FtpEnv) (dialogue : Dialogue) (call : Call)
    (fine : Fine dialogue) (works : working (.use call env.passiveFd) = true)
    (asked : ∀ value, fails dialogue.phase (.use call env.passiveFd) value =
      decide (value ≠ 0))
    (next : Answer Buffers → FtpProgram)
    (later : ∀ answer after, Fine after → Kept (next answer) after) :
    Kept (.call (.use call env.passiveFd) fun answer =>
      if answer.value ≠ 0 then refusePassive env else next answer)
      dialogue := by
  refine kept_checked dialogue _ _ works fine (fun _ => rfl) ?_ ?_
  · intro answer after failing broken
    rw [asked] at failing
    rw [if_pos (of_decide_eq_true failing)]
    exact kept_refusePassive env after broken
  · intro answer good after _ still
    rw [asked] at good
    rw [if_neg (of_decide_eq_false good)]
    exact later answer after still

theorem kept_pasvSocket (env : FtpEnv) (dialogue : Dialogue) (addr : BitVec 32)
    (fine : Fine dialogue) : Kept (pasvSocket env addr) dialogue := by
  refine kept_checked dialogue _ _ rfl fine (fun _ => rfl) ?_ ?_
  · intro answer after failing broken
    rw [if_pos (of_decide_eq_true failing)]
    exact kept_fails _ after broken
  · intro answer good after _ made
    rw [if_neg (of_decide_eq_false good)]
    refine kept_passiveCall _ after .bind made rfl (fun _ => rfl) _ ?_
    intro bound after fine
    refine kept_passiveCall _ after .listen fine rfl (fun _ => rfl) _ ?_
    intro listening after fine
    refine kept_passiveCall _ after .getsockname fine rfl (fun _ => rfl) _ ?_
    intro named after fine
    exact kept_ordinary _ after fine _ ⟨by simp, by simp [opening]⟩ rfl rfl rfl
      rfl rfl

theorem kept_ftpCmdPasv : KeptCommand ftpCmdPasv := by
  intro env arg
  refine kept_checked begun _ _ rfl fine_begun (fun _ => rfl) ?_ ?_
  · intro answer after failing broken
    rw [if_pos (of_decide_eq_true failing)]
    exact kept_fails env after broken
  · intro answer good after _ fine
    rw [if_neg (of_decide_eq_false good), closeIfPositive]
    split
    · refine kept_close after .passive _ _ fun closed => ?_
      exact kept_pasvSocket env _ _ (fine_calls after _ _ fine rfl rfl)
    · exact kept_pasvSocket env after _ fine

theorem kept_ftpCmdPort : KeptCommand ftpCmdPort := by
  intro env arg
  have refused := kept_refuses env "501 Usage: PORT <addr>\r\n"
    ⟨by decide, rfl, rfl, rfl⟩
  unfold ftpCmdPort
  split
  · refine kept_checked begun _ _ rfl fine_begun (fun _ => rfl) ?_ ?_
    · intro answer after failing broken
      rw [if_pos (of_decide_eq_true failing)]
      exact kept_fails _ after broken
    · intro answer good after _ fine
      rw [if_neg (of_decide_eq_false good)]
      exact kept_ordinary _ after fine _ ⟨by simp, by decide⟩ rfl rfl rfl rfl
        rfl
  · exact refused

/-! ## Transfers -/

theorem kept_dataOpen (env : FtpEnv) (dialogue : Dialogue)
    (next : FtpEnv → Int → FtpProgram) (fine : Fine dialogue)
    (held : dialogue.held = 0)
    (broken : ∀ opened after, Broken after → Kept (next opened (-1)) after)
    (later : ∀ opened after, Fine after → after.phase = dialogue.phase →
      after.held = 0 → Kept (next opened 0) after) :
    Kept (ftpDataOpen env next) dialogue := by
  rw [ftpDataOpen]
  split
  · refine kept_checked dialogue _ _ rfl fine (fun _ => rfl) ?_ ?_
    · intro answer after failing refused
      rw [if_pos (of_decide_eq_true failing)]
      exact broken env after refused
    · intro answer good after same fine
      rw [if_neg (of_decide_eq_false good)]
      refine later env after fine ?_ ?_
      · rw [same]
        rfl
      · rw [same]
        exact held
  · refine kept_checked dialogue _ _ rfl fine (fun _ => rfl) ?_ ?_
    · intro answer after failing refused
      rw [if_pos (of_decide_eq_true failing)]
      exact broken _ after refused
    · intro answer good after same fine
      rw [if_neg (of_decide_eq_false good)]
      refine later _ after fine ?_ ?_
      · rw [same]
        rfl
      · rw [same]
        exact held

theorem kept_opening (env : FtpEnv) (dialogue : Dialogue)
    (next : Int → FtpProgram) (fine : Fine dialogue)
    (phase : dialogue.phase = .executing) (held : dialogue.held = 0)
    (later : ∀ result after, Moving after →
      (result ≠ 0 → after.lost = true) → Kept (next result) after) :
    Kept (ftpActivePrintf env opening next) dialogue := by
  intro answer
  have opened : (dialogue.answered opening answer.value).phase = .opened := by
    simp only [Dialogue.answered, if_true]
  have waits : (dialogue.answered opening answer.value).phase ≠ .idle := by
    rw [opened]
    decide
  refine ⟨⟨?_, ?_⟩, ?_⟩
  · show if opening = opening then dialogue.phase = .executing
      else dialogue.phase ≠ .idle
    rw [if_pos rfl]
    exact phase
  · refine ⟨iff_of_false (by decide) ?_,
      fun refused => absurd refused (by decide),
      fun complete => absurd complete (by decide), fine.changed.symm,
      findingTold_of_untold dialogue _ rfl rfl⟩
    rw [fine.failed]
    exact Bool.false_ne_true
  · apply later
    · exact ⟨⟨waits, fine.failed, fine.changed⟩, opened, held⟩
    · intro nonzero
      refine decide_eq_true fun zero => ?_
      rw [if_pos zero] at nonzero
      contradiction

theorem kept_dataClose (env : FtpEnv) (dialogue : Dialogue)
    (next : Int → FtpProgram) (fine : Fine dialogue)
    (broken : ∀ after, Broken after → Kept (next (-1)) after)
    (later : ∀ after, Fine after → after.ended = dialogue.ended →
      after.held = dialogue.held → Kept (next 0) after) :
    Kept (ftpDataClose env next) dialogue := by
  refine kept_close dialogue .data _ _ fun answer => ?_
  by_cases zero : answer.value = 0
  · rw [if_pos zero]
    exact later _ (fine_calls dialogue _ _ fine
      (decide_eq_false (not_not_intro zero)) rfl) (Bool.or_false _) rfl
  · rw [if_neg zero]
    exact broken _ (broken_calls dialogue _ _ fine (decide_eq_true zero) rfl)

theorem kept_completes (env : FtpEnv) (dialogue : Dialogue) (text : String)
    (fine : Fine dialogue) (ended : dialogue.ended = true)
    (held : dialogue.held = 0) (final : text ≠ "150 Opening data transfer\r\n")
    (refuses : refusal (.line text) = false)
    (told : changeTold (.line text) = none)
    (kind : kindTold (.line text) = none) :
    Kept (answers (.line text) env) dialogue := by
  refine kept_answers env dialogue _ ?_ fine.phase ?_
  · intro same
    exact final (Reply.line.inj same)
  · refine ⟨iff_of_false (by simp) ?_, ?_, fun _ => ⟨ended, held⟩, ?_,
      findingTold_of_untold dialogue _ kind rfl⟩
    · rw [fine.failed]
      exact Bool.false_ne_true
    · intro refused
      rw [refuses] at refused
      contradiction
    · rw [told, fine.changed]

theorem kept_close_returns (env : FtpEnv) (dialogue : Dialogue) (role : Role)
    (fd result : Int) (phase : dialogue.phase = .idle)
    (written : result = 0 → dialogue.lost = false) :
    Kept (.call (.close role fd) fun _ => returns env result) dialogue :=
  kept_close dialogue role fd _ fun _ =>
    kept_returns env _ result phase written

theorem kept_breakOff (env : FtpEnv) (dialogue : Dialogue) (fd : Int)
    (broken : Broken dialogue) : Kept (breakOff env fd) dialogue := by
  refine kept_perror env dialogue broken _ fun result after idle written => ?_
  refine kept_close after .data _ _ fun answer => ?_
  exact kept_close_returns env _ .file fd result idle written

theorem kept_closeBoth (env : FtpEnv) (dialogue : Dialogue) (fd : Int)
    (text : String) (fine : Fine dialogue) (ended : dialogue.ended = true)
    (held : dialogue.held = 0) (final : text ≠ "150 Opening data transfer\r\n")
    (refuses : refusal (.line text) = false)
    (told : changeTold (.line text) = none)
    (kind : kindTold (.line text) = none) :
    Kept (closeBoth env fd (.line text)) dialogue := by
  refine kept_close dialogue .file fd _ fun answer => ?_
  have closed := fine_calls dialogue (.close .file fd) answer fine rfl rfl
  refine kept_dataClose env _ _ closed ?_ ?_
  · intro after broken
    exact kept_fails env after broken
  · intro after fine stillEnded stillHeld
    refine kept_completes env after text fine ?_ (stillHeld.trans held) final
      refuses told kind
    rw [stillEnded]
    show (_ || _) = true
    rw [ended, Bool.true_or]

theorem kept_openTransfer (env : FtpEnv) (dialogue : Dialogue) (fd : Int)
    (loop : FtpEnv → Point) (fine : Fine dialogue)
    (phase : dialogue.phase = .executing) (held : dialogue.held = 0)
    (enters : ∀ opened after, Moving after → ready (loop opened) after) :
    Kept (openTransfer env fd loop) dialogue := by
  refine kept_opening env dialogue _ fine phase held ?_
  intro result after moving lost
  split
  · rename_i unwritten
    refine kept_close after .file fd _ fun answer => ?_
    exact kept_finish env _ (Or.inr ⟨moving.phase, lost unwritten⟩)
  · refine kept_dataOpen env after _ moving.fine moving.held ?_ ?_
    · intro opened other broken
      exact kept_perror_close opened other broken .file fd
    · intro opened other fine phase held
      exact enters opened other ⟨fine, phase.trans moving.phase, held⟩

theorem kept_ftpCmdRetr : KeptCommand ftpCmdRetr := by
  intro env arg
  rw [ftpCmdRetr]
  split
  · exact kept_refuses env _ ⟨by decide, rfl, rfl, rfl⟩
  · refine kept_statThen env _ _ fun st zero => ?_
    have there := fine_stat begun fine_begun (ftpAbspath env arg) st zero
    split
    · rename_i isDir
      have found := found_stat begun (ftpAbspath env arg) st zero
      rw [isDir] at found
      refine kept_finding _ _ there _ ⟨by simp, by decide⟩ rfl rfl rfl
        ⟨fun told same => Or.inl ⟨st.data.size, ?_⟩, by simp [sizeTold]⟩
      cases Option.some.inj same
      exact found
    · refine kept_checked _ _ _ rfl there (fun _ => rfl) ?_ ?_
      · intro fd after failing broken
        rw [if_pos (of_decide_eq_true failing)]
        exact kept_fails env after broken
      · intro fd good after same fine
        rw [if_neg (of_decide_eq_false good)]
        refine kept_openTransfer env after _ _ fine ?_ ?_ fun _ _ => id
        · rw [same]
          rfl
        · rw [same]
          rfl

theorem kept_retrieving (env : FtpEnv) (fd : Int) (dialogue : Dialogue)
    (moving : Moving dialogue) : Kept (retrieving env fd) dialogue := by
  refine kept_checked dialogue _ _ rfl moving.fine (fun _ => rfl) ?_ ?_
  · intro len after failing broken
    have negative : len.value < 0 := of_decide_eq_true failing
    rw [if_neg (by omega), if_pos negative]
    exact kept_breakOff env after fd broken
  · intro len good after same fine
    have held : after.held = len.value := by
      rw [same]
      rfl
    rw [if_neg (of_decide_eq_false good)]
    split
    · rename_i zero
      refine kept_closeBoth env after fd _ fine ?_ (held.trans zero) (by decide)
        rfl rfl rfl
      rw [same]
      show (_ || decide (len.value = 0)) = true
      rw [zero, Bool.or_eq_true]
      exact Or.inr rfl
    · refine kept_checked after _ _ rfl fine (fun _ => rfl) ?_ ?_
      · intro written other failing broken
        rw [if_pos (of_decide_eq_true failing)]
        exact kept_breakOff env other fd broken
      · intro written good other passed still
        have whole := of_decide_eq_false good
        rw [if_neg whole]
        refine ⟨still, ?_, ?_⟩
        · rw [passed, same]
          exact moving.phase
        · rw [passed]
          show after.held - written.value = 0
          rw [held]
          omega

theorem kept_stor (env : FtpEnv) (arg : Text) (dialogue : Dialogue)
    (fine : Fine dialogue) (phase : dialogue.phase = .executing)
    (held : dialogue.held = 0) (begins : arg = [] → dialogue = begun) :
    Kept (ftpCmdStor env arg) dialogue := by
  rw [ftpCmdStor]
  split
  · rename_i none
    rw [begins none]
    exact kept_refuses _ _ ⟨by decide, rfl, rfl, rfl⟩
  · refine kept_checked dialogue _ _ rfl fine (fun _ => rfl) ?_ ?_
    · intro fd after failing broken
      rw [if_pos (of_decide_eq_true failing)]
      exact kept_fails _ after broken
    · intro fd good opened same fine
      rw [if_neg (of_decide_eq_false good)]
      refine kept_checked opened _ _ rfl fine (fun _ => rfl) ?_ ?_
      · intro position after failing broken
        rw [if_pos (of_decide_eq_true failing)]
        exact kept_perror_close _ after broken .file fd.value
      · intro position good after sought fine
        rw [if_neg (of_decide_eq_false good)]
        refine kept_openTransfer _ after _ _ fine ?_ ?_ fun _ _ => id
        · rw [sought, same]
          exact phase
        · rw [sought, same]
          exact held

theorem kept_ftpCmdStor : KeptCommand ftpCmdStor := fun env arg =>
  kept_stor env arg begun fine_begun rfl rfl fun _ => rfl

theorem kept_ftpCmdAppe : KeptCommand ftpCmdAppe := by
  intro env arg
  rw [ftpCmdAppe]
  split
  · exact kept_refuses env _ ⟨by decide, rfl, rfl, rfl⟩
  · rename_i some
    split
    · refine kept_statThen env _ _ fun st zero => ?_
      exact kept_stor _ arg _ (fine_stat begun fine_begun _ st zero) rfl rfl
        fun none => absurd none some
    · exact kept_ftpCmdStor env arg

/-- An error of `recv` is passed on to `write` as a length of -1. -/
theorem kept_storing (env : FtpEnv) (fd : Int) (off : BitVec 64)
    (dialogue : Dialogue) (moving : Moving dialogue) :
    Kept (storing env fd off) dialogue := by
  refine kept_checked dialogue (.use .recv env.dataFd) _ rfl moving.fine
    (fun _ => rfl) (fun _ _ failing => absurd failing Bool.false_ne_true) ?_
  intro len _ after same fine
  have held : after.held = len.value := by
    rw [same]
    rfl
  split
  · rename_i zero
    have ended : after.ended = true := by
      rw [same]
      show (_ || decide (len.value = 0)) = true
      rw [zero, Bool.or_eq_true]
      exact Or.inr rfl
    refine kept_checked after _ _ rfl fine (fun _ => rfl) ?_ ?_
    · intro cut other failing broken
      rw [if_pos (of_decide_eq_true failing)]
      exact kept_breakOff env other fd broken
    · intro cut good other done still
      rw [if_neg (of_decide_eq_false good)]
      refine kept_closeBoth env other fd _ still ?_ ?_ (by decide) rfl rfl rfl
      · rw [done]
        show (_ || _) = true
        rw [ended, Bool.true_or]
      · rw [done]
        exact held.trans zero
  · refine kept_checked after _ _ rfl fine (fun _ => rfl) ?_ ?_
    · intro written other failing broken
      rw [if_pos (of_decide_eq_true failing)]
      exact kept_breakOff env other fd broken
    · intro written good other passed still
      have whole := of_decide_eq_false good
      rw [if_neg whole]
      refine ⟨still, ?_, ?_⟩
      · rw [passed, same]
        exact moving.phase
      · rw [passed]
        show after.held - written.value = 0
        rw [held]
        omega

/-! ## Listings -/

theorem kept_ftpCmdList : KeptCommand ftpCmdList := by
  intro env arg
  refine kept_checked begun _ _ rfl fine_begun (fun _ => rfl) ?_ ?_
  · intro dir after failing broken
    rw [if_pos (of_decide_eq_true failing)]
    exact kept_fails env after broken
  · intro dir good after same fine
    rw [if_neg (of_decide_eq_false good)]
    refine kept_dataOpen env after _ fine ?_ ?_ ?_
    · rw [same]
      rfl
    · intro opened other broken
      exact kept_fails opened other broken
    · intro opened other fine phase held
      rw [if_neg (not_not_intro rfl)]
      refine kept_opening opened other _ fine ?_ held ?_
      · rw [phase, same]
        rfl
      · intro result last moving _
        exact moving

theorem kept_listingEnd (env : FtpEnv) (dir : Int) (dialogue : Dialogue)
    (fine : Fine dialogue) (ended : dialogue.ended = true)
    (held : dialogue.held = 0) : Kept (listingEnd env dir) dialogue := by
  refine kept_dataClose env dialogue _ fine ?_ ?_
  · intro after broken
    exact kept_perror_close env after broken .dir dir
  · intro after fine stillEnded stillHeld
    refine kept_close after .dir dir _ fun answer => ?_
    by_cases zero : answer.value = 0
    · rw [if_neg (not_not_intro zero)]
      refine kept_completes env _ _ (fine_calls after _ _ fine
        (decide_eq_false (not_not_intro zero)) rfl) ?_ (stillHeld.trans held)
        (by decide) rfl rfl rfl
      show (_ || _) = true
      rw [stillEnded, ended, Bool.true_or]
    · rw [if_pos zero]
      exact kept_fails env _ (broken_calls after _ _ fine (decide_eq_true zero)
        rfl)

/-- A call that a listing does not ask for. -/
theorem moving_calls (dialogue : Dialogue) (request : Request Call Role)
    (answer : Answer Buffers) (moving : Moving dialogue)
    (unasked : fails .opened request answer.value = false)
    (changes : changedBy request answer.value = none)
    (holds : heldAfter 0 request answer.value = 0) :
    Moving (dialogue.calls request answer) where
  fine := by
    refine fine_calls dialogue request answer moving.fine ?_ changes
    rw [moving.phase, unasked]
  phase := moving.phase
  held := by
    show heldAfter dialogue.held request answer.value = 0
    rw [moving.held, holds]

theorem kept_listing (env : FtpEnv) (path : Text) (dir : Int)
    (dialogue : Dialogue) (moving : Moving dialogue) :
    Kept (listing env path dir) dialogue := by
  refine kept_checked dialogue (.use .readdir dir) _ rfl moving.fine
    (fun _ => rfl) (fun _ _ failing => absurd failing Bool.false_ne_true) ?_
  intro ent _ after same fine
  have still : Moving after := by
    rw [same]
    exact moving_calls dialogue _ _ moving rfl rfl rfl
  split
  · rename_i negative
    refine kept_listingEnd env dir after fine ?_ still.held
    rw [same]
    show (_ || decide (ent.value < 0)) = true
    rw [decide_eq_true negative, Bool.or_true]
  · intro found
    refine ⟨proper_working after _ found rfl fine.phase, ?_⟩
    have unchanged : changedBy (.plain (.stat
        (entryPath env path ent.data.name))) found.value = none := ite_self _
    have seen := moving_calls after _ found still rfl unchanged rfl
    rw [note_working after _ found rfl]
    dsimp only
    split
    · exact seen
    · intro sent
      exact ⟨proper_working _ _ sent rfl seen.fine.phase,
        moving_calls _ _ sent seen rfl rfl rfl⟩

/-! ## Sessions -/

theorem kept_commands : ∀ command ∈ commands, KeptCommand command.2 := by
  have dele : KeptCommand ftpCmdDele :=
    kept_pathCommand _ _ _ .removed ⟨by decide, rfl, rfl, rfl⟩ (fun _ => rfl)
      (fun _ _ => rfl) (fun _ => rfl) rfl ⟨rfl, rfl, by decide⟩ rfl
  have mkd : KeptCommand ftpCmdMkd :=
    kept_pathCommand _ _ _ .made ⟨by decide, rfl, rfl, rfl⟩ (fun _ => rfl)
      (fun _ _ => rfl) (fun _ => rfl) rfl ⟨rfl, rfl, by decide⟩ rfl
  have rmd : KeptCommand ftpCmdRmd :=
    kept_pathCommand _ _ _ .unmade ⟨by decide, rfl, rfl, rfl⟩ (fun _ => rfl)
      (fun _ _ => rfl) (fun _ => rfl) rfl ⟨rfl, rfl, by decide⟩ rfl
  have line : ∀ text : String, text ≠ "150 Opening data transfer\r\n" →
      completion (.line text) = false → changeTold (.line text) = none →
        kindTold (.line text) = none →
          KeptCommand fun env _ => answers (.line text) env :=
    fun text final completes told kind env arg =>
      kept_refuses env text ⟨final, completes, told, kind⟩
  have pwd : KeptCommand ftpCmdPwd :=
    kept_answering _ (fun _ => ⟨by simp, by simp [opening]⟩) (fun _ => rfl)
      (fun _ => rfl) (fun _ => rfl) fun _ => rfl
  have kill : KeptCommand ftpCmdKill := fun _ _ => trivial
  have noop := line "200 NOOP OK\r\n" (by decide) rfl rfl rfl
  have syst := line "215 UNIX Type: L8\r\n" (by decide) rfl rfl rfl
  have user := line "230 User logged in\r\n" (by decide) rfl rfl rfl
  have mtrw := line "226 command not supported\r\n" (by decide) rfl rfl rfl
  have unavailable := line "502 Command not implemented\r\n" (by decide) rfl rfl rfl
  simp only [commands, List.forall_mem_cons, List.not_mem_nil, false_implies,
    implies_true, and_true]
  exact ⟨kept_ftpCmdAppe, kept_ftpCmdCdup, kept_ftpCmdCwd, dele, kept_ftpCmdList, mkd,
    noop, kept_ftpCmdPasv, kept_ftpCmdPort, pwd, kept_ftpCmdQuit,
    kept_ftpCmdRest, kept_ftpCmdRetr, rmd, kept_ftpCmdRnfr, kept_ftpCmdRnto,
    kept_ftpCmdSize, kept_ftpCmdStor, syst, kept_ftpCmdType, user, kill, mtrw,
    kept_ftpCmdChmod, kept_ftpCmdCwd, mkd, pwd, rmd, unavailable, unavailable,
    unavailable, unavailable⟩

theorem kept_execute (env : FtpEnv) (line : Text) :
    Kept (ftpExecute env line) begun := by
  rw [ftpExecute]
  split
  · rename_i command found
    exact kept_commands command (List.mem_of_find?_eq_some found) env _
  · exact kept_refuses env _ ⟨by decide, rfl, rfl, rfl⟩

theorem note_readByte (dialogue : Dialogue) (fd : Int) (len : Answer Buffers)
    (unread : lineRead (.use .readByte fd) len = none) :
    note dialogue ⟨.use .readByte fd, len⟩ = dialogue := by
  simp only [note, unread]
  rfl

theorem kept_readLine (env : FtpEnv) (dialogue : Dialogue)
    (settled : Over dialogue) : Kept (readLine env) dialogue := by
  apply keeps_call
  · exact fun _ => ⟨⟨settled.phase, settled.lost⟩, trivial⟩
  intro len
  split
  · rename_i interrupted
    have unread : lineRead (.use .readByte env.activeFd) len = none :=
      if_neg (by omega)
    rw [note_readByte dialogue env.activeFd len unread]
    exact settled
  split
  · rename_i closed
    have unread : lineRead (.use .readByte env.activeFd) len = none :=
      if_neg (by omega)
    rw [note_readByte dialogue env.activeFd len unread]
    exact kept_finish env dialogue (Or.inl settled.phase)
  rename_i positive
  split
  · rename_i unfinished
    have unread : lineRead (.use .readByte env.activeFd) len = none :=
      (if_pos (by omega)).trans unfinished
    rw [note_readByte dialogue env.activeFd len unread]
    exact settled
  · rename_i line finished
    have whole : lineRead (.use .readByte env.activeFd) len = some line :=
      (if_pos (by omega)).trans finished
    have begins : note dialogue ⟨.use .readByte env.activeFd, len⟩ = begun := by
      simp only [note, whole]
    rw [begins]
    exact kept_execute env _

theorem kept_serve (env : FtpEnv) (dialogue : Dialogue) (settled : Over dialogue) :
    Kept (serve env) dialogue := by
  apply keeps_silent
  · exact fun _ => ⟨⟨settled.phase, settled.lost⟩, trivial⟩
  · exact fun _ => rfl
  intro buffer
  split
  · exact kept_finish env dialogue (Or.inl settled.phase)
  · exact settled

theorem kept_body (point : Point) (dialogue : Dialogue)
    (standing : ready point dialogue) : Kept (body point) dialogue := by
  cases point with
  | serve env => exact kept_serve env dialogue standing
  | readLine env => exact kept_readLine env dialogue standing
  | listing env path dir => exact kept_listing env path dir dialogue standing
  | retrieving env fd => exact kept_retrieving env fd dialogue standing
  | storing env fd off => exact kept_storing env fd off dialogue standing

theorem proper_trace (connfd : Nat) (trace : List FtpExchange)
    (rest : FtpProgram)
    (executes : Executes body (ftpThread connfd) trace rest) :
    EveryStep note Proper {} trace := by
  apply everyStep_of_keeps body note Proper ready kept_body _ rest trace executes
  apply keeps_silent
  · exact fun _ => ⟨trivial, trivial⟩
  · exact fun _ => rfl
  intro answer
  split
  · exact ⟨rfl, rfl⟩
  · exact kept_finish _ _ (Or.inl rfl)

/-! ## Lines and replies -/

def endsLine (exchange : FtpExchange) : Bool :=
  (lineRead exchange.request exchange.answer).isSome

def isFinal (exchange : FtpExchange) : Bool :=
  match exchange.request with
  | .use (.reply reply) _ => reply ≠ opening
  | _ => false

/-- The command that waits for its final reply, if there is one. -/
def waiting (dialogue : Dialogue) : Nat :=
  if dialogue.phase = .idle then 0 else 1

theorem waiting_line (dialogue : Dialogue) (exchange : FtpExchange)
    (orderly : Orderly dialogue exchange) (ends : endsLine exchange = true) :
    waiting dialogue = 0 ∧ waiting (note dialogue exchange) = 1 ∧
      isFinal exchange = false := by
  obtain ⟨request, answer⟩ := exchange
  obtain ⟨line, whole⟩ := Option.isSome_iff_exists.mp ends
  simp only at whole
  have begins : note dialogue ⟨request, answer⟩ = begun := by
    simp only [note, whole]
  unfold lineRead at whole
  split at whole
  · exact ⟨if_pos orderly.1, by rw [begins]; rfl, rfl⟩
  · contradiction

theorem waiting_step (dialogue : Dialogue) (exchange : FtpExchange)
    (orderly : Orderly dialogue exchange) (unread : endsLine exchange = false) :
    waiting dialogue =
      waiting (note dialogue exchange) + (isFinal exchange).toNat := by
  obtain ⟨request, answer⟩ := exchange
  have none : lineRead request answer = none := by
    simpa [endsLine] using unread
  have silent : ∀ after : Dialogue, after.phase = dialogue.phase →
      waiting dialogue = waiting after + 0 := by
    intro after same
    rw [waiting, waiting, same, Nat.add_zero]
  by_cases works : working request = true
  · rw [note_working dialogue request answer works]
    cases request with
    | use label fd =>
        cases label with
        | reply reply => contradiction
        | _ => exact silent _ rfl
    | plain label => exact silent _ rfl
    | acquire role label through => exact silent _ rfl
    | close role fd => contradiction
  · cases request with
    | use label fd =>
        cases label with
        | reply reply =>
            by_cases opens : reply = opening
            · have executing : dialogue.phase = .executing := by
                have due : if reply = opening then dialogue.phase = .executing
                    else dialogue.phase ≠ .idle := orderly
                rwa [if_pos opens] at due
              subst opens
              rw [waiting, executing]
              rfl
            · have waits : dialogue.phase ≠ .idle := by
                have due : if reply = opening then dialogue.phase = .executing
                    else dialogue.phase ≠ .idle := orderly
                rwa [if_neg opens] at due
              have after : (note dialogue ⟨.use (.reply reply) fd,
                  answer⟩).phase = .idle := by
                show (dialogue.answered reply answer.value).phase = .idle
                simp only [Dialogue.answered, if_neg opens]
              have final : isFinal ⟨.use (.reply reply) fd, answer⟩ = true :=
                decide_eq_true opens
              rw [waiting, waiting, if_neg waits, if_pos after, final]
              rfl
        | readByte =>
            rw [note_readByte dialogue fd answer none]
            exact silent _ rfl
        | greeting => exact silent _ rfl
        | _ => exact absurd rfl works
    | plain label =>
        cases label with
        | calloc => exact silent _ rfl
        | pthreadExit => exact silent _ rfl
        | _ => exact absurd rfl works
    | acquire role label through => exact absurd rfl works
    | close role fd => exact silent _ rfl

theorem waiting_run (dialogue : Dialogue) (trace : List FtpExchange)
    (orderly : EveryStep note Orderly dialogue trace) :
    waiting dialogue + trace.countP endsLine =
      trace.countP isFinal + waiting (trace.foldl note dialogue) := by
  induction trace generalizing dialogue with
  | nil => simp
  | cons exchange trace ih =>
      obtain ⟨here, later⟩ := orderly
      have rest := ih _ later
      rw [List.foldl_cons, List.countP_cons, List.countP_cons]
      cases ends : endsLine exchange with
      | true =>
          obtain ⟨before, after, notFinal⟩ :=
            waiting_line dialogue exchange here ends
          rw [notFinal]
          simp only [if_true, Bool.false_eq_true, if_false]
          omega
      | false =>
          have step := waiting_step dialogue exchange here ends
          cases final : isFinal exchange with
          | true =>
              rw [final] at step
              simp only [if_true, Bool.false_eq_true, if_false]
              have one : true.toNat = 1 := rfl
              omega
          | false =>
              rw [final] at step
              simp only [Bool.false_eq_true, if_false]
              have zero : false.toNat = 0 := rfl
              omega

/-- A directory is made, one that is missing is removed, and a file is sent. -/
def threeCommands : List (Answer Buffers) :=
  nextLine "MKD /a" ++ [given 0, given 0] ++
    nextLine "RMD /b" ++ [given (-1), given 0] ++
    nextLine "RETR /c" ++ [given 0, given 4, given 0, given 5, given 10,
      given 10, given 0, given 0, given 0, given 0]

end HenPlugins.Ftp.Replies
