import HenPlugins.Ftp.FtpSessions

/-!
# Sessions and their descriptors

`data_fd` keeps its number when the data connection is closed, and
`passive_fd` when `ftp_cmd_PASV` fails behind `socket`; an open `data_fd` may be
overwritten, `ftp_cmd_LIST` may leave its directory open, and the number 0 is
not closed.  A run without these steps loses no descriptor.
-/

set_option autoImplicit false

namespace HenPlugins.Ftp.OwnDescriptors

open HenPlugins.Lib.ByteText
open HenPlugins.Lib.CallProgram
open HenPlugins.Lib.SharedDescriptors
open HenPlugins.Lib.EventRun
open HenPlugins.Ftp.SessionCalls
open HenPlugins.Ftp.Commands
open HenPlugins.Ftp.FtpSessions

/-! ## The steps that go wrong -/

/-- By what became of a session's last descriptors, the step is one of these:
- the thread ends after a transfer, or after a `PASV` that failed behind
  `socket`, or such a `PASV` is followed by another one;
- a transfer connects, but no `PORT` came after the transfer before;
- a transfer accepts on the socket of a `PASV` that failed;
- `PORT` succeeded, and before a transfer closed its socket another `PORT`
  comes, or a transfer that accepts;
- `LIST` cannot open its data connection;
- a connection has the number 0 when the thread ends or the next `PASV`
  comes. -/
def losesTrack (slots : Slots Role) :
    Request Call Role → Answer Buffers → Bool
  | .close .data _, _ => slots .data = .closed
  | .close .passive _, _ => slots .passive = .closed
  | .use (.connect _) _, answer =>
      slots .data = .closed ∨ ((slots .dir).IsOpened ∧ answer.value ≠ 0)
  | .acquire .data .accept _, answer =>
      slots .passive = .closed ∨ (slots .data).IsOpened ∨
        ((slots .dir).IsOpened ∧ answer.value < 0)
  | .acquire .data .socket _, _ => (slots .data).IsOpened
  | .acquire .passive .socket _, _ => (slots .passive).IsOpened
  | .plain .pthreadExit, _ =>
      slots .active = .opened 0 ∨ slots .passive = .opened 0 ∨
        slots .data = .opened 0
  | _, _ => false

def KeepsTrack (slots : Slots Role) (request : Request Call Role)
    (answer : Answer Buffers) : Prop :=
  losesTrack slots request answer = false

instance (slots : Slots Role) (request : Request Call Role)
    (answer : Answer Buffers) : Decidable (KeepsTrack slots request answer) :=
  inferInstanceAs (Decidable (_ = false))

/-- The calls of a session are made on its own descriptors, and a thread that
ended has closed each of them once. -/
structure OwnsDescriptors (inUse : Nat → Bool) (events : List ServerEvent)
    (final : Server) : Prop where
  calls : Along serverStep OwnStep (startServer inUse) events
  ends : ∀ index session, final.sessions[index]? = some session →
    session.program = .done → ReturnsAll final index session

/-! ## What a session holds between its calls -/

/-- The descriptors of the environment. -/
structure Fds where
  active : Int
  passive : Int
  data : Int

def fds (env : FtpEnv) : Fds := ⟨env.activeFd, env.passiveFd, env.dataFd⟩

/-- A descriptor that is held just while its variable is in scope. -/
def Local (slot : Slot) : Option Int → Prop
  | none => ¬ slot.IsOpened
  | some fd => slot.IsOpened ∧ slot.Keeps fd

structure Holding (fds : Fds) (file dir : Option Int) (slots : Slots Role) :
    Prop where
  active : Local (slots .active) (some fds.active)
  passive : (slots .passive).Keeps fds.passive
  data : (slots .data).Keeps fds.data
  file : Local (slots .file) file
  dir : Local (slots .dir) dir

def ready : Point → Slots Role → Prop
  | .serve env, slots => Holding (fds env) none none slots
  | .readLine env, slots => Holding (fds env) none none slots
  | .listing env _ dir, slots =>
      Holding (fds env) none (some dir) slots ∧ slots .data ≠ .closed
  | .retrieving env fd, slots =>
      Holding (fds env) (some fd) none slots ∧ slots .data ≠ .closed
  | .storing env fd _, slots =>
      Holding (fds env) (some fd) none slots ∧ slots .data ≠ .closed

abbrev Good (program : FtpProgram) (slots : Slots Role) : Prop :=
  Safe KeepsTrack ready program slots

theorem ne_closed_of_isOpened (slot : Slot) (opened : slot.IsOpened) :
    slot ≠ .closed := by
  intro closed
  rw [closed] at opened
  exact opened

theorem covers_of_local (slots : Slots Role) (role : Role) (fd : Int)
    (here : Local (slots role) (some fd)) : slots.Covers fd := by
  obtain ⟨opened, kept⟩ := here
  exact covers_of_keeps slots role fd kept (ne_closed_of_isOpened _ opened)

theorem local_of_failed (value : Int) (failed : value < 0) :
    Local (Slot.ofValue value) none := by
  rw [Slot.ofValue, if_pos failed]
  exact id

theorem local_of_succeeded (value : Int) (succeeded : ¬ value < 0) :
    Local (Slot.ofValue value) (some value) := by
  refine ⟨?_, keeps_ofValue value⟩
  rw [Slot.ofValue, if_neg succeeded]
  trivial

section Updates
variable (held : Fds) (file dir : Option Int) (slots : Slots Role)
  (holding : Holding held file dir slots) (slot : Slot)

include holding in
theorem holding_file (other : Option Int) (here : Local slot other) :
    Holding held other dir (Function.update slots .file slot) where
  active := by simpa using holding.active
  passive := by simpa using holding.passive
  data := by simpa using holding.data
  file := by simpa using here
  dir := by simpa using holding.dir

include holding in
theorem holding_dir (other : Option Int) (here : Local slot other) :
    Holding held file other (Function.update slots .dir slot) where
  active := by simpa using holding.active
  passive := by simpa using holding.passive
  data := by simpa using holding.data
  file := by simpa using holding.file
  dir := by simpa using here

include holding in
theorem holding_data (fd : Int) (kept : slot.Keeps fd) :
    Holding { held with data := fd } file dir
      (Function.update slots .data slot) where
  active := by simpa using holding.active
  passive := by simpa using holding.passive
  data := by simpa using kept
  file := by simpa using holding.file
  dir := by simpa using holding.dir

include holding in
theorem holding_passive (fd : Int) (kept : slot.Keeps fd) :
    Holding { held with passive := fd } file dir
      (Function.update slots .passive slot) where
  active := by simpa using holding.active
  passive := by simpa using kept
  data := by simpa using holding.data
  file := by simpa using holding.file
  dir := by simpa using holding.dir

end Updates

/-! ## The helpers -/

section Helpers
variable (env : FtpEnv) (file dir : Option Int) (slots : Slots Role)

/-- What is left of a role whose positive number is closed. -/
theorem good_closeIfPositive (role : Role) (fd : Int) (rest : FtpProgram)
    (kept : (slots role).Keeps fd)
    (fresh : ∀ answer, KeepsTrack slots (.close role fd) answer →
      slots role ≠ .closed)
    (later : ∀ slot : Slot, slot.Keeps fd →
      (∀ number, slot = .opened number → number = 0) →
      Good rest (Function.update slots role slot)) :
    Good (closeIfPositive role fd rest) slots := by
  rw [closeIfPositive]
  split
  · apply safe_close KeepsTrack ready slots _ role fd kept fresh
    intro answer _
    apply later
    · exact keeps_close (slots role) fd kept
    · intro number opened
      have none := close_not_opened (slots role)
      rw [opened] at none
      exact absurd trivial none
  · rename_i nonpositive
    have same := later (slots role) kept (by
      intro number opened
      rw [opened, Slot.Keeps] at kept
      omega)
    rw [Function.update_eq_self] at same
    exact same

theorem good_finish (holding : Holding (fds env) none none slots) :
    Good (finish env) slots := by
  have active : Local (slots .active) (some env.activeFd) := holding.active
  have passive : (slots .passive).Keeps env.passiveFd := holding.passive
  have data : (slots .data).Keeps env.dataFd := holding.data
  have file : ¬ (slots .file).IsOpened := holding.file
  have dir : ¬ (slots .dir).IsOpened := holding.dir
  rw [finish]
  apply good_closeIfPositive slots .active _ _ active.2
  · intro _ _
    exact ne_closed_of_isOpened _ active.1
  intro activeSlot _ activeZero
  apply good_closeIfPositive _ .passive
  · simpa using passive
  · intro _ track
    simpa [KeepsTrack, losesTrack] using track
  intro passiveSlot _ passiveZero
  apply good_closeIfPositive _ .data
  · simpa using data
  · intro _ track
    simpa [KeepsTrack, losesTrack] using track
  intro dataSlot _ dataZero
  apply safe_plain
  intro _ track role opened
  -- a slot that is still open has the number 0, which is sound for none
  simp only [KeepsTrack, losesTrack, Function.update_self,
    Function.update_of_ne, ne_eq, reduceCtorEq, not_false_eq_true,
    decide_eq_false_iff_not, not_or] at track
  obtain ⟨noActive, noPassive, noData⟩ := track
  cases role with
  | active =>
      simp only [Function.update_self, Function.update_of_ne, ne_eq,
        reduceCtorEq, not_false_eq_true, isOpened_iff] at opened
      obtain ⟨number, rfl⟩ := opened
      rw [activeZero number rfl] at noActive
      exact noActive rfl
  | passive =>
      simp only [Function.update_self, Function.update_of_ne, ne_eq,
        reduceCtorEq, not_false_eq_true, isOpened_iff] at opened
      obtain ⟨number, rfl⟩ := opened
      rw [passiveZero number rfl] at noPassive
      exact noPassive rfl
  | data =>
      simp only [Function.update_self, isOpened_iff] at opened
      obtain ⟨number, rfl⟩ := opened
      rw [dataZero number rfl] at noData
      exact noData rfl
  | file => exact file (by simpa using opened)
  | dir => exact dir (by simpa using opened)

theorem good_returns (result : Int)
    (holding : Holding (fds env) none none slots) :
    Good (returns env result) slots := by
  rw [returns]
  split
  · exact holding
  · exact good_finish env slots holding

/-- A reply is written to the session's connection. -/
theorem good_printf (holding : Holding (fds env) file dir slots)
    (reply : Reply) (next : Int → FtpProgram)
    (later : ∀ result, Good (next result) slots) :
    Good (ftpActivePrintf env reply next) slots := by
  rw [ftpActivePrintf]
  apply safe_use
  · exact covers_of_local slots .active env.activeFd holding.active
  · intro answer _
    exact later _

theorem good_answers (holding : Holding (fds env) none none slots)
    (reply : Reply) : Good (answers reply env) slots :=
  good_printf env none none slots holding reply _ fun result =>
    good_returns env slots result holding

theorem good_perror (holding : Holding (fds env) none none slots) :
    Good (ftpPerror env (returns env)) slots :=
  good_answers env slots holding .perror

theorem good_callThen (holding : Holding (fds env) none none slots)
    (call : Call) (next : Buffers → FtpProgram)
    (later : ∀ buffers, Good (next buffers) slots) :
    Good (callThen env call next) slots := by
  rw [callThen]
  apply safe_plain
  intro answer _
  split
  · exact good_perror env slots holding
  · exact later _

/-- The data connection is on a descriptor of the session, and `LIST` has
one. -/
theorem good_dataOpen (holding : Holding (fds env) file dir slots)
    (next : FtpEnv → Int → FtpProgram)
    (later : ∀ opened after failed,
      Holding (fds opened) file dir after → (failed = 0 →
        after .data ≠ .closed) → (dir.isSome → failed = 0) →
      Good (next opened failed) after) :
    Good (ftpDataOpen env next) slots := by
  have listed : dir.isSome → (slots .dir).IsOpened := by
    intro some
    have here := holding.dir
    obtain ⟨fd, rfl⟩ := Option.isSome_iff_exists.mp some
    exact here.1
  rw [ftpDataOpen]
  split
  · intro answer track
    simp only [KeepsTrack, losesTrack, decide_eq_false_iff_not, not_or,
      not_and, not_not] at track
    obtain ⟨fresh, connected⟩ := track
    refine ⟨covers_of_keeps slots .data env.dataFd holding.data fresh, ?_⟩
    refine later env slots _ holding (fun _ => fresh) ?_
    intro some
    rw [if_neg (not_not_intro (connected (listed some)))]
  · intro answer track
    simp only [KeepsTrack, losesTrack, decide_eq_false_iff_not, not_or,
      not_and] at track
    obtain ⟨fresh, empty, accepted⟩ := track
    refine ⟨⟨empty, ?_⟩, ?_⟩
    · intro fd same
      cases Option.some.inj same
      exact covers_of_keeps slots .passive env.passiveFd holding.passive fresh
    · refine later _ _ _ (holding_data _ file dir slots holding _
        answer.value (keeps_ofValue _)) ?_ ?_
      · intro _
        rw [Slots.after, Function.update_self]
        exact ofValue_ne_closed _
      · intro some
        rw [if_neg (accepted (listed some))]

theorem good_dataClose (holding : Holding (fds env) file dir slots)
    (connected : slots .data ≠ .closed) (next : Int → FtpProgram)
    (later : ∀ failed after, Holding (fds env) file dir after →
      Good (next failed) after) : Good (ftpDataClose env next) slots := by
  rw [ftpDataClose]
  apply safe_close KeepsTrack ready slots _ .data env.dataFd holding.data
  · intro _ _
    exact connected
  · intro answer _
    exact later _ _ (holding_data (fds env) file dir slots holding _
      env.dataFd (keeps_close _ _ holding.data))

theorem good_closeFile (fd : Int)
    (holding : Holding (fds env) (some fd) dir slots)
    (next : Answer Buffers → FtpProgram)
    (later : ∀ answer after, Holding (fds env) none dir after →
      after .data = slots .data → Good (next answer) after) :
    Good (.call (.close .file fd) next) slots := by
  obtain ⟨opened, kept⟩ := holding.file
  apply safe_close KeepsTrack ready slots _ .file fd kept
  · intro _ _
    exact ne_closed_of_isOpened _ opened
  · intro answer _
    apply later
    · exact holding_file _ _ dir slots holding _ none (close_not_opened _)
    · exact Function.update_of_ne (by decide) ..

theorem good_closeDir (fd : Int)
    (holding : Holding (fds env) file (some fd) slots)
    (next : Answer Buffers → FtpProgram)
    (later : ∀ answer after, Holding (fds env) file none after →
      Good (next answer) after) :
    Good (.call (.close .dir fd) next) slots := by
  obtain ⟨opened, kept⟩ := holding.dir
  apply safe_close KeepsTrack ready slots _ .dir fd kept
  · intro _ _
    exact ne_closed_of_isOpened _ opened
  · intro answer _
    exact later _ _ (holding_dir _ file _ slots holding _ none
      (close_not_opened _))

end Helpers

/-! ## The loops and the commands -/

section Transfers
variable (env : FtpEnv) (slots : Slots Role) (fd : Int)
  (holding : Holding (fds env) (some fd) none slots)

include holding in
theorem good_closeThenReturn (result : Int) :
    Good (.call (.close .file fd) fun _ => returns env result) slots :=
  good_closeFile env none slots fd holding _ fun _ after idle _ =>
    good_returns env after result idle

include holding in
theorem good_breakOff (connected : slots .data ≠ .closed) :
    Good (breakOff env fd) slots := by
  rw [breakOff]
  apply good_printf env (some fd) none slots holding
  intro err
  apply good_dataClose env (some fd) none slots holding connected
  intro _ after still
  exact good_closeThenReturn env after fd still err

include holding in
theorem good_closeBoth (connected : slots .data ≠ .closed) (reply : Reply) :
    Good (closeBoth env fd reply) slots := by
  rw [closeBoth]
  apply good_closeFile env none slots fd holding
  intro _ after still same
  apply good_dataClose env none none after still
  · rw [same]
    exact connected
  · intro failed last idle
    split
    · exact good_perror env last idle
    · exact good_answers env last idle reply

include holding in
theorem good_openTransfer (loop : FtpEnv → Point)
    (enters : ∀ env slots, Holding (fds env) (some fd) none slots →
      slots .data ≠ .closed → ready (loop env) slots) :
    Good (openTransfer env fd loop) slots := by
  rw [openTransfer]
  apply good_printf env (some fd) none slots holding
  intro failed
  split
  · exact good_closeThenReturn env slots fd holding (-1)
  · apply good_dataOpen env (some fd) none slots holding
    intro opened after failed still connected _
    split
    · apply good_printf opened (some fd) none after still
      intro err
      exact good_closeThenReturn opened after fd still err
    · rename_i succeeded
      exact enters opened after still (connected (not_not.mp succeeded))

theorem good_retrieving (env : FtpEnv) (slots : Slots Role) (fd : Int)
    (holding : Holding (fds env) (some fd) none slots)
    (connected : slots .data ≠ .closed) : Good (retrieving env fd) slots := by
  rw [retrieving]
  apply safe_use _ _ _ _ _ _ (covers_of_local slots .file fd holding.file)
  intro len _
  split
  · exact good_closeBoth env slots fd holding connected _
  · split
    · exact good_breakOff env slots fd holding connected
    · apply safe_use _ _ _ _ _ _
        (covers_of_keeps slots .data env.dataFd holding.data connected)
      intro written _
      split
      · exact good_breakOff env slots fd holding connected
      · exact ⟨holding, connected⟩

theorem good_storing (env : FtpEnv) (slots : Slots Role) (fd : Int)
    (off : BitVec 64) (holding : Holding (fds env) (some fd) none slots)
    (connected : slots .data ≠ .closed) : Good (storing env fd off) slots := by
  rw [storing]
  apply safe_use _ _ _ _ _ _
    (covers_of_keeps slots .data env.dataFd holding.data connected)
  intro len _
  split
  · apply safe_use _ _ _ _ _ _ (covers_of_local slots .file fd holding.file)
    intro cut _
    split
    · exact good_breakOff env slots fd holding connected
    · exact good_closeBoth env slots fd holding connected _
  · apply safe_use _ _ _ _ _ _ (covers_of_local slots .file fd holding.file)
    intro written _
    split
    · exact good_breakOff env slots fd holding connected
    · exact ⟨holding, connected⟩

theorem good_listing (env : FtpEnv) (slots : Slots Role) (path : Text)
    (dir : Int) (holding : Holding (fds env) none (some dir) slots)
    (connected : slots .data ≠ .closed) :
    Good (listing env path dir) slots := by
  rw [listing]
  apply safe_use _ _ _ _ _ _ (covers_of_local slots .dir dir holding.dir)
  intro ent _
  split
  · rw [listingEnd]
    apply good_dataClose env none (some dir) slots holding connected
    intro failed after still
    split
    · apply good_printf env none (some dir) after still
      intro ret
      apply good_closeDir env none after dir still
      intro _ last idle
      exact good_returns env last ret idle
    · apply good_closeDir env none after dir still
      intro answer last idle
      split
      · exact good_perror env last idle
      · exact good_answers env last idle _
  · apply safe_plain
    intro found _
    split
    · exact ⟨holding, connected⟩
    · apply safe_use _ _ _ _ _ _
        (covers_of_keeps slots .data env.dataFd holding.data connected)
      intro _ _
      exact ⟨holding, connected⟩

end Transfers

section Commands
variable (env : FtpEnv) (arg : Text) (slots : Slots Role)
  (holding : Holding (fds env) none none slots)

include holding in
theorem good_pathCommand (usage done : String) (call : Text → Call) :
    Good (pathCommand usage done call env arg) slots := by
  rw [pathCommand]
  split
  · exact good_answers env slots holding _
  · apply good_callThen env slots holding
    intro _
    exact good_answers env slots holding _

include holding in
theorem good_type : Good (ftpCmdType env arg) slots := by
  unfold ftpCmdType
  split
  · split
    · apply good_answers
      exact holding
    · exact good_answers env slots holding _
  · exact good_answers env slots holding _

include holding in
theorem good_rest : Good (ftpCmdRest env arg) slots := by
  rw [ftpCmdRest]
  split
  · exact good_answers env slots holding _
  · apply good_answers
    exact holding

include holding in
theorem good_chmod : Good (ftpCmdChmod env arg) slots := by
  rw [ftpCmdChmod]
  split
  · exact good_answers env slots holding _
  · apply good_callThen env slots holding
    intro _
    exact good_answers env slots holding _

include holding in
theorem good_cwd : Good (ftpCmdCwd env arg) slots := by
  rw [ftpCmdCwd]
  split
  · exact good_answers env slots holding _
  · apply good_callThen env slots holding
    intro st
    split
    · apply good_answers
      exact holding
    · exact good_answers env slots holding _

include holding in
theorem good_size : Good (ftpCmdSize env arg) slots := by
  rw [ftpCmdSize]
  split
  · exact good_answers env slots holding _
  · apply good_callThen env slots holding
    intro _
    exact good_answers env slots holding _

include holding in
theorem good_rnfr : Good (ftpCmdRnfr env arg) slots := by
  rw [ftpCmdRnfr]
  split
  · exact good_answers env slots holding _
  · apply good_callThen
    · exact holding
    · intro _
      apply good_answers
      exact holding

include holding in
theorem good_rnto : Good (ftpCmdRnto env arg) slots := by
  rw [ftpCmdRnto]
  split
  · exact good_answers env slots holding _
  · apply good_callThen env slots holding
    intro _
    apply good_callThen env slots holding
    intro _
    exact good_answers env slots holding _

/-- A passive socket that is open is closed again. -/
theorem good_refusePassive (opened : (slots .passive).IsOpened)
    (holding : Holding (fds env) none none slots) :
    Good (refusePassive env) slots := by
  rw [refusePassive]
  apply good_printf env none none slots holding
  intro ret
  apply safe_close KeepsTrack ready slots _ .passive _ holding.passive
  · intro _ _
    exact ne_closed_of_isOpened _ opened
  · intro _ _
    exact good_returns env _ ret (holding_passive (fds env) none none slots
      holding _ env.passiveFd (keeps_close _ _ holding.passive))

/-- A call on the passive socket, which is closed if the call fails. -/
theorem good_passiveCall (label : Call) (next : Answer Buffers → FtpProgram)
    (opened : (slots .passive).IsOpened)
    (holding : Holding (fds env) none none slots)
    (later : ∀ answer, Good (next answer) slots) :
    Good (.call (.use label env.passiveFd) fun answer =>
      if answer.value ≠ 0 then refusePassive env else next answer) slots := by
  apply safe_use
  · exact covers_of_keeps slots .passive env.passiveFd holding.passive
      (ne_closed_of_isOpened _ opened)
  · intro answer _
    split
    · exact good_refusePassive env slots opened holding
    · exact later answer

include holding in
theorem good_pasvSocket (addr : BitVec 32) :
    Good (pasvSocket env addr) slots := by
  rw [pasvSocket]
  apply safe_acquire
  · intro answer track
    simpa [KeepsTrack, losesTrack] using track
  · intro _ _ fd none
    cases none
  · intro answer _
    have after := holding_passive (fds env) none none slots holding _
      answer.value (keeps_ofValue answer.value)
    simp only
    split
    · exact good_perror _ _ after
    · rename_i succeeded
      have opened : (Function.update slots .passive
          (.ofValue answer.value) .passive).IsOpened := by
        rw [Function.update_self]
        exact (local_of_succeeded answer.value succeeded).1
      apply good_passiveCall { env with passiveFd := answer.value } _ .bind _
        opened after
      intro _
      apply good_passiveCall { env with passiveFd := answer.value } _ .listen
        _ opened after
      intro _
      apply good_passiveCall { env with passiveFd := answer.value } _
        .getsockname _ opened after
      intro named
      exact good_answers _ _ after _

include holding in
theorem good_pasv : Good (ftpCmdPasv env arg) slots := by
  rw [ftpCmdPasv]
  apply safe_use _ _ _ _ _ _
    (covers_of_local slots .active env.activeFd holding.active)
  intro answer _
  split
  · exact good_perror env slots holding
  · apply good_closeIfPositive slots .passive _ _ holding.passive
    · intro _ track
      simpa [KeepsTrack, losesTrack] using track
    · intro slot kept _
      exact good_pasvSocket env _ (holding_passive (fds env) none none slots
        holding slot env.passiveFd kept) _

include holding in
theorem good_port : Good (ftpCmdPort env arg) slots := by
  rw [ftpCmdPort]
  split
  · apply safe_acquire
    · intro answer track
      simpa [KeepsTrack, losesTrack] using track
    · intro _ _ fd none
      cases none
    · intro answer _
      have after := holding_data (fds env) none none slots holding _
        answer.value (keeps_ofValue answer.value)
      simp only
      split
      · exact good_perror _ _ after
      · exact good_answers _ _ after _
  · exact good_answers env slots holding _

include holding in
theorem good_list : Good (ftpCmdList env arg) slots := by
  rw [ftpCmdList]
  apply safe_acquire
  · intro _ _
    exact holding.dir
  · intro _ _ fd none
    cases none
  · intro dir _
    split
    · rename_i failed
      exact good_perror env _ (holding_dir (fds env) none none slots holding _
        none (local_of_failed dir.value failed))
    · rename_i succeeded
      apply good_dataOpen env none (some dir.value) _ (holding_dir (fds env)
        none none slots holding _ _ (local_of_succeeded dir.value succeeded))
      intro opened after failed still connected listed
      have succeeded := listed rfl
      rw [if_neg (not_not_intro succeeded)]
      apply good_printf opened none (some dir.value) after still
      intro _
      exact ⟨still, connected succeeded⟩

include holding in
theorem good_retr : Good (ftpCmdRetr env arg) slots := by
  rw [ftpCmdRetr]
  split
  · exact good_answers env slots holding _
  · apply good_callThen env slots holding
    intro st
    split
    · exact good_answers env slots holding _
    · apply safe_acquire
      · intro _ _
        exact holding.file
      · intro _ _ fd none
        cases none
      · intro fd _
        split
        · rename_i failed
          exact good_answers env _ (holding_file (fds env) none none slots
            holding _ none (local_of_failed fd.value failed)) _
        · rename_i succeeded
          exact good_openTransfer env _ fd.value (holding_file (fds env) none
            none slots holding _ _ (local_of_succeeded fd.value succeeded))
            _ fun _ _ still connected => ⟨still, connected⟩

include holding in
theorem good_stor : Good (ftpCmdStor env arg) slots := by
  have idle : Holding (fds { env with dataOffset := 0 }) none none slots :=
    holding
  rw [ftpCmdStor]
  split
  · exact good_answers _ slots idle _
  · apply safe_acquire
    · intro _ _
      exact idle.file
    · intro _ _ fd none
      cases none
    · intro fd _
      split
      · rename_i failed
        exact good_perror _ _ (holding_file _ none none slots idle _ none
          (local_of_failed fd.value failed))
      · rename_i succeeded
        have after := holding_file _ none none slots idle _ _
          (local_of_succeeded fd.value succeeded)
        apply safe_use _ _ _ _ _ _
          (covers_of_local _ .file fd.value after.file)
        intro position _
        split
        · apply good_printf _ (some fd.value) none _ after
          intro err
          exact good_closeThenReturn _ _ fd.value after err
        · apply good_openTransfer _ _ fd.value after
          intro _ _ still connected
          exact ⟨still, connected⟩

include holding in
theorem good_appe : Good (ftpCmdAppe env arg) slots := by
  rw [ftpCmdAppe]
  split
  · exact good_answers env slots holding _
  · split
    · apply good_callThen env slots holding
      intro st
      exact good_stor _ arg slots holding
    · exact good_stor env arg slots holding

end Commands

/-! ## Whole threads -/

theorem good_command (env : FtpEnv) (arg : Text) (slots : Slots Role)
    (holding : Holding (fds env) none none slots) :
    ∀ command ∈ commands, Good (command.2 env arg) slots := by
  have line : ∀ reply, Good (answers reply env) slots :=
    good_answers env slots holding
  have path := good_pathCommand env arg slots holding
  have cwd := good_cwd env arg slots holding
  have cdup : Good (ftpCmdCdup env arg) slots := by
    apply good_answers
    exact holding
  have quit : Good (ftpCmdQuit env arg) slots :=
    good_printf env none none slots holding _ _ fun _ =>
      good_returns env slots (-1) holding
  simp only [commands, List.forall_mem_cons, List.not_mem_nil, false_implies,
    implies_true, and_true]
  exact ⟨good_appe env arg slots holding, cdup, cwd, path _ _ _,
    good_list env arg slots holding, path _ _ _, line _,
    good_pasv env arg slots holding, good_port env arg slots holding, line _,
    quit, good_rest env arg slots holding, good_retr env arg slots holding,
    path _ _ _, good_rnfr env arg slots holding,
    good_rnto env arg slots holding, good_size env arg slots holding,
    good_stor env arg slots holding, line _, good_type env arg slots holding,
    line _, trivial, line _, good_chmod env arg slots holding, cwd,
    path _ _ _, line _, path _ _ _, line _, line _, line _, line _⟩

theorem good_execute (env : FtpEnv) (line : Text) (slots : Slots Role)
    (holding : Holding (fds env) none none slots) :
    Good (ftpExecute env line) slots := by
  rw [ftpExecute]
  split
  · rename_i command found
    exact good_command env _ slots holding command (List.mem_of_find?_eq_some
      found)
  · exact good_answers env slots holding _

/-- Every loop keeps track from where it begins again. -/
theorem good_body (point : Point) (slots : Slots Role)
    (here : ready point slots) : Good (body point) slots := by
  cases point with
  | serve env =>
      apply safe_plain
      intro buffer _
      split
      · exact good_finish env slots here
      · exact here
  | readLine env =>
      apply safe_use _ _ _ _ _ _
        (covers_of_local slots .active env.activeFd here.active)
      intro len _
      split
      · exact here
      · split
        · exact good_finish env slots here
        · split
          · exact here
          · exact good_execute env _ slots here
  | listing env path dir =>
      exact good_listing env slots path dir here.1 here.2
  | retrieving env fd => exact good_retrieving env slots fd here.1 here.2
  | storing env fd off =>
      exact good_storing env slots fd off here.1 here.2

theorem good_thread (connfd : Nat) :
    Good (ftpThread connfd)
      (Function.update (fun _ => .unset) .active (.opened connfd)) := by
  have holding : Holding (fds (startEnv connfd)) none none
      (Function.update (fun _ => .unset) .active (.opened connfd)) :=
    { active := ⟨trivial, rfl⟩
      passive := Int.negSucc_lt_zero 0
      data := Int.negSucc_lt_zero 0
      file := id
      dir := id }
  apply safe_use _ _ _ _ _ _ (covers_of_local _ .active connfd holding.active)
  intro answer _
  split
  · exact holding
  · exact good_finish _ _ holding

/-- In every run without a step that loses track, sessions call on their own
descriptors, and threads that end have closed each of theirs once. -/
theorem sessions_own_descriptors (inUse : Nat → Bool)
    (events : List ServerEvent) (final : Server)
    (ran : run serverStep (startServer inUse) events = some final)
    (tracked : Along serverStep (SoundStep KeepsTrack) (startServer inUse)
      events) : OwnsDescriptors inUse events final := by
  obtain ⟨calls, ends⟩ := run_sound body ftpThread .active KeepsTrack ready
    good_thread good_body (startServer inUse).table (by
      intro index number
      simp only [startServer]
      split <;> exact nofun) events final ran tracked
  exact ⟨calls, ends⟩

def answered (value : Int) (line : Option String) : Answer Buffers where
  value := value
  data := { line := line.map ascii }

/-- The first session goes on to the next line, and reads it. -/
def nextLine (value : Int) (line : Option String) : List ServerEvent :=
  [.proceed 0, .call 0 (answered 0 none), .proceed 0,
    .call 0 (answered value line)]

def firstArrives : List ServerEvent :=
  [.arrive 3, .call 0 (answered 0 none)]

def succeeds : ServerEvent := .call 0 (answered 0 none)

/-- `PASV` gets the number 4, and `QUIT` ends the session. -/
def pasvThenQuit : List ServerEvent :=
  firstArrives ++ nextLine 1 (some "PASV") ++
    [succeeds, .call 0 (answered 4 none), succeeds, succeeds, succeeds,
      succeeds] ++
    nextLine 1 (some "QUIT") ++ [succeeds, succeeds, succeeds, succeeds]

theorem pasvThenQuit_owns : ∃ final,
    run serverStep (startServer fun _ => false) pasvThenQuit = some final ∧
      OwnsDescriptors (fun _ => false) pasvThenQuit final := by
  have ends : (run serverStep (startServer fun _ => false)
      pasvThenQuit).isSome = true := rfl
  obtain ⟨final, ran⟩ := Option.isSome_iff_exists.mp ends
  exact ⟨final, ran, sessions_own_descriptors _ _ final ran (by decide)⟩

/-- `bind` fails for the number 4, which `PASV` closes but keeps; a second
session gets this number, and the first one ends. -/
def refusedPasv : List ServerEvent :=
  firstArrives ++ nextLine 1 (some "PASV") ++
    [succeeds, .call 0 (answered 4 none), .call 0 (answered (-1) none),
      succeeds, succeeds, .arrive 4] ++
    nextLine 0 none ++ [succeeds, succeeds]

theorem refusedPasv_closes_another : ∃ final,
    run serverStep (startServer fun _ => false) refusedPasv = some final ∧
      ¬ OwnsDescriptors (fun _ => false) refusedPasv final := by
  have ends : (run serverStep (startServer fun _ => false)
      refusedPasv).isSome = true := rfl
  obtain ⟨final, ran⟩ := Option.isSome_iff_exists.mp ends
  refine ⟨final, ran, ?_⟩
  intro owns
  exact absurd owns.calls (by decide)

end HenPlugins.Ftp.OwnDescriptors
