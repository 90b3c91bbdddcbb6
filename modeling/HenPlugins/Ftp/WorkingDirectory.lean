import HenPlugins.Lib.CallTrace
import HenPlugins.Lib.LexicalPath
import HenPlugins.Ftp.FtpSessions

/-!
# The working directory of a session

`CWD` and `CDUP` change `cwd`, and what they leave there is always an absolute
path that fits, whatever `stat` answers.
-/

set_option autoImplicit false

namespace HenPlugins.Ftp.WorkingDirectory

open HenPlugins.Lib.ByteText
open HenPlugins.Lib.CallProgram
open HenPlugins.Lib.CallTrace
open HenPlugins.Lib.LexicalPath
open HenPlugins.Ftp.SessionCalls
open HenPlugins.Ftp.Commands
open HenPlugins.Ftp.FtpSessions

def pathSigns : Signs UInt8 where
  slash := slash
  dot := '.'.toUInt8

/-- A string as `ftp_readline` returns it. -/
structure CString where
  text : Text
  noNul : (0 : UInt8) ∉ text

structure CwdFits (cwd : Text) : Prop where
  absolute : cwd.head? = some slash
  short : cwd.length < pathMax
  noNul : (0 : UInt8) ∉ cwd

/-- The path that `ftp_abspath` is to build. -/
def fullPath (env : FtpEnv) (path : Text) : Text :=
  if path.head? = some slash then path else env.cwd ++ slash :: path

/-- What `ftp_cmd_CDUP` leaves in `cwd`. -/
def cdupCwd (cwd : Text) : Text :=
  let pos := lastSlash cwd 0 (-1)
  if pos ≤ 0 then [slash] else cwd.take pos.toNat

abbrev Answers := Request Call Role → Answer Buffers → Prop

/-- The sessions of a connection, after lines that name `CWD` or `CDUP` and got
the answers that are allowed. -/
inductive Reached (allowed : Answers) (connfd : Nat) : FtpEnv → Prop where
  | start : Reached allowed connfd (startEnv connfd)
  | command (env outcome : FtpEnv) (line : CString)
      (earlier : Reached allowed connfd env)
      (named : before ' '.toUInt8 line.text ∈ [ascii "CWD", ascii "CDUP"])
      (leads : Leads allowed (ftpExecute env line.text) (.serve outcome)) :
      Reached allowed connfd outcome

section Commands
variable (allowed : Answers) (env outcome : FtpEnv) (arg line : Text)

theorem ftpAbspath_eq : ftpAbspath env arg = (fullPath env arg).take pathMax := by
  rw [ftpAbspath, fullPath]
  by_cases absolute : arg.head? = some slash
  · rw [if_neg (by simp [absolute]), if_pos absolute]
  · rw [if_pos absolute, if_neg absolute, snprintf, Nat.add_sub_cancel,
      List.take_take, Nat.min_self]

theorem ftpAbspath_of_short (short : (fullPath env arg).length < pathMax) :
    ftpAbspath env arg = fullPath env arg := by
  rw [ftpAbspath_eq, List.take_of_length_le (Nat.le_of_lt short)]

theorem length_ftpAbspath (long : pathMax ≤ (fullPath env arg).length) :
    (ftpAbspath env arg).length = pathMax := by
  rw [ftpAbspath_eq, List.length_take, Nat.min_eq_left long]

theorem not_leads_finish (point : Point) :
    ¬ Leads allowed (finish env) point := by
  have ends : ∀ role fd rest,
      ¬ Leads allowed rest point →
        ¬ Leads allowed (closeIfPositive role fd rest) point := by
    intro role fd rest none leads
    rw [closeIfPositive] at leads
    split at leads
    · obtain ⟨answer, -, later⟩ := (leads_call_iff _ _ _ _).mp leads
      exact none later
    · exact none leads
  apply ends
  apply ends
  apply ends
  intro leads
  obtain ⟨answer, -, later⟩ := (leads_call_iff _ _ _ _).mp leads
  exact not_leads_done _ _ later

theorem leads_returns_iff (result : Int) (point : Point) :
    Leads allowed (returns env result) point ↔
      result = 0 ∧ point = .serve env := by
  rw [returns]
  by_cases zero : result = 0
  · rw [if_pos zero, leads_again_iff]
    simp [zero]
  · rw [if_neg zero]
    simp [zero, not_leads_finish]

/-- The reply can be written. -/
def Answerable (reply : Reply) : Prop :=
  ∃ answer, allowed (.use (.reply reply) env.activeFd) answer ∧
    answer.value = 0

theorem leads_answers_iff (reply : Reply) :
    Leads allowed (answers reply env) (.serve outcome) ↔
      outcome = env ∧ Answerable allowed env reply := by
  rw [answers, ftpActivePrintf, leads_call_iff]
  simp only [leads_returns_iff, Answerable, Point.serve.injEq]
  constructor
  · intro leads
    obtain ⟨answer, fits, zero, same⟩ := leads
    refine ⟨same, answer, fits, ?_⟩
    by_contra failed
    rw [if_neg failed] at zero
    contradiction
  · intro ends
    obtain ⟨same, answer, fits, zero⟩ := ends
    exact ⟨answer, fits, by rw [if_pos zero], same⟩

theorem leads_cdup_iff :
    Leads allowed (ftpCmdCdup env arg) (.serve outcome) ↔
      outcome = { env with cwd := cdupCwd env.cwd } ∧
        Answerable allowed env (.line "250 OK\r\n") := by
  rw [ftpCmdCdup]
  exact leads_answers_iff allowed _ outcome _

/-- The path was there, and a directory. -/
def Found (answer : Answer Buffers) : Prop :=
  answer.value = 0 ∧ answer.data.isDir = true

/-- The directory after `CWD`: the old one, unless `stat` found the path. -/
theorem leads_cwd
    (leads : Leads allowed (ftpCmdCwd env arg) (.serve outcome)) :
    (outcome = env ∧ (arg = [] ∨ ∃ answer,
        allowed (.plain (.stat (ftpAbspath env arg))) answer ∧
          ¬ Found answer)) ∨
      (arg ≠ [] ∧ outcome =
          { env with cwd := snprintf pathMax (ftpAbspath env arg) } ∧
        ∃ answer, allowed (.plain (.stat (ftpAbspath env arg))) answer ∧
          Found answer) := by
  rw [ftpCmdCwd] at leads
  by_cases empty : arg = []
  · rw [if_pos empty, leads_answers_iff] at leads
    exact Or.inl ⟨leads.1, Or.inl empty⟩
  · rw [if_neg empty] at leads
    simp only [callThen] at leads
    obtain ⟨answer, fits, later⟩ := (leads_call_iff _ _ _ _).mp leads
    by_cases failed : answer.value ≠ 0
    · rw [if_pos failed] at later
      have same := ((leads_answers_iff allowed env outcome .perror).mp later).1
      exact Or.inl ⟨same, Or.inr ⟨answer, fits, fun found => failed found.1⟩⟩
    · rw [if_neg failed] at later
      by_cases isDir : answer.data.isDir = true
      · rw [if_pos isDir, leads_answers_iff] at later
        exact Or.inr ⟨empty, later.1, answer, fits, not_not.mp failed, isDir⟩
      · rw [if_neg isDir, leads_answers_iff] at later
        exact Or.inl ⟨later.1,
          Or.inr ⟨answer, fits, fun found => isDir found.2⟩⟩

end Commands

section Names
variable (env : FtpEnv) (line : Text)

theorem ftpExecute_cdup (named : before ' '.toUInt8 line = ascii "CDUP") :
    ftpExecute env line = ftpCmdCdup env (after ' '.toUInt8 line) := by
  rw [ftpExecute]
  simp only [named]
  rfl

theorem ftpExecute_cwd (named : before ' '.toUInt8 line = ascii "CWD") :
    ftpExecute env line = ftpCmdCwd env (after ' '.toUInt8 line) := by
  rw [ftpExecute]
  simp only [named]
  rfl

/-- The table has the wrong function for the alias. -/
theorem ftpExecute_xcup (named : before ' '.toUInt8 line = ascii "XCUP") :
    ftpExecute env line = ftpCmdCwd env (after ' '.toUInt8 line) := by
  rw [ftpExecute]
  simp only [named]
  rfl

end Names

theorem lastSlash_plain (text : Text) (i pos : Int)
    (plain : slash ∉ text) : lastSlash text i pos = pos := by
  induction text generalizing i with
  | nil => rfl
  | cons byte rest ih =>
      rw [List.mem_cons, not_or] at plain
      rw [lastSlash, if_neg (Ne.symm plain.1), ih _ plain.2]

theorem lastSlash_append (front name : Text) (i pos : Int)
    (plain : slash ∉ name) :
    lastSlash (front ++ slash :: name) i pos = i + front.length := by
  induction front generalizing i pos with
  | nil => simp [lastSlash, lastSlash_plain name _ _ plain]
  | cons byte front ih =>
      rw [List.cons_append, lastSlash, ih]
      simp only [List.length_cons]
      omega

/-- The last name goes, with its slash; of the root the slash stays. -/
theorem cdupCwd_append (front name : Text) (plain : slash ∉ name) :
    cdupCwd (front ++ slash :: name) =
      if front = [] then [slash] else front := by
  rw [cdupCwd, lastSlash_append front name 0 (-1) plain]
  cases front with
  | nil => rfl
  | cons byte front =>
      have positive : ¬ (0 + ((byte :: front).length : Int) ≤ 0) := by
        rw [List.length_cons]
        omega
      simp only [if_neg positive, if_neg (List.cons_ne_nil byte front)]
      rw [Int.zero_add, Int.toNat_natCast, List.take_left]

theorem cwdFits_root : CwdFits [slash] := ⟨rfl, by decide, by decide⟩

theorem cwdFits_cdup (cwd : Text) (fits : CwdFits cwd) :
    CwdFits (cdupCwd cwd) := by
  obtain ⟨front, name, rfl, plain⟩ := exists_last pathSigns cwd
    (List.mem_of_mem_head? fits.absolute)
  have whole := fits.absolute
  have short := fits.short
  have noNul := fits.noNul
  rw [show pathSigns.slash = slash from rfl] at plain whole short noNul ⊢
  rw [cdupCwd_append front name plain]
  by_cases root : front = []
  · rw [if_pos root]
    exact cwdFits_root
  · rw [if_neg root]
    refine ⟨?_, ?_, ?_⟩
    · rwa [List.head?_append_of_ne_nil _ root] at whole
    · rw [List.length_append] at short
      omega
    · intro nul
      exact noNul (List.mem_append_left _ nul)

theorem fullPath_absolute (env : FtpEnv) (path : Text)
    (fits : CwdFits env.cwd) :
    (fullPath env path).head? = some slash := by
  rw [fullPath]
  by_cases absolute : path.head? = some slash
  · rw [if_pos absolute, absolute]
  · rw [if_neg absolute, List.head?_append, fits.absolute]
    rfl

theorem resolve_fullPath (env : FtpEnv) (path : Text) (base : Place UInt8)
    (fits : CwdFits env.cwd) :
    resolve pathSigns base (fullPath env path) =
      resolve pathSigns (resolve pathSigns [] env.cwd) path := by
  rw [fullPath]
  by_cases absolute : path.head? = some slash
  · rw [if_pos absolute, resolve_of_absolute pathSigns _ _ absolute,
      resolve_of_absolute pathSigns _ _ absolute]
  · have nonempty : env.cwd ≠ [] := by
      intro empty
      have first := fits.absolute
      rw [empty] at first
      contradiction
    have joined := resolve_append pathSigns base env.cwd path nonempty
    rw [if_neg absolute, resolve_of_relative pathSigns _ _ absolute,
      resolve_of_absolute pathSigns [] _ fits.absolute]
    rwa [resolve_of_absolute pathSigns base _ fits.absolute] at joined

theorem fullPath_noNul (env : FtpEnv) (path : CString)
    (fits : CwdFits env.cwd) : (0 : UInt8) ∉ fullPath env path.text := by
  rw [fullPath]
  split
  · exact path.noNul
  · simp only [List.mem_append, List.mem_cons, not_or]
    exact ⟨fits.noNul, by decide, path.noNul⟩

theorem cwdFits_cwd (env : FtpEnv) (arg : CString) (fits : CwdFits env.cwd) :
    CwdFits (snprintf pathMax (ftpAbspath env arg.text)) := by
  have cut : snprintf pathMax (ftpAbspath env arg.text) =
      (fullPath env arg.text).take (pathMax - 1) := by
    rw [ftpAbspath_eq, snprintf, List.take_take,
      Nat.min_eq_left (Nat.sub_le _ _)]
  rw [cut]
  refine ⟨?_, ?_, ?_⟩
  · rw [List.head?_take, if_neg (by decide)]
    exact fullPath_absolute env arg.text fits
  · have bound := List.length_take_le (pathMax - 1) (fullPath env arg.text)
    have positive : 0 < pathMax := by decide
    omega
  · intro nul
    exact fullPath_noNul env arg fits (List.mem_of_mem_take nul)

/-- The argument of a line. -/
def CString.arg (line : CString) : CString where
  text := after ' '.toUInt8 line.text
  noNul := fun nul =>
    line.noNul ((after_suffix ' '.toUInt8 line.text).subset nul)

/-- What one line does to the directory: `CDUP`, a `CWD` that changes nothing,
or one that enters. -/
inductive Moves (allowed : Answers) (env : FtpEnv) : FtpEnv → Prop where
  | up : Moves allowed env { env with cwd := cdupCwd env.cwd }
  | stay : Moves allowed env env
  | enter (arg : CString) (answer : Answer Buffers)
      (fits : allowed (.plain (.stat (ftpAbspath env arg.text))) answer)
      (found : Found answer) :
      Moves allowed env
        { env with cwd := snprintf pathMax (ftpAbspath env arg.text) }

theorem moves_of_leads (allowed : Answers) (env outcome : FtpEnv)
    (line : CString)
    (named : before ' '.toUInt8 line.text ∈ [ascii "CWD", ascii "CDUP"])
    (leads : Leads allowed (ftpExecute env line.text) (.serve outcome)) :
    Moves allowed env outcome := by
  simp only [List.mem_cons, List.not_mem_nil, or_false] at named
  rcases named with cwd | cdup
  · rw [ftpExecute_cwd env line.text cwd] at leads
    rcases leads_cwd allowed env outcome _ leads with stays | enters
    · rw [stays.1]
      exact .stay
    · obtain ⟨-, rfl, answer, fits, found⟩ := enters
      exact .enter line.arg answer fits found
  · rw [ftpExecute_cdup env line.text cdup, leads_cdup_iff] at leads
    rw [leads.1]
    exact .up

theorem reached_fits (allowed : Answers) (connfd : Nat) (env : FtpEnv)
    (reached : Reached allowed connfd env) : CwdFits env.cwd := by
  induction reached with
  | start => exact cwdFits_root
  | command env outcome line earlier named leads ih =>
      cases moves_of_leads allowed env outcome line named leads with
      | up => exact cwdFits_cdup env.cwd ih
      | stay => exact ih
      | enter arg answer fits found => exact cwdFits_cwd env arg ih

def anyAnswer : Answers := fun _ _ => True

/-- A session after `CWD /data`. -/
def dataEnv : FtpEnv := { startEnv 3 with cwd := ascii "/data" }

theorem reached_dataEnv : Reached anyAnswer 3 dataEnv := by
  apply Reached.command (startEnv 3) dataEnv ⟨ascii "CWD /data", by decide⟩
    .start (by decide)
  rw [ftpExecute_cwd _ _ rfl]
  apply Leads.call _ _ ⟨0, { isDir := true }⟩ _ trivial
  exact (leads_answers_iff ..).mpr ⟨rfl, ⟨0, {}⟩, trivial, rfl⟩

end HenPlugins.Ftp.WorkingDirectory
