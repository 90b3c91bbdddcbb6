import HenPlugins.Ftp.WorkingDirectory

/-!
# The paths of `LIST`

`LIST` opens its argument as it is, which the system follows from the directory
of the process, and builds the paths of the entries from the directory of the
session.
-/

set_option autoImplicit false

namespace HenPlugins.Ftp.ListPaths

open HenPlugins.Lib.ByteText
open HenPlugins.Lib.CallProgram
open HenPlugins.Lib.CallTrace
open HenPlugins.Lib.LexicalPath
open HenPlugins.Ftp.SessionCalls
open HenPlugins.Ftp.Commands
open HenPlugins.Ftp.FtpSessions
open HenPlugins.Ftp.WorkingDirectory

/-- What the system takes a path for, in a process whose directory is `wd`;
longer paths are refused. -/
def kernelPlace (wd : Place UInt8) (path : Text) : Option (Place UInt8) :=
  if path.length < pathMax then some (resolve pathSigns wd path) else none

/-- The points at which the loop of `LIST` begins a round. -/
inductive Lists (env : FtpEnv) (arg : Text) : FtpEnv → Text → Int → Prop where
  | first (now : FtpEnv) (path : Text) (dir : Int)
      (leads : Leads anyAnswer (ftpCmdList env arg) (.listing now path dir)) :
      Lists env arg now path dir
  | again (now later : FtpEnv) (path next : Text) (dir nextDir : Int)
      (earlier : Lists env arg now path dir)
      (leads : Leads anyAnswer (listing now path dir)
        (.listing later next nextDir)) :
      Lists env arg later next nextDir

/-- A round with an entry asks `stat` for a path and sends what it says. -/
structure Reports (now : FtpEnv) (path : Text) (dir : Int)
    (ent : Answer Buffers) (asked : Text) : Prop where
  round : ∃ next, Executes body (listing now path dir)
      [⟨.use .readdir dir, ent⟩] (.call (.plain (.stat asked)) next) ∧
    ∀ found, found.value = 0 → ∃ rest, next found =
      .call (.use (.sendEntry ent.data.name found.data.size) now.dataFd) rest

/-- `LIST` opens the directory that `CWD` would enter, and what it reports of
an entry is what `stat` says of that directory with the entry's name. -/
structure ListsAlike (wd : Place UInt8) (env : FtpEnv) (arg : Text) :
    Prop where
  opens : ∃ path next,
    ftpCmdList env arg = .call (.acquire .dir (.opendir path) none) next ∧
      kernelPlace wd path = kernelPlace wd (ftpAbspath env arg)
  reports : ∀ now path dir, Lists env arg now path dir →
    ∀ ent : Answer Buffers, 0 ≤ ent.value →
      ∃ asked, Reports now path dir ent asked ∧
        ∀ place, kernelPlace wd asked = some place →
          kernelPlace wd (ftpAbspath env arg ++ slash :: ent.data.name) =
            some place

/-- The argument is absolute or refused anyway, or the two directories agree
as far as it does not climb out of them. -/
def SameBase (wd : Place UInt8) (env : FtpEnv) (arg : Text) : Prop :=
  let here := resolve pathSigns [] env.cwd
  let up := climbs pathSigns 0 (namesOf pathSigns arg)
  arg.head? = some slash ∨ pathMax ≤ arg.length ∨
    ((fullPath env arg).length < pathMax ∧
      wd.take (wd.length - up) = here.take (here.length - up))

section Runs
variable (env now : FtpEnv) (arg path : Text) (dir : Int)

theorem not_leads_answers_listing (reply : Reply) :
    ¬ Leads anyAnswer (answers reply env) (.listing now path dir) := by
  rw [answers, ftpActivePrintf, leads_call_iff]
  simp [leads_returns_iff]

theorem not_leads_listingEnd (fd : Int) :
    ¬ Leads anyAnswer (listingEnd env fd) (.listing now path dir) := by
  intro leads
  obtain ⟨closed, -, leads⟩ := (leads_call_iff ..).mp leads
  beta_reduce at leads
  generalize (if closed.value = 0 then (0 : Int) else -1) = failed at leads
  split at leads
  · obtain ⟨told, -, leads⟩ := (leads_call_iff ..).mp leads
    obtain ⟨shut, -, leads⟩ := (leads_call_iff ..).mp leads
    cases ((leads_returns_iff ..).mp leads).2
  · obtain ⟨shut, -, leads⟩ := (leads_call_iff ..).mp leads
    split at leads
    · exact not_leads_answers_listing env now path dir .perror leads
    · exact not_leads_answers_listing env now path dir _ leads

theorem leads_ftpDataOpen (next : FtpEnv → Int → FtpProgram) (point : Point)
    (leads : Leads anyAnswer (ftpDataOpen env next) point) :
    ∃ fd failed, Leads anyAnswer (next { env with dataFd := fd } failed)
      point := by
  rw [ftpDataOpen] at leads
  split at leads
  · obtain ⟨answer, -, leads⟩ := (leads_call_iff ..).mp leads
    exact ⟨env.dataFd, _, leads⟩
  · obtain ⟨answer, -, leads⟩ := (leads_call_iff ..).mp leads
    exact ⟨answer.value, _, leads⟩

variable (nonempty : arg ≠ []) (notOption : arg.head? ≠ some '-'.toUInt8)

include nonempty notOption in
theorem lists_keeps (lists : Lists env arg now path dir) :
    now.cwd = env.cwd ∧ path = arg := by
  induction lists with
  | first now path dir leads =>
      rw [ftpCmdList] at leads
      simp only [if_pos (And.intro nonempty notOption)] at leads
      obtain ⟨opened, -, leads⟩ := (leads_call_iff ..).mp leads
      split at leads
      · exact absurd leads (not_leads_answers_listing env now path dir .perror)
      · obtain ⟨fd, failed, leads⟩ := leads_ftpDataOpen env _ _ leads
        split at leads
        · exact absurd leads
            (not_leads_answers_listing _ now path dir .perror)
        · obtain ⟨sent, -, leads⟩ := (leads_call_iff ..).mp leads
          have same := (leads_again_iff ..).mp leads
          cases same
          exact ⟨rfl, rfl⟩
  | again now later path next dir nextDir earlier leads ih =>
      have same : later = now ∧ next = path := by
        rw [listing] at leads
        obtain ⟨ent, -, leads⟩ := (leads_call_iff ..).mp leads
        split at leads
        · exact absurd leads (not_leads_listingEnd now later next nextDir dir)
        · obtain ⟨found, -, leads⟩ := (leads_call_iff ..).mp leads
          split at leads
          · cases (leads_again_iff ..).mp leads
            exact ⟨rfl, rfl⟩
          · obtain ⟨sent, -, leads⟩ := (leads_call_iff ..).mp leads
            cases (leads_again_iff ..).mp leads
            exact ⟨rfl, rfl⟩
      rw [same.1, same.2]
      exact ih

theorem reports_entryPath (ent : Answer Buffers) (more : 0 ≤ ent.value) :
    Reports now path dir ent (entryPath now path ent.data.name) := by
  refine ⟨fun found =>
    if found.value ≠ 0 then .again (.listing now path dir)
    else
      .call (.use (.sendEntry ent.data.name found.data.size) now.dataFd)
        fun _ => .again (.listing now path dir), ?_, ?_⟩
  · rw [listing]
    apply Executes.call
    rw [if_neg (by omega)]
    exact .stop _
  · intro found zero
    exact ⟨_, if_neg (not_not.mpr zero)⟩

end Runs

section Bases
variable (wd : Place UInt8) (env : FtpEnv) (arg : Text)
  (fits : CwdFits env.cwd)

theorem kernelPlace_abspath :
    kernelPlace wd (ftpAbspath env arg) =
      kernelPlace wd (fullPath env arg) := by
  rcases Nat.lt_or_ge (fullPath env arg).length pathMax with short | long
  · rw [ftpAbspath_of_short env arg short]
  · have full := length_ftpAbspath env arg long
    rw [kernelPlace, kernelPlace, if_neg (Nat.not_lt.mpr long),
      if_neg (Nat.not_lt.mpr (Nat.le_of_eq full.symm))]

theorem length_fullPath : arg.length ≤ (fullPath env arg).length := by
  rw [fullPath]
  split
  · exact Nat.le_refl _
  · rw [List.length_append, List.length_cons]
    omega

include fits in
theorem opens_iff :
    kernelPlace wd arg = kernelPlace wd (ftpAbspath env arg) ↔
      SameBase wd env arg := by
  have longer := length_fullPath env arg
  rw [kernelPlace_abspath, SameBase, kernelPlace, kernelPlace,
    resolve_fullPath env arg wd fits]
  by_cases absolute : arg.head? = some slash
  · have same : fullPath env arg = arg := if_pos absolute
    rw [same, resolve_of_absolute pathSigns _ _ absolute,
      resolve_of_absolute pathSigns _ _ absolute]
    simp [absolute]
  · rw [resolve_of_relative pathSigns _ _ absolute,
      resolve_of_relative pathSigns _ _ absolute]
    rcases Nat.lt_or_ge arg.length pathMax with short | long
    · rw [if_pos short]
      simp only [absolute, false_or, Nat.not_le.mpr short,
        ← follow_eq_follow_iff]
      split
      · rename_i fullShort
        simp [fullShort]
      · rename_i fullLong
        simp [fullLong]
    · rw [if_neg (Nat.not_lt.mpr long),
        if_neg (Nat.not_lt.mpr (Nat.le_trans long longer))]
      simp [long]

theorem kernelPlace_eq_some_iff (path : Text) (place : Place UInt8) :
    kernelPlace wd path = some place ↔
      path.length < pathMax ∧ resolve pathSigns wd path = place := by
  rw [kernelPlace]
  split
  · rename_i short
    simp [short]
  · rename_i long
    simp [long]

/-- What is cut is too long for the system anyway. -/
theorem snprintf_eq_of_short (size : Nat) (text : Text)
    (roomy : pathMax < size) (short : (snprintf size text).length < pathMax) :
    snprintf size text = text := by
  apply snprintf_of_fits
  rw [snprintf, List.length_take] at short
  omega

include fits in
theorem kernelPlace_entryPath (name : Text) (place : Place UInt8)
    (found : kernelPlace wd (entryPath env arg name) = some place) :
    kernelPlace wd (ftpAbspath env arg ++ slash :: name) = some place := by
  obtain ⟨short, rfl⟩ := (kernelPlace_eq_some_iff ..).mp found
  have whole := snprintf_eq_of_short _ _ (by decide) short
  rw [entryPath, whole] at short ⊢
  rw [kernelPlace_eq_some_iff, ftpAbspath_eq, fullPath]
  by_cases absolute : arg.head? = some slash
  · rw [if_pos absolute] at short ⊢
    rw [if_pos absolute, List.take_of_length_le]
    · exact ⟨short, rfl⟩
    · rw [List.length_append] at short
      omega
  · have head : (env.cwd ++ slash :: arg ++ slash :: name).head? =
        some slash := by
      rw [List.append_assoc, List.head?_append, fits.absolute]
      rfl
    rw [if_neg absolute] at short ⊢
    rw [if_neg absolute, List.take_of_length_le]
    · refine ⟨?_, ?_⟩
      · simp only [List.length_append, List.length_cons] at short ⊢
        omega
      · exact (resolve_slash_absolute pathSigns wd _ head).symm
    · simp only [List.length_append, List.length_cons] at short ⊢
      omega

end Bases

section Sessions
variable (wd : Place UInt8) (env : FtpEnv) (arg : Text)

end Sessions

end HenPlugins.Ftp.ListPaths
