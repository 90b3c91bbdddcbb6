import HenPlugins.Ftp.WorkingDirectory

/-!
# Going up

`CDUP` cuts `cwd` at its last slash, and `CWD` has stored there whatever `stat`
accepted.  Whether the directory becomes its parent is a matter of the last
name; the alias `XCUP` goes where its argument leads.
-/

set_option autoImplicit false

namespace HenPlugins.Ftp.GoingUp

open HenPlugins.Lib.ByteText
open HenPlugins.Lib.CallProgram
open HenPlugins.Lib.CallTrace
open HenPlugins.Lib.LexicalPath
open HenPlugins.Ftp.SessionCalls
open HenPlugins.Ftp.Commands
open HenPlugins.Ftp.FtpSessions
open HenPlugins.Ftp.WorkingDirectory

abbrev Tree := Directories UInt8

/-- What `stat` finds to be a directory; longer paths are refused. -/
def Enters (tree : Tree) (path : Text) : Prop :=
  path.length < pathMax ∧ (tree.locate pathSigns path).isSome = true

instance (tree : Tree) (path : Text) : Decidable (Enters tree path) :=
  inferInstanceAs (Decidable (_ ∧ _))

/-- `stat` answers by the tree; other calls may be answered anything. -/
def treeAnswers (tree : Tree) : Answers := fun request answer =>
  ∀ path, request = .plain (.stat path) → (Found answer ↔ Enters tree path)

/-- After the line, `cwd` names the parent of the directory that it named. -/
def GoesUp (tree : Tree) (env : FtpEnv) (line : CString) : Prop :=
  ∀ outcome, Leads (treeAnswers tree) (ftpExecute env line.text)
      (.serve outcome) →
    ∃ place, tree.locate pathSigns env.cwd = some place ∧
      tree.locate pathSigns outcome.cwd = some (parent place)

/-- The last name of `cwd` is the name of a directory, or it stands in the
root. -/
def NamedLast (cwd : Text) : Prop :=
  (¬ Stays pathSigns (lastName pathSigns cwd) ∧
      ¬ Climbs pathSigns (lastName pathSigns cwd)) ∨
    resolve pathSigns [] (beforeLast pathSigns cwd) = []

instance (cwd : Text) : Decidable (NamedLast cwd) :=
  inferInstanceAs (Decidable (_ ∨ _))

/-- The argument is found and, followed from the directory of the session,
leads to its parent; if nothing is found, the root stays. -/
def LeadsToParent (tree : Tree) (env : FtpEnv) (arg : Text) : Prop :=
  if arg ≠ [] ∧ Enters tree (fullPath env arg) then
    resolve pathSigns (resolve pathSigns [] env.cwd) arg =
      parent (resolve pathSigns [] env.cwd)
  else resolve pathSigns [] env.cwd = []

/-- What `CWD` leaves in `cwd`. -/
def cwdTarget (tree : Tree) (env : FtpEnv) (arg : Text) : Text :=
  if arg ≠ [] ∧ Enters tree (fullPath env arg) then fullPath env arg
  else env.cwd

section Answers
variable (tree : Tree) (env : FtpEnv) (arg : Text)

theorem answerable (reply : Reply) :
    Answerable (treeAnswers tree) env reply := by
  refine ⟨⟨0, {}⟩, ?_, rfl⟩
  intro path same
  contradiction

theorem exists_stat (path : Text) :
    ∃ answer, treeAnswers tree (.plain (.stat path)) answer := by
  by_cases enters : Enters tree path
  · refine ⟨⟨0, { isDir := true }⟩, ?_⟩
    intro other same
    cases same
    simp [Found, enters]
  · refine ⟨⟨-1, {}⟩, ?_⟩
    intro other same
    cases same
    simp [Found, enters]

theorem enters_abspath_iff :
    Enters tree (ftpAbspath env arg) ↔ Enters tree (fullPath env arg) := by
  rcases Nat.lt_or_ge (fullPath env arg).length pathMax with short | long
  · rw [ftpAbspath_of_short env arg short]
  · have full := length_ftpAbspath env arg long
    constructor
    · intro enters
      exact absurd (full ▸ enters.1) (Nat.lt_irrefl _)
    · intro enters
      exact absurd enters.1 (Nat.not_lt.mpr long)

theorem cwd_of_enters (enters : Enters tree (fullPath env arg)) :
    snprintf pathMax (ftpAbspath env arg) = fullPath env arg := by
  rw [ftpAbspath_of_short env arg enters.1, snprintf_of_fits _ _ enters.1]

theorem cwd_of_leads (outcome : FtpEnv)
    (leads : Leads (treeAnswers tree) (ftpCmdCwd env arg) (.serve outcome)) :
    outcome.cwd = cwdTarget tree env arg := by
  rw [cwdTarget]
  rcases leads_cwd _ env outcome arg leads with stays | enters
  · obtain ⟨same, reason⟩ := stays
    have missed : ¬ (arg ≠ [] ∧ Enters tree (fullPath env arg)) := by
      rintro ⟨nonempty, enters⟩
      rcases reason with empty | ⟨answer, fits, missing⟩
      · exact nonempty empty
      · exact missing ((fits _ rfl).mpr
          ((enters_abspath_iff tree env arg).mpr enters))
    rw [if_neg missed, same]
  · obtain ⟨nonempty, rfl, answer, fits, found⟩ := enters
    have enters := (enters_abspath_iff tree env arg).mp ((fits _ rfl).mp found)
    rw [if_pos ⟨nonempty, enters⟩]
    exact cwd_of_enters tree env arg enters

theorem exists_leads_cwd :
    ∃ outcome, Leads (treeAnswers tree) (ftpCmdCwd env arg)
      (.serve outcome) := by
  have replies : ∀ env reply, Leads (treeAnswers tree) (answers reply env)
      (.serve env) := by
    intro env reply
    exact (leads_answers_iff ..).mpr ⟨rfl, answerable tree env reply⟩
  rw [ftpCmdCwd]
  by_cases empty : arg = []
  · rw [if_pos empty]
    exact ⟨env, replies env _⟩
  · rw [if_neg empty]
    simp only [callThen, leads_call_iff]
    obtain ⟨answer, fits⟩ := exists_stat tree (ftpAbspath env arg)
    by_cases failed : answer.value ≠ 0
    · refine ⟨env, answer, fits, ?_⟩
      rw [if_pos failed]
      exact replies env .perror
    · by_cases isDir : answer.data.isDir = true
      · refine ⟨{ env with cwd := snprintf pathMax (ftpAbspath env arg) },
          answer, fits, ?_⟩
        rw [if_neg failed, if_pos isDir]
        exact replies _ _
      · refine ⟨env, answer, fits, ?_⟩
        rw [if_neg failed, if_neg isDir]
        exact replies env _

end Answers

section Sessions
variable (tree : Tree) (connfd : Nat)

theorem locate_cdup (cwd : Text) (place : Place UInt8)
    (located : tree.locate pathSigns cwd = some place) :
    ∃ front name, cwd = front ++ slash :: name ∧ slash ∉ name ∧
      tree.locate pathSigns (cdupCwd cwd) =
        some (resolve pathSigns [] front) ∧
      place = enter pathSigns (resolve pathSigns [] front) name := by
  have absolute := ((locate_eq_some_iff ..).mp located).1
  obtain ⟨front, name, rfl, plain⟩ :=
    exists_last pathSigns cwd (List.mem_of_mem_head? absolute)
  have front' := locate_front pathSigns tree front name place located plain
  refine ⟨front, name, rfl, plain, ?_, front'.2⟩
  have cut := cdupCwd_append front name plain
  rw [← front'.1]
  exact congrArg (tree.locate pathSigns) cut

/-- The directory of a session is there. -/
theorem reached_located (env : FtpEnv)
    (reached : Reached (treeAnswers tree) connfd env) :
    ∃ place, tree.locate pathSigns env.cwd = some place := by
  induction reached with
  | start => exact ⟨[], locate_root pathSigns tree⟩
  | command env outcome line earlier named leads ih =>
      cases moves_of_leads _ env outcome line named leads with
      | up =>
          obtain ⟨place, located⟩ := ih
          obtain ⟨front, -, -, -, above, -⟩ :=
            locate_cdup tree env.cwd place located
          exact ⟨_, above⟩
      | stay => exact ih
      | enter arg answer fits found =>
          have enters := (enters_abspath_iff tree env arg.text).mp
            ((fits _ rfl).mp found)
          rw [cwd_of_enters tree env arg.text enters]
          exact Option.isSome_iff_exists.mp enters.2

variable (env : FtpEnv) (line : CString)

theorem goesUp_cdup_iff (reached : Reached (treeAnswers tree) connfd env)
    (named : before ' '.toUInt8 line.text = ascii "CDUP") :
    GoesUp tree env line ↔ NamedLast env.cwd := by
  obtain ⟨place, located⟩ := reached_located tree connfd env reached
  obtain ⟨front, name, split, plain, above, here⟩ :=
    locate_cdup tree env.cwd place located
  have last := last_append pathSigns front name plain
  rw [show pathSigns.slash = slash from rfl, ← split] at last
  have goesUp : GoesUp tree env line ↔
      resolve pathSigns [] front = parent place := by
    rw [GoesUp, ftpExecute_cdup env line.text named]
    simp only [leads_cdup_iff, located, Option.some.injEq]
    constructor
    · intro up
      obtain ⟨other, rfl, found⟩ := up _ ⟨rfl, answerable tree env _⟩
      rw [above, Option.some.injEq] at found
      exact found
    · intro same outcome leads
      obtain ⟨rfl, -⟩ := leads
      exact ⟨place, rfl, by rw [above, same]⟩
  rw [goesUp, here, eq_parent_enter_iff, NamedLast, last.1, last.2]

theorem located_target (arg : Text) (place : Place UInt8)
    (located : tree.locate pathSigns env.cwd = some place) :
    tree.locate pathSigns (cwdTarget tree env arg) =
      some (resolve pathSigns [] (cwdTarget tree env arg)) := by
  rw [cwdTarget]
  split
  · rename_i enters
    obtain ⟨target, found⟩ := Option.isSome_iff_exists.mp enters.2.2
    rw [found, ((locate_eq_some_iff ..).mp found).2.2]
  · rw [located, ((locate_eq_some_iff ..).mp located).2.2]

theorem leadsToParent_iff (arg : Text) (fits : CwdFits env.cwd) :
    LeadsToParent tree env arg ↔
      resolve pathSigns [] (cwdTarget tree env arg) =
        parent (resolve pathSigns [] env.cwd) := by
  rw [LeadsToParent, cwdTarget]
  split
  · rw [resolve_fullPath env arg [] fits]
  · exact (parent_eq_self_iff _).symm

theorem goesUp_xcup_iff (reached : Reached (treeAnswers tree) connfd env)
    (named : before ' '.toUInt8 line.text = ascii "XCUP") :
    GoesUp tree env line ↔
      LeadsToParent tree env (after ' '.toUInt8 line.text) := by
  obtain ⟨place, located⟩ := reached_located tree connfd env reached
  have target := located_target tree env (after ' '.toUInt8 line.text) place
    located
  have here := ((locate_eq_some_iff ..).mp located).2.2
  rw [GoesUp, ftpExecute_xcup env line.text named,
    leadsToParent_iff tree env _ (reached_fits _ connfd env reached), here]
  simp only [located, Option.some.injEq]
  constructor
  · intro up
    obtain ⟨outcome, leads⟩ :=
      exists_leads_cwd tree env (after ' '.toUInt8 line.text)
    obtain ⟨other, rfl, found⟩ := up outcome leads
    rw [cwd_of_leads tree env _ outcome leads, target, Option.some.injEq]
      at found
    exact found
  · intro same outcome leads
    refine ⟨place, rfl, ?_⟩
    rw [cwd_of_leads tree env _ outcome leads, target, same]

/-- In every session, `CDUP` goes up if and only if the last name of `cwd` is
one, and `XCUP` if and only if its argument leads to the parent. -/
theorem goesUp_iff (reached : Reached (treeAnswers tree) connfd env) :
    (before ' '.toUInt8 line.text = ascii "CDUP" →
        (GoesUp tree env line ↔ NamedLast env.cwd)) ∧
      (before ' '.toUInt8 line.text = ascii "XCUP" →
        (GoesUp tree env line ↔
          LeadsToParent tree env (after ' '.toUInt8 line.text))) :=
  ⟨goesUp_cdup_iff tree connfd env line reached,
    goesUp_xcup_iff tree connfd env line reached⟩

end Sessions

/-- The root holds one directory, and that holds another one. -/
def smallTree : Tree where
  isDir := fun place => place <+: [ascii "a", ascii "b"]
  root := rfl
  closed := by
    intro place name found
    rw [decide_eq_true_eq] at found ⊢
    exact (List.prefix_append place [name]).trans found

def cdupLine : CString := ⟨ascii "CDUP", by decide⟩
def xcupLine : CString := ⟨ascii "XCUP /a", by decide⟩
def cwdLine : CString := ⟨ascii "CWD a/", by decide⟩

theorem reached_nested : ∃ env, Reached (treeAnswers smallTree) 3 env ∧
    env.cwd = ascii "//a/b" := by
  obtain ⟨first, leads⟩ := exists_leads_cwd smallTree (startEnv 3) (ascii "a")
  have reached : Reached (treeAnswers smallTree) 3 first :=
    .command (startEnv 3) first ⟨ascii "CWD a", by decide⟩ .start (by decide)
      leads
  have outer : first.cwd = ascii "//a" :=
    cwd_of_leads smallTree (startEnv 3) (ascii "a") first leads
  obtain ⟨second, further⟩ := exists_leads_cwd smallTree first (ascii "b")
  have inner := cwd_of_leads smallTree first (ascii "b") second further
  rw [cwdTarget, fullPath, outer] at inner
  exact ⟨second, .command first second ⟨ascii "CWD b", by decide⟩ reached
    (by decide) further, inner⟩

theorem goesUp_iff_nested : ∃ env, Reached (treeAnswers smallTree) 3 env ∧
    env.cwd = ascii "//a/b" ∧ GoesUp smallTree env cdupLine ∧
      GoesUp smallTree env xcupLine := by
  obtain ⟨env, reached, cwd⟩ := reached_nested
  have cdup := (goesUp_iff smallTree 3 env cdupLine reached).1 rfl
  have xcup := (goesUp_iff smallTree 3 env xcupLine reached).2 rfl
  refine ⟨env, reached, cwd, cdup.mpr ?_, xcup.mpr ?_⟩
  · rw [cwd]
    decide
  · rw [LeadsToParent, fullPath, cwd]
    decide

/-- Behind a trailing slash there is no name: `CWD a/`, then `CDUP`. -/
theorem trailingSlash_not_goesUp :
    ¬ ∀ (tree : Tree) (connfd : Nat) (env : FtpEnv),
      Reached (treeAnswers tree) connfd env → ∀ line : CString,
        before ' '.toUInt8 line.text = ascii "CDUP" ∨
          before ' '.toUInt8 line.text = ascii "XCUP" →
        GoesUp tree env line := by
  intro always
  obtain ⟨outcome, leads⟩ :=
    exists_leads_cwd smallTree (startEnv 3) (ascii "a/")
  have reached : Reached (treeAnswers smallTree) 3 outcome :=
    .command (startEnv 3) outcome cwdLine .start (by decide) leads
  have cwd : outcome.cwd = ascii "//a/" :=
    cwd_of_leads smallTree (startEnv 3) (ascii "a/") outcome leads
  have up := always smallTree 3 outcome reached cdupLine (Or.inl rfl)
  have named := (goesUp_cdup_iff smallTree 3 outcome cdupLine reached rfl).mp up
  rw [cwd] at named
  exact absurd named (by decide)

end HenPlugins.Ftp.GoingUp
