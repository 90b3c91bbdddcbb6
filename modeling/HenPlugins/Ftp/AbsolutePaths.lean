import HenPlugins.Ftp.WorkingDirectory

/-!
# The paths that `ftp_abspath` leaves in a buffer

The buffers have `PATH_MAX` bytes, and `strncpy` fills them without a NUL when
the path is as long.
-/

set_option autoImplicit false

namespace HenPlugins.Ftp.AbsolutePaths

open HenPlugins.Lib.ByteText
open HenPlugins.Lib.CallTrace
open HenPlugins.Ftp.SessionCalls
open HenPlugins.Ftp.FtpSessions
open HenPlugins.Ftp.WorkingDirectory

/-- The first `count` bytes of the destination: the string, padded with NULs,
or cut. -/
def strncpy (count : Nat) (source : Text) : List UInt8 :=
  (source ++ List.replicate count 0).take count

/-- `abspath`, which is `pathbuf` of the command or `rename_path`, with the
local `buf` of one byte more. -/
def abspathBuffer (env : FtpEnv) (path : Text) : List UInt8 :=
  if path.head? ≠ some slash then
    strncpy pathMax (snprintf (pathMax + 1) (env.cwd ++ slash :: path))
  else strncpy pathMax path

/-- The string in a buffer. -/
def cString (buffer : List UInt8) : Text := before 0 buffer

/-- What a command relies on when it hands the buffer to the system. -/
structure Usable (env : FtpEnv) (path : Text) (buffer : List UInt8) :
    Prop where
  size : buffer.length = pathMax
  terminated : (0 : UInt8) ∈ buffer
  absolute : (cString buffer).head? = some slash
  text : cString buffer = path.take (pathMax - 1) ∨
    cString buffer = (env.cwd ++ slash :: path).take (pathMax - 1)

theorem length_strncpy (count : Nat) (source : Text) :
    (strncpy count source).length = count := by
  rw [strncpy, List.length_take, List.length_append, List.length_replicate]
  omega

theorem strncpy_of_long (count : Nat) (source : Text)
    (long : count ≤ source.length) :
    strncpy count source = source.take count := by
  rw [strncpy, List.take_append_of_le_length long]

theorem strncpy_of_short (count : Nat) (source : Text)
    (short : source.length < count) :
    ∃ rest, strncpy count source = source ++ 0 :: rest := by
  obtain ⟨more, split⟩ := Nat.exists_eq_add_of_lt short
  refine ⟨List.replicate more 0, ?_⟩
  rw [strncpy, List.take_append, List.take_of_length_le (by omega),
    List.take_replicate, Nat.min_eq_left (Nat.sub_le _ _),
    show count - source.length = more + 1 by omega, List.replicate_succ]

theorem abspathBuffer_eq (env : FtpEnv) (path : Text) :
    abspathBuffer env path = strncpy pathMax (fullPath env path) := by
  rw [abspathBuffer, fullPath]
  by_cases absolute : path.head? = some slash
  · rw [if_neg (by simp [absolute]), if_pos absolute]
  · rw [if_pos absolute, if_neg absolute, snprintf, Nat.add_sub_cancel]
    rcases Nat.lt_or_ge (env.cwd ++ slash :: path).length pathMax with
      short | long
    · rw [List.take_of_length_le (Nat.le_of_lt short)]
    · rw [strncpy_of_long _ _ long, strncpy_of_long _ _ (by
        rw [List.length_take, Nat.min_eq_left long]), List.take_take,
        Nat.min_self]

theorem cString_abspathBuffer (env : FtpEnv) (path : CString)
    (fits : CwdFits env.cwd) :
    cString (abspathBuffer env path.text) = ftpAbspath env path.text := by
  have plain := fullPath_noNul env path fits
  rw [abspathBuffer_eq, ftpAbspath_eq, cString]
  rcases Nat.lt_or_ge (fullPath env path.text).length pathMax with
    short | long
  · obtain ⟨rest, copied⟩ := strncpy_of_short _ _ short
    rw [copied, before_append_of_not_mem 0 _ rest plain,
      List.take_of_length_le (Nat.le_of_lt short)]
  · rw [strncpy_of_long _ _ long]
    apply List.takeWhile_eq_self_iff.mpr
    intro byte member
    rw [bne_iff_ne]
    intro nul
    exact plain (nul ▸ List.mem_of_mem_take member)

theorem terminated_iff (env : FtpEnv) (path : CString)
    (fits : CwdFits env.cwd) :
    (0 : UInt8) ∈ abspathBuffer env path.text ↔
      (fullPath env path.text).length < pathMax := by
  rw [abspathBuffer_eq]
  constructor
  · intro terminated
    by_contra long
    rw [strncpy_of_long _ _ (Nat.le_of_not_lt long)] at terminated
    exact fullPath_noNul env path fits (List.mem_of_mem_take terminated)
  · intro short
    obtain ⟨rest, copied⟩ := strncpy_of_short _ _ short
    rw [copied]
    simp

theorem usable_of_short (env : FtpEnv) (path : CString)
    (fits : CwdFits env.cwd)
    (short : (fullPath env path.text).length < pathMax) :
    Usable env path.text (abspathBuffer env path.text) := by
  have whole : cString (abspathBuffer env path.text) =
      fullPath env path.text := by
    rw [cString_abspathBuffer env path fits,
      ftpAbspath_of_short env path.text short]
  refine ⟨?_, (terminated_iff env path fits).mpr short, ?_, ?_⟩
  · rw [abspathBuffer_eq, length_strncpy]
  · rw [whole]
    exact fullPath_absolute env path.text fits
  · rw [whole]
    rw [fullPath] at short ⊢
    by_cases absolute : path.text.head? = some slash
    · rw [if_pos absolute] at short ⊢
      exact Or.inl (List.take_of_length_le (Nat.le_sub_one_of_lt short)).symm
    · rw [if_neg absolute] at short ⊢
      exact Or.inr (List.take_of_length_le (Nat.le_sub_one_of_lt short)).symm

/-- In every session and for every argument, the buffer is usable if and only if
the path that is to stand in it is shorter than the buffer. -/
theorem abspath_usable_iff (allowed : Answers) (connfd : Nat) (env : FtpEnv)
    (reached : Reached allowed connfd env) (path : CString) :
    Usable env path.text (abspathBuffer env path.text) ↔
      (fullPath env path.text).length < pathMax := by
  have fits := reached_fits allowed connfd env reached
  constructor
  · intro usable
    exact (terminated_iff env path fits).mp usable.terminated
  · exact usable_of_short env path fits

theorem abspath_usable_iff_data : Reached anyAnswer 3 dataEnv ∧
    Usable dataEnv (ascii "pkg") (abspathBuffer dataEnv (ascii "pkg")) :=
  ⟨reached_dataEnv, (abspath_usable_iff anyAnswer 3 dataEnv reached_dataEnv
    ⟨ascii "pkg", by decide⟩).mpr (by decide)⟩

/-- A path of so many bytes behind its slash. -/
def longPath (count : Nat) : CString where
  text := slash :: List.replicate count 'a'.toUInt8
  noNul := by
    rw [List.mem_cons, not_or]
    refine ⟨by decide, fun nul => ?_⟩
    exact absurd (List.eq_of_mem_replicate nul) (by decide)

/-- A path that fills the buffer, at the start of a session. -/
theorem longPath_not_usable :
    ¬ ∀ (allowed : Answers) (connfd : Nat) (env : FtpEnv),
      Reached allowed connfd env → ∀ path : CString,
        Usable env path.text (abspathBuffer env path.text) := by
  intro always
  have usable := always (fun _ _ => True) 3 (startEnv 3) .start (longPath 1023)
  have short := (terminated_iff (startEnv 3) (longPath 1023)
    cwdFits_root).mp usable.terminated
  have absolute : (longPath 1023).text.head? = some slash := rfl
  rw [fullPath, if_pos absolute, longPath, List.length_cons,
    List.length_replicate] at short
  exact absurd short (by decide)

end HenPlugins.Ftp.AbsolutePaths
