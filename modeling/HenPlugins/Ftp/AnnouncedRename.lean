import HenPlugins.Ftp.RecordedCalls

/-!
# Which renames were announced

`RNFR` keeps its path before it looks for it, and neither an error nor a rename
takes the path back; `RNTO` asks only whether the path is there.
-/

set_option autoImplicit false

namespace HenPlugins.Ftp.AnnouncedRename

open HenPlugins.Lib.ByteText
open HenPlugins.Lib.CallProgram
open HenPlugins.Lib.CallTrace
open HenPlugins.Lib.EventRun
open HenPlugins.Ftp.SessionCalls
open HenPlugins.Ftp.Commands
open HenPlugins.Ftp.FtpSessions
open HenPlugins.Ftp.SessionRecord
open HenPlugins.Ftp.RecordedCalls

/-- The path that a call renames. -/
def renamed : Request Call Role → Option Text
  | .plain (.rename path _) => some path
  | _ => none

def isStat : Request Call Role → Bool
  | .plain (.stat _) => true
  | _ => false

/-- The path of a rename is the one that a `RNFR` announced; no error and no
rename came since. -/
def RenamesAnnounced (record : Record) (exchange : FtpExchange) : Prop :=
  ∀ path ∈ renamed exchange.request, record.source.announced = some path

/-- When a `RNTO` looks for the path that is kept and none is announced, it is
not there. -/
def UnannouncedMissing (record : Record) (exchange : FtpExchange) : Prop :=
  isStat exchange.request = true → record.spoken.name = ascii "RNTO" →
    record.source.announced = none → exchange.answer.value ≠ 0

instance (record : Record) (exchange : FtpExchange) :
    Decidable (RenamesAnnounced record exchange) :=
  inferInstanceAs (Decidable (∀ path ∈ renamed exchange.request, _))

instance (record : Record) (exchange : FtpExchange) :
    Decidable (UnannouncedMissing record exchange) :=
  inferInstanceAs (Decidable (_ → _))

structure Standing (name : Text) (source : RenameSource) : Prop where
  path : ∀ path, source.announced = some path → path = source.path
  found : name = ascii "RNTO" → source.found = true →
    source.announced ≠ none

theorem standing_answered (name : Text) (source : RenameSource)
    (reply : Reply) (standing : Standing name source) :
    Standing name (source.answered name reply) := by
  rw [RenameSource.answered]
  split
  · refine ⟨?_, ?_⟩
    · intro path same
      exact (Option.some.inj same).symm
    · intro _ _ none
      contradiction
  split
  · rename_i refused
    refine ⟨?_, ?_⟩
    · intro path same
      contradiction
    · intro renames
      rw [refused.2] at renames
      exact absurd renames (by decide)
  · exact standing

theorem standing_after (name : Text) (source : RenameSource)
    (request : Request Call Role) (answer : Answer Buffers)
    (standing : Standing name source)
    (missing : isStat request = true → name = ascii "RNTO" →
      source.announced = none → answer.value ≠ 0) :
    Standing name (source.after name request answer) := by
  unfold RenameSource.after
  split
  · split
    · rename_i announces
      refine ⟨?_, ?_⟩
      · intro path same
        contradiction
      · intro renames
        rw [announces] at renames
        exact absurd renames (by decide)
    · refine ⟨standing.path, ?_⟩
      intro renames found none
      exact missing rfl renames none (of_decide_eq_true found)
  · refine ⟨?_, ?_⟩
    · intro path same
      simp only at same
      split at same
      · contradiction
      · exact standing.path path same
    · intro _ found
      contradiction
  · exact standing_answered name source _ standing
  · exact standing

/-- What a step keeps, if its `stat` does not find an unannounced path. -/
theorem standing_note (record : Record) (exchange : FtpExchange)
    (standing : Standing record.spoken.name record.source)
    (missing : UnannouncedMissing record exchange) :
    Standing (note record exchange).spoken.name
      (note record exchange).source := by
  rw [note]
  split
  · refine ⟨standing.path, ?_⟩
    intro _ found
    contradiction
  · exact standing_after record.spoken.name record.source _ _ standing missing

theorem renamesAnnounced_of_standing (record : Record)
    (exchange : FtpExchange)
    (standing : Standing record.spoken.name record.source)
    (predicted : Predicted record exchange) :
    RenamesAnnounced record exchange := by
  obtain ⟨request, answer⟩ := exchange
  intro path member
  simp only at member
  unfold renamed at member
  split at member
  · rename_i source target
    cases Option.some.inj member
    obtain ⟨kept, found, renames⟩ := predicted
    obtain ⟨announced, same⟩ :=
      Option.ne_none_iff_exists'.mp (standing.found renames found)
    rw [same, standing.path announced same, kept]
  · contradiction

/-- If no `RNTO` finds a path that is kept but not announced, every rename was
announced. -/
theorem renames_announced (connfd : Nat) (trace : List FtpExchange)
    (rest : FtpProgram)
    (executes : Executes body (ftpThread connfd) trace rest)
    (missing : EveryStep note UnannouncedMissing {} trace) :
    EveryStep note RenamesAnnounced {} trace := by
  have both := (everyStep_and note Predicted UnannouncedMissing {} trace).mpr
    ⟨predicted_trace connfd trace rest executes, missing⟩
  apply everyStep_of_sound note _ RenamesAnnounced
    (fun record => Standing record.spoken.name record.source) _ {} trace _ both
  · intro record exchange standing sound
    exact ⟨renamesAnnounced_of_standing record exchange standing sound.1,
      standing_note record exchange standing sound.2⟩
  · refine ⟨?_, ?_⟩
    · intro path none
      contradiction
    · intro _ found
      contradiction

/-- The path is announced and renamed. -/
def rnfrThenRnto : List (Answer Buffers) :=
  nextLine "RNFR /a" ++ [given 0, given 0] ++ nextLine "RNTO /b" ++
    [given 0, given 0, given 0]

theorem rnfrThenRnto_announced :
    EveryStep note RenamesAnnounced {} (sessionTrace rnfrThenRnto) :=
  renames_announced 3 _ _ (executes_sessionTrace rnfrThenRnto) (by decide)

/-- `RNFR` is refused, then the path is made and renamed. -/
def refusedThenRnto : List (Answer Buffers) :=
  nextLine "RNFR /a" ++ [given (-1), given 0] ++
    nextLine "MKD /a" ++ [given 0, given 0] ++
    nextLine "RNTO /b" ++ [given 0, given 0, given 0]

theorem refusedThenRnto_renames : ∃ trace rest,
    Executes body (ftpThread 3) trace rest ∧
      ¬ EveryStep note RenamesAnnounced {} trace :=
  ⟨_, _, executes_sessionTrace refusedThenRnto, by decide⟩

end HenPlugins.Ftp.AnnouncedRename
