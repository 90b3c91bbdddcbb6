import HenPlugins.Ftp.RecordedCalls

/-!
# Where transfers start

`RETR` takes no notice of the offset of a `REST` and leaves it stored, `STOR`
clears it before its file is open, and `APPE` takes an offset of 0 for none.
-/

set_option autoImplicit false

namespace HenPlugins.Ftp.RestartOffset

open HenPlugins.Lib.ByteText
open HenPlugins.Lib.CallProgram
open HenPlugins.Lib.CallTrace
open HenPlugins.Lib.EventRun
open HenPlugins.Ftp.SessionCalls
open HenPlugins.Ftp.Commands
open HenPlugins.Ftp.FtpSessions
open HenPlugins.Ftp.SessionRecord
open HenPlugins.Ftp.RecordedCalls

/-- The reply that a transfer starts with. -/
def isOpening : Request Call Role → Bool
  | .use (.reply reply) _ => reply = opening
  | _ => false

/-- The size of a file is what the `stat` of the command said; if it made none,
what the file had when it was opened. -/
def fileSize (transfer : Transfer) : BitVec 64 :=
  transfer.asked.getD transfer.opened

/-- The first transfer behind a `REST` starts at its offset, any other one at 0
or, if it appends, at the size of the file. -/
def expected (transfer : Transfer) : BitVec 64 :=
  match transfer.restart.due with
  | some offset => offset
  | none =>
      match transfer.kind with
      | .appe => fileSize transfer
      | _ => 0

/-- By what became of the last offset, the transfer has the right start. -/
def isHeeded (transfer : Transfer) : Bool :=
  match transfer.kind with
  | .retr => transfer.restart.due.getD 0 = 0
  | .stor =>
      match transfer.restart with
      | .spoiled offset => offset = 0
      | .left offset => offset = 0
      | _ => true
  | .appe =>
      match transfer.restart with
      | .idle => true
      | .pending offset => offset ≠ 0 || transfer.asked = some 0
      | .spoiled offset => transfer.asked = some offset
      | .left offset => offset = 0 || offset = transfer.opened

def StartsWhereDue (record : Record) (exchange : FtpExchange) : Prop :=
  isOpening exchange.request = true →
    ∀ transfer ∈ record.offsets.transfer,
      transfer.position = expected transfer

def OffsetHeeded (record : Record) (exchange : FtpExchange) : Prop :=
  isOpening exchange.request = true →
    ∀ transfer ∈ record.offsets.transfer, isHeeded transfer = true

instance (record : Record) (exchange : FtpExchange) :
    Decidable (StartsWhereDue record exchange) :=
  inferInstanceAs (Decidable (_ → _))

instance (record : Record) (exchange : FtpExchange) :
    Decidable (OffsetHeeded record exchange) :=
  inferInstanceAs (Decidable (_ → _))

section Start
variable (transfer : Transfer) (predicted : StartPredicted transfer)

include predicted in
theorem starts_retr_iff (kind : transfer.kind = .retr) :
    transfer.position = expected transfer ↔ isHeeded transfer = true := by
  rw [predicted.position, reached, expected, isHeeded, kind]
  cases due : transfer.restart.due with
  | none => simp
  | some offset =>
      simp only [Option.getD_some, decide_eq_true_eq]
      exact eq_comm

include predicted in
theorem starts_stor_iff (kind : transfer.kind = .stor) :
    transfer.position = expected transfer ↔ isHeeded transfer = true := by
  rw [predicted.position, reached, expected, isHeeded, kind]
  cases transfer.restart with
  | idle => simp [Restart.stored, Restart.due]
  | pending offset => simp [Restart.stored, Restart.due]
  | spoiled offset =>
      simp only [Restart.stored, Restart.due, decide_eq_true_eq]
      exact eq_comm
  | left offset => simp [Restart.stored, Restart.due]

/-- Where no offset is stored, `APPE` asked for the size of the file. -/
theorem asked_of_appe (predicted : StartPredicted transfer)
    (kind : transfer.kind = .appe) (zero : transfer.restart.stored = 0) :
    ∃ size, transfer.asked = some size := by
  cases said : transfer.asked with
  | none => exact absurd zero ((predicted.asked kind).mp said)
  | some size => exact ⟨size, rfl⟩

include predicted in
theorem starts_appe_iff (kind : transfer.kind = .appe) :
    transfer.position = expected transfer ↔ isHeeded transfer = true := by
  rw [predicted.position, reached, expected, isHeeded, kind]
  have asked := asked_of_appe transfer predicted kind
  have unasked := (predicted.asked kind).mpr
  cases restart : transfer.restart with
  | idle =>
      rw [restart] at asked
      obtain ⟨size, said⟩ := asked rfl
      simp [Restart.stored, Restart.due, fileSize, said]
  | pending offset =>
      by_cases zero : offset = 0
      · rw [restart] at asked
        obtain ⟨size, said⟩ := asked zero
        simp [Restart.stored, Restart.due, said, zero]
      · rw [BitVec.ofNat_eq_ofNat] at zero
        simp [Restart.stored, Restart.due, zero]
  | spoiled offset =>
      rw [restart] at asked
      obtain ⟨size, said⟩ := asked rfl
      simp [Restart.stored, Restart.due, said]
  | left offset =>
      by_cases zero : offset = 0
      · rw [restart] at asked
        obtain ⟨size, said⟩ := asked zero
        simp [Restart.stored, Restart.due, fileSize, said, zero]
      · rw [restart] at unasked
        have said := unasked zero
        rw [BitVec.ofNat_eq_ofNat] at zero
        simp [Restart.stored, Restart.due, fileSize, said, zero]

include predicted in
theorem starts_iff :
    transfer.position = expected transfer ↔ isHeeded transfer = true := by
  cases kind : transfer.kind with
  | retr => exact starts_retr_iff transfer predicted kind
  | stor => exact starts_stor_iff transfer predicted kind
  | appe => exact starts_appe_iff transfer predicted kind

end Start

theorem startsWhereDue_iff (record : Record) (exchange : FtpExchange)
    (predicted : Predicted record exchange) :
    StartsWhereDue record exchange ↔ OffsetHeeded record exchange := by
  obtain ⟨request, answer⟩ := exchange
  rw [StartsWhereDue, OffsetHeeded]
  apply imp_congr_right
  intro opens
  have started : ∀ transfer ∈ record.offsets.transfer,
      StartPredicted transfer := by
    simp only at opens
    unfold isOpening at opens
    split at opens
    · exact predicted (of_decide_eq_true opens)
    · contradiction
  constructor
  · intro every transfer member
    exact (starts_iff transfer (started transfer member)).mp
      (every transfer member)
  · intro every transfer member
    exact (starts_iff transfer (started transfer member)).mpr
      (every transfer member)

theorem transfers_start_where_due_iff (connfd : Nat)
    (trace : List FtpExchange) (rest : FtpProgram)
    (executes : Executes body (ftpThread connfd) trace rest) :
    EveryStep note StartsWhereDue {} trace ↔
      EveryStep note OffsetHeeded {} trace := by
  apply everyStep_iff_of_sound note Predicted StartsWhereDue OffsetHeeded
    (fun _ => True)
  · exact fun record exchange _ predicted =>
      startsWhereDue_iff record exchange predicted
  · exact fun _ _ _ _ => trivial
  · trivial
  · exact predicted_trace connfd trace rest executes

/-- `STOR` starts at 5. -/
def restThenStor : List (Answer Buffers) :=
  nextLine "REST 5" ++ [given 0] ++ nextLine "STOR f" ++
    [given 4, given 5, given 0]

theorem restThenStor_startsWhereDue :
    EveryStep note StartsWhereDue {} (sessionTrace restThenStor) :=
  (transfers_start_where_due_iff 3 _ _
    (executes_sessionTrace restThenStor)).mpr (by decide)

/-- `RETR` starts at 0. -/
def restThenRetr : List (Answer Buffers) :=
  nextLine "REST 5" ++ [given 0] ++ nextLine "RETR f" ++
    [given 0, given 4, given 0]

theorem restThenRetr_startsAtZero : ∃ trace rest,
    Executes body (ftpThread 3) trace rest ∧
      ¬ EveryStep note StartsWhereDue {} trace :=
  ⟨_, _, executes_sessionTrace restThenRetr, by decide⟩

end HenPlugins.Ftp.RestartOffset
