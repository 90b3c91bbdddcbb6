import HenPlugins.Ftp.RecordedCalls

/-!
# The mode of data connections

`ftp_data_open` connects if a port is stored.  `PORT` stores one, and nothing
clears it, so after a `PORT` no `PASV` has an effect on transfers.
-/

set_option autoImplicit false

namespace HenPlugins.Ftp.DataMode

open HenPlugins.Lib.ByteText
open HenPlugins.Lib.CallProgram
open HenPlugins.Lib.CallTrace
open HenPlugins.Lib.EventRun
open HenPlugins.Ftp.SessionCalls
open HenPlugins.Ftp.Commands
open HenPlugins.Ftp.FtpSessions
open HenPlugins.Ftp.SessionRecord
open HenPlugins.Ftp.RecordedCalls

/-- The calls of `ftp_data_open`. -/
def opensData : Request Call Role → Bool
  | .use (.connect _) _ => true
  | .acquire .data .accept _ => true
  | _ => false

/-- The call opens the data connection in the mode that was negotiated last. -/
def agrees (data : Negotiated) : Request Call Role → Bool
  | .acquire .data .accept through =>
      match data.mode with
      | .passive socket => !data.lost && through = some socket
      | _ => false
  | .use (.connect addr) _ => data.mode = .active addr
  | _ => false

/-- No port is stored that the mode has no use for, and the port of an active
mode is not 0. -/
def isClear (data : Negotiated) : Bool :=
  match data.mode with
  | .passive _ => !data.lost && data.portOrZero.sinPort = 0
  | .active addr => addr.sinPort ≠ 0
  | .unset => false

def FollowsMode (record : Record) (exchange : FtpExchange) : Prop :=
  opensData exchange.request = true →
    agrees record.data exchange.request = true

def ModeClear (record : Record) (exchange : FtpExchange) : Prop :=
  opensData exchange.request = true →
    isClear record.data = true

instance (record : Record) (exchange : FtpExchange) :
    Decidable (FollowsMode record exchange) :=
  inferInstanceAs (Decidable (_ → _))

instance (record : Record) (exchange : FtpExchange) :
    Decidable (ModeClear record exchange) :=
  inferInstanceAs (Decidable (_ → _))

structure InMode (data : Negotiated) : Prop where
  passive : ∀ socket, data.mode = .passive socket → data.lost = false →
    data.socket = socket
  active : ∀ addr, data.mode = .active addr → data.port = some addr

theorem inMode_answered (data : Negotiated) (arg : Text) (reply : Reply)
    (inMode : InMode data) : InMode (data.answered arg reply) := by
  unfold Negotiated.answered
  split
  · split
    · rename_i addr _
      refine ⟨?_, ?_⟩
      · intro socket same
        contradiction
      · intro other same
        exact congrArg some (Mode.active.inj same)
    · exact inMode
  · split
    · refine ⟨?_, ?_⟩
      · intro socket same _
        exact Mode.passive.inj same
      · intro addr same
        contradiction
    · exact inMode

theorem inMode_lost (data : Negotiated) (socket : Int)
    (inMode : InMode data) :
    InMode { data with socket := socket, lost := true } where
  passive := by
    intro other same kept
    contradiction
  active := inMode.active

theorem inMode_after (data : Negotiated) (arg : Text)
    (request : Request Call Role) (answer : Answer Buffers)
    (inMode : InMode data) : InMode (data.after arg request answer) := by
  unfold Negotiated.after
  split
  · exact inMode_lost data answer.value inMode
  · exact inMode_lost data data.socket inMode
  · exact inMode_answered data arg _ inMode
  · exact inMode

theorem inMode_note (record : Record) (exchange : FtpExchange)
    (inMode : InMode record.data) : InMode (note record exchange).data := by
  rw [note]
  split
  · exact inMode
  · exact inMode_after record.data _ _ _ inMode

theorem portOrZero_of_active (data : Negotiated) (inMode : InMode data)
    (addr : SockAddr) (active : data.mode = .active addr) :
    data.portOrZero = addr := by
  rw [Negotiated.portOrZero, inMode.active addr active, Option.getD_some]

theorem agrees_connect_iff (data : Negotiated) (addr : SockAddr) (fd : Int)
    (inMode : InMode data) (stored : addr = data.portOrZero)
    (port : addr.sinPort ≠ 0) :
    agrees data (.use (.connect addr) fd) = true ↔
      isClear data = true := by
  rw [agrees, isClear, decide_eq_true_eq]
  simp only [ne_eq, BitVec.ofNat_eq_ofNat] at port
  cases mode : data.mode with
  | unset => simp
  | passive socket =>
      rw [← stored]
      simp [port]
  | active other =>
      have same : addr = other :=
        stored.trans (portOrZero_of_active data inMode other mode)
      simp [← same, port]

theorem agrees_accept_iff (data : Negotiated) (through : Option Int)
    (inMode : InMode data) (stored : through = some data.socket)
    (port : data.portOrZero.sinPort = 0) :
    agrees data (.acquire .data .accept through) = true ↔
      isClear data = true := by
  rw [agrees, isClear]
  cases mode : data.mode with
  | unset => simp
  | passive socket =>
      cases kept : data.lost with
      | true => simp
      | false => simp [stored, port, inMode.passive socket mode kept]
  | active other =>
      rw [portOrZero_of_active data inMode other mode] at port
      simp [port]

theorem followsMode_iff (record : Record) (exchange : FtpExchange)
    (inMode : InMode record.data) (predicted : Predicted record exchange) :
    FollowsMode record exchange ↔ ModeClear record exchange := by
  obtain ⟨request, answer⟩ := exchange
  rw [FollowsMode, ModeClear]
  apply imp_congr_right
  intro opens
  simp only at opens ⊢
  unfold opensData at opens
  split at opens
  · obtain ⟨stored, port⟩ := predicted
    exact agrees_connect_iff record.data _ _ inMode stored port
  · obtain ⟨stored, port⟩ := predicted
    exact agrees_accept_iff record.data _ inMode stored port
  · contradiction

/-- Transfers use the mode that was negotiated last exactly where no stored port
stands against it and the passive socket is still there. -/
theorem transfers_follow_mode_iff (connfd : Nat) (trace : List FtpExchange)
    (rest : FtpProgram)
    (executes : Executes body (ftpThread connfd) trace rest) :
    EveryStep note FollowsMode {} trace ↔ EveryStep note ModeClear {} trace := by
  apply everyStep_iff_of_sound note Predicted FollowsMode ModeClear
    (fun record => InMode record.data)
  · exact fun record exchange inMode predicted =>
      followsMode_iff record exchange inMode predicted
  · exact fun record exchange inMode _ => inMode_note record exchange inMode
  · refine ⟨?_, ?_⟩
    · intro socket unset
      contradiction
    · intro addr unset
      contradiction
  · exact predicted_trace connfd trace rest executes

/-- `PASV` gets the socket 4, and `LIST` accepts on it. -/
def pasvThenList : List (Answer Buffers) :=
  nextLine "PASV" ++ [given 0, given 4] ++ List.replicate 4 (given 0) ++
    nextLine "LIST" ++ [given 5, given 6]

theorem pasvThenList_followsMode :
    EveryStep note FollowsMode {} (sessionTrace pasvThenList) :=
  (transfers_follow_mode_iff 3 _ _ (executes_sessionTrace pasvThenList)).mpr
    (by decide)

/-- `LIST` connects to the address of the `PORT`, whose port is 1025. -/
def portThenPasv : List (Answer Buffers) :=
  nextLine "PORT 127,0,0,1,4,1" ++ [given 4, given 0] ++
    nextLine "PASV" ++ [given 0, given 5] ++ List.replicate 4 (given 0) ++
    nextLine "LIST" ++ [given 6, given 0]

theorem portThenPasv_connects : ∃ trace rest,
    Executes body (ftpThread 3) trace rest ∧
      ¬ EveryStep note FollowsMode {} trace :=
  ⟨_, _, executes_sessionTrace portThenPasv, by decide⟩

end HenPlugins.Ftp.DataMode
