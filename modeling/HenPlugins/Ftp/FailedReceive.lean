import HenPlugins.Ftp.Upload

/-!
# Which uploads are intact

The length of a failed `recv` becomes the largest `size_t`, and so does the
result of writing it, so the loop goes on; the offset goes back by one and the
file is cut there.
-/

set_option autoImplicit false

namespace HenPlugins.Ftp.FailedReceive

open HenPlugins.Lib.ByteText
open HenPlugins.Lib.FileContent
open HenPlugins.Lib.WhileLoop
open HenPlugins.Ftp.Upload

/-! ## What is asked -/

inductive Command where
  | stor
  | appe
  deriving DecidableEq

structure Upload where
  command : Command
  system : System
  stream : Stream
  env : FtpEnv
  arg : Text
  file : Option (List UInt8)

def Upload.Returns (upload : Upload) (outcome : Outcome) : Prop :=
  match upload.command with
  | .stor => FtpCmdStorReturns upload.system upload.stream upload.env
      upload.arg upload.file outcome
  | .appe => FtpCmdAppeReturns upload.system upload.stream upload.env
      upload.arg upload.file outcome

def Upload.content (upload : Upload) : List UInt8 := upload.file.getD []

/-- Where the transfer starts. -/
def Upload.offset (upload : Upload) : BitVec 64 :=
  match upload.command with
  | .stor => upload.env.dataOffset
  | .appe =>
      if upload.env.dataOffset = 0 then
        BitVec.ofNat 64 upload.content.length
      else upload.env.dataOffset

/-- Nothing goes wrong before the first `recv`. -/
structure Upload.Begun (upload : Upload) : Prop where
  named : upload.arg ≠ []
  measured : upload.command = .appe → upload.env.dataOffset = 0 →
    upload.system.stats = true ∧ upload.file.isSome = true
  opened : upload.system.opens = true
  seekable : 0 ≤ upload.offset.toInt
  greeted : upload.system.greets = true
  connected : upload.system.connects = true

/-- The bytes of the first calls of `recv`. -/
def received (stream : Stream) : Nat → List UInt8
  | 0 => []
  | count + 1 => received stream count ++ (stream.recv count).bytes

def failures (stream : Stream) : Nat → Nat
  | 0 => 0
  | count + 1 =>
      match stream.recv count with
      | .error => failures stream count + 1
      | _ => failures stream count

def sent (stream : Stream) : List UInt8 :=
  (stream.chunks.map Chunk.bytes).flatten

/-- Writes of chunks succeed: they end in front of the largest offset. -/
def WritesSucceed (upload : Upload) : Prop :=
  0 ≤ upload.offset.toInt → ∀ count,
    (∀ call < count, upload.stream.recv call ≠ .endOfStream) →
      upload.offset.toNat + (received upload.stream count).length ≤ ssizeMax

/-- A completed upload is all there, and a failed one is reported and not
cut. -/
structure Intact (upload : Upload) (outcome : Outcome) : Prop where
  completed : complete ∈ outcome.replies → upload.stream.failed = false ∧
    outcome.file = some
      (resize 0 upload.content upload.offset.toNat ++ sent upload.stream)
  failed : upload.Begun → upload.stream.failed = true →
    Reply.perror ∈ outcome.replies ∧ ∃ file, outcome.file = some file ∧
      Contains file upload.offset.toNat
        (received upload.stream outcome.reads)

def UploadIntact (upload : Upload) : Prop :=
  ∃ outcome, upload.Returns outcome ∧ Intact upload outcome

/-- The first call that answers with the end of the stream. -/
def EndsAt (stream : Stream) (call : Nat) : Prop :=
  stream.recv call = .endOfStream ∧
    ∀ earlier < call, stream.recv earlier ≠ .endOfStream

/-- The offset behind the last write, less one for each failure, as an unsigned
number of 64 bits. -/
def cutAt (upload : Upload) (count : Nat) : Nat :=
  ((upload.offset.toNat + (received upload.stream count).length -
    failures upload.stream count : Int) % 2 ^ 64).toNat

/-- Behind a failure the end of the stream is still reached, and the cut is
refused; or it takes no received byte and closing the connection fails. -/
def FailureNoticed (upload : Upload) : Prop :=
  ∃ count, EndsAt upload.stream count ∧
    (2 ^ 63 ≤ cutAt upload count ∨ upload.system.truncates = false ∨
      (upload.system.closes = false ∧
        (received upload.stream count = [] ∨
          upload.offset.toNat + (received upload.stream count).length ≤
            cutAt upload count)))

/-! ## Before the loop -/

def startTransfer (upload : Upload) : Transfer where
  reads := 0
  file := upload.content
  position := upload.offset.toNat
  off := upload.offset
  broke := false

theorem storBegin_cases (system : System) (env : FtpEnv) (arg : Text)
    (file : Option (List UInt8)) :
    (arg ≠ [] ∧ system.opens = true ∧ 0 ≤ env.dataOffset.toInt ∧
        system.greets = true ∧ system.connects = true ∧
        storBegin system env arg file = .ok
          { reads := 0
            file := file.getD []
            position := env.dataOffset.toNat
            off := env.dataOffset
            broke := false }) ∨
      (¬ (arg ≠ [] ∧ system.opens = true ∧ 0 ≤ env.dataOffset.toInt ∧
          system.greets = true ∧ system.connects = true) ∧
        ∃ refused, complete ∉ refused.replies ∧
          storBegin system env arg file = .error refused) := by
  have usage : complete ≠ .line "501 Usage: STOR <FILENAME>\r\n" := by decide
  have opens : complete ≠ opening := by decide
  have perror : complete ≠ .perror := by decide
  rw [storBegin]
  simp only
  split
  · rename_i unnamed
    exact Or.inr ⟨fun given => given.1 unnamed, _, by simp [refuse, usage], rfl⟩
  · rename_i named
    split
    · rename_i closed
      exact Or.inr ⟨by simp [closed], _, by simp [refuse, perror], rfl⟩
    · rename_i opened
      split
      · rename_i negative
        exact Or.inr ⟨by simp [negative], _, by simp [refuse, perror], rfl⟩
      · rename_i seekable
        split
        · rename_i mute
          exact Or.inr ⟨by simp [mute], _, by simp [refuse, opens], rfl⟩
        · rename_i greeted
          split
          · rename_i unconnected
            exact Or.inr ⟨by simp [unconnected], _,
              by simp [refuse, opens, perror], rfl⟩
          · rename_i connected
            left
            simp only [Bool.not_eq_false] at opened greeted connected
            exact ⟨named, opened, by omega, greeted, connected, rfl⟩

/-- What a command comes to: a transfer, or a refusal. -/
def Starts (upload : Upload) : Prop :=
  (upload.Begun ∧ ∀ outcome, upload.Returns outcome ↔
      ∃ final, EndsIn (storGuard upload.stream) (storBody upload.stream)
        (startTransfer upload) final ∧
          outcome = storFinish upload.system final) ∨
    (¬ upload.Begun ∧ ∃ refused, complete ∉ refused.replies ∧
      ∀ outcome, upload.Returns outcome ↔ outcome = refused)

theorem starts_of_stor (upload : Upload)
    (returns : ∀ outcome, upload.Returns outcome ↔
      FtpCmdStorReturns upload.system upload.stream
        { dataOffset := upload.offset } upload.arg upload.file outcome)
    (measured : upload.command = .appe → upload.env.dataOffset = 0 →
      upload.system.stats = true ∧ upload.file.isSome = true) :
    Starts upload := by
  rcases storBegin_cases upload.system { dataOffset := upload.offset }
      upload.arg upload.file with
    ⟨named, opened, seekable, greeted, connected, begins⟩ |
      ⟨stopped, refused, incomplete, begins⟩
  · left
    refine ⟨⟨named, measured, opened, seekable, greeted, connected⟩, ?_⟩
    intro outcome
    rw [returns, FtpCmdStorReturns, begins]
    rfl
  · right
    refine ⟨?_, refused, incomplete, ?_⟩
    · intro begun
      exact stopped ⟨begun.named, begun.opened, begun.seekable, begun.greeted,
        begun.connected⟩
    · intro outcome
      rw [returns, FtpCmdStorReturns, begins]

theorem starts_of_appeRefused (upload : Upload)
    (appends : upload.command = .appe) (refused : Outcome)
    (begins : appeBegin upload.system upload.env upload.arg upload.file =
      .error refused)
    (incomplete : complete ∉ refused.replies) (stopped : ¬ upload.Begun) :
    Starts upload := by
  refine Or.inr ⟨stopped, refused, incomplete, ?_⟩
  intro outcome
  rw [Upload.Returns, appends]
  simp only
  rw [FtpCmdAppeReturns, begins]

theorem starts_of_appeOk (upload : Upload)
    (appends : upload.command = .appe)
    (begins : appeBegin upload.system upload.env upload.arg upload.file =
      .ok { dataOffset := upload.offset })
    (measured : upload.command = .appe → upload.env.dataOffset = 0 →
      upload.system.stats = true ∧ upload.file.isSome = true) :
    Starts upload := by
  apply starts_of_stor upload _ measured
  intro outcome
  rw [Upload.Returns, appends]
  simp only
  rw [FtpCmdAppeReturns, begins]

theorem starts (upload : Upload) : Starts upload := by
  cases appends : upload.command with
  | stor =>
      apply starts_of_stor
      · intro outcome
        rw [Upload.Returns, Upload.offset, appends]
      · intro other
        rw [appends] at other
        contradiction
  | appe =>
      by_cases unnamed : upload.arg = []
      · have refusal : appeBegin upload.system upload.env upload.arg
            upload.file =
              .error (refuse upload.system upload.file
                [.line "501 Usage: APPE <FILENAME>\r\n"] upload.env) := by
          unfold appeBegin
          rw [if_pos unnamed]
        have usage :
            complete ≠ .line "501 Usage: APPE <FILENAME>\r\n" := by
          decide
        apply starts_of_appeRefused upload appends _ refusal
        · simp [refuse, usage]
        · intro begun
          exact begun.named unnamed
      by_cases zero : upload.env.dataOffset = 0
      · by_cases measured : upload.system.stats = true ∧
            upload.file.isSome = true
        · obtain ⟨stats, there⟩ := measured
          obtain ⟨content, file⟩ := Option.isSome_iff_exists.mp there
          apply starts_of_appeOk upload appends
          · unfold appeBegin
            rw [if_neg unnamed, if_pos zero, file]
            simp only [stats, if_true]
            rw [Upload.offset, Upload.content, appends, file]
            simp only [zero, if_true, Option.getD_some]
          · intro _ _
            exact ⟨stats, there⟩
        · have stopped : ¬ upload.Begun := by
            intro begun
            exact measured (begun.measured appends zero)
          have refusal : appeBegin upload.system upload.env upload.arg
              upload.file =
                .error (refuse upload.system upload.file [.perror]
                  upload.env) := by
            unfold appeBegin
            rw [if_neg unnamed, if_pos zero]
            cases file : upload.file with
            | none => rfl
            | some content =>
                have fails : upload.system.stats ≠ true := by
                  intro stats
                  exact measured ⟨stats, by rw [file]; rfl⟩
                simp only [fails]
                rfl
          have perror : complete ≠ .perror := by decide
          apply starts_of_appeRefused upload appends _ refusal _ stopped
          simp [refuse, perror]
      · apply starts_of_appeOk upload appends
        · unfold appeBegin
          rw [if_neg unnamed, if_neg zero, Upload.offset, appends]
          simp only [zero, if_false]
        · intro _ other
          exact absurd other zero

/-! ## The loop -/

section Looping
variable (upload : Upload)

/-- The transfer after so many rounds. -/
def transferAfter (count : Nat) : Transfer where
  reads := count
  file := writeAt 0 upload.content upload.offset.toNat
    (received upload.stream count)
  position := upload.offset.toNat + (received upload.stream count).length
  off := BitVec.ofInt 64 (upload.offset.toNat +
    (received upload.stream count).length - failures upload.stream count)
  broke := false

theorem transferAfter_zero : transferAfter upload 0 = startTransfer upload := by
  rw [transferAfter, startTransfer]
  simp [received, failures, writeAt]

theorem ftpDataRead_eq_zero (result : Received) :
    ftpDataRead result = 0 ↔ result = .endOfStream := by
  cases result with
  | chunk data =>
      have some := List.length_pos_iff.mpr data.nonempty
      have fits := data.fits
      rw [readbufSize] at fits
      constructor
      · intro zero
        have value := congrArg BitVec.toNat zero
        rw [ftpDataRead, BitVec.toNat_ofNat] at value
        have nothing : (0 : BitVec 64).toNat = 0 := rfl
        omega
      · intro ended
        contradiction
  | endOfStream => exact iff_of_true rfl rfl
  | error => exact iff_of_false (by decide) (by simp)

/-- The loop goes on unless the stream has ended, a failure included. -/
theorem storGuard_transferAfter (count : Nat) :
    storGuard upload.stream (transferAfter upload count) = true ↔
      upload.stream.recv count ≠ .endOfStream := by
  rw [ne_eq, ← ftpDataRead_eq_zero]
  simp [storGuard, transferAfter]

theorem storBody_of_sysWrite (transfer : Transfer) (result : Received)
    (answer : upload.stream.recv transfer.reads = result)
    (file : List UInt8)
    (written : sysWrite transfer.file transfer.position result.bytes
      (ftpDataRead result) = (ftpDataRead result, file)) :
    storBody upload.stream transfer =
      { reads := transfer.reads + 1
        file := file
        position := transfer.position + result.bytes.length
        off := transfer.off + ftpDataRead result
        broke := false } := by
  rw [storBody]
  simp only [answer, written, ne_eq, not_true_eq_false, if_false]

theorem sysWrite_chunk (count : Nat) (data : Chunk)
    (succeeds : upload.offset.toNat + (received upload.stream count).length +
      data.bytes.length ≤ ssizeMax) :
    sysWrite (transferAfter upload count).file
        (transferAfter upload count).position data.bytes
        (BitVec.ofNat 64 data.bytes.length) =
      (BitVec.ofNat 64 data.bytes.length,
        writeAt 0 upload.content upload.offset.toNat
          (received upload.stream count ++ data.bytes)) := by
  have fits := data.fits
  rw [readbufSize] at fits
  have len : (BitVec.ofNat 64 data.bytes.length).toNat =
      data.bytes.length := by
    rw [BitVec.toNat_ofNat]
    omega
  rw [sysWrite, len, transferAfter]
  simp only
  rw [writeAt_append, if_neg (by omega)]

/-- A failure passes for a write of the same length. -/
theorem sysWrite_error (file : List UInt8) (position : Nat) :
    sysWrite file position [] (-1) = (-1, file) := by
  rw [sysWrite, if_pos (Or.inl (by decide))]

theorem storBody_transferAfter (count : Nat)
    (succeeds : upload.offset.toNat +
      (received upload.stream (count + 1)).length ≤ ssizeMax)
    (onward : upload.stream.recv count ≠ .endOfStream) :
    storBody upload.stream (transferAfter upload count) =
      transferAfter upload (count + 1) := by
  cases answer : upload.stream.recv count with
  | endOfStream => exact absurd answer onward
  | chunk data =>
      have bytes : received upload.stream (count + 1) =
          received upload.stream count ++ data.bytes := by
        rw [received, answer, Received.bytes]
      have same : failures upload.stream (count + 1) =
          failures upload.stream count := by
        rw [failures, answer]
      rw [bytes, List.length_append] at succeeds
      rw [storBody_of_sysWrite upload _ (.chunk data) answer _
        (sysWrite_chunk upload count data (by omega))]
      rw [transferAfter, transferAfter, bytes, same, ftpDataRead,
        Received.bytes, ← BitVec.ofInt_natCast, ← BitVec.ofInt_add,
        List.length_append]
      congr 1
      · simp only
        omega
      · congr 1
        omega
  | error =>
      have bytes : received upload.stream (count + 1) =
          received upload.stream count := by
        rw [received, answer, Received.bytes, List.append_nil]
      have more : failures upload.stream (count + 1) =
          failures upload.stream count + 1 := by
        rw [failures, answer]
      rw [storBody_of_sysWrite upload _ .error answer _
        (sysWrite_error _ _)]
      have back : (-1 : BitVec 64) = BitVec.ofInt 64 (-1) := by decide
      rw [transferAfter, transferAfter, bytes, more, ftpDataRead,
        Received.bytes, back, ← BitVec.ofInt_add]
      congr 1
      congr 1
      omega

variable (begun : upload.Begun) (succeeds : WritesSucceed upload)

include begun succeeds in
theorem runFor_transferAfter (count : Nat)
    (onward : ∀ call < count, upload.stream.recv call ≠ .endOfStream) :
    runFor (storGuard upload.stream) (storBody upload.stream) count
        (startTransfer upload) =
      transferAfter upload count := by
  induction count with
  | zero => exact (transferAfter_zero upload).symm
  | succ count ih =>
      have before := ih fun call earlier => onward call (by omega)
      have continues := onward count (Nat.lt_succ_self count)
      rw [runFor_add, before, runFor_succ,
        if_pos ((storGuard_transferAfter upload count).mpr continues)]
      exact storBody_transferAfter upload count
        (succeeds begun.seekable (count + 1) onward) continues

include begun succeeds in
theorem endsIn_iff (final : Transfer) :
    EndsIn (storGuard upload.stream) (storBody upload.stream)
        (startTransfer upload) final ↔
      ∃ count, EndsAt upload.stream count ∧
        final = transferAfter upload count := by
  have ends : ∀ count, EndsAt upload.stream count →
      EndsIn (storGuard upload.stream) (storBody upload.stream)
        (startTransfer upload) (transferAfter upload count) := by
    intro count ended
    obtain ⟨last, onward⟩ := ended
    refine ⟨count, runFor_transferAfter upload begun succeeds count onward, ?_⟩
    rw [← Bool.not_eq_true, storGuard_transferAfter, not_not]
    exact last
  constructor
  · intro ended
    by_cases some : ∃ count, upload.stream.recv count = .endOfStream
    · obtain ⟨count, first⟩ : ∃ count, EndsAt upload.stream count :=
        least_of_exists _ some
      exact ⟨count, first, endsIn_unique _ _ _ _ _ ended (ends count first)⟩
    · obtain ⟨count, run, stopped⟩ := ended
      have onward : ∀ call, upload.stream.recv call ≠ .endOfStream := by
        intro call last
        exact some ⟨call, last⟩
      rw [runFor_transferAfter upload begun succeeds count
        fun call _ => onward call] at run
      rw [← run, ← Bool.not_eq_true, storGuard_transferAfter, not_not]
        at stopped
      exact absurd stopped (onward count)
  · rintro ⟨count, ended, rfl⟩
    exact ends count ended

/-! ## Behind the loop -/

theorem off_transferAfter (count : Nat) :
    (transferAfter upload count).off.toNat = cutAt upload count := by
  rw [transferAfter, cutAt]
  simp only
  rw [BitVec.toNat_ofInt]
  rfl

theorem sysFtruncate_eq_none (count : Nat) :
    sysFtruncate upload.system (transferAfter upload count).file
        (transferAfter upload count).off = none ↔
      2 ^ 63 ≤ cutAt upload count ∨ upload.system.truncates = false := by
  have negative : (transferAfter upload count).off.toInt < 0 ↔
      2 ^ 63 ≤ cutAt upload count := by
    rw [BitVec.toInt_neg_iff, off_transferAfter]
    omega
  rw [sysFtruncate]
  simp only [negative]
  split
  · rename_i refused
    exact iff_of_true rfl refused
  · rename_i allowed
    exact iff_of_false (by simp) allowed

/-- Nothing is cut without a reply that reports it, and what is completed is
cut. -/
theorem storFinish_cases (count : Nat) :
    ((2 ^ 63 ≤ cutAt upload count ∨ upload.system.truncates = false) ∧
      storFinish upload.system (transferAfter upload count) =
        { file := some (transferAfter upload count).file
          replies := [opening, .perror]
          returned := upload.system.sent
          reads := count
          env := { dataOffset := 0 } }) ∨
    (¬ (2 ^ 63 ≤ cutAt upload count ∨ upload.system.truncates = false) ∧
      storFinish upload.system (transferAfter upload count) =
        { file := some (resize 0 (transferAfter upload count).file
            (cutAt upload count))
          replies := [opening,
            if upload.system.closes = false then .perror else complete]
          returned := upload.system.sent
          reads := count
          env := { dataOffset := 0 } }) := by
  have unbroken : (transferAfter upload count).broke = false := rfl
  have truncation := sysFtruncate_eq_none upload count
  by_cases refused : 2 ^ 63 ≤ cutAt upload count ∨
      upload.system.truncates = false
  · left
    refine ⟨refused, ?_⟩
    rw [storFinish]
    simp only [unbroken, Bool.false_eq_true, if_false,
      truncation.mpr refused]
    rfl
  · right
    refine ⟨refused, ?_⟩
    have cut : sysFtruncate upload.system (transferAfter upload count).file
        (transferAfter upload count).off =
          some (resize 0 (transferAfter upload count).file
            (cutAt upload count)) := by
      have allowed : sysFtruncate upload.system
          (transferAfter upload count).file
          (transferAfter upload count).off ≠ none := by
        rw [ne_eq, truncation]
        exact refused
      rw [sysFtruncate] at allowed ⊢
      split at allowed
      · contradiction
      · rename_i passed
        rw [if_neg passed, off_transferAfter]
    rw [storFinish]
    simp only [unbroken, Bool.false_eq_true, if_false, cut]
    split <;> rfl

end Looping

/-! ## The chunks of a stream -/

theorem recv_chunk (stream : Stream) (call : Nat) (data : Chunk)
    (found : stream.chunks[call]? = some data) :
    stream.recv call = .chunk data := by
  rw [Stream.recv, found]

theorem recv_end (stream : Stream) :
    stream.recv stream.chunks.length =
      if stream.failed then .error else .endOfStream := by
  rw [Stream.recv, List.getElem?_eq_none (Nat.le_refl _)]
  simp only [if_true]

theorem received_chunks (stream : Stream) (count : Nat)
    (inside : count ≤ stream.chunks.length) :
    received stream count =
        ((stream.chunks.take count).map Chunk.bytes).flatten ∧
      failures stream count = 0 ∧
      ∀ call < count, stream.recv call ≠ .endOfStream := by
  induction count with
  | zero => simp [received, failures]
  | succ count ih =>
      obtain ⟨bytes, none, onward⟩ := ih (by omega)
      have found := List.getElem?_eq_getElem
        (show count < stream.chunks.length by omega)
      have answer := recv_chunk stream count _ found
      refine ⟨?_, ?_, ?_⟩
      · rw [received, bytes, answer, List.take_add_one, found, List.map_append,
          List.flatten_append]
        simp [Received.bytes]
      · rw [failures, answer]
        exact none
      · intro call before
        rcases Nat.lt_succ_iff_lt_or_eq.mp before with earlier | here
        · exact onward call earlier
        · rw [here, answer]
          simp

theorem received_all (stream : Stream) :
    received stream stream.chunks.length = sent stream := by
  rw [(received_chunks stream _ (Nat.le_refl _)).1, List.take_length, sent]

theorem endsAt_chunks (stream : Stream) (ended : stream.failed = false) :
    EndsAt stream stream.chunks.length := by
  obtain ⟨-, -, onward⟩ := received_chunks stream _ (Nat.le_refl _)
  refine ⟨?_, onward⟩
  rw [recv_end, ended]
  rfl

/-! ## Exactly when -/

section Deciding
variable (upload : Upload) (begun : upload.Begun)
  (succeeds : WritesSucceed upload)

include begun succeeds in
theorem cutAt_chunks :
    cutAt upload upload.stream.chunks.length =
      upload.offset.toNat + (sent upload.stream).length := by
  obtain ⟨-, none, onward⟩ := received_chunks upload.stream _ (Nat.le_refl _)
  have bounded := succeeds begun.seekable _ onward
  rw [received_all, ssizeMax] at bounded
  rw [cutAt, none, received_all]
  omega

include begun succeeds in
theorem intact_of_ended (ended : upload.stream.failed = false) :
    Intact upload (storFinish upload.system
      (transferAfter upload upload.stream.chunks.length)) := by
  constructor
  · intro reply
    refine ⟨ended, ?_⟩
    rcases storFinish_cases upload upload.stream.chunks.length with
      ⟨-, outcome⟩ | ⟨-, outcome⟩
    · rw [outcome] at reply
      exact absurd reply (by simp [complete, opening])
    · rw [outcome]
      simp only
      rw [cutAt_chunks upload begun succeeds, transferAfter, received_all]
      simp only
      rw [resize_writeAt]
  · intro _ failed
    rw [ended] at failed
    contradiction

theorem intact_of_failed_iff (failed : upload.stream.failed = true)
    (begun : upload.Begun) (count : Nat) :
    Intact upload (storFinish upload.system (transferAfter upload count)) ↔
      (2 ^ 63 ≤ cutAt upload count ∨ upload.system.truncates = false ∨
        (upload.system.closes = false ∧
          (received upload.stream count = [] ∨
            upload.offset.toNat + (received upload.stream count).length ≤
              cutAt upload count))) := by
  have written : Contains (transferAfter upload count).file
      upload.offset.toNat (received upload.stream count) :=
    contains_writeAt 0 _ _ _
  have cut := contains_resize_iff 0 _ _ _ (cutAt upload count) written
  rcases storFinish_cases upload count with ⟨refused, outcome⟩ |
      ⟨passed, outcome⟩
  · rw [outcome]
    refine iff_of_true ?_ (by tauto)
    constructor
    · intro reply
      exact absurd reply (by simp [complete, opening])
    · intro _ _
      exact ⟨by simp, _, rfl, written⟩
  · rw [outcome]
    by_cases closes : upload.system.closes = false
    · simp only [closes, if_true]
      constructor
      · intro intact
        obtain ⟨-, file, same, contains⟩ := intact.failed begun failed
        cases Option.some.inj same
        exact Or.inr (Or.inr ⟨trivial, cut.mp contains⟩)
      · intro noticed
        have kept : received upload.stream count = [] ∨
            upload.offset.toNat + (received upload.stream count).length ≤
              cutAt upload count := by
          tauto
        constructor
        · intro reply
          exact absurd reply (by simp [complete, opening])
        · intro _ _
          exact ⟨by simp, _, rfl, cut.mpr kept⟩
    · simp only [closes]
      refine iff_of_false ?_ (by tauto)
      intro intact
      have ended := (intact.completed (by simp)).1
      rw [failed] at ended
      contradiction

include succeeds in
/-- An upload is intact or reported as failed if and only if no call of `recv`
fails, or the failure is noticed in the end. -/
theorem uploadIntact_iff :
    UploadIntact upload ↔
      (upload.Begun → upload.stream.failed = true → FailureNoticed upload) := by
  rcases starts upload with ⟨begun, returns⟩ |
      ⟨stopped, refused, incomplete, returns⟩
  · have runs : UploadIntact upload ↔ ∃ count, EndsAt upload.stream count ∧
        Intact upload (storFinish upload.system
          (transferAfter upload count)) := by
      constructor
      · intro intact
        obtain ⟨outcome, returned, kept⟩ := intact
        obtain ⟨final, ended, rfl⟩ := (returns outcome).mp returned
        obtain ⟨count, last, rfl⟩ :=
          (endsIn_iff upload begun succeeds final).mp ended
        exact ⟨count, last, kept⟩
      · intro intact
        obtain ⟨count, last, kept⟩ := intact
        refine ⟨_, (returns _).mpr ⟨_, ?_, rfl⟩, kept⟩
        exact (endsIn_iff upload begun succeeds _).mpr ⟨count, last, rfl⟩
    rw [runs]
    cases failed : upload.stream.failed with
    | false =>
        refine iff_of_true ?_ (by simp)
        exact ⟨_, endsAt_chunks upload.stream failed,
          intact_of_ended upload begun succeeds failed⟩
    | true =>
        constructor
        · intro intact _ _
          obtain ⟨count, last, kept⟩ := intact
          exact ⟨count, last,
            (intact_of_failed_iff upload failed begun count).mp kept⟩
        · intro noticed
          obtain ⟨count, last, kept⟩ := noticed begun rfl
          exact ⟨count, last,
            (intact_of_failed_iff upload failed begun count).mpr kept⟩
  · refine iff_of_true ?_ fun begun => absurd begun stopped
    refine ⟨refused, (returns refused).mpr rfl, ?_, ?_⟩
    · intro reply
      exact absurd reply incomplete
    · intro begun
      exact absurd begun stopped

end Deciding

/-! ## Two small uploads -/

def flawless : System where
  stats := true
  opens := true
  greets := true
  connects := true
  truncates := true
  closes := true
  answers := true

def threeBytes : Chunk where
  bytes := ascii "xyz"
  nonempty := by decide
  fits := by decide

/-- Three bytes, appended to two. -/
def appended : Upload where
  command := .appe
  system := flawless
  stream :=
    { chunks := [threeBytes], failed := false, later := fun _ => .endOfStream }
  env := { dataOffset := 0 }
  arg := ascii "a.txt"
  file := some (ascii "ab")

theorem writesSucceed_appended : WritesSucceed appended := by
  intro _ count onward
  have few : count ≤ 1 := by
    by_contra many
    exact onward 1 (by omega) rfl
  rcases (show count = 0 ∨ count = 1 by omega) with rfl | rfl <;> decide

theorem uploadIntact_appended : UploadIntact appended :=
  (uploadIntact_iff appended writesSucceed_appended).mpr fun _ failed => by
    contradiction

/-- Three bytes, and then the connection fails. -/
def interrupted : Upload where
  command := .stor
  system := flawless
  stream :=
    { chunks := [threeBytes], failed := true, later := fun _ => .endOfStream }
  env := { dataOffset := 0 }
  arg := ascii "a.txt"
  file := none

/-- The last byte is cut and the upload reported as complete. -/
theorem interrupted_not_intact :
    WritesSucceed interrupted ∧ ¬ UploadIntact interrupted := by
  constructor
  · intro _ count onward
    have few : count ≤ 2 := by
      by_contra many
      exact onward 2 (by omega) rfl
    rcases (show count = 0 ∨ count = 1 ∨ count = 2 by omega) with
      rfl | rfl | rfl <;> decide
  · intro intact
    obtain ⟨outcome, returned, kept⟩ := intact
    obtain ⟨final, ended, rfl⟩ :
        ∃ final, EndsIn (storGuard interrupted.stream)
          (storBody interrupted.stream) (startTransfer interrupted) final ∧
            outcome = storFinish flawless final := returned
    have stopped : EndsIn (storGuard interrupted.stream)
        (storBody interrupted.stream) (startTransfer interrupted)
        { reads := 2
          file := ascii "xyz"
          position := 3
          off := 2
          broke := false } := ⟨2, by decide, by decide⟩
    rw [endsIn_unique _ _ _ _ _ ended stopped] at kept
    have noFailure := (kept.completed (by decide)).1
    contradiction

end HenPlugins.Ftp.FailedReceive
