import P2PFileShare.Tracker.Refinement

/-!
# Serving requests

What `process_data` does on a network that loses nothing: one step of the
handlers, and one more entry in the log when the request succeeds.  The decoding
of a request does not depend on the platform, apart from the size of an uploaded
file whose text does not give one.
-/

namespace P2PFileShare

open Container Text

/-! ## Decoding on two platforms -/

section Decoding

variable (platform other : Platform)

/-- What a variable held before an extraction does not change the stream. -/
theorem extractSize_stream (old new : UInt64) (stream : Stream) :
    (stream.extractSize old).2 = (stream.extractSize new).2 := by
  simp only [Stream.extractSize, Stream.extractNumber]
  split <;> rfl

/-- Where a word is left, the old value is replaced. -/
theorem extractSize_of_good (old new : UInt64) (stream : Stream)
    (ready : stream.sentry.good = true) : stream.extractSize old = stream.extractSize new := by
  simp only [Stream.extractSize, Stream.extractNumber, if_pos ready]

/-- The old value is left in place only where no word can follow. -/
theorem extractSize_congr (old new : UInt64) (stream : Stream)
    (followed : (stream.extractSize old).2.extractWord.1 ≠ []) :
    stream.extractSize old = stream.extractSize new := by
  by_cases ready : stream.sentry.good = true
  · exact extractSize_of_good old new stream ready
  · have exhausted : (stream.extractSize old).2 = stream.sentry := by
      simp only [Stream.extractSize, Stream.extractNumber, if_neg ready]
    rw [exhausted, Stream.extractWord_of_not_good (Bool.eq_false_iff.mpr ready)] at followed
    contradiction

theorem requestHead_snd (data : Bytes) :
    (requestHead platform data).2 = (requestHead other data).2 := by
  have same := extractSize_stream (platform.uninitialised data) (other.uninitialised data)
    (Stream.ofText data)
  simp only [requestHead, same]

theorem requestOfName_nil : requestOfName [] = none := by
  decide

/-- Requests are parsed alike on every platform. -/
theorem parseRequest_congr (data : Bytes) :
    parseRequest platform data = parseRequest other data := by
  have tail := requestHead_snd platform other data
  by_cases named : (requestHead platform data).2.1 = []
  · simp only [parseRequest, ← tail, named, requestOfName_nil, Option.map_none]
  · have same := extractSize_congr (platform.uninitialised data) (other.uninitialised data)
      (Stream.ofText data) named
    simp only [parseRequest, requestHead, same]

theorem parseRequest_nil : parseRequest platform [] = none := by
  rw [parseRequest_congr platform .oldestFirst]
  decide

/-- Commands other than uploads are decoded alike on every platform. -/
theorem command_congr (transaction : Transaction)
    (notUpload : ∀ groupId endpoint fileInfo,
      command platform transaction ≠ .group groupId (.upload endpoint fileInfo)) :
    command platform transaction = command other transaction := by
  rcases transaction with ⟨origin, request, data, outcome⟩
  have tail := congrArg Prod.snd (requestHead_snd platform other data)
  cases request with
  | user request => simp only [command, tail]
  | group request => simp only [command, tail]
  | tracker request => rfl
  | file request =>
      cases request with
      | list => simp only [command, fileCommand, tail]
      | download => simp only [command, fileCommand, tail]
      | upload =>
          simp only [command, fileCommand, decodeUpload] at notUpload ⊢
          rw [← tail]
          cases decoded : Endpoint.fromString
              (requestHead platform data).2.2.extractWord.2.extractWord.1 with
          | error error => rfl
          | ok endpoint =>
              cases behind :
                  (requestHead platform data).2.2.extractWord.2.extractWord.2.remainder with
              | error error => rfl
              | ok text =>
                  rw [decoded, behind] at notUpload
                  exact absurd rfl (notUpload _ endpoint (FileInfo.fromString platform text))

end Decoding

/-! ## One request -/

section Request

variable (platform : Platform) (tracker : Tracker)

/-- The transaction that a request adds to the log, if it succeeds. -/
def recorded (data : Bytes) : Option Transaction :=
  (parseRequest platform data).bind fun transaction =>
    match (handle platform tracker transaction).1 with
    | .ok result => if result.success then some { transaction with outcome := result } else none
    | .error _ => none

/-- The state that the handlers leave behind, without the log. -/
def handled (data : Bytes) : Tracker :=
  match parseRequest platform data with
  | some transaction => (handle platform tracker transaction).2
  | none => tracker

theorem handled_valid {tracker : Tracker} (valid : tracker.Valid) (data : Bytes) :
    (handled platform tracker data).Valid := by
  simp only [handled]
  cases parseRequest platform data with
  | none => exact valid
  | some transaction => exact handle_valid platform valid transaction

variable {platform tracker} {data : Bytes}

/-- The data of a recorded transaction is the message it came from. -/
theorem recorded_eq_some {transaction : Transaction}
    (record : recorded platform tracker data = some transaction) :
    transaction.data = data ∧ ∃ parsed, parseRequest platform data = some parsed ∧
      succeeded (handle platform tracker parsed).1 = true := by
  rcases Option.bind_eq_some_iff.mp record with ⟨parsed, parsing, entry⟩
  have data_eq : parsed.data = data := by
    rcases Option.map_eq_some_iff.mp parsing with ⟨_, _, rfl⟩
    rfl
  cases outcome : (handle platform tracker parsed).1 with
  | error exception =>
      rw [outcome] at entry
      cases entry
  | ok result =>
      rw [outcome] at entry
      simp only [Option.ite_none_right_eq_some, Option.some.injEq] at entry
      rcases entry with ⟨success, rfl⟩
      exact ⟨data_eq, parsed, parsing, by rw [outcome]; exact success⟩

/-- A request that is not recorded did not succeed. -/
theorem recorded_eq_none (record : recorded platform tracker data = none)
    {parsed : Transaction} (parsing : parseRequest platform data = some parsed) :
    succeeded (handle platform tracker parsed).1 = false := by
  simp only [recorded, parsing, Option.bind_some] at record
  cases outcome : (handle platform tracker parsed).1 with
  | error exception => rfl
  | ok result =>
      rw [outcome] at record
      simpa [succeeded] using record

variable (platform tracker)

/-- The closing of a log exchange is reached when nothing fails. -/
theorem sendLog_reliable (operation : Nat) (entries : List Bytes) :
    sendLog Network.reliable operation entries = (entries ++ [ascii "done"], none) := by
  induction entries generalizing operation with
  | nil => rfl
  | cons entry entries ih =>
      have sent : ∀ place, Network.reliable place = none := fun _ => rfl
      simp only [sendLog, sent, ih]
      rfl

/-- A request other than `sync` is handled, and a client then gets its answer. -/
theorem processRequest_answered (network : Network) (transaction : Transaction) (doMirror : Bool)
    (notSync : transaction.request ≠ .tracker .sync) :
    processRequest platform tracker transaction (some network) doMirror =
      match handle platform tracker transaction, doMirror with
      | (.error exception, tracker), _ => { outcome := .error exception, tracker }
      | (.ok result, tracker), false => { outcome := .ok result, tracker }
      | (.ok result, tracker), true =>
          match network 0 with
          | none => { outcome := .ok result, tracker, sent := [result.message] }
          | some error => { outcome := .error (.network error), tracker } := by
  rcases transaction with ⟨origin, request, data, outcome⟩
  unfold processRequest
  split
  · contradiction
  · contradiction
  · cases handle platform tracker { origin, request, data, outcome } with
    | mk outcome after =>
        cases outcome with
        | error exception => rfl
        | ok result =>
            cases doMirror with
            | false => rfl
            | true => rfl

/-- Without a client, a request other than `sync` is handled, and that is all. -/
theorem processRequest_unattended (transaction : Transaction)
    (notSync : transaction.request ≠ .tracker .sync) :
    processRequest platform tracker transaction none false =
      { outcome := (handle platform tracker transaction).1
        tracker := (handle platform tracker transaction).2 } := by
  rcases transaction with ⟨origin, request, data, outcome⟩
  unfold processRequest
  split
  · contradiction
  · contradiction
  · cases handle platform tracker { origin, request, data, outcome } with
    | mk outcome after =>
        cases outcome with
        | error exception => rfl
        | ok result => rfl

/-- The request that asks for the log succeeds silently. -/
theorem processRequest_reliable (transaction : Transaction) (doMirror : Bool) :
    (processRequest platform tracker transaction (some Network.reliable) doMirror).outcome =
        (handle platform tracker transaction).1 ∧
      (processRequest platform tracker transaction (some Network.reliable) doMirror).tracker =
        (handle platform tracker transaction).2 := by
  by_cases sync : transaction.request = .tracker .sync
  · rcases transaction with ⟨origin, request, data, outcome⟩
    subst sync
    simp only [processRequest, sendLog_reliable]
    exact ⟨rfl, rfl⟩
  · have sent : Network.reliable 0 = none := rfl
    rw [processRequest_answered platform tracker Network.reliable transaction doMirror sync, sent]
    split
    · next result => simp [result]
    · next result => simp [result]
    · next result => simp [result]

variable (config : Config)

/-- What one message does: the handlers run, and a success is logged. -/
theorem processData_tracker (flag : UInt8) (data : Bytes) :
    (processData platform config tracker Network.reliable (flag :: data)).tracker =
      { handled platform tracker data with
        successfulTransactions :=
          tracker.successfulTransactions ++ (recorded platform tracker data).toList } := by
  simp only [processData, recorded, handled]
  cases parsed : parseRequest platform data with
  | none => simp [Network.reliable]
  | some transaction =>
      have log_eq := handle_log platform tracker transaction
      obtain ⟨outcome_eq, tracker_eq⟩ :=
        processRequest_reliable platform tracker transaction (flag = 49)
      simp only [Option.bind_some]
      split
      · next exception after sent answer =>
          rw [answer] at outcome_eq tracker_eq
          simp only at outcome_eq tracker_eq
          simp only [← outcome_eq, Option.toList_none, List.append_nil, ← tracker_eq]
          rw [← log_eq, ← tracker_eq]
      · next result after sent answer =>
          rw [answer] at outcome_eq tracker_eq
          simp only at outcome_eq tracker_eq
          simp only [← outcome_eq]
          cases result.success with
          | true =>
              simp only [if_true, Option.toList_some, ← tracker_eq]
              rw [← log_eq, ← tracker_eq]
          | false =>
              simp only [Bool.false_eq_true, if_false, Option.toList_none, List.append_nil]
              rw [← log_eq, ← tracker_eq]

/-- Only a success that a client asked for is mirrored. -/
theorem processData_mirrored (flag : UInt8) (data : Bytes) :
    (processData platform config tracker Network.reliable (flag :: data)).mirrored =
      if flag = 49 then
        (recorded platform tracker data).elim [] fun transaction =>
          mirror platform config transaction
      else [] := by
  simp only [processData, recorded]
  cases parsed : parseRequest platform data with
  | none => simp [Network.reliable]
  | some transaction =>
      obtain ⟨outcome_eq, _⟩ :=
        processRequest_reliable platform tracker transaction (flag = 49)
      simp only [Option.bind_some]
      split
      · next exception after sent answer =>
          rw [answer] at outcome_eq
          simp only at outcome_eq
          simp only [← outcome_eq, Option.elim_none, ite_self]
      · next result after sent answer =>
          rw [answer] at outcome_eq
          simp only at outcome_eq
          simp only [← outcome_eq]
          cases result.success with
          | true =>
              by_cases client : flag = 49
              · simp [client]
              · simp [client]
          | false => simp

end Request

/-! ## A sequence of messages -/

/-- A tracker handles the messages it receives, one after another. -/
def serve (platform : Platform) (config : Config) : Tracker → List Bytes → Tracker
  | tracker, [] => tracker
  | tracker, message :: messages =>
      serve platform config
        (processData platform config tracker Network.reliable message).tracker messages

/-- A tracker on its own. -/
def Config.alone : Config where
  myId := 0
  trackers := []

end P2PFileShare
