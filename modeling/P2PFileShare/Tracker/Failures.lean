import P2PFileShare.Tracker.Serving

/-!
# Messages that fail

Two ways in which a message leaves `process_data` through an exception.  The reply
to a success is sent before the success is recorded, so that a client that is gone
takes the entry of the log with it.  And the arguments of an upload are decoded
under a handler that names one of the two exceptions they can raise.
-/

namespace P2PFileShare

open Container Text

/-! ## A reply that is not delivered -/

section Reply

variable {platform : Platform} {tracker : Tracker} {data : Bytes} {entry : Transaction}

/-- A recorded entry is a request that a handler has answered with success. -/
theorem recorded_handled (record : recorded platform tracker data = some entry) :
    ∃ parsed result, parseRequest platform data = some parsed ∧
      parsed.request ≠ .tracker .sync ∧
      (handle platform tracker parsed).1 = .ok result ∧ result.success = true ∧
      entry = { parsed with outcome := result } := by
  rcases Option.bind_eq_some_iff.mp record with ⟨parsed, parsing, logged⟩
  cases outcome : (handle platform tracker parsed).1 with
  | error exception =>
      rw [outcome] at logged
      cases logged
  | ok result =>
      rw [outcome] at logged
      simp only [Option.ite_none_right_eq_some, Option.some.injEq] at logged
      rcases logged with ⟨success, rfl⟩
      refine ⟨parsed, result, parsing, ?_, outcome, success, rfl⟩
      intro sync
      rcases parsed with ⟨origin, request, text, pending⟩
      subst sync
      cases outcome
      cases success

/-- A success is in the log once, and has been offered to the other trackers if it
came from a client. -/
theorem processData_records_iff (platform : Platform) (config : Config) (tracker : Tracker)
    (network : Network) (flag : UInt8) (data : Bytes) (entry : Transaction)
    (record : recorded platform tracker data = some entry) :
    (processData platform config tracker network (flag :: data)).tracker.successfulTransactions =
          tracker.successfulTransactions ++ [entry] ∧
        (flag = 49 →
          (processData platform config tracker network (flag :: data)).mirrored =
            mirror platform config entry) ↔
      flag ≠ 49 ∨ network 0 = none := by
  obtain ⟨parsed, result, parsing, notSync, outcome, success, rfl⟩ := recorded_handled record
  have log_eq := handle_log platform tracker parsed
  have answered := processRequest_answered platform tracker network parsed (flag = 49) notSync
  simp only [processData, parsing, answered]
  generalize handle platform tracker parsed = served at outcome log_eq
  rcases served with ⟨_, after⟩
  subst outcome
  have log_eq : after.successfulTransactions = tracker.successfulTransactions := log_eq
  by_cases client : flag = 49
  · subst client
    cases reply : network 0 with
    | none => simp [success, log_eq, mirror]
    | some error => simp [log_eq]
  · simp [client, success, log_eq]

/-- Whatever becomes of the reply, the handlers have run, and the log has grown by one
entry at most. -/
theorem processData_after (config : Config) (network : Network) (flag : UInt8) :
    ∃ log, (processData platform config tracker network (flag :: data)).tracker =
        { handled platform tracker data with successfulTransactions := log } ∧
      (log = tracker.successfulTransactions ∨
        ∃ entry, recorded platform tracker data = some entry ∧
          log = tracker.successfulTransactions ++ [entry]) := by
  simp only [recorded, handled]
  cases parsing : parseRequest platform data with
  | none =>
      refine ⟨tracker.successfulTransactions, ?_, Or.inl rfl⟩
      simp only [processData, parsing]
      cases network 0 with
      | none => rfl
      | some error => rfl
  | some transaction =>
      have log_eq := handle_log platform tracker transaction
      simp only [processData, parsing, Option.bind_some]
      by_cases sync : transaction.request = .tracker .sync
      · refine ⟨tracker.successfulTransactions, ?_, Or.inl rfl⟩
        rcases transaction with ⟨origin, request, text, outcome⟩
        subst sync
        simp only [processRequest, handle]
        generalize sendLog network 0 _ = exchange
        rcases exchange with ⟨sent, none | error⟩
        · rfl
        · rfl
      · rw [processRequest_answered platform tracker network transaction _ sync]
        generalize handle platform tracker transaction = served at log_eq
        rcases served with ⟨outcome | result, after⟩
        · exact ⟨_, rfl, Or.inl log_eq⟩
        · have log_eq : after.successfulTransactions = tracker.successfulTransactions := log_eq
          cases success : result.success with
          | false =>
              refine ⟨tracker.successfulTransactions, ?_, Or.inl rfl⟩
              cases decide (flag = 49) with
              | false => simp [success, ← log_eq]
              | true => cases network 0 <;> simp [success, ← log_eq]
          | true =>
              let entry : Transaction := { transaction with outcome := result }
              have grown : ∃ added, (if result.success then some entry else none) = some added ∧
                  after.successfulTransactions ++ [entry] =
                    tracker.successfulTransactions ++ [added] :=
                ⟨entry, if_pos success, by rw [log_eq]⟩
              cases decide (flag = 49) with
              | false =>
                  refine ⟨after.successfulTransactions ++ [entry], ?_, Or.inr grown⟩
                  simp only [success, if_true, entry]
              | true =>
                  cases network 0 with
                  | some error => exact ⟨_, rfl, Or.inl log_eq⟩
                  | none =>
                      refine ⟨after.successfulTransactions ++ [entry], ?_, Or.inr grown⟩
                      simp only [success, if_true, entry]

/-- A client is sent the message of the result, unless that fails. -/
theorem processData_sent {transaction : Transaction}
    (parsing : parseRequest platform data = some transaction)
    (notSync : transaction.request ≠ .tracker .sync) (config : Config) (network : Network)
    (message : Bytes) :
    (processData platform config tracker network (49 :: data)).sent = [message] ↔
      network 0 = none ∧ ∃ result, (handle platform tracker transaction).1 = .ok result ∧
        result.message = message := by
  simp only [processData, parsing, decide_true]
  rw [processRequest_answered platform tracker network transaction true notSync]
  generalize handle platform tracker transaction = served
  rcases served with ⟨outcome | result, after⟩
  · simp
  · cases network 0 with
    | some error => simp
    | none => cases success : result.success <;> simp [success]

end Reply

/-- The first of two trackers on a platform whose hashes are all 0. -/
def Config.firstOfTwo : Config where
  myId := 1
  trackers := [{ ip := ascii "10.0.0.2", port := 9000 }]

/-- The first operation of a call returns, and every later one throws. -/
def Network.onceOnly : Network
  | 0 => none
  | _ + 1 => some .networkError

/-- The peer has closed the connection. -/
def Network.closed : Network :=
  fun _ => some .connectionClosedError

theorem processData_records_create :
    ∃ entry, recorded .oldestFirst .empty (ascii "17 create_user ann pw") = some entry ∧
      (processData .oldestFirst .firstOfTwo .empty Network.onceOnly
            (49 :: ascii "17 create_user ann pw")).tracker.successfulTransactions =
          Tracker.empty.successfulTransactions ++ [entry] ∧
        ((49 : UInt8) = 49 →
          (processData .oldestFirst .firstOfTwo .empty Network.onceOnly
              (49 :: ascii "17 create_user ann pw")).mirrored =
            mirror .oldestFirst .firstOfTwo entry) := by
  have succeeds :
      (recorded .oldestFirst .empty (ascii "17 create_user ann pw")).isSome = true := by
    decide +kernel
  rcases Option.isSome_iff_exists.mp succeeds with ⟨entry, record⟩
  exact ⟨entry, record, (processData_records_iff .oldestFirst .firstOfTwo .empty Network.onceOnly
    49 (ascii "17 create_user ann pw") entry record).mpr (Or.inr rfl)⟩

/-- The user exists, but neither the log nor the other tracker knows of her. -/
theorem processData_loses_create :
    let served := processData .oldestFirst .firstOfTwo .empty Network.closed
      (49 :: ascii "17 create_user ann pw")
    (recorded .oldestFirst .empty (ascii "17 create_user ann pw")).map Transaction.data =
        some (ascii "17 create_user ann pw") ∧
      (served.tracker.user? (ascii "ann")).isSome = true ∧
      served.thrown = some (.network .connectionClosedError) ∧
      served.tracker.successfulTransactions = [] ∧ served.mirrored = [] := by
  decide +kernel

/-! ## An upload that is not decoded -/

/-- The arguments of an upload that raise `std::out_of_range`: the port lies outside
the range of `int`, or the text ends behind the endpoint, where `tellg` is `-1`. -/
def EscapingArguments (stream : Stream) : Prop :=
  let (endpointStr, stream) := stream.extractWord
  Endpoint.colon ∈ endpointStr ∧
    match stoi (Endpoint.portText endpointStr) with
    | .ok _ => stream.rest = []
    | .error .outOfRange => True
    | .error .invalidArgument => False

/-- A member of a group uploads with such arguments. -/
def FatalUpload (platform : Platform) (tracker : Tracker) (data : Bytes) : Prop :=
  ∃ transaction ∈ parseRequest platform data, transaction.request = .file .upload ∧
    ∃ user ∈ tracker.session? transaction.origin,
      let (groupId, stream) := (requestHead platform data).2.2.extractWord
      ∃ group ∈ tracker.group? groupId, group.hasMember user = true ∧ EscapingArguments stream

/-- The decoding of an upload raises `std::out_of_range` on these arguments only. -/
theorem decodeUpload_outOfRange_iff (platform : Platform) (stream : Stream) :
    decodeUpload platform stream = .error .outOfRange ↔ EscapingArguments stream := by
  have good (found : Endpoint.colon ∈ stream.extractWord.1) :=
    Stream.extractWord_good (List.ne_nil_of_mem found)
  simp only [decodeUpload, EscapingArguments, Endpoint.fromString]
  generalize stream.extractWord = extracted at good
  rcases extracted with ⟨endpointStr, behind⟩
  by_cases found : Endpoint.colon ∈ endpointStr
  · have ready := good found
    simp only [found, if_true, true_and, Endpoint.portText]
    cases port : stoi ((endpointStr.dropWhile (· != Endpoint.colon)).drop 1) with
    | error error => cases error <;> simp [bind, Except.bind]
    | ok number =>
        cases rest : behind.rest with
        | nil =>
            rw [rest] at ready
            simp [Stream.remainder_of_not_good ready, bind, Except.bind, pure, Except.pure]
        | cons byte bytes =>
            rw [rest] at ready
            simp [Stream.remainder_of_good ready, bind, Except.bind, pure, Except.pure]
  · simp [found, bind, Except.bind]

/-- Of the handlers of file requests, only the one of uploads lets an exception
through. -/
theorem processFileRequest_throws_iff (platform : Platform) (tracker : Tracker)
    (origin : EndpointID) (request : FileRequest) (stream : Stream) (exception : Exception) :
    (processFileRequest platform tracker origin request stream).1 = .error exception ↔
      exception = .std .outOfRange ∧ request = .upload ∧
        ∃ user ∈ tracker.session? origin, ∃ group ∈ tracker.group? stream.extractWord.1,
          group.hasMember user = true ∧ EscapingArguments stream.extractWord.2 := by
  simp only [processFileRequest, Option.mem_def]
  cases tracker.session? origin with
  | none => simp
  | some user =>
      cases tracker.group? stream.extractWord.1 with
      | none => simp
      | some group =>
          cases member : group.hasMember user with
          | false => simp [member]
          | true =>
              simp only [Bool.not_true, Bool.false_eq_true, if_false, Option.some.injEq,
                exists_eq_left', member, true_and]
              cases request with
              | list => simp
              | download =>
                  simp only
                  split
                  · simp
                  · simp
              | upload =>
                  rw [← decodeUpload_outOfRange_iff platform]
                  cases decodeUpload platform stream.extractWord.2 with
                  | ok arguments => simp
                  | error error => cases error <;> simp [eq_comm]

/-- The handlers let an exception through exactly for such an upload. -/
theorem handle_throws_iff (platform : Platform) (tracker : Tracker) {data : Bytes}
    {transaction : Transaction} (parsing : parseRequest platform data = some transaction)
    (exception : Exception) :
    (handle platform tracker transaction).1 = .error exception ↔
      exception = .std .outOfRange ∧ FatalUpload platform tracker data := by
  have data_eq : transaction.data = data := by
    rcases Option.map_eq_some_iff.mp parsing with ⟨_, _, rfl⟩
    rfl
  simp only [FatalUpload, parsing, Option.mem_some_iff, exists_eq_left', handle, data_eq]
  rcases transaction with ⟨origin, request, text, outcome⟩
  cases request with
  | user request => simp
  | group request => simp
  | tracker request => simp
  | file request =>
      simp only [Request.file.injEq]
      exact processFileRequest_throws_iff platform tracker origin request _ exception

/-- Only errors of the network leave `process_data`, unless the message is such an
upload. -/
theorem processData_throws_network_iff (platform : Platform) (config : Config)
    (tracker : Tracker) (network : Network) (flag : UInt8) (data : Bytes) :
    (∀ exception ∈ (processData platform config tracker network (flag :: data)).thrown,
        ∃ error, exception = .network error) ↔
      ¬FatalUpload platform tracker data := by
  cases parsing : parseRequest platform data with
  | none =>
      have harmless : ¬FatalUpload platform tracker data := by
        rintro ⟨transaction, parses, _⟩
        rw [parsing] at parses
        cases parses
      simp only [processData, parsing]
      cases reply : network 0 with
      | none => simp [harmless]
      | some error => simp [harmless]
  | some transaction =>
      have throws := handle_throws_iff platform tracker parsing
      simp only [processData, parsing]
      by_cases sync : transaction.request = .tracker .sync
      · -- The exchange of the log runs no handler.
        have harmless : ¬FatalUpload platform tracker data := by
          rintro ⟨parsed, parses, upload, _⟩
          rw [parsing] at parses
          cases parses
          rw [sync] at upload
          cases upload
        rcases transaction with ⟨origin, request, text, outcome⟩
        subst sync
        simp only [processRequest]
        generalize sendLog network 0 _ = exchange
        rcases exchange with ⟨sent, none | error⟩
        · simp [harmless]
        · simp [harmless]
      · rw [processRequest_answered platform tracker network transaction _ sync]
        generalize handle platform tracker transaction = served at throws
        rcases served with ⟨outcome | result, after⟩
        · have escapes := (throws outcome).mp rfl
          simp [escapes.1, escapes.2]
        · have harmless : ¬FatalUpload platform tracker data := by
            intro fatal
            cases (throws (.std .outOfRange)).mpr ⟨rfl, fatal⟩
          cases decide (flag = 49) with
          | false =>
              cases success : result.success <;> simp [harmless, success]
          | true =>
              cases reply : network 0 with
              | none => cases success : result.success <;> simp [harmless, success]
              | some error => simp [harmless]

def uploadingMember : List Bytes :=
  [ascii "117 create_user ann pw", ascii "117 login ann pw", ascii "117 create_group g"]

/-- Such a message reaches a tracker after three ordinary ones. -/
theorem processData_throws_outOfRange :
    (processData .oldestFirst .alone (serve .oldestFirst .alone .empty uploadingMember)
        Network.reliable (ascii "117 upload_file g 1:1")).thrown =
      some (.std .outOfRange) := by
  decide +kernel

end P2PFileShare
