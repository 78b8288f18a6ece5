import P2PFileShare.Tracker.Failures
import P2PFileShare.Tracker.Relay
import P2PFileShare.Transition.StopAndWait

/-!
# The exchange of a log

The branch of `sync` in `process_request` sends one entry after another and waits for
an answer behind each; the loop of `sync_with_online_trackers` answers an entry before
it executes it.  Both run at the same time, in two processes.
-/

namespace P2PFileShare

open Container Text Transition

/-- The loop of `sync_with_online_trackers` as the receiver of the branch of `sync`. -/
def syncExchange (platform : Platform) : StopAndWait Bytes Tracker Exception where
  closing := ascii "done"
  acknowledgement := ascii "next"
  ends data := decide (data = [] ∨ data = ascii "done")
  work := execute platform

/-! ## Entries that were recorded -/

/-- Some tracker has executed the request with success. -/
def Recordable (data : Bytes) : Prop :=
  ∃ platform tracker, (recorded platform tracker data).isSome = true

section Recordable

variable {platform : Platform} {tracker : Tracker} {data : Bytes}

/-- A file request succeeds for a member of its group only. -/
theorem member_of_success {origin : EndpointID} {request : FileRequest} {stream : Stream}
    {result : Result}
    (answer : (processFileRequest platform tracker origin request stream).1 = .ok result)
    (success : result.success = true) :
    ∃ user ∈ tracker.session? origin, ∃ group ∈ tracker.group? stream.extractWord.1,
      group.hasMember user = true := by
  simp only [processFileRequest, Option.mem_def] at answer ⊢
  cases session : tracker.session? origin with
  | none =>
      rw [session] at answer
      cases answer
      cases success
  | some user =>
      rw [session] at answer
      cases found : tracker.group? stream.extractWord.1 with
      | none =>
          rw [found] at answer
          cases answer
          cases success
      | some group =>
          cases member : group.hasMember user with
          | true => exact ⟨user, rfl, group, rfl, member⟩
          | false =>
              simp only [found, member] at answer
              cases answer
              cases success

/-- The arguments of a recorded upload can be decoded, on every platform. -/
theorem not_fatalUpload_of_recordable (recordable : Recordable data) (platform : Platform)
    (tracker : Tracker) : ¬FatalUpload platform tracker data := by
  rcases recordable with ⟨elder, before, isRecorded⟩
  rcases Option.isSome_iff_exists.mp isRecorded with ⟨entry, record⟩
  obtain ⟨parsed, result, parsing, _, answer, success, _⟩ := recorded_handled record
  rintro ⟨other, parses, upload, _, _, _, _, _, escaping⟩
  rw [parseRequest_congr platform elder, parsing] at parses
  cases parses
  have data_eq : parsed.data = data := parseRequest_data parsing
  have fatal : FatalUpload elder before data := by
    rw [requestHead_snd platform elder] at escaping
    refine ⟨parsed, parsing, upload, ?_⟩
    rcases parsed with ⟨origin, request, text, outcome⟩
    subst upload data_eq
    rcases member_of_success answer success with ⟨user, session, group, found, member⟩
    exact ⟨user, session, group, found, member, escaping⟩
  rw [(handle_throws_iff elder before parsing (.std .outOfRange)).mpr ⟨rfl, fatal⟩] at answer
  cases answer

/-- No tracker is brought down by an entry that some tracker has recorded. -/
theorem execute_recordable (recordable : Recordable data) (platform : Platform)
    (tracker : Tracker) : ∃ next, execute platform tracker data = .ok next := by
  have harmless := not_fatalUpload_of_recordable recordable platform tracker
  rcases recordable with ⟨elder, before, isRecorded⟩
  rcases Option.isSome_iff_exists.mp isRecorded with ⟨entry, record⟩
  obtain ⟨parsed, _, parsing, notSync, _⟩ := recorded_handled record
  rw [← parseRequest_congr platform elder] at parsing
  simp only [execute, parsing, processRequest_unattended platform tracker parsed notSync]
  cases answer : (handle platform tracker parsed).1 with
  | ok result => exact ⟨_, rfl⟩
  | error exception =>
      exact absurd ((handle_throws_iff platform tracker parsing exception).mp answer).2 harmless

theorem accepted_of_recordable (platform : Platform) (recordable : Recordable data) :
    (parseRequest platform data).isSome = true := by
  rcases recordable with ⟨elder, before, isRecorded⟩
  rcases Option.isSome_iff_exists.mp isRecorded with ⟨entry, record⟩
  obtain ⟨_, parsed, parsing, _⟩ := recorded_eq_some record
  rw [parseRequest_congr platform elder, parsing]
  rfl

/-- A tracker logs what it has recorded, and nothing else, on every network. -/
theorem processData_recordable {config : Config} {network : Network} {message : Bytes}
    (before : ∀ entry ∈ tracker.successfulTransactions, Recordable entry.data) :
    ∀ entry ∈ (processData platform config tracker network
      message).tracker.successfulTransactions, Recordable entry.data := by
  cases message with
  | nil => exact before
  | cons flag data =>
      rcases processData_after config network flag with ⟨log, after, same | ⟨entry, record, added⟩⟩
      · rw [after, same]
        exact before
      · rw [after, added]
        intro other member
        rcases List.mem_append.mp member with old | last
        · exact before other old
        · rw [List.mem_singleton.mp last, (recorded_eq_some record).1]
          exact ⟨platform, tracker, by rw [record]; rfl⟩

end Recordable

/-! ## Every interleaving -/

/-- The work of the receiver is the replay of the log. -/
theorem workAll_eq_replay (platform : Platform) (tracker : Tracker) (log : List Bytes) :
    (syncExchange platform).workAll tracker log = replay platform tracker log := by
  induction log generalizing tracker with
  | nil => rfl
  | cons data log ih =>
      simp only [StopAndWait.workAll, replay, syncExchange, bind, Except.bind]
      cases execute platform tracker data with
      | error exception => rfl
      | ok next => exact ih next

/-- What is promised about an exchange of a log, at a point that some interleaving of
the two parties reaches. -/
structure ExchangeGuarantee (platform : Platform) (joiner : Tracker) (log : List Bytes)
    (schedule : List StopAndWait.Party)
    (exchange : StopAndWait.Exchange Bytes Tracker Exception) : Prop where
  /-- No entry looks like the end. -/
  distinguishable : ∀ data ∈ log, (syncExchange platform).ends data = false
  /-- What has been passed to `process_request` is the beginning of the log. -/
  inOrder : exchange.worked <+: log
  /-- When the loop has ended, this is the whole log, the other party has consumed every
  acknowledgement and is done, and the joining tracker is what the log makes of it. -/
  complete : exchange.receiver = .stopped →
    exchange.worked = log ∧ exchange.sender = .finished ∧ exchange.toSender = [] ∧
      replay platform joiner log = .ok exchange.state
  /-- The joining tracker ends otherwise only if `process_request` throws on the entry
  passed last. -/
  failing : ∀ exception, exchange.receiver = .failed exception →
    replay platform joiner exchange.worked = .error exception
  /-- It throws on no entry that a tracker has recorded. -/
  recorded : (∀ data ∈ log, Recordable data) → ∀ exception, exchange.receiver ≠ .failed exception
  /-- As long as the joining tracker has not ended, one of the two parties can go on. -/
  progress : (∀ party, (syncExchange platform).advance exchange party = none) →
    exchange.receiver = .stopped ∨ ∃ exception, exchange.receiver = .failed exception
  /-- And they cannot go on for ever. -/
  bounded : schedule.length ≤ 5 * log.length + 4

theorem replay_recordable (platform : Platform) {log : List Bytes}
    (recordable : ∀ data ∈ log, Recordable data) (tracker : Tracker) :
    ∃ next, replay platform tracker log = .ok next := by
  induction log generalizing tracker with
  | nil => exact ⟨tracker, rfl⟩
  | cons data log ih =>
      rcases execute_recordable (recordable data List.mem_cons_self) platform tracker with
        ⟨next, executed⟩
      rw [replay, executed]
      exact ih (fun later member => recordable later (List.mem_cons_of_mem data member)) next

/-- Nothing that is parsed as a request looks like the end of the log. -/
theorem ends_of_accepted {platform : Platform} {data : Bytes}
    (accepted : (parseRequest platform data).isSome = true) :
    (syncExchange platform).ends data = false := by
  apply decide_eq_false
  rintro (rfl | rfl)
  · rw [parseRequest_nil] at accepted
    cases accepted
  · rw [parseRequest_done] at accepted
    cases accepted

theorem syncExchange_closes (platform : Platform) :
    (syncExchange platform).ends (syncExchange platform).closing = true :=
  decide_eq_true (p := ascii "done" = [] ∨ ascii "done" = ascii "done") (Or.inr rfl)

/-- A log of accepted requests is delivered in order, each entry once, unless an entry
is one that `process_request` throws on. -/
theorem exchange_delivers (platform : Platform) (joiner : Tracker) (log : List Bytes)
    (accepted : ∀ data ∈ log, (parseRequest platform data).isSome = true)
    (schedule : List StopAndWait.Party)
    (exchange : StopAndWait.Exchange Bytes Tracker Exception)
    (run : (syncExchange platform).advanceAll (StopAndWait.start log joiner) schedule =
      some exchange) :
    ExchangeGuarantee platform joiner log schedule exchange := by
  have distinguishable : ∀ data ∈ log, (syncExchange platform).ends data = false :=
    fun data member => ends_of_accepted (accepted data member)
  have closes := syncExchange_closes platform
  have invariant := StopAndWait.invariant_start.advanceAll distinguishable run
  have replayed : replay platform joiner exchange.worked = exchange.outcome := by
    rw [← workAll_eq_replay]
    exact invariant.outcome
  have inOrder := invariant.worked_prefix closes
  have failing : ∀ exception, exchange.receiver = .failed exception →
      replay platform joiner exchange.worked = .error exception := by
    intro exception failed
    rw [replayed, StopAndWait.Exchange.outcome, failed]
  constructor
  · exact distinguishable
  · exact inOrder
  · intro stopped
    rcases invariant.of_stopped closes distinguishable stopped with
      ⟨all, finished, _, answered, outcome⟩
    rw [workAll_eq_replay] at outcome
    exact ⟨all, finished, answered, outcome⟩
  · exact failing
  · intro recordable exception failed
    have worked : ∀ data ∈ exchange.worked, Recordable data :=
      fun data member => recordable data (inOrder.subset member)
    rcases replay_recordable platform worked joiner with ⟨next, succeeded⟩
    rw [failing exception failed] at succeeded
    cases succeeded
  · exact invariant.progress closes
  · have shorter := StopAndWait.length_le_remaining run
    simp only [StopAndWait.start, StopAndWait.Exchange.remaining, List.length_nil] at shorter
    omega

def createAndLogin : List Bytes :=
  [ascii "17 create_user ann pw", ascii "17 login ann pw"]

/-- Each entry is sent, taken, answered and executed, and its answer consumed. -/
def inTurn : List StopAndWait.Party :=
  [.sender, .receiver, .receiver, .receiver, .sender, .sender, .receiver, .receiver, .sender,
    .sender, .receiver, .receiver]

theorem exchange_delivers_createAndLogin :
    ∃ exchange,
      (syncExchange .newestFirst).advanceAll (StopAndWait.start createAndLogin .empty) inTurn =
          some exchange ∧
        exchange.receiver = .stopped ∧
        ExchangeGuarantee .newestFirst .empty createAndLogin inTurn exchange := by
  have accepted : ∀ data ∈ createAndLogin, (parseRequest .newestFirst data).isSome = true := by
    decide +kernel
  have ended : ((syncExchange .newestFirst).advanceAll
      (StopAndWait.start createAndLogin .empty) inTurn).map
        (fun exchange => exchange.receiver) = some .stopped := by
    decide +kernel
  rcases Option.map_eq_some_iff.mp ended with ⟨exchange, run, stopped⟩
  exact ⟨exchange, run, stopped,
    exchange_delivers .newestFirst .empty createAndLogin accepted inTurn exchange run⟩

/-- A request for the log that stands in a log brings the joining tracker down, and the
entry behind it is not reached. -/
theorem exchange_ends_at_sync :
    (∀ data ∈ [ascii "7 sync", ascii "7 logout"],
        (parseRequest .oldestFirst data).isSome = true) ∧
      ((syncExchange .oldestFirst).advanceAll
          (StopAndWait.start [ascii "7 sync", ascii "7 logout"] .empty)
          [.sender, .receiver, .receiver, .receiver]).map
            (fun exchange => (exchange.receiver, exchange.worked)) =
        some (.failed .nullDereference, [ascii "7 sync"]) := by
  decide +kernel

/-! ## The exchange as one step -/

/-- A log that was written by `process_data` can be handed over. -/
theorem serve_recordable (platform : Platform) (config : Config) (messages : List Bytes)
    {tracker : Tracker}
    (before : ∀ entry ∈ tracker.successfulTransactions, Recordable entry.data) :
    ∀ entry ∈ (serve platform config tracker messages).successfulTransactions,
      Recordable entry.data := by
  induction messages generalizing tracker with
  | nil => exact before
  | cons message messages ih => exact ih (processData_recordable before)

/-- Whatever the interleaving, an exchange that has ended comes to the handover in one
step. -/
theorem exchange_synchroniseWith {elder joiner : Host} {tracker : Tracker}
    (recordable : ∀ entry ∈ tracker.successfulTransactions, Recordable entry.data)
    {schedule : List StopAndWait.Party}
    {exchange : StopAndWait.Exchange Bytes Tracker Exception}
    (run : (syncExchange joiner.platform).advanceAll
        (StopAndWait.start (tracker.successfulTransactions.map Transaction.data) .empty) schedule =
      some exchange)
    (stuck : ∀ party, (syncExchange joiner.platform).advance exchange party = none) :
    synchroniseWith elder tracker joiner = .ok exchange.state := by
  have entries : ∀ data ∈ tracker.successfulTransactions.map Transaction.data,
      Recordable data := by
    intro data member
    rcases List.mem_map.mp member with ⟨entry, logged, rfl⟩
    exact recordable entry logged
  have distinguishable : ∀ data ∈ tracker.successfulTransactions.map Transaction.data,
      (syncExchange joiner.platform).ends data = false :=
    fun data member => ends_of_accepted (accepted_of_recordable _ (entries data member))
  have closes := syncExchange_closes joiner.platform
  have invariant := StopAndWait.invariant_start.advanceAll distinguishable run
  have logged : tracker.Logged elder.platform :=
    fun entry member => accepted_of_recordable _ (recordable entry member)
  simp only [synchroniseWith, processData_sync, receivedEntries_log logged]
  rcases invariant.progress closes stuck with stopped | ⟨exception, failed⟩
  · rcases invariant.of_stopped closes distinguishable stopped with ⟨_, _, _, _, outcome⟩
    rw [← workAll_eq_replay]
    exact outcome
  · have worked : ∀ data ∈ exchange.worked, Recordable data :=
      fun data member => entries data ((invariant.worked_prefix closes).subset member)
    rcases replay_recordable joiner.platform worked .empty with ⟨next, succeeded⟩
    have outcome := invariant.outcome
    rw [workAll_eq_replay, succeeded, StopAndWait.Exchange.outcome, failed] at outcome
    cases outcome

end P2PFileShare
