import P2PFileShare.Tracker.Synchronise
import P2PFileShare.Transition.History

/-!
# The trackers of a list

`main` takes the number of a tracker, one or two, and lets no other entry of the list start.
The two start, synchronise with the one that is up, open their port, serve clients, mirror
what succeeds, and stop, in any order and as often as they like.  What is in flight is
delivered in any order, or lost.  However this goes, a tracker is what it becomes by handling
requests that clients have sent, none of them twice since it started.
-/

namespace P2PFileShare

open Text Transition

/-- Trackers that were given one list, in which no endpoint is there twice. -/
structure Cluster where
  platform : Endpoint → Platform
  trackers : List Endpoint
  nodup : trackers.Nodup

/-- How far `main` of a tracker has come.  It synchronises before it opens its port. -/
inductive Process
  | down
  | synchronised (tracker : Tracker)
  | listening (tracker : Tracker)

def Process.tracker? : Process → Option Tracker
  | .down => none
  | .synchronised tracker | .listening tracker => some tracker

/-- The processes, and the mirrored messages in flight with their destinations. -/
structure ClusterState where
  process : Endpoint → Process := fun _ => .down
  inFlight : List (Endpoint × Bytes) := []

/-- A message arrives at a tracker from outside; a mirrored one is delivered or lost; a
tracker starts, where the exchange is cut short behind a number of messages; it opens its
port; it stops. -/
inductive ClusterEvent
  | request (endpoint : Endpoint) (flag : UInt8) (data : Bytes) (network : Network)
  | deliver (place : Nat) (endpoint : Endpoint) (message : Bytes) (network : Network)
  | lose (place : Nat)
  | start (endpoint : Endpoint) (length : Nat)
  | listen (endpoint : Endpoint)
  | stop (endpoint : Endpoint)

namespace ClusterState

def listens (state : ClusterState) (endpoint : Endpoint) : Bool :=
  match state.process endpoint with
  | .listening _ => true
  | .down | .synchronised _ => false

/-- A process ends, and with it the connections that it has accepted. -/
def stop (state : ClusterState) (endpoint : Endpoint) : ClusterState where
  process := Function.update state.process endpoint .down
  inFlight := state.inFlight.filter fun message => message.1 ≠ endpoint

end ClusterState

namespace Cluster

variable (cluster : Cluster)

def config (endpoint : Endpoint) : Config where
  myId := endpoint.generateId (cluster.platform endpoint)
  trackers := cluster.trackers

/-- The server of a tracker passes a message on.  It handles the exceptions of the network,
and every other one ends the process.  A mirrored message reaches a port that is open.  Only
one other entry of the list can have an open port, and nobody is served before `mirror` has
come to it: so the step is taken when `mirror` connects there. -/
def receive (state : ClusterState) (endpoint : Endpoint) (tracker : Tracker)
    (network : Network) (message : Bytes) : ClusterState :=
  let served := processData (cluster.platform endpoint) (cluster.config endpoint) tracker
    network message
  match served.thrown with
  | none | some (.network _) =>
      { process := Function.update state.process endpoint (.listening served.tracker)
        inFlight := state.inFlight ++ served.mirrored.filter fun sent => state.listens sent.1 }
  | some (.std _) | some .runtimeError | some .unknownRequest | some .nullDereference =>
      state.stop endpoint

/-- A tracker whose port is open sends its log, and its state does not change by it
(`processData_sync`).  Any other one refuses. -/
def contact (state : ClusterState) (myId : EndpointID) (length : Nat) (endpoint : Endpoint) :
    Contact :=
  match state.process endpoint with
  | .listening tracker =>
      .connects ((processData (cluster.platform endpoint) (cluster.config endpoint) tracker
        .reliable (syncRequest myId)).sent.take length) .reliable
  | .down | .synchronised _ => .fails .connectionClosedError

/-- `main` of a tracker, up to the opening of its port. -/
def synchronise (state : ClusterState) (endpoint : Endpoint) (length : Nat) : ClusterState :=
  match syncWithOnlineTrackers (cluster.platform endpoint) (cluster.config endpoint)
    (cluster.contact state (cluster.config endpoint).myId length) .empty cluster.trackers with
  | (.ok _, tracker) =>
      { state with process := Function.update state.process endpoint (.synchronised tracker) }
  | (.error _, _) => state

def next (state : ClusterState) : ClusterEvent → Option ClusterState
  | .request endpoint flag data network =>
      match state.process endpoint with
      | .listening tracker =>
          some (cluster.receive state endpoint tracker network (flag :: data))
      | .down | .synchronised _ => none
  | .deliver place endpoint message network =>
      if state.inFlight[place]? = some (endpoint, message) then
        match state.process endpoint with
        | .listening tracker =>
            some (cluster.receive { state with inFlight := state.inFlight.eraseIdx place }
              endpoint tracker network message)
        | .down | .synchronised _ => none
      else none
  | .lose place => some { state with inFlight := state.inFlight.eraseIdx place }
  | .start endpoint length =>
      match state.process endpoint with
      | .down =>
          if endpoint ∈ cluster.trackers.take 2 then
            some (cluster.synchronise state endpoint length)
          else none
      | .synchronised _ | .listening _ => none
  | .listen endpoint =>
      match state.process endpoint with
      | .synchronised tracker =>
          some { state with
            process := Function.update state.process endpoint (.listening tracker) }
      | .down | .listening _ => none
  | .stop endpoint => some (state.stop endpoint)

def Step (source : ClusterState) (event : ClusterEvent) (target : ClusterState) : Prop :=
  cluster.next source event = some target

end Cluster

/-- What has arrived from outside, the oldest first. -/
def requestsIn : List ClusterEvent → List Bytes
  | [] => []
  | .request _ _ data _ :: past => requestsIn past ++ [data]
  | .deliver _ _ _ _ :: past | .lose _ :: past | .start _ _ :: past | .listen _ :: past
  | .stop _ :: past => requestsIn past

/-- The requests with these numbers. -/
def pick (requests : List Bytes) (numbers : List Nat) : List Bytes :=
  numbers.map fun number => requests.getD number []

/-- The tracker is what it becomes by handling the requests with these numbers, each once,
and its log holds some of them, in their order. -/
structure Handles (platform : Platform) (requests : List Bytes) (tracker : Tracker)
    (numbers logged : List Nat) : Prop where
  once : numbers.Nodup
  sent : ∀ number ∈ numbers, number < requests.length
  state : tracker.withLog [] = (pick requests numbers).foldl (handled platform) .empty
  sublist : logged.Sublist numbers
  log : tracker.successfulTransactions.map Transaction.data = pick requests logged

section Handles

variable {platform : Platform} {requests : List Bytes} {tracker next : Tracker}
  {numbers logged : List Nat} {data : Bytes}

theorem pick_grown (inside : ∀ number ∈ numbers, number < requests.length) :
    pick (requests ++ [data]) numbers = pick requests numbers := by
  apply List.map_congr_left
  intro number member
  rw [List.getD_eq_getElem?_getD, List.getElem?_append_left (inside number member),
    ← List.getD_eq_getElem?_getD]

theorem pick_concat (numbers : List Nat) (number : Nat) :
    pick requests (numbers ++ [number]) = pick requests numbers ++ [requests.getD number []] :=
  List.map_append

theorem handled_withLog (log : List Transaction) :
    handled platform (tracker.withLog log) data = (handled platform tracker data).withLog log := by
  simp only [handled]
  cases parseRequest platform data with
  | none => rfl
  | some transaction => simp only [handle_withLog]

theorem Handles.grown (handles : Handles platform requests tracker numbers logged) :
    Handles platform (requests ++ [data]) tracker numbers logged where
  once := handles.once
  sent number member := by
    rw [List.length_append]
    exact Nat.lt_add_right _ (handles.sent number member)
  state := by
    rw [pick_grown handles.sent]
    exact handles.state
  sublist := handles.sublist
  log := by
    rw [pick_grown fun number member => handles.sent number (handles.sublist.subset member)]
    exact handles.log

/-- One more message is one more request that is handled. -/
theorem Handles.receive (handles : Handles platform requests tracker numbers logged)
    {number : Nat} (fresh : number ∉ numbers) (inside : number < requests.length)
    (text : requests.getD number [] = data) (config : Config) (network : Network)
    (flag : UInt8) :
    ∃ entries, Handles platform requests
      (processData platform config tracker network (flag :: data)).tracker (numbers ++ [number])
      entries := by
  obtain ⟨log, after, grown⟩ := processData_after config network flag
  have once : (numbers ++ [number]).Nodup :=
    List.nodup_append.mpr ⟨handles.once, List.nodup_singleton number,
      fun other member _ last same => fresh (List.mem_singleton.mp last ▸ same ▸ member)⟩
  have sent : ∀ other ∈ numbers ++ [number], other < requests.length := by
    intro other member
    rcases List.mem_append.mp member with old | new
    · exact handles.sent other old
    · rw [List.mem_singleton.mp new]
      exact inside
  have state : (handled platform tracker data).withLog [] =
      (pick requests (numbers ++ [number])).foldl (handled platform) .empty := by
    rw [pick_concat, List.foldl_append, ← handles.state, text]
    simp only [List.foldl_cons, List.foldl_nil, handled_withLog]
  rw [after]
  rcases grown with rfl | ⟨entry, record, rfl⟩
  · exact ⟨logged, once, sent, state, handles.sublist.trans (List.sublist_append_left _ _),
      handles.log⟩
  · refine ⟨logged ++ [number], once, sent, state, handles.sublist.append (.refl _), ?_⟩
    rw [pick_concat, ← handles.log, List.map_append, text, List.map_singleton,
      (recorded_eq_some record).1]

/-- An entry that is executed is handled. -/
theorem handled_of_execute (executed : execute platform tracker data = .ok next) :
    next = handled platform tracker data := by
  simp only [execute] at executed
  rw [handled]
  cases parsing : parseRequest platform data with
  | none => simp [parsing] at executed
  | some transaction =>
      by_cases sync : transaction.request = .tracker .sync
      · rcases transaction with ⟨origin, request, text, outcome⟩
        subst sync
        simp [parsing, processRequest] at executed
      · simp only [parsing, processRequest_unattended platform tracker transaction sync]
          at executed
        cases answer : (handle platform tracker transaction).1 with
        | error exception => simp [answer] at executed
        | ok result =>
            rw [answer] at executed
            exact (Except.ok.inj executed).symm

theorem handled_of_replay {entries : List Bytes}
    (replayed : replay platform tracker entries = .ok next) :
    next = entries.foldl (handled platform) tracker := by
  induction entries generalizing tracker with
  | nil => exact (Except.ok.inj replayed).symm
  | cons entry entries ih =>
      rw [replay] at replayed
      cases executed : execute platform tracker entry with
      | error exception =>
          rw [executed] at replayed
          cases replayed
      | ok after =>
          rw [executed] at replayed
          rw [List.foldl_cons, ← handled_of_execute executed]
          exact ih replayed

/-- A tracker that has executed a log has handled what the log holds, and has not logged
it. -/
theorem handles_of_replay (once : numbers.Nodup)
    (sent : ∀ number ∈ numbers, number < requests.length)
    (replayed : replay platform .empty (pick requests numbers) = .ok next) :
    Handles platform requests next numbers [] := by
  have unlogged : next.successfulTransactions = [] := replay_log replayed
  constructor
  · exact once
  · exact sent
  · rw [← handled_of_replay replayed, Tracker.withLog, ← unlogged]
  · exact List.nil_sublist numbers
  · rw [unlogged]
    rfl

/-- However an exchange is cut short, a beginning of the log has been received. -/
theorem receivedEntries_begins (log : List Bytes) (length : Nat) :
    receivedEntries ((log ++ [ascii "done"]).take length) <+: log := by
  induction log generalizing length with
  | nil =>
      cases length with
      | zero => exact List.nil_prefix
      | succ length => simp [receivedEntries]
  | cons entry log ih =>
      cases length with
      | zero => exact List.nil_prefix
      | succ length =>
          rw [List.cons_append, List.take_succ_cons, receivedEntries, List.takeWhile_cons]
          split
          · exact (List.prefix_cons_inj entry).mpr (ih length)
          · exact List.nil_prefix

end Handles

/-- What is mirrored goes to every tracker of the list but the one that mirrors, and only if
the message asks for it. -/
theorem mirrored_cases (platform : Platform) (config : Config) (tracker : Tracker)
    (network : Network) (flag : UInt8) (data : Bytes) :
    (processData platform config tracker network (flag :: data)).mirrored = [] ∨
      flag = 49 ∧ (processData platform config tracker network (flag :: data)).mirrored =
        (config.trackers.filter fun other => other.generateId platform ≠ config.myId).map
          fun other => (other, 48 :: data) := by
  cases parsing : parseRequest platform data with
  | none =>
      simp only [processData, parsing]
      cases network 0 with
      | none => exact Or.inl rfl
      | some error => exact Or.inl rfl
  | some transaction =>
      simp only [processData, parsing]
      generalize processRequest platform tracker transaction (some network) (flag = 49) = answer
      rcases answer with ⟨exception | result, after, sent⟩
      · exact Or.inl rfl
      · cases success : result.success with
        | false => simp [success]
        | true =>
            by_cases client : flag = 49
            · right
              simp only [success, if_true, client, decide_true, mirror,
                parseRequest_data parsing]
              exact ⟨trivial, rfl⟩
            · simp [success, client]

/-! ## What holds of a cluster -/

/-- Which requests the trackers have handled and logged, and which are in flight. -/
structure Numbering where
  handled : Endpoint → List Nat
  logged : Endpoint → List Nat
  flying : List (Endpoint × Nat)

/-- Every tracker handles requests that were sent, and what is in flight to it is not among
those that it has handled. -/
structure Cluster.Numbered (cluster : Cluster) (requests : List Bytes) (state : ClusterState)
    (numbering : Numbering) : Prop where
  listed : ∀ endpoint tracker, (state.process endpoint).tracker? = some tracker →
    endpoint ∈ cluster.trackers.take 2
  handles : ∀ endpoint tracker, (state.process endpoint).tracker? = some tracker →
    Handles (cluster.platform endpoint) requests tracker (numbering.handled endpoint)
      (numbering.logged endpoint)
  inFlight : state.inFlight = numbering.flying.map fun flight =>
    (flight.1, 48 :: requests.getD flight.2 [])
  listening : ∀ flight ∈ numbering.flying, state.listens flight.1 = true
  once : numbering.flying.Nodup
  apart : ∀ flight ∈ numbering.flying, flight.2 ∉ numbering.handled flight.1
  sent : ∀ flight ∈ numbering.flying, flight.2 < requests.length

section Numbered

variable {cluster : Cluster} {requests : List Bytes} {state : ClusterState}
  {numbering : Numbering} {endpoint : Endpoint} {tracker : Tracker}

theorem Cluster.Numbered.start : cluster.Numbered [] {} ⟨fun _ => [], fun _ => [], []⟩ where
  listed := nofun
  handles := nofun
  inFlight := rfl
  listening := nofun
  once := List.nodup_nil
  apart := nofun
  sent := nofun

theorem Cluster.Numbered.grown (numbered : cluster.Numbered requests state numbering)
    (data : Bytes) : cluster.Numbered (requests ++ [data]) state numbering where
  listed := numbered.listed
  handles endpoint tracker up := (numbered.handles endpoint tracker up).grown
  inFlight := by
    rw [numbered.inFlight]
    apply List.map_congr_left
    intro flight member
    rw [List.getD_eq_getElem?_getD, List.getD_eq_getElem?_getD,
      List.getElem?_append_left (numbered.sent flight member)]
  listening := numbered.listening
  once := numbered.once
  apart := numbered.apart
  sent flight member := by
    rw [List.length_append]
    exact Nat.lt_add_right _ (numbered.sent flight member)

/-- Some of what is in flight may be lost. -/
theorem Cluster.Numbered.lost (numbered : cluster.Numbered requests state numbering)
    {flying : List (Endpoint × Nat)} (fewer : flying.Sublist numbering.flying) :
    cluster.Numbered requests
      { state with
        inFlight := flying.map fun flight => (flight.1, 48 :: requests.getD flight.2 []) }
      { numbering with flying } where
  listed := numbered.listed
  handles := numbered.handles
  inFlight := rfl
  listening flight member := numbered.listening flight (fewer.subset member)
  once := numbered.once.sublist fewer
  apart flight member := numbered.apart flight (fewer.subset member)
  sent flight member := numbered.sent flight (fewer.subset member)

/-- A process is replaced by one that has handled requests which are not in flight to it. -/
theorem Cluster.Numbered.replace (numbered : cluster.Numbered requests state numbering)
    (endpoint : Endpoint) (process : Process) (numbers entries : List Nat)
    (handles : ∀ tracker, process.tracker? = some tracker →
      endpoint ∈ cluster.trackers.take 2 ∧
        Handles (cluster.platform endpoint) requests tracker numbers entries)
    (openPort : ∀ flight ∈ numbering.flying, flight.1 = endpoint →
      (∃ tracker, process = .listening tracker) ∧ flight.2 ∉ numbers) :
    cluster.Numbered requests
      { state with process := Function.update state.process endpoint process }
      { numbering with
        handled := Function.update numbering.handled endpoint numbers
        logged := Function.update numbering.logged endpoint entries } where
  listed other tracker up := by
    by_cases same : other = endpoint
    · subst same
      simp only [Function.update_self] at up
      exact (handles tracker up).1
    · simp only [Function.update_of_ne same] at up
      exact numbered.listed other tracker up
  handles other tracker up := by
    by_cases same : other = endpoint
    · subst same
      simp only [Function.update_self] at up ⊢
      exact (handles tracker up).2
    · simp only [Function.update_of_ne same] at up ⊢
      exact numbered.handles other tracker up
  inFlight := numbered.inFlight
  listening flight member := by
    by_cases same : flight.1 = endpoint
    · obtain ⟨tracker, rfl⟩ := (openPort flight member same).1
      simp only [ClusterState.listens, same, Function.update_self]
    · simp only [ClusterState.listens, Function.update_of_ne same]
      exact numbered.listening flight member
  once := numbered.once
  apart flight member := by
    by_cases same : flight.1 = endpoint
    · simp only [same, Function.update_self]
      exact (openPort flight member same).2
    · simp only [Function.update_of_ne same]
      exact numbered.apart flight member
  sent := numbered.sent

/-- A request goes out to trackers that have not handled it. -/
theorem Cluster.Numbered.mirror (numbered : cluster.Numbered requests state numbering)
    {others : List Endpoint} (once : others.Nodup)
    (listening : ∀ other ∈ others, state.listens other = true) {number : Nat}
    (inside : number < requests.length)
    (new : ∀ other ∈ others, number ∉ numbering.handled other ∧
      ∀ flight ∈ numbering.flying, flight.2 ≠ number) :
    cluster.Numbered requests
      { state with
        inFlight := state.inFlight ++
          others.map fun other => (other, 48 :: requests.getD number []) }
      { numbering with
        flying := numbering.flying ++ others.map fun other => (other, number) } where
  listed := numbered.listed
  handles := numbered.handles
  inFlight := by
    rw [numbered.inFlight, List.map_append, List.map_map]
    rfl
  listening flight member := by
    rcases List.mem_append.mp member with old | sent
    · exact numbered.listening flight old
    · obtain ⟨other, chosen, rfl⟩ := List.mem_map.mp sent
      exact listening other chosen
  once := by
    refine List.nodup_append.mpr ⟨numbered.once, ?_, ?_⟩
    · exact once.map fun first second same => (Prod.mk.inj same).1
    · rintro flight old _ sent rfl
      obtain ⟨other, chosen, rfl⟩ := List.mem_map.mp sent
      exact (new other chosen).2 _ old rfl
  apart flight member := by
    rcases List.mem_append.mp member with old | sent
    · exact numbered.apart flight old
    · obtain ⟨other, chosen, rfl⟩ := List.mem_map.mp sent
      exact (new other chosen).1
  sent flight member := by
    rcases List.mem_append.mp member with old | sent
    · exact numbered.sent flight old
    · obtain ⟨other, _, rfl⟩ := List.mem_map.mp sent
      exact inside

theorem Cluster.Numbered.stop (numbered : cluster.Numbered requests state numbering)
    (endpoint : Endpoint) : ∃ fewer, cluster.Numbered requests (state.stop endpoint) fewer := by
  let flying := numbering.flying.filter fun flight => flight.1 ≠ endpoint
  have fewer : flying.Sublist numbering.flying := List.filter_sublist
  have stopped := (numbered.lost fewer).replace endpoint .down [] [] nofun
    fun flight member same => absurd same (of_decide_eq_true (List.mem_filter.mp member).2)
  have ended : state.stop endpoint =
      { process := Function.update state.process endpoint .down
        inFlight := flying.map fun flight => (flight.1, 48 :: requests.getD flight.2 []) } := by
    simp only [ClusterState.stop, numbered.inFlight, List.filter_map]
    rfl
  rw [ended]
  exact ⟨_, stopped⟩

/-- A message goes out to some other trackers, to each of them once. -/
theorem Cluster.mirrored_eq (state : ClusterState) (endpoint : Endpoint) (tracker : Tracker)
    (network : Network) (flag : UInt8) (data : Bytes) :
    ∃ others : List Endpoint,
      (processData (cluster.platform endpoint) (cluster.config endpoint) tracker network
          (flag :: data)).mirrored.filter (fun sent => state.listens sent.1) =
        others.map (fun other => (other, 48 :: data)) ∧
      others.Sublist (cluster.trackers.filter fun other => other ≠ endpoint) ∧
      (∀ other ∈ others, state.listens other = true) ∧ (flag ≠ 49 → others = []) := by
  rcases mirrored_cases (cluster.platform endpoint) (cluster.config endpoint) tracker network flag
    data with nothing | ⟨client, mirrored⟩
  · exact ⟨[], by rw [nothing]; rfl, List.nil_sublist _, nofun, fun _ => rfl⟩
  · refine ⟨(cluster.trackers.filter fun other =>
      other.generateId (cluster.platform endpoint) ≠ (cluster.config endpoint).myId).filter
        fun other => state.listens other, ?_, ?_, ?_, fun other => absurd client other⟩
    · rw [mirrored, List.filter_map]
      rfl
    · refine List.filter_sublist.trans (List.monotone_filter_right _ ?_)
      intro other differs
      have differs := of_decide_eq_true differs
      refine decide_eq_true ?_
      rintro rfl
      exact differs rfl
    · intro other member
      exact (List.mem_filter.mp member).2

/-- A tracker may handle a request that it has not handled, and that is not in flight to it
any more.  What it mirrors is new to everybody. -/
theorem Cluster.Numbered.receive (numbered : cluster.Numbered requests state numbering)
    (up : state.process endpoint = .listening tracker) {number : Nat}
    (fresh : number ∉ numbering.handled endpoint) (inside : number < requests.length)
    (arrived : (endpoint, number) ∉ numbering.flying) {flag : UInt8} {data : Bytes}
    (text : requests.getD number [] = data)
    (new : flag = 49 →
      (∀ other, state.listens other = true → number ∉ numbering.handled other) ∧
        ∀ flight ∈ numbering.flying, flight.2 ≠ number) (network : Network) :
    ∃ after, cluster.Numbered requests
      (cluster.receive state endpoint tracker network (flag :: data)) after := by
  obtain ⟨others, mirrored, sublist, listening, quiet⟩ :=
    cluster.mirrored_eq state endpoint tracker network flag data
  have running : (state.process endpoint).tracker? = some tracker := by
    rw [up]
    rfl
  obtain ⟨entries, handles⟩ := (numbered.handles endpoint tracker running).receive fresh inside
    text (cluster.config endpoint) network flag
  have isNew : ∀ other ∈ others, number ∉ numbering.handled other ∧
      ∀ flight ∈ numbering.flying, flight.2 ≠ number := by
    intro other member
    by_cases client : flag = 49
    · exact ⟨(new client).1 other (listening other member), (new client).2⟩
    · rw [quiet client] at member
      cases member
  have different : ∀ other ∈ others, other ≠ endpoint := fun other member =>
    of_decide_eq_true (List.mem_filter.mp (sublist.subset member)).2
  have served := numbered.replace endpoint
    (.listening (processData (cluster.platform endpoint) (cluster.config endpoint) tracker network
      (flag :: data)).tracker) (numbering.handled endpoint ++ [number]) entries ?_ ?_
  · have settled := served.mirror
      ((cluster.nodup.sublist List.filter_sublist).sublist sublist) ?_ inside ?_
    · simp only [Cluster.receive, mirrored]
      rw [text] at settled
      split
      · exact ⟨_, settled⟩
      · exact ⟨_, settled⟩
      · exact numbered.stop endpoint
      · exact numbered.stop endpoint
      · exact numbered.stop endpoint
      · exact numbered.stop endpoint
    · intro other member
      simp only [ClusterState.listens, Function.update_of_ne (different other member)]
      exact listening other member
    · intro other member
      simp only [Function.update_of_ne (different other member)]
      exact isNew other member
  · intro reached reaches
    obtain rfl := Option.some.inj reaches
    exact ⟨numbered.listed endpoint tracker running, handles⟩
  · intro flight member same
    refine ⟨⟨_, rfl⟩, fun handledNow => ?_⟩
    rcases List.mem_append.mp handledNow with before | now
    · exact numbered.apart flight member (same ▸ before)
    · rw [← same, ← List.mem_singleton.mp now] at arrived
      exact arrived member

/-- Of the entries of the list, one at most is another tracker that is up. -/
theorem Cluster.Numbered.other_unique (numbered : cluster.Numbered requests state numbering)
    (listed : endpoint ∈ cluster.trackers.take 2) {first second : Endpoint}
    (others : first ≠ endpoint ∧ second ≠ endpoint) (firstUp : state.listens first = true)
    (secondUp : state.listens second = true) : first = second := by
  have running {other : Endpoint} (up : state.listens other = true) :
      other ∈ cluster.trackers.take 2 := by
    rw [ClusterState.listens] at up
    split at up
    · next tracker is_up => exact numbered.listed other tracker (by rw [is_up]; rfl)
    · cases up
    · cases up
  by_contra different
  have distinct : [endpoint, first, second].Nodup := by
    simp [others.1.symm, others.2.symm, different]
  have three : [endpoint, first, second].length ≤ (cluster.trackers.take 2).length := by
    apply distinct.length_le_of_subset
    simp only [List.cons_subset, List.nil_subset, and_true]
    exact ⟨listed, running firstUp, running secondUp⟩
  rw [List.length_take] at three
  simp only [List.length_cons, List.length_nil] at three
  omega

/-- Whoever is not listening tells nothing. -/
theorem Cluster.contact_entries {myId : EndpointID} {length : Nat}
    (quiet : state.listens endpoint = false) :
    (cluster.contact state myId length endpoint).entries = [] := by
  rw [ClusterState.listens] at quiet
  rw [Cluster.contact]
  split
  · next tracker up =>
      rw [up] at quiet
      cases quiet
  · rfl
  · rfl

/-- A tracker that listens tells a beginning of its log. -/
theorem Cluster.Numbered.contact (numbered : cluster.Numbered requests state numbering)
    (myId : EndpointID) (length : Nat) {executed : List Bytes}
    (beginning : executed <+: (cluster.contact state myId length endpoint).entries) :
    ∃ numbers : List Nat, executed = pick requests numbers ∧ numbers.Nodup ∧
      ∀ number ∈ numbers, number < requests.length := by
  rw [Cluster.contact] at beginning
  split at beginning
  · next served up =>
      have handles := numbered.handles endpoint served (by rw [up]; rfl)
      rw [processData_sync] at beginning
      have told := beginning.trans (receivedEntries_begins
        (served.successfulTransactions.map Transaction.data) length)
      rw [handles.log, List.prefix_iff_eq_take, pick, ← List.map_take, ← pick] at told
      have some_of := (List.take_sublist executed.length (numbering.logged endpoint)).trans
        handles.sublist
      exact ⟨_, told, handles.once.sublist some_of, fun number member =>
        handles.sent number (some_of.subset member)⟩
  · exact ⟨[], List.prefix_nil.mp beginning, List.nodup_nil, nofun⟩
  · exact ⟨[], List.prefix_nil.mp beginning, List.nodup_nil, nofun⟩

/-- Nothing is in flight to a tracker that starts, and it executes a beginning of a log. -/
theorem Cluster.Numbered.synchronise (numbered : cluster.Numbered requests state numbering)
    (down : state.process endpoint = .down) (listed : endpoint ∈ cluster.trackers.take 2)
    (length : Nat) :
    ∃ after, cluster.Numbered requests (cluster.synchronise state endpoint length) after := by
  simp only [Cluster.synchronise]
  obtain ⟨asked, synchronised, replayed⟩ := syncWithOnlineTrackers_executes
    (cluster.platform endpoint) (cluster.config endpoint)
    (cluster.contact state (cluster.config endpoint).myId length) .empty cluster.trackers
  split
  · next online tracker outcome =>
      rw [outcome] at synchronised replayed
      have executed : ∃ numbers, Handles (cluster.platform endpoint) requests tracker numbers
          [] := by
        have others : ∀ other ∈ cluster.trackers.filter (fun other =>
            other.generateId (cluster.platform endpoint) ≠ (cluster.config endpoint).myId),
            other ≠ endpoint := by
          rintro other member rfl
          exact of_decide_eq_true (List.mem_filter.mp member).2 rfl
        obtain ⟨numbers, told, once, sent⟩ : ∃ numbers : List Nat,
            asked.flatMap Prod.snd = pick requests numbers ∧ numbers.Nodup ∧
              ∀ number ∈ numbers, number < requests.length := by
          by_cases somebody : ∃ elder, elder ≠ endpoint ∧ state.listens elder = true
          · obtain ⟨elder, different, up⟩ := somebody
            refine numbered.contact (cluster.config endpoint).myId length
              (synchronised.elder elder (cluster.nodup.sublist List.filter_sublist) ?_)
            intro other member apart
            apply Cluster.contact_entries
            rw [Bool.eq_false_iff]
            exact fun listens => apart
              (numbered.other_unique listed ⟨others other member, different⟩ listens up)
          · refine ⟨[], synchronised.alone ?_, List.nodup_nil, nofun⟩
            intro other member
            apply Cluster.contact_entries
            rw [Bool.eq_false_iff]
            exact fun listens => somebody ⟨other, others other member, listens⟩
        rw [told] at replayed
        exact ⟨numbers, handles_of_replay once sent replayed⟩
      obtain ⟨numbers, handles⟩ := executed
      have away : ∀ flight ∈ numbering.flying, flight.1 ≠ endpoint := by
        rintro flight member same
        have listens := numbered.listening flight member
        rw [ClusterState.listens, same, down] at listens
        cases listens
      refine ⟨_, numbered.replace endpoint (.synchronised tracker) numbers [] ?_ ?_⟩
      · intro reached reaches
        obtain rfl := Option.some.inj reaches
        exact ⟨listed, handles⟩
      · exact fun flight member same => absurd same (away flight member)
  · exact ⟨numbering, numbered⟩

/-- What is in flight to a tracker has a number. -/
theorem Cluster.Numbered.flight (numbered : cluster.Numbered requests state numbering)
    {place : Nat} {message : Bytes} (found : state.inFlight[place]? = some (endpoint, message)) :
    ∃ number, numbering.flying[place]? = some (endpoint, number) ∧
      message = 48 :: requests.getD number [] := by
  rw [numbered.inFlight, List.getElem?_map] at found
  obtain ⟨⟨_, number⟩, flies, same⟩ := Option.map_eq_some_iff.mp found
  obtain ⟨rfl, rfl⟩ := Prod.mk.inj same
  exact ⟨number, flies, rfl⟩

theorem Cluster.Numbered.step (numbered : cluster.Numbered requests state numbering)
    {past : List ClusterEvent} (sent : requests = requestsIn past) {event : ClusterEvent}
    {target : ClusterState} (step : cluster.Step state event target) :
    ∃ after, cluster.Numbered (requestsIn (event :: past)) target after := by
  subst sent
  rw [Cluster.Step] at step
  cases event with
  | request endpoint flag data network =>
      simp only [Cluster.next] at step
      split at step
      · next tracker up =>
          obtain rfl := Option.some.inj step
          have old (other : Endpoint) (listens : state.listens other = true) :
              (requestsIn past).length ∉ numbering.handled other := by
            intro member
            rw [ClusterState.listens] at listens
            split at listens
            · next reached is_up =>
                exact Nat.lt_irrefl _
                  ((numbered.handles other reached (by rw [is_up]; rfl)).sent _ member)
            · cases listens
            · cases listens
          have distinct : ∀ flight ∈ numbering.flying, flight.2 ≠ (requestsIn past).length :=
            fun flight member => Nat.ne_of_lt (numbered.sent flight member)
          refine (numbered.grown data).receive up (old endpoint ?_) (by simp) ?_ (by simp)
            (fun _ => ⟨old, distinct⟩) network
          · rw [ClusterState.listens, up]
          · exact fun member => distinct _ member rfl
      · cases step
      · cases step
  | deliver place endpoint message network =>
      simp only [Cluster.next] at step
      split at step
      · next found =>
          split at step
          · next tracker up =>
              obtain rfl := Option.some.inj step
              obtain ⟨number, flies, rfl⟩ := numbered.flight found
              obtain ⟨inside, _⟩ := List.getElem?_eq_some_iff.mp flies
              have member := List.mem_of_getElem? flies
              have remaining := numbered.lost (List.eraseIdx_sublist numbering.flying place)
              rw [← List.eraseIdx_map, ← numbered.inFlight] at remaining
              have arrived : (endpoint, number) ∉ numbering.flying.eraseIdx place := by
                intro again
                obtain ⟨other, different, same⟩ := List.mem_eraseIdx_iff_getElem?.mp again
                exact different ((List.getElem?_inj inside numbered.once).mp
                  (flies.trans same.symm)).symm
              exact remaining.receive up (numbered.apart _ member) (numbered.sent _ member)
                arrived rfl (fun client => absurd client (by decide)) network
          · cases step
          · cases step
      · cases step
  | lose place =>
      obtain rfl := Option.some.inj step
      have remaining := numbered.lost (List.eraseIdx_sublist numbering.flying place)
      rw [← List.eraseIdx_map, ← numbered.inFlight] at remaining
      exact ⟨_, remaining⟩
  | start endpoint length =>
      simp only [Cluster.next] at step
      split at step
      · next down =>
          split at step
          · next listed =>
              obtain rfl := Option.some.inj step
              exact numbered.synchronise down listed length
          · cases step
      · cases step
      · cases step
  | listen endpoint =>
      simp only [Cluster.next] at step
      split at step
      · next tracker up =>
          obtain rfl := Option.some.inj step
          refine ⟨_, numbered.replace endpoint (.listening tracker)
            (numbering.handled endpoint) (numbering.logged endpoint) ?_ ?_⟩
          · intro reached reaches
            obtain rfl := Option.some.inj reaches
            have running : (state.process endpoint).tracker? = some tracker := by
              rw [up]
              rfl
            exact ⟨numbered.listed endpoint tracker running,
              numbered.handles endpoint tracker running⟩
          · rintro flight member rfl
            exact ⟨⟨tracker, rfl⟩, numbered.apart flight member⟩
      · cases step
      · cases step
  | stop endpoint =>
      obtain rfl := Option.some.inj step
      exact numbered.stop endpoint

theorem numbered_run {history : List ClusterEvent}
    (run : Run {} cluster.Step history state) :
    ∃ numbering, cluster.Numbered (requestsIn history) state numbering := by
  apply run.invariant (p := fun history state =>
    ∃ numbering, cluster.Numbered (requestsIn history) state numbering)
  · exact ⟨_, .start⟩
  · rintro past source event target _ ⟨numbering, numbered⟩ step
    exact numbered.step rfl step

end Numbered

/-! ## How many messages there are -/

namespace ClusterEvent

/-- A client's request arrives at another tracker, which may send it on as this message. -/
def mirrorsTo (endpoint : Endpoint) (message : Bytes) : ClusterEvent → Bool
  | .request other flag data _ =>
      decide (other ≠ endpoint ∧ flag = 49 ∧ message = 48 :: data)
  | .deliver _ _ _ _ | .lose _ | .start _ _ | .listen _ | .stop _ => false

/-- This message is delivered to the tracker. -/
def deliversTo (endpoint : Endpoint) (message : Bytes) : ClusterEvent → Bool
  | .deliver _ other text _ => decide (other = endpoint ∧ text = message)
  | .request _ _ _ _ | .lose _ | .start _ _ | .listen _ | .stop _ => false

end ClusterEvent

section Messages

variable {cluster : Cluster} {state : ClusterState} {endpoint : Endpoint}

/-- A client's request causes one message at most for each other tracker, and a mirrored
message causes none. -/
theorem Cluster.count_receive (state : ClusterState) (endpoint : Endpoint) (tracker : Tracker)
    (network : Network) (flag : UInt8) (data : Bytes) (other : Endpoint) (message : Bytes) :
    (cluster.receive state endpoint tracker network (flag :: data)).inFlight.count
        (other, message) ≤
      state.inFlight.count (other, message) +
        if endpoint ≠ other ∧ flag = 49 ∧ message = 48 :: data then 1 else 0 := by
  obtain ⟨others, mirrored, sublist, _, quiet⟩ :=
    cluster.mirrored_eq state endpoint tracker network flag data
  have nodup : (others.map fun other => (other, 48 :: data)).Nodup :=
    ((cluster.nodup.sublist List.filter_sublist).sublist sublist).map
      fun first second same => (Prod.mk.inj same).1
  have bound : (others.map fun other => (other, 48 :: data)).count (other, message) ≤
      if endpoint ≠ other ∧ flag = 49 ∧ message = 48 :: data then 1 else 0 := by
    split
    · exact List.nodup_iff_count_le_one.mp nodup _
    · next elsewhere =>
        refine Nat.le_of_eq (List.count_eq_zero.mpr fun member => elsewhere ?_)
        obtain ⟨sent, isSent, same⟩ := List.mem_map.mp member
        obtain ⟨rfl, rfl⟩ := Prod.mk.inj same
        refine ⟨?_, ?_, rfl⟩
        · exact (of_decide_eq_true (List.mem_filter.mp (sublist.subset isSent)).2).symm
        · by_contra mirror
          rw [quiet mirror] at isSent
          cases isSent
  simp only [Cluster.receive]
  split
  · simp only [mirrored, List.count_append]
    exact Nat.add_le_add_left bound _
  · simp only [mirrored, List.count_append]
    exact Nat.add_le_add_left bound _
  all_goals exact (List.filter_sublist.count_le _).trans (Nat.le_add_right _ _)

theorem deliveries_step {numbering : Numbering} {past : List ClusterEvent}
    (numbered : cluster.Numbered (requestsIn past) state numbering) {other : Endpoint}
    {message : Bytes}
    (bounded : past.countP (ClusterEvent.deliversTo other message) +
        state.inFlight.count (other, message) ≤
      past.countP (ClusterEvent.mirrorsTo other message))
    {event : ClusterEvent} {target : ClusterState} (step : cluster.Step state event target) :
    (event :: past).countP (ClusterEvent.deliversTo other message) +
        target.inFlight.count (other, message) ≤
      (event :: past).countP (ClusterEvent.mirrorsTo other message) := by
  rw [Cluster.Step] at step
  simp only [List.countP_cons]
  cases event with
  | request endpoint flag data network =>
      simp only [Cluster.next] at step
      split at step
      · next tracker up =>
          obtain rfl := Option.some.inj step
          have sent := cluster.count_receive state endpoint tracker network flag data other
            message
          simp only [ClusterEvent.deliversTo, ClusterEvent.mirrorsTo, decide_eq_true_eq,
            Bool.false_eq_true, if_false]
          omega
      · cases step
      · cases step
  | deliver place endpoint text network =>
      simp only [Cluster.next] at step
      split at step
      · next found =>
          split at step
          · next tracker up =>
              obtain rfl := Option.some.inj step
              obtain ⟨number, _, rfl⟩ := numbered.flight found
              have sent := cluster.count_receive
                { state with inFlight := state.inFlight.eraseIdx place } endpoint tracker network 48
                ((requestsIn past).getD number []) other message
              obtain ⟨inside, here⟩ := List.getElem?_eq_some_iff.mp found
              have erased := (List.getElem_cons_eraseIdx_perm inside).count_eq (other, message)
              rw [here, List.count_cons] at erased
              have mirrored : (if endpoint ≠ other ∧ (48 : UInt8) = 49 ∧
                  message = 48 :: (requestsIn past).getD number [] then 1 else 0) = 0 :=
                if_neg fun mirrors => absurd mirrors.2.1 (by decide)
              rw [mirrored] at sent
              dsimp only at sent
              simp only [ClusterEvent.deliversTo, ClusterEvent.mirrorsTo, decide_eq_true_eq,
                Bool.false_eq_true, if_false, beq_iff_eq, Prod.mk.injEq] at erased ⊢
              omega
          · cases step
          · cases step
      · cases step
  | lose place =>
      obtain rfl := Option.some.inj step
      exact (Nat.add_le_add_left ((List.eraseIdx_sublist _ _).count_le _) _).trans bounded
  | start endpoint length =>
      simp only [Cluster.next] at step
      split at step
      · split at step
        · obtain rfl := Option.some.inj step
          have same : (cluster.synchronise state endpoint length).inFlight = state.inFlight := by
            rw [Cluster.synchronise]
            split <;> rfl
          rw [same]
          exact bounded
        · cases step
      · cases step
      · cases step
  | listen endpoint =>
      simp only [Cluster.next] at step
      split at step
      · obtain rfl := Option.some.inj step
        exact bounded
      · cases step
      · cases step
  | stop endpoint =>
      obtain rfl := Option.some.inj step
      exact (Nat.add_le_add_left (List.filter_sublist.count_le _) _).trans bounded

end Messages

/-- The two trackers may start, stop, and synchronise as they like, and messages be lost: each
is what it becomes by handling requests that arrived somewhere from outside, none of them
twice, and hands on no more than that.  A message is delivered to a tracker, or is on its way
there, at most as often as a client has sent its text to the other one. -/
theorem cluster_handles_once (cluster : Cluster) {history : List ClusterEvent}
    {state : ClusterState} (run : Run {} cluster.Step history state) :
    (∀ endpoint tracker, (state.process endpoint).tracker? = some tracker →
      ∃ numbers logged,
        Handles (cluster.platform endpoint) (requestsIn history) tracker numbers logged) ∧
      ∀ endpoint message, history.countP (ClusterEvent.deliversTo endpoint message) +
          state.inFlight.count (endpoint, message) ≤
        history.countP (ClusterEvent.mirrorsTo endpoint message) := by
  constructor
  · intro endpoint tracker up
    obtain ⟨numbering, numbered⟩ := numbered_run run
    exact ⟨_, _, numbered.handles endpoint tracker up⟩
  · intro endpoint message
    apply run.invariant (p := fun history state =>
      history.countP (ClusterEvent.deliversTo endpoint message) +
          state.inFlight.count (endpoint, message) ≤
        history.countP (ClusterEvent.mirrorsTo endpoint message))
    · exact Nat.zero_le _
    · intro past source event target before bounded step
      obtain ⟨numbering, numbered⟩ := numbered_run before
      exact deliveries_step numbered bounded step

/-- Two trackers on one host, which know each other. -/
def twoTrackers : Cluster where
  platform _ := { Platform.oldestFirst with stringHash := hashing }
  trackers := [⟨ascii "127.0.0.1", 5000⟩, ⟨ascii "127.0.0.1", 5001⟩]
  nodup := by decide

/-- The second tracker starts when the first one has a user, and gets another one later. -/
def joinedLater : List ClusterEvent :=
  [.start ⟨ascii "127.0.0.1", 5000⟩ 0, .listen ⟨ascii "127.0.0.1", 5000⟩,
    .request ⟨ascii "127.0.0.1", 5000⟩ 49 (ascii "7 create_user ann pw") .reliable,
    .start ⟨ascii "127.0.0.1", 5001⟩ 9, .listen ⟨ascii "127.0.0.1", 5001⟩,
    .request ⟨ascii "127.0.0.1", 5000⟩ 49 (ascii "7 create_user bob pw") .reliable,
    .deliver 0 ⟨ascii "127.0.0.1", 5001⟩ (ascii "07 create_user bob pw") .reliable]

theorem Cluster.run_nextAll {cluster : Cluster} {history events : List ClusterEvent}
    {state target : ClusterState} (run : Run {} cluster.Step history state)
    (reached : events.foldlM cluster.next state = some target) :
    Run {} cluster.Step (events.reverse ++ history) target := by
  induction events generalizing state history with
  | nil =>
      obtain rfl := Option.some.inj reached
      exact run
  | cons event events ih =>
      rw [List.foldlM_cons] at reached
      obtain ⟨middle, next, rest⟩ := Option.bind_eq_some_iff.mp reached
      rw [List.reverse_cons, List.append_assoc]
      exact ih (run.step next) rest

theorem cluster_handles_once_joined : ∃ state tracker,
    joinedLater.foldlM twoTrackers.next {} = some state ∧
      (state.process ⟨ascii "127.0.0.1", 5001⟩).tracker? = some tracker ∧
      (tracker.user? (ascii "ann")).isSome = true ∧ (tracker.user? (ascii "bob")).isSome = true ∧
      ∃ numbers logged, Handles (twoTrackers.platform ⟨ascii "127.0.0.1", 5001⟩)
        (requestsIn (joinedLater.reverse ++ [])) tracker numbers logged := by
  have reaches : ((joinedLater.foldlM twoTrackers.next {}).bind fun state =>
      (state.process ⟨ascii "127.0.0.1", 5001⟩).tracker?.filter fun tracker =>
        (tracker.user? (ascii "ann")).isSome && (tracker.user? (ascii "bob")).isSome).isSome =
      true := by
    decide +kernel
  obtain ⟨tracker, found⟩ := Option.isSome_iff_exists.mp reaches
  obtain ⟨state, reached, kept⟩ := Option.bind_eq_some_iff.mp found
  obtain ⟨up, users⟩ := Option.filter_eq_some_iff.mp kept
  rw [Bool.and_eq_true] at users
  exact ⟨state, tracker, reached, up, users.1, users.2,
    (cluster_handles_once twoTrackers (Cluster.run_nextAll .start reached)).1 _ tracker up⟩

end P2PFileShare
