import P2PFileShare.Tracker.Deployment
import P2PFileShare.Tracker.Replay

/-!
# Joining a tracker that is up

`main` first asks the other tracker for its log and executes it, and opens its
port afterwards.  What the other tracker mirrors before the port is open is
refused and dropped.  So the joining tracker has executed the whole log, each
entry once, exactly if no request succeeded between the two steps.
-/

namespace P2PFileShare

open Text Transition

/-- How far `main` of the joining tracker has come. -/
inductive Phase
  | starting
  | synchronised
  | listening
  | terminated
  deriving DecidableEq

/-- A tracker that is up, and one that joins it.  `executed` records the requests
that the joining one has executed; no code reads it. -/
structure Joining where
  elder : Tracker
  joiner : Tracker := .empty
  phase : Phase := .starting
  inFlight : List Bytes := []
  executed : List Bytes := []

/-- A client sends a request to the tracker that is up; the joining tracker
synchronises, opens its port, or handles one of the messages in flight. -/
inductive JoinEvent
  | request (data : Bytes)
  | synchronise
  | listen
  | handle (place : Nat)

/-- The request of `sync_with_online_trackers`. -/
def syncRequest (myId : EndpointID) : Bytes :=
  ascii "0" ++ Text.toString myId.toNat ++ ascii " sync \n"

/-- The loop of `sync_with_online_trackers` ends at an empty text or at `done`. -/
def receivedEntries (sent : List Bytes) : List Bytes :=
  sent.takeWhile fun data => data ≠ [] ∧ data ≠ ascii "done"

namespace Deployment

variable (deployment : Deployment)

/-- A request of a client at the left tracker.  A connection to a port that is not
open is refused. -/
def serveClient (state : Joining) (data : Bytes) : Joining :=
  let served := processData (deployment.platform .left) (deployment.config .left) state.elder
    Network.reliable (ascii "1" ++ data)
  { state with
    elder := served.tracker
    inFlight :=
      if state.phase = .listening then state.inFlight ++ served.mirrored.map Prod.snd
      else state.inFlight }

/-- How the right tracker goes on behind the exchange: an exception ends it. -/
def resume (state : Joining) (entries : List Bytes) : Except Exception Tracker → Joining
  | .ok joiner =>
      { state with joiner, phase := .synchronised, executed := state.executed ++ entries }
  | .error _ => { state with phase := .terminated }

/-- `sync_with_online_trackers`.  The exchange occupies the left tracker from its
beginning to its end. -/
def synchronise (state : Joining) : Joining :=
  let served := processData (deployment.platform .left) (deployment.config .left) state.elder
    Network.reliable (syncRequest (deployment.config .right).myId)
  let entries := receivedEntries served.sent
  resume { state with elder := served.tracker } entries
    (replay (deployment.platform .right) state.joiner entries)

/-- The server of the right tracker passes a message to `process_data`. -/
def handleMirrored (state : Joining) (place : Nat) (message : Bytes) : Joining :=
  { state with
    joiner := (processData (deployment.platform .right) (deployment.config .right) state.joiner
      Network.reliable message).tracker
    inFlight := state.inFlight.eraseIdx place
    executed := state.executed ++
      ((parseRequest (deployment.platform .right) (message.drop 1)).map Transaction.data).toList }

def advance (state : Joining) : JoinEvent → Joining
  | .request data => deployment.serveClient state data
  | .synchronise => if state.phase = .starting then deployment.synchronise state else state
  | .listen => if state.phase = .synchronised then { state with phase := .listening } else state
  | .handle place =>
      match state.phase, state.inFlight[place]? with
      | .listening, some message => deployment.handleMirrored state place message
      | _, _ => state

def advanceAll (state : Joining) (events : List JoinEvent) : Joining :=
  events.foldl deployment.advance state

/-- No request succeeds between the end of the exchange and the opening of the
port. -/
def Gapless : Joining → List JoinEvent → Prop
  | _, [] => True
  | state, event :: events =>
      (state.phase = .synchronised → ∀ data, event = .request data →
        recorded (deployment.platform .left) state.elder data = none) ∧
      Gapless (deployment.advance state event) events

/-- What succeeds at the left tracker in that gap. -/
def missedBy (state : Joining) : JoinEvent → List Bytes
  | .request data =>
      if state.phase = .synchronised then
        ((recorded (deployment.platform .left) state.elder data).map Transaction.data).toList
      else []
  | .synchronise | .listen | .handle _ => []

def missed : Joining → List JoinEvent → List Bytes
  | _, [] => []
  | state, event :: events =>
      deployment.missedBy state event ++ missed (deployment.advance state event) events

end Deployment

/-! ## The exchange -/

/-- Every entry of the log is a request. -/
def Tracker.Logged (platform : Platform) (tracker : Tracker) : Prop :=
  ∀ transaction ∈ tracker.successfulTransactions,
    (parseRequest platform transaction.data).isSome = true

section Exchange

variable {platform : Platform} {tracker : Tracker} {data : Bytes}

theorem parseRequest_data {transaction : Transaction}
    (parsing : parseRequest platform data = some transaction) : transaction.data = data := by
  rcases Option.map_eq_some_iff.mp parsing with ⟨_, _, rfl⟩
  rfl

theorem parseRequest_done : parseRequest platform (ascii "done") = none := by
  rw [parseRequest_congr platform .oldestFirst]
  decide

/-- The joining tracker reads the whole log, and nothing else. -/
theorem receivedEntries_log (logged : tracker.Logged platform) :
    receivedEntries (tracker.successfulTransactions.map Transaction.data ++ [ascii "done"]) =
      tracker.successfulTransactions.map Transaction.data := by
  have entries : ∀ entry ∈ tracker.successfulTransactions.map Transaction.data,
      decide (entry ≠ [] ∧ entry ≠ ascii "done") = true := by
    intro entry member
    rcases List.mem_map.mp member with ⟨transaction, logs, rfl⟩
    have parses := logged transaction logs
    apply decide_eq_true
    constructor
    · intro empty
      rw [empty, parseRequest_nil] at parses
      cases parses
    · intro done
      rw [done, parseRequest_done] at parses
      cases parses
  rw [receivedEntries, List.takeWhile_append_of_pos entries]
  have closing : List.takeWhile (fun data => decide (data ≠ [] ∧ data ≠ ascii "done"))
      [ascii "done"] = [] := by
    decide
  rw [closing, List.append_nil]

theorem parseRequest_sync (platform : Platform) (myId : EndpointID) :
    ∃ transaction,
      parseRequest platform (Text.toString myId.toNat ++ ascii " sync \n") = some transaction ∧
        transaction.request = .tracker .sync := by
  have name : IsWord (ascii "sync") := by decide
  rcases requestHead_text platform myId name (ascii "\n") with ⟨taken, head⟩
  have named : requestOfName (ascii "sync") = some (.tracker .sync) := by decide
  have text : Text.toString myId.toNat ++ ascii " sync \n" =
      Text.toString myId.toNat ++ 32 :: (ascii "sync" ++ 32 :: ascii "\n") := rfl
  rw [text, parseRequest, head]
  simp only [named, Option.map_some]
  exact ⟨_, rfl, rfl⟩

/-- A tracker answers with its log, and stays as it is. -/
theorem processData_sync (config : Config) (myId : EndpointID) :
    processData platform config tracker Network.reliable (syncRequest myId) =
      { tracker
        sent := tracker.successfulTransactions.map Transaction.data ++ [ascii "done"] } := by
  rcases parseRequest_sync platform myId with ⟨⟨origin, request, data, outcome⟩, parsing, sync⟩
  subst sync
  change processData platform config tracker Network.reliable
    (48 :: (Text.toString myId.toNat ++ ascii " sync \n")) = _
  simp only [processData, parsing, processRequest, sendLog_reliable, Bool.false_eq_true, if_false]

end Exchange

/-! ## What becomes of the entries of the log -/

namespace Deployment

variable (deployment : Deployment)

/-- Every entry of the log has been executed, is in flight, or was missed. -/
structure Accounted (state : Joining) (missed : List Bytes) : Prop where
  logged : state.elder.Logged (deployment.platform .left)
  sent : ∀ message ∈ state.inFlight,
    (parseRequest (deployment.platform .right) (message.drop 1)).isSome = true
  before : state.phase = .starting → state.executed = [] ∧ state.inFlight = [] ∧ missed = []
  after : state.phase = .synchronised ∨ state.phase = .listening →
    (state.executed ++ state.inFlight.map (List.drop 1) ++ missed).Perm
      (state.elder.successfulTransactions.map Transaction.data)

variable {deployment} {state : Joining} {missed : List Bytes}

theorem serveClient_eq (state : Joining) (data : Bytes) :
    deployment.serveClient state data =
      { state with
        elder :=
          { handled (deployment.platform .left) state.elder data with
            successfulTransactions := state.elder.successfulTransactions ++
              (recorded (deployment.platform .left) state.elder data).toList }
        inFlight :=
          if state.phase = .listening then
            state.inFlight ++ (recorded (deployment.platform .left) state.elder data).toList.map
              fun transaction => ascii "0" ++ transaction.data
          else state.inFlight } := by
  have served := processData_tracker (deployment.platform .left) state.elder
    (deployment.config .left) 49 data
  have mirrored := processData_mirrored (deployment.platform .left) state.elder
    (deployment.config .left) 49 data
  simp only [if_true, mirror_eq] at mirrored
  change { state with elder := _, inFlight := _ } = _
  simp only [show ascii "1" ++ data = 49 :: data from rfl, served, mirrored]
  cases recorded (deployment.platform .left) state.elder data <;> rfl

theorem Accounted.request (accounted : deployment.Accounted state missed) (data : Bytes) :
    deployment.Accounted (deployment.serveClient state data)
      (missed ++ deployment.missedBy state (.request data)) := by
  rcases accounted with ⟨logged, sent, before, after⟩
  rw [serveClient_eq]
  cases record : recorded (deployment.platform .left) state.elder data with
  | none =>
      have nothing : deployment.missedBy state (.request data) = [] := by
        simp only [missedBy, record, Option.map_none, Option.toList_none, ite_self]
      simp only [nothing, Option.toList_none, List.map_nil, List.append_nil, ite_self]
      exact ⟨logged, sent, before, after⟩
  | some transaction =>
      obtain ⟨data_eq, parsed, parsing, _⟩ := recorded_eq_some record
      constructor
      · intro entry member
        rcases List.mem_append.mp member with old | new
        · exact logged entry old
        · rw [List.mem_singleton.mp new, data_eq, parsing]
          rfl
      · intro message member
        have parses : (parseRequest (deployment.platform .right) data).isSome = true := by
          rw [parseRequest_congr (deployment.platform .right) (deployment.platform .left), parsing]
          rfl
        have old := sent message
        simp only at member
        split at member
        · rcases List.mem_append.mp member with behind | new
          · exact old behind
          · rw [List.mem_singleton.mp new]
            subst data_eq
            exact parses
        · exact old member
      · intro phase
        have starting : state.phase = .starting := phase
        obtain ⟨executed, inFlight, missed_eq⟩ := before starting
        simp [missedBy, starting, executed, inFlight, missed_eq]
      · intro phase
        have perm := after phase
        have entry : (state.elder.successfulTransactions ++ [transaction]).map Transaction.data =
            state.elder.successfulTransactions.map Transaction.data ++ [data] := by
          rw [List.map_append, List.map_singleton, data_eq]
        rcases phase with synchronised | listening
        · have synchronised : state.phase = .synchronised := synchronised
          simp only [missedBy, synchronised, record, Option.toList_some, Option.map_some, data_eq,
            reduceCtorEq, if_true, if_false, entry]
          rw [← List.append_assoc]
          exact perm.append_right [data]
        · have listening : state.phase = .listening := listening
          simp only [missedBy, listening, Option.toList_some, data_eq, reduceCtorEq, if_true,
            if_false, entry, List.append_nil, List.map_append, List.map_singleton]
          refine List.Perm.trans ?_ (perm.append_right [data])
          rw [← List.append_assoc, List.append_assoc _ _ missed, List.append_assoc _ missed]
          exact (List.perm_append_comm).append_left _

/-- The joining tracker executes the log as it is. -/
theorem synchronise_eq (logged : state.elder.Logged (deployment.platform .left)) :
    deployment.synchronise state =
      resume state (state.elder.successfulTransactions.map Transaction.data)
        (replay (deployment.platform .right) state.joiner
          (state.elder.successfulTransactions.map Transaction.data)) := by
  simp only [synchronise, processData_sync, receivedEntries_log logged]

theorem Accounted.synchronise (accounted : deployment.Accounted state missed)
    (starting : state.phase = .starting) :
    deployment.Accounted (deployment.synchronise state) missed := by
  rcases accounted with ⟨logged, sent, before, after⟩
  obtain ⟨executed, inFlight, missed_eq⟩ := before starting
  rw [synchronise_eq logged]
  cases replay (deployment.platform .right) state.joiner
      (state.elder.successfulTransactions.map Transaction.data) with
  | ok joiner =>
      constructor
      · exact logged
      · exact sent
      · intro phase
        cases phase
      · intro _
        simp only [resume, executed, inFlight, missed_eq, List.nil_append, List.map_nil,
          List.append_nil]
        exact List.Perm.refl _
  | error exception =>
      constructor
      · exact logged
      · exact sent
      · intro phase
        cases phase
      · rintro (phase | phase)
        · cases phase
        · cases phase

theorem Accounted.handle (accounted : deployment.Accounted state missed)
    (listening : state.phase = .listening) {place : Nat} {message : Bytes}
    (found : state.inFlight[place]? = some message) :
    deployment.Accounted (deployment.handleMirrored state place message) missed := by
  rcases accounted with ⟨logged, sent, before, after⟩
  have parses := sent message (List.mem_of_getElem? found)
  rcases Option.isSome_iff_exists.mp parses with ⟨transaction, parsing⟩
  constructor
  · exact logged
  · intro other member
    exact sent other (List.mem_of_mem_eraseIdx member)
  · intro phase
    rw [handleMirrored, listening] at phase
    cases phase
  · intro _
    rcases List.getElem?_eq_some_iff.mp found with ⟨inside, rfl⟩
    have perm := after (Or.inr listening)
    simp only [handleMirrored, parsing, Option.map_some, Option.toList_some,
      parseRequest_data parsing]
    have taken := (List.getElem_cons_eraseIdx_perm inside).map (List.drop 1)
    refine List.Perm.trans ?_ perm
    apply List.Perm.append_right
    rw [List.append_assoc]
    exact taken.append_left state.executed

/-- A step keeps the account. -/
theorem Accounted.advance (accounted : deployment.Accounted state missed) (event : JoinEvent) :
    deployment.Accounted (deployment.advance state event)
      (missed ++ deployment.missedBy state event) := by
  cases event with
  | request data => exact accounted.request data
  | synchronise =>
      rw [missedBy, List.append_nil, Deployment.advance]
      split
      · next starting => exact accounted.synchronise starting
      · exact accounted
  | listen =>
      rw [missedBy, List.append_nil, Deployment.advance]
      split
      · next synchronised =>
          rcases accounted with ⟨logged, sent, before, after⟩
          constructor
          · exact logged
          · exact sent
          · intro phase
            cases phase
          · intro _
            exact after (Or.inl synchronised)
      · exact accounted
  | handle place =>
      rw [missedBy, List.append_nil, Deployment.advance]
      split
      · next message listening found => exact accounted.handle listening found
      · exact accounted

/-- And so does a run. -/
theorem Accounted.advanceAll (events : List JoinEvent)
    (accounted : deployment.Accounted state missed) :
    deployment.Accounted (deployment.advanceAll state events)
      (missed ++ deployment.missed state events) := by
  induction events generalizing state missed with
  | nil =>
      rw [Deployment.missed, List.append_nil]
      exact accounted
  | cons event events ih =>
      rw [Deployment.missed, ← List.append_assoc]
      exact ih (accounted.advance event)

theorem missed_eq_nil_iff (state : Joining) (events : List JoinEvent) :
    deployment.missed state events = [] ↔ deployment.Gapless state events := by
  induction events generalizing state with
  | nil => exact iff_of_true rfl trivial
  | cons event events ih =>
      rw [Deployment.missed, Gapless, List.append_eq_nil_iff, ih]
      apply and_congr_left'
      cases event with
      | request data =>
          simp only [missedBy, JoinEvent.request.injEq, forall_eq']
          by_cases synchronised : state.phase = .synchronised
          · simp [synchronised]
          · simp [synchronised]
      | _ => simp [missedBy]

end Deployment

/-- Once the joining tracker listens and nothing is in flight, it has executed every
entry of the log exactly once if and only if no request succeeded between the end
of the exchange and the opening of the port. -/
theorem joining_misses_nothing_iff (deployment : Deployment) (elder : Tracker)
    (logged : elder.Logged (deployment.platform .left)) (events : List JoinEvent)
    (listening : (deployment.advanceAll { elder } events).phase = .listening)
    (quiescent : (deployment.advanceAll { elder } events).inFlight = []) :
    (deployment.advanceAll { elder } events).executed.Perm
        ((deployment.advanceAll { elder } events).elder.successfulTransactions.map
          Transaction.data) ↔
      deployment.Gapless { elder } events := by
  have start : deployment.Accounted { elder } [] := by
    constructor
    · exact logged
    · intro message member
      cases member
    · intro _
      exact ⟨rfl, rfl, rfl⟩
    · rintro (phase | phase)
      · cases phase
      · cases phase
  have perm := (start.advanceAll events).after (Or.inr listening)
  rw [quiescent, List.map_nil, List.append_nil, List.nil_append] at perm
  rw [← Deployment.missed_eq_nil_iff]
  constructor
  · intro all
    have lengths := perm.length_eq.trans all.length_eq.symm
    rw [List.length_append] at lengths
    exact List.length_eq_zero_iff.mp (by omega)
  · intro nothing
    rw [nothing, List.append_nil] at perm
    exact perm

def promptJoin : List JoinEvent :=
  [.request (ascii "17 create_user ann pw"), .synchronise, .listen,
    .request (ascii "17 create_user bob pw"), .handle 0]

theorem joining_misses_nothing_iff_promptJoin :
    (neighbours.advanceAll { elder := Tracker.empty } promptJoin).executed.Perm
        ((neighbours.advanceAll { elder := Tracker.empty }
          promptJoin).elder.successfulTransactions.map Transaction.data) ↔
      neighbours.Gapless { elder := Tracker.empty } promptJoin :=
  joining_misses_nothing_iff neighbours Tracker.empty
    (fun _ member => absurd member List.not_mem_nil) promptJoin (by decide +kernel)
    (by decide +kernel)

def lateListening : List JoinEvent :=
  [.synchronise, .request (ascii "17 create_user ann pw"), .listen]

/-- A user that is created while the port is not open yet is missed. -/
theorem joining_misses_user :
    (neighbours.advanceAll { elder := Tracker.empty } lateListening).phase = .listening ∧
      (neighbours.advanceAll { elder := Tracker.empty } lateListening).inFlight = [] ∧
      ¬(neighbours.advanceAll { elder := Tracker.empty } lateListening).executed.Perm
        ((neighbours.advanceAll { elder := Tracker.empty }
          lateListening).elder.successfulTransactions.map Transaction.data) := by
  decide +kernel

end P2PFileShare
