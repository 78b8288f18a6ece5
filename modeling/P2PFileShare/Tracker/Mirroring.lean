import P2PFileShare.Network.Delivery
import P2PFileShare.Tracker.Deployment

/-!
# Mirroring with one writer

Every request that succeeds at the left tracker travels to the right one on a
connection of its own.  The server there passes on exactly what was recorded, in
order, as long as it finds the connections as `Server.Orderly` says; with other
clients connected, or with descriptors that do not follow the order of the
connections, it does not.
-/

namespace P2PFileShare

open Text Transition

namespace Deployment

variable (deployment : Deployment)

/-- The left tracker behind the requests of its clients. -/
def served (tracker : Tracker) (requests : List Bytes) : Tracker :=
  serve (deployment.platform .left) (deployment.config .left) tracker
    (requests.map fun data => ascii "1" ++ data)

/-- What it sends to the right tracker, one connection a message. -/
def sent : Tracker → List Bytes → List Bytes
  | _, [] => []
  | tracker, data :: requests =>
      let served := processData (deployment.platform .left) (deployment.config .left) tracker
        Network.reliable (ascii "1" ++ data)
      served.mirrored.map Prod.snd ++ sent served.tracker requests

/-- What was passed to `process_data` of the right tracker is what the left one has
recorded, in the same order. -/
def Mirrors (tracker : Tracker) (requests : List Bytes) (server : Server) : Prop :=
  ∃ log,
    (deployment.served tracker requests).successfulTransactions =
        tracker.successfulTransactions ++ log ∧
      server.mirrored.map Prod.snd = log.map fun transaction => ascii "0" ++ transaction.data

variable {deployment}

/-- One message is sent for every entry of the log. -/
theorem sent_eq (deployment : Deployment) (requests : List Bytes) (tracker : Tracker) :
    ∃ log,
      (deployment.served tracker requests).successfulTransactions =
          tracker.successfulTransactions ++ log ∧
        deployment.sent tracker requests =
          log.map fun transaction => ascii "0" ++ transaction.data := by
  induction requests generalizing tracker with
  | nil => exact ⟨[], (List.append_nil _).symm, rfl⟩
  | cons data requests ih =>
      have step := processData_tracker (deployment.platform .left) tracker
        (deployment.config .left) 49 data
      have mirrored := processData_mirrored (deployment.platform .left) tracker
        (deployment.config .left) 49 data
      rw [if_pos rfl] at mirrored
      let next := (processData (deployment.platform .left) (deployment.config .left) tracker
        Network.reliable (49 :: data)).tracker
      obtain ⟨log, log_eq, messages⟩ := ih next
      refine ⟨(recorded (deployment.platform .left) tracker data).toList ++ log, ?_, ?_⟩
      · change (deployment.served next requests).successfulTransactions = _
        rw [log_eq, ← List.append_assoc]
        exact congrArg (· ++ log) (congrArg Tracker.successfulTransactions step)
      · change List.map Prod.snd (processData (deployment.platform .left) (deployment.config .left)
          tracker Network.reliable (49 :: data)).mirrored ++ deployment.sent next requests = _
        rw [mirrored, messages, List.map_append]
        cases recorded (deployment.platform .left) tracker data with
        | none => rfl
        | some transaction =>
            rw [Option.elim_some, mirror_eq]
            rfl

end Deployment

/-- Mirroring with one writer loses and reorders nothing, if every mirror connection
finds a free place at the server, and whatever a round finds ready on one is a whole
message whose predecessors come first. -/
theorem mirroring_exact (deployment : Deployment) (tracker : Tracker) (requests : List Bytes)
    (uneven : ∀ message ∈ deployment.sent tracker requests, message.length % bufferSize ≠ 0)
    (listener : Nat) (events : List ServerEvent)
    (genuine : (Server.start listener 2).Along
      (Server.Genuine (deployment.sent tracker requests)) events)
    (orderly : (Server.start listener 2).Along
      (Server.Orderly (deployment.sent tracker requests)) events)
    (handled : ((Server.start listener 2).run events).Handled (deployment.sent tracker requests)) :
    deployment.Mirrors tracker requests ((Server.start listener 2).run events) := by
  obtain ⟨log, log_eq, messages⟩ := deployment.sent_eq requests tracker
  refine ⟨log, log_eq, ?_⟩
  rw [← messages]
  exact Server.mirrored_eq_sent listener 2 uneven events genuine orderly handled

def twoUsers : List Bytes :=
  [ascii "17 create_user ann pw", ascii "17 create_user bob pw"]

/-- The second connection is accepted before the first one is read. -/
def inOrder : List ServerEvent :=
  [.connect (.mirror 0), .connect (.mirror 1),
    .select, .serve 5 [] false,
    .arrive (.mirror 0) { arrives := ascii "017 create_user ann pw", closes := true },
    .arrive (.mirror 1) { arrives := ascii "017 create_user bob pw" },
    .select, .serve 6 [] false, .serve 0 [{}] false,
    .select, .serve 0 [{}] false, .serve 0 [{}] false,
    .arrive (.mirror 1) { closes := true },
    .select, .serve 0 [{}] false]

theorem mirroring_exact_inOrder :
    neighbours.Mirrors Tracker.empty twoUsers ((Server.start 3 2).run inOrder) :=
  mirroring_exact neighbours Tracker.empty twoUsers (by decide +kernel) 3 inOrder
    (by decide +kernel) (by decide +kernel) (by decide +kernel)

/-- What is mirrored has to be the log of an empty tracker. -/
theorem Deployment.Mirrors.messages {deployment : Deployment} {requests : List Bytes}
    {server : Server} (mirrors : deployment.Mirrors Tracker.empty requests server) :
    server.mirrored.map Prod.snd =
      (deployment.served Tracker.empty requests).successfulTransactions.map
        fun transaction => ascii "0" ++ transaction.data := by
  rcases mirrors with ⟨log, log_eq, messages⟩
  have same : (deployment.served Tracker.empty requests).successfulTransactions = log := log_eq
  rw [same, messages]

/-- Two other clients are connected when a mirror connection comes in. -/
def crowded : List ServerEvent :=
  [.connect (.other 0), .select, .serve 4 [] false,
    .connect (.other 1), .select, .serve 5 [] false,
    .connect (.mirror 0),
    .arrive (.mirror 0) { arrives := ascii "017 create_user ann pw", closes := true },
    .select, .serve 6 [] false]

/-- The second of two connections has the smaller descriptor. -/
def swapped : List ServerEvent :=
  [.connect (.mirror 0), .select, .serve 5 [] false,
    .connect (.mirror 1), .select, .serve 4 [] false,
    .arrive (.mirror 0) { arrives := ascii "017 create_user ann pw", closes := true },
    .arrive (.mirror 1) { arrives := ascii "017 create_user bob pw", closes := true },
    .select, .serve 0 [{}] false, .serve 0 [{}] false,
    .select, .serve 0 [{}] false, .serve 0 [{}] false]

/-- A message arrives in two pieces. -/
def inPieces : List ServerEvent :=
  [.connect (.mirror 0), .select, .serve 4 [] false,
    .arrive (.mirror 0) { arrives := ascii "017 create_user an" },
    .select, .serve 0 [{}] false,
    .arrive (.mirror 0) { arrives := ascii "n pw", closes := true },
    .select, .serve 0 [{}] false, .select, .serve 0 [{}] false]

/-- The system can produce a run after which all connections have been handled, and yet
what was passed on is not what was recorded. -/
def Deployment.Garbles (deployment : Deployment) (requests : List Bytes)
    (events : List ServerEvent) : Prop :=
  (Server.start 3 2).Along (Server.Genuine (deployment.sent Tracker.empty requests)) events ∧
    ((Server.start 3 2).run events).Handled (deployment.sent Tracker.empty requests) ∧
    ¬deployment.Mirrors Tracker.empty requests ((Server.start 3 2).run events)

/-- A crowded server loses a message, a server reads connections in the order of their
descriptors, and a message that arrives in pieces is passed on in pieces. -/
theorem mirroring_garbled :
    neighbours.Garbles (twoUsers.take 1) crowded ∧ neighbours.Garbles twoUsers swapped ∧
      neighbours.Garbles (twoUsers.take 1) inPieces := by
  refine ⟨⟨by decide +kernel, by decide +kernel, ?_⟩, ⟨by decide +kernel, by decide +kernel, ?_⟩,
    by decide +kernel, by decide +kernel, ?_⟩
  · intro mirrors
    exact absurd mirrors.messages (by decide +kernel)
  · intro mirrors
    exact absurd mirrors.messages (by decide +kernel)
  · intro mirrors
    exact absurd mirrors.messages (by decide +kernel)

end P2PFileShare
