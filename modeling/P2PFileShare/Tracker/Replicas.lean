import P2PFileShare.Tracker.Deployment
import P2PFileShare.Tracker.SummaryRefinement

/-!
# Two trackers

Each of two trackers serves clients, and mirrors what succeeds to the other one.
A mirrored request is validated again where it arrives, so requests that cross on
the way need not lead to one state.  If every request commutes with those that it
crosses, the trackers agree whenever nothing is on the way.
-/

namespace P2PFileShare

open Text Transition

/-- The trackers, and the messages in flight to each of them. -/
structure Trackers where
  tracker : Side → Tracker
  inbox : Side → List Bytes := fun _ => []

/-- A client sends a request to one tracker, or the oldest message in flight to a
tracker arrives. -/
inductive Action
  | request (side : Side) (data : Bytes)
  | arrival (side : Side)

namespace Deployment

variable (deployment : Deployment)

/-- A tracker handles a message; what it mirrors is sent to the other one. -/
def receive (trackers : Trackers) (side : Side) (message : Bytes) : Trackers :=
  let served := processData (deployment.platform side) (deployment.config side)
    (trackers.tracker side) Network.reliable message
  { tracker := Function.update trackers.tracker side served.tracker
    inbox := Function.update trackers.inbox side.other
      (trackers.inbox side.other ++ served.mirrored.map Prod.snd) }

def step (trackers : Trackers) : Action → Trackers
  | .request side data => deployment.receive trackers side (ascii "1" ++ data)
  | .arrival side =>
      match trackers.inbox side with
      | [] => trackers
      | message :: messages =>
          deployment.receive
            { trackers with inbox := Function.update trackers.inbox side messages } side message

def run (trackers : Trackers) (actions : List Action) : Trackers :=
  actions.foldl deployment.step trackers

/-! ## Requests that may cross -/

/-- The operation that a tracker decodes a request to. -/
def operation (side : Side) (data : Bytes) : Option Operation :=
  (parseRequest (deployment.platform side) data).map fun transaction =>
    { origin := transaction.origin, command := command (deployment.platform side) transaction }

/-- The operations of the messages in flight to a tracker. -/
def arriving (trackers : Trackers) (side : Side) : List Operation :=
  (trackers.inbox side).filterMap fun message => deployment.operation side (message.drop 1)

/-- A request that succeeds is decoded alike by both trackers, does not leave
open whom it accepts, and is independent of the messages in flight to the
tracker that it was sent to, of each in the state in which it will arrive. -/
structure Crosses (trackers : Trackers) (side : Side) (data : Bytes) : Prop where
  alike : deployment.operation side.other data = deployment.operation side data
  settled : ∀ operation ∈ deployment.operation side data,
    (trackers.tracker side).directory.summary.Settled operation
  independent : ∀ operation ∈ deployment.operation side data,
    Summary.crossing.Crosses operation (trackers.tracker side).directory.summary
      (deployment.arriving trackers side)

instance (trackers : Trackers) (side : Side) (data : Bytes) :
    Decidable (deployment.Crosses trackers side data) :=
  decidable_of_iff
    (deployment.operation side.other data = deployment.operation side data ∧
      (∀ operation ∈ deployment.operation side data,
        (trackers.tracker side).directory.summary.Settled operation) ∧
      ∀ operation ∈ deployment.operation side data,
        Summary.crossing.Crosses operation (trackers.tracker side).directory.summary
          (deployment.arriving trackers side))
    ⟨fun ⟨alike, settled, independent⟩ => ⟨alike, settled, independent⟩,
      fun ⟨alike, settled, independent⟩ => ⟨alike, settled, independent⟩⟩

def Compatible (trackers : Trackers) : Action → Prop
  | .request side data =>
      recorded (deployment.platform side) (trackers.tracker side) data ≠ none →
        deployment.Crosses trackers side data
  | .arrival _ => True

/-- Every request of a run is compatible where it is sent. -/
def CompatibleRun : Trackers → List Action → Prop
  | _, [] => True
  | trackers, action :: actions =>
      deployment.Compatible trackers action ∧
        CompatibleRun (deployment.step trackers action) actions

instance (trackers : Trackers) :
    (action : Action) → Decidable (deployment.Compatible trackers action)
  | .request side data =>
      inferInstanceAs (Decidable
        (recorded (deployment.platform side) (trackers.tracker side) data ≠ none → _))
  | .arrival _ => isTrue trivial

instance decidableCompatibleRun :
    (trackers : Trackers) → (actions : List Action) →
      Decidable (deployment.CompatibleRun trackers actions)
  | _, [] => isTrue trivial
  | trackers, action :: actions =>
      have := decidableCompatibleRun (deployment.step trackers action) actions
      inferInstanceAs (Decidable (_ ∧ _))

/-! ## The trackers as replicas -/

/-- A message carries an operation that both trackers decode alike. -/
def Carries (message : Bytes) (operation : Operation) : Prop :=
  ∃ data, message = ascii "0" ++ data ∧ ∀ side, deployment.operation side data = some operation

/-- Two trackers as two replicas of the summary. -/
structure Represents (trackers : Trackers) (replicas : Crossing.Replicas Summary Operation) :
    Prop where
  valid : ∀ side, (trackers.tracker side).Valid
  state : ∀ side, replicas.state side = (trackers.tracker side).directory.summary
  inbox : ∀ side, List.Forall₂ deployment.Carries (trackers.inbox side) (replicas.inbox side)

end Deployment

/-! ## One message -/

section Message

variable {platform : Platform} {tracker : Tracker} {data : Bytes}

/-- A settled request does to the summary what its operation says. -/
theorem handled_summary (valid : tracker.Valid) {transaction : Transaction}
    (parsing : parseRequest platform data = some transaction)
    (settled : tracker.directory.summary.Settled
      { origin := transaction.origin, command := command platform transaction }) :
    (handled platform tracker data).directory.summary =
      tracker.directory.summary.apply
        { origin := transaction.origin, command := command platform transaction } := by
  have step := congrArg Prod.snd (handle_exec platform valid transaction)
  simp only at step
  simp only [handled, parsing, step]
  exact Directory.exec_summary (tracker.picks_picked platform _) settled

/-- A request that fails does nothing to the summary. -/
theorem handled_summary_of_unrecorded (valid : tracker.Valid)
    (record : recorded platform tracker data = none) :
    (handled platform tracker data).directory.summary = tracker.directory.summary := by
  simp only [handled]
  cases parsing : parseRequest platform data with
  | none => rfl
  | some transaction =>
      have step := handle_exec platform valid transaction
      have failure := congrArg Prod.fst step
      simp only [recorded_eq_none record parsing] at failure
      have after := congrArg Prod.snd step
      simp only at after
      simp only [after]
      exact Directory.exec_summary_of_failure failure.symm

end Message

namespace Deployment

variable {deployment : Deployment} {trackers : Trackers}
  {replicas : Crossing.Replicas Summary Operation}

/-- One tracker and one inbox change. -/
theorem Represents.update (represents : deployment.Represents trackers replicas) (side place : Side)
    {after : Tracker} {state : Summary} {messages : List Bytes} {operations : List Operation}
    (valid : after.Valid) (same : state = after.directory.summary)
    (carried : List.Forall₂ deployment.Carries messages operations) :
    deployment.Represents
      { tracker := Function.update trackers.tracker side after
        inbox := Function.update trackers.inbox place messages }
      { state := Function.update replicas.state side state
        inbox := Function.update replicas.inbox place operations } := by
  constructor
  · intro other
    by_cases here : other = side
    · subst here
      simp only [Function.update_self]
      exact valid
    · simp only [Function.update_of_ne here]
      exact represents.valid other
  · intro other
    by_cases here : other = side
    · subst here
      simp only [Function.update_self]
      exact same
    · simp only [Function.update_of_ne here]
      exact represents.state other
  · intro other
    by_cases here : other = place
    · subst here
      simp only [Function.update_self]
      exact carried
    · simp only [Function.update_of_ne here]
      exact represents.inbox other

/-- What a tracker becomes, and what it sends to the other one. -/
theorem receive_eq (side : Side) (flag : UInt8) (data : Bytes) :
    deployment.receive trackers side (flag :: data) =
      { tracker := Function.update trackers.tracker side
          { handled (deployment.platform side) (trackers.tracker side) data with
            successfulTransactions := (trackers.tracker side).successfulTransactions ++
              (recorded (deployment.platform side) (trackers.tracker side) data).toList }
        inbox := Function.update trackers.inbox side.other (trackers.inbox side.other ++
          if flag = 49 then
            (recorded (deployment.platform side) (trackers.tracker side) data).toList.map
              fun transaction => ascii "0" ++ transaction.data
          else []) } := by
  simp only [receive, processData_tracker, processData_mirrored, mirror_eq]
  cases recorded (deployment.platform side) (trackers.tracker side) data with
  | none => simp
  | some transaction => split <;> simp

/-- What is in flight are the operations of the replica. -/
theorem Represents.arriving_eq (represents : deployment.Represents trackers replicas)
    (side : Side) :
    deployment.arriving trackers side = replicas.inbox side := by
  have carried := represents.inbox side
  rw [arriving]
  generalize trackers.inbox side = messages at carried
  generalize replicas.inbox side = operations at carried
  induction carried with
  | nil => rfl
  | @cons message operation _ _ carries _ ih =>
      have first : deployment.operation side (message.drop 1) = some operation := by
        obtain ⟨data, rfl, decoded⟩ := carries
        exact decoded side
      rw [List.filterMap_cons, first, ih]

/-- A request of a client is issued at its replica, unless it fails. -/
theorem Represents.request (represents : deployment.Represents trackers replicas) {side : Side}
    {data : Bytes} (compatible : deployment.Compatible trackers (.request side data)) :
    ∃ next, deployment.Represents (deployment.step trackers (.request side data)) next ∧
      (next = replicas ∨ Summary.crossing.Step replicas next) := by
  have valid := handled_valid (deployment.platform side) (represents.valid side) data
  have inbox := represents.inbox side.other
  change ∃ next, deployment.Represents (deployment.receive trackers side (49 :: data)) next ∧ _
  rw [receive_eq, if_pos rfl]
  cases record : recorded (deployment.platform side) (trackers.tracker side) data with
  | none =>
      have same := handled_summary_of_unrecorded (represents.valid side) record
      refine ⟨_, represents.update side side.other valid same.symm (by simpa using inbox),
        Or.inl ?_⟩
      rw [← represents.state side, Function.update_eq_self, Function.update_eq_self]
  | some transaction =>
      obtain ⟨alike, settled, independent⟩ :=
        compatible (by rw [record]; exact Option.some_ne_none _)
      obtain ⟨data_eq, parsed, parsing, _⟩ := recorded_eq_some record
      let operation : Operation :=
        { origin := parsed.origin, command := command (deployment.platform side) parsed }
      have decoded : deployment.operation side data = some operation := by
        rw [Deployment.operation, parsing]
        rfl
      have ready := settled operation decoded
      have same := handled_summary (represents.valid side) parsing ready
      have carries : deployment.Carries (ascii "0" ++ transaction.data) operation := by
        refine ⟨data, by rw [data_eq], ?_⟩
        intro place
        rcases side.eq_or_eq_other place with rfl | rfl
        · exact decoded
        · exact alike.trans decoded
      refine ⟨_, represents.update side side.other valid same.symm
        (List.rel_append inbox (List.Forall₂.cons carries .nil)), Or.inr ?_⟩
      rw [← represents.state side] at ready ⊢
      have crosses := independent operation decoded
      rw [represents.arriving_eq, ← represents.state side] at crosses
      exact Crossing.Step.issue side operation ready crosses

/-- The oldest message is delivered to its replica. -/
theorem Represents.arrival (represents : deployment.Represents trackers replicas)
    (converging : Summary.crossing.Converging replicas) (side : Side) :
    ∃ next, deployment.Represents (deployment.step trackers (.arrival side)) next ∧
      (next = replicas ∨ Summary.crossing.Step replicas next) := by
  have inbox := represents.inbox side
  simp only [step]
  cases arrived : trackers.inbox side with
  | nil => exact ⟨replicas, represents, Or.inl rfl⟩
  | cons message messages =>
      rw [arrived] at inbox
      cases waiting : replicas.inbox side with
      | nil =>
          rw [waiting] at inbox
          cases inbox
      | cons operation operations =>
          rw [waiting] at inbox
          rcases List.forall₂_cons.mp inbox with ⟨carries, others⟩
          rcases carries with ⟨data, rfl, carried⟩
          rcases Option.map_eq_some_iff.mp (carried side) with ⟨parsed, parsing, rfl⟩
          have ready := converging.settled_head waiting
          rw [represents.state side] at ready
          have valid := handled_valid (deployment.platform side) (represents.valid side) data
          have same := handled_summary (represents.valid side) parsing ready
          refine ⟨_, ?_, Or.inr (.deliver side waiting)⟩
          change deployment.Represents (deployment.receive _ side (48 :: data)) _
          rw [receive_eq, if_neg (by decide), List.append_nil, Function.update_eq_self,
            represents.state side]
          exact represents.update side side valid same.symm others

/-! ## Whole runs -/

/-- A compatible run keeps the replicas converging. -/
theorem Represents.run (actions : List Action)
    (represents : deployment.Represents trackers replicas)
    (converging : Summary.crossing.Converging replicas)
    (compatible : deployment.CompatibleRun trackers actions) :
    ∃ final, deployment.Represents (deployment.run trackers actions) final ∧
      Summary.crossing.Converging final := by
  induction actions generalizing trackers replicas with
  | nil => exact ⟨replicas, represents, converging⟩
  | cons action actions ih =>
      rcases compatible with ⟨first, others⟩
      have advanced : ∃ next, deployment.Represents (deployment.step trackers action) next ∧
          (next = replicas ∨ Summary.crossing.Step replicas next) := by
        cases action with
        | request side data => exact represents.request first
        | arrival side => exact represents.arrival converging side
      rcases advanced with ⟨next, nextRepresents, rfl | step⟩
      · exact ih nextRepresents converging others
      · exact ih nextRepresents (step.converging converging) others

end Deployment

/-- Two trackers that start with one state hold one state again whenever nothing is
in flight, after every run in which the requests that cross are independent. -/
theorem replicas_agree (deployment : Deployment) (tracker : Side → Tracker)
    (valid : ∀ side, (tracker side).Valid)
    (equal : (tracker .left).directory.summary = (tracker .right).directory.summary)
    (actions : List Action) (compatible : deployment.CompatibleRun { tracker } actions)
    (quiescent : ∀ side, (deployment.run { tracker } actions).inbox side = []) :
    ((deployment.run { tracker } actions).tracker .left).directory.summary =
      ((deployment.run { tracker } actions).tracker .right).directory.summary := by
  have represents : deployment.Represents { tracker }
      { state := fun side => (tracker side).directory.summary, inbox := fun _ => [] } :=
    { valid, state := fun _ => rfl, inbox := fun _ => .nil }
  have converging : Summary.crossing.Converging
      { state := fun side => (tracker side).directory.summary, inbox := fun _ => [] } := by
    apply Crossing.Converging.of_eq
    intro side
    cases side with
    | left => exact equal
    | right => exact equal.symm
  obtain ⟨final, represents, converging⟩ := represents.run actions converging compatible
  have empty : ∀ side, final.inbox side = [] := by
    intro side
    have inbox := represents.inbox side
    rw [quiescent side] at inbox
    exact List.forall₂_nil_left_iff.mp inbox
  have agree := converging.state_eq empty .left
  rw [represents.state, represents.state] at agree
  exact agree

/-! Two accounts that are created at the same time, and two of one name. -/

def twoNames : List Action :=
  [.request .left (ascii "17 create_user ann pw"),
    .request .right (ascii "18 create_user bob pw"),
    .arrival .right,
    .request .right (ascii "18 login ann pw"),
    .arrival .left,
    .arrival .left]

theorem replicas_agree_twoNames :
    ((neighbours.run { tracker := fun _ => Tracker.empty } twoNames).tracker
        .left).directory.summary =
      ((neighbours.run { tracker := fun _ => Tracker.empty } twoNames).tracker
        .right).directory.summary :=
  replicas_agree neighbours (fun _ => Tracker.empty) (fun _ => Tracker.valid_empty) rfl twoNames
    (by decide +kernel) (fun side => by cases side <;> decide +kernel)

def oneName : List Action :=
  [.request .left (ascii "17 create_user ann pw"),
    .request .right (ascii "18 create_user ann pass"),
    .arrival .left,
    .arrival .right]

/-- Each tracker keeps the user that was created there. -/
theorem replicas_differ :
    (∀ side, (neighbours.run { tracker := fun _ => Tracker.empty } oneName).inbox side = []) ∧
      ((neighbours.run { tracker := fun _ => Tracker.empty } oneName).tracker .left).user?
          (ascii "ann") ≠
        ((neighbours.run { tracker := fun _ => Tracker.empty } oneName).tracker .right).user?
          (ascii "ann") := by
  constructor
  · intro side
    cases side <;> decide +kernel
  · decide +kernel

end P2PFileShare
