import Mathlib.Logic.Function.Basic
import Mathlib.Data.List.Basic

/-!
# Two replicas without coordination

Each of two replicas executes the operations issued at it at once and sends them
to the other one, which executes them when they arrive.  Operations that cross on
the way are executed in different orders.  If every operation is independent of
those that it crosses, the replicas agree as soon as nothing is on the way.

Whether two operations are independent may depend on the state: of an operation
and those on the way it is asked in the state in which they meet.  An operation is
settled in a state if the state determines what it does there; independent
operations keep each other settled.
-/

namespace P2PFileShare.Transition

/-- One of the two replicas. -/
inductive Side
  | left
  | right
  deriving DecidableEq

namespace Side

def other : Side → Side
  | left => right
  | right => left

@[simp]
theorem other_other (side : Side) : side.other.other = side := by
  cases side <;> rfl

theorem other_ne (side : Side) : side.other ≠ side := by
  cases side <;> decide

theorem eq_or_eq_other (side place : Side) : place = side ∨ place = side.other := by
  cases side <;> cases place <;> decide

end Side

/-- Operations with their independence. -/
structure Crossing (σ ω : Type) where
  apply : σ → ω → σ
  Settled : σ → ω → Prop
  Independent : σ → ω → ω → Prop
  symm : ∀ {state : σ} {first second : ω}, Independent state first second →
    Independent state second first
  comm : ∀ {state : σ} {first second : ω}, Independent state first second →
    apply (apply state first) second = apply (apply state second) first
  settled_apply : ∀ {state : σ} {first second : ω}, Independent state first second →
    Settled state first → Settled (apply state second) first

namespace Crossing

variable {σ ω : Type} (crossing : Crossing σ ω)

/-- The state after the operations on the way. -/
def applyAll (state : σ) (operations : List ω) : σ :=
  operations.foldl crossing.apply state

/-- Every operation is settled when its turn comes. -/
def AllSettled : σ → List ω → Prop
  | _, [] => True
  | state, operation :: operations =>
      crossing.Settled state operation ∧ AllSettled (crossing.apply state operation) operations

/-- An operation is independent of those on the way, of each in the state in which it
arrives. -/
def Crosses (operation : ω) : σ → List ω → Prop
  | _, [] => True
  | state, crossed :: operations =>
      crossing.Independent state operation crossed ∧
        Crosses operation (crossing.apply state crossed) operations

instance decidableCrosses
    [∀ state first second, Decidable (crossing.Independent state first second)]
    (operation : ω) : (state : σ) → (operations : List ω) →
      Decidable (crossing.Crosses operation state operations)
  | _, [] => isTrue trivial
  | state, crossed :: operations =>
      have := decidableCrosses operation (crossing.apply state crossed) operations
      inferInstanceAs (Decidable (_ ∧ _))

section Queue

variable {crossing} {state : σ} {operation : ω} {operations : List ω}

theorem applyAll_append :
    crossing.applyAll state (operations ++ [operation]) =
      crossing.apply (crossing.applyAll state operations) operation := by
  rw [applyAll, List.foldl_append]
  rfl

theorem allSettled_append :
    crossing.AllSettled state (operations ++ [operation]) ↔
      crossing.AllSettled state operations ∧
        crossing.Settled (crossing.applyAll state operations) operation := by
  induction operations generalizing state with
  | nil =>
      simp only [List.nil_append, AllSettled, and_true, true_and]
      rfl
  | cons first operations ih =>
      simp only [List.cons_append, AllSettled, ih, and_assoc]
      rfl

/-- An operation may be executed before those that it crosses, or behind them. -/
theorem applyAll_apply (crosses : crossing.Crosses operation state operations) :
    crossing.applyAll (crossing.apply state operation) operations =
      crossing.apply (crossing.applyAll state operations) operation := by
  induction operations generalizing state with
  | nil => rfl
  | cons first operations ih =>
      rcases crosses with ⟨here, others⟩
      change
        crossing.applyAll (crossing.apply (crossing.apply state operation) first) operations = _
      rw [crossing.comm here, ih others]
      rfl

/-- The operations on the way stay settled. -/
theorem AllSettled.apply (settled : crossing.AllSettled state operations)
    (crosses : crossing.Crosses operation state operations) :
    crossing.AllSettled (crossing.apply state operation) operations := by
  induction operations generalizing state with
  | nil => trivial
  | cons first operations ih =>
      rcases crosses with ⟨here, others⟩
      constructor
      · exact crossing.settled_apply (crossing.symm here) settled.1
      · rw [crossing.comm here]
        exact ih settled.2 others

/-- And so does the operation behind them. -/
theorem settled_applyAll (settled : crossing.Settled state operation)
    (crosses : crossing.Crosses operation state operations) :
    crossing.Settled (crossing.applyAll state operations) operation := by
  induction operations generalizing state with
  | nil => exact settled
  | cons first operations ih =>
      rcases crosses with ⟨here, others⟩
      exact ih (crossing.settled_apply here settled) others

end Queue

/-- The two replicas, and the operations on the way to each of them. -/
structure Replicas (σ ω : Type) where
  state : Side → σ
  inbox : Side → List ω

/-- What can happen: an operation is issued at one replica, or the oldest one on
the way to a replica arrives. -/
inductive Step : Replicas σ ω → Replicas σ ω → Prop
  | issue {replicas : Replicas σ ω} (side : Side) (operation : ω)
      (settled : crossing.Settled (replicas.state side) operation)
      (crosses : crossing.Crosses operation (replicas.state side) (replicas.inbox side)) :
      Step replicas
        { state := Function.update replicas.state side
            (crossing.apply (replicas.state side) operation)
          inbox := Function.update replicas.inbox side.other
            (replicas.inbox side.other ++ [operation]) }
  | deliver {replicas : Replicas σ ω} (side : Side) {operation : ω} {operations : List ω}
      (arrives : replicas.inbox side = operation :: operations) :
      Step replicas
        { state := Function.update replicas.state side
            (crossing.apply (replicas.state side) operation)
          inbox := Function.update replicas.inbox side operations }

/-- The replicas agree on the state that they will be in when everything has
arrived. -/
structure Converging (replicas : Replicas σ ω) : Prop where
  agree : ∀ side, crossing.applyAll (replicas.state side) (replicas.inbox side) =
    crossing.applyAll (replicas.state side.other) (replicas.inbox side.other)
  settled : ∀ side, crossing.AllSettled (replicas.state side) (replicas.inbox side)

variable {crossing} {replicas next : Replicas σ ω}

theorem Converging.of_eq {state : Side → σ} (equal : ∀ side, state side = state side.other) :
    crossing.Converging { state, inbox := fun _ => [] } where
  agree := equal
  settled := fun _ => trivial

/-- What is the same from both sides need only be shown from one. -/
theorem agree_of_side {final : Side → σ} (side : Side) (same : final side = final side.other) :
    ∀ place, final place = final place.other := by
  intro place
  rcases side.eq_or_eq_other place with rfl | rfl
  · exact same
  · rw [Side.other_other]
    exact same.symm

theorem Step.converging (step : crossing.Step replicas next)
    (converging : crossing.Converging replicas) : crossing.Converging next := by
  rcases converging with ⟨agree, settled⟩
  cases step with
  | issue side operation ready crosses =>
      have behind := settled_applyAll ready crosses
      constructor
      · apply agree_of_side side
        simp only [Function.update_self, Function.update_of_ne side.other_ne,
          Function.update_of_ne side.other_ne.symm]
        rw [applyAll_apply crosses, applyAll_append, agree side]
      · intro place
        rcases side.eq_or_eq_other place with rfl | rfl
        · simp only [Function.update_self, Function.update_of_ne place.other_ne.symm]
          exact (settled place).apply crosses
        · simp only [Function.update_self, Function.update_of_ne side.other_ne]
          rw [agree side] at behind
          exact allSettled_append.mpr ⟨settled side.other, behind⟩
  | @deliver side operation operations arrives =>
      have agreeHere := agree side
      have settledHere := settled side
      rw [arrives] at agreeHere settledHere
      constructor
      · apply agree_of_side side
        simp only [Function.update_self, Function.update_of_ne side.other_ne]
        exact agreeHere
      · intro place
        rcases side.eq_or_eq_other place with rfl | rfl
        · simp only [Function.update_self]
          exact settledHere.2
        · simp only [Function.update_of_ne side.other_ne]
          exact settled side.other

/-- With nothing on the way, the replicas are in one state. -/
theorem Converging.state_eq (converging : crossing.Converging replicas)
    (quiescent : ∀ side, replicas.inbox side = []) (side : Side) :
    replicas.state side = replicas.state side.other := by
  have agree := converging.agree side
  rw [quiescent, quiescent] at agree
  exact agree

/-- An operation that arrives is settled. -/
theorem Converging.settled_head (converging : crossing.Converging replicas) {side : Side}
    {operation : ω} {operations : List ω}
    (arrives : replicas.inbox side = operation :: operations) :
    crossing.Settled (replicas.state side) operation := by
  have settled := converging.settled side
  rw [arrives] at settled
  exact settled.1

end Crossing

end P2PFileShare.Transition
