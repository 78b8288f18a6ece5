import Mathlib.Data.Finset.Range
import Mathlib.Data.Finset.Card
import P2PFileShare.Network.Descriptors

/-!
# How many descriptors are lost

A descriptor that is overwritten stays open until the process ends.  So the operations that
overwrite one can be counted by what is open, and the kernel's limit on open descriptors is a
limit on how many connections a process can accept in its life.
-/

namespace P2PFileShare

open Container

/-- The kernel issues only numbers below the limit. -/
def SocketEvent.Below (limit : Nat) : SocketEvent → Prop
  | .construct _ socket => ∀ fd ∈ socket, fd < limit
  | .accept _ _ socket connection => (∀ fd ∈ socket, fd < limit) ∧ ∀ fd ∈ connection, fd < limit
  | _ => True

/-- The operation is an `accept` that has come as far as `::accept`. -/
def SocketEvent.accepts : SocketEvent → Bool
  | .accept _ _ socket _ => socket.isSome
  | _ => false

namespace Descriptors

/-- How many operations of a sequence overwrite a descriptor. -/
def losses : Descriptors → List SocketEvent → Nat
  | _, [] => 0
  | descriptors, event :: events =>
      (if (descriptors.lost event).isSome then 1 else 0) + losses (descriptors.step event) events

/-- The open descriptors that no object holds. -/
def Orphans (descriptors : Descriptors) (orphans : Finset Nat) : Prop :=
  ∀ fd, fd ∈ orphans ↔ descriptors.ledger.Leaked fd

section Counting

variable {descriptors : Descriptors} {event : SocketEvent} {events : List SocketEvent}
  {orphans : Finset Nat} {limit : Nat}

/-- What is overwritten was not lost before. -/
theorem not_leaked_of_lost (possible : descriptors.Possible event) {fd : Nat}
    (lost : descriptors.lost event = some fd) : ¬descriptors.ledger.Leaked fd := by
  rintro ⟨issued, abandoned⟩
  cases event with
  | accept listener client socket connection => exact possible.2.2.1 fd lost issued
  | moveAssign target source => exact abandoned target lost
  | construct object socket => cases lost
  | moveConstruct object source => cases lost
  | disconnect object => cases lost
  | destroy object => cases lost

/-- An operation adds what it overwrites to the orphans. -/
theorem Orphans.step (isOrphans : descriptors.Orphans orphans) (sound : descriptors.Sound)
    (possible : descriptors.Possible event) :
    ∃ after, (descriptors.step event).Orphans after ∧
      after.card = orphans.card + if (descriptors.lost event).isSome then 1 else 0 := by
  cases lost : descriptors.lost event with
  | none =>
      refine ⟨orphans, ?_, rfl⟩
      intro fd
      rw [leaked_step_iff sound possible, lost, isOrphans fd]
      simp
  | some fd =>
      refine ⟨insert fd orphans, ?_, ?_⟩
      · intro other
        rw [leaked_step_iff sound possible, lost, Finset.mem_insert, isOrphans other,
          Option.some.injEq, eq_comm, or_comm]
      · apply Finset.card_insert_of_notMem
        rw [isOrphans fd]
        exact not_leaked_of_lost possible lost

theorem Orphans.run (isOrphans : descriptors.Orphans orphans) (sound : descriptors.Sound)
    (possible : descriptors.PossibleRun events) :
    ∃ after, (descriptors.run events).Orphans after ∧
      after.card = orphans.card + descriptors.losses events := by
  induction events generalizing descriptors orphans with
  | nil => exact ⟨orphans, isOrphans, rfl⟩
  | cons event events ih =>
      rcases possible with ⟨first, others⟩
      obtain ⟨middle, isMiddle, one⟩ := isOrphans.step sound first
      obtain ⟨after, isAfter, more⟩ := ih isMiddle (sound.step first) others
      refine ⟨after, isAfter, ?_⟩
      rw [more, one, losses, Nat.add_assoc]

/-- To return a handle opens nothing. -/
theorem issued_release {ledger : Ledger Nat Nat} (holder : Nat) :
    (ledger.release holder).issued ⊆ ledger.issued := by
  simp only [Ledger.release]
  split
  · exact Finset.erase_subset _ _
  · exact Finset.Subset.refl _

/-- Everything that is open was issued below the limit. -/
theorem issued_step (below : event.Below limit)
    (small : ∀ fd ∈ descriptors.ledger.issued, fd < limit) :
    ∀ fd ∈ (descriptors.step event).ledger.issued, fd < limit := by
  cases event with
  | construct object socket =>
      cases socket with
      | none => exact small
      | some own => exact (Finset.forall_mem_insert _ _ _).mpr ⟨below own rfl, small⟩
  | accept listener client socket connection =>
      rcases below with ⟨ofSocket, ofConnection⟩
      cases socket with
      | none => exact small
      | some own =>
          have constructed : ∀ fd ∈ (descriptors.construct client (some own)).ledger.issued,
              fd < limit := (Finset.forall_mem_insert _ _ _).mpr ⟨ofSocket own rfl, small⟩
          cases connection with
          | some other =>
              exact (Finset.forall_mem_insert _ _ _).mpr ⟨ofConnection other rfl, constructed⟩
          | none =>
              have forgotten : (((descriptors.construct client (some own)).ledger.forget
                  client).release client).issued ⊆
                    (descriptors.construct client (some own)).ledger.issued := issued_release client
              exact fun fd member => constructed fd (forgotten member)
  | moveConstruct object source => exact small
  | moveAssign target source => exact small
  | disconnect object => exact fun fd member => small fd (issued_release object member)
  | destroy object => exact fun fd member => small fd (issued_release object member)

theorem issued_run (below : ∀ event ∈ events, event.Below limit)
    (small : ∀ fd ∈ descriptors.ledger.issued, fd < limit) :
    ∀ fd ∈ (descriptors.run events).ledger.issued, fd < limit := by
  induction events generalizing descriptors with
  | nil => exact small
  | cons event events ih =>
      rcases List.forall_mem_cons.mp below with ⟨first, others⟩
      exact ih others (issued_step first small)

/-- Whoever accepts overwrites a descriptor. -/
theorem accepts_le_losses (events : List SocketEvent) :
    events.countP SocketEvent.accepts ≤ descriptors.losses events := by
  induction events generalizing descriptors with
  | nil => exact Nat.zero_le _
  | cons event events ih =>
      rw [List.countP_cons, losses, Nat.add_comm]
      apply Nat.add_le_add _ ih
      cases event with
      | accept listener client socket connection => exact Nat.le_refl _
      | construct object socket => exact Nat.zero_le _
      | moveConstruct object source => exact Nat.zero_le _
      | moveAssign target source => exact Nat.zero_le _
      | disconnect object => exact Nat.zero_le _
      | destroy object => exact Nat.zero_le _

end Counting

/-- Descriptors are lost one by one and never come back.  After any sequence of operations on
sockets the open descriptors that nobody holds are as many as there were operations that
overwrote one, so that where the kernel issues numbers below a limit, no process gets past as
many connections accepted as the limit says, however soon each of them is closed. -/
theorem lost_one_by_one (events : List SocketEvent) (possible : empty.PossibleRun events)
    (limit : Nat) (below : ∀ event ∈ events, event.Below limit) :
    ∃ orphans : Finset Nat, (empty.run events).Orphans orphans ∧
      orphans.card = empty.losses events ∧
      events.countP SocketEvent.accepts ≤ orphans.card ∧ orphans.card ≤ limit := by
  have none : empty.Orphans ∅ := fun fd =>
    iff_of_false (Finset.notMem_empty fd) (Ledger.not_leaked_empty fd)
  obtain ⟨orphans, isOrphans, count⟩ := none.run sound_empty possible
  rw [Finset.card_empty, Nat.zero_add] at count
  refine ⟨orphans, isOrphans, count, count ▸ accepts_le_losses events, ?_⟩
  have small := issued_run below (fun fd (member : fd ∈ empty.ledger.issued) =>
    absurd member (Finset.notMem_empty fd))
  have inRange : orphans ⊆ Finset.range limit := fun fd member =>
    Finset.mem_range.mpr (small fd ((isOrphans fd).mp member).1)
  calc orphans.card ≤ (Finset.range limit).card := Finset.card_le_card inRange
    _ = limit := Finset.card_range limit

/-- Two connections, one after the other, each of which is closed and destroyed. -/
def twoCallers : List SocketEvent :=
  [.construct 0 (some 3), .accept 0 1 (some 4) (some 5), .disconnect 1, .destroy 1,
    .accept 0 2 (some 5) (some 6), .disconnect 2, .destroy 2]

theorem lost_one_by_one_twoCallers : ∃ orphans : Finset Nat,
    (empty.run twoCallers).Orphans orphans ∧ orphans.card = 2 ∧ orphans.card ≤ 7 := by
  have below : ∀ event ∈ twoCallers, event.Below 7 := by
    simp [twoCallers, SocketEvent.Below]
  obtain ⟨orphans, isOrphans, count, _, bounded⟩ :=
    lost_one_by_one twoCallers (by decide) 7 below
  exact ⟨orphans, isOrphans, count, bounded⟩

end Descriptors

end P2PFileShare
