import P2PFileShare.Container.Ledger

/-!
# Who owns a descriptor

The operations of `TCPSocket` that acquire, hand over or release a descriptor, on any
number of objects.  An object holds a number other than `-1`, or nothing.  The kernel
issues a number that is not open, and `close` takes it back.

Nothing is closed twice, whatever the program does.  A descriptor is lost where one is
overwritten: `accept` lets the constructor of the client open a socket and overwrites
it, and the move assignment overwrites what its target holds.
-/

namespace P2PFileShare

open Container

/-- The open descriptors with the objects that hold them, and the objects that are
alive. -/
structure Descriptors where
  ledger : Ledger Nat Nat
  live : Finset Nat

/-- An operation on objects, with what the kernel answers: the descriptor of a new
socket or connection, or nothing for a failure. -/
inductive SocketEvent
  | construct (object : Nat) (socket : Option Nat)
  | accept (listener client : Nat) (socket connection : Option Nat)
  | moveConstruct (object source : Nat)
  | moveAssign (target source : Nat)
  | disconnect (object : Nat)
  | destroy (object : Nat)
  deriving DecidableEq

namespace Descriptors

def empty : Descriptors where
  ledger := .empty
  live := ∅

variable (descriptors : Descriptors)

/-- `TCPSocket::TCPSocket`.  When `socket` fails the constructor throws, and there is no
object. -/
def construct (object : Nat) : Option Nat → Descriptors
  | some fd =>
      { ledger := descriptors.ledger.acquire object fd, live := insert object descriptors.live }
  | none => descriptors

/-- `TCPSocket::~TCPSocket`. -/
def destroy (object : Nat) : Descriptors where
  ledger := descriptors.ledger.release object
  live := descriptors.live.erase object

/-- `TCPSocket::disconnect`. -/
def disconnect (object : Nat) : Descriptors :=
  { descriptors with ledger := descriptors.ledger.release object }

/-- `TCPSocket::accept`.  `make_unique<TCPSocket>` opens a socket first; the result of
`::accept` is then written over it, be it a connection or `-1`.  In the second case an
exception is thrown, and the client is destroyed on the way. -/
def accept (client : Nat) (socket connection : Option Nat) : Descriptors :=
  match socket, connection with
  | none, _ => descriptors
  | some fd, some connection =>
      let constructed := descriptors.construct client (some fd)
      { constructed with ledger := constructed.ledger.acquire client connection }
  | some fd, none =>
      let constructed := descriptors.construct client (some fd)
      { constructed with ledger := constructed.ledger.forget client }.destroy client

/-- `TCPSocket::TCPSocket(TCPSocket &&)`. -/
def moveConstruct (object source : Nat) : Descriptors where
  ledger := descriptors.ledger.transfer source object
  live := insert object descriptors.live

/-- `TCPSocket::operator=(TCPSocket &&)`. -/
def moveAssign (target source : Nat) : Descriptors :=
  { descriptors with ledger := descriptors.ledger.transfer source target }

def step : SocketEvent → Descriptors
  | .construct object socket => descriptors.construct object socket
  | .accept _ client socket connection => descriptors.accept client socket connection
  | .moveConstruct object source => descriptors.moveConstruct object source
  | .moveAssign target source => descriptors.moveAssign target source
  | .disconnect object => descriptors.disconnect object
  | .destroy object => descriptors.destroy object

/-- The program uses objects that are alive and makes new ones, and the kernel issues
numbers that are not open. -/
def Possible : SocketEvent → Prop
  | .construct object socket =>
      object ∉ descriptors.live ∧ ∀ fd ∈ socket, fd ∉ descriptors.ledger.issued
  | .accept listener client socket connection =>
      listener ∈ descriptors.live ∧ client ∉ descriptors.live ∧
        (∀ fd ∈ socket, fd ∉ descriptors.ledger.issued) ∧
        ∀ fd ∈ connection, fd ∉ descriptors.ledger.issued ∧ some fd ≠ socket
  | .moveConstruct object source => object ∉ descriptors.live ∧ source ∈ descriptors.live
  | .moveAssign target source => target ∈ descriptors.live ∧ source ∈ descriptors.live
  | .disconnect object => object ∈ descriptors.live
  | .destroy object => object ∈ descriptors.live

/-- The descriptor that an operation overwrites. -/
def lost : SocketEvent → Option Nat
  | .accept _ _ socket _ => socket
  | .moveAssign target _ => descriptors.ledger.holding target
  | _ => none

/-- The open descriptors are those that live objects hold, and no two of these hold the
same one. -/
structure Exact : Prop where
  owned : ∀ fd, fd ∈ descriptors.ledger.issued ↔
    ∃ object ∈ descriptors.live, descriptors.ledger.holding object = some fd
  unique : ∀ first ∈ descriptors.live, ∀ second ∈ descriptors.live, ∀ fd,
    descriptors.ledger.holding first = some fd → descriptors.ledger.holding second = some fd →
      first = second

/-- The state after a sequence of operations. -/
def run (descriptors : Descriptors) (events : List SocketEvent) : Descriptors :=
  events.foldl step descriptors

/-- Every operation of a sequence is possible when its turn comes. -/
def PossibleRun : Descriptors → List SocketEvent → Prop
  | _, [] => True
  | descriptors, event :: events =>
      descriptors.Possible event ∧ PossibleRun (descriptors.step event) events

/-- No operation of a sequence overwrites a descriptor. -/
def Careful : Descriptors → List SocketEvent → Prop
  | _, [] => True
  | descriptors, event :: events =>
      descriptors.lost event = none ∧ Careful (descriptors.step event) events

/-- What holds in every state: no descriptor is held by two objects or by one that is
not alive, and only open ones are held. -/
structure Sound : Prop where
  ledger : descriptors.ledger.Sound
  live : ∀ object, object ∉ descriptors.live → descriptors.ledger.holding object = none

section Steps

variable {descriptors} {event : SocketEvent}

theorem Sound.construct (sound : descriptors.Sound) (object : Nat) {fd : Nat}
    (fresh : fd ∉ descriptors.ledger.issued) :
    (descriptors.construct object (some fd)).Sound := by
  constructor
  · exact sound.ledger.acquire fresh object
  · intro other dead
    rcases not_or.mp (mt Finset.mem_insert.mpr dead) with ⟨distinct, notLive⟩
    exact (Function.update_of_ne distinct _ _).trans (sound.live other notLive)

theorem Sound.destroy (sound : descriptors.Sound) (object : Nat) :
    (descriptors.destroy object).Sound := by
  constructor
  · exact sound.ledger.release object
  · intro other dead
    by_cases same : other = object
    · subst same
      exact Function.update_self _ _ _
    · have notLive : other ∉ descriptors.live :=
        fun member => dead (Finset.mem_erase.mpr ⟨same, member⟩)
      exact (Function.update_of_ne same _ _).trans (sound.live other notLive)

/-- Objects that are alive exchange descriptors among themselves. -/
theorem Sound.of_live (sound : descriptors.Sound) {ledger : Ledger Nat Nat}
    (soundLedger : ledger.Sound) {changed : Finset Nat} (alive : changed ⊆ descriptors.live)
    (others : ∀ object ∉ changed, ledger.holding object = descriptors.ledger.holding object) :
    Sound { descriptors with ledger } := by
  constructor
  · exact soundLedger
  · intro object dead
    rw [others object fun member => dead (alive member)]
    exact sound.live object dead

/-- The descriptor of a client that has been constructed is overwritten. -/
theorem Sound.connect (sound : descriptors.Sound) (client : Nat) {own connection : Nat}
    (freshSocket : own ∉ descriptors.ledger.issued)
    (freshConnection : connection ∉ descriptors.ledger.issued ∧ some connection ≠ some own) :
    connection ∉ (descriptors.construct client (some own)).ledger.issued ∧
      (descriptors.accept client (some own) (some connection)).Sound := by
  have constructed := sound.construct client freshSocket
  have fresh : connection ∉ (descriptors.construct client (some own)).ledger.issued := by
    intro issued
    rcases Finset.mem_insert.mp issued with same | open_
    · exact freshConnection.2 (congrArg some same)
    · exact freshConnection.1 open_
  have alive : {client} ⊆ (descriptors.construct client (some own)).live :=
    Finset.singleton_subset_iff.mpr (Finset.mem_insert_self client _)
  constructor
  · exact fresh
  · apply constructed.of_live (constructed.ledger.acquire fresh client) alive
    intro object others
    exact Function.update_of_ne (mt Finset.mem_singleton.mpr others) _ _

theorem Sound.step (sound : descriptors.Sound) (possible : descriptors.Possible event) :
    (descriptors.step event).Sound := by
  cases event with
  | construct object socket =>
      cases socket with
      | none => exact sound
      | some fd => exact sound.construct object (possible.2 fd rfl)
  | accept listener client socket connection =>
      rcases possible with ⟨_, _, freshSocket, freshConnection⟩
      cases socket with
      | none => exact sound
      | some own =>
          cases connection with
          | some fd => exact (sound.connect client (freshSocket own rfl) (freshConnection fd rfl)).2
          | none =>
              have constructed := sound.construct client (freshSocket own rfl)
              have alive : {client} ⊆ (descriptors.construct client (some own)).live :=
                Finset.singleton_subset_iff.mpr (Finset.mem_insert_self client _)
              apply Sound.destroy
              apply constructed.of_live (constructed.ledger.forget client) alive
              intro object others
              exact Function.update_of_ne (mt Finset.mem_singleton.mpr others) _ _
  | moveConstruct object source =>
      constructor
      · exact sound.ledger.transfer source object
      · intro other dead
        rcases not_or.mp (mt Finset.mem_insert.mpr dead) with ⟨distinct, notLive⟩
        have notSource : other ≠ source := fun same => notLive (same ▸ possible.2)
        calc
          (descriptors.ledger.transfer source object).holding other =
              Function.update descriptors.ledger.holding object
                (descriptors.ledger.holding source) other := Function.update_of_ne notSource _ _
          _ = descriptors.ledger.holding other := Function.update_of_ne distinct _ _
          _ = none := sound.live other notLive
  | moveAssign target source =>
      have alive : {target, source} ⊆ descriptors.live :=
        Finset.insert_subset possible.1 (Finset.singleton_subset_iff.mpr possible.2)
      apply sound.of_live (sound.ledger.transfer source target) alive
      intro object others
      rcases not_or.mp (mt Finset.mem_insert.mpr others) with ⟨notTarget, notSource⟩
      exact (Function.update_of_ne (mt Finset.mem_singleton.mpr notSource) _ _).trans
        (Function.update_of_ne notTarget _ _)
  | disconnect object =>
      have alive : {object} ⊆ descriptors.live := Finset.singleton_subset_iff.mpr possible
      apply sound.of_live (sound.ledger.release object) alive
      intro other others
      exact Function.update_of_ne (mt Finset.mem_singleton.mpr others) _ _
  | destroy object => exact sound.destroy object

/-- An operation leaks the descriptor that it overwrites, and nothing else. -/
theorem leaked_step_iff (sound : descriptors.Sound) (possible : descriptors.Possible event)
    (fd : Nat) :
    (descriptors.step event).ledger.Leaked fd ↔
      descriptors.ledger.Leaked fd ∨ descriptors.lost event = some fd := by
  cases event with
  | construct object socket =>
      cases socket with
      | none => simp [step, construct, lost]
      | some own =>
          have nothing := sound.live object possible.1
          simp only [step, construct, lost]
          rw [Ledger.leaked_acquire_iff sound.ledger (possible.2 own rfl), nothing]
  | accept listener client socket connection =>
      rcases possible with ⟨_, dead, freshSocket, freshConnection⟩
      cases socket with
      | none => simp [step, accept, lost]
      | some own =>
          have nothing := sound.live client dead
          have constructed := sound.construct client (freshSocket own rfl)
          have held : (descriptors.construct client (some own)).ledger.holding client = some own :=
            Function.update_self _ _ _
          have before : (descriptors.construct client (some own)).ledger.Leaked fd ↔
              descriptors.ledger.Leaked fd := by
            simp only [construct]
            rw [Ledger.leaked_acquire_iff sound.ledger (freshSocket own rfl), nothing]
            simp
          cases connection with
          | some other =>
              have fresh := (sound.connect client (freshSocket own rfl)
                (freshConnection other rfl)).1
              simp only [step, accept, lost]
              rw [Ledger.leaked_acquire_iff constructed.ledger fresh, held, before]
          | none =>
              have forgotten := constructed.ledger.forget client
              simp only [step, accept, lost, destroy]
              rw [Ledger.leaked_release_iff forgotten,
                Ledger.leaked_forget_iff constructed.ledger, held, before]
  | moveConstruct object source =>
      have nothing := sound.live object possible.1
      simp only [step, moveConstruct, lost]
      rw [Ledger.leaked_transfer_iff sound.ledger, nothing]
  | moveAssign target source => exact Ledger.leaked_transfer_iff sound.ledger source target fd
  | disconnect object =>
      simp only [step, disconnect, lost]
      rw [Ledger.leaked_release_iff sound.ledger]
      simp
  | destroy object =>
      simp only [step, destroy, lost]
      rw [Ledger.leaked_release_iff sound.ledger]
      simp

/-- Ownership is exact where nothing is leaked. -/
theorem exact_iff (sound : descriptors.Sound) :
    descriptors.Exact ↔ ∀ fd, ¬descriptors.ledger.Leaked fd := by
  constructor
  · rintro ⟨owned, _⟩ fd ⟨issued, abandoned⟩
    rcases (owned fd).mp issued with ⟨object, _, holds⟩
    exact abandoned object holds
  · intro kept
    have alive : ∀ object fd, descriptors.ledger.holding object = some fd →
        object ∈ descriptors.live := by
      intro object fd holds
      by_contra dead
      rw [sound.live object dead] at holds
      cases holds
    constructor
    · intro fd
      constructor
      · intro issued
        have held : ∃ object, descriptors.ledger.holding object = some fd := by
          by_contra abandoned
          exact kept fd ⟨issued, not_exists.mp abandoned⟩
        rcases held with ⟨object, holds⟩
        exact ⟨object, alive object fd holds, holds⟩
      · rintro ⟨object, _, holds⟩
        exact sound.ledger.issued object fd holds
    · intro first _ second _ fd holds shares
      exact sound.ledger.unique first second fd holds shares

end Steps

section Runs

variable {descriptors : Descriptors} {events : List SocketEvent}

theorem sound_empty : empty.Sound := by
  constructor
  · exact Ledger.sound_empty
  · intro object _
    rfl

theorem Sound.run (sound : descriptors.Sound) (possible : descriptors.PossibleRun events) :
    (descriptors.run events).Sound := by
  induction events generalizing descriptors with
  | nil => exact sound
  | cons event events ih =>
      rcases possible with ⟨first, others⟩
      exact ih (sound.step first) others

/-- After a sequence of operations nothing is leaked exactly if nothing was before and
no operation has overwritten a descriptor. -/
theorem kept_run_iff (sound : descriptors.Sound) (possible : descriptors.PossibleRun events) :
    (∀ fd, ¬(descriptors.run events).ledger.Leaked fd) ↔
      (∀ fd, ¬descriptors.ledger.Leaked fd) ∧ descriptors.Careful events := by
  induction events generalizing descriptors with
  | nil => exact ⟨fun kept => ⟨kept, trivial⟩, And.left⟩
  | cons event events ih =>
      rcases possible with ⟨first, others⟩
      have run := ih (sound.step first) others
      have step : (∀ fd, ¬(descriptors.step event).ledger.Leaked fd) ↔
          (∀ fd, ¬descriptors.ledger.Leaked fd) ∧ descriptors.lost event = none := by
        simp only [leaked_step_iff sound first, not_or, forall_and,
          Option.eq_none_iff_forall_ne_some]
      rw [step, and_assoc] at run
      exact run

/-- The open descriptors are exactly those that live objects hold, each held once, if
and only if no operation has overwritten one. -/
theorem exact_run_iff (events : List SocketEvent) (possible : empty.PossibleRun events) :
    (empty.run events).Exact ↔ empty.Careful events := by
  have sound := sound_empty.run possible
  have initially : ∀ fd, ¬empty.ledger.Leaked fd := Ledger.not_leaked_empty
  rw [exact_iff sound, kept_run_iff sound_empty possible]
  exact and_iff_right initially

end Runs

instance (descriptors : Descriptors) :
    (event : SocketEvent) → Decidable (descriptors.Possible event)
  | .construct object socket =>
      inferInstanceAs (Decidable (object ∉ descriptors.live ∧
        ∀ fd ∈ socket, fd ∉ descriptors.ledger.issued))
  | .accept listener client socket connection =>
      inferInstanceAs (Decidable (listener ∈ descriptors.live ∧ client ∉ descriptors.live ∧
        (∀ fd ∈ socket, fd ∉ descriptors.ledger.issued) ∧
          ∀ fd ∈ connection, fd ∉ descriptors.ledger.issued ∧ some fd ≠ socket))
  | .moveConstruct object source =>
      inferInstanceAs (Decidable (object ∉ descriptors.live ∧ source ∈ descriptors.live))
  | .moveAssign target source =>
      inferInstanceAs (Decidable (target ∈ descriptors.live ∧ source ∈ descriptors.live))
  | .disconnect object => inferInstanceAs (Decidable (object ∈ descriptors.live))
  | .destroy object => inferInstanceAs (Decidable (object ∈ descriptors.live))

instance decidablePossibleRun :
    (descriptors : Descriptors) → (events : List SocketEvent) →
      Decidable (descriptors.PossibleRun events)
  | _, [] => isTrue trivial
  | descriptors, event :: events =>
      have : Decidable ((descriptors.step event).PossibleRun events) :=
        decidablePossibleRun _ events
      inferInstanceAs (Decidable (descriptors.Possible event ∧
        (descriptors.step event).PossibleRun events))

instance decidableCareful :
    (descriptors : Descriptors) → (events : List SocketEvent) →
      Decidable (descriptors.Careful events)
  | _, [] => isTrue trivial
  | descriptors, event :: events =>
      have : Decidable ((descriptors.step event).Careful events) := decidableCareful _ events
      inferInstanceAs (Decidable (descriptors.lost event = none ∧
        (descriptors.step event).Careful events))

/-- A socket is connected, moved, closed and destroyed, and the next one gets its
number. -/
def oneAfterAnother : List SocketEvent :=
  [.construct 0 (some 3), .moveConstruct 1 0, .disconnect 1, .construct 2 (some 3), .destroy 0,
    .moveAssign 1 2, .destroy 2]

theorem exact_oneAfterAnother :
    empty.PossibleRun oneAfterAnother ∧ empty.Careful oneAfterAnother ∧
      (empty.run oneAfterAnother).Exact :=
  have possible : empty.PossibleRun oneAfterAnother := by decide
  have careful : empty.Careful oneAfterAnother := by decide
  ⟨possible, careful, (exact_run_iff oneAfterAnother possible).mpr careful⟩

/-- A listening socket accepts one connection: of three open descriptors, objects hold
two. -/
theorem accept_leaks :
    empty.PossibleRun [.construct 0 (some 3), .accept 0 1 (some 4) (some 5)] ∧
      ¬(empty.run [.construct 0 (some 3), .accept 0 1 (some 4) (some 5)]).Exact := by
  have abandoned : ∀ object ∈ (empty.run
      [.construct 0 (some 3), .accept 0 1 (some 4) (some 5)]).live,
      (empty.run [.construct 0 (some 3), .accept 0 1 (some 4) (some 5)]).ledger.holding object ≠
        some 4 := by
    decide
  constructor
  · decide
  · rintro ⟨owned, _⟩
    rcases (owned 4).mp (by decide) with ⟨object, live, holds⟩
    exact abandoned object live holds

end Descriptors

end P2PFileShare
