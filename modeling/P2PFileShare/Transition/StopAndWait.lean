import Mathlib.Data.List.Basic

/-!
# Stop and wait

A sender hands messages to a receiver, one at a time.  Behind every message it waits
for an acknowledgement, and behind the last one it sends a closing message and is
done.  The receiver takes a message, acknowledges it and then works on it, which may
fail; it stops at a message that ends the exchange.  Both channels keep the order.

The messages are always split into those that the receiver has worked on, the one it
holds, those on the way, and those not yet sent.  And one token is passed around: as
long as the sender waits, exactly one message or acknowledgement is on the way or in
the hands of the receiver.
-/

namespace P2PFileShare.Transition

/-- What the parties say to each other, and what the receiver does with a message. -/
structure StopAndWait (μ σ ε : Type) where
  closing : μ
  acknowledgement : μ
  /-- The receiver takes this message for the end. -/
  ends : μ → Bool
  work : σ → μ → Except ε σ

namespace StopAndWait

inductive Party
  | sender
  | receiver
  deriving DecidableEq

/-- Where the sender stands, with the messages that it has not sent. -/
inductive Sender (μ : Type)
  | sending (messages : List μ)
  | waiting (messages : List μ)
  | finished
  deriving DecidableEq

/-- Where the receiver stands, with the message that it holds. -/
inductive Receiver (μ ε : Type)
  | receiving
  | acknowledging (message : μ)
  | working (message : μ)
  | stopped
  | failed (error : ε)
  deriving DecidableEq

/-- Both parties, the messages on the way to each of them, and the messages that the
receiver has worked on. -/
structure Exchange (μ σ ε : Type) where
  sender : Sender μ
  receiver : Receiver μ ε := .receiving
  toReceiver : List μ := []
  toSender : List μ := []
  worked : List μ := []
  state : σ

variable {μ σ ε : Type} (protocol : StopAndWait μ σ ε)

/-- The exchange as it starts. -/
def start (messages : List μ) (state : σ) : Exchange μ σ ε :=
  { sender := .sending messages, state }

/-- The next step of the sender, unless it waits or is done. -/
def advanceSender (exchange : Exchange μ σ ε) : Option (Exchange μ σ ε) :=
  match exchange.sender, exchange.toSender with
  | .sending [], _ =>
      some { exchange with
        sender := .finished, toReceiver := exchange.toReceiver ++ [protocol.closing] }
  | .sending (message :: messages), _ =>
      some { exchange with
        sender := .waiting messages, toReceiver := exchange.toReceiver ++ [message] }
  | .waiting messages, _ :: toSender =>
      some { exchange with sender := .sending messages, toSender }
  | .waiting _, [] => none
  | .finished, _ => none

/-- The next step of the receiver, unless it waits or is done. -/
def advanceReceiver (exchange : Exchange μ σ ε) : Option (Exchange μ σ ε) :=
  match exchange.receiver, exchange.toReceiver with
  | .receiving, message :: toReceiver =>
      some { exchange with
        receiver := if protocol.ends message then .stopped else .acknowledging message
        toReceiver }
  | .receiving, [] => none
  | .acknowledging message, _ =>
      some { exchange with
        receiver := .working message
        toSender := exchange.toSender ++ [protocol.acknowledgement] }
  | .working message, _ =>
      match protocol.work exchange.state message with
      | .ok state =>
          some { exchange with
            receiver := .receiving, state, worked := exchange.worked ++ [message] }
      | .error error =>
          some { exchange with
            receiver := .failed error, worked := exchange.worked ++ [message] }
  | .stopped, _ => none
  | .failed _, _ => none

def advance (exchange : Exchange μ σ ε) : Party → Option (Exchange μ σ ε)
  | .sender => protocol.advanceSender exchange
  | .receiver => protocol.advanceReceiver exchange

/-- The parties take their steps in any order. -/
def advanceAll (exchange : Exchange μ σ ε) : List Party → Option (Exchange μ σ ε)
  | [] => some exchange
  | party :: schedule =>
      (protocol.advance exchange party).bind fun next => advanceAll next schedule

/-- The work on a list of messages. -/
def workAll : σ → List μ → Except ε σ
  | state, [] => .ok state
  | state, message :: messages => do
      let next ← protocol.work state message
      workAll next messages

/-! ## The invariant -/

/-- What the sender has still to send. -/
def Sender.unsent (closing : μ) : Sender μ → List μ
  | .sending messages => messages ++ [closing]
  | .waiting messages => messages ++ [closing]
  | .finished => []

/-- The messages the sender has no answer for: at most one. -/
def Sender.unanswered : Sender μ → Nat
  | .sending _ => 0
  | .waiting _ => 1
  | .finished => 1

/-- What the receiver has taken and not yet worked on. -/
def Receiver.taken (closing : μ) : Receiver μ ε → List μ
  | .receiving => []
  | .acknowledging message => [message]
  | .working message => [message]
  | .stopped => [closing]
  | .failed _ => []

/-- The acknowledgements the receiver owes.  The closing message is never answered. -/
def Receiver.owed : Receiver μ ε → Nat
  | .receiving => 0
  | .acknowledging _ => 1
  | .working _ => 0
  | .stopped => 1
  | .failed _ => 0

/-- How the work on the messages has gone so far. -/
def Exchange.outcome (exchange : Exchange μ σ ε) : Except ε σ :=
  match exchange.receiver with
  | .failed error => .error error
  | _ => .ok exchange.state

structure Invariant (messages : List μ) (initial : σ) (exchange : Exchange μ σ ε) : Prop where
  order : exchange.worked ++ exchange.receiver.taken protocol.closing ++ exchange.toReceiver ++
    exchange.sender.unsent protocol.closing = messages ++ [protocol.closing]
  token : exchange.toReceiver.length + exchange.receiver.owed + exchange.toSender.length =
    exchange.sender.unanswered
  genuine : ∀ message ∈ exchange.worked, protocol.ends message = false
  current : ∀ message, exchange.receiver = .acknowledging message ∨
    exchange.receiver = .working message → protocol.ends message = false
  outcome : protocol.workAll initial exchange.worked = exchange.outcome

section Steps

variable {protocol} {messages : List μ} {initial : σ} {exchange next : Exchange μ σ ε}

theorem workAll_append (state : σ) (first : List μ) (message : μ) :
    protocol.workAll state (first ++ [message]) =
      (protocol.workAll state first).bind fun next => protocol.work next message := by
  induction first generalizing state with
  | nil =>
      simp only [List.nil_append, workAll, bind, Except.bind]
      cases protocol.work state message with
      | error error => rfl
      | ok next => rfl
  | cons head first ih =>
      simp only [List.cons_append, workAll, bind, Except.bind]
      cases protocol.work state head with
      | error error => rfl
      | ok next => exact ih next

theorem invariant_start : protocol.Invariant messages initial (start messages initial) := by
  constructor
  · rfl
  · rfl
  · intro message member
    cases member
  · rintro message (holding | holding)
    · cases holding
    · cases holding
  · rfl

theorem Invariant.advanceSender (invariant : protocol.Invariant messages initial exchange)
    (step : protocol.advanceSender exchange = some next) :
    protocol.Invariant messages initial next := by
  rcases invariant with ⟨order, token, genuine, current, outcome⟩
  rcases exchange with ⟨sender, receiver, toReceiver, toSender, worked, state⟩
  cases sender with
  | sending unsent =>
      cases unsent with
      | nil =>
          cases step
          constructor
          · simpa [Sender.unsent] using order
          · simp only [Sender.unanswered, List.length_append, List.length_singleton] at token ⊢
            omega
          · exact genuine
          · exact current
          · exact outcome
      | cons message unsent =>
          cases step
          constructor
          · simpa [Sender.unsent] using order
          · simp only [Sender.unanswered, List.length_append, List.length_singleton] at token ⊢
            omega
          · exact genuine
          · exact current
          · exact outcome
  | waiting unsent =>
      cases toSender with
      | nil => cases step
      | cons answer toSender =>
          cases step
          constructor
          · exact order
          · simp only [Sender.unanswered, List.length_cons] at token ⊢
            omega
          · exact genuine
          · exact current
          · exact outcome
  | finished => cases step

/-- The message that ends the exchange is the closing one, if none of the others ends
it. -/
theorem closing_of_ends (ordinary : ∀ message ∈ messages, protocol.ends message = false)
    {worked rest : List μ} {message : μ}
    (order : worked ++ message :: rest = messages ++ [protocol.closing])
    (ends : protocol.ends message = true) :
    worked = messages ∧ message = protocol.closing ∧ rest = [] := by
  have other : message ∉ messages := by
    intro member
    rw [ordinary message member] at ends
    cases ends
  rcases (List.append_cons_inj_of_notMem other List.not_mem_nil).mp order.symm with
    ⟨same, closing, nothing⟩
  exact ⟨same.symm, closing.symm, nothing.symm⟩

theorem Invariant.advanceReceiver
    (ordinary : ∀ message ∈ messages, protocol.ends message = false)
    (invariant : protocol.Invariant messages initial exchange)
    (step : protocol.advanceReceiver exchange = some next) :
    protocol.Invariant messages initial next := by
  rcases invariant with ⟨order, token, genuine, current, outcome⟩
  rcases exchange with ⟨sender, receiver, toReceiver, toSender, worked, state⟩
  cases receiver with
  | receiving =>
      cases toReceiver with
      | nil => cases step
      | cons message toReceiver =>
          simp only [Receiver.taken, List.append_nil, List.append_assoc, List.cons_append] at order
          simp only [Receiver.owed, List.length_cons] at token
          cases ends : protocol.ends message with
          | true =>
              rcases closing_of_ends ordinary order ends with ⟨rfl, rfl, nothing⟩
              simp only [StopAndWait.advanceReceiver, ends, if_true] at step
              cases step
              constructor
              · simpa [Receiver.taken] using nothing
              · simp only [Receiver.owed]
                omega
              · exact genuine
              · rintro message (holding | holding)
                · cases holding
                · cases holding
              · exact outcome
          | false =>
              simp only [StopAndWait.advanceReceiver, ends, Bool.false_eq_true, if_false] at step
              cases step
              constructor
              · simpa [Receiver.taken] using order
              · simp only [Receiver.owed]
                omega
              · exact genuine
              · rintro other (holding | holding)
                · cases holding
                  exact ends
                · cases holding
              · exact outcome
  | acknowledging message =>
      cases step
      constructor
      · exact order
      · simp only [Receiver.owed, List.length_append, List.length_singleton] at token ⊢
        omega
      · exact genuine
      · rintro other (holding | holding)
        · cases holding
        · cases holding
          exact current message (Or.inl rfl)
      · exact outcome
  | working message =>
      have genuineNext : ∀ other ∈ worked ++ [message], protocol.ends other = false := by
        intro other member
        rcases List.mem_append.mp member with before | last
        · exact genuine other before
        · rw [List.mem_singleton.mp last]
          exact current message (Or.inr rfl)
      have outcomeNext : protocol.workAll initial (worked ++ [message]) =
          protocol.work state message := by
        rw [workAll_append, outcome]
        rfl
      simp only [StopAndWait.advanceReceiver] at step
      cases done : protocol.work state message with
      | ok after =>
          rw [done] at step outcomeNext
          cases step
          constructor
          · simpa [Receiver.taken] using order
          · exact token
          · exact genuineNext
          · rintro other (holding | holding)
            · cases holding
            · cases holding
          · exact outcomeNext
      | error error =>
          rw [done] at step outcomeNext
          cases step
          constructor
          · simpa [Receiver.taken] using order
          · exact token
          · exact genuineNext
          · rintro other (holding | holding)
            · cases holding
            · cases holding
          · exact outcomeNext
  | stopped => cases step
  | failed error => cases step

/-- Every step keeps the invariant. -/
theorem Invariant.advance (ordinary : ∀ message ∈ messages, protocol.ends message = false)
    (invariant : protocol.Invariant messages initial exchange) {party : Party}
    (step : protocol.advance exchange party = some next) :
    protocol.Invariant messages initial next := by
  cases party with
  | sender => exact invariant.advanceSender step
  | receiver => exact invariant.advanceReceiver ordinary step

/-- So it holds after every schedule. -/
theorem Invariant.advanceAll (ordinary : ∀ message ∈ messages, protocol.ends message = false)
    (invariant : protocol.Invariant messages initial exchange) {schedule : List Party}
    (run : protocol.advanceAll exchange schedule = some next) :
    protocol.Invariant messages initial next := by
  induction schedule generalizing exchange with
  | nil =>
      cases run
      exact invariant
  | cons party schedule ih =>
      rcases Option.bind_eq_some_iff.mp run with ⟨middle, step, rest⟩
      exact ih (invariant.advance ordinary step) rest

/-! ## What the invariant says -/

/-- The receiver has worked on a prefix of the messages. -/
theorem Invariant.worked_prefix (closes : protocol.ends protocol.closing = true)
    (invariant : protocol.Invariant messages initial exchange) :
    exchange.worked <+: messages := by
  have whole : exchange.worked <+: messages ++ [protocol.closing] := by
    rw [← invariant.order, List.append_assoc, List.append_assoc]
    exact List.prefix_append _ _
  rcases List.prefix_concat_iff.mp whole with all | inside
  · have genuine := invariant.genuine protocol.closing (by simp [all])
    rw [closes] at genuine
    cases genuine
  · exact inside

/-- A receiver that has stopped has worked on all messages, the sender is done, and
nothing is on the way. -/
theorem Invariant.of_stopped (closes : protocol.ends protocol.closing = true)
    (ordinary : ∀ message ∈ messages, protocol.ends message = false)
    (invariant : protocol.Invariant messages initial exchange)
    (stopped : exchange.receiver = .stopped) :
    exchange.worked = messages ∧ exchange.sender = .finished ∧ exchange.toReceiver = [] ∧
      exchange.toSender = [] ∧ protocol.workAll initial messages = .ok exchange.state := by
  rcases invariant with ⟨order, token, genuine, current, outcome⟩
  rcases exchange with ⟨sender, receiver, toReceiver, toSender, worked, state⟩
  subst stopped
  simp only [Receiver.taken, List.append_assoc, List.singleton_append] at order
  rcases closing_of_ends ordinary order closes with ⟨rfl, _, nothing⟩
  rcases List.append_eq_nil_iff.mp nothing with ⟨rfl, sent⟩
  have finished : sender = .finished := by
    cases sender with
    | sending unsent => cases List.append_ne_nil_of_right_ne_nil unsent (List.cons_ne_nil _ _) sent
    | waiting unsent => cases List.append_ne_nil_of_right_ne_nil unsent (List.cons_ne_nil _ _) sent
    | finished => rfl
  subst finished
  simp only [Receiver.owed, Sender.unanswered, List.length_nil] at token
  have answered : toSender.length = 0 := by omega
  exact ⟨rfl, rfl, rfl, List.length_eq_zero_iff.mp answered, outcome⟩

/-- The parties never wait for each other. -/
theorem Invariant.progress (closes : protocol.ends protocol.closing = true)
    (invariant : protocol.Invariant messages initial exchange)
    (stuck : ∀ party, protocol.advance exchange party = none) :
    exchange.receiver = .stopped ∨ ∃ error, exchange.receiver = .failed error := by
  have sender := stuck .sender
  have receiver := stuck .receiver
  have inside := invariant.worked_prefix closes
  rcases invariant with ⟨order, token, _⟩
  rcases exchange with ⟨place, position, toReceiver, toSender, worked, state⟩
  cases position with
  | acknowledging message => cases receiver
  | working message =>
      simp only [StopAndWait.advance, StopAndWait.advanceReceiver] at receiver
      cases done : protocol.work state message with
      | ok next =>
          rw [done] at receiver
          cases receiver
      | error error =>
          rw [done] at receiver
          cases receiver
  | stopped => exact Or.inl rfl
  | failed error => exact Or.inr ⟨error, rfl⟩
  | receiving =>
      cases toReceiver with
      | cons message toReceiver => cases receiver
      | nil =>
          cases place with
          | sending unsent => cases unsent <;> cases sender
          | waiting unsent =>
              cases toSender with
              | cons answer toSender => cases sender
              | nil => cases token
          | finished =>
              -- The closing message is nowhere.
              simp only [Receiver.taken, Sender.unsent, List.append_nil] at order
              have short := inside.length_le
              rw [order, List.length_append, List.length_singleton] at short
              omega

/-! ## Termination -/

/-- The steps that the parties have left, at most. -/
def Exchange.remaining (exchange : Exchange μ σ ε) : Nat :=
  let sender := match exchange.sender with
    | .sending messages => 5 * messages.length + 4
    | .waiting messages => 5 * messages.length + 5
    | .finished => 0
  let receiver := match exchange.receiver with
    | .acknowledging _ => 2
    | .working _ => 1
    | _ => 0
  sender + 3 * exchange.toReceiver.length + receiver

theorem remaining_advance {party : Party} (step : protocol.advance exchange party = some next) :
    next.remaining < exchange.remaining := by
  rcases exchange with ⟨place, position, toReceiver, toSender, worked, state⟩
  cases party with
  | sender =>
      cases place with
      | sending unsent =>
          cases unsent with
          | nil =>
              cases step
              simp only [Exchange.remaining, List.length_append, List.length_singleton,
                List.length_nil]
              omega
          | cons message unsent =>
              cases step
              simp only [Exchange.remaining, List.length_append, List.length_cons, List.length_nil]
              omega
      | waiting unsent =>
          cases toSender with
          | nil => cases step
          | cons answer toSender =>
              cases step
              simp only [Exchange.remaining]
              omega
      | finished => cases step
  | receiver =>
      cases position with
      | receiving =>
          cases toReceiver with
          | nil => cases step
          | cons message toReceiver =>
              simp only [advance, StopAndWait.advanceReceiver] at step
              cases ends : protocol.ends message with
              | true =>
                  rw [ends] at step
                  cases step
                  simp only [Exchange.remaining, if_true, List.length_cons]
                  omega
              | false =>
                  rw [ends] at step
                  cases step
                  simp only [Exchange.remaining, Bool.false_eq_true, if_false, List.length_cons]
                  omega
      | acknowledging message =>
          cases step
          simp only [Exchange.remaining]
          omega
      | working message =>
          simp only [advance, StopAndWait.advanceReceiver] at step
          cases done : protocol.work state message with
          | ok after =>
              rw [done] at step
              cases step
              simp only [Exchange.remaining]
              omega
          | error error =>
              rw [done] at step
              cases step
              simp only [Exchange.remaining]
              omega
      | stopped => cases step
      | failed error => cases step

/-- No schedule goes on for ever. -/
theorem length_le_remaining {schedule : List Party}
    (run : protocol.advanceAll exchange schedule = some next) :
    schedule.length + next.remaining ≤ exchange.remaining := by
  induction schedule generalizing exchange with
  | nil =>
      cases run
      simp
  | cons party schedule ih =>
      rcases Option.bind_eq_some_iff.mp run with ⟨middle, step, rest⟩
      have shorter := remaining_advance step
      have others := ih rest
      simp only [List.length_cons]
      omega

end Steps

end StopAndWait

end P2PFileShare.Transition
