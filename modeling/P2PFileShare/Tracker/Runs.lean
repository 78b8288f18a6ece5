import P2PFileShare.Tracker.Authorisation
import P2PFileShare.Tracker.Catalogue

/-!
# Runs of a tracker

A tracker receives messages, and replies to them with or without success.  Each message
does to the directory what its command does, or nothing if it holds no request.
-/

namespace P2PFileShare

open Container Text Transition

/-- A tracker receives a message, and the operations of its sockets go as `Network`
says. -/
def Tracker.Receives (platform : Platform) (config : Config) (source : Tracker)
    (message : Network × Bytes) (target : Tracker) : Prop :=
  target = (processData platform config source message.1 message.2).tracker

/-- An origin is logged in as a member of a group. -/
def Tracker.MemberAt (tracker : Tracker) (groupId : Bytes) (origin : EndpointID) : Prop :=
  ∃ user group, tracker.session? origin = some user ∧ tracker.group? groupId = some group ∧
    group.hasMember user = true

section Runs

variable {platform : Platform} {config : Config} {source target : Tracker}
  {message : Network × Bytes}

/-- The directory behind a message. -/
theorem Tracker.Receives.directory_eq (receives : source.Receives platform config message target)
    (valid : source.Valid) :
    target.directory =
      match parseRequest platform (message.2.drop 1) with
      | none => source.directory
      | some transaction =>
          (source.directory.exec (source.picked platform (command platform transaction))
            transaction.origin (command platform transaction)).2 := by
  rcases message with ⟨network, message⟩
  subst receives
  cases message with
  | nil =>
      simp only [List.drop_nil, parseRequest_nil]
      rfl
  | cons flag data =>
      rw [processData_directory, handled, List.drop_one, List.tail_cons]
      cases parseRequest platform data with
      | none => rfl
      | some transaction => exact congrArg Prod.snd (handle_exec platform valid transaction)

theorem Tracker.Receives.valid (receives : source.Receives platform config message target)
    (valid : source.Valid) : target.Valid := by
  subst receives
  exact processData_valid valid config message.1 message.2

/-- A message without a request leaves the directory alone. -/
theorem Tracker.Receives.unchanged (receives : source.Receives platform config message target)
    (valid : source.Valid) (parsing : parseRequest platform (message.2.drop 1) = none) :
    target.directory = source.directory := by
  have after := receives.directory_eq valid
  simp only [parsing] at after
  exact after

/-- What a message with a request does to the directory is a step of it. -/
theorem Tracker.Receives.step (receives : source.Receives platform config message target)
    (valid : source.Valid) {transaction : Transaction}
    (parsing : parseRequest platform (message.2.drop 1) = some transaction) :
    ∃ event : Event, event.origin = transaction.origin ∧
      event.command = command platform transaction ∧
        source.directory.Step event target.directory := by
  have after := receives.directory_eq valid
  simp only [parsing] at after
  let executed := source.directory.exec (source.picked platform (command platform transaction))
    transaction.origin (command platform transaction)
  rw [after]
  exact ⟨⟨transaction.origin, command platform transaction, executed.1, source.directory,
    executed.2⟩, rfl, rfl, rfl, rfl, _, source.picks_picked platform _, rfl⟩

theorem Tracker.Receives.named (receives : source.Receives platform config message target)
    (valid : source.Valid) (named : source.directory.Named) : target.directory.Named := by
  cases parsing : parseRequest platform (message.2.drop 1) with
  | none =>
      rw [receives.unchanged valid parsing]
      exact named
  | some transaction =>
      obtain ⟨event, _, _, step⟩ := receives.step valid parsing
      exact step.named named

/-- A sequence of messages is a run. -/
theorem run_serveOn (messages : List (Network × Bytes)) {history : List (Network × Bytes)}
    (run : Run Tracker.empty (Tracker.Receives platform config) history source) :
    Run Tracker.empty (Tracker.Receives platform config) (messages.reverse ++ history)
      (serveOn platform config source messages) := by
  induction messages generalizing source history with
  | nil => exact run
  | cons message messages ih =>
      rw [List.reverse_cons, List.append_assoc]
      exact ih (run.step rfl)

end Runs

end P2PFileShare
