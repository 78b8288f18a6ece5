import P2PFileShare.Tracker.Refinement
import P2PFileShare.Transition.History

/-!
# Who becomes a member of a group

Every membership goes back to an accepted join request: the owner of the group
accepted it, and before that the user itself had asked to join.  Sessions are
judged by the history as well, by the last successful login or logout of an
origin.
-/

namespace P2PFileShare

open Container Text Transition

/-- A request that was handled: what it asked for, and the abstract state on
both sides of it. -/
structure Event where
  origin : EndpointID
  command : Command
  success : Bool
  before : Directory
  after : Directory

/-- The abstract state of a tracker as it starts. -/
def Directory.empty : Directory where
  made _ := 0
  users _ := none
  sessions _ := none
  groups _ := none

/-- The events a directory can take part in. -/
def Directory.Step (source : Directory) (event : Event) (target : Directory) : Prop :=
  event.before = source ∧ event.after = target ∧
    ∃ picked, source.Picks picked event.command ∧
      source.exec picked event.origin event.command = (event.success, target)

namespace Event

/-- The origin logs in as a user: it presents the name and the password of the
user that the database holds under that name. -/
def LogsIn (origin : EndpointID) (user : User) (event : Event) : Prop :=
  event.origin = origin ∧ event.success = true ∧
    event.command = .login user.username user.password ∧
    event.before.users user.username = some user

/-- A successful login or logout of the origin. -/
def ChangesSession (origin : EndpointID) (event : Event) : Prop :=
  event.origin = origin ∧ event.success = true ∧
    ((∃ username password, event.command = .login username password) ∨ event.command = .logout)

/-- The session of an origin is a user: the last successful login or logout of
the origin logged that user in. -/
def SessionOf (origin : EndpointID) (user : User) : List Event → Prop :=
  Since (fun event _ => ¬event.ChangesSession origin) (fun event _ => event.LogsIn origin user)

/-- A user asks to join a group. -/
def Joins (groupId : Bytes) (user : User) (event : Event) (past : List Event) : Prop :=
  event.success = true ∧ event.command = .group groupId .join ∧
    SessionOf event.origin user past

/-- A user leaves a group. -/
def Leaves (groupId : Bytes) (user : User) (event : Event) (past : List Event) : Prop :=
  event.success = true ∧ event.command = .group groupId .leave ∧
    SessionOf event.origin user past

/-- The owner of a group accepts a user, who moves from the join requests to the
members. -/
def Accepts (groupId : Bytes) (user : User) (event : Event) (past : List Event) : Prop :=
  event.success = true ∧ (∃ username, event.command = .group groupId (.accept username)) ∧
    (∃ view, event.before.groups groupId = some view ∧
      SessionOf event.origin view.owner past ∧ user ∈ view.pending) ∧
    ∃ view, event.after.groups groupId = some view ∧ user ∉ view.pending ∧ user ∈ view.members

/-- The history of a membership.  The owner accepted the user, who has not left
since; and before that, later than any earlier acceptance, the user asked to
join. -/
def Authorised (groupId : Bytes) (user : User) (history : List Event) : Prop :=
  ∃ later accept past, history = later ++ accept :: past ∧ Accepts groupId user accept past ∧
    (∀ newer leave older, later = newer ++ leave :: older →
      ¬Leaves groupId user leave (older ++ accept :: past)) ∧
    ∃ between join earlier, past = between ++ join :: earlier ∧ Joins groupId user join earlier ∧
      ∀ newer other older, between = newer ++ other :: older →
        ¬Accepts groupId user other (older ++ join :: earlier)

end Event

/-! ## What one step can do -/

namespace Directory

variable {source target : Directory} {event : Event}

/-- The users are stored under their own names. -/
def Named (directory : Directory) : Prop :=
  ∀ username user, directory.users username = some user → user.username = username

theorem Step.effect (step : source.Step event target) :
    ∃ picked, source.Picks picked event.command ∧
      Effect picked source event.origin event.command event.success target := by
  rcases step with ⟨_, _, picked, picks, executed⟩
  have effect := exec_effect picked source event.origin event.command
  rw [executed] at effect
  exact ⟨picked, picks, effect⟩

theorem Step.named (step : source.Step event target) (named : source.Named) : target.Named := by
  rcases step.effect with ⟨picked, _, effect⟩
  rcases event with ⟨origin, command, success, before, after⟩
  simp only at effect
  intro username user found
  cases effect with
  | @createUser other password fresh =>
      simp only [Function.update_apply] at found
      split at found
      · next same =>
          obtain rfl := Option.some.inj found
          exact same.symm
      · exact named username user found
  | deleteUser other =>
      simp only [Function.update_apply] at found
      split at found
      · cases found
      · exact named username user found
  | _ => exact named username user found

/-- A step gives an origin a session exactly if it logs the origin in, and takes
it away exactly if it logs the origin out. -/
theorem Step.sessions_eq_some_iff (step : source.Step event target) (named : source.Named)
    {origin : EndpointID} {user : User} :
    target.sessions origin = some user ↔
      event.LogsIn origin user ∨
        (¬event.ChangesSession origin ∧ source.sessions origin = some user) := by
  rcases step.effect with ⟨picked, _, effect⟩
  have before_eq := step.1
  rcases event with ⟨actor, command, success, before, after⟩
  simp only at effect before_eq
  subst before_eq
  simp only [Event.LogsIn, Event.ChangesSession]
  cases effect with
  | idle => simp
  | createUser password fresh => simp
  | deleteUser username => simp
  | group session step => simp
  | @login username held loggedOut found =>
      have username_eq := named username held found
      subst username_eq
      by_cases same : actor = origin
      · subst same
        simp only [Function.update_self, Option.some.injEq, true_and, Command.login.injEq]
        constructor
        · rintro rfl
          exact Or.inl ⟨⟨rfl, rfl⟩, found⟩
        · rintro (⟨⟨sameName, _⟩, foundUser⟩ | ⟨unchanged, _⟩)
          · rw [← sameName, found] at foundUser
            exact Option.some.inj foundUser
          · exact absurd (Or.inl ⟨_, _, rfl, rfl⟩) unchanged
      · simp [same, Function.update_of_ne (Ne.symm same)]
  | logout =>
      by_cases same : actor = origin
      · subst same
        simp
      · simp [same, Function.update_of_ne (Ne.symm same)]

end Directory

/-- A user waits to be accepted, or is a member. -/
def GroupView.Pending (view : Option GroupView) (user : User) : Prop :=
  ∃ group, view = some group ∧ user ∈ group.pending

def GroupView.Member (view : Option GroupView) (user : User) : Prop :=
  ∃ group, view = some group ∧ user ∈ group.members

namespace GroupCommand

variable {picked : Option User} {user other : User} {command : GroupCommand}
  {view after : Option GroupView} {success : Bool}

/-- Only the user itself joins the queue. -/
theorem Effect.pending (effect : Effect picked user command view success after)
    (pending : GroupView.Pending after other) :
    (command = .join ∧ success = true ∧ other = user) ∨ GroupView.Pending view other := by
  rcases pending with ⟨group, after_eq, pending⟩
  cases effect with
  | idle => exact Or.inr ⟨group, after_eq, pending⟩
  | create =>
      obtain rfl := Option.some.inj after_eq
      cases pending
  | @join view outside =>
      obtain rfl := Option.some.inj after_eq
      rcases Finset.mem_insert.mp pending with same | waiting
      · exact Or.inl ⟨rfl, rfl, same⟩
      · exact Or.inr ⟨view, rfl, waiting⟩
  | @accept view joiner username owner pick =>
      obtain rfl := Option.some.inj after_eq
      exact Or.inr ⟨view, rfl, Finset.mem_of_mem_erase pending⟩
  | @leave view | @upload view | @reseed view | @download view =>
      obtain rfl := Option.some.inj after_eq
      exact Or.inr ⟨view, rfl, pending⟩

/-- Only an accepted user becomes a member, and a user who leaves is none. -/
theorem Effect.member (effect : Effect picked user command view success after)
    (member : GroupView.Member after other) :
    ((∃ username, command = .accept username) ∧ success = true ∧ picked = some other ∧
        (∃ group, view = some group ∧ group.owner = user) ∧ ¬GroupView.Pending after other) ∨
      (¬(command = .leave ∧ success = true ∧ other = user) ∧ GroupView.Member view other) := by
  rcases member with ⟨group, after_eq, member⟩
  cases effect with
  | idle => exact Or.inr ⟨by simp, group, after_eq, member⟩
  | create =>
      obtain rfl := Option.some.inj after_eq
      cases member
  | @leave view wasMember =>
      obtain rfl := Option.some.inj after_eq
      rcases Finset.mem_erase.mp member with ⟨stays, member⟩
      exact Or.inr ⟨fun left => stays left.2.2, view, rfl, member⟩
  | @accept view joiner username owner pick =>
      obtain rfl := Option.some.inj after_eq
      by_cases accepted : other = joiner
      · subst accepted
        refine Or.inl ⟨⟨username, rfl⟩, rfl, pick, ⟨view, rfl, owner⟩, ?_⟩
        rintro ⟨group, after_eq, pending⟩
        obtain rfl := Option.some.inj after_eq
        exact Finset.notMem_erase _ _ pending
      · exact Or.inr ⟨by simp, view, rfl, Finset.mem_of_mem_insert_of_ne member accepted⟩
  | @join view | @upload view | @reseed view | @download view =>
      obtain rfl := Option.some.inj after_eq
      exact Or.inr ⟨by simp, view, rfl, member⟩

end GroupCommand

namespace Directory

variable {source target : Directory} {event : Event} {groupId : Bytes} {user : User}

/-- Who waits after a step has just asked to join, or was waiting before. -/
theorem Step.pending (step : source.Step event target)
    (pending : GroupView.Pending (target.groups groupId) user) :
    (event.success = true ∧ event.command = .group groupId .join ∧
        source.sessions event.origin = some user) ∨
      GroupView.Pending (source.groups groupId) user := by
  rcases step.effect with ⟨picked, _, effect⟩
  rcases event with ⟨origin, command, success, before, after⟩
  simp only at effect ⊢
  cases effect with
  | @group named command _ _ view session inner =>
      simp only [Function.update_apply] at pending
      split at pending
      · next same =>
          subst same
          rcases inner.pending pending with ⟨rfl, rfl, rfl⟩ | before
          · exact Or.inl ⟨rfl, rfl, session⟩
          · exact Or.inr before
      · exact Or.inr pending
  | _ => exact Or.inr pending

/-- Who is a member after a step has just been accepted, or was a member before
and has not left. -/
theorem Step.member (step : source.Step event target)
    (member : GroupView.Member (target.groups groupId) user) :
    (event.success = true ∧ (∃ username, event.command = .group groupId (.accept username)) ∧
        (∃ view, source.groups groupId = some view ∧
          source.sessions event.origin = some view.owner ∧ user ∈ view.pending) ∧
        ¬GroupView.Pending (target.groups groupId) user) ∨
      (¬(event.success = true ∧ event.command = .group groupId .leave ∧
          source.sessions event.origin = some user) ∧
        GroupView.Member (source.groups groupId) user) := by
  rcases step.effect with ⟨picked, picks, effect⟩
  rcases event with ⟨origin, command, success, before, after⟩
  simp only at picks effect ⊢
  cases effect with
  | @group named command actor _ view session inner =>
      by_cases same : groupId = named
      · subst same
        simp only [Function.update_self] at member ⊢
        rcases inner.member member with
          ⟨⟨username, rfl⟩, rfl, pick, ⟨group, found, rfl⟩, moved⟩ | ⟨stays, before⟩
        · refine Or.inl ⟨rfl, ⟨username, rfl⟩, ⟨group, found, session, ?_⟩, moved⟩
          simp only [Picks, pick, candidates, found] at picks
          exact (Finset.mem_filter.mp picks).1
        · refine Or.inr ⟨?_, before⟩
          rintro ⟨rfl, left, actor_eq⟩
          rw [session] at actor_eq
          refine stays ⟨(Command.group.inj left).2, rfl, (Option.some.inj actor_eq).symm⟩
      · simp only [Function.update_of_ne same] at member
        refine Or.inr ⟨?_, member⟩
        rintro ⟨_, left, _⟩
        exact same (Command.group.inj left).1.symm
  | _ => exact Or.inr ⟨by simp, member⟩

end Directory

/-! ## What a history says about the state -/

section Histories

variable {history : List Event} {directory : Directory} {groupId : Bytes} {user : User}

theorem Directory.named_of_run (run : Run Directory.empty Directory.Step history directory) :
    directory.Named := by
  apply run.invariant (p := fun _ directory => directory.Named)
  · intro username user found
    cases found
  · intro past source event target _ named step
    exact step.named named

/-- The sessions held are those the history speaks of. -/
theorem sessionOf_iff (run : Run Directory.empty Directory.Step history directory)
    {origin : EndpointID} :
    Event.SessionOf origin user history ↔ directory.sessions origin = some user := by
  apply run.since_iff (p := fun directory => directory.sessions origin = some user)
  · intro held
    cases held
  · intro past source event target earlier step
    exact step.sessions_eq_some_iff (Directory.named_of_run earlier)

/-- A user who waits has asked to join, and has not been accepted since. -/
theorem joins_of_pending (run : Run Directory.empty Directory.Step history directory)
    (pending : GroupView.Pending (directory.groups groupId) user) :
    Since (fun event past => ¬Event.Accepts groupId user event past)
      (Event.Joins groupId user) history := by
  revert pending
  apply run.since (p := fun directory => GroupView.Pending (directory.groups groupId) user)
  · rintro ⟨view, found, _⟩
    cases found
  · intro past source event target earlier step pending
    rcases step.pending pending with ⟨success, joins, session⟩ | before
    · exact Or.inl ⟨success, joins, (sessionOf_iff earlier).mpr session⟩
    · refine Or.inr ⟨?_, before⟩
      rintro ⟨_, _, _, view, found, moved, _⟩
      rcases pending with ⟨group, target_eq, waiting⟩
      rw [step.2.1, target_eq] at found
      obtain rfl := Option.some.inj found
      exact moved waiting

/-- A member was accepted by the owner on its own request, and has not left
since. -/
theorem authorised_of_member (run : Run Directory.empty Directory.Step history directory)
    (member : GroupView.Member (directory.groups groupId) user) :
    Event.Authorised groupId user history := by
  have justified : Since (fun event past => ¬Event.Leaves groupId user event past)
      (fun event past => Event.Accepts groupId user event past ∧
        Since (fun event past => ¬Event.Accepts groupId user event past)
          (Event.Joins groupId user) past) history := by
    revert member
    apply run.since (p := fun directory => GroupView.Member (directory.groups groupId) user)
    · rintro ⟨view, found, _⟩
      cases found
    · intro past source event target earlier step member
      rcases step.member member with
        ⟨success, accepts, ⟨view, found, session, pending⟩, moved⟩ | ⟨stays, before⟩
      · rcases member with ⟨after, target_eq, joined⟩
        refine Or.inl ⟨⟨success, accepts, ?_, ?_⟩, ?_⟩
        · rw [step.1]
          exact ⟨view, found, (sessionOf_iff earlier).mpr session, pending⟩
        · rw [step.2.1]
          exact ⟨after, target_eq, fun waiting => moved ⟨after, target_eq, waiting⟩, joined⟩
        · exact joins_of_pending earlier ⟨view, found, pending⟩
      · refine Or.inr ⟨?_, before⟩
        rintro ⟨success, leaves, session⟩
        exact stays ⟨success, leaves, (sessionOf_iff earlier).mp session⟩
  obtain ⟨later, accept, past, history_eq, ⟨accepts, joined⟩, stays⟩ :=
    since_iff_split.mp justified
  rcases since_iff_split.mp joined with ⟨between, join, earlier, past_eq, joins, first⟩
  exact ⟨later, accept, past, history_eq, accepts, stays, between, join, earlier, past_eq, joins,
    first⟩

end Histories

/-! ## Runs of the handlers -/

/-- The event of one request. -/
def Tracker.event (platform : Platform) (tracker : Tracker) (transaction : Transaction) :
    Event where
  origin := transaction.origin
  command := command platform transaction
  success := succeeded (handle platform tracker transaction).1
  before := tracker.directory
  after := (handle platform tracker transaction).2.directory

/-- A tracker handles requests one after another; the events are kept, newest
first. -/
def observe (platform : Platform) (history : List Event) (tracker : Tracker) :
    List Transaction → List Event × Tracker
  | [] => (history, tracker)
  | transaction :: transactions =>
      observe platform (tracker.event platform transaction :: history)
        (handle platform tracker transaction).2 transactions

theorem run_observe (platform : Platform) (transactions : List Transaction)
    {history : List Event} {tracker : Tracker} (valid : tracker.Valid)
    (run : Run Directory.empty Directory.Step history tracker.directory) :
    Run Directory.empty Directory.Step (observe platform history tracker transactions).1
      (observe platform history tracker transactions).2.directory := by
  induction transactions generalizing history tracker with
  | nil => exact run
  | cons transaction transactions ih =>
      apply ih (handle_valid platform valid transaction)
      apply run.step
      exact ⟨rfl, rfl, tracker.picked platform (command platform transaction),
        tracker.picks_picked platform _, (handle_exec platform valid transaction).symm⟩

/-- Membership is never gained without authorisation: in every run of requests
from the empty tracker, the history authorises every user in the set of users of
a group. -/
theorem membership_authorised (platform : Platform) (transactions : List Transaction)
    {groupId : Bytes} {user : User}
    (member : ∃ group ∈ (observe platform [] .empty transactions).2.group? groupId,
      user ∈ group.users) :
    Event.Authorised groupId user (observe platform [] .empty transactions).1 := by
  rcases member with ⟨group, found, member⟩
  apply authorised_of_member (run_observe platform transactions Tracker.valid_empty Run.start)
  exact ⟨group.view, Tracker.directory_groups_eq found, by simpa [Group.view] using member⟩

/-- A run in which ann accepts bob into her group. -/
def acceptance : List Transaction :=
  [ascii "7 create_user ann pw", ascii "7 login ann pw", ascii "7 create_group g",
    ascii "8 create_user bob key", ascii "8 login bob key", ascii "8 join_group g",
    ascii "7 accept_request g bob"].filterMap (parseRequest .oldestFirst)

theorem membership_authorised_acceptance :
    Event.Authorised (ascii "g") { username := ascii "bob", password := ascii "key", serial := 0 }
      (observe .oldestFirst [] .empty acceptance).1 :=
  membership_authorised .oldestFirst acceptance (by decide +kernel)

end P2PFileShare
