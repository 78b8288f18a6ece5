import P2PFileShare.Tracker.Membership

/-!
# The state is the history

What a tracker holds is what its history says, no less than that: who has an account, who
is logged in, who waits for a group, who is a member of it and who owns it, each by the last
request that made it so and that nothing has undone.
-/

namespace P2PFileShare

open Container Text Transition

namespace Event

/-- The user object comes into the database. -/
def Creates (user : User) (event : Event) : Prop :=
  event.success = true ∧ event.command = .createUser user.username user.password ∧
    event.after.users user.username = some user

def Deletes (username : Bytes) (event : Event) : Prop :=
  event.success = true ∧ event.command = .deleteUser username

/-- A user gives itself a group. -/
def Founds (groupId : Bytes) (user : User) (event : Event) (past : List Event) : Prop :=
  event.success = true ∧ event.command = .group groupId .create ∧
    SessionOf event.origin user past

/-- The account was created, and its name has not been deleted since. -/
def Registered (user : User) : List Event → Prop :=
  Since (fun event _ => ¬event.Deletes user.username) (fun event _ => event.Creates user)

/-- The user has asked to join, and has not been accepted since. -/
def Waits (groupId : Bytes) (user : User) : List Event → Prop :=
  Since (fun event past => ¬Accepts groupId user event past) (Joins groupId user)

/-- The user has been accepted, and has not left since. -/
def Belongs (groupId : Bytes) (user : User) : List Event → Prop :=
  Since (fun event past => ¬Leaves groupId user event past) (Accepts groupId user)

/-- The user has created the group; nothing undoes this. -/
def Owns (groupId : Bytes) (user : User) : List Event → Prop :=
  Since (fun _ _ => True) (Founds groupId user)

end Event

/-! ## What a step leaves as it is -/

namespace GroupCommand

variable {picked : Option User} {user other : User} {command : GroupCommand}
  {view after : Option GroupView} {success : Bool}

/-- Who asks to join waits. -/
theorem Effect.joined (effect : Effect picked user .join view true after) :
    GroupView.Pending after user := by
  cases effect with
  | @join view outside => exact ⟨_, rfl, Finset.mem_insert_self user view.pending⟩

/-- Who waits goes on waiting, unless the owner accepts this user. -/
theorem Effect.stillPending (effect : Effect picked user command view success after)
    (pending : GroupView.Pending view other) :
    GroupView.Pending after other ∨
      (success = true ∧ (∃ username, command = .accept username) ∧
        (∃ group, view = some group ∧ group.owner = user ∧ other ∈ group.pending) ∧
        ∃ group, after = some group ∧ other ∉ group.pending ∧ other ∈ group.members) := by
  obtain ⟨group, found, waits⟩ := pending
  cases effect with
  | idle => exact Or.inl ⟨group, found, waits⟩
  | create => cases found
  | @join view outside =>
      obtain rfl := Option.some.inj found
      exact Or.inl ⟨_, rfl, Finset.mem_insert_of_mem waits⟩
  | @leave view | @upload view | @reseed view | @download view =>
      obtain rfl := Option.some.inj found
      exact Or.inl ⟨_, rfl, waits⟩
  | @accept view joiner username owner pick =>
      obtain rfl := Option.some.inj found
      by_cases same : other = joiner
      · subst same
        exact Or.inr ⟨rfl, ⟨username, rfl⟩, ⟨view, rfl, owner, waits⟩, _, rfl,
          Finset.notMem_erase _ _, Finset.mem_insert_self _ _⟩
      · exact Or.inl ⟨_, rfl, Finset.mem_erase_of_ne_of_mem same waits⟩

/-- Who is a member stays one, unless this user leaves. -/
theorem Effect.stillMember (effect : Effect picked user command view success after)
    (member : GroupView.Member view other) :
    GroupView.Member after other ∨ (command = .leave ∧ success = true ∧ other = user) := by
  obtain ⟨group, found, belongs⟩ := member
  cases effect with
  | idle => exact Or.inl ⟨group, found, belongs⟩
  | create => cases found
  | @accept view joiner username owner pick =>
      obtain rfl := Option.some.inj found
      exact Or.inl ⟨_, rfl, Finset.mem_insert_of_mem belongs⟩
  | @join view | @upload view | @reseed view | @download view =>
      obtain rfl := Option.some.inj found
      exact Or.inl ⟨_, rfl, belongs⟩
  | @leave view wasMember =>
      obtain rfl := Option.some.inj found
      by_cases same : other = user
      · exact Or.inr ⟨rfl, rfl, same⟩
      · exact Or.inl ⟨_, rfl, Finset.mem_erase_of_ne_of_mem same belongs⟩

end GroupCommand

/-! ## What a step decides -/

namespace Directory

variable {source target : Directory} {event : Event} {groupId : Bytes} {user : User}

/-- A step puts a user into the database exactly if it creates it, and takes it out exactly
if it deletes the name. -/
theorem Step.users_iff (step : source.Step event target) :
    target.users user.username = some user ↔
      event.Creates user ∨
        (¬event.Deletes user.username ∧ source.users user.username = some user) := by
  rcases step.effect with ⟨picked, _, effect⟩
  have after_eq := step.2.1
  rcases event with ⟨origin, command, success, before, after⟩
  simp only at effect after_eq
  subst after_eq
  simp only [Event.Creates, Event.Deletes]
  cases effect with
  | idle => simp
  | login => simp
  | logout => simp
  | group session step => simp
  | @createUser username password fresh =>
      by_cases same : user.username = username
      · subst same
        simp only [Function.update_self, fresh, reduceCtorEq, and_false, or_false, true_and,
          Option.some.injEq, Command.createUser.injEq]
        constructor
        · intro made
          exact ⟨congrArg User.password made, made⟩
        · exact And.right
      · simp [Function.update_of_ne same, Ne.symm same]
  | deleteUser username =>
      by_cases same : user.username = username
      · simp [same]
      · simp [Function.update_of_ne same, Ne.symm same]

/-- A user waits behind a step exactly if it has just asked to join, or waited before and has
not been accepted. -/
theorem Step.pending_iff {past : List Event} (step : source.Step event target)
    (sessions : ∀ origin other,
      Event.SessionOf origin other past ↔ source.sessions origin = some other) :
    GroupView.Pending (target.groups groupId) user ↔
      Event.Joins groupId user event past ∨
        (¬Event.Accepts groupId user event past ∧
          GroupView.Pending (source.groups groupId) user) := by
  constructor
  · intro pending
    rcases step.pending pending with ⟨success, joins, session⟩ | before
    · exact Or.inl ⟨success, joins, (sessions _ _).mpr session⟩
    · refine Or.inr ⟨?_, before⟩
      rintro ⟨_, _, _, view, found, moved, _⟩
      obtain ⟨group, held, waits⟩ := pending
      rw [step.2.1, held] at found
      obtain rfl := Option.some.inj found
      exact moved waits
  · rcases step.effect with ⟨picked, _, effect⟩
    have before_eq := step.1
    have after_eq := step.2.1
    rcases event with ⟨origin, command, success, before, after⟩
    simp only at effect before_eq after_eq
    subst before_eq after_eq
    rintro (⟨succeeds, joins, session⟩ | ⟨notAccepted, before⟩)
    · simp only at succeeds joins
      subst succeeds joins
      cases effect with
      | @group named command actor _ view held inner =>
          rw [(sessions _ _).mp session] at held
          obtain rfl := Option.some.inj held
          simp only [Function.update_self]
          exact inner.joined
    · cases effect with
      | @group named command actor _ view held inner =>
          by_cases same : groupId = named
          · subst same
            simp only [Function.update_self]
            rcases inner.stillPending before with still |
              ⟨succeeds, ⟨username, accepts⟩, ⟨group, found, owner, waits⟩, later⟩
            · exact still
            · refine absurd ⟨succeeds, ⟨username, ?_⟩, ⟨group, found, ?_, waits⟩, ?_⟩ notAccepted
              · simp only [accepts]
              · rw [owner]
                exact (sessions _ _).mpr held
              · simp only [Function.update_self]
                exact later
          · simp only [Function.update_of_ne same]
            exact before
      | _ => exact before

/-- A user is a member behind a step exactly if it has just been accepted, or was one before
and has not left. -/
theorem Step.member_iff {past : List Event} (step : source.Step event target)
    (sessions : ∀ origin other,
      Event.SessionOf origin other past ↔ source.sessions origin = some other) :
    GroupView.Member (target.groups groupId) user ↔
      Event.Accepts groupId user event past ∨
        (¬Event.Leaves groupId user event past ∧
          GroupView.Member (source.groups groupId) user) := by
  constructor
  · intro member
    rcases step.member member with
      ⟨success, accepts, ⟨view, found, session, pending⟩, moved⟩ | ⟨stays, before⟩
    · obtain ⟨after, held, joined⟩ := member
      refine Or.inl ⟨success, accepts, ⟨view, ?_, (sessions _ _).mpr session, pending⟩, after, ?_,
        fun waits => moved ⟨after, held, waits⟩, joined⟩
      · rw [step.1]
        exact found
      · rw [step.2.1]
        exact held
    · refine Or.inr ⟨?_, before⟩
      rintro ⟨success, leaves, session⟩
      exact stays ⟨success, leaves, (sessions _ _).mp session⟩
  · rintro (⟨_, _, _, view, found, _, joined⟩ | ⟨notLeft, wasMember⟩)
    · rw [step.2.1] at found
      exact ⟨view, found, joined⟩
    · rcases step.effect with ⟨picked, _, effect⟩
      rcases event with ⟨origin, command, success, before, after⟩
      simp only at effect
      cases effect with
      | @group named command actor _ view held inner =>
          by_cases same : groupId = named
          · subst same
            simp only [Function.update_self]
            rcases inner.stillMember wasMember with still | ⟨leaves, succeeds, actor_eq⟩
            · exact still
            · subst leaves succeeds
              rw [← actor_eq] at held
              exact absurd ⟨rfl, rfl, (sessions _ _).mpr held⟩ notLeft
          · simp only [Function.update_of_ne same]
            exact wasMember
      | _ => exact wasMember

/-- A group has an owner behind a step exactly if this user has just created it, or had it
before. -/
theorem Step.owner_iff {past : List Event} (step : source.Step event target)
    (sessions : ∀ origin other,
      Event.SessionOf origin other past ↔ source.sessions origin = some other) :
    (∃ view, target.groups groupId = some view ∧ view.owner = user) ↔
      Event.Founds groupId user event past ∨
        (True ∧ ∃ view, source.groups groupId = some view ∧ view.owner = user) := by
  constructor
  · rintro ⟨view, found, rfl⟩
    cases earlier : source.groups groupId with
    | some held =>
        obtain ⟨later, same, owner⟩ := step.owner earlier
        rw [found] at same
        obtain rfl := Option.some.inj same
        exact Or.inr ⟨trivial, held, rfl, owner.symm⟩
    | none =>
        obtain ⟨creates, session⟩ := step.created earlier found
        refine Or.inl ⟨?_, creates, (sessions _ _).mpr session⟩
        rw [← Bool.not_eq_false]
        intro failed
        rcases step.effect with ⟨picked, _, effect⟩
        rw [creates, failed] at effect
        cases effect with
        | idle =>
            rw [earlier] at found
            cases found
        | group held inner =>
            simp only [Function.update_self] at found
            rw [earlier] at inner
            cases inner
            cases found
  · rintro (⟨succeeds, creates, session⟩ | ⟨_, view, found, rfl⟩)
    · rcases step.effect with ⟨picked, _, effect⟩
      rw [creates, succeeds] at effect
      have inSession := (sessions _ _).mp session
      cases effect with
      | @group _ _ actor _ view held inner =>
          rw [inSession] at held
          obtain rfl := Option.some.inj held
          simp only [Function.update_self]
          generalize source.groups groupId = earlier at inner
          cases inner
          exact ⟨_, rfl, rfl⟩
    · obtain ⟨later, same, owner⟩ := step.owner found
      exact ⟨later, same, owner⟩

/-- A login succeeds for the user that the database has under the name, with its password,
where nobody is logged in. -/
theorem login_iff {directory : Directory} {picked : Option User} {origin : EndpointID}
    {username password : Bytes} :
    (directory.exec picked origin (.login username password)).1 = true ↔
      username ≠ [] ∧ password ≠ [] ∧ directory.sessions origin = none ∧
        ∃ user, directory.users username = some user ∧ user.password = password := by
  simp only [exec]
  by_cases empty : username = [] ∨ password = []
  · rw [if_pos empty]
    refine iff_of_false Bool.false_ne_true ?_
    rintro ⟨named, secret, _⟩
    exact empty.elim named secret
  · rw [if_neg empty]
    rw [not_or] at empty
    cases session : directory.sessions origin with
    | some other => simp
    | none =>
        cases found : directory.users username with
        | none => simp
        | some user =>
            by_cases same : user.password = password
            · simp [same, empty]
            · simp [same]

end Directory

/-! ## What a history decides -/

section Histories

variable {history : List Event} {directory : Directory} {groupId : Bytes} {user : User}

theorem registered_iff (run : Run Directory.empty Directory.Step history directory) :
    Event.Registered user history ↔ directory.users user.username = some user := by
  apply run.since_iff (p := fun directory => directory.users user.username = some user)
  · nofun
  · intro past source event target _ step
    exact step.users_iff

theorem waits_iff (run : Run Directory.empty Directory.Step history directory) :
    Event.Waits groupId user history ↔ GroupView.Pending (directory.groups groupId) user := by
  apply run.since_iff (p := fun directory => GroupView.Pending (directory.groups groupId) user)
  · rintro ⟨view, found, _⟩
    cases found
  · intro past source event target earlier step
    exact step.pending_iff fun _ _ => sessionOf_iff earlier

theorem belongs_iff (run : Run Directory.empty Directory.Step history directory) :
    Event.Belongs groupId user history ↔ GroupView.Member (directory.groups groupId) user := by
  apply run.since_iff (p := fun directory => GroupView.Member (directory.groups groupId) user)
  · rintro ⟨view, found, _⟩
    cases found
  · intro past source event target earlier step
    exact step.member_iff fun _ _ => sessionOf_iff earlier

theorem owns_iff (run : Run Directory.empty Directory.Step history directory) :
    Event.Owns groupId user history ↔
      ∃ view, directory.groups groupId = some view ∧ view.owner = user := by
  apply run.since_iff (p := fun directory =>
    ∃ view, directory.groups groupId = some view ∧ view.owner = user)
  · rintro ⟨view, found, _⟩
    cases found
  · intro past source event target earlier step
    exact step.owner_iff fun _ _ => sessionOf_iff earlier

end Histories

/-! ## Runs of the handlers -/

section Runs

variable (platform : Platform) (transactions : List Transaction)

theorem observe_valid (history : List Event) {tracker : Tracker} (valid : tracker.Valid) :
    (observe platform history tracker transactions).2.Valid := by
  induction transactions generalizing history tracker with
  | nil => exact valid
  | cons transaction transactions ih =>
      exact ih _ (handle_valid platform valid transaction)

theorem group_iff {tracker : Tracker} {groupId : Bytes} (p : GroupView → Prop) :
    (∃ group, tracker.group? groupId = some group ∧ p group.view) ↔
      ∃ view, tracker.directory.groups groupId = some view ∧ p view := by
  constructor
  · rintro ⟨group, found, holds⟩
    exact ⟨group.view, Tracker.directory_groups_eq found, holds⟩
  · rintro ⟨view, found, holds⟩
    obtain ⟨group, isGroup, rfl⟩ := Option.map_eq_some_iff.mp found
    exact ⟨group, isGroup, holds⟩

/-- A tracker holds what its history says, and nothing else: accounts, sessions, join
requests, members and owners. -/
theorem state_of_history (user : User) :
    let (history, tracker) := observe platform [] .empty transactions
    (tracker.user? user.username = some user ↔ Event.Registered user history) ∧
      (∀ origin, tracker.session? origin = some user ↔ Event.SessionOf origin user history) ∧
      ∀ groupId,
        ((∃ group, tracker.group? groupId = some group ∧ user ∈ group.joinRequests) ↔
            Event.Waits groupId user history) ∧
          ((∃ group, tracker.group? groupId = some group ∧ user ∈ group.users) ↔
            Event.Belongs groupId user history) ∧
          ((∃ group, tracker.group? groupId = some group ∧ group.owner = user) ↔
            Event.Owns groupId user history) := by
  have run := run_observe platform transactions Tracker.valid_empty Run.start
  refine ⟨(registered_iff run).symm, fun origin => (sessionOf_iff run).symm, fun groupId =>
    ⟨?_, ?_, ?_⟩⟩
  · rw [waits_iff run, GroupView.Pending, ← group_iff]
    simp only [Group.view, UnorderedSet.mem_toFinset]
  · rw [belongs_iff run, GroupView.Member, ← group_iff]
    simp only [Group.view, UnorderedSet.mem_toFinset]
  · rw [owns_iff run, ← group_iff]
    rfl

/-- Who may log in.  The account was created with this password and its name has not been
deleted since, and nobody is logged in at the origin. -/
theorem login_succeeds_iff (transaction : Transaction) {username password : Bytes}
    (logsIn : command platform transaction = .login username password) :
    let (history, tracker) := observe platform [] .empty transactions
    succeeded (handle platform tracker transaction).1 = true ↔
      username ≠ [] ∧ password ≠ [] ∧
        (∀ user, ¬Event.SessionOf transaction.origin user history) ∧
        ∃ user, Event.Registered user history ∧ user.username = username ∧
          user.password = password := by
  have run := run_observe platform transactions Tracker.valid_empty Run.start
  have valid := observe_valid platform transactions [] Tracker.valid_empty
  generalize observe platform [] .empty transactions = observed at run valid
  rcases observed with ⟨history, tracker⟩
  have named := Directory.named_of_run run
  have executed := congrArg Prod.fst (handle_exec platform valid transaction)
  rw [logsIn] at executed
  simp only at executed ⊢
  rw [executed, Directory.login_iff, Option.eq_none_iff_forall_ne_some]
  refine and_congr Iff.rfl (and_congr Iff.rfl (and_congr ?_ ?_))
  · exact forall_congr' fun user => not_congr (sessionOf_iff run).symm
  · constructor
    · rintro ⟨user, found, same⟩
      have name_eq := named username user found
      exact ⟨user, (registered_iff run).mpr (name_eq ▸ found), name_eq, same⟩
    · rintro ⟨user, registered, rfl, same⟩
      exact ⟨user, (registered_iff run).mp registered, same⟩

/-- Ann has deleted her account and made a new one. -/
def annTwice : List Transaction :=
  [ascii "7 create_user ann pw", ascii "7 delete_user ann",
    ascii "7 create_user ann key"].filterMap (parseRequest .oldestFirst)

theorem login_succeeds_iff_ann :
    succeeded (handle .oldestFirst (observe .oldestFirst [] .empty annTwice).2
        ⟨7, .user .login, ascii "7 login ann key", {}⟩).1 = true ↔
      ascii "ann" ≠ [] ∧ ascii "key" ≠ [] ∧
        (∀ user, ¬Event.SessionOf 7 user (observe .oldestFirst [] .empty annTwice).1) ∧
        ∃ user, Event.Registered user (observe .oldestFirst [] .empty annTwice).1 ∧
          user.username = ascii "ann" ∧ user.password = ascii "key" :=
  login_succeeds_iff .oldestFirst annTwice ⟨7, .user .login, ascii "7 login ann key", {}⟩
    (show command .oldestFirst ⟨7, .user .login, ascii "7 login ann key", {}⟩ =
      .login (ascii "ann") (ascii "key") by decide +kernel)

end Runs

end P2PFileShare
