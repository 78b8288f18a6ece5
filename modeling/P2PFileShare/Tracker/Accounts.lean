import P2PFileShare.Tracker.Chronicle
import P2PFileShare.Tracker.Links

/-!
# Accounts that are deleted

The deletion of an account clears its name in the database, while sessions and groups go on
pointing to the user object.  An account of the same name that is made later is another
object: it inherits no session and no group.  And a group whose owner nobody can be any more
accepts nobody.
-/

namespace P2PFileShare

open Container Text Transition

namespace Directory

/-- Every user that is in the database, in a session or in a group was made before. -/
def Dated (directory : Directory) : Prop :=
  ∀ user, directory.users user.username = some user ∨ directory.RefersTo user →
    user.serial < directory.made user.username

/-- No user is made twice. -/
def DatedIn (history : List Event) (directory : Directory) : Prop :=
  ∀ event ∈ history, ∀ user, event.Creates user → user.serial < directory.made user.username

variable {source target directory : Directory} {event : Event} {history : List Event}
  {user : User}

/-- A new user has the number that its name has reached, and a name never falls back. -/
theorem Step.made (step : source.Step event target) :
    (∀ username, source.made username ≤ target.made username) ∧
      ∀ user, event.Creates user →
        user.serial = source.made user.username ∧
          target.made user.username = user.serial + 1 ∧
          source.users user.username = none := by
  rcases step.effect with ⟨picked, _, effect⟩
  have after_eq := step.2.1
  rcases event with ⟨origin, command, success, before, after⟩
  simp only at effect after_eq
  subst after_eq
  cases effect with
  | @createUser username password fresh =>
      constructor
      · intro other
        by_cases same : other = username
        · simp only [same, Function.update_self]
          exact Nat.le_succ _
        · simp only [Function.update_of_ne same]
          exact Nat.le_refl _
      · rintro user ⟨_, creates, found⟩
        obtain ⟨rfl, rfl⟩ := Command.createUser.inj creates
        simp only [Function.update_self, Option.some.injEq] at found ⊢
        exact ⟨(congrArg User.serial found).symm, by rw [← congrArg User.serial found], fresh⟩
  | idle =>
      refine ⟨fun _ => Nat.le_refl _, ?_⟩
      rintro user ⟨succeeds, _⟩
      cases succeeds
  | _ =>
      refine ⟨fun _ => Nat.le_refl _, ?_⟩
      rintro user ⟨_, creates, _⟩
      cases creates

theorem Step.dated (step : source.Step event target) (named : source.Named)
    (dated : source.Dated) : target.Dated := by
  obtain ⟨grows, creation⟩ := step.made
  have older {user : User} (known : source.users user.username = some user ∨
      source.RefersTo user) : user.serial < target.made user.username :=
    (dated user known).trans_le (grows _)
  rintro user (found | refers)
  · rcases step.users_iff.mp found with creates | ⟨_, before⟩
    · obtain ⟨_, counted, _⟩ := creation user creates
      rw [counted]
      exact Nat.lt_succ_self _
    · exact older (Or.inl before)
  · rcases step.refersTo refers with ⟨username, found⟩ | before
    · rw [← named username user found] at found
      exact older (Or.inl found)
    · exact older (Or.inr before)

theorem dated_run (run : Run Directory.empty Directory.Step history directory) :
    directory.Dated ∧ directory.DatedIn history := by
  apply run.invariant (p := fun history directory => directory.Dated ∧ directory.DatedIn history)
  · refine ⟨?_, nofun⟩
    rintro user (found | ⟨_, session⟩ | ⟨_, _, found, _⟩)
    · cases found
    · cases session
    · cases found
  · rintro past source event target earlier ⟨dated, datedIn⟩ step
    refine ⟨step.dated (named_of_run earlier) dated, ?_⟩
    obtain ⟨grows, creation⟩ := step.made
    intro other member user creates
    rcases List.mem_cons.mp member with rfl | before
    · rw [(creation user creates).2.1]
      exact Nat.lt_succ_self _
    · exact (datedIn other before user creates).trans_le (grows _)

/-- A user that has just been made is new: nothing refers to it, and it was not made
before. -/
theorem fresh_of_creates (run : Run Directory.empty Directory.Step history source)
    (step : source.Step event target) (creates : event.Creates user) :
    ¬target.RefersTo user ∧ ∀ other ∈ history, ¬other.Creates user := by
  obtain ⟨dated, datedIn⟩ := dated_run run
  obtain ⟨serial, _, missing⟩ := step.made.2 user creates
  constructor
  · intro refers
    rcases step.refersTo refers with ⟨username, found⟩ | before
    · rw [← named_of_run run username user found, missing] at found
      cases found
    · exact absurd (dated user (Or.inr before)) (by omega)
  · intro other member again
    exact absurd (datedIn other member user again) (by omega)

/-! ## Groups without an owner -/

/-- The owner of the group is not in the database any more, and is logged in nowhere. -/
structure Orphaned (directory : Directory) (groupId : Bytes) (view : GroupView) : Prop where
  found : directory.groups groupId = some view
  deleted : directory.users view.owner.username ≠ some view.owner
  absent : ∀ origin, directory.sessions origin ≠ some view.owner

/-- The members of an orphaned group can only become fewer, and those that wait more. -/
theorem Step.orphaned (step : source.Step event target) (named : source.Named)
    (dated : source.Dated) {groupId : Bytes} {view : GroupView}
    (orphaned : source.Orphaned groupId view) :
    ∃ later, target.Orphaned groupId later ∧ later.owner = view.owner ∧
      later.members ⊆ view.members ∧ view.pending ⊆ later.pending := by
  obtain ⟨later, found, owner⟩ := step.owner orphaned.found
  have referred : source.RefersTo view.owner :=
    Or.inr ⟨groupId, view, orphaned.found, Or.inl rfl⟩
  have stays : target.Orphaned groupId later := by
    refine ⟨found, ?_, ?_⟩
    · rw [owner]
      intro again
      rcases step.users_iff.mp again with creates | ⟨_, before⟩
      · have serial := (step.made.2 _ creates).1
        exact absurd (dated view.owner (Or.inr referred)) (by omega)
      · exact orphaned.deleted before
    · rw [owner]
      intro origin session
      rcases (step.sessions_eq_some_iff named).mp session with ⟨_, _, _, present⟩ | ⟨_, before⟩
      · rw [step.1] at present
        exact orphaned.deleted present
      · exact orphaned.absent origin before
  refine ⟨later, stays, owner, ?_, ?_⟩
  · intro user member
    rcases step.member ⟨later, found, member⟩ with
      ⟨_, _, ⟨held, before, session, _⟩, _⟩ | ⟨_, held, before, member⟩
    · rw [orphaned.found] at before
      obtain rfl := Option.some.inj before
      exact absurd session (orphaned.absent _)
    · rw [orphaned.found] at before
      obtain rfl := Option.some.inj before
      exact member
  · intro user waits
    rcases step.effect with ⟨picked, _, effect⟩
    have sessions : source.sessions event.origin ≠ some view.owner := orphaned.absent _
    rcases event with ⟨origin, command, success, before, after⟩
    simp only at effect sessions
    cases effect with
    | @group named command actor _ _ held inner =>
        by_cases same : groupId = named
        · subst same
          simp only [Function.update_self] at found
          rcases inner.stillPending ⟨view, orphaned.found, waits⟩ with
            ⟨group, same, still⟩ | ⟨_, _, ⟨group, same, owns, _⟩, _⟩
          · rw [found] at same
            obtain rfl := Option.some.inj same
            exact still
          · rw [orphaned.found] at same
            obtain rfl := Option.some.inj same
            exact absurd (owns ▸ held) sessions
        · simp only [Function.update_of_ne same, orphaned.found] at found
          obtain rfl := Option.some.inj found
          exact waits
    | _ =>
        simp only [orphaned.found] at found
        obtain rfl := Option.some.inj found
        exact waits

end Directory

/-! ## Runs of the handlers -/

section Runs

variable (platform : Platform)

/-- A request is a step, and the run goes on with it. -/
theorem step_event {tracker : Tracker} (valid : tracker.Valid) (transaction : Transaction) :
    tracker.directory.Step (tracker.event platform transaction)
      (handle platform tracker transaction).2.directory :=
  ⟨rfl, rfl, tracker.picked platform (command platform transaction),
    tracker.picks_picked platform _, (handle_exec platform valid transaction).symm⟩

/-- A new account, be it under a name that was deleted before, is nobody that was there
before, and inherits no session and no place in a group. -/
theorem new_account_inherits_nothing (transactions : List Transaction)
    (transaction : Transaction) {username password : Bytes}
    (creates : command platform transaction = .createUser username password)
    (succeeds : succeeded
      (handle platform (observe platform [] .empty transactions).2 transaction).1 = true) :
    let (history, tracker) := observe platform [] .empty transactions
    let after := (handle platform tracker transaction).2
    ∃ user, after.user? username = some user ∧ user.username = username ∧
      user.password = password ∧ ¬after.RefersTo user ∧
      ∀ event ∈ history, ¬event.Creates user := by
  have run := run_observe platform transactions Tracker.valid_empty Run.start
  have valid := observe_valid platform transactions [] Tracker.valid_empty
  generalize observe platform [] .empty transactions = observed at run valid succeeds
  rcases observed with ⟨history, tracker⟩
  have step := step_event platform valid transaction
  obtain ⟨user, found, name_eq, password_eq⟩ : ∃ user,
      (handle platform tracker transaction).2.directory.users username = some user ∧
        user.username = username ∧ user.password = password := by
    rcases step.effect with ⟨picked, _, effect⟩
    simp only [Tracker.event, creates, succeeds] at effect
    generalize (handle platform tracker transaction).2.directory = after at effect
    cases effect with
    | createUser _ fresh => exact ⟨_, Function.update_self .., rfl, rfl⟩
  have created : (tracker.event platform transaction).Creates user := by
    refine ⟨succeeds, ?_, ?_⟩
    · rw [name_eq, password_eq]
      exact creates
    · rw [name_eq]
      exact found
  obtain ⟨unknown, first⟩ := Directory.fresh_of_creates run step created
  exact ⟨user, found, name_eq, password_eq,
    fun refers => unknown ((Tracker.refersTo_directory _ user).mpr refers), first⟩

theorem orphaned_observe (transactions : List Transaction) {history : List Event}
    {tracker : Tracker} (valid : tracker.Valid)
    (run : Run Directory.empty Directory.Step history tracker.directory) {groupId : Bytes}
    {view : GroupView} (orphaned : tracker.directory.Orphaned groupId view) :
    ∃ later, (observe platform history tracker transactions).2.directory.Orphaned groupId later ∧
      later.owner = view.owner ∧ later.members ⊆ view.members ∧ view.pending ⊆ later.pending := by
  induction transactions generalizing history tracker view with
  | nil => exact ⟨view, orphaned, rfl, subset_refl _, subset_refl _⟩
  | cons transaction transactions ih =>
      have step := step_event platform valid transaction
      obtain ⟨next, stays, owner, fewer, more⟩ := step.orphaned (Directory.named_of_run run)
        (Directory.dated_run run).1 orphaned
      obtain ⟨later, ends, same, less, further⟩ :=
        ih (handle_valid platform valid transaction) (run.step step) stays
      exact ⟨later, ends, same.trans owner, less.trans fewer, more.trans further⟩

/-- When the owner of a group has been deleted and is logged in nowhere, this is so for ever:
nobody is accepted into the group any more, whoever asks and whatever accounts are made. -/
theorem orphaned_group_shrinks (transactions later : List Transaction) {groupId : Bytes}
    {group : Group}
    (found : (observe platform [] .empty transactions).2.group? groupId = some group)
    (deleted : (observe platform [] .empty transactions).2.user? group.owner.username ≠
      some group.owner)
    (absent : ∀ origin, (observe platform [] .empty transactions).2.session? origin ≠
      some group.owner) :
    let (history, tracker) := observe platform [] .empty transactions
    ∃ after, (observe platform history tracker later).2.group? groupId = some after ∧
      after.owner = group.owner ∧ (∀ user ∈ after.users, user ∈ group.users) ∧
      ∀ user ∈ group.joinRequests, user ∈ after.joinRequests := by
  have run := run_observe platform transactions Tracker.valid_empty Run.start
  have valid := observe_valid platform transactions [] Tracker.valid_empty
  generalize observe platform [] .empty transactions = observed at run valid found deleted absent
  rcases observed with ⟨history, tracker⟩
  have orphaned : tracker.directory.Orphaned groupId group.view :=
    ⟨Tracker.directory_groups_eq found, deleted, absent⟩
  obtain ⟨view, ends, owner, fewer, more⟩ := orphaned_observe platform later valid run orphaned
  obtain ⟨after, isGroup, rfl⟩ := Option.map_eq_some_iff.mp ends.found
  refine ⟨after, isGroup, owner, fun user member => ?_, fun user waits => ?_⟩
  · exact UnorderedSet.mem_toFinset.mp (fewer (UnorderedSet.mem_toFinset.mpr member))
  · exact UnorderedSet.mem_toFinset.mp (more (UnorderedSet.mem_toFinset.mpr waits))

end Runs

/-- Ann has a group, and has deleted her account. -/
def annGone : List Transaction :=
  [ascii "7 create_user ann pw", ascii "7 login ann pw", ascii "7 create_group g",
    ascii "7 delete_user ann", ascii "7 logout"].filterMap (parseRequest .oldestFirst)

theorem new_account_inherits_nothing_ann :
    ∃ user, (handle .oldestFirst (observe .oldestFirst [] .empty annGone).2
        ⟨7, .user .create, ascii "7 create_user ann pw", {}⟩).2.user? (ascii "ann") = some user ∧
      user.username = ascii "ann" ∧ user.password = ascii "pw" ∧
      ¬(handle .oldestFirst (observe .oldestFirst [] .empty annGone).2
        ⟨7, .user .create, ascii "7 create_user ann pw", {}⟩).2.RefersTo user ∧
      ∀ event ∈ (observe .oldestFirst [] .empty annGone).1, ¬event.Creates user :=
  new_account_inherits_nothing .oldestFirst annGone
    ⟨7, .user .create, ascii "7 create_user ann pw", {}⟩
    (show command .oldestFirst ⟨7, .user .create, ascii "7 create_user ann pw", {}⟩ =
      .createUser (ascii "ann") (ascii "pw") by decide +kernel) (by decide +kernel)

/-- Ann makes herself a new account, and Bob asks to join her old group. -/
def bobAsks : List Transaction :=
  [ascii "7 create_user ann pw", ascii "7 login ann pw", ascii "8 create_user bob key",
    ascii "8 login bob key", ascii "8 join_group g",
    ascii "7 accept_request g bob"].filterMap (parseRequest .oldestFirst)

theorem orphaned_group_shrinks_ann :
    ∃ group, (observe .oldestFirst [] .empty annGone).2.group? (ascii "g") = some group ∧
      ∃ after, (observe .oldestFirst (observe .oldestFirst [] .empty annGone).1
          (observe .oldestFirst [] .empty annGone).2 bobAsks).2.group? (ascii "g") = some after ∧
        after.owner = group.owner ∧ (∀ user ∈ after.users, user ∈ group.users) ∧
        ∀ user ∈ group.joinRequests, user ∈ after.joinRequests := by
  obtain ⟨group, found⟩ := Option.isSome_iff_exists.mp
    (show ((observe .oldestFirst [] .empty annGone).2.group? (ascii "g")).isSome = true by
      decide +kernel)
  have owner : ((observe .oldestFirst [] .empty annGone).2.group? (ascii "g")).map Group.owner =
      some ⟨ascii "ann", ascii "pw", 0⟩ := by
    decide +kernel
  rw [found, Option.map_some, Option.some.injEq] at owner
  have nobody : ∀ origin,
      (observe .oldestFirst [] .empty annGone).2.session? origin ≠ some group.owner := by
    intro origin session
    have closed : (observe .oldestFirst [] .empty annGone).2.loggedInUsers.keys.toList = [] := by
      decide +kernel
    have member := UnorderedSet.mem_toList.mpr
      ((UnorderedMap.mem_keys_iff _ origin).mpr (Option.isSome_iff_exists.mpr ⟨_, session⟩))
    rw [closed] at member
    cases member
  refine ⟨group, found, orphaned_group_shrinks .oldestFirst annGone bobAsks found ?_ nobody⟩
  rw [owner]
  decide +kernel

end P2PFileShare
