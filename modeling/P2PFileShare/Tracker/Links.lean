import P2PFileShare.Tracker.Runs

/-!
# Links to users

Sessions and groups hold pointers to user objects.  A user comes into a session from the
database, and into a group from a session or from the join requests of the group.  Only
the deletion of a user breaks such a link, since it clears the database alone.
-/

namespace P2PFileShare

open Container Text Transition

/-- A tracker refers to a user in a session or in a group. -/
def Tracker.RefersTo (tracker : Tracker) (user : User) : Prop :=
  (∃ origin, tracker.session? origin = some user) ∨
    ∃ groupId group, tracker.group? groupId = some group ∧
      (user = group.owner ∨ user ∈ group.users ∨ user ∈ group.joinRequests)

/-- The users referred to are the ones that the database holds under their names. -/
def Tracker.Linked (tracker : Tracker) : Prop :=
  ∀ user, tracker.RefersTo user → tracker.user? user.username = some user

/-- If a message deletes a user, the tracker does not refer to a user of that name. -/
def Tracker.Spares (platform : Platform) (tracker : Tracker) (message : Network × Bytes) :
    Prop :=
  ∀ transaction ∈ parseRequest platform (message.2.drop 1), ∀ username,
    command platform transaction = .deleteUser username →
      ∀ user, tracker.RefersTo user → user.username ≠ username

/-! ## Links of a directory -/

def GroupView.RefersTo (view : GroupView) (user : User) : Prop :=
  user = view.owner ∨ user ∈ view.members ∨ user ∈ view.pending

/-- A command brings no user into a group but the one that gives it and the one that it
accepts. -/
theorem GroupCommand.Effect.refersTo {picked : Option User} {user other : User}
    {command : GroupCommand} {view after : Option GroupView} {success : Bool}
    (effect : Effect picked user command view success after)
    (refers : ∃ group, after = some group ∧ group.RefersTo other) :
    other = user ∨ (∃ username, command = .accept username ∧ picked = some other) ∨
      ∃ group, view = some group ∧ group.RefersTo other := by
  rcases refers with ⟨group, after_eq, refers⟩
  cases effect with
  | idle => exact Or.inr (Or.inr ⟨group, after_eq, refers⟩)
  | create =>
      obtain rfl := Option.some.inj after_eq
      rcases refers with isOwner | isMember | isPending
      · exact Or.inl isOwner
      · cases isMember
      · cases isPending
  | @join view outside =>
      obtain rfl := Option.some.inj after_eq
      rcases refers with isOwner | isMember | isPending
      · exact Or.inr (Or.inr ⟨view, rfl, Or.inl isOwner⟩)
      · exact Or.inr (Or.inr ⟨view, rfl, Or.inr (Or.inl isMember)⟩)
      · rcases Finset.mem_insert.mp isPending with same | waited
        · exact Or.inl same
        · exact Or.inr (Or.inr ⟨view, rfl, Or.inr (Or.inr waited)⟩)
  | @leave view member =>
      obtain rfl := Option.some.inj after_eq
      rcases refers with isOwner | isMember | isPending
      · exact Or.inr (Or.inr ⟨view, rfl, Or.inl isOwner⟩)
      · exact Or.inr (Or.inr ⟨view, rfl, Or.inr (Or.inl (Finset.mem_of_mem_erase isMember))⟩)
      · exact Or.inr (Or.inr ⟨view, rfl, Or.inr (Or.inr isPending)⟩)
  | @accept view joiner username owner pick =>
      obtain rfl := Option.some.inj after_eq
      rcases refers with isOwner | isMember | isPending
      · exact Or.inr (Or.inr ⟨view, rfl, Or.inl isOwner⟩)
      · rcases Finset.mem_insert.mp isMember with same | wasMember
        · subst same
          exact Or.inr (Or.inl ⟨username, rfl, pick⟩)
        · exact Or.inr (Or.inr ⟨view, rfl, Or.inr (Or.inl wasMember)⟩)
      · exact Or.inr (Or.inr ⟨view, rfl, Or.inr (Or.inr (Finset.mem_of_mem_erase isPending))⟩)
  | @upload view | @reseed view | @download view =>
      obtain rfl := Option.some.inj after_eq
      exact Or.inr (Or.inr ⟨view, rfl, refers⟩)

namespace Directory

variable {source target : Directory} {event : Event} {user : User}

def RefersTo (directory : Directory) (user : User) : Prop :=
  (∃ origin, directory.sessions origin = some user) ∨
    ∃ groupId view, directory.groups groupId = some view ∧ view.RefersTo user

def Linked (directory : Directory) : Prop :=
  ∀ user, directory.RefersTo user → directory.users user.username = some user

/-- A step brings no user into a session or a group but from the database, a session or
a group. -/
theorem Step.refersTo (step : source.Step event target) (refers : target.RefersTo user) :
    (∃ username, source.users username = some user) ∨ source.RefersTo user := by
  rcases step.effect with ⟨picked, picks, effect⟩
  rcases event with ⟨origin, command, success, before, after⟩
  simp only at picks effect
  cases effect with
  | idle | createUser | deleteUser => exact Or.inr refers
  | @login username held loggedOut found =>
      rcases refers with ⟨other, session⟩ | inGroup
      · simp only [Function.update_apply] at session
        split at session
        · obtain rfl := Option.some.inj session
          exact Or.inl ⟨username, found⟩
        · exact Or.inr (Or.inl ⟨other, session⟩)
      · exact Or.inr (Or.inr inGroup)
  | logout =>
      rcases refers with ⟨other, session⟩ | inGroup
      · simp only [Function.update_apply] at session
        split at session
        · cases session
        · exact Or.inr (Or.inl ⟨other, session⟩)
      · exact Or.inr (Or.inr inGroup)
  | @group named command actor _ view session inner =>
      rcases refers with inSession | ⟨groupId, group, found, inGroup⟩
      · exact Or.inr (Or.inl inSession)
      simp only [Function.update_apply] at found
      split at found
      · rcases inner.refersTo ⟨group, found, inGroup⟩ with
          rfl | ⟨username, rfl, pick⟩ | ⟨held, before_eq, refers⟩
        · exact Or.inr (Or.inl ⟨origin, session⟩)
        · simp only [Picks, pick, candidates] at picks
          split at picks
          · next held before_eq =>
              have waited := (Finset.mem_filter.mp picks).1
              exact Or.inr (Or.inr ⟨named, held, before_eq, Or.inr (Or.inr waited)⟩)
          · cases picks
        · exact Or.inr (Or.inr ⟨named, held, before_eq, refers⟩)
      · exact Or.inr (Or.inr ⟨groupId, group, found, inGroup⟩)

/-- The deletion of a user clears its name in the database, and nothing else. -/
theorem Step.deleteUser {username : Bytes} (step : source.Step event target)
    (deletes : event.command = .deleteUser username) :
    target = { source with users := Function.update source.users username none } := by
  rcases step with ⟨_, _, picked, _, executed⟩
  rw [deletes] at executed
  have after := congrArg Prod.snd executed
  simp only [exec] at after
  split at after
  · exact after.symm
  · next missing =>
      rw [← after, Function.update_eq_self_iff.mpr]
      exact (Option.not_isSome_iff_eq_none.mp missing).symm

/-- The database keeps a user that is not deleted. -/
theorem Step.users {username : Bytes} (step : source.Step event target)
    (kept : event.command ≠ .deleteUser username) (found : source.users username = some user) :
    target.users username = some user := by
  rcases step.effect with ⟨picked, _, effect⟩
  rcases event with ⟨origin, command, success, before, after⟩
  simp only at kept effect
  cases effect with
  | @createUser other password fresh =>
      have distinct : username ≠ other := by
        rintro rfl
        rw [found] at fresh
        cases fresh
      simpa only [Function.update_of_ne distinct] using found
  | deleteUser other =>
      have distinct : username ≠ other := by
        rintro rfl
        exact kept rfl
      simpa only [Function.update_of_ne distinct] using found
  | _ => exact found

/-- A step keeps the links exactly if it does not delete a user that is referred to. -/
theorem Step.linked_iff (step : source.Step event target) (named : source.Named)
    (linked : source.Linked) :
    target.Linked ↔ ∀ username, event.command = .deleteUser username →
      ∀ user, source.RefersTo user → user.username ≠ username := by
  constructor
  · rintro after username deletes user refers rfl
    obtain rfl := step.deleteUser deletes
    have found := after user refers
    simp only [Function.update_self] at found
    cases found
  · intro spares user refers
    rcases step.refersTo refers with ⟨username, found⟩ | before
    · have name_eq := named username user found
      subst name_eq
      by_cases deletes : event.command = .deleteUser user.username
      · obtain rfl := step.deleteUser deletes
        exact absurd rfl (spares _ deletes user refers)
      · exact step.users deletes found
    · have kept : event.command ≠ .deleteUser user.username := fun deletes =>
        spares _ deletes user before rfl
      exact step.users kept (linked user before)

end Directory

/-! ## Links of a tracker -/

section Runs

variable {platform : Platform} {config : Config} {source target : Tracker}
  {message : Network × Bytes}

theorem Tracker.refersTo_directory (tracker : Tracker) (user : User) :
    tracker.directory.RefersTo user ↔ tracker.RefersTo user := by
  have inGroup (groupId : Bytes) :
      (∃ view, tracker.directory.groups groupId = some view ∧ view.RefersTo user) ↔
        ∃ group, tracker.group? groupId = some group ∧
          (user = group.owner ∨ user ∈ group.users ∨ user ∈ group.joinRequests) := by
    cases found : tracker.group? groupId with
    | none => simp [Tracker.directory_groups_none found]
    | some group =>
        simp [Tracker.directory_groups_eq found, GroupView.RefersTo, Group.view]
  exact or_congr Iff.rfl (exists_congr inGroup)

theorem Tracker.linked_directory (tracker : Tracker) :
    tracker.directory.Linked ↔ tracker.Linked :=
  forall_congr' fun user => imp_congr (tracker.refersTo_directory user) Iff.rfl

theorem Tracker.Receives.linked_iff (receives : source.Receives platform config message target)
    (valid : source.Valid) (named : source.directory.Named) (linked : source.Linked) :
    target.Linked ↔ source.Spares platform message := by
  cases parsing : parseRequest platform (message.2.drop 1) with
  | none =>
      rw [← target.linked_directory, receives.unchanged valid parsing, source.linked_directory]
      apply iff_of_true linked
      intro transaction isParsed
      rw [parsing] at isParsed
      cases isParsed
  | some transaction =>
      obtain ⟨event, _, command_eq, step⟩ := receives.step valid parsing
      rw [← target.linked_directory, step.linked_iff named (source.linked_directory.mpr linked),
        command_eq, Tracker.Spares]
      simp only [parsing, Option.mem_def, Option.some.injEq, forall_eq',
        source.refersTo_directory]

/-- The links hold all along a run exactly if every deletion of it spares the users that
are referred to. -/
theorem links_kept_iff (platform : Platform) (config : Config)
    (history : List (Network × Bytes)) (tracker : Tracker) :
    Run Tracker.empty (fun source message target =>
        source.Receives platform config message target ∧ source.Spares platform message)
        history tracker ↔
      Run Tracker.empty (fun source message target =>
        source.Receives platform config message target ∧ target.Linked) history tracker := by
  apply Run.kept_iff_good (p := fun tracker => tracker.Valid ∧ tracker.directory.Named)
  · refine ⟨Tracker.valid_empty, ?_⟩
    intro username user found
    cases found
  · rintro user (⟨origin, session⟩ | ⟨groupId, group, found, _⟩)
    · cases session
    · cases found
  · rintro source message target ⟨valid, named⟩ receives
    exact ⟨receives.valid valid, receives.named valid named⟩
  · rintro source message target ⟨valid, named⟩ linked receives
    exact receives.linked_iff valid named linked

/-- A user that is logged in and owns a group is deleted. -/
def deletedOwner : List (Network × Bytes) :=
  overReliable [ascii "17 create_user ann pw", ascii "17 login ann pw",
    ascii "17 create_group g", ascii "17 delete_user ann"]

theorem links_broken :
    ∃ tracker, Run Tracker.empty (Tracker.Receives .oldestFirst .alone) deletedOwner.reverse
      tracker ∧ ¬tracker.Linked := by
  have run : Run Tracker.empty (Tracker.Receives .oldestFirst .alone)
      (deletedOwner.reverse ++ []) (serveOn .oldestFirst .alone .empty deletedOwner) :=
    run_serveOn deletedOwner .start
  rw [List.append_nil] at run
  refine ⟨_, run, ?_⟩
  intro linked
  have session : (serveOn .oldestFirst .alone .empty deletedOwner).session? 7 =
      some { username := ascii "ann", password := ascii "pw", serial := 0 } := by
    decide +kernel
  exact absurd (linked _ (Or.inl ⟨7, session⟩)) (by decide +kernel)

end Runs

end P2PFileShare
