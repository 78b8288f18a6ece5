import P2PFileShare.Tracker.Runs

/-!
# What holds of every group

A group is stored under its own id and stays there.  Its owner is the user whose session
created it.  A user is the owner of a group, a member of it, or waits to become one, and
never two of these at once: nobody waits who has been a member when asking, and nobody
becomes a member who has not been waiting.
-/

namespace P2PFileShare

open Container Text Transition

structure Group.Sound (groupId : Bytes) (group : Group) : Prop where
  named : group.groupId = groupId
  owner_member : group.owner ∉ group.users
  owner_pending : group.owner ∉ group.joinRequests
  disjoint : ∀ user ∈ group.users, user ∉ group.joinRequests

/-- A message creates a group that is not there yet, and comes from a session of the
owner. -/
def Tracker.Creates (platform : Platform) (tracker : Tracker) (message : Network × Bytes)
    (groupId : Bytes) (owner : User) : Prop :=
  tracker.group? groupId = none ∧
    ∃ transaction ∈ parseRequest platform (message.2.drop 1),
      command platform transaction = .group groupId .create ∧
        tracker.session? transaction.origin = some owner

/-! ## One command -/

structure GroupView.Sound (view : GroupView) : Prop where
  owner_member : view.owner ∉ view.members
  owner_pending : view.owner ∉ view.pending
  disjoint : Disjoint view.members view.pending

namespace GroupCommand

variable {picked : Option User} {user : User} {command : GroupCommand}
  {before after : Option GroupView} {view : GroupView} {success : Bool}

/-- A sound group stays sound if who is accepted has been waiting. -/
theorem Effect.sound (effect : Effect picked user command before success after)
    (sound : ∀ view, before = some view → view.Sound)
    (waiting : ∀ username joiner, command = .accept username → picked = some joiner →
      ∀ view, before = some view → joiner ∈ view.pending)
    (after_eq : after = some view) : view.Sound := by
  cases effect with
  | idle => exact sound view after_eq
  | create =>
      obtain rfl := Option.some.inj after_eq
      exact ⟨Finset.notMem_empty _, Finset.notMem_empty _, Finset.disjoint_empty_left _⟩
  | @join held outside =>
      obtain rfl := Option.some.inj after_eq
      obtain ⟨owner_member, owner_pending, disjoint⟩ := sound held rfl
      rw [GroupView.HasMember, not_or] at outside
      refine ⟨owner_member, ?_, ?_⟩
      · rw [Finset.mem_insert, not_or]
        exact ⟨Ne.symm outside.1, owner_pending⟩
      · exact Finset.disjoint_insert_right.mpr ⟨outside.2, disjoint⟩
  | @leave held member =>
      obtain rfl := Option.some.inj after_eq
      obtain ⟨owner_member, owner_pending, disjoint⟩ := sound held rfl
      exact ⟨fun stays => owner_member (Finset.mem_of_mem_erase stays), owner_pending,
        disjoint.mono_left (Finset.erase_subset _ _)⟩
  | @accept held joiner username owner pick =>
      obtain rfl := Option.some.inj after_eq
      obtain ⟨owner_member, owner_pending, disjoint⟩ := sound held rfl
      have waits := waiting username joiner rfl pick held rfl
      refine ⟨?_, fun stays => owner_pending (Finset.mem_of_mem_erase stays), ?_⟩
      · rw [Finset.mem_insert, not_or]
        exact ⟨fun same => owner_pending (same ▸ waits), owner_member⟩
      · exact Finset.disjoint_insert_left.mpr ⟨Finset.notMem_erase _ _,
          disjoint.mono_right (Finset.erase_subset _ _)⟩
  | @upload held | @reseed held | @download held =>
      obtain rfl := Option.some.inj after_eq
      obtain ⟨owner_member, owner_pending, disjoint⟩ := sound held rfl
      exact ⟨owner_member, owner_pending, disjoint⟩

/-- A group stays, and keeps its owner. -/
theorem Effect.owner (effect : Effect picked user command before success after)
    (before_eq : before = some view) :
    ∃ later, after = some later ∧ later.owner = view.owner := by
  cases effect with
  | idle => exact ⟨view, before_eq, rfl⟩
  | create => cases before_eq
  | _ =>
      obtain rfl := Option.some.inj before_eq
      exact ⟨_, rfl, rfl⟩

/-- A group that was not there has been created by its owner. -/
theorem Effect.created (effect : Effect picked user command before success after)
    (missing : before = none) (after_eq : after = some view) :
    command = .create ∧ view.owner = user := by
  cases effect with
  | idle =>
      rw [missing] at after_eq
      cases after_eq
  | create =>
      obtain rfl := Option.some.inj after_eq
      exact ⟨rfl, rfl⟩
  | _ => cases missing

end GroupCommand

namespace Directory

variable {source target : Directory} {event : Event} {groupId : Bytes} {view : GroupView}

/-- All groups are sound. -/
def Sound (directory : Directory) : Prop :=
  ∀ groupId view, directory.groups groupId = some view → view.Sound

theorem Step.sound (step : source.Step event target) (sound : source.Sound) : target.Sound := by
  rcases step.effect with ⟨picked, picks, effect⟩
  rcases event with ⟨origin, command, success, before, after⟩
  simp only at picks effect
  intro groupId view found
  cases effect with
  | @group named command actor _ changed session inner =>
      simp only [Function.update_apply] at found
      split at found
      · apply inner.sound (fun held before_eq => sound named held before_eq) _ found
        rintro username joiner rfl pick held before_eq
        simp only [Picks, pick, candidates, before_eq] at picks
        exact (Finset.mem_filter.mp picks).1
      · exact sound groupId view found
  | _ => exact sound groupId view found

theorem Step.owner (step : source.Step event target) (found : source.groups groupId = some view) :
    ∃ later, target.groups groupId = some later ∧ later.owner = view.owner := by
  rcases step.effect with ⟨picked, _, effect⟩
  rcases event with ⟨origin, command, success, before, after⟩
  simp only at effect
  cases effect with
  | @group named command actor _ changed session inner =>
      simp only [Function.update_apply]
      split
      · next same =>
          subst same
          exact inner.owner found
      · exact ⟨view, found, rfl⟩
  | _ => exact ⟨view, found, rfl⟩

theorem Step.created (step : source.Step event target) (missing : source.groups groupId = none)
    (found : target.groups groupId = some view) :
    event.command = .group groupId .create ∧ source.sessions event.origin = some view.owner := by
  rcases step.effect with ⟨picked, _, effect⟩
  rcases event with ⟨origin, command, success, before, after⟩
  simp only at effect ⊢
  cases effect with
  | @group named command actor _ changed session inner =>
      simp only [Function.update_apply] at found
      split at found
      · next same =>
          subst same
          obtain ⟨rfl, owner⟩ := inner.created missing found
          exact ⟨rfl, owner ▸ session⟩
      · rw [missing] at found
        cases found
  | _ =>
      rw [missing] at found
      cases found

end Directory

/-! ## Runs of a tracker -/

theorem Group.Changed.groupId_eq {groupId : Bytes} {group after : Group}
    (step : group.Changed groupId after) : after.groupId = group.groupId := by
  cases step with
  | join user =>
      simp only [addJoinRequest]
      split <;> rfl
  | accept user =>
      simp only [addUser, removeJoinRequest]
      split <;> split <;> rfl
  | _ => rfl

/-- Groups are stored under their ids. -/
def Tracker.Filed (tracker : Tracker) : Prop :=
  ∀ groupId group, tracker.group? groupId = some group → group.groupId = groupId

section Runs

variable {platform : Platform} {config : Config} {source target : Tracker}
  {message : Network × Bytes} {groupId : Bytes} {group : Group}

theorem Tracker.Receives.filed (receives : source.Receives platform config message target)
    (filed : source.Filed) : target.Filed := by
  rcases message with ⟨network, message⟩
  subst receives
  cases message with
  | nil => exact filed
  | cons flag data =>
      obtain ⟨log, after, _⟩ :
          ∃ log, (processData platform config source network (flag :: data)).tracker =
              { handled platform source data with successfulTransactions := log } ∧ _ :=
        processData_after config network flag
      rw [after, handled]
      cases parseRequest platform data with
      | none => exact filed
      | some transaction =>
          exact handle_forall_groups (p := fun groupId group => group.groupId = groupId)
            (fun _ _ => rfl) (fun step named => step.groupId_eq.trans named) platform filed
            transaction

theorem Tracker.Receives.sound (receives : source.Receives platform config message target)
    (valid : source.Valid) (sound : source.directory.Sound) : target.directory.Sound := by
  cases parsing : parseRequest platform (message.2.drop 1) with
  | none =>
      rw [receives.unchanged valid parsing]
      exact sound
  | some transaction =>
      obtain ⟨event, _, _, step⟩ := receives.step valid parsing
      exact step.sound sound

/-- A message takes no group away and changes no owner. -/
theorem Tracker.Receives.owner (receives : source.Receives platform config message target)
    (valid : source.Valid) (found : source.group? groupId = some group) :
    ∃ later, target.group? groupId = some later ∧ later.owner = group.owner := by
  have viewed : source.directory.groups groupId = some group.view :=
    Tracker.directory_groups_eq found
  have kept : ∃ later, target.directory.groups groupId = some later ∧
      later.owner = group.view.owner := by
    cases parsing : parseRequest platform (message.2.drop 1) with
    | none =>
        rw [receives.unchanged valid parsing]
        exact ⟨group.view, viewed, rfl⟩
    | some transaction =>
        obtain ⟨event, _, _, step⟩ := receives.step valid parsing
        exact step.owner viewed
  obtain ⟨_, later_eq, owner⟩ := kept
  obtain ⟨later, found, rfl⟩ := Option.map_eq_some_iff.mp later_eq
  exact ⟨later, found, owner⟩

/-- A group that is new behind a message has been created by it. -/
theorem Tracker.Receives.creates (receives : source.Receives platform config message target)
    (valid : source.Valid) (missing : source.group? groupId = none)
    (found : target.group? groupId = some group) :
    source.Creates platform message groupId group.owner := by
  have before := Tracker.directory_groups_none missing
  have after : target.directory.groups groupId = some group.view :=
    Tracker.directory_groups_eq found
  cases parsing : parseRequest platform (message.2.drop 1) with
  | none =>
      rw [receives.unchanged valid parsing, before] at after
      cases after
  | some transaction =>
      obtain ⟨event, origin_eq, command_eq, step⟩ := receives.step valid parsing
      obtain ⟨creates, session⟩ := step.created before after
      rw [command_eq] at creates
      rw [origin_eq] at session
      exact ⟨missing, transaction, parsing, creates, session⟩

/-- What a tracker that has received messages is sure of. -/
theorem serveOn_invariant (platform : Platform) (config : Config)
    (messages : List (Network × Bytes)) :
    (serveOn platform config .empty messages).Valid ∧
      (serveOn platform config .empty messages).Filed ∧
        (serveOn platform config .empty messages).directory.Sound := by
  have run : Run Tracker.empty (Tracker.Receives platform config) (messages.reverse ++ [])
      (serveOn platform config .empty messages) :=
    run_serveOn messages .start
  apply run.invariant (p := fun _ tracker =>
    tracker.Valid ∧ tracker.Filed ∧ tracker.directory.Sound)
  · refine ⟨Tracker.valid_empty, ?_, ?_⟩
    · intro groupId group found
      cases found
    · intro groupId view found
      cases found
  · rintro past source message target _ ⟨valid, filed, sound⟩ receives
    exact ⟨receives.valid valid, receives.filed filed, receives.sound valid sound⟩

/-- A group stays as long as messages arrive. -/
theorem owner_serveOn (messages : List (Network × Bytes)) (valid : source.Valid)
    (found : source.group? groupId = some group) :
    ∃ later, (serveOn platform config source messages).group? groupId = some later ∧
      later.owner = group.owner := by
  induction messages generalizing source group with
  | nil => exact ⟨group, found, rfl⟩
  | cons message messages ih =>
      have receives : source.Receives platform config message
          (processData platform config source message.1 message.2).tracker := rfl
      obtain ⟨next, foundNext, same⟩ := receives.owner valid found
      obtain ⟨later, foundLater, owner⟩ := ih (receives.valid valid) foundNext
      exact ⟨later, foundLater, owner.trans same⟩

/-- Every group goes back to a message of its owner. -/
theorem creates_of_group (messages : List (Network × Bytes))
    (found : (serveOn platform config .empty messages).group? groupId = some group) :
    ∃ before message after, messages = before ++ message :: after ∧
      (serveOn platform config .empty before).Creates platform message groupId group.owner := by
  induction messages using List.reverseRecOn generalizing group with
  | nil => cases found
  | append_singleton messages message ih =>
      obtain ⟨valid, _, _⟩ := serveOn_invariant platform config messages
      have receives : (serveOn platform config .empty messages).Receives platform config message
          (serveOn platform config .empty (messages ++ [message])) :=
        serveOn_append messages [message]
      cases earlier : (serveOn platform config .empty messages).group? groupId with
      | none => exact ⟨messages, message, [], rfl, receives.creates valid earlier found⟩
      | some held =>
          obtain ⟨later, foundLater, owner⟩ := receives.owner valid earlier
          obtain rfl := Option.some.inj (found.symm.trans foundLater)
          obtain ⟨before, creation, after, rfl, creates⟩ := ih earlier
          rw [← owner] at creates
          exact ⟨before, creation, after ++ [message], by simp, creates⟩

/-- Every group of a tracker is sound, was created by a session of its owner, and will
stay with that owner. -/
theorem groups_sound (platform : Platform) (config : Config) (messages : List (Network × Bytes))
    (groupId : Bytes) (group : Group)
    (found : (serveOn platform config .empty messages).group? groupId = some group) :
    group.Sound groupId ∧
      (∃ before message after, messages = before ++ message :: after ∧
        (serveOn platform config .empty before).Creates platform message groupId group.owner) ∧
      ∀ more, ∃ later,
        (serveOn platform config .empty (messages ++ more)).group? groupId = some later ∧
          later.owner = group.owner := by
  obtain ⟨valid, filed, sound⟩ := serveOn_invariant platform config messages
  refine ⟨?_, creates_of_group messages found, ?_⟩
  · obtain ⟨owner_member, owner_pending, disjoint⟩ :=
      sound groupId group.view (Tracker.directory_groups_eq found)
    refine ⟨filed groupId group found, ?_, ?_, ?_⟩
    · simpa [Group.view] using owner_member
    · simpa [Group.view] using owner_pending
    · intro user member pending
      exact Finset.disjoint_left.mp disjoint (UnorderedSet.mem_toFinset.mpr member)
        (UnorderedSet.mem_toFinset.mpr pending)
  · intro more
    rw [serveOn_append]
    exact owner_serveOn more valid found

/-- The group that ann has created. -/
def groupOfAnn : Group where
  groupId := ascii "g"
  owner := { username := ascii "ann", password := ascii "pw", serial := 0 }

theorem groups_sound_ann :
    groupOfAnn.Sound (ascii "g") ∧
      (∃ before message after, overReliable uploadingMember = before ++ message :: after ∧
        (serveOn .oldestFirst .alone .empty before).Creates .oldestFirst message (ascii "g")
          groupOfAnn.owner) ∧
      ∀ more, ∃ later,
        (serveOn .oldestFirst .alone .empty (overReliable uploadingMember ++ more)).group?
            (ascii "g") = some later ∧
          later.owner = groupOfAnn.owner :=
  groups_sound .oldestFirst .alone (overReliable uploadingMember) (ascii "g") groupOfAnn
    (by decide +kernel)

end Runs

end P2PFileShare
