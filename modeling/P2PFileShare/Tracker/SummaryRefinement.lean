import P2PFileShare.Tracker.Summary

/-!
# The summary of a tracker's state

What a command does to a directory, seen without the seeders, is what it does to
the summary.  A command that fails does nothing to it.
-/

namespace P2PFileShare

open Text

namespace GroupView

variable (view : GroupView)

theorem summary_hasMember {user : User} : view.summary.HasMember user ↔ view.HasMember user :=
  Iff.rfl

theorem summary_adds {user : User} {fileInfo : FileInfo} :
    view.summary.Adds user fileInfo ↔ view.HasMember user ∧ ¬view.HasContent fileInfo.hash := by
  simp only [GroupSummary.Adds, summary_hasMember, HasContent, not_exists, not_and]
  simp only [summary, Finset.forall_mem_image, ne_eq]

/-- A new seeder is not in the summary. -/
theorem summary_reseed (hash : Bytes) (endpoint : Endpoint) :
    (view.reseed hash endpoint).summary = view.summary := by
  have files : ((view.reseed hash endpoint).files.image Prod.fst) = view.files.image Prod.fst := by
    rw [reseed, Finset.image_image]
    apply Finset.image_congr
    intro entry _
    simp only [Function.comp_apply]
    split <;> rfl
  simp only [summary, files]
  rfl

end GroupView

/-- What is accepted is what is picked. -/
theorem GroupView.accepted_eq {view : GroupView} {picked : Option User} {username : Bytes}
    (picks : match picked with
      | some joiner => joiner ∈ view.pending.filter fun user => user.username = username
      | none => (view.pending.filter fun user => user.username = username) = ∅)
    (settled : (view.summary.accepted view.owner username).card ≤ 1) :
    view.summary.accepted view.owner username = picked.toFinset := by
  have candidates : view.summary.accepted view.owner username =
      view.pending.filter fun user => user.username = username := by
    simp only [GroupSummary.accepted, summary, true_and]
  rw [candidates] at settled ⊢
  cases picked with
  | none => exact picks
  | some joiner =>
      ext rival
      rw [Option.mem_toFinset]
      constructor
      · intro member
        rw [Finset.card_le_one.mp settled rival member joiner picks]
        rfl
      · intro same
        obtain rfl := Option.some.inj same
        exact picks

/-- What a command makes of the summary of a group. -/
theorem GroupCommand.exec_summary {picked : Option User} {user : User} {command : GroupCommand}
    {view : Option GroupView}
    (accepts : ∀ username, command = .accept username → ∀ group, view = some group →
      group.owner = user → group.summary.accepted user username = picked.toFinset) :
    (command.exec picked user view).2.map GroupView.summary =
      command.apply user (view.map GroupView.summary) := by
  cases view with
  | none => cases command <;> rfl
  | some view =>
      cases command with
      | join =>
          by_cases member : view.HasMember user
          · simp only [exec, if_pos member, Option.map_some, apply, GroupView.summary_hasMember]
          · simp only [exec, if_neg member, Option.map_some, apply, GroupView.summary_hasMember]
            rfl
      | leave =>
          by_cases member : user ∈ view.members
          · simp only [exec, if_pos member, Option.map_some, apply]
            rfl
          · simp only [exec, if_neg member, Option.map_some, apply]
            congr 1
            simp only [GroupView.summary, Finset.erase_eq_of_notMem member]
      | accept username =>
          by_cases owner : view.owner = user
          · have accepted := accepts username rfl view rfl owner
            simp only [apply, Option.map_some, accepted]
            cases picked with
            | none => simp [exec, GroupView.summary]
            | some joiner =>
                simp only [exec, if_pos owner, Option.map_some, GroupView.summary,
                  Option.toFinset_some, Finset.sdiff_singleton_eq_erase,
                  Finset.union_comm view.members]
                rfl
          · have accepted : view.summary.accepted user username = ∅ := by
              simp only [GroupSummary.accepted, GroupView.summary, owner, false_and,
                Finset.filter_false]
            simp only [apply, Option.map_some, accepted]
            cases picked <;> simp [exec, owner, GroupView.summary]
      | upload endpoint fileInfo =>
          simp only [apply, Option.map_some, GroupView.summary_adds]
          by_cases member : view.HasMember user
          · by_cases known : view.HasContent fileInfo.hash
            · simp [exec, member, known, GroupView.summary_reseed]
            · simp [exec, member, known, GroupView.summary, Finset.image_insert]
          · simp [exec, member]
      | _ => rfl

namespace Directory

variable {picked : Option User} {directory : Directory} {origin : EndpointID} {command : Command}

theorem summary_groups (groupId : Bytes) (view : Option GroupView) :
    { directory with groups := Function.update directory.groups groupId view }.summary =
      { directory.summary with
        groups := Function.update directory.summary.groups groupId
          (view.map GroupView.summary) } := by
  apply Summary.ext
  · rfl
  · rfl
  · funext place
    by_cases same : place = groupId
    · subst same
      simp only [summary, Function.update_self]
    · simp only [summary, Function.update_of_ne same]

theorem summary_account (username : Bytes) (made : Nat) (user : Option User) :
    { directory with
        made := Function.update directory.made username made
        users := Function.update directory.users username user }.summary =
      { directory.summary with
        accounts := Function.update directory.summary.accounts username { made, user } } := by
  apply Summary.ext
  · funext place
    by_cases same : place = username
    · subst same
      simp only [summary, Function.update_self]
    · simp only [summary, Function.update_of_ne same]
  · rfl
  · rfl

/-- A settled command does to the summary what `Summary.apply` says. -/
theorem exec_summary (picks : directory.Picks picked command)
    (settled : directory.summary.Settled { origin, command }) :
    (directory.exec picked origin command).2.summary =
      directory.summary.apply { origin, command } := by
  cases command with
  | createUser username password =>
      change _ = { directory.summary with
        accounts := Function.update directory.summary.accounts username
          ((UserAccess.create password).apply username (directory.summary.accounts username)) }
      by_cases refused : username = [] ∨ password = [] ∨ (directory.users username).isSome
      · have kept : (UserAccess.create password).apply username
            (directory.summary.accounts username) = directory.summary.accounts username :=
          if_pos refused
        rw [kept, Function.update_eq_self]
        simp only [exec, if_pos refused]
      · have made : (UserAccess.create password).apply username
            (directory.summary.accounts username) =
              { made := directory.made username + 1
                user := some { username, password, serial := directory.made username } } :=
          if_neg refused
        rw [made, ← summary_account]
        simp only [exec, if_neg refused]
  | deleteUser username =>
      change _ = { directory.summary with
        accounts := Function.update directory.summary.accounts username
          { made := directory.made username, user := none } }
      rw [← summary_account, Function.update_eq_self]
      cases found : directory.users username with
      | none =>
          have same : Function.update directory.users username none = directory.users := by
            rw [← found, Function.update_eq_self]
          simp [exec, found, same]
      | some user => simp [exec, found]
  | login username password =>
      rw [Summary.apply_login]
      simp only [exec]
      by_cases refused : username = [] ∨ password = []
      · have kept : (SessionAccess.login username password).apply directory.summary.accounts
            (directory.summary.sessions origin) = directory.summary.sessions origin := by
          cases directory.summary.sessions origin with
          | none => exact if_pos refused
          | some user => rfl
        rw [kept, Function.update_eq_self, if_pos refused]
      · rw [if_neg refused]
        cases session : directory.sessions origin with
        | some user =>
            have kept : Function.update directory.sessions origin (some user) =
                directory.sessions := by
              rw [← session, Function.update_eq_self]
            simp only [summary, session, SessionAccess.apply, kept]
        | none =>
            have kept : Function.update directory.sessions origin none = directory.sessions := by
              rw [← session, Function.update_eq_self]
            cases found : directory.users username with
            | none =>
                simp only [summary, session, SessionAccess.apply, if_neg refused, found,
                  Option.filter_none, kept]
            | some user =>
                by_cases same : user.password = password
                · simp only [summary, session, SessionAccess.apply, if_neg refused, found,
                    if_pos same, Option.filter_some, decide_eq_true same, if_true]
                · simp only [summary, session, SessionAccess.apply, if_neg refused, found,
                    if_neg same, Option.filter_some, decide_eq_false same, Bool.false_eq_true,
                    if_false, kept]
  | logout =>
      change _ = { directory.summary with
        sessions := Function.update directory.sessions origin none }
      cases session : directory.sessions origin with
      | none =>
          have same : Function.update directory.sessions origin none = directory.sessions := by
            rw [← session, Function.update_eq_self]
          simp only [exec, session, same]
          rfl
      | some user =>
          simp only [exec, session]
          rfl
  | group groupId command =>
      rw [Summary.apply_group]
      cases session : directory.sessions origin with
      | none => simp only [exec, session, summary]
      | some user =>
          have accepts : ∀ username, command = .accept username →
              ∀ view, directory.groups groupId = some view → view.owner = user →
                view.summary.accepted user username = picked.toFinset := by
            rintro username rfl view found rfl
            apply GroupView.accepted_eq
            · simp only [Picks, candidates, found] at picks
              exact picks
            · exact settled view.summary (by simp only [summary, found]; rfl) view.owner session
          simp only [exec, session, summary_groups, GroupCommand.exec_summary accepts]
          simp only [summary, session]
  | read => rfl

/-- A command that fails leaves the summary as it was: at most a seeder is added. -/
theorem exec_summary_of_failure (failure : (directory.exec picked origin command).1 = false) :
    (directory.exec picked origin command).2.summary = directory.summary := by
  have effect := exec_effect picked directory origin command
  rw [failure] at effect
  generalize (directory.exec picked origin command).2 = after at effect
  cases effect with
  | idle => rfl
  | @group groupId command user _ after session step =>
      suffices same : after.map GroupView.summary =
          (directory.groups groupId).map GroupView.summary by
        rw [summary_groups, same]
        exact congrArg (Summary.mk _ _) (Function.update_eq_self groupId _)
      generalize found : directory.groups groupId = view at step
      cases step with
      | idle => rfl
      | @reseed view fileInfo endpoint member known =>
          rw [Option.map_some, Option.map_some, view.summary_reseed]

end Directory

end P2PFileShare
