import P2PFileShare.Tracker.Directory
import P2PFileShare.Transition.Crossing
import Mathlib.Data.Finset.Card
import Mathlib.Data.Finset.Option

/-!
# What two trackers have to agree on

The state of a tracker without the seeders of its files, and what a command does
to it.  A command accesses one user name, one session or one group, or several of
them; commands whose accesses are compatible may be executed in either order.

An accepted join request is settled if at most one pending user carries the name;
of several, every tracker would choose its own.
-/

namespace P2PFileShare

open Text Transition

/-- The users ever made for a name, and the present one. -/
structure Account where
  made : Nat
  user : Option User
  deriving DecidableEq

/-- A group without the seeders of its files. -/
structure GroupSummary where
  owner : User
  members : Finset User := ∅
  pending : Finset User := ∅
  files : Finset FileInfo := ∅
  deriving DecidableEq

@[ext]
structure Summary where
  accounts : Bytes → Account
  sessions : EndpointID → Option User
  groups : Bytes → Option GroupSummary

def GroupView.summary (view : GroupView) : GroupSummary where
  owner := view.owner
  members := view.members
  pending := view.pending
  files := view.files.image Prod.fst

def Directory.summary (directory : Directory) : Summary where
  accounts username := { made := directory.made username, user := directory.users username }
  sessions := directory.sessions
  groups groupId := (directory.groups groupId).map GroupView.summary

/-! ## What a command does -/

/-- A command of an origin. -/
structure Operation where
  origin : EndpointID
  command : Command
  deriving DecidableEq

/-- What a command does to the account of a name. -/
inductive UserAccess
  | look
  | create (password : Bytes)
  | delete
  deriving DecidableEq

/-- What a command does to the session of its origin. -/
inductive SessionAccess
  | look
  | login (username password : Bytes)
  | logout
  deriving DecidableEq

def UserAccess.apply (username : Bytes) : UserAccess → Account → Account
  | .look, account => account
  | .create password, account =>
      if username = [] ∨ password = [] ∨ account.user.isSome then account
      else
        { made := account.made + 1
          user := some { username, password, serial := account.made } }
  | .delete, account => { account with user := none }

def SessionAccess.apply (accounts : Bytes → Account) :
    SessionAccess → Option User → Option User
  | .look, session => session
  | .login _ _, some user => some user
  | .login username password, none =>
      if username = [] ∨ password = [] then none
      else (accounts username).user.filter fun user => user.password = password
  | .logout, _ => none

namespace GroupSummary

def HasMember (group : GroupSummary) (user : User) : Prop :=
  user = group.owner ∨ user ∈ group.members

instance (group : GroupSummary) (user : User) : Decidable (group.HasMember user) :=
  inferInstanceAs (Decidable (_ ∨ _))

/-- The pending users of a name, if it is the owner who accepts them. -/
def accepted (group : GroupSummary) (user : User) (username : Bytes) : Finset User :=
  group.pending.filter fun joiner => group.owner = user ∧ joiner.username = username

/-- A member adds a file whose content the group does not have. -/
def Adds (group : GroupSummary) (user : User) (fileInfo : FileInfo) : Prop :=
  group.HasMember user ∧ ∀ file ∈ group.files, file.hash ≠ fileInfo.hash

instance (group : GroupSummary) (user : User) (fileInfo : FileInfo) :
    Decidable (group.Adds user fileInfo) :=
  inferInstanceAs (Decidable (_ ∧ _))

end GroupSummary

namespace GroupCommand

/-- What a command of a logged-in user makes of a group. -/
def apply (user : User) : GroupCommand → Option GroupSummary → Option GroupSummary
  | .create, none => some { owner := user }
  | .join, some group =>
      some { group with
        pending := if group.HasMember user then group.pending else insert user group.pending }
  | .leave, some group => some { group with members := group.members.erase user }
  | .accept username, some group =>
      some { group with
        members := group.members ∪ group.accepted user username
        pending := group.pending \ group.accepted user username }
  | .upload _ fileInfo, some group =>
      some (if group.Adds user fileInfo then
          { group with files := insert fileInfo group.files }
        else group)
  | _, group => group

/-- Commands of two users on one group that may be executed in either order. -/
def commutes (user other : User) : GroupCommand → GroupCommand → Bool
  | .create, .leave | .leave, .create | .create, .accept _ | .accept _, .create => true
  | .join, .join | .leave, .leave | .accept _, .accept _ => true
  | .join, .upload _ _ | .upload _ _, .join => true
  | .create, .create => user = other
  | .join, .leave | .leave, .join | .leave, .upload _ _ | .upload _ _, .leave => user ≠ other
  | .join, .accept username | .leave, .accept username | .upload _ _, .accept username =>
      user.username ≠ username
  | .accept username, .join | .accept username, .leave | .accept username, .upload _ _ =>
      other.username ≠ username
  | .upload _ first, .upload _ second => first.hash = second.hash → first = second
  | _, _ => false

/-- The commands that leave every group as it is. -/
def looks : GroupCommand → Bool
  | .download _ | .read => true
  | _ => false

end GroupCommand

namespace Command

/-- The account that a command accesses. -/
def userAccess : Command → Option (Bytes × UserAccess)
  | .createUser username password => some (username, .create password)
  | .deleteUser username => some (username, .delete)
  | .login username _ => some (username, .look)
  | _ => none

/-- What a command does to the session of its origin. -/
def sessionAccess : Command → Option SessionAccess
  | .login username password => some (.login username password)
  | .logout => some .logout
  | .group _ command => if command.looks then none else some .look
  | _ => none

/-- The group that a command may change. -/
def groupAccess : Command → Option (Bytes × GroupCommand)
  | .group groupId command => if command.looks then none else some (groupId, command)
  | _ => none

end Command

/-- One cell is changed, or none. -/
def modify {κ α : Type} [DecidableEq κ] (cells : κ → α) : Option (κ × (α → α)) → κ → α
  | none => cells
  | some (key, change) => Function.update cells key (change (cells key))

namespace Summary

/-- The state after an operation: at most one account, one session and one group
have changed. -/
def apply (summary : Summary) (operation : Operation) : Summary where
  accounts := modify summary.accounts
    (operation.command.userAccess.map fun (username, access) =>
      (username, access.apply username))
  sessions := modify summary.sessions
    (operation.command.sessionAccess.map fun access =>
      (operation.origin, access.apply summary.accounts))
  groups := modify summary.groups
    (operation.command.groupAccess.bind fun (groupId, command) =>
      (summary.sessions operation.origin).map fun user => (groupId, command.apply user))

/-- At most one user can be accepted. -/
def Settled (summary : Summary) (operation : Operation) : Prop :=
  match operation.command with
  | .group groupId (.accept username) =>
      ∀ group ∈ summary.groups groupId, ∀ user ∈ summary.sessions operation.origin,
        (group.accepted user username).card ≤ 1
  | _ => True

instance (summary : Summary) :
    (operation : Operation) → Decidable (summary.Settled operation)
  | { origin, command := .group groupId (.accept username) } =>
      inferInstanceAs (Decidable (∀ group ∈ summary.groups groupId,
        ∀ user ∈ summary.sessions origin, (group.accepted user username).card ≤ 1))
  | { command := .group _ .create, .. } | { command := .group _ .join, .. }
  | { command := .group _ .leave, .. } | { command := .group _ (.upload _ _), .. }
  | { command := .group _ (.download _), .. } | { command := .group _ .read, .. }
  | { command := .createUser _ _, .. } | { command := .deleteUser _, .. }
  | { command := .login _ _, .. } | { command := .logout, .. } | { command := .read, .. } =>
      isTrue trivial

end Summary

/-- Two operations do the same to every account and session that both access, and
commute on a group that both change. -/
structure Operation.Independent (summary : Summary) (first second : Operation) : Prop where
  users : ∀ x ∈ first.command.userAccess, ∀ y ∈ second.command.userAccess,
    x.1 = y.1 → x.2 = y.2
  sessions : first.origin = second.origin →
    ∀ x ∈ first.command.sessionAccess, ∀ y ∈ second.command.sessionAccess, x = y
  groups : ∀ x ∈ first.command.groupAccess, ∀ y ∈ second.command.groupAccess, x.1 = y.1 →
    ∀ user ∈ summary.sessions first.origin, ∀ other ∈ summary.sessions second.origin,
      GroupCommand.commutes user other x.2 y.2 = true

instance (summary : Summary) (first second : Operation) :
    Decidable (first.Independent summary second) :=
  decidable_of_iff
    ((∀ x ∈ first.command.userAccess, ∀ y ∈ second.command.userAccess, x.1 = y.1 → x.2 = y.2) ∧
      (first.origin = second.origin →
        ∀ x ∈ first.command.sessionAccess, ∀ y ∈ second.command.sessionAccess, x = y) ∧
      ∀ x ∈ first.command.groupAccess, ∀ y ∈ second.command.groupAccess, x.1 = y.1 →
        ∀ user ∈ summary.sessions first.origin, ∀ other ∈ summary.sessions second.origin,
          GroupCommand.commutes user other x.2 y.2 = true)
    ⟨fun ⟨users, sessions, groups⟩ => ⟨users, sessions, groups⟩,
      fun ⟨users, sessions, groups⟩ => ⟨users, sessions, groups⟩⟩

/-! ## Independent operations commute -/

section Modify

variable {κ α : Type} [DecidableEq κ] {cells : κ → α} {first second : Option (κ × (α → α))}

theorem modify_comm
    (compatible : ∀ x ∈ first, ∀ y ∈ second, x.1 = y.1 →
      ∀ value, x.2 (y.2 value) = y.2 (x.2 value)) :
    modify (modify cells first) second = modify (modify cells second) first := by
  cases first with
  | none => rfl
  | some x =>
      cases second with
      | none => rfl
      | some y =>
          rcases x with ⟨key, change⟩
          rcases y with ⟨place, other⟩
          simp only [modify]
          by_cases same : key = place
          · subst same
            have commute := compatible _ rfl _ rfl rfl
            simp only at commute
            simp only [Function.update_self, Function.update_idem, commute]
          · simp only [Function.update_of_ne same, Function.update_of_ne (Ne.symm same)]
            exact Function.update_comm same _ _ _

theorem modify_of_fixed {key : κ}
    (fixed : ∀ x ∈ first, x.1 = key → x.2 (cells key) = cells key) :
    modify cells first key = cells key := by
  cases first with
  | none => rfl
  | some x =>
      rcases x with ⟨place, change⟩
      simp only [modify]
      by_cases same : key = place
      · subst same
        rw [Function.update_self]
        exact fixed _ rfl rfl
      · exact Function.update_of_ne same _ _

/-- A cell is as it was, or the one that was changed. -/
theorem modify_eq_or {key : κ} {value : α} (found : modify cells first key = value) :
    cells key = value ∨ ∃ x ∈ first, x.1 = key ∧ x.2 (cells key) = value := by
  cases first with
  | none => exact Or.inl found
  | some x =>
      rcases x with ⟨place, change⟩
      by_cases same : place = key
      · subst same
        simp only [modify, Function.update_self] at found
        exact Or.inr ⟨_, rfl, rfl, found⟩
      · simp only [modify, Function.update_of_ne (Ne.symm same)] at found
        exact Or.inl found

end Modify

namespace GroupCommand

variable {user other : User}

/-- Whom an owner accepts does not depend on what other names stand for. -/
theorem accept_comm (group : GroupSummary) (first second : Bytes) :
    apply user (.accept first) (apply other (.accept second) (some group)) =
      apply other (.accept second) (apply user (.accept first) (some group)) := by
  simp only [apply, GroupSummary.accepted, Option.some.injEq, GroupSummary.mk.injEq, true_and,
    and_true]
  constructor
  · ext joiner
    simp only [Finset.mem_union, Finset.mem_filter, Finset.mem_sdiff]
    tauto
  · ext joiner
    simp only [Finset.mem_filter, Finset.mem_sdiff]
    tauto

/-- Who is a member is not changed by a file. -/
theorem adds_insert {group : GroupSummary} {first second : FileInfo} :
    GroupSummary.Adds { group with files := insert second group.files } user first ↔
      second.hash ≠ first.hash ∧ group.Adds user first := by
  simp only [GroupSummary.Adds, GroupSummary.HasMember, Finset.forall_mem_insert]
  tauto

/-- Both files are added, or the group keeps the one description that both give. -/
theorem upload_comm (group : GroupSummary) (endpoint place : Endpoint) {first second : FileInfo}
    (alike : first.hash = second.hash → first = second) :
    apply user (.upload endpoint first) (apply other (.upload place second) (some group)) =
      apply other (.upload place second) (apply user (.upload endpoint first) (some group)) := by
  simp only [apply, Option.some.injEq]
  by_cases here : group.Adds user first
  · by_cases there : group.Adds other second
    · by_cases same : first.hash = second.hash
      · obtain rfl := alike same
        simp only [if_pos here, if_pos there, adds_insert, ne_eq, not_true_eq_false, false_and,
          if_false]
      · simp only [adds_insert, ne_eq, same, Ne.symm same, not_false_eq_true, true_and, if_true,
          here, there, Finset.insert_comm]
    · simp only [if_pos here, adds_insert, there, and_false, if_false]
  · by_cases there : group.Adds other second
    · simp only [if_pos there, adds_insert, here, and_false, if_false]
    · simp only [if_neg here, if_neg there]

/-- Files and join requests are kept apart. -/
theorem join_upload_comm (group : GroupSummary) (endpoint : Endpoint) (fileInfo : FileInfo) :
    apply user .join (apply other (.upload endpoint fileInfo) (some group)) =
      apply other (.upload endpoint fileInfo) (apply user .join (some group)) := by
  have adds (pending : Finset User) :
      GroupSummary.Adds { group with pending } other fileInfo ↔ group.Adds other fileInfo :=
    Iff.rfl
  simp only [apply, Option.some.injEq, adds]
  by_cases here : group.Adds other fileInfo
  · simp only [if_pos here]
    rfl
  · simp only [if_neg here]

/-- A user who leaves does not change who else is a member. -/
theorem join_leave_comm (group : GroupSummary) (different : user ≠ other) :
    apply user .join (apply other .leave (some group)) =
      apply other .leave (apply user .join (some group)) := by
  have same : GroupSummary.HasMember { group with members := group.members.erase other } user ↔
      group.HasMember user := by
    simp only [GroupSummary.HasMember, Finset.mem_erase, ne_eq, different, not_false_eq_true,
      true_and]
  by_cases member : group.HasMember user
  · simp only [apply, if_pos member, if_pos (same.mpr member)]
  · simp only [apply, if_neg member, if_neg (mt same.mp member)]

/-- An owner accepts no user of another name. -/
theorem notMem_accepted {group : GroupSummary} {username : Bytes}
    (named : user.username ≠ username) : user ∉ group.accepted other username := by
  simp only [GroupSummary.accepted, Finset.mem_filter, named, and_false, not_false_eq_true]

/-- So an acceptance does not change whether a user of another name is a member. -/
theorem hasMember_accept {group : GroupSummary} {username : Bytes} {pending : Finset User}
    (named : user.username ≠ username) :
    GroupSummary.HasMember
        { group with members := group.members ∪ group.accepted other username, pending } user ↔
      group.HasMember user := by
  have absent : user ∉ group.accepted other username := notMem_accepted named
  simp only [GroupSummary.HasMember, Finset.mem_union, absent, or_false]

/-- Nor does a join request change whom an acceptance of another name is about. -/
theorem accepted_insert {group : GroupSummary} {username : Bytes}
    (named : other.username ≠ username) :
    GroupSummary.accepted { group with pending := insert other group.pending } user username =
      group.accepted user username := by
  simp only [GroupSummary.accepted, Finset.filter_insert, named, and_false, if_false]

theorem join_accept_comm (group : GroupSummary) {username : Bytes}
    (named : user.username ≠ username) :
    apply user .join (apply other (.accept username) (some group)) =
      apply other (.accept username) (apply user .join (some group)) := by
  by_cases member : group.HasMember user
  · simp only [apply, if_pos member, if_pos ((hasMember_accept named).mpr member)]
  · simp only [apply, if_neg member, if_neg (mt (hasMember_accept named).mp member),
      accepted_insert named, Finset.insert_sdiff_of_notMem _ (notMem_accepted named)]

theorem leave_accept_comm (group : GroupSummary) {username : Bytes}
    (named : user.username ≠ username) :
    apply user .leave (apply other (.accept username) (some group)) =
      apply other (.accept username) (apply user .leave (some group)) := by
  have others : (group.members ∪ group.accepted other username).erase user =
      group.members.erase user ∪ group.accepted other username := by
    rw [Finset.erase_union_distrib, Finset.erase_eq_of_notMem (notMem_accepted named)]
  simp only [apply, others]
  rfl

/-- A file is added alike where the same user is a member. -/
theorem adds_members {group : GroupSummary} {fileInfo : FileInfo} {members pending : Finset User}
    (same : GroupSummary.HasMember { group with members, pending } user ↔ group.HasMember user) :
    GroupSummary.Adds { group with members, pending } user fileInfo ↔ group.Adds user fileInfo :=
  and_congr_left' same

theorem leave_upload_comm (group : GroupSummary) (endpoint : Endpoint) (fileInfo : FileInfo)
    (different : user ≠ other) :
    apply user .leave (apply other (.upload endpoint fileInfo) (some group)) =
      apply other (.upload endpoint fileInfo) (apply user .leave (some group)) := by
  have same : GroupSummary.Adds { group with members := group.members.erase user } other
      fileInfo ↔ group.Adds other fileInfo := by
    apply adds_members
    simp only [GroupSummary.HasMember, Finset.mem_erase, ne_eq, different.symm, not_false_eq_true,
      true_and]
  by_cases adds : group.Adds other fileInfo
  · simp only [apply, if_pos adds, if_pos (same.mpr adds)]
  · simp only [apply, if_neg adds, if_neg (mt same.mp adds)]

theorem upload_accept_comm (group : GroupSummary) (endpoint : Endpoint) (fileInfo : FileInfo)
    {username : Bytes} (named : user.username ≠ username) :
    apply user (.upload endpoint fileInfo) (apply other (.accept username) (some group)) =
      apply other (.accept username) (apply user (.upload endpoint fileInfo) (some group)) := by
  have same : GroupSummary.Adds
      { group with
        members := group.members ∪ group.accepted other username
        pending := group.pending \ group.accepted other username } user fileInfo ↔
      group.Adds user fileInfo := adds_members (hasMember_accept named)
  by_cases adds : group.Adds user fileInfo
  · simp only [apply, if_pos adds, if_pos (same.mpr adds)]
    rfl
  · simp only [apply, if_neg adds, if_neg (mt same.mp adds)]

theorem commutes_symm {first second : GroupCommand}
    (commutes : GroupCommand.commutes user other first second = true) :
    GroupCommand.commutes other user second first = true := by
  cases first <;> cases second <;>
    simp only [GroupCommand.commutes, Bool.false_eq_true, decide_eq_true_eq] at commutes ⊢
  all_goals first
    | exact commutes
    | exact commutes.symm
    | exact fun same => (commutes same.symm).symm

/-- The table of commuting commands is sound. -/
theorem apply_comm {first second : GroupCommand}
    (commutes : GroupCommand.commutes user other first second = true)
    (group : Option GroupSummary) :
    first.apply user (second.apply other group) = second.apply other (first.apply user group) := by
  cases group with
  | none =>
      cases first <;> cases second <;>
        simp only [GroupCommand.commutes, Bool.false_eq_true, decide_eq_true_eq] at commutes
      -- Only a group that is created on the way can be changed.
      all_goals first | rfl | simp [apply, commutes]
  | some group =>
      cases first <;> cases second <;>
        simp only [GroupCommand.commutes, Bool.false_eq_true, decide_eq_true_eq] at commutes
      case create.create | create.leave | create.accept | leave.create | accept.create =>
        all_goals rfl
      case join.join =>
        by_cases here : group.HasMember user <;> by_cases there : group.HasMember other <;>
          simp_all only [apply, GroupSummary.HasMember, if_true, if_false]
        rw [Finset.insert_comm]
      case join.leave => exact join_leave_comm group commutes
      case join.accept => exact join_accept_comm group commutes
      case join.upload => exact join_upload_comm group _ _
      case leave.join => exact (join_leave_comm group commutes.symm).symm
      case leave.leave => simp only [apply, Finset.erase_right_comm]
      case leave.accept => exact leave_accept_comm group commutes
      case leave.upload => exact leave_upload_comm group _ _ commutes
      case accept.join => exact (join_accept_comm group commutes).symm
      case accept.leave => exact (leave_accept_comm group commutes).symm
      case accept.accept => exact accept_comm group _ _
      case accept.upload => exact (upload_accept_comm group _ _ commutes).symm
      case upload.join => exact (join_upload_comm group _ _).symm
      case upload.leave => exact (leave_upload_comm group _ _ commutes.symm).symm
      case upload.accept => exact upload_accept_comm group _ _ commutes
      case upload.upload => exact upload_comm group _ _ commutes

/-- A command that commutes with an acceptance adds nobody who could be accepted. -/
theorem accepted_apply {username : Bytes} {second : GroupCommand}
    (commutes : GroupCommand.commutes user other (.accept username) second = true)
    {before : Option GroupSummary} {after : GroupSummary}
    (step : second.apply other before = some after) :
    after.accepted user username = ∅ ∨
      ∃ group, before = some group ∧
        after.accepted user username ⊆ group.accepted user username := by
  cases before with
  | none =>
      cases second with
      | create =>
          obtain rfl := Option.some.inj step
          exact Or.inl (Finset.filter_empty _)
      | _ => cases step
  | some group =>
      refine Or.inr ⟨group, rfl, ?_⟩
      cases second with
      | create | leave =>
          obtain rfl := Option.some.inj step
          exact Finset.Subset.refl _
      | join =>
          obtain rfl := Option.some.inj step
          by_cases member : group.HasMember other
          · simp only [if_pos member]
            exact Finset.Subset.refl _
          · simp only [if_neg member, accepted_insert (of_decide_eq_true commutes)]
            exact Finset.Subset.refl _
      | accept name =>
          obtain rfl := Option.some.inj step
          exact Finset.filter_subset_filter _ Finset.sdiff_subset
      | upload endpoint fileInfo =>
          obtain rfl := Option.some.inj step
          split <;> exact Finset.Subset.refl _
      | download fileName => cases commutes
      | read => cases commutes

end GroupCommand

namespace Operation

variable {summary : Summary} {first second : Operation}

theorem Independent.symm (independent : first.Independent summary second) :
    second.Independent summary first where
  users x member y other same := (independent.users y other x member same.symm).symm
  sessions same x member y other := (independent.sessions same.symm y other x member).symm
  groups x member y accesses same user loggedIn other otherLoggedIn :=
    GroupCommand.commutes_symm
      (independent.groups y accesses x member same.symm other otherLoggedIn user loggedIn)

/-- An account that an operation only looks at is not changed by an independent
one. -/
theorem Independent.accounts_eq (independent : first.Independent summary second) {username : Bytes}
    (looks : (username, UserAccess.look) ∈ first.command.userAccess) :
    (summary.apply second).accounts username = summary.accounts username := by
  apply modify_of_fixed
  intro x member same
  rcases Option.map_eq_some_iff.mp member with ⟨⟨name, access⟩, accesses, rfl⟩
  obtain rfl := independent.users _ looks _ accesses same.symm
  rfl

/-- So is a session. -/
theorem Independent.sessions_eq (independent : first.Independent summary second)
    (looks : SessionAccess.look ∈ first.command.sessionAccess) :
    (summary.apply second).sessions first.origin = summary.sessions first.origin := by
  apply modify_of_fixed
  intro x member same
  rcases Option.map_eq_some_iff.mp member with ⟨access, accesses, rfl⟩
  obtain rfl := independent.sessions same.symm _ looks _ accesses
  rfl

/-- A command that changes a group looks at the session of its origin. -/
theorem looks_of_groupAccess {operation : Operation} {x : Bytes × GroupCommand}
    (accesses : x ∈ operation.command.groupAccess) :
    SessionAccess.look ∈ operation.command.sessionAccess := by
  rcases operation with ⟨origin, command⟩
  cases command with
  | group groupId command =>
      simp only [Command.groupAccess, Command.sessionAccess] at accesses ⊢
      split at accesses
      · cases accesses
      · next changes =>
          rw [if_neg changes]
          rfl
  | _ => cases accesses

/-- What an operation does to its session is not changed by an independent one. -/
theorem Independent.session_change (independent : first.Independent summary second) :
    (first.command.sessionAccess.map fun access =>
        (first.origin, access.apply (summary.apply second).accounts)) =
      first.command.sessionAccess.map fun access =>
        (first.origin, access.apply summary.accounts) := by
  rcases first with ⟨origin, command⟩
  cases command with
  | login username password =>
      have same : (summary.apply second).accounts username = summary.accounts username :=
        independent.accounts_eq rfl
      simp only [Command.sessionAccess, Option.map_some, Option.some.injEq, Prod.mk.injEq, true_and]
      funext session
      cases session with
      | none => simp only [SessionAccess.apply, same]
      | some user => rfl
  | group groupId command =>
      simp only [Command.sessionAccess]
      split <;> rfl
  | _ => rfl

/-- The change that a logged-in user makes to a group. -/
theorem mem_groupChange {operation : Operation} {session : Option User}
    {x : Bytes × (Option GroupSummary → Option GroupSummary)}
    (member : x ∈ operation.command.groupAccess.bind fun (groupId, command) =>
      session.map fun user => (groupId, command.apply user)) :
    ∃ access ∈ operation.command.groupAccess, ∃ user ∈ session,
      x = (access.1, access.2.apply user) := by
  rcases Option.bind_eq_some_iff.mp member with ⟨access, accesses, change⟩
  rcases Option.map_eq_some_iff.mp change with ⟨user, loggedIn, rfl⟩
  exact ⟨access, accesses, user, loggedIn, rfl⟩

theorem Independent.group_change (independent : first.Independent summary second) :
    (first.command.groupAccess.bind fun (groupId, command) =>
        ((summary.apply second).sessions first.origin).map fun user =>
          (groupId, command.apply user)) =
      first.command.groupAccess.bind fun (groupId, command) =>
        (summary.sessions first.origin).map fun user => (groupId, command.apply user) := by
  cases access : first.command.groupAccess with
  | none => rfl
  | some x =>
      rw [independent.sessions_eq (looks_of_groupAccess access)]

/-- Independent operations may be executed in either order. -/
theorem Independent.comm (independent : first.Independent summary second) :
    (summary.apply first).apply second = (summary.apply second).apply first := by
  apply Summary.ext
  · apply modify_comm
    intro x member y other same value
    rcases Option.map_eq_some_iff.mp member with ⟨⟨name, access⟩, accesses, rfl⟩
    rcases Option.map_eq_some_iff.mp other with ⟨⟨username, change⟩, changes, rfl⟩
    obtain rfl : name = username := same
    obtain rfl : access = change := independent.users _ accesses _ changes rfl
    rfl
  · change modify (modify summary.sessions _) _ = modify (modify summary.sessions _) _
    rw [independent.session_change, independent.symm.session_change]
    apply modify_comm
    intro x member y other same value
    rcases Option.map_eq_some_iff.mp member with ⟨access, accesses, rfl⟩
    rcases Option.map_eq_some_iff.mp other with ⟨change, changes, rfl⟩
    obtain rfl := independent.sessions same access accesses change changes
    rfl
  · change modify (modify summary.groups _) _ = modify (modify summary.groups _) _
    rw [independent.group_change, independent.symm.group_change]
    apply modify_comm
    intro x member y other same value
    obtain ⟨⟨groupId, command⟩, accesses, user, loggedIn, rfl⟩ := mem_groupChange member
    obtain ⟨⟨place, command'⟩, changes, rival, rivalLoggedIn, rfl⟩ := mem_groupChange other
    exact GroupCommand.apply_comm
      (independent.groups _ accesses _ changes same user loggedIn rival rivalLoggedIn) value

/-- Whom an owner accepts is still settled. -/
theorem Independent.settled (independent : first.Independent summary second)
    (settled : summary.Settled first) : (summary.apply second).Settled first := by
  rcases first with ⟨origin, command⟩
  cases command with
  | group groupId command =>
      cases command with
      | accept username =>
          have session := independent.sessions_eq rfl
          intro group found user loggedIn
          rw [session] at loggedIn
          rcases modify_eq_or found with same | ⟨x, member, place, changed⟩
          · exact settled group same user loggedIn
          · obtain ⟨⟨name, change⟩, changes, rival, rivalLoggedIn, rfl⟩ := mem_groupChange member
            have commutes := independent.groups _ rfl _ changes place.symm user loggedIn rival
              rivalLoggedIn
            rcases GroupCommand.accepted_apply commutes changed with none | ⟨before, there, fewer⟩
            · rw [none]
              exact Nat.zero_le 1
            · exact (Finset.card_le_card fewer).trans (settled before there user loggedIn)
      | _ => trivial
  | _ => trivial

end Operation

/-- Operations on the summary, with their independence. -/
def Summary.crossing : Crossing Summary Operation where
  apply := Summary.apply
  Settled := Summary.Settled
  Independent := Operation.Independent
  symm := Operation.Independent.symm
  comm := Operation.Independent.comm
  settled_apply := Operation.Independent.settled

instance (summary : Summary) (first second : Operation) :
    Decidable (Summary.crossing.Independent summary first second) :=
  inferInstanceAs (Decidable (first.Independent summary second))

/-! ## What single commands do to the summary -/

namespace Summary

/-- A login looks at its account and changes its session. -/
theorem apply_login (summary : Summary) (origin : EndpointID) (username password : Bytes) :
    summary.apply { origin, command := .login username password } =
      { summary with
        sessions := Function.update summary.sessions origin
          ((SessionAccess.login username password).apply summary.accounts
            (summary.sessions origin)) } := by
  apply Summary.ext
  · exact Function.update_eq_self _ _
  · rfl
  · rfl

/-- A command on a group by a logged-in user. -/
theorem apply_group (summary : Summary) (origin : EndpointID) (groupId : Bytes)
    (command : GroupCommand) :
    summary.apply { origin, command := .group groupId command } =
      match summary.sessions origin with
      | none => summary
      | some user =>
          { summary with
            groups := Function.update summary.groups groupId
              (command.apply user (summary.groups groupId)) } := by
  have looked : modify summary.sessions
      ((Command.group groupId command).sessionAccess.map fun access =>
        (origin, access.apply summary.accounts)) = summary.sessions := by
    cases looks : command.looks with
    | true => simp only [Command.sessionAccess, looks, if_true, Option.map_none, modify]
    | false =>
        simp only [Command.sessionAccess, looks, Bool.false_eq_true, if_false, Option.map_some,
          modify, SessionAccess.apply, Function.update_eq_self]
  have changed : modify summary.groups
      ((Command.group groupId command).groupAccess.bind fun (groupId, command) =>
        (summary.sessions origin).map fun user => (groupId, command.apply user)) =
      match summary.sessions origin with
      | none => summary.groups
      | some user =>
          Function.update summary.groups groupId (command.apply user (summary.groups groupId)) := by
    cases summary.sessions origin with
    | none => cases (Command.group groupId command).groupAccess <;> rfl
    | some user =>
        cases looks : command.looks with
        | true =>
            have kept : command.apply user (summary.groups groupId) = summary.groups groupId := by
              cases command with
              | download fileName => rfl
              | read => rfl
              | _ => cases looks
            simp only [Command.groupAccess, looks, if_true, Option.bind_none, modify, kept,
              Function.update_eq_self]
        | false =>
            simp only [Command.groupAccess, looks, Bool.false_eq_true, if_false, Option.bind_some,
              Option.map_some, modify]
  simp only [apply, looked, changed]
  cases summary.sessions origin <;> rfl

end Summary

end P2PFileShare
