import P2PFileShare.Tracker.Directory
import P2PFileShare.Tracker.Frame

/-!
# The handlers refine the abstract step

`handle_exec` says once what a request can do: the success flag and the abstract
state after it are those of the decoded command.  Later results follow the
abstract step and never unfold a handler.
-/

namespace P2PFileShare

open Container Text

/-! ## The abstraction of each change -/

section Changes

variable {tracker : Tracker} {group : Group} {groupId username password : Bytes}

@[simp]
theorem Tracker.group?_updateGroup (tracker : Tracker) (groupId other : Bytes) (group : Group) :
    (tracker.updateGroup groupId group).group? other =
      if other = groupId then (tracker.group? groupId).map fun _ => group
      else tracker.group? other := by
  simp only [Tracker.group?, Tracker.updateGroup, GroupDB.getGroup, GroupDB.update,
    UnorderedMap.find?_adjust, Function.update_apply]

theorem Tracker.directory_updateGroup (present : (tracker.group? groupId).isSome = true) :
    (tracker.updateGroup groupId group).directory =
      { tracker.directory with
        groups := Function.update tracker.directory.groups groupId (some group.view) } := by
  rcases Option.isSome_iff_exists.mp present with ⟨old, found⟩
  ext other : 2
  · rfl
  · rfl
  · rfl
  · simp only [Tracker.directory, Tracker.group?_updateGroup, Function.update_apply, found]
    by_cases same : other = groupId
    · simp [same]
    · simp [same]

theorem Tracker.directory_groups_none (missing : tracker.group? groupId = none) :
    tracker.directory.groups groupId = none := by
  simp [Tracker.directory, missing]

theorem Tracker.directory_groups_eq (found : tracker.group? groupId = some group) :
    tracker.directory.groups groupId = some group.view := by
  simp [Tracker.directory, found]

/-- Making a user counts one more user of that name, and of no other. -/
theorem UserDB.made_insert (db : UserDB) (username : Bytes) (user : User) :
    UserDB.made { users := db.users.insert username user } =
      Function.update db.made username (db.made username + 1) := by
  funext other
  by_cases same : other = username
  · subst other
    simp [UserDB.made, UnorderedSet.insert]
  · simp [UserDB.made, UnorderedSet.insert, same, Ne.symm same]

theorem UserDB.made_erase (db : UserDB) (username : Bytes) :
    UserDB.made { users := db.users.erase username } = db.made := by
  funext other
  simp [UserDB.made, UnorderedSet.erase]

theorem Tracker.directory_insertUser (user : User) :
    Tracker.directory
        { tracker with userDB := { users := tracker.userDB.users.insert username user } } =
      { tracker.directory with
        made := Function.update tracker.directory.made username
          (tracker.directory.made username + 1)
        users := Function.update tracker.directory.users username (some user) } := by
  ext other : 2
  · exact congrFun (UserDB.made_insert tracker.userDB username user) other
  · rfl
  · rfl
  · rfl

theorem Tracker.directory_eraseUser :
    Tracker.directory
        { tracker with userDB := { users := tracker.userDB.users.erase username } } =
      { tracker.directory with
        users := Function.update tracker.directory.users username none } := by
  ext other : 2
  · exact congrFun (UserDB.made_erase tracker.userDB username) other
  · rfl
  · rfl
  · rfl

end Changes

/-! ## The handlers, one by one -/

section Handlers

variable (platform : Platform) (tracker : Tracker) (origin : EndpointID)

theorem processUserRequest_exec (picked : Option User) (request : UserRequest)
    (stream : Stream) :
    ((processUserRequest platform tracker origin request stream).1.success,
        (processUserRequest platform tracker origin request stream).2.directory) =
      tracker.directory.exec picked origin (userCommand stream request) := by
  cases request with
  | create =>
      simp only [processUserRequest, userCommand, Directory.exec, UserDB.createUser]
      have users_eq : tracker.directory.users stream.extractWord.1 =
          tracker.userDB.users.find? stream.extractWord.1 := rfl
      rw [users_eq]
      by_cases empty : stream.extractWord.1 = [] ∨ stream.extractWord.2.extractWord.1 = []
      · have refused : stream.extractWord.1 = [] ∨ stream.extractWord.2.extractWord.1 = [] ∨
            (tracker.userDB.users.find? stream.extractWord.1).isSome = true := by tauto
        simp only [if_pos empty, if_pos refused]
      · by_cases present : (tracker.userDB.users.find? stream.extractWord.1).isSome = true
        · have refused : stream.extractWord.1 = [] ∨ stream.extractWord.2.extractWord.1 = [] ∨
              (tracker.userDB.users.find? stream.extractWord.1).isSome = true := by tauto
          simp only [if_neg empty, if_pos present, if_pos refused]
        · have allowed : ¬(stream.extractWord.1 = [] ∨ stream.extractWord.2.extractWord.1 = [] ∨
              (tracker.userDB.users.find? stream.extractWord.1).isSome = true) := by tauto
          simp only [if_neg empty, if_neg present, if_neg allowed]
          exact Prod.ext rfl (Tracker.directory_insertUser _)
  | delete =>
      simp only [processUserRequest, userCommand, Directory.exec, UserDB.deleteUser]
      have users_eq : tracker.directory.users stream.extractWord.1 =
          tracker.userDB.users.find? stream.extractWord.1 := rfl
      rw [users_eq]
      by_cases present : (tracker.userDB.users.find? stream.extractWord.1).isSome = true
      · simp only [if_pos present]
        exact Prod.ext rfl Tracker.directory_eraseUser
      · simp only [if_neg present]
  | list => rfl
  | login =>
      simp only [processUserRequest, userCommand, Directory.exec]
      have users_eq : tracker.directory.users stream.extractWord.1 =
          tracker.userDB.getUser stream.extractWord.1 := rfl
      have sessions_eq : tracker.directory.sessions origin = tracker.session? origin := rfl
      rw [users_eq, sessions_eq]
      by_cases empty : stream.extractWord.1 = [] ∨ stream.extractWord.2.extractWord.1 = []
      · simp only [if_pos empty]
      · simp only [if_neg empty]
        cases session : tracker.session? origin with
        | some loggedIn => rfl
        | none =>
            cases found : tracker.userDB.getUser stream.extractWord.1 with
            | none => rfl
            | some user =>
                simp only [User.checkPassword, beq_iff_eq]
                by_cases same : user.password = stream.extractWord.2.extractWord.1
                · simp only [if_pos same]
                  rfl
                · simp only [if_neg same]
  | logout =>
      simp only [processUserRequest, userCommand, Directory.exec]
      by_cases loggedIn : tracker.isLoggedIn origin = true
      · have found : (tracker.directory.sessions origin).isSome = true := loggedIn
        simp only [if_pos loggedIn, if_pos found]
        rfl
      · have missing : ¬(tracker.directory.sessions origin).isSome = true := loggedIn
        simp only [if_neg loggedIn, if_neg missing]

/-! The group and file handlers change at most the group they name. -/

section Groups

variable {tracker}

/-- What a handler leaves behind when it changes nothing: the abstract step on
the group must change nothing either. -/
theorem Directory.exec_group_of_unchanged {picked : Option User} {directory : Directory}
    {user : User} {groupId : Bytes} {command : GroupCommand} {success : Bool}
    (session : directory.sessions origin = some user)
    (step : command.exec picked user (directory.groups groupId) =
      (success, directory.groups groupId)) :
    directory.exec picked origin (.group groupId command) = (success, directory) := by
  simp only [Directory.exec, session, step, Function.update_eq_self]

theorem Directory.exec_group {picked : Option User} {directory : Directory}
    {user : User} {groupId : Bytes} {command : GroupCommand} {success : Bool}
    {view : Option GroupView} (session : directory.sessions origin = some user)
    (step : command.exec picked user (directory.groups groupId) = (success, view)) :
    directory.exec picked origin (.group groupId command) =
      (success, { directory with
        groups := Function.update directory.groups groupId view }) := by
  simp only [Directory.exec, session, step]

theorem GroupCommand.exec_read (picked : Option User) (user : User)
    (view : Option GroupView) : GroupCommand.read.exec picked user view = (false, view) := by
  cases view <;> rfl

theorem Group.hasMember_iff (group : Group) (user : User) :
    group.hasMember user = true ↔ group.view.HasMember user := by
  simp [Group.hasMember, GroupView.HasMember, Group.view]

theorem Group.view_addJoinRequest (group : Group) (user : User) :
    (group.addJoinRequest user).2.view =
      { group.view with pending := insert user group.view.pending } := by
  simp only [Group.addJoinRequest]
  split
  · next present =>
      have same : insert user group.view.pending = group.view.pending :=
        Finset.insert_eq_self.mpr (by simpa [Group.view] using present)
      rw [same]
  · simp [Group.view]

theorem Group.view_accept (group : Group) {user : User} (pending : user ∈ group.joinRequests) :
    ((group.addUser user).2.removeJoinRequest user).2.view =
      { group.view with
        members := insert user group.view.members
        pending := group.view.pending.erase user } := by
  simp only [Group.addUser]
  split
  · next present =>
      have same : insert user group.view.members = group.view.members :=
        Finset.insert_eq_self.mpr (by simpa [Group.view] using present)
      simp only [Group.removeJoinRequest, if_pos pending, same]
      simp [Group.view]
  · simp [Group.removeJoinRequest, pending, Group.view]

theorem Group.view_addFile (group : Group) (groupId : Bytes) (endpoint : Endpoint)
    (fileInfo : FileInfo) :
    (group.addFile { seeders := [endpoint], fileInfo, groupId }).2.view =
      { group.view with files := insert (fileInfo, {endpoint}) group.view.files } := by
  simp only [Group.view, Group.addFile, List.map_append, List.map_cons, List.map_nil,
    List.toFinset_append, GroupView.mk.injEq, true_and]
  ext entry
  simp [File.entry]

theorem Group.hasContent_iff (group : Group) (hash : Bytes) :
    group.view.HasContent hash ↔ ∃ file ∈ group.files, file.fileInfo.hash = hash := by
  simp [GroupView.HasContent, Group.view, File.entry]

theorem Group.view_addSeeder {group : Group} {groupId : Bytes} (valid : group.Valid groupId)
    {place : Nat} {file : File} (found : group.files[place]? = some file)
    (endpoint : Endpoint) :
    (group.addSeeder place endpoint).view = group.view.reseed file.fileInfo.hash endpoint := by
  simp only [Group.view, Group.addSeeder, GroupView.reseed, GroupView.mk.injEq, true_and]
  rw [modify_eq_map_of_nodup (fun file => file.fileInfo.hash) _ valid.files_nodup found]
  ext entry
  simp only [List.mem_toFinset, List.mem_map, Finset.mem_image, exists_exists_and_eq_and]
  constructor
  · rintro ⟨other, member, rfl⟩
    refine ⟨other, member, ?_⟩
    by_cases same : other.fileInfo.hash = file.fileInfo.hash
    · simp [File.entry, same]
    · simp [File.entry, same]
  · rintro ⟨other, member, rfl⟩
    refine ⟨other, member, ?_⟩
    by_cases same : other.fileInfo.hash = file.fileInfo.hash
    · simp [File.entry, same]
    · simp [File.entry, same]

end Groups

/-- Only `create_group` does anything to a group that is missing. -/
theorem Directory.exec_group_missing {picked : Option User} {user : User} {groupId : Bytes}
    {command : GroupCommand} (session : tracker.session? origin = some user)
    (missing : tracker.group? groupId = none) (notCreate : command ≠ .create) :
    tracker.directory.exec picked origin (.group groupId command) =
      (false, tracker.directory) := by
  apply Directory.exec_group_of_unchanged origin session
  rw [Tracker.directory_groups_none missing]
  cases command with
  | create => contradiction
  | _ => rfl

/-- A request that leaves the group as it is. -/
theorem Directory.exec_group_refused {picked : Option User} {user : User} {groupId : Bytes}
    {command : GroupCommand} {group : Group} (session : tracker.session? origin = some user)
    (found : tracker.group? groupId = some group)
    (step : command.exec picked user (some group.view) = (false, some group.view)) :
    tracker.directory.exec picked origin (.group groupId command) =
      (false, tracker.directory) := by
  apply Directory.exec_group_of_unchanged origin session
  rw [Tracker.directory_groups_eq found]
  exact step

/-- A request that changes the group. -/
theorem Directory.exec_group_updated {picked : Option User} {user : User} {groupId : Bytes}
    {command : GroupCommand} {group after : Group} {success : Bool}
    (session : tracker.session? origin = some user)
    (found : tracker.group? groupId = some group)
    (step : command.exec picked user (some group.view) = (success, some after.view)) :
    tracker.directory.exec picked origin (.group groupId command) =
      (success, (tracker.updateGroup groupId after).directory) := by
  rw [← Tracker.directory_groups_eq found] at step
  rw [Tracker.directory_updateGroup (Option.isSome_of_mem found)]
  exact Directory.exec_group origin session step

/-- A missing group is created. -/
theorem Directory.exec_group_created {picked : Option User} {user : User} {groupId : Bytes}
    (session : tracker.session? origin = some user) (missing : tracker.group? groupId = none) :
    tracker.directory.exec picked origin (.group groupId .create) =
      (true, Tracker.directory
        { tracker with
          groupDB := { groups :=
            tracker.groupDB.groups.insert groupId { groupId, owner := user } } }) := by
  have step : GroupCommand.exec picked user .create (tracker.directory.groups groupId) =
      (true, some { owner := user }) := by
    rw [Tracker.directory_groups_none missing]
    rfl
  rw [Directory.exec_group origin session step]
  apply congrArg (Prod.mk true)
  ext other : 2
  · rfl
  · rfl
  · rfl
  · by_cases same : other = groupId
    · subst other
      simp [Tracker.directory, Tracker.group?, GroupDB.getGroup, Group.view]
    · simp [Tracker.directory, Tracker.group?, GroupDB.getGroup, same]

theorem processGroupRequest_exec (request : GroupRequest) (stream : Stream) :
    ((processGroupRequest platform tracker origin request stream).1.success,
        (processGroupRequest platform tracker origin request stream).2.directory) =
      tracker.directory.exec (tracker.picked platform (groupCommand stream request)) origin
        (groupCommand stream request) := by
  by_cases list : request = .list
  · subst request
    rfl
  simp only [processGroupRequest, if_neg list]
  symm
  cases session : tracker.session? origin with
  | none =>
      have loggedOut : tracker.directory.sessions origin = none := session
      cases request with
      | list => contradiction
      | _ => simp only [groupCommand, Directory.exec, loggedOut]
  | some user =>
      cases found : tracker.group? stream.extractWord.1 with
      | none =>
          cases request with
          | list => contradiction
          | create =>
              have absent : tracker.groupDB.groups.find? stream.extractWord.1 = none := found
              simp only [groupCommand, GroupDB.createGroup, absent, Option.isSome_none,
                Bool.false_eq_true, if_false]
              exact Directory.exec_group_created tracker origin session found
          | _ => exact Directory.exec_group_missing tracker origin session found (by simp)
      | some group =>
          cases request with
          | list => contradiction
          | create =>
              have present : tracker.groupDB.groups.find? stream.extractWord.1 = some group := found
              simp only [groupCommand, GroupDB.createGroup, present, Option.isSome_some, if_true]
              exact Directory.exec_group_refused tracker origin session found rfl
          | join =>
              by_cases member : group.hasMember user = true
              · have viewMember := (group.hasMember_iff user).mp member
                simp only [groupCommand, if_pos member]
                apply Directory.exec_group_refused tracker origin session found
                simp only [GroupCommand.exec, if_pos viewMember]
              · have notMember := mt (group.hasMember_iff user).mpr member
                simp only [groupCommand, if_neg member]
                apply Directory.exec_group_updated tracker origin session found
                simp only [GroupCommand.exec, if_neg notMember, group.view_addJoinRequest user]
          | leave =>
              by_cases member : user ∈ group.users
              · have viewMember : user ∈ group.view.members := by simpa [Group.view] using member
                simp only [groupCommand, Group.removeUser, member, decide_true]
                apply Directory.exec_group_updated tracker origin session found
                simp only [GroupCommand.exec, if_pos viewMember]
                simp [Group.view]
              · have notMember : user ∉ group.view.members := by simpa [Group.view] using member
                simp only [groupCommand, Group.removeUser, member, decide_false]
                apply Directory.exec_group_refused tracker origin session found
                simp only [GroupCommand.exec, if_neg notMember]
          | listJoinRequests =>
              exact Directory.exec_group_refused tracker origin session found
                (GroupCommand.exec_read _ user _)
          | acceptJoinRequest =>
              by_cases owner : group.owner = user
              · have viewOwner : group.view.owner = user := owner
                have picked_eq : tracker.picked platform (.group stream.extractWord.1
                    (.accept stream.extractWord.2.extractWord.1)) =
                    (platform.order group.joinRequests).find? fun joinRequest =>
                      joinRequest.username = stream.extractWord.2.extractWord.1 := by
                  simp [Tracker.picked, found]
                simp only [groupCommand, picked_eq, owner, ne_eq, not_true_eq_false, if_false]
                cases pick : (platform.order group.joinRequests).find? fun joinRequest =>
                    joinRequest.username = stream.extractWord.2.extractWord.1 with
                | none => exact Directory.exec_group_refused tracker origin session found rfl
                | some joinRequest =>
                    have pending := (platform.find?_order_eq_some pick).1
                    apply Directory.exec_group_updated tracker origin session found
                    simp only [GroupCommand.exec, if_pos viewOwner, group.view_accept pending]
              · have notOwner : ¬group.view.owner = user := owner
                simp only [groupCommand, ne_eq, owner, not_false_eq_true, if_true]
                apply Directory.exec_group_refused tracker origin session found
                simp only [GroupCommand.exec, if_neg notOwner]
                split <;> rfl

/-- What the search of an upload finds: a file of the same content if the group
has one. -/
theorem find_content {group : Group} {groupId : Bytes} (valid : group.Valid groupId)
    (endpoint : Endpoint) (fileInfo : FileInfo) :
    match (platform.objects groupId group.files).find? fun f =>
        f.2.equals { seeders := [endpoint], fileInfo, groupId } with
    | some (place, file) =>
        group.files[place]? = some file ∧ file.fileInfo.hash = fileInfo.hash
    | none => ¬group.view.HasContent fileInfo.hash := by
  split
  · next place file search =>
      have member := platform.mem_objects.mp (List.mem_of_find?_eq_some search)
      have equal := List.find?_some search
      simp only [File.equals, Bool.and_eq_true, beq_iff_eq] at equal
      exact ⟨member, equal.1⟩
  · next search =>
      rw [group.hasContent_iff]
      rintro ⟨file, member, same⟩
      rcases platform.exists_mem_objects groupId member with ⟨place, listed⟩
      have differs := List.find?_eq_none.mp search (place, file) listed
      simp [File.equals, same, valid.files_group file member] at differs

theorem uploadFile_exec {group : Group} {groupId : Bytes} {user : User}
    (valid : group.Valid groupId) (found : tracker.group? groupId = some group)
    (session : tracker.session? origin = some user) (member : group.view.HasMember user)
    (picked : Option User) (endpoint : Endpoint) (fileInfo : FileInfo) :
    ((uploadFile platform tracker groupId group endpoint fileInfo).1.success,
        (uploadFile platform tracker groupId group endpoint fileInfo).2.directory) =
      tracker.directory.exec picked origin (.group groupId (.upload endpoint fileInfo)) := by
  have search := find_content platform valid endpoint fileInfo
  simp only [uploadFile]
  symm
  split
  · next place file seek =>
      rw [seek] at search
      rcases search with ⟨atPlace, same⟩
      have content : group.view.HasContent fileInfo.hash :=
        (group.hasContent_iff _).mpr ⟨file, List.mem_of_getElem? atPlace, same⟩
      apply Directory.exec_group_updated tracker origin session found
      simp only [GroupCommand.exec, if_pos member, if_pos content,
        Group.view_addSeeder valid atPlace, same]
  · next seek =>
      rw [seek] at search
      apply Directory.exec_group_updated tracker origin session found
      simp only [GroupCommand.exec, if_pos member, if_neg search, Group.view_addFile]

/-- A file request of a user who is not a member does nothing. -/
theorem GroupCommand.exec_stranger {picked : Option User} {user : User} {view : GroupView}
    {command : GroupCommand} (forFile : command.isFile = true)
    (notMember : ¬view.HasMember user) :
    command.exec picked user (some view) = (false, some view) := by
  cases command with
  | upload endpoint fileInfo => simp only [exec, if_neg notMember]
  | download fileName => simp [exec, notMember]
  | read => rfl
  | _ => contradiction

theorem isFile_fileCommand (request : FileRequest) (stream : Stream) :
    ∃ command, fileCommand platform stream request = .group stream.extractWord.1 command ∧
      command.isFile = true := by
  cases request with
  | list => exact ⟨_, rfl, rfl⟩
  | download => exact ⟨_, rfl, rfl⟩
  | upload =>
      simp only [fileCommand]
      split
      · exact ⟨_, rfl, rfl⟩
      · exact ⟨_, rfl, rfl⟩

/-- The search of a download finds a file exactly if the group has one of that
name. -/
theorem find_name_isSome (group : Group) (groupId fileName : Bytes) :
    ((platform.objects groupId group.files).find? fun f =>
        f.2.fileInfo.name = fileName).isSome = true ↔
      ∃ entry ∈ group.view.files, entry.1.name = fileName := by
  simp only [List.find?_isSome, Prod.exists, Container.IterationOrder.mem_objects,
    decide_eq_true_eq, Group.view, List.mem_toFinset, List.mem_map, exists_exists_and_eq_and]
  constructor
  · rintro ⟨place, file, atPlace, named⟩
    exact ⟨file, List.mem_of_getElem? atPlace, named⟩
  · rintro ⟨file, member, named⟩
    rcases platform.exists_mem_objects groupId member with ⟨place, listed⟩
    exact ⟨place, file, platform.mem_objects.mp listed, named⟩

theorem processFileRequest_exec (valid : tracker.Valid) (picked : Option User)
    (request : FileRequest) (stream : Stream) :
    (succeeded (processFileRequest platform tracker origin request stream).1,
        (processFileRequest platform tracker origin request stream).2.directory) =
      tracker.directory.exec picked origin (fileCommand platform stream request) := by
  obtain ⟨command, command_eq, forFile⟩ := isFile_fileCommand platform request stream
  simp only [processFileRequest]
  symm
  cases session : tracker.session? origin with
  | none =>
      have loggedOut : tracker.directory.sessions origin = none := session
      simp only [command_eq, Directory.exec, loggedOut, succeeded]
  | some user =>
      cases found : tracker.group? stream.extractWord.1 with
      | none =>
          rw [command_eq]
          apply Directory.exec_group_missing tracker origin session found
          rintro rfl
          cases forFile
      | some group =>
          by_cases member : group.hasMember user = true
          · have viewMember := (group.hasMember_iff user).mp member
            simp only [member, Bool.not_true, Bool.false_eq_true, if_false]
            cases request with
            | list =>
                exact Directory.exec_group_refused tracker origin session found
                  (GroupCommand.exec_read picked user _)
            | download =>
                have step : GroupCommand.exec picked user
                    (.download stream.extractWord.2.extractWord.1) (some group.view) =
                      (((platform.objects stream.extractWord.1 group.files).find? fun f =>
                          f.2.fileInfo.name = stream.extractWord.2.extractWord.1).isSome,
                        some group.view) := by
                  refine Prod.ext ?_ rfl
                  simp only [GroupCommand.exec, viewMember, true_and]
                  rw [Bool.eq_iff_iff, decide_eq_true_iff,
                    find_name_isSome platform group stream.extractWord.1]
                rw [← Tracker.directory_groups_eq found] at step
                simp only [fileCommand, Directory.exec_group_of_unchanged origin session step]
                split
                · next place file search =>
                    rw [search]
                    rfl
                · next search =>
                    rw [search]
                    rfl
            | upload =>
                simp only [fileCommand]
                cases decodeUpload platform stream.extractWord.2 with
                | ok arguments =>
                    rcases arguments with ⟨endpoint, fileInfo⟩
                    exact (uploadFile_exec platform tracker origin (valid _ _ found) found session
                      viewMember picked endpoint fileInfo).symm
                | error error =>
                    have step := GroupCommand.exec_read picked user (some group.view)
                    simp only [Directory.exec_group_refused tracker origin session found step]
                    cases error <;> rfl
          · have notMember := mt (group.hasMember_iff user).mpr member
            simp only [member, Bool.not_false, if_true, command_eq]
            exact Directory.exec_group_refused tracker origin session found
              (GroupCommand.exec_stranger forFile notMember)

end Handlers

/-! ## The catalogue stays well formed -/

/-- A group with the same files is as well formed. -/
theorem Group.Valid.of_files_eq {groupId : Bytes} {group other : Group}
    (valid : group.Valid groupId) (files_eq : other.files = group.files) :
    other.Valid groupId where
  files_group := files_eq ▸ valid.files_group
  files_nodup := files_eq ▸ valid.files_nodup

theorem Group.files_addJoinRequest (group : Group) (user : User) :
    (group.addJoinRequest user).2.files = group.files := by
  simp only [Group.addJoinRequest]
  split <;> rfl

theorem Group.files_accept (group : Group) (user : User) :
    ((group.addUser user).2.removeJoinRequest user).2.files = group.files := by
  simp only [Group.addUser, Group.removeJoinRequest]
  split <;> split <;> rfl

theorem Group.Valid.addFile {groupId : Bytes} {group : Group} (valid : group.Valid groupId)
    {file : File} (file_group : file.groupId = groupId)
    (fresh : ∀ other ∈ group.files, other.equals file = false) :
    (group.addFile file).2.Valid groupId where
  files_group other member := by
    rcases List.mem_append.mp member with old | new
    · exact valid.files_group other old
    · rw [List.mem_singleton.mp new]
      exact file_group
  files_nodup := by
    simp only [Group.addFile, List.map_append, List.map_cons, List.map_nil]
    rw [List.nodup_append]
    refine ⟨valid.files_nodup, List.nodup_singleton _, ?_⟩
    intro hash member other single
    rw [List.mem_singleton.mp single]
    rintro rfl
    rcases List.mem_map.mp member with ⟨old, oldMember, same⟩
    have differs := fresh old oldMember
    have sameGroup := (valid.files_group old oldMember).trans file_group.symm
    simp [File.equals, same, sameGroup] at differs

theorem Group.Valid.addSeeder {groupId : Bytes} {group : Group} (valid : group.Valid groupId)
    (place : Nat) (endpoint : Endpoint) : (group.addSeeder place endpoint).Valid groupId where
  files_group other member := by
    rcases List.mem_iff_getElem.mp member with ⟨index, inRange, rfl⟩
    simp only [Group.addSeeder, List.getElem_modify]
    have oldRange : index < group.files.length := by simpa [Group.addSeeder] using inRange
    have belongs := valid.files_group _ (List.getElem_mem oldRange)
    split <;> exact belongs
  files_nodup := by
    have same : (group.addSeeder place endpoint).files.map (fun file => file.fileInfo.hash) =
        group.files.map fun file => file.fileInfo.hash := by
      apply List.ext_getElem
      · simp [Group.addSeeder]
      · intro index _ _
        simp only [Group.addSeeder, List.getElem_map, List.getElem_modify]
        split <;> rfl
    rw [same]
    exact valid.files_nodup

theorem Group.Valid.changed {groupId : Bytes} {group after : Group}
    (valid : group.Valid groupId) (step : group.Changed groupId after) : after.Valid groupId := by
  cases step with
  | join user => exact valid.of_files_eq (group.files_addJoinRequest user)
  | leave user => exact valid.of_files_eq rfl
  | accept user => exact valid.of_files_eq (group.files_accept user)
  | seed place endpoint => exact valid.addSeeder place endpoint
  | upload file file_group fresh => exact valid.addFile file_group fresh

/-! ## Properties of all groups -/

section Groups

variable {p : Bytes → Group → Prop} (created : ∀ groupId owner, p groupId { groupId, owner })
  (changed : ∀ {groupId group after}, group.Changed groupId after → p groupId group →
    p groupId after)

include created changed

/-- What holds of a new group and is kept by its changes holds of every group. -/
theorem Tracker.Touched.forall_groups {tracker after : Tracker} {groupId : Bytes}
    (touched : Tracker.Touched groupId tracker after)
    (holds : ∀ other group, tracker.group? other = some group → p other group) :
    ∀ other group, after.group? other = some group → p other group := by
  intro other group found
  cases touched with
  | same => exact holds other group found
  | created owner =>
      simp only [Tracker.group?, GroupDB.getGroup, GroupDB.createGroup] at found
      split at found
      · exact holds other group found
      · simp only [UnorderedMap.find?_insert, Function.update_apply] at found
        split at found
        · next same =>
            subst same
            obtain rfl := Option.some.inj found
            exact created other owner
        · exact holds other group found
  | changed before step =>
      rw [Tracker.group?_updateGroup] at found
      split at found
      · next same =>
          subst same
          obtain ⟨_, _, rfl⟩ := Option.map_eq_some_iff.mp found
          exact changed step (holds other _ before)
      · exact holds other group found

theorem handle_forall_groups (platform : Platform) {tracker : Tracker}
    (holds : ∀ groupId group, tracker.group? groupId = some group → p groupId group)
    (transaction : Transaction) :
    ∀ groupId group, (handle platform tracker transaction).2.group? groupId = some group →
      p groupId group := by
  rcases transaction with ⟨origin, request, data, outcome⟩
  cases request with
  | user request =>
      have groups_eq := (processUserRequest_frame platform tracker origin request
        (requestHead platform data).2.2).1
      intro groupId group found
      simp only [handle, Tracker.group?, groups_eq] at found
      exact holds groupId group found
  | group request =>
      exact (processGroupRequest_touched platform tracker origin request _).forall_groups created
        changed holds
  | file request =>
      exact (processFileRequest_touched platform tracker origin request _).forall_groups created
        changed holds
  | tracker request => exact holds

end Groups

/-- Every request keeps the catalogue well formed. -/
theorem handle_valid (platform : Platform) {tracker : Tracker} (valid : tracker.Valid)
    (transaction : Transaction) : (handle platform tracker transaction).2.Valid :=
  handle_forall_groups (fun _ _ => ⟨by simp, by simp⟩) (fun step valid => valid.changed step)
    platform valid transaction

/-- The refinement theorem: success and the abstract state after a request are
those of its command. -/
theorem handle_exec (platform : Platform) {tracker : Tracker} (valid : tracker.Valid)
    (transaction : Transaction) :
    (succeeded (handle platform tracker transaction).1,
        (handle platform tracker transaction).2.directory) =
      tracker.directory.exec (tracker.picked platform (command platform transaction))
        transaction.origin (command platform transaction) := by
  rcases transaction with ⟨origin, request, data, outcome⟩
  cases request with
  | user request => exact processUserRequest_exec platform tracker origin _ request _
  | group request => exact processGroupRequest_exec platform tracker origin request _
  | file request => exact processFileRequest_exec platform tracker origin valid _ request _
  | tracker request => rfl

theorem Tracker.picks_picked (platform : Platform) (tracker : Tracker) (command : Command) :
    tracker.directory.Picks (tracker.picked platform command) command := by
  cases command with
  | group groupId command =>
      cases command with
      | accept username =>
          simp only [Directory.Picks, Tracker.picked, Directory.candidates]
          cases found : tracker.group? groupId with
          | none => simp [Tracker.directory, found]
          | some group =>
              simp only [Tracker.directory_groups_eq found, Option.bind_some]
              split
              · next joiner pick =>
                  obtain ⟨pending, named⟩ := platform.find?_order_eq_some pick
                  simpa [Group.view] using And.intro pending (of_decide_eq_true named)
              · next pick =>
                  have missing := platform.find?_order_eq_none.mp pick
                  simpa [Finset.filter_eq_empty_iff, Group.view] using missing
      | _ => trivial
  | _ => trivial

end P2PFileShare
