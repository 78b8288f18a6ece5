import P2PFileShare.Tracker.ProcessData

/-!
# What a handler may touch

User requests leave the groups alone; group and file requests change at most the
group they name.  The log is kept outside the handlers.
-/

namespace P2PFileShare

open Container Text

/-- What a request can make of a group. -/
inductive Group.Changed (groupId : Bytes) (group : Group) : Group → Prop
  | join (user : User) : Changed groupId group (group.addJoinRequest user).2
  | leave (user : User) : Changed groupId group (group.removeUser user).2
  | accept (user : User) :
      Changed groupId group ((group.addUser user).2.removeJoinRequest user).2
  | seed (place : Nat) (endpoint : Endpoint) :
      Changed groupId group (group.addSeeder place endpoint)
  | upload (file : File) (file_group : file.groupId = groupId)
      (fresh : ∀ other ∈ group.files, other.equals file = false) :
      Changed groupId group (group.addFile file).2

/-- The state after a request on one group: the tracker as it was, or with that
group created or changed. -/
inductive Tracker.Touched (groupId : Bytes) (tracker : Tracker) : Tracker → Prop
  | same : Touched groupId tracker tracker
  | created (owner : User) :
      Touched groupId tracker
        { tracker with groupDB := (tracker.groupDB.createGroup groupId owner).2 }
  | changed {group after : Group} (found : tracker.group? groupId = some group)
      (step : group.Changed groupId after) :
      Touched groupId tracker (tracker.updateGroup groupId after)

namespace Tracker.Touched

variable {tracker after : Tracker} {groupId other : Bytes}

theorem log_eq (touched : Touched groupId tracker after) :
    after.successfulTransactions = tracker.successfulTransactions := by
  cases touched <;> rfl

theorem userDB_eq (touched : Touched groupId tracker after) : after.userDB = tracker.userDB := by
  cases touched <;> rfl

theorem loggedInUsers_eq (touched : Touched groupId tracker after) :
    after.loggedInUsers = tracker.loggedInUsers := by
  cases touched <;> rfl

/-- Every other group is as it was. -/
theorem group?_eq (touched : Touched groupId tracker after) (distinct : other ≠ groupId) :
    after.group? other = tracker.group? other := by
  cases touched with
  | same => rfl
  | created owner =>
      simp only [Tracker.group?, GroupDB.getGroup, GroupDB.createGroup]
      split
      · rfl
      · simp only [UnorderedMap.find?_insert, Function.update_of_ne distinct]
  | changed found step =>
      simp only [Tracker.group?, Tracker.updateGroup, GroupDB.getGroup, GroupDB.update,
        UnorderedMap.find?_adjust, Function.update_of_ne distinct]

end Tracker.Touched

section Handlers

variable (platform : Platform) (tracker : Tracker) (origin : EndpointID)

/-- User requests touch neither the groups nor the log. -/
theorem processUserRequest_frame (request : UserRequest) (stream : Stream) :
    (processUserRequest platform tracker origin request stream).2.groupDB = tracker.groupDB ∧
      (processUserRequest platform tracker origin request stream).2.successfulTransactions =
        tracker.successfulTransactions := by
  cases request with
  | create =>
      simp only [processUserRequest]
      split
      · exact ⟨rfl, rfl⟩
      · split <;> exact ⟨rfl, rfl⟩
  | delete =>
      simp only [processUserRequest]
      split <;> exact ⟨rfl, rfl⟩
  | list => exact ⟨rfl, rfl⟩
  | login =>
      simp only [processUserRequest]
      split
      · exact ⟨rfl, rfl⟩
      · split
        · exact ⟨rfl, rfl⟩
        · exact ⟨rfl, rfl⟩
        · split <;> exact ⟨rfl, rfl⟩
  | logout =>
      simp only [processUserRequest]
      split <;> exact ⟨rfl, rfl⟩

theorem processGroupRequest_touched (request : GroupRequest) (stream : Stream) :
    Tracker.Touched stream.extractWord.1 tracker
      (processGroupRequest platform tracker origin request stream).2 := by
  by_cases list : request = .list
  · subst list
    exact .same
  simp only [processGroupRequest, if_neg list]
  cases tracker.session? origin with
  | none => exact .same
  | some user =>
      cases request with
      | list => contradiction
      | create =>
          simp only
          split
          · next groupDB created =>
              have groupDB_eq := congrArg Prod.snd created
              simp only at groupDB_eq
              rw [← groupDB_eq]
              exact .created user
          · exact .same
      | join =>
          cases found : tracker.group? stream.extractWord.1 with
          | none => exact .same
          | some group =>
              simp only
              split
              · exact .same
              · exact .changed found (.join user)
      | leave =>
          cases found : tracker.group? stream.extractWord.1 with
          | none => exact .same
          | some group =>
              simp only
              split
              · next left =>
                  have left_eq := congrArg Prod.snd left
                  simp only at left_eq
                  rw [← left_eq]
                  exact .changed found (.leave user)
              · exact .same
      | listJoinRequests =>
          cases tracker.group? stream.extractWord.1 with
          | none => exact .same
          | some group => exact .same
      | acceptJoinRequest =>
          cases found : tracker.group? stream.extractWord.1 with
          | none => exact .same
          | some group =>
              simp only
              split
              · exact .same
              · split
                · exact .changed found (.accept _)
                · exact .same

theorem uploadFile_touched {groupId : Bytes} {group : Group}
    (found : tracker.group? groupId = some group) (endpoint : Endpoint) (fileInfo : FileInfo) :
    Tracker.Touched groupId tracker
      (uploadFile platform tracker groupId group endpoint fileInfo).2 := by
  simp only [uploadFile]
  split
  · exact .changed found (.seed _ endpoint)
  · next search =>
      apply Tracker.Touched.changed found
      apply Group.Changed.upload
      · rfl
      · intro other member
        rcases platform.exists_mem_objects groupId member with ⟨place, listed⟩
        exact Bool.eq_false_iff.mpr (List.find?_eq_none.mp search (place, other) listed)

theorem processFileRequest_touched (request : FileRequest) (stream : Stream) :
    Tracker.Touched stream.extractWord.1 tracker
      (processFileRequest platform tracker origin request stream).2 := by
  simp only [processFileRequest]
  cases tracker.session? origin with
  | none => exact .same
  | some user =>
      cases found : tracker.group? stream.extractWord.1 with
      | none => exact .same
      | some group =>
          simp only
          split
          · exact .same
          cases request with
          | list => exact .same
          | download =>
              simp only
              split <;> exact .same
          | upload =>
              simp only
              cases decodeUpload platform stream.extractWord.2 with
              | error error => cases error <;> exact .same
              | ok arguments =>
                  exact uploadFile_touched platform tracker found arguments.1 arguments.2

/-- Requests run the handlers and never read or change the log. -/
theorem handle_log (transaction : Transaction) :
    (handle platform tracker transaction).2.successfulTransactions =
      tracker.successfulTransactions := by
  rcases transaction with ⟨origin, request, data, outcome⟩
  cases request with
  | user request => exact (processUserRequest_frame platform tracker origin request _).2
  | group request => exact (processGroupRequest_touched platform tracker origin request _).log_eq
  | file request => exact (processFileRequest_touched platform tracker origin request _).log_eq
  | tracker request => rfl

end Handlers

/-- The tracker with another log. -/
def Tracker.withLog (tracker : Tracker) (log : List Transaction) : Tracker :=
  { tracker with successfulTransactions := log }

section WithLog

variable (platform : Platform) (tracker : Tracker) (log : List Transaction)

theorem processUserRequest_withLog (origin : EndpointID) (request : UserRequest)
    (stream : Stream) :
    processUserRequest platform (tracker.withLog log) origin request stream =
      ((processUserRequest platform tracker origin request stream).1,
        (processUserRequest platform tracker origin request stream).2.withLog log) := by
  cases request with
  | create =>
      simp only [processUserRequest, Tracker.withLog]
      split
      · rfl
      · split <;> rfl
  | delete =>
      simp only [processUserRequest, Tracker.withLog]
      split <;> rfl
  | list => rfl
  | login =>
      simp only [processUserRequest, Tracker.withLog, Tracker.session?]
      split
      · rfl
      · split
        · rfl
        · rfl
        · split <;> rfl
  | logout =>
      have loggedIn : (tracker.withLog log).isLoggedIn origin = tracker.isLoggedIn origin := rfl
      simp only [processUserRequest, loggedIn]
      cases tracker.isLoggedIn origin <;> rfl

theorem processGroupRequest_withLog (origin : EndpointID) (request : GroupRequest)
    (stream : Stream) :
    processGroupRequest platform (tracker.withLog log) origin request stream =
      ((processGroupRequest platform tracker origin request stream).1,
        (processGroupRequest platform tracker origin request stream).2.withLog log) := by
  have session : (tracker.withLog log).session? origin = tracker.session? origin := rfl
  have group : (tracker.withLog log).group? = tracker.group? := rfl
  have groups : (tracker.withLog log).groupDB = tracker.groupDB := rfl
  simp only [processGroupRequest, session, group, groups]
  split
  · rfl
  · cases tracker.session? origin with
    | none => rfl
    | some user =>
        cases request with
        | create =>
            dsimp only
            split <;> rfl
        | list => rfl
        | leave =>
            dsimp only
            split
            · split <;> rfl
            · rfl
        | join =>
            dsimp only
            split
            · split <;> rfl
            · rfl
        | listJoinRequests =>
            dsimp only
            split <;> rfl
        | acceptJoinRequest =>
            dsimp only
            split
            · split
              · rfl
              · split <;> rfl
            · rfl

theorem uploadFile_withLog (groupId : Bytes) (group : Group) (endpoint : Endpoint)
    (fileInfo : FileInfo) :
    uploadFile platform (tracker.withLog log) groupId group endpoint fileInfo =
      ((uploadFile platform tracker groupId group endpoint fileInfo).1,
        (uploadFile platform tracker groupId group endpoint fileInfo).2.withLog log) := by
  simp only [uploadFile]
  split <;> rfl

theorem processFileRequest_withLog (origin : EndpointID) (request : FileRequest)
    (stream : Stream) :
    processFileRequest platform (tracker.withLog log) origin request stream =
      ((processFileRequest platform tracker origin request stream).1,
        (processFileRequest platform tracker origin request stream).2.withLog log) := by
  have session : (tracker.withLog log).session? origin = tracker.session? origin := rfl
  have group : (tracker.withLog log).group? = tracker.group? := rfl
  simp only [processFileRequest, session, group]
  cases tracker.session? origin with
  | none => rfl
  | some user =>
      cases tracker.group? stream.extractWord.1 with
      | none => rfl
      | some group =>
          dsimp only
          split
          · rfl
          · cases request with
            | list => rfl
            | upload =>
                dsimp only
                split
                · simp only [uploadFile_withLog]
                · rfl
                · rfl
            | download =>
                dsimp only
                split <;> rfl

/-- The handlers do not read the log either. -/
theorem handle_withLog (transaction : Transaction) :
    handle platform (tracker.withLog log) transaction =
      ((handle platform tracker transaction).1,
        (handle platform tracker transaction).2.withLog log) := by
  rcases transaction with ⟨origin, request, data, outcome⟩
  cases request with
  | user request => simp only [handle, processUserRequest_withLog]
  | group request => simp only [handle, processGroupRequest_withLog]
  | file request => simp only [handle, processFileRequest_withLog]
  | tracker request => rfl

end WithLog

end P2PFileShare
