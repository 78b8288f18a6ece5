import P2PFileShare.Tracker.Residue
import P2PFileShare.Transition.Keyed

/-!
# Requests to different groups are independent

Group and file requests form a keyed machine: the cell of a request is the group
it names, and users and sessions are shared.  So requests to different groups
may arrive in any order, as long as none stores the value of a variable that
nothing was assigned to.
-/

namespace P2PFileShare

open Container Text Transition

/-- The group that a transaction names, if it is a group or file request other
than `list_groups`. -/
def namedGroup (platform : Platform) (transaction : Transaction) : Option Bytes :=
  match transaction.request with
  | .group .list | .user _ | .tracker _ => none
  | .group _ | .file _ => some (requestHead platform transaction.data).2.2.extractWord.1

/-- A transaction that names a group. -/
structure GroupTransaction (platform : Platform) extends Transaction where
  groupId : Bytes
  names : namedGroup platform toTransaction = some groupId

/-- A request on a group, and what it finds in unassigned variables when it is handled. -/
structure GroupArrival (platform : Platform) where
  transaction : GroupTransaction platform
  residue : Bytes → UInt64

/-- The same request, when it finds what the platform says. -/
def GroupArrival.settled {platform : Platform} (arrival : GroupArrival platform) :
    GroupArrival platform :=
  { arrival with residue := platform.uninitialised }

/-- Which group is named does not depend on the residue. -/
def GroupTransaction.reading {platform : Platform} (transaction : GroupTransaction platform)
    (residue : Bytes → UInt64) : GroupTransaction (platform.reading residue) where
  toTransaction := transaction.toTransaction
  groupId := transaction.groupId
  names := by
    rw [← transaction.names, namedGroup, namedGroup,
      requestHead_snd (platform.reading residue) platform]

/-- A group request that names a group names it first. -/
theorem namedGroup_group {platform : Platform} {request : GroupRequest} {origin : EndpointID}
    {data groupId : Bytes} {outcome : Result}
    (names : namedGroup platform { origin, request := .group request, data, outcome } =
      some groupId) :
    request ≠ .list ∧ (requestHead platform data).2.2.extractWord.1 = groupId := by
  cases request with
  | list => cases names
  | _ => exact ⟨by simp, Option.some.inj names⟩

section Locality

variable (platform : Platform) {tracker other : Tracker} (origin : EndpointID)

/-- Two trackers look the same to a request on a group. -/
structure Tracker.AgreeAt (groupId : Bytes) (tracker other : Tracker) : Prop where
  session : ∀ origin, tracker.session? origin = other.session? origin
  group : tracker.group? groupId = other.group? groupId

/-- What a replacement of the group leaves there. -/
theorem Tracker.AgreeAt.updateGroup {groupId : Bytes} (agree : tracker.AgreeAt groupId other)
    (group : Group) :
    (tracker.updateGroup groupId group).group? groupId =
      (other.updateGroup groupId group).group? groupId := by
  simp only [Tracker.group?, Tracker.updateGroup, GroupDB.getGroup, GroupDB.update,
    UnorderedMap.find?_adjust, Function.update_self]
  exact congrArg (Option.map fun _ => group) agree.group

theorem Tracker.AgreeAt.createGroup {groupId : Bytes} (agree : tracker.AgreeAt groupId other)
    (owner : User) :
    (tracker.groupDB.createGroup groupId owner).1 = (other.groupDB.createGroup groupId owner).1 ∧
      (tracker.groupDB.createGroup groupId owner).2.getGroup groupId =
        (other.groupDB.createGroup groupId owner).2.getGroup groupId := by
  have group : tracker.groupDB.groups.find? groupId = other.groupDB.groups.find? groupId :=
    agree.group
  simp only [GroupDB.createGroup, group]
  split
  · exact ⟨rfl, group⟩
  · simp only [GroupDB.getGroup, UnorderedMap.find?_insert, Function.update_self, and_self]

theorem processGroupRequest_local (request : GroupRequest) (named : request ≠ .list)
    (stream : Stream) (agree : tracker.AgreeAt stream.extractWord.1 other) :
    (processGroupRequest platform tracker origin request stream).1 =
        (processGroupRequest platform other origin request stream).1 ∧
      (processGroupRequest platform tracker origin request stream).2.group?
          stream.extractWord.1 =
        (processGroupRequest platform other origin request stream).2.group?
          stream.extractWord.1 := by
  simp only [processGroupRequest, if_neg named, agree.session origin]
  cases other.session? origin with
  | none => exact ⟨rfl, agree.group⟩
  | some user =>
      cases request with
      | list => contradiction
      | create =>
          obtain ⟨success, group⟩ := agree.createGroup user
          simp only
          cases created : other.groupDB.createGroup stream.extractWord.1 user with
          | mk flag otherDB =>
              cases createdHere : tracker.groupDB.createGroup stream.extractWord.1 user with
              | mk flagHere groupDB =>
                  rw [created, createdHere] at success group
                  simp only at success group
                  subst success
                  cases flagHere with
                  | false => exact ⟨rfl, agree.group⟩
                  | true => exact ⟨rfl, group⟩
      | join =>
          simp only [agree.group]
          cases other.group? stream.extractWord.1 with
          | none => exact ⟨rfl, agree.group⟩
          | some group =>
              simp only
              split
              · exact ⟨rfl, agree.group⟩
              · exact ⟨rfl, agree.updateGroup _⟩
      | leave =>
          simp only [agree.group]
          cases other.group? stream.extractWord.1 with
          | none => exact ⟨rfl, agree.group⟩
          | some group =>
              simp only
              split
              · exact ⟨rfl, agree.updateGroup _⟩
              · exact ⟨rfl, agree.group⟩
      | listJoinRequests =>
          simp only [agree.group]
          cases other.group? stream.extractWord.1 with
          | none => exact ⟨rfl, agree.group⟩
          | some group => exact ⟨rfl, agree.group⟩
      | acceptJoinRequest =>
          simp only [agree.group]
          cases other.group? stream.extractWord.1 with
          | none => exact ⟨rfl, agree.group⟩
          | some group =>
              simp only
              split
              · exact ⟨rfl, agree.group⟩
              · split
                · exact ⟨rfl, agree.updateGroup _⟩
                · exact ⟨rfl, agree.group⟩

theorem uploadFile_local {groupId : Bytes} (agree : tracker.AgreeAt groupId other)
    (group : Group) (endpoint : Endpoint) (fileInfo : FileInfo) :
    (uploadFile platform tracker groupId group endpoint fileInfo).1 =
        (uploadFile platform other groupId group endpoint fileInfo).1 ∧
      (uploadFile platform tracker groupId group endpoint fileInfo).2.group? groupId =
        (uploadFile platform other groupId group endpoint fileInfo).2.group? groupId := by
  simp only [uploadFile]
  split
  · exact ⟨rfl, agree.updateGroup _⟩
  · exact ⟨rfl, agree.updateGroup _⟩

theorem processFileRequest_local (request : FileRequest) (stream : Stream)
    (agree : tracker.AgreeAt stream.extractWord.1 other) :
    (processFileRequest platform tracker origin request stream).1 =
        (processFileRequest platform other origin request stream).1 ∧
      (processFileRequest platform tracker origin request stream).2.group?
          stream.extractWord.1 =
        (processFileRequest platform other origin request stream).2.group?
          stream.extractWord.1 := by
  simp only [processFileRequest, agree.session origin, agree.group]
  cases other.session? origin with
  | none => exact ⟨rfl, agree.group⟩
  | some user =>
      cases other.group? stream.extractWord.1 with
      | none => exact ⟨rfl, agree.group⟩
      | some group =>
          simp only
          split
          · exact ⟨rfl, agree.group⟩
          cases request with
          | list => exact ⟨rfl, agree.group⟩
          | download =>
              simp only
              split <;> exact ⟨rfl, agree.group⟩
          | upload =>
              simp only
              cases decodeUpload platform stream.extractWord.2 with
              | error error => cases error <;> exact ⟨rfl, agree.group⟩
              | ok arguments =>
                  obtain ⟨answer, after⟩ :=
                    uploadFile_local platform agree group arguments.1 arguments.2
                  exact ⟨congrArg Except.ok answer, after⟩

/-- A request on a group depends on the sessions and on that group. -/
theorem handle_local (transaction : GroupTransaction platform)
    (agree : tracker.AgreeAt transaction.groupId other) :
    (handle platform tracker transaction.toTransaction).1 =
        (handle platform other transaction.toTransaction).1 ∧
      (handle platform tracker transaction.toTransaction).2.group? transaction.groupId =
        (handle platform other transaction.toTransaction).2.group? transaction.groupId := by
  rcases transaction with ⟨⟨origin, request, data, outcome⟩, groupId, names⟩
  cases request with
  | user request => cases names
  | tracker request => cases names
  | file request =>
      obtain rfl := Option.some.inj names
      exact processFileRequest_local platform origin request _ agree
  | group request =>
      obtain ⟨named, rfl⟩ := namedGroup_group names
      obtain ⟨answer, group⟩ := processGroupRequest_local platform origin request named _ agree
      exact ⟨congrArg Except.ok answer, group⟩

/-- And it touches no other group. -/
theorem handle_touched (transaction : GroupTransaction platform) :
    Tracker.Touched transaction.groupId tracker
      (handle platform tracker transaction.toTransaction).2 := by
  rcases transaction with ⟨⟨origin, request, data, outcome⟩, groupId, names⟩
  cases request with
  | user request => cases names
  | tracker request => cases names
  | file request =>
      obtain rfl := Option.some.inj names
      exact processFileRequest_touched platform tracker origin request _
  | group request =>
      obtain ⟨_, rfl⟩ := namedGroup_group names
      exact processGroupRequest_touched platform tracker origin request _

/-- Whether a request on a group stores the residue depends on the sessions and on that
group. -/
theorem storesResidue_local (transaction : GroupTransaction platform)
    (agree : tracker.AgreeAt transaction.groupId other) :
    tracker.StoresResidue platform transaction.toTransaction ↔
      other.StoresResidue platform transaction.toTransaction := by
  rcases transaction with ⟨⟨origin, request, data, outcome⟩, groupId, names⟩
  refine and_congr_right fun upload => ?_
  obtain rfl : request = .file .upload := upload
  obtain rfl := Option.some.inj names
  simp only [Tracker.UploadsUnsized, agree.session, agree.group]

end Locality

/-! ## The keyed machine -/

/-- The tracker as a machine whose cells are the groups. -/
def groupMachine (platform : Platform) :
    Keyed Tracker (GroupArrival platform) (Except Exception Result) Bytes (Option Group)
      (UserDB × Container.UnorderedMap EndpointID User) where
  step tracker arrival :=
    handle (platform.reading arrival.residue) tracker arrival.transaction.toTransaction
  key arrival := arrival.transaction.groupId
  cell tracker groupId := tracker.group? groupId
  shared tracker := (tracker.userDB, tracker.loggedInUsers)
  answer_congr arrival shared cell := by
    have sessions := congrArg Prod.snd shared
    exact (handle_local _ (arrival.transaction.reading arrival.residue)
      ⟨fun origin => congrArg (fun map => map.find? origin) sessions, cell⟩).1
  cell_congr arrival shared cell := by
    have sessions := congrArg Prod.snd shared
    exact (handle_local _ (arrival.transaction.reading arrival.residue)
      ⟨fun origin => congrArg (fun map => map.find? origin) sessions, cell⟩).2
  frame tracker arrival groupId distinct :=
    (handle_touched _ (arrival.transaction.reading arrival.residue)).group?_eq distinct
  shared_step tracker arrival :=
    Prod.ext (handle_touched _ (arrival.transaction.reading arrival.residue)).userDB_eq
      (handle_touched _ (arrival.transaction.reading arrival.residue)).loggedInUsers_eq

/-- The request does not store what it finds in an unassigned variable. -/
def Sized {platform : Platform} (tracker : Tracker) (arrival : GroupArrival platform) : Prop :=
  ¬tracker.StoresResidue platform arrival.transaction.toTransaction

instance {platform : Platform} (tracker : Tracker) (arrival : GroupArrival platform) :
    Decidable (Sized tracker arrival) :=
  inferInstanceAs (Decidable (¬_))

/-- A request that does not store the residue does as the settled one. -/
theorem groupMachine_variants (platform : Platform) :
    (groupMachine platform).Variants Sized GroupArrival.settled where
  local_condition arrival shared cell := by
    have sessions := congrArg Prod.snd shared
    exact not_congr (storesResidue_local platform arrival.transaction
      ⟨fun origin => congrArg (fun map => map.find? origin) sessions, cell⟩)
  condition_iff _ _ := Iff.rfl
  key_eq _ := rfl
  step_eq sized := by
    obtain ⟨answer, after⟩ := handle_reading platform _ _ _
    exact Prod.ext answer.symm (after sized).symm

/-- The order of requests to different groups does not matter.  Two sequences hold the same
requests to every group in the same order, and each request is handled with a residue of its
own.  If no request of the first one stores it, they end with the same groups, users and
sessions, and every group sees the same answers. -/
theorem groups_independent (platform : Platform) (tracker : Tracker)
    (first second : List (GroupArrival platform))
    (agree : ∀ groupId,
      ((first.filter fun arrival => arrival.transaction.groupId = groupId).map
          GroupArrival.transaction) =
        (second.filter fun arrival => arrival.transaction.groupId = groupId).map
          GroupArrival.transaction)
    (sized : (groupMachine platform).Meets Sized tracker first) :
    (∀ groupId, ((groupMachine platform).run tracker first).group? groupId =
        ((groupMachine platform).run tracker second).group? groupId) ∧
      ((groupMachine platform).run tracker first).userDB =
        ((groupMachine platform).run tracker second).userDB ∧
      ((groupMachine platform).run tracker first).loggedInUsers =
        ((groupMachine platform).run tracker second).loggedInUsers ∧
      ∀ groupId, (groupMachine platform).answers groupId tracker first =
        (groupMachine platform).answers groupId tracker second := by
  have settled (arrivals : List (GroupArrival platform)) :
      arrivals.map GroupArrival.settled =
        (arrivals.map GroupArrival.transaction).map (⟨·, platform.uninitialised⟩) := by
    rw [List.map_map]
    rfl
  have agreed (groupId : Bytes) :
      ((first.filter fun arrival => arrival.transaction.groupId = groupId).map
          GroupArrival.settled) =
        (second.filter fun arrival => arrival.transaction.groupId = groupId).map
          GroupArrival.settled := by
    rw [settled, settled, agree]
  have machine := (groupMachine_variants platform).run_congr tracker agreed sized
  have firstShared := (groupMachine platform).shared_run tracker first
  have secondShared := (groupMachine platform).shared_run tracker second
  have shared := firstShared.trans secondShared.symm
  exact ⟨fun groupId => (machine groupId).2, congrArg Prod.fst shared, congrArg Prod.snd shared,
    fun groupId => (machine groupId).1⟩

/-! Two groups created in either order, and a file for one of them.  A request finds one number
wherever nothing was assigned. -/

def loggedInAnn : Tracker :=
  serve .oldestFirst .alone .empty [ascii "17 create_user ann pw", ascii "17 login ann pw"]

def createG (found : UInt64) : GroupArrival .oldestFirst where
  transaction :=
    { origin := 7
      request := .group .create
      data := ascii "7 create_group g"
      groupId := ascii "g"
      names := by decide }
  residue _ := found

def createH (found : UInt64) : GroupArrival .oldestFirst where
  transaction :=
    { origin := 7
      request := .group .create
      data := ascii "7 create_group h"
      groupId := ascii "h"
      names := by decide }
  residue _ := found

/-- An upload to the first group, with the given text behind the endpoint. -/
def uploadToG (text : Bytes) (names : namedGroup .oldestFirst
      { origin := 7, request := .file .upload, data := ascii "7 upload_file g 1:1 " ++ text } =
    some (ascii "g")) (found : UInt64) : GroupArrival .oldestFirst where
  transaction :=
    { origin := 7
      request := .file .upload
      data := ascii "7 upload_file g 1:1 " ++ text
      groupId := ascii "g"
      names }
  residue _ := found

def uploadSized : UInt64 → GroupArrival .oldestFirst :=
  uploadToG (ascii "File: a\tSize: 1 bytes\tPieces: k \n") (by decide +kernel)

theorem groups_independent_created :
    (∀ groupId,
      ((groupMachine .oldestFirst).run loggedInAnn [createG 0, createH 0, uploadSized 0]).group?
          groupId =
        ((groupMachine .oldestFirst).run loggedInAnn
          [createH 1, createG 2, uploadSized 3]).group? groupId) ∧
      ((groupMachine .oldestFirst).run loggedInAnn [createG 0, createH 0, uploadSized 0]).userDB =
        ((groupMachine .oldestFirst).run loggedInAnn
          [createH 1, createG 2, uploadSized 3]).userDB ∧
      ((groupMachine .oldestFirst).run loggedInAnn
          [createG 0, createH 0, uploadSized 0]).loggedInUsers =
        ((groupMachine .oldestFirst).run loggedInAnn
          [createH 1, createG 2, uploadSized 3]).loggedInUsers ∧
      ∀ groupId,
        (groupMachine .oldestFirst).answers groupId loggedInAnn
            [createG 0, createH 0, uploadSized 0] =
          (groupMachine .oldestFirst).answers groupId loggedInAnn
            [createH 1, createG 2, uploadSized 3] := by
  apply groups_independent
  · intro groupId
    have distinct : ascii "g" ≠ ascii "h" := by decide
    by_cases first : ascii "g" = groupId
    · subst first
      simp [createG, createH, uploadSized, uploadToG, Ne.symm distinct]
    · by_cases second : ascii "h" = groupId
      · simp [createG, createH, uploadSized, uploadToG, first, second]
      · simp [createG, createH, uploadSized, uploadToG, first, second]
  · decide +kernel

/-- An upload whose text ends behind its first word. -/
def uploadUnsized : UInt64 → GroupArrival .oldestFirst :=
  uploadToG (ascii "x") (by decide +kernel)

/-- One request, handled in two processes, stores two sizes. -/
theorem groups_remember_residue :
    (∀ groupId,
      (([createG 0, uploadUnsized 0].filter fun arrival =>
          arrival.transaction.groupId = groupId).map GroupArrival.transaction) =
        ([createG 0, uploadUnsized 1].filter fun arrival =>
          arrival.transaction.groupId = groupId).map GroupArrival.transaction) ∧
      ((groupMachine .oldestFirst).run loggedInAnn [createG 0, uploadUnsized 0]).group?
          (ascii "g") ≠
        ((groupMachine .oldestFirst).run loggedInAnn [createG 0, uploadUnsized 1]).group?
          (ascii "g") := by
  constructor
  · intro groupId
    by_cases named : ascii "g" = groupId
    · simp [createG, uploadUnsized, uploadToG, named]
    · simp [createG, uploadUnsized, uploadToG, named]
  · decide +kernel

end P2PFileShare
