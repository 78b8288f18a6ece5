import P2PFileShare.Tracker.Residue
import P2PFileShare.Tracker.Runs

/-!
# The files of a group stay within the group

What of a tracker can be seen without a look at the files of one group: everything but
these files and the log.  All requests but one keep to that for an origin that is not a
member.  They change what can be seen in a way that does not depend on what is hidden, and
they are answered alike.  The one exception is `sync`, which hands out the log.
-/

namespace P2PFileShare

open Container Text

def Group.withoutFiles (group : Group) : Group :=
  { group with files := [] }

/-- A group as it is seen without a look at the files of the secret one. -/
def Group.seenWithout (secret groupId : Bytes) (group : Group) : Group :=
  if groupId = secret then group.withoutFiles else group

def GroupDB.outside (secret : Bytes) (db : GroupDB) : GroupDB :=
  { groups := db.groups.adjust secret Group.withoutFiles }

/-- A tracker without its log and the files of a group. -/
def Tracker.outside (secret : Bytes) (tracker : Tracker) : Tracker :=
  { tracker with
    groupDB := tracker.groupDB.outside secret
    successfulTransactions := [] }

/-- A message uploads a file to a group. -/
def UploadsTo (platform : Platform) (groupId message : Bytes) : Prop :=
  ∃ transaction endpoint fileInfo, parseRequest platform (message.drop 1) = some transaction ∧
    command platform transaction = .group groupId (.upload endpoint fileInfo)

/-! ## What is seen of a change -/

section Changes

variable {platform : Platform} {secret groupId : Bytes} {tracker : Tracker} {group : Group}

theorem Tracker.session?_outside (secret : Bytes) (tracker : Tracker) (origin : EndpointID) :
    (tracker.outside secret).session? origin = tracker.session? origin :=
  rfl

theorem Tracker.group?_outside (secret groupId : Bytes) (tracker : Tracker) :
    (tracker.outside secret).group? groupId =
      (tracker.group? groupId).map (Group.seenWithout secret groupId) := by
  simp only [Tracker.group?, Tracker.outside, GroupDB.getGroup, GroupDB.outside,
    UnorderedMap.find?_adjust, Function.update_apply]
  split
  · next same =>
      subst same
      congr 1
      funext group
      rw [Group.seenWithout, if_pos rfl]
  · next distinct =>
      cases tracker.groupDB.groups.find? groupId with
      | none => rfl
      | some group => rw [Option.map_some, Group.seenWithout, if_neg distinct]

theorem Tracker.outside_updateGroup (secret groupId : Bytes) (tracker : Tracker) (group : Group) :
    (tracker.updateGroup groupId group).outside secret =
      (tracker.outside secret).updateGroup groupId (group.seenWithout secret groupId) := by
  have groups_eq : (tracker.groupDB.groups.adjust groupId fun _ => group).adjust secret
        Group.withoutFiles =
      (tracker.groupDB.groups.adjust secret Group.withoutFiles).adjust groupId
        fun _ => group.seenWithout secret groupId := by
    apply UnorderedMap.ext
    · rfl
    · funext other
      simp only [UnorderedMap.find?_adjust, Function.update_apply, Group.seenWithout]
      by_cases here : other = groupId
      · subst here
        by_cases hidden : other = secret
        · subst hidden
          cases tracker.groupDB.groups.find? other with
          | none => simp
          | some group => simp
        · simp [hidden]
      · by_cases hidden : other = secret
        · subst hidden
          simp [here]
        · simp [here, hidden]
  simp only [Tracker.updateGroup, Tracker.outside, GroupDB.update, GroupDB.outside, groups_eq]

theorem GroupDB.createGroup_outside (secret groupId : Bytes) (db : GroupDB) (owner : User) :
    (db.outside secret).createGroup groupId owner =
      ((db.createGroup groupId owner).1, (db.createGroup groupId owner).2.outside secret) := by
  have present : ((db.outside secret).groups.find? groupId).isSome =
      (db.groups.find? groupId).isSome := by
    simp only [GroupDB.outside, UnorderedMap.find?_adjust, Function.update_apply]
    split
    · next same =>
        subst same
        exact Option.isSome_map
    · rfl
  have groups_eq : (db.groups.adjust secret Group.withoutFiles).insert groupId
        { groupId, owner } =
      (db.groups.insert groupId { groupId, owner }).adjust secret Group.withoutFiles := by
    apply UnorderedMap.ext
    · rfl
    · funext other
      simp only [UnorderedMap.find?_adjust, UnorderedMap.find?_insert, Function.update_apply]
      by_cases here : other = groupId
      · subst here
        by_cases hidden : other = secret
        · subst hidden
          simp [Group.withoutFiles]
        · simp [hidden]
      · by_cases hidden : other = secret
        · subst hidden
          simp [here]
        · simp [here, hidden]
  simp only [createGroup, present]
  split
  · rfl
  · exact congrArg (fun groups => (true, ({ groups } : GroupDB))) groups_eq

theorem Group.hasMember_seenWithout (secret groupId : Bytes) (group : Group) (user : User) :
    (group.seenWithout secret groupId).hasMember user = group.hasMember user := by
  rw [seenWithout]
  split <;> rfl

theorem Group.removeUser_seenWithout (secret groupId : Bytes) (group : Group) (user : User) :
    (group.seenWithout secret groupId).removeUser user =
      ((group.removeUser user).1, (group.removeUser user).2.seenWithout secret groupId) := by
  simp only [seenWithout]
  split <;> rfl

/-- What happens alike to a group with and without its files. -/
theorem Group.seenWithout_comm (secret groupId : Bytes) (change : Group → Group)
    (comm : ∀ group, change group.withoutFiles = (change group).withoutFiles) (group : Group) :
    change (group.seenWithout secret groupId) = (change group).seenWithout secret groupId := by
  simp only [seenWithout]
  split
  · exact comm group
  · rfl

theorem Group.addJoinRequest_withoutFiles (user : User) (group : Group) :
    (group.withoutFiles.addJoinRequest user).2 = (group.addJoinRequest user).2.withoutFiles := by
  have waits_iff : user ∈ group.withoutFiles.joinRequests ↔ user ∈ group.joinRequests := Iff.rfl
  by_cases waits : user ∈ group.joinRequests
  · rw [addJoinRequest, addJoinRequest, if_pos waits, if_pos (waits_iff.mpr waits)]
  · rw [addJoinRequest, addJoinRequest, if_neg waits, if_neg (mt waits_iff.mp waits)]
    rfl

theorem Group.addUser_withoutFiles (user : User) (group : Group) :
    (group.withoutFiles.addUser user).2 = (group.addUser user).2.withoutFiles := by
  have member_iff : user ∈ group.withoutFiles.users ↔ user ∈ group.users := Iff.rfl
  by_cases member : user ∈ group.users
  · rw [addUser, addUser, if_pos member, if_pos (member_iff.mpr member)]
  · rw [addUser, addUser, if_neg member, if_neg (mt member_iff.mp member)]
    rfl

theorem Group.removeJoinRequest_withoutFiles (user : User) (group : Group) :
    (group.withoutFiles.removeJoinRequest user).2 =
      (group.removeJoinRequest user).2.withoutFiles := by
  have waits_iff : user ∈ group.withoutFiles.joinRequests ↔ user ∈ group.joinRequests := Iff.rfl
  by_cases waits : user ∈ group.joinRequests
  · rw [removeJoinRequest, removeJoinRequest, if_pos waits, if_pos (waits_iff.mpr waits)]
    rfl
  · rw [removeJoinRequest, removeJoinRequest, if_neg waits, if_neg (mt waits_iff.mp waits)]

theorem Group.accept_withoutFiles (user : User) (group : Group) :
    ((group.withoutFiles.addUser user).2.removeJoinRequest user).2 =
      ((group.addUser user).2.removeJoinRequest user).2.withoutFiles := by
  rw [addUser_withoutFiles, removeJoinRequest_withoutFiles]

/-- A change of the files of the secret group is not seen. -/
theorem Tracker.outside_updateFiles (found : tracker.group? secret = some group)
    (files : List File) :
    (tracker.updateGroup secret { group with files }).outside secret = tracker.outside secret := by
  have groups_eq : (tracker.groupDB.groups.adjust secret fun _ => { group with files }).adjust
        secret Group.withoutFiles =
      tracker.groupDB.groups.adjust secret Group.withoutFiles := by
    apply UnorderedMap.ext
    · rfl
    · have found : tracker.groupDB.groups.find? secret = some group := found
      simp [found, Group.withoutFiles]
  simp only [Tracker.updateGroup, Tracker.outside, GroupDB.update, GroupDB.outside, groups_eq]

end Changes

/-! ## Requests that keep to what is seen -/

section Handlers

variable (platform : Platform) (secret : Bytes) (tracker : Tracker) (origin : EndpointID)

theorem processUserRequest_outside (request : UserRequest) (stream : Stream) :
    processUserRequest platform (tracker.outside secret) origin request stream =
      ((processUserRequest platform tracker origin request stream).1,
        (processUserRequest platform tracker origin request stream).2.outside secret) := by
  have userDB : (tracker.outside secret).userDB = tracker.userDB := rfl
  cases request with
  | create =>
      simp only [processUserRequest, userDB]
      split
      · rfl
      · cases tracker.userDB.createUser stream.extractWord.1
            stream.extractWord.2.extractWord.1 with
        | mk created db => cases created <;> rfl
  | delete =>
      simp only [processUserRequest, userDB]
      cases tracker.userDB.deleteUser stream.extractWord.1 with
      | mk deleted db => cases deleted <;> rfl
  | list => rfl
  | login =>
      simp only [processUserRequest, userDB, tracker.session?_outside secret]
      split
      · rfl
      · cases tracker.session? origin with
        | some user => rfl
        | none =>
            cases tracker.userDB.getUser stream.extractWord.1 with
            | none => rfl
            | some user =>
                simp only
                split <;> rfl
  | logout =>
      have loggedIn : (tracker.outside secret).isLoggedIn origin = tracker.isLoggedIn origin := rfl
      simp only [processUserRequest, loggedIn]
      split <;> rfl

theorem processGroupRequest_outside (request : GroupRequest) (stream : Stream) :
    processGroupRequest platform (tracker.outside secret) origin request stream =
      ((processGroupRequest platform tracker origin request stream).1,
        (processGroupRequest platform tracker origin request stream).2.outside secret) := by
  by_cases list : request = .list
  · subst list
    rfl
  have groupDB : (tracker.outside secret).groupDB = tracker.groupDB.outside secret := rfl
  simp only [processGroupRequest, if_neg list, tracker.session?_outside secret,
    tracker.group?_outside secret, groupDB, GroupDB.createGroup_outside]
  cases tracker.session? origin with
  | none => rfl
  | some user =>
      cases request with
      | list => contradiction
      | create =>
          simp only
          cases tracker.groupDB.createGroup stream.extractWord.1 user with
          | mk created db => cases created <;> rfl
      | join =>
          simp only
          cases tracker.group? stream.extractWord.1 with
          | none => rfl
          | some group =>
              simp only [Option.map_some, Group.hasMember_seenWithout]
              split
              · rfl
              · rw [tracker.outside_updateGroup secret]
                rw [Group.seenWithout_comm secret _ (fun group => (group.addJoinRequest user).2)
                  (Group.addJoinRequest_withoutFiles user)]
      | leave =>
          simp only
          cases tracker.group? stream.extractWord.1 with
          | none => rfl
          | some group =>
              simp only [Option.map_some, Group.removeUser_seenWithout]
              cases group.removeUser user with
              | mk left group =>
                  cases left with
                  | false => rfl
                  | true => simp only [tracker.outside_updateGroup secret]
      | listJoinRequests =>
          simp only
          cases tracker.group? stream.extractWord.1 with
          | none => rfl
          | some group =>
              simp only [Option.map_some, Group.seenWithout]
              split <;> rfl
      | acceptJoinRequest =>
          simp only
          cases tracker.group? stream.extractWord.1 with
          | none => rfl
          | some group =>
              have owner : (group.seenWithout secret stream.extractWord.1).owner = group.owner := by
                rw [Group.seenWithout]
                split <;> rfl
              have waiting : (group.seenWithout secret stream.extractWord.1).joinRequests =
                  group.joinRequests := by
                rw [Group.seenWithout]
                split <;> rfl
              simp only [Option.map_some, owner, waiting]
              split
              · rfl
              · split
                · next joiner _ =>
                    rw [tracker.outside_updateGroup secret]
                    rw [Group.seenWithout_comm secret _
                      (fun group => ((group.addUser joiner).2.removeJoinRequest joiner).2)
                      (Group.accept_withoutFiles joiner)]
                · rfl

variable {secret tracker}

theorem uploadFile_outside {groupId : Bytes} (distinct : groupId ≠ secret) (group : Group)
    (endpoint : Endpoint) (fileInfo : FileInfo) :
    uploadFile platform (tracker.outside secret) groupId group endpoint fileInfo =
      ((uploadFile platform tracker groupId group endpoint fileInfo).1,
        (uploadFile platform tracker groupId group endpoint fileInfo).2.outside secret) := by
  simp only [uploadFile]
  split
  · simp only [tracker.outside_updateGroup secret, Group.seenWithout, if_neg distinct]
  · simp only [tracker.outside_updateGroup secret, Group.seenWithout, if_neg distinct]

/-- A file request on another group, or of no member, sees nothing of the files. -/
theorem processFileRequest_outside (request : FileRequest) (stream : Stream)
    (outsider : stream.extractWord.1 = secret → ¬tracker.MemberAt secret origin) :
    processFileRequest platform (tracker.outside secret) origin request stream =
      ((processFileRequest platform tracker origin request stream).1,
        (processFileRequest platform tracker origin request stream).2.outside secret) := by
  simp only [processFileRequest, tracker.session?_outside secret, tracker.group?_outside secret]
  cases session : tracker.session? origin with
  | none => rfl
  | some user =>
      simp only
      cases found : tracker.group? stream.extractWord.1 with
      | none => rfl
      | some group =>
          simp only [Option.map_some, Group.hasMember_seenWithout]
          by_cases member : group.hasMember user = true
          · have distinct : stream.extractWord.1 ≠ secret := by
              intro same
              rw [same] at found
              exact outsider same ⟨user, group, session, found, member⟩
            simp only [member, Bool.not_true, Bool.false_eq_true, if_false, Group.seenWithout,
              if_neg distinct]
            cases request with
            | list => rfl
            | download =>
                simp only
                split <;> rfl
            | upload =>
                simp only
                cases decodeUpload platform stream.extractWord.2 with
                | error error => cases error <;> rfl
                | ok arguments => simp only [uploadFile_outside platform distinct]
          · simp only [member, Bool.not_false, if_true]

/-- A file request on the secret group changes nothing that is seen. -/
theorem processFileRequest_secret (request : FileRequest) (stream : Stream)
    (onSecret : stream.extractWord.1 = secret) :
    (processFileRequest platform tracker origin request stream).2.outside secret =
      tracker.outside secret := by
  subst onSecret
  simp only [processFileRequest]
  cases tracker.session? origin with
  | none => rfl
  | some user =>
      simp only
      cases found : tracker.group? stream.extractWord.1 with
      | none => rfl
      | some group =>
          simp only
          split
          · rfl
          cases request with
          | list => rfl
          | download =>
              simp only
              split <;> rfl
          | upload =>
              simp only
              cases decodeUpload platform stream.extractWord.2 with
              | error error => cases error <;> rfl
              | ok arguments =>
                  simp only [uploadFile]
                  split
                  · exact Tracker.outside_updateFiles found _
                  · exact Tracker.outside_updateFiles found _

/-! ## One request -/

/-- A request that is on no file of the secret group, or comes from no member of it, does
the same to what is seen, and is answered the same. -/
theorem handle_outside (transaction : Transaction)
    (outsider : (requestHead platform transaction.data).2.2.extractWord.1 = secret →
      (∃ request, transaction.request = .file request) →
        ¬tracker.MemberAt secret transaction.origin) :
    handle platform (tracker.outside secret) transaction =
      ((handle platform tracker transaction).1,
        (handle platform tracker transaction).2.outside secret) := by
  rcases transaction with ⟨origin, request, data, outcome⟩
  cases request with
  | user request =>
      simp only [handle, processUserRequest_outside platform secret tracker origin request]
  | group request =>
      simp only [handle, processGroupRequest_outside platform secret tracker origin request]
  | file request =>
      exact processFileRequest_outside platform origin request _
        fun onSecret => outsider onSecret ⟨request, rfl⟩
  | tracker request => rfl

/-- A file request on the secret group changes nothing that is seen. -/
theorem handle_secret {transaction : Transaction}
    (onSecret : (requestHead platform transaction.data).2.2.extractWord.1 = secret)
    {request : FileRequest} (isFile : transaction.request = .file request) :
    (handle platform tracker transaction).2.outside secret = tracker.outside secret := by
  rcases transaction with ⟨origin, _, data, outcome⟩
  subst isFile
  exact processFileRequest_secret platform origin request _ onSecret

/-- What is seen after a request depends on what was seen before. -/
theorem handle_seen {other : Tracker} (alike : tracker.outside secret = other.outside secret)
    (transaction : Transaction) :
    (handle platform tracker transaction).2.outside secret =
      (handle platform other transaction).2.outside secret := by
  by_cases onSecret : (requestHead platform transaction.data).2.2.extractWord.1 = secret ∧
      ∃ request, transaction.request = .file request
  · obtain ⟨onSecret, request, isFile⟩ := onSecret
    rw [handle_secret platform onSecret isFile, alike, handle_secret platform onSecret isFile]
  · have commutes (tracker : Tracker) :
        handle platform (tracker.outside secret) transaction =
          ((handle platform tracker transaction).1,
            (handle platform tracker transaction).2.outside secret) :=
      handle_outside platform transaction fun named isFile => absurd ⟨named, isFile⟩ onSecret
    have same := congrArg (handle platform · transaction) alike
    simp only [commutes] at same
    exact congrArg Prod.snd same

end Handlers

/-! ## Two runs -/

/-- A message, how the operations of the sockets go, and what the handling of the message
finds in unassigned variables. -/
structure Incoming where
  network : Network
  message : Bytes
  residue : Bytes → UInt64

/-- A tracker handles messages, each with the residue that it finds. -/
def serveIncoming (platform : Platform) (config : Config) : Tracker → List Incoming → Tracker
  | tracker, [] => tracker
  | tracker, arrival :: arrivals =>
      serveIncoming platform config
        (processData (platform.reading arrival.residue) config tracker arrival.network
          arrival.message).tracker arrivals

/-- Two messages are the same, or both upload a file to a group. -/
def SameButUploads (platform : Platform) (groupId : Bytes) (arrival other : Incoming) : Prop :=
  arrival.message = other.message ∨
    UploadsTo platform groupId arrival.message ∧ UploadsTo platform groupId other.message

/-- A message stores no residue in another group. -/
def Tracker.SizedOutside (platform : Platform) (secret : Bytes) (tracker : Tracker)
    (message : Bytes) : Prop :=
  ∀ transaction ∈ parseRequest platform (message.drop 1),
    (requestHead platform transaction.data).2.2.extractWord.1 ≠ secret →
      ¬tracker.StoresResidue platform transaction

/-- No message of a run stores the residue in another group. -/
def SizedRun (platform : Platform) (config : Config) (secret : Bytes) :
    Tracker → List Incoming → Prop
  | _, [] => True
  | tracker, arrival :: arrivals =>
      tracker.SizedOutside platform secret arrival.message ∧
        SizedRun platform config secret
          (processData (platform.reading arrival.residue) config tracker arrival.network
            arrival.message).tracker arrivals

instance (platform : Platform) (secret : Bytes) (tracker : Tracker) (message : Bytes) :
    Decidable (tracker.SizedOutside platform secret message) :=
  inferInstanceAs (Decidable (∀ transaction ∈ parseRequest platform (message.drop 1), _ → _))

instance decidableSizedRun (platform : Platform) (config : Config) (secret : Bytes) :
    (tracker : Tracker) → (arrivals : List Incoming) →
      Decidable (SizedRun platform config secret tracker arrivals)
  | _, [] => isTrue trivial
  | tracker, arrival :: arrivals =>
      have := decidableSizedRun platform config secret
        (processData (platform.reading arrival.residue) config tracker arrival.network
          arrival.message).tracker arrivals
      inferInstanceAs (Decidable (_ ∧ _))

section Runs

variable {platform : Platform} {config : Config} {secret : Bytes} {tracker other : Tracker}

theorem memberAt_outside (tracker : Tracker) (origin : EndpointID) :
    (tracker.outside secret).MemberAt secret origin ↔ tracker.MemberAt secret origin := by
  simp only [Tracker.MemberAt, tracker.session?_outside secret, tracker.group?_outside secret,
    Option.map_eq_some_iff]
  constructor
  · rintro ⟨user, _, session, ⟨group, found, rfl⟩, member⟩
    rw [Group.hasMember_seenWithout] at member
    exact ⟨user, group, session, found, member⟩
  · rintro ⟨user, group, session, found, member⟩
    refine ⟨user, _, session, ⟨group, found, rfl⟩, ?_⟩
    rw [Group.hasMember_seenWithout]
    exact member

/-- Whether a request stores the residue in another group can be seen. -/
theorem storesResidue_outside (tracker : Tracker) {transaction : Transaction}
    (elsewhere : (requestHead platform transaction.data).2.2.extractWord.1 ≠ secret) :
    (tracker.outside secret).StoresResidue platform transaction ↔
      tracker.StoresResidue platform transaction := by
  have group : (tracker.outside secret).group?
      (requestHead platform transaction.data).2.2.extractWord.1 =
        tracker.group? (requestHead platform transaction.data).2.2.extractWord.1 := by
    rw [tracker.group?_outside secret]
    cases tracker.group? (requestHead platform transaction.data).2.2.extractWord.1 with
    | none => rfl
    | some group => rw [Option.map_some, Group.seenWithout, if_neg elsewhere]
  simp only [Tracker.StoresResidue, Tracker.UploadsUnsized, tracker.session?_outside secret, group]

/-- What is seen after a request depends on what was seen before, and on the residue only if
the request stores it in another group. -/
theorem handle_reading_seen (residue left : Bytes → UInt64) (transaction : Transaction)
    (alike : tracker.outside secret = other.outside secret)
    (sized : (requestHead platform transaction.data).2.2.extractWord.1 ≠ secret →
      ¬tracker.StoresResidue platform transaction) :
    (handle (platform.reading residue) tracker transaction).2.outside secret =
      (handle (platform.reading left) other transaction).2.outside secret := by
  by_cases onSecret : (requestHead platform transaction.data).2.2.extractWord.1 = secret ∧
      ∃ request, transaction.request = .file request
  · obtain ⟨onSecret, request, isFile⟩ := onSecret
    have named (residue : Bytes → UInt64) :
        (requestHead (platform.reading residue) transaction.data).2.2.extractWord.1 = secret := by
      rw [requestHead_snd (platform.reading residue) platform, onSecret]
    rw [handle_secret _ (named residue) isFile, alike,
      handle_secret _ (named left) isFile]
  · have stores : ¬tracker.StoresResidue platform transaction := by
      intro stores
      refine sized (fun named => onSecret ⟨named, _, stores.1⟩) stores
    have storesOther : ¬other.StoresResidue platform transaction := by
      intro storesOther
      have elsewhere : (requestHead platform transaction.data).2.2.extractWord.1 ≠ secret :=
        fun named => onSecret ⟨named, _, storesOther.1⟩
      rw [← storesResidue_outside other elsewhere, ← alike,
        storesResidue_outside tracker elsewhere] at storesOther
      exact stores storesOther
    rw [(handle_reading platform residue tracker transaction).2 stores,
      (handle_reading platform left other transaction).2 storesOther]
    exact handle_seen platform alike transaction

/-- What is seen after a message is what its handler leaves. -/
theorem processData_outside (config : Config) (tracker : Tracker) (network : Network)
    (message : Bytes) :
    (processData platform config tracker network message).tracker.outside secret =
      match parseRequest platform (message.drop 1) with
      | none => tracker.outside secret
      | some transaction => (handle platform tracker transaction).2.outside secret := by
  cases message with
  | nil =>
      simp only [List.drop_nil, parseRequest_nil]
      rfl
  | cons flag data =>
      obtain ⟨log, after, _⟩ :
          ∃ log, (processData platform config tracker network (flag :: data)).tracker =
              { handled platform tracker data with successfulTransactions := log } ∧ _ :=
        processData_after config network flag
      rw [after, List.drop_one, List.tail_cons, handled]
      cases parseRequest platform data with
      | none => rfl
      | some transaction => rfl

/-- An upload to the group is not seen. -/
theorem processData_upload (config : Config) (tracker : Tracker) (arrival : Incoming)
    (uploads : UploadsTo platform secret arrival.message) :
    (processData (platform.reading arrival.residue) config tracker arrival.network
        arrival.message).tracker.outside secret =
      tracker.outside secret := by
  rcases uploads with ⟨transaction, endpoint, fileInfo, parsing, upload⟩
  obtain ⟨isUpload, onSecret, _⟩ := request_of_upload upload
  rw [processData_outside, parseRequest_congr (platform.reading arrival.residue) platform, parsing]
  refine handle_secret _ ?_ isUpload
  rw [requestHead_snd (platform.reading arrival.residue) platform, onSecret]

/-- Messages that differ in uploads to the group leave what is seen alike. -/
theorem serveIncoming_seen (config : Config) {first second : List Incoming}
    (differ : List.Forall₂ (SameButUploads platform secret) first second)
    (sized : SizedRun platform config secret tracker first)
    (alike : tracker.outside secret = other.outside secret) :
    (serveIncoming platform config tracker first).outside secret =
      (serveIncoming platform config other second).outside secret := by
  induction differ generalizing tracker other with
  | nil => exact alike
  | @cons one another first second same rest ih =>
      apply ih sized.2
      rcases same with same | ⟨uploads, others⟩
      · rw [processData_outside, processData_outside, ← same,
          parseRequest_congr (platform.reading one.residue) platform,
          parseRequest_congr (platform.reading another.residue) platform]
        cases parsing : parseRequest platform (one.message.drop 1) with
        | none => exact alike
        | some transaction =>
            exact handle_reading_seen one.residue another.residue transaction alike
              (sized.1 transaction parsing)
      · rw [processData_upload config tracker one uploads,
          processData_upload config other another others]
        exact alike

/-- Equal answers are sent alike. -/
theorem processData_sent_congr {platform another : Platform} (config : Config) (network : Network)
    (message : Bytes)
    (answers : ∀ transaction ∈ parseRequest platform (message.drop 1),
      transaction.request ≠ .tracker .sync ∧
        (handle platform tracker transaction).1 = (handle another other transaction).1) :
    (processData platform config tracker network message).sent =
      (processData another config other network message).sent := by
  cases message with
  | nil => rfl
  | cons flag data =>
      rw [List.drop_one, List.tail_cons] at answers
      simp only [processData, parseRequest_congr another platform]
      cases parsing : parseRequest platform data with
      | none =>
          simp only
          split <;> rfl
      | some transaction =>
          obtain ⟨notSync, same⟩ := answers transaction parsing
          simp only [processRequest_answered _ _ network transaction _ notSync]
          generalize handle platform tracker transaction = here at same
          generalize handle another other transaction = there at same
          rcases here with ⟨answer, after⟩
          rcases there with ⟨_, afterThere⟩
          obtain rfl : answer = _ := same
          cases answer with
          | error exception => rfl
          | ok result =>
              cases decide (flag = 49) with
              | false => cases success : result.success <;> simp [success]
              | true =>
                  cases network 0 with
                  | some error => rfl
                  | none => cases success : result.success <;> simp [success]

/-- What an outsider is sent does not depend on the files that were uploaded to a group,
unless it asks for the log.  The two runs find their own residues, and the first one stores
none in another group. -/
theorem files_confined (platform : Platform) (config : Config) (groupId : Bytes)
    (first second : List Incoming) (last another : Incoming)
    (differ : List.Forall₂ (SameButUploads platform groupId) first second)
    (sized : SizedRun platform config groupId .empty first)
    (outsider : ∀ transaction ∈ parseRequest platform (last.message.drop 1),
      ¬(serveIncoming platform config .empty first).MemberAt groupId transaction.origin)
    (notSync : ∀ transaction ∈ parseRequest platform (last.message.drop 1),
      transaction.request ≠ .tracker .sync)
    (network : last.network = another.network) (message : last.message = another.message) :
    (processData (platform.reading last.residue) config
        (serveIncoming platform config .empty first) last.network last.message).sent =
      (processData (platform.reading another.residue) config
        (serveIncoming platform config .empty second) another.network another.message).sent := by
  have alike : (serveIncoming platform config .empty first).outside groupId =
      (serveIncoming platform config .empty second).outside groupId :=
    serveIncoming_seen config differ sized rfl
  rw [← network, ← message]
  apply processData_sent_congr
  intro transaction parsing
  rw [parseRequest_congr (platform.reading last.residue) platform] at parsing
  refine ⟨notSync transaction parsing, ?_⟩
  have outside := outsider transaction parsing
  have outsideOther : ¬(serveIncoming platform config .empty second).MemberAt groupId
      transaction.origin := by
    rwa [← memberAt_outside, ← alike, memberAt_outside]
  have same := congrArg (handle platform · transaction) alike
  simp only [handle_outside platform transaction fun _ _ => outside,
    handle_outside platform transaction fun _ _ => outsideOther] at same
  have answers := congrArg Prod.fst same
  rw [(handle_reading platform last.residue _ transaction).1,
    (handle_reading platform another.residue _ transaction).1]
  exact answers

/-- Messages that arrive without failures, and find zero wherever nothing was assigned. -/
def arriving (messages : List Bytes) : List Incoming :=
  messages.map fun message => ⟨.reliable, message, fun _ => 0⟩

/-- The member of a group uploads a file to it. -/
def uploadedToG (upload : Bytes) : List Incoming :=
  arriving (uploadingMember ++ [49 :: upload])

def uploadOfB : Bytes :=
  ascii "17 upload_file g 1:1 File: b\tSize: 2 bytes\tPieces: k \n"

theorem uploadedToG_differ :
    List.Forall₂ (SameButUploads .oldestFirst (ascii "g")) (uploadedToG uploadOfA)
      (uploadedToG uploadOfB) := by
  have before : List.Forall₂ (SameButUploads .oldestFirst (ascii "g"))
      (arriving uploadingMember) (arriving uploadingMember) :=
    List.forall₂_same.mpr fun message _ => Or.inl rfl
  have uploadsA : UploadsTo .oldestFirst (ascii "g") (49 :: uploadOfA) :=
    ⟨⟨17, .file .upload, uploadOfA, {}⟩, ⟨ascii "1", 1⟩, fileA, by decide +kernel,
      by decide +kernel⟩
  have uploadsB : UploadsTo .oldestFirst (ascii "g") (49 :: uploadOfB) :=
    ⟨⟨17, .file .upload, uploadOfB, {}⟩, ⟨ascii "1", 1⟩, ⟨ascii "b", 2, [ascii "k"], ascii "k"⟩,
      by decide +kernel, by decide +kernel⟩
  rw [uploadedToG, uploadedToG, arriving, arriving, List.map_append, List.map_append]
  exact List.rel_append before (.cons (Or.inr ⟨uploadsA, uploadsB⟩) .nil)

theorem files_confined_listing :
    (processData (Platform.oldestFirst.reading fun _ => 0) .alone
        (serveIncoming .oldestFirst .alone .empty (uploadedToG uploadOfA)) Network.reliable
        (ascii "19 list_files g")).sent =
      (processData (Platform.oldestFirst.reading fun _ => 1) .alone
        (serveIncoming .oldestFirst .alone .empty (uploadedToG uploadOfB)) Network.reliable
        (ascii "19 list_files g")).sent := by
  have parsing : parseRequest .oldestFirst ((ascii "19 list_files g").drop 1) =
      some ⟨9, .file .list, ascii "9 list_files g", {}⟩ := by
    decide +kernel
  have loggedOut : (serveIncoming .oldestFirst .alone .empty
      (uploadedToG uploadOfA)).session? 9 = none := by
    decide +kernel
  apply files_confined .oldestFirst .alone (ascii "g") (uploadedToG uploadOfA)
    (uploadedToG uploadOfB) ⟨.reliable, ascii "19 list_files g", fun _ => 0⟩
    ⟨.reliable, ascii "19 list_files g", fun _ => 1⟩ uploadedToG_differ
  · decide +kernel
  · rintro transaction isParsed ⟨user, group, session, _⟩
    rw [parsing] at isParsed
    obtain rfl := Option.some.inj isParsed
    rw [loggedOut] at session
    cases session
  · intro transaction isParsed
    rw [parsing] at isParsed
    obtain rfl := Option.some.inj isParsed
    decide
  · rfl
  · rfl

/-- Origin 9 is not logged in, and asks for the log. -/
theorem files_disclosed :
    List.Forall₂ (SameButUploads .oldestFirst (ascii "g")) (uploadedToG uploadOfA)
        (uploadedToG uploadOfB) ∧
      (serveIncoming .oldestFirst .alone .empty (uploadedToG uploadOfA)).session? 9 = none ∧
      (serveIncoming .oldestFirst .alone .empty (uploadedToG uploadOfB)).session? 9 = none ∧
      (processData .oldestFirst .alone
          (serveIncoming .oldestFirst .alone .empty (uploadedToG uploadOfA)) Network.reliable
          (ascii "19 sync")).sent ≠
        (processData .oldestFirst .alone
          (serveIncoming .oldestFirst .alone .empty (uploadedToG uploadOfB)) Network.reliable
          (ascii "19 sync")).sent :=
  ⟨uploadedToG_differ, by decide +kernel, by decide +kernel, by decide +kernel⟩

end Runs

end P2PFileShare
