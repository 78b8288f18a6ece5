import P2PFileShare.Tracker.Listings
import P2PFileShare.Tracker.Replicas

/-!
# One tracker takes over from another

What a tracker says about a request is decided by the summary of its state, up to the order
of lists and the seeders of a file.  So two trackers with the same summary give the same
answers, now and behind whatever both of them handle.
-/

namespace P2PFileShare

open Container Text Transition

/-- What may be said about a request: a fixed text; some names, each on one line, in any order;
some lines in any order; a file with some seeders; or nothing, because the handler throws. -/
inductive Reply
  | text (success : Bool) (message : Bytes)
  | names (named : Bytes → Prop) (nothing : Bytes)
  | lines (entries : Multiset Bytes) (nothing : Bytes)
  | file (groupId : Bytes) (infos : Finset FileInfo)
  | throws (exception : Exception)

/-- The answer of a handler is what may be said. -/
def Reply.Allows (platform : Platform) (answer : Except Exception Result) : Reply → Prop
  | .text success message => answer = .ok { success, message }
  | .names named nothing =>
      ∃ names : List Bytes, names.Nodup ∧ (∀ name, name ∈ names ↔ named name) ∧
        answer = .ok { message := listing names nothing }
  | .lines entries nothing =>
      ∃ names : List Bytes, (names : Multiset Bytes) = entries ∧
        answer = .ok { message := listing names nothing }
  | .file groupId infos =>
      ∃ file : File, file.groupId = groupId ∧ file.fileInfo ∈ infos ∧
        answer = .ok { success := true
                       message := ascii "1 " ++ file.toString platform ++ ascii "\n" }
  | .throws exception => answer = .error exception

namespace Summary

section Replies

variable (summary : Summary) (origin : EndpointID)

/-- What is said about a user request. -/
def userReply (stream : Stream) : UserRequest → Reply
  | .create =>
      let (username, stream) := stream.extractWord
      let (password, _) := stream.extractWord
      if username = [] ∨ password = [] then
        .text false (ascii "Username or password cannot be empty\n")
      else if (summary.accounts username).user.isSome then
        .text false (ascii "User already exists\n")
      else .text true (ascii "User created\n")
  | .delete =>
      if (summary.accounts stream.extractWord.1).user.isSome then
        .text true (ascii "User deleted\n")
      else .text false (ascii "User does not exist\n")
  | .list =>
      .names (fun username => (summary.accounts username).user.isSome = true)
        (ascii "No users found\n")
  | .login =>
      let (username, stream) := stream.extractWord
      let (password, _) := stream.extractWord
      if username = [] ∨ password = [] then
        .text false (ascii "Username or password cannot be empty\n")
      else
        match summary.sessions origin, (summary.accounts username).user with
        | some loggedIn, _ => .text false (loggedIn.username ++ ascii " is already logged in\n")
        | none, none => .text false (ascii "User does not exist\n")
        | none, some user =>
            if user.password = password then .text true (ascii "Login successful\n")
            else .text false (ascii "Login failed\n")
  | .logout =>
      if (summary.sessions origin).isSome then .text true (ascii "Logout successful\n")
      else .text false (ascii "Logout failed\n")

/-- What is said about a group request. -/
def groupReply (stream : Stream) : GroupRequest → Reply
  | .list =>
      .names (fun groupId => (summary.groups groupId).isSome = true) (ascii "No groups found\n")
  | request =>
      let (groupId, stream) := stream.extractWord
      match summary.sessions origin with
      | none => .text false loginRequiredWarning
      | some user =>
          match request, summary.groups groupId with
          | .create, none => .text true (ascii "Group created\n")
          | .create, some _ => .text false (ascii "Group already exists\n")
          | .join, some group =>
              if group.HasMember user then .text false (ascii "Invalid request\n")
              else .text true (ascii "Join request sent\n")
          | .leave, some group =>
              if user ∈ group.members then .text true (ascii "Left group\n")
              else .text false (ascii "Invalid request\n")
          | .join, none | .leave, none => .text false (ascii "Invalid request\n")
          | .listJoinRequests, some group =>
              .lines (group.pending.val.map User.username) (ascii "No pending join_requests\n")
          | .acceptJoinRequest, some group =>
              if group.owner ≠ user then
                .text false (ascii "You are not the owner of the group\n")
              else if ∃ joiner ∈ group.pending, joiner.username = stream.extractWord.1 then
                .text true (ascii "Request accepted\n")
              else .text false (ascii "This user has not sent a request\n")
          | .listJoinRequests, none | .acceptJoinRequest, none =>
              .text false (ascii "Group does not exist\n")
          | .list, _ => .text false (ascii "Not a group request\n")

/-- What is said about a file request. -/
def fileReply (platform : Platform) (stream : Stream) (request : FileRequest) : Reply :=
  match summary.sessions origin with
  | none => .text false loginRequiredWarning
  | some user =>
      let (groupId, stream) := stream.extractWord
      match summary.groups groupId with
      | none => .text false (ascii "Group not found\n")
      | some group =>
          if ¬group.HasMember user then
            .text false (ascii "You are not a member of this group\n")
          else
            match request with
            | .list =>
                .lines (group.files.val.map FileInfo.toString) (ascii "No files found\n")
            | .upload =>
                match decodeUpload platform stream with
                | .ok (_, fileInfo) =>
                    if ∃ info ∈ group.files, info.hash = fileInfo.hash then
                      .text false (ascii "File already exists. Added you as a seeder\n")
                    else .text true (ascii "File uploaded\n")
                | .error .invalidArgument => .text false (ascii "Invalid request\n")
                | .error .outOfRange => .throws (.std .outOfRange)
            | .download =>
                if ∃ info ∈ group.files, info.name = stream.extractWord.1 then
                  .file groupId (group.files.filter fun info => info.name = stream.extractWord.1)
                else .text false (ascii "0 File not found\n")

/-- What is said about a transaction. -/
def reply (platform : Platform) (transaction : Transaction) : Reply :=
  let (_, _, stream) := requestHead platform transaction.data
  match transaction.request with
  | .user request => summary.userReply transaction.origin stream request
  | .group request => summary.groupReply transaction.origin stream request
  | .file request => summary.fileReply transaction.origin platform stream request
  | .tracker _ => .text false (ascii "Not yet processed")

end Replies

end Summary

section Handlers

variable {platform : Platform} {tracker : Tracker} {origin : EndpointID}

theorem processUserRequest_reply (request : UserRequest) (stream : Stream) :
    (tracker.directory.summary.userReply origin stream request).Allows platform
      (.ok (processUserRequest platform tracker origin request stream).1) := by
  have user_eq (username : Bytes) : (tracker.directory.summary.accounts username).user =
      tracker.userDB.users.find? username := rfl
  cases request with
  | create =>
      simp only [Summary.userReply, processUserRequest, user_eq, UserDB.createUser]
      split
      · rfl
      · cases (tracker.userDB.users.find? stream.extractWord.1).isSome <;> rfl
  | delete =>
      simp only [Summary.userReply, processUserRequest, user_eq, UserDB.deleteUser]
      cases (tracker.userDB.users.find? stream.extractWord.1).isSome <;> rfl
  | list =>
      refine ⟨tracker.userDB.getUsernames platform,
        (platform.perm tracker.userDB.users.keys).nodup_iff.mpr (UnorderedSet.nodup_toList _),
        ?_, rfl⟩
      exact fun name => platform.mem_order.trans (tracker.userDB.users.mem_keys_iff name)
  | login =>
      have session_eq : tracker.directory.summary.sessions origin = tracker.session? origin := rfl
      simp only [Summary.userReply, processUserRequest, user_eq, session_eq, UserDB.getUser]
      split
      · rfl
      · cases tracker.session? origin with
        | some loggedIn => rfl
        | none =>
            cases tracker.userDB.users.find? stream.extractWord.1 with
            | none => rfl
            | some user =>
                simp only [User.checkPassword, beq_iff_eq]
                split <;> rfl
  | logout =>
      have loggedIn_eq : (tracker.directory.summary.sessions origin).isSome =
          tracker.isLoggedIn origin := rfl
      simp only [Summary.userReply, processUserRequest, loggedIn_eq]
      cases tracker.isLoggedIn origin <;> rfl

/-- The summary of a group that is there, and of one that is not. -/
theorem summary_groups_some {groupId : Bytes} {group : Group}
    (found : tracker.group? groupId = some group) :
    tracker.directory.summary.groups groupId = some group.view.summary := by
  simp only [Directory.summary, Tracker.directory_groups_eq found, Option.map_some]

theorem summary_groups_none {groupId : Bytes} (missing : tracker.group? groupId = none) :
    tracker.directory.summary.groups groupId = none := by
  simp only [Directory.summary, Tracker.directory_groups_none missing, Option.map_none]

theorem processGroupRequest_reply (request : GroupRequest) (stream : Stream) :
    (tracker.directory.summary.groupReply origin stream request).Allows platform
      (.ok (processGroupRequest platform tracker origin request stream).1) := by
  by_cases isList : request = .list
  · subst request
    refine ⟨tracker.groupDB.getGroups platform,
      (platform.perm tracker.groupDB.groups.keys).nodup_iff.mpr (UnorderedSet.nodup_toList _),
      ?_, rfl⟩
    intro name
    simp only [Directory.summary, Tracker.directory, Option.isSome_map]
    exact platform.mem_order.trans (tracker.groupDB.groups.mem_keys_iff name)
  · have session_eq : tracker.directory.summary.sessions origin = tracker.session? origin := rfl
    simp only [Summary.groupReply, processGroupRequest, if_neg isList, session_eq]
    cases tracker.session? origin with
    | none => cases request <;> first | contradiction | rfl
    | some user =>
        cases found : tracker.group? stream.extractWord.1 with
        | none =>
            have absent : tracker.groupDB.groups.find? stream.extractWord.1 = none := found
            simp only [summary_groups_none found]
            cases request with
            | list => contradiction
            | create => simp only [GroupDB.createGroup, absent]; rfl
            | _ => rfl
        | some group =>
            have present : tracker.groupDB.groups.find? stream.extractWord.1 = some group := found
            simp only [summary_groups_some found]
            cases request with
            | list => contradiction
            | create => simp only [GroupDB.createGroup, present]; rfl
            | join =>
                have member_iff : group.view.summary.HasMember user ↔
                    group.hasMember user = true := (group.hasMember_iff user).symm
                simp only [member_iff]
                split <;> rfl
            | leave =>
                have member_iff : user ∈ group.view.summary.members ↔ user ∈ group.users :=
                  UnorderedSet.mem_toFinset
                simp only [member_iff, Group.removeUser]
                by_cases member : user ∈ group.users
                · simp only [member, decide_true, if_true]
                  rfl
                · simp only [member, decide_false, if_false]
                  rfl
            | listJoinRequests =>
                refine ⟨_, ?_, rfl⟩
                have pending : (platform.order group.joinRequests : Multiset User) =
                    group.view.summary.pending.val := order_val group.joinRequests
                rw [← pending, Multiset.map_coe]
            | acceptJoinRequest =>
                have owner_eq : group.view.summary.owner = group.owner := rfl
                simp only [owner_eq]
                split
                · rfl
                · cases pick : (platform.order group.joinRequests).find? fun joinRequest =>
                      joinRequest.username = stream.extractWord.2.extractWord.1 with
                  | none =>
                      have nobody : ¬∃ joiner ∈ group.view.summary.pending,
                          joiner.username = stream.extractWord.2.extractWord.1 := by
                        rintro ⟨joiner, waits, named⟩
                        have absent := platform.find?_order_eq_none.mp pick joiner
                          (UnorderedSet.mem_toFinset.mp waits)
                        simp [named] at absent
                      rw [if_neg nobody]
                      rfl
                  | some joiner =>
                      have somebody : ∃ joiner ∈ group.view.summary.pending,
                          joiner.username = stream.extractWord.2.extractWord.1 := by
                        obtain ⟨waits, named⟩ := platform.find?_order_eq_some pick
                        exact ⟨joiner, UnorderedSet.mem_toFinset.mpr waits,
                          of_decide_eq_true named⟩
                      rw [if_pos somebody]
                      rfl

/-- The descriptions of the files, as they are iterated. -/
theorem summary_files_val {groupId : Bytes} {group : Group} (valid : group.Valid groupId) :
    group.view.summary.files.val =
      (((platform.objects groupId group.files).map fun file => file.2.fileInfo : List FileInfo) :
        Multiset FileInfo) := by
  have infos := @files_val platform groupId group valid
  have distinct : ((platform.objects groupId group.files).map fun file =>
      file.2.fileInfo).Nodup := by
    have listed := (platform.objects_map_snd_perm groupId group.files).map File.fileInfo
    rw [List.map_map] at listed
    apply listed.nodup_iff.mpr
    apply List.Nodup.of_map (f := FileInfo.hash)
    rw [List.map_map]
    exact valid.files_nodup
  rw [GroupView.summary, Finset.image_val, infos, Multiset.coe_dedup, distinct.dedup]

theorem mem_summary_files {group : Group} {info : FileInfo} :
    info ∈ group.view.summary.files ↔ ∃ file ∈ group.files, file.fileInfo = info := by
  constructor
  · intro member
    obtain ⟨entry, isEntry, rfl⟩ := Finset.mem_image.mp member
    obtain ⟨file, inside, rfl⟩ := List.mem_map.mp (List.mem_toFinset.mp isEntry)
    exact ⟨file, inside, rfl⟩
  · rintro ⟨file, member, rfl⟩
    exact Finset.mem_image_of_mem Prod.fst
      (List.mem_toFinset.mpr (List.mem_map_of_mem (f := File.entry) member))

theorem uploadFile_reply {groupId : Bytes} {group : Group} (valid : group.Valid groupId)
    (endpoint : Endpoint) (fileInfo : FileInfo) :
    (uploadFile platform tracker groupId group endpoint fileInfo).1 =
      if ∃ info ∈ group.view.summary.files, info.hash = fileInfo.hash then
        { message := ascii "File already exists. Added you as a seeder\n" }
      else { success := true, message := ascii "File uploaded\n" } := by
  have search := find_content platform valid endpoint fileInfo
  simp only [uploadFile]
  split
  · next place file seek =>
      rw [seek] at search
      rw [if_pos]
      exact ⟨file.fileInfo, mem_summary_files.mpr ⟨file, List.mem_of_getElem? search.1, rfl⟩,
        search.2⟩
  · next seek =>
      rw [seek, group.hasContent_iff] at search
      rw [if_neg]
      rintro ⟨_, listed, same⟩
      obtain ⟨file, member, rfl⟩ := mem_summary_files.mp listed
      exact search ⟨file, member, same⟩

theorem processFileRequest_reply (valid : tracker.Valid) (request : FileRequest)
    (stream : Stream) :
    (tracker.directory.summary.fileReply origin platform stream request).Allows platform
      (processFileRequest platform tracker origin request stream).1 := by
  have session_eq : tracker.directory.summary.sessions origin = tracker.session? origin := rfl
  simp only [Summary.fileReply, processFileRequest, session_eq]
  cases tracker.session? origin with
  | none => rfl
  | some user =>
      cases found : tracker.group? stream.extractWord.1 with
      | none =>
          simp only [summary_groups_none found]
          rfl
      | some group =>
          have validGroup := valid _ _ found
          have member_iff : group.view.summary.HasMember user ↔ group.hasMember user = true :=
            (group.hasMember_iff user).symm
          simp only [summary_groups_some found, member_iff]
          cases group.hasMember user with
          | false => rfl
          | true =>
              simp only [Bool.not_true, Bool.false_eq_true, if_false, not_true_eq_false]
              cases request with
              | list =>
                  refine ⟨_, ?_, rfl⟩
                  rw [@summary_files_val platform _ _ validGroup, Multiset.map_coe, List.map_map]
                  rfl
              | upload =>
                  simp only
                  cases decodeUpload platform stream.extractWord.2 with
                  | ok arguments =>
                      rcases arguments with ⟨endpoint, fileInfo⟩
                      simp only [uploadFile_reply validGroup]
                      split <;> rfl
                  | error error => cases error <;> rfl
              | download =>
                  have named_iff := find_name_isSome platform group stream.extractWord.1
                    stream.extractWord.2.extractWord.1
                  cases seek : (platform.objects stream.extractWord.1 group.files).find?
                      fun f => f.2.fileInfo.name = stream.extractWord.2.extractWord.1 with
                  | none =>
                      have nothing : ¬∃ info ∈ group.view.summary.files,
                          info.name = stream.extractWord.2.extractWord.1 := by
                        rintro ⟨_, member, named⟩
                        obtain ⟨file, inside, rfl⟩ := mem_summary_files.mp member
                        have absent := named_iff.mpr ⟨file.entry,
                          List.mem_toFinset.mpr (List.mem_map_of_mem inside), named⟩
                        rw [seek] at absent
                        cases absent
                      simp only [if_neg nothing]
                      rfl
                  | some object =>
                      rcases object with ⟨place, file⟩
                      have inside := List.mem_of_getElem?
                        (platform.mem_objects.mp (List.mem_of_find?_eq_some seek))
                      have named : file.fileInfo.name = stream.extractWord.2.extractWord.1 := by
                        simpa using List.find?_some seek
                      have listed : file.fileInfo ∈ group.view.summary.files :=
                        mem_summary_files.mpr ⟨file, inside, rfl⟩
                      simp only [if_pos (show ∃ info ∈ group.view.summary.files,
                        info.name = stream.extractWord.2.extractWord.1 from
                          ⟨file.fileInfo, listed, named⟩)]
                      exact ⟨file, validGroup.files_group file inside,
                        Finset.mem_filter.mpr ⟨listed, named⟩, rfl⟩

/-- What a handler says is what the summary says. -/
theorem handle_reply (valid : tracker.Valid) (transaction : Transaction) :
    (tracker.directory.summary.reply platform transaction).Allows platform
      (handle platform tracker transaction).1 := by
  simp only [Summary.reply, handle]
  cases transaction.request with
  | user request => exact processUserRequest_reply request _
  | group request => exact processGroupRequest_reply request _
  | file request => exact processFileRequest_reply valid request _
  | tracker request => rfl

end Handlers

/-! ## What is sent -/

/-- The messages that a client is sent for a request. -/
def Reply.Sends (platform : Platform) (reply : Reply) (sent : List Bytes) : Prop :=
  ∃ answer, reply.Allows platform answer ∧
    sent = match answer with
      | .ok result => [result.message]
      | .error _ => []

theorem processData_reply {platform : Platform} {config : Config} {tracker : Tracker}
    {network : Network} {data : Bytes} {transaction : Transaction} (valid : tracker.Valid)
    (delivered : network 0 = none) (parsing : parseRequest platform data = some transaction)
    (notSync : transaction.request ≠ .tracker .sync) :
    (tracker.directory.summary.reply platform transaction).Sends platform
      (processData platform config tracker network (49 :: data)).sent := by
  refine ⟨_, handle_reply valid transaction, ?_⟩
  rw [processData_sent_eq parsing notSync]
  cases (handle platform tracker transaction).1 with
  | error exception => rfl
  | ok result => simp only [delivered, and_self, if_true]

/-- Whatever messages a tracker has received, what it sends for a request is what the summary
of its state says about that. -/
theorem answers_summarised (platform : Platform) (config : Config)
    (messages : List (Network × Bytes)) {network : Network} (delivered : network 0 = none)
    {data : Bytes} {transaction : Transaction}
    (parsing : parseRequest platform data = some transaction)
    (notSync : transaction.request ≠ .tracker .sync) :
    let tracker := serveOn platform config .empty messages
    (tracker.directory.summary.reply platform transaction).Sends platform
      (processData platform config tracker network (49 :: data)).sent :=
  processData_reply (legible_serveOn platform config messages).1 delivered parsing notSync

/-- A name that is taken, by a user who has gone again. -/
theorem answers_summarised_annWasHere :
    ((serveOn .oldestFirst .alone .empty annWasHere).directory.summary.reply .oldestFirst
        ⟨8, .user .list, ascii "8 list_users", {}⟩).Sends .oldestFirst
      (processData .oldestFirst .alone (serveOn .oldestFirst .alone .empty annWasHere) .reliable
        (49 :: ascii "8 list_users")).sent :=
  answers_summarised .oldestFirst .alone annWasHere (show Network.reliable 0 = none from rfl)
    (show parseRequest .oldestFirst (ascii "8 list_users") =
      some ⟨8, .user .list, ascii "8 list_users", {}⟩ by decide +kernel) nofun

/-! ## Two platforms -/

section Platforms

variable {platform other : Platform}

/-- An upload that two platforms decode to the same command is decoded alike. -/
theorem decodeUpload_congr {stream : Stream}
    (same : fileCommand platform stream .upload = fileCommand other stream .upload) :
    decodeUpload platform stream.extractWord.2 = decodeUpload other stream.extractWord.2 := by
  simp only [fileCommand, decodeUpload] at same ⊢
  cases decoded : Endpoint.fromString stream.extractWord.2.extractWord.1 with
  | error error => rfl
  | ok endpoint =>
      cases behind : stream.extractWord.2.extractWord.2.remainder with
      | error error => rfl
      | ok text =>
          rw [decoded, behind] at same
          simp only [bind, Except.bind, pure, Except.pure, Command.group.injEq,
            GroupCommand.upload.injEq, true_and] at same
          simp only [bind, Except.bind, pure, Except.pure, same]

theorem reply_congr (summary : Summary) {transaction : Transaction}
    (same : command platform transaction = command other transaction) :
    summary.reply platform transaction = summary.reply other transaction := by
  have tail := congrArg Prod.snd (requestHead_snd platform other transaction.data)
  rcases transaction with ⟨origin, request, data, outcome⟩
  simp only [Summary.reply, tail]
  cases request with
  | user request => rfl
  | group request => rfl
  | tracker request => rfl
  | file request =>
      simp only [command, tail] at same
      cases request with
      | list => rfl
      | download => rfl
      | upload => simp only [Summary.fileReply, decodeUpload_congr same]

end Platforms

namespace Deployment

variable (deployment : Deployment)

/-- A request that both trackers decode alike, and that does not leave open whom it accepts. -/
structure Understood (summary : Summary) (data : Bytes) : Prop where
  alike : deployment.operation .right data = deployment.operation .left data
  settled : ∀ operation ∈ deployment.operation .left data, summary.Settled operation

/-- The summary behind an understood request. -/
def summaryAfter (summary : Summary) (data : Bytes) : Summary :=
  ((deployment.operation .left data).map summary.apply).getD summary

def UnderstoodRun : Summary → List Bytes → Prop
  | _, [] => True
  | summary, data :: later =>
      deployment.Understood summary data ∧
        UnderstoodRun (deployment.summaryAfter summary data) later

variable {deployment}

theorem Understood.operation_eq {summary : Summary} {data : Bytes}
    (understood : deployment.Understood summary data) (side : Side) :
    deployment.operation side data = deployment.operation .left data := by
  cases side with
  | left => rfl
  | right => exact understood.alike

theorem handled_summaryAfter {tracker : Tracker} {data : Bytes} (valid : tracker.Valid)
    (understood : deployment.Understood tracker.directory.summary data) (side : Side) :
    (handled (deployment.platform side) tracker data).directory.summary =
      deployment.summaryAfter tracker.directory.summary data := by
  have decoded := understood.operation_eq side
  cases parsing : parseRequest (deployment.platform side) data with
  | none =>
      rw [operation, parsing, Option.map_none] at decoded
      rw [summaryAfter, ← decoded, handled, parsing]
      rfl
  | some transaction =>
      rw [operation, parsing, Option.map_some] at decoded
      rw [summaryAfter, ← decoded]
      exact handled_summary valid parsing (understood.settled _ decoded.symm)

/-- Behind the same requests, trackers with the same summary have the same summary. -/
theorem UnderstoodRun.summaryAfter {summary : Summary} {later : List Bytes} {data : Bytes}
    (understood : deployment.UnderstoodRun summary (later ++ [data])) (side : Side)
    {tracker : Tracker} (valid : tracker.Valid) (same : tracker.directory.summary = summary) :
    let final := later.foldl (handled (deployment.platform side)) tracker
    final.Valid ∧ final.directory.summary = later.foldl deployment.summaryAfter summary ∧
      deployment.Understood (later.foldl deployment.summaryAfter summary) data := by
  induction later generalizing summary tracker with
  | nil => exact ⟨valid, same, understood.1⟩
  | cons first later ih =>
      rcases understood with ⟨now, others⟩
      rw [← same] at now
      have next := handled_summaryAfter valid now side
      rw [same] at next
      exact ih others (handled_valid (deployment.platform side) valid first) next

end Deployment

/-- Trackers that started alike are valid and agree when nothing is in flight. -/
theorem Deployment.agree_quiescent {deployment : Deployment} {tracker : Side → Tracker}
    (valid : ∀ side, (tracker side).Valid)
    (equal : ∀ side : Side,
      (tracker side).directory.summary = (tracker side.other).directory.summary)
    {actions : List Action} (compatible : deployment.CompatibleRun { tracker } actions)
    (quiescent : ∀ side, (deployment.run { tracker } actions).inbox side = []) (side : Side) :
    ((deployment.run { tracker } actions).tracker side).Valid ∧
      ((deployment.run { tracker } actions).tracker side).directory.summary =
        ((deployment.run { tracker } actions).tracker side.other).directory.summary := by
  have represents : deployment.Represents { tracker }
      { state := fun side => (tracker side).directory.summary, inbox := fun _ => [] } :=
    { valid, state := fun _ => rfl, inbox := fun _ => .nil }
  obtain ⟨final, represents, converging⟩ :=
    represents.run actions (Crossing.Converging.of_eq equal) compatible
  have empty : ∀ side, final.inbox side = [] := by
    intro side
    have inbox := represents.inbox side
    rw [quiescent side] at inbox
    exact List.forall₂_nil_left_iff.mp inbox
  have agree := converging.state_eq empty side
  rw [represents.state, represents.state] at agree
  exact ⟨represents.valid side, agree⟩

/-- When two trackers that mirror to each other have nothing in flight any more, either of them
can take over: for whatever requests come later, what the one sends is what the other would
send, up to the order of lists and the seeders of files. -/
theorem takeover_seamless (deployment : Deployment) (tracker : Side → Tracker)
    (valid : ∀ side, (tracker side).Valid)
    (equal : ∀ side : Side,
      (tracker side).directory.summary = (tracker side.other).directory.summary)
    (actions : List Action) (compatible : deployment.CompatibleRun { tracker } actions)
    (quiescent : ∀ side, (deployment.run { tracker } actions).inbox side = [])
    (later : List Bytes) (data : Bytes)
    (understood : deployment.UnderstoodRun
      ((deployment.run { tracker } actions).tracker .left).directory.summary (later ++ [data]))
    {transaction : Transaction}
    (parsing : parseRequest (deployment.platform .left) data = some transaction)
    (notSync : transaction.request ≠ .tracker .sync) :
    let summary := later.foldl deployment.summaryAfter
      ((deployment.run { tracker } actions).tracker .left).directory.summary
    ∀ side network, network 0 = none →
      (summary.reply (deployment.platform .left) transaction).Sends (deployment.platform side)
        (processData (deployment.platform side) (deployment.config side)
          (later.foldl (handled (deployment.platform side))
            ((deployment.run { tracker } actions).tracker side)) network (49 :: data)).sent := by
  intro summary side network delivered
  have both := Deployment.agree_quiescent valid equal compatible quiescent
  have same : ((deployment.run { tracker } actions).tracker side).directory.summary =
      ((deployment.run { tracker } actions).tracker .left).directory.summary := by
    cases side with
    | left => rfl
    | right => exact (both .right).2
  obtain ⟨finalValid, final, last⟩ := understood.summaryAfter side (both side).1 same
  have parsed : parseRequest (deployment.platform side) data = some transaction :=
    (parseRequest_congr _ _ data).trans parsing
  have decoded := last.operation_eq side
  rw [Deployment.operation, Deployment.operation, parsed, parsing, Option.map_some,
    Option.map_some, Option.some.injEq, Operation.mk.injEq] at decoded
  have sent := @processData_reply (deployment.platform side) (deployment.config side) _ network
    data transaction finalValid delivered parsed notSync
  rw [final, reply_congr _ decoded.2] at sent
  exact sent

theorem takeover_seamless_twoNames :
    let summary := [ascii "9 login bob pw"].foldl neighbours.summaryAfter
      ((neighbours.run { tracker := fun _ => Tracker.empty } twoNames).tracker
        .left).directory.summary
    ∀ side network, network 0 = none →
      (summary.reply (neighbours.platform .left)
          ⟨9, .group .create, ascii "9 create_group g", {}⟩).Sends (neighbours.platform side)
        (processData (neighbours.platform side) (neighbours.config side)
          ([ascii "9 login bob pw"].foldl (handled (neighbours.platform side))
            ((neighbours.run { tracker := fun _ => Tracker.empty } twoNames).tracker side))
          network (49 :: ascii "9 create_group g")).sent :=
  takeover_seamless neighbours (fun _ => Tracker.empty) (fun _ => Tracker.valid_empty)
    (fun _ => rfl) twoNames (by decide +kernel) (fun side => by cases side <;> decide +kernel)
    [ascii "9 login bob pw"] (ascii "9 create_group g")
    ⟨⟨by decide +kernel, by decide +kernel⟩, ⟨by decide +kernel, by decide +kernel⟩, trivial⟩
    (show parseRequest (neighbours.platform .left) (ascii "9 create_group g") =
      some ⟨9, .group .create, ascii "9 create_group g", {}⟩ by decide +kernel) nofun

end P2PFileShare
