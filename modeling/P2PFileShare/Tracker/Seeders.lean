import P2PFileShare.Tracker.Failures
import P2PFileShare.Tracker.Uploads

/-!
# The seeders of a file

`File::seeders` is a set of pointers.  Each upload makes a new `Endpoint` and inserts the
pointer to it, so that the set never refuses one, and an endpoint is listed as often as it
uploaded the content.
-/

namespace P2PFileShare

open Container Text Transition

/-- No endpoint is listed twice as a seeder of one file. -/
def Tracker.SeedersOnce (tracker : Tracker) : Prop :=
  ∀ groupId, ∀ file ∈ tracker.filesOf groupId, file.seeders.Nodup

/-- The text of a file counts each of its seeders once, and lists it once. -/
def File.NamesOnce (platform : Platform) (file : File) : Prop :=
  ∃ listed : List Endpoint, listed.Nodup ∧
    (∀ endpoint, endpoint ∈ listed ↔ endpoint ∈ file.seeders) ∧
      file.toString platform = Text.toString listed.length ++ ascii " " ++
        (listed.flatMap fun seeder => seeder.toString ++ ascii " ") ++
        file.groupId ++ ascii " " ++ file.fileInfo.toString

/-- No endpoint is listed twice, and the text of a file names each seeder once. -/
def Tracker.NamesSeedersOnce (platform : Platform) (tracker : Tracker) : Prop :=
  ∀ groupId, ∀ file ∈ tracker.filesOf groupId, file.seeders.Nodup ∧ file.NamesOnce platform

/-- The upload that a message makes, if it makes one, comes from an endpoint that does not
seed this content yet. -/
def Tracker.KeepsSeeders (platform : Platform) (tracker : Tracker)
    (message : Network × Bytes) : Prop :=
  ∀ groupId, ∀ upload ∈ tracker.acceptedUpload platform groupId message,
    ∀ file ∈ tracker.filesOf groupId, file.fileInfo.hash = upload.2.hash →
      upload.1 ∉ file.seeders

/-! ## What the handlers make of the lists of files -/

section Handlers

variable {platform : Platform} {tracker : Tracker} {origin : EndpointID} {groupId : Bytes}
  {group after : Group} {endpoint : Endpoint} {fileInfo : FileInfo}

theorem Tracker.filesOf_of_group (found : tracker.group? groupId = some group) :
    tracker.filesOf groupId = group.files := by
  simp only [filesOf, found]

theorem Tracker.filesOf_updateGroup (found : tracker.group? groupId = some group)
    (other : Bytes) :
    (tracker.updateGroup groupId after).filesOf other =
      if other = groupId then after.files else tracker.filesOf other := by
  simp only [filesOf, Tracker.group?_updateGroup, found]
  by_cases same : other = groupId
  · rw [if_pos same, if_pos same]
    rfl
  · rw [if_neg same, if_neg same]

theorem Tracker.filesOf_updateGroup_of_eq (found : tracker.group? groupId = some group)
    (files_eq : after.files = group.files) (other : Bytes) :
    (tracker.updateGroup groupId after).filesOf other = tracker.filesOf other := by
  rw [filesOf_updateGroup found]
  split
  · next same => rw [files_eq, same, filesOf_of_group found]
  · rfl

/-- Requests on groups leave the files alone. -/
theorem processGroupRequest_filesOf (request : GroupRequest) (stream : Stream) (other : Bytes) :
    (processGroupRequest platform tracker origin request stream).2.filesOf other =
      tracker.filesOf other := by
  by_cases list : request = .list
  · subst list
    rfl
  simp only [processGroupRequest, if_neg list]
  cases tracker.session? origin with
  | none => rfl
  | some user =>
      cases request with
      | list => contradiction
      | create =>
          simp only [GroupDB.createGroup]
          cases found : tracker.groupDB.groups.find? stream.extractWord.1 with
          | some group => rfl
          | none =>
              simp only [Option.isSome_none, Bool.false_eq_true, if_false, Tracker.filesOf,
                Tracker.group?, GroupDB.getGroup, UnorderedMap.find?_insert, Function.update_apply]
              by_cases same : other = stream.extractWord.1
              · rw [if_pos same, same, found]
              · rw [if_neg same]
      | join =>
          cases found : tracker.group? stream.extractWord.1 with
          | none => rfl
          | some group =>
              simp only
              split
              · rfl
              · exact Tracker.filesOf_updateGroup_of_eq found
                  (group.files_addJoinRequest user) other
      | leave =>
          cases found : tracker.group? stream.extractWord.1 with
          | none => rfl
          | some group =>
              simp only
              split
              · next left =>
                  have left_eq := congrArg Prod.snd left
                  simp only at left_eq
                  rw [← left_eq]
                  have files_eq : (group.removeUser user).2.files = group.files := rfl
                  exact Tracker.filesOf_updateGroup_of_eq found files_eq other
              · rfl
      | listJoinRequests =>
          cases tracker.group? stream.extractWord.1 with
          | none => rfl
          | some group => rfl
      | acceptJoinRequest =>
          cases found : tracker.group? stream.extractWord.1 with
          | none => rfl
          | some group =>
              simp only
              split
              · rfl
              · split
                · exact Tracker.filesOf_updateGroup_of_eq found (group.files_accept _) other
                · rfl

/-- An upload adds a seeder to the file of its content without success, or a file with
success. -/
theorem uploadFile_cases (platform : Platform) (tracker : Tracker) (groupId : Bytes)
    (group : Group) (endpoint : Endpoint) (fileInfo : FileInfo) :
    (∃ place file, group.files[place]? = some file ∧ file.fileInfo.hash = fileInfo.hash ∧
        (uploadFile platform tracker groupId group endpoint fileInfo).1.success = false ∧
        (uploadFile platform tracker groupId group endpoint fileInfo).2 =
          tracker.updateGroup groupId (group.addSeeder place endpoint)) ∨
      ((∀ file ∈ group.files, file.fileInfo.hash = fileInfo.hash → file.groupId ≠ groupId) ∧
        (uploadFile platform tracker groupId group endpoint fileInfo).1.success = true ∧
        (uploadFile platform tracker groupId group endpoint fileInfo).2 =
          tracker.updateGroup groupId
            (group.addFile { seeders := [endpoint], fileInfo, groupId }).2) := by
  simp only [uploadFile]
  split
  · next place file search =>
      have equal := List.find?_some search
      simp only [File.equals, Bool.and_eq_true, beq_iff_eq] at equal
      exact Or.inl ⟨place, file, platform.mem_objects.mp (List.mem_of_find?_eq_some search),
        equal.1, rfl, rfl⟩
  · next search =>
      refine Or.inr ⟨?_, rfl, rfl⟩
      intro file member sameHash sameGroup
      rcases platform.exists_mem_objects groupId member with ⟨place, listed⟩
      have differs := List.find?_eq_none.mp search (place, file) listed
      simp [File.equals, sameHash, sameGroup] at differs

/-- An upload by a member, with arguments that are decoded. -/
theorem processFileRequest_upload {stream : Stream}
    (member : tracker.MemberAt stream.extractWord.1 origin)
    (decoded : decodeUpload platform stream.extractWord.2 = .ok (endpoint, fileInfo)) :
    ∃ group, tracker.group? stream.extractWord.1 = some group ∧
      processFileRequest platform tracker origin .upload stream =
        (.ok (uploadFile platform tracker stream.extractWord.1 group endpoint fileInfo).1,
          (uploadFile platform tracker stream.extractWord.1 group endpoint fileInfo).2) := by
  rcases member with ⟨user, group, session, found, isMember⟩
  refine ⟨group, found, ?_⟩
  simp only [processFileRequest, session, found, isMember, Bool.not_true, Bool.false_eq_true,
    if_false, decoded]

/-- No other request on files changes anything. -/
theorem processFileRequest_idle {request : FileRequest} {stream : Stream}
    (idle : request = .upload → tracker.MemberAt stream.extractWord.1 origin →
      ∀ arguments, decodeUpload platform stream.extractWord.2 ≠ .ok arguments) :
    (processFileRequest platform tracker origin request stream).2 = tracker := by
  simp only [processFileRequest]
  cases session : tracker.session? origin with
  | none => rfl
  | some user =>
      cases found : tracker.group? stream.extractWord.1 with
      | none => rfl
      | some group =>
          cases isMember : group.hasMember user with
          | false => simp [isMember]
          | true =>
              simp only [isMember, Bool.not_true, Bool.false_eq_true, if_false]
              cases request with
              | list => rfl
              | download =>
                  simp only
                  split
                  · rfl
                  · rfl
              | upload =>
                  have refused := idle rfl ⟨user, group, session, found, isMember⟩
                  cases outcome : decodeUpload platform stream.extractWord.2 with
                  | ok arguments => exact absurd outcome (refused arguments)
                  | error error => cases error <;> rfl

theorem Group.files_addSeeder {place : Nat} {file : File}
    (atPlace : group.files[place]? = some file) :
    (group.addSeeder place endpoint).files[place]? =
      some { file with seeders := file.seeders ++ [endpoint] } := by
  rw [Group.addSeeder, List.getElem?_modify_eq, atPlace]
  rfl

theorem Group.mem_files_addSeeder {place : Nat} {file other : File}
    (atPlace : group.files[place]? = some file)
    (member : other ∈ (group.addSeeder place endpoint).files) :
    other ∈ group.files ∨ other = { file with seeders := file.seeders ++ [endpoint] } := by
  obtain ⟨index, found⟩ := List.mem_iff_getElem?.mp member
  by_cases same : index = place
  · rw [same, Group.files_addSeeder atPlace] at found
    exact Or.inr (Option.some.inj found).symm
  · rw [Group.addSeeder, List.getElem?_modify_ne _ _ (Ne.symm same)] at found
    exact Or.inl (List.mem_of_getElem? found)

/-- An upload keeps the seeders distinct exactly if its endpoint does not seed the content
yet. -/
theorem uploadFile_seedersOnce_iff (once : tracker.SeedersOnce) (valid : group.Valid groupId)
    (found : tracker.group? groupId = some group) :
    (uploadFile platform tracker groupId group endpoint fileInfo).2.SeedersOnce ↔
      ∀ file ∈ group.files, file.fileInfo.hash = fileInfo.hash → endpoint ∉ file.seeders := by
  have onceHere : ∀ file ∈ group.files, file.seeders.Nodup := by
    intro file member
    rw [← Tracker.filesOf_of_group found] at member
    exact once groupId file member
  rcases uploadFile_cases platform tracker groupId group endpoint fileInfo with
    ⟨place, file, atPlace, content, _, outcome⟩ | ⟨fresh, _, outcome⟩
  · rw [outcome]
    constructor
    · intro after other member sameHash
      -- The group has one file of this content, and it is the one that was found.
      have same : other = file :=
        List.inj_on_of_nodup_map valid.files_nodup member (List.mem_of_getElem? atPlace)
          (sameHash.trans content.symm)
      have reseeded : { file with seeders := file.seeders ++ [endpoint] } ∈
          (tracker.updateGroup groupId (group.addSeeder place endpoint)).filesOf groupId := by
        rw [Tracker.filesOf_updateGroup found, if_pos rfl]
        exact List.mem_of_getElem? (Group.files_addSeeder atPlace)
      have nodup := after groupId _ reseeded
      rw [List.nodup_append] at nodup
      rw [same]
      intro seeds
      exact nodup.2.2 endpoint seeds endpoint (List.mem_singleton_self _) rfl
    · intro isNew named other member
      rw [Tracker.filesOf_updateGroup found] at member
      split at member
      · rcases Group.mem_files_addSeeder atPlace member with older | rfl
        · exact onceHere other older
        · have fileMember := List.mem_of_getElem? atPlace
          rw [← List.concat_eq_append, List.nodup_concat]
          exact ⟨isNew file fileMember content, onceHere file fileMember⟩
      · exact once named other member
  · rw [outcome]
    refine iff_of_true ?_ ?_
    · intro named other member
      rw [Tracker.filesOf_updateGroup found] at member
      split at member
      · rcases List.mem_append.mp member with older | added
        · exact onceHere other older
        · rw [List.mem_singleton.mp added]
          exact List.nodup_singleton endpoint
      · exact once named other member
    · intro file member sameHash
      exact absurd (valid.files_group file member) (fresh file member sameHash)

end Handlers

/-! ## Runs -/

section Runs

variable {platform : Platform} {config : Config} {source target tracker : Tracker}
  {message : Network × Bytes} {groupId : Bytes} {upload : Endpoint × FileInfo}

/-- The lists of files behind a message are those that the handlers leave. -/
theorem Tracker.Receives.filesOf_eq (receives : source.Receives platform config message target)
    (other : Bytes) :
    target.filesOf other = (handled platform source (message.2.drop 1)).filesOf other := by
  rcases message with ⟨network, message⟩
  subst receives
  cases message with
  | nil =>
      simp only [handled, List.drop_nil, parseRequest_nil]
      rfl
  | cons flag data =>
      obtain ⟨log, after, _⟩ : ∃ log,
          (processData platform config source network (flag :: data)).tracker =
            { handled platform source data with successfulTransactions := log } ∧ _ :=
        processData_after config network flag
      rw [after]
      rfl

/-- An accepted upload does what `uploadFile` does. -/
theorem Tracker.Receives.uploaded (receives : source.Receives platform config message target)
    (accepted : source.acceptedUpload platform groupId message = some upload) :
    ∃ group, source.group? groupId = some group ∧ ∀ other, target.filesOf other =
      (uploadFile platform source groupId group upload.1 upload.2).2.filesOf other := by
  unfold acceptedUpload at accepted
  split at accepted
  · cases accepted
  · next transaction parsing =>
      split at accepted
      · next named endpoint fileInfo command_eq =>
          simp only [Option.ite_none_right_eq_some, Option.some.injEq] at accepted
          rcases accepted with ⟨⟨rfl, member⟩, rfl⟩
          obtain ⟨isUpload, rfl, decoded⟩ := request_of_upload command_eq
          obtain ⟨group, found, outcome⟩ := processFileRequest_upload member decoded
          refine ⟨group, found, fun other => ?_⟩
          rw [receives.filesOf_eq, handled, parsing]
          simp only [handle, isUpload, outcome]
      · cases accepted

/-- A message that is no accepted upload leaves the files alone. -/
theorem Tracker.Receives.filesOf_kept (receives : source.Receives platform config message target)
    (quiet : ∀ groupId, source.acceptedUpload platform groupId message = none) (other : Bytes) :
    target.filesOf other = source.filesOf other := by
  rw [receives.filesOf_eq, handled]
  cases parsing : parseRequest platform (message.2.drop 1) with
  | none => rfl
  | some transaction =>
      unfold acceptedUpload at quiet
      rw [parsing] at quiet
      rcases transaction with ⟨origin, request, data, outcome⟩
      cases request with
      | user request =>
          have groups_eq := (processUserRequest_frame platform source origin request
            (requestHead platform data).2.2).1
          simp only [handle, filesOf, group?, groups_eq]
      | group request => exact processGroupRequest_filesOf request _ other
      | tracker request => rfl
      | file request =>
          simp only [handle]
          rw [processFileRequest_idle]
          rintro rfl member ⟨endpoint, fileInfo⟩ decoded
          have none_accepted := quiet (requestHead platform data).2.2.extractWord.1
          simp only [command, fileCommand, decoded, true_and, if_pos member] at none_accepted
          cases none_accepted

/-- A message keeps the seeders distinct exactly if it brings no endpoint that seeds the
content already. -/
theorem Tracker.Receives.seedersOnce_iff (receives : source.Receives platform config message target)
    (valid : source.Valid) (once : source.SeedersOnce) :
    target.SeedersOnce ↔ source.KeepsSeeders platform message := by
  by_cases quiet : ∀ groupId, source.acceptedUpload platform groupId message = none
  · refine iff_of_true ?_ ?_
    · intro groupId file member
      rw [receives.filesOf_kept quiet] at member
      exact once groupId file member
    · intro groupId upload accepted
      rw [quiet groupId] at accepted
      cases accepted
  · have decided {groupId : Bytes} {upload : Endpoint × FileInfo}
        (accepted : source.acceptedUpload platform groupId message = some upload) :
        target.SeedersOnce ↔ ∀ file ∈ source.filesOf groupId,
          file.fileInfo.hash = upload.2.hash → upload.1 ∉ file.seeders := by
      obtain ⟨group, found, after⟩ := receives.uploaded accepted
      have same : target.SeedersOnce ↔
          (uploadFile platform source groupId group upload.1 upload.2).2.SeedersOnce := by
        simp only [SeedersOnce, after]
      rw [same, uploadFile_seedersOnce_iff once (valid groupId group found) found,
        filesOf_of_group found]
    constructor
    · intro after groupId upload accepted
      exact (decided accepted).mp after
    · intro keeps
      rw [not_forall] at quiet
      obtain ⟨groupId, someUpload⟩ := quiet
      obtain ⟨upload, accepted⟩ := Option.ne_none_iff_exists'.mp someUpload
      exact (decided accepted).mpr (keeps groupId upload accepted)

theorem File.namesOnce (platform : Platform) {file : File} (nodup : file.seeders.Nodup) :
    file.NamesOnce platform := by
  have listed := platform.objects_map_snd_perm (file.groupId, file.fileInfo.hash) file.seeders
  refine ⟨_, listed.nodup_iff.mpr nodup, fun endpoint => listed.mem_iff, ?_⟩
  rw [File.toString, listed.length_eq, List.flatMap_map]

theorem Tracker.namesSeedersOnce_iff :
    tracker.NamesSeedersOnce platform ↔ tracker.SeedersOnce := by
  constructor
  · exact fun names groupId file member => (names groupId file member).1
  · exact fun once groupId file member =>
      ⟨once groupId file member, File.namesOnce platform (once groupId file member)⟩

/-- The runs in all of whose states every seeder is listed and named once are the runs in
which no endpoint uploads a content again. -/
theorem seeders_once_iff {history : List (Network × Bytes)} :
    Run Tracker.empty (fun source message target =>
        source.Receives platform config message target ∧ source.KeepsSeeders platform message)
        history tracker ↔
      Run Tracker.empty (fun source message target =>
        source.Receives platform config message target ∧ target.NamesSeedersOnce platform)
        history tracker := by
  simp only [Tracker.namesSeedersOnce_iff]
  apply Run.kept_iff_good (p := Tracker.Valid) Tracker.valid_empty
  · intro groupId file member
    cases member
  · exact fun source message target valid receives => receives.valid valid
  · exact fun source message target valid once receives => receives.seedersOnce_iff valid once

end Runs

/-- A client sends the same upload twice. -/
def sameUploadTwice : List (Network × Bytes) :=
  overReliable (uploadingMember ++ [49 :: uploadOfA, 49 :: uploadOfA])

theorem seeders_twice :
    ¬∀ history tracker, Run Tracker.empty (Tracker.Receives .oldestFirst .alone) history tracker →
      tracker.NamesSeedersOnce .oldestFirst := by
  intro claim
  have run : Run Tracker.empty (Tracker.Receives .oldestFirst .alone) _
      (serveOn .oldestFirst .alone .empty sameUploadTwice) := run_serveOn sameUploadTwice .start
  obtain ⟨file, member, twice⟩ :
      ∃ file ∈ (serveOn .oldestFirst .alone .empty sameUploadTwice).filesOf (ascii "g"),
        ¬file.seeders.Nodup := by
    decide +kernel
  exact twice (claim _ _ run (ascii "g") file member).1

end P2PFileShare
