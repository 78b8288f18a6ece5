import P2PFileShare.Swarm.System
import P2PFileShare.Tracker.Failures
import P2PFileShare.Tracker.Uploads

/-!
# What is in flight

An upload that a client sends is decoded to what the client described, whatever the line
was that it came from.  Behind an accepted upload, the lists of a group have one seeder
or one file more; behind every other request they are as before.
-/

namespace P2PFileShare

open Container Text

/-- What `get_file_info` makes of some file. -/
def FileInfo.Described (sha1 : Bytes → Bytes) (fileInfo : FileInfo) : Prop :=
  ∃ name content, IsWord name ∧ fileInfo = getFileInfo sha1 name content

/-- A name under which the content of an upload is listed afterwards. -/
def GroupView.Names (view : GroupView) (fileInfo : FileInfo) (name : Bytes) : Prop :=
  (∃ entry ∈ view.files, entry.1.hash = fileInfo.hash ∧ entry.1.name = name) ∨
    (¬view.HasContent fileInfo.hash ∧ name = fileInfo.name)

section Descriptions

variable {ι : Type} {setting : Setting ι} {fileInfo other : FileInfo}

theorem isPlain_of_described (described : fileInfo.Described setting.sha1) : fileInfo.IsPlain := by
  rcases described with ⟨name, content, isWord, rfl⟩
  exact getFileInfo_isPlain isWord setting.sha1_isWord

/-- Descriptions of one hash have the same pieces. -/
theorem pieces_eq_of_hash (described : fileInfo.Described setting.sha1)
    (otherDescribed : other.Described setting.sha1) (same : fileInfo.hash = other.hash) :
    fileInfo.pieces = other.pieces := by
  rcases described with ⟨name, content, _, rfl⟩
  rcases otherDescribed with ⟨otherName, otherContent, _, rfl⟩
  exact getFileInfo_pieces_eq (by decide) setting.sha1_length same

end Descriptions

/-! ## What a client sends -/

/-- The upload that a request decodes to, if it does, is to a named group, from the
endpoint of the client, and of a file that it described. -/
def Setting.Sends {ι : Type} (setting : Setting ι) (i : ι) (request : Bytes) : Prop :=
  ∀ transaction ∈ parseRequest setting.trackerPlatform (request.drop 1),
    ∀ groupId endpoint fileInfo,
      command setting.trackerPlatform transaction = .group groupId (.upload endpoint fileInfo) →
        IsWord groupId ∧ endpoint = setting.endpoint i ∧ fileInfo.Described setting.sha1

section Requests

variable {platform : Platform} {myId : EndpointID} {data : Bytes}

/-- The name of a request is the first word of the line. -/
theorem requestHead_line (line : Bytes) :
    (requestHead platform (Text.toString myId.toNat ++ 32 :: line)).2.1 =
      (Stream.ofText line).extractWord.1 := by
  rw [requestHead, Stream.ofText_eq_reading, Stream.extractSize_toString _ _ (by rfl)]
  simp only
  rw [Stream.extractWord_space (by rfl), Stream.extractWord_reading]

theorem requestPrefix_drop (line : Bytes) :
    (requestPrefix myId ++ line).drop 1 = Text.toString myId.toNat ++ 32 :: line := by
  simp [requestPrefix, ascii]

theorem uploadRequest_text (groupId : Bytes) (endpoint : Endpoint) (fileInfo : FileInfo) :
    uploadRequest myId groupId endpoint fileInfo = requestPrefix myId ++ (ascii "upload_file" ++
      32 :: (groupId ++ 32 :: (endpoint.toString ++ 32 :: fileInfo.toString))) := by
  simp [uploadRequest, ascii]

/-- Whatever the command does, its request starts with the word that was typed. -/
theorem submit_line {client : ClientState} {sha1 : Bytes → Bytes} {endpoint : Endpoint}
    {line request : Bytes} {awaiting : Awaiting}
    (sent : (client.submit sha1 myId endpoint line).2 = some (request, awaiting)) :
    ∃ text, request = requestPrefix myId ++ text ∧
      (Stream.ofText text).extractWord.1 = (Stream.ofText line).extractWord.1 := by
  simp only [ClientState.submit] at sent
  split at sent
  · next uploads =>
      split at sent
      · cases sent
      · simp only [Option.some.injEq, Prod.mk.injEq] at sent
        refine ⟨_, sent.1.symm.trans (uploadRequest_text _ _ _), ?_⟩
        have name : IsWord (ascii "upload_file") := by decide
        rw [Stream.ofText_eq_reading, Stream.extractWord_word name (by rfl), uploads]
  · split at sent
    · next downloads =>
        split at sent
        · cases sent
        · simp only [Option.some.injEq, Prod.mk.injEq] at sent
          refine ⟨ascii "download_file" ++
            32 :: ((Stream.ofText line).extractWord.2.extractWord.1 ++
              32 :: (Stream.ofText line).extractWord.2.extractWord.2.extractWord.1), ?_, ?_⟩
          · rw [← sent.1, downloads]
            simp [ascii]
          · have name : IsWord (ascii "download_file") := by decide
            rw [Stream.ofText_eq_reading, Stream.extractWord_word name (by rfl), downloads]
    · split at sent
      · cases sent
      · simp only [Option.some.injEq, Prod.mk.injEq] at sent
        exact ⟨line, sent.1.symm, rfl⟩

theorem requestOfName_upload {word : Bytes} (uploads : requestOfName word = some (.file .upload)) :
    word = ascii "upload_file" := by
  have skip {c : Prop} [Decidable c] {first : Request} {others : Option Request}
      (found : (if c then some first else others) = some (.file .upload))
      (different : first ≠ .file .upload) : others = some (.file .upload) := by
    split at found
    · exact absurd (Option.some.inj found) different
    · exact found
  by_contra other
  rw [requestOfName] at uploads
  iterate 12 replace uploads := skip uploads nofun
  rw [if_neg other] at uploads
  exact (nomatch skip (skip uploads nofun) nofun)

/-- A request that decodes to an upload has that name, and its arguments behind it. -/
theorem parsed_upload {transaction : Transaction}
    (parsing : parseRequest platform data = some transaction) {groupId : Bytes}
    {endpoint : Endpoint} {fileInfo : FileInfo}
    (uploads : command platform transaction = .group groupId (.upload endpoint fileInfo)) :
    (requestHead platform data).2.1 = ascii "upload_file" ∧
      (requestHead platform data).2.2.extractWord.1 = groupId ∧
      decodeUpload platform (requestHead platform data).2.2.extractWord.2 =
        .ok (endpoint, fileInfo) := by
  rcases request_of_upload uploads with ⟨isUpload, group, decoded⟩
  simp only [parseRequest] at parsing
  rcases Option.map_eq_some_iff.mp parsing with ⟨request, named, rfl⟩
  simp only at isUpload
  subst isUpload
  exact ⟨requestOfName_upload named, group, decoded⟩

variable {ι : Type} {setting : Setting ι} {i : ι}

/-- A line that is no upload is not taken for one. -/
theorem not_upload_of_line {line : Bytes}
    (other : (Stream.ofText line).extractWord.1 ≠ ascii "upload_file") :
    ∀ transaction ∈ parseRequest setting.trackerPlatform
        ((requestPrefix (setting.myId i) ++ line).drop 1),
      ∀ groupId endpoint fileInfo,
        command setting.trackerPlatform transaction ≠
          .group groupId (.upload endpoint fileInfo) := by
  intro transaction parsing groupId endpoint fileInfo uploads
  rw [requestPrefix_drop] at parsing
  have name := (parsed_upload parsing uploads).1
  rw [requestHead_line] at name
  exact other name

/-- The arguments of an upload request are decoded to what it was made of.  Without a group,
the endpoint is taken for one, and the description for an endpoint. -/
theorem uploadRequest_arguments (setting : Setting ι) (i : ι) {groupId : Bytes}
    {fileInfo : FileInfo} (group : groupId ≠ [] → IsWord groupId) (infoPlain : fileInfo.IsPlain)
    {stream : Stream} (behind : (requestHead setting.trackerPlatform
      ((uploadRequest (setting.myId i) groupId (setting.endpoint i) fileInfo).drop 1)).2.2 =
        stream) :
    decodeUpload setting.trackerPlatform stream.extractWord.2 = .error .invalidArgument ∨
      IsWord groupId ∧ stream.extractWord.1 = groupId ∧
        decodeUpload setting.trackerPlatform stream.extractWord.2 =
          .ok (setting.endpoint i, fileInfo) := by
  have plain := setting.endpoint_isPlain i
  have name : IsWord (ascii "upload_file") := by decide
  rcases requestHead_text setting.trackerPlatform (setting.myId i) name
      (groupId ++ 32 :: ((setting.endpoint i).toString ++ 32 :: fileInfo.toString)) with
    ⟨taken, head⟩
  rw [uploadRequest_text, requestPrefix_drop, head] at behind
  subst behind
  by_cases named : groupId = []
  · left
    subst named
    have blank : ∀ byte ∈ ([32, 32] : Bytes), isSpace byte = true :=
      List.forall_mem_cons.mpr ⟨rfl, List.forall_mem_singleton.mpr rfl⟩
    have label : IsWord (ascii "File:") := by decide
    have noEndpoint : Endpoint.fromString (ascii "File:") = .error .invalidArgument := by decide
    have separator : isSpace 32 = true := rfl
    have token := Stream.extractWord_token blank (Endpoint.isWord_toString plain) separator taken
      fileInfo.toString
    simp only [List.cons_append, List.nil_append] at token ⊢
    rw [token, decodeUpload, FileInfo.toString_tokens]
    simp only
    rw [Stream.extractWord_next (by rfl) label (by rfl)]
    simp only [noEndpoint, bind, Except.bind]
  · right
    rw [Stream.extractWord_next (by rfl) (group named) (by rfl)]
    exact ⟨group named, rfl, decodeUpload_client setting.trackerPlatform plain infoPlain _⟩

theorem decoded_of_upload {groupId : Bytes} {fileInfo : FileInfo}
    (group : groupId ≠ [] → IsWord groupId) (infoPlain : fileInfo.IsPlain) :
    ∀ transaction ∈ parseRequest setting.trackerPlatform
        ((uploadRequest (setting.myId i) groupId (setting.endpoint i) fileInfo).drop 1),
      ∀ named endpoint described,
        command setting.trackerPlatform transaction = .group named (.upload endpoint described) →
          IsWord named ∧ endpoint = setting.endpoint i ∧ described = fileInfo := by
  intro transaction parsing named endpoint described uploads
  obtain ⟨_, isGroup, decoded⟩ := parsed_upload parsing uploads
  rcases uploadRequest_arguments setting i group infoPlain rfl with
    invalid | ⟨isWord, same, arguments⟩
  · rw [invalid] at decoded
    cases decoded
  · rw [arguments, Except.ok.injEq, Prod.mk.injEq] at decoded
    rw [same] at isGroup
    exact ⟨isGroup ▸ isWord, decoded.1.symm, decoded.2.symm⟩

/-- A tracker never throws at an upload of a client. -/
theorem uploadRequest_harmless {groupId : Bytes} {fileInfo : FileInfo}
    (group : groupId ≠ [] → IsWord groupId) (infoPlain : fileInfo.IsPlain) (tracker : Tracker) :
    ¬FatalUpload setting.trackerPlatform tracker
      ((uploadRequest (setting.myId i) groupId (setting.endpoint i) fileInfo).drop 1) := by
  rintro ⟨_, _, _, _, _, fatal⟩
  have arguments := uploadRequest_arguments setting i group infoPlain rfl
  generalize (requestHead setting.trackerPlatform
    ((uploadRequest (setting.myId i) groupId (setting.endpoint i) fileInfo).drop
      1)).2.2.extractWord = extracted at fatal arguments
  rcases extracted with ⟨named, stream⟩
  obtain ⟨_, _, _, escaping⟩ := fatal
  rw [← decodeUpload_outOfRange_iff setting.trackerPlatform] at escaping
  rcases arguments with invalid | ⟨_, _, decoded⟩
  · cases invalid.symm.trans escaping
  · cases decoded.symm.trans escaping

/-- The name of a file is a word, if its path is. -/
theorem isWord_basename {filePath : Bytes} (isWord : ∀ byte ∈ filePath, isSpace byte = false)
    (named : basename filePath ≠ []) : IsWord (basename filePath) := by
  refine ⟨named, ?_⟩
  intro byte member
  apply isWord
  exact List.mem_reverse.mp (List.takeWhile_subset _ (List.mem_reverse.mp member))

/-- Whatever the line, the request decodes to no other upload than that of a file on the
disk of the client. -/
theorem submit_uploads {client : ClientState} {line request : Bytes} {awaiting : Awaiting}
    (regular : RegularDisk client.disk)
    (sent : (client.submit setting.sha1 (setting.myId i) (setting.endpoint i) line).2 =
      some (request, awaiting)) :
    ∀ transaction ∈ parseRequest setting.trackerPlatform (request.drop 1),
      ∀ groupId endpoint fileInfo,
        command setting.trackerPlatform transaction = .group groupId (.upload endpoint fileInfo) →
          IsWord groupId ∧ endpoint = setting.endpoint i ∧
            ∃ path content, client.disk path = some content ∧ IsWord (basename path) ∧
              fileInfo = getFileInfo setting.sha1 (basename path) content := by
  intro transaction parsing groupId endpoint fileInfo uploads
  by_cases typed : (Stream.ofText line).extractWord.1 = ascii "upload_file"
  · simp only [ClientState.submit, if_pos typed] at sent
    split at sent
    · cases sent
    · next found =>
        simp only [Option.some.injEq, Prod.mk.injEq] at sent
        rcases sent with ⟨rfl, _⟩
        rcases Option.map_eq_some_iff.mp found with ⟨content, there, rfl⟩
        have isWord := isWord_basename (Stream.extractWord_noSpace _) (regular _ _ there).2
        have plain : (getFileInfo setting.sha1 _ content).IsPlain :=
          getFileInfo_isPlain isWord setting.sha1_isWord
        obtain ⟨group, own, same⟩ :=
          decoded_of_upload (fun named => ⟨named, Stream.extractWord_noSpace _⟩) plain
            transaction parsing groupId endpoint fileInfo uploads
        exact ⟨group, own, _, content, there, isWord, same⟩
  · obtain ⟨text, rfl, same⟩ := submit_line sent
    rw [← same] at typed
    exact absurd uploads (not_upload_of_line typed transaction parsing groupId endpoint fileInfo)

/-- So it is of a file that the client described. -/
theorem submit_sends {client : ClientState} {line request : Bytes} {awaiting : Awaiting}
    (regular : RegularDisk client.disk)
    (sent : (client.submit setting.sha1 (setting.myId i) (setting.endpoint i) line).2 =
      some (request, awaiting)) : setting.Sends i request := by
  intro transaction parsing groupId endpoint fileInfo uploads
  obtain ⟨group, own, path, content, _, isWord, described⟩ :=
    submit_uploads regular sent transaction parsing groupId endpoint fileInfo uploads
  exact ⟨group, own, basename path, content, isWord, described⟩

end Requests

/-! ## What a request does to the lists -/

/-- The request uploads a file to a group, on behalf of one of its members. -/
def Tracker.Accepts (platform : Platform) (tracker : Tracker) (request groupId : Bytes)
    (endpoint : Endpoint) (fileInfo : FileInfo) (view : GroupView) : Prop :=
  ∃ transaction ∈ parseRequest platform (request.drop 1),
    command platform transaction = .group groupId (.upload endpoint fileInfo) ∧
      tracker.directory.groups groupId = some view ∧
        tracker.directory.Admits transaction.origin view

section Lists

variable {platform : Platform} {config : Config} {tracker : Tracker} {request groupId : Bytes}
  {endpoint : Endpoint} {fileInfo : FileInfo} {view : GroupView}

/-- A request that is no accepted upload leaves the lists alone. -/
theorem lists_of_refused (valid : tracker.Valid) (network : Network)
    (refused : ∀ groupId endpoint fileInfo view,
      ¬tracker.Accepts platform request groupId endpoint fileInfo view) (other : Bytes)
    (entry : Entry) :
    (processData platform config tracker network request).tracker.directory.Lists other entry ↔
      tracker.directory.Lists other entry := by
  cases request with
  | nil => exact Iff.rfl
  | cons flag data =>
      rw [processData_directory]
      cases parsing : parseRequest platform data with
      | none =>
          simp only [handled, parsing]
      | some transaction =>
          rcases handled_effect valid parsing with ⟨picked, success, effect⟩
          apply effect.lists_iff
          intro groupId endpoint fileInfo uploads view found admitted
          exact refused groupId endpoint fileInfo view
            ⟨transaction, parsing, uploads, found, admitted⟩

/-- An accepted upload adds a seeder to the content, or the file to the group. -/
theorem lists_of_accepted (valid : tracker.Valid) (network : Network)
    (accepts : tracker.Accepts platform request groupId endpoint fileInfo view) (entry : Entry) :
    ((processData platform config tracker network request).tracker.directory.Lists groupId entry ↔
      if view.HasContent fileInfo.hash then entry ∈ (view.reseed fileInfo.hash endpoint).files
      else entry = (fileInfo, {endpoint}) ∨ entry ∈ view.files) ∧
    ∀ other ≠ groupId,
      ((processData platform config tracker network request).tracker.directory.Lists other entry ↔
        tracker.directory.Lists other entry) := by
  rcases accepts with ⟨transaction, parsing, uploads, found, admitted⟩
  cases request with
  | nil =>
      have name : [] = ascii "upload_file" := (parsed_upload parsing uploads).1
      exact absurd name (by decide)
  | cons flag data =>
      have parsing : parseRequest platform data = some transaction := parsing
      have directory_eq := congrArg Prod.snd (handle_exec platform valid transaction)
      simp only at directory_eq
      rw [processData_directory, handled, parsing]
      simp only
      rw [directory_eq, uploads]
      exact Directory.lists_of_upload found admitted

/-- What is listed behind an accepted upload: older files, those of the same content with
the new seeder, and the new file if there are none. -/
theorem listed_of_accepted (valid : tracker.Valid) (network : Network)
    (accepts : tracker.Accepts platform request groupId endpoint fileInfo view) {entry : Entry}
    (lists : (processData platform config tracker network request).tracker.directory.Lists groupId
      entry) :
    (∃ old ∈ view.files, entry.1 = old.1 ∧
        (entry.2 = old.2 ∨ entry.2 = insert endpoint old.2 ∧ old.1.hash = fileInfo.hash)) ∨
      ¬view.HasContent fileInfo.hash ∧ entry = (fileInfo, {endpoint}) := by
  rw [(lists_of_accepted valid network accepts entry).1] at lists
  split at lists
  · left
    rcases GroupView.mem_reseed.mp lists with ⟨old, member, rfl⟩
    by_cases same : old.1.hash = fileInfo.hash
    · simp only [if_pos same]
      exact ⟨old, member, rfl, Or.inr ⟨rfl, same⟩⟩
    · simp only [if_neg same]
      exact ⟨old, member, rfl, Or.inl rfl⟩
  · next fresh =>
      rcases lists with rfl | old
      · exact Or.inr ⟨fresh, rfl⟩
      · exact Or.inl ⟨entry, old, rfl, Or.inl rfl⟩

/-- The client is listed as a seeder under each of the names. -/
theorem named_of_accepted (valid : tracker.Valid) (network : Network)
    (accepts : tracker.Accepts platform request groupId endpoint fileInfo view) {name : Bytes}
    (names : view.Names fileInfo name) :
    ∃ entry, (processData platform config tracker network request).tracker.directory.Lists groupId
        entry ∧
      entry.1.name = name ∧ entry.1.hash = fileInfo.hash ∧ endpoint ∈ entry.2 := by
  rcases names with ⟨old, member, same, named⟩ | ⟨fresh, rfl⟩
  · have known : view.HasContent fileInfo.hash := ⟨old, member, same⟩
    refine ⟨(old.1, insert endpoint old.2), ?_, named, same, Finset.mem_insert_self _ _⟩
    rw [(lists_of_accepted valid network accepts _).1, if_pos known]
    exact GroupView.mem_reseed.mpr ⟨old, member, if_pos same⟩
  · refine ⟨(fileInfo, {endpoint}), ?_, rfl, rfl, Finset.mem_singleton_self endpoint⟩
    rw [(lists_of_accepted valid network accepts _).1, if_neg fresh]
    exact Or.inl rfl

end Lists

end P2PFileShare
