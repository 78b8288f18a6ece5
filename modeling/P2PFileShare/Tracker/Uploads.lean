import P2PFileShare.Container.FirstWins
import P2PFileShare.Tracker.Runs

/-!
# The catalogue is the history of uploads

The files of a group change through uploads by its members and through nothing else.  So
they are the catalogue of the uploads that were accepted: one file for each content, as
the first upload described it, with all the endpoints that came with this content.
-/

namespace P2PFileShare

open Container Text Transition

/-- The files of a group, if it exists. -/
def Tracker.filesOf (tracker : Tracker) (groupId : Bytes) : List File :=
  match tracker.group? groupId with
  | some group => group.files
  | none => []

instance (tracker : Tracker) (groupId : Bytes) (origin : EndpointID) :
    Decidable (tracker.MemberAt groupId origin) :=
  decidable_of_iff
    (∃ user ∈ tracker.session? origin, ∃ group ∈ tracker.group? groupId,
      group.hasMember user = true)
    ⟨fun ⟨user, session, group, found, member⟩ => ⟨user, group, session, found, member⟩,
      fun ⟨user, group, session, found, member⟩ => ⟨user, session, group, found, member⟩⟩

/-- The upload that a message makes to a group, if its arguments are decoded and its origin
is logged in as a member. -/
def Tracker.acceptedUpload (platform : Platform) (tracker : Tracker) (groupId : Bytes)
    (message : Network × Bytes) : Option (Endpoint × FileInfo) :=
  match parseRequest platform (message.2.drop 1) with
  | none => none
  | some transaction =>
      match command platform transaction with
      | .group named (.upload endpoint fileInfo) =>
          if named = groupId ∧ tracker.MemberAt groupId transaction.origin then
            some (endpoint, fileInfo)
          else none
      | _ => none

/-- The accepted uploads of a run to a group. -/
def acceptedUploads (platform : Platform) (config : Config) (groupId : Bytes) :
    Tracker → List (Network × Bytes) → List (Endpoint × FileInfo)
  | _, [] => []
  | tracker, message :: messages =>
      (tracker.acceptedUpload platform groupId message).toList ++
        acceptedUploads platform config groupId
          (processData platform config tracker message.1 message.2).tracker messages

/-! ## What changes a list of files -/

/-- Only uploads by members change the files of a group. -/
theorem GroupCommand.Effect.files_iff {picked : Option User} {user : User}
    {command : GroupCommand} {success : Bool} {view after : Option GroupView} {entry : Entry}
    (effect : Effect picked user command view success after)
    (quiet : ∀ endpoint fileInfo, command = .upload endpoint fileInfo →
      ∀ held ∈ view, ¬held.HasMember user) :
    (∃ held ∈ after, entry ∈ held.files) ↔ ∃ held ∈ view, entry ∈ held.files := by
  cases effect with
  | idle => exact Iff.rfl
  | create => simp
  | join => simp
  | leave => simp
  | accept => simp
  | upload endpoint member => exact absurd member (quiet _ _ rfl _ rfl)
  | reseed endpoint member => exact absurd member (quiet _ _ rfl _ rfl)
  | download => exact Iff.rfl

namespace Directory

variable {picked : Option User} {directory after : Directory} {origin : EndpointID}
  {command : Command} {success : Bool} {groupId : Bytes} {entry : Entry}

/-- The group lists the file, with these seeders. -/
def Lists (directory : Directory) (groupId : Bytes) (entry : Entry) : Prop :=
  ∃ view ∈ directory.groups groupId, entry ∈ view.files

/-- Only uploads by members change what is listed. -/
theorem Effect.lists_iff (effect : Effect picked directory origin command success after)
    (quiet : ∀ groupId endpoint fileInfo, command = .group groupId (.upload endpoint fileInfo) →
      ∀ view ∈ directory.groups groupId, ¬directory.Admits origin view) :
    after.Lists groupId entry ↔ directory.Lists groupId entry := by
  cases effect with
  | @group other groupCommand user _ view session step =>
      by_cases same : groupId = other
      · subst same
        simp only [Lists, Function.update_self]
        apply step.files_iff
        rintro endpoint fileInfo rfl held found member
        exact quiet _ _ _ rfl held found ⟨user, session, member⟩
      · simp only [Lists, Function.update_of_ne same]
  | _ => exact Iff.rfl

/-- What an upload by a member adds to the list. -/
theorem lists_of_upload {endpoint : Endpoint} {fileInfo : FileInfo} {view : GroupView}
    (found : directory.groups groupId = some view) (admitted : directory.Admits origin view) :
    ((directory.exec picked origin (.group groupId (.upload endpoint fileInfo))).2.Lists groupId
        entry ↔
      if view.HasContent fileInfo.hash then entry ∈ (view.reseed fileInfo.hash endpoint).files
      else entry = (fileInfo, {endpoint}) ∨ entry ∈ view.files) ∧
    ∀ other ≠ groupId,
      ((directory.exec picked origin (.group groupId (.upload endpoint fileInfo))).2.Lists other
          entry ↔ directory.Lists other entry) := by
  rcases admitted with ⟨user, session, member⟩
  simp only [Lists, exec, Option.mem_def.mp session, found, GroupCommand.exec, if_pos member]
  constructor
  · split
    · simp [Function.update_self]
    · simp [Function.update_self]
  · intro other distinct
    split
    · simp [Function.update_of_ne distinct]
    · simp [Function.update_of_ne distinct]

/-- The files of a group, if it exists. -/
def files (directory : Directory) (groupId : Bytes) : Finset Entry :=
  match directory.groups groupId with
  | some view => view.files
  | none => ∅

theorem mem_files : entry ∈ directory.files groupId ↔ directory.Lists groupId entry := by
  simp only [files, Lists]
  cases directory.groups groupId with
  | none => simp
  | some view => simp

/-- The upload that a command makes to a group, if it comes from a member. -/
def accepted (directory : Directory) (origin : EndpointID) (groupId : Bytes) :
    Command → Option (Endpoint × FileInfo)
  | .group named (.upload endpoint fileInfo) =>
      if named = groupId ∧ ∃ view ∈ directory.groups groupId, directory.Admits origin view then
        some (endpoint, fileInfo)
      else none
  | _ => none

/-- An accepted upload brings a file or a seeder into its group. -/
theorem files_of_upload {endpoint : Endpoint} {fileInfo : FileInfo} {view : GroupView}
    (found : directory.groups groupId = some view) (admitted : directory.Admits origin view) :
    (directory.exec picked origin (.group groupId (.upload endpoint fileInfo))).2.files groupId =
      if view.HasContent fileInfo.hash then (view.reseed fileInfo.hash endpoint).files
      else insert (fileInfo, {endpoint}) view.files := by
  ext entry
  rw [mem_files, (lists_of_upload found admitted).1]
  split
  · rfl
  · exact Finset.mem_insert.symm

/-- A step keeps the catalogue of the accepted uploads. -/
theorem Step.catalogues {source target : Directory} {event : Event}
    {uploads : List (Endpoint × FileInfo)} (step : source.Step event target)
    (catalogues : Catalogues FileInfo.hash (source.files groupId) uploads) :
    Catalogues FileInfo.hash (target.files groupId)
      (uploads ++ (source.accepted event.origin groupId event.command).toList) := by
  have before_eq := step.1
  rcases step with ⟨_, _, picked, _, executed⟩
  have target_eq := congrArg Prod.snd executed
  by_cases uploading : ∃ named endpoint fileInfo,
      event.command = .group named (.upload endpoint fileInfo) ∧
        ∃ view ∈ source.groups named, source.Admits event.origin view
  · obtain ⟨named, endpoint, fileInfo, command_eq, view, found, admitted⟩ := uploading
    rw [command_eq] at target_eq ⊢
    subst target_eq
    by_cases same : named = groupId
    · subst same
      have files_eq : source.files named = view.files := by
        simp only [files, Option.mem_def.mp found]
      have counts : named = named ∧ ∃ view ∈ source.groups named,
          source.Admits event.origin view :=
        ⟨rfl, view, found, admitted⟩
      rw [files_eq] at catalogues
      rw [files_of_upload found admitted, accepted, if_pos counts, Option.toList_some]
      split
      · next known => exact catalogues.add_tag endpoint known
      · next fresh => exact catalogues.insert_record endpoint fresh
    · have files_eq : (source.exec picked event.origin
          (.group named (.upload endpoint fileInfo))).2.files groupId = source.files groupId := by
        ext entry
        rw [mem_files, mem_files, (lists_of_upload found admitted).2 groupId (Ne.symm same)]
      rw [files_eq, accepted, if_neg (fun counts => same counts.1), Option.toList_none,
        List.append_nil]
      exact catalogues
  · have effect := exec_effect picked source event.origin event.command
    rw [target_eq] at effect
    have files_eq : target.files groupId = source.files groupId := by
      ext entry
      rw [mem_files, mem_files]
      apply effect.lists_iff
      intro named endpoint fileInfo command_eq view found admitted
      exact uploading ⟨named, endpoint, fileInfo, command_eq, view, found, admitted⟩
    have none_accepted : source.accepted event.origin groupId event.command = none := by
      rw [accepted.eq_def]
      split
      · next named endpoint fileInfo command_eq =>
          apply if_neg
          rintro ⟨rfl, view, found, admitted⟩
          exact uploading ⟨named, endpoint, fileInfo, command_eq, view, found, admitted⟩
      · rfl
    rw [files_eq, none_accepted, Option.toList_none, List.append_nil]
    exact catalogues

end Directory

/-! ## Runs -/

section Runs

variable {platform : Platform} {config : Config} {source target tracker : Tracker}
  {groupId : Bytes} {uploads : List (Endpoint × FileInfo)}

theorem memberAt_directory (tracker : Tracker) (origin : EndpointID) :
    tracker.MemberAt groupId origin ↔
      ∃ view ∈ tracker.directory.groups groupId, tracker.directory.Admits origin view := by
  constructor
  · rintro ⟨user, group, session, found, member⟩
    exact ⟨group.view, Tracker.directory_groups_eq found, user, session,
      (group.hasMember_iff user).mp member⟩
  · rintro ⟨_, viewed, user, session, member⟩
    obtain ⟨group, found, rfl⟩ := Option.map_eq_some_iff.mp viewed
    exact ⟨user, group, session, found, (group.hasMember_iff user).mpr member⟩

/-- A message keeps the catalogue of the accepted uploads. -/
theorem Tracker.Receives.catalogues {message : Network × Bytes}
    (receives : source.Receives platform config message target) (valid : source.Valid)
    (catalogues : Catalogues FileInfo.hash (source.directory.files groupId) uploads) :
    Catalogues FileInfo.hash (target.directory.files groupId)
      (uploads ++ (source.acceptedUpload platform groupId message).toList) := by
  unfold acceptedUpload
  cases parsing : parseRequest platform (message.2.drop 1) with
  | none =>
      rw [receives.unchanged valid parsing]
      simpa using catalogues
  | some transaction =>
      obtain ⟨event, origin_eq, command_eq, step⟩ := receives.step valid parsing
      have after := step.catalogues catalogues
      simp only [origin_eq, command_eq, Directory.accepted, ← memberAt_directory] at after
      exact after

theorem acceptedUploads_append (before after : List (Network × Bytes)) :
    acceptedUploads platform config groupId tracker (before ++ after) =
      acceptedUploads platform config groupId tracker before ++
        acceptedUploads platform config groupId (serveOn platform config tracker before) after := by
  induction before generalizing tracker with
  | nil => rfl
  | cons message before ih =>
      rw [List.cons_append, acceptedUploads, acceptedUploads, ih, List.append_assoc]
      rfl

theorem catalogues_serveOn (messages : List (Network × Bytes)) (valid : tracker.Valid)
    (catalogues : Catalogues FileInfo.hash (tracker.directory.files groupId) uploads) :
    (serveOn platform config tracker messages).Valid ∧
      Catalogues FileInfo.hash ((serveOn platform config tracker messages).directory.files groupId)
        (uploads ++ acceptedUploads platform config groupId tracker messages) := by
  induction messages generalizing tracker uploads with
  | nil =>
      rw [acceptedUploads, List.append_nil]
      exact ⟨valid, catalogues⟩
  | cons message messages ih =>
      have receives : tracker.Receives platform config message
          (processData platform config tracker message.1 message.2).tracker := rfl
      rw [acceptedUploads, ← List.append_assoc]
      exact ih (receives.valid valid) (receives.catalogues valid catalogues)

theorem files_directory (tracker : Tracker) (groupId : Bytes) :
    tracker.directory.files groupId = ((tracker.filesOf groupId).map File.entry).toFinset := by
  simp only [Directory.files, Tracker.filesOf]
  cases found : tracker.group? groupId with
  | none =>
      rw [Tracker.directory_groups_none found]
      rfl
  | some group =>
      rw [Tracker.directory_groups_eq found]
      rfl

theorem Tracker.Valid.filesOf_nodup (valid : tracker.Valid) (groupId : Bytes) :
    ((tracker.filesOf groupId).map fun file => file.fileInfo.hash).Nodup := by
  rw [Tracker.filesOf]
  split
  · next group found => exact (valid groupId group found).files_nodup
  · exact List.nodup_nil

theorem mem_files_entry {file : File} (member : file ∈ tracker.filesOf groupId) :
    file.entry ∈ tracker.directory.files groupId := by
  rw [files_directory]
  exact List.mem_toFinset.mpr (List.mem_map_of_mem member)

theorem exists_file_of_entry {entry : Entry} (member : entry ∈ tracker.directory.files groupId) :
    ∃ file ∈ tracker.filesOf groupId, file.entry = entry := by
  rw [files_directory] at member
  exact List.mem_map.mp (List.mem_toFinset.mp member)

/-- A content is listed once if it was uploaded, and not at all if not. -/
theorem count_files (valid : tracker.Valid)
    (catalogues : Catalogues FileInfo.hash (tracker.directory.files groupId) uploads)
    (hash : Bytes) :
    ((tracker.filesOf groupId).map fun file => file.fileInfo.hash).count hash =
      if ∃ upload ∈ uploads, upload.2.hash = hash then 1 else 0 := by
  have listed : hash ∈ ((tracker.filesOf groupId).map fun file => file.fileInfo.hash) ↔
      ∃ upload ∈ uploads, upload.2.hash = hash := by
    rw [← firstOf_isSome_iff, ← catalogues.holds_iff, List.mem_map]
    constructor
    · rintro ⟨file, member, same⟩
      exact ⟨file.entry, mem_files_entry member, same⟩
    · rintro ⟨entry, member, same⟩
      obtain ⟨file, held, rfl⟩ := exists_file_of_entry member
      exact ⟨file, held, same⟩
  rw [(valid.filesOf_nodup groupId).count]
  exact if_congr listed rfl rfl

/-- The seeders of a file are the endpoints that came with its content. -/
theorem mem_seeders {file : File} (member : file ∈ tracker.filesOf groupId)
    (catalogues : Catalogues FileInfo.hash (tracker.directory.files groupId) uploads)
    (endpoint : Endpoint) :
    endpoint ∈ file.seeders ↔
      ∃ upload ∈ uploads, upload.2.hash = file.fileInfo.hash ∧ upload.1 = endpoint := by
  have seeds : endpoint ∈ file.seeders ↔ endpoint ∈ file.entry.2 := List.mem_toFinset.symm
  rw [seeds, ((catalogues file.entry).mp (mem_files_entry member)).2, mem_tagsOf]
  constructor
  · rintro ⟨fileInfo, logged, same⟩
    exact ⟨(endpoint, fileInfo), logged, same, rfl⟩
  · rintro ⟨upload, logged, same, rfl⟩
    exact ⟨upload.2, logged, same⟩

/-- The files of a group are the catalogue of the uploads to it that were accepted: one file
for every content, with the description of the first upload and the endpoints of all; and
they stay when more messages arrive. -/
theorem files_uploaded (platform : Platform) (config : Config) (groupId : Bytes)
    (messages : List (Network × Bytes)) :
    let files := (serveOn platform config .empty messages).filesOf groupId
    let uploads := acceptedUploads platform config groupId .empty messages
    (∀ hash, (files.map fun file => file.fileInfo.hash).count hash =
      if ∃ upload ∈ uploads, upload.2.hash = hash then 1 else 0) ∧
    (∀ file ∈ files, firstOf FileInfo.hash uploads file.fileInfo.hash = some file.fileInfo ∧
      ∀ endpoint, endpoint ∈ file.seeders ↔
        ∃ upload ∈ uploads, upload.2.hash = file.fileInfo.hash ∧ upload.1 = endpoint) ∧
    ∀ more, ∀ file ∈ files,
      ∃ later ∈ (serveOn platform config .empty (messages ++ more)).filesOf groupId,
        later.fileInfo = file.fileInfo ∧ ∀ endpoint ∈ file.seeders, endpoint ∈ later.seeders := by
  have started : Catalogues FileInfo.hash (Tracker.empty.directory.files groupId) [] :=
    catalogues_nil
  have reached (messages : List (Network × Bytes)) :
      (serveOn platform config .empty messages).Valid ∧
        Catalogues FileInfo.hash
          ((serveOn platform config .empty messages).directory.files groupId)
          ([] ++ acceptedUploads platform config groupId .empty messages) :=
    catalogues_serveOn messages Tracker.valid_empty started
  simp only [List.nil_append] at reached
  obtain ⟨valid, catalogues⟩ := reached messages
  refine ⟨count_files valid catalogues, ?_, ?_⟩
  · intro file member
    exact ⟨((catalogues file.entry).mp (mem_files_entry member)).1, mem_seeders member catalogues⟩
  · intro more file member
    have later := (reached (messages ++ more)).2
    rw [acceptedUploads_append] at later
    obtain ⟨entry, listed, info_eq, stays⟩ := catalogues.kept later (mem_files_entry member)
    obtain ⟨other, held, rfl⟩ := exists_file_of_entry listed
    refine ⟨other, held, info_eq, ?_⟩
    intro endpoint seeds
    exact List.mem_toFinset.mp (stays (List.mem_toFinset.mpr seeds))

/-- Three uploads of two contents. -/
example :
    (acceptedUploads .oldestFirst .alone (ascii "g") .empty
        (overReliable (uploadingMember ++ [49 :: uploadOfA] ++ laterUploads))).map
          (fun upload => (upload.1.ip, upload.2.name)) =
      [(ascii "1", ascii "a"), (ascii "2", ascii "a"), (ascii "2", ascii "b")] := by
  decide +kernel

end Runs

end P2PFileShare
