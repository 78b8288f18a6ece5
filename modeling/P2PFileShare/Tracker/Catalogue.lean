import P2PFileShare.Tracker.Failures
import P2PFileShare.Tracker.Replay

/-!
# Finding what was uploaded

An upload looks for a file of the same content, a download for one of a name.  The two
searches agree as long as every upload goes together with what the group holds: a file
there has the same name exactly if it has the same content, and then the same pieces.
-/

namespace P2PFileShare

open Container Text

namespace GroupView

/-- A name stands for one file. -/
def Unambiguous (view : GroupView) : Prop :=
  ∀ entry ∈ view.files, ∀ other ∈ view.files, entry.1.name = other.1.name → entry = other

/-- The group holds a file of this name with these pieces, and the endpoint seeds it. -/
def Offers (view : GroupView) (name : Bytes) (pieces : List Bytes) (endpoint : Endpoint) : Prop :=
  ∃ entry ∈ view.files, entry.1.name = name ∧ entry.1.pieces = pieces ∧ endpoint ∈ entry.2

/-- A description goes together with the files of a group. -/
def FitsIn (fileInfo : FileInfo) (view : GroupView) : Prop :=
  ∀ entry ∈ view.files, (entry.1.name = fileInfo.name ↔ entry.1.hash = fileInfo.hash) ∧
    (entry.1.hash = fileInfo.hash → entry.1.pieces = fileInfo.pieces)

instance (fileInfo : FileInfo) (view : GroupView) : Decidable (FitsIn fileInfo view) :=
  inferInstanceAs (Decidable (∀ entry ∈ view.files, _))

section Changes

variable {view : GroupView} {name : Bytes} {pieces : List Bytes} {endpoint : Endpoint}
  {fileInfo : FileInfo}

theorem mem_reseed {hash : Bytes} {entry : Entry} :
    entry ∈ (view.reseed hash endpoint).files ↔
      ∃ old ∈ view.files, (if old.1.hash = hash then (old.1, insert endpoint old.2) else old) =
        entry :=
  Finset.mem_image

/-- A new seeder of another file, or of the same one, withdraws no offer. -/
theorem Offers.reseed (offers : view.Offers name pieces endpoint) (hash : Bytes)
    (seeder : Endpoint) : (view.reseed hash seeder).Offers name pieces endpoint := by
  rcases offers with ⟨entry, member, named, made, seeds⟩
  by_cases same : entry.1.hash = hash
  · refine ⟨(entry.1, insert seeder entry.2), ?_, named, made, Finset.mem_insert_of_mem seeds⟩
    exact mem_reseed.mpr ⟨entry, member, if_pos same⟩
  · exact ⟨entry, mem_reseed.mpr ⟨entry, member, if_neg same⟩, named, made, seeds⟩

theorem Unambiguous.reseed (unambiguous : view.Unambiguous) (hash : Bytes) (seeder : Endpoint) :
    (view.reseed hash seeder).Unambiguous := by
  intro entry member other otherMember same
  rcases mem_reseed.mp member with ⟨old, oldMember, rfl⟩
  rcases mem_reseed.mp otherMember with ⟨otherOld, otherOldMember, rfl⟩
  have infoOf (entry : Entry) :
      (if entry.1.hash = hash then (entry.1, insert seeder entry.2) else entry).1 = entry.1 := by
    split <;> rfl
  rw [infoOf, infoOf] at same
  rw [unambiguous old oldMember otherOld otherOldMember same]

/-- An upload of known content offers what it describes. -/
theorem offers_of_reseed (fits : FitsIn fileInfo view) (known : view.HasContent fileInfo.hash)
    (endpoint : Endpoint) :
    (view.reseed fileInfo.hash endpoint).Offers fileInfo.name fileInfo.pieces endpoint := by
  rcases known with ⟨entry, member, same⟩
  rcases fits entry member with ⟨names, pieces⟩
  refine ⟨(entry.1, insert endpoint entry.2), ?_, names.mpr same, pieces same,
    Finset.mem_insert_self _ _⟩
  exact mem_reseed.mpr ⟨entry, member, if_pos same⟩

/-- New content gets a name that no other file has. -/
theorem Unambiguous.insert (unambiguous : view.Unambiguous) (fits : FitsIn fileInfo view)
    (fresh : ¬view.HasContent fileInfo.hash) (seeders : Finset Endpoint) :
    Unambiguous { view with files := insert (fileInfo, seeders) view.files } := by
  have unused : ∀ entry ∈ view.files, entry.1.name ≠ fileInfo.name := by
    intro entry member same
    exact fresh ⟨entry, member, (fits entry member).1.mp same⟩
  intro entry member other otherMember same
  rcases Finset.mem_insert.mp member with rfl | old
  · rcases Finset.mem_insert.mp otherMember with rfl | otherOld
    · rfl
    · exact absurd same.symm (unused other otherOld)
  · rcases Finset.mem_insert.mp otherMember with rfl | otherOld
    · exact absurd same (unused entry old)
    · exact unambiguous entry old other otherOld same

end Changes

end GroupView

/-! ## What a command does to the catalogue -/

namespace GroupCommand

variable {picked : Option User} {user : User} {command : GroupCommand} {success : Bool}
  {view : GroupView} {after : Option GroupView}

/-- No command withdraws an offer. -/
theorem Effect.offers {name : Bytes} {pieces : List Bytes} {endpoint : Endpoint}
    (effect : Effect picked user command (some view) success after)
    (offers : view.Offers name pieces endpoint) :
    ∃ next, after = some next ∧ next.Offers name pieces endpoint := by
  cases effect with
  | idle => exact ⟨view, rfl, offers⟩
  | join => exact ⟨_, rfl, offers⟩
  | leave => exact ⟨_, rfl, offers⟩
  | accept => exact ⟨_, rfl, offers⟩
  | download => exact ⟨_, rfl, offers⟩
  | reseed seeder => exact ⟨_, rfl, offers.reseed _ seeder⟩
  | upload seeder =>
      rcases offers with ⟨entry, member, rest⟩
      exact ⟨_, rfl, entry, Finset.mem_insert_of_mem member, rest⟩

/-- Names stay unique if uploads fit. -/
theorem Effect.unambiguous {view : Option GroupView}
    (effect : Effect picked user command view success after)
    (fits : ∀ endpoint fileInfo, command = .upload endpoint fileInfo →
      ∀ held ∈ view, held.HasMember user → GroupView.FitsIn fileInfo held)
    (unambiguous : ∀ held ∈ view, held.Unambiguous) : ∀ next ∈ after, next.Unambiguous := by
  cases effect with
  | idle => exact unambiguous
  | create =>
      rintro next created entry member
      cases created
      exact absurd member (Finset.notMem_empty entry)
  | @join held outside =>
      have before : held.Unambiguous := unambiguous held rfl
      rintro next ⟨⟩
      exact before
  | @leave held member =>
      have before : held.Unambiguous := unambiguous held rfl
      rintro next ⟨⟩
      exact before
  | @accept held joiner =>
      have before : held.Unambiguous := unambiguous held rfl
      rintro next ⟨⟩
      exact before
  | download => exact unambiguous
  | reseed seeder =>
      rintro next ⟨⟩
      exact (unambiguous _ rfl).reseed _ seeder
  | upload seeder member fresh =>
      rintro next ⟨⟩
      exact (unambiguous _ rfl).insert (fits _ _ rfl _ rfl member) fresh _

end GroupCommand

namespace Directory

variable {picked : Option User} {directory after : Directory} {origin : EndpointID}
  {command : Command} {success : Bool}

/-- In every group, a name stands for one file. -/
def Unambiguous (directory : Directory) : Prop :=
  ∀ groupId, ∀ view ∈ directory.groups groupId, view.Unambiguous

/-- The group offers a file of this name with these pieces from this endpoint. -/
def Offers (directory : Directory) (groupId name : Bytes) (pieces : List Bytes)
    (endpoint : Endpoint) : Prop :=
  ∃ view ∈ directory.groups groupId, view.Offers name pieces endpoint

/-- If the command is an upload by a member, the description fits in the group. -/
def Fits (directory : Directory) (origin : EndpointID) : Command → Prop
  | .group groupId (.upload _ fileInfo) =>
      ∀ view ∈ directory.groups groupId, directory.Admits origin view →
        GroupView.FitsIn fileInfo view
  | _ => True

instance : (command : Command) → Decidable (directory.Fits origin command)
  | .group groupId (.upload _ fileInfo) =>
      inferInstanceAs (Decidable (∀ view ∈ directory.groups groupId,
        directory.Admits origin view → GroupView.FitsIn fileInfo view))
  | .group _ .create | .group _ .join | .group _ .leave | .group _ (.accept _)
  | .group _ (.download _) | .group _ .read | .createUser _ _ | .deleteUser _ | .login _ _
  | .logout | .read => isTrue trivial

theorem Effect.offers (effect : Effect picked directory origin command success after)
    {groupId name : Bytes} {pieces : List Bytes} {endpoint : Endpoint}
    (offers : directory.Offers groupId name pieces endpoint) :
    after.Offers groupId name pieces endpoint := by
  cases effect with
  | @group other _ _ _ _ session step =>
      rcases offers with ⟨view, found, offers⟩
      by_cases same : groupId = other
      · subst same
        rw [Option.mem_def.mp found] at step
        rcases step.offers offers with ⟨next, rfl, kept⟩
        exact ⟨next, Function.update_self _ _ _, kept⟩
      · exact ⟨view, (Function.update_of_ne same _ _).trans found, offers⟩
  | _ => exact offers

theorem Effect.unambiguous (effect : Effect picked directory origin command success after)
    (fits : directory.Fits origin command) (unambiguous : directory.Unambiguous) :
    after.Unambiguous := by
  cases effect with
  | @group other groupCommand user _ view session step =>
      have fitsIn : ∀ endpoint fileInfo, groupCommand = .upload endpoint fileInfo →
          ∀ held ∈ directory.groups other, held.HasMember user →
            GroupView.FitsIn fileInfo held := by
        rintro endpoint fileInfo rfl held found member
        exact fits held found ⟨user, session, member⟩
      intro groupId held found
      by_cases same : groupId = other
      · subst same
        simp only [Function.update_self] at found
        exact step.unambiguous fitsIn (unambiguous groupId) held found
      · simp only [Function.update_of_ne same] at found
        exact unambiguous groupId held found
  | _ => exact unambiguous

/-- An upload by a member offers what it describes. -/
theorem exec_upload_offers {groupId : Bytes} {endpoint : Endpoint} {fileInfo : FileInfo}
    (fits : directory.Fits origin (.group groupId (.upload endpoint fileInfo)))
    {view : GroupView} (found : directory.groups groupId = some view)
    (admitted : directory.Admits origin view) :
    (directory.exec picked origin (.group groupId (.upload endpoint fileInfo))).2.Offers groupId
      fileInfo.name fileInfo.pieces endpoint := by
  have fitsIn := fits view found admitted
  rcases admitted with ⟨user, session, member⟩
  simp only [exec, Option.mem_def.mp session, found, GroupCommand.exec, if_pos member]
  by_cases known : view.HasContent fileInfo.hash
  · rw [if_pos known]
    exact ⟨_, Function.update_self _ _ _, GroupView.offers_of_reseed fitsIn known endpoint⟩
  · rw [if_neg known]
    exact ⟨_, Function.update_self _ _ _, (fileInfo, {endpoint}), Finset.mem_insert_self _ _, rfl,
      rfl, Finset.mem_singleton_self endpoint⟩

end Directory

/-! ## Runs of a tracker -/

/-- A tracker handles messages one after another, each on its own network. -/
def serveOn (platform : Platform) (config : Config) : Tracker → List (Network × Bytes) → Tracker
  | tracker, [] => tracker
  | tracker, (network, message) :: messages =>
      serveOn platform config (processData platform config tracker network message).tracker
        messages

/-- Every upload of a run by a member of the group fits in the group. -/
def FittingRun (platform : Platform) (config : Config) :
    Tracker → List (Network × Bytes) → Prop
  | _, [] => True
  | tracker, (network, message) :: messages =>
      (∀ transaction ∈ parseRequest platform (message.drop 1),
        tracker.directory.Fits transaction.origin (command platform transaction)) ∧
      FittingRun platform config (processData platform config tracker network message).tracker
        messages

section Runs

variable {platform : Platform} {config : Config} {tracker : Tracker}

/-- The directory behind a message is that behind its command. -/
theorem processData_directory (config : Config) (network : Network) (flag : UInt8) (data : Bytes) :
    (processData platform config tracker network (flag :: data)).tracker.directory =
      (handled platform tracker data).directory := by
  rcases processData_after config network flag with ⟨log, after, _⟩
  rw [after]
  rfl

theorem processData_valid (valid : tracker.Valid) (config : Config) (network : Network)
    (message : Bytes) : (processData platform config tracker network message).tracker.Valid := by
  cases message with
  | nil => exact valid
  | cons flag data =>
      rcases processData_after config network flag with ⟨log, after, _⟩
      rw [after]
      exact handled_valid platform valid data

/-- What a parsed message does to the directory is the effect of its command. -/
theorem handled_effect (valid : tracker.Valid) {data : Bytes} {transaction : Transaction}
    (parsing : parseRequest platform data = some transaction) :
    ∃ picked success, Directory.Effect picked tracker.directory transaction.origin
      (command platform transaction) success (handled platform tracker data).directory := by
  have exec := handle_exec platform valid transaction
  have effect := Directory.exec_effect (tracker.picked platform (command platform transaction))
    tracker.directory transaction.origin (command platform transaction)
  rw [← exec] at effect
  simp only [handled, parsing]
  exact ⟨_, _, effect⟩

/-- Names stay unique along a run whose uploads fit. -/
theorem unambiguous_serveOn {messages : List (Network × Bytes)}
    (fitting : FittingRun platform config tracker messages) (valid : tracker.Valid)
    (unambiguous : tracker.directory.Unambiguous) :
    (serveOn platform config tracker messages).Valid ∧
      (serveOn platform config tracker messages).directory.Unambiguous := by
  induction messages generalizing tracker with
  | nil => exact ⟨valid, unambiguous⟩
  | cons message messages ih =>
      rcases message with ⟨network, message⟩
      rcases fitting with ⟨first, others⟩
      apply ih others (processData_valid valid config network message)
      cases message with
      | nil => exact unambiguous
      | cons flag data =>
          rw [processData_directory]
          cases parsing : parseRequest platform data with
          | none =>
              simp only [handled, parsing]
              exact unambiguous
          | some transaction =>
              rcases handled_effect valid parsing with ⟨picked, success, effect⟩
              exact effect.unambiguous (first transaction parsing) unambiguous

/-- And what is offered once stays offered along every run. -/
theorem offers_serveOn {messages : List (Network × Bytes)} (valid : tracker.Valid)
    {groupId name : Bytes} {pieces : List Bytes} {endpoint : Endpoint}
    (offers : tracker.directory.Offers groupId name pieces endpoint) :
    (serveOn platform config tracker messages).directory.Offers groupId name pieces endpoint := by
  induction messages generalizing tracker with
  | nil => exact offers
  | cons message messages ih =>
      rcases message with ⟨network, message⟩
      apply ih (processData_valid valid config network message)
      cases message with
      | nil => exact offers
      | cons flag data =>
          rw [processData_directory]
          cases parsing : parseRequest platform data with
          | none =>
              simp only [handled, parsing]
              exact offers
          | some transaction =>
              rcases handled_effect valid parsing with ⟨picked, success, effect⟩
              exact effect.offers offers

theorem serveOn_append (before after : List (Network × Bytes)) :
    serveOn platform config tracker (before ++ after) =
      serveOn platform config (serveOn platform config tracker before) after := by
  induction before generalizing tracker with
  | nil => rfl
  | cons message before ih => exact ih

theorem fittingRun_append {before after : List (Network × Bytes)} :
    FittingRun platform config tracker (before ++ after) ↔
      FittingRun platform config tracker before ∧
        FittingRun platform config (serveOn platform config tracker before) after := by
  induction before generalizing tracker with
  | nil => exact (and_iff_right trivial).symm
  | cons message before ih =>
      simp only [List.cons_append, FittingRun, serveOn, ih, and_assoc]

end Runs

/-! ## Answers -/

section Answers

variable {platform : Platform} {tracker : Tracker} {transaction : Transaction} {groupId : Bytes}

/-- Only uploads are decoded to uploads, and only downloads to downloads. -/
theorem request_of_upload {endpoint : Endpoint} {fileInfo : FileInfo}
    (uploads : command platform transaction = .group groupId (.upload endpoint fileInfo)) :
    transaction.request = .file .upload ∧
      (requestHead platform transaction.data).2.2.extractWord.1 = groupId ∧
      decodeUpload platform (requestHead platform transaction.data).2.2.extractWord.2 =
        .ok (endpoint, fileInfo) := by
  rcases transaction with ⟨origin, request, data, outcome⟩
  cases request with
  | user request => cases request <;> cases uploads
  | group request => cases request <;> cases uploads
  | tracker request => cases uploads
  | file request =>
      cases request with
      | list => cases uploads
      | download => cases uploads
      | upload =>
          simp only [command, fileCommand] at uploads
          split at uploads
          · next decoded =>
              cases uploads
              exact ⟨rfl, rfl, decoded⟩
          · cases uploads

theorem request_of_download {fileName : Bytes}
    (downloads : command platform transaction = .group groupId (.download fileName)) :
    transaction.request = .file .download ∧
      (requestHead platform transaction.data).2.2.extractWord.1 = groupId ∧
      (requestHead platform transaction.data).2.2.extractWord.2.extractWord.1 = fileName := by
  rcases transaction with ⟨origin, request, data, outcome⟩
  cases request with
  | user request => cases request <;> cases downloads
  | group request => cases request <;> cases downloads
  | tracker request => cases downloads
  | file request =>
      cases request with
      | list => cases downloads
      | download =>
          cases downloads
          exact ⟨rfl, rfl, rfl⟩
      | upload =>
          simp only [command, fileCommand] at downloads
          split at downloads <;> cases downloads

/-- An upload is answered as accepted to members only. -/
theorem admits_of_accepted {origin : EndpointID} {stream : Stream} {result : Result}
    (answer : (processFileRequest platform tracker origin .upload stream).1 = .ok result)
    (accepted : result.message = ascii "File uploaded\n" ∨
      result.message = ascii "File already exists. Added you as a seeder\n") :
    ∃ view, tracker.directory.groups stream.extractWord.1 = some view ∧
      tracker.directory.Admits origin view := by
  simp only [processFileRequest] at answer
  cases session : tracker.session? origin with
  | none =>
      rw [session] at answer
      cases answer
      exact absurd accepted (by decide)
  | some user =>
      rw [session] at answer
      cases found : tracker.group? stream.extractWord.1 with
      | none =>
          rw [found] at answer
          cases answer
          exact absurd accepted (by decide)
      | some group =>
          cases member : group.hasMember user with
          | true =>
              exact ⟨group.view, tracker.directory_groups_eq found, user, session,
                (group.hasMember_iff user).mp member⟩
          | false =>
              simp only [found, member] at answer
              cases answer
              exact absurd accepted (by decide)

/-- A download by a member finds a file that is offered under the name, if names are
unique. -/
theorem processFileRequest_download {origin : EndpointID} {stream : Stream}
    (unambiguous : tracker.directory.Unambiguous) {view : GroupView}
    (found : tracker.directory.groups stream.extractWord.1 = some view)
    (admitted : tracker.directory.Admits origin view) {pieces : List Bytes} {endpoint : Endpoint}
    (offers : view.Offers stream.extractWord.2.extractWord.1 pieces endpoint) :
    ∃ file : File, (processFileRequest platform tracker origin .download stream).1 =
        .ok { success := true,
              message := ascii "1 " ++ file.toString platform ++ ascii "\n" } ∧
      file.fileInfo.name = stream.extractWord.2.extractWord.1 ∧
      file.fileInfo.pieces = pieces ∧ endpoint ∈ file.seeders := by
  rcases Option.map_eq_some_iff.mp found with ⟨group, foundGroup, rfl⟩
  rcases admitted with ⟨user, session, member⟩
  rcases offers with ⟨entry, offered, entryName, entryPieces, seeds⟩
  have search := (find_name_isSome platform group stream.extractWord.1
    stream.extractWord.2.extractWord.1).mpr ⟨entry, offered, entryName⟩
  rcases Option.isSome_iff_exists.mp search with ⟨⟨place, file⟩, searched⟩
  have inFiles :=
    List.mem_of_getElem? (platform.mem_objects.mp (List.mem_of_find?_eq_some searched))
  have chosen := List.find?_some searched
  have fileName : file.fileInfo.name = stream.extractWord.2.extractWord.1 :=
    of_decide_eq_true chosen
  have listed : file.entry ∈ group.view.files :=
    List.mem_toFinset.mpr (List.mem_map_of_mem inFiles)
  have same : file.entry = entry :=
    unambiguous _ group.view (tracker.directory_groups_eq foundGroup) _ listed _ offered
      (fileName.trans entryName.symm)
  refine ⟨file, ?_, fileName, ?_, ?_⟩
  · have isMember := (group.hasMember_iff user).mpr member
    have session : tracker.session? origin = some user := session
    simp only [processFileRequest, session, foundGroup, isMember, Bool.not_true,
      Bool.false_eq_true, if_false, searched]
  · rw [← entryPieces, ← same]
    rfl
  · rw [← same] at seeds
    exact List.mem_toFinset.mp seeds

end Answers

/-- A client uploads a file to a group and is told that it was accepted. -/
def Uploads (platform : Platform) (config : Config) (tracker : Tracker) (network : Network)
    (data groupId : Bytes) (endpoint : Endpoint) (fileInfo : FileInfo) : Prop :=
  ∃ transaction ∈ parseRequest platform data,
    command platform transaction = .group groupId (.upload endpoint fileInfo) ∧
      ∃ message ∈ [ascii "File uploaded\n", ascii "File already exists. Added you as a seeder\n"],
        (processData platform config tracker network (49 :: data)).sent = [message]

/-- A member of a group asks for a file. -/
def Downloads (platform : Platform) (tracker : Tracker) (data groupId fileName : Bytes) : Prop :=
  ∃ transaction ∈ parseRequest platform data,
    command platform transaction = .group groupId (.download fileName) ∧
      ∃ view ∈ tracker.directory.groups groupId,
        tracker.directory.Admits transaction.origin view

/-- An accepted upload that fits is offered afterwards. -/
theorem Uploads.offers {platform : Platform} {config : Config} {tracker : Tracker}
    {network : Network} {data groupId : Bytes} {endpoint : Endpoint} {fileInfo : FileInfo}
    (uploads : Uploads platform config tracker network data groupId endpoint fileInfo)
    (valid : tracker.Valid)
    (fits : ∀ transaction ∈ parseRequest platform data,
      tracker.directory.Fits transaction.origin (command platform transaction)) :
    (processData platform config tracker network (49 :: data)).tracker.directory.Offers groupId
      fileInfo.name fileInfo.pieces endpoint := by
  rcases uploads with ⟨transaction, parsing, uploads, message, accepted, sent⟩
  have fits := fits transaction parsing
  have parsing := Option.mem_def.mp parsing
  rcases request_of_upload uploads with ⟨request, group_eq, _⟩
  have notSync : transaction.request ≠ .tracker .sync := by
    rw [request]
    exact Request.noConfusion
  rcases (processData_sent parsing notSync config network message).mp sent with
    ⟨_, result, answer, rfl⟩
  have told : result.message = ascii "File uploaded\n" ∨
      result.message = ascii "File already exists. Added you as a seeder\n" := by
    simpa using accepted
  have admitted : ∃ view, tracker.directory.groups groupId = some view ∧
      tracker.directory.Admits transaction.origin view := by
    rcases transaction with ⟨origin, _, text, outcome⟩
    subst request group_eq
    exact admits_of_accepted answer told
  rcases admitted with ⟨view, found, admits⟩
  have directory_eq := congrArg Prod.snd (handle_exec platform valid transaction)
  simp only at directory_eq
  rw [processData_directory, handled, parsing]
  simp only
  rw [directory_eq]
  rw [uploads] at fits ⊢
  exact Directory.exec_upload_offers fits found admits

/-- What was uploaded is what is found, in every run whose uploads fit. -/
theorem download_finds (platform : Platform) (config : Config)
    (before after : List (Network × Bytes)) (network reply : Network) (upload download : Bytes)
    (groupId : Bytes) (endpoint : Endpoint) (fileInfo : FileInfo)
    (fitting : FittingRun platform config .empty (before ++ (network, 49 :: upload) :: after))
    (uploads : Uploads platform config (serveOn platform config .empty before) network upload
      groupId endpoint fileInfo)
    (downloads : Downloads platform
      (serveOn platform config .empty (before ++ (network, 49 :: upload) :: after)) download
      groupId fileInfo.name)
    (delivered : reply 0 = none) :
    ∃ file : File,
      (processData platform config
          (serveOn platform config .empty (before ++ (network, 49 :: upload) :: after)) reply
          (49 :: download)).sent = [ascii "1 " ++ file.toString platform ++ ascii "\n"] ∧
        file.fileInfo.name = fileInfo.name ∧ file.fileInfo.pieces = fileInfo.pieces ∧
        endpoint ∈ file.seeders := by
  have emptyUnambiguous : Tracker.empty.directory.Unambiguous := by
    intro group view found
    cases found
  rcases unambiguous_serveOn fitting Tracker.valid_empty emptyUnambiguous with ⟨_, unambiguous⟩
  rcases fittingRun_append.mp fitting with ⟨fittingBefore, fits, _⟩
  rcases unambiguous_serveOn fittingBefore Tracker.valid_empty emptyUnambiguous with ⟨valid, _⟩
  have offers := uploads.offers valid fits
  have later : (serveOn platform config
      (processData platform config (serveOn platform config .empty before) network
        (49 :: upload)).tracker after).directory.Offers groupId fileInfo.name fileInfo.pieces
          endpoint :=
    offers_serveOn (processData_valid valid config network _) offers
  rw [serveOn_append] at unambiguous downloads ⊢
  rcases downloads with ⟨transaction, parsing, downloads, view, found, admitted⟩
  rcases later with ⟨_, foundLater, offered⟩
  rcases request_of_download downloads with ⟨request, group_eq, name_eq⟩
  have notSync : transaction.request ≠ .tracker .sync := by
    rw [request]
    exact Request.noConfusion
  have same : some _ = some view := (Option.mem_def.mp foundLater).symm.trans found
  cases same
  rcases transaction with ⟨origin, _, text, outcome⟩
  subst request group_eq
  rw [← name_eq] at offered
  rcases processFileRequest_download unambiguous found admitted offered with
    ⟨file, answer, fileName, pieces, seeds⟩
  refine ⟨file, ?_, fileName.trans name_eq, pieces, seeds⟩
  exact (processData_sent parsing notSync config reply _).mpr ⟨delivered, _, answer, rfl⟩

/-- Messages on a network that loses nothing. -/
def overReliable (messages : List Bytes) : List (Network × Bytes) :=
  messages.map fun message => (Network.reliable, message)

instance decidableFittingRun (platform : Platform) (config : Config) :
    (tracker : Tracker) → (messages : List (Network × Bytes)) →
      Decidable (FittingRun platform config tracker messages)
  | _, [] => isTrue trivial
  | tracker, (network, message) :: messages =>
      have := decidableFittingRun platform config
        (processData platform config tracker network message).tracker messages
      have : Decidable (∀ transaction ∈ parseRequest platform (message.drop 1),
          tracker.directory.Fits transaction.origin (command platform transaction)) :=
        inferInstanceAs (Decidable (∀ transaction, transaction ∈ parseRequest platform _ → _))
      inferInstanceAs (Decidable (_ ∧ _))

def uploadOfA : Bytes :=
  ascii "17 upload_file g 1:1 File: a\tSize: 1 bytes\tPieces: h \n"

def fileA : FileInfo where
  name := ascii "a"
  size := 1
  pieces := [ascii "h"]
  hash := ascii "h"

/-- A second endpoint offers the same file, and a second file is uploaded. -/
def laterUploads : List Bytes :=
  [ascii "117 upload_file g 2:2 File: a\tSize: 1 bytes\tPieces: h \n",
    ascii "117 upload_file g 2:2 File: b\tSize: 1 bytes\tPieces: k \n"]

theorem download_finds_a :
    ∃ file : File,
      (processData .oldestFirst .alone
          (serveOn .oldestFirst .alone .empty (overReliable uploadingMember ++
            (Network.reliable, 49 :: uploadOfA) :: overReliable laterUploads)) Network.reliable
          (49 :: ascii "17 download_file g a")).sent =
          [ascii "1 " ++ file.toString .oldestFirst ++ ascii "\n"] ∧
        file.fileInfo.name = fileA.name ∧ file.fileInfo.pieces = fileA.pieces ∧
        ({ ip := ascii "1", port := 1 } : Endpoint) ∈ file.seeders := by
  have fitting : FittingRun .oldestFirst .alone .empty (overReliable uploadingMember ++
      (Network.reliable, 49 :: uploadOfA) :: overReliable laterUploads) := by
    decide +kernel
  have uploads : Uploads .oldestFirst .alone
      (serveOn .oldestFirst .alone .empty (overReliable uploadingMember)) Network.reliable
      uploadOfA (ascii "g") { ip := ascii "1", port := 1 } fileA :=
    ⟨{ origin := 17, request := .file .upload, data := uploadOfA }, by decide +kernel,
      by decide +kernel, ascii "File uploaded\n", List.mem_cons_self, by decide +kernel⟩
  have downloads : Downloads .oldestFirst
      (serveOn .oldestFirst .alone .empty (overReliable uploadingMember ++
        (Network.reliable, 49 :: uploadOfA) :: overReliable laterUploads))
      (ascii "17 download_file g a") (ascii "g") fileA.name :=
    ⟨{ origin := 17, request := .file .download, data := ascii "17 download_file g a" },
      by decide +kernel, by decide +kernel, by decide +kernel⟩
  exact download_finds .oldestFirst .alone (overReliable uploadingMember)
    (overReliable laterUploads) Network.reliable Network.reliable uploadOfA
    (ascii "17 download_file g a") (ascii "g") { ip := ascii "1", port := 1 } fileA fitting
    uploads downloads rfl

/-- A second file of the name `a` is uploaded, and the download of `a` still finds the
first one.  The content of `a` is uploaded under the name `c`, and the download of `c`
finds nothing. -/
theorem download_finds_another :
    let before := overReliable (uploadingMember ++ [49 :: uploadOfA])
    let secondA := ascii "117 upload_file g 2:2 File: a\tSize: 1 bytes\tPieces: k \n"
    let c := ascii "117 upload_file g 2:2 File: c\tSize: 1 bytes\tPieces: h \n"
    let sent (earlier : List (Network × Bytes)) (message : Bytes) :=
      (processData .oldestFirst .alone (serveOn .oldestFirst .alone .empty earlier)
        Network.reliable message).sent
    sent before secondA = [ascii "File uploaded\n"] ∧
      sent (before ++ overReliable [secondA]) (ascii "117 download_file g a") =
        [ascii "1 1 1:1 g File: a\tSize: 1 bytes\tPieces: h \n\n"] ∧
      sent before c = [ascii "File already exists. Added you as a seeder\n"] ∧
      sent (before ++ overReliable [c]) (ascii "117 download_file g c") =
        [ascii "0 File not found\n"] := by
  decide +kernel

end P2PFileShare
