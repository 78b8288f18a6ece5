import P2PFileShare.Swarm.Requests
import P2PFileShare.Transition.History

/-!
# Listed seeders

The tracker finds a file by its content and keeps the name it was first uploaded under.
A client finds it by its name, and keeps the file that it first offered under it.  So a
seeder serves what it is listed for exactly as long as, at every upload, it has the
pieces under the name that the tracker goes by.
-/

namespace P2PFileShare

open Container Text Transition

/-! ## What a client has -/

namespace ClientState

variable {sha1 : Bytes → Bytes} {client next target : ClientState}

/-- A file that is added as a whole has to be on the disk. -/
theorem Stored.addPartfile (stored : client.Stored sha1) {groupId filePath : Bytes}
    {fileInfo : FileInfo} {allDownloaded : Bool}
    (onDisk : allDownloaded = true → ∃ name content, client.disk filePath = some content ∧
      content.length < 2 ^ 63 ∧ fileInfo = getFileInfo sha1 name content) :
    Stored sha1 { client with
      myFiles := (client.myFiles.addPartfile groupId fileInfo filePath allDownloaded).2 } := by
  intro key partFile found piece marked
  rw [FilesDB.find?_addPartfile] at found
  split at found
  · cases known : client.myFiles.files.find? key with
    | some older =>
        rw [known] at found
        obtain rfl := Option.some.inj found
        exact stored key older known piece marked
    | none =>
        rw [known] at found
        obtain rfl := Option.some.inj found
        rcases PartFile.mem_create.1.mp marked with ⟨whole, isPiece⟩
        rcases onDisk whole with ⟨name, content, there, small, info⟩
        refine ⟨name, content, there, small, ?_⟩
        simp only [LocatedPartFile.create, PartFile.create_fileInfo]
        exact ⟨info, isPiece⟩
  · exact stored key partFile found piece marked

/-- What a step does to the database of a client: nothing, or it adds a file.  A file
that is added as a whole is on the disk. -/
def Advances (sha1 : Bytes → Bytes) (client next : ClientState) : Prop :=
  next.myFiles = client.myFiles ∨
    next.disk = client.disk ∧ ∃ groupId fileInfo filePath allDownloaded,
      next.myFiles =
          (client.myFiles.addPartfile groupId fileInfo filePath allDownloaded).2 ∧
        (allDownloaded = true → ∃ name content, client.disk filePath = some content ∧
          fileInfo = getFileInfo sha1 name content)

/-- What is stored stays stored as long as the files stay as they are. -/
theorem Advances.stored (advances : client.Advances sha1 next) (stored : client.Stored sha1)
    (regular : RegularDisk client.disk) (leaves : Swarm.LeavesFiles client next) :
    next.Stored sha1 := by
  rcases advances with same | ⟨sameDisk, groupId, fileInfo, filePath, allDownloaded, added, onDisk⟩
  · intro key partFile found piece marked
    rw [same] at found
    rcases stored key partFile found piece marked with ⟨name, content, there, rest⟩
    exact ⟨name, content, (leaves.offered key partFile found piece marked).trans there, rest⟩
  · have whole : allDownloaded = true → ∃ name content, client.disk filePath = some content ∧
        content.length < 2 ^ 63 ∧ fileInfo = getFileInfo sha1 name content := by
      intro all
      rcases onDisk all with ⟨name, content, there, info⟩
      exact ⟨name, content, there, (regular filePath content there).1, info⟩
    have storedAfter : Stored sha1 { client with
        myFiles := (client.myFiles.addPartfile groupId fileInfo filePath allDownloaded).2 } :=
      stored.addPartfile whole
    intro key partFile found
    rw [added] at found
    rw [sameDisk]
    exact storedAfter key partFile found

theorem Advances.keepsPieces (advances : client.Advances sha1 next) {groupId fileName piece : Bytes}
    (held : client.myFiles.hasPiece groupId fileName piece = true) :
    next.myFiles.hasPiece groupId fileName piece = true := by
  rcases advances with same | ⟨_, _, _, _, _, added, _⟩
  · rwa [same]
  · rw [added, FilesDB.hasPiece_iff]
    rcases FilesDB.hasPiece_iff.mp held with ⟨partFile, found, marked⟩
    exact ⟨partFile, FilesDB.find?_addPartfile_of_some found, marked⟩

/-- The worker does not change the database. -/
theorem work_myFiles {iteration : IterationOrder} {answers : PeerDB.Peer → Bytes → Exchange}
    (work : client.work sha1 iteration answers = .ok next) : next.myFiles = client.myFiles := by
  rcases work_marks work with ⟨_, rfl⟩ | ⟨_, _, _, _, _, _, _, _, rfl⟩
  · rfl
  · rfl

theorem submit_disk {myId : EndpointID} {clientEndpoint : Endpoint} {line : Bytes} :
    (client.submit sha1 myId clientEndpoint line).1.disk = client.disk := by
  rcases (submit_cases : (client.submit sha1 myId clientEndpoint line).1 = client ∨ _) with
    same | ⟨_, _, _, _, submitted⟩
  · rw [same]
  · rw [submitted]

theorem submit_advances {myId : EndpointID} {clientEndpoint : Endpoint} {line : Bytes} :
    client.Advances sha1 (client.submit sha1 myId clientEndpoint line).1 := by
  rcases (submit_cases : (client.submit sha1 myId clientEndpoint line).1 = client ∨ _) with
    same | ⟨groupId, filePath, fileInfo, found, submitted⟩
  · rw [same]
    exact Or.inl rfl
  · rw [submitted]
    rcases Option.map_eq_some_iff.mp found with ⟨content, there, info⟩
    exact Or.inr ⟨rfl, groupId, fileInfo, filePath, true, rfl, fun _ =>
      ⟨basename filePath, content, there, info.symm⟩⟩

theorem startDownloads_disk : client.startDownloads.2.disk = client.disk := by
  rw [startDownloads_eq]

theorem startDownloads_myFiles : client.startDownloads.2.myFiles = client.myFiles := by
  rw [startDownloads_eq]

variable (sha1) in
/-- An answer adds at most a file without pieces. -/
theorem conclude_advances {platform : Platform} {response : Bytes} {awaiting : Awaiting}
    (concluded : client.conclude platform response awaiting = .ok next) :
    next.disk = client.disk ∧ client.Advances sha1 next := by
  rcases conclude_cases concluded with rfl | ⟨destinationPath, file, _, _, rfl⟩
  · exact ⟨rfl, Or.inl rfl⟩
  · rw [Advances, startDownloads_disk, startDownloads_myFiles]
    rcases enqueueDownload_cases _ file.groupId file.fileInfo client.newAddress destinationPath with
      ⟨_, refused⟩ | ⟨_, queued⟩
    · rw [refused]
      exact ⟨rfl, Or.inl rfl⟩
    · rw [queued]
      refine ⟨rfl, ?_⟩
      simp only
      split
      · exact Or.inl rfl
      · exact Or.inr ⟨trivial, _, _, _, _, rfl, fun whole => (nomatch whole)⟩

end ClientState

/-! ## Steps of a swarm -/

namespace Swarm

variable {ι : Type} [DecidableEq ι] {setting : Setting ι} {source target : Swarm ι}
  {event : SwarmEvent ι}

/-- What holds in every state of a swarm: the databases tell the truth, every file that
is listed was described by `get_file_info`, and so is what is in flight. -/
structure Proper (setting : Setting ι) (swarm : Swarm ι) : Prop where
  valid : swarm.tracker.Valid
  regular : ∀ i, RegularDisk (swarm.client i).disk
  stored : ∀ i, (swarm.client i).Stored setting.sha1
  listed : ∀ groupId entry, swarm.tracker.directory.Lists groupId entry →
    IsWord groupId ∧ entry.1.Described setting.sha1
  requests : ∀ i request, (i, request) ∈ swarm.requests → setting.Sends i request

/-- What an event does apart from the tracker: databases get files, and requests are
those of the clients. -/
structure Quiet (setting : Setting ι) (source target : Swarm ι) : Prop where
  tracker : target.tracker = source.tracker
  client : ∀ i, (source.client i).Advances setting.sha1 (target.client i)
  requests : ∀ i request, (i, request) ∈ target.requests →
    (i, request) ∈ source.requests ∨
      ∃ line awaiting,
        ((source.client i).submit setting.sha1 (setting.myId i) (setting.endpoint i) line).2 =
          some (request, awaiting)

/-- A step of one client. -/
theorem Quiet.of_client {j : ι} {client : ClientState} (tracker : target.tracker = source.tracker)
    (changed : target.client = Function.update source.client j client)
    (advances : (source.client j).Advances setting.sha1 client)
    (requests : ∀ i request, (i, request) ∈ target.requests →
      (i, request) ∈ source.requests ∨
        ∃ line awaiting,
          ((source.client i).submit setting.sha1 (setting.myId i) (setting.endpoint i) line).2 =
            some (request, awaiting)) : Quiet setting source target where
  tracker := tracker
  client i := by
    rw [changed]
    by_cases same : i = j
    · subst same
      rwa [Function.update_self]
    · rw [Function.update_of_ne same]
      exact Or.inl rfl
  requests := requests

theorem setClient_disk {j : ι} {client : ClientState}
    (same : client.disk = (source.client j).disk) (i : ι) :
    ((source.setClient j client).client i).disk = (source.client i).disk := by
  by_cases here : i = j
  · subst here
    simp only [setClient, Function.update_self]
    exact same
  · simp only [setClient, Function.update_of_ne here]

/-- A client that handles a line leaves its disk alone, and may send a request. -/
theorem quiet_of_input {j : ι} {line : Bytes}
    (next : source.next setting (.input j line) = some target) :
    Quiet setting source target ∧ ∀ i, (target.client i).disk = (source.client i).disk := by
  have advances : (source.client j).Advances setting.sha1 ((source.client j).submit
      setting.sha1 (setting.myId j) (setting.endpoint j) line).1 := ClientState.submit_advances
  have disk : ((source.client j).submit setting.sha1 (setting.myId j)
      (setting.endpoint j) line).1.disk = (source.client j).disk := ClientState.submit_disk
  simp only [Swarm.next] at next
  split at next
  · cases next
  · split at next
    · next client submitted =>
        obtain rfl := Option.some.inj next
        rw [submitted] at advances disk
        exact ⟨.of_client rfl rfl advances fun _ _ member => Or.inl member, setClient_disk disk⟩
    · next client request awaiting submitted =>
        obtain rfl := Option.some.inj next
        rw [submitted] at advances disk
        refine ⟨.of_client rfl rfl advances ?_, setClient_disk disk⟩
        intro i sent member
        rcases List.mem_append.mp member with older | new
        · exact Or.inl older
        · rw [List.mem_singleton, Prod.mk.injEq] at new
          rcases new with ⟨rfl, rfl⟩
          exact Or.inr ⟨line, awaiting, by rw [submitted]⟩

/-- What the tracker does when it serves a request. -/
theorem next_serve {place : Nat} {network : Network}
    (next : source.next setting (.serve place network) = some target) :
    ∃ i request, source.requests[place]? = some (i, request) ∧
      target = { source with
        tracker := (processData setting.trackerPlatform .alone source.tracker network
          request).tracker
        requests := source.requests.eraseIdx place
        answers := source.answers ++ (processData setting.trackerPlatform .alone source.tracker
          network request).sent.map fun answer => (i, answer) } := by
  simp only [Swarm.next] at next
  split at next
  · cases next
  · next i request found =>
      split at next
      · cases next
      · exact ⟨i, request, found, (Option.some.inj next).symm⟩

/-- What a client does with an answer. -/
theorem next_receive {place : Nat} (next : source.next setting (.receive place) = some target) :
    ∃ i answer awaiting client, source.answers[place]? = some (i, answer) ∧
      source.awaiting i = some awaiting ∧
        (source.client i).conclude (setting.platform i) answer awaiting = .ok client ∧
          target = { source.setClient i client with
            awaiting := Function.update source.awaiting i none
            answers := source.answers.eraseIdx place } := by
  simp only [Swarm.next] at next
  split at next
  · cases next
  · next i answer found =>
      split at next
      · cases next
      split at next
      · cases next
      · next awaiting waits =>
          split at next
          · cases next
          · next client concluded =>
              exact ⟨i, answer, awaiting, client, found, waits, concluded,
                (Option.some.inj next).symm⟩

/-- So does a client that gets an answer. -/
theorem quiet_of_receive {place : Nat} (next : source.next setting (.receive place) = some target) :
    Quiet setting source target ∧ ∀ i, (target.client i).disk = (source.client i).disk := by
  obtain ⟨_, _, _, _, _, _, concluded, rfl⟩ := next_receive next
  rcases ClientState.conclude_advances setting.sha1 concluded with ⟨disk, advances⟩
  exact ⟨.of_client rfl rfl advances fun _ _ member => Or.inl member, setClient_disk disk⟩

/-- Either the tracker serves a request, or nothing happens to it. -/
theorem next_cases (next : source.next setting event = some target) :
    (Quiet setting source target ∧ ∀ place network, event ≠ .serve place network) ∨
      ∃ place network i request, event = .serve place network ∧
        source.requests[place]? = some (i, request) ∧ target.client = source.client ∧
          target.tracker = (processData setting.trackerPlatform .alone source.tracker network
            request).tracker ∧
            target.requests = source.requests.eraseIdx place := by
  cases event with
  | input j line => exact Or.inl ⟨(quiet_of_input next).1, nofun⟩
  | serve place network =>
      obtain ⟨i, request, found, rfl⟩ := next_serve next
      exact Or.inr ⟨place, network, i, request, rfl, found, rfl, rfl, rfl⟩
  | lose place =>
      obtain rfl := Option.some.inj next
      exact Or.inl ⟨⟨rfl, fun _ => Or.inl rfl, fun _ _ member =>
        Or.inl (List.mem_of_mem_eraseIdx member)⟩, nofun⟩
  | receive place => exact Or.inl ⟨(quiet_of_receive next).1, nofun⟩
  | fail j =>
      obtain rfl := Option.some.inj next
      exact Or.inl ⟨⟨rfl, fun _ => Or.inl rfl, fun _ _ => Or.inl⟩, nofun⟩
  | work j answers =>
      left
      refine ⟨?_, nofun⟩
      simp only [Swarm.next] at next
      split at next
      · cases next
      · next worked =>
          obtain rfl := Option.some.inj next
          exact .of_client rfl rfl (Or.inl (ClientState.work_myFiles worked)) fun _ _ member =>
            Or.inl member
  | changeDisk j disk =>
      obtain rfl := Option.some.inj next
      exact Or.inl ⟨.of_client rfl rfl (Or.inl rfl) fun _ _ member => Or.inl member, nofun⟩

/-- Every seeder of a listed file serves every piece of it, under the listed name. -/
def SeedersServe (setting : Setting ι) (swarm : Swarm ι) : Prop :=
  ∀ groupId entry, swarm.tracker.directory.Lists groupId entry →
    ∀ i, setting.endpoint i ∈ entry.2 → ∀ piece ∈ entry.1.pieces,
      (swarm.client i).Serves setting.sha1 groupId entry.1 piece

/-- When the tracker serves an upload of a member, the client has every piece under the
name by which the group lists the content. -/
def Sound (setting : Setting ι) (swarm : Swarm ι) : SwarmEvent ι → Prop
  | .serve place _ =>
      ∀ i request, swarm.requests[place]? = some (i, request) →
        ∀ groupId endpoint fileInfo view,
          swarm.tracker.Accepts setting.trackerPlatform request groupId endpoint fileInfo view →
            ∀ name, view.Names fileInfo name → ∀ piece ∈ fileInfo.pieces,
              (swarm.client i).myFiles.hasPiece groupId name piece = true
  | _ => True

omit [DecidableEq ι] in
theorem Proper.start : Proper setting (Swarm.start setting) where
  valid := Tracker.valid_empty
  regular := setting.disk_regular
  stored i key partFile found := (nomatch found)
  listed groupId entry lists := by
    rcases lists with ⟨view, found, _⟩
    cases found
  requests i request member := absurd member List.not_mem_nil

omit [DecidableEq ι] in
/-- In a proper state, to serve is to have the pieces in the database. -/
theorem Proper.serves_iff {swarm : Swarm ι} (proper : Proper setting swarm) {groupId : Bytes}
    {entry : Entry} (group : IsWord groupId) (described : entry.1.Described setting.sha1) (i : ι)
    {piece : Bytes} (member : piece ∈ entry.1.pieces) :
    (swarm.client i).Serves setting.sha1 groupId entry.1 piece ↔
      (swarm.client i).myFiles.hasPiece groupId entry.1.name piece = true :=
  (proper.stored i).serves_iff group (isPlain_of_described described).name
    ((isPlain_of_described described).pieces piece member)

omit [DecidableEq ι] in
/-- An accepted upload is the client's own, of a file that it described. -/
theorem Proper.accepted (proper : Proper setting source) {place : Nat} {i : ι}
    {request groupId : Bytes} {endpoint : Endpoint} {fileInfo : FileInfo} {view : GroupView}
    (found : source.requests[place]? = some (i, request))
    (accepts : source.tracker.Accepts setting.trackerPlatform request groupId endpoint fileInfo
      view) :
    IsWord groupId ∧ endpoint = setting.endpoint i ∧ fileInfo.Described setting.sha1 := by
  rcases accepts with ⟨transaction, parsing, uploads, _⟩
  exact proper.requests i request (List.mem_of_getElem? found) transaction parsing _ _ _ uploads

omit [DecidableEq ι] in
/-- Whatever is listed behind a request was described by a client. -/
theorem Proper.listed_after (proper : Proper setting source) {place : Nat} {i : ι}
    {request : Bytes} (found : source.requests[place]? = some (i, request)) (network : Network)
    {groupId : Bytes} {entry : Entry}
    (lists : (processData setting.trackerPlatform .alone source.tracker network
      request).tracker.directory.Lists groupId entry) :
    IsWord groupId ∧ entry.1.Described setting.sha1 := by
  by_cases accepted : ∃ group endpoint fileInfo view,
      source.tracker.Accepts setting.trackerPlatform request group endpoint fileInfo view
  · rcases accepted with ⟨group, endpoint, fileInfo, view, accepts⟩
    by_cases same : groupId = group
    · subst same
      rcases listed_of_accepted proper.valid network accepts lists with
        ⟨old, member, info, _⟩ | ⟨_, rfl⟩
      · rcases accepts with ⟨_, _, _, groupFound, _⟩
        rw [info]
        exact proper.listed groupId old ⟨view, groupFound, member⟩
      · rcases proper.accepted found accepts with ⟨isWord, _, described⟩
        exact ⟨isWord, described⟩
    · exact proper.listed groupId entry
        (((lists_of_accepted proper.valid network accepts entry).2 groupId same).mp lists)
  · have refused : ∀ group endpoint fileInfo view,
        ¬source.tracker.Accepts setting.trackerPlatform request group endpoint fileInfo view :=
      fun group endpoint fileInfo view accepts =>
        accepted ⟨group, endpoint, fileInfo, view, accepts⟩
    exact proper.listed groupId entry
      ((lists_of_refused proper.valid network refused groupId entry).mp lists)

theorem Proper.step (proper : Proper setting source) (step : Step setting source event target) :
    Proper setting target := by
  rcases step with ⟨next, leaves⟩
  have regular (i : ι) : RegularDisk (target.client i).disk :=
    (leaves i).regular (proper.regular i)
  rcases next_cases next with ⟨quiet, _⟩ |
    ⟨place, network, i, request, rfl, found, clients, tracker, requests⟩
  · constructor
    · rw [quiet.tracker]
      exact proper.valid
    · exact regular
    · exact fun i => (quiet.client i).stored (proper.stored i) (proper.regular i) (leaves i)
    · rw [quiet.tracker]
      exact proper.listed
    · intro i request member
      rcases quiet.requests i request member with older | ⟨line, awaiting, sent⟩
      · exact proper.requests i request older
      · exact submit_sends (proper.regular i) sent
  · constructor
    · rw [tracker]
      exact processData_valid proper.valid _ _ _
    · exact regular
    · rw [clients]
      exact proper.stored
    · rw [tracker]
      exact fun groupId entry => proper.listed_after found network
    · intro j other member
      rw [requests] at member
      exact proper.requests j other (List.mem_of_mem_eraseIdx member)

omit [DecidableEq ι] in
/-- The names under which an accepted upload is listed are those that it has to have the
pieces under. -/
theorem Proper.sound_of_serve (proper : Proper setting source) (properAfter : Proper setting target)
    {place : Nat} {network : Network} {i : ι} {request : Bytes}
    (found : source.requests[place]? = some (i, request))
    (clients : target.client = source.client)
    (tracker : target.tracker =
      (processData setting.trackerPlatform .alone source.tracker network request).tracker)
    (serve : target.SeedersServe setting) : source.Sound setting (.serve place network) := by
  intro j other otherFound groupId endpoint fileInfo view accepts name names piece isPiece
  rw [found, Option.some.injEq, Prod.mk.injEq] at otherFound
  rcases otherFound with ⟨rfl, rfl⟩
  rcases proper.accepted found accepts with ⟨isWord, rfl, described⟩
  rcases named_of_accepted proper.valid network accepts names with
    ⟨entry, lists, rfl, same, seeds⟩
  rw [← tracker] at lists
  have entryDescribed := (properAfter.listed groupId entry lists).2
  rw [← pieces_eq_of_hash entryDescribed described same] at isPiece
  have served := serve groupId entry lists i seeds piece isPiece
  rwa [properAfter.serves_iff isWord entryDescribed i isPiece, clients] at served

omit [DecidableEq ι] in
/-- A sound request leaves every listed seeder able to serve. -/
theorem Proper.serve_of_sound (proper : Proper setting source)
    (serve : source.SeedersServe setting) {place : Nat} {network : Network} {i : ι}
    {request : Bytes} (found : source.requests[place]? = some (i, request))
    (clients : target.client = source.client)
    (tracker : target.tracker =
      (processData setting.trackerPlatform .alone source.tracker network request).tracker)
    (sound : source.Sound setting (.serve place network)) : target.SeedersServe setting := by
  intro groupId entry lists j seeds piece isPiece
  rw [tracker] at lists
  rw [clients]
  have listed := proper.listed_after found network lists
  by_cases accepted : ∃ group endpoint fileInfo view,
      source.tracker.Accepts setting.trackerPlatform request group endpoint fileInfo view
  · rcases accepted with ⟨group, endpoint, fileInfo, view, accepts⟩
    by_cases same : groupId = group
    · subst same
      rcases proper.accepted found accepts with ⟨isWord, rfl, described⟩
      have own := sound i request found groupId _ fileInfo view accepts
      have cause := listed_of_accepted proper.valid network accepts lists
      rcases accepts with ⟨_, _, _, groupFound, _⟩
      rcases entry with ⟨info, seeders⟩
      rcases cause with ⟨old, member, rfl, origin⟩ | ⟨fresh, new⟩
      · have older (seeds : setting.endpoint j ∈ old.2) :
            (source.client j).Serves setting.sha1 groupId old.1 piece :=
          serve groupId old ⟨view, groupFound, member⟩ j seeds piece isPiece
        rcases origin with rfl | ⟨rfl, sameHash⟩
        · exact older seeds
        · rcases Finset.mem_insert.mp seeds with self | before
          · obtain rfl := setting.endpoint_injective self
            rw [proper.serves_iff listed.1 listed.2 j isPiece]
            apply own _ (Or.inl ⟨old, member, sameHash, rfl⟩)
            rwa [← pieces_eq_of_hash listed.2 described sameHash]
          · exact older before
      · obtain ⟨rfl, rfl⟩ := Prod.mk.inj new
        obtain rfl := setting.endpoint_injective (Finset.mem_singleton.mp seeds)
        rw [proper.serves_iff listed.1 listed.2 j isPiece]
        exact own _ (Or.inr ⟨fresh, rfl⟩) piece isPiece
    · exact serve groupId entry
        (((lists_of_accepted proper.valid network accepts entry).2 groupId same).mp lists) j seeds
        piece isPiece
  · have refused : ∀ group endpoint fileInfo view,
        ¬source.tracker.Accepts setting.trackerPlatform request group endpoint fileInfo view :=
      fun group endpoint fileInfo view accepts =>
        accepted ⟨group, endpoint, fileInfo, view, accepts⟩
    exact serve groupId entry
      ((lists_of_refused proper.valid network refused groupId entry).mp lists) j seeds piece isPiece

/-- Whether seeders can still serve after a step is decided before it. -/
theorem Proper.seedersServe_iff (proper : Proper setting source)
    (serve : source.SeedersServe setting) (step : Step setting source event target) :
    target.SeedersServe setting ↔ source.Sound setting event := by
  have properAfter := proper.step step
  rcases next_cases step.1 with ⟨quiet, other⟩ |
    ⟨place, network, i, request, rfl, found, clients, tracker, _⟩
  · have sound : source.Sound setting event := by
      cases event with
      | serve place network => exact absurd rfl (other place network)
      | _ => trivial
    refine iff_of_true ?_ sound
    intro groupId entry lists i seeds piece isPiece
    have listed := properAfter.listed groupId entry lists
    rw [quiet.tracker] at lists
    have served := serve groupId entry lists i seeds piece isPiece
    rw [proper.serves_iff listed.1 listed.2 i isPiece] at served
    rw [properAfter.serves_iff listed.1 listed.2 i isPiece]
    exact (quiet.client i).keepsPieces served
  · exact ⟨proper.sound_of_serve properAfter found clients tracker,
      proper.serve_of_sound serve found clients tracker⟩

/-- The runs in all of whose states every listed seeder serves what it is listed for are
the runs in which every upload that the tracker accepts is of pieces that the client has,
under the name by which the group lists them. -/
theorem seeders_serve_iff {setting : Setting ι} {history : List (SwarmEvent ι)} {swarm : Swarm ι} :
    Run (start setting) (fun source event target =>
        Step setting source event target ∧ source.Sound setting event) history swarm ↔
      Run (start setting) (fun source event target =>
        Step setting source event target ∧ target.SeedersServe setting) history swarm := by
  apply Run.kept_iff_good (p := Proper setting)
  · exact Proper.start
  · rintro groupId entry ⟨view, found, _⟩
    cases found
  · exact fun source event target proper step => proper.step step
  · exact fun source event target proper serve step => proper.seedersServe_iff serve step

/-! ## One client, two files of one name

The client offers a file `a`, and then another one of that name.  Its database keeps the
first, and the group lists both. -/

/-- Events that are not about a disk. -/
def Tame : SwarmEvent ι → Prop
  | .work _ _ | .changeDisk _ _ => False
  | _ => True

/-- Other events leave the disks alone. -/
theorem disk_of_tame (tame : Tame event) (next : source.next setting event = some target) (i : ι) :
    (target.client i).disk = (source.client i).disk := by
  cases event with
  | input j line => exact (quiet_of_input next).2 i
  | serve place network =>
      obtain ⟨_, _, _, rfl⟩ := next_serve next
      rfl
  | lose place =>
      obtain rfl := Option.some.inj next
      rfl
  | receive place => exact (quiet_of_receive next).2 i
  | fail j =>
      obtain rfl := Option.some.inj next
      rfl
  | work j answers => exact tame.elim
  | changeDisk j disk => exact tame.elim

theorem Step.of_tame (tame : Tame event) (next : source.next setting event = some target) :
    Step setting source event target := by
  refine ⟨next, fun i => ⟨?_, ?_⟩⟩
  · intro _ _ _ _ _
    rw [disk_of_tame tame next]
  · rw [disk_of_tame tame next]
    exact id

/-- The swarm after some events. -/
def nextAll (setting : Setting ι) (swarm : Swarm ι) (events : List (SwarmEvent ι)) :
    Option (Swarm ι) :=
  events.foldlM (fun swarm event => swarm.next setting event) swarm

theorem run_nextAll {history : List (SwarmEvent ι)} {events : List (SwarmEvent ι)}
    (run : Run (start setting) (Step setting) history source) (tame : ∀ event ∈ events, Tame event)
    (all : source.nextAll setting events = some target) :
    ∃ history, Run (start setting) (Step setting) history target := by
  induction events generalizing source history with
  | nil =>
      obtain rfl := Option.some.inj all
      exact ⟨history, run⟩
  | cons event events ih =>
      simp only [nextAll, List.foldlM_cons] at all
      rcases Option.bind_eq_some_iff.mp all with ⟨middle, next, rest⟩
      rcases List.forall_mem_cons.mp tame with ⟨tameFirst, tameRest⟩
      exact ih (run.step (.of_tame tameFirst next)) tameRest rest

/-- SHA-1 of two letters; any other forty digits will do for the rest. -/
def sha1Letters (data : Bytes) : Bytes :=
  if data = ascii "a" then ascii "86f7e437faa5a7fce15d1ddcb9eaeaea377667b8"
  else if data = ascii "b" then ascii "e9d71f5ee7c92d6dc9e92ffdad17b8bd49418f98"
  else List.replicate 40 48

/-- Two files of the same name. -/
def twoFiles (path : Bytes) : Option Bytes :=
  if path = ascii "a" then some (ascii "a")
  else if path = ascii "d/a" then some (ascii "b")
  else none

theorem twoFiles_regular : RegularDisk twoFiles := by
  intro path content found
  simp only [twoFiles] at found
  split at found
  · next here =>
      subst here
      obtain rfl := Option.some.inj found
      decide
  · split at found
    · next here =>
        subst here
        obtain rfl := Option.some.inj found
        decide
    · cases found

theorem sha1Letters_spec (data : Bytes) :
    (sha1Letters data).length = 40 ∧ IsWord (sha1Letters data) := by
  simp only [sha1Letters]
  split
  · decide
  · split
    · decide
    · decide

def oneClient : Setting Unit where
  sha1 := sha1Letters
  sha1_length data := (sha1Letters_spec data).1
  sha1_isWord data := (sha1Letters_spec data).2
  trackerPlatform := .oldestFirst
  platform _ := .oldestFirst
  endpoint _ := { ip := ascii "1.2.3.4", port := 80 }
  endpoint_isPlain _ := by decide
  endpoint_injective _ _ _ := rfl
  disk _ := twoFiles
  disk_regular _ := twoFiles_regular

/-- A command, the request that it sends, and the answer. -/
def roundTrip (line : Bytes) : List (SwarmEvent Unit) :=
  [.input () line, .serve 0 .reliable, .receive 0]

def twoUploads : List (SwarmEvent Unit) :=
  [ascii "create_user u p", ascii "login u p", ascii "create_group g", ascii "upload_file a g",
    ascii "upload_file d/a g"].flatMap roundTrip

/-- A listed seeder answers that it does not have a piece. -/
def Misses (swarm : Swarm Unit) : Prop :=
  ∃ view ∈ swarm.tracker.directory.groups (ascii "g"), ∃ entry ∈ view.files,
    oneClient.endpoint () ∈ entry.2 ∧ ∃ piece ∈ entry.1.pieces,
      ((swarm.client ()).processRequest
        (getRequest (PartFile.create (ascii "g") entry.1 false) piece)).toOption =
          some (ascii "0 Piece not found")

instance (swarm : Swarm Unit) : Decidable swarm.Misses :=
  inferInstanceAs (Decidable (∃ view, view ∈ swarm.tracker.directory.groups (ascii "g") ∧ _))

theorem twoUploads_misses :
    ((start oneClient).nextAll oneClient twoUploads).any (fun swarm => decide swarm.Misses) =
      true := by
  decide +kernel

/-- The client is listed as a seeder of the second file, and does not have it. -/
theorem seeder_misses_piece :
    ¬∀ history swarm, Run (start oneClient) (Step oneClient) history swarm →
      swarm.SeedersServe oneClient := by
  intro claim
  have tame : ∀ event ∈ twoUploads, Tame event := by
    intro event member
    rcases List.mem_flatMap.mp member with ⟨line, _, isEvent⟩
    simp only [roundTrip, List.mem_cons, List.not_mem_nil, or_false] at isEvent
    rcases isEvent with rfl | rfl | rfl
    · trivial
    · trivial
    · trivial
  rcases (Option.any_eq_true _ _).mp twoUploads_misses with ⟨swarm, reached, misses⟩
  rcases run_nextAll .start tame reached with ⟨history, run⟩
  rcases of_decide_eq_true misses with ⟨view, found, entry, member, seeds, piece, isPiece, answer⟩
  rcases claim history swarm run (ascii "g") entry ⟨view, found, member⟩ () seeds piece isPiece with
    ⟨data, served, _⟩
  rw [served] at answer
  exact absurd (congrArg (Option.map List.head?) answer) (by simp [ascii, Except.toOption])

end Swarm

end P2PFileShare
