import P2PFileShare.Client.Integrity
import P2PFileShare.Client.Queue
import P2PFileShare.Swarm.Conversations

/-!
# Transfers from disk to disk

A client describes a file on its disk, the tracker lists the description, another client is
told about it, and its worker collects the pieces from whoever answers.  What the pieces of
a complete download make up is the file that was described, whatever the peers did.
-/

namespace P2PFileShare

open Container Text Storage Transition

/-- A queued download is of a file that the group lists, and of the content that was
described its output holds exactly the blocks of the marked pieces. -/
structure QueuedFile.Faithful (sha1 : Bytes → Bytes) (shared : Set Bytes) (directory : Directory)
    (disk : Bytes → Option Bytes) (entry : QueuedFile) : Prop where
  listed : ∃ endpoint, directory.Knows entry.groupId entry.fileInfo endpoint
  consistent : ∃ name, ∃ content ∈ shared,
    Download.Consistent sha1 name content
      { partFile := entry.toPartFile, disk := disk entry.filePath }

section Queues

variable {sha1 : Bytes → Bytes} {shared involved : Set Bytes} {directory : Directory}
  {client next : ClientState}

/-- A command leaves the queue and the disk alone until it has its answer. -/
theorem submit_queue {myId : EndpointID} {clientEndpoint : Endpoint} {line : Bytes} :
    (client.submit sha1 myId clientEndpoint line).1.downloads = client.downloads ∧
      (client.submit sha1 myId clientEndpoint line).1.disk = client.disk := by
  rcases (ClientState.submit_cases :
    (client.submit sha1 myId clientEndpoint line).1 = client ∨ _) with
    same | ⟨_, _, _, _, submitted⟩
  · rw [same]
    exact ⟨rfl, rfl⟩
  · rw [submitted]
    exact ⟨rfl, rfl⟩

/-- Only one download writes to a path. -/
theorem eq_of_filePath {downloads : List QueuedFile}
    (paths : (downloads.map fun entry => entry.filePath).Nodup) {index other : Nat}
    {entry otherEntry : QueuedFile} (found : downloads[index]? = some entry)
    (foundOther : downloads[other]? = some otherEntry)
    (same : otherEntry.filePath = entry.filePath) : other = index := by
  have here : (downloads.map fun entry => entry.filePath)[index]? = some entry.filePath := by
    rw [List.getElem?_map, found]
    rfl
  have there : (downloads.map fun entry => entry.filePath)[other]? = some entry.filePath := by
    rw [List.getElem?_map, foundOther, ← same]
    rfl
  obtain ⟨_, here⟩ := List.getElem?_eq_some_iff.mp here
  obtain ⟨_, there⟩ := List.getElem?_eq_some_iff.mp there
  exact paths.getElem_inj_iff.mp (there.trans here.symm)

/-- The worker keeps downloads faithful: what it writes has the hash of a piece. -/
theorem work_faithful {iteration : IterationOrder} {answers : PeerDB.Peer → Bytes → Exchange}
    (faithful : ∀ entry ∈ client.downloads, entry.Faithful sha1 shared directory client.disk)
    (paths : (client.downloads.map fun entry => entry.filePath).Nodup)
    (small : ∀ content ∈ shared, content.length < 2 ^ 63)
    (inside : ∀ content ∈ shared, ∀ block ∈ blocks blockSize content, block ∈ involved)
    (injective : Set.InjOn sha1 involved)
    (replies : ∀ peer request response, (answers peer request).reply = .ok response →
      response.drop 2 ∈ involved)
    (work : client.work sha1 iteration answers = .ok next) :
    (∀ entry ∈ next.downloads, entry.Faithful sha1 shared directory next.disk) ∧
      next.downloads.map (fun entry => entry.filePath) =
        client.downloads.map fun entry => entry.filePath := by
  rcases ClientState.work_visits work with ⟨worker, rfl⟩ |
    ⟨index, entry, visited, worker, found, visit, rfl⟩
  · exact ⟨faithful, rfl⟩
  simp only [ClientState.visit] at visit
  split at visit
  · obtain rfl := Except.ok.inj visit
    exact ⟨faithful, rfl⟩
  next piece rest first =>
  have remains : piece ∈ entry.remainingPieces := by
    rw [← iteration.mem_order, first]
    exact List.mem_cons_self
  split at visit
  · cases visit
  next download asked =>
  obtain rfl := Except.ok.inj visit
  obtain ⟨listed, name, content, isShared, consistent⟩ :=
    faithful entry (List.mem_of_getElem? found)
  have consistentAfter : download.Consistent sha1 name content := by
    refine consistent.visit (small content isShared) (inside content isShared) injective remains ?_
      asked
    intro peer member response reply
    obtain ⟨known, _, rfl⟩ := List.mem_map.mp member
    exact replies known _ response reply
  have fileInfo_eq : download.partFile.fileInfo = entry.fileInfo :=
    consistentAfter.fileInfo.trans consistent.fileInfo.symm
  have groupId_eq : download.partFile.groupId = entry.groupId := by
    rcases downloadPiece_cases asked with same | ⟨_, _, _, _, _, written⟩
    · rw [same]
    · rw [written]
      exact PartFile.markDownloaded_groupId _ _
  constructor
  · intro other member
    obtain ⟨place, foundOther⟩ := List.mem_iff_getElem?.mp member
    rw [List.getElem?_set] at foundOther
    split at foundOther
    · split at foundOther
      · obtain rfl := Option.some.inj foundOther
        refine ⟨?_, name, content, isShared, ?_⟩
        · simp only [fileInfo_eq, groupId_eq]
          exact listed
        · simp only [Function.update_self]
          exact consistentAfter
      · cases foundOther
    · next distinct =>
        obtain ⟨listedOther, others⟩ := faithful other (List.mem_of_getElem? foundOther)
        have elsewhere : other.filePath ≠ entry.filePath := fun same =>
          distinct (eq_of_filePath paths found foundOther same).symm
        refine ⟨listedOther, ?_⟩
        simp only [Function.update_of_ne elsewhere]
        exact others
  · obtain ⟨inRange, here⟩ := List.getElem?_eq_some_iff.mp found
    have inMap : index < (client.downloads.map fun entry => entry.filePath).length := by
      rwa [List.length_map]
    have same : (client.downloads.map fun entry => entry.filePath)[index] = entry.filePath := by
      rw [List.getElem_map, here]
    rw [List.map_set, ← same, List.set_getElem_self]

end Queues

namespace Swarm

variable {ι : Type} [DecidableEq ι] {setting : Setting ι} {shared involved : Set Bytes}
  {source target : Swarm ι} {event : SwarmEvent ι}

/-- The description of a content that was shared. -/
def Offers (setting : Setting ι) (shared : Set Bytes) (fileInfo : FileInfo) : Prop :=
  ∃ name, ∃ content ∈ shared, fileInfo = getFileInfo setting.sha1 name content

/-- What is listed and what is being uploaded was shared, and every download is faithful to
it. -/
structure Transferring (setting : Setting ι) (shared : Set Bytes) (swarm : Swarm ι) : Prop where
  listed : ∀ groupId entry, swarm.tracker.directory.Lists groupId entry →
    Offers setting shared entry.1
  uploads : ∀ i request, (i, request) ∈ swarm.requests →
    ∀ transaction ∈ parseRequest setting.trackerPlatform (request.drop 1),
      ∀ groupId endpoint fileInfo,
        command setting.trackerPlatform transaction = .group groupId (.upload endpoint fileInfo) →
          Offers setting shared fileInfo
  faithful : ∀ i, ∀ entry ∈ (swarm.client i).downloads,
    entry.Faithful setting.sha1 shared swarm.tracker.directory (swarm.client i).disk
  paths : ∀ i, ((swarm.client i).downloads.map fun entry => entry.filePath).Nodup

omit [DecidableEq ι] in
theorem Transferring.start : (start setting).Transferring setting shared where
  listed groupId entry lists := by
    rcases lists with ⟨view, found, _⟩
    cases found
  uploads i request member := absurd member List.not_mem_nil
  faithful i entry member := absurd member List.not_mem_nil
  paths i := List.nodup_nil

omit [DecidableEq ι] in
theorem Transferring.mono (transferring : source.Transferring setting shared) {more : Set Bytes}
    (subset : shared ⊆ more) : source.Transferring setting more where
  listed groupId entry lists := by
    obtain ⟨name, content, member, same⟩ := transferring.listed groupId entry lists
    exact ⟨name, content, subset member, same⟩
  uploads i request requested transaction parsing groupId endpoint fileInfo uploads := by
    obtain ⟨name, content, member, same⟩ := transferring.uploads i request requested transaction
      parsing groupId endpoint fileInfo uploads
    exact ⟨name, content, subset member, same⟩
  faithful i entry queued := by
    obtain ⟨listed, name, content, member, consistent⟩ := transferring.faithful i entry queued
    exact ⟨listed, name, content, subset member, consistent⟩
  paths := transferring.paths

omit [DecidableEq ι] in
/-- Queues and output files stay as they are. -/
theorem Transferring.of_queues (transferring : source.Transferring setting shared)
    (tracker : target.tracker = source.tracker)
    (requests : target.requests.Sublist source.requests)
    (queues : ∀ i, (target.client i).downloads = (source.client i).downloads)
    (disks : ∀ i, ∀ entry ∈ (source.client i).downloads,
      (target.client i).disk entry.filePath = (source.client i).disk entry.filePath) :
    target.Transferring setting shared where
  listed := by
    rw [tracker]
    exact transferring.listed
  uploads i request member := transferring.uploads i request (requests.subset member)
  faithful i entry member := by
    rw [queues] at member
    obtain ⟨listed, name, content, isShared, consistent⟩ := transferring.faithful i entry member
    rw [tracker]
    refine ⟨listed, name, content, isShared, ?_⟩
    rw [disks i entry member]
    exact consistent
  paths i := by
    rw [queues]
    exact transferring.paths i

/-- One client gets another queue, which is as good. -/
theorem Transferring.of_client (transferring : source.Transferring setting shared) {i : ι}
    {client : ClientState} (tracker : target.tracker = source.tracker)
    (requests : target.requests = source.requests)
    (changed : target.client = Function.update source.client i client)
    (faithful : ∀ entry ∈ client.downloads,
      entry.Faithful setting.sha1 shared source.tracker.directory client.disk)
    (paths : (client.downloads.map fun entry => entry.filePath).Nodup) :
    target.Transferring setting shared where
  listed := by
    rw [tracker]
    exact transferring.listed
  uploads := by
    rw [requests]
    exact transferring.uploads
  faithful j := by
    rw [tracker, changed]
    by_cases same : j = i
    · subst same
      rwa [Function.update_self]
    · rw [Function.update_of_ne same]
      exact transferring.faithful j
  paths j := by
    rw [changed]
    by_cases same : j = i
    · subst same
      rwa [Function.update_self]
    · rw [Function.update_of_ne same]
      exact transferring.paths j

/-- A line of input shares what it uploads. -/
theorem Transferring.input (transferring : source.Transferring setting shared)
    (proper : source.Proper setting) {i : ι} {line : Bytes}
    (onDisk : ∀ path content, (source.client i).disk path = some content → content ∈ shared)
    (next : source.next setting (.input i line) = some target) :
    target.Transferring setting shared := by
  obtain ⟨queue, disk⟩ := @submit_queue setting.sha1 (source.client i) (setting.myId i)
    (setting.endpoint i) line
  have silent : (source.setClient i ((source.client i).submit setting.sha1 (setting.myId i)
      (setting.endpoint i) line).1).Transferring setting shared := by
    refine transferring.of_client rfl rfl rfl ?_ ?_
    · rw [queue, disk]
      exact transferring.faithful i
    · rw [queue]
      exact transferring.paths i
  rcases (next_input next).2 with ⟨_, rfl⟩ | ⟨request, awaiting, sent, rfl⟩
  · exact silent
  · refine ⟨silent.listed, ?_, silent.faithful, silent.paths⟩
    intro j other member transaction parsing groupId endpoint fileInfo uploads
    rcases List.mem_append.mp member with older | new
    · exact transferring.uploads j other older transaction parsing groupId endpoint fileInfo uploads
    · rw [List.mem_singleton, Prod.mk.injEq] at new
      obtain ⟨rfl, rfl⟩ := new
      obtain ⟨_, _, path, content, there, _, same⟩ :=
        submit_uploads (proper.regular j) sent transaction parsing groupId endpoint fileInfo uploads
      exact ⟨basename path, content, onDisk path content there, same⟩

/-- The tracker lists nothing else. -/
theorem Transferring.serve (transferring : source.Transferring setting shared)
    (proper : source.Proper setting) {place : Nat} {network : Network}
    (next : source.next setting (.serve place network) = some target) :
    target.Transferring setting shared := by
  obtain ⟨i, request, found, rfl⟩ := next_serve next
  have valid := proper.valid
  refine ⟨?_, ?_, ?_, transferring.paths⟩
  · intro groupId entry lists
    by_cases accepted : ∃ group endpoint fileInfo view,
        source.tracker.Accepts setting.trackerPlatform request group endpoint fileInfo view
    · rcases accepted with ⟨group, endpoint, fileInfo, view, accepts⟩
      by_cases same : groupId = group
      · subst same
        rcases listed_of_accepted valid network accepts lists with ⟨old, member, info, _⟩ | ⟨_, rfl⟩
        · rw [info]
          exact transferring.listed groupId old ⟨view, accepts.choose_spec.2.2.1, member⟩
        · obtain ⟨transaction, parsing, uploads, _⟩ := accepts
          exact transferring.uploads i request (List.mem_of_getElem? found) transaction parsing
            groupId endpoint fileInfo uploads
      · exact transferring.listed groupId entry
          (((lists_of_accepted valid network accepts entry).2 groupId same).mp lists)
    · have refused : ∀ group endpoint fileInfo view,
          ¬source.tracker.Accepts setting.trackerPlatform request group endpoint fileInfo view :=
        fun group endpoint fileInfo view accepts =>
          accepted ⟨group, endpoint, fileInfo, view, accepts⟩
      exact transferring.listed groupId entry
        ((lists_of_refused valid network refused groupId entry).mp lists)
  · exact fun j other member => transferring.uploads j other (List.mem_of_mem_eraseIdx member)
  · intro j entry queued
    obtain ⟨⟨endpoint, knows⟩, content⟩ := transferring.faithful j entry queued
    exact ⟨⟨endpoint, knows.processData valid network request⟩, content⟩

/-- A download is queued for a file that is listed. -/
theorem Transferring.receive (transferring : source.Transferring setting shared)
    (conversing : source.Conversing setting) {place : Nat}
    (own : ∀ i answer destinationPath, source.answers[place]? = some (i, answer) →
      source.awaiting i = some (.file destinationPath) →
        ∀ entry ∈ (source.client i).downloads, entry.filePath ≠ destinationPath)
    (next : source.next setting (.receive place) = some target) :
    target.Transferring setting shared := by
  obtain ⟨i, answer, awaiting, client, found, waits, concluded, rfl⟩ := next_receive next
  rcases ClientState.conclude_cases concluded with rfl |
    ⟨destinationPath, file, rfl, decoded, rfl⟩
  · exact transferring.of_client rfl rfl rfl (transferring.faithful i) (transferring.paths i)
  have free := own i answer destinationPath found waits
  have known : ∃ endpoint, source.tracker.directory.Knows file.groupId file.fileInfo endpoint := by
    rcases conversing.tells i answer destinationPath (List.mem_of_getElem? found) waits with
      nothing | ⟨told, toldDecoded, nonempty, knows⟩
    · cases decoded.symm.trans nothing
    · obtain rfl := Option.some.inj (Except.ok.inj (decoded.symm.trans toldDecoded))
      obtain ⟨seeder, member⟩ := List.exists_mem_of_ne_nil _ nonempty
      exact ⟨seeder, knows seeder member⟩
  have offers : Offers setting shared file.fileInfo := by
    obtain ⟨_, _, lists, _⟩ := known
    exact transferring.listed _ _ lists
  rw [ClientState.startDownloads_eq]
  rcases ClientState.enqueueDownload_cases
      { source.client i with
        peerDb := ClientState.addSeeders (source.client i).peerDb file.groupId file.fileInfo.hash
          (ClientState.seedersOf (setting.platform i) file) }
      file.groupId file.fileInfo (source.client i).newAddress destinationPath with
    ⟨_, refused⟩ | ⟨⟨missing, _⟩, queued⟩
  · rw [refused]
    exact transferring.of_client rfl rfl rfl (transferring.faithful i) (transferring.paths i)
  · rw [queued]
    refine transferring.of_client rfl rfl rfl ?_ ?_
    · intro entry member
      rcases List.mem_append.mp member with older | new
      · exact transferring.faithful i entry older
      · obtain ⟨name, content, isShared, described⟩ := offers
        obtain rfl := List.mem_singleton.mp new
        refine ⟨known, name, content, isShared, ?_⟩
        have missing : (source.client i).disk destinationPath = none := missing
        have enqueued : Download.Consistent setting.sha1 name content
            (Download.enqueue file.groupId file.fileInfo) := by
          rw [described]
          exact Download.consistent_enqueue file.groupId
        simp only [LocatedPartFile.create, missing]
        exact enqueued
    · rw [List.map_append, List.map_singleton, ClientState.nodup_concat_iff (transferring.paths i)]
      intro taken
      obtain ⟨entry, member, same⟩ := List.mem_map.mp taken
      exact free entry member same

/-- What is hashed, on disks and in the replies of peers, is among the strings that SHA-1
tells apart, and nobody but its download writes an output file. -/
def Exclusive (involved : Set Bytes) (swarm : Swarm ι) : SwarmEvent ι → Prop
  | .input i _ => ∀ path content, (swarm.client i).disk path = some content →
      ∀ block ∈ blocks blockSize content, block ∈ involved
  | .receive place => ∀ i answer destinationPath, swarm.answers[place]? = some (i, answer) →
      swarm.awaiting i = some (.file destinationPath) →
        ∀ entry ∈ (swarm.client i).downloads, entry.filePath ≠ destinationPath
  | .work _ answers => ∀ peer request response, (answers peer request).reply = .ok response →
      response.drop 2 ∈ involved
  | .changeDisk i disk => ∀ entry ∈ (swarm.client i).downloads,
      disk entry.filePath = (swarm.client i).disk entry.filePath
  | _ => True

theorem Transferring.step (transferring : source.Transferring setting shared)
    (conversing : source.Conversing setting) (exclusive : source.Exclusive involved event)
    (injective : Set.InjOn setting.sha1 involved)
    (small : ∀ content ∈ shared, content.length < 2 ^ 63)
    (inside : ∀ content ∈ shared, ∀ block ∈ blocks blockSize content, block ∈ involved)
    (onDisk : ∀ i line, event = .input i line →
      ∀ path content, (source.client i).disk path = some content → content ∈ shared)
    (next : source.next setting event = some target) :
    target.Transferring setting shared := by
  cases event with
  | input i line => exact transferring.input conversing.proper (onDisk i line rfl) next
  | serve place network => exact transferring.serve conversing.proper next
  | receive place => exact transferring.receive conversing exclusive next
  | lose place =>
      obtain rfl := Option.some.inj next
      exact transferring.of_queues rfl (List.eraseIdx_sublist _ _) (fun _ => rfl) fun _ _ _ => rfl
  | fail i =>
      obtain rfl := Option.some.inj next
      exact transferring.of_queues rfl (List.Sublist.refl _) (fun _ => rfl) fun _ _ _ => rfl
  | work i answers =>
      simp only [Swarm.next] at next
      split at next
      · cases next
      · next client worked =>
          obtain rfl := Option.some.inj next
          obtain ⟨faithful, paths⟩ := work_faithful (transferring.faithful i) (transferring.paths i)
            small inside injective exclusive worked
          refine transferring.of_client rfl rfl rfl faithful ?_
          rw [paths]
          exact transferring.paths i
  | changeDisk i disk =>
      obtain rfl := Option.some.inj next
      refine transferring.of_client rfl rfl rfl ?_ (transferring.paths i)
      intro entry queued
      obtain ⟨listed, name, content, isShared, consistent⟩ := transferring.faithful i entry queued
      have same : disk entry.filePath = (source.client i).disk entry.filePath :=
        exclusive entry queued
      refine ⟨listed, name, content, isShared, ?_⟩
      simp only [same]
      exact consistent

/-- A step of clients that keep their connections, and their output files to themselves. -/
def ExclusiveStep (setting : Setting ι) (involved : Set Bytes) (source : Swarm ι)
    (event : SwarmEvent ι) (target : Swarm ι) : Prop :=
  OrderlyStep setting source event target ∧ source.Exclusive involved event

/-- What the clients had on their disks when they took their lines of input. -/
def sharedIn (setting : Setting ι) (involved : Set Bytes) (history : List (SwarmEvent ι)) :
    Set Bytes :=
  {content | ∃ later i line past swarm path, history = later ++ .input i line :: past ∧
    Run (start setting) (ExclusiveStep setting involved) past swarm ∧
      swarm.Exclusive involved (.input i line) ∧ (swarm.client i).disk path = some content}

section Shared

variable {history : List (SwarmEvent ι)} {swarm : Swarm ι}

theorem sharedIn_cons (event : SwarmEvent ι) (history : List (SwarmEvent ι)) :
    sharedIn setting involved history ⊆ sharedIn setting involved (event :: history) := by
  rintro content ⟨later, i, line, past, swarm, path, rfl, earlier⟩
  exact ⟨event :: later, i, line, past, swarm, path, rfl, earlier⟩

theorem conversing_of_exclusive
    (run : Run (start setting) (ExclusiveStep setting involved) history swarm) :
    swarm.Conversing setting :=
  conversing_run (run.mono fun _ _ _ step => step.1)

theorem small_of_shared {content : Bytes} (shared : content ∈ sharedIn setting involved history) :
    content.length < 2 ^ 63 := by
  obtain ⟨_, i, _, _, swarm, path, _, run, _, there⟩ := shared
  exact ((conversing_of_exclusive run).proper.regular i path content there).1

theorem inside_of_shared {content : Bytes} (shared : content ∈ sharedIn setting involved history) :
    ∀ block ∈ blocks blockSize content, block ∈ involved := by
  obtain ⟨_, _, _, _, _, path, _, _, exclusive, there⟩ := shared
  exact exclusive path content there

theorem transferring_run (injective : Set.InjOn setting.sha1 involved)
    (run : Run (start setting) (ExclusiveStep setting involved) history swarm) :
    swarm.Transferring setting (sharedIn setting involved history) := by
  refine run.invariant (p := fun history swarm =>
    swarm.Transferring setting (sharedIn setting involved history)) .start ?_
  intro past source event target earlier transferring step
  refine (transferring.mono (sharedIn_cons event past)).step (conversing_of_exclusive earlier)
    step.2 injective (fun _ => small_of_shared) (fun _ => inside_of_shared) ?_ step.1.1.1
  rintro i line rfl path content there
  exact ⟨[], i, line, past, source, path, rfl, earlier, step.2, there⟩

/-- Whatever the peers do, a complete download is of a file that the group lists, and that
some client described when it took a line of input.  What is on the disk then is what that
client had on its disk, unless one of its blocks repeats an earlier one. -/
theorem transfers_faithful (injective : Set.InjOn setting.sha1 involved)
    (run : Run (start setting) (ExclusiveStep setting involved) history swarm) {i : ι}
    {entry : QueuedFile} (queued : entry ∈ (swarm.client i).downloads)
    (complete : entry.isComplete = true) (pieces : entry.fileInfo.pieces ≠ []) :
    (∃ endpoint, swarm.tracker.directory.Knows entry.groupId entry.fileInfo endpoint) ∧
      ∃ name content, entry.fileInfo = getFileInfo setting.sha1 name content ∧
        (∃ later j line past source path, history = later ++ .input j line :: past ∧
          Run (start setting) (ExclusiveStep setting involved) past source ∧
            (source.client j).disk path = some content) ∧
          ((swarm.client i).disk entry.filePath = some content ↔ Restorable content) := by
  obtain ⟨listed, name, content, shared, consistent⟩ :=
    (transferring_run injective run).faithful i entry queued
  refine ⟨listed, name, content, consistent.fileInfo, ?_, ?_⟩
  · obtain ⟨later, j, line, past, source, path, split, earlier, _, there⟩ := shared
    exact ⟨later, j, line, past, source, path, split, earlier, there⟩
  · have nonempty : content ≠ [] := by
      rintro rfl
      have described := consistent.fileInfo
      exact pieces (by rw [described]; rfl)
    exact consistent.eq_content_iff nonempty (inside_of_shared shared) injective complete

end Shared

end Swarm

end P2PFileShare
