import P2PFileShare.Client.Passes
import P2PFileShare.Swarm.Transfers

/-!
# Transfers that finish

As long as uploads are sound, the peers that a client notes for a download are clients that
have every piece of it.  When one of them is there at every visit, the worker never fails,
and every visit to an incomplete download brings it one piece further, whatever else the
swarm does in between.
-/

namespace P2PFileShare

open Container Text Transition

/-- The peers of a client are listed seeders of the files that they are noted for, and every
queued download has one. -/
structure ClientState.Equipped (platform : Platform) (directory : Directory)
    (client : ClientState) : Prop where
  peers : ∃ told, client.peerDb.Holds platform told ∧
    (∀ endpoint key, told endpoint key →
      ∃ fileInfo, directory.Knows key.groupId fileInfo endpoint ∧ fileInfo.hash = key.fileName) ∧
    ∀ entry ∈ client.downloads, ∃ endpoint,
      told endpoint { groupId := entry.groupId, fileName := entry.fileInfo.hash }
  made : ∀ entry ∈ client.downloads, entry.toPartFile.Made

namespace ClientState

section Equipment

variable {sha1 : Bytes → Bytes} {platform : Platform} {directory : Directory}
  {client next : ClientState}

theorem Equipped.empty {disk : Bytes → Option Bytes} :
    Equipped platform directory { disk } where
  peers := ⟨_, PeerDB.holds_empty, fun _ _ absent => absent.elim,
    fun _ member => absurd member List.not_mem_nil⟩
  made _ member := absurd member List.not_mem_nil

/-- What the tracker learns does not matter. -/
theorem Equipped.mono {later : Directory} (equipped : client.Equipped platform directory)
    (knows : ∀ groupId fileInfo endpoint, directory.Knows groupId fileInfo endpoint →
      later.Knows groupId fileInfo endpoint) : client.Equipped platform later where
  peers := by
    obtain ⟨told, holds, listed, served⟩ := equipped.peers
    refine ⟨told, holds, fun endpoint key isTold => ?_, served⟩
    obtain ⟨fileInfo, known, hash⟩ := listed endpoint key isTold
    exact ⟨fileInfo, knows _ _ _ known, hash⟩
  made := equipped.made

theorem Equipped.congr (equipped : client.Equipped platform directory)
    (peerDb : next.peerDb = client.peerDb) (downloads : next.downloads = client.downloads) :
    next.Equipped platform directory := by
  obtain ⟨peers, made⟩ := equipped
  rw [← peerDb, ← downloads] at peers
  rw [← downloads] at made
  exact ⟨peers, made⟩

/-- The worker asks peers, and changes none. -/
theorem Equipped.work {iteration : IterationOrder} {answers : PeerDB.Peer → Bytes → Exchange}
    (equipped : client.Equipped platform directory)
    (work : client.work sha1 iteration answers = .ok next) : next.Equipped platform directory := by
  have peerDb := work_peerDb work
  rcases work_marks work with ⟨worker, rfl⟩ | ⟨index, entry, found, piece, remains, _, _, _, rfl⟩
  · exact equipped.congr rfl rfl
  have queued := List.mem_of_getElem? found
  obtain ⟨told, holds, listed, served⟩ := equipped.peers
  constructor
  · refine ⟨told, holds, listed, fun other member => ?_⟩
    rcases List.mem_or_eq_of_mem_set member with older | rfl
    · exact served other older
    · simpa using served entry queued
  · intro other member
    rcases List.mem_or_eq_of_mem_set member with older | rfl
    · exact equipped.made other older
    · exact (equipped.made entry queued).mark
        ((equipped.made entry queued).mem_pieces piece remains)

/-- An answer to a download notes its seeders. -/
theorem Equipped.conclude {response : Bytes} {awaiting : Awaiting}
    (equipped : client.Equipped platform directory)
    (tells : ∀ file, decodeDownload platform response = .ok (some file) →
      file.seeders ≠ [] ∧ ∀ seeder ∈ file.seeders,
        directory.Knows file.groupId file.fileInfo seeder)
    (injective : Set.InjOn (Endpoint.generateId platform)
      {endpoint | ∃ groupId fileInfo, directory.Knows groupId fileInfo endpoint})
    (concluded : client.conclude platform response awaiting = .ok next) :
    next.Equipped platform directory := by
  rcases conclude_cases concluded with rfl | ⟨destinationPath, file, _, decoded, rfl⟩
  · exact equipped
  obtain ⟨nonempty, knows⟩ := tells file decoded
  obtain ⟨told, holds, listed, served⟩ := equipped.peers
  -- The seeders of the file join those that were noted before.
  let more : Endpoint → FileId → Prop := fun endpoint key =>
    told endpoint key ∨ (endpoint, key) ∈ file.listings platform
  have moreListed : ∀ endpoint key, more endpoint key →
      ∃ fileInfo, directory.Knows key.groupId fileInfo endpoint ∧ fileInfo.hash = key.fileName := by
    rintro endpoint key (older | new)
    · exact listed endpoint key older
    · obtain ⟨seeder, rfl⟩ := File.mem_listings.mp new
      exact ⟨file.fileInfo, knows endpoint seeder, rfl⟩
  have noted : PeerDB.Holds platform more (addSeeders client.peerDb file.groupId
      file.fileInfo.hash (seedersOf platform file)) := by
    rw [File.addSeeders_seedersOf]
    refine holds.foldl_note (injective.mono ?_)
    rintro endpoint ⟨key, isListed⟩
    obtain ⟨fileInfo, known, _⟩ := moreListed endpoint key isListed
    exact ⟨_, fileInfo, known⟩
  have older : ∀ entry ∈ client.downloads, ∃ endpoint,
      more endpoint { groupId := entry.groupId, fileName := entry.fileInfo.hash } := by
    intro entry member
    obtain ⟨endpoint, isTold⟩ := served entry member
    exact ⟨endpoint, Or.inl isTold⟩
  rw [startDownloads_eq]
  rcases enqueueDownload_cases
      { client with
        peerDb := addSeeders client.peerDb file.groupId file.fileInfo.hash
          (seedersOf platform file) }
      file.groupId file.fileInfo client.newAddress destinationPath with
    ⟨_, refused⟩ | ⟨_, queued⟩
  · rw [refused]
    exact ⟨⟨more, noted, moreListed, older⟩, equipped.made⟩
  · rw [queued]
    constructor
    · refine ⟨more, noted, moreListed, fun entry member => ?_⟩
      rcases List.mem_append.mp member with before | new
      · exact older entry before
      · obtain rfl := List.mem_singleton.mp new
        obtain ⟨seeder, isSeeder⟩ := List.exists_mem_of_ne_nil _ nonempty
        exact ⟨seeder, Or.inr (File.mem_listings.mpr ⟨isSeeder, rfl⟩)⟩
    · intro entry member
      rcases List.mem_append.mp member with before | new
      · exact equipped.made entry before
      · obtain rfl := List.mem_singleton.mp new
        exact PartFile.Made.create file.groupId file.fileInfo false

/-- When every incomplete download is supplied, the worker does not fail.  A step either
leaves the queue alone, or takes one piece off the download that it is about. -/
theorem work_supplied {iteration : IterationOrder} {answers : PeerDB.Peer → Bytes → Exchange}
    (made : ∀ entry ∈ client.downloads, entry.toPartFile.Made)
    (supplied : ∀ entry ∈ client.downloads, entry.isComplete = false →
      Supplied sha1 iteration client.peerDb answers entry) :
    ∃ next, client.work sha1 iteration answers = .ok next ∧
      ((next.downloads = client.downloads ∧
          ∀ entry ∈ client.nextEntry, entry.isComplete = true) ∨
        ∃ index stop entry piece, client.worker = .visiting index stop ∧
          client.nextEntry = some entry ∧ client.downloads[index]? = some entry ∧
            piece ∈ entry.remainingPieces ∧
              next.downloads = client.downloads.set index { entry with
                downloadedPieces := entry.downloadedPieces.insert piece
                remainingPieces := entry.remainingPieces.erase piece }) := by
  cases place : client.worker with
  | outside =>
      have same : client.work sha1 iteration answers = .ok client := by
        simp only [ClientState.work, place]
      exact ⟨client, same, Or.inl ⟨rfl, by simp [nextEntry, place]⟩⟩
  | head =>
      have idle : ∀ entry ∈ client.nextEntry, entry.isComplete = true := by
        simp [nextEntry, place]
      simp only [ClientState.work, place]
      split
      · exact ⟨_, rfl, Or.inl ⟨rfl, idle⟩⟩
      · exact ⟨_, rfl, Or.inl ⟨rfl, idle⟩⟩
  | visiting index stop =>
      cases visits : (client.downloads.take stop)[index]? with
      | none =>
          have idle : ∀ entry ∈ client.nextEntry, entry.isComplete = true := by
            simp [nextEntry, place, visits]
          refine ⟨{ client with worker := .head }, ?_, Or.inl ⟨rfl, idle⟩⟩
          simp only [ClientState.work, place, visits]
      | some entry =>
          have before : index < stop := by
            by_contra past
            rw [List.getElem?_take, if_neg past] at visits
            cases visits
          have found : client.downloads[index]? = some entry := by
            rwa [List.getElem?_take, if_pos before] at visits
          have queued := List.mem_of_getElem? found
          have nextEntry_eq : client.nextEntry = some entry := by
            simp only [nextEntry, place, visits]
          obtain ⟨next, disk, announced, progresses, worked⟩ :=
            work_progresses place before found (made entry queued) (supplied entry queued)
          refine ⟨_, worked, ?_⟩
          rcases progresses with ⟨complete, rfl⟩ | ⟨piece, remains, rfl⟩
          · left
            constructor
            · obtain ⟨inRange, here⟩ := List.getElem?_eq_some_iff.mp found
              simp only [← here, List.set_getElem_self]
            · intro other member
              obtain rfl := Option.some.inj (nextEntry_eq.symm.trans member)
              exact complete
          · exact Or.inr ⟨index, stop, entry, piece, rfl, nextEntry_eq, found, remains, rfl⟩

end Equipment

end ClientState

/-- Different clients have different ids. -/
def Setting.Distinct {ι : Type} (setting : Setting ι) : Prop :=
  ∀ i, Set.InjOn (Endpoint.generateId (setting.platform i)) (Set.range setting.endpoint)

namespace Swarm

variable {ι : Type} [DecidableEq ι] {setting : Setting ι} {shared involved : Set Bytes}
  {source target swarm : Swarm ι} {event : SwarmEvent ι} {i : ι}

/-- Clients that are there answer what the worker of a client asks them, so that the answer is
received, and the others refuse the connection.  What is received can be written. -/
structure Honest (swarm : Swarm ι) (setting : Setting ι) (i : ι) (online : ι → Prop)
    (answers : PeerDB.Peer → Bytes → Exchange) : Prop where
  answered : ∀ j peer response, online j → peer.endpoint = setting.endpoint j →
    ∀ entry ∈ (swarm.client i).downloads, ∀ piece ∈ entry.fileInfo.pieces,
      (swarm.client j).processRequest (getRequest entry.toPartFile piece) = .ok response →
        Receivable response ∧
          (answers peer (getRequest entry.toPartFile piece)).reply = .ok response
  refused : ∀ j peer request, ¬online j → peer.endpoint = setting.endpoint j →
    (answers peer request).reply = .error .connectionClosedError
  opened : ∀ peer request, (answers peer request).opened = true

/-- Whenever the worker makes a step, one of the peers of every incomplete download is
there. -/
def Helpful (setting : Setting ι) (swarm : Swarm ι) : SwarmEvent ι → Prop
  | .work i answers => ∃ online, swarm.Honest setting i online answers ∧
      ∀ entry ∈ (swarm.client i).downloads, entry.isComplete = false →
        ∃ peer ∈ (swarm.client i).peerDb.getPeers (setting.platform i).toIterationOrder
          entry.groupId entry.fileInfo.hash, ∃ j, online j ∧ peer.endpoint = setting.endpoint j
  | _ => True

theorem Conversing.range_of_knows (conversing : swarm.Conversing setting) {groupId : Bytes}
    {fileInfo : FileInfo} {endpoint : Endpoint}
    (knows : swarm.tracker.directory.Knows groupId fileInfo endpoint) :
    ∃ j, endpoint = setting.endpoint j := by
  obtain ⟨seeders, lists, seeds⟩ := knows
  exact (conversing.seeded groupId _ lists).2 endpoint seeds

/-- An incomplete download is supplied by the peers that its client has noted. -/
theorem supplied_of_honest (conversing : swarm.Conversing setting)
    (serve : swarm.SeedersServe setting) {answers : PeerDB.Peer → Bytes → Exchange}
    {online : ι → Prop} (honest : swarm.Honest setting i online answers)
    (equipped : (swarm.client i).Equipped (setting.platform i) swarm.tracker.directory)
    {entry : QueuedFile} (queued : entry ∈ (swarm.client i).downloads)
    (listed : ∃ endpoint,
      swarm.tracker.directory.Knows entry.groupId entry.fileInfo endpoint)
    (there : ∃ peer ∈ (swarm.client i).peerDb.getPeers (setting.platform i).toIterationOrder
      entry.groupId entry.fileInfo.hash, ∃ j, online j ∧ peer.endpoint = setting.endpoint j) :
    ClientState.Supplied setting.sha1 (setting.platform i).toIterationOrder
      (swarm.client i).peerDb answers entry := by
  obtain ⟨told, holds, toldListed, _⟩ := equipped.peers
  obtain ⟨_, known⟩ := listed
  have seeds : ∀ peer ∈ (swarm.client i).peerDb.getPeers (setting.platform i).toIterationOrder
      entry.groupId entry.fileInfo.hash,
        swarm.tracker.directory.Knows entry.groupId entry.fileInfo peer.endpoint := by
    intro peer member
    obtain ⟨fileInfo, knows, hash⟩ := toldListed _ _
      (holds.mem_getPeers_iff.mp (List.mem_map_of_mem member))
    rwa [conversing.proper.valid.knows_unique knows known hash] at knows
  have serves : ∀ peer ∈ (swarm.client i).peerDb.getPeers (setting.platform i).toIterationOrder
      entry.groupId entry.fileInfo.hash, ∀ j, online j → peer.endpoint = setting.endpoint j →
        ∀ piece ∈ entry.fileInfo.pieces,
          (answers peer (getRequest entry.toPartFile piece)).Serves setting.sha1 piece := by
    intro peer member j isOnline reached piece isPiece
    obtain ⟨seeders, lists, seeder⟩ := seeds peer member
    rw [reached] at seeder
    obtain ⟨data, answer, hash⟩ := serve entry.groupId _ lists j seeder piece isPiece
    have received := honest.answered j peer _ isOnline reached entry queued piece isPiece answer
    exact ⟨data, received.2, hash⟩
  constructor
  · intro piece isPiece
    obtain ⟨peer, member, j, isOnline, reached⟩ := there
    exact ⟨peer, member, serves peer member j isOnline reached piece isPiece⟩
  · intro piece isPiece peer member
    obtain ⟨j, reached⟩ := conversing.range_of_knows (seeds peer member)
    by_cases isOnline : online j
    · exact Or.inl (serves peer member j isOnline reached piece isPiece)
    · exact Or.inr (Or.inl (honest.refused j peer _ isOnline reached))
  · exact fun piece _ peer _ => honest.opened peer _

/-- What holds as long as uploads are sound. -/
structure Supplying (setting : Setting ι) (shared : Set Bytes) (swarm : Swarm ι) : Prop where
  conversing : swarm.Conversing setting
  serve : swarm.SeedersServe setting
  transferring : swarm.Transferring setting shared
  equipped : ∀ i, (swarm.client i).Equipped (setting.platform i) swarm.tracker.directory

/-- The clients stay equipped. -/
theorem equipped_step (distinct : setting.Distinct) (conversing : source.Conversing setting)
    (equipped : ∀ i, (source.client i).Equipped (setting.platform i) source.tracker.directory)
    (step : OrderlyStep setting source event target) (i : ι) :
    (target.client i).Equipped (setting.platform i) target.tracker.directory := by
  have next := step.1.1
  have one {j : ι} {client : ClientState}
      (its : client.Equipped (setting.platform j) source.tracker.directory) :
      ((source.setClient j client).client i).Equipped (setting.platform i)
        source.tracker.directory := by
    by_cases same : i = j
    · subst same
      simpa only [setClient, Function.update_self] using its
    · simpa only [setClient, Function.update_of_ne same] using equipped i
  cases event with
  | input j line =>
      have its : ((source.client j).submit setting.sha1 (setting.myId j) (setting.endpoint j)
          line).1.Equipped (setting.platform j) source.tracker.directory := by
        rcases (ClientState.submit_cases : ((source.client j).submit setting.sha1 (setting.myId j)
            (setting.endpoint j) line).1 = source.client j ∨ _) with
          same | ⟨_, _, _, _, submitted⟩
        · rw [same]
          exact equipped j
        · rw [submitted]
          exact (equipped j).congr rfl rfl
      rcases (next_input next).2 with ⟨_, rfl⟩ | ⟨request, awaiting, sent, rfl⟩
      · exact one its
      · exact one its
  | serve place network =>
      obtain ⟨j, request, found, rfl⟩ := next_serve next
      exact (equipped i).mono fun _ _ _ knows =>
        knows.processData conversing.proper.valid network request
  | lose place =>
      obtain rfl := Option.some.inj next
      exact equipped i
  | receive place =>
      obtain ⟨j, answer, awaiting, client, found, waits, concluded, rfl⟩ := next_receive next
      apply one
      cases awaiting with
      | answer =>
          obtain rfl := Except.ok.inj concluded
          exact equipped j
      | file destinationPath =>
          refine (equipped j).conclude ?_ ((distinct j).mono ?_) concluded
          · intro file decoded
            rcases conversing.tells j answer destinationPath (List.mem_of_getElem? found) waits with
              nothing | ⟨told, toldDecoded, nonempty, knows⟩
            · cases decoded.symm.trans nothing
            · obtain rfl := Option.some.inj (Except.ok.inj (decoded.symm.trans toldDecoded))
              exact ⟨nonempty, knows⟩
          · rintro endpoint ⟨groupId, fileInfo, knows⟩
            obtain ⟨k, rfl⟩ := conversing.range_of_knows knows
            exact Set.mem_range_self k
  | fail j =>
      obtain rfl := Option.some.inj next
      exact equipped i
  | work j answers =>
      simp only [Swarm.next] at next
      split at next
      · cases next
      · next client worked =>
          obtain rfl := Option.some.inj next
          exact one ((equipped j).work worked)
  | changeDisk j disk =>
      obtain rfl := Option.some.inj next
      exact one ((equipped j).congr rfl rfl)

/-- The incomplete download that a step of a worker is about. -/
def visited (swarm : Swarm ι) : SwarmEvent ι → Option (ι × Nat)
  | .work i _ =>
      match (swarm.client i).worker, (swarm.client i).nextEntry with
      | .visiting index _, some entry => if entry.isComplete then none else some (i, index)
      | _, _ => none
  | _ => none

/-- A step of clients that keep to themselves, offer soundly, and help. -/
def HelpfulStep (setting : Setting ι) (involved : Set Bytes) (source : Swarm ι)
    (event : SwarmEvent ι) (target : Swarm ι) : Prop :=
  ExclusiveStep setting involved source event target ∧ source.Sound setting event ∧
    source.Helpful setting event

/-- The same, with the visits counted. -/
def CountedStep (setting : Setting ι) (involved : Set Bytes) (source : Swarm ι × (ι × Nat → Nat))
    (event : SwarmEvent ι) (target : Swarm ι × (ι × Nat → Nat)) : Prop :=
  HelpfulStep setting involved source.1 event target.1 ∧
    ∀ place, target.2 place =
      source.2 place + if source.1.visited event = some place then 1 else 0

/-- Every visit has taken one piece off its download. -/
def Counts (swarm : Swarm ι) (visits : ι × Nat → Nat) : Prop :=
  ∀ i index,
    (∀ entry, (swarm.client i).downloads[index]? = some entry →
      visits (i, index) + entry.remainingPieces.toList.length =
        entry.fileInfo.pieces.toFinset.card) ∧
      ((swarm.client i).downloads[index]? = none → visits (i, index) = 0)

theorem length_create_remaining (groupId : Bytes) (fileInfo : FileInfo) :
    (PartFile.create groupId fileInfo false).remainingPieces.toList.length =
      fileInfo.pieces.toFinset.card := by
  rw [← List.toFinset_card_of_nodup (UnorderedSet.nodup_toList _)]
  congr 1
  ext piece
  rw [List.mem_toFinset, List.mem_toFinset, UnorderedSet.mem_toList, PartFile.mem_create.2,
    and_iff_right rfl]

/-- What a step does to the queues: one download gets one piece less to go, if the step is
about one, and otherwise a new one may be queued. -/
theorem downloads_step (supplying : Supplying setting shared source)
    (step : HelpfulStep setting involved source event target) :
    (source.visited event = none ∧ ∀ i, (target.client i).downloads = (source.client i).downloads ∨
      ∃ entry, (target.client i).downloads = (source.client i).downloads ++ [entry] ∧
        entry.remainingPieces.toList.length = entry.fileInfo.pieces.toFinset.card) ∨
    ∃ i index entry piece, source.visited event = some (i, index) ∧
      (source.client i).downloads[index]? = some entry ∧ piece ∈ entry.remainingPieces ∧
        ∀ j, (target.client j).downloads =
          if j = i then (source.client i).downloads.set index { entry with
            downloadedPieces := entry.downloadedPieces.insert piece
            remainingPieces := entry.remainingPieces.erase piece }
          else (source.client j).downloads := by
  have next := step.1.1.1.1
  have quiet (queues : ∀ i, (target.client i).downloads = (source.client i).downloads) (i : ι) :
      (target.client i).downloads = (source.client i).downloads ∨
        ∃ entry, (target.client i).downloads = (source.client i).downloads ++ [entry] ∧
          entry.remainingPieces.toList.length = entry.fileInfo.pieces.toFinset.card :=
    Or.inl (queues i)
  cases event with
  | input j line =>
      refine Or.inl ⟨rfl, quiet fun i => ?_⟩
      obtain ⟨queue, _⟩ := @submit_queue setting.sha1 (source.client j) (setting.myId j)
        (setting.endpoint j) line
      have set_eq : ((source.setClient j ((source.client j).submit setting.sha1 (setting.myId j)
          (setting.endpoint j) line).1).client i).downloads = (source.client i).downloads := by
        by_cases same : i = j
        · subst same
          simpa only [setClient, Function.update_self] using queue
        · simp only [setClient, Function.update_of_ne same]
      rcases (next_input next).2 with ⟨_, rfl⟩ | ⟨request, awaiting, sent, rfl⟩
      · exact set_eq
      · exact set_eq
  | serve place network =>
      obtain ⟨j, request, found, rfl⟩ := next_serve next
      exact Or.inl ⟨rfl, quiet fun _ => rfl⟩
  | lose place =>
      obtain rfl := Option.some.inj next
      exact Or.inl ⟨rfl, quiet fun _ => rfl⟩
  | fail j =>
      obtain rfl := Option.some.inj next
      exact Or.inl ⟨rfl, quiet fun _ => rfl⟩
  | changeDisk j disk =>
      obtain rfl := Option.some.inj next
      refine Or.inl ⟨rfl, quiet fun i => ?_⟩
      by_cases same : i = j
      · subst same
        simp only [setClient, Function.update_self]
      · simp only [setClient, Function.update_of_ne same]
  | receive place =>
      obtain ⟨j, answer, awaiting, client, found, waits, concluded, rfl⟩ := next_receive next
      refine Or.inl ⟨rfl, fun i => ?_⟩
      by_cases same : i = j
      · subst same
        simp only [setClient, Function.update_self]
        rcases ClientState.conclude_cases concluded with rfl | ⟨destinationPath, file, _, _, rfl⟩
        · exact Or.inl rfl
        rw [ClientState.startDownloads_eq]
        rcases ClientState.enqueueDownload_cases
            { source.client i with
              peerDb := ClientState.addSeeders (source.client i).peerDb file.groupId
                file.fileInfo.hash (ClientState.seedersOf (setting.platform i) file) }
            file.groupId file.fileInfo (source.client i).newAddress destinationPath with
          ⟨_, refused⟩ | ⟨_, queued⟩
        · rw [refused]
          exact Or.inl rfl
        · rw [queued]
          exact Or.inr ⟨_, rfl, length_create_remaining file.groupId file.fileInfo⟩
      · simp only [setClient, Function.update_of_ne same]
        exact Or.inl trivial
  | work j answers =>
      obtain ⟨online, honest, there⟩ := step.2.2
      obtain ⟨worked, work, outcome⟩ := ClientState.work_supplied (supplying.equipped j).made
        fun entry queued incomplete => supplied_of_honest supplying.conversing supplying.serve
          honest (supplying.equipped j) queued
          (supplying.transferring.faithful j entry queued).listed (there entry queued incomplete)
      simp only [Swarm.next, work, Option.some.injEq] at next
      obtain rfl := next
      rcases outcome with ⟨same, idle⟩ | ⟨index, stop, entry, piece, place, visits, found, remains,
        queue⟩
      · refine Or.inl ⟨?_, quiet fun i => ?_⟩
        · simp only [visited]
          split
          · next visits => rw [if_pos (idle _ visits)]
          · rfl
        · by_cases here : i = j
          · subst here
            simpa only [setClient, Function.update_self] using same
          · simp only [setClient, Function.update_of_ne here]
      · refine Or.inr ⟨j, index, entry, piece, ?_, found, remains, fun i => ?_⟩
        · have incomplete : entry.isComplete = false := PartFile.incomplete_of_mem remains
          simp only [visited, place, visits, incomplete, Bool.false_eq_true, if_false]
        · by_cases here : i = j
          · subst here
            simpa only [setClient, Function.update_self, if_true] using queue
          · simp only [setClient, Function.update_of_ne here, if_neg here]

theorem supplying_run {history : List (SwarmEvent ι)} (distinct : setting.Distinct)
    (injective : Set.InjOn setting.sha1 involved)
    (run : Run (start setting) (HelpfulStep setting involved) history swarm) :
    Supplying setting (sharedIn setting involved history) swarm := by
  have exclusive : Run (start setting) (ExclusiveStep setting involved) history swarm :=
    run.mono fun _ _ _ step => step.1
  have served : swarm.Conversing setting ∧ swarm.SeedersServe setting ∧
      ∀ i, (swarm.client i).Equipped (setting.platform i) swarm.tracker.directory := by
    refine run.invariant (p := fun _ swarm => swarm.Conversing setting ∧
      swarm.SeedersServe setting ∧
        ∀ i, (swarm.client i).Equipped (setting.platform i) swarm.tracker.directory)
      ⟨.start, ?_, fun _ => .empty⟩ ?_
    · rintro groupId entry ⟨view, found, _⟩
      cases found
    · rintro _ source event target _ ⟨conversing, serve, equipped⟩ step
      exact ⟨conversing.step step.1.1,
        (conversing.proper.seedersServe_iff serve step.1.1.1).mpr step.2.1,
        equipped_step distinct conversing equipped step.1.1⟩
  exact ⟨served.1, served.2.1, transferring_run injective exclusive, served.2.2⟩

theorem Counts.step {before after : ι × Nat → Nat} (counts : source.Counts before)
    (supplying : Supplying setting shared source)
    (step : HelpfulStep setting involved source event target)
    (counted : ∀ place, after place =
      before place + if source.visited event = some place then 1 else 0) :
    target.Counts after := by
  rcases downloads_step supplying step with ⟨nothing, queues⟩ |
    ⟨i, index, entry, piece, visits, found, remains, queues⟩
  · have same (place : ι × Nat) : after place = before place := by
      rw [counted, nothing, if_neg nofun, Nat.add_zero]
    intro j place
    rw [same]
    rcases queues j with queue | ⟨entry, queue, whole⟩
    · rw [queue]
      exact counts j place
    · rw [queue, List.getElem?_append]
      split
      · exact counts j place
      · next beyond =>
          have unvisited := (counts j place).2 (List.getElem?_eq_none (Nat.le_of_not_lt beyond))
          rw [unvisited]
          refine ⟨fun new member => ?_, fun _ => rfl⟩
          obtain rfl := List.mem_singleton.mp (List.mem_of_getElem? member)
          rw [Nat.zero_add]
          exact whole
  · intro j place
    have here := counted (j, place)
    rw [visits] at here
    rw [queues j, here]
    by_cases same : j = i
    · subst same
      rw [if_pos rfl, List.getElem?_set]
      by_cases own : index = place
      · subst own
        have inRange := (List.getElem?_eq_some_iff.mp found).1
        have fewer := UnorderedSet.length_erase remains
        have count := (counts j index).1 entry found
        rw [if_pos rfl, if_pos rfl, if_pos inRange]
        refine ⟨fun other member => ?_, nofun⟩
        obtain rfl := Option.some.inj member
        simp only
        omega
      · have other : (some (j, index) : Option (ι × Nat)) ≠ some (j, place) := by
          simpa using own
        rw [if_neg own, if_neg other, Nat.add_zero]
        exact counts j place
    · have other : (some (i, index) : Option (ι × Nat)) ≠ some (j, place) := by
        simpa using fun same' => absurd same'.symm same
      rw [if_neg same, if_neg other, Nat.add_zero]
      exact counts j place

/-- In every run in which uploads are sound, and some noted peer of every incomplete
download answers, the number of visits to a download and the number of its pieces that are
missing add up to the number of its pieces, and no step of a worker fails. -/
theorem transfers_finish {history : List (SwarmEvent ι)} {visits : ι × Nat → Nat}
    (distinct : setting.Distinct) (injective : Set.InjOn setting.sha1 involved)
    (run : Run (start setting, fun _ => 0) (CountedStep setting involved) history
      (swarm, visits)) :
    (∀ i index entry, (swarm.client i).downloads[index]? = some entry →
      visits (i, index) + entry.remainingPieces.toList.length =
        entry.fileInfo.pieces.toFinset.card) ∧
      (∀ i, ∀ entry ∈ (swarm.client i).downloads,
        (swarm.client i).peerDb.getPeers (setting.platform i).toIterationOrder entry.groupId
          entry.fileInfo.hash ≠ []) ∧
        ∀ i answers, swarm.Helpful setting (.work i answers) →
          ∃ target, swarm.next setting (.work i answers) = some target := by
  have plain {history : List (SwarmEvent ι)} {state : Swarm ι × (ι × Nat → Nat)}
      (run : Run (start setting, fun _ => 0) (CountedStep setting involved) history state) :
      Run (start setting) (HelpfulStep setting involved) history state.1 := by
    induction run with
    | start => exact .start
    | step _ last ih => exact ih.step last.1
  have supplying := supplying_run distinct injective (plain run)
  have counts : swarm.Counts visits := by
    refine run.invariant (p := fun _ state => state.1.Counts state.2) ?_ ?_
    · intro i index
      exact ⟨fun entry found => (nomatch found), fun _ => rfl⟩
    · intro past source event target earlier counts step
      exact counts.step (supplying_run distinct injective (plain earlier)) step.1 step.2
  refine ⟨fun i index => (counts i index).1, fun i entry queued nobody => ?_, ?_⟩
  · obtain ⟨told, holds, _, served⟩ := (supplying.equipped i).peers
    obtain ⟨endpoint, isTold⟩ := served entry queued
    have known : endpoint ∈ ((swarm.client i).peerDb.getPeers
        (setting.platform i).toIterationOrder entry.groupId entry.fileInfo.hash).map
          fun peer => peer.endpoint := holds.mem_getPeers_iff.mpr isTold
    rw [nobody] at known
    cases known
  · rintro i answers ⟨online, honest, there⟩
    obtain ⟨worked, work, _⟩ := ClientState.work_supplied (supplying.equipped i).made
      fun entry queued incomplete => supplied_of_honest supplying.conversing supplying.serve
        honest (supplying.equipped i) queued
        (supplying.transferring.faithful i entry queued).listed (there entry queued incomplete)
    exact ⟨swarm.setClient i worked, by simp only [Swarm.next, work]⟩

/-! ## One client, one file

A user offers a file, and downloads it to another path.  All conditions on the steps before
the worker's can be read off the state. -/

/-- The conditions on a step, for the events of commands. -/
def permits (setting : Setting ι) (swarm : Swarm ι) : SwarmEvent ι → Bool
  | .input _ line => (Stream.ofText line).extractWord.1 ≠ ascii "sync"
  | .serve place _ =>
      (swarm.requests[place]?).all fun (i, request) =>
        (parseRequest setting.trackerPlatform (request.drop 1)).all fun transaction =>
          match command setting.trackerPlatform transaction with
          | .group groupId (.upload _ fileInfo) =>
              (swarm.tracker.directory.groups groupId).all fun view =>
                !view.HasContent fileInfo.hash && fileInfo.pieces.all fun piece =>
                  (swarm.client i).myFiles.hasPiece groupId fileInfo.name piece
          | _ => true
  | .receive place =>
      (swarm.answers[place]?).all fun (i, _) =>
        match swarm.awaiting i with
        | some (.file destinationPath) =>
            (swarm.client i).downloads.all fun entry => entry.filePath ≠ destinationPath
        | _ => true
  | _ => false

/-- The swarm after events whose conditions are seen to hold. -/
def rehearse (setting : Setting ι) (swarm : Swarm ι) (events : List (SwarmEvent ι)) :
    Option (Swarm ι) :=
  events.foldlM (fun swarm event =>
    if swarm.permits setting event then
      (swarm.next setting event).filter fun target =>
        target.tracker.groupDB.groups.keys.toList.all fun groupId =>
          (target.tracker.filesOf groupId).all fun file => file.seeders.length < 2 ^ 64
    else none) swarm

theorem countable_of_keys {tracker : Tracker}
    (small : (tracker.groupDB.groups.keys.toList.all fun groupId =>
      (tracker.filesOf groupId).all fun file => file.seeders.length < 2 ^ 64) = true) :
    tracker.Countable := by
  intro groupId file member
  by_cases known : groupId ∈ tracker.groupDB.groups.keys
  · have here := List.all_eq_true.mp small groupId (UnorderedSet.mem_toList.mpr known)
    exact of_decide_eq_true (List.all_eq_true.mp here file member)
  · rw [Tracker.filesOf] at member
    split at member
    · next group found =>
        rw [Tracker.group?, GroupDB.getGroup] at found
        exact absurd (by rw [UnorderedMap.mem_keys_iff, found]; rfl) known
    · cases member

/-- What was permitted is helpful. -/
theorem helpful_of_permits
    (disks : ∀ i path content, (source.client i).disk path = some content →
      ∀ block ∈ Storage.blocks blockSize content, block ∈ involved)
    (permitted : source.permits setting event = true)
    (next : source.next setting event = some target) (countable : target.tracker.Countable) :
    HelpfulStep setting involved source event target ∧ Tame event := by
  cases event with
  | input i line =>
      have tame : Tame (SwarmEvent.input i line) := trivial
      have typed : (Stream.ofText line).extractWord.1 ≠ ascii "sync" := of_decide_eq_true permitted
      exact ⟨⟨⟨⟨.of_tame tame next, typed, countable⟩, disks i⟩, trivial, trivial⟩, tame⟩
  | serve place network =>
      have tame : Tame (SwarmEvent.serve (ι := ι) place network) := trivial
      refine ⟨⟨⟨⟨.of_tame tame next, trivial, countable⟩, trivial⟩, ?_, trivial⟩, tame⟩
      intro i request found groupId endpoint fileInfo view accepts name names piece isPiece
      obtain ⟨transaction, parsing, uploads, viewed, _⟩ := accepts
      rw [Option.mem_def] at parsing
      simp only [permits, found, parsing, uploads, viewed, Option.all_some, Bool.and_eq_true,
        Bool.not_eq_true', decide_eq_false_iff_not] at permitted
      rcases names with ⟨entry, member, same, _⟩ | ⟨_, rfl⟩
      · exact absurd ⟨entry, member, same⟩ permitted.1
      · exact List.all_eq_true.mp permitted.2 piece isPiece
  | receive place =>
      have tame : Tame (SwarmEvent.receive (ι := ι) place) := trivial
      refine ⟨⟨⟨⟨.of_tame tame next, trivial, countable⟩, ?_⟩, trivial, trivial⟩, tame⟩
      intro i answer destinationPath found waits entry queued
      simp only [permits, found, waits, Option.all_some] at permitted
      exact of_decide_eq_true (List.all_eq_true.mp permitted entry queued)
  | lose place => cases permitted
  | fail i => cases permitted
  | work i answers => cases permitted
  | changeDisk i disk => cases permitted

theorem run_rehearse {events history : List (SwarmEvent ι)}
    (run : Run (start setting) (HelpfulStep setting involved) history source)
    (disks : ∀ i path content, (source.client i).disk path = some content →
      ∀ block ∈ Storage.blocks blockSize content, block ∈ involved)
    (all : source.rehearse setting events = some target) :
    (∃ later, Run (start setting) (HelpfulStep setting involved) later target) ∧
      ∀ i, (target.client i).disk = (source.client i).disk := by
  induction events generalizing source history with
  | nil =>
      obtain rfl := Option.some.inj all
      exact ⟨⟨history, run⟩, fun _ => rfl⟩
  | cons event events ih =>
      simp only [rehearse, List.foldlM_cons] at all
      rcases Option.bind_eq_some_iff.mp all with ⟨middle, first, rest⟩
      split at first
      · next permitted =>
          rcases Option.filter_eq_some_iff.mp first with ⟨next, small⟩
          have proper := (conversing_of_exclusive (run.mono fun _ _ _ step => step.1)).proper
          obtain ⟨step, tame⟩ :=
            helpful_of_permits disks permitted next (countable_of_keys small)
          have same := disk_of_tame tame next
          obtain ⟨later, unchanged⟩ := ih (run.step step) (fun i => by rw [same]; exact disks i)
            rest
          exact ⟨later, fun i => (unchanged i).trans (same i)⟩
      · cases first

/-- The worker writes nothing but the output files of its queue. -/
theorem work_disk {client next : ClientState} {sha1 : Bytes → Bytes} {iteration : IterationOrder}
    {answers : PeerDB.Peer → Bytes → Exchange} {path : Bytes}
    (free : ∀ entry ∈ client.downloads, entry.filePath ≠ path)
    (work : client.work sha1 iteration answers = .ok next) : next.disk path = client.disk path := by
  rcases ClientState.work_visits work with ⟨_, rfl⟩ |
    ⟨index, entry, visited, worker, found, visit, rfl⟩
  · rfl
  · have untouched := ClientState.visit_disk (free entry (List.mem_of_getElem? found)) visit
    exact untouched

/-- Whoever is asked, the letter is served. -/
def letterPeers (_ : PeerDB.Peer) (_ : Bytes) : Exchange where
  reply := .ok (ascii "1 a")

/-- The only client has the letter, and what it downloads goes elsewhere. -/
def permitsLetter (source target : Swarm Unit) : Bool :=
  let client := source.client ()
  (client.myFiles.files.keys.toList.all fun key => (client.myFiles.files.find? key).all fun file =>
      client.downloads.all fun entry => entry.filePath ≠ file.filePath) &&
    client.downloads.all fun entry =>
      decide (basename entry.filePath ≠ []) &&
        ((target.client ()).disk entry.filePath).all (fun content => content.length < 2 ^ 63) &&
          (client.peerDb.getPeers .oldestFirst entry.groupId entry.fileInfo.hash).any
              (fun peer => peer.endpoint = oneClient.endpoint ()) &&
            entry.fileInfo.pieces.all fun piece =>
              (client.processRequest (getRequest entry.toPartFile piece)).toOption =
                some (ascii "1 a")

theorem helpful_of_letter {source target : Swarm Unit}
    (permitted : source.permitsLetter target = true) (countable : source.tracker.Countable)
    (next : source.next oneClient (.work () letterPeers) = some target) :
    HelpfulStep oneClient {ascii "a", ascii "b"} source (.work () letterPeers) target := by
  simp only [permitsLetter, Bool.and_eq_true, List.all_eq_true, decide_eq_true_eq,
    UnorderedSet.mem_toList, List.any_eq_true] at permitted
  obtain ⟨apart, queue⟩ := permitted
  have worked := next
  simp only [Swarm.next] at worked
  split at worked
  · cases worked
  next client work =>
  obtain rfl := Option.some.inj worked
  have leaves : LeavesFiles (source.client ()) client := by
    constructor
    · intro key partFile found _ _
      apply work_disk ?_ work
      have known : key ∈ (source.client ()).myFiles.files.keys := by
        rw [UnorderedMap.mem_keys_iff, found]
        rfl
      have free := apart key known
      rw [found, Option.all_some, List.all_eq_true] at free
      exact fun entry queued => of_decide_eq_true (free entry queued)
    · intro regular path content there
      by_cases own : ∃ entry ∈ (source.client ()).downloads, entry.filePath = path
      · obtain ⟨entry, queued, rfl⟩ := own
        obtain ⟨⟨⟨name, small⟩, _⟩, _⟩ := queue entry queued
        rw [show ((source.setClient () client).client ()).disk entry.filePath = some content
          from there, Option.all_some] at small
        exact ⟨of_decide_eq_true small, name⟩
      · have free : ∀ entry ∈ (source.client ()).downloads, entry.filePath ≠ path :=
          fun entry queued same => own ⟨entry, queued, same⟩
        rw [work_disk free work] at there
        exact regular path content there
  refine ⟨⟨⟨⟨next, fun _ => leaves⟩, trivial, countable⟩, ?_⟩, trivial, fun _ => True, ?_, ?_⟩
  · intro peer request response reply
    obtain rfl := Except.ok.inj reply
    exact Or.inl rfl
  · refine ⟨?_, fun _ _ _ absent => absurd trivial absent, fun _ _ => rfl⟩
    intro _ peer response _ _ entry queued piece isPiece answer
    have served := (queue entry queued).2 piece isPiece
    rw [answer] at served
    obtain rfl := Option.some.inj served
    exact ⟨by decide, rfl⟩
  · intro entry queued _
    obtain ⟨peer, member, reached⟩ := (queue entry queued).1.2
    exact ⟨peer, member, (), trivial, reached⟩

theorem twoFiles_blocks (path content : Bytes) (there : twoFiles path = some content) :
    ∀ block ∈ Storage.blocks blockSize content, block ∈ ({ascii "a", ascii "b"} : Set Bytes) := by
  have other : Storage.blocks blockSize (ascii "b") = [ascii "b"] := by decide +kernel
  intro block member
  simp only [twoFiles] at there
  split at there
  · obtain rfl := Option.some.inj there
    rw [blocks_letter] at member
    exact Or.inl (List.mem_singleton.mp member)
  · split at there
    · obtain rfl := Option.some.inj there
      rw [other] at member
      exact Or.inr (List.mem_singleton.mp member)
    · cases there

/-- A user offers a file and asks for it, and the worker makes two steps. -/
def letterLines : List Bytes :=
  [ascii "create_user u p", ascii "login u p", ascii "create_group g", ascii "upload_file a g",
    ascii "download_file g a c"]

/-- The swarm when the file has been downloaded. -/
def letterSwarm : Option (Swarm Unit) := do
  let asked ← (start oneClient).rehearse oneClient (letterLines.flatMap roundTrip)
  let started ← asked.next oneClient (.work () letterPeers)
  let finished ← started.next oneClient (.work () letterPeers)
  if asked.permitsLetter started && started.permitsLetter finished then some finished else none

theorem letterSwarm_complete : (letterSwarm.any fun swarm =>
    ((swarm.client ()).downloads[0]?).any fun entry =>
      entry.isComplete && !entry.fileInfo.pieces.isEmpty) = true := by
  decide +kernel

theorem letterSwarm_run : ∃ history swarm entry,
    Run (start oneClient) (HelpfulStep oneClient {ascii "a", ascii "b"}) history swarm ∧
      (swarm.client ()).downloads[0]? = some entry ∧ entry.isComplete = true ∧
        entry.fileInfo.pieces ≠ [] := by
  obtain ⟨finished, reached, complete⟩ := (Option.any_eq_true _ _).mp letterSwarm_complete
  obtain ⟨entry, found, whole⟩ := (Option.any_eq_true _ _).mp complete
  simp only [Bool.and_eq_true, Bool.not_eq_true', List.isEmpty_eq_false_iff] at whole
  rw [letterSwarm] at reached
  obtain ⟨asked, rehearsed, reached⟩ := Option.bind_eq_some_iff.mp reached
  obtain ⟨started, first, reached⟩ := Option.bind_eq_some_iff.mp reached
  obtain ⟨last, second, reached⟩ := Option.bind_eq_some_iff.mp reached
  split at reached
  · next permitted =>
      obtain rfl := Option.some.inj reached
      rw [Bool.and_eq_true] at permitted
      have disks : ∀ i path content, ((start oneClient).client i).disk path = some content →
          ∀ block ∈ Storage.blocks blockSize content,
            block ∈ ({ascii "a", ascii "b"} : Set Bytes) := fun _ => twoFiles_blocks
      obtain ⟨⟨_, run⟩, _⟩ := run_rehearse .start disks rehearsed
      have countable {history : List (SwarmEvent Unit)} {swarm : Swarm Unit}
          (run : Run (start oneClient) (HelpfulStep oneClient {ascii "a", ascii "b"}) history
            swarm) : swarm.tracker.Countable :=
        (conversing_of_exclusive (run.mono fun _ _ _ step => step.1)).countable
      have runStarted := run.step (helpful_of_letter permitted.1 (countable run) first)
      exact ⟨_, last, entry,
        runStarted.step (helpful_of_letter permitted.2 (countable runStarted) second), found,
        whole.1, whole.2⟩
  · cases reached

theorem oneClient_distinct : oneClient.Distinct :=
  fun _ => Set.Subsingleton.injOn (Set.subsingleton_range _) _

theorem sha1Letters_injOn : Set.InjOn sha1Letters {ascii "a", ascii "b"} := by
  rintro _ (rfl | rfl) _ (rfl | rfl) same
  · rfl
  · exact absurd same (by decide)
  · exact absurd same (by decide)
  · rfl

theorem transfers_faithful_letter : ∃ swarm : Swarm Unit,
    ∃ entry ∈ (swarm.client ()).downloads, entry.isComplete = true ∧
      (∃ endpoint, swarm.tracker.directory.Knows entry.groupId entry.fileInfo endpoint) ∧
        ∃ name content, entry.fileInfo = getFileInfo sha1Letters name content ∧
          ((swarm.client ()).disk entry.filePath = some content ↔ Restorable content) := by
  obtain ⟨_, swarm, entry, run, found, complete, pieces⟩ := letterSwarm_run
  have queued := List.mem_of_getElem? found
  obtain ⟨knows, name, content, described, _, restored⟩ := transfers_faithful sha1Letters_injOn
    (run.mono fun _ _ _ step => step.1) queued complete pieces
  exact ⟨swarm, entry, queued, complete, knows, name, content, described, restored⟩

/-- Visits can be counted in every run. -/
theorem exists_counted {history : List (SwarmEvent ι)}
    (run : Run (start setting) (HelpfulStep setting involved) history swarm) :
    ∃ visits, Run (start setting, fun _ => 0) (CountedStep setting involved) history
      (swarm, visits) := by
  induction run with
  | start => exact ⟨_, .start⟩
  | @step past source target event _ last ih =>
      obtain ⟨visits, counted⟩ := ih
      exact ⟨fun place => visits place + if source.visited event = some place then 1 else 0,
        counted.step ⟨last, fun _ => rfl⟩⟩

theorem transfers_finish_letter : ∃ (swarm : Swarm Unit) (visits : Unit × Nat → Nat) (entry : _),
    (swarm.client ()).downloads[0]? = some entry ∧ entry.fileInfo.pieces ≠ [] ∧
      visits ((), 0) + entry.remainingPieces.toList.length =
        entry.fileInfo.pieces.toFinset.card := by
  obtain ⟨_, swarm, entry, run, found, _, pieces⟩ := letterSwarm_run
  obtain ⟨visits, counted⟩ := exists_counted run
  exact ⟨swarm, visits, entry, found, pieces,
    (transfers_finish oneClient_distinct sha1Letters_injOn counted).1 () 0 entry found⟩

end Swarm

end P2PFileShare
