import P2PFileShare.Client.Commands
import P2PFileShare.Models.EndpointText

/-!
# The peers of a download

For every seeder that a reply lists, `process_input` calls `addPeer`, which refuses an id
that is known, and `addFile`, which refuses one that is not.  `download_piece` asks the
peers that `getPeers` finds under the group and the hash of its file.
-/

namespace P2PFileShare

open Container Text Transition

namespace PeerDB

/-- A seeder is noted for a file. -/
def note (platform : Platform) (db : PeerDB) (listing : Endpoint × FileId) : PeerDB :=
  let id := listing.1.generateId platform
  ((db.addPeer id listing.1).2.addFile id listing.2.groupId listing.2.fileName).2

/-- Every peer has the files that its endpoint is listed for, and every endpoint that is
listed is a peer. -/
structure Holds (platform : Platform) (listed : Endpoint → FileId → Prop) (db : PeerDB) :
    Prop where
  keyed : ∀ id peer, db.peers.find? id = some peer → peer.endpoint.generateId platform = id
  named : ∀ id peer, db.peers.find? id = some peer → ∃ file, listed peer.endpoint file
  files : ∀ id peer, db.peers.find? id = some peer →
    ∀ file, file ∈ peer.files ↔ listed peer.endpoint file
  known : ∀ endpoint file, listed endpoint file →
    ∃ peer, db.peers.find? (endpoint.generateId platform) = some peer ∧ peer.endpoint = endpoint

section Holds

variable {platform : Platform} {listed : Endpoint → FileId → Prop} {db : PeerDB}
  {iteration : IterationOrder}

theorem Holds.congr {other : Endpoint → FileId → Prop} (holds : db.Holds platform listed)
    (same : ∀ endpoint file, listed endpoint file ↔ other endpoint file) :
    db.Holds platform other := by
  obtain rfl : listed = other :=
    funext fun endpoint => funext fun file => propext (same endpoint file)
  exact holds

theorem holds_empty : Holds platform (fun _ _ => False) {} where
  keyed _ _ found := nomatch found
  named _ _ found := nomatch found
  files _ _ found := nomatch found
  known _ _ absent := absent.elim

/-- What is at an id after a seeder was noted: at its own id the peer with one file more. -/
theorem Holds.find?_note (holds : db.Holds platform listed) {endpoint : Endpoint} (file : FileId)
    (injective : ∀ other others, listed other others →
      other.generateId platform = endpoint.generateId platform → other = endpoint) :
    ∃ peer : Peer, peer.endpoint = endpoint ∧
      (∀ other, other ∈ peer.files ↔ listed endpoint other ∨ other = file) ∧
        (db.note platform (endpoint, file)).peers.find? =
          Function.update db.peers.find? (endpoint.generateId platform) (some peer) := by
  cases found : db.peers.find? (endpoint.generateId platform) with
  | some peer =>
      obtain ⟨some_file, named⟩ := holds.named _ peer found
      have same : peer.endpoint = endpoint :=
        injective peer.endpoint some_file named (holds.keyed _ peer found)
      refine ⟨{ peer with files := peer.files.insert file }, same, ?_, ?_⟩
      · intro other
        rw [UnorderedSet.mem_insert, holds.files _ peer found, same, or_comm]
      · simp [note, addPeer, addFile, found]
  | none =>
      have unlisted : ∀ other, ¬listed endpoint other := by
        intro other isListed
        obtain ⟨peer, known, _⟩ := holds.known endpoint other isListed
        rw [found] at known
        cases known
      refine ⟨{ id := endpoint.generateId platform, endpoint,
                files := UnorderedSet.insert {} file }, rfl, ?_, ?_⟩
      · intro other
        rw [UnorderedSet.mem_insert]
        have nothing : other ∉ ({} : UnorderedSet FileId) := UnorderedSet.not_mem_empty other
        simp [nothing, unlisted]
      · simp [note, addPeer, addFile, found]

theorem Holds.note (holds : db.Holds platform listed) (endpoint : Endpoint) (file : FileId)
    (injective : ∀ other others, listed other others →
      other.generateId platform = endpoint.generateId platform → other = endpoint) :
    (db.note platform (endpoint, file)).Holds platform fun other others =>
      listed other others ∨ other = endpoint ∧ others = file := by
  rcases holds.find?_note file injective with ⟨peer, same, files, noted⟩
  have elsewhere {id : EndpointID} {older : Peer} (distinct : id ≠ endpoint.generateId platform)
      (found : (db.note platform (endpoint, file)).peers.find? id = some older) :
      db.peers.find? id = some older ∧ older.endpoint ≠ endpoint := by
    rw [noted, Function.update_of_ne distinct] at found
    refine ⟨found, fun reached => distinct ?_⟩
    rw [← holds.keyed id older found, reached]
  have here {found : Peer} (atId : (db.note platform (endpoint, file)).peers.find?
      (endpoint.generateId platform) = some found) : found = peer := by
    rw [noted, Function.update_self] at atId
    exact (Option.some.inj atId).symm
  constructor
  case keyed =>
    intro id found atId
    by_cases own : id = endpoint.generateId platform
    · subst own
      rw [here atId, same]
    · exact holds.keyed id found (elsewhere own atId).1
  case named =>
    intro id found atId
    by_cases own : id = endpoint.generateId platform
    · subst own
      exact ⟨file, Or.inr ⟨(here atId).symm ▸ same, rfl⟩⟩
    · obtain ⟨others, known⟩ := holds.named id found (elsewhere own atId).1
      exact ⟨others, Or.inl known⟩
  case files =>
    intro id found atId others
    by_cases own : id = endpoint.generateId platform
    · subst own
      rw [here atId, files others, same, and_iff_right rfl]
    · obtain ⟨older, distinct⟩ := elsewhere own atId
      rw [holds.files id found older others, or_iff_left fun new => distinct new.1]
  case known =>
    intro other others isListed
    by_cases own : other.generateId platform = endpoint.generateId platform
    · have reached : other = endpoint := by
        rcases isListed with older | new
        · exact injective other others older own
        · exact new.1
      exact ⟨peer, by rw [noted, own, Function.update_self], same.trans reached.symm⟩
    · rcases isListed with older | new
      · obtain ⟨found, atId, its⟩ := holds.known other others older
        exact ⟨found, by rw [noted, Function.update_of_ne own, atId], its⟩
      · exact absurd (congrArg (Endpoint.generateId platform) new.1) own

/-- Seeders are noted one after another. -/
theorem Holds.foldl_note (holds : db.Holds platform listed) {listings : List (Endpoint × FileId)}
    (injective : Set.InjOn (Endpoint.generateId platform)
      {endpoint | ∃ file, listed endpoint file ∨ (endpoint, file) ∈ listings}) :
    (listings.foldl (PeerDB.note platform) db).Holds platform fun endpoint file =>
      listed endpoint file ∨ (endpoint, file) ∈ listings := by
  induction listings generalizing db listed with
  | nil => exact holds.congr fun _ _ => by simp
  | cons listing listings ih =>
      obtain ⟨endpoint, file⟩ := listing
      have noted := holds.note endpoint file fun other others older same =>
        injective ⟨others, Or.inl older⟩ ⟨file, Or.inr List.mem_cons_self⟩ same
      have rearranged : ∀ other others,
          (listed other others ∨ other = endpoint ∧ others = file) ∨ (other, others) ∈ listings ↔
            listed other others ∨ (other, others) ∈ (endpoint, file) :: listings := by
        intro other others
        rw [List.mem_cons, Prod.mk.injEq, or_assoc]
      refine (ih noted (injective.mono ?_)).congr rearranged
      rintro other ⟨others, member⟩
      exact ⟨others, (rearranged other others).mp member⟩

/-- No endpoint is found twice. -/
theorem Holds.nodup_getPeers (holds : db.Holds platform listed) (groupId fileName : Bytes) :
    ((db.getPeers iteration groupId fileName).map fun peer => peer.endpoint).Nodup := by
  have ids : ((iteration.order db.peers.keys).filterMap fun id =>
      (db.peers.find? id).map fun peer => peer.endpoint).Nodup := by
    refine List.Nodup.filterMap ?_
      ((iteration.perm db.peers.keys).nodup_iff.mpr db.peers.keys.nodup_toList)
    intro id other endpoint atId atOther
    obtain ⟨peer, found, rfl⟩ := Option.map_eq_some_iff.mp atId
    obtain ⟨same, foundToo, endpoints⟩ := Option.map_eq_some_iff.mp atOther
    rw [← holds.keyed id peer found, ← holds.keyed other same foundToo, endpoints]
  rw [← List.map_filterMap] at ids
  exact ids.sublist (List.filter_sublist.map _)

/-- The endpoints found are those that are listed for the file. -/
theorem Holds.mem_getPeers_iff (holds : db.Holds platform listed) {groupId fileName : Bytes}
    {endpoint : Endpoint} :
    endpoint ∈ (db.getPeers iteration groupId fileName).map (fun peer => peer.endpoint) ↔
      listed endpoint { groupId, fileName } := by
  simp only [getPeers, List.mem_map, List.mem_filter, List.mem_filterMap, decide_eq_true_eq,
    IterationOrder.mem_order]
  constructor
  · rintro ⟨peer, ⟨⟨id, _, found⟩, hasFile⟩, rfl⟩
    exact (holds.files id peer found _).mp hasFile
  · intro isListed
    obtain ⟨peer, found, rfl⟩ := holds.known endpoint _ isListed
    refine ⟨peer, ⟨⟨_, ?_, found⟩, (holds.files _ peer found _).mpr isListed⟩, rfl⟩
    rw [db.peers.mem_keys_iff, found]
    rfl

end Holds

end PeerDB

/-! ## What a reply lists -/

namespace File

/-- What `process_input` notes of a file: its seeders, with the key under which
`download_piece` looks for them. -/
def listings (platform : Platform) (file : File) : List (Endpoint × FileId) :=
  (platform.objects (file.groupId, file.fileInfo.hash) file.seeders).map fun seeder =>
    (seeder.2, { groupId := file.groupId, fileName := file.fileInfo.hash })

section Listings

variable {platform : Platform} {file : File}

theorem mem_listings {endpoint : Endpoint} {key : FileId} :
    (endpoint, key) ∈ file.listings platform ↔
      endpoint ∈ file.seeders ∧
        key = { groupId := file.groupId, fileName := file.fileInfo.hash } := by
  simp only [listings, List.mem_map, Prod.mk.injEq]
  constructor
  · rintro ⟨⟨place, seeder⟩, member, rfl, rfl⟩
    exact ⟨List.mem_of_getElem? (platform.mem_objects.mp member), rfl⟩
  · rintro ⟨member, rfl⟩
    obtain ⟨place, object⟩ := platform.exists_mem_objects
      (file.groupId, file.fileInfo.hash) member
    exact ⟨(place, endpoint), object, rfl, rfl⟩

theorem addSeeders_seedersOf (db : PeerDB) :
    ClientState.addSeeders db file.groupId file.fileInfo.hash
        (ClientState.seedersOf platform file) =
      (file.listings platform).foldl (PeerDB.note platform) db := by
  rw [ClientState.addSeeders, ClientState.seedersOf, listings, List.foldl_map, List.foldl_map]
  rfl

/-- Every seeder is one that `Endpoint::from_string` returned. -/
theorem readSeeders_parsed {count : Nat} {stream rest : Stream} {seeders : List Endpoint}
    (read : readSeeders count stream = .ok (seeders, rest)) :
    ∀ seeder ∈ seeders, ∃ word, Endpoint.fromString word = .ok seeder := by
  induction count generalizing stream rest seeders with
  | zero =>
      obtain ⟨rfl, _⟩ := Prod.mk.inj (Except.ok.inj read)
      simp
  | succ count ih =>
      simp only [readSeeders, bind, Except.bind, pure, Except.pure] at read
      split at read
      · cases read
      · next first parsed =>
          split at read
          · cases read
          · next readOthers =>
              obtain ⟨rfl, _⟩ := Prod.mk.inj (Except.ok.inj read)
              intro seeder member
              rcases List.mem_cons.mp member with rfl | behind
              · exact ⟨_, parsed⟩
              · exact ih readOthers seeder behind

theorem fromString_parsed {str : Bytes} (decoded : fromString platform str = .ok file) :
    ∀ seeder ∈ file.seeders, ∃ word, Endpoint.fromString word = .ok seeder := by
  simp only [fromString, bind, Except.bind, pure, Except.pure] at decoded
  split at decoded
  · cases decoded
  · next read reads =>
      split at decoded
      · cases decoded
      · rw [← Except.ok.inj decoded]
        exact readSeeders_parsed reads

theorem decodeDownload_parsed {response : Bytes}
    (decoded : decodeDownload platform response = .ok (some file)) :
    ∀ seeder ∈ file.seeders, ∃ word, Endpoint.fromString word = .ok seeder := by
  simp only [decodeDownload, bind, Except.bind, pure, Except.pure] at decoded
  split at decoded
  · cases decoded
  · split at decoded
    · cases decoded
    · split at decoded
      · split at decoded
        · cases decoded
        · next parsed =>
            obtain rfl := Option.some.inj (Except.ok.inj decoded)
            exact fromString_parsed parsed
      · cases decoded

end Listings

end File

namespace ClientState

/-! ## Runs with replies -/

/-- The reply to a download is processed, or something else happens at the client. -/
inductive ReplyEvent
  | reply (response destinationPath : Bytes)
  | other (event : Event)

/-- Everything but the processing of replies is a step of the client.  That notes no
seeders: only the processing of a reply does. -/
inductive ReplyStep (sha1 : Bytes → Bytes) (platform : Platform) :
    ClientState → ReplyEvent → ClientState → Prop
  | reply {client next : ClientState} {response destinationPath : Bytes} :
      ¬client.Joining → client.conclude platform response (.file destinationPath) = .ok next →
        ReplyStep sha1 platform client (.reply response destinationPath) next
  | other {client next : ClientState} {event : Event} :
      Step sha1 platform.toIterationOrder client event next →
        (∀ groupId hash seeders, event ≠ .addSeeders groupId hash seeders) →
          ReplyStep sha1 platform client (.other event) next

/-- The file that a reply describes, if it is a successful one. -/
def ReplyEvent.file (platform : Platform) : ReplyEvent → Option File
  | .reply response _ => (decodeDownload platform response).toOption.join
  | .other _ => none

/-- The files of all replies that were processed. -/
def repliedFiles (platform : Platform) (history : List ReplyEvent) : List File :=
  history.filterMap (ReplyEvent.file platform)

/-- The strings that are hashed for the peers. -/
def seederTexts (platform : Platform) (history : List ReplyEvent) : Set Bytes :=
  {text | ∃ file ∈ repliedFiles platform history, ∃ seeder ∈ file.seeders, seeder.toString = text}

/-- Some reply lists the endpoint under the key. -/
def Listed (platform : Platform) (history : List ReplyEvent) (endpoint : Endpoint)
    (key : FileId) : Prop :=
  ∃ file ∈ repliedFiles platform history, (endpoint, key) ∈ file.listings platform

section Peers

variable {sha1 : Bytes → Bytes} {platform : Platform} {client next : ClientState}
  {event : ReplyEvent} {history : List ReplyEvent}

theorem enqueueDownload_peerDb {groupId outputFilePath : Bytes} {fileInfo : FileInfo}
    {address : Nat} :
    (client.enqueueDownload groupId fileInfo address outputFilePath).2.peerDb = client.peerDb := by
  rcases enqueueDownload_cases client groupId fileInfo address outputFilePath with
    ⟨_, refused⟩ | ⟨_, queued⟩
  · rw [refused]
  · rw [queued]

theorem startDownloads_running : client.startDownloads.2.running = true := by
  rw [startDownloads]
  split
  · assumption
  · rfl

theorem startDownloads_peerDb : client.startDownloads.2.peerDb = client.peerDb := by
  rw [startDownloads_eq]

/-- The worker asks peers, and changes none. -/
theorem work_peerDb {iteration : IterationOrder} {answers : PeerDB.Peer → Bytes → Exchange}
    (work : client.work sha1 iteration answers = .ok next) : next.peerDb = client.peerDb := by
  rcases work_marks work with ⟨_, rfl⟩ | ⟨_, _, _, _, _, _, _, _, rfl⟩
  · rfl
  · rfl

theorem step_peerDb {iteration : IterationOrder} {event : Event}
    (step : Step sha1 iteration client event next)
    (noSeeders : ∀ groupId hash seeders, event ≠ .addSeeders groupId hash seeders) :
    next.peerDb = client.peerDb := by
  cases step with
  | addPartfile _ => rfl
  | addSeeders _ => exact absurd rfl (noSeeders _ _ _)
  | enqueueDownload _ => exact enqueueDownload_peerDb
  | startDownloads _ => exact startDownloads_peerDb
  | pauseDownloads _ => rw [pauseDownloads_eq]
  | work work => exact work_peerDb work
  | changeDisk => rfl

/-- Only a successful reply changes the peers: its seeders are noted. -/
theorem ReplyStep.peerDb (step : ReplyStep sha1 platform client event next) :
    (event.file platform = none ∧ next.peerDb = client.peerDb) ∨
      ∃ file, event.file platform = some file ∧
        next.peerDb = (file.listings platform).foldl (PeerDB.note platform) client.peerDb := by
  cases step with
  | @reply _ response _ _ concluded =>
      cases decoded : decodeDownload platform response with
      | error error =>
          simp only [conclude, decoded, bind, Except.bind] at concluded
          cases concluded
      | ok found =>
          cases found with
          | none =>
              simp only [conclude, decoded, bind, Except.bind, pure, Except.pure] at concluded
              rw [← Except.ok.inj concluded]
              exact Or.inl ⟨by simp [ReplyEvent.file, decoded, Except.toOption], rfl⟩
          | some file =>
              rw [conclude_file decoded] at concluded
              right
              refine ⟨file, by simp [ReplyEvent.file, decoded, Except.toOption], ?_⟩
              rw [← Except.ok.inj concluded, startDownloads_peerDb, enqueueDownload_peerDb]
              exact File.addSeeders_seedersOf client.peerDb
  | other step noSeeders => exact Or.inl ⟨rfl, step_peerDb step noSeeders⟩

theorem seeders_noColon {file : File} (replied : file ∈ repliedFiles platform history) :
    ∀ seeder ∈ file.seeders, ∀ byte ∈ seeder.ip, byte ≠ Endpoint.colon := by
  intro seeder member
  obtain ⟨event, _, decoded⟩ := List.mem_filterMap.mp replied
  cases event with
  | reply response _ =>
      have parsed : decodeDownload platform response = .ok (some file) := by
        cases result : decodeDownload platform response with
        | error error => simp [ReplyEvent.file, result, Except.toOption] at decoded
        | ok found =>
            simp only [ReplyEvent.file, result, Except.toOption, Option.join_some] at decoded
            rw [decoded]
      obtain ⟨word, read⟩ := File.decodeDownload_parsed parsed seeder member
      exact Endpoint.noColon_of_fromString read
  | other _ => cases decoded

/-- Without a collision among the strings, different endpoints have different ids. -/
theorem injOn_generateId
    (noCollision : Set.InjOn platform.stringHash (seederTexts platform history)) :
    Set.InjOn (Endpoint.generateId platform)
      {endpoint | ∃ key, Listed platform history endpoint key} := by
  rintro endpoint ⟨key, file, replied, listing⟩ other ⟨otherKey, otherFile, otherReplied,
    otherListing⟩ same
  have member := (File.mem_listings.mp listing).1
  have otherMember := (File.mem_listings.mp otherListing).1
  exact Endpoint.eq_of_toString_eq (seeders_noColon replied endpoint member)
    (seeders_noColon otherReplied other otherMember)
    (noCollision ⟨file, replied, endpoint, member, rfl⟩
      ⟨otherFile, otherReplied, other, otherMember, rfl⟩ same)

theorem listed_cons_none (noFile : event.file platform = none) {endpoint : Endpoint}
    {key : FileId} :
    Listed platform (event :: history) endpoint key ↔ Listed platform history endpoint key := by
  simp only [Listed, repliedFiles, List.filterMap_cons, noFile]

theorem listed_cons_some {file : File} (itsFile : event.file platform = some file)
    {endpoint : Endpoint} {key : FileId} :
    Listed platform (event :: history) endpoint key ↔
      Listed platform history endpoint key ∨ (endpoint, key) ∈ file.listings platform := by
  simp only [Listed, repliedFiles, List.filterMap_cons, itsFile, List.mem_cons, exists_eq_or_imp,
    or_comm]

/-- The peers are the endpoints listed, each with the files it is listed for. -/
theorem peers_hold {disk : Bytes → Option Bytes}
    (run : Run { disk } (ReplyStep sha1 platform) history client)
    (noCollision : Set.InjOn platform.stringHash (seederTexts platform history)) :
    client.peerDb.Holds platform (Listed platform history) := by
  induction run with
  | start => exact PeerDB.holds_empty.congr fun _ _ => by simp [Listed, repliedFiles]
  | @step past source target event _ last ih =>
      have older : seederTexts platform past ⊆ seederTexts platform (event :: past) := by
        rintro text ⟨file, replied, seeder⟩
        exact ⟨file, ((List.sublist_cons_self event past).filterMap _).subset replied, seeder⟩
      have holds := ih (noCollision.mono older)
      rcases last.peerDb with ⟨noFile, same⟩ | ⟨file, itsFile, noted⟩
      · rw [same]
        exact holds.congr fun _ _ => (listed_cons_none noFile).symm
      · rw [noted]
        refine (holds.foldl_note ((injOn_generateId noCollision).mono ?_)).congr
          fun _ _ => (listed_cons_some itsFile).symm
        rintro endpoint ⟨key, listing⟩
        exact ⟨key, (listed_cons_some itsFile).mpr listing⟩

/-- Whatever replies were processed, the peers found for a group and a hash are the
endpoints that some reply lists as seeders of a file with them, each of them once. -/
theorem peers_found {disk : Bytes → Option Bytes}
    (run : Run { disk } (ReplyStep sha1 platform) history client)
    (noCollision : Set.InjOn platform.stringHash (seederTexts platform history))
    (groupId hash : Bytes) :
    ((client.peerDb.getPeers platform.toIterationOrder groupId hash).map
        fun peer => peer.endpoint).Nodup ∧
      ∀ endpoint, endpoint ∈ (client.peerDb.getPeers platform.toIterationOrder groupId hash).map
          (fun peer => peer.endpoint) ↔
        ∃ file ∈ repliedFiles platform history,
          file.groupId = groupId ∧ file.fileInfo.hash = hash ∧ endpoint ∈ file.seeders := by
  have holds := peers_hold run noCollision
  refine ⟨holds.nodup_getPeers groupId hash, fun endpoint => ?_⟩
  rw [holds.mem_getPeers_iff, Listed]
  simp only [File.mem_listings, FileId.mk.injEq]
  constructor
  · rintro ⟨file, replied, seeder, rfl, rfl⟩
    exact ⟨file, replied, rfl, rfl, seeder⟩
  · rintro ⟨file, replied, rfl, rfl, seeder⟩
    exact ⟨file, replied, seeder, rfl, rfl⟩

end Peers

/-! The same reply is processed twice, on a platform that tells its seeders apart. -/

def lastByte : Platform where
  toIterationOrder := .oldestFirst
  stringHash text := UInt64.ofNat (text.getLastD 0).toNat
  uninitialised _ := 0

def twoPiecesReply : Bytes :=
  ascii "1 " ++ twoPiecesFile.toString lastByte

def twoPiecesReplies : List ReplyEvent :=
  [.reply twoPiecesReply (ascii "b"), .reply twoPiecesReply (ascii "a")]

theorem decodeDownload_twoPieces :
    decodeDownload lastByte twoPiecesReply = .ok (some twoPiecesFile) := by
  decide +kernel

theorem peers_found_twoPieces : ∃ client : ClientState,
    Run { disk := fun _ => none } (ReplyStep sha1Letter lastByte) twoPiecesReplies client ∧
      ((client.peerDb.getPeers lastByte.toIterationOrder (ascii "g") (ascii "pq")).map
        fun peer => peer.endpoint).Nodup ∧
      ∀ endpoint, endpoint ∈
          (client.peerDb.getPeers lastByte.toIterationOrder (ascii "g") (ascii "pq")).map
            (fun peer => peer.endpoint) ↔
        ∃ file ∈ repliedFiles lastByte twoPiecesReplies,
          file.groupId = ascii "g" ∧ file.fileInfo.hash = ascii "pq" ∧ endpoint ∈ file.seeders := by
  have distinct : ∀ text ∈ twoPiecesFile.seeders.map Endpoint.toString,
      ∀ other ∈ twoPiecesFile.seeders.map Endpoint.toString,
        lastByte.stringHash text = lastByte.stringHash other → text = other := by
    decide +kernel
  have listed : ∀ text ∈ seederTexts lastByte twoPiecesReplies,
      text ∈ twoPiecesFile.seeders.map Endpoint.toString := by
    rintro text ⟨file, replied, seeder, member, rfl⟩
    obtain rfl : file = twoPiecesFile := by
      simpa [repliedFiles, twoPiecesReplies, ReplyEvent.file, decodeDownload_twoPieces,
        Except.toOption] using replied
    exact List.mem_map_of_mem member
  have replied (source : ClientState) (idle : ¬source.Joining) (destinationPath : Bytes) :
      ∃ target, ¬target.Joining ∧
        ReplyStep sha1Letter lastByte source (.reply twoPiecesReply destinationPath) target :=
    ⟨_, fun joining => absurd (startDownloads_running.symm.trans joining.1) (by decide),
      .reply idle (conclude_file decodeDownload_twoPieces)⟩
  obtain ⟨middle, idle, first⟩ :=
    replied { disk := fun _ => none } (idle_of_outside rfl) (ascii "a")
  obtain ⟨client, _, second⟩ := replied middle idle (ascii "b")
  have run := (Run.start.step first).step second
  exact ⟨_, run, peers_found run
    (fun text member other memberOther =>
      distinct text (listed text member) other (listed other memberOther))
    (ascii "g") (ascii "pq")⟩

end ClientState

end P2PFileShare
