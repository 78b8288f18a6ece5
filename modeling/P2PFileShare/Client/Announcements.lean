import P2PFileShare.Client.Passes

/-!
# Finished downloads are announced

`download_thread_function` calls `on_download_complete` for an entry that has pieces left
in front of a visit and none behind it.  So a file that has pieces is announced once, by
the visit that stores its last piece.  A file without pieces is complete from the start,
and every visit passes over it.
-/

namespace P2PFileShare

open Container Text Transition

/-- The file has pieces, and all are there. -/
def QueuedFile.finished (entry : QueuedFile) : Bool :=
  entry.isComplete && !entry.fileInfo.pieces.isEmpty

namespace ClientState

/-- `on_download_complete` was called for the entry once if it is complete, and not at all
if it is not. -/
def AnnouncedOnce (client : ClientState) (index : Nat) (entry : QueuedFile) : Prop :=
  client.announced.count index = if entry.isComplete then 1 else 0

instance (client : ClientState) (index : Nat) (entry : QueuedFile) :
    Decidable (client.AnnouncedOnce index entry) :=
  inferInstanceAs (Decidable (_ = _))

/-- The entries that were visited, after one more event. -/
def visitedAfter (client : ClientState) (visited : List Nat) : Event → List Nat
  | .work _ =>
      match client.worker, client.nextEntry with
      | .visiting index _, some _ => index :: visited
      | _, _ => visited
  | _ => visited

/-- One step, with the entries that were visited so far. -/
def Tour (sha1 : Bytes → Bytes) (iteration : IterationOrder)
    (source : ClientState × List Nat) (event : Event) (target : ClientState × List Nat) : Prop :=
  Step sha1 iteration source.1 event target.1 ∧
    target.2 = source.1.visitedAfter source.2 event

/-- The entries are made as the code makes them, and those whose last piece was stored are
announced once, the others not at all. -/
structure Announces (client : ClientState) : Prop where
  made : ∀ entry ∈ client.downloads, entry.toPartFile.Made
  count : ∀ index, client.announced.count index =
    if client.downloads[index]?.any QueuedFile.finished then 1 else 0

section Announcements

variable {sha1 : Bytes → Bytes} {iteration : IterationOrder} {client next : ClientState}
  {event : Event}

theorem finished_eq_isComplete {entry : QueuedFile} (pieces : entry.fileInfo.pieces ≠ []) :
    entry.finished = entry.isComplete := by
  rw [QueuedFile.finished, List.isEmpty_eq_false_iff.mpr pieces, Bool.not_false, Bool.and_true]

/-- What is queued is complete only if it has no pieces. -/
theorem not_finished_create (groupId outputFilePath : Bytes) (fileInfo : FileInfo)
    (address : Nat) :
    QueuedFile.finished
      { toLocatedPartFile := LocatedPartFile.create groupId fileInfo outputFilePath false
        address } = false := by
  cases pieces : fileInfo.pieces with
  | nil => simp [QueuedFile.finished, LocatedPartFile.create, PartFile.create_fileInfo, pieces]
  | cons piece pieces' =>
      have remains : piece ∈ (PartFile.create groupId fileInfo false).remainingPieces := by
        apply PartFile.mem_create.2.mpr
        rw [pieces]
        exact ⟨rfl, List.mem_cons_self⟩
      simp [QueuedFile.finished, LocatedPartFile.create, PartFile.incomplete_of_mem remains]

theorem Announces.enqueueDownload (announces : client.Announces) (groupId : Bytes)
    (fileInfo : FileInfo) (address : Nat) (outputFilePath : Bytes) :
    (client.enqueueDownload groupId fileInfo address outputFilePath).2.Announces := by
  rcases enqueueDownload_cases client groupId fileInfo address outputFilePath with
    ⟨_, refused⟩ | ⟨_, queued⟩
  · rw [refused]
    exact announces
  · rw [queued]
    constructor
    · intro entry member
      rcases List.mem_append.mp member with older | new
      · exact announces.made entry older
      · rw [List.mem_singleton.mp new]
        exact .create groupId fileInfo false
    · intro index
      rw [announces.count]
      congr 1
      simp only [List.getElem?_append, List.getElem?_singleton]
      split
      · rfl
      · next behind =>
          rw [List.getElem?_eq_none (Nat.le_of_not_lt behind)]
          split
          · simp [not_finished_create]
          · rfl

/-- The visit of an entry that is not complete yet. -/
theorem Announces.visit {answers : PeerDB.Peer → Bytes → Exchange} {index : Nat}
    {entry : QueuedFile} (announces : client.Announces)
    (found : client.downloads[index]? = some entry)
    (visit : client.visit sha1 iteration answers index entry = .ok next) : next.Announces := by
  rcases visit_announces found visit with ⟨_, rfl⟩ | ⟨_, piece, remains, disk, rfl⟩
  · exact announces
  · have made := announces.made entry (List.mem_of_getElem? found)
    have isPiece := made.mem_pieces piece remains
    have incomplete : entry.isComplete = false := PartFile.incomplete_of_mem remains
    have unannounced : client.announced.count index = 0 := by
      simp [announces.count, found, QueuedFile.finished, incomplete]
    constructor
    · intro other member
      rcases List.mem_or_eq_of_mem_set member with older | rfl
      · exact announces.made other older
      · exact made.mark isPiece
    · intro other
      by_cases same : other = index
      · subst same
        have inRange := (List.getElem?_eq_some_iff.mp found).1
        have finished_eq : QueuedFile.finished
            { entry with toPartFile := (entry.markDownloaded piece).2 } =
              (entry.markDownloaded piece).2.isComplete := by
          apply finished_eq_isComplete
          rw [PartFile.markDownloaded_fileInfo]
          exact List.ne_nil_of_mem isPiece
        simp only [List.getElem?_set_self inRange, Option.any_some, finished_eq]
        split
        · rw [List.count_append, unannounced, List.count_singleton_self]
        · exact unannounced
      · have elsewhere : List.count other [index] = 0 :=
          List.count_eq_zero.mpr (mt List.mem_singleton.mp same)
        rw [List.getElem?_set_ne (Ne.symm same), ← announces.count]
        split
        · rw [List.count_append, elsewhere, Nat.add_zero]
        · rfl

theorem Announces.step (announces : client.Announces)
    (step : Step sha1 iteration client event next) : next.Announces := by
  cases step with
  | addPartfile _ => exact ⟨announces.made, announces.count⟩
  | addSeeders _ => exact ⟨announces.made, announces.count⟩
  | enqueueDownload _ => exact announces.enqueueDownload _ _ _ _
  | startDownloads _ =>
      rw [startDownloads_eq]
      exact ⟨announces.made, announces.count⟩
  | pauseDownloads _ =>
      rw [pauseDownloads_eq]
      exact ⟨announces.made, announces.count⟩
  | work work =>
      rcases work_visits work with ⟨_, rfl⟩ | ⟨index, entry, visited, _, found, visit, rfl⟩
      · exact ⟨announces.made, announces.count⟩
      · have after := announces.visit found visit
        exact ⟨after.made, after.count⟩
  | changeDisk => exact ⟨announces.made, announces.count⟩

theorem Announces.run {disk : Bytes → Option Bytes} {history : List Event}
    (run : Run { disk } (Step sha1 iteration) history client) : client.Announces := by
  refine run.invariant (p := fun _ client => client.Announces) ⟨nofun, fun _ => rfl⟩ ?_
  exact fun _ _ _ _ _ announces step => announces.step step

/-- In every state of every run, whether the worker is at its head or not, an entry is
announced once if it is complete and not at all if it is not, exactly if its file has
pieces. -/
theorem announced_once_iff {disk : Bytes → Option Bytes} {history : List Event}
    (run : Run { disk } (Step sha1 iteration) history client) {index : Nat} {entry : QueuedFile}
    (queued : client.downloads[index]? = some entry) :
    client.AnnouncedOnce index entry ↔ entry.fileInfo.pieces ≠ [] := by
  have announces : client.Announces := .run run
  have made := announces.made entry (List.mem_of_getElem? queued)
  rw [AnnouncedOnce, announces.count, queued, Option.any_some]
  constructor
  · intro once none
    have complete : entry.isComplete = true := by
      rw [PartFile.isComplete_iff]
      intro piece remains
      have isPiece := made.mem_pieces piece remains
      rw [none] at isPiece
      cases isPiece
    simp [QueuedFile.finished, complete, none] at once
  · intro pieces
    rw [finished_eq_isComplete pieces]

end Announcements

/-! A file of one letter is downloaded in one visit.  An empty file is queued and visited,
and nobody is told. -/

/-- The client when the worker comes to the letter, which one peer has. -/
def visitingLetter : ClientState where
  peerDb := addSeeders {} (ascii "g") letterInfo.hash
    [(1, { ip := ascii "1.2.3.4", port := 80 })]
  downloads := queuedLetter.downloads
  running := true
  worker := .visiting 0 1
  disk _ := none

theorem announced_once_letter : ∃ history client entry,
    Run { disk := fun _ => none } (Step sha1Letter .oldestFirst) history client ∧
      client.downloads[0]? = some entry ∧ entry.isComplete = true ∧
        client.AnnouncedOnce 0 entry := by
  let seeded : ClientState :=
    { peerDb := visitingLetter.peerDb, disk := fun _ => none }
  let queued : ClientState := { seeded with downloads := queuedLetter.downloads }
  have seeds : Step sha1Letter .oldestFirst { disk := fun _ => none }
      (.addSeeders (ascii "g") letterInfo.hash [(1, { ip := ascii "1.2.3.4", port := 80 })])
      seeded := .addSeeders (idle_of_outside rfl)
  have queues : Step sha1Letter .oldestFirst seeded
      (.enqueueDownload (ascii "g") letterInfo 1 (ascii "new") true) queued :=
    .enqueueDownload (idle_of_outside rfl)
  have starts : Step sha1Letter .oldestFirst queued (.startDownloads true)
      { queued with running := true, worker := .head } := .startDownloads (idle_of_outside rfl)
  have enters : Step sha1Letter .oldestFirst { queued with running := true, worker := .head }
      (.work silentPeers) visitingLetter := .work rfl
  obtain ⟨client, entry, visits, here, complete, pieces⟩ : ∃ client entry,
      visitingLetter.work sha1Letter .oldestFirst (fun _ => servingPeer) = .ok client ∧
        client.downloads[0]? = some entry ∧ entry.isComplete = true ∧
          entry.fileInfo.pieces ≠ [] :=
    ⟨_, _, rfl, rfl, by decide +kernel, by decide +kernel⟩
  have run := ((((Run.start.step seeds).step queues).step starts).step enters).step (.work visits)
  exact ⟨_, client, entry, run, here, complete, (announced_once_iff run here).mpr pieces⟩

/-- What `get_file_info` says of an empty file. -/
def emptyInfo : FileInfo :=
  getFileInfo sha1Letter (ascii "f") []

/-- The client with the empty file queued. -/
def queuedEmpty : ClientState :=
  (enqueueDownload { disk := fun _ => none } (ascii "g") emptyInfo 1 (ascii "new")).2

theorem announced_not_once :
    ¬∀ history client visited, Run ({ disk := fun _ => none }, []) (Tour sha1Letter .oldestFirst)
        history (client, visited) → client.worker = .head →
      (∀ index < client.downloads.length, index ∈ visited) →
        ∀ index entry, client.downloads[index]? = some entry →
          client.AnnouncedOnce index entry := by
  intro claim
  have queues : Tour sha1Letter .oldestFirst ({ disk := fun _ => none }, [])
      (.enqueueDownload (ascii "g") emptyInfo 1 (ascii "new") true) (queuedEmpty, []) :=
    ⟨.enqueueDownload (idle_of_outside rfl), rfl⟩
  have starts : Tour sha1Letter .oldestFirst (queuedEmpty, []) (.startDownloads true)
      ({ queuedEmpty with running := true, worker := .head }, []) :=
    ⟨.startDownloads (idle_of_outside rfl), rfl⟩
  have enters : Tour sha1Letter .oldestFirst
      ({ queuedEmpty with running := true, worker := .head }, []) (.work silentPeers)
      ({ queuedEmpty with running := true, worker := .visiting 0 1 }, []) := ⟨.work rfl, rfl⟩
  have visits : Tour sha1Letter .oldestFirst
      ({ queuedEmpty with running := true, worker := .visiting 0 1 }, []) (.work silentPeers)
      ({ queuedEmpty with running := true, worker := .visiting 1 1 }, [0]) := ⟨.work rfl, rfl⟩
  have ends : Tour sha1Letter .oldestFirst
      ({ queuedEmpty with running := true, worker := .visiting 1 1 }, [0]) (.work silentPeers)
      ({ queuedEmpty with running := true, worker := .head }, [0]) := ⟨.work rfl, rfl⟩
  have run := ((((Run.start.step queues).step starts).step enters).step visits).step ends
  have once := claim _ _ _ run rfl (by decide +kernel) 0 _ rfl
  exact absurd once (by decide +kernel)

end ClientState

end P2PFileShare
