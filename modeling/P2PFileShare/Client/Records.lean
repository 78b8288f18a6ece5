import P2PFileShare.Client.DownloadManager

/-!
# The two records of a download

The queue of the download manager and the database of served files hold a part file
each.  The worker marks its pieces in the queue only, and a download that finds the
queue empty is not entered into the database at all.
-/

namespace P2PFileShare.ClientState

open Container Text Transition

/-- Every queued file is in the database, with the same downloaded pieces. -/
def RecordsAgree (client : ClientState) : Prop :=
  ∀ entry ∈ client.downloads,
    client.myFiles.hasFile entry.groupId entry.fileInfo.name = true ∧
      ∀ piece, client.myFiles.hasPiece entry.groupId entry.fileInfo.name piece = true ↔
        piece ∈ entry.downloadedPieces

/-- The entry that a database holds, or will hold, for a download has no pieces yet. -/
def FindsRecord (client : ClientState) (groupId fileName : Bytes) : Prop :=
  match client.myFiles.files.find? { groupId, fileName } with
  | some partFile => ∀ piece, piece ∉ partFile.downloadedPieces
  | none => client.downloads ≠ []

/-- An accepted download finds, or makes, a record without pieces; and no peer delivers
a piece. -/
def KeepsRecords (sha1 : Bytes → Bytes) (iteration : IterationOrder) (client : ClientState) :
    Event → Prop
  | .enqueueDownload groupId fileInfo address outputFilePath _ =>
      client.Accepts groupId address outputFilePath →
        client.FindsRecord groupId fileInfo.name
  | .work answers =>
      ∀ entry ∈ client.nextEntry, client.Unserved sha1 iteration answers entry
  | _ => True

/-- No piece is both downloaded and missing. -/
def Disjoint (client : ClientState) : Prop :=
  ∀ entry ∈ client.downloads, ∀ piece ∈ entry.downloadedPieces, piece ∉ entry.remainingPieces

section Steps

variable {sha1 : Bytes → Bytes} {iteration : IterationOrder} {client next : ClientState}
  {event : Event}

/-- The two records of one file. -/
theorem recordsAgree_iff :
    client.RecordsAgree ↔ ∀ entry ∈ client.downloads, ∃ partFile,
      client.myFiles.files.find? { groupId := entry.groupId, fileName := entry.fileInfo.name } =
          some partFile ∧
        ∀ piece, piece ∈ partFile.downloadedPieces ↔ piece ∈ entry.downloadedPieces := by
  apply forall₂_congr
  intro entry member
  simp only [FilesDB.hasFile, FilesDB.hasPiece]
  cases client.myFiles.files.find?
      { groupId := entry.groupId, fileName := entry.fileInfo.name } with
  | none => simp
  | some partFile => simp [PartFile.hasPiece_iff]

/-- An entry more in the database changes no record that agrees. -/
theorem RecordsAgree.addPartfile (agree : client.RecordsAgree) (groupId : Bytes)
    (fileInfo : FileInfo) (filePath : Bytes) (allDownloaded : Bool) :
    RecordsAgree { client with
      myFiles := (client.myFiles.addPartfile groupId fileInfo filePath allDownloaded).2 } := by
  rw [recordsAgree_iff] at agree ⊢
  intro entry member
  rcases agree entry member with ⟨partFile, known, same⟩
  exact ⟨partFile, FilesDB.find?_addPartfile_of_some known, same⟩

/-- An accepted download agrees exactly if it finds its record. -/
theorem RecordsAgree.enqueue_iff (agree : client.RecordsAgree) {groupId outputFilePath : Bytes}
    {fileInfo : FileInfo} {address : Nat}
    (accepts : client.Accepts groupId address outputFilePath) :
    (client.enqueueDownload groupId fileInfo address outputFilePath).2.RecordsAgree ↔
      client.FindsRecord groupId fileInfo.name := by
  rcases enqueueDownload_cases client groupId fileInfo address outputFilePath with
    ⟨refuses, _⟩ | ⟨_, queued⟩
  · exact absurd accepts refuses
  have unmarked (piece : Bytes) :
      piece ∉ (PartFile.create groupId fileInfo false).downloadedPieces := by
    rw [PartFile.mem_create.1]
    exact fun marked => (nomatch marked.1)
  have older : RecordsAgree { client with
      myFiles :=
        if client.downloads.isEmpty then client.myFiles
        else (client.myFiles.addPartfile groupId fileInfo outputFilePath false).2 } := by
    split
    · exact agree
    · exact agree.addPartfile groupId fileInfo outputFilePath false
  rw [recordsAgree_iff] at older
  rw [queued, recordsAgree_iff, List.forall_mem_append, List.forall_mem_singleton,
    and_iff_right older]
  simp only [FindsRecord, LocatedPartFile.create, PartFile.create_groupId,
    PartFile.create_fileInfo, unmarked, iff_false]
  -- An older record stays; else there is one only if the queue was not empty.
  cases known : client.myFiles.files.find? { groupId, fileName := fileInfo.name } with
  | some older =>
      have stays : (if client.downloads.isEmpty then client.myFiles
          else (client.myFiles.addPartfile groupId fileInfo outputFilePath false).2).files.find?
            { groupId, fileName := fileInfo.name } = some older := by
        split
        · exact known
        · exact FilesDB.find?_addPartfile_of_some known
      simp only [stays, Option.some.injEq, exists_eq_left']
  | none =>
      cases queue : client.downloads with
      | nil => simp [known]
      | cons first others =>
          simp [FilesDB.find?_addPartfile, known, LocatedPartFile.create, unmarked]

theorem Disjoint.work {answers : PeerDB.Peer → Bytes → Exchange} (disjoint : client.Disjoint)
    (work : client.work sha1 iteration answers = .ok next) : next.Disjoint := by
  rcases work_marks work with ⟨_, rfl⟩ | ⟨index, entry, found, piece, _, _, _, _, rfl⟩
  · exact disjoint
  · intro other member
    rcases List.mem_or_eq_of_mem_set member with older | rfl
    · exact disjoint other older
    · exact PartFile.markDownloaded_disjoint piece (disjoint entry (List.mem_of_getElem? found))

theorem Disjoint.step (disjoint : client.Disjoint)
    (step : Step sha1 iteration client event next) : next.Disjoint := by
  cases step with
  | addPartfile _ => exact disjoint
  | addSeeders _ => exact disjoint
  | @enqueueDownload groupId outputFilePath fileInfo address _ =>
      rcases enqueueDownload_cases client groupId fileInfo address outputFilePath with
        ⟨_, refused⟩ | ⟨_, queued⟩
      · rw [refused]
        exact disjoint
      · rw [queued]
        refine List.forall_mem_append.mpr ⟨disjoint, List.forall_mem_singleton.mpr ?_⟩
        intro piece marked
        exact (nomatch (PartFile.mem_create.1.mp marked).1)
  | startDownloads _ =>
      rw [startDownloads_eq]
      exact disjoint
  | pauseDownloads _ =>
      rw [pauseDownloads_eq]
      exact disjoint
  | work work => exact disjoint.work work
  | changeDisk => exact disjoint

/-- A piece that is delivered is marked in one of the two records only. -/
theorem RecordsAgree.work_iff {answers : PeerDB.Peer → Bytes → Exchange}
    (agree : client.RecordsAgree) (disjoint : client.Disjoint)
    (work : client.work sha1 iteration answers = .ok next) :
    next.RecordsAgree ↔ client.KeepsRecords sha1 iteration (.work answers) := by
  simp only [KeepsRecords, nextEntry]
  rcases work_cases work with ⟨place, rfl⟩ | ⟨place, _, _, rfl⟩ | ⟨place, _, rfl⟩ |
    ⟨index, stop, place, past, rfl⟩ |
    ⟨index, stop, entry, visited, place, before, found, visit, rfl⟩
  · exact iff_of_true agree (by simp [place])
  · exact iff_of_true agree (by simp [place])
  · exact iff_of_true agree (by simp [place])
  · exact iff_of_true agree (by simp [place, past])
  · simp only [place, List.getElem?_take_of_lt before, found, Option.mem_some_iff, forall_eq']
    rcases visit_cases found visit with
      ⟨unserved, rfl⟩ | ⟨served, piece, remains, disk, announced, rfl⟩
    · exact iff_of_true agree unserved
    · refine iff_of_false ?_ served
      intro agreeAfter
      have member := List.mem_of_getElem? found
      have inRange := (List.getElem?_eq_some_iff.mp found).1
      have held := (agreeAfter _ (List.mem_set inRange _)).2 piece
      simp only [PartFile.markDownloaded_groupId, PartFile.markDownloaded_fileInfo] at held
      have marked : piece ∈ (entry.markDownloaded piece).2.downloadedPieces :=
        PartFile.mem_markDownloaded.mpr (Or.inl rfl)
      have both := ((agree entry member).2 piece).mp (held.mpr marked)
      exact disjoint entry member piece both remains

theorem RecordsAgree.step_iff (agree : client.RecordsAgree) (disjoint : client.Disjoint)
    (step : Step sha1 iteration client event next) :
    next.RecordsAgree ↔ client.KeepsRecords sha1 iteration event := by
  cases step with
  | @addPartfile groupId filePath fileInfo _ =>
      exact iff_of_true (agree.addPartfile groupId fileInfo filePath true) trivial
  | addSeeders _ => exact iff_of_true agree trivial
  | @enqueueDownload groupId outputFilePath fileInfo address _ =>
      by_cases accepts : client.Accepts groupId address outputFilePath
      · rw [agree.enqueue_iff accepts]
        exact ⟨fun finds _ => finds, fun keeps => keeps accepts⟩
      · refine iff_of_true ?_ fun accepted => absurd accepted accepts
        rcases enqueueDownload_cases client groupId fileInfo address outputFilePath with
          ⟨_, refused⟩ | ⟨accepted, _⟩
        · rwa [refused]
        · exact absurd accepted accepts
  | startDownloads _ =>
      rw [startDownloads_eq]
      exact iff_of_true agree trivial
  | pauseDownloads _ =>
      rw [pauseDownloads_eq]
      exact iff_of_true agree trivial
  | work work => exact agree.work_iff disjoint work
  | changeDisk => exact iff_of_true agree trivial

/-- The runs in all of whose states the two records agree are the runs in which every
accepted download finds its record and no piece is ever delivered. -/
theorem records_agree_iff {disk : Bytes → Option Bytes} {history : List Event} :
    Run { disk } (fun source event target =>
        Step sha1 iteration source event target ∧ source.KeepsRecords sha1 iteration event)
        history client ↔
      Run { disk } (fun source event target =>
        Step sha1 iteration source event target ∧ target.RecordsAgree) history client := by
  have nothing : ∀ entry, entry ∉ ({ disk } : ClientState).downloads := fun _ => List.not_mem_nil
  apply Run.kept_iff_good (p := ClientState.Disjoint)
  · exact fun entry member => absurd member (nothing entry)
  · exact fun entry member => absurd member (nothing entry)
  · exact fun source event target disjoint step => disjoint.step step
  · exact fun source event target disjoint agree step => agree.step_iff disjoint step

end Steps

/-- The first download is not in the database. -/
theorem records_disagree :
    ¬∀ history client, Run { disk := diskWithOld } (Step sha1Letter .oldestFirst) history client →
      client.RecordsAgree := by
  intro claim
  have enqueued : Step sha1Letter .oldestFirst { disk := diskWithOld }
      (.enqueueDownload (ascii "g") letterInfo 1 (ascii "new") _) queuedLetter :=
    .enqueueDownload (idle_of_outside rfl)
  have agree := claim _ _ (Run.start.step enqueued)
  have held := (agree _ (List.mem_singleton_self _)).1
  exact (nomatch held)

end P2PFileShare.ClientState
