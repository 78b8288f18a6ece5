import P2PFileShare.Client.Commands

/-!
# The queue of downloads

`DownloadManager::enqueue_download` refuses a download whose output file exists, or whose
file is queued for the group already.  The second look compares pointers, and
`File::from_string` makes a new object for every reply, so that it never finds one.  The
first one finds nothing as long as no piece was written.
-/

namespace P2PFileShare

open Container Text Transition

/-- The group and the hash, by which peers are looked up for the file. -/
def QueuedFile.content (entry : QueuedFile) : Bytes × Bytes :=
  (entry.groupId, entry.fileInfo.hash)

namespace ClientState

/-- No two entries are for the same file in the same group, and no two for the same
output file. -/
def QueueDistinct (client : ClientState) : Prop :=
  (client.downloads.map QueuedFile.content).Nodup ∧
    (client.downloads.map fun entry => entry.filePath).Nodup

instance (client : ClientState) : Decidable client.QueueDistinct :=
  inferInstanceAs (Decidable (_ ∧ _))

/-- A download is asked for only when its output file exists, or when neither its file nor
its output file is queued. -/
def KeepsQueue (client : ClientState) : Event → Prop
  | .enqueueDownload groupId fileInfo _ outputFilePath _ =>
      client.disk outputFilePath = none → ∀ entry ∈ client.downloads,
        entry.content ≠ (groupId, fileInfo.hash) ∧ entry.filePath ≠ outputFilePath
  | _ => True

section Queue

variable {sha1 : Bytes → Bytes} {iteration : IterationOrder} {client next : ClientState}
  {event : Event}

/-- A new object is refused only for its output file. -/
theorem accepts_fresh {groupId outputFilePath : Bytes} {address : Nat}
    (fresh : ∀ entry ∈ client.downloads, entry.address ≠ address) :
    client.Accepts groupId address outputFilePath ↔ client.disk outputFilePath = none := by
  rw [Accepts, and_iff_left]
  intro entry member same
  exact fresh entry member same.2

/-- What is refused leaves the queue and the database as they are. -/
theorem enqueueDownload_refused {groupId outputFilePath : Bytes} {fileInfo : FileInfo}
    {address : Nat}
    (refused : (client.enqueueDownload groupId fileInfo address outputFilePath).1 = false) :
    (client.enqueueDownload groupId fileInfo address outputFilePath).2 = client := by
  rcases enqueueDownload_cases client groupId fileInfo address outputFilePath with
    ⟨_, result⟩ | ⟨_, result⟩
  · rw [result]
  · rw [result] at refused
    cases refused

theorem nodup_concat_iff {α : Type} {list : List α} (nodup : list.Nodup) {element : α} :
    (list ++ [element]).Nodup ↔ element ∉ list := by
  rw [← List.concat_eq_append, List.nodup_concat, and_iff_left nodup]

/-- A download that is accepted keeps the queue distinct exactly if it is new. -/
theorem QueueDistinct.enqueue_iff (distinct : client.QueueDistinct)
    {groupId outputFilePath : Bytes} {fileInfo : FileInfo} {address : Nat}
    (fresh : ∀ entry ∈ client.downloads, entry.address ≠ address) (accepted : Bool) :
    (client.enqueueDownload groupId fileInfo address outputFilePath).2.QueueDistinct ↔
      client.KeepsQueue
        (.enqueueDownload groupId fileInfo address outputFilePath accepted) := by
  rcases enqueueDownload_cases client groupId fileInfo address outputFilePath with
    ⟨refuses, refused⟩ | ⟨accepts, queued⟩
  · rw [refused]
    rw [accepts_fresh fresh] at refuses
    exact iff_of_true distinct fun missing => absurd missing refuses
  · have missing := (accepts_fresh fresh).mp accepts
    rw [queued]
    simp only [QueueDistinct, KeepsQueue, missing, forall_true_left, List.map_append,
      List.map_singleton, nodup_concat_iff distinct.1, nodup_concat_iff distinct.2, List.mem_map,
      not_exists, not_and, forall_and]
    rfl

/-- Changing an element in other respects leaves what is distinct distinct. -/
theorem nodup_map_set {α β : Type} {f : α → β} {list : List α} {index : Nat} {old new : α}
    (found : list[index]? = some old) (same : f new = f old) (nodup : (list.map f).Nodup) :
    ((list.set index new).map f).Nodup := by
  obtain ⟨inRange, rfl⟩ := List.getElem?_eq_some_iff.mp found
  have inMap : index < (list.map f).length := by rwa [List.length_map]
  have here : (list.map f)[index] = f list[index] := List.getElem_map f
  rwa [List.map_set, same, ← here, List.set_getElem_self]

/-- The worker changes neither the file nor the output file of an entry. -/
theorem QueueDistinct.work {answers : PeerDB.Peer → Bytes → Exchange}
    (distinct : client.QueueDistinct) (work : client.work sha1 iteration answers = .ok next) :
    next.QueueDistinct := by
  rcases work_marks work with ⟨_, rfl⟩ | ⟨index, entry, found, piece, _, _, _, _, rfl⟩
  · exact distinct
  · let marked : QueuedFile := { entry with toPartFile := (entry.markDownloaded piece).2 }
    have content : marked.content = entry.content := by
      simp [marked, QueuedFile.content]
    have filePath : marked.filePath = entry.filePath := rfl
    exact ⟨nodup_map_set found content distinct.1, nodup_map_set found filePath distinct.2⟩

theorem QueueDistinct.step_iff (distinct : client.QueueDistinct)
    (step : FreshStep sha1 iteration client event next) :
    next.QueueDistinct ↔ client.KeepsQueue event := by
  rcases step with ⟨step, fresh⟩
  cases step with
  | addPartfile _ => exact iff_of_true distinct trivial
  | addSeeders _ => exact iff_of_true distinct trivial
  | enqueueDownload _ => exact distinct.enqueue_iff fresh _
  | startDownloads _ =>
      rw [startDownloads_eq]
      exact iff_of_true distinct trivial
  | pauseDownloads _ =>
      rw [pauseDownloads_eq]
      exact iff_of_true distinct trivial
  | work work => exact iff_of_true (distinct.work work) trivial
  | changeDisk => exact iff_of_true distinct trivial

/-- The runs in all of whose states the queue is distinct are the runs in which every
download is new or has an output file that exists; and a download that is refused changes
nothing. -/
theorem queue_distinct_iff {disk : Bytes → Option Bytes} {history : List Event} :
    (Run { disk } (fun source event target =>
        FreshStep sha1 iteration source event target ∧ source.KeepsQueue event) history client ↔
      Run { disk } (fun source event target =>
        FreshStep sha1 iteration source event target ∧ target.QueueDistinct) history client) ∧
    ∀ groupId fileInfo address outputFilePath,
      (client.enqueueDownload groupId fileInfo address outputFilePath).1 = false →
        (client.enqueueDownload groupId fileInfo address outputFilePath).2 = client := by
  constructor
  · apply Run.kept_iff_good (p := fun _ => True) trivial
    · exact ⟨List.nodup_nil, List.nodup_nil⟩
    · exact fun _ _ _ _ _ => trivial
    · exact fun source event target _ distinct step => distinct.step_iff step
  · exact fun _ _ _ _ refused => enqueueDownload_refused refused

end Queue

/-! The same line is typed twice, and the peer that has the file sends no piece of it in
between. -/

def letterReply : Bytes :=
  ascii "1 " ++ File.toString .oldestFirst
    { seeders := [{ ip := ascii "1.2.3.4", port := 80 }]
      fileInfo := letterInfo
      groupId := ascii "g" }

theorem queued_twice : ∃ first second : ClientState,
    command sha1Letter .oldestFirst 7 { ip := ascii "1.2.3.5", port := 80 }
        { disk := fun _ => none } (ascii "download_file g f new") (.ok letterReply) =
      .ok first ∧
    command sha1Letter .oldestFirst 7 { ip := ascii "1.2.3.5", port := 80 } first
        (ascii "download_file g f new") (.ok letterReply) = .ok second ∧
    ¬second.QueueDistinct := by
  refine ⟨_, _, rfl, rfl, ?_⟩
  decide +kernel

end ClientState

end P2PFileShare
