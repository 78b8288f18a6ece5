import P2PFileShare.Client.Databases
import P2PFileShare.Transition.History

/-!
# The download manager

`client/downloadmanager.cpp`.  The main thread queues downloads, starts and pauses the
worker; the worker passes over the queue again and again.  Every call, and everything
that the worker does between two looks at the flag or at the queue, is one step.
-/

namespace P2PFileShare

open Container Text Transition

/-- An entry of `downloads`; `address` is what `file_info.get()` returns. -/
structure QueuedFile extends LocatedPartFile where
  address : Nat

/-- Where `download_thread_function` is: not running, in front of `while (running)`, or
in the loop over the entries, whose end was taken when that loop began. -/
inductive Worker
  | outside
  | head
  | visiting (index stop : Nat)
  deriving DecidableEq

/-- The state of a client.  A disk tells for every path what a file there holds, if one
can be opened.  `announced` lists the entries for which `on_download_complete` was
called; no code reads it. -/
structure ClientState where
  myFiles : FilesDB := {}
  peerDb : PeerDB := {}
  downloads : List QueuedFile := []
  running : Bool := false
  worker : Worker := .outside
  announced : List Nat := []
  disk : Bytes → Option Bytes

namespace ClientState

section Operations

variable (sha1 : Bytes → Bytes) (iteration : IterationOrder) (client : ClientState)

/-- `DownloadManager::enqueue_download`.  Only the last branch enters the file into the
database. -/
def enqueueDownload (groupId : Bytes) (fileInfo : FileInfo) (address : Nat)
    (outputFilePath : Bytes) : Bool × ClientState :=
  if (client.disk outputFilePath).isSome then (false, client)
  else
    let entry : QueuedFile :=
      { toLocatedPartFile := LocatedPartFile.create groupId fileInfo outputFilePath false, address }
    if client.downloads.isEmpty then (true, { client with downloads := [entry] })
    else if client.downloads.any fun partFile =>
        partFile.groupId == groupId && partFile.address == address then
      (false, client)
    else
      (true, { client with
        downloads := client.downloads ++ [entry]
        myFiles := (client.myFiles.addPartfile groupId fileInfo outputFilePath false).2 })

/-- `DownloadManager::start_downloads`. -/
def startDownloads : Bool × ClientState :=
  if client.running then (false, client)
  else (true, { client with running := true, worker := .head })

/-- `DownloadManager::pause_downloads`, up to the `join`. -/
def pauseDownloads : Bool × ClientState :=
  if client.running then (true, { client with running := false }) else (false, client)

/-- The main thread waits in `pause_downloads` for the worker to leave its loop. -/
def Joining : Prop :=
  client.running = false ∧ client.worker ≠ .outside

instance : Decidable client.Joining :=
  inferInstanceAs (Decidable (_ ∧ _))

/-- The body of the loop over the entries.  `answers` is what the peers do when they
are asked. -/
def visit (answers : PeerDB.Peer → Bytes → Exchange) (index : Nat) (entry : QueuedFile) :
    Except Exception ClientState :=
  match iteration.order entry.remainingPieces with
  | [] => .ok client
  | missingPiece :: _ =>
      let peers := client.peerDb.getPeers iteration entry.groupId entry.fileInfo.hash
      let download : Download :=
        { partFile := entry.toPartFile, disk := client.disk entry.filePath }
      match downloadPiece sha1 download missingPiece (peers.map answers) with
      | .error error => .error error
      | .ok download =>
          .ok { client with
            downloads := client.downloads.set index { entry with toPartFile := download.partFile }
            disk := Function.update client.disk entry.filePath download.disk
            announced :=
              if download.partFile.isComplete then client.announced ++ [index]
              else client.announced }

/-- One step of `download_thread_function`. -/
def work (answers : PeerDB.Peer → Bytes → Exchange) : Except Exception ClientState :=
  match client.worker with
  | .outside => .ok client
  | .head =>
      if client.running && !client.downloads.isEmpty then
        .ok { client with worker := .visiting 0 client.downloads.length }
      else .ok { client with worker := .outside }
  | .visiting index stop =>
      match (client.downloads.take stop)[index]? with
      | some entry =>
          (client.visit sha1 iteration answers index entry).map fun client =>
            { client with worker := .visiting (index + 1) stop }
      | none => .ok { client with worker := .head }

end Operations

/-- What happens at a client: a file is put into `my_files`, seeders are noted, a
function of the download manager is called and returns, the worker makes a step, or
somebody else changes the disk. -/
inductive Event
  | addPartfile (groupId : Bytes) (fileInfo : FileInfo) (filePath : Bytes)
  | addSeeders (groupId hash : Bytes) (seeders : List (EndpointID × Endpoint))
  | enqueueDownload (groupId : Bytes) (fileInfo : FileInfo) (address : Nat)
      (outputFilePath : Bytes) (accepted : Bool)
  | startDownloads (started : Bool)
  | pauseDownloads (paused : Bool)
  | work (answers : PeerDB.Peer → Bytes → Exchange)
  | changeDisk (disk : Bytes → Option Bytes)

/-- The loop of `process_input` over the seeders of a file. -/
def addSeeders (peerDb : PeerDB) (groupId hash : Bytes) (seeders : List (EndpointID × Endpoint)) :
    PeerDB :=
  seeders.foldl (fun peerDb seeder =>
    ((peerDb.addPeer seeder.1 seeder.2).2.addFile seeder.1 groupId hash).2) peerDb

/-- One step.  The main thread makes none while it waits for the worker, and an
exception that leaves the worker ends the process. -/
inductive Step (sha1 : Bytes → Bytes) (iteration : IterationOrder) :
    ClientState → Event → ClientState → Prop
  | addPartfile {client : ClientState} {groupId filePath : Bytes} {fileInfo : FileInfo} :
      ¬client.Joining →
        Step sha1 iteration client (.addPartfile groupId fileInfo filePath)
          { client with myFiles := (client.myFiles.addPartfile groupId fileInfo filePath true).2 }
  | addSeeders {client : ClientState} {groupId hash : Bytes}
      {seeders : List (EndpointID × Endpoint)} :
      ¬client.Joining →
        Step sha1 iteration client (.addSeeders groupId hash seeders)
          { client with peerDb := ClientState.addSeeders client.peerDb groupId hash seeders }
  | enqueueDownload {client : ClientState} {groupId outputFilePath : Bytes} {fileInfo : FileInfo}
      {address : Nat} :
      ¬client.Joining →
        Step sha1 iteration client
          (.enqueueDownload groupId fileInfo address outputFilePath
            (client.enqueueDownload groupId fileInfo address outputFilePath).1)
          (client.enqueueDownload groupId fileInfo address outputFilePath).2
  | startDownloads {client : ClientState} :
      ¬client.Joining →
        Step sha1 iteration client (.startDownloads client.startDownloads.1)
          client.startDownloads.2
  | pauseDownloads {client : ClientState} :
      ¬client.Joining →
        Step sha1 iteration client (.pauseDownloads client.pauseDownloads.1)
          client.pauseDownloads.2
  | work {client next : ClientState} {answers : PeerDB.Peer → Bytes → Exchange} :
      client.work sha1 iteration answers = .ok next →
        Step sha1 iteration client (.work answers) next
  | changeDisk {client : ClientState} {disk : Bytes → Option Bytes} :
      Step sha1 iteration client (.changeDisk disk) { client with disk }

/-! ## What the functions can do -/

section Spec

variable {sha1 : Bytes → Bytes} {iteration : IterationOrder} {client next : ClientState}

/-- Starting the worker touches only its place and the flag. -/
theorem startDownloads_eq (client : ClientState) :
    client.startDownloads.2 = { client with
      running := client.startDownloads.2.running
      worker := client.startDownloads.2.worker } := by
  rw [startDownloads]
  split <;> rfl

/-- Pausing touches only the flag. -/
theorem pauseDownloads_eq (client : ClientState) :
    client.pauseDownloads.2 = { client with running := client.pauseDownloads.2.running } := by
  rw [pauseDownloads]
  split <;> rfl

theorem idle_of_outside (outside : client.worker = .outside) : ¬client.Joining :=
  fun joining => joining.2 outside

/-- The output file does not exist, and the object is not queued for the group. -/
def Accepts (client : ClientState) (groupId : Bytes) (address : Nat)
    (outputFilePath : Bytes) : Prop :=
  client.disk outputFilePath = none ∧
    ∀ partFile ∈ client.downloads, ¬(partFile.groupId = groupId ∧ partFile.address = address)

/-- A refused download changes nothing; an accepted one is queued behind the others, and
entered into the database if there are others. -/
theorem enqueueDownload_cases (client : ClientState) (groupId : Bytes) (fileInfo : FileInfo)
    (address : Nat) (outputFilePath : Bytes) :
    (¬client.Accepts groupId address outputFilePath ∧
        client.enqueueDownload groupId fileInfo address outputFilePath = (false, client)) ∨
      (client.Accepts groupId address outputFilePath ∧
        client.enqueueDownload groupId fileInfo address outputFilePath =
          (true, { client with
            downloads := client.downloads ++
              [{ toLocatedPartFile := LocatedPartFile.create groupId fileInfo outputFilePath false
                 address }]
            myFiles :=
              if client.downloads.isEmpty then client.myFiles
              else (client.myFiles.addPartfile groupId fileInfo outputFilePath false).2 })) := by
  simp only [enqueueDownload, Accepts]
  cases client.disk outputFilePath with
  | some file => exact Or.inl ⟨by simp, rfl⟩
  | none =>
      cases queue : client.downloads with
      | nil => exact Or.inr ⟨by simp, rfl⟩
      | cons first others =>
          have queued_iff : ((first :: others).any fun partFile =>
              partFile.groupId == groupId && partFile.address == address) = true ↔
                ∃ partFile ∈ first :: others,
                  partFile.groupId = groupId ∧ partFile.address = address := by
            simp only [List.any_eq_true, Bool.and_eq_true, beq_iff_eq]
          by_cases queued : ∃ partFile ∈ first :: others,
              partFile.groupId = groupId ∧ partFile.address = address
          · left
            constructor
            · rintro ⟨_, distinct⟩
              rcases queued with ⟨partFile, member, same⟩
              exact distinct partFile member same
            · rw [if_neg (by simp), if_neg (by simp), if_pos (queued_iff.mpr queued)]
          · right
            constructor
            · exact ⟨rfl, fun partFile member same => queued ⟨partFile, member, same⟩⟩
            · rw [if_neg (by simp), if_neg (by simp), if_neg (mt queued_iff.mp queued),
                if_neg (by simp)]

/-- The entry that the worker visits in its next step. -/
def nextEntry (client : ClientState) : Option QueuedFile :=
  match client.worker with
  | .visiting index stop => (client.downloads.take stop)[index]?
  | _ => none

/-- None of the peers that the worker asks for a piece of the entry delivers it. -/
def Unserved (sha1 : Bytes → Bytes) (iteration : IterationOrder) (client : ClientState)
    (answers : PeerDB.Peer → Bytes → Exchange) (entry : QueuedFile) : Prop :=
  ∀ piece ∈ (iteration.order entry.remainingPieces).head?,
    ∀ peer ∈ client.peerDb.getPeers iteration entry.groupId entry.fileInfo.hash,
      ¬(answers peer (getRequest entry.toPartFile piece)).Delivers sha1 piece

/-- A visit leaves the client as it is, or marks a piece that was missing and announces
the file if that was the last one. -/
theorem visit_announces {answers : PeerDB.Peer → Bytes → Exchange} {index : Nat}
    {entry : QueuedFile} (found : client.downloads[index]? = some entry)
    (visit : client.visit sha1 iteration answers index entry = .ok next) :
    (client.Unserved sha1 iteration answers entry ∧ next = client) ∨
      (¬client.Unserved sha1 iteration answers entry ∧
        ∃ piece ∈ entry.remainingPieces, ∃ disk, next = { client with
          downloads := client.downloads.set index
            { entry with toPartFile := (entry.markDownloaded piece).2 }
          disk := disk
          announced :=
            if (entry.markDownloaded piece).2.isComplete then client.announced ++ [index]
            else client.announced }) := by
  simp only [ClientState.visit] at visit
  split at visit
  · next complete =>
      refine Or.inl ⟨?_, (Except.ok.inj visit).symm⟩
      intro piece member
      rw [complete] at member
      cases member
  · next piece rest first =>
      have remains : piece ∈ entry.remainingPieces := by
        rw [← iteration.mem_order, first]
        exact List.mem_cons_self
      split at visit
      · cases visit
      · next download asked =>
          rw [Except.ok.injEq] at visit
          rcases downloadPiece_outcome asked with
            ⟨rfl, useless⟩ | ⟨written, other, member, delivers⟩
          · left
            constructor
            · intro wanted isFirst peer member
              rw [first, List.head?_cons, Option.mem_some_iff] at isFirst
              subst isFirst
              exact useless _ (List.mem_map_of_mem member)
            · have incomplete : entry.isComplete = false := PartFile.incomplete_of_mem remains
              obtain ⟨inRange, same⟩ := List.getElem?_eq_some_iff.mp found
              simp only [incomplete, Bool.false_eq_true, if_false, Function.update_eq_self] at visit
              rw [← visit, ← same, List.set_getElem_self]
          · right
            constructor
            · intro unserved
              rcases List.mem_map.mp member with ⟨peer, known, rfl⟩
              exact unserved piece (by rw [first]; rfl) peer known delivers
            · rcases written with ⟨_, _, _, _, _, rfl⟩
              exact ⟨piece, remains, _, visit.symm⟩

theorem visit_cases {answers : PeerDB.Peer → Bytes → Exchange} {index : Nat} {entry : QueuedFile}
    (found : client.downloads[index]? = some entry)
    (visit : client.visit sha1 iteration answers index entry = .ok next) :
    (client.Unserved sha1 iteration answers entry ∧ next = client) ∨
      (¬client.Unserved sha1 iteration answers entry ∧
        ∃ piece ∈ entry.remainingPieces, ∃ disk announced, next = { client with
          downloads := client.downloads.set index
            { entry with toPartFile := (entry.markDownloaded piece).2 }
          disk := disk
          announced := announced }) := by
  rcases visit_announces found visit with unserved | ⟨served, piece, remains, disk, marked⟩
  · exact Or.inl unserved
  · exact Or.inr ⟨served, piece, remains, disk, _, marked⟩

/-- A visit writes nothing but the output file of its entry. -/
theorem visit_disk {answers : PeerDB.Peer → Bytes → Exchange} {index : Nat} {entry : QueuedFile}
    {path : Bytes} (elsewhere : entry.filePath ≠ path)
    (visit : client.visit sha1 iteration answers index entry = .ok next) :
    next.disk path = client.disk path := by
  simp only [ClientState.visit] at visit
  split at visit
  · rw [Except.ok.inj visit]
  · split at visit
    · cases visit
    · rw [← Except.ok.inj visit]
      exact Function.update_of_ne elsewhere.symm _ _

/-- What the worker can do in one step. -/
theorem work_cases {answers : PeerDB.Peer → Bytes → Exchange}
    (work : client.work sha1 iteration answers = .ok next) :
    (client.worker = .outside ∧ next = client) ∨
      (client.worker = .head ∧ client.running = true ∧ client.downloads ≠ [] ∧
        next = { client with worker := .visiting 0 client.downloads.length }) ∨
      (client.worker = .head ∧ (client.running = false ∨ client.downloads = []) ∧
        next = { client with worker := .outside }) ∨
      (∃ index stop, client.worker = .visiting index stop ∧
        (client.downloads.take stop)[index]? = none ∧ next = { client with worker := .head }) ∨
      ∃ index stop entry visited, client.worker = .visiting index stop ∧ index < stop ∧
        client.downloads[index]? = some entry ∧
          client.visit sha1 iteration answers index entry = .ok visited ∧
            next = { visited with worker := .visiting (index + 1) stop } := by
  simp only [ClientState.work] at work
  split at work
  · next outside => exact Or.inl ⟨outside, (Except.ok.inj work).symm⟩
  · next head =>
      split at work
      · next stays =>
          simp only [Bool.and_eq_true, Bool.not_eq_true', List.isEmpty_eq_false_iff] at stays
          exact Or.inr (Or.inl ⟨head, stays.1, stays.2, (Except.ok.inj work).symm⟩)
      · next leaves =>
          simp only [Bool.and_eq_true, Bool.not_eq_true', List.isEmpty_eq_false_iff, not_and_or,
            Bool.not_eq_true, not_not] at leaves
          exact Or.inr (Or.inr (Or.inl ⟨head, leaves, (Except.ok.inj work).symm⟩))
  · next index stop visiting =>
      split at work
      · next entry inPass =>
          obtain ⟨before, found⟩ : index < stop ∧ client.downloads[index]? = some entry := by
            rw [List.getElem?_take] at inPass
            split at inPass
            · next before => exact ⟨before, inPass⟩
            · cases inPass
          cases visit : client.visit sha1 iteration answers index entry with
          | error error =>
              rw [visit] at work
              cases work
          | ok visited =>
              rw [visit] at work
              exact Or.inr (Or.inr (Or.inr (Or.inr
                ⟨index, stop, entry, visited, visiting, before, found, visit,
                  (Except.ok.inj work).symm⟩)))
      · next past =>
          exact Or.inr (Or.inr (Or.inr (Or.inl
            ⟨index, stop, visiting, past, (Except.ok.inj work).symm⟩)))

/-- Apart from the place of the worker, its step is a visit or changes nothing. -/
theorem work_visits {answers : PeerDB.Peer → Bytes → Exchange}
    (work : client.work sha1 iteration answers = .ok next) :
    (∃ worker, next = { client with worker }) ∨
      ∃ index entry visited worker, client.downloads[index]? = some entry ∧
        client.visit sha1 iteration answers index entry = .ok visited ∧
          next = { visited with worker } := by
  rcases work_cases work with ⟨_, rfl⟩ | ⟨_, _, _, rfl⟩ | ⟨_, _, rfl⟩ | ⟨_, _, _, _, rfl⟩ |
    ⟨index, stop, entry, visited, _, _, found, visit, rfl⟩
  · exact Or.inl ⟨next.worker, rfl⟩
  · exact Or.inl ⟨_, rfl⟩
  · exact Or.inl ⟨_, rfl⟩
  · exact Or.inl ⟨_, rfl⟩
  · exact Or.inr ⟨index, entry, visited, _, found, visit, rfl⟩

/-- And the visit marks a piece that was missing, or changes nothing. -/
theorem work_marks {answers : PeerDB.Peer → Bytes → Exchange}
    (work : client.work sha1 iteration answers = .ok next) :
    (∃ worker, next = { client with worker }) ∨
      ∃ index entry, client.downloads[index]? = some entry ∧
        ∃ piece ∈ entry.remainingPieces, ∃ disk announced worker, next = { client with
          downloads := client.downloads.set index
            { entry with toPartFile := (entry.markDownloaded piece).2 }
          disk := disk
          announced := announced
          worker := worker } := by
  rcases work_visits work with moved | ⟨index, entry, visited, worker, found, visit, rfl⟩
  · exact Or.inl moved
  · rcases visit_cases found visit with ⟨_, rfl⟩ | ⟨_, piece, remains, disk, announced, rfl⟩
    · exact Or.inl ⟨worker, rfl⟩
    · exact Or.inr ⟨index, entry, found, piece, remains, disk, announced, worker, rfl⟩

end Spec

/-! ## A worker for every download

The flag is meant to say that there is a worker.  A worker that finds the queue empty
leaves without clearing it, and from then on `start_downloads` starts nobody. -/

/-- The calls behind which `start_downloads` has to be called again. -/
def Event.Resets : Event → Prop
  | .pauseDownloads _ => True
  | .enqueueDownload _ _ _ _ accepted => accepted = true
  | _ => False

def Event.Starts : Event → Prop
  | .startDownloads _ => True
  | _ => False

/-- `start_downloads` was called after the last pause and the last download that was
accepted. -/
def Started : List Event → Prop :=
  Since (fun event _ => ¬event.Resets) (fun event _ => event.Starts)

/-- A download with pieces is accepted only when the flag is clear or there is a worker. -/
def Attended (client : ClientState) : Event → Prop
  | .enqueueDownload groupId fileInfo address outputFilePath _ =>
      client.Accepts groupId address outputFilePath → fileInfo.pieces ≠ [] →
        client.running = true → client.worker ≠ .outside
  | _ => True

/-- In a run whose steps are all attended, a flag without a worker means that nothing is
left to do. -/
structure Manned (history : List Event) (client : ClientState) : Prop where
  finished : client.running = true → client.worker = .outside →
    ∀ entry ∈ client.downloads, entry.isComplete = true
  running : Started history → client.running = true

section Manned

variable {sha1 : Bytes → Bytes} {iteration : IterationOrder} {client next : ClientState}
  {event : Event} {history : List Event}

/-- An event that neither starts the worker nor asks for it leaves the history as it
was. -/
theorem Started.of_cons (silent : ¬event.Starts) (started : Started (event :: history)) :
    ¬event.Resets ∧ Started history :=
  (since_cons.mp started).resolve_left silent

/-- A visit changes neither the flag nor the place of the worker. -/
theorem visit_running {answers : PeerDB.Peer → Bytes → Exchange} {index : Nat} {entry : QueuedFile}
    (found : client.downloads[index]? = some entry)
    (visit : client.visit sha1 iteration answers index entry = .ok next) :
    next.running = client.running := by
  rcases visit_cases found visit with ⟨_, rfl⟩ | ⟨_, _, _, _, _, rfl⟩
  · rfl
  · rfl

theorem Manned.work {answers : PeerDB.Peer → Bytes → Exchange} (manned : Manned history client)
    (work : client.work sha1 iteration answers = .ok next) :
    Manned (.work answers :: history) next := by
  have earlier (started : Started (.work answers :: history)) : client.running = true :=
    manned.running (started.of_cons id).2
  rcases work_cases work with ⟨_, rfl⟩ | ⟨_, _, _, rfl⟩ | ⟨_, reason, rfl⟩ |
    ⟨_, _, _, _, rfl⟩ | ⟨index, stop, entry, visited, _, _, found, visit, rfl⟩
  · exact ⟨manned.finished, earlier⟩
  · exact ⟨fun _ outside => (nomatch outside), earlier⟩
  · constructor
    · intro running _ entry member
      rcases reason with stopped | empty
      · exact absurd (running.symm.trans stopped) (by simp)
      · simp only [empty, List.not_mem_nil] at member
    · exact earlier
  · exact ⟨fun _ outside => (nomatch outside), earlier⟩
  · exact ⟨fun _ outside => (nomatch outside),
      fun started => (visit_running found visit).trans (earlier started)⟩

theorem Manned.enqueueDownload (manned : Manned history client) {groupId outputFilePath : Bytes}
    {fileInfo : FileInfo} {address : Nat} {accepted : Bool}
    (attended : client.Attended
      (.enqueueDownload groupId fileInfo address outputFilePath accepted))
    (result : client.enqueueDownload groupId fileInfo address outputFilePath = (accepted, next)) :
    Manned (.enqueueDownload groupId fileInfo address outputFilePath accepted :: history) next := by
  rcases enqueueDownload_cases client groupId fileInfo address outputFilePath with
    ⟨_, refused⟩ | ⟨accepts, queued⟩
  · obtain ⟨rfl, rfl⟩ := Prod.mk.inj (refused.symm.trans result)
    exact ⟨manned.finished, fun started => manned.running (started.of_cons id).2⟩
  · obtain ⟨rfl, rfl⟩ := Prod.mk.inj (queued.symm.trans result)
    constructor
    · intro running outside entry member
      rcases List.mem_append.mp member with older | new
      · exact manned.finished running outside entry older
      · -- The worker is gone, so the new download has no pieces.
        have noPieces : fileInfo.pieces = [] := by
          by_contra pieces
          exact attended accepts pieces running outside
        rw [List.mem_singleton.mp new]
        simp [LocatedPartFile.create, PartFile.create, PartFile.isComplete, noPieces,
          UnorderedSet.toList, UnorderedSet.contents]
    · intro started
      exact absurd rfl (started.of_cons id).1

theorem Manned.step (manned : Manned history client) (attended : client.Attended event)
    (step : Step sha1 iteration client event next) : Manned (event :: history) next := by
  cases step with
  | addPartfile _ => exact ⟨manned.finished, fun started => manned.running (started.of_cons id).2⟩
  | addSeeders _ => exact ⟨manned.finished, fun started => manned.running (started.of_cons id).2⟩
  | enqueueDownload _ => exact manned.enqueueDownload attended rfl
  | startDownloads _ =>
      cases running : client.running with
      | true =>
          simp only [startDownloads, running, if_true]
          exact ⟨manned.finished, fun _ => running⟩
      | false =>
          simp only [startDownloads, running, Bool.false_eq_true, if_false]
          exact ⟨fun _ outside => (nomatch outside), fun _ => rfl⟩
  | pauseDownloads _ =>
      constructor
      · intro running
        simp only [pauseDownloads] at running
        split at running
        · cases running
        · next idle => exact absurd running idle
      · intro started
        exact absurd trivial (started.of_cons id).1
  | work work => exact manned.work work
  | changeDisk => exact ⟨manned.finished, fun started => manned.running (started.of_cons id).2⟩

/-- A queued download has a worker, once `start_downloads` was called for it: in every
run in which a download with pieces is accepted only while the flag is clear or a worker
is there. -/
theorem queued_has_worker {disk : Bytes → Option Bytes}
    (run : Run { disk } (fun source event target =>
      Step sha1 iteration source event target ∧ source.Attended event) history client)
    (started : Started history)
    (queued : ∃ entry ∈ client.downloads, entry.isComplete = false) :
    client.worker ≠ .outside := by
  have manned : Manned history client := by
    refine run.invariant ⟨?_, ?_⟩ ?_
    · intro running
      cases running
    · exact fun started => absurd started not_since_nil
    · exact fun past source event target _ manned step => manned.step step.2 step.1
  intro outside
  rcases queued with ⟨entry, member, incomplete⟩
  have complete := manned.finished (manned.running started) outside entry member
  rw [incomplete] at complete
  cases complete

/-- Without that, a run goes on to a download that nobody works on: the download is
accepted, and `start_downloads` finds the flag set. -/
theorem stranded_of_unattended {disk : Bytes → Option Bytes}
    (run : Run { disk } (Step sha1 iteration) history client)
    {groupId outputFilePath : Bytes} {fileInfo : FileInfo} {address : Nat}
    (unattended : ¬client.Attended
      (.enqueueDownload groupId fileInfo address outputFilePath true)) :
    ∃ stranded, Run { disk } (Step sha1 iteration)
        (.startDownloads false ::
          .enqueueDownload groupId fileInfo address outputFilePath true :: history) stranded ∧
      (∃ entry ∈ stranded.downloads, entry.isComplete = false) ∧ stranded.worker = .outside := by
  simp only [Attended, Classical.not_imp, not_not] at unattended
  rcases unattended with ⟨accepts, pieces, running, outside⟩
  rcases enqueueDownload_cases client groupId fileInfo address outputFilePath with
    ⟨refuses, _⟩ | ⟨_, queued⟩
  · exact absurd accepts refuses
  have call : Step sha1 iteration client _
      (client.enqueueDownload groupId fileInfo address outputFilePath).2 :=
    .enqueueDownload (idle_of_outside outside)
  have enqueued := run.step call
  rw [queued] at enqueued
  have started := enqueued.step (Step.startDownloads (idle_of_outside outside))
  simp only [startDownloads, running, if_true] at started
  refine ⟨_, started, ⟨_, List.mem_append_right _ (List.mem_singleton_self _), ?_⟩, outside⟩
  rcases List.exists_mem_of_ne_nil _ pieces with ⟨piece, member⟩
  have remains : piece ∈ (PartFile.create groupId fileInfo false).remainingPieces :=
    PartFile.mem_create.2.mpr ⟨rfl, member⟩
  exact PartFile.incomplete_of_mem remains

end Manned

/-! A file of one letter is downloaded; in the second run, a download to a file that
exists came before it. -/

def letterInfo : FileInfo :=
  getFileInfo sha1Letter (ascii "f") (ascii "a")

/-- A disk with one file. -/
def diskWithOld (path : Bytes) : Option Bytes :=
  if path = ascii "old" then some [] else none

def silentPeers (_ : PeerDB.Peer) (_ : Bytes) : Exchange where
  reply := .error .connectionClosedError

theorem letterInfo_pieces : letterInfo.pieces = [sha1Letter (ascii "a")] := by
  rw [letterInfo, getFileInfo, blocks_letter, List.map_singleton]

/-- The client with the letter queued. -/
def queuedLetter : ClientState :=
  (enqueueDownload { disk := diskWithOld } (ascii "g") letterInfo 1 (ascii "new")).2

theorem queuedLetter_incomplete : ∃ entry ∈ queuedLetter.downloads, entry.isComplete = false := by
  refine ⟨_, List.mem_singleton_self _, ?_⟩
  have remains : sha1Letter (ascii "a") ∈
      (PartFile.create (ascii "g") letterInfo false).remainingPieces := by
    apply PartFile.mem_create.2.mpr
    rw [letterInfo_pieces]
    exact ⟨rfl, List.mem_singleton_self _⟩
  exact PartFile.incomplete_of_mem remains

theorem queued_has_worker_letter : queuedLetter.startDownloads.2.worker ≠ .outside := by
  have enqueued : Step sha1Letter .oldestFirst { disk := diskWithOld }
      (.enqueueDownload (ascii "g") letterInfo 1 (ascii "new") _) queuedLetter :=
    .enqueueDownload (idle_of_outside rfl)
  have started : Step sha1Letter .oldestFirst queuedLetter (.startDownloads true)
      queuedLetter.startDownloads.2 := .startDownloads (idle_of_outside rfl)
  exact queued_has_worker
    ((Run.start.step ⟨enqueued, fun _ _ running => (nomatch running)⟩).step ⟨started, trivial⟩)
    (Or.inl trivial) queuedLetter_incomplete

theorem queued_without_worker :
    ¬∀ history client, Run { disk := diskWithOld } (Step sha1Letter .oldestFirst) history client →
      Started history → (∃ entry ∈ client.downloads, entry.isComplete = false) →
        client.worker ≠ .outside := by
  intro claim
  -- The first download is refused, the worker is started and finds the queue empty.
  have refused : Step sha1Letter .oldestFirst { disk := diskWithOld }
      (.enqueueDownload (ascii "g") letterInfo 0 (ascii "old") false) { disk := diskWithOld } :=
    .enqueueDownload (idle_of_outside rfl)
  have started : Step sha1Letter .oldestFirst { disk := diskWithOld } (.startDownloads true)
      { disk := diskWithOld, running := true, worker := .head } :=
    .startDownloads (idle_of_outside rfl)
  have left : Step sha1Letter .oldestFirst
      { disk := diskWithOld, running := true, worker := .head } (.work silentPeers)
      { disk := diskWithOld, running := true } := .work rfl
  have run := ((Run.start.step refused).step started).step left
  have unattended : ¬Attended { disk := diskWithOld, running := true }
      (.enqueueDownload (ascii "g") letterInfo 1 (ascii "new") true) := by
    intro attended
    refine attended ⟨rfl, by simp⟩ ?_ rfl rfl
    simp [letterInfo_pieces]
  rcases stranded_of_unattended run unattended with ⟨stranded, whole, incomplete, outside⟩
  exact claim _ stranded whole (Or.inl trivial) incomplete outside

end ClientState

end P2PFileShare
