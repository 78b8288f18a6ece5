import Mathlib.Data.List.MinMax
import P2PFileShare.Client.DownloadManager
import P2PFileShare.Client.Failover

/-!
# Downloads finish

The worker of `client/downloadmanager.cpp` passes over the queue again and again.  When
some peer serves every piece that is asked for and the others merely decline, a pass
takes one piece off the remaining ones of every incomplete download, so that as many
passes as the largest of them has pieces complete them all.  `download_piece` gets the
piece as a reference into `remaining_pieces`; nothing reads it once `mark_downloaded` has
erased it there, so that a value stands for it.
-/

namespace P2PFileShare

open Container Text Transition

/-- The peer refuses the connection, or says that it does not have the piece. -/
def Exchange.Declines (exchange : Exchange) : Prop :=
  exchange.reply = .error .connectionClosedError ∨
    ∃ rest, exchange.reply = .ok (ascii "0 " ++ rest)

namespace ClientState

section Passes

variable (sha1 : Bytes → Bytes) (iteration : IterationOrder)

/-- Steps of the worker, one for each of the answers. -/
def workAll (client : ClientState) (answers : List (PeerDB.Peer → Bytes → Exchange)) :
    Except Exception ClientState :=
  answers.foldlM (fun client answers => client.work sha1 iteration answers) client

/-- One turn of `while (running)`: the look at the flag, the visits to the entries, and
the step that finds no further entry.  The answers are those of the peers at each step. -/
def pass (client : ClientState) (answers : Nat → PeerDB.Peer → Bytes → Exchange) :
    Except Exception ClientState :=
  client.workAll sha1 iteration ((List.range (client.downloads.length + 2)).map answers)

def passes (client : ClientState) (answers : Nat → Nat → PeerDB.Peer → Bytes → Exchange) :
    Nat → Except Exception ClientState
  | 0 => .ok client
  | count + 1 => do
      let client ← passes client answers count
      client.pass sha1 iteration (answers count)

/-- The request that `download_piece` sends in the next step of the worker, if that step
calls it. -/
def nextRequest (client : ClientState) : Option Bytes := do
  let entry ← client.nextEntry
  let missingPiece ← (iteration.order entry.remainingPieces).head?
  return getRequest entry.toPartFile missingPiece

/-- Of the peers that are known for the file of the entry, one serves each of its pieces,
and every other one declines.  What is served can be written. -/
structure Supplied (peerDb : PeerDB) (answers : PeerDB.Peer → Bytes → Exchange)
    (entry : QueuedFile) : Prop where
  served : ∀ piece ∈ entry.fileInfo.pieces,
    ∃ peer ∈ peerDb.getPeers iteration entry.groupId entry.fileInfo.hash,
      (answers peer (getRequest entry.toPartFile piece)).Serves sha1 piece
  others : ∀ piece ∈ entry.fileInfo.pieces,
    ∀ peer ∈ peerDb.getPeers iteration entry.groupId entry.fileInfo.hash,
      (answers peer (getRequest entry.toPartFile piece)).Serves sha1 piece ∨
        (answers peer (getRequest entry.toPartFile piece)).Declines
  opened : ∀ piece ∈ entry.fileInfo.pieces,
    ∀ peer ∈ peerDb.getPeers iteration entry.groupId entry.fileInfo.hash,
      (answers peer (getRequest entry.toPartFile piece)).opened = true

end Passes

end ClientState

/-- A complete entry stays as it is; of an incomplete one, one remaining piece is
downloaded. -/
def QueuedFile.Progresses (entry next : QueuedFile) : Prop :=
  (entry.isComplete = true ∧ next = entry) ∨
    ∃ piece ∈ entry.remainingPieces, next = { entry with
      downloadedPieces := entry.downloadedPieces.insert piece
      remainingPieces := entry.remainingPieces.erase piece }

section Exchanges

variable {sha1 : Bytes → Bytes} {piece : Bytes} {exchange : Exchange}

theorem Exchange.Declines.harmless (declines : exchange.Declines) : ¬exchange.Fatal := by
  rw [Exchange.Fatal]
  rcases declines with reply | ⟨rest, reply⟩
  · rw [reply]
    exact not_not_intro rfl
  · rw [reply]
    rintro ⟨_, short⟩
    exact absurd short (by simp [ascii])

theorem guarded_of_forall {α : Type} {bad good : α → Prop} {list : List α}
    (harmless : ∀ element ∈ list, ¬bad element) : Guarded bad good list := by
  induction list with
  | nil => exact trivial
  | cons first rest ih =>
      rcases List.forall_mem_cons.mp harmless with ⟨here, later⟩
      exact ⟨here, Or.inr (ih later)⟩

/-- The pieces that remain are pieces of the file. -/
theorem PartFile.Made.mem_pieces {partFile : PartFile} (made : partFile.Made) :
    ∀ piece ∈ partFile.remainingPieces, piece ∈ partFile.fileInfo.pieces := by
  induction made with
  | create groupId fileInfo allDownloaded =>
      intro piece remains
      rw [PartFile.create_fileInfo]
      exact (PartFile.mem_create.2.mp remains).2
  | @mark partFile piece _ _ ih =>
      intro other remains
      rw [PartFile.markDownloaded_fileInfo]
      simp only [PartFile.markDownloaded] at remains
      split at remains
      · exact ih other remains
      · exact ih other (UnorderedSet.mem_erase.mp remains).1

end Exchanges

section Entries

variable {sha1 : Bytes → Bytes} {iteration : IterationOrder} {entry next : QueuedFile}

/-- What an entry becomes is still in order, supplied if it was, and has one piece less to
go, unless there was none. -/
theorem QueuedFile.Progresses.made (progresses : entry.Progresses next)
    (made : entry.toPartFile.Made) : next.toPartFile.Made := by
  rcases progresses with ⟨_, rfl⟩ | ⟨piece, remains, rfl⟩
  · exact made
  · have fresh : piece ∉ entry.downloadedPieces := fun marked =>
      made.disjoint piece marked remains
    have marked := made.mark (made.mem_pieces piece remains)
    rw [PartFile.markDownloaded_fresh fresh] at marked
    exact marked

theorem QueuedFile.Progresses.supplied {peerDb : PeerDB}
    {answers : PeerDB.Peer → Bytes → Exchange} (progresses : entry.Progresses next)
    (incomplete : next.isComplete = false)
    (supplied : entry.isComplete = false →
      ClientState.Supplied sha1 iteration peerDb answers entry) :
    ClientState.Supplied sha1 iteration peerDb answers next := by
  rcases progresses with ⟨_, rfl⟩ | ⟨piece, remains, rfl⟩
  · exact supplied incomplete
  · have supply := supplied (PartFile.incomplete_of_mem remains)
    exact ⟨supply.served, supply.others, supply.opened⟩

theorem QueuedFile.Progresses.length_remaining (progresses : entry.Progresses next) :
    next.remainingPieces.toList.length = entry.remainingPieces.toList.length - 1 := by
  rcases progresses with ⟨complete, rfl⟩ | ⟨piece, remains, rfl⟩
  · rw [PartFile.isComplete_iff_length.mp complete]
  · exact Nat.eq_sub_of_add_eq (UnorderedSet.length_erase remains)

end Entries

namespace ClientState

section Visits

variable {sha1 : Bytes → Bytes} {iteration : IterationOrder} {client : ClientState}
  {entry : QueuedFile} {answers : PeerDB.Peer → Bytes → Exchange}

/-- Asking the peers for a piece of a supplied entry stores the piece. -/
theorem Supplied.downloadPiece {peerDb : PeerDB} {piece : Bytes}
    (supplied : Supplied sha1 iteration peerDb answers entry) (disk : Option Bytes)
    (isPiece : piece ∈ entry.fileInfo.pieces) :
    ∃ data, P2PFileShare.downloadPiece sha1 { partFile := entry.toPartFile, disk } piece
        ((peerDb.getPeers iteration entry.groupId entry.fileInfo.hash).map answers) =
      .ok (Download.stored { partFile := entry.toPartFile, disk } piece data) := by
  have asked : Download.exchanges { partFile := entry.toPartFile, disk } piece
      ((peerDb.getPeers iteration entry.groupId entry.fileInfo.hash).map answers) =
      (peerDb.getPeers iteration entry.groupId entry.fileInfo.hash).map fun peer =>
        answers peer (getRequest entry.toPartFile piece) := by
    rw [Download.exchanges, List.map_map]
    rfl
  have outcome := downloadPiece_spec sha1 { partFile := entry.toPartFile, disk } piece
    ((peerDb.getPeers iteration entry.groupId entry.fileInfo.hash).map answers)
  rw [asked] at outcome
  have harmless : ∀ peer ∈ peerDb.getPeers iteration entry.groupId entry.fileInfo.hash,
      ¬(answers peer (getRequest entry.toPartFile piece)).Fatal := by
    intro peer known
    rcases supplied.others piece isPiece peer known with serves | declines
    · exact serves.delivers.harmless
    · exact declines.harmless
  rcases outcome (List.forall_mem_map.mpr (supplied.opened piece isPiece)) with
    ⟨_, ⟨_, data, _, stored⟩ | ⟨useless, _⟩⟩ | ⟨unguarded, _⟩
  · exact ⟨data, stored⟩
  · obtain ⟨peer, known, serves⟩ := supplied.served piece isPiece
    exact absurd ⟨_, List.mem_map_of_mem known, serves.delivers⟩ useless
  · exact absurd (guarded_of_forall (List.forall_mem_map.mpr harmless)) unguarded

/-- A supplied entry is brought one piece further by a visit, and a complete one is left
alone. -/
theorem visit_progresses {index : Nat} (found : client.downloads[index]? = some entry)
    (made : entry.toPartFile.Made)
    (supplied : entry.isComplete = false → Supplied sha1 iteration client.peerDb answers entry) :
    ∃ next disk announced, entry.Progresses next ∧
      client.visit sha1 iteration answers index entry = .ok { client with
        downloads := client.downloads.set index next
        disk := disk
        announced := announced } := by
  rw [ClientState.visit]
  split
  · next complete =>
      have nothing := (PartFile.isComplete_iff_order iteration).mpr complete
      obtain ⟨inRange, here⟩ := List.getElem?_eq_some_iff.mp found
      refine ⟨entry, client.disk, client.announced, Or.inl ⟨nothing, rfl⟩, ?_⟩
      rw [← here, List.set_getElem_self]
  · next piece rest first =>
      have remains : piece ∈ entry.remainingPieces := by
        rw [← iteration.mem_order, first]
        exact List.mem_cons_self
      have isPiece := made.mem_pieces piece remains
      have fresh : piece ∉ entry.downloadedPieces := fun marked =>
        made.disjoint piece marked remains
      obtain ⟨data, stored⟩ := (supplied (PartFile.incomplete_of_mem remains)).downloadPiece
        (client.disk entry.filePath) isPiece
      simp only [stored]
      refine ⟨_, _, _, Or.inr ⟨piece, remains, ?_⟩, rfl⟩
      rw [Download.stored, PartFile.markDownloaded_fresh fresh]

theorem work_progresses {index stop : Nat} (visiting : client.worker = .visiting index stop)
    (before : index < stop) (found : client.downloads[index]? = some entry)
    (made : entry.toPartFile.Made)
    (supplied : entry.isComplete = false → Supplied sha1 iteration client.peerDb answers entry) :
    ∃ next disk announced, entry.Progresses next ∧
      client.work sha1 iteration answers = .ok { client with
        worker := .visiting (index + 1) stop
        downloads := client.downloads.set index next
        disk := disk
        announced := announced } := by
  obtain ⟨next, disk, announced, progresses, visited⟩ := visit_progresses found made supplied
  have inPass : (client.downloads.take stop)[index]? = some entry := by
    rw [List.getElem?_take, if_pos before, found]
  refine ⟨next, disk, announced, progresses, ?_⟩
  simp only [ClientState.work, visiting, inPass, visited, Except.map]

@[simp]
theorem workAll_nil : client.workAll sha1 iteration [] = .ok client :=
  rfl

theorem workAll_cons {next : ClientState} (worked : client.work sha1 iteration answers = .ok next)
    (others : List (PeerDB.Peer → Bytes → Exchange)) :
    client.workAll sha1 iteration (answers :: others) = next.workAll sha1 iteration others := by
  rw [workAll, List.foldlM_cons, worked]
  rfl

theorem workAll_append {next : ClientState} {before : List (PeerDB.Peer → Bytes → Exchange)}
    (worked : client.workAll sha1 iteration before = .ok next)
    (behind : List (PeerDB.Peer → Bytes → Exchange)) :
    client.workAll sha1 iteration (before ++ behind) = next.workAll sha1 iteration behind := by
  rw [workAll] at worked
  rw [workAll, List.foldlM_append, worked]
  rfl

/-- The visits to the entries that are left in a pass. -/
theorem workAll_visits {done rest : List QueuedFile}
    {all : List (PeerDB.Peer → Bytes → Exchange)} (queue : client.downloads = done ++ rest)
    (visiting : client.worker = .visiting done.length (done.length + rest.length))
    (steps : all.length = rest.length) (made : ∀ entry ∈ rest, entry.toPartFile.Made)
    (supplied : ∀ answers ∈ all, ∀ entry ∈ rest, entry.isComplete = false →
      Supplied sha1 iteration client.peerDb answers entry) :
    ∃ nexts disk announced, List.Forall₂ QueuedFile.Progresses rest nexts ∧
      client.workAll sha1 iteration all = .ok { client with
        worker := .visiting (done.length + rest.length) (done.length + rest.length)
        downloads := done ++ nexts
        disk := disk
        announced := announced } := by
  induction rest generalizing done client all with
  | nil =>
      rw [List.length_eq_zero_iff.mp steps]
      refine ⟨[], client.disk, client.announced, .nil, ?_⟩
      rw [workAll_nil, ← queue, List.length_nil, Nat.add_zero]
      rw [List.length_nil, Nat.add_zero] at visiting
      rw [← visiting]
  | cons entry rest ih =>
      cases all with
      | nil => cases steps
      | cons answers all =>
          rcases List.forall_mem_cons.mp made with ⟨madeEntry, madeRest⟩
          rcases List.forall_mem_cons.mp supplied with ⟨suppliedNow, suppliedLater⟩
          have found : client.downloads[done.length]? = some entry := by
            rw [queue, List.getElem?_append_right (Nat.le_refl _), Nat.sub_self]
            rfl
          obtain ⟨next, disk, announced, progresses, worked⟩ :=
            work_progresses visiting (by simp) found madeEntry
              (suppliedNow entry List.mem_cons_self)
          have count : (done ++ [next]).length + rest.length =
              done.length + (entry :: rest).length := by
            simp only [List.length_append, List.length_cons, List.length_nil]
            omega
          let current : ClientState := { client with
            worker := .visiting (done.length + 1) (done.length + (entry :: rest).length)
            downloads := client.downloads.set done.length next
            disk := disk
            announced := announced }
          have queueThen : current.downloads = (done ++ [next]) ++ rest := by
            simp [current, queue]
          have visitingThen : current.worker =
              .visiting (done ++ [next]).length ((done ++ [next]).length + rest.length) := by
            rw [count, List.length_append]
            rfl
          have suppliedThen : ∀ answers ∈ all, ∀ entry ∈ rest, entry.isComplete = false →
              Supplied sha1 iteration current.peerDb answers entry :=
            fun answers member entry inRest =>
              suppliedLater answers member entry (List.mem_cons_of_mem _ inRest)
          obtain ⟨nexts, disk, announced, others, finished⟩ :=
            ih queueThen visitingThen (Nat.succ.inj steps) madeRest suppliedThen
          refine ⟨next :: nexts, disk, announced, .cons progresses others, ?_⟩
          rw [count] at finished
          rw [workAll_cons worked, List.append_cons]
          exact finished

end Visits

/-- The worker is in front of its loop, or it has left because there is nothing to do. -/
def Resting (client : ClientState) : Prop :=
  client.worker = .head ∨ client.worker = .outside ∧ client.downloads = []

/-- A client whose worker can pass over the queue: the part files are in order, and the
incomplete ones are supplied at every step. -/
structure Ready (sha1 : Bytes → Bytes) (iteration : IterationOrder)
    (answers : Nat → Nat → PeerDB.Peer → Bytes → Exchange) (client : ClientState) : Prop where
  resting : client.Resting
  running : client.running = true
  made : ∀ entry ∈ client.downloads, entry.toPartFile.Made
  supplied : ∀ turn place, ∀ entry ∈ client.downloads, entry.isComplete = false →
    Supplied sha1 iteration client.peerDb (answers turn place) entry

section Turns

variable {sha1 : Bytes → Bytes} {iteration : IterationOrder} {client : ClientState}
  {answers : Nat → Nat → PeerDB.Peer → Bytes → Exchange}

theorem work_empty (resting : client.Resting) (empty : client.downloads = [])
    (answers : PeerDB.Peer → Bytes → Exchange) :
    client.work sha1 iteration answers = .ok { client with worker := .outside } := by
  rcases resting with head | ⟨outside, _⟩
  · simp [ClientState.work, head, empty]
  · rw [ClientState.work, outside]
    simp only [← outside]

theorem work_head (head : client.worker = .head) (running : client.running = true)
    (nonempty : client.downloads ≠ []) (answers : PeerDB.Peer → Bytes → Exchange) :
    client.work sha1 iteration answers =
      .ok { client with worker := .visiting 0 client.downloads.length } := by
  simp [ClientState.work, head, running, nonempty]

theorem work_end {index : Nat} (visiting : client.worker = .visiting index index)
    (answers : PeerDB.Peer → Bytes → Exchange) :
    client.work sha1 iteration answers = .ok { client with worker := .head } := by
  have past : (client.downloads.take index)[index]? = none :=
    List.getElem?_eq_none (List.length_take_le index client.downloads)
  simp only [ClientState.work, visiting, past]

theorem pass_progresses (ready : Ready sha1 iteration answers client) (turn : Nat) :
    ∃ nexts worker disk announced, List.Forall₂ QueuedFile.Progresses client.downloads nexts ∧
      client.pass sha1 iteration (answers turn) = .ok { client with
        worker := worker
        downloads := nexts
        disk := disk
        announced := announced } ∧
      (worker = .head ∨ worker = .outside ∧ nexts = []) := by
  have steps : (List.range (client.downloads.length + 2)).map (answers turn) =
      answers turn 0 :: (((List.range client.downloads.length).map fun place =>
        answers turn (place + 1)) ++ [answers turn (client.downloads.length + 1)]) := by
    rw [List.range_succ, List.range_succ_eq_map, List.map_append, List.map_cons, List.map_map]
    rfl
  by_cases empty : client.downloads = []
  · have twoSteps : client.pass sha1 iteration (answers turn) =
        client.workAll sha1 iteration [answers turn 0, answers turn 1] := by
      rw [pass, empty]
      rfl
    have left : Resting { client with worker := .outside } := Or.inr ⟨rfl, empty⟩
    refine ⟨client.downloads, .outside, client.disk, client.announced, ?_, ?_,
      Or.inr ⟨rfl, empty⟩⟩
    · rw [empty]
      exact .nil
    · rw [twoSteps, workAll_cons (work_empty ready.resting empty _),
        workAll_cons (work_empty left empty _), workAll_nil]
  · have head : client.worker = .head :=
      ready.resting.resolve_right fun outside => empty outside.2
    let visiting : ClientState := { client with worker := .visiting 0 client.downloads.length }
    have started : visiting.worker = .visiting ([] : List QueuedFile).length
        (([] : List QueuedFile).length + client.downloads.length) := by
      simp [visiting]
    have suppliedNow : ∀ now ∈ (List.range client.downloads.length).map (fun place =>
        answers turn (place + 1)), ∀ entry ∈ client.downloads, entry.isComplete = false →
          Supplied sha1 iteration visiting.peerDb now entry := by
      intro now member
      rcases List.mem_map.mp member with ⟨place, _, rfl⟩
      exact ready.supplied turn (place + 1)
    obtain ⟨nexts, disk, announced, progresses, visited⟩ :=
      workAll_visits (List.nil_append _).symm started (by simp [visiting]) ready.made suppliedNow
    refine ⟨nexts, .head, disk, announced, progresses, ?_, Or.inl rfl⟩
    rw [pass, steps, workAll_cons (work_head head ready.running empty _),
      workAll_append visited, workAll_cons (work_end rfl _), workAll_nil]
    rfl

theorem exists_mem_of_forall₂ {α β : Type} {r : α → β → Prop} {sources : List α}
    {targets : List β} (related : List.Forall₂ r sources targets) :
    ∀ target ∈ targets, ∃ source ∈ sources, r source target := by
  induction related with
  | nil => nofun
  | @cons source target sources targets here _ ih =>
      intro other member
      rcases List.mem_cons.mp member with rfl | later
      · exact ⟨source, List.mem_cons_self, here⟩
      · obtain ⟨before, inSources, before_related⟩ := ih other later
        exact ⟨before, List.mem_cons_of_mem source inSources, before_related⟩

/-- A pass succeeds, brings every incomplete entry one piece further, and can be followed
by another one. -/
theorem Ready.pass (ready : Ready sha1 iteration answers client) (turn : Nat) :
    ∃ next, client.pass sha1 iteration (answers turn) = .ok next ∧
      List.Forall₂ QueuedFile.Progresses client.downloads next.downloads ∧
        Ready sha1 iteration answers next := by
  obtain ⟨nexts, worker, disk, announced, progresses, passed, resting⟩ := pass_progresses ready turn
  refine ⟨_, passed, progresses, resting, ready.running, ?_, ?_⟩
  · intro next member
    obtain ⟨entry, before, brought⟩ := exists_mem_of_forall₂ progresses next member
    exact brought.made (ready.made entry before)
  · intro turn place next member incomplete
    obtain ⟨entry, before, brought⟩ := exists_mem_of_forall₂ progresses next member
    exact brought.supplied incomplete (ready.supplied turn place entry before)

theorem Ready.passes (ready : Ready sha1 iteration answers client) (count : Nat) :
    ∃ source, client.passes sha1 iteration answers count = .ok source ∧
      Ready sha1 iteration answers source ∧
        ∀ bound, (∀ entry ∈ client.downloads, entry.remainingPieces.toList.length ≤ bound) →
          ∀ entry ∈ source.downloads, entry.remainingPieces.toList.length ≤ bound - count := by
  induction count with
  | zero => exact ⟨client, rfl, ready, fun _ bounded => bounded⟩
  | succ count ih =>
      obtain ⟨source, reached, sourceReady, bounds⟩ := ih
      obtain ⟨next, passed, progresses, nextReady⟩ := sourceReady.pass count
      refine ⟨next, ?_, nextReady, ?_⟩
      · rw [ClientState.passes, reached]
        exact passed
      · intro bound bounded entry member
        obtain ⟨before, inSource, brought⟩ := exists_mem_of_forall₂ progresses entry member
        rw [brought.length_remaining, ← Nat.sub_sub]
        exact Nat.sub_le_sub_right (bounds bound bounded before inSource) 1

end Turns

section Silence

variable {sha1 : Bytes → Bytes} {iteration : IterationOrder} {client next : ClientState}

/-- When everything is complete, no step asks for anything, and everything stays
complete. -/
theorem complete_silent (complete : ∀ entry ∈ client.downloads, entry.isComplete = true) :
    client.nextRequest iteration = none := by
  rw [nextRequest]
  cases found : client.nextEntry with
  | none => rfl
  | some entry =>
      have queued : entry ∈ client.downloads := by
        rw [nextEntry] at found
        split at found
        · exact List.mem_of_mem_take (List.mem_of_getElem? found)
        · cases found
      have nothing := (PartFile.isComplete_iff_order iteration).mp (complete entry queued)
      rw [Option.bind_eq_bind, Option.bind_some, nothing]
      rfl

theorem complete_work {answers : PeerDB.Peer → Bytes → Exchange}
    (complete : ∀ entry ∈ client.downloads, entry.isComplete = true)
    (work : client.work sha1 iteration answers = .ok next) :
    ∀ entry ∈ next.downloads, entry.isComplete = true := by
  rcases work_marks work with ⟨_, rfl⟩ | ⟨index, entry, found, piece, remains, _⟩
  · exact complete
  · have nothing := complete entry (List.mem_of_getElem? found)
    exact absurd remains (PartFile.isComplete_iff.mp nothing piece)

end Silence

/-- The largest `remaining_pieces.size()`. -/
def largestRemaining (client : ClientState) : Nat :=
  (client.downloads.map fun entry => entry.remainingPieces.toList.length).foldr max 0

/-- Every pass takes one piece off each incomplete download and leaves the complete ones
alone.  After as many passes as the largest one has pieces left, all are complete, and
whatever the peers do from then on, no request is sent. -/
theorem downloads_finish {sha1 : Bytes → Bytes} {iteration : IterationOrder}
    {client : ClientState} {answers : Nat → Nat → PeerDB.Peer → Bytes → Exchange}
    (head : client.worker = .head) (running : client.running = true)
    (made : ∀ entry ∈ client.downloads, entry.toPartFile.Made)
    (supplied : ∀ turn place, ∀ entry ∈ client.downloads, entry.isComplete = false →
      Supplied sha1 iteration client.peerDb (answers turn place) entry) :
    (∀ count, ∃ source next, client.passes sha1 iteration answers count = .ok source ∧
        source.pass sha1 iteration (answers count) = .ok next ∧
          List.Forall₂ QueuedFile.Progresses source.downloads next.downloads) ∧
      ∃ last, client.passes sha1 iteration answers client.largestRemaining = .ok last ∧
        (∀ entry ∈ last.downloads, entry.isComplete = true) ∧
          ∀ history later, Run last (fun source answers target =>
              source.work sha1 iteration answers = .ok target) history later →
            later.nextRequest iteration = none := by
  have ready : Ready sha1 iteration answers client := ⟨Or.inl head, running, made, supplied⟩
  constructor
  · intro count
    obtain ⟨source, reached, sourceReady, _⟩ := ready.passes count
    obtain ⟨next, passed, progresses, _⟩ := sourceReady.pass count
    exact ⟨source, next, reached, passed, progresses⟩
  · obtain ⟨last, reached, _, bounds⟩ := ready.passes client.largestRemaining
    have bounded : ∀ entry ∈ client.downloads,
        entry.remainingPieces.toList.length ≤ client.largestRemaining := by
      intro entry member
      exact List.le_max_of_le' 0 (List.mem_map_of_mem member) (Nat.le_refl _)
    have complete : ∀ entry ∈ last.downloads, entry.isComplete = true := by
      intro entry member
      have none := bounds _ bounded entry member
      rw [Nat.sub_self] at none
      exact PartFile.isComplete_iff_length.mpr (Nat.le_zero.mp none)
    refine ⟨last, reached, complete, ?_⟩
    intro history later run
    apply complete_silent
    exact run.invariant complete fun _ source _ target _ before work => complete_work before work

/-! A file of one byte and one of two blocks are queued.  Both have the first endpoint among
their seeders, which is not there. -/

def byteInfo : FileInfo :=
  getFileInfo sha1Blocks (ascii "e") (ascii "a")

theorem byteInfo_pieces : byteInfo.pieces = [sha1Blocks (ascii "a")] := by
  rw [byteInfo, getFileInfo, blocks_letter, List.map_singleton]

def filesQueue : ClientState where
  peerDb := ClientState.addSeeders
    (ClientState.addSeeders {} (ascii "g") byteInfo.hash
      [(1, { ip := ascii "1.2.3.4", port := 80 }), (2, { ip := ascii "1.2.3.5", port := 80 })])
    (ascii "g") blockAndByteInfo.hash
    [(1, { ip := ascii "1.2.3.4", port := 80 }), (3, { ip := ascii "1.2.3.6", port := 80 })]
  downloads :=
    [{ toLocatedPartFile := LocatedPartFile.create (ascii "g") byteInfo (ascii "new") false
       address := 1 },
     { toLocatedPartFile :=
         LocatedPartFile.create (ascii "g") blockAndByteInfo (ascii "newer") false
       address := 2 }]
  running := true
  worker := .head
  disk _ := none

/-- The block that the text asks for. -/
def blockSeeder (request : Bytes) : Exchange where
  reply := .ok (ascii "1 " ++
    if request = ascii "get g f " ++ sha1Blocks fullBlock then fullBlock else ascii "a")

def fileSeeders (_ _ : Nat) (peer : PeerDB.Peer) : Bytes → Exchange :=
  if peer.id = 1 then refusingPeer else blockSeeder

/-- The seeder that is there answers every request for a piece with the piece. -/
theorem blockSeeder_serves {entry : QueuedFile} (member : entry ∈ filesQueue.downloads) :
    ∀ piece ∈ entry.fileInfo.pieces,
      (blockSeeder (getRequest entry.toPartFile piece)).Serves sha1Blocks piece := by
  have byte : sha1Blocks (ascii "a") = ascii "86f7e437faa5a7fce15d1ddcb9eaeaea377667b8" :=
    if_pos rfl
  intro piece isPiece
  rw [Exchange.Serves, blockSeeder, sha1Blocks_fullBlock]
  rcases List.mem_cons.mp member with rfl | member
  · -- The names of the files differ in the requests.
    have isByte : piece ∈ byteInfo.pieces := isPiece
    rw [byteInfo_pieces, byte] at isByte
    rw [List.mem_singleton.mp isByte, if_neg (by decide +kernel)]
    exact ⟨_, rfl, byte⟩
  · rw [List.mem_singleton.mp member] at isPiece ⊢
    rcases List.mem_pair.mp isPiece with rfl | rfl
    · rw [if_pos (by decide +kernel)]
      exact ⟨_, rfl, sha1Blocks_fullBlock⟩
    · rw [if_neg (by decide +kernel)]
      exact ⟨_, rfl, byte⟩

theorem downloads_finish_files :
    filesQueue.largestRemaining = 2 ∧
      ∃ last, filesQueue.passes sha1Blocks .oldestFirst fileSeeders 2 = .ok last ∧
        ∀ entry ∈ last.downloads, entry.isComplete = true := by
  have largest : filesQueue.largestRemaining = 2 := by decide +kernel
  have made : ∀ entry ∈ filesQueue.downloads, entry.toPartFile.Made := by
    intro entry member
    rcases List.mem_pair.mp member with rfl | rfl
    · exact .create (ascii "g") byteInfo false
    · exact .create (ascii "g") blockAndByteInfo false
  have seeded : ∀ entry ∈ filesQueue.downloads,
      ∃ peer ∈ filesQueue.peerDb.getPeers .oldestFirst entry.groupId entry.fileInfo.hash,
        peer.id ≠ 1 := by
    decide +kernel
  have supplied (turn place : Nat) : ∀ entry ∈ filesQueue.downloads, entry.isComplete = false →
      Supplied sha1Blocks .oldestFirst filesQueue.peerDb (fileSeeders turn place) entry := by
    intro entry member _
    have serves := blockSeeder_serves member
    constructor
    · intro piece isPiece
      obtain ⟨peer, known, there⟩ := seeded entry member
      refine ⟨peer, known, ?_⟩
      rw [fileSeeders, if_neg there]
      exact serves piece isPiece
    · intro piece isPiece peer _
      rw [fileSeeders]
      split
      · exact Or.inr (Or.inl rfl)
      · exact Or.inl (serves piece isPiece)
    · intro piece _ peer _
      rw [fileSeeders]
      split <;> rfl
  obtain ⟨last, reached, complete, _⟩ := (downloads_finish rfl rfl made supplied).2
  rw [largest] at reached
  exact ⟨largest, last, reached, complete⟩

end ClientState

end P2PFileShare
