import P2PFileShare.Client.DownloadManager

/-!
# What a pause stops

`DownloadManager::pause_downloads` clears the flag and waits for the worker.  The worker looks
at the flag in front of a pass only, so it first ends the pass it is in: until downloads are
started again, an entry that it had still to visit may get one piece, and nothing else is
downloaded.
-/

namespace P2PFileShare

open Container Text Transition

namespace Worker

/-- How many steps the worker has to make while the flag is clear. -/
def remaining : Worker → Nat
  | .outside => 0
  | .head => 1
  | .visiting index stop => stop - index + 2

/-- The worker comes to this place before its pass is over. -/
def ToVisit (worker : Worker) (place : Nat) : Prop :=
  match worker with
  | .visiting index stop => index ≤ place ∧ place < stop
  | _ => False

/-- A visit takes its entry off the pass. -/
theorem toVisit_succ {index stop place : Nat} :
    (visiting (index + 1) stop).ToVisit place ↔
      (visiting index stop).ToVisit place ∧ place ≠ index := by
  simp only [ToVisit]
  omega

end Worker

namespace ClientState

/-- The worker makes a step. -/
def Event.works : Event → Bool
  | .work _ => true
  | _ => false

/-- The disk is changed by somebody else. -/
def Event.ChangesDisk : Event → Prop
  | .changeDisk _ => True
  | _ => False

/-- What has happened since the flag was cleared. -/
structure Settles (paused : ClientState) (past : List Event) (client : ClientState) : Prop where
  running : client.running = false
  steps : client.worker ≠ .outside →
    past.countP Event.works + client.worker.remaining ≤ paused.worker.remaining
  length : client.worker ≠ .outside → client.downloads.length = paused.downloads.length
  pass : ∀ place, client.worker.ToVisit place → paused.worker.ToVisit place
  entries : ∀ place entry, paused.downloads[place]? = some entry →
    client.downloads[place]? = some entry ∨
      paused.worker.ToVisit place ∧ ¬client.worker.ToVisit place ∧
        ∃ piece ∈ entry.remainingPieces, client.downloads[place]? =
          some { entry with toPartFile := (entry.markDownloaded piece).2 }
  fresh : ∀ place entry, client.downloads[place]? = some entry →
    paused.downloads.length ≤ place → ∀ piece, piece ∉ entry.downloadedPieces
  disk : (∀ event ∈ past, ¬event.ChangesDisk) → ∀ path,
    (∀ place entry, paused.downloads[place]? = some entry → paused.worker.ToVisit place →
      entry.filePath ≠ path) → client.disk path = paused.disk path

section Settles

variable {sha1 : Bytes → Bytes} {iteration : IterationOrder} {paused source target : ClientState}
  {event : Event} {past : List Event}

theorem Settles.refl (cleared : paused.running = false) : paused.Settles [] paused where
  running := cleared
  steps := fun _ => Nat.le_of_eq (Nat.zero_add _)
  length := fun _ => rfl
  pass := fun _ => id
  entries := fun _ _ found => Or.inl found
  fresh := by
    intro place entry found beyond
    rw [List.getElem?_eq_none beyond] at found
    cases found
  disk := fun _ _ _ => rfl

/-- What concerns neither the queue nor the worker changes nothing of that. -/
theorem Settles.quiet (settles : paused.Settles past source) (idle : event.works = false)
    (running : target.running = source.running) (worker : target.worker = source.worker)
    (downloads : target.downloads = source.downloads)
    (disk : ¬event.ChangesDisk → target.disk = source.disk) :
    paused.Settles (event :: past) target where
  running := running.trans settles.running
  steps := by
    rw [worker, List.countP_cons_of_neg (by simp [idle])]
    exact settles.steps
  length := by
    rw [worker, downloads]
    exact settles.length
  pass := by
    rw [worker]
    exact settles.pass
  entries := by
    rw [worker, downloads]
    exact settles.entries
  fresh := by
    rw [downloads]
    exact settles.fresh
  disk := by
    intro alone
    rw [disk (alone event List.mem_cons_self)]
    exact settles.disk fun other member => alone other (List.mem_cons_of_mem _ member)

/-- The main thread queues nothing before the worker has left. -/
theorem Settles.enqueueDownload (settles : paused.Settles past source)
    (idle : ¬source.Joining) (groupId outputFilePath : Bytes) (fileInfo : FileInfo)
    (address : Nat) {accepted : Bool} :
    paused.Settles (.enqueueDownload groupId fileInfo address outputFilePath accepted :: past)
      (source.enqueueDownload groupId fileInfo address outputFilePath).2 := by
  have outside : source.worker = .outside := by
    by_contra working
    exact idle ⟨settles.running, working⟩
  rcases enqueueDownload_cases source groupId fileInfo address outputFilePath with
    ⟨_, refused⟩ | ⟨_, queued⟩
  · rw [refused]
    exact settles.quiet rfl rfl rfl rfl fun _ => rfl
  · rw [queued]
    have kept {place : Nat} {entry : QueuedFile} (new : List QueuedFile)
        (found : source.downloads[place]? = some entry) :
        (source.downloads ++ new)[place]? = some entry := by
      rw [List.getElem?_append_left (List.getElem?_eq_some_iff.mp found).1, found]
    exact {
      running := settles.running
      steps := fun working => absurd outside working
      length := fun working => absurd outside working
      pass := settles.pass
      entries := by
        intro place entry found
        rcases settles.entries place entry found with same | ⟨due, visited, piece, remains, marked⟩
        · exact Or.inl (kept _ same)
        · exact Or.inr ⟨due, visited, piece, remains, kept _ marked⟩
      fresh := by
        intro place entry found beyond
        rcases Nat.lt_or_ge place source.downloads.length with older | new
        · rw [List.getElem?_append_left older] at found
          exact settles.fresh place entry found beyond
        · rw [List.getElem?_append_right new, List.getElem?_singleton] at found
          split at found
          · obtain rfl := Option.some.inj found
            exact fun piece held => absurd (PartFile.mem_create.1.mp held).1 Bool.false_ne_true
          · cases found
      disk := fun alone =>
        settles.disk fun other member => alone other (List.mem_cons_of_mem _ member) }

/-- What a visit makes of the queue. -/
theorem visit_queue {answers : PeerDB.Peer → Bytes → Exchange} {index : Nat} {entry : QueuedFile}
    (found : source.downloads[index]? = some entry)
    (visit : source.visit sha1 iteration answers index entry = .ok target) :
    target.downloads.length = source.downloads.length ∧
      (∀ place, place ≠ index → target.downloads[place]? = source.downloads[place]?) ∧
      (target.downloads[index]? = some entry ∨
        ∃ piece ∈ entry.remainingPieces, target.downloads[index]? =
          some { entry with toPartFile := (entry.markDownloaded piece).2 }) := by
  rcases visit_cases found visit with ⟨_, rfl⟩ | ⟨_, piece, remains, _, _, rfl⟩
  · exact ⟨rfl, fun _ _ => rfl, Or.inl found⟩
  · have inRange := (List.getElem?_eq_some_iff.mp found).1
    exact ⟨List.length_set, fun place other => List.getElem?_set_ne other.symm,
      Or.inr ⟨piece, remains, List.getElem?_set_self inRange⟩⟩

/-- An entry that is still to be visited is as it was. -/
theorem Settles.untouched (settles : paused.Settles past source) {index : Nat}
    {entry : QueuedFile} (due : source.worker.ToVisit index)
    (found : source.downloads[index]? = some entry) : paused.downloads[index]? = some entry := by
  have working : source.worker ≠ .outside := by
    intro outside
    rw [outside] at due
    exact due
  have inRange : index < paused.downloads.length := by
    rw [← settles.length working]
    exact (List.getElem?_eq_some_iff.mp found).1
  have known := List.getElem?_eq_getElem inRange
  rcases settles.entries index _ known with same | ⟨_, visited, _⟩
  · rw [known, ← same, found]
  · exact absurd due visited

/-- The visit of an entry may mark one piece of it, and the pass goes on behind it. -/
theorem Settles.visit {answers : PeerDB.Peer → Bytes → Exchange} {index stop : Nat}
    {entry : QueuedFile} (settles : paused.Settles past source)
    (visiting : source.worker = .visiting index stop) (inPass : index < stop)
    (found : source.downloads[index]? = some entry)
    (visit : source.visit sha1 iteration answers index entry = .ok target) :
    paused.Settles (.work answers :: past)
      { target with worker := .visiting (index + 1) stop } := by
  have working : source.worker ≠ .outside := by
    rw [visiting]
    nofun
  have due : source.worker.ToVisit index := by
    rw [visiting]
    exact ⟨Nat.le_refl _, inPass⟩
  have onwards {place : Nat} : (Worker.visiting (index + 1) stop).ToVisit place ↔
      source.worker.ToVisit place ∧ place ≠ index := by
    rw [visiting]
    exact Worker.toVisit_succ
  have known := settles.untouched due found
  obtain ⟨length, others, here⟩ := visit_queue found visit
  exact {
    running := (visit_running found visit).trans settles.running
    steps := by
      intro _
      have earlier := settles.steps working
      rw [visiting, Worker.remaining] at earlier
      rw [List.countP_cons_of_pos rfl, Worker.remaining]
      omega
    length := fun _ => length.trans (settles.length working)
    pass := fun place later => settles.pass place (onwards.mp later).1
    entries := by
      intro place other before
      by_cases same : place = index
      · subst same
        obtain rfl := Option.some.inj (known.symm.trans before)
        have visited : ¬(Worker.visiting (place + 1) stop).ToVisit place :=
          fun later => (onwards.mp later).2 rfl
        exact here.imp id fun marked => ⟨settles.pass place due, visited, marked⟩
      · rw [others place same]
        rcases settles.entries place other before with kept | ⟨wasDue, visited, marked⟩
        · exact Or.inl kept
        · exact Or.inr ⟨wasDue, fun later => visited (onwards.mp later).1, marked⟩
    fresh := by
      intro place other there beyond
      have inRange := (List.getElem?_eq_some_iff.mp there).1
      rw [length, settles.length working] at inRange
      exact absurd beyond (Nat.not_le_of_lt inRange)
    disk := by
      intro alone path elsewhere
      calc target.disk path
          = source.disk path :=
            visit_disk (elsewhere index entry known (settles.pass index due)) visit
        _ = paused.disk path :=
          settles.disk (fun other member => alone other (List.mem_cons_of_mem _ member)) path
            elsewhere }

/-- Behind the last entry, the worker moves without touching any. -/
theorem Settles.move {answers : PeerDB.Peer → Bytes → Exchange} {worker : Worker}
    (settles : paused.Settles past source) (nothing : ∀ place, ¬worker.ToVisit place)
    (shorter : worker ≠ .outside →
      source.worker ≠ .outside ∧ worker.remaining < source.worker.remaining) :
    paused.Settles (.work answers :: past) { source with worker } where
  running := settles.running
  steps := by
    intro working
    have earlier := settles.steps (shorter working).1
    have less := (shorter working).2
    rw [List.countP_cons_of_pos rfl]
    change past.countP Event.works + 1 + worker.remaining ≤ _
    omega
  length := fun working => settles.length (shorter working).1
  pass := fun place later => absurd later (nothing place)
  entries := by
    intro place entry known
    rcases settles.entries place entry known with same | ⟨due, _, marked⟩
    · exact Or.inl same
    · exact Or.inr ⟨due, nothing place, marked⟩
  fresh := settles.fresh
  disk := fun alone => settles.disk fun other member => alone other (List.mem_cons_of_mem _ member)

/-- With the flag clear, the worker ends its pass and leaves. -/
theorem Settles.work {answers : PeerDB.Peer → Bytes → Exchange}
    (settles : paused.Settles past source)
    (work : source.work sha1 iteration answers = .ok target) :
    paused.Settles (.work answers :: past) target := by
  rcases work_cases work with ⟨outside, rfl⟩ | ⟨_, running, _, _⟩ | ⟨_, _, rfl⟩ |
    ⟨index, stop, visiting, _, rfl⟩ |
    ⟨index, stop, entry, visited, visiting, inPass, found, visit, rfl⟩
  · refine settles.move ?_ fun working => absurd outside working
    intro place due
    rw [outside] at due
    exact due
  · rw [settles.running] at running
    cases running
  · exact settles.move (fun _ => id) fun working => absurd rfl working
  · refine settles.move (fun _ => id) fun _ => ?_
    rw [visiting]
    exact ⟨nofun, Nat.lt_add_left _ (Nat.lt_succ_self 1)⟩
  · exact settles.visit visiting inPass found visit

theorem Settles.step (settles : paused.Settles past source)
    (step : Step sha1 iteration source event target) (unstarted : ¬event.Starts) :
    paused.Settles (event :: past) target := by
  cases step with
  | addPartfile _ => exact settles.quiet rfl rfl rfl rfl fun _ => rfl
  | addSeeders _ => exact settles.quiet rfl rfl rfl rfl fun _ => rfl
  | enqueueDownload idle => exact settles.enqueueDownload idle _ _ _ _
  | startDownloads _ => exact absurd trivial unstarted
  | pauseDownloads _ =>
      rw [pauseDownloads, settles.running]
      exact settles.quiet rfl rfl rfl rfl fun _ => rfl
  | work work => exact settles.work work
  | changeDisk => exact settles.quiet rfl rfl rfl rfl fun others => absurd trivial others

/-- From a call of `pause_downloads` until downloads are started again, whatever the main thread
and others do: while the worker is there, it has made no more steps than were left of its
pass; each entry has what it had, or one piece more if the worker had still to visit it; what
is queued has nothing; and but for what others write, only the output files of entries
that the worker had still to visit have changed. -/
theorem pause_settles {later : ClientState}
    (run : Run source.pauseDownloads.2 (Step sha1 iteration) past later)
    (unstarted : ∀ event ∈ past, ¬event.Starts) :
    (later.worker ≠ .outside →
      past.countP Event.works + later.worker.remaining ≤ source.worker.remaining) ∧
    (∀ place entry, source.downloads[place]? = some entry →
      later.downloads[place]? = some entry ∨
        source.worker.ToVisit place ∧ ∃ piece ∈ entry.remainingPieces,
          later.downloads[place]? =
            some { entry with toPartFile := (entry.markDownloaded piece).2 }) ∧
    (∀ place entry, later.downloads[place]? = some entry → source.downloads.length ≤ place →
      ∀ piece, piece ∉ entry.downloadedPieces) ∧
    ((∀ event ∈ past, ¬event.ChangesDisk) → ∀ path,
      (∀ place entry, source.downloads[place]? = some entry → source.worker.ToVisit place →
        entry.filePath ≠ path) → later.disk path = source.disk path) := by
  have cleared : source.pauseDownloads.2.running = false := by
    rw [pauseDownloads]
    split
    · rfl
    · next idle => exact Bool.eq_false_iff.mpr idle
  have settles : source.pauseDownloads.2.Settles past later := by
    induction run with
    | start => exact .refl cleared
    | step run step ih =>
        rcases List.forall_mem_cons.mp unstarted with ⟨latest, older⟩
        exact (ih older).step step latest
  rw [pauseDownloads_eq source] at settles
  refine ⟨settles.steps, ?_, settles.fresh, settles.disk⟩
  intro place entry known
  rcases settles.entries place entry known with same | ⟨due, _, marked⟩
  · exact Or.inl same
  · exact Or.inr ⟨due, marked⟩

end Settles

/-! The flag is cleared when the worker comes to the letter.  The letter that was queued
behind it since is left. -/

def pausedLetters : ClientState where
  peerDb := addSeeders {} (ascii "g") letterInfo.hash [(1, { ip := ascii "1.2.3.4", port := 80 })]
  downloads := queuedLetter.downloads ++ queuedLetter.downloads
  running := true
  worker := .visiting 0 1
  disk _ := none

theorem pause_settles_letters : ∃ past later,
    Run pausedLetters.pauseDownloads.2 (Step sha1Letter .oldestFirst) past later ∧
      past.countP Event.works = 2 ∧ later.worker = .head ∧
      2 + later.worker.remaining ≤ pausedLetters.worker.remaining ∧
      ∀ entry, pausedLetters.downloads[1]? = some entry → later.downloads[1]? = some entry := by
  let answers (_ : PeerDB.Peer) (_ : Bytes) : Exchange := { reply := .ok (ascii "1 a") }
  obtain ⟨middle, later, visits, ends, head⟩ : ∃ middle later : ClientState,
      pausedLetters.pauseDownloads.2.work sha1Letter .oldestFirst answers = .ok middle ∧
        middle.work sha1Letter .oldestFirst answers = .ok later ∧ later.worker = .head :=
    ⟨_, _, rfl, rfl, rfl⟩
  have run : Run pausedLetters.pauseDownloads.2 (Step sha1Letter .oldestFirst) _ later :=
    (Run.start.step (.work visits)).step (.work ends)
  have unstarted : ∀ event ∈ [Event.work answers, .work answers], ¬event.Starts := by
    intro event member
    simp only [List.mem_cons, List.not_mem_nil, or_false, or_self] at member
    rw [member]
    exact id
  obtain ⟨steps, entries, _, _⟩ := pause_settles run unstarted
  refine ⟨_, later, run, rfl, head, steps (by rw [head]; nofun), ?_⟩
  intro entry known
  rcases entries 1 entry known with same | ⟨due, _⟩
  · exact same
  · exact absurd due.2 (by decide)

end ClientState

end P2PFileShare
