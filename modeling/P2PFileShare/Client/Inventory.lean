import P2PFileShare.Client.Databases
import P2PFileShare.Transition.History

/-!
# The databases of a client

`FilesDB` and `PeerDB` with all their functions.  What they answer is decided by the calls
that were made: an entry is what the first call made of it that found none, until a call
removes it, and what it holds is what was added since.
-/

namespace P2PFileShare

open Container Text Transition

/-! ## The other functions -/

namespace FilesDB

variable (db : FilesDB) (groupId fileName : Bytes)

/-- `FilesDB::remove_partfile`. -/
def removePartfile : Bool × FilesDB :=
  if (db.files.find? { groupId, fileName }).isSome then
    (true, { files := db.files.erase { groupId, fileName } })
  else (false, db)

/-- `FilesDB::is_complete`. -/
def isComplete : Bool :=
  match db.files.find? { groupId, fileName } with
  | none => false
  | some partFile => partFile.isComplete

/-- `FilesDB::mark_downloaded`.  The entry is changed in place. -/
def markDownloaded (piece : Bytes) : Bool × FilesDB :=
  match db.files.find? { groupId, fileName } with
  | none => (false, db)
  | some partFile =>
      ((partFile.toPartFile.markDownloaded piece).1,
        { files := db.files.adjust { groupId, fileName } fun partFile =>
            { partFile with toPartFile := (partFile.toPartFile.markDownloaded piece).2 } })

/-- A call that may change the database. -/
inductive Call
  | addPartfile (groupId : Bytes) (fileInfo : FileInfo) (filePath : Bytes) (allDownloaded : Bool)
  | removePartfile (groupId fileName : Bytes)
  | markDownloaded (groupId fileName piece : Bytes)

def call : Call → Bool × FilesDB
  | .addPartfile groupId fileInfo filePath allDownloaded =>
      db.addPartfile groupId fileInfo filePath allDownloaded
  | .removePartfile groupId fileName => db.removePartfile groupId fileName
  | .markDownloaded groupId fileName piece => db.markDownloaded groupId fileName piece

def Step (source : FilesDB) (call : Call) (target : FilesDB) : Prop :=
  (source.call call).2 = target

end FilesDB

namespace PeerDB

variable (db : PeerDB)

/-- `PeerDB::removePeer`. -/
def removePeer (id : EndpointID) : Bool × PeerDB :=
  if (db.peers.find? id).isSome then (true, { peers := db.peers.erase id }) else (false, db)

/-- `PeerDB::removeFile`. -/
def removeFile (peerId : EndpointID) (groupId fileName : Bytes) : Bool × PeerDB :=
  if (db.peers.find? peerId).isSome then
    (true, { peers := db.peers.adjust peerId fun peer =>
      { peer with files := peer.files.erase { groupId, fileName } } })
  else (false, db)

/-- A call that may change the database. -/
inductive Call
  | addPeer (id : EndpointID) (endpoint : Endpoint)
  | removePeer (id : EndpointID)
  | addFile (peerId : EndpointID) (groupId fileName : Bytes)
  | removeFile (peerId : EndpointID) (groupId fileName : Bytes)

def call : Call → Bool × PeerDB
  | .addPeer id endpoint => db.addPeer id endpoint
  | .removePeer id => db.removePeer id
  | .addFile peerId groupId fileName => db.addFile peerId groupId fileName
  | .removeFile peerId groupId fileName => db.removeFile peerId groupId fileName

def Step (source : PeerDB) (call : Call) (target : PeerDB) : Prop :=
  (source.call call).2 = target

end PeerDB

/-! ## Files by their history -/

namespace FilesDB

namespace Call

/-- The call adds a file under the key. -/
def Adds (key : FileId) (fileInfo : FileInfo) (filePath : Bytes) (allDownloaded : Bool)
    (call : Call) : Prop :=
  call = .addPartfile key.groupId fileInfo filePath allDownloaded ∧ fileInfo.name = key.fileName

def Removes (key : FileId) (call : Call) : Prop :=
  call = .removePartfile key.groupId key.fileName

/-- There is a file under the key: one was added, and none has been removed since. -/
def Present (key : FileId) : List Call → Prop :=
  Since (fun call _ => ¬call.Removes key) fun call _ =>
    ∃ fileInfo filePath allDownloaded, call.Adds key fileInfo filePath allDownloaded

/-- The entry under the key is this one: it was added when there was none. -/
def Entered (key : FileId) (fileInfo : FileInfo) (filePath : Bytes) : List Call → Prop :=
  Since (fun call _ => ¬call.Removes key) fun call past =>
    (∃ allDownloaded, call.Adds key fileInfo filePath allDownloaded) ∧ ¬Present key past

/-- The piece was there when the entry was made, or was marked later. -/
def Has (key : FileId) (piece : Bytes) : List Call → Prop :=
  Since (fun call _ => ¬call.Removes key) fun call past =>
    (∃ fileInfo filePath, call.Adds key fileInfo filePath true ∧ piece ∈ fileInfo.pieces ∧
        ¬Present key past) ∨
      (call = .markDownloaded key.groupId key.fileName piece ∧ Present key past)

end Call

section Steps

variable {source target db : FilesDB} {call : Call} {key : FileId} {history : List Call}

/-- What a call makes of the entry under a key. -/
theorem find?_call (source : FilesDB) (call : Call) (key : FileId) :
    (source.call call).2.files.find? key =
      match call with
      | .addPartfile groupId fileInfo filePath allDownloaded =>
          if key = ⟨groupId, fileInfo.name⟩ then
            (source.files.find? key).orElse fun _ =>
              some (LocatedPartFile.create groupId fileInfo filePath allDownloaded)
          else source.files.find? key
      | .removePartfile groupId fileName =>
          if key = ⟨groupId, fileName⟩ then none else source.files.find? key
      | .markDownloaded groupId fileName piece =>
          if key = ⟨groupId, fileName⟩ then
            (source.files.find? key).map fun partFile =>
              { partFile with toPartFile := (partFile.toPartFile.markDownloaded piece).2 }
          else source.files.find? key := by
  cases call with
  | addPartfile groupId fileInfo filePath allDownloaded => exact find?_addPartfile key
  | removePartfile groupId fileName =>
      simp only [FilesDB.call, removePartfile]
      cases known : source.files.find? ⟨groupId, fileName⟩ with
      | none =>
          simp only [Option.isSome_none, Bool.false_eq_true, if_false]
          split
          · next same => rw [same, known]
          · rfl
      | some entry =>
          simp only [Option.isSome_some, if_true, UnorderedMap.find?_erase, Function.update_apply]
  | markDownloaded groupId fileName piece =>
      simp only [FilesDB.call, markDownloaded]
      cases known : source.files.find? ⟨groupId, fileName⟩ with
      | none =>
          simp only
          split
          · next same => rw [same, known, Option.map_none]
          · rfl
      | some entry =>
          simp only [UnorderedMap.find?_adjust, Function.update_apply, known]
          split
          · next same => rw [same, known]
          · rfl

/-- There is an entry behind a call exactly if the call adds one, or there was one and the
call does not remove it. -/
theorem Step.present_iff (step : Step source call target) :
    (target.files.find? key).isSome = true ↔
      (∃ fileInfo filePath allDownloaded, call.Adds key fileInfo filePath allDownloaded) ∨
        (¬call.Removes key ∧ (source.files.find? key).isSome = true) := by
  rw [← step, find?_call]
  rcases key with ⟨groupId, fileName⟩
  cases call with
  | addPartfile group fileInfo filePath allDownloaded =>
      simp only [Call.Adds, Call.Removes, FileId.mk.injEq, reduceCtorEq, not_false_eq_true,
        true_and, Call.addPartfile.injEq]
      split
      · next same =>
          refine iff_of_true ?_ (Or.inl ⟨fileInfo, filePath, allDownloaded,
            ⟨same.1.symm, rfl, rfl, rfl⟩, same.2.symm⟩)
          cases source.files.find? ⟨groupId, fileName⟩ <;> rfl
      · next other =>
          refine (or_iff_right ?_).symm
          rintro ⟨_, _, _, ⟨rfl, rfl, _⟩, same⟩
          exact other ⟨rfl, same.symm⟩
  | removePartfile group name =>
      simp only [Call.Adds, Call.Removes, FileId.mk.injEq, reduceCtorEq, false_and,
        exists_false, false_or, Call.removePartfile.injEq]
      split
      · next same => simp [same.1, same.2]
      · next other =>
          have kept : ¬(group = groupId ∧ name = fileName) := fun same =>
            other ⟨same.1.symm, same.2.symm⟩
          simp [kept]
  | markDownloaded group name piece =>
      simp only [Call.Adds, Call.Removes, reduceCtorEq, false_and, exists_false, false_or,
        not_false_eq_true, true_and]
      split
      · rw [Option.isSome_map]
      · rfl

theorem present_iff (run : Run {} Step history db) :
    Call.Present key history ↔ (db.files.find? key).isSome = true := by
  apply run.since_iff (p := fun db : FilesDB => (db.files.find? key).isSome = true)
  · nofun
  · intro past source call target _ step
    exact step.present_iff

/-- The description and the path of an entry. -/
def Describes (db : FilesDB) (key : FileId) (fileInfo : FileInfo) (filePath : Bytes) : Prop :=
  ∃ entry, db.files.find? key = some entry ∧ entry.fileInfo = fileInfo ∧ entry.filePath = filePath

/-- The entry behind a call is the one that the call makes where there was none, or the one
before. -/
theorem Step.describes_iff {fileInfo : FileInfo} {filePath : Bytes}
    (step : Step source call target) :
    target.Describes key fileInfo filePath ↔
      ((∃ allDownloaded, call.Adds key fileInfo filePath allDownloaded) ∧
          source.files.find? key = none) ∨
        (¬call.Removes key ∧ source.Describes key fileInfo filePath) := by
  rw [Describes, ← step, find?_call]
  rcases key with ⟨groupId, fileName⟩
  cases call with
  | addPartfile group info path allDownloaded =>
      simp only [Call.Adds, Call.Removes, FileId.mk.injEq, reduceCtorEq, not_false_eq_true,
        true_and, Call.addPartfile.injEq, Describes]
      split
      · next same =>
          rcases same with ⟨rfl, rfl⟩
          cases source.files.find? ⟨groupId, info.name⟩ with
          | some older => simp
          | none =>
              simp only [Option.orElse_none, Option.some.injEq, exists_eq_left',
                LocatedPartFile.create, PartFile.create_fileInfo, true_and,
                exists_eq_left', and_true, reduceCtorEq, false_and, exists_false, or_false]
              constructor
              · rintro ⟨rfl, rfl⟩
                exact ⟨allDownloaded, ⟨rfl, rfl, rfl⟩, rfl⟩
              · rintro ⟨_, ⟨rfl, rfl, _⟩, _⟩
                exact ⟨rfl, rfl⟩
      · next other =>
          refine (or_iff_right ?_).symm
          rintro ⟨⟨_, ⟨rfl, rfl, _⟩, same⟩, _⟩
          exact other ⟨rfl, same.symm⟩
  | removePartfile group name =>
      simp only [Call.Adds, Call.Removes, FileId.mk.injEq, reduceCtorEq, false_and,
        exists_false, false_or, Call.removePartfile.injEq, Describes]
      split
      · next same => simp [same.1, same.2]
      · next other =>
          have kept : ¬(group = groupId ∧ name = fileName) := fun same =>
            other ⟨same.1.symm, same.2.symm⟩
          simp [kept]
  | markDownloaded group name piece =>
      simp only [Call.Adds, Call.Removes, reduceCtorEq, false_and, exists_false, false_or,
        not_false_eq_true, true_and, Describes]
      split
      · cases source.files.find? ⟨groupId, fileName⟩ with
        | none => simp
        | some entry => simp
      · rfl

theorem entered_iff (run : Run {} Step history db) {fileInfo : FileInfo} {filePath : Bytes} :
    Call.Entered key fileInfo filePath history ↔ db.Describes key fileInfo filePath := by
  apply run.since_iff (p := fun db : FilesDB => db.Describes key fileInfo filePath)
  · rintro ⟨entry, found, _⟩
    cases found
  · intro past source call target earlier step
    rw [step.describes_iff, present_iff earlier, Option.not_isSome_iff_eq_none]

/-- A piece is there behind a call exactly if the call makes an entry with it or marks it, or
it was there and its entry is not removed. -/
theorem Step.hasPiece_iff {piece : Bytes} (step : Step source call target) :
    target.hasPiece key.groupId key.fileName piece = true ↔
      ((∃ fileInfo filePath, call.Adds key fileInfo filePath true ∧ piece ∈ fileInfo.pieces ∧
            source.files.find? key = none) ∨
          (call = .markDownloaded key.groupId key.fileName piece ∧
            (source.files.find? key).isSome = true)) ∨
        (¬call.Removes key ∧ source.hasPiece key.groupId key.fileName piece = true) := by
  rw [FilesDB.hasPiece_iff, FilesDB.hasPiece_iff, ← step, find?_call]
  rcases key with ⟨groupId, fileName⟩
  cases call with
  | addPartfile group info path allDownloaded =>
      simp only [Call.Adds, Call.Removes, FileId.mk.injEq, reduceCtorEq, not_false_eq_true,
        true_and, false_and, or_false, Call.addPartfile.injEq]
      split
      · next same =>
          rcases same with ⟨rfl, rfl⟩
          cases source.files.find? ⟨groupId, info.name⟩ with
          | some older => simp
          | none =>
              simp only [Option.orElse_none, Option.some.injEq, exists_eq_left',
                LocatedPartFile.create, PartFile.mem_create.1, and_true, reduceCtorEq, false_and,
                exists_false, or_false, true_and]
              constructor
              · rintro ⟨rfl, inside⟩
                exact ⟨info, path, ⟨⟨rfl, rfl, rfl⟩, rfl⟩, inside⟩
              · rintro ⟨_, _, ⟨⟨rfl, _, complete⟩, _⟩, inside⟩
                exact ⟨complete, inside⟩
      · next other =>
          refine (or_iff_right ?_).symm
          rintro ⟨_, _, ⟨⟨rfl, rfl, _⟩, same⟩, _⟩
          exact other ⟨rfl, same.symm⟩
  | removePartfile group name =>
      simp only [Call.Adds, Call.Removes, FileId.mk.injEq, reduceCtorEq, false_and,
        exists_false, false_or, Call.removePartfile.injEq]
      split
      · next same => simp [same.1, same.2]
      · next other =>
          have kept : ¬(group = groupId ∧ name = fileName) := fun same =>
            other ⟨same.1.symm, same.2.symm⟩
          simp [kept]
  | markDownloaded group name marked =>
      simp only [Call.Adds, Call.Removes, FileId.mk.injEq, reduceCtorEq, false_and,
        exists_false, false_or, not_false_eq_true, true_and, Call.markDownloaded.injEq]
      split
      · next same =>
          rcases same with ⟨rfl, rfl⟩
          cases source.files.find? ⟨groupId, fileName⟩ with
          | none => simp
          | some entry =>
              simp only [Option.map_some, Option.some.injEq, exists_eq_left', true_and,
                PartFile.mem_markDownloaded, Option.isSome_some, and_true]
              rw [eq_comm]
      · next other =>
          refine (or_iff_right ?_).symm
          rintro ⟨⟨rfl, rfl, _⟩, _⟩
          exact other ⟨rfl, rfl⟩

theorem has_iff (run : Run {} Step history db) {piece : Bytes} :
    Call.Has key piece history ↔ db.hasPiece key.groupId key.fileName piece = true := by
  apply run.since_iff (p := fun db : FilesDB =>
    db.hasPiece key.groupId key.fileName piece = true)
  · nofun
  · intro past source call target earlier step
    rw [step.hasPiece_iff, present_iff earlier, Option.not_isSome_iff_eq_none]

/-- What remains of every entry is what has not been downloaded of its description. -/
def Whole (db : FilesDB) : Prop :=
  ∀ key entry, db.files.find? key = some entry → ∀ piece,
    piece ∈ entry.remainingPieces ↔
      piece ∈ entry.fileInfo.pieces ∧ piece ∉ entry.downloadedPieces

theorem whole_create (groupId : Bytes) (fileInfo : FileInfo) (allDownloaded : Bool)
    (piece : Bytes) :
    piece ∈ (PartFile.create groupId fileInfo allDownloaded).remainingPieces ↔
      piece ∈ (PartFile.create groupId fileInfo allDownloaded).fileInfo.pieces ∧
        piece ∉ (PartFile.create groupId fileInfo allDownloaded).downloadedPieces := by
  rw [PartFile.mem_create.1, PartFile.mem_create.2, PartFile.create_fileInfo]
  cases allDownloaded <;> simp

theorem whole_markDownloaded {partFile : PartFile}
    (whole : ∀ piece, piece ∈ partFile.remainingPieces ↔
      piece ∈ partFile.fileInfo.pieces ∧ piece ∉ partFile.downloadedPieces) (marked piece : Bytes) :
    piece ∈ (partFile.markDownloaded marked).2.remainingPieces ↔
      piece ∈ (partFile.markDownloaded marked).2.fileInfo.pieces ∧
        piece ∉ (partFile.markDownloaded marked).2.downloadedPieces := by
  rw [PartFile.mem_markDownloaded, PartFile.markDownloaded_fileInfo, not_or]
  simp only [PartFile.markDownloaded]
  split
  · next already =>
      rw [whole]
      constructor
      · rintro ⟨inside, missing⟩
        exact ⟨inside, fun same => missing (same ▸ already), missing⟩
      · rintro ⟨inside, _, missing⟩
        exact ⟨inside, missing⟩
  · rw [UnorderedSet.mem_erase, whole]
    tauto

theorem Step.whole (step : Step source call target) (whole : source.Whole) : target.Whole := by
  intro key entry found
  rw [← step, find?_call] at found
  cases call with
  | addPartfile groupId fileInfo filePath allDownloaded =>
      simp only at found
      split at found
      · cases older : source.files.find? key with
        | some held =>
            rw [older] at found
            exact whole key entry (older.trans found)
        | none =>
            rw [older] at found
            obtain rfl := Option.some.inj found
            exact whole_create groupId fileInfo allDownloaded
      · exact whole key entry found
  | removePartfile groupId fileName =>
      simp only at found
      split at found
      · cases found
      · exact whole key entry found
  | markDownloaded groupId fileName piece =>
      simp only at found
      split at found
      · obtain ⟨held, older, rfl⟩ := Option.map_eq_some_iff.mp found
        exact whole_markDownloaded (whole key held older) piece
      · exact whole key entry found

theorem whole_run (run : Run {} Step history db) : db.Whole := by
  apply run.invariant (p := fun _ db => db.Whole)
  · nofun
  · intro past source call target _ whole step
    exact step.whole whole

end Steps

/-- What the database of files answers, whatever calls were made: a file is there if it was
added and not removed since; its entry is the first one added; a piece is there if the entry
was made with it or it was marked since; and a file is complete if all pieces of its entry
are there. -/
theorem files_of_history {history : List Call} {db : FilesDB} (run : Run {} Step history db)
    (key : FileId) :
    (db.hasFile key.groupId key.fileName = true ↔ Call.Present key history) ∧
      (∀ fileInfo filePath, Call.Entered key fileInfo filePath history ↔
        ∃ entry, db.getPartfile key.groupId key.fileName = .ok entry ∧
          entry.fileInfo = fileInfo ∧ entry.filePath = filePath) ∧
      (∀ piece, db.hasPiece key.groupId key.fileName piece = true ↔ Call.Has key piece history) ∧
      (db.isComplete key.groupId key.fileName = true ↔
        ∃ fileInfo filePath, Call.Entered key fileInfo filePath history ∧
          ∀ piece ∈ fileInfo.pieces, Call.Has key piece history) := by
  refine ⟨(present_iff run).symm, ?_, fun piece => (has_iff run).symm, ?_⟩
  · intro fileInfo filePath
    rw [entered_iff run, Describes]
    simp only [getPartfile]
    cases db.files.find? key with
    | none => simp
    | some entry => simp
  · have whole := whole_run run
    simp only [has_iff run, entered_iff run, FilesDB.hasPiece_iff, Describes, isComplete]
    cases found : db.files.find? key with
    | none => simp
    | some entry =>
        have remains := whole key entry found
        simp only [PartFile.isComplete_iff, remains, not_and, not_not, Option.some.injEq,
          exists_eq_left']
        constructor
        · exact fun complete => ⟨_, _, ⟨rfl, rfl⟩, complete⟩
        · rintro ⟨_, _, ⟨rfl, rfl⟩, complete⟩
          exact complete

/-- A piece is marked before its file is added, and then both pieces. -/
def markedCalls : List Call :=
  [.markDownloaded [103] [120] [2], .markDownloaded [103] [120] [1],
    .addPartfile [103] { name := [120], size := 2, hash := [], pieces := [[1], [2]] } [47] false,
    .markDownloaded [103] [120] [1]]

theorem files_of_history_marked : ∃ db : FilesDB, Run {} Step markedCalls db ∧
    db.isComplete [103] [120] = true ∧
    ∃ fileInfo filePath, Call.Entered ⟨[103], [120]⟩ fileInfo filePath markedCalls ∧
      ∀ piece ∈ fileInfo.pieces, Call.Has ⟨[103], [120]⟩ piece markedCalls := by
  have run : Run {} Step markedCalls _ :=
    (((Run.start.step rfl).step rfl).step rfl).step rfl
  have complete := files_of_history run ⟨[103], [120]⟩
  exact ⟨_, run, by decide, complete.2.2.2.mp (by decide)⟩

end FilesDB

/-! ## Peers by their history -/

namespace PeerDB

namespace Call

/-- There is a peer under the id: it was added and not removed since. -/
def Present (id : EndpointID) : List Call → Prop :=
  Since (fun call _ => call ≠ .removePeer id) fun call _ => ∃ endpoint, call = .addPeer id endpoint

/-- The peer is reached at the endpoint: it was added with it when it was not there. -/
def Registered (id : EndpointID) (endpoint : Endpoint) : List Call → Prop :=
  Since (fun call _ => call ≠ .removePeer id) fun call past =>
    call = .addPeer id endpoint ∧ ¬Present id past

/-- The peer offers the file: the file was added when the peer was there, and neither has been
removed since. -/
def Offers (id : EndpointID) (file : FileId) : List Call → Prop :=
  Since (fun call _ => call ≠ .removePeer id ∧ call ≠ .removeFile id file.groupId file.fileName)
    fun call past => call = .addFile id file.groupId file.fileName ∧ Present id past

end Call

section Steps

variable {source target db : PeerDB} {call : Call} {id : EndpointID} {history : List Call}

/-- A peer that is there is changed in place; without it nothing is. -/
theorem find?_adjusted (source : PeerDB) (peerId : EndpointID) (change : Peer → Peer)
    (id : EndpointID) :
    (if (source.peers.find? peerId).isSome then
        (true, ({ peers := source.peers.adjust peerId change } : PeerDB))
      else (false, source)).2.peers.find? id =
      if id = peerId then (source.peers.find? id).map change else source.peers.find? id := by
  cases known : source.peers.find? peerId with
  | none =>
      simp only [Option.isSome_none, Bool.false_eq_true, if_false]
      split
      · next same => rw [same, known, Option.map_none]
      · rfl
  | some peer =>
      simp only [Option.isSome_some, if_true, UnorderedMap.find?_adjust, Function.update_apply,
        known]
      split
      · next same => rw [same, known]
      · rfl

/-- What a call makes of the peer under an id. -/
theorem find?_call (source : PeerDB) (call : Call) (id : EndpointID) :
    (source.call call).2.peers.find? id =
      match call with
      | .addPeer peerId endpoint =>
          if id = peerId then
            (source.peers.find? id).orElse fun _ => some { id := peerId, endpoint }
          else source.peers.find? id
      | .removePeer peerId => if id = peerId then none else source.peers.find? id
      | .addFile peerId groupId fileName =>
          if id = peerId then
            (source.peers.find? id).map fun peer =>
              { peer with files := peer.files.insert { groupId, fileName } }
          else source.peers.find? id
      | .removeFile peerId groupId fileName =>
          if id = peerId then
            (source.peers.find? id).map fun peer =>
              { peer with files := peer.files.erase { groupId, fileName } }
          else source.peers.find? id := by
  cases call with
  | addPeer peerId endpoint =>
      simp only [PeerDB.call, addPeer]
      cases known : source.peers.find? peerId with
      | none =>
          simp only [Option.isSome_none, Bool.false_eq_true, if_false,
            UnorderedMap.find?_insert, Function.update_apply]
          split
          · next same =>
              rw [same, known]
              rfl
          · rfl
      | some peer =>
          simp only [Option.isSome_some, if_true]
          split
          · next same =>
              rw [same, known]
              rfl
          · rfl
  | removePeer peerId =>
      simp only [PeerDB.call, removePeer]
      cases known : source.peers.find? peerId with
      | none =>
          simp only [Option.isSome_none, Bool.false_eq_true, if_false]
          split
          · next same => rw [same, known]
          · rfl
      | some peer =>
          simp only [Option.isSome_some, if_true, UnorderedMap.find?_erase, Function.update_apply]
  | addFile peerId groupId fileName => exact find?_adjusted source peerId _ id
  | removeFile peerId groupId fileName => exact find?_adjusted source peerId _ id

/-- There is a peer behind a call exactly if the call adds one, or there was one and the call
does not remove it. -/
theorem Step.present_iff (step : Step source call target) :
    (target.peers.find? id).isSome = true ↔
      (∃ endpoint, call = .addPeer id endpoint) ∨
        (call ≠ .removePeer id ∧ (source.peers.find? id).isSome = true) := by
  rw [← step, find?_call]
  cases call with
  | addPeer peerId endpoint =>
      simp only [Call.addPeer.injEq, ne_eq, reduceCtorEq, not_false_eq_true, true_and]
      split
      · next same =>
          refine iff_of_true ?_ (Or.inl ⟨endpoint, same.symm, rfl⟩)
          cases source.peers.find? id <;> rfl
      · next other =>
          refine (or_iff_right ?_).symm
          rintro ⟨_, same, _⟩
          exact other same.symm
  | removePeer peerId =>
      simp only [reduceCtorEq, exists_false, false_or, ne_eq, Call.removePeer.injEq]
      split
      · next same => simp [same]
      · next other => simp [Ne.symm other]
  | addFile peerId groupId fileName =>
      simp only [reduceCtorEq, exists_false, false_or, ne_eq, not_false_eq_true, true_and]
      split
      · rw [Option.isSome_map]
      · rfl
  | removeFile peerId groupId fileName =>
      simp only [reduceCtorEq, exists_false, false_or, ne_eq, not_false_eq_true, true_and]
      split
      · rw [Option.isSome_map]
      · rfl

theorem present_iff (run : Run {} Step history db) :
    Call.Present id history ↔ (db.peers.find? id).isSome = true := by
  apply run.since_iff (p := fun db : PeerDB => (db.peers.find? id).isSome = true)
  · nofun
  · intro past source call target _ step
    exact step.present_iff

/-- The peer under an id, with the endpoint at which it is reached. -/
def Reaches (db : PeerDB) (id : EndpointID) (endpoint : Endpoint) : Prop :=
  ∃ peer, db.peers.find? id = some peer ∧ peer.id = id ∧ peer.endpoint = endpoint

theorem Step.reaches_iff {endpoint : Endpoint} (step : Step source call target) :
    target.Reaches id endpoint ↔
      (call = .addPeer id endpoint ∧ source.peers.find? id = none) ∨
        (call ≠ .removePeer id ∧ source.Reaches id endpoint) := by
  rw [Reaches, ← step, find?_call]
  cases call with
  | addPeer peerId itsEndpoint =>
      simp only [Call.addPeer.injEq, ne_eq, reduceCtorEq, not_false_eq_true, true_and, Reaches]
      split
      · next same =>
          subst same
          cases source.peers.find? id <;> simp
      · next other => simp [Ne.symm other]
  | removePeer peerId =>
      simp only [reduceCtorEq, false_and, false_or, ne_eq, Call.removePeer.injEq, Reaches]
      split
      · next same => simp [same]
      · next other => simp [Ne.symm other]
  | addFile peerId groupId fileName =>
      simp only [reduceCtorEq, false_and, false_or, ne_eq, not_false_eq_true, true_and, Reaches]
      split
      · cases source.peers.find? id <;> simp
      · rfl
  | removeFile peerId groupId fileName =>
      simp only [reduceCtorEq, false_and, false_or, ne_eq, not_false_eq_true, true_and, Reaches]
      split
      · cases source.peers.find? id <;> simp
      · rfl

theorem registered_iff (run : Run {} Step history db) {endpoint : Endpoint} :
    Call.Registered id endpoint history ↔ db.Reaches id endpoint := by
  apply run.since_iff (p := fun db : PeerDB => db.Reaches id endpoint)
  · rintro ⟨peer, found, _⟩
    cases found
  · intro past source call target earlier step
    rw [step.reaches_iff, present_iff earlier, Option.not_isSome_iff_eq_none]

/-- The peer under an id lists the file. -/
def Lists (db : PeerDB) (id : EndpointID) (file : FileId) : Prop :=
  ∃ peer, db.peers.find? id = some peer ∧ file ∈ peer.files

/-- A file is listed behind a call exactly if the call adds it to a peer that is there, or it
was listed and the call removes neither it nor its peer. -/
theorem Step.lists_iff {file : FileId} (step : Step source call target) :
    target.Lists id file ↔
      (call = .addFile id file.groupId file.fileName ∧ (source.peers.find? id).isSome = true) ∨
        ((call ≠ .removePeer id ∧ call ≠ .removeFile id file.groupId file.fileName) ∧
          source.Lists id file) := by
  rw [Lists, ← step, find?_call]
  rcases file with ⟨itsGroup, itsName⟩
  cases call with
  | addPeer peerId endpoint =>
      simp only [reduceCtorEq, false_and, false_or, ne_eq, not_false_eq_true, true_and, Lists,
        and_self]
      split
      · have nothing : (⟨itsGroup, itsName⟩ : FileId) ∉ ({} : UnorderedSet FileId) :=
          UnorderedSet.not_mem_empty _
        cases source.peers.find? id <;> simp [nothing]
      · rfl
  | removePeer peerId =>
      simp only [reduceCtorEq, false_and, false_or, ne_eq, Call.removePeer.injEq,
        not_false_eq_true, and_true, Lists]
      split
      · next same => simp [same]
      · next other => simp [Ne.symm other]
  | addFile peerId groupId fileName =>
      simp only [Call.addFile.injEq, ne_eq, reduceCtorEq, not_false_eq_true, true_and, and_self,
        Lists]
      split
      · next same =>
          subst same
          cases source.peers.find? id with
          | none => simp
          | some peer =>
              simp only [Option.map_some, Option.some.injEq, exists_eq_left',
                UnorderedSet.mem_insert, FileId.mk.injEq, Option.isSome_some, and_true, true_and]
              rw [eq_comm, @eq_comm _ itsName]
      · next other => simp [Ne.symm other]
  | removeFile peerId groupId fileName =>
      simp only [reduceCtorEq, false_and, false_or, ne_eq, not_false_eq_true, true_and,
        Call.removeFile.injEq, Lists]
      split
      · next same =>
          subst same
          cases source.peers.find? id with
          | none => simp
          | some peer =>
              simp only [Option.map_some, Option.some.injEq, exists_eq_left',
                UnorderedSet.mem_erase, ne_eq, FileId.mk.injEq, true_and]
              rw [and_comm, @eq_comm _ itsGroup, @eq_comm _ itsName]
      · next other => simp [Ne.symm other]

theorem offers_iff (run : Run {} Step history db) {file : FileId} :
    Call.Offers id file history ↔ db.Lists id file := by
  apply run.since_iff (p := fun db : PeerDB => db.Lists id file)
  · rintro ⟨peer, found, _⟩
    cases found
  · intro past source call target earlier step
    rw [step.lists_iff, present_iff earlier]

/-- Every peer carries the id under which it is found. -/
def Keyed (db : PeerDB) : Prop :=
  ∀ id peer, db.peers.find? id = some peer → peer.id = id

theorem Step.keyed (step : Step source call target) (keyed : source.Keyed) : target.Keyed := by
  intro id peer found
  rw [← step, find?_call] at found
  cases call with
  | addPeer peerId endpoint =>
      simp only at found
      split at found
      · next same =>
          cases older : source.peers.find? id with
          | some held =>
              rw [older] at found
              exact keyed id peer (older.trans found)
          | none =>
              rw [older] at found
              obtain rfl := Option.some.inj found
              exact same.symm
      · exact keyed id peer found
  | removePeer peerId =>
      simp only at found
      split at found
      · cases found
      · exact keyed id peer found
  | addFile peerId groupId fileName =>
      simp only at found
      split at found
      · obtain ⟨held, older, rfl⟩ := Option.map_eq_some_iff.mp found
        exact keyed id held older
      · exact keyed id peer found
  | removeFile peerId groupId fileName =>
      simp only at found
      split at found
      · obtain ⟨held, older, rfl⟩ := Option.map_eq_some_iff.mp found
        exact keyed id held older
      · exact keyed id peer found

theorem keyed_run (run : Run {} Step history db) : db.Keyed := by
  apply run.invariant (p := fun _ db => db.Keyed)
  · nofun
  · intro past source call target _ keyed step
    exact step.keyed keyed

/-- No id is found twice. -/
theorem Keyed.nodup_getPeers (keyed : db.Keyed) (iteration : IterationOrder)
    (groupId fileName : Bytes) :
    ((db.getPeers iteration groupId fileName).map fun peer => peer.id).Nodup := by
  have ids : ((iteration.order db.peers.keys).filterMap fun id =>
      (db.peers.find? id).map fun peer => peer.id).Nodup := by
    refine List.Nodup.filterMap ?_
      ((iteration.perm db.peers.keys).nodup_iff.mpr db.peers.keys.nodup_toList)
    intro id other found atId atOther
    obtain ⟨peer, isPeer, rfl⟩ := Option.map_eq_some_iff.mp atId
    obtain ⟨same, isSame, ids⟩ := Option.map_eq_some_iff.mp atOther
    rw [← keyed id peer isPeer, ← keyed other same isSame, ids]
  rw [← List.map_filterMap] at ids
  exact ids.sublist (List.filter_sublist.map _)

theorem Keyed.mem_getPeers_iff (keyed : db.Keyed) {iteration : IterationOrder}
    {groupId fileName : Bytes} {peer : Peer} :
    peer ∈ db.getPeers iteration groupId fileName ↔
      db.peers.find? peer.id = some peer ∧ ⟨groupId, fileName⟩ ∈ peer.files := by
  simp only [getPeers, List.mem_filter, List.mem_filterMap, decide_eq_true_eq,
    IterationOrder.mem_order]
  constructor
  · rintro ⟨⟨id, _, found⟩, listed⟩
    rw [keyed id peer found]
    exact ⟨found, listed⟩
  · rintro ⟨found, listed⟩
    refine ⟨⟨peer.id, ?_, found⟩, listed⟩
    rw [db.peers.mem_keys_iff, found]
    rfl

end Steps

/-- What the database of peers answers, whatever calls were made: the peers found for a file
are those that offer it, each once and at the endpoint with which it was registered. -/
theorem peers_of_history {history : List Call} {db : PeerDB} (run : Run {} Step history db)
    (iteration : IterationOrder) (groupId fileName : Bytes) :
    ((db.getPeers iteration groupId fileName).map fun peer => peer.id).Nodup ∧
      ∀ id endpoint,
        (∃ peer ∈ db.getPeers iteration groupId fileName,
          peer.id = id ∧ peer.endpoint = endpoint) ↔
        Call.Offers id ⟨groupId, fileName⟩ history ∧ Call.Registered id endpoint history := by
  have keyed := keyed_run run
  refine ⟨keyed.nodup_getPeers iteration groupId fileName, ?_⟩
  intro id endpoint
  rw [offers_iff run, registered_iff run]
  constructor
  · rintro ⟨peer, member, rfl, rfl⟩
    obtain ⟨found, listed⟩ := keyed.mem_getPeers_iff.mp member
    exact ⟨⟨peer, found, listed⟩, peer, found, rfl, rfl⟩
  · rintro ⟨⟨peer, found, listed⟩, same, foundToo, rfl, rfl⟩
    obtain rfl := Option.some.inj (found.symm.trans foundToo)
    exact ⟨peer, keyed.mem_getPeers_iff.mpr ⟨found, listed⟩, rfl, rfl⟩

/-- A peer that is removed and comes back elsewhere, with a file of before and one of after. -/
def returningCalls : List Call :=
  [.addFile 49 [103] [121], .addPeer 49 { ip := [98], port := 2 }, .removePeer 49,
    .addFile 49 [103] [120], .addPeer 49 { ip := [97], port := 1 }]

theorem peers_of_history_returning : ∃ db : PeerDB, Run {} Step returningCalls db ∧
    Call.Offers 49 ⟨[103], [121]⟩ returningCalls ∧
    ¬Call.Offers 49 ⟨[103], [120]⟩ returningCalls ∧
    Call.Registered 49 { ip := [98], port := 2 } returningCalls := by
  have run : Run {} Step returningCalls _ :=
    ((((Run.start.step rfl).step rfl).step rfl).step rfl).step rfl
  have after := (peers_of_history run .oldestFirst [103] [121]).2 49 { ip := [98], port := 2 }
  have before := (peers_of_history run .oldestFirst [103] [120]).2 49 { ip := [98], port := 2 }
  have found := after.mp (by decide)
  refine ⟨_, run, found.1, ?_, found.2⟩
  intro offers
  exact absurd (before.mpr ⟨offers, found.2⟩) (by decide)

end PeerDB

end P2PFileShare
