import P2PFileShare.Client.Download

/-!
# What a client serves, and whom it asks

`client/filesdb.cpp` and `client/peerdb.cpp`.  Files are served by group and name;
peers are asked by group and content hash, under the same type of key.
-/

namespace P2PFileShare

open Container Text

/-- `file_id`. -/
structure FileId where
  groupId : Bytes
  fileName : Bytes
  deriving DecidableEq

/-- `PartFile::has_piece`. -/
def PartFile.hasPiece (partFile : PartFile) (piece : Bytes) : Bool :=
  decide (piece ∈ partFile.downloadedPieces)

/-- A part file together with its `file_path`. -/
structure LocatedPartFile extends PartFile where
  filePath : Bytes

/-- The constructor. -/
def LocatedPartFile.create (groupId : Bytes) (fileInfo : FileInfo) (filePath : Bytes)
    (allDownloaded : Bool) : LocatedPartFile :=
  { toPartFile := PartFile.create groupId fileInfo allDownloaded, filePath }

structure FilesDB where
  files : UnorderedMap FileId LocatedPartFile := .empty

namespace FilesDB

variable (db : FilesDB) (groupId : Bytes)

/-- `FilesDB::add_partfile`.  An entry that is there already stays as it is. -/
def addPartfile (fileInfo : FileInfo) (filePath : Bytes) (allDownloaded : Bool) :
    Bool × FilesDB :=
  let key : FileId := { groupId, fileName := fileInfo.name }
  if (db.files.find? key).isSome then (false, db)
  else
    (true, { files :=
      db.files.insert key (LocatedPartFile.create groupId fileInfo filePath allDownloaded) })

/-- `FilesDB::get_partfile`. -/
def getPartfile (fileName : Bytes) : Except StdException LocatedPartFile :=
  match db.files.find? { groupId, fileName } with
  | none => .error .invalidArgument
  | some partFile => .ok partFile

/-- `FilesDB::has_file`. -/
def hasFile (fileName : Bytes) : Bool :=
  (db.files.find? { groupId, fileName }).isSome

/-- `FilesDB::has_piece`. -/
def hasPiece (fileName piece : Bytes) : Bool :=
  match db.files.find? { groupId, fileName } with
  | none => false
  | some partFile => partFile.hasPiece piece

end FilesDB

structure PeerDB.Peer where
  id : EndpointID
  endpoint : Endpoint
  files : UnorderedSet FileId := {}

structure PeerDB where
  peers : UnorderedMap EndpointID PeerDB.Peer := .empty

namespace PeerDB

variable (db : PeerDB)

/-- `PeerDB::addPeer`. -/
def addPeer (id : EndpointID) (endpoint : Endpoint) : Bool × PeerDB :=
  if (db.peers.find? id).isSome then (false, db)
  else (true, { peers := db.peers.insert id { id, endpoint } })

/-- `PeerDB::addFile`.  A peer is reached through a shared pointer. -/
def addFile (peerId : EndpointID) (groupId fileName : Bytes) : Bool × PeerDB :=
  if (db.peers.find? peerId).isSome then
    (true, { peers := db.peers.adjust peerId fun peer =>
      { peer with files := peer.files.insert { groupId, fileName } } })
  else (false, db)

/-- `PeerDB::getPeers`. -/
def getPeers (iteration : IterationOrder) (groupId fileName : Bytes) : List PeerDB.Peer :=
  ((iteration.order db.peers.keys).filterMap db.peers.find?).filter fun peer =>
    ({ groupId, fileName } : FileId) ∈ peer.files

end PeerDB

/-! ## What an added file changes -/

section AddPartfile

variable {db : FilesDB} {groupId filePath : Bytes} {fileInfo : FileInfo} {allDownloaded : Bool}

/-- The entry of the file is the older one, if there is one; all others stay. -/
theorem FilesDB.find?_addPartfile (key : FileId) :
    (db.addPartfile groupId fileInfo filePath allDownloaded).2.files.find? key =
      if key = { groupId, fileName := fileInfo.name } then
        (db.files.find? key).orElse fun _ =>
          some (LocatedPartFile.create groupId fileInfo filePath allDownloaded)
      else db.files.find? key := by
  simp only [addPartfile]
  cases known : db.files.find? { groupId, fileName := fileInfo.name } with
  | some older =>
      simp only [Option.isSome_some, if_true]
      split
      · next same =>
          subst same
          rw [known]
          rfl
      · rfl
  | none =>
      simp only [Option.isSome_none, Bool.false_eq_true, if_false, UnorderedMap.find?_insert]
      split
      · next same =>
          subst same
          rw [known, Function.update_self]
          rfl
      · next other => exact Function.update_of_ne other _ _

/-- A file that is there already is not added. -/
theorem FilesDB.addPartfile_of_some {entry : LocatedPartFile}
    (known : db.files.find? { groupId, fileName := fileInfo.name } = some entry) :
    (db.addPartfile groupId fileInfo filePath allDownloaded).2 = db := by
  simp only [addPartfile, known, Option.isSome_some, if_true]

/-- A file without pieces is entered alike, whether it is downloaded or not. -/
theorem FilesDB.addPartfile_of_nil (nothing : fileInfo.pieces = []) :
    db.addPartfile groupId fileInfo filePath true =
      db.addPartfile groupId fileInfo filePath false := by
  simp only [addPartfile, LocatedPartFile.create, PartFile.create, nothing, List.foldl_nil]
  rfl

/-- Entries are never lost. -/
theorem FilesDB.find?_addPartfile_of_some {key : FileId} {partFile : LocatedPartFile}
    (known : db.files.find? key = some partFile) :
    (db.addPartfile groupId fileInfo filePath allDownloaded).2.files.find? key =
      some partFile := by
  rw [find?_addPartfile, known]
  split <;> rfl

/-- An entry was there before, or it is the one that is added. -/
theorem FilesDB.find?_addPartfile_cases {key : FileId} {entry : LocatedPartFile}
    (found : (db.addPartfile groupId fileInfo filePath allDownloaded).2.files.find? key =
      some entry) :
    db.files.find? key = some entry ∨
      key = { groupId, fileName := fileInfo.name } ∧
        entry = LocatedPartFile.create groupId fileInfo filePath allDownloaded := by
  rw [find?_addPartfile] at found
  split at found
  · next same =>
      cases older : db.files.find? key with
      | some held =>
          rw [older] at found
          exact Or.inl found
      | none =>
          rw [older] at found
          exact Or.inr ⟨same, (Option.some.inj found).symm⟩
  · exact Or.inl found

end AddPartfile

/-- A piece is held exactly when it is among the downloaded ones. -/
theorem PartFile.hasPiece_iff {partFile : PartFile} {piece : Bytes} :
    partFile.hasPiece piece = true ↔ piece ∈ partFile.downloadedPieces :=
  decide_eq_true_iff

@[simp]
theorem PartFile.create_groupId (groupId : Bytes) (fileInfo : FileInfo) (allDownloaded : Bool) :
    (PartFile.create groupId fileInfo allDownloaded).groupId = groupId := by
  cases allDownloaded <;> rfl

@[simp]
theorem PartFile.create_fileInfo (groupId : Bytes) (fileInfo : FileInfo) (allDownloaded : Bool) :
    (PartFile.create groupId fileInfo allDownloaded).fileInfo = fileInfo := by
  cases allDownloaded <;> rfl

/-- The pieces of a part file as it was made. -/
theorem PartFile.mem_create {groupId : Bytes} {fileInfo : FileInfo} {allDownloaded : Bool}
    {piece : Bytes} :
    (piece ∈ (PartFile.create groupId fileInfo allDownloaded).downloadedPieces ↔
        allDownloaded = true ∧ piece ∈ fileInfo.pieces) ∧
      (piece ∈ (PartFile.create groupId fileInfo allDownloaded).remainingPieces ↔
        allDownloaded = false ∧ piece ∈ fileInfo.pieces) := by
  have nothing : piece ∉ ({} : UnorderedSet Bytes) := UnorderedSet.not_mem_empty piece
  cases allDownloaded <;> simp [PartFile.create, PartFile.mem_insertAll, nothing]

/-! ## Marked pieces -/

@[simp]
theorem PartFile.markDownloaded_groupId (partFile : PartFile) (piece : Bytes) :
    (partFile.markDownloaded piece).2.groupId = partFile.groupId := by
  simp only [markDownloaded]
  split <;> rfl

@[simp]
theorem PartFile.markDownloaded_fileInfo (partFile : PartFile) (piece : Bytes) :
    (partFile.markDownloaded piece).2.fileInfo = partFile.fileInfo := by
  simp only [markDownloaded]
  split <;> rfl

theorem PartFile.mem_markDownloaded {partFile : PartFile} {piece other : Bytes} :
    other ∈ (partFile.markDownloaded piece).2.downloadedPieces ↔
      other = piece ∨ other ∈ partFile.downloadedPieces := by
  simp only [PartFile.markDownloaded]
  split
  · next marked =>
      constructor
      · exact Or.inr
      · rintro (rfl | member)
        · exact marked
        · exact member
  · exact UnorderedSet.mem_insert

theorem PartFile.markDownloaded_disjoint {partFile : PartFile} (piece : Bytes)
    (disjoint : ∀ other ∈ partFile.downloadedPieces, other ∉ partFile.remainingPieces) :
    ∀ other ∈ (partFile.markDownloaded piece).2.downloadedPieces,
      other ∉ (partFile.markDownloaded piece).2.remainingPieces := by
  intro other marked
  simp only [PartFile.markDownloaded] at marked ⊢
  split
  · next already =>
      rw [if_pos already] at marked
      exact disjoint other marked
  · next fresh =>
      rw [if_neg fresh, UnorderedSet.mem_insert] at marked
      rw [UnorderedSet.mem_erase]
      rintro ⟨remains, distinct⟩
      exact disjoint other (marked.resolve_left distinct) remains

/-- The database holds a piece exactly when it holds a file that holds it. -/
theorem FilesDB.hasPiece_iff {db : FilesDB} {groupId fileName piece : Bytes} :
    db.hasPiece groupId fileName piece = true ↔
      ∃ partFile, db.files.find? { groupId, fileName } = some partFile ∧
        piece ∈ partFile.downloadedPieces := by
  simp only [hasPiece]
  cases db.files.find? { groupId, fileName } with
  | none => simp
  | some partFile => simp [PartFile.hasPiece_iff]

end P2PFileShare
