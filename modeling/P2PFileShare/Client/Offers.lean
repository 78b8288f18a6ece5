import P2PFileShare.Client.Commands
import P2PFileShare.Client.PeerRequest
import P2PFileShare.Client.Status

/-!
# What a client offers

A client offers the files that it has uploaded, and none that it downloads.  As long as
these files stay as they are, a peer that asks for a piece of one gets a block that it
accepts, and a peer that asks for anything else is refused.
-/

namespace P2PFileShare

open Container Text Storage Transition

/-- The databases that `upload_file` and `enqueue_download` build, where the uploaded files
are those on the disk.  A regular file has less than 2^63 bytes. -/
inductive FilesDB.Built (sha1 : Bytes → Bytes) (disk : Bytes → Option Bytes) : FilesDB → Prop
  | empty : Built sha1 disk {}
  | upload {db : FilesDB} {filePath content : Bytes} (groupId : Bytes) :
      Built sha1 disk db → disk filePath = some content → content.length < 2 ^ 63 →
        Built sha1 disk
          (db.addPartfile groupId (getFileInfo sha1 (basename filePath) content) filePath true).2
  | enqueue {db : FilesDB} (groupId : Bytes) (fileInfo : FileInfo) (filePath : Bytes) :
      Built sha1 disk db → Built sha1 disk (db.addPartfile groupId fileInfo filePath false).2

/-- The entry of a file is the one that its upload has made, and this is its content. -/
def FilesDB.Uploaded (sha1 : Bytes → Bytes) (disk : Bytes → Option Bytes) (db : FilesDB)
    (groupId fileName content : Bytes) : Prop :=
  ∃ filePath, disk filePath = some content ∧ basename filePath = fileName ∧
    db.files.find? { groupId, fileName } =
      some (LocatedPartFile.create groupId (getFileInfo sha1 fileName content) filePath true)

/-- The text of a request for a piece. -/
def getText (groupId fileName piece : Bytes) : Bytes :=
  ascii "get " ++ groupId ++ ascii " " ++ fileName ++ ascii " " ++ piece

/-- What `download_piece` does with a reply that it takes the data from: the status is 1,
`substr` is the data, and the data is valid. -/
def AcceptsReply (sha1 : Bytes → Bytes) (piece reply data : Bytes) : Prop :=
  (∀ unassigned, ((Stream.ofText reply).extractInt unassigned).1 = 1) ∧
    substr reply (some 2) = .ok data ∧ isPieceValid sha1 piece data = true

/-- The status of a reply is not 1, whatever it was before. -/
def Refuses (reply : Bytes) : Prop :=
  ∀ unassigned, ((Stream.ofText reply).extractInt unassigned).1 ≠ 1

section Offers

variable {sha1 : Bytes → Bytes} {disk : Bytes → Option Bytes} {db : FilesDB}
  {groupId fileName piece : Bytes}

/-- An upload stays what it is when files are added. -/
theorem FilesDB.Uploaded.kept {content added filePath : Bytes} {fileInfo : FileInfo}
    {allDownloaded : Bool} (uploaded : db.Uploaded sha1 disk groupId fileName content) :
    (db.addPartfile added fileInfo filePath allDownloaded).2.Uploaded sha1 disk groupId fileName
      content := by
  rcases uploaded with ⟨path, onDisk, named, made⟩
  exact ⟨path, onDisk, named, FilesDB.find?_addPartfile_of_some made⟩

/-- Every entry is that of an upload, or that of a download. -/
theorem FilesDB.Built.entry (built : db.Built sha1 disk) {entry : LocatedPartFile}
    (found : db.files.find? { groupId, fileName } = some entry) :
    (∃ content, db.Uploaded sha1 disk groupId fileName content ∧ content.length < 2 ^ 63) ∨
      ∃ fileInfo filePath, entry = LocatedPartFile.create groupId fileInfo filePath false := by
  induction built with
  | empty => cases found
  | @upload db filePath content added _ onDisk small ih =>
      rcases FilesDB.find?_addPartfile_cases found with older | ⟨same, rfl⟩
      · rcases ih older with ⟨content, uploaded, small⟩ | downloading
        · exact Or.inl ⟨content, uploaded.kept, small⟩
        · exact Or.inr downloading
      · obtain ⟨rfl, rfl⟩ := FileId.mk.inj same
        exact Or.inl ⟨content, ⟨filePath, onDisk, rfl, found⟩, small⟩
  | @enqueue db added fileInfo filePath _ ih =>
      rcases FilesDB.find?_addPartfile_cases found with older | ⟨same, rfl⟩
      · rcases ih older with ⟨content, uploaded, small⟩ | downloading
        · exact Or.inl ⟨content, uploaded.kept, small⟩
        · exact Or.inr downloading
      · obtain ⟨rfl, _⟩ := FileId.mk.inj same
        exact Or.inr ⟨fileInfo, filePath, rfl⟩

/-- A marked piece belongs to a file that was uploaded. -/
theorem FilesDB.Built.marked (built : db.Built sha1 disk) {entry : LocatedPartFile}
    (found : db.files.find? { groupId, fileName } = some entry)
    (marked : piece ∈ entry.downloadedPieces) :
    ∃ content, db.Uploaded sha1 disk groupId fileName content ∧ content.length < 2 ^ 63 ∧
      piece ∈ (getFileInfo sha1 fileName content).pieces := by
  rcases built.entry found with ⟨content, uploaded, small⟩ | ⟨fileInfo, filePath, rfl⟩
  · obtain ⟨path, _, _, made⟩ := id uploaded
    obtain rfl := Option.some.inj (found.symm.trans made)
    exact ⟨content, uploaded, small, (PartFile.mem_create.1.mp marked).2⟩
  · cases (PartFile.mem_create.1.mp marked).1

/-- The database has exactly the pieces of the files that were uploaded. -/
theorem FilesDB.Built.hasPiece_iff (built : db.Built sha1 disk) :
    db.hasPiece groupId fileName piece = true ↔
      ∃ content, db.Uploaded sha1 disk groupId fileName content ∧
        piece ∈ (getFileInfo sha1 fileName content).pieces := by
  rw [FilesDB.hasPiece_iff]
  constructor
  · rintro ⟨entry, found, marked⟩
    obtain ⟨content, uploaded, _, isPiece⟩ := built.marked found marked
    exact ⟨content, uploaded, isPiece⟩
  · rintro ⟨content, ⟨path, _, _, made⟩, isPiece⟩
    exact ⟨_, made, PartFile.mem_create.1.mpr ⟨rfl, isPiece⟩⟩

/-- A piece that the database has is found among the pieces of its file. -/
theorem FilesDB.Built.getPieceIndex_ne (built : db.Built sha1 disk) {entry : LocatedPartFile}
    (found : db.files.find? { groupId, fileName } = some entry)
    (marked : piece ∈ entry.downloadedPieces) :
    getPieceIndex entry.fileInfo piece ≠ 2 ^ 64 - 1 := by
  obtain ⟨content, ⟨path, _, _, made⟩, small, isPiece⟩ := built.marked found marked
  obtain rfl := Option.some.inj (found.symm.trans made)
  have info : (LocatedPartFile.create groupId (getFileInfo sha1 fileName content) path
      true).fileInfo = getFileInfo sha1 fileName content :=
    PartFile.create_fileInfo _ _ _
  obtain ⟨block, atIndex, _⟩ := getPieceIndex_spec isPiece
  have inside := ((blocks_eq_some_iff blockSize_pos).mp atIndex).1
  have bound := Nat.le_mul_of_pos_right
    (getPieceIndex (getFileInfo sha1 fileName content) piece) blockSize_pos
  rw [info]
  omega

/-- Only the files count of which the database has pieces. -/
theorem FilesDB.Built.changeDisk {changed : Bytes → Option Bytes} (built : db.Built sha1 disk)
    (kept : ∀ key entry, db.files.find? key = some entry →
      ∀ piece ∈ entry.downloadedPieces, changed entry.filePath = disk entry.filePath) :
    db.Built sha1 changed := by
  induction built with
  | empty => exact .empty
  | @upload db filePath content groupId _ onDisk small ih =>
      have older : db.Built sha1 changed :=
        ih fun key entry found => kept key entry (FilesDB.find?_addPartfile_of_some found)
      generalize described : getFileInfo sha1 (basename filePath) content = fileInfo at kept ⊢
      cases known : db.files.find? { groupId, fileName := fileInfo.name } with
      | some entry =>
          rw [FilesDB.addPartfile_of_some known]
          exact older
      | none =>
          have added : (db.addPartfile groupId fileInfo filePath true).2.files.find?
              { groupId, fileName := fileInfo.name } =
                some (LocatedPartFile.create groupId fileInfo filePath true) := by
            rw [FilesDB.find?_addPartfile, known]
            exact if_pos rfl
          cases pieces : fileInfo.pieces with
          | nil =>
              rw [FilesDB.addPartfile_of_nil pieces]
              exact older.enqueue groupId fileInfo filePath
          | cons piece rest =>
              have marked : piece ∈
                  (LocatedPartFile.create groupId fileInfo filePath true).downloadedPieces :=
                PartFile.mem_create.1.mpr ⟨rfl, pieces ▸ List.mem_cons_self⟩
              have onChanged := (kept _ _ added piece marked).trans onDisk
              rw [← described]
              exact older.upload groupId onChanged small
  | enqueue groupId fileInfo filePath _ ih =>
      apply FilesDB.Built.enqueue
      exact ih fun key entry found => kept key entry (FilesDB.find?_addPartfile_of_some found)

namespace ClientState

variable {client : ClientState}

theorem stored_of_built (built : client.myFiles.Built sha1 client.disk) :
    client.Stored sha1 := by
  rintro ⟨groupId, fileName⟩ partFile found piece marked
  obtain ⟨content, ⟨path, onDisk, _, made⟩, small, isPiece⟩ := built.marked found marked
  obtain rfl := Option.some.inj (found.symm.trans made)
  refine ⟨fileName, content, onDisk, small, ?_, ?_⟩
  · exact PartFile.create_fileInfo _ _ _
  · simpa [LocatedPartFile.create] using isPiece

/-! ## Every database that a client comes to is one of those -/

/-- A step that leaves the files alone of which the database has pieces.  Every file on the
disk is regular. -/
structure KeepingStep (sha1 : Bytes → Bytes) (platform : Platform) (myId : EndpointID)
    (clientEndpoint : Endpoint) (source : ClientState) (use : Use) (target : ClientState) :
    Prop where
  step : Use.Step sha1 platform myId clientEndpoint source use target
  regular : ∀ path content, source.disk path = some content → content.length < 2 ^ 63
  kept : ∀ key entry, source.myFiles.files.find? key = some entry →
    ∀ piece ∈ entry.downloadedPieces, target.disk entry.filePath = source.disk entry.filePath

section Runs

variable {platform : Platform} {myId : EndpointID} {clientEndpoint : Endpoint}
  {source target : ClientState} {use : Use}

theorem submit_built {input : Bytes} (built : client.myFiles.Built sha1 client.disk)
    (regular : ∀ path content, client.disk path = some content → content.length < 2 ^ 63) :
    (client.submit sha1 myId clientEndpoint input).1.myFiles.Built sha1
      (client.submit sha1 myId clientEndpoint input).1.disk := by
  rcases (submit_cases : (client.submit sha1 myId clientEndpoint input).1 = client ∨ _) with
    same | ⟨groupId, filePath, fileInfo, described, submitted⟩
  · rw [same]
    exact built
  · obtain ⟨content, onDisk, rfl⟩ := Option.map_eq_some_iff.mp described
    rw [submitted]
    exact built.upload groupId onDisk (regular filePath content onDisk)

theorem enqueueDownload_built (client : ClientState)
    (built : client.myFiles.Built sha1 client.disk) (groupId : Bytes) (fileInfo : FileInfo)
    (address : Nat) (outputFilePath : Bytes) :
    (client.enqueueDownload groupId fileInfo address outputFilePath).2.myFiles.Built sha1
      (client.enqueueDownload groupId fileInfo address outputFilePath).2.disk := by
  rcases enqueueDownload_cases client groupId fileInfo address outputFilePath with
    ⟨_, refused⟩ | ⟨_, queued⟩
  · rw [refused]
    exact built
  · rw [queued]
    simp only
    split
    · exact built
    · exact built.enqueue groupId fileInfo outputFilePath

/-- One step keeps the database one of those. -/
theorem KeepingStep.built
    (step : KeepingStep sha1 platform myId clientEndpoint source use target)
    (built : source.myFiles.Built sha1 source.disk) :
    target.myFiles.Built sha1 target.disk := by
  obtain ⟨taken, regular, kept⟩ := step
  cases taken with
  | submit => exact submit_built built regular
  | conclude concluded =>
      rcases conclude_cases concluded with rfl | ⟨destinationPath, file, _, _, rfl⟩
      · exact built
      · rw [startDownloads_eq]
        let noted : ClientState := { source with
          peerDb :=
            addSeeders source.peerDb file.groupId file.fileInfo.hash (seedersOf platform file) }
        exact enqueueDownload_built noted built file.groupId file.fileInfo source.newAddress
          destinationPath
  | work work =>
      have same : target.myFiles = source.myFiles := by
        rcases work_marks work with ⟨_, rfl⟩ | ⟨_, _, _, _, _, _, _, _, rfl⟩ <;> rfl
      rw [same]
      exact built.changeDisk kept
  | changeDisk => exact built.changeDisk kept

/-- A client that starts without files has such a database in every state that it comes
to. -/
theorem built_run {disk : Bytes → Option Bytes} {history : List Use}
    (run : Run { disk } (KeepingStep sha1 platform myId clientEndpoint) history client) :
    client.myFiles.Built sha1 client.disk := by
  apply run.invariant (p := fun _ client => client.myFiles.Built sha1 client.disk)
  · exact .empty
  · intro past source use target _ built step
    exact step.built built

end Runs

/-- A client answers for the pieces of the files that it has uploaded with a block that the
asking side accepts, and refuses everything else.  It never reads at the index that stands
for a piece that was not found. -/
theorem processRequest_offers (sha1 : Bytes → Bytes) (client : ClientState)
    (groupId fileName piece : Bytes) (built : client.myFiles.Built sha1 client.disk)
    (group : IsWord groupId) (name : IsWord fileName) (isWord : IsWord piece) :
    (∀ content, client.myFiles.Uploaded sha1 client.disk groupId fileName content →
        piece ∈ (getFileInfo sha1 fileName content).pieces →
          ∃ block ∈ blocks blockSize content,
            client.processRequest (getText groupId fileName piece) = .ok (ascii "1 " ++ block) ∧
              AcceptsReply sha1 piece (ascii "1 " ++ block) block) ∧
      ((¬∃ content, client.myFiles.Uploaded sha1 client.disk groupId fileName content ∧
          piece ∈ (getFileInfo sha1 fileName content).pieces) →
        ∃ reply, client.processRequest (getText groupId fileName piece) = .ok reply ∧
          Refuses reply) ∧
      ∀ groupId fileName piece partFile,
        client.myFiles.hasPiece groupId fileName piece = true →
          client.myFiles.getPartfile groupId fileName = .ok partFile →
            getPieceIndex partFile.fileInfo piece ≠ 2 ^ 64 - 1 := by
  have text (info : FileInfo) (named : info.name = fileName) :
      getText groupId fileName piece = getRequest (PartFile.create groupId info false) piece := by
    subst named
    rfl
  refine ⟨?_, ?_, ?_⟩
  · intro content uploaded isPiece
    have held := built.hasPiece_iff.mpr ⟨content, uploaded, isPiece⟩
    have info : (getFileInfo sha1 fileName content).name = fileName := rfl
    rw [text _ info]
    rw [← info] at name held
    obtain ⟨partFile, other, block, found, read, member, hash, answer⟩ :=
      (stored_of_built built).answer group name isWord held
    obtain ⟨path, onDisk, _, made⟩ := uploaded
    obtain rfl := Option.some.inj (found.symm.trans made)
    obtain rfl := Option.some.inj (read.symm.trans onDisk)
    refine ⟨block, member, ?_, status_of_served block, substr_of_served block, ?_⟩
    · exact answer
    · exact beq_iff_eq.mpr hash.symm
  · intro notOffered
    refine ⟨ascii "0 Piece not found", ?_, ?_⟩
    · rw [text (getFileInfo sha1 fileName []) rfl]
      exact processRequest_missing group name isWord (mt built.hasPiece_iff.mp notOffered)
    · intro unassigned
      have shape : ascii "0 Piece not found" =
          Text.toString 0 ++ 32 :: ascii "Piece not found" := by
        decide
      rw [shape, Stream.ofText_eq_reading, Stream.extractInt_toString _ (by decide) (by rfl)]
      decide
  · intro groupId fileName piece partFile held entry
    obtain ⟨found, at_key, marked⟩ := FilesDB.hasPiece_iff.mp held
    simp only [FilesDB.getPartfile, at_key, Except.ok.injEq] at entry
    subst entry
    exact built.getPieceIndex_ne at_key marked

/-- A client that has uploaded a file of two blocks. -/
def twoBlocksOffered : ClientState where
  myFiles := (FilesDB.addPartfile {} (ascii "g")
    (getFileInfo sha1Blocks (basename (ascii "d/f")) blockAndByte) (ascii "d/f") true).2
  disk path := if path = ascii "d/f" then some blockAndByte else none

theorem processRequest_offers_blocks :
    (∀ piece ∈ blockAndByteInfo.pieces, ∃ block ∈ blocks blockSize blockAndByte,
      twoBlocksOffered.processRequest (getText (ascii "g") (ascii "f") piece) =
        .ok (ascii "1 " ++ block) ∧
        AcceptsReply sha1Blocks piece (ascii "1 " ++ block) block) ∧
      ∃ reply, twoBlocksOffered.processRequest (getText (ascii "g") (ascii "f") (ascii "x")) =
        .ok reply ∧ Refuses reply := by
  have built : twoBlocksOffered.myFiles.Built sha1Blocks twoBlocksOffered.disk :=
    FilesDB.Built.empty.upload (ascii "g") (rfl : twoBlocksOffered.disk (ascii "d/f") = _)
      length_blockAndByte_lt
  constructor
  · intro piece isPiece
    have uploaded : twoBlocksOffered.myFiles.Uploaded sha1Blocks twoBlocksOffered.disk (ascii "g")
        (ascii "f") blockAndByte :=
      ⟨ascii "d/f", rfl, by decide, rfl⟩
    have isWord : ∀ piece ∈ blockAndByteInfo.pieces, IsWord piece := by decide
    refine (processRequest_offers sha1Blocks twoBlocksOffered (ascii "g") (ascii "f") piece built
      (by decide) (by decide) (isWord piece isPiece)).1 blockAndByte uploaded ?_
    rw [getFileInfo_blockAndByte]
    exact isPiece
  · apply (processRequest_offers sha1Blocks twoBlocksOffered (ascii "g") (ascii "f") (ascii "x")
      built (by decide) (by decide) (by decide)).2.1
    rintro ⟨content, ⟨path, onDisk, _⟩, isPiece⟩
    simp only [twoBlocksOffered] at onDisk
    split at onDisk
    · obtain rfl := Option.some.inj onDisk
      rw [getFileInfo_blockAndByte] at isPiece
      exact absurd isPiece (by decide)
    · cases onDisk

end ClientState

end Offers

end P2PFileShare
