import P2PFileShare.Client.DownloadManager

/-!
# Serving a piece

`client/process_request.cpp`.  The database decides whether a piece is there; its bytes
are read from the disk at the moment of the request.
-/

namespace P2PFileShare.ClientState

open Container Text Storage

/-- `process_request`: what is sent to the peer. -/
def processRequest (client : ClientState) (request : Bytes) : Except Exception Bytes :=
  let (command, stream) := (Stream.ofText request).extractWord
  if command = ascii "get" then
    let (groupId, stream) := stream.extractWord
    let (fileName, stream) := stream.extractWord
    let (piece, _) := stream.extractWord
    if client.myFiles.hasPiece groupId fileName piece then
      match client.myFiles.getPartfile groupId fileName with
      | .error error => .error (.std error)
      | .ok partFile =>
          let pieceIndex := getPieceIndex partFile.fileInfo piece
          match readPieceFromFile (client.disk partFile.filePath) pieceIndex blockSize with
          | .error error => .error error
          | .ok pieceData => .ok (ascii "1 " ++ pieceData)
    else .ok (ascii "0 Piece not found")
  else .ok (ascii "0 Invalid command")

/-- A peer that asks for the piece gets it. -/
def Serves (sha1 : Bytes → Bytes) (client : ClientState) (groupId : Bytes) (fileInfo : FileInfo)
    (piece : Bytes) : Prop :=
  ∃ data, client.processRequest (getRequest (PartFile.create groupId fileInfo false) piece) =
      .ok (ascii "1 " ++ data) ∧ sha1 data = piece

/-- The pieces that the database claims to have are those of a file on the disk. -/
def Stored (sha1 : Bytes → Bytes) (client : ClientState) : Prop :=
  ∀ key partFile, client.myFiles.files.find? key = some partFile →
    ∀ piece ∈ partFile.downloadedPieces, ∃ name content,
      client.disk partFile.filePath = some content ∧ content.length < 2 ^ 63 ∧
        partFile.fileInfo = getFileInfo sha1 name content ∧ piece ∈ partFile.fileInfo.pieces

section Serving

variable {sha1 : Bytes → Bytes} {client : ClientState} {groupId piece : Bytes} {fileInfo : FileInfo}

/-- The request is taken apart into what it was made of. -/
theorem processRequest_get (group : IsWord groupId) (name : IsWord fileInfo.name)
    (isWord : IsWord piece) :
    client.processRequest (getRequest (PartFile.create groupId fileInfo false) piece) =
      if client.myFiles.hasPiece groupId fileInfo.name piece then
        match client.myFiles.getPartfile groupId fileInfo.name with
        | .error error => .error (.std error)
        | .ok partFile =>
            match readPieceFromFile (client.disk partFile.filePath)
                (getPieceIndex partFile.fileInfo piece) blockSize with
            | .error error => .error error
            | .ok pieceData => .ok (ascii "1 " ++ pieceData)
      else .ok (ascii "0 Piece not found") := by
  have get : IsWord (ascii "get") := by decide
  have shape : getRequest (PartFile.create groupId fileInfo false) piece =
      ascii "get" ++ 32 :: (groupId ++ 32 :: (fileInfo.name ++ 32 :: piece)) := by
    simp [getRequest, ascii]
  rw [processRequest, shape, Stream.ofText_eq_reading, Stream.extractWord_word get (by rfl)]
  simp only [if_true]
  rw [Stream.extractWord_next (by rfl) group (by rfl)]
  simp only
  rw [Stream.extractWord_next (by rfl) name (by rfl)]
  simp only
  rw [Stream.extractWord_space (by rfl), Stream.extractWord_last isWord]

/-- A piece that the database has is read from the disk. -/
theorem Stored.answer (stored : client.Stored sha1) (group : IsWord groupId)
    (name : IsWord fileInfo.name) (isWord : IsWord piece)
    (held : client.myFiles.hasPiece groupId fileInfo.name piece = true) :
    ∃ partFile content block,
      client.myFiles.files.find? { groupId, fileName := fileInfo.name } = some partFile ∧
        client.disk partFile.filePath = some content ∧ block ∈ blocks blockSize content ∧
          sha1 block = piece ∧
            client.processRequest (getRequest (PartFile.create groupId fileInfo false) piece) =
              .ok (ascii "1 " ++ block) := by
  rcases FilesDB.hasPiece_iff.mp held with ⟨partFile, found, marked⟩
  rcases stored _ partFile found piece marked with ⟨name', content, onDisk, small, info, isPiece⟩
  rw [info] at isPiece
  rcases getPieceIndex_spec isPiece with ⟨block, atIndex, hash⟩
  have member := List.mem_of_getElem? atIndex
  obtain ⟨inside, rfl⟩ := (blocks_eq_some_iff blockSize_pos).mp atIndex
  refine ⟨partFile, content, _, found, onDisk, member, hash, ?_⟩
  rw [processRequest_get group name isWord]
  simp only [if_pos held, FilesDB.getPartfile, found, readPieceFromFile, onDisk, info]
  rw [seek_eq (by omega)]

/-- A piece that the database does not have is refused. -/
theorem processRequest_missing (group : IsWord groupId) (name : IsWord fileInfo.name)
    (isWord : IsWord piece)
    (missing : ¬client.myFiles.hasPiece groupId fileInfo.name piece = true) :
    client.processRequest (getRequest (PartFile.create groupId fileInfo false) piece) =
      .ok (ascii "0 Piece not found") := by
  rw [processRequest_get group name isWord, if_neg missing]

/-- A client serves exactly the pieces that its database has. -/
theorem Stored.serves_iff (stored : client.Stored sha1) (group : IsWord groupId)
    (name : IsWord fileInfo.name) (isWord : IsWord piece) :
    client.Serves sha1 groupId fileInfo piece ↔
      client.myFiles.hasPiece groupId fileInfo.name piece = true := by
  constructor
  · rintro ⟨data, answer, _⟩
    by_contra missing
    rw [processRequest_missing group name isWord missing, Except.ok.injEq] at answer
    exact absurd (congrArg List.head? answer) (by simp [ascii])
  · intro held
    obtain ⟨_, _, block, _, _, _, hash, answer⟩ := stored.answer group name isWord held
    exact ⟨block, answer, hash⟩

end Serving

end P2PFileShare.ClientState
