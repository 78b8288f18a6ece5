import P2PFileShare.Tracker.ProcessData

/-!
# What a client sends to a tracker, and what it reads back

`client/process_input.cpp`: the requests that are built from a line of input,
and the decoding of the answer to a download.
-/

namespace P2PFileShare

open Container Text

/-- The text in front of every request: the flag that asks for mirroring, and the
id of the client. -/
def requestPrefix (myId : EndpointID) : Bytes :=
  ascii "1" ++ Text.toString myId.toNat ++ ascii " "

/-- The request of the branch `upload_file`. -/
def uploadRequest (myId : EndpointID) (groupId : Bytes) (clientEndpoint : Endpoint)
    (fileInfo : FileInfo) : Bytes :=
  requestPrefix myId ++ ascii "upload_file" ++ ascii " " ++ groupId ++ ascii " " ++
    clientEndpoint.toString ++ ascii " " ++ fileInfo.toString

/-- The request that `process_input` sends for a line, if it sends one.
`get_file_info` reads the file system. -/
def clientRequest (myId : EndpointID) (clientEndpoint : Endpoint)
    (getFileInfo : Bytes → Option FileInfo) (input : Bytes) : Option Bytes :=
  let (command, stream) := (Stream.ofText input).extractWord
  if command = ascii "upload_file" then
    let (filePath, stream) := stream.extractWord
    let (groupId, _) := stream.extractWord
    (getFileInfo filePath).map (uploadRequest myId groupId clientEndpoint)
  else if command = ascii "download_file" then
    let (groupId, stream) := stream.extractWord
    let (fileName, stream) := stream.extractWord
    let (destinationPath, _) := stream.extractWord
    if destinationPath = [] then none
    else some (requestPrefix myId ++ command ++ ascii " " ++ groupId ++ ascii " " ++ fileName)
  else if command = ascii "show_downloads" then none
  else some (requestPrefix myId ++ input)

/-- The answer to a download, decoded.  A file is read only behind the number
one; both of the other branches print what they got. -/
def decodeDownload (platform : Platform) (response : Bytes) :
    Except StdException (Option File) :=
  let (fileFound, stream) := (Stream.ofText response).extractInt 0
  if stream.fail then .ok none
  else do
    let text ← stream.remainder
    if fileFound = 1 then
      let file ← File.fromString platform text
      return some file
    else return none

/-! ## Requests are parsed as they were meant -/

section Requests

variable (platform : Platform) (myId : EndpointID)

/-- The arguments of an upload are decoded to what the client put in. -/
theorem decodeUpload_client {endpoint : Endpoint} (plain : endpoint.IsPlain)
    {fileInfo : FileInfo} (infoPlain : fileInfo.IsPlain) (taken : Bytes) :
    decodeUpload platform
        (Stream.reading taken (32 :: (endpoint.toString ++ 32 :: fileInfo.toString))) =
      .ok (endpoint, fileInfo) := by
  have space : ∀ byte ∈ ([32] : Bytes), isSpace byte = true :=
    List.forall_mem_singleton.mpr rfl
  have nothing : ∀ byte ∈ ([] : Bytes), isSpace byte = true := by simp
  have info := FileInfo.fromString_toString platform infoPlain space nothing
  simp only [List.cons_append, List.nil_append, List.append_nil] at info
  rw [decodeUpload, Stream.extractWord_next (by rfl) (Endpoint.isWord_toString plain) (by rfl)]
  simp only [Endpoint.fromString_toString plain, Stream.remainder_reading, bind, Except.bind,
    pure, Except.pure, info]

/-- The wire format round-trips.  The request that a client builds for an upload
is mirrored and decoded to the id, the request, the group, the endpoint and the
description it was made of; and the answer to a download is decoded to the file
that the tracker holds, with the same seeders in some order. -/
theorem wire_roundTrip (client : Platform) {groupId : Bytes} (isWord : IsWord groupId)
    {endpoint : Endpoint} (plain : endpoint.IsPlain) {fileInfo : FileInfo}
    (infoPlain : fileInfo.IsPlain) {file : File} (filePlain : file.IsPlain)
    (countable : file.seeders.length < 2 ^ 64) :
    (∃ data, uploadRequest myId groupId endpoint fileInfo = 49 :: data ∧
        parseRequest platform data = some { origin := myId, request := .file .upload, data } ∧
        (requestHead platform data).2.2.extractWord.1 = groupId ∧
        decodeUpload platform (requestHead platform data).2.2.extractWord.2 =
          .ok (endpoint, fileInfo)) ∧
      ∃ seeders, seeders.Perm file.seeders ∧
        decodeDownload client (ascii "1 " ++ file.toString platform ++ ascii "\n") =
          .ok (some { file with seeders := seeders }) := by
  constructor
  · have name : IsWord (ascii "upload_file") := by decide
    rcases requestHead_text platform myId name
        (groupId ++ 32 :: (endpoint.toString ++ 32 :: fileInfo.toString)) with ⟨taken, head⟩
    refine ⟨Text.toString myId.toNat ++ 32 :: (ascii "upload_file" ++
      32 :: (groupId ++ 32 :: (endpoint.toString ++ 32 :: fileInfo.toString))), ?_, ?_, ?_, ?_⟩
    · simp [uploadRequest, requestPrefix, ascii]
    · simp only [parseRequest, head]
      rfl
    · rw [head, Stream.extractWord_next (by rfl) isWord (by rfl)]
    · rw [head, Stream.extractWord_next (by rfl) isWord (by rfl)]
      exact decodeUpload_client platform plain infoPlain _
  · have newline : ∀ byte ∈ ascii "\n", isSpace byte = true :=
      List.forall_mem_singleton.mpr rfl
    rcases File.fromString_toString platform client filePlain countable newline with
      ⟨seeders, perm, decoded⟩
    refine ⟨seeders, perm, ?_⟩
    have shape : ascii "1 " ++ file.toString platform ++ ascii "\n" =
        Text.toString 1 ++ 32 :: (file.toString platform ++ ascii "\n") := by
      rw [List.append_assoc]
      rfl
    rw [decodeDownload, Stream.ofText_eq_reading, shape,
      Stream.extractInt_toString 0 (by decide) (by rfl)]
    simp only [Bool.false_eq_true, if_false, Stream.remainder_reading, bind, Except.bind]
    rw [decoded]
    rfl

end Requests

/-! A file of two pieces with two seeders. -/

def twoPieces : FileInfo where
  name := ascii "a"
  size := 600000
  pieces := [ascii "p", ascii "q"]
  hash := ascii "pq"

def twoPiecesFile : File where
  seeders := [{ ip := ascii "1.2.3.4", port := 80 }, { ip := ascii "1.2.3.4", port := 81 }]
  fileInfo := twoPieces
  groupId := ascii "g"

theorem twoPieces_isPlain : twoPieces.IsPlain where
  name := by decide
  pieces := by decide
  hash := rfl

theorem wire_roundTrip_twoPieces :
    (∃ data, uploadRequest 7 (ascii "g") { ip := ascii "1.2.3.4", port := 80 } twoPieces =
          49 :: data ∧
        parseRequest .oldestFirst data =
          some { origin := 7, request := .file .upload, data } ∧
        (requestHead .oldestFirst data).2.2.extractWord.1 = ascii "g" ∧
        decodeUpload .oldestFirst (requestHead .oldestFirst data).2.2.extractWord.2 =
          .ok ({ ip := ascii "1.2.3.4", port := 80 }, twoPieces)) ∧
      ∃ seeders, seeders.Perm twoPiecesFile.seeders ∧
        decodeDownload .newestFirst
            (ascii "1 " ++ twoPiecesFile.toString .oldestFirst ++ ascii "\n") =
          .ok (some { twoPiecesFile with seeders := seeders }) :=
  wire_roundTrip .oldestFirst 7 .newestFirst (by decide) (by decide) twoPieces_isPlain
    ⟨by decide, twoPieces_isPlain, by decide⟩ (by decide)

end P2PFileShare
