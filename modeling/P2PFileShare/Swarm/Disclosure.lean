import P2PFileShare.Client.MainLoop
import P2PFileShare.Client.PeerRequest
import P2PFileShare.Swarm.Seeding

/-!
# What a client gives out

Anybody may connect to a client and ask.  What is sent back is a block of a file whose path
was typed behind `upload_file`, or one of two fixed texts; nothing else on the disk has any
influence on it.
-/

namespace P2PFileShare

open Container Text Transition Storage

/-- The path and the group that are typed behind `upload_file`. -/
def uploadArguments (input : Bytes) : Option (Bytes × Bytes) :=
  let (command, stream) := (Stream.ofText input).extractWord
  let (filePath, stream) := stream.extractWord
  let (groupId, _) := stream.extractWord
  if command = ascii "upload_file" then some (filePath, groupId) else none

/-- The group, the name and the piece that a peer asks for. -/
def getArguments (request : Bytes) : Option (Bytes × Bytes × Bytes) :=
  let (command, stream) := (Stream.ofText request).extractWord
  let (groupId, stream) := stream.extractWord
  let (fileName, stream) := stream.extractWord
  let (piece, _) := stream.extractWord
  if command = ascii "get" then some (groupId, fileName, piece) else none

namespace ClientState

variable {sha1 : Bytes → Bytes} {platform : Platform} {myId : EndpointID}
  {clientEndpoint : Endpoint} {client next : ClientState} {input : Bytes}

/-- In front of the request, only a file that the line names is added, with what is read. -/
theorem submit_named (sha1 : Bytes → Bytes) (myId : EndpointID) (clientEndpoint : Endpoint)
    (client : ClientState) (input : Bytes) :
    (client.submit sha1 myId clientEndpoint input).1 = client ∨
      ∃ filePath groupId content, uploadArguments input = some (filePath, groupId) ∧
        client.disk filePath = some content ∧
        client.submit sha1 myId clientEndpoint input =
          ({ client with
              myFiles := (client.myFiles.addPartfile groupId
                (getFileInfo sha1 (basename filePath) content) filePath true).2 },
            some (uploadRequest myId groupId clientEndpoint
              (getFileInfo sha1 (basename filePath) content), .answer)) := by
  simp only [submit, uploadArguments]
  split
  · next upload =>
      cases there : client.disk (Stream.ofText input).extractWord.2.extractWord.1 with
      | none =>
          simp only [getFileInfoAt, there, Option.map_none, true_or]
      | some content =>
          simp only [getFileInfoAt, there, Option.map_some]
          exact Or.inr ⟨_, _, content, rfl, there, rfl⟩
  · left
    split
    · split <;> rfl
    · split <;> rfl

/-- An answer adds at most a file without pieces. -/
theorem conclude_myFiles {response : Bytes} {awaiting : Awaiting}
    (concluded : client.conclude platform response awaiting = .ok next) :
    next.myFiles = client.myFiles ∨
      ∃ groupId fileInfo filePath,
        next.myFiles = (client.myFiles.addPartfile groupId fileInfo filePath false).2 := by
  rcases conclude_cases concluded with rfl | ⟨destinationPath, file, _, _, rfl⟩
  · exact Or.inl rfl
  · rw [startDownloads_myFiles]
    rcases enqueueDownload_cases _ file.groupId file.fileInfo client.newAddress destinationPath with
      ⟨_, refused⟩ | ⟨_, queued⟩
    · rw [refused]
      exact Or.inl rfl
    · rw [queued]
      simp only
      split
      · exact Or.inl rfl
      · exact Or.inr ⟨_, _, _, rfl⟩

/-- What is sent back, going by what is asked. -/
theorem processRequest_arguments (client : ClientState) (request : Bytes) :
    client.processRequest request =
      match getArguments request with
      | none => .ok (ascii "0 Invalid command")
      | some (groupId, fileName, piece) =>
          if client.myFiles.hasPiece groupId fileName piece then
            match client.myFiles.getPartfile groupId fileName with
            | .error error => .error (.std error)
            | .ok partFile =>
                (readPieceFromFile (client.disk partFile.filePath)
                  (getPieceIndex partFile.fileInfo piece) blockSize).map fun data =>
                    ascii "1 " ++ data
          else .ok (ascii "0 Piece not found") := by
  simp only [processRequest, getArguments]
  generalize (Stream.ofText request).extractWord.2.extractWord.1 = groupId
  generalize (Stream.ofText request).extractWord.2.extractWord.2.extractWord.1 = fileName
  generalize (Stream.ofText request).extractWord.2.extractWord.2.extractWord.2.extractWord.1 = piece
  by_cases get : (Stream.ofText request).extractWord.1 = ascii "get"
  · simp only [if_pos get]
    cases client.myFiles.hasPiece groupId fileName piece with
    | false => rfl
    | true =>
        cases client.myFiles.getPartfile groupId fileName with
        | error error => rfl
        | ok partFile =>
            simp only [if_true]
            cases readPieceFromFile (client.disk partFile.filePath)
              (getPieceIndex partFile.fileInfo piece) blockSize <;> rfl
  · simp only [if_neg get]

/-- A fixed text is sent back whatever is on the disk, or the piece of an entry is held. -/
theorem processRequest_cases (client : ClientState) (request : Bytes) :
    (∀ other, { client with disk := other }.processRequest request =
        client.processRequest request ∧
      (client.processRequest request = .ok (ascii "0 Piece not found") ∨
        client.processRequest request = .ok (ascii "0 Invalid command"))) ∨
      ∃ groupId fileName piece entry, getArguments request = some (groupId, fileName, piece) ∧
        client.myFiles.files.find? { groupId, fileName } = some entry ∧
        piece ∈ entry.downloadedPieces ∧
        ∀ other, { client with disk := other }.processRequest request =
          (readPieceFromFile (other entry.filePath) (getPieceIndex entry.fileInfo piece)
            blockSize).map fun data => ascii "1 " ++ data := by
  simp only [processRequest_arguments]
  cases getArguments request with
  | none => exact Or.inl fun _ => ⟨rfl, Or.inr rfl⟩
  | some arguments =>
      rcases arguments with ⟨groupId, fileName, piece⟩
      by_cases held : client.myFiles.hasPiece groupId fileName piece = true
      · obtain ⟨entry, found, marked⟩ := FilesDB.hasPiece_iff.mp held
        refine Or.inr ⟨groupId, fileName, piece, entry, rfl, found, marked, ?_⟩
        simp only [if_pos held, FilesDB.getPartfile, found, implies_true]
      · simp only [if_neg held]
        exact Or.inl fun _ => ⟨trivial, Or.inl trivial⟩

end ClientState

namespace MainLoop

section Named

variable {sha1 : Bytes → Bytes} {platform : Platform} {myId : EndpointID}
  {clientEndpoint : Endpoint} {trackers : List Endpoint} {network : Network} {response : Bytes}
  {start loop next : MainLoop} {fate : Fate} {history : List Event} {lines : List Handled}

/-- The line uploads the content of the path to the group: it was typed, and its request
describes the content. -/
def Uploads (sha1 : Bytes → Bytes) (myId : EndpointID) (clientEndpoint : Endpoint)
    (line : Handled) (filePath groupId content : Bytes) : Prop :=
  uploadArguments line.input = some (filePath, groupId) ∧
    line.fate.request = some (uploadRequest myId groupId clientEndpoint
      (getFileInfo sha1 (basename filePath) content))

/-- Every file of which the client has a piece was uploaded by a line. -/
def Named (sha1 : Bytes → Bytes) (myId : EndpointID) (clientEndpoint : Endpoint)
    (lines : List Handled) (db : FilesDB) : Prop :=
  ∀ key entry, db.files.find? key = some entry → ∀ piece ∈ entry.downloadedPieces,
    ∃ line ∈ lines, ∃ content,
      Uploads sha1 myId clientEndpoint line entry.filePath key.groupId content ∧
        key.fileName = basename entry.filePath ∧
          entry.fileInfo = getFileInfo sha1 (basename entry.filePath) content ∧
            piece ∈ entry.fileInfo.pieces

theorem Named.mono {db : FilesDB} {more : List Handled}
    (named : Named sha1 myId clientEndpoint lines db) (kept : ∀ line ∈ lines, line ∈ more) :
    Named sha1 myId clientEndpoint more db := by
  intro key entry found piece held
  obtain ⟨line, member, rest⟩ := named key entry found piece held
  exact ⟨line, kept line member, rest⟩

/-- A file without pieces need not be named. -/
theorem Named.addPartfile_false {db : FilesDB} (named : Named sha1 myId clientEndpoint lines db)
    (groupId : Bytes) (fileInfo : FileInfo) (filePath : Bytes) :
    Named sha1 myId clientEndpoint lines
      (db.addPartfile groupId fileInfo filePath false).2 := by
  intro key entry found piece held
  rcases FilesDB.find?_addPartfile_cases found with older | ⟨_, rfl⟩
  · exact named key entry older piece held
  · cases (PartFile.mem_create.1.mp held).1

theorem Named.addPartfile_true {db : FilesDB} (named : Named sha1 myId clientEndpoint lines db)
    {line : Handled} (member : line ∈ lines) {filePath groupId content : Bytes}
    (uploads : Uploads sha1 myId clientEndpoint line filePath groupId content) :
    Named sha1 myId clientEndpoint lines (db.addPartfile groupId
      (getFileInfo sha1 (basename filePath) content) filePath true).2 := by
  intro key entry found piece held
  rcases FilesDB.find?_addPartfile_cases found with older | ⟨rfl, rfl⟩
  · exact named key entry older piece held
  · refine ⟨line, member, content, uploads, rfl, PartFile.create_fileInfo _ _ _, ?_⟩
    rw [LocatedPartFile.create, PartFile.create_fileInfo]
    exact (PartFile.mem_create.1.mp held).2

/-- What a turn makes of the client: what is done in front of the request, and then perhaps
what the answer says. -/
theorem turn_client
    (turned : loop.turn sha1 platform myId clientEndpoint trackers network response =
      (.ok next, fate)) :
    let submitted := (loop.client.submit sha1 myId clientEndpoint (readLine loop.stdin).1).1
    next.client = submitted ∨
      ∃ awaiting, submitted.conclude platform response awaiting = .ok next.client := by
  simp only [turn] at turned
  split at turned
  · cases turned
  · split at turned
    · next client submitted =>
        rw [submitted]
        cases turned
        exact Or.inl rfl
    · next client request awaiting submitted =>
        rw [submitted]
        split at turned
        · obtain ⟨_, _, rfl⟩ := reconnect_eq_ok (Prod.mk.inj turned).1
          exact Or.inl rfl
        · cases turned
        · split at turned
          · obtain ⟨_, _, rfl⟩ := reconnect_eq_ok (Prod.mk.inj turned).1
            exact Or.inl rfl
          · cases turned
          · split at turned
            · cases turned
            · next concluded =>
                cases turned
                exact Or.inr ⟨awaiting, concluded⟩

theorem Named.line (named : Named sha1 myId clientEndpoint lines loop.client.myFiles)
    (turned : loop.turn sha1 platform myId clientEndpoint trackers network response =
      (.ok next, fate)) :
    Named sha1 myId clientEndpoint (lines ++ [⟨loop.tracker, (readLine loop.stdin).1, fate⟩])
      next.client.myFiles := by
  let line : Handled := ⟨loop.tracker, (readLine loop.stdin).1, fate⟩
  have known : Named sha1 myId clientEndpoint (lines ++ [line]) loop.client.myFiles :=
    named.mono fun _ => List.mem_append_left [line]
  have submitted : Named sha1 myId clientEndpoint (lines ++ [line])
      (loop.client.submit sha1 myId clientEndpoint (readLine loop.stdin).1).1.myFiles := by
    rcases ClientState.submit_named sha1 myId clientEndpoint loop.client (readLine loop.stdin).1
      with same | ⟨filePath, groupId, content, typed, _, submitted⟩
    · rw [same]
      exact known
    · have request := @ClientState.submit_request sha1 myId clientEndpoint loop.client
        (readLine loop.stdin).1
      rw [submitted] at request ⊢
      exact known.addPartfile_true (List.mem_append_right lines List.mem_cons_self)
        ⟨typed, (turn_takes turned).request.trans request.symm⟩
  rcases turn_client turned with same | ⟨awaiting, concluded⟩
  · rw [same]
    exact submitted
  · rcases ClientState.conclude_myFiles concluded with same | ⟨groupId, fileInfo, filePath, added⟩
    · rw [same]
      exact submitted
    · rw [added]
      exact submitted.addPartfile_false groupId fileInfo filePath

/-- The other threads leave the database as it is. -/
theorem myFiles_elsewhere {iteration : IterationOrder} {event : ClientState.Event}
    {client after : ClientState} (elsewhere : Elsewhere event)
    (step : ClientState.Step sha1 iteration client event after) :
    after.myFiles = client.myFiles := by
  cases step with
  | work work => exact ClientState.work_myFiles work
  | changeDisk => rfl
  | addPartfile _ => exact elsewhere.elim
  | addSeeders _ => exact elsewhere.elim
  | enqueueDownload _ => exact elsewhere.elim
  | startDownloads _ => exact elsewhere.elim
  | pauseDownloads _ => exact elsewhere.elim

theorem named_run (fresh : start.client.myFiles = {})
    (run : Run start (Step sha1 platform myId clientEndpoint trackers) history loop) :
    Named sha1 myId clientEndpoint (handled history) loop.client.myFiles := by
  induction run with
  | start =>
      rw [fresh]
      nofun
  | step _ last ih =>
      cases last with
      | meanwhile elsewhere step =>
          rw [handled_meanwhile, myFiles_elsewhere elsewhere step]
          exact ih
      | line turned =>
          rw [handled_line]
          exact ih.line turned

end Named

/-- The path was typed behind `upload_file` in one of the lines. -/
def Typed (lines : List Handled) (filePath : Bytes) : Prop :=
  ∃ line ∈ lines, ∃ groupId, uploadArguments line.input = some (filePath, groupId)

/-- Nobody gets out of a client what was not uploaded from it.  In every run, what is sent back
for any bytes is a fixed text, or what now stands at the place of a block in a file whose path
was typed behind `upload_file`, the block having been described to a tracker and being asked
for by its hash; and whatever else is on the disk, the answer would be the same. -/
theorem discloses_typed {sha1 : Bytes → Bytes} {platform : Platform} {myId : EndpointID}
    {clientEndpoint : Endpoint} {trackers : List Endpoint} {network : Network}
    {disk : Bytes → Option Bytes} {stdin : Bytes} {start loop : MainLoop} {history : List Event}
    (started : main trackers network disk stdin = .ok start)
    (run : Run start (Step sha1 platform myId clientEndpoint trackers) history loop)
    (request : Bytes) :
    (∀ reply, loop.client.processRequest request = .ok reply →
      reply = ascii "0 Piece not found" ∨ reply = ascii "0 Invalid command" ∨
        ∃ line ∈ handled history, ∃ filePath groupId content index block data,
          Uploads sha1 myId clientEndpoint line filePath groupId content ∧
          (blocks blockSize content)[index]? = some block ∧
          getArguments request = some (groupId, basename filePath, sha1 block) ∧
          readPieceFromFile (loop.client.disk filePath) index blockSize = .ok data ∧
          reply = ascii "1 " ++ data) ∧
      ∀ other : Bytes → Option Bytes,
        (∀ filePath, Typed (handled history) filePath →
          other filePath = loop.client.disk filePath) →
        { loop.client with disk := other }.processRequest request =
          loop.client.processRequest request := by
  have named : Named sha1 myId clientEndpoint (handled history) loop.client.myFiles := by
    refine named_run ?_ run
    simp only [main] at started
    cases opened : openConnection trackers network 0 with
    | error ending =>
        rw [opened] at started
        cases started
    | ok tracker =>
        rw [opened] at started
        rw [← Except.ok.inj started]
  rcases loop.client.processRequest_cases request with
    fixed | ⟨groupId, fileName, piece, entry, asked, found, held, answer⟩
  · constructor
    · intro reply answered
      rcases (fixed loop.client.disk).2 with missing | unknown
      · exact Or.inl (Except.ok.inj (answered.symm.trans missing))
      · exact Or.inr (Or.inl (Except.ok.inj (answered.symm.trans unknown)))
    · exact fun other _ => (fixed other).1
  · obtain ⟨line, member, content, uploads, name, info, isPiece⟩ := named _ entry found piece held
    simp only at name
    constructor
    · intro reply answered
      rw [info] at isPiece
      obtain ⟨block, atIndex, hash⟩ := getPieceIndex_spec isPiece
      have now := (answer loop.client.disk).symm.trans answered
      rw [info] at now
      cases read : readPieceFromFile (loop.client.disk entry.filePath)
          (getPieceIndex (getFileInfo sha1 (basename entry.filePath) content) piece) blockSize with
      | error error =>
          rw [read] at now
          cases now
      | ok data =>
          rw [read] at now
          refine Or.inr (Or.inr ⟨line, member, entry.filePath, groupId, content, _, block, data,
            uploads, atIndex, ?_, read, (Except.ok.inj now).symm⟩)
          rw [asked, name, hash]
    · intro other same
      rw [answer other, same entry.filePath ⟨line, member, groupId, uploads.1⟩]
      exact (answer loop.client.disk).symm

/-- A disk with a file of one letter, and another one. -/
def twoLetters (path : Bytes) : Option Bytes :=
  if path = ascii "f" then some (ascii "a")
  else if path = ascii "s" then some (ascii "b") else none

/-- The client that has uploaded the first of them. -/
def uploadedLetter : MainLoop where
  client :=
    { disk := twoLetters
      myFiles := (FilesDB.addPartfile {} (ascii "g")
        (getFileInfo sha1Letter (basename (ascii "f")) (ascii "a")) (ascii "f") true).2 }
  stdin := []
  tracker := { ip := ascii "a", port := 1 }

theorem discloses_typed_letter : ∃ history,
    Run { client := { disk := twoLetters }, stdin := ascii "upload_file f g"
          tracker := { ip := ascii "a", port := 1 } }
      (Step sha1Letter .oldestFirst 7 { ip := ascii "c", port := 3 } twoTrackers) history
      uploadedLetter ∧
    uploadedLetter.client.processRequest (ascii "get g f " ++ sha1Letter (ascii "a")) =
      .ok (ascii "1 a") ∧
    Typed (handled history) (ascii "f") := by
  let fresh : MainLoop :=
    { client := { disk := twoLetters }, stdin := ascii "upload_file f g"
      tracker := { ip := ascii "a", port := 1 } }
  have started : main twoTrackers .reliable twoLetters (ascii "upload_file f g") = .ok fresh := rfl
  have uploads : fresh.turn sha1Letter .oldestFirst 7 { ip := ascii "c", port := 3 } twoTrackers
      .reliable [] = (.ok uploadedLetter, .answered (uploadRequest 7 (ascii "g")
        { ip := ascii "c", port := 3 }
        (getFileInfo sha1Letter (basename (ascii "f")) (ascii "a"))) []) := rfl
  have run := Run.start.step (Step.line uploads)
  have answered : uploadedLetter.client.processRequest
      (ascii "get g f " ++ sha1Letter (ascii "a")) = .ok (ascii "1 a") := by
    decide +kernel
  refine ⟨_, run, answered, ?_⟩
  rcases (discloses_typed started run _).1 _ answered with
    fixed | fixed | ⟨line, member, filePath, groupId, content, index, block, data, uploaded, _,
      asked, _⟩
  · exact absurd fixed (by decide)
  · exact absurd fixed (by decide)
  · have typed : uploadArguments (ascii "upload_file f g") = some (ascii "f", ascii "g") := by
      decide
    obtain rfl := List.mem_singleton.mp member
    exact ⟨_, member, ascii "g", typed⟩

end MainLoop

end P2PFileShare
