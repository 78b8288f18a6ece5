import Mathlib.Data.List.MinMax
import P2PFileShare.Client.DownloadManager
import P2PFileShare.Client.ProcessInput

/-!
# The commands of a user

`client/process_input.cpp` as a whole.  A command does some work, sends its request and
waits; what it does with the answer depends on the command.  `client/client.cpp` repeats
it, and goes on when the tracker has closed the connection.
-/

namespace P2PFileShare

open Container Text Transition

/-- `basename`, as `<cstring>` declares it: what stands behind the last slash. -/
def basename (path : Bytes) : Bytes :=
  (path.reverse.takeWhile fun byte => byte ≠ 47).reverse

/-- `get_file_info` of a path. -/
def getFileInfoAt (sha1 : Bytes → Bytes) (disk : Bytes → Option Bytes) (filePath : Bytes) :
    Option FileInfo :=
  (disk filePath).map (getFileInfo sha1 (basename filePath))

/-- What a command has the answer for: to print it, or to download the file. -/
inductive Awaiting
  | answer
  | file (destinationPath : Bytes)
  deriving DecidableEq

namespace ClientState

section Commands

variable (sha1 : Bytes → Bytes) (platform : Platform) (myId : EndpointID)
  (clientEndpoint : Endpoint) (client : ClientState)

/-- `process_input` up to `tracker.send_data`, with the request if there is one. -/
def submit (input : Bytes) : ClientState × Option (Bytes × Awaiting) :=
  let (command, stream) := (Stream.ofText input).extractWord
  if command = ascii "upload_file" then
    let (filePath, stream) := stream.extractWord
    let (groupId, _) := stream.extractWord
    match getFileInfoAt sha1 client.disk filePath with
    | none => (client, none)
    | some fileInfo =>
        ({ client with myFiles := (client.myFiles.addPartfile groupId fileInfo filePath true).2 },
          some (uploadRequest myId groupId clientEndpoint fileInfo, .answer))
  else if command = ascii "download_file" then
    let (groupId, stream) := stream.extractWord
    let (fileName, stream) := stream.extractWord
    let (destinationPath, _) := stream.extractWord
    if destinationPath = [] then (client, none)
    else
      (client, some (requestPrefix myId ++ command ++ ascii " " ++ groupId ++ ascii " " ++ fileName,
        .file destinationPath))
  else if command = ascii "show_downloads" then (client, none)
  else (client, some (requestPrefix myId ++ input, .answer))

/-- An address at which no queued object lies. -/
def newAddress : Nat :=
  (client.downloads.map fun entry => entry.address).foldr max 0 + 1

/-- The seeders of a file with their ids, in the order in which the set is iterated. -/
def seedersOf (file : File) : List (EndpointID × Endpoint) :=
  (platform.objects (file.groupId, file.fileInfo.hash) file.seeders).map fun seeder =>
    (seeder.2.generateId platform, seeder.2)

/-- `process_input` from `tracker.receive_data` on. -/
def conclude (response : Bytes) : Awaiting → Except StdException ClientState
  | .answer => .ok client
  | .file destinationPath => do
      match ← decodeDownload platform response with
      | none => return client
      | some file =>
          let client := { client with
            peerDb :=
              addSeeders client.peerDb file.groupId file.fileInfo.hash (seedersOf platform file) }
          let client := (client.enqueueDownload file.groupId file.fileInfo client.newAddress
            destinationPath).2
          return client.startDownloads.2

/-- One turn of the loop over the input.  `reply` is what the connection to the tracker
yields, should the command use it. -/
def command (input : Bytes) (reply : Except NetworkError Bytes) : Except Exception ClientState :=
  match client.submit sha1 myId clientEndpoint input with
  | (client, none) => .ok client
  | (client, some (_, awaiting)) =>
      match reply with
      | .error .connectionClosedError => .ok client
      | .error error => .error (.network error)
      | .ok response =>
          match client.conclude platform response awaiting with
          | .error error => .error (.std error)
          | .ok client => .ok client

end Commands

/-! ## Commands are made of the steps of the client -/

section Steps

variable {sha1 : Bytes → Bytes} {platform : Platform} {myId : EndpointID}
  {clientEndpoint : Endpoint} {client next initial : ClientState} {input response : Bytes}
  {awaiting : Awaiting}

/-- The request is the one that `clientRequest` builds. -/
theorem submit_request :
    (client.submit sha1 myId clientEndpoint input).2.map Prod.fst =
      clientRequest myId clientEndpoint (getFileInfoAt sha1 client.disk) input := by
  simp only [submit, clientRequest]
  split
  · cases getFileInfoAt sha1 client.disk
      ((Stream.ofText input).extractWord.2.extractWord.1) <;> rfl
  · split
    · split <;> rfl
    · split <;> rfl

/-- In front of the request, a command does nothing but to offer the file that it
uploads. -/
theorem submit_cases :
    (client.submit sha1 myId clientEndpoint input).1 = client ∨
      ∃ groupId filePath fileInfo, getFileInfoAt sha1 client.disk filePath = some fileInfo ∧
        client.submit sha1 myId clientEndpoint input =
          ({ client with myFiles := (client.myFiles.addPartfile groupId fileInfo filePath true).2 },
            some (uploadRequest myId groupId clientEndpoint fileInfo, .answer)) := by
  simp only [submit]
  split
  · cases info : getFileInfoAt sha1 client.disk
      ((Stream.ofText input).extractWord.2.extractWord.1) with
    | none => exact Or.inl rfl
    | some fileInfo => exact Or.inr ⟨_, _, fileInfo, info, rfl⟩
  · left
    split
    · split <;> rfl
    · split <;> rfl

/-- The seeders of a file are noted, it is queued, and the worker is started. -/
theorem conclude_file {file : File} {destinationPath : Bytes}
    (decoded : decodeDownload platform response = .ok (some file)) :
    client.conclude platform response (.file destinationPath) =
      .ok (enqueueDownload { client with
          peerDb := addSeeders client.peerDb file.groupId file.fileInfo.hash
            (seedersOf platform file) }
        file.groupId file.fileInfo client.newAddress destinationPath).2.startDownloads.2 := by
  simp only [conclude, decoded, bind, Except.bind, pure, Except.pure]
  rfl

/-- The answer changes something only if it is a file that was asked for. -/
theorem conclude_cases (concluded : client.conclude platform response awaiting = .ok next) :
    next = client ∨
      ∃ destinationPath file, awaiting = .file destinationPath ∧
        decodeDownload platform response = .ok (some file) ∧
          next = (enqueueDownload { client with
              peerDb := addSeeders client.peerDb file.groupId file.fileInfo.hash
                (seedersOf platform file) }
            file.groupId file.fileInfo client.newAddress destinationPath).2.startDownloads.2 := by
  cases awaiting with
  | answer => exact Or.inl (Except.ok.inj concluded).symm
  | file destinationPath =>
      simp only [conclude, bind, Except.bind, pure, Except.pure] at concluded
      split at concluded
      · cases concluded
      · next decoded decode =>
          cases decoded with
          | none => exact Or.inl (Except.ok.inj concluded).symm
          | some file =>
              exact Or.inr ⟨destinationPath, file, rfl, decode, (Except.ok.inj concluded).symm⟩

/-- Queueing a download leaves the worker alone. -/
theorem joining_enqueueDownload {groupId outputFilePath : Bytes} {fileInfo : FileInfo}
    {address : Nat} :
    (client.enqueueDownload groupId fileInfo address outputFilePath).2.Joining ↔
      client.Joining := by
  rcases enqueueDownload_cases client groupId fileInfo address outputFilePath with
    ⟨_, refused⟩ | ⟨_, queued⟩
  · rw [refused]
  · rw [queued]
    rfl

/-- The object that is queued is a new one, which is so for all that `File::from_string`
makes. -/
def Event.Fresh (client : ClientState) : Event → Prop
  | .enqueueDownload _ _ address _ _ => ∀ entry ∈ client.downloads, entry.address ≠ address
  | _ => True

def FreshStep (sha1 : Bytes → Bytes) (iteration : IterationOrder) (source : ClientState)
    (event : Event) (target : ClientState) : Prop :=
  Step sha1 iteration source event target ∧ event.Fresh source

theorem newAddress_fresh : ∀ entry ∈ client.downloads, entry.address ≠ client.newAddress := by
  intro entry member
  have below : entry.address ≤
      (client.downloads.map fun entry => entry.address).foldr max 0 :=
    List.le_max_of_le' 0 (List.mem_map_of_mem member) (Nat.le_refl _)
  exact Nat.ne_of_lt (Nat.lt_succ_of_le below)

section Runs

theorem submit_path (idle : ¬client.Joining) :
    ∃ events, Run client (FreshStep sha1 platform.toIterationOrder) events
        (client.submit sha1 myId clientEndpoint input).1 ∧
      ¬(client.submit sha1 myId clientEndpoint input).1.Joining := by
  rcases (submit_cases : (client.submit sha1 myId clientEndpoint input).1 = client ∨ _) with
    same | ⟨groupId, filePath, fileInfo, _, submitted⟩
  · rw [same]
    exact ⟨[], .start, idle⟩
  · rw [submitted]
    exact ⟨[.addPartfile groupId fileInfo filePath], Run.start.step ⟨.addPartfile idle, trivial⟩,
      idle⟩

theorem conclude_path (idle : ¬client.Joining)
    (concluded : client.conclude platform response awaiting = .ok next) :
    ∃ events, Run client (FreshStep sha1 platform.toIterationOrder) events next := by
  rcases conclude_cases concluded with rfl | ⟨destinationPath, file, _, _, rfl⟩
  · exact ⟨[], .start⟩
  · let noted : ClientState := { client with
      peerDb :=
        addSeeders client.peerDb file.groupId file.fileInfo.hash (seedersOf platform file) }
    have noting : FreshStep sha1 platform.toIterationOrder client _ noted :=
      ⟨.addSeeders idle, trivial⟩
    have queueing : FreshStep sha1 platform.toIterationOrder noted _
        (noted.enqueueDownload file.groupId file.fileInfo client.newAddress destinationPath).2 :=
      ⟨.enqueueDownload idle, newAddress_fresh⟩
    exact ⟨[_, _, _], ((Run.start.step noting).step queueing).step
      ⟨.startDownloads (mt joining_enqueueDownload.mp idle), trivial⟩⟩

/-- A command is made of single steps of the client. -/
theorem command_path {reply : Except NetworkError Bytes} (idle : ¬client.Joining)
    (done : client.command sha1 platform myId clientEndpoint input reply = .ok next) :
    ∃ events, Run client (FreshStep sha1 platform.toIterationOrder) events next := by
  obtain ⟨before, submitted, idle⟩ : ∃ events,
      Run client (FreshStep sha1 platform.toIterationOrder) events
        (client.submit sha1 myId clientEndpoint input).1 ∧
      ¬(client.submit sha1 myId clientEndpoint input).1.Joining := submit_path idle
  simp only [command] at done
  split at done
  · next sent noRequest =>
      rw [noRequest] at submitted
      exact ⟨before, Except.ok.inj done ▸ submitted⟩
  · next sent request awaiting result =>
      rw [result] at submitted idle
      split at done
      · exact ⟨before, Except.ok.inj done ▸ submitted⟩
      · cases done
      · split at done
        · cases done
        · next concluded =>
            rw [Except.ok.injEq] at done
            subst done
            rcases conclude_path idle concluded with ⟨after, path⟩
            exact ⟨after ++ before, submitted.append path⟩

/-- Every state that a command leads to is one of a run of single steps. -/
theorem command_run {disk : Bytes → Option Bytes} {history : List Event}
    {reply : Except NetworkError Bytes}
    (run : Run { disk } (Step sha1 platform.toIterationOrder) history client)
    (idle : ¬client.Joining)
    (done : client.command sha1 platform myId clientEndpoint input reply = .ok next) :
    ∃ events, Run { disk } (Step sha1 platform.toIterationOrder) (events ++ history) next := by
  rcases command_path idle done with ⟨events, path⟩
  exact ⟨events, run.append (path.mono fun _ _ _ step => step.1)⟩

end Runs

end Steps

end ClientState

end P2PFileShare
