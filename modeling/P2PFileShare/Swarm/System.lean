import P2PFileShare.Client.Commands
import P2PFileShare.Client.PeerRequest
import P2PFileShare.Network.Messages
import P2PFileShare.Tracker.Serving

/-!
# One tracker and its clients

The clients run `process_input`, and send one request at a time.  Requests and answers
are in flight until they are received; any one may overtake others or be lost, and a
connection may break while a client waits.  A message is received as a whole; one with a full
last buffer is not received at all.  What peers answer to a worker is left open.
-/

namespace P2PFileShare

open Container Text

/-- A disk as a client finds it: regular files have fewer than `2 ^ 63` bytes, and no
path of one ends in a slash. -/
def RegularDisk (disk : Bytes → Option Bytes) : Prop :=
  ∀ path content, disk path = some content → content.length < 2 ^ 63 ∧ basename path ≠ []

/-- The programs of a swarm, and where they run.  `get_sha1` returns forty hexadecimal
digits, and no two clients listen at the same endpoint. -/
structure Setting (ι : Type) where
  sha1 : Bytes → Bytes
  sha1_length : ∀ data, (sha1 data).length = 40
  sha1_isWord : ∀ data, IsWord (sha1 data)
  trackerPlatform : Platform
  platform : ι → Platform
  endpoint : ι → Endpoint
  endpoint_isPlain : ∀ i, (endpoint i).IsPlain
  endpoint_injective : Function.Injective endpoint
  disk : ι → Bytes → Option Bytes
  disk_regular : ∀ i, RegularDisk (disk i)

/-- `my_id` of a client. -/
def Setting.myId {ι : Type} (setting : Setting ι) (i : ι) : EndpointID :=
  (setting.endpoint i).generateId (setting.platform i)

/-- `receive_data` can return a message: its last buffer is not full.  Behind a full one a
client waits for more, and the server throws away what it has read.  By
`Carriage.receivable_iff` all other messages have a way to be received. -/
def Receivable (message : Bytes) : Prop :=
  message.length % bufferSize ≠ 0

instance (message : Bytes) : Decidable (Receivable message) :=
  inferInstanceAs (Decidable (_ ≠ _))

structure Swarm (ι : Type) where
  tracker : Tracker
  client : ι → ClientState
  awaiting : ι → Option Awaiting
  requests : List (ι × Bytes) := []
  answers : List (ι × Bytes) := []

/-- A client takes a line of input; the tracker serves a request in flight; a request is
lost; a client receives an answer, or an error instead; its worker makes a step; or
somebody else changes its disk. -/
inductive SwarmEvent (ι : Type)
  | input (i : ι) (line : Bytes)
  | serve (place : Nat) (network : Network)
  | lose (place : Nat)
  | receive (place : Nat)
  | fail (i : ι)
  | work (i : ι) (answers : PeerDB.Peer → Bytes → Exchange)
  | changeDisk (i : ι) (disk : Bytes → Option Bytes)

namespace Swarm

variable {ι : Type} [DecidableEq ι]

/-- All programs have just been started. -/
def start (setting : Setting ι) : Swarm ι where
  tracker := .empty
  client i := { disk := setting.disk i }
  awaiting _ := none

/-- The swarm with another state of one client. -/
def setClient (swarm : Swarm ι) (i : ι) (client : ClientState) : Swarm ι :=
  { swarm with client := Function.update swarm.client i client }

/-- The swarm after an event, if the event is possible. -/
def next (setting : Setting ι) (swarm : Swarm ι) : SwarmEvent ι → Option (Swarm ι)
  | .input i line =>
      match swarm.awaiting i with
      | some _ => none
      | none =>
          match (swarm.client i).submit setting.sha1 (setting.myId i) (setting.endpoint i) line with
          | (client, none) => some (swarm.setClient i client)
          | (client, some (request, awaiting)) =>
              some { swarm.setClient i client with
                awaiting := Function.update swarm.awaiting i (some awaiting)
                requests := swarm.requests ++ [(i, request)] }
  | .serve place network =>
      match swarm.requests[place]? with
      | none => none
      | some (i, request) =>
          if ¬Receivable request then none
          else
            let served := processData setting.trackerPlatform .alone swarm.tracker network request
            some { swarm with
              tracker := served.tracker
              requests := swarm.requests.eraseIdx place
              answers := swarm.answers ++ served.sent.map fun answer => (i, answer) }
  | .lose place => some { swarm with requests := swarm.requests.eraseIdx place }
  | .receive place =>
      match swarm.answers[place]? with
      | none => none
      | some (i, answer) =>
          if ¬Receivable answer then none
          else
            match swarm.awaiting i with
            | none => none
            | some awaiting =>
                match (swarm.client i).conclude (setting.platform i) answer awaiting with
                | .error _ => none
                | .ok client =>
                    some { swarm.setClient i client with
                      awaiting := Function.update swarm.awaiting i none
                      answers := swarm.answers.eraseIdx place }
  | .fail i => some { swarm with awaiting := Function.update swarm.awaiting i none }
  | .work i answers =>
      match (swarm.client i).work setting.sha1 (setting.platform i).toIterationOrder answers with
      | .error _ => none
      | .ok client => some (swarm.setClient i client)
  | .changeDisk i disk => some (swarm.setClient i { swarm.client i with disk })

/-- The files that a client has offered stay as they are. -/
structure LeavesFiles (source target : ClientState) : Prop where
  offered : ∀ key partFile, source.myFiles.files.find? key = some partFile →
    ∀ piece ∈ partFile.downloadedPieces,
      target.disk partFile.filePath = source.disk partFile.filePath
  regular : RegularDisk source.disk → RegularDisk target.disk

/-- A step of a swarm whose clients stay up and leave their files unchanged. -/
def Step (setting : Setting ι) (source : Swarm ι) (event : SwarmEvent ι) (target : Swarm ι) :
    Prop :=
  source.next setting event = some target ∧ ∀ i, LeavesFiles (source.client i) (target.client i)

end Swarm

end P2PFileShare
