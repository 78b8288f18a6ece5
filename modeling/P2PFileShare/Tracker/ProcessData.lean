import P2PFileShare.Tracker.ProcessRequest

/-!
# From a message to its effects

`parse_request`, `process_request`, `mirror` and `process_data`.  Socket
operations are answered by the network: the `k`-th operation of a call returns
or throws as `Network` says.
-/

namespace P2PFileShare

open Container Text

/-- The request named by a word. -/
def requestOfName (request : Bytes) : Option Request :=
  if request = ascii "create_user" then some (.user .create)
  else if request = ascii "delete_user" then some (.user .delete)
  else if request = ascii "list_users" then some (.user .list)
  else if request = ascii "login" then some (.user .login)
  else if request = ascii "logout" then some (.user .logout)
  else if request = ascii "create_group" then some (.group .create)
  else if request = ascii "join_group" then some (.group .join)
  else if request = ascii "leave_group" then some (.group .leave)
  else if request = ascii "list_groups" then some (.group .list)
  else if request = ascii "list_requests" then some (.group .listJoinRequests)
  else if request = ascii "accept_request" then some (.group .acceptJoinRequest)
  else if request = ascii "list_files" then some (.file .list)
  else if request = ascii "upload_file" then some (.file .upload)
  else if request = ascii "download_file" then some (.file .download)
  else if request = ascii "sync" then some (.tracker .sync)
  else none

/-- The two words in front of the arguments, and the stream behind them. -/
def requestHead (platform : Platform) (data : Bytes) : EndpointID × Bytes × Stream :=
  let stream := Stream.ofText data
  let (id, stream) := stream.extractSize (platform.uninitialised data)
  let (request, stream) := stream.extractWord
  (id, request, stream)

/-- `parse_request`.  `none` stands for the exception `UnknownRequest`. -/
def parseRequest (platform : Platform) (data : Bytes) : Option Transaction :=
  let (id, request, _) := requestHead platform data
  (requestOfName request).map fun request => { origin := id, request, data }

/-- What the socket operations of one call do: the `k`-th one returns, or it
throws. -/
abbrev Network := Nat → Option NetworkError

/-- No operation fails. -/
def Network.reliable : Network :=
  fun _ => none

/-- The dispatch of `process_request` to the handlers, without the reply. -/
def handle (platform : Platform) (tracker : Tracker) (transaction : Transaction) :
    Except Exception Result × Tracker :=
  let (_, _, stream) := requestHead platform transaction.data
  match transaction.request with
  | .user request =>
      let (result, tracker) :=
        processUserRequest platform tracker transaction.origin request stream
      (.ok result, tracker)
  | .group request =>
      let (result, tracker) :=
        processGroupRequest platform tracker transaction.origin request stream
      (.ok result, tracker)
  | .file request => processFileRequest platform tracker transaction.origin request stream
  | .tracker _ => (.ok {}, tracker)

/-- The loop of the branch `TrackerRequest::SYNC`: every entry is sent and
acknowledged, and a closing `done` is sent.  The result holds what was sent. -/
def sendLog (network : Network) : Nat → List Bytes → List Bytes × Option NetworkError
  | operation, [] =>
      match network operation with
      | none => ([ascii "done"], none)
      | some error => ([], some error)
  | operation, entry :: entries =>
      match network operation, network (operation + 1) with
      | some error, _ => ([], some error)
      | none, some error => ([entry], some error)
      | none, none =>
          let (sent, error) := sendLog network (operation + 2) entries
          (entry :: sent, error)

/-- What `process_request` leaves behind: the outcome of the transaction or the
exception thrown, the state, and the messages sent to the client. -/
structure Answer where
  outcome : Except Exception Result
  tracker : Tracker
  sent : List Bytes := []

/-- `process_request`.  The client is missing when a log is replayed. -/
def processRequest (platform : Platform) (tracker : Tracker) (transaction : Transaction)
    (client : Option Network) (doMirror : Bool) : Answer :=
  match transaction.request, client with
  | .tracker .sync, none => { outcome := .error .nullDereference, tracker }
  | .tracker .sync, some network =>
      match sendLog network 0 (tracker.successfulTransactions.map Transaction.data) with
      | (sent, none) => { outcome := .ok {}, tracker, sent }
      | (sent, some error) => { outcome := .error (.network error), tracker, sent }
  | _, client =>
      match handle platform tracker transaction, doMirror, client with
      | (.error exception, tracker), _, _ => { outcome := .error exception, tracker }
      | (.ok result, tracker), false, _ => { outcome := .ok result, tracker }
      | (.ok _, tracker), true, none => { outcome := .error .nullDereference, tracker }
      | (.ok result, tracker), true, some network =>
          match network 0 with
          | none => { outcome := .ok result, tracker, sent := [result.message] }
          | some error => { outcome := .error (.network error), tracker }

/-- The static configuration of a tracker. -/
structure Config where
  myId : EndpointID
  trackers : List Endpoint

/-- `mirror`: the messages it tries to deliver, and where to.  Errors on the way
are caught one tracker at a time. -/
def mirror (platform : Platform) (config : Config) (transaction : Transaction) :
    List (Endpoint × Bytes) :=
  (config.trackers.filter fun tracker => tracker.generateId platform ≠ config.myId).map
    fun tracker => (tracker, ascii "0" ++ transaction.data)

/-- What `process_data` leaves behind. -/
structure Served where
  tracker : Tracker
  sent : List Bytes := []
  mirrored : List (Endpoint × Bytes) := []
  thrown : Option Exception := none

/-- `process_data`. -/
def processData (platform : Platform) (config : Config) (tracker : Tracker)
    (network : Network) : Bytes → Served
  | [] => { tracker, thrown := some (.std .outOfRange) }
  | flag :: data =>
      let doMirror : Bool := flag = 49
      match parseRequest platform data with
      | none =>
          match network 0 with
          | none => { tracker, sent := [ascii "Unknown request"] }
          | some error => { tracker, thrown := some (.network error) }
      | some transaction =>
          match processRequest platform tracker transaction (some network) doMirror with
          | { outcome := .error exception, tracker, sent } =>
              { tracker, sent, thrown := some exception }
          | { outcome := .ok result, tracker, sent } =>
              if result.success then
                let transaction := { transaction with outcome := result }
                { tracker :=
                    { tracker with
                      successfulTransactions :=
                        tracker.successfulTransactions ++ [transaction] }
                  sent
                  mirrored := if doMirror then mirror platform config transaction else [] }
              else { tracker, sent }

/-- A request is taken apart into the id, its name, and the stream in front of the
arguments. -/
theorem requestHead_text (platform : Platform) (myId : EndpointID) {request : Bytes}
    (isWord : IsWord request) (arguments : Bytes) :
    ∃ taken, requestHead platform
        (Text.toString myId.toNat ++ 32 :: (request ++ 32 :: arguments)) =
      (myId, request, Stream.reading taken (32 :: arguments)) := by
  refine ⟨[] ++ Text.toString myId.toNat ++ [32] ++ request, ?_⟩
  rw [requestHead, Stream.ofText_eq_reading, Stream.extractSize_toString _ _ (by rfl)]
  simp only
  rw [Stream.extractWord_next (by rfl) isWord (by rfl)]

end P2PFileShare
