import P2PFileShare.Models.Endpoint

/-!
# Requests and transactions

`models/transaction.hpp`.
-/

namespace P2PFileShare

open Text

inductive UserRequest
  | create
  | delete
  | list
  | login
  | logout
  deriving DecidableEq, Repr

inductive GroupRequest
  | create
  | join
  | leave
  | list
  | listJoinRequests
  | acceptJoinRequest
  deriving DecidableEq, Repr

inductive FileRequest
  | list
  | upload
  | download
  deriving DecidableEq, Repr

inductive TrackerRequest
  | sync
  deriving DecidableEq, Repr

/-- `using Request = std::variant<…>`. -/
inductive Request
  | user (request : UserRequest)
  | group (request : GroupRequest)
  | file (request : FileRequest)
  | tracker (request : TrackerRequest)
  deriving DecidableEq, Repr

/-- The outcome of a request. -/
structure Result where
  success : Bool := false
  message : Bytes := ascii "Not yet processed"
  deriving DecidableEq

/-- Every request is a transaction. -/
structure Transaction where
  origin : EndpointID
  request : Request
  data : Bytes
  outcome : Result := {}
  deriving DecidableEq

end P2PFileShare
