import P2PFileShare.Network.Socket
import Mathlib.Data.List.Nodup
import Mathlib.Data.List.MinMax

/-!
# The event loop of a server

`TCPServer::serveRequests` on a network that decides when connections and bytes
arrive.  A round begins with `select`, which collects the descriptors that are
ready; the loop behind it serves them in increasing order.  The listening socket
is one of them: a connection is accepted there, and closed at once if there are
too many clients.
-/

namespace P2PFileShare

open Text

/-- Who has opened a connection: a mirroring tracker, which numbers its connections
in the order in which it opens them, or some other client. -/
inductive Caller
  | mirror (number : Nat)
  | other (number : Nat)
  deriving DecidableEq

/-- The number of a mirror connection. -/
def Caller.number : Caller → Option Nat
  | mirror number => some number
  | other _ => none

/-- The receiving end of a connection, in the listen queue or behind it. -/
structure Peer where
  caller : Caller
  socket : Socket := {}
  deriving DecidableEq

/-- A connection that has been accepted. -/
structure Client extends Peer where
  fd : Nat
  deriving DecidableEq

/-- `select` finds a socket ready when there is something to read, or the peer has
closed. -/
def Socket.ready (socket : Socket) : Bool :=
  socket.arrived ≠ [] || socket.closed

/-- A server while its service thread runs.  `connected` and `received` record the
connections that have come in and what has been passed to `onData`; no code reads
them. -/
structure Server where
  listener : Nat
  maxConnections : Nat
  pending : List Peer := []
  clients : List Client := []
  readSet : List Nat := []
  connected : List Caller := []
  received : List (Caller × Bytes) := []
  deriving DecidableEq

/-- `HARD_CONNECTION_LIMIT`. -/
def hardConnectionLimit : Nat :=
  256

/-- What can happen: a connection comes in, something arrives on one, a round
begins, or the next ready descriptor of the round is served.  A descriptor for a
new client, the schedule of the `recv` calls, and whether `onData` drops the
connection, are not the server's choice. -/
inductive ServerEvent
  | connect (caller : Caller)
  | arrive (caller : Caller) (turn : Turn)
  | select
  | serve (fd : Nat) (turns : List Turn) (hangsUp : Bool)
  deriving DecidableEq

namespace Server

/-- `TCPServer server(maxConnections)`, started. -/
def start (listener maxConnections : Nat) : Server where
  listener
  maxConnections :=
    if hardConnectionLimit ≤ maxConnections then hardConnectionLimit - 1 else maxConnections

/-- What `select` leaves in `read_fd_set`. -/
def readyDescriptors (server : Server) : List Nat :=
  (if server.pending = [] then [] else [server.listener]) ++
    (server.clients.filter fun client => client.socket.ready).map Client.fd

/-- The branch of the listening socket. -/
def accept (server : Server) (fd : Nat) : Server :=
  match server.pending with
  | [] => server
  | peer :: pending =>
      if server.clients.length < server.maxConnections then
        { server with
          pending
          clients := server.clients ++
            [{ peer with socket := { peer.socket with nonBlocking := true }, fd }] }
      else { server with pending }

/-- `FD_CLR` and `clients.erase(it)`. -/
def dismiss (server : Server) (fd : Nat) : Server :=
  { server with clients := server.clients.filter fun client => client.fd ≠ fd }

/-- The client goes on with its socket as a call left it. -/
def keep (server : Server) (fd : Nat) (socket : Socket) : Server :=
  { server with
    clients := server.clients.map fun client =>
      if client.fd = fd then { client with socket } else client }

/-- The branch of a connected client, behind `receive_data`. -/
def attend (server : Server) (client : Client) (hangsUp : Bool) : Received × Socket → Server
  | (.returned data, socket) =>
      if data = [] then server.keep client.fd socket
      else
        let server := { server with received := server.received ++ [(client.caller, data)] }
        if hangsUp then server.dismiss client.fd else server.keep client.fd socket
  | (.threw .wouldBlockError, socket) => server.keep client.fd socket
  | (.threw _, _) => server.dismiss client.fd
  | (.unfinished, _) => server

/-- The body of the loop for one descriptor of the read set. -/
def serveDescriptor (server : Server) (ready fd : Nat) (turns : List Turn) (hangsUp : Bool) :
    Server :=
  if ready = server.listener then server.accept fd
  else
    match server.clients.find? fun client => client.fd = ready with
    | none => server
    | some client => server.attend client hangsUp (receiveData client.socket [] turns)

/-- What arrives is seen by the socket of its connection. -/
def Peer.deliver (peer : Peer) (caller : Caller) (turn : Turn) : Peer :=
  if peer.caller = caller then { peer with socket := peer.socket.deliver turn } else peer

def Client.deliver (client : Client) (caller : Caller) (turn : Turn) : Client :=
  { client with toPeer := Peer.deliver client.toPeer caller turn }

def step (server : Server) : ServerEvent → Server
  | .connect caller =>
      { server with
        pending := server.pending ++ [{ caller }]
        connected := server.connected ++ [caller] }
  | .arrive caller turn =>
      { server with
        pending := server.pending.map fun peer => Peer.deliver peer caller turn
        clients := server.clients.map fun client => Client.deliver client caller turn }
  | .select =>
      if server.readSet = [] then { server with readSet := server.readyDescriptors } else server
  | .serve fd turns hangsUp =>
      match server.readSet.min? with
      | none => server
      | some ready =>
          { server with readSet := server.readSet.filter (ready < ·) }.serveDescriptor ready fd
            turns hangsUp

def run (server : Server) (events : List ServerEvent) : Server :=
  events.foldl step server

/-- The messages of the mirror connections that were passed to `onData`. -/
def mirrored (server : Server) : List (Nat × Bytes) :=
  server.received.filterMap fun (caller, data) => caller.number.map fun number => (number, data)

end Server

end P2PFileShare
