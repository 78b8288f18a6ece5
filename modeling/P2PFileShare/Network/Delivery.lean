import P2PFileShare.Network.Server

/-!
# What a mirroring tracker's messages need

One tracker opens a connection for every message, sends the message and closes.
A server passes each message to its callback once and in order if every mirror
connection finds a free place, and if whatever `select` finds ready on such a
connection is a whole message whose predecessors are served before it.
-/

namespace P2PFileShare

open Text

/-! ## The network -/

/-- More bytes of a message that has been sent. -/
def Continues (sent : List Bytes) (number : Nat) (socket : Socket) (bytes : Bytes) : Prop :=
  ∃ message ∈ sent[number]?, socket.removed ++ socket.arrived ++ bytes <+: message

instance (sent : List Bytes) (number : Nat) (socket : Socket) (bytes : Bytes) :
    Decidable (Continues sent number socket bytes) :=
  inferInstanceAs (Decidable (∃ message, message ∈ sent[number]? ∧
    socket.removed ++ socket.arrived ++ bytes <+: message))

namespace Server

/-- What the system guarantees.  A connection comes in once, if it was opened;
what arrives on it was sent on it; a new descriptor is not in use; a call of
`receive_data` comes to its end. -/
def Genuine (sent : List Bytes) (server : Server) : ServerEvent → Prop
  | .connect caller =>
      caller ∉ server.connected ∧ ∀ number ∈ caller.number, number < sent.length
  | .arrive caller turn =>
      ∀ number ∈ caller.number,
        (∀ peer ∈ server.pending, peer.caller = caller →
          Continues sent number peer.socket turn.arrives) ∧
        ∀ client ∈ server.clients, client.caller = caller →
          Continues sent number client.socket turn.arrives
  | .select => True
  | .serve fd turns _ =>
      (server.readSet.min? = some server.listener →
        fd ≠ server.listener ∧ fd ∉ server.clients.map Client.fd) ∧
      ∀ client ∈ server.clients, server.readSet.min? = some client.fd →
        (receiveData client.socket [] turns).1 ≠ .unfinished ∧
          ∀ number ∈ client.caller.number,
            Continues sent number client.socket (turns.flatMap Turn.arrives)

/-- What is ready on a client's connection and has not been read is a whole
message, and every message before it has been passed on or is served before it in
the same round. -/
def Due (sent : List Bytes) (server : Server) (client : Client) : Prop :=
  client.socket.ready = true → client.socket.removed = [] →
    ∀ number ∈ client.caller.number,
      sent[number]? = some client.socket.arrived ∧
        ∀ earlier < number, earlier ∈ server.mirrored.map Prod.fst ∨
          ∃ other ∈ server.clients, other.caller = .mirror earlier ∧
            other.socket.ready = true ∧ other.fd < client.fd

/-- Messages are found in order, a mirror connection finds a free place, and `recv`
hands out whatever fits its buffer. -/
def Orderly (sent : List Bytes) (server : Server) : ServerEvent → Prop
  | .select => server.readSet = [] → ∀ client ∈ server.clients, Due sent server client
  | .serve _ turns _ =>
      (server.readSet.min? = some server.listener → ∀ peer ∈ server.pending.head?,
        peer.caller.number.isSome = true → server.clients.length < server.maxConnections) ∧
      ∀ client ∈ server.clients, server.readSet.min? = some client.fd →
        client.caller.number.isSome = true → ∀ turn ∈ turns, bufferSize ≤ turn.take
  | _ => True

instance (sent : List Bytes) (server : Server) :
    (event : ServerEvent) → Decidable (server.Genuine sent event)
  | .connect _ => inferInstanceAs (Decidable (_ ∧ _))
  | .arrive caller _ => inferInstanceAs (Decidable (∀ number ∈ caller.number, _))
  | .select => isTrue trivial
  | .serve _ _ _ => inferInstanceAs (Decidable (_ ∧ _))

instance (sent : List Bytes) (server : Server) (client : Client) :
    Decidable (Due sent server client) :=
  inferInstanceAs (Decidable (_ → _))

instance (sent : List Bytes) (server : Server) :
    (event : ServerEvent) → Decidable (server.Orderly sent event)
  | .connect _ | .arrive _ _ => isTrue trivial
  | .select => inferInstanceAs (Decidable (_ → _))
  | .serve _ _ _ => inferInstanceAs (Decidable (_ ∧ _))

/-- Every event of a run is such. -/
def Along (holds : Server → ServerEvent → Prop) : Server → List ServerEvent → Prop
  | _, [] => True
  | server, event :: events =>
      holds server event ∧ Along holds (server.step event) events

instance decidableAlong (holds : Server → ServerEvent → Prop)
    [∀ server event, Decidable (holds server event)] :
    (server : Server) → (events : List ServerEvent) → Decidable (Along holds server events)
  | _, [] => isTrue trivial
  | server, event :: events =>
      have := decidableAlong holds (server.step event) events
      inferInstanceAs (Decidable (_ ∧ _))

/-- Every connection that was opened has come in, and is gone again. -/
def Handled (sent : List Bytes) (server : Server) : Prop :=
  ∀ number < sent.length, .mirror number ∈ server.connected ∧
    (∀ peer ∈ server.pending, peer.caller ≠ .mirror number) ∧
    ∀ client ∈ server.clients, client.caller ≠ .mirror number

instance (sent : List Bytes) (server : Server) : Decidable (server.Handled sent) :=
  inferInstanceAs (Decidable (∀ number < sent.length, _))

end Server

/-! ## How far a server has come -/

namespace Server

/-- Every connection that is open or waits to be accepted. -/
def peers (server : Server) : List Peer :=
  server.pending ++ server.clients.map Client.toPeer

/-- The first `count` messages have been passed on; what has been read of a
connection is its whole message or nothing; and the read set of a round that is
under way serves the next messages in order. -/
structure Progress (sent : List Bytes) (server : Server) (count : Nat) : Prop where
  numbers : server.mirrored.map Prod.fst = List.range count
  messages : server.mirrored.map Prod.snd = sent.take count
  callers : (server.peers.map Peer.caller).Nodup
  connected : ∀ peer ∈ server.peers, peer.caller ∈ server.connected
  passed : ∀ number < count, .mirror number ∈ server.connected
  present : ∀ number, count ≤ number → .mirror number ∈ server.connected →
    .mirror number ∈ server.peers.map Peer.caller
  read : ∀ peer ∈ server.peers, ∀ number < count, peer.caller = .mirror number →
    sent[number]? = some peer.socket.removed ∧ peer.socket.arrived = []
  unread : ∀ peer ∈ server.peers, ∀ number, count ≤ number → peer.caller = .mirror number →
    peer.socket.removed = []
  fds : (server.listener :: server.clients.map Client.fd).Nodup
  nonBlocking : ∀ client ∈ server.clients, client.socket.nonBlocking = true
  round : ∀ fd ∈ server.readSet, fd = server.listener ∨ fd ∈ server.clients.map Client.fd
  due : ∀ client ∈ server.clients, client.fd ∈ server.readSet →
    ∀ number, count ≤ number → client.caller = .mirror number →
      sent[number]? = some client.socket.arrived ∧
        ∀ earlier < number, earlier < count ∨
          ∃ other ∈ server.clients, other.caller = .mirror earlier ∧
            other.fd ∈ server.readSet ∧ other.fd < client.fd

section Lists

variable {server : Server} {peer : Peer} {client other : Client}

theorem mem_peers :
    peer ∈ server.peers ↔
      peer ∈ server.pending ∨ ∃ client ∈ server.clients, client.toPeer = peer := by
  rw [peers, List.mem_append, List.mem_map]

theorem toPeer_mem_peers (member : client ∈ server.clients) : client.toPeer ∈ server.peers :=
  mem_peers.mpr (Or.inr ⟨client, member, rfl⟩)

/-- Clients are told apart by their descriptors. -/
theorem eq_of_fd_eq (fds : (server.listener :: server.clients.map Client.fd).Nodup)
    (member : client ∈ server.clients) (otherMember : other ∈ server.clients)
    (same : client.fd = other.fd) : client = other :=
  List.inj_on_of_nodup_map (List.nodup_cons.mp fds).2 member otherMember same

theorem fd_ne_listener (fds : (server.listener :: server.clients.map Client.fd).Nodup)
    (member : client ∈ server.clients) : client.fd ≠ server.listener := by
  intro same
  apply (List.nodup_cons.mp fds).1
  rw [← same]
  exact List.mem_map_of_mem member

end Lists

section Steps

variable {sent : List Bytes} {server : Server} {count : Nat}

theorem start_progress (listener maxConnections : Nat) :
    Progress sent (start listener maxConnections) 0 := by
  constructor <;> simp [start, mirrored, peers]

theorem Progress.connect (progress : Progress sent server count) {caller : Caller}
    (fresh : caller ∉ server.connected) : Progress sent (server.step (.connect caller)) count := by
  have perm : ((server.step (.connect caller)).peers.map Peer.caller).Perm
      (caller :: server.peers.map Peer.caller) := by
    simp only [peers, step, List.map_append, List.map_cons, List.map_nil, List.append_assoc]
    exact List.perm_middle
  have members : ∀ peer ∈ (server.step (.connect caller)).peers,
      peer ∈ server.peers ∨ peer = { caller } := by
    intro peer member
    rcases mem_peers.mp member with waits | accepted
    · rcases List.mem_append.mp waits with old | new
      · exact Or.inl (mem_peers.mpr (Or.inl old))
      · exact Or.inr (List.mem_singleton.mp new)
    · exact Or.inl (mem_peers.mpr (Or.inr accepted))
  constructor
  · exact progress.numbers
  · exact progress.messages
  · rw [perm.nodup_iff, List.nodup_cons]
    constructor
    · intro known
      rcases List.mem_map.mp known with ⟨peer, member, rfl⟩
      exact fresh (progress.connected peer member)
    · exact progress.callers
  · intro peer member
    rcases members peer member with old | rfl
    · exact List.mem_append_left _ (progress.connected peer old)
    · exact List.mem_append_right _ (List.mem_singleton_self _)
  · intro number less
    exact List.mem_append_left _ (progress.passed number less)
  · intro number later known
    rw [perm.mem_iff]
    rcases List.mem_append.mp known with old | new
    · exact List.mem_cons_of_mem _ (progress.present number later old)
    · rw [List.mem_singleton.mp new]
      exact List.mem_cons_self
  · intro peer member number less same
    rcases members peer member with old | rfl
    · exact progress.read peer old number less same
    · obtain rfl : caller = .mirror number := same
      exact absurd (progress.passed number less) fresh
  · intro peer member number later same
    rcases members peer member with old | rfl
    · exact progress.unread peer old number later same
    · rfl
  · exact progress.fds
  · exact progress.nonBlocking
  · exact progress.round
  · exact progress.due

/-- What arrives on a connection that was read, or whose message is complete, is
nothing. -/
theorem arrives_nothing {number : Nat} {socket : Socket} {bytes : Bytes}
    (continues : Continues sent number socket bytes)
    (complete : sent[number]? = some (socket.removed ++ socket.arrived)) : bytes = [] := by
  rcases continues with ⟨message, found, bound⟩
  obtain rfl := Option.some.inj (complete.symm.trans found)
  have length := bound.length_le
  rw [List.length_append] at length
  exact List.length_eq_zero_iff.mp (by omega)

theorem deliver_caller (peer : Peer) (caller : Caller) (turn : Turn) :
    (Peer.deliver peer caller turn).caller = peer.caller := by
  rw [Peer.deliver]
  split <;> rfl

theorem deliver_removed (peer : Peer) (caller : Caller) (turn : Turn) :
    (Peer.deliver peer caller turn).socket.removed = peer.socket.removed := by
  rw [Peer.deliver]
  split
  · exact Socket.deliver_removed
  · rfl

theorem deliver_nonBlocking (peer : Peer) (caller : Caller) (turn : Turn) :
    (Peer.deliver peer caller turn).socket.nonBlocking = peer.socket.nonBlocking := by
  rw [Peer.deliver]
  split
  · exact Socket.deliver_nonBlocking
  · rfl

theorem peers_arrive (caller : Caller) (turn : Turn) :
    (server.step (.arrive caller turn)).peers =
      server.peers.map fun peer => Peer.deliver peer caller turn := by
  simp only [peers, step, List.map_append, List.map_map]
  rfl

/-- A complete message stays as it is. -/
theorem deliver_arrived {caller : Caller} {turn : Turn}
    (genuine : server.Genuine sent (.arrive caller turn)) {peer : Peer}
    (member : peer ∈ server.peers) {number : Nat} (same : peer.caller = .mirror number)
    (complete : sent[number]? = some (peer.socket.removed ++ peer.socket.arrived)) :
    (Peer.deliver peer caller turn).socket.arrived = peer.socket.arrived := by
  rw [Peer.deliver]
  split
  · next here =>
      have mirrors : number ∈ caller.number := by
        rw [← here, same]
        rfl
      have continues : Continues sent number peer.socket turn.arrives := by
        rcases mem_peers.mp member with waits | ⟨client, accepted, rfl⟩
        · exact (genuine number mirrors).1 peer waits here
        · exact (genuine number mirrors).2 client accepted here
      exact Socket.deliver_nothing (arrives_nothing continues complete)
  · rfl

theorem Progress.arrive (progress : Progress sent server count) {caller : Caller} {turn : Turn}
    (genuine : server.Genuine sent (.arrive caller turn)) :
    Progress sent (server.step (.arrive caller turn)) count := by
  have callers : (server.step (.arrive caller turn)).peers.map Peer.caller =
      server.peers.map Peer.caller := by
    rw [peers_arrive, List.map_map]
    exact List.map_congr_left fun peer _ => deliver_caller peer caller turn
  have fds : (server.step (.arrive caller turn)).clients.map Client.fd =
      server.clients.map Client.fd := by
    rw [step, List.map_map]
    rfl
  constructor
  · exact progress.numbers
  · exact progress.messages
  · rw [callers]
    exact progress.callers
  · intro peer member
    rw [peers_arrive] at member
    rcases List.mem_map.mp member with ⟨old, known, rfl⟩
    rw [deliver_caller]
    exact progress.connected old known
  · exact progress.passed
  · intro number later known
    rw [callers]
    exact progress.present number later known
  · intro peer member number less same
    rw [peers_arrive] at member
    rcases List.mem_map.mp member with ⟨old, known, rfl⟩
    rw [deliver_caller] at same
    obtain ⟨found, empty⟩ := progress.read old known number less same
    rw [deliver_removed, deliver_arrived genuine known same (by rw [empty, List.append_nil, found])]
    exact ⟨found, empty⟩
  · intro peer member number later same
    rw [peers_arrive] at member
    rcases List.mem_map.mp member with ⟨old, known, rfl⟩
    rw [deliver_caller] at same
    rw [deliver_removed]
    exact progress.unread old known number later same
  · change (server.listener :: (server.step (.arrive caller turn)).clients.map Client.fd).Nodup
    rw [fds]
    exact progress.fds
  · intro client member
    rcases List.mem_map.mp member with ⟨old, known, rfl⟩
    exact (deliver_nonBlocking old.toPeer caller turn).trans (progress.nonBlocking old known)
  · intro fd member
    rw [fds]
    exact progress.round fd member
  · intro client member ready number later same
    rcases List.mem_map.mp member with ⟨old, known, rfl⟩
    have same : old.caller = .mirror number :=
      (deliver_caller old.toPeer caller turn).symm.trans same
    obtain ⟨found, before⟩ := progress.due old known ready number later same
    constructor
    · have unread := progress.unread old.toPeer (toPeer_mem_peers known) number later same
      have arrived := deliver_arrived genuine (toPeer_mem_peers known) same
        (by rw [unread, List.nil_append]; exact found)
      exact found.trans (congrArg some arrived.symm)
    · intro earlier less
      rcases before earlier less with passed | ⟨other, member, mirrors, set, below⟩
      · exact Or.inl passed
      · refine Or.inr ⟨Client.deliver other caller turn, List.mem_map_of_mem member, ?_, set, below⟩
        exact (deliver_caller other.toPeer caller turn).trans mirrors

/-- The read set of a new round holds the clients that are ready. -/
theorem mem_readyDescriptors (fds : (server.listener :: server.clients.map Client.fd).Nodup)
    {client : Client} (member : client ∈ server.clients) :
    client.fd ∈ server.readyDescriptors ↔ client.socket.ready = true := by
  rw [readyDescriptors, List.mem_append]
  constructor
  · rintro (listens | ready)
    · split at listens
      · cases listens
      · exact absurd (List.mem_singleton.mp listens) (fd_ne_listener fds member)
    · rcases List.mem_map.mp ready with ⟨other, found, same⟩
      rcases List.mem_filter.mp found with ⟨otherMember, otherReady⟩
      obtain rfl := eq_of_fd_eq fds otherMember member same
      exact otherReady
  · intro ready
    exact Or.inr (List.mem_map_of_mem (List.mem_filter.mpr ⟨member, ready⟩))

/-- A round begins: what is ready is due. -/
theorem Progress.select (progress : Progress sent server count)
    (orderly : server.Orderly sent .select) : Progress sent (server.step .select) count := by
  rw [step]
  split
  · next between =>
      constructor
      · exact progress.numbers
      · exact progress.messages
      · exact progress.callers
      · exact progress.connected
      · exact progress.passed
      · exact progress.present
      · exact progress.read
      · exact progress.unread
      · exact progress.fds
      · exact progress.nonBlocking
      · intro fd member
        rcases List.mem_append.mp member with listens | ready
        · split at listens
          · cases listens
          · exact Or.inl (List.mem_singleton.mp listens)
        · rcases List.mem_map.mp ready with ⟨client, found, rfl⟩
          exact Or.inr (List.mem_map_of_mem (List.mem_of_mem_filter found))
      · intro client member set number later same
        have unread := progress.unread client.toPeer (toPeer_mem_peers member) number later same
        have ready := (mem_readyDescriptors progress.fds member).mp set
        obtain ⟨whole, before⟩ := orderly between client member ready unread number
          (by rw [same]; rfl)
        refine ⟨whole, ?_⟩
        intro earlier less
        rcases before earlier less with passed | ⟨other, found, mirrors, otherReady, below⟩
        · rw [progress.numbers] at passed
          exact Or.inl (List.mem_range.mp passed)
        · exact Or.inr ⟨other, found, mirrors,
            (mem_readyDescriptors progress.fds found).mpr otherReady, below⟩
  · exact progress

/-! ### One descriptor of the read set -/

theorem Progress.pending_caller_ne (progress : Progress sent server count) {peer : Peer}
    (waits : peer ∈ server.pending) {client : Client} (accepted : client ∈ server.clients) :
    peer.caller ≠ client.caller := by
  have nodup := progress.callers
  rw [peers, List.map_append] at nodup
  have disjoint := List.disjoint_of_nodup_append nodup
  intro same
  apply disjoint (List.mem_map_of_mem waits)
  rw [same]
  exact List.mem_map_of_mem (List.mem_map_of_mem accepted)

theorem Progress.client_eq (progress : Progress sent server count) {client other : Client}
    (member : client ∈ server.clients) (otherMember : other ∈ server.clients)
    (same : client.caller = other.caller) : client = other := by
  have nodup := progress.callers
  rw [peers, List.map_append, List.map_map] at nodup
  exact List.inj_on_of_nodup_map (List.Nodup.of_append_right nodup) member otherMember same

/-- A client has been attended to: it is gone, or it goes on with another socket. -/
structure Attended (server : Server) (client : Client) (socket : Option Socket)
    (after : Server) : Prop where
  listener : after.listener = server.listener
  pending : after.pending = server.pending
  connected : after.connected = server.connected
  readSet : after.readSet = server.readSet
  clients : ∀ other ∈ after.clients, (other ∈ server.clients ∧ other.fd ≠ client.fd) ∨
    ∃ left ∈ socket, other = { client with socket := left }
  kept : ∀ other ∈ server.clients, other.fd ≠ client.fd → other ∈ after.clients
  callers : ((after.clients.map Client.toPeer).map Peer.caller).Sublist
    ((server.clients.map Client.toPeer).map Peer.caller)
  fds : (after.clients.map Client.fd).Sublist (server.clients.map Client.fd)

theorem attended_dismiss (server : Server) (client : Client) :
    Attended server client none (server.dismiss client.fd) := by
  constructor
  · rfl
  · rfl
  · rfl
  · rfl
  · intro other member
    rcases List.mem_filter.mp member with ⟨old, distinct⟩
    exact Or.inl ⟨old, of_decide_eq_true distinct⟩
  · intro other member distinct
    exact List.mem_filter.mpr ⟨member, decide_eq_true distinct⟩
  · exact (List.filter_sublist.map _).map _
  · exact List.filter_sublist.map _

theorem attended_keep (fds : (server.listener :: server.clients.map Client.fd).Nodup)
    {client : Client} (member : client ∈ server.clients) (socket : Socket) :
    Attended server client (some socket) (server.keep client.fd socket) := by
  constructor
  · rfl
  · rfl
  · rfl
  · rfl
  · intro other kept
    rcases List.mem_map.mp kept with ⟨old, oldMember, rfl⟩
    split
    · next same =>
        obtain rfl := eq_of_fd_eq fds oldMember member same
        exact Or.inr ⟨socket, rfl, rfl⟩
    · next distinct => exact Or.inl ⟨oldMember, distinct⟩
  · intro other otherMember distinct
    refine List.mem_map.mpr ⟨other, otherMember, ?_⟩
    rw [if_neg distinct]
  · have same : ((server.keep client.fd socket).clients.map Client.toPeer).map Peer.caller =
        (server.clients.map Client.toPeer).map Peer.caller := by
      rw [keep, List.map_map, List.map_map, List.map_map]
      apply List.map_congr_left
      intro other _
      simp only [Function.comp_apply]
      split <;> rfl
    rw [same]
  · have same : (server.keep client.fd socket).clients.map Client.fd =
        server.clients.map Client.fd := by
      rw [keep, List.map_map]
      apply List.map_congr_left
      intro other _
      simp only [Function.comp_apply]
      split <;> rfl
    rw [same]

/-- What a call of `receive_data` lets the server pass on. -/
def passedOn (caller : Caller) : Received → List (Caller × Bytes)
  | .returned data => if data = [] then [] else [(caller, data)]
  | _ => []

/-- A client is attended to once its call has ended. -/
theorem attended_attend (server : Server)
    (fds : (server.listener :: server.clients.map Client.fd).Nodup) {client : Client}
    (member : client ∈ server.clients) (hangsUp : Bool) (result : Received × Socket)
    (ends : result.1 ≠ .unfinished) :
    ∃ socket, (∀ left ∈ socket, left = result.2) ∧
      Attended { server with received := server.received ++ passedOn client.caller result.1 }
        client socket (server.attend client hangsUp result) ∧
      (server.attend client hangsUp result).received =
        server.received ++ passedOn client.caller result.1 := by
  rcases result with ⟨outcome, socket⟩
  have keeps (received : List (Caller × Bytes)) :
      Attended { server with received } client (some socket)
        ({ server with received }.keep client.fd socket) := by
    apply attended_keep
    · exact fds
    · exact member
  have own : ∀ left ∈ some socket, left = socket := by
    intro left same
    exact (Option.some.inj same).symm
  have gone : ∀ left ∈ (none : Option Socket), left = socket := by
    intro left found
    cases found
  cases outcome with
  | returned data =>
      by_cases nothing : data = []
      · simp only [attend, passedOn, if_pos nothing, List.append_nil]
        exact ⟨some socket, own, keeps server.received, rfl⟩
      · simp only [attend, passedOn, if_neg nothing]
        cases hangsUp with
        | true => exact ⟨none, gone, attended_dismiss _ client, rfl⟩
        | false => exact ⟨some socket, own, keeps _, rfl⟩
  | threw error =>
      cases error with
      | wouldBlockError =>
          simp only [attend, passedOn, List.append_nil]
          exact ⟨some socket, own, keeps server.received, rfl⟩
      | _ =>
          simp only [attend, passedOn, List.append_nil]
          exact ⟨none, gone, attended_dismiss server client, rfl⟩
  | unfinished => exact absurd rfl ends

/-- The round goes on behind a client that has been attended to: the messages up to
`reached` have been passed on, and what is left of the client is settled. -/
theorem Progress.attended (progress : Progress sent server count) {client : Client}
    (member : client ∈ server.clients) (least : ∀ fd ∈ server.readSet, client.fd ≤ fd)
    {after : Server} {socket : Option Socket} {received : List (Caller × Bytes)}
    (attended : Attended
      { server with readSet := server.readSet.filter (client.fd < ·), received }
      client socket after)
    {reached : Nat} (onward : count ≤ reached)
    (numbers : after.mirrored.map Prod.fst = List.range reached)
    (messages : after.mirrored.map Prod.snd = sent.take reached)
    (passed : ∀ number, count ≤ number → number < reached → client.caller = .mirror number)
    (settled : ∀ number, client.caller = .mirror number → number < reached)
    (left : ∀ after ∈ socket, after.nonBlocking = true ∧
      ∀ number, client.caller = .mirror number →
        sent[number]? = some after.removed ∧ after.arrived = []) :
    Progress sent after reached := by
  have members : ∀ peer ∈ after.peers, peer ∈ server.pending ∨
      (∃ other ∈ server.clients, other.fd ≠ client.fd ∧ other.toPeer = peer) ∨
        ∃ rest ∈ socket, peer = { caller := client.caller, socket := rest } := by
    intro peer found
    rcases mem_peers.mp found with waits | ⟨other, accepted, rfl⟩
    · rw [attended.pending] at waits
      exact Or.inl waits
    · rcases attended.clients other accepted with ⟨old, distinct⟩ | ⟨rest, kept, rfl⟩
      · exact Or.inr (Or.inl ⟨other, old, distinct, rfl⟩)
      · exact Or.inr (Or.inr ⟨rest, kept, rfl⟩)
  -- A message passed on just now is the client's own.
  have own : ∀ number, number < reached → ∀ caller, caller = .mirror number →
      caller ≠ client.caller → number < count := by
    intro number less caller same distinct
    by_contra later
    exact distinct (same.trans (passed number (Nat.le_of_not_lt later) less).symm)
  constructor
  · exact numbers
  · exact messages
  · have callers := progress.callers
    rw [peers, List.map_append] at callers ⊢
    rw [attended.pending]
    exact callers.sublist (attended.callers.append_left _)
  · intro peer found
    rw [attended.connected]
    rcases members peer found with waits | ⟨other, accepted, _, rfl⟩ | ⟨rest, _, rfl⟩
    · exact progress.connected peer (mem_peers.mpr (Or.inl waits))
    · exact progress.connected other.toPeer (toPeer_mem_peers accepted)
    · exact progress.connected client.toPeer (toPeer_mem_peers member)
  · intro number less
    rw [attended.connected]
    by_cases before : number < count
    · exact progress.passed number before
    · rw [← passed number (Nat.le_of_not_lt before) less]
      exact progress.connected client.toPeer (toPeer_mem_peers member)
  · intro number later known
    rw [attended.connected] at known
    obtain ⟨peer, found, same⟩ :=
      List.mem_map.mp (progress.present number (onward.trans later) known)
    rw [← same]
    apply List.mem_map_of_mem
    rcases mem_peers.mp found with waits | ⟨other, accepted, rfl⟩
    · apply mem_peers.mpr
      rw [attended.pending]
      exact Or.inl waits
    · apply toPeer_mem_peers
      apply attended.kept other accepted
      intro sameFd
      obtain rfl := eq_of_fd_eq progress.fds accepted member sameFd
      exact absurd (settled number same) (Nat.not_lt.mpr later)
  · intro peer found number less same
    rcases members peer found with waits | ⟨other, accepted, distinct, rfl⟩ | ⟨rest, kept, rfl⟩
    · have before := own number less peer.caller same (progress.pending_caller_ne waits member)
      exact progress.read peer (mem_peers.mpr (Or.inl waits)) number before same
    · have before := own number less other.caller same fun sameCaller =>
        distinct (congrArg Client.fd (progress.client_eq accepted member sameCaller))
      exact progress.read other.toPeer (toPeer_mem_peers accepted) number before same
    · exact (left rest kept).2 number same
  · intro peer found number later same
    rcases members peer found with waits | ⟨other, accepted, _, rfl⟩ | ⟨rest, _, rfl⟩
    · exact progress.unread peer (mem_peers.mpr (Or.inl waits)) number (onward.trans later) same
    · exact progress.unread other.toPeer (toPeer_mem_peers accepted) number (onward.trans later)
        same
    · exact absurd (settled number same) (Nat.not_lt.mpr later)
  · rw [attended.listener]
    exact progress.fds.sublist (attended.fds.cons_cons _)
  · intro other found
    rcases attended.clients other found with ⟨old, _⟩ | ⟨rest, kept, rfl⟩
    · exact progress.nonBlocking other old
    · exact (left rest kept).1
  · intro fd found
    rw [attended.readSet] at found
    rcases List.mem_filter.mp found with ⟨old, above⟩
    rw [attended.listener]
    rcases progress.round fd old with listens | accepted
    · exact Or.inl listens
    · rcases List.mem_map.mp accepted with ⟨other, otherMember, rfl⟩
      exact Or.inr (List.mem_map_of_mem
        (attended.kept other otherMember (Nat.ne_of_gt (of_decide_eq_true above))))
  · intro other found set number later same
    rw [attended.readSet] at set
    rcases List.mem_filter.mp set with ⟨old, above⟩
    have higher : client.fd < other.fd := of_decide_eq_true above
    have otherMember : other ∈ server.clients := by
      rcases attended.clients other found with ⟨known, _⟩ | ⟨rest, _, rfl⟩
      · exact known
      · exact absurd higher (Nat.lt_irrefl _)
    obtain ⟨whole, before⟩ := progress.due other otherMember old number (onward.trans later) same
    refine ⟨whole, ?_⟩
    intro earlier less
    rcases before earlier less with passed | ⟨first, firstMember, mirrors, firstSet, below⟩
    · exact Or.inl (Nat.lt_of_lt_of_le passed onward)
    · by_cases here : first.fd = client.fd
      · obtain rfl := eq_of_fd_eq progress.fds firstMember member here
        exact Or.inl (settled earlier mirrors)
      · have beyond : client.fd < first.fd :=
          Nat.lt_of_le_of_ne (least first.fd firstSet) (Ne.symm here)
        refine Or.inr ⟨first, attended.kept first firstMember here, mirrors, ?_, below⟩
        rw [attended.readSet]
        exact List.mem_filter.mpr ⟨firstSet, decide_eq_true beyond⟩

/-- The listening socket has been served. -/
theorem Progress.listened (progress : Progress sent server count)
    (least : ∀ fd ∈ server.readSet, server.listener ≤ fd) :
    Progress sent { server with readSet := server.readSet.filter (server.listener < ·) } count where
  numbers := progress.numbers
  messages := progress.messages
  callers := progress.callers
  connected := progress.connected
  passed := progress.passed
  present := progress.present
  read := progress.read
  unread := progress.unread
  fds := progress.fds
  nonBlocking := progress.nonBlocking
  round fd found := progress.round fd (List.mem_of_mem_filter found)
  due client member set number later same := by
    obtain ⟨whole, before⟩ :=
      progress.due client member (List.mem_of_mem_filter set) number later same
    refine ⟨whole, ?_⟩
    intro earlier less
    rcases before earlier less with passed | ⟨other, found, mirrors, otherSet, below⟩
    · exact Or.inl passed
    · have above : server.listener < other.fd :=
        Nat.lt_of_le_of_ne (least other.fd otherSet) (Ne.symm (fd_ne_listener progress.fds found))
      exact Or.inr ⟨other, found, mirrors, List.mem_filter.mpr ⟨otherSet, decide_eq_true above⟩,
        below⟩

/-- A connection is accepted, and gets a descriptor of its own. -/
theorem Progress.admit (progress : Progress sent server count) {peer : Peer} {rest : List Peer}
    (first : server.pending = peer :: rest) {fd : Nat} (fresh : fd ≠ server.listener)
    (unused : fd ∉ server.clients.map Client.fd) :
    Progress sent
      { server with
        pending := rest
        clients := server.clients ++
          [{ peer with socket := { peer.socket with nonBlocking := true }, fd }] } count := by
  let client : Client := { peer with socket := { peer.socket with nonBlocking := true }, fd }
  let after : Server :=
    { server with pending := rest, clients := server.clients ++ [client] }
  have peers_eq : server.peers = peer :: (rest ++ server.clients.map Client.toPeer) := by
    rw [peers, first, List.cons_append]
  have head : peer ∈ server.peers := by
    rw [peers_eq]
    exact List.mem_cons_self
  have perm : (after.peers.map Peer.caller).Perm (server.peers.map Peer.caller) := by
    have after_eq :
        after.peers = (rest ++ server.clients.map Client.toPeer) ++ [client.toPeer] := by
      rw [peers, List.map_append, List.append_assoc]
      rfl
    rw [after_eq, peers_eq, List.map_append, List.map_cons]
    exact List.perm_append_singleton _ _
  have members : ∀ other ∈ after.peers, other ∈ server.peers ∨ other = client.toPeer := by
    intro other found
    rcases mem_peers.mp found with waits | ⟨accepted, member, rfl⟩
    · apply Or.inl
      rw [peers_eq]
      exact List.mem_cons_of_mem _ (List.mem_append_left _ waits)
    · rcases List.mem_append.mp member with old | new
      · exact Or.inl (toPeer_mem_peers old)
      · rw [List.mem_singleton.mp new]
        exact Or.inr rfl
  have descriptors : after.clients.map Client.fd = server.clients.map Client.fd ++ [fd] := by
    rw [List.map_append]
    rfl
  change Progress sent after count
  constructor
  · exact progress.numbers
  · exact progress.messages
  · exact perm.nodup_iff.mpr progress.callers
  · intro other found
    rcases members other found with old | rfl
    · exact progress.connected other old
    · exact progress.connected peer head
  · exact progress.passed
  · intro number later known
    exact perm.mem_iff.mpr (progress.present number later known)
  · intro other found number less same
    rcases members other found with old | rfl
    · exact progress.read other old number less same
    · exact progress.read peer head number less same
  · intro other found number later same
    rcases members other found with old | rfl
    · exact progress.unread other old number later same
    · exact progress.unread peer head number later same
  · rw [descriptors]
    have nodup := List.nodup_cons.mp progress.fds
    rw [List.nodup_cons, List.mem_append, List.mem_singleton]
    constructor
    · rintro (old | same)
      · exact nodup.1 old
      · exact fresh same.symm
    · exact List.nodup_append_comm.mp (List.nodup_cons.mpr ⟨unused, nodup.2⟩)
  · intro other found
    rcases List.mem_append.mp found with old | new
    · exact progress.nonBlocking other old
    · rw [List.mem_singleton.mp new]
  · intro ready found
    rw [descriptors]
    rcases progress.round ready found with listens | old
    · exact Or.inl listens
    · exact Or.inr (List.mem_append_left _ old)
  · intro other found set number later same
    rcases List.mem_append.mp found with old | new
    · obtain ⟨whole, before⟩ := progress.due other old set number later same
      refine ⟨whole, ?_⟩
      intro earlier less
      rcases before earlier less with passed | ⟨third, known, mirrors, thirdSet, below⟩
      · exact Or.inl passed
      · exact Or.inr ⟨third, List.mem_append_left _ known, mirrors, thirdSet, below⟩
    -- The new descriptor is not in the read set of this round.
    · obtain rfl := List.mem_singleton.mp new
      rcases progress.round fd set with listens | old
      · exact absurd listens fresh
      · exact absurd old unused

/-- A connection of some other client is accepted and closed. -/
theorem Progress.refuse (progress : Progress sent server count) {peer : Peer} {rest : List Peer}
    (first : server.pending = peer :: rest) (other : peer.caller.number = none) :
    Progress sent { server with pending := rest } count := by
  let after : Server := { server with pending := rest }
  have peers_eq : server.peers = peer :: after.peers := by
    rw [peers, first, List.cons_append]
    rfl
  have members : ∀ other ∈ after.peers, other ∈ server.peers := by
    intro other found
    rw [peers_eq]
    exact List.mem_cons_of_mem _ found
  change Progress sent after count
  constructor
  · exact progress.numbers
  · exact progress.messages
  · have callers := progress.callers
    rw [peers_eq, List.map_cons] at callers
    exact (List.nodup_cons.mp callers).2
  · intro one found
    exact progress.connected one (members one found)
  · exact progress.passed
  · intro number later known
    have found := progress.present number later known
    rw [peers_eq, List.map_cons] at found
    rcases List.mem_cons.mp found with same | behind
    · rw [← same] at other
      cases other
    · exact behind
  · intro one found
    exact progress.read one (members one found)
  · intro one found
    exact progress.unread one (members one found)
  · exact progress.fds
  · exact progress.nonBlocking
  · exact progress.round
  · exact progress.due

theorem Progress.accept (progress : Progress sent server count) {fd : Nat}
    (fresh : fd ≠ server.listener ∧ fd ∉ server.clients.map Client.fd)
    (free : ∀ peer ∈ server.pending.head?, peer.caller.number.isSome = true →
      server.clients.length < server.maxConnections) :
    Progress sent (server.accept fd) count := by
  rw [Server.accept]
  split
  · exact progress
  · next peer rest first =>
      split
      · exact progress.admit first fresh.1 fresh.2
      · next full =>
          apply progress.refuse first
          rw [first] at free
          cases number : peer.caller.number with
          | none => rfl
          | some number => exact absurd (free peer rfl (by rw [number]; rfl)) full

/-- What is passed on for a client is at the end of what has been passed on. -/
theorem mirrored_append {after : Server} {entries : List (Caller × Bytes)}
    (received : after.received = server.received ++ entries) :
    after.mirrored = server.mirrored ++ entries.filterMap fun (caller, data) =>
      caller.number.map fun number => (number, data) := by
  rw [mirrored, received, List.filterMap_append]
  rfl

/-- A client that passes nothing on leaves the count as it is. -/
theorem Progress.attend_silent (progress : Progress sent server count) {client : Client}
    (member : client ∈ server.clients) (least : ∀ fd ∈ server.readSet, client.fd ≤ fd)
    (turns : List Turn) (hangsUp : Bool)
    (ends : (receiveData client.socket [] turns).1 ≠ .unfinished)
    (silent : (passedOn client.caller (receiveData client.socket [] turns).1).filterMap
      (fun (caller, data) => caller.number.map fun number => (number, data)) = [])
    (settled : ∀ number, client.caller = .mirror number → number < count ∧
      sent[number]? = some (receiveData client.socket [] turns).2.removed ∧
        (receiveData client.socket [] turns).2.arrived = []) :
    Progress sent
      ({ server with readSet := server.readSet.filter (client.fd < ·) }.attend client hangsUp
        (receiveData client.socket [] turns)) count := by
  let opened : Server := { server with readSet := server.readSet.filter (client.fd < ·) }
  obtain ⟨socket, own, attended, received⟩ :=
    attended_attend opened progress.fds member hangsUp _ ends
  have mirrored := mirrored_append received
  rw [silent, List.append_nil] at mirrored
  apply progress.attended member least attended (Nat.le_refl count)
  · rw [mirrored]
    exact progress.numbers
  · rw [mirrored]
    exact progress.messages
  · intro number later less
    exact absurd less (Nat.not_lt.mpr later)
  · intro number same
    exact (settled number same).1
  · intro left kept
    rw [own left kept]
    constructor
    · rw [receiveData_nonBlocking]
      exact progress.nonBlocking client member
    · intro number same
      exact (settled number same).2

/-- A client that is not a mirroring tracker does not matter. -/
theorem Progress.attend_other (progress : Progress sent server count) {client : Client}
    (member : client ∈ server.clients) (least : ∀ fd ∈ server.readSet, client.fd ≤ fd)
    (other : client.caller.number = none) (turns : List Turn) (hangsUp : Bool)
    (ends : (receiveData client.socket [] turns).1 ≠ .unfinished) :
    Progress sent
      ({ server with readSet := server.readSet.filter (client.fd < ·) }.attend client hangsUp
        (receiveData client.socket [] turns)) count := by
  apply progress.attend_silent member least turns hangsUp ends
  · cases (receiveData client.socket [] turns).1 with
    | returned data =>
        rw [passedOn]
        split
        · rfl
        · simp only [List.filterMap_cons, List.filterMap_nil, other, Option.map_none]
    | _ => rfl
  · intro number same
    rw [same] at other
    cases other

/-- Nothing is left to read on a mirror connection whose message was passed on. -/
theorem Progress.attend_read (progress : Progress sent server count) {client : Client}
    (member : client ∈ server.clients) (least : ∀ fd ∈ server.readSet, client.fd ≤ fd)
    {number : Nat} (mirrors : client.caller = .mirror number) (less : number < count)
    (turns : List Turn) (hangsUp : Bool)
    (ends : (receiveData client.socket [] turns).1 ≠ .unfinished)
    (continues : Continues sent number client.socket (turns.flatMap Turn.arrives)) :
    Progress sent
      ({ server with readSet := server.readSet.filter (client.fd < ·) }.attend client hangsUp
        (receiveData client.socket [] turns)) count := by
  obtain ⟨found, drained⟩ :=
    progress.read client.toPeer (toPeer_mem_peers member) number less mirrors
  have silent : turns.flatMap Turn.arrives = [] :=
    arrives_nothing continues (by rw [drained, List.append_nil]; exact found)
  cases turns with
  | nil => exact absurd rfl ends
  | cons turn turns =>
      have nothing : turn.arrives = [] :=
        List.flatMap_eq_nil_iff.mp silent turn List.mem_cons_self
      have mode := progress.nonBlocking client member
      obtain ⟨error, throws⟩ :
          ∃ error, receiveData client.socket [] (turn :: turns) =
            (.threw error, client.socket.deliver turn) :=
        receiveData_drained nothing drained mode
      apply progress.attend_silent member least (turn :: turns) hangsUp ends
      · rw [throws]
        rfl
      · intro place same
        obtain rfl : number = place := Caller.mirror.inj (mirrors.symm.trans same)
        rw [throws]
        refine ⟨less, ?_, ?_⟩
        · rw [Socket.deliver_removed]
          exact found
        · rw [Socket.deliver_nothing nothing]
          exact drained

/-- The next message is read as a whole and passed on. -/
theorem Progress.attend_due (progress : Progress sent server count) {client : Client}
    (uneven : ∀ message ∈ sent, message.length % bufferSize ≠ 0)
    (member : client ∈ server.clients) (least : ∀ fd ∈ server.readSet, client.fd ≤ fd)
    (set : client.fd ∈ server.readSet)
    {number : Nat} (mirrors : client.caller = .mirror number) (later : count ≤ number)
    (turns : List Turn) (hangsUp : Bool)
    (ends : (receiveData client.socket [] turns).1 ≠ .unfinished)
    (continues : Continues sent number client.socket (turns.flatMap Turn.arrives))
    (generous : ∀ turn ∈ turns, bufferSize ≤ turn.take) :
    Progress sent
      ({ server with readSet := server.readSet.filter (client.fd < ·) }.attend client hangsUp
        (receiveData client.socket [] turns)) (count + 1) := by
  obtain ⟨whole, before⟩ := progress.due client member set number later mirrors
  have unread := progress.unread client.toPeer (toPeer_mem_peers member) number later mirrors
  -- Every earlier message is passed on already: nothing below is in the read set.
  obtain rfl : number = count := by
    apply Nat.le_antisymm _ later
    by_contra beyond
    rcases before count (Nat.lt_of_not_le beyond) with passed | ⟨other, _, _, otherSet, below⟩
    · exact absurd passed (Nat.lt_irrefl count)
    · exact absurd (least other.fd otherSet) (Nat.not_le.mpr below)
  have silent : turns.flatMap Turn.arrives = [] :=
    arrives_nothing continues (by rw [unread, List.nil_append]; exact whole)
  have prompt : ∀ turn ∈ turns, turn.arrives = [] ∧ bufferSize ≤ turn.take := by
    intro turn member
    exact ⟨List.flatMap_eq_nil_iff.mp silent turn member, generous turn member⟩
  have length := uneven client.socket.arrived (List.mem_of_getElem? whole)
  obtain ⟨socket, returns, empty, removed, mode⟩ :=
    receiveData_whole client.socket [] turns prompt length ends
  have something : client.socket.arrived ≠ [] := by
    intro nothing
    rw [nothing] at length
    exact length rfl
  let opened : Server := { server with readSet := server.readSet.filter (client.fd < ·) }
  rw [returns, List.nil_append] at ends ⊢
  obtain ⟨rest, own, attended, received⟩ :=
    attended_attend opened progress.fds member hangsUp _ ends
  have mirrored := mirrored_append received
  rw [passedOn, if_neg something, mirrors] at mirrored
  apply progress.attended member least attended (Nat.le_succ number)
  · rw [mirrored, List.map_append, List.range_succ]
    exact congrArg (· ++ [number]) progress.numbers
  · rw [mirrored, List.map_append, List.take_add_one, whole]
    exact congrArg (· ++ [client.socket.arrived]) progress.messages
  · intro place least less
    rw [mirrors, Nat.le_antisymm least (Nat.le_of_lt_succ less)]
  · intro place same
    rw [← Caller.mirror.inj (mirrors.symm.trans same)]
    exact Nat.lt_succ_self number
  · intro left kept
    rw [own left kept]
    refine ⟨mode.trans (progress.nonBlocking client member), ?_⟩
    intro place same
    rw [← Caller.mirror.inj (mirrors.symm.trans same), removed, unread, List.nil_append]
    exact ⟨whole, empty⟩

/-- One descriptor of the read set is served. -/
theorem Progress.serve (progress : Progress sent server count)
    (uneven : ∀ message ∈ sent, message.length % bufferSize ≠ 0) {fd : Nat} {turns : List Turn}
    {hangsUp : Bool} (genuine : server.Genuine sent (.serve fd turns hangsUp))
    (orderly : server.Orderly sent (.serve fd turns hangsUp)) :
    ∃ reached, Progress sent (server.step (.serve fd turns hangsUp)) reached := by
  rw [step]
  cases first : server.readSet.min? with
  | none => exact ⟨count, progress⟩
  | some ready =>
      rcases List.min?_eq_some_iff.mp first with ⟨set, least⟩
      simp only [serveDescriptor]
      by_cases listens : ready = server.listener
      · subst listens
        rw [if_pos rfl]
        exact ⟨count, (progress.listened least).accept (genuine.1 first) (orderly.1 first)⟩
      · rw [if_neg listens]
        cases found : server.clients.find? fun client => client.fd = ready with
        | none =>
            rcases progress.round ready set with same | accepted
            · exact absurd same listens
            · rcases List.mem_map.mp accepted with ⟨client, member, same⟩
              have absent := List.find?_eq_none.mp found client member
              exact absurd (decide_eq_true same) absent
        | some client =>
            have member := List.mem_of_find?_eq_some found
            have same := List.find?_some found
            simp only [decide_eq_true_eq] at same
            subst same
            obtain ⟨ends, continues⟩ := genuine.2 client member first
            have generous := orderly.2 client member first
            cases caller : client.caller with
            | other number =>
                exact ⟨count, progress.attend_other member least (by rw [caller]; rfl) turns hangsUp
                  ends⟩
            | mirror number =>
                have mirrors : number ∈ client.caller.number := by
                  rw [caller]
                  rfl
                by_cases less : number < count
                · exact ⟨count, progress.attend_read member least caller less turns hangsUp ends
                    (continues number mirrors)⟩
                · exact ⟨count + 1, progress.attend_due uneven member least set caller
                    (Nat.le_of_not_lt less) turns hangsUp ends (continues number mirrors)
                    (generous (by rw [caller]; rfl))⟩

theorem Progress.step (progress : Progress sent server count)
    (uneven : ∀ message ∈ sent, message.length % bufferSize ≠ 0) {event : ServerEvent}
    (genuine : server.Genuine sent event) (orderly : server.Orderly sent event) :
    ∃ reached, Progress sent (server.step event) reached := by
  cases event with
  | connect caller => exact ⟨count, progress.connect genuine.1⟩
  | arrive caller turn => exact ⟨count, progress.arrive genuine⟩
  | select => exact ⟨count, progress.select orderly⟩
  | serve fd turns hangsUp => exact progress.serve uneven genuine orderly

theorem Progress.run (events : List ServerEvent) (progress : Progress sent server count)
    (uneven : ∀ message ∈ sent, message.length % bufferSize ≠ 0)
    (genuine : server.Along (Genuine sent) events) (orderly : server.Along (Orderly sent) events) :
    ∃ reached, Progress sent (server.run events) reached := by
  induction events generalizing server count with
  | nil => exact ⟨count, progress⟩
  | cons event events ih =>
      obtain ⟨next, nextProgress⟩ := progress.step uneven genuine.1 orderly.1
      exact ih nextProgress genuine.2 orderly.2

/-- Once every connection is gone, every message has been passed on. -/
theorem Progress.complete (progress : Progress sent server count)
    (handled : server.Handled sent) : server.mirrored.map Prod.snd = sent := by
  rw [progress.messages]
  apply List.take_of_length_le
  by_contra short
  obtain ⟨known, notPending, notOpen⟩ := handled count (Nat.lt_of_not_le short)
  rcases List.mem_map.mp (progress.present count (Nat.le_refl _) known) with ⟨peer, member, same⟩
  rcases mem_peers.mp member with waits | ⟨client, accepted, rfl⟩
  · exact notPending peer waits same
  · exact notOpen client accepted same

end Steps

/-- A server passes on what a mirroring tracker has sent, each message once and in
order. -/
theorem mirrored_eq_sent {sent : List Bytes} (listener maxConnections : Nat)
    (uneven : ∀ message ∈ sent, message.length % bufferSize ≠ 0) (events : List ServerEvent)
    (genuine : (start listener maxConnections).Along (Genuine sent) events)
    (orderly : (start listener maxConnections).Along (Orderly sent) events)
    (handled : ((start listener maxConnections).run events).Handled sent) :
    ((start listener maxConnections).run events).mirrored.map Prod.snd = sent := by
  obtain ⟨count, progress⟩ := (start_progress listener maxConnections).run events uneven genuine
    orderly
  exact progress.complete handled

end Server

end P2PFileShare
