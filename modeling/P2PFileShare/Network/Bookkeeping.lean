import P2PFileShare.Network.Server
import Mathlib.Data.Finset.Basic

/-!
# The bookkeeping of a server

`TCPServer::serveRequests` keeps the descriptors it listens on twice: in
`active_fd_set`, and as the `socket_fd` of the objects in `clients`.  Here both are
part of the state, every path through the loop changes them as the code does, and the
calls of `onConnect`, `onData` and `onDisconnect` are recorded.  What arrives, what
`receive_data` makes of it and how `onData` behaves is left open.
-/

namespace P2PFileShare

open Text

/-- `FD_SETSIZE`. -/
def fdSetSize : Nat :=
  1024

/-- A `TCPSocket` in the list of clients.  The objects are numbered as `accept` makes
them, and no descriptor stands for `-1`. -/
structure Session where
  object : Nat
  socketFd : Option Nat
  deriving DecidableEq

/-- The calls of the functions that the owner of the server has set. -/
inductive Callback
  | onConnect (client : Nat)
  | onData (client : Nat) (data : Bytes)
  | onDisconnect (client : Nat)
  deriving DecidableEq

def Callback.client : Callback → Nat
  | onConnect client => client
  | onData client _ => client
  | onDisconnect client => client

/-- How `onData` behaves.  When it throws, it has not disconnected the client. -/
inductive Reaction
  | returns
  | disconnects
  | throws (error : NetworkError)
  deriving DecidableEq

/-- What `receive_data` makes of data that has arrived, and how `onData` behaves if it
is called. -/
inductive Arrival
  | received (data : Bytes) (reaction : Reaction)
  | threw (error : NetworkError)
  deriving DecidableEq

/-- The loop of `serveRequests`.  `readSet` holds what is left of `read_fd_set` for the
inner loop, `accepted` counts the objects that `accept` has made.  `admitted` records
which of them were put into the list, and `callbacks` what was called; no code reads
them. -/
structure ServiceLoop where
  listener : Nat
  maxConnections : Nat
  activeSet : Finset Nat
  readSet : List Nat := []
  clients : List Session := []
  accepted : Nat := 0
  admitted : Finset Nat := ∅
  callbacks : List Callback := []
  deriving DecidableEq

/-- `select` returns; or the inner loop comes to the next descriptor of the read set.
If it is the listening one, `connection` is the descriptor of the new connection, else
`arrival` is what happens there. -/
inductive LoopEvent
  | select (ready : Finset Nat)
  | serve (connection : Nat) (arrival : Arrival)
  deriving DecidableEq

namespace ServiceLoop

/-- `TCPServer server(maxConnections)`, in front of the loop. -/
def start (listener maxConnections : Nat) : ServiceLoop where
  listener
  maxConnections :=
    if hardConnectionLimit ≤ maxConnections then hardConnectionLimit - 1 else maxConnections
  activeSet := {listener}

variable (loop : ServiceLoop)

/-- A callback is called. -/
def call (callback : Callback) : ServiceLoop :=
  { loop with callbacks := loop.callbacks ++ [callback] }

/-- The branch of a connection request.  A client for which there is no room is
disconnected before anybody has seen it. -/
def acceptClient (connection : Nat) : ServiceLoop :=
  let client : Session := { object := loop.accepted, socketFd := some connection }
  let loop := { loop with accepted := loop.accepted + 1 }
  if loop.clients.length < loop.maxConnections then
    { loop with
      activeSet := insert connection loop.activeSet
      clients := loop.clients ++ [client]
      admitted := insert client.object loop.admitted }.call (.onConnect client.object)
  else loop

/-- `FD_CLR(fd, &active_fd_set)`, `clients.erase(it)` and `onDisconnect(client)`. -/
def dismiss (fd : Option Nat) (client : Session) : ServiceLoop :=
  { loop with
    activeSet :=
      match fd with
      | some fd => loop.activeSet.erase fd
      | none => loop.activeSet
    clients := loop.clients.filter fun other => other.object ≠ client.object }.call
      (.onDisconnect client.object)

/-- The branch of a connected client, found at the descriptor `i`. -/
def attend (i : Nat) (client : Session) : Arrival → ServiceLoop
  | .received data reaction =>
      if data = [] then loop
      else
        let loop := loop.call (.onData client.object data)
        match reaction with
        | .returns => loop
        -- `client->socket_fd` is `-1` by now, so the index of the loop is cleared.
        | .disconnects => loop.dismiss (some i) client
        | .throws .wouldBlockError => loop
        | .throws _ => loop.dismiss client.socketFd client
  | .threw .wouldBlockError => loop
  | .threw _ => loop.dismiss client.socketFd client

/-- The body of the inner loop for a descriptor of the read set. -/
def serveDescriptor (i connection : Nat) (arrival : Arrival) : ServiceLoop :=
  if i = loop.listener then loop.acceptClient connection
  else
    match loop.clients.find? fun client => client.socketFd = some i with
    | some client => loop.attend i client arrival
    | none => loop

def step : LoopEvent → ServiceLoop
  | .select ready =>
      if loop.readSet = [] then
        { loop with
          readSet := (List.range fdSetSize).filter fun i => i ∈ loop.activeSet ∧ i ∈ ready }
      else loop
  | .serve connection arrival =>
      match loop.readSet with
      | [] => loop
      | i :: readSet => { loop with readSet }.serveDescriptor i connection arrival

/-- A connection gets a descriptor below `FD_SETSIZE` that is not in use. -/
def Possible : LoopEvent → Prop
  | .select _ => True
  | .serve connection _ =>
      loop.readSet.head? = some loop.listener →
        connection < fdSetSize ∧ connection ≠ loop.listener ∧
          ∀ client ∈ loop.clients, client.socketFd ≠ some connection

/-- The loop after a sequence of events. -/
def run (loop : ServiceLoop) (events : List LoopEvent) : ServiceLoop :=
  events.foldl step loop

/-- Every event of a sequence is possible when its turn comes. -/
def PossibleRun : ServiceLoop → List LoopEvent → Prop
  | _, [] => True
  | loop, event :: events => loop.Possible event ∧ PossibleRun (loop.step event) events

/-- The calls for one client, in order. -/
def history (client : Nat) : List Callback :=
  loop.callbacks.filter fun callback => callback.client = client

/-- The two structures agree. -/
structure Bookkept : Prop where
  active : ∀ fd, fd ∈ loop.activeSet ∧ fd ≠ loop.listener ↔
    ∃ client ∈ loop.clients, client.socketFd = some fd
  listening : loop.listener ∈ loop.activeSet
  valid : ∀ client ∈ loop.clients, client.socketFd ≠ none
  distinct : (loop.clients.map Session.socketFd).Nodup
  capacity : loop.clients.length ≤ loop.maxConnections

/-- A client that was admitted has been announced once, then its data, and at the end
of the connection it has been taken leave of once.  Nothing is called for any other
object. -/
structure Attended : Prop where
  admitted : ∀ client ∈ loop.admitted, ∃ received : List Bytes,
    loop.history client = .onConnect client :: (received.map (.onData client) ++
      if client ∈ loop.clients.map Session.object then [] else [.onDisconnect client])
  others : ∀ client ∉ loop.admitted, loop.history client = []

/-- The objects are told apart by their numbers. -/
structure Numbered : Prop where
  objects : (loop.clients.map Session.object).Nodup
  listed : ∀ client ∈ loop.clients, client.object ∈ loop.admitted
  made : ∀ object ∈ loop.admitted, object < loop.accepted

section Steps

variable {loop} {client : Session}

theorem history_call (callback : Callback) (object : Nat) :
    (loop.call callback).history object =
      loop.history object ++ if callback.client = object then [callback] else [] := by
  simp only [history, call, List.filter_append, List.filter_cons, List.filter_nil,
    decide_eq_true_eq]

/-! ### Admission -/

theorem Bookkept.admit (bookkept : loop.Bookkept) (room : loop.clients.length < loop.maxConnections)
    {connection : Nat} (notListener : connection ≠ loop.listener)
    (fresh : ∀ client ∈ loop.clients, client.socketFd ≠ some connection) :
    (loop.acceptClient connection).Bookkept := by
  rcases bookkept with ⟨active, listening, valid, distinct, capacity⟩
  simp only [acceptClient, room, if_true, call]
  constructor
  · intro fd
    simp only [Finset.mem_insert, List.mem_append, List.mem_singleton]
    constructor
    · rintro ⟨rfl | old, other⟩
      · exact ⟨_, Or.inr rfl, rfl⟩
      · rcases (active fd).mp ⟨old, other⟩ with ⟨client, listed, holds⟩
        exact ⟨client, Or.inl listed, holds⟩
    · rintro ⟨client, listed | rfl, holds⟩
      · rcases (active fd).mpr ⟨client, listed, holds⟩ with ⟨old, other⟩
        exact ⟨Or.inr old, other⟩
      · cases holds
        exact ⟨Or.inl rfl, notListener⟩
  · exact Finset.mem_insert_of_mem listening
  · intro client listed
    rcases List.mem_append.mp listed with old | new
    · exact valid client old
    · rw [List.mem_singleton.mp new]
      exact Option.some_ne_none connection
  · rw [List.map_append, List.map_singleton]
    refine List.Nodup.append distinct (List.nodup_singleton _) ?_
    intro holds old new
    rcases List.mem_map.mp old with ⟨client, listed, rfl⟩
    exact fresh client listed (List.mem_singleton.mp new)
  · simp only [List.length_append, List.length_singleton]
    omega

theorem Attended.admit (attended : loop.Attended) (numbered : loop.Numbered)
    (room : loop.clients.length < loop.maxConnections) (connection : Nat) :
    (loop.acceptClient connection).Attended := by
  have unknown : loop.accepted ∉ loop.admitted := by
    intro member
    exact absurd (numbered.made _ member) (Nat.lt_irrefl _)
  have silent := attended.others _ unknown
  simp only [acceptClient, room, if_true]
  constructor
  · intro client member
    rw [history_call]
    simp only [call, Callback.client, Finset.mem_insert] at member ⊢
    rcases member with rfl | old
    · refine ⟨[], ?_⟩
      change loop.history loop.accepted ++ _ = _
      simp [silent]
    · have other : loop.accepted ≠ client := fun same => unknown (same ▸ old)
      rcases attended.admitted client old with ⟨received, history_eq⟩
      refine ⟨received, ?_⟩
      change loop.history client ++ _ = _
      rw [history_eq]
      simp [other, Ne.symm other]
  · intro client stranger
    rw [history_call]
    simp only [call, Callback.client, Finset.mem_insert, not_or] at stranger ⊢
    change loop.history client ++ _ = _
    simp [attended.others client stranger.2, Ne.symm stranger.1]

theorem Numbered.admit (numbered : loop.Numbered)
    (room : loop.clients.length < loop.maxConnections) (connection : Nat) :
    (loop.acceptClient connection).Numbered := by
  rcases numbered with ⟨objects, listed, made⟩
  simp only [acceptClient, room, if_true, call]
  constructor
  · rw [List.map_append, List.map_singleton]
    refine List.Nodup.append objects (List.nodup_singleton _) ?_
    intro object old new
    rcases List.mem_map.mp old with ⟨client, member, rfl⟩
    have earlier := made _ (listed client member)
    rw [List.mem_singleton.mp new] at earlier
    exact absurd earlier (Nat.lt_irrefl _)
  · intro client member
    rcases List.mem_append.mp member with old | new
    · exact Finset.mem_insert_of_mem (listed client old)
    · rw [List.mem_singleton.mp new]
      exact Finset.mem_insert_self _ _
  · intro object member
    rcases Finset.mem_insert.mp member with rfl | old
    · exact Nat.lt_succ_self _
    · exact Nat.lt_succ_of_lt (made object old)

/-! ### Data -/

/-- Data for a client that is listed is recorded behind what came before. -/
theorem Attended.data (attended : loop.Attended) (numbered : loop.Numbered)
    (listed : client ∈ loop.clients) (data : Bytes) :
    (loop.call (.onData client.object data)).Attended := by
  constructor
  · intro object member
    rw [history_call]
    rcases attended.admitted object member with ⟨received, history_eq⟩
    rw [history_eq]
    by_cases same : client.object = object
    · subst same
      have present : client.object ∈ loop.clients.map Session.object :=
        List.mem_map_of_mem listed
      refine ⟨received ++ [data], ?_⟩
      simp [call, Callback.client, present]
    · refine ⟨received, ?_⟩
      simp [call, Callback.client, same]
  · intro object stranger
    rw [history_call, attended.others object stranger]
    have other : client.object ≠ object :=
      fun same => stranger (same ▸ numbered.listed client listed)
    simp [Callback.client, other]

/-! ### Dismissal -/

theorem Bookkept.dismiss (bookkept : loop.Bookkept) (numbered : loop.Numbered)
    (listed : client ∈ loop.clients) {fd : Nat} (holds : client.socketFd = some fd) :
    (loop.dismiss (some fd) client).Bookkept := by
  rcases bookkept with ⟨active, listening, valid, distinct, capacity⟩
  have sameFd : ∀ other ∈ loop.clients, other.socketFd = some fd → other = client := by
    intro other member shares
    exact List.inj_on_of_nodup_map distinct member listed (shares.trans holds.symm)
  have sameObject : ∀ other ∈ loop.clients, other.object = client.object → other = client := by
    intro other member shares
    exact List.inj_on_of_nodup_map numbered.objects member listed shares
  have kept : ∀ other, other ∈ loop.clients.filter (fun other => other.object ≠ client.object) ↔
      other ∈ loop.clients ∧ other.object ≠ client.object := by
    intro other
    rw [List.mem_filter, decide_eq_true_eq]
  simp only [ServiceLoop.dismiss, call]
  constructor
  · intro number
    rw [Finset.mem_erase, and_assoc, active number]
    constructor
    · rintro ⟨different, other, member, uses⟩
      refine ⟨other, (kept other).mpr ⟨member, ?_⟩, uses⟩
      intro same
      rw [sameObject other member same, holds] at uses
      exact different (Option.some.inj uses).symm
    · rintro ⟨other, member, uses⟩
      rcases (kept other).mp member with ⟨inside, different⟩
      refine ⟨?_, other, inside, uses⟩
      rintro rfl
      exact different (congrArg Session.object (sameFd other inside uses))
  · apply Finset.mem_erase.mpr
    constructor
    · intro same
      exact ((active fd).mpr ⟨client, listed, holds⟩).2 same.symm
    · exact listening
  · intro other member
    exact valid other (List.mem_of_mem_filter member)
  · exact distinct.sublist (List.Sublist.map _ List.filter_sublist)
  · exact (List.length_filter_le _ _).trans capacity

theorem Attended.dismiss (attended : loop.Attended) (numbered : loop.Numbered)
    (listed : client ∈ loop.clients) (fd : Option Nat) :
    (loop.dismiss fd client).Attended := by
  constructor
  · intro object member
    rcases attended.admitted object member with ⟨received, history_eq⟩
    refine ⟨received, ?_⟩
    simp only [ServiceLoop.dismiss, history_call]
    change loop.history object ++ _ = _
    rw [history_eq]
    by_cases same : client.object = object
    · subst same
      have present : client.object ∈ loop.clients.map Session.object :=
        List.mem_map_of_mem listed
      have gone : client.object ∉
          (loop.clients.filter fun other => other.object ≠ client.object).map Session.object := by
        simp
      simp only [call, Callback.client, present, gone, if_true, if_false, List.append_nil,
        List.cons_append]
    · have unchanged :
          object ∈ (loop.clients.filter fun other => other.object ≠ client.object).map
              Session.object ↔ object ∈ loop.clients.map Session.object := by
        simp only [List.mem_map, List.mem_filter, decide_eq_true_eq]
        constructor
        · rintro ⟨other, ⟨inside, _⟩, rfl⟩
          exact ⟨other, inside, rfl⟩
        · rintro ⟨other, inside, rfl⟩
          exact ⟨other, ⟨inside, Ne.symm same⟩, rfl⟩
      simp only [call, Callback.client, same, if_false, List.append_nil, unchanged]
  · intro object stranger
    simp only [ServiceLoop.dismiss, history_call]
    change loop.history object ++ _ = _
    have other : client.object ≠ object :=
      fun same => stranger (same ▸ numbered.listed client listed)
    rw [attended.others object stranger]
    simp [Callback.client, other]

theorem Numbered.dismiss (numbered : loop.Numbered) (fd : Option Nat) (client : Session) :
    (loop.dismiss fd client).Numbered := by
  rcases numbered with ⟨objects, listed, made⟩
  constructor
  · exact objects.sublist (List.Sublist.map _ List.filter_sublist)
  · intro other member
    exact listed other (List.mem_of_mem_filter member)
  · exact made

/-! ### The loop -/

/-- What holds at every loop head. -/
structure Invariant (loop : ServiceLoop) : Prop where
  bookkept : loop.Bookkept
  attended : loop.Attended
  numbered : loop.Numbered

theorem Invariant.acceptClient (invariant : loop.Invariant) {connection : Nat}
    (notListener : connection ≠ loop.listener)
    (fresh : ∀ client ∈ loop.clients, client.socketFd ≠ some connection) :
    (loop.acceptClient connection).Invariant := by
  rcases invariant with ⟨bookkept, attended, numbered⟩
  by_cases room : loop.clients.length < loop.maxConnections
  · constructor
    · exact bookkept.admit room notListener fresh
    · exact attended.admit numbered room connection
    · exact numbered.admit room connection
  · -- The client is refused; its number is not used again.
    simp only [ServiceLoop.acceptClient, if_neg room]
    constructor
    · exact ⟨bookkept.active, bookkept.listening, bookkept.valid, bookkept.distinct,
        bookkept.capacity⟩
    · exact ⟨attended.admitted, attended.others⟩
    · exact ⟨numbered.objects, numbered.listed,
        fun object member => Nat.lt_succ_of_lt (numbered.made object member)⟩

theorem Invariant.data (invariant : loop.Invariant) (listed : client ∈ loop.clients)
    (data : Bytes) : (loop.call (.onData client.object data)).Invariant := by
  rcases invariant with ⟨bookkept, attended, numbered⟩
  constructor
  · exact ⟨bookkept.active, bookkept.listening, bookkept.valid, bookkept.distinct,
      bookkept.capacity⟩
  · exact attended.data numbered listed data
  · exact ⟨numbered.objects, numbered.listed, numbered.made⟩

theorem Invariant.dismiss (invariant : loop.Invariant) (listed : client ∈ loop.clients)
    {fd : Nat} (holds : client.socketFd = some fd) :
    (loop.dismiss (some fd) client).Invariant := by
  rcases invariant with ⟨bookkept, attended, numbered⟩
  constructor
  · exact bookkept.dismiss numbered listed holds
  · exact attended.dismiss numbered listed (some fd)
  · exact numbered.dismiss (some fd) client

theorem Invariant.attend (invariant : loop.Invariant) (listed : client ∈ loop.clients)
    {i : Nat} (holds : client.socketFd = some i) (arrival : Arrival) :
    (loop.attend i client arrival).Invariant := by
  have dismissed := invariant.dismiss listed holds
  cases arrival with
  | threw error =>
      simp only [ServiceLoop.attend, holds]
      cases error with
      | wouldBlockError => exact invariant
      | connectionClosedError => exact dismissed
      | networkError => exact dismissed
  | received data reaction =>
      by_cases empty : data = []
      · simp only [ServiceLoop.attend, if_pos empty]
        exact invariant
      · simp only [ServiceLoop.attend, if_neg empty, holds]
        have called := invariant.data listed data
        have gone := called.dismiss listed holds
        cases reaction with
        | returns => exact called
        | disconnects => exact gone
        | throws error =>
            cases error with
            | wouldBlockError => exact called
            | connectionClosedError => exact gone
            | networkError => exact gone

theorem Invariant.readSet (invariant : loop.Invariant) (readSet : List Nat) :
    Invariant { loop with readSet } := by
  rcases invariant with ⟨bookkept, attended, numbered⟩
  constructor
  · exact ⟨bookkept.active, bookkept.listening, bookkept.valid, bookkept.distinct,
      bookkept.capacity⟩
  · exact ⟨attended.admitted, attended.others⟩
  · exact ⟨numbered.objects, numbered.listed, numbered.made⟩

theorem Invariant.step (invariant : loop.Invariant) {event : LoopEvent}
    (possible : loop.Possible event) : (loop.step event).Invariant := by
  cases event with
  | select ready =>
      simp only [ServiceLoop.step]
      split
      · exact invariant.readSet _
      · exact invariant
  | serve connection arrival =>
      simp only [ServiceLoop.step]
      split
      · exact invariant
      · next i readSet remaining =>
          have rest := invariant.readSet readSet
          simp only [serveDescriptor]
          split
          · next listening =>
              have first : loop.readSet.head? = some loop.listener := by
                rw [remaining, ← listening]
                rfl
              rcases possible first with ⟨_, notListener, fresh⟩
              exact rest.acceptClient notListener fresh
          · split
            · next client found =>
                have listed := List.mem_of_find?_eq_some found
                have holds := List.find?_some found
                exact rest.attend listed (of_decide_eq_true holds) arrival
            · exact rest

theorem Invariant.run (invariant : loop.Invariant) {events : List LoopEvent}
    (possible : loop.PossibleRun events) : (loop.run events).Invariant := by
  induction events generalizing loop with
  | nil => exact invariant
  | cons event events ih =>
      rcases possible with ⟨first, others⟩
      exact ih (invariant.step first) others

theorem invariant_start (listener maxConnections : Nat) :
    (start listener maxConnections).Invariant := by
  constructor
  · constructor
    · intro fd
      simp [start]
    · exact Finset.mem_singleton_self listener
    · intro client member
      cases member
    · exact List.nodup_nil
    · exact Nat.zero_le _
  · constructor
    · intro client member
      exact absurd member (Finset.notMem_empty client)
    · intro client _
      rfl
  · constructor
    · exact List.nodup_nil
    · intro client member
      cases member
    · intro object member
      exact absurd member (Finset.notMem_empty object)

end Steps

/-- At every loop head, the two structures agree, and the callbacks have been called as
they should be. -/
theorem bookkept_run (listener maxConnections : Nat) (events : List LoopEvent)
    (possible : (start listener maxConnections).PossibleRun events) :
    ((start listener maxConnections).run events).Bookkept ∧
      ((start listener maxConnections).run events).Attended := by
  have invariant := (invariant_start listener maxConnections).run possible
  exact ⟨invariant.bookkept, invariant.attended⟩

instance (loop : ServiceLoop) : (event : LoopEvent) → Decidable (loop.Possible event)
  | .select _ => isTrue trivial
  | .serve connection _ =>
      inferInstanceAs (Decidable (loop.readSet.head? = some loop.listener →
        connection < fdSetSize ∧ connection ≠ loop.listener ∧
          ∀ client ∈ loop.clients, client.socketFd ≠ some connection))

instance decidablePossibleRun :
    (loop : ServiceLoop) → (events : List LoopEvent) → Decidable (loop.PossibleRun events)
  | _, [] => isTrue trivial
  | loop, event :: events =>
      have : Decidable ((loop.step event).PossibleRun events) := decidablePossibleRun _ events
      inferInstanceAs (Decidable (loop.Possible event ∧ (loop.step event).PossibleRun events))

/-- Two clients are admitted and a third one is not; one hangs up from `onData`, and
receiving from the other one fails. -/
def threeCallers : List LoopEvent :=
  [.select {3}, .serve 5 (.threw .wouldBlockError), .select {3},
    .serve 6 (.threw .wouldBlockError), .select {3, 5}, .serve 7 (.threw .wouldBlockError),
    .serve 0 (.received [104, 105] .returns), .select {5, 6},
    .serve 0 (.received [98, 121, 101] .disconnects), .serve 0 (.threw .connectionClosedError)]

theorem bookkept_threeCallers :
    (start 3 2).PossibleRun threeCallers ∧
      ((start 3 2).run threeCallers).callbacks =
        [.onConnect 0, .onConnect 1, .onData 0 [104, 105], .onData 0 [98, 121, 101],
          .onDisconnect 0, .onDisconnect 1] ∧
      ((start 3 2).run threeCallers).Bookkept ∧ ((start 3 2).run threeCallers).Attended :=
  have possible : (start 3 2).PossibleRun threeCallers := by decide +kernel
  ⟨possible, by decide +kernel, bookkept_run 3 2 threeCallers possible⟩

end ServiceLoop

end P2PFileShare
