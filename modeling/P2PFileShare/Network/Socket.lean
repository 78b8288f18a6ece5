import P2PFileShare.Models.Platform

/-!
# Receiving from a socket

`TCPSocket::receive_data` over a model of the receiving end of a connection.
What the network does is a schedule: one turn for every `recv`, which says what
arrives before the call returns and how much of it the call hands out.
-/

namespace P2PFileShare

open Text

/-- The receiving end of a connection.  `removed` records what `recv` has taken
out so far; no code reads it. -/
structure Socket where
  arrived : Bytes := []
  closed : Bool := false
  nonBlocking : Bool := false
  removed : Bytes := []
  deriving DecidableEq

/-- What the network does around one `recv`: the bytes that arrive, whether the
peer closes behind them, and how many bytes are handed out if there are enough. -/
structure Turn where
  arrives : Bytes := []
  closes : Bool := false
  take : Nat := 1024
  deriving DecidableEq

/-- What one `recv` returns.  A blocking `recv` returns only when there is
something to return. -/
inductive Recv
  | chunk (bytes : Bytes)
  | closed
  | wouldBlock
  | blocked
  deriving DecidableEq

/-- `constexpr ssize_t buffer_size`. -/
def bufferSize : Nat :=
  1024

namespace Socket

/-- Bytes arrive until the peer has closed. -/
def deliver (socket : Socket) (turn : Turn) : Socket :=
  if socket.closed then socket
  else { socket with arrived := socket.arrived ++ turn.arrives, closed := turn.closes }

/-- How many bytes a `recv` hands out: at least one, and no more than asked for
or present. -/
def chunkSize (socket : Socket) (turn : Turn) : Nat :=
  min (max 1 (min turn.take bufferSize)) socket.arrived.length

/-- The first bytes leave the socket. -/
def remove (socket : Socket) (count : Nat) : Socket :=
  { socket with
    arrived := socket.arrived.drop count
    removed := socket.removed ++ socket.arrived.take count }

/-- `::recv(socket_fd, buffer, buffer_size, peek ? MSG_PEEK : 0)`. -/
def recv (socket : Socket) (peek : Bool) (turn : Turn) : Recv × Socket :=
  let socket := socket.deliver turn
  if socket.arrived = [] then
    if socket.closed then (.closed, socket)
    else if socket.nonBlocking then (.wouldBlock, socket)
    else (.blocked, socket)
  else
    let count := socket.chunkSize turn
    (.chunk (socket.arrived.take count), if peek then socket else socket.remove count)

end Socket

/-- How a call ends, if it does within its schedule. -/
inductive Received
  | returned (data : Bytes)
  | threw (error : NetworkError)
  | unfinished
  deriving DecidableEq

/-- `receive_data(true)`: the loop ends with the first `recv`. -/
def peekData (socket : Socket) (turn : Turn) : Received × Socket :=
  match socket.recv true turn with
  | (.chunk bytes, socket) => (.returned bytes, socket)
  | (.closed, socket) => (.threw .connectionClosedError, socket)
  | (.wouldBlock, socket) => (.threw .wouldBlockError, socket)
  | (.blocked, socket) => (.unfinished, socket)

/-- `receive_data(false)` with the data read so far. -/
def receiveData (socket : Socket) (data : Bytes) : List Turn → Received × Socket
  | [] => (.unfinished, socket)
  | turn :: turns =>
      match socket.recv false turn with
      | (.closed, socket) =>
          (if data = [] then .threw .connectionClosedError else .returned data, socket)
      | (.wouldBlock, socket) =>
          (if data = [] then .threw .wouldBlockError else .returned data, socket)
      | (.blocked, socket) => (.unfinished, socket)
      | (.chunk bytes, socket) =>
          if bytes.length < bufferSize then (.returned (data ++ bytes), socket)
          else
            match turns with
            | [] => (.unfinished, socket)
            | turn :: turns =>
                match peekData socket turn with
                | (.returned [], socket) => (.returned (data ++ bytes), socket)
                | (.returned _, socket) => receiveData socket (data ++ bytes) turns
                | (.threw error, socket) => (.threw error, socket)
                | (.unfinished, socket) => (.unfinished, socket)

/-! ## When no byte is lost -/

/-- A call returns exactly the bytes it removed, or it throws and has removed
none. -/
def Lossless (before : Socket) : Received × Socket → Prop
  | (.returned data, after) => after.removed = before.removed ++ data
  | (.threw _, after) => after.removed = before.removed
  | (.unfinished, _) => True

/-- Everything that has arrived by the end of some turns, had nothing been
removed. -/
def Socket.seen (socket : Socket) (turns : List Turn) : Socket :=
  turns.foldl Socket.deliver socket

/-- The first `count` removing calls each find a full buffer and are handed all of
it.  They are the turns with even numbers. -/
def FullBuffers (socket : Socket) (turns : List Turn) (count : Nat) : Prop :=
  ∀ index < count, ∃ turn, turns[2 * index]? = some turn ∧ bufferSize ≤ turn.take ∧
    bufferSize * (index + 1) ≤ (socket.seen (turns.take (2 * index + 1))).arrived.length

/-- When that many full buffers have been removed, the peek that follows sees
another byte. -/
def SeesMore (socket : Socket) (turns : List Turn) (count : Nat) : Prop :=
  bufferSize * count < (socket.seen (turns.take (2 * count))).arrived.length

/-- Whenever a call has removed nothing but full buffers, and every peek so far
saw more, then so does the next peek; a blocking socket may instead stay open, in
which case the peek waits. -/
def Fed (socket : Socket) (turns : List Turn) : Prop :=
  ∀ count, 0 < count → 2 * count ≤ turns.length → FullBuffers socket turns count →
    (∀ earlier, 0 < earlier → earlier < count → SeesMore socket turns earlier) →
      SeesMore socket turns count ∨
        (socket.nonBlocking = false ∧ (socket.seen (turns.take (2 * count))).closed = false)

namespace Socket

variable {socket : Socket} {turn : Turn} {turns : List Turn}

@[simp]
theorem deliver_nonBlocking : (socket.deliver turn).nonBlocking = socket.nonBlocking := by
  rw [deliver]
  split <;> rfl

@[simp]
theorem deliver_removed : (socket.deliver turn).removed = socket.removed := by
  rw [deliver]
  split <;> rfl

theorem seen_cons : socket.seen (turn :: turns) = (socket.deliver turn).seen turns :=
  rfl

/-- Two sockets that see the same deliveries, one of which has some bytes fewer. -/
structure Behind (count : Nat) (socket other : Socket) : Prop where
  length : other.arrived.length + count = socket.arrived.length
  closed : other.closed = socket.closed
  nonBlocking : other.nonBlocking = socket.nonBlocking

theorem behind_remove {count : Nat} (present : count ≤ socket.arrived.length) :
    Behind count socket (socket.remove count) where
  length := by
    simp only [remove, List.length_drop]
    omega
  closed := rfl
  nonBlocking := rfl

theorem Behind.deliver {count : Nat} {other : Socket} (behind : Behind count socket other)
    (turn : Turn) : Behind count (socket.deliver turn) (other.deliver turn) := by
  rcases behind with ⟨length, closed, nonBlocking⟩
  constructor
  · simp only [Socket.deliver, closed]
    split
    · exact length
    · simp only [List.length_append]
      omega
  · simp only [Socket.deliver, closed]
    split
    · exact closed
    · rfl
  · rw [deliver_nonBlocking, deliver_nonBlocking, nonBlocking]

theorem Behind.seen {count : Nat} {other : Socket} (behind : Behind count socket other)
    (turns : List Turn) : Behind count (socket.seen turns) (other.seen turns) := by
  induction turns generalizing socket other with
  | nil => exact behind
  | cons turn turns ih => exact ih (behind.deliver turn)

end Socket

section Fed

variable {socket later : Socket} {first second : Turn} {turns : List Turn}

/-- The first call finds a full buffer and is handed all of it. -/
def FullBuffer (socket : Socket) (turn : Turn) : Prop :=
  bufferSize ≤ turn.take ∧ bufferSize ≤ (socket.deliver turn).arrived.length

theorem FullBuffers.head {count : Nat} (positive : 0 < count)
    (full : FullBuffers socket (first :: turns) count) : FullBuffer socket first := by
  obtain ⟨turn, found, take, arrived⟩ := full 0 positive
  obtain rfl := Option.some.inj found
  exact ⟨take, by simpa [Socket.seen] using arrived⟩

/-- What the turns behind the first two say about the socket from which one full
buffer was removed. -/
theorem fullBuffers_succ
    (behind : Socket.Behind bufferSize ((socket.deliver first).deliver second) later)
    {count : Nat} :
    FullBuffers socket (first :: second :: turns) (count + 1) ↔
      FullBuffer socket first ∧ FullBuffers later turns count := by
  have shift (index : Nat) :
      bufferSize * (index + 1 + 1) ≤ (socket.seen
          ((first :: second :: turns).take (2 * (index + 1) + 1))).arrived.length ↔
        bufferSize * (index + 1) ≤ (later.seen (turns.take (2 * index + 1))).arrived.length := by
    have length := (behind.seen (turns.take (2 * index + 1))).length
    rw [show 2 * (index + 1) + 1 = 2 * index + 1 + 2 by omega, List.take_succ_cons,
      List.take_succ_cons, Socket.seen_cons, Socket.seen_cons, ← length, Nat.mul_succ]
    omega
  constructor
  · intro full
    refine ⟨full.head (Nat.succ_pos count), ?_⟩
    intro index bound
    obtain ⟨turn, found, take, arrived⟩ := full (index + 1) (by omega)
    exact ⟨turn, found, take, (shift index).mp arrived⟩
  · rintro ⟨⟨take, arrived⟩, full⟩ index bound
    cases index with
    | zero => exact ⟨first, rfl, take, by simpa [Socket.seen] using arrived⟩
    | succ index =>
        obtain ⟨turn, found, take, arrived⟩ := full index (by omega)
        exact ⟨turn, found, take, (shift index).mpr arrived⟩

theorem seesMore_succ
    (behind : Socket.Behind bufferSize ((socket.deliver first).deliver second) later)
    {count : Nat} :
    SeesMore socket (first :: second :: turns) (count + 1) ↔ SeesMore later turns count := by
  have length := (behind.seen (turns.take (2 * count))).length
  rw [SeesMore, SeesMore, show 2 * (count + 1) = 2 * count + 2 by omega, List.take_succ_cons,
    List.take_succ_cons, Socket.seen_cons, Socket.seen_cons, ← length, Nat.mul_succ]
  omega

/-- A call that does not begin with a full buffer is fed. -/
theorem fed_of_not_full (short : ¬FullBuffer socket first) : Fed socket (first :: turns) := by
  intro count positive _ full
  exact absurd (full.head positive) short

theorem fed_single : Fed socket [first] := by
  intro count positive bound
  simp only [List.length_singleton] at bound
  omega

/-- The condition, one full buffer and one peek at a time. -/
theorem fed_cons_cons (full : FullBuffer socket first)
    (behind : Socket.Behind bufferSize ((socket.deliver first).deliver second) later) :
    Fed socket (first :: second :: turns) ↔
      if later.arrived = [] then later.nonBlocking = false ∧ later.closed = false
      else Fed later turns := by
  have seesFirst : SeesMore later turns 0 ↔ later.arrived ≠ [] := by
    simp [SeesMore, Socket.seen, List.length_pos_iff]
  have waits (count : Nat) :
      (socket.nonBlocking = false ∧
          (socket.seen ((first :: second :: turns).take (2 * (count + 1)))).closed = false) ↔
        later.nonBlocking = false ∧ (later.seen (turns.take (2 * count))).closed = false := by
    have closed := (behind.seen (turns.take (2 * count))).closed
    have nonBlocking := behind.nonBlocking
    simp only [Socket.deliver_nonBlocking] at nonBlocking
    rw [show 2 * (count + 1) = 2 * count + 2 by omega, List.take_succ_cons,
      List.take_succ_cons, Socket.seen_cons, Socket.seen_cons, closed, nonBlocking]
  split
  · next empty =>
      have blind : ¬SeesMore later turns 0 := fun sees => seesFirst.mp sees empty
      constructor
      · intro fed
        have one := fed 1 Nat.one_pos (by simp) ((fullBuffers_succ behind).mpr
          ⟨full, fun index bound => absurd bound (Nat.not_lt_zero index)⟩) (by omega)
        rcases one with sees | waiting
        · exact absurd ((seesMore_succ behind).mp sees) blind
        · exact (waits 0).mp waiting
      · intro waiting count positive bound fullCount sees
        cases count with
        | zero => exact absurd positive (Nat.lt_irrefl 0)
        | succ count =>
            cases count with
            | zero => exact Or.inr ((waits 0).mpr waiting)
            | succ count =>
                have early := sees 1 Nat.one_pos (by omega)
                exact absurd ((seesMore_succ behind).mp early) blind
  · next present =>
      have sight : SeesMore later turns 0 := seesFirst.mpr present
      constructor
      · intro fed count positive bound fullCount sees
        have next := fed (count + 1) (Nat.succ_pos count)
          (by simp only [List.length_cons]; omega) ((fullBuffers_succ behind).mpr ⟨full, fullCount⟩)
        rw [seesMore_succ behind, waits count] at next
        apply next
        intro earlier before after
        obtain ⟨earlier, rfl⟩ := Nat.exists_eq_succ_of_ne_zero (Nat.ne_of_gt before)
        rw [Nat.succ_eq_add_one, seesMore_succ behind]
        by_cases start : earlier = 0
        · rw [start]
          exact sight
        · exact sees earlier (Nat.pos_of_ne_zero start) (by omega)
      · intro fed count positive bound fullCount sees
        obtain ⟨count, rfl⟩ := Nat.exists_eq_succ_of_ne_zero (Nat.ne_of_gt positive)
        rw [Nat.succ_eq_add_one] at bound fullCount sees ⊢
        rw [seesMore_succ behind, waits count]
        by_cases start : count = 0
        · rw [start]
          exact Or.inl sight
        · apply fed count (Nat.pos_of_ne_zero start)
          · simp only [List.length_cons] at bound
            omega
          · exact ((fullBuffers_succ behind).mp fullCount).2
          · intro earlier before after
            exact (seesMore_succ behind).mp (sees (earlier + 1) (Nat.succ_pos earlier) (by omega))

end Fed

/-! ## The equivalence -/

section Lossless

variable {before socket : Socket} {data : Bytes}

/-- A `recv` that hands out less than a full buffer did not find one. -/
theorem Socket.chunk_short_iff {turn : Turn} (present : (socket.deliver turn).arrived ≠ []) :
    ((socket.deliver turn).arrived.take ((socket.deliver turn).chunkSize turn)).length <
        bufferSize ↔ ¬FullBuffer socket turn := by
  have positive : 0 < (socket.deliver turn).arrived.length := List.length_pos_iff.mpr present
  rw [List.length_take, FullBuffer, Socket.chunkSize]
  simp only [bufferSize]
  omega

theorem FullBuffer.present {turn : Turn} (full : FullBuffer socket turn) :
    (socket.deliver turn).arrived ≠ [] := by
  intro empty
  have arrived := full.2
  rw [empty] at arrived
  exact absurd arrived (by decide)

theorem Socket.chunkSize_of_full {turn : Turn} (full : FullBuffer socket turn) :
    (socket.deliver turn).chunkSize turn = bufferSize := by
  rcases full with ⟨take, arrived⟩
  rw [Socket.chunkSize]
  simp only [bufferSize] at take arrived ⊢
  omega

/-- Nothing is there: the call ends with what it has. -/
theorem receiveData_empty {turn : Turn} {turns : List Turn}
    (empty : (socket.deliver turn).arrived = []) :
    receiveData socket data (turn :: turns) =
      (if (socket.deliver turn).closed then
          if data = [] then .threw .connectionClosedError else .returned data
        else if socket.nonBlocking then
          if data = [] then .threw .wouldBlockError else .returned data
        else .unfinished, socket.deliver turn) := by
  simp only [receiveData, Socket.recv, if_pos empty, Socket.deliver_nonBlocking]
  cases (socket.deliver turn).closed with
  | true => rfl
  | false => cases socket.nonBlocking <;> rfl

/-- Less than a full buffer ends the call. -/
theorem receiveData_short {turn : Turn} {turns : List Turn}
    (present : (socket.deliver turn).arrived ≠ []) (short : ¬FullBuffer socket turn) :
    receiveData socket data (turn :: turns) =
      (.returned (data ++
          (socket.deliver turn).arrived.take ((socket.deliver turn).chunkSize turn)),
        (socket.deliver turn).remove ((socket.deliver turn).chunkSize turn)) := by
  have less := (Socket.chunk_short_iff present).mpr short
  simp only [receiveData, Socket.recv, if_neg present, if_pos less, Bool.false_eq_true, if_false]

/-- Behind a full buffer, the peek decides. -/
theorem receiveData_full {first second : Turn} {turns : List Turn} {later : Socket}
    (full : FullBuffer socket first)
    (later_eq : later = ((socket.deliver first).remove bufferSize).deliver second) :
    receiveData socket data (first :: second :: turns) =
      if later.arrived = [] then
        (if later.closed then .threw .connectionClosedError
          else if later.nonBlocking then .threw .wouldBlockError
          else .unfinished, later)
      else
        receiveData later (data ++ (socket.deliver first).arrived.take bufferSize) turns := by
  have present := full.present
  have notLess : ¬((socket.deliver first).arrived.take
      ((socket.deliver first).chunkSize first)).length < bufferSize := fun less =>
    (Socket.chunk_short_iff present).mp less full
  rw [Socket.chunkSize_of_full full] at notLess
  subst later_eq
  simp only [receiveData, Socket.recv, if_neg present, Bool.false_eq_true, if_false,
    Socket.chunkSize_of_full full, if_neg notLess, peekData]
  generalize ((socket.deliver first).remove bufferSize).deliver second = later
  by_cases empty : later.arrived = []
  · simp only [if_pos empty]
    cases later.closed with
    | true => rfl
    | false => cases later.nonBlocking <;> rfl
  · have positive : 0 < later.arrived.length := List.length_pos_iff.mpr empty
    have ahead : later.arrived.take (later.chunkSize second) ≠ [] := by
      rw [← List.length_pos_iff, List.length_take, Socket.chunkSize]
      omega
    simp only [if_neg empty, if_true]

theorem receiveData_last {turn : Turn} (full : FullBuffer socket turn) :
    receiveData socket data [turn] =
      (.unfinished, (socket.deliver turn).remove ((socket.deliver turn).chunkSize turn)) := by
  have present : (socket.deliver turn).arrived ≠ [] := full.present
  have notLess := fun less => (Socket.chunk_short_iff present).mp less full
  simp only [receiveData, Socket.recv, if_neg present, if_neg notLess, Bool.false_eq_true, if_false]

/-- A call that removes nothing more returns what it has, or throws without data. -/
theorem lossless_of_empty {turn : Turn} {turns : List Turn}
    (removed : socket.removed = before.removed ++ data)
    (empty : (socket.deliver turn).arrived = []) :
    Lossless before (receiveData socket data (turn :: turns)) := by
  have kept : (socket.deliver turn).removed = before.removed ++ data := by
    rw [Socket.deliver_removed, removed]
  have ends (error : NetworkError) :
      Lossless before (if data = [] then .threw error else .returned data,
        socket.deliver turn) := by
    by_cases nothing : data = []
    · rw [if_pos nothing]
      rw [nothing, List.append_nil] at kept
      exact kept
    · rw [if_neg nothing]
      exact kept
  rw [receiveData_empty empty]
  by_cases closed : (socket.deliver turn).closed = true
  · rw [if_pos closed]
    exact ends _
  · rw [if_neg closed]
    by_cases mode : socket.nonBlocking = true
    · rw [if_pos mode]
      exact ends _
    · rw [if_neg mode]
      trivial

theorem lossless_of_short {turn : Turn} {turns : List Turn}
    (removed : socket.removed = before.removed ++ data)
    (present : (socket.deliver turn).arrived ≠ []) (short : ¬FullBuffer socket turn) :
    Lossless before (receiveData socket data (turn :: turns)) := by
  rw [receiveData_short present short]
  simp only [Lossless, Socket.remove, Socket.deliver_removed, removed, List.append_assoc]

/-- A peek that sees nothing loses the full buffer in front of it, unless it
waits. -/
theorem lossless_of_blind {first second : Turn} (full : FullBuffer socket first)
    (removed : socket.removed = before.removed ++ data) :
    Lossless before
        (if (((socket.deliver first).remove bufferSize).deliver second).closed then
            .threw .connectionClosedError
          else if (((socket.deliver first).remove bufferSize).deliver second).nonBlocking then
            .threw .wouldBlockError
          else .unfinished,
          ((socket.deliver first).remove bufferSize).deliver second) ↔
      (((socket.deliver first).remove bufferSize).deliver second).nonBlocking = false ∧
        (((socket.deliver first).remove bufferSize).deliver second).closed = false := by
  have lost : (((socket.deliver first).remove bufferSize).deliver second).removed ≠
      before.removed := by
    rw [Socket.deliver_removed, Socket.remove, Socket.deliver_removed, removed,
      List.append_assoc]
    intro same
    have length := congrArg List.length same
    have arrived := full.2
    simp only [List.length_append, List.length_take, bufferSize] at length arrived
    omega
  generalize ((socket.deliver first).remove bufferSize).deliver second = later at lost ⊢
  cases later.closed with
  | true =>
      simp only [if_true, Bool.true_eq_false, and_false, iff_false]
      exact lost
  | false =>
      cases later.nonBlocking with
      | true =>
          simp only [Bool.false_eq_true, if_false, if_true, Bool.true_eq_false, false_and,
            iff_false]
          exact lost
      | false => exact iff_of_true trivial ⟨rfl, rfl⟩

/-- The recursion follows the schedule two turns at a time: a full buffer is
removed, and the peek sees more. -/
theorem lossless_iff_fed (before : Socket) :
    ∀ (turns : List Turn) (socket : Socket) (data : Bytes),
      socket.removed = before.removed ++ data →
        (Lossless before (receiveData socket data turns) ↔ Fed socket turns)
  | [], socket, data, removed => by
      have fed : Fed socket [] := by
        intro count positive bound
        simp only [List.length_nil] at bound
        omega
      exact iff_of_true trivial fed
  | [first], socket, data, removed => by
      apply iff_of_true _ fed_single
      by_cases empty : (socket.deliver first).arrived = []
      · exact lossless_of_empty removed empty
      · by_cases full : FullBuffer socket first
        · rw [receiveData_last full]
          trivial
        · exact lossless_of_short removed empty full
  | first :: second :: turns, socket, data, removed => by
      by_cases full : FullBuffer socket first
      · have behind := (Socket.behind_remove full.2).deliver second
        have recursion := lossless_iff_fed before turns
          (((socket.deliver first).remove bufferSize).deliver second)
          (data ++ (socket.deliver first).arrived.take bufferSize)
          (by rw [Socket.deliver_removed, Socket.remove, Socket.deliver_removed, removed,
            List.append_assoc])
        rw [receiveData_full full rfl, fed_cons_cons full behind]
        split
        · exact lossless_of_blind full removed
        · exact recursion
      · apply iff_of_true _ (fed_of_not_full full)
        by_cases empty : (socket.deliver first).arrived = []
        · exact lossless_of_empty removed empty
        · exact lossless_of_short removed empty full

/-- `receive_data` loses no byte exactly if the socket is fed: whenever it removes
nothing but full buffers, the next peek sees more. -/
theorem receiveData_lossless_iff (socket : Socket) (turns : List Turn) :
    Lossless socket (receiveData socket [] turns) ↔ Fed socket turns :=
  lossless_iff_fed socket turns socket [] (List.append_nil _).symm

/-- A call on a non-blocking socket ends: every two turns take a full buffer out of
what arrives in all. -/
theorem receiveData_finishes (buffers : Nat) {turns : List Turn}
    (mode : socket.nonBlocking = true)
    (bound : (socket.seen turns).arrived.length < bufferSize * buffers)
    (long : 2 * buffers ≤ turns.length) :
    (receiveData socket data turns).1 ≠ .unfinished := by
  induction buffers generalizing socket data turns with
  | zero => exact absurd bound (Nat.not_lt_zero _)
  | succ buffers ih =>
      rcases turns with _ | ⟨first, _ | ⟨second, turns⟩⟩
      · simp only [List.length_nil] at long
        omega
      · simp only [List.length_singleton] at long
        omega
      by_cases full : FullBuffer socket first
      · have behind := (Socket.behind_remove full.2).deliver second
        have arrived := (behind.seen turns).length
        have laterMode :
            (((socket.deliver first).remove bufferSize).deliver second).nonBlocking = true := by
          rw [behind.nonBlocking, Socket.deliver_nonBlocking, Socket.deliver_nonBlocking, mode]
        rw [Socket.seen_cons, Socket.seen_cons, ← arrived, Nat.mul_succ] at bound
        rw [receiveData_full full rfl, laterMode]
        split
        · simp only [if_true]
          split <;> simp
        · apply ih laterMode (by omega)
          simp only [List.length_cons] at long
          omega
      · by_cases empty : (socket.deliver first).arrived = []
        · rw [receiveData_empty empty, mode]
          simp only [if_true]
          split <;> split <;> simp
        · rw [receiveData_short empty full]
          simp

/-- A full buffer is lost if the peek behind it finds nothing on a non-blocking
socket. -/
theorem not_lossless_of_blind {first second : Turn} {turns : List Turn}
    (full : FullBuffer socket first)
    (empty : (((socket.deliver first).remove bufferSize).deliver second).arrived = [])
    (mode : socket.nonBlocking = true) :
    ¬Lossless socket (receiveData socket [] (first :: second :: turns)) := by
  have behind := (Socket.behind_remove full.2).deliver second
  intro lossless
  rw [lossless_iff_fed socket _ socket [] (List.append_nil _).symm, fed_cons_cons full behind,
    if_pos empty, behind.nonBlocking, Socket.deliver_nonBlocking, Socket.deliver_nonBlocking,
    mode] at lossless
  exact absurd lossless.1 (by decide)

/-! ### A message that has arrived -/

theorem Socket.deliver_nothing {turn : Turn} (nothing : turn.arrives = []) :
    (socket.deliver turn).arrived = socket.arrived := by
  rw [Socket.deliver]
  split
  · rfl
  · rw [nothing, List.append_nil]

/-- All that has arrived is returned, unless full buffers are all there is. -/
theorem receiveData_whole (socket : Socket) (data : Bytes) :
    ∀ turns : List Turn, (∀ turn ∈ turns, turn.arrives = [] ∧ bufferSize ≤ turn.take) →
      socket.arrived.length % bufferSize ≠ 0 →
        (receiveData socket data turns).1 ≠ .unfinished →
          ∃ after, receiveData socket data turns = (.returned (data ++ socket.arrived), after) ∧
            after.arrived = [] ∧ after.removed = socket.removed ++ socket.arrived ∧
            after.nonBlocking = socket.nonBlocking
  | [], _, _, ends => absurd rfl ends
  | first :: turns, prompt, uneven, ends => by
      rcases List.forall_mem_cons.mp prompt with ⟨⟨nothing, take⟩, others⟩
      have arrived : (socket.deliver first).arrived = socket.arrived :=
        Socket.deliver_nothing nothing
      by_cases full : FullBuffer socket first
      · cases turns with
        | nil =>
            rw [receiveData_last full] at ends
            exact absurd rfl ends
        | cons second turns =>
            rcases List.forall_mem_cons.mp others with ⟨⟨nothingMore, _⟩, rest⟩
            have long : bufferSize ≤ socket.arrived.length := by
              have long := full.2
              rw [arrived] at long
              exact long
            let later := ((socket.deliver first).remove bufferSize).deliver second
            have left : later.arrived = socket.arrived.drop bufferSize := by
              rw [Socket.deliver_nothing nothingMore, Socket.remove, arrived]
            have removed : later.removed = socket.removed ++ socket.arrived.take bufferSize := by
              rw [Socket.deliver_removed, Socket.remove, Socket.deliver_removed, arrived]
            have mode : later.nonBlocking = socket.nonBlocking := by
              rw [Socket.deliver_nonBlocking]
              exact Socket.deliver_nonBlocking
            have unevenLater : later.arrived.length % bufferSize ≠ 0 := by
              rw [left, List.length_drop, ← Nat.mod_eq_sub_mod long]
              exact uneven
            have more : later.arrived ≠ [] := by
              intro empty
              rw [empty] at unevenLater
              exact unevenLater rfl
            rw [receiveData_full full rfl, if_neg more] at ends ⊢
            obtain ⟨after, returns, empty, taken, kept⟩ :=
              receiveData_whole later _ turns rest unevenLater ends
            refine ⟨after, ?_, empty, ?_, kept.trans mode⟩
            · rw [returns, left, arrived, List.append_assoc, List.take_append_drop]
            · rw [taken, removed, left, List.append_assoc, List.take_append_drop]
      · have present : socket.arrived ≠ [] := by
          intro empty
          rw [empty] at uneven
          exact uneven rfl
        have short : socket.arrived.length < bufferSize := by
          rw [FullBuffer, arrived] at full
          omega
        have all : (socket.deliver first).chunkSize first = socket.arrived.length := by
          rw [Socket.chunkSize, arrived]
          omega
        have ready : (socket.deliver first).arrived ≠ [] := by
          rw [arrived]
          exact present
        rw [receiveData_short ready full, all, arrived, List.take_length]
        refine ⟨_, rfl, ?_, ?_, Socket.deliver_nonBlocking⟩
        · rw [Socket.remove, arrived, List.drop_length]
        · rw [Socket.remove, arrived, List.take_length, Socket.deliver_removed]

/-- A call does not change the blocking mode. -/
theorem receiveData_nonBlocking (socket : Socket) (data : Bytes) :
    ∀ turns : List Turn, (receiveData socket data turns).2.nonBlocking = socket.nonBlocking
  | [] => rfl
  | first :: turns => by
      by_cases empty : (socket.deliver first).arrived = []
      · rw [receiveData_empty empty]
        exact Socket.deliver_nonBlocking
      · by_cases full : FullBuffer socket first
        · cases turns with
          | nil =>
              rw [receiveData_last full]
              exact Socket.deliver_nonBlocking
          | cons second turns =>
              let later := ((socket.deliver first).remove bufferSize).deliver second
              have mode : later.nonBlocking = socket.nonBlocking := by
                rw [Socket.deliver_nonBlocking]
                exact Socket.deliver_nonBlocking
              rw [receiveData_full full rfl]
              split
              · exact mode
              · exact (receiveData_nonBlocking later _ turns).trans mode
        · rw [receiveData_short empty full]
          exact Socket.deliver_nonBlocking

/-- Nothing is left: a non-blocking call throws. -/
theorem receiveData_drained {turn : Turn} {turns : List Turn} (nothing : turn.arrives = [])
    (empty : socket.arrived = []) (mode : socket.nonBlocking = true) :
    ∃ error, receiveData socket [] (turn :: turns) = (.threw error, socket.deliver turn) := by
  have still : (socket.deliver turn).arrived = [] := by
    rw [Socket.deliver_nothing nothing, empty]
  rw [receiveData_empty still, mode]
  simp only [if_true]
  split
  · exact ⟨_, rfl⟩
  · exact ⟨_, rfl⟩

end Lossless

/-- A full buffer has arrived on a non-blocking socket, and nothing more. -/
def oneBuffer : Socket where
  arrived := List.replicate bufferSize 97
  nonBlocking := true

/-- The peek throws, and the buffer is gone. -/
theorem receiveData_loses_buffer : ¬Lossless oneBuffer (receiveData oneBuffer [] [{}, {}]) := by
  have delivered : (oneBuffer.deliver {}).arrived = List.replicate bufferSize 97 := by
    simp only [Socket.deliver, oneBuffer, Bool.false_eq_true, if_false, List.append_nil]
  apply not_lossless_of_blind
  · constructor
    · exact Nat.le_refl bufferSize
    · rw [delivered, List.length_replicate]
  · simp only [Socket.deliver, Socket.remove, oneBuffer, Bool.false_eq_true, if_false,
      List.append_nil, List.drop_replicate, Nat.sub_self, List.replicate_zero]
  · simp only [oneBuffer]

end P2PFileShare
