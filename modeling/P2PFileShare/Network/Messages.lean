import P2PFileShare.Network.Socket

/-!
# Messages in a stream of bytes

`TCPSocket::send_data` hands a message to `::send` once, and `receive_data` takes what
it finds for a message.  The bytes in between keep their order; nothing else about them
is sure.  So a message arrives as it was sent exactly if the kernel takes all of it and
its bytes then stay ahead of the calls that read them.
-/

namespace P2PFileShare

open Text

/-- What `::send` does: it takes over a number of bytes, or it fails. -/
inductive Send
  | accepts (count : Nat)
  | brokenPipe
  | wouldBlock
  | fails
  deriving DecidableEq

/-- `TCPSocket::send_data`: what it returns or throws, and the bytes that are on their
way behind it. -/
def sendData (data : Bytes) : Send → Except NetworkError Nat × Bytes
  | .accepts count => (.ok (min count data.length), data.take count)
  | .brokenPipe => (.error .connectionClosedError, [])
  | .wouldBlock => (.error .wouldBlockError, [])
  | .fails => (.error .networkError, [])

/-- How the kernel carries a message: what `::send` does, whether the receiving socket
blocks, and a turn for every `::recv` of the call that is first to find bytes of the
message.  What has arrived is the beginning of what was sent. -/
structure Carriage (message : Bytes) where
  send : Send
  nonBlocking : Bool
  turns : Nat → Turn
  begins : (turns 0).arrives ≠ []
  inOrder : ∀ count, (Socket.seen { nonBlocking } ((List.range count).map turns)).arrived <+:
    (sendData message send).2

namespace Carriage

variable {message : Bytes} (carriage : Carriage message)

/-- The receiving end, in front of the call. -/
def socket : Socket :=
  { nonBlocking := carriage.nonBlocking }

/-- The turns of the first calls of `::recv`. -/
def first (count : Nat) : List Turn :=
  (List.range count).map carriage.turns

/-- The number of bytes that the first calls of `::recv` can have seen. -/
def arrivedBy (count : Nat) : Nat :=
  (carriage.socket.seen (carriage.first count)).arrived.length

/-- `receive_data` returns the message. -/
def Received : Prop :=
  ∃ count, (receiveData carriage.socket [] (carriage.first count)).1 = .returned message

/-- The message does not end with a full buffer, and the kernel takes all of it.  Every
buffer but the last is full when it is read, and more has arrived when the peek behind it
looks; the rest has arrived when it is read. -/
def KeepsAhead : Prop :=
  message.length % bufferSize ≠ 0 ∧
    (∃ count, carriage.send = .accepts count ∧ message.length ≤ count) ∧
    (∀ index < message.length / bufferSize, bufferSize ≤ (carriage.turns (2 * index)).take ∧
      bufferSize * (index + 1) ≤ carriage.arrivedBy (2 * index + 1) ∧
        bufferSize * (index + 1) < carriage.arrivedBy (2 * index + 2)) ∧
      message.length % bufferSize ≤
          max 1 (carriage.turns (2 * (message.length / bufferSize))).take ∧
        carriage.arrivedBy (2 * (message.length / bufferSize) + 1) = message.length

end Carriage

/-! ## One call -/

namespace Socket

variable {socket : Socket} {count : Nat}

theorem length_deliver_le (turn : Turn) :
    socket.arrived.length ≤ (socket.deliver turn).arrived.length := by
  rw [deliver]
  split
  · exact Nat.le_refl _
  · simp

/-- Bytes may be removed before others arrive or after it. -/
theorem deliver_remove (present : count ≤ socket.arrived.length) (turn : Turn) :
    (socket.remove count).deliver turn = (socket.deliver turn).remove count := by
  rcases socket with ⟨arrived, closed, nonBlocking, removed⟩
  cases closed with
  | true => rfl
  | false =>
      simp only [deliver, remove, Bool.false_eq_true, if_false,
        List.drop_append_of_le_length present, List.take_append_of_le_length present]

theorem seen_remove (present : count ≤ socket.arrived.length) (turns : List Turn) :
    (socket.remove count).seen turns = (socket.seen turns).remove count := by
  induction turns generalizing socket with
  | nil => rfl
  | cons turn turns ih =>
      rw [seen_cons, seen_cons, deliver_remove present,
        ih (present.trans (length_deliver_le turn))]

end Socket

/-- The condition on a call with so many bytes to come, in terms of its turns. -/
def Ahead (socket : Socket) (turns : List Turn) (length : Nat) : Prop :=
  length % bufferSize ≠ 0 ∧ FullBuffers socket turns (length / bufferSize) ∧
    (∀ count, 0 < count → count ≤ length / bufferSize → SeesMore socket turns count) ∧
      ∃ turn, turns[2 * (length / bufferSize)]? = some turn ∧
        length % bufferSize ≤ max 1 turn.take ∧
          (socket.seen (turns.take (2 * (length / bufferSize) + 1))).arrived.length = length

section Ahead

variable {socket later : Socket} {first second : Turn} {turns : List Turn} {data whole : Bytes}
  {length : Nat}

theorem not_ahead_nil : ¬Ahead socket [] length := by
  rintro ⟨_, _, _, turn, found, _⟩
  cases found

/-- A call that is not handed a full buffer ends, and is ahead if that was all. -/
theorem ahead_of_short (short : ¬FullBuffer socket first) :
    Ahead socket (first :: turns) length ↔
      0 < length ∧ length < bufferSize ∧ length ≤ max 1 first.take ∧
        (socket.deliver first).arrived.length = length := by
  constructor
  · rintro ⟨uneven, full, _, turn, found, take, arrived⟩
    have none : length / bufferSize = 0 := by
      by_contra some
      exact short (full.head (Nat.pos_of_ne_zero some))
    have small : length < bufferSize := by
      rw [Nat.div_eq_zero_iff] at none
      exact none.resolve_left (by decide)
    rw [none] at found arrived
    obtain rfl := Option.some.inj found
    rw [Nat.mod_eq_of_lt small] at take uneven
    exact ⟨Nat.pos_of_ne_zero uneven, small, take, by simpa [Socket.seen] using arrived⟩
  · rintro ⟨positive, small, take, arrived⟩
    have none : length / bufferSize = 0 := Nat.div_eq_of_lt small
    have rest : length % bufferSize = length := Nat.mod_eq_of_lt small
    rw [Ahead, none, rest]
    refine ⟨Nat.ne_of_gt positive, ?_, ?_, first, rfl, take, by simpa [Socket.seen] using arrived⟩
    · intro index bound
      exact absurd bound (Nat.not_lt_zero index)
    · intro count positive bound
      omega

/-- Behind a full buffer, the peek has to see more, and the rest is as for a call of its
own. -/
theorem ahead_of_full (full : FullBuffer socket first)
    (behind : Socket.Behind bufferSize ((socket.deliver first).deliver second) later) :
    Ahead socket (first :: second :: turns) (length + bufferSize) ↔
      later.arrived ≠ [] ∧ Ahead later turns length := by
  have quotient : (length + bufferSize) / bufferSize = length / bufferSize + 1 :=
    Nat.add_div_right length (by decide)
  have rest : (length + bufferSize) % bufferSize = length % bufferSize :=
    Nat.add_mod_right length bufferSize
  have place : 2 * (length / bufferSize + 1) = 2 * (length / bufferSize) + 2 := by omega
  have sight : SeesMore later turns 0 ↔ later.arrived ≠ [] := by
    simp [SeesMore, Socket.seen, List.length_pos_iff]
  have arrived : (socket.seen ((first :: second :: turns).take
      (2 * (length / bufferSize) + 2 + 1))).arrived.length =
        (later.seen (turns.take (2 * (length / bufferSize) + 1))).arrived.length + bufferSize := by
    rw [show 2 * (length / bufferSize) + 2 + 1 = 2 * (length / bufferSize) + 1 + 2 by omega,
      List.take_succ_cons, List.take_succ_cons, Socket.seen_cons, Socket.seen_cons,
      ← (behind.seen (turns.take (2 * (length / bufferSize) + 1))).length]
  have sees_iff : (∀ count, 0 < count → count ≤ length / bufferSize + 1 →
        SeesMore socket (first :: second :: turns) count) ↔
      later.arrived ≠ [] ∧
        ∀ count, 0 < count → count ≤ length / bufferSize → SeesMore later turns count := by
    constructor
    · intro sees
      refine ⟨sight.mp ((seesMore_succ behind).mp (sees 1 Nat.one_pos (by omega))), ?_⟩
      intro count positive bound
      exact (seesMore_succ behind).mp (sees (count + 1) (by omega) (by omega))
    · rintro ⟨present, sees⟩ count positive bound
      obtain ⟨count, rfl⟩ := Nat.exists_eq_succ_of_ne_zero (Nat.ne_of_gt positive)
      rw [Nat.succ_eq_add_one, seesMore_succ behind]
      by_cases start : count = 0
      · rw [start]
        exact sight.mpr present
      · exact sees count (Nat.pos_of_ne_zero start) (by omega)
  rw [Ahead, Ahead, quotient, rest, fullBuffers_succ behind, sees_iff, place, arrived]
  constructor
  · rintro ⟨uneven, ⟨_, others⟩, ⟨present, sees⟩, turn, found, take, all⟩
    exact ⟨present, uneven, others, sees, turn, found, take, Nat.add_right_cancel all⟩
  · rintro ⟨present, uneven, others, sees, turn, found, take, all⟩
    exact ⟨uneven, ⟨full, others⟩, ⟨present, sees⟩, turn, found, take, by rw [all]⟩

/-- What a call that is not handed a full buffer returns. -/
theorem receiveData_short_iff (present : (socket.deliver first).arrived ≠ [])
    (short : ¬FullBuffer socket first) (inOrder : (socket.deliver first).arrived <+: whole) :
    (receiveData socket data (first :: turns)).1 = .returned (data ++ whole) ↔
      Ahead socket (first :: turns) whole.length := by
  have chunk_prefix : (socket.deliver first).arrived.take
      ((socket.deliver first).chunkSize first) <+: whole := (List.take_prefix _ _).trans inOrder
  have notFull := (Socket.chunk_short_iff present).mpr short
  have positive : 0 < (socket.deliver first).arrived.length := List.length_pos_iff.mpr present
  have bound := inOrder.length_le
  rw [receiveData_short present short, ahead_of_short short]
  simp only [Received.returned.injEq, List.append_cancel_left_eq]
  have whole_iff : (socket.deliver first).arrived.take
      ((socket.deliver first).chunkSize first) = whole ↔
        ((socket.deliver first).arrived.take
          ((socket.deliver first).chunkSize first)).length = whole.length :=
    ⟨congrArg List.length, chunk_prefix.eq_of_length⟩
  rw [whole_iff]
  rw [List.length_take, Socket.chunkSize] at notFull ⊢
  omega

/-- A call returns all that is to come exactly if the bytes stay ahead of it.  The
recursion takes two turns at a time, a full buffer and the peek behind it. -/
theorem receiveData_returned_iff (socket : Socket) (data : Bytes) :
    ∀ (turns : List Turn) (whole : Bytes),
      (∀ count, (socket.seen (turns.take count)).arrived <+: whole) →
        (∀ turn ∈ turns.head?, (socket.deliver turn).arrived ≠ []) →
          ((receiveData socket data turns).1 = .returned (data ++ whole) ↔
            Ahead socket turns whole.length)
  | [], whole, _, _ => iff_of_false (fun returns => nomatch returns) not_ahead_nil
  | [first], whole, inOrder, present => by
      by_cases full : FullBuffer socket first
      · rw [receiveData_last full]
        apply iff_of_false (fun returns => nomatch returns)
        rintro ⟨_, _, _, turn, found, _⟩
        have long := full.2.trans (inOrder 1).length_le
        have quotient : 0 < whole.length / bufferSize := Nat.div_pos long (by decide)
        rw [List.getElem?_eq_none (by simp only [List.length_singleton]; omega)] at found
        cases found
      · exact receiveData_short_iff (present first rfl) full (inOrder 1)
  | first :: second :: turns, whole, inOrder, present => by
      by_cases full : FullBuffer socket first
      · have behind := (Socket.behind_remove full.2).deliver second
        have long := full.2.trans (inOrder 1).length_le
        obtain ⟨length, length_eq⟩ := Nat.exists_eq_add_of_le' long
        have head : (socket.deliver first).arrived.take bufferSize = whole.take bufferSize := by
          obtain ⟨rest, whole_eq⟩ := inOrder 1
          change (socket.deliver first).arrived ++ rest = whole at whole_eq
          rw [← whole_eq, List.take_append_of_le_length full.2]
        rw [receiveData_full full rfl, length_eq, ahead_of_full full behind]
        by_cases empty : (((socket.deliver first).remove bufferSize).deliver second).arrived = []
        · rw [if_pos empty]
          apply iff_of_false
          · split
            · exact fun returns => nomatch returns
            · split <;> exact fun returns => nomatch returns
          · exact fun ahead => ahead.1 empty
        · have recursion := receiveData_returned_iff
            (((socket.deliver first).remove bufferSize).deliver second)
            (data ++ whole.take bufferSize) turns (whole.drop bufferSize) ?_ ?_
          rw [List.append_assoc, List.take_append_drop, List.length_drop, length_eq,
            Nat.add_sub_cancel] at recursion
          rw [if_neg empty, head, recursion]
          · exact (and_iff_right empty).symm
          · intro count
            rw [Socket.deliver_remove full.2, Socket.seen_remove
              (full.2.trans (Socket.length_deliver_le second))]
            exact (inOrder (count + 2)).drop bufferSize
          · intro turn _ nothing
            have kept := @Socket.length_deliver_le
              (((socket.deliver first).remove bufferSize).deliver second) turn
            rw [nothing, List.length_nil, Nat.le_zero, List.length_eq_zero_iff] at kept
            exact empty kept
      · exact receiveData_short_iff (present first rfl) full (inOrder 1)

end Ahead

/-! ## One message -/

/-- What is sent is the beginning of the message. -/
theorem sendData_initial (data : Bytes) (send : Send) : (sendData data send).2 <+: data := by
  cases send with
  | accepts count => exact List.take_prefix count data
  | _ => exact List.nil_prefix

namespace Carriage

variable {message : Bytes} (carriage : Carriage message)

theorem first_take (count bound : Nat) :
    (carriage.first bound).take count = carriage.first (min count bound) := by
  rw [first, ← List.map_take, List.take_range, first]

theorem first_getElem? (index bound : Nat) :
    (carriage.first bound)[index]? =
      if index < bound then some (carriage.turns index) else none := by
  rw [first, List.getElem?_map]
  split
  · next inside => rw [List.getElem?_range inside, Option.map_some]
  · next outside =>
      rw [List.getElem?_eq_none (by simpa using outside), Option.map_none]

theorem length_seen_take {count bound : Nat} (inside : count ≤ bound) :
    (carriage.socket.seen ((carriage.first bound).take count)).arrived.length =
      carriage.arrivedBy count := by
  rw [first_take, Nat.min_eq_left inside]
  rfl

/-- When as many bytes have arrived as the message has, the kernel has taken all of it. -/
theorem accepted_of_arrivedBy {count : Nat} (nonempty : message.length ≠ 0)
    (all : carriage.arrivedBy count = message.length) :
    ∃ taken, carriage.send = .accepts taken ∧ message.length ≤ taken := by
  have sent : message.length ≤ (sendData message carriage.send).2.length := by
    rw [← all]
    exact (carriage.inOrder count).length_le
  cases send : carriage.send with
  | accepts taken =>
      rw [send, sendData, List.length_take] at sent
      exact ⟨taken, rfl, sent.trans (Nat.min_le_left _ _)⟩
  | _ =>
      rw [send] at sent
      exact absurd (Nat.le_zero.mp sent) nonempty

/-- The call is ahead once it has had all the turns it needs. -/
theorem ahead_first_iff (bound : Nat) :
    Ahead carriage.socket (carriage.first bound) message.length ↔
      2 * (message.length / bufferSize) < bound ∧ carriage.KeepsAhead := by
  constructor
  · rintro ⟨uneven, full, sees, turn, found, take, all⟩
    rw [first_getElem?, Option.ite_none_right_eq_some, Option.some.injEq] at found
    obtain ⟨inside, rfl⟩ := found
    rw [carriage.length_seen_take inside] at all
    have nonempty : message.length ≠ 0 := by
      intro empty
      rw [empty] at uneven
      exact uneven rfl
    refine ⟨inside, uneven, carriage.accepted_of_arrivedBy nonempty all, ?_, take, all⟩
    intro index less
    obtain ⟨turn, found, handed, arrived⟩ := full index less
    have more := sees (index + 1) (Nat.succ_pos index) less
    rw [first_getElem?, Option.ite_none_right_eq_some, Option.some.injEq] at found
    obtain ⟨_, rfl⟩ := found
    rw [carriage.length_seen_take (by omega)] at arrived
    rw [SeesMore, carriage.length_seen_take (by omega)] at more
    exact ⟨handed, arrived, more⟩
  · rintro ⟨inside, uneven, _, buffers, take, all⟩
    refine ⟨uneven, ?_, ?_, carriage.turns (2 * (message.length / bufferSize)), ?_, take, ?_⟩
    · intro index less
      refine ⟨carriage.turns (2 * index), ?_, (buffers index less).1, ?_⟩
      · rw [first_getElem?, if_pos (by omega)]
      · rw [carriage.length_seen_take (by omega)]
        exact (buffers index less).2.1
    · intro count positive less
      obtain ⟨index, rfl⟩ := Nat.exists_eq_succ_of_ne_zero (Nat.ne_of_gt positive)
      rw [SeesMore, carriage.length_seen_take (by omega)]
      exact (buffers index less).2.2
    · rw [first_getElem?, if_pos inside]
    · rw [carriage.length_seen_take inside]
      exact all

/-- The first turns are enough, if there are as many as the message needs. -/
theorem returned_first_iff (bound : Nat) :
    (receiveData carriage.socket [] (carriage.first bound)).1 = .returned message ↔
      2 * (message.length / bufferSize) < bound ∧ carriage.KeepsAhead := by
  have inOrder (count : Nat) :
      (carriage.socket.seen ((carriage.first bound).take count)).arrived <+: message := by
    rw [first_take]
    exact (carriage.inOrder _).trans (sendData_initial message carriage.send)
  have begins : ∀ turn ∈ (carriage.first bound).head?,
      (carriage.socket.deliver turn).arrived ≠ [] := by
    intro turn isHead
    rw [List.head?_eq_getElem?, first_getElem?] at isHead
    split at isHead
    · obtain rfl := Option.some.inj isHead
      exact carriage.begins
    · cases isHead
  exact (receiveData_returned_iff carriage.socket [] (carriage.first bound) message inOrder
    begins).trans (carriage.ahead_first_iff bound)

/-- A message is received as it was sent exactly if its bytes keep ahead of the call. -/
theorem received_iff (message : Bytes) (carriage : Carriage message) :
    carriage.Received ↔ carriage.KeepsAhead := by
  constructor
  · rintro ⟨bound, returns⟩
    exact ((carriage.returned_first_iff bound).mp returns).2
  · intro keepsAhead
    exact ⟨_, (carriage.returned_first_iff _).mpr ⟨Nat.lt_succ_self _, keepsAhead⟩⟩

/-! ### Messages that can be received -/

/-- A message arrives as a whole, and then nothing more. -/
def wholeTurn (message : Bytes) : Nat → Turn
  | 0 => { arrives := message }
  | _ + 1 => {}

theorem seen_wholeTurn (message : Bytes) (count : Nat) :
    (Socket.seen {} ((List.range (count + 1)).map (wholeTurn message))).arrived = message := by
  have quiet (turns : List Nat) (socket : Socket) :
      (socket.seen (turns.map fun _ => ({} : Turn))).arrived = socket.arrived := by
    induction turns generalizing socket with
    | nil => rfl
    | cons turn turns ih =>
        rw [List.map_cons, Socket.seen_cons, ih, Socket.deliver]
        split
        · rfl
        · exact List.append_nil _
  rw [List.range_succ_eq_map, List.map_cons, List.map_map, Socket.seen_cons]
  exact quiet (List.range count) _

def atOnce (message : Bytes) (nonempty : message ≠ []) : Carriage message where
  send := .accepts message.length
  nonBlocking := false
  turns := wholeTurn message
  begins := nonempty
  inOrder count := by
    rw [sendData, List.take_length]
    cases count with
    | zero => exact List.nil_prefix
    | succ count =>
        rw [seen_wholeTurn]

theorem arrivedBy_atOnce (nonempty : message ≠ []) (count : Nat) :
    (atOnce message nonempty).arrivedBy (count + 1) = message.length :=
  congrArg List.length (seen_wholeTurn message count)

/-- There is a way for a message to be received exactly if its last buffer is not full: behind
a full one the call waits for more. -/
theorem receivable_iff (message : Bytes) :
    (∃ carriage : Carriage message, carriage.Received) ↔ message.length % bufferSize ≠ 0 := by
  constructor
  · rintro ⟨carriage, bound, returns⟩
    exact ((carriage.returned_first_iff bound).mp returns).2.1
  · intro uneven
    have nonempty : message ≠ [] := by
      rintro rfl
      exact uneven rfl
    have small : message.length % bufferSize < bufferSize := Nat.mod_lt _ (by decide)
    have parts := Nat.div_add_mod message.length bufferSize
    have take (index : Nat) : bufferSize = (wholeTurn message index).take := by
      cases index <;> rfl
    refine ⟨atOnce message nonempty, _,
      ((atOnce message nonempty).returned_first_iff _).mpr ⟨Nat.lt_succ_self _, uneven,
        ⟨_, rfl, Nat.le_refl _⟩, fun index less => ?_, ?_, arrivedBy_atOnce nonempty _⟩⟩
    · have inside : bufferSize * (index + 1) ≤ bufferSize * (message.length / bufferSize) :=
        Nat.mul_le_mul_left _ less
      rw [arrivedBy_atOnce, arrivedBy_atOnce]
      exact ⟨Nat.le_of_eq (take _), by omega, by omega⟩
    · exact le_max_of_le_right (small.le.trans (Nat.le_of_eq (take _)))

/-- Of two bytes that are sent, the first has arrived when the other side looks. -/
def inHalves : Carriage (ascii "ab") where
  send := .accepts 2
  nonBlocking := true
  turns index := { arrives := ((ascii "ab").drop index).take 1 }
  begins := by decide
  inOrder count := by
    have seen : ∀ count, (Socket.seen { nonBlocking := true } ((List.range count).map fun index =>
        { arrives := ((ascii "ab").drop index).take 1 })) =
          { nonBlocking := true, arrived := (ascii "ab").take count } := by
      intro count
      induction count with
      | zero => rfl
      | succ count ih =>
          rw [Socket.seen] at ih ⊢
          rw [List.range_succ, List.map_append, List.foldl_append, ih]
          simp only [List.map_cons, List.map_nil, List.foldl_cons, List.foldl_nil, Socket.deliver,
            Bool.false_eq_true, if_false, ← List.take_add]
    rw [seen]
    exact List.take_prefix count _

/-- It takes the first byte for the message. -/
theorem received_half :
    ¬∀ (message : Bytes) (carriage : Carriage message), message ≠ [] → carriage.Received := by
  intro claim
  obtain ⟨count, returns⟩ := claim _ inHalves (by decide)
  cases count with
  | zero => cases returns
  | succ count =>
      have short : ¬FullBuffer inHalves.socket (inHalves.turns 0) := fun full =>
        absurd full.2 (by decide)
      rw [first, List.range_succ_eq_map, List.map_cons, receiveData_short (by decide) short,
        Received.returned.injEq] at returns
      exact absurd returns (by decide)

end Carriage

end P2PFileShare
