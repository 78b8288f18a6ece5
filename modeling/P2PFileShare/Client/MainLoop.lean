import Mathlib.Data.List.Chain
import Mathlib.Data.List.Forall2
import Mathlib.Data.List.TakeWhile
import P2PFileShare.Client.Commands
import P2PFileShare.Common.TrackerInfo
import P2PFileShare.Tracker.Serving

/-!
# The loop of a client

`client/client.cpp`.  Line after line of the input is handled over one connection to a
tracker.  When that is closed, the client goes on with the first tracker of its list that
accepts; the line that met the closed connection is not repeated.
-/

namespace P2PFileShare

open Container Text Transition

/-- One turn of the loop reads `std::cin`: what `getline` behind `std::ws` puts into `input`,
and what is left. -/
def readLine (stdin : Bytes) : Bytes × Bytes :=
  if stdin = [] then ([], [])
  else
    let stdin := stdin.dropWhile isSpace
    (stdin.takeWhile fun byte => byte != newline,
      (stdin.dropWhile fun byte => byte != newline).drop 1)

/-- How the process ends. -/
inductive Ending
  | quit
  | failedToConnect
  | uncaught (exception : Exception)
  deriving DecidableEq

/-- What becomes of a line: it needs no tracker, its request is not sent, the request gets no
answer, or it gets one. -/
inductive Fate
  | settled
  | unsent (request : Bytes)
  | unanswered (request : Bytes)
  | answered (request response : Bytes)

/-- `connect_to_tracker`, with the operations of the network from `operation` on.  A connection
that is refused is the only failure that it handles. -/
def connectToTracker (network : Network) :
    Nat → List Endpoint → Except NetworkError (Option Endpoint)
  | _, [] => .ok none
  | operation, tracker :: trackers =>
      match network operation with
      | none => .ok (some tracker)
      | some .connectionClosedError => connectToTracker network (operation + 1) trackers
      | some error => .error error

/-- A new socket, and a tracker at its other end. -/
def openConnection (trackers : List Endpoint) (network : Network) (operation : Nat) :
    Except Ending Endpoint :=
  match network operation with
  | some error => .error (.uncaught (.network error))
  | none =>
      match connectToTracker network (operation + 1) trackers with
      | .error error => .error (.uncaught (.network error))
      | .ok none => .error .failedToConnect
      | .ok (some tracker) => .ok tracker

/-- The variables of `loop`: the state of the client, what is left of the input, and the
tracker at the other end of the socket. -/
structure MainLoop where
  client : ClientState
  stdin : Bytes
  tracker : Endpoint

namespace MainLoop

section Turns

variable (sha1 : Bytes → Bytes) (platform : Platform) (myId : EndpointID)
  (clientEndpoint : Endpoint) (trackers : List Endpoint) (network : Network) (response : Bytes)
  (loop : MainLoop)

/-- `main` up to the loop. -/
def main (disk : Bytes → Option Bytes) (stdin : Bytes) : Except Ending MainLoop :=
  (openConnection trackers network 0).map fun tracker => { client := { disk }, stdin, tracker }

/-- The handler of `ConnectionClosedError`. -/
def reconnect (operation : Nat) : Except Ending MainLoop :=
  (openConnection trackers network operation).map fun tracker => { loop with tracker }

/-- One turn of the loop.  `response` is what is received, should it come to that. -/
def turn : Except Ending MainLoop × Fate :=
  let (input, stdin) := readLine loop.stdin
  if input = ascii "quit" then (.error .quit, .settled)
  else
    match loop.client.submit sha1 myId clientEndpoint input with
    | (client, none) => (.ok { loop with client, stdin }, .settled)
    | (client, some (request, awaiting)) =>
        let loop := { loop with client, stdin }
        match network 0 with
        | some .connectionClosedError =>
            (loop.reconnect trackers network 1, .unsent request)
        | some error => (.error (.uncaught (.network error)), .unsent request)
        | none =>
            match network 1 with
            | some .connectionClosedError =>
                (loop.reconnect trackers network 2, .unanswered request)
            | some error => (.error (.uncaught (.network error)), .unanswered request)
            | none =>
                match client.conclude platform response awaiting with
                | .error error => (.error (.uncaught (.std error)), .answered request response)
                | .ok client => (.ok { loop with client }, .answered request response)

end Turns

end MainLoop

/-! ## The lines of the input -/

section Lines

variable {stdin : Bytes}

/-- The lines that hold anything, from the first byte that is no space. -/
def inputs (stdin : Bytes) : List Bytes :=
  ((stdin.splitOn newline).map fun line => line.dropWhile isSpace).filter fun line => line ≠ []

theorem inputs_newline (rest : Bytes) : inputs (newline :: rest) = inputs rest := by
  have split := List.splitOn_append_cons_self_of_not_mem (List.not_mem_nil (a := newline)) rest
  rw [List.nil_append] at split
  simp [inputs, split]

/-- A space in front of a line is not part of it. -/
theorem inputs_space {byte : UInt8} (space : isSpace byte = true) (rest : Bytes) :
    inputs (byte :: rest) = inputs rest := by
  by_cases ends : byte = newline
  · rw [ends, inputs_newline]
  · have split := List.splitOn_cons_eq_if_modifyHead (a := newline) byte rest
    rw [if_neg (by simpa using ends)] at split
    rw [inputs, inputs, split]
    cases others : rest.splitOn newline with
    | nil => exact absurd others (List.splitOn_ne_nil _ _)
    | cons line lines => simp [List.dropWhile_cons_of_pos space]

theorem inputs_dropWhile (stdin : Bytes) : inputs (stdin.dropWhile isSpace) = inputs stdin := by
  induction stdin with
  | nil => rfl
  | cons byte rest ih =>
      cases space : isSpace byte with
      | true => rw [List.dropWhile_cons_of_pos space, ih, inputs_space space]
      | false => rw [List.dropWhile_cons_of_neg (by simp [space])]

/-- A text that starts with no space is its first line, and what stands behind that. -/
theorem inputs_cons {byte : UInt8} (isText : isSpace byte = false) (rest : Bytes) :
    inputs (byte :: rest) =
      (byte :: rest).takeWhile (fun byte => byte != newline) ::
        inputs (((byte :: rest).dropWhile fun byte => byte != newline).drop 1) := by
  have notEnd : byte ≠ newline := by
    rintro rfl
    cases isText
  have whole := List.takeWhile_append_dropWhile (p := fun byte => byte != newline) (l := rest)
  have inside : newline ∉ byte :: rest.takeWhile fun byte => byte != newline := by
    rw [List.mem_cons]
    rintro (rfl | member)
    · exact notEnd rfl
    · simpa using List.mem_takeWhile_imp member
  rw [List.takeWhile_cons_of_pos (by simpa using notEnd),
    List.dropWhile_cons_of_pos (by simpa using notEnd)]
  cases behind : rest.dropWhile fun byte => byte != newline with
  | nil =>
      rw [behind, List.append_nil] at whole
      rw [whole] at inside ⊢
      simp [inputs, List.splitOn_eq_singleton inside, isText]
  | cons stop after =>
      have stops : stop = newline := by
        have head := List.head?_dropWhile_not (fun byte => byte != newline) rest
        rw [behind] at head
        simpa using head
      rw [behind, stops] at whole
      have split := List.splitOn_append_cons_self_of_not_mem inside after
      rw [List.cons_append, whole] at split
      simp [inputs, split, isText]

/-- What is read is the next line, if there is one. -/
theorem readLine_cases (stdin : Bytes) :
    ((readLine stdin).1 = [] ∧ inputs stdin = [] ∧ inputs (readLine stdin).2 = []) ∨
      ((readLine stdin).1 ≠ [] ∧
        inputs stdin = (readLine stdin).1 :: inputs (readLine stdin).2) := by
  by_cases ended : stdin = []
  · subst ended
    exact Or.inl ⟨rfl, rfl, rfl⟩
  · simp only [readLine, if_neg ended, ← inputs_dropWhile stdin]
    have head := List.head?_dropWhile_not isSpace stdin
    cases text : stdin.dropWhile isSpace with
    | nil => exact Or.inl ⟨rfl, rfl, rfl⟩
    | cons byte rest =>
        rw [text] at head
        refine Or.inr ⟨?_, inputs_cons head rest⟩
        rw [List.takeWhile_cons_of_pos]
        · exact List.cons_ne_nil _ _
        · rw [bne_iff_ne]
          rintro rfl
          cases head

/-- The lines that were read are those of the input in their order; behind the last one, empty
ones follow. -/
theorem inputs_line {rest : Bytes} {lines : List Bytes}
    (read : ∃ blank, inputs stdin ++ List.replicate blank [] = lines ++ inputs rest) :
    ∃ blank, inputs stdin ++ List.replicate blank [] =
      lines ++ [(readLine rest).1] ++ inputs (readLine rest).2 := by
  obtain ⟨blank, same⟩ := read
  rcases readLine_cases rest with ⟨empty, ended, behind⟩ | ⟨_, line⟩
  · refine ⟨blank + 1, ?_⟩
    rw [ended, List.append_nil] at same
    rw [List.replicate_succ', ← List.append_assoc, same, empty, behind, List.append_nil]
  · exact ⟨blank, by rw [same, line, List.append_assoc, List.singleton_append]⟩

end Lines

/-! ## One turn -/

namespace Fate

/-- The request that the line asks for. -/
def request : Fate → Option Bytes
  | .settled => none
  | .unsent request | .unanswered request | .answered request _ => some request

/-- The request, if it leaves the client. -/
def sent : Fate → Option Bytes
  | .settled | .unsent _ => none
  | .unanswered request | .answered request _ => some request

/-- The connection broke. -/
def Broken (fate : Fate) : Prop :=
  ∃ request, fate = .unsent request ∨ fate = .unanswered request

theorem not_broken_settled : ¬Broken .settled := by
  rintro ⟨request, same | same⟩ <;> cases same

theorem not_broken_answered (request response : Bytes) : ¬Broken (.answered request response) := by
  rintro ⟨request, same | same⟩ <;> cases same

theorem request_of_sent {fate : Fate} {request : Bytes} (sent : fate.sent = some request) :
    fate.request = some request := by
  cases fate with
  | settled => cases sent
  | unsent request => cases sent
  | unanswered request => exact sent
  | answered request response => exact sent

end Fate

section Connections

variable {network : Network} {operation : Nat} {trackers : List Endpoint} {tracker : Endpoint}

/-- The tracker at the other end is one of the list. -/
theorem connectToTracker_mem
    (connected : connectToTracker network operation trackers = .ok (some tracker)) :
    tracker ∈ trackers := by
  induction trackers generalizing operation with
  | nil => cases connected
  | cons first trackers ih =>
      simp only [connectToTracker] at connected
      split at connected
      · obtain rfl := Option.some.inj (Except.ok.inj connected)
        exact List.mem_cons_self
      · exact List.mem_cons_of_mem _ (ih connected)
      · cases connected

theorem openConnection_mem (opened : openConnection trackers network operation = .ok tracker) :
    tracker ∈ trackers := by
  simp only [openConnection] at opened
  split at opened
  · cases opened
  · split at opened
    · cases opened
    · cases opened
    · next connected =>
        obtain rfl := Except.ok.inj opened
        exact connectToTracker_mem connected

end Connections

namespace MainLoop

variable {sha1 : Bytes → Bytes} {platform : Platform} {myId : EndpointID}
  {clientEndpoint : Endpoint} {trackers : List Endpoint} {network : Network} {response : Bytes}
  {loop next : MainLoop} {fate : Fate}

/-- What a turn does: it takes the next line, sends the request of that line, and changes the
tracker only behind a connection that broke. -/
structure Takes (sha1 : Bytes → Bytes) (myId : EndpointID) (clientEndpoint : Endpoint)
    (trackers : List Endpoint) (loop : MainLoop) (fate : Fate) (next : MainLoop) : Prop where
  line : (readLine loop.stdin).1 ≠ ascii "quit"
  rest : next.stdin = (readLine loop.stdin).2
  request : fate.request = clientRequest myId clientEndpoint
    (getFileInfoAt sha1 loop.client.disk) (readLine loop.stdin).1
  stays : ¬fate.Broken → next.tracker = loop.tracker
  moves : fate.Broken → next.tracker ∈ trackers

theorem reconnect_eq_ok {operation : Nat}
    (reconnected : loop.reconnect trackers network operation = .ok next) :
    ∃ tracker ∈ trackers, next = { loop with tracker } := by
  simp only [reconnect] at reconnected
  cases opened : openConnection trackers network operation with
  | error ending =>
      rw [opened] at reconnected
      cases reconnected
  | ok tracker =>
      rw [opened] at reconnected
      exact ⟨tracker, openConnection_mem opened, (Except.ok.inj reconnected).symm⟩

theorem turn_takes
    (turned : loop.turn sha1 platform myId clientEndpoint trackers network response =
      (.ok next, fate)) :
    loop.Takes sha1 myId clientEndpoint trackers fate next := by
  have asks := @ClientState.submit_request sha1 myId clientEndpoint loop.client
    (readLine loop.stdin).1
  simp only [turn] at turned
  split at turned
  · cases turned
  · next line =>
      split at turned
      · next client submitted =>
          rw [submitted] at asks
          cases turned
          exact ⟨line, rfl, asks, fun _ => rfl, fun broken => absurd broken Fate.not_broken_settled⟩
      · next client request awaiting submitted =>
          rw [submitted] at asks
          split at turned
          · obtain ⟨reconnected, rfl⟩ := Prod.mk.inj turned
            obtain ⟨tracker, member, rfl⟩ := reconnect_eq_ok reconnected
            exact ⟨line, rfl, asks, fun whole => absurd ⟨request, Or.inl rfl⟩ whole,
              fun _ => member⟩
          · cases turned
          · split at turned
            · obtain ⟨reconnected, rfl⟩ := Prod.mk.inj turned
              obtain ⟨tracker, member, rfl⟩ := reconnect_eq_ok reconnected
              exact ⟨line, rfl, asks, fun whole => absurd ⟨request, Or.inr rfl⟩ whole,
                fun _ => member⟩
            · cases turned
            · split at turned
              · cases turned
              · cases turned
                exact ⟨line, rfl, asks, fun _ => rfl,
                  fun broken => absurd broken (Fate.not_broken_answered request response)⟩

/-- A turn that ends the process asks for nothing else. -/
theorem turn_request {outcome : Except Ending MainLoop} {request : Bytes}
    (turned : loop.turn sha1 platform myId clientEndpoint trackers network response =
      (outcome, fate)) (asked : fate.request = some request) :
    clientRequest myId clientEndpoint (getFileInfoAt sha1 loop.client.disk)
      (readLine loop.stdin).1 = some request := by
  have asks := @ClientState.submit_request sha1 myId clientEndpoint loop.client
    (readLine loop.stdin).1
  rw [← asks]
  obtain rfl := congrArg Prod.snd turned
  simp only [turn] at asked
  split at asked
  · cases asked
  · split at asked
    · cases asked
    · next client other awaiting submitted =>
        rw [submitted]
        split at asked
        · exact asked
        · exact asked
        · split at asked
          · exact asked
          · exact asked
          · split at asked
            · exact asked
            · exact asked

end MainLoop

/-! ## Whole runs -/

namespace MainLoop

/-- A line that was handled, with the tracker at the other end before that; or a step of
the worker or of another program. -/
inductive Event
  | line (tracker : Endpoint) (input : Bytes) (fate : Fate)
  | meanwhile (event : ClientState.Event)

/-- The main thread has no part in it. -/
def Elsewhere : ClientState.Event → Prop
  | .work _ | .changeDisk _ => True
  | _ => False

inductive Step (sha1 : Bytes → Bytes) (platform : Platform) (myId : EndpointID)
    (clientEndpoint : Endpoint) (trackers : List Endpoint) : MainLoop → Event → MainLoop → Prop
  | line {loop next : MainLoop} {network : Network} {response : Bytes} {fate : Fate} :
      loop.turn sha1 platform myId clientEndpoint trackers network response = (.ok next, fate) →
        Step sha1 platform myId clientEndpoint trackers loop
          (.line loop.tracker (readLine loop.stdin).1 fate) next
  | meanwhile {loop : MainLoop} {event : ClientState.Event} {client : ClientState} :
      Elsewhere event → ClientState.Step sha1 platform.toIterationOrder loop.client event client →
        Step sha1 platform myId clientEndpoint trackers loop (.meanwhile event)
          { loop with client }

/-- A line with the tracker and its fate. -/
structure Handled where
  tracker : Endpoint
  input : Bytes
  fate : Fate

def Event.handled : Event → Option Handled
  | .line tracker input fate => some { tracker, input, fate }
  | .meanwhile _ => none

/-- The lines handled, the oldest first. -/
def handled (history : List Event) : List Handled :=
  history.reverse.filterMap Event.handled

section Runs

variable {sha1 : Bytes → Bytes} {platform : Platform} {myId : EndpointID}
  {clientEndpoint : Endpoint} {trackers : List Endpoint} {start loop : MainLoop}
  {history : List Event}

theorem handled_line (tracker : Endpoint) (input : Bytes) (fate : Fate) :
    handled (.line tracker input fate :: history) =
      handled history ++ [⟨tracker, input, fate⟩] := by
  simp [handled, Event.handled]

theorem handled_meanwhile (event : ClientState.Event) :
    handled (.meanwhile event :: history) = handled history := by
  simp [handled, Event.handled]

theorem inputs_handled
    (run : Run start (Step sha1 platform myId clientEndpoint trackers) history loop) :
    ∃ blank, inputs start.stdin ++ List.replicate blank [] =
      (handled history).map (fun line => line.input) ++ inputs loop.stdin := by
  induction run with
  | start => exact ⟨0, by simp [handled]⟩
  | step _ last ih =>
      cases last with
      | meanwhile _ _ =>
          rw [handled_meanwhile]
          exact ih
      | line turned =>
          rw [handled_line, List.map_append, (turn_takes turned).rest]
          exact inputs_line ih

/-- The request of a line, for what was on the disk when it was handled. -/
def RequestOf (sha1 : Bytes → Bytes) (myId : EndpointID) (clientEndpoint : Endpoint)
    (request input : Bytes) : Prop :=
  ∃ disk, clientRequest myId clientEndpoint (getFileInfoAt sha1 disk) input = some request

theorem requestOf_handled
    (run : Run start (Step sha1 platform myId clientEndpoint trackers) history loop) :
    ∀ line ∈ handled history, ∀ request, line.fate.request = some request →
      RequestOf sha1 myId clientEndpoint request line.input := by
  induction run with
  | start => nofun
  | @step _ source _ _ _ last ih =>
      cases last with
      | meanwhile _ _ =>
          rw [handled_meanwhile]
          exact ih
      | line turned =>
          rw [handled_line, List.forall_mem_append, List.forall_mem_singleton]
          exact ⟨ih, fun request asked => ⟨source.client.disk, turn_request turned asked⟩⟩

/-- A line leads to one request at most. -/
theorem requests_sublist {lines : List Handled}
    (asked : ∀ line ∈ lines, ∀ request, line.fate.request = some request →
      RequestOf sha1 myId clientEndpoint request line.input) :
    List.SublistForall₂ (RequestOf sha1 myId clientEndpoint)
      (lines.filterMap fun line => line.fate.sent) (lines.map fun line => line.input) := by
  induction lines with
  | nil => exact .nil
  | cons line lines ih =>
      rcases List.forall_mem_cons.mp asked with ⟨first, others⟩
      rw [List.map_cons]
      cases left : line.fate.sent with
      | none =>
          simp only [List.filterMap_cons, left]
          exact .cons_right (ih others)
      | some request =>
          simp only [List.filterMap_cons, left]
          exact .cons (first request (Fate.request_of_sent left)) (ih others)

/-- One connection leads to one tracker. -/
def SameConnection (earlier later : Handled) : Prop :=
  ¬earlier.fate.Broken → later.tracker = earlier.tracker

/-- The lines of one connection were handled with one tracker of the list, the last ones with
the present one. -/
structure Connected (trackers : List Endpoint) (lines : List Handled) (tracker : Endpoint) :
    Prop where
  listed : ∀ line ∈ lines, line.tracker ∈ trackers
  chain : lines.IsChain SameConnection
  present : tracker ∈ trackers
  last : ∀ line ∈ lines.getLast?, ¬line.fate.Broken → tracker = line.tracker

section Next

variable {lines : List Handled} {tracker : Endpoint} {input : Bytes} {fate : Fate}

theorem Connected.listed_append (connected : Connected trackers lines tracker) :
    ∀ line ∈ lines ++ [Handled.mk tracker input fate], line.tracker ∈ trackers := by
  rw [List.forall_mem_append, List.forall_mem_singleton]
  exact ⟨connected.listed, connected.present⟩

theorem Connected.chain_append (connected : Connected trackers lines tracker) :
    (lines ++ [Handled.mk tracker input fate]).IsChain SameConnection := by
  apply connected.chain.append (.singleton _)
  intro earlier isLast later isLater
  obtain rfl := Option.some.inj isLater
  exact connected.last earlier isLast

end Next

theorem Connected.line {lines : List Handled} {next : MainLoop} {fate : Fate}
    (connected : Connected trackers lines loop.tracker)
    (takes : loop.Takes sha1 myId clientEndpoint trackers fate next) :
    Connected trackers (lines ++ [⟨loop.tracker, (readLine loop.stdin).1, fate⟩])
      next.tracker where
  listed := connected.listed_append
  chain := connected.chain_append
  present := by
    by_cases broken : fate.Broken
    · exact takes.moves broken
    · rw [takes.stays broken]
      exact connected.present
  last := by
    intro line isLast whole
    rw [List.getLast?_concat] at isLast
    obtain rfl := Option.some.inj isLast
    exact takes.stays whole

theorem connected_run (present : start.tracker ∈ trackers)
    (run : Run start (Step sha1 platform myId clientEndpoint trackers) history loop) :
    Connected trackers (handled history) loop.tracker := by
  induction run with
  | start =>
      constructor
      · nofun
      · exact .nil
      · exact present
      · nofun
  | step _ last ih =>
      cases last with
      | meanwhile _ _ =>
          rw [handled_meanwhile]
          exact ih
      | line turned =>
          rw [handled_line]
          exact ih.line (turn_takes turned)

end Runs

/-- What is typed is carried to the trackers.  The lines are handled in their order, each once,
and nothing but empty ones follow the last; the requests that leave the client are, in this
order, those of some of the lines that were handled, one for a line at most; and another
tracker of the list takes over only behind a connection that broke. -/
structure Carried (sha1 : Bytes → Bytes) (myId : EndpointID) (clientEndpoint : Endpoint)
    (trackers : List Endpoint) (stdin : Bytes) (lines : List Handled) (rest : Bytes) : Prop where
  order : ∃ blank, inputs stdin ++ List.replicate blank [] =
    lines.map (fun line => line.input) ++ inputs rest
  requests : List.SublistForall₂ (RequestOf sha1 myId clientEndpoint)
    (lines.filterMap fun line => line.fate.sent) (lines.map fun line => line.input)
  chain : lines.IsChain SameConnection
  listed : ∀ line ∈ lines, line.tracker ∈ trackers

/-- This is so in every run, also with the line behind it that ends the process. -/
theorem lines_carried {sha1 : Bytes → Bytes} {platform : Platform} {myId : EndpointID}
    {clientEndpoint : Endpoint} {trackers : List Endpoint} {network : Network}
    {disk : Bytes → Option Bytes} {stdin : Bytes} {start loop : MainLoop} {history : List Event}
    (started : main trackers network disk stdin = .ok start)
    (run : Run start (Step sha1 platform myId clientEndpoint trackers) history loop) :
    Carried sha1 myId clientEndpoint trackers stdin (handled history) loop.stdin ∧
      ∀ later response ending fate,
        loop.turn sha1 platform myId clientEndpoint trackers later response =
          (.error ending, fate) →
        Carried sha1 myId clientEndpoint trackers stdin
          (handled history ++ [⟨loop.tracker, (readLine loop.stdin).1, fate⟩])
          (readLine loop.stdin).2 := by
  simp only [main] at started
  cases opened : openConnection trackers network 0 with
  | error ending =>
      rw [opened] at started
      cases started
  | ok tracker =>
      rw [opened] at started
      obtain rfl := Except.ok.inj started
      have connected := connected_run (openConnection_mem opened) run
      have asked := requestOf_handled run
      constructor
      · exact ⟨inputs_handled run, requests_sublist asked, connected.chain, connected.listed⟩
      · intro later response ending fate turned
        constructor
        · rw [List.map_append]
          exact inputs_line (inputs_handled run)
        · apply requests_sublist
          rw [List.forall_mem_append, List.forall_mem_singleton]
          exact ⟨asked, fun request ask => ⟨loop.client.disk, turn_request turned ask⟩⟩
        · exact connected.chain_append
        · exact connected.listed_append

/-- Two trackers, the first of which goes away while it owes an answer. -/
def twoTrackers : List Endpoint :=
  [{ ip := ascii "a", port := 1 }, { ip := ascii "b", port := 2 }]

/-- The fourth operation of a turn is the attempt to come back to the first tracker. -/
def goesAway : Network
  | 1 | 3 => some .connectionClosedError
  | _ => none

theorem lines_carried_goesAway : ∃ start loop history lines,
    main twoTrackers .reliable (fun _ => none) (ascii " x\n\ny\nquit") = .ok start ∧
    Run start (Step (fun data => data) .oldestFirst 7 { ip := ascii "c", port := 3 } twoTrackers)
      history loop ∧
    lines.map (fun line => line.input) = [ascii "x", ascii "y", ascii "quit"] ∧
    lines.filterMap (fun line => line.fate.sent) = [ascii "17 x", ascii "17 y"] ∧
    Carried (fun data => data) 7 { ip := ascii "c", port := 3 } twoTrackers
      (ascii " x\n\ny\nquit") lines [] := by
  let atFirst : MainLoop :=
    { client := { disk := fun _ => none }, stdin := ascii " x\n\ny\nquit"
      tracker := { ip := ascii "a", port := 1 } }
  let atSecond : MainLoop :=
    { client := { disk := fun _ => none }, stdin := ascii "\ny\nquit"
      tracker := { ip := ascii "b", port := 2 } }
  let atEnd : MainLoop := { atSecond with stdin := ascii "quit" }
  have loses : atFirst.turn (fun data => data) .oldestFirst 7 { ip := ascii "c", port := 3 }
      twoTrackers goesAway [] = (.ok atSecond, .unanswered (ascii "17 x")) := rfl
  have goesOn : atSecond.turn (fun data => data) .oldestFirst 7 { ip := ascii "c", port := 3 }
      twoTrackers .reliable [] = (.ok atEnd, .answered (ascii "17 y") []) := rfl
  have quits : atEnd.turn (fun data => data) .oldestFirst 7 { ip := ascii "c", port := 3 }
      twoTrackers .reliable [] = (.error .quit, .settled) := rfl
  have run := (Run.start.step (Step.line loses)).step (Step.line goesOn)
  have carried := (lines_carried (show main twoTrackers .reliable (fun _ => none)
    (ascii " x\n\ny\nquit") = .ok atFirst from rfl) run).2 .reliable [] .quit .settled quits
  exact ⟨atFirst, _, _, _, rfl, run, rfl, rfl, carried⟩

/-! ## When the loop ends -/

/-- What happens up to the end of a turn: what the other threads and programs make of the
client, what the network does, and what a tracker answers. -/
structure Conditions where
  meanwhile : ClientState → ClientState
  network : Network
  response : Bytes

/-- The loop after some turns. -/
def after (sha1 : Bytes → Bytes) (platform : Platform) (myId : EndpointID)
    (clientEndpoint : Endpoint) (trackers : List Endpoint) (conditions : Nat → Conditions)
    (loop : MainLoop) : Nat → Except Ending MainLoop
  | 0 => .ok loop
  | count + 1 => do
      let loop ← loop.after sha1 platform myId clientEndpoint trackers conditions count
      ({ loop with client := (conditions count).meanwhile loop.client }.turn sha1 platform myId
        clientEndpoint trackers (conditions count).network (conditions count).response).1

/-- The turn is survived: nothing but a closed connection goes wrong, and then some tracker
accepts; and the answer can be read. -/
structure Conditions.Survived (platform : Platform) (trackers : List Endpoint)
    (conditions : Conditions) : Prop where
  sends : ∀ error, conditions.network 0 = some error →
    error = .connectionClosedError ∧
      ∃ tracker, openConnection trackers conditions.network 1 = .ok tracker
  receives : ∀ error, conditions.network 0 = none → conditions.network 1 = some error →
    error = .connectionClosedError ∧
      ∃ tracker, openConnection trackers conditions.network 2 = .ok tracker
  reads : ∃ file, decodeDownload platform conditions.response = .ok file

section Endings

variable {sha1 : Bytes → Bytes} {platform : Platform} {myId : EndpointID}
  {clientEndpoint : Endpoint} {trackers : List Endpoint} {loop : MainLoop}

theorem turn_quit {network : Network} {response : Bytes}
    (line : (readLine loop.stdin).1 = ascii "quit") :
    (loop.turn sha1 platform myId clientEndpoint trackers network response).1 = .error .quit := by
  rw [turn]
  simp only [line, if_true]

theorem reconnect_ok {network : Network} {operation : Nat}
    (opened : ∃ tracker, openConnection trackers network operation = .ok tracker) :
    ∃ next, loop.reconnect trackers network operation = .ok next := by
  obtain ⟨tracker, opened⟩ := opened
  rw [reconnect, opened]
  exact ⟨_, rfl⟩

theorem conclude_ok {client : ClientState} {response : Bytes} {awaiting : Awaiting}
    (reads : ∃ file, decodeDownload platform response = .ok file) :
    ∃ next, client.conclude platform response awaiting = .ok next := by
  obtain ⟨file, decoded⟩ := reads
  cases awaiting with
  | answer => exact ⟨client, rfl⟩
  | file destinationPath =>
      simp only [ClientState.conclude, decoded, bind, Except.bind]
      cases file <;> exact ⟨_, rfl⟩

/-- A turn that is survived goes on, unless its line is `quit`. -/
theorem turn_survived {conditions : Conditions} (survived : conditions.Survived platform trackers)
    (line : (readLine loop.stdin).1 ≠ ascii "quit") :
    ∃ next, (loop.turn sha1 platform myId clientEndpoint trackers conditions.network
      conditions.response).1 = .ok next := by
  simp only [turn, if_neg line]
  split
  · exact ⟨_, rfl⟩
  · next client request awaiting submitted =>
      split
      · next refused => exact reconnect_ok (survived.sends _ refused).2
      · next error other failed => exact absurd (survived.sends error failed).1 other
      · next sent =>
          split
          · next closed => exact reconnect_ok (survived.receives _ sent closed).2
          · next error other failed => exact absurd (survived.receives error sent failed).1 other
          · obtain ⟨next, concluded⟩ : ∃ next, client.conclude platform conditions.response
                awaiting = .ok next := conclude_ok survived.reads
            rw [concluded]
            exact ⟨_, rfl⟩

/-- A turn that is survived ends the loop if the next line is `quit`, and takes that line
otherwise. -/
theorem turn_inputs {conditions : Conditions} (survived : conditions.Survived platform trackers)
    (loop : MainLoop) :
    ((inputs loop.stdin).head? = some (ascii "quit") ∧
        (loop.turn sha1 platform myId clientEndpoint trackers conditions.network
          conditions.response).1 = .error .quit) ∨
      ((inputs loop.stdin).head? ≠ some (ascii "quit") ∧
        ∃ next, (loop.turn sha1 platform myId clientEndpoint trackers conditions.network
            conditions.response).1 = .ok next ∧
          inputs next.stdin = (inputs loop.stdin).tail) := by
  by_cases line : (readLine loop.stdin).1 = ascii "quit"
  · rcases readLine_cases loop.stdin with ⟨blank, _⟩ | ⟨_, split⟩
    · rw [blank] at line
      cases line
    · rw [split, line]
      exact Or.inl ⟨rfl, turn_quit line⟩
  · obtain ⟨next, turned⟩ : ∃ next, (loop.turn sha1 platform myId clientEndpoint trackers
        conditions.network conditions.response).1 = .ok next := turn_survived survived line
    have takes : loop.Takes sha1 myId clientEndpoint trackers _ next :=
      turn_takes (Prod.ext turned rfl)
    rw [turned]
    rcases readLine_cases loop.stdin with ⟨_, none, rest⟩ | ⟨_, split⟩
    · rw [none]
      exact Or.inr ⟨nofun, next, rfl, takes.rest ▸ rest⟩
    · rw [split]
      exact Or.inr ⟨fun same => line (Option.some.inj same), next, rfl, by rw [takes.rest]; rfl⟩

/-- As long as the line `quit` has not come, the loop is where the lines still left begin. -/
theorem after_cases {conditions : Nat → Conditions}
    (survived : ∀ count, (conditions count).Survived platform trackers) (count : Nat) :
    (ascii "quit" ∈ (inputs loop.stdin).take count ∧
        loop.after sha1 platform myId clientEndpoint trackers conditions count = .error .quit) ∨
      (ascii "quit" ∉ (inputs loop.stdin).take count ∧
        ∃ next, loop.after sha1 platform myId clientEndpoint trackers conditions count = .ok next ∧
          inputs next.stdin = (inputs loop.stdin).drop count) := by
  induction count with
  | zero => exact Or.inr ⟨by simp, loop, rfl, rfl⟩
  | succ count ih =>
      rcases ih with ⟨member, ended⟩ | ⟨absent, next, reached, left⟩
      · left
        constructor
        · exact (List.take_sublist_take_left (Nat.le_succ count)).subset member
        · rw [after, ended]
          rfl
      · simp only [after, reached, bind, Except.bind]
        have turned := @turn_inputs sha1 platform myId clientEndpoint trackers _ (survived count)
          { next with client := (conditions count).meanwhile next.client }
        simp only [left, List.head?_drop, List.tail_drop] at turned
        rw [List.take_add_one, List.mem_append, or_iff_right absent, Option.mem_toList]
        exact turned

/-- The line that is read behind the end of the input is sent all the same. -/
theorem clientRequest_nil (getFileInfo : Bytes → Option FileInfo) :
    clientRequest myId clientEndpoint getFileInfo [] = some (requestPrefix myId) := by
  simp [clientRequest, Stream.ofText_eq_reading, Stream.extractWord_nil, ascii]

/-- It says nothing that a tracker understands. -/
theorem parseRequest_blank (platform : Platform) (myId : EndpointID) :
    parseRequest platform (Text.toString myId.toNat ++ ascii " ") = none := by
  have head : (requestHead platform (Text.toString myId.toNat ++ ascii " ")).2.1 = [] := by
    have text : Text.toString myId.toNat ++ ascii " " = Text.toString myId.toNat ++ 32 :: [] := rfl
    rw [text, requestHead, Stream.ofText_eq_reading, Stream.extractSize_toString _ _ (by rfl)]
    simp only
    rw [Stream.extractWord_space (by rfl), Stream.extractWord_nil]
  rw [parseRequest]
  simp only [head, requestOfName_nil, Option.map_none]

end Endings

/-- A loop whose turns are all survived ends with the line `quit` and with nothing else.
Without that line it never ends: behind the last line of the input every turn sends a request
that says nothing, and any tracker answers that it does not know it. -/
theorem ends_with_quit {sha1 : Bytes → Bytes} {platform : Platform} {myId : EndpointID}
    {clientEndpoint : Endpoint} {trackers : List Endpoint} {conditions : Nat → Conditions}
    (survived : ∀ count, (conditions count).Survived platform trackers) (loop : MainLoop)
    (count : Nat) :
    (loop.after sha1 platform myId clientEndpoint trackers conditions count = .error .quit ↔
        ascii "quit" ∈ (inputs loop.stdin).take count) ∧
      ((∃ next, loop.after sha1 platform myId clientEndpoint trackers conditions count =
        .ok next) ↔ ascii "quit" ∉ (inputs loop.stdin).take count) ∧
      ∀ next, loop.after sha1 platform myId clientEndpoint trackers conditions count = .ok next →
        (inputs loop.stdin).length ≤ count →
          ({ next with client := (conditions count).meanwhile next.client }.turn sha1 platform myId
            clientEndpoint trackers (conditions count).network
            (conditions count).response).2.request = some (requestPrefix myId) ∧
          ∀ (other : Platform) (config : Config) (tracker : Tracker) (network : Network),
            network 0 = none →
              (processData other config tracker network (requestPrefix myId)).tracker = tracker ∧
              (processData other config tracker network (requestPrefix myId)).sent =
                [ascii "Unknown request"] := by
  have state : (ascii "quit" ∈ (inputs loop.stdin).take count ∧
      loop.after sha1 platform myId clientEndpoint trackers conditions count = .error .quit) ∨ _ :=
    after_cases survived count
  refine ⟨?_, ?_, ?_⟩
  · rcases state with ⟨member, ended⟩ | ⟨absent, next, reached, _⟩
    · exact iff_of_true ended member
    · refine iff_of_false ?_ absent
      rw [reached]
      nofun
  · rcases state with ⟨member, ended⟩ | ⟨absent, next, reached, _⟩
    · refine iff_of_false ?_ (not_not_intro member)
      rw [ended]
      rintro ⟨_, same⟩
      cases same
    · exact iff_of_true ⟨next, reached⟩ absent
  · intro next reached finished
    constructor
    · rcases state with ⟨_, ended⟩ | ⟨_, same, reachedToo, left⟩
      · rw [ended] at reached
        cases reached
      · obtain rfl := Except.ok.inj (reached.symm.trans reachedToo)
        rw [List.drop_of_length_le finished] at left
        rcases readLine_cases next.stdin with ⟨blank, _⟩ | ⟨_, split⟩
        · have goesOn : (readLine next.stdin).1 ≠ ascii "quit" := by
            rw [blank]
            decide
          let ready := { next with client := (conditions count).meanwhile next.client }
          obtain ⟨later, turned⟩ : ∃ later, (ready.turn sha1 platform myId clientEndpoint trackers
              (conditions count).network (conditions count).response).1 = .ok later :=
            turn_survived (survived count) goesOn
          have takes : ready.Takes sha1 myId clientEndpoint trackers _ later :=
            turn_takes (Prod.ext turned rfl)
          have request := takes.request
          rw [show (readLine ready.stdin).1 = [] from blank, clientRequest_nil] at request
          exact request
        · rw [left] at split
          cases split
    · intro other config tracker network delivered
      have text : requestPrefix myId = 49 :: (Text.toString myId.toNat ++ ascii " ") := rfl
      rw [text, processData]
      simp only [parseRequest_blank, delivered, and_self]

/-- A line that is `quit`, behind one that is not. -/
theorem ends_with_quit_second :
    ({ client := { disk := fun _ => none }, stdin := ascii "x\n quit\n"
       tracker := { ip := ascii "a", port := 1 } } : MainLoop).after (fun data => data)
      .oldestFirst 7 { ip := ascii "c", port := 3 } twoTrackers
      (fun _ => { meanwhile := id, network := .reliable, response := [] }) 2 = .error .quit :=
  (ends_with_quit (fun _ =>
    { sends := fun _ failed => by cases failed
      receives := fun _ _ failed => by cases failed
      reads := ⟨none, rfl⟩ })
    { client := { disk := fun _ => none }, stdin := ascii "x\n quit\n"
      tracker := { ip := ascii "a", port := 1 } } 2).1.mpr (by decide)

end MainLoop

end P2PFileShare
