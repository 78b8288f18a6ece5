import P2PFileShare.Tracker.Failures
import P2PFileShare.Tracker.Relay

/-!
# Starting from the trackers that are up

`sync_with_online_trackers` asks the trackers of the list for their log, one after
another, and executes what it receives.  It ends with the first exchange that comes to
the closing `done`.  An exchange whose connection is refused or closed is given up, with
what it has brought, and the next tracker is asked.
-/

namespace P2PFileShare

open Container Text

/-- What becomes of the attempt to reach a tracker.  `connect` throws; or the messages of
the other side arrive, and the socket operations behind `connect` do what the network
says. -/
inductive Contact
  | fails (error : NetworkError)
  | connects (received : List Bytes) (network : Network)

/-- The loop over the messages of one tracker.  Each is received and acknowledged.  Behind
the last one `receive_data` finds the connection closed. -/
def receiveLog (platform : Platform) (network : Network) :
    List Bytes → Nat → Tracker → Except Exception Unit × Tracker
  | [], operation, tracker =>
      match network operation with
      | some error => (.error (.network error), tracker)
      | none => (.error (.network .connectionClosedError), tracker)
  | data :: received, operation, tracker =>
      match network operation with
      | some error => (.error (.network error), tracker)
      | none =>
          if data = [] ∨ data = ascii "done" then (.ok (), tracker)
          else
            match network (operation + 1) with
            | some error => (.error (.network error), tracker)
            | none =>
                match execute platform tracker data with
                | .error exception => (.error exception, tracker)
                | .ok next => receiveLog platform network received (operation + 2) next

/-- The exchange with one tracker: the request is sent, and the log comes back. -/
def Contact.exchange (platform : Platform) (tracker : Tracker) :
    Contact → Except Exception Unit × Tracker
  | .fails error => (.error (.network error), tracker)
  | .connects received network =>
      match network 0 with
      | some error => (.error (.network error), tracker)
      | none => receiveLog platform network received 1 tracker

/-- `sync_with_online_trackers`.  A connection that is refused or lost is the only failure
that it handles. -/
def syncWithOnlineTrackers (platform : Platform) (config : Config)
    (contact : Endpoint → Contact) : Tracker → List Endpoint → Except Exception Bool × Tracker
  | tracker, [] => (.ok false, tracker)
  | tracker, endpoint :: trackers =>
      if endpoint.generateId platform = config.myId then
        syncWithOnlineTrackers platform config contact tracker trackers
      else
        match (contact endpoint).exchange platform tracker with
        | (.ok (), next) => (.ok true, next)
        | (.error (.network .connectionClosedError), next) =>
            syncWithOnlineTrackers platform config contact next trackers
        | (.error exception, next) => (.error exception, next)

section Replay

variable {platform : Platform} {config : Config} {contact : Endpoint → Contact}
  {tracker : Tracker}

theorem replay_append (tracker : Tracker) (earlier later : List Bytes) :
    replay platform tracker (earlier ++ later) =
      (replay platform tracker earlier).bind fun next => replay platform next later := by
  induction earlier generalizing tracker with
  | nil => rfl
  | cons data earlier ih =>
      simp only [List.cons_append, replay, bind, Except.bind]
      cases execute platform tracker data with
      | error exception => rfl
      | ok next => exact ih next

end Replay

/-! ## How an exchange ends -/

/-- The next operations of the network work, as many as are said. -/
def Network.Works (network : Network) (first count : Nat) : Prop :=
  ∀ offset < count, network (first + offset) = none

/-- How the loop over the messages ends, with which of the entries executed.  Two operations
belong to each entry. -/
inductive LogReceived (platform : Platform) (network : Network) (received : List Bytes)
    (first : Nat) (tracker : Tracker) : List Bytes → Except Exception Unit → Prop
  /-- Behind the entries came the closing message. -/
  | ended (closing : (receivedEntries received).length < received.length)
      (works : network.Works first (2 * (receivedEntries received).length + 1)) :
      LogReceived platform network received first tracker (receivedEntries received) (.ok ())
  /-- The connection was closed without it. -/
  | closed (entries : receivedEntries received = received)
      (works : network.Works first (2 * received.length + 1)) :
      LogReceived platform network received first tracker received
        (.error (.network .connectionClosedError))
  /-- An operation of the network failed. -/
  | broken {offset : Nat} {error : NetworkError}
      (inside : offset ≤ 2 * (receivedEntries received).length)
      (works : network.Works first offset) (fails : network (first + offset) = some error) :
      LogReceived platform network received first tracker
        ((receivedEntries received).take (offset / 2)) (.error (.network error))
  /-- An entry could not be executed. -/
  | refused {place : Nat} {data : Bytes} {reached : Tracker} {exception : Exception}
      (found : (receivedEntries received)[place]? = some data)
      (works : network.Works first (2 * place + 2))
      (replayed : replay platform tracker ((receivedEntries received).take place) = .ok reached)
      (throws : execute platform reached data = .error exception) :
      LogReceived platform network received first tracker
        ((receivedEntries received).take place) (.error exception)

section LogReceived

variable {platform : Platform} {network : Network} {received executed : List Bytes}
  {first count : Nat} {tracker : Tracker} {outcome : Except Exception Unit} {data : Bytes}

theorem Network.works_zero : network.Works first 0 :=
  nofun

theorem Network.works_one (works : network first = none) : network.Works first 1 := by
  intro offset inside
  obtain rfl := Nat.lt_one_iff.mp inside
  exact works

/-- The operations that belong to one entry, and those behind it. -/
theorem Network.Works.entry (received : network first = none)
    (acknowledged : network (first + 1) = none) (works : network.Works (first + 2) count) :
    network.Works first (count + 2) := by
  intro offset inside
  match offset with
  | 0 => exact received
  | 1 => exact acknowledged
  | offset + 2 =>
      rw [Nat.add_comm offset 2, ← Nat.add_assoc]
      exact works offset (Nat.lt_of_add_lt_add_right inside)

theorem receivedEntries_cons (received : List Bytes) (entry : ¬(data = [] ∨ data = ascii "done")) :
    receivedEntries (data :: received) = data :: receivedEntries received := by
  rw [receivedEntries, List.takeWhile_cons_of_pos (by simpa [not_or] using entry), receivedEntries]

theorem receivedEntries_closing (received : List Bytes)
    (closing : data = [] ∨ data = ascii "done") :
    receivedEntries (data :: received) = [] := by
  rw [receivedEntries, List.takeWhile_cons_of_neg (by simpa [or_iff_not_imp_left] using closing)]

/-- What is executed is a beginning of what was received. -/
theorem LogReceived.beginning
    (log : LogReceived platform network received first tracker executed outcome) :
    executed <+: receivedEntries received := by
  cases log with
  | ended _ _ => exact List.prefix_rfl
  | closed entries _ => rw [entries]
  | broken _ _ _ => exact List.take_prefix _ _
  | refused _ _ _ _ => exact List.take_prefix _ _

/-- One more entry in front of the others. -/
theorem LogReceived.entry {next : Tracker} (isEntry : ¬(data = [] ∨ data = ascii "done"))
    (received? : network first = none) (acknowledged : network (first + 1) = none)
    (executes : execute platform tracker data = .ok next)
    (log : LogReceived platform network received (first + 2) next executed outcome) :
    LogReceived platform network (data :: received) first tracker (data :: executed) outcome := by
  have entries := receivedEntries_cons received isEntry
  cases log with
  | ended closing works =>
      rw [← entries]
      apply LogReceived.ended
      · rw [entries, List.length_cons, List.length_cons]
        exact Nat.succ_lt_succ closing
      · rw [entries]
        exact .entry received? acknowledged works
  | closed all works =>
      apply LogReceived.closed
      · rw [entries, all]
      · exact .entry received? acknowledged works
  | @broken offset error inside works fails =>
      have half : (offset + 2) / 2 = offset / 2 + 1 := Nat.add_div_right offset Nat.two_pos
      rw [← List.take_succ_cons, ← entries, ← half]
      apply LogReceived.broken
      · rw [entries, List.length_cons, Nat.mul_add]
        exact Nat.add_le_add_right inside 2
      · exact .entry received? acknowledged works
      · rw [Nat.add_comm offset 2, ← Nat.add_assoc]
        exact fails
  | @refused place entry reached exception found works replayed throws =>
      rw [← List.take_succ_cons, ← entries]
      apply LogReceived.refused
      · rw [entries, List.getElem?_cons_succ]
        exact found
      · exact .entry received? acknowledged works
      · rw [entries, List.take_succ_cons, replay, executes]
        exact replayed
      · exact throws

/-- The loop ends in one of these ways, and has executed just that. -/
theorem receiveLog_received (network : Network) (received : List Bytes) (first : Nat)
    (tracker : Tracker) :
    ∃ executed, LogReceived platform network received first tracker executed
        (receiveLog platform network received first tracker).1 ∧
      replay platform tracker executed =
        .ok (receiveLog platform network received first tracker).2 := by
  induction received generalizing first tracker with
  | nil =>
      refine ⟨[], ?_, ?_⟩
      · rw [receiveLog]
        cases fails : network first with
        | some error => exact .broken (Nat.zero_le _) Network.works_zero fails
        | none => exact .closed rfl (Network.works_one fails)
      · rw [receiveLog]
        split <;> rfl
  | cons data received ih =>
      rw [receiveLog]
      cases received? : network first with
      | some error =>
          exact ⟨[], .broken (Nat.zero_le _) Network.works_zero received?, rfl⟩
      | none =>
          by_cases closing : data = [] ∨ data = ascii "done"
          · have nothing := receivedEntries_closing received closing
            simp only [if_pos closing]
            refine ⟨[], ?_, rfl⟩
            have ended := @LogReceived.ended platform network (data :: received) first tracker
            rw [nothing] at ended
            exact ended (Nat.succ_pos _) (Network.works_one received?)
          · simp only [if_neg closing]
            have entries := receivedEntries_cons received closing
            have present : 1 ≤ 2 * (receivedEntries (data :: received)).length := by
              rw [entries, List.length_cons]
              omega
            cases acknowledged : network (first + 1) with
            | some error =>
                exact ⟨[], .broken present (Network.works_one received?) acknowledged, rfl⟩
            | none =>
                cases executes : execute platform tracker data with
                | error exception =>
                    have found : (receivedEntries (data :: received))[0]? = some data := by
                      rw [entries]
                      rfl
                    have works := Network.Works.entry received? acknowledged Network.works_zero
                    exact ⟨[], .refused found works rfl executes, rfl⟩
                | ok next =>
                    obtain ⟨executed, log, replayed⟩ := ih (first + 2) next
                    refine
                      ⟨data :: executed, .entry closing received? acknowledged executes log, ?_⟩
                    rw [replay, executes]
                    exact replayed

end LogReceived

section Trackers

variable {platform : Platform} {config : Config} {contact : Endpoint → Contact}
  {tracker : Tracker}

/-- What a tracker sends up to the end of its log. -/
def Contact.entries : Contact → List Bytes
  | .fails _ => []
  | .connects received _ => receivedEntries received

/-- How an exchange ends, with which of the entries executed. -/
inductive Contact.Exchanged (platform : Platform) (tracker : Tracker) :
    Contact → List Bytes → Except Exception Unit → Prop
  | fails (error : NetworkError) :
      Exchanged platform tracker (.fails error) [] (.error (.network error))
  | unsent {received : List Bytes} {network : Network} {error : NetworkError}
      (fails : network 0 = some error) :
      Exchanged platform tracker (.connects received network) [] (.error (.network error))
  | sent {received executed : List Bytes} {network : Network} {outcome : Except Exception Unit}
      (works : network 0 = none)
      (log : LogReceived platform network received 1 tracker executed outcome) :
      Exchanged platform tracker (.connects received network) executed outcome

theorem Contact.exchange_exchanged (contact : Contact) (tracker : Tracker) :
    ∃ executed, Exchanged platform tracker contact executed
        (contact.exchange platform tracker).1 ∧
      replay platform tracker executed = .ok (contact.exchange platform tracker).2 := by
  cases contact with
  | fails error => exact ⟨[], .fails error, rfl⟩
  | connects received network =>
      rw [exchange]
      cases sent : network 0 with
      | some error => exact ⟨[], .unsent sent, rfl⟩
      | none =>
          obtain ⟨executed, log, replayed⟩ := receiveLog_received network received 1 tracker
          exact ⟨executed, .sent sent log, replayed⟩

theorem Contact.Exchanged.beginning {contact : Contact} {executed : List Bytes}
    {outcome : Except Exception Unit}
    (exchanged : Exchanged platform tracker contact executed outcome) :
    executed <+: contact.entries := by
  cases exchanged with
  | fails error => exact List.nil_prefix
  | unsent _ => exact List.nil_prefix
  | sent _ log => exact log.beginning

/-- What has been asked of whom, when `sync_with_online_trackers` ends.  The connections to
all but the last of the trackers were refused or closed; the exchange with the last one came
to its end, or it was the last of the list, or its exception ends the process.  Each finds
the tracker as the exchanges before have left it. -/
inductive Synchronised (platform : Platform) (contact : Endpoint → Contact) :
    Tracker → List Endpoint → Except Exception Bool → List (Endpoint × List Bytes) → Prop
  | nobody (tracker : Tracker) : Synchronised platform contact tracker [] (.ok false) []
  | told {tracker : Tracker} {endpoint : Endpoint} (others : List Endpoint)
      {executed : List Bytes}
      (ended : (contact endpoint).Exchanged platform tracker executed (.ok ())) :
      Synchronised platform contact tracker (endpoint :: others) (.ok true)
        [(endpoint, executed)]
  | passed {tracker reached : Tracker} {endpoint : Endpoint} {others : List Endpoint}
      {outcome : Except Exception Bool} {asked : List (Endpoint × List Bytes)}
      {executed : List Bytes}
      (closed : (contact endpoint).Exchanged platform tracker executed
        (.error (.network .connectionClosedError)))
      (replayed : replay platform tracker executed = .ok reached)
      (behind : Synchronised platform contact reached others outcome asked) :
      Synchronised platform contact tracker (endpoint :: others) outcome
        ((endpoint, executed) :: asked)
  | thrown {tracker : Tracker} {endpoint : Endpoint} (others : List Endpoint)
      {executed : List Bytes} {exception : Exception}
      (escapes : exception ≠ .network .connectionClosedError)
      (thrown : (contact endpoint).Exchanged platform tracker executed (.error exception)) :
      Synchronised platform contact tracker (endpoint :: others) (.error exception)
        [(endpoint, executed)]

/-- Whatever the other trackers do, a tracker that starts asks the others in the order of the
list, up to the first exchange that does not end with a connection that is refused or
closed, and it returns or throws what that exchange says.  It has executed what was executed
in these exchanges, and nothing else. -/
theorem syncWithOnlineTrackers_executes (platform : Platform) (config : Config)
    (contact : Endpoint → Contact) (tracker : Tracker) (trackers : List Endpoint) :
    ∃ asked, Synchronised platform contact tracker
        (trackers.filter fun endpoint => endpoint.generateId platform ≠ config.myId)
        (syncWithOnlineTrackers platform config contact tracker trackers).1 asked ∧
      replay platform tracker (asked.flatMap Prod.snd) =
        .ok (syncWithOnlineTrackers platform config contact tracker trackers).2 := by
  induction trackers generalizing tracker with
  | nil => exact ⟨[], .nobody tracker, rfl⟩
  | cons endpoint trackers ih =>
      rw [syncWithOnlineTrackers]
      by_cases own : endpoint.generateId platform = config.myId
      · rw [if_pos own, List.filter_cons_of_neg (by simpa using own)]
        exact ih tracker
      · rw [if_neg own, List.filter_cons_of_pos (by simpa using own)]
        obtain ⟨executed, exchanged, replayed⟩ :=
          @Contact.exchange_exchanged platform (contact endpoint) tracker
        generalize (contact endpoint).exchange platform tracker = outcome at exchanged replayed
        split
        · refine ⟨[(endpoint, executed)], .told _ exchanged, ?_⟩
          rw [List.flatMap_singleton]
          exact replayed
        · next reached =>
            obtain ⟨asked, behind, later⟩ := ih reached
            refine ⟨(endpoint, executed) :: asked, .passed exchanged replayed behind, ?_⟩
            rw [List.flatMap_cons, replay_append, replayed]
            exact later
        · next exception reached lost =>
            refine ⟨[(endpoint, executed)], .thrown _ ?_ exchanged, ?_⟩
            · rintro rfl
              exact lost rfl
            · rw [List.flatMap_singleton]
              exact replayed

section Elder

variable {outcome : Except Exception Bool} {endpoints : List Endpoint}
  {asked : List (Endpoint × List Bytes)}

/-- Where nobody can be reached, nothing is executed. -/
theorem Synchronised.alone
    (synchronised : Synchronised platform contact tracker endpoints outcome asked)
    (down : ∀ endpoint ∈ endpoints, (contact endpoint).entries = []) :
    asked.flatMap Prod.snd = [] := by
  have nothing {endpoint : Endpoint} {executed : List Bytes}
      (beginning : executed <+: (contact endpoint).entries)
      (here : (contact endpoint).entries = []) :
      executed = [] := by
    rw [here] at beginning
    exact List.prefix_nil.mp beginning
  induction synchronised with
  | nobody tracker => rfl
  | told others ended =>
      rw [List.flatMap_singleton]
      exact nothing ended.beginning (down _ List.mem_cons_self)
  | passed closed replayed behind ih =>
      rw [List.flatMap_cons, nothing closed.beginning (down _ List.mem_cons_self), List.nil_append]
      exact ih fun endpoint member => down endpoint (List.mem_cons_of_mem _ member)
  | thrown others escapes thrown =>
      rw [List.flatMap_singleton]
      exact nothing thrown.beginning (down _ List.mem_cons_self)

/-- Where only one tracker can be reached, a beginning of what it sends is executed. -/
theorem Synchronised.elder
    (synchronised : Synchronised platform contact tracker endpoints outcome asked)
    (elder : Endpoint) (distinct : endpoints.Nodup)
    (down : ∀ endpoint ∈ endpoints, endpoint ≠ elder → (contact endpoint).entries = []) :
    asked.flatMap Prod.snd <+: (contact elder).entries := by
  have single {endpoint : Endpoint} {executed : List Bytes}
      (beginning : executed <+: (contact endpoint).entries)
      (other : endpoint ≠ elder → (contact endpoint).entries = []) :
      executed <+: (contact elder).entries := by
    by_cases same : endpoint = elder
    · exact same ▸ beginning
    · rw [other same] at beginning
      exact beginning.trans List.nil_prefix
  induction synchronised with
  | nobody tracker => exact List.nil_prefix
  | told others ended =>
      rw [List.flatMap_singleton]
      exact single ended.beginning (down _ List.mem_cons_self)
  | @passed tracker reached endpoint others outcome asked executed closed replayed behind ih =>
      obtain ⟨fresh, distinct⟩ := List.nodup_cons.mp distinct
      rw [List.flatMap_cons]
      by_cases same : endpoint = elder
      · subst same
        rw [behind.alone fun other member => down other (List.mem_cons_of_mem _ member)
          fun same => fresh (same ▸ member), List.append_nil]
        exact closed.beginning
      · have beginning := closed.beginning
        rw [down endpoint List.mem_cons_self same] at beginning
        rw [List.prefix_nil.mp beginning, List.nil_append]
        exact ih distinct fun other member => down other (List.mem_cons_of_mem _ member)
  | thrown others escapes thrown =>
      rw [List.flatMap_singleton]
      exact single thrown.beginning (down _ List.mem_cons_self)

end Elder

end Trackers

end P2PFileShare
