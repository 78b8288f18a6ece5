import P2PFileShare.Tracker.Joining

/-!
# Handing a log on

A tracker that synchronises executes the log of another tracker without recording
it: `process_data` adds to `successful_transactions`, and the loop of
`sync_with_online_trackers` calls `process_request` directly.  So its own log stays
empty, and it has nothing to hand on.
-/

namespace P2PFileShare

open Container Text

/-- A process that runs a tracker. -/
structure Host where
  platform : Platform
  config : Config

/-- `sync_with_online_trackers` on a tracker that starts, with another one that is up
and handles no other request meanwhile. -/
def synchroniseWith (elder : Host) (tracker : Tracker) (joiner : Host) :
    Except Exception Tracker :=
  let served := processData elder.platform elder.config tracker Network.reliable
    (syncRequest joiner.config.myId)
  replay joiner.platform .empty (receivedEntries served.sent)

/-- Trackers start one after another.  Each synchronises with the one before it,
which then stops. -/
def relay : Host → Tracker → List Host → Except Exception (List Tracker)
  | _, _, [] => .ok []
  | elder, tracker, joiner :: joiners => do
      let next ← synchroniseWith elder tracker joiner
      let others ← relay joiner next joiners
      return next :: others

section Log

variable {platform : Platform} {tracker next : Tracker}

/-- Executing an entry does not record it. -/
theorem execute_log {data : Bytes} (executed : execute platform tracker data = .ok next) :
    next.successfulTransactions = tracker.successfulTransactions := by
  simp only [execute] at executed
  cases parsing : parseRequest platform data with
  | none => simp [parsing] at executed
  | some transaction =>
      by_cases sync : transaction.request = .tracker .sync
      · rcases transaction with ⟨origin, request, text, outcome⟩
        subst sync
        simp [parsing, processRequest] at executed
      · have log_eq := handle_log platform tracker transaction
        simp only [parsing, processRequest_unattended platform tracker transaction sync]
          at executed
        cases answer : (handle platform tracker transaction).1 with
        | error exception => simp [answer] at executed
        | ok result =>
            rw [answer] at executed
            cases executed
            exact log_eq

theorem replay_log {log : List Bytes} (replayed : replay platform tracker log = .ok next) :
    next.successfulTransactions = tracker.successfulTransactions := by
  induction log generalizing tracker with
  | nil =>
      cases replayed
      rfl
  | cons data log ih =>
      cases executed : execute platform tracker data with
      | error exception =>
          rw [replay, executed] at replayed
          cases replayed
      | ok after =>
          rw [replay, executed] at replayed
          exact (ih replayed).trans (execute_log executed)

end Log

section Chain

variable {elder joiner : Host} {tracker next : Tracker}

/-- A tracker that has synchronised has an empty log. -/
theorem synchroniseWith_log (synchronised : synchroniseWith elder tracker joiner = .ok next) :
    next.successfulTransactions = [] :=
  replay_log synchronised

/-- A tracker with an empty log hands nothing on. -/
theorem synchroniseWith_unlogged (unlogged : tracker.successfulTransactions = []) :
    synchroniseWith elder tracker joiner = .ok .empty := by
  simp only [synchroniseWith, processData_sync, unlogged, List.map_nil, List.nil_append]
  rfl

/-- A chain that is synchronised to its end is one handover followed by a chain. -/
theorem relay_cons {joiners : List Host} {trackers : List Tracker}
    (relayed : relay elder tracker (joiner :: joiners) = .ok trackers) :
    ∃ next others, synchroniseWith elder tracker joiner = .ok next ∧
      relay joiner next joiners = .ok others ∧ trackers = next :: others := by
  rw [relay] at relayed
  cases synchronised : synchroniseWith elder tracker joiner with
  | error exception =>
      rw [synchronised] at relayed
      cases relayed
  | ok next =>
      simp only [synchronised, bind, Except.bind] at relayed
      cases behind : relay joiner next joiners with
      | error exception =>
          rw [behind] at relayed
          cases relayed
      | ok others =>
          rw [behind] at relayed
          cases relayed
          exact ⟨next, others, rfl, behind, rfl⟩

/-- Every tracker of a chain has an empty log. -/
theorem relay_log {joiners : List Host} {trackers : List Tracker}
    (relayed : relay elder tracker joiners = .ok trackers) :
    ∀ reached ∈ trackers, reached.successfulTransactions = [] := by
  induction joiners generalizing elder tracker trackers with
  | nil =>
      cases relayed
      intro reached member
      cases member
  | cons joiner joiners ih =>
      rcases relay_cons relayed with ⟨next, others, synchronised, behind, rfl⟩
      intro reached member
      rcases List.mem_cons.mp member with rfl | later
      · exact synchroniseWith_log synchronised
      · exact ih behind reached later

/-- Behind the first handover nothing is left to hand on. -/
theorem relay_unlogged (unlogged : tracker.successfulTransactions = []) (joiners : List Host) :
    relay elder tracker joiners = .ok (joiners.map fun _ => .empty) := by
  induction joiners generalizing elder tracker with
  | nil => rfl
  | cons joiner joiners ih =>
      rw [relay, synchroniseWith_unlogged unlogged]
      have nothing : Tracker.empty.successfulTransactions = [] := rfl
      simp only [bind, Except.bind, ih nothing]
      rfl

/-- The log is handed on along a chain exactly if there is nothing to hand on. -/
theorem relay_log_iff (elder : Host) (tracker : Tracker) (joiners : List Host)
    (trackers : List Tracker) (nonempty : joiners ≠ [])
    (relayed : relay elder tracker joiners = .ok trackers) :
    (∀ reached ∈ trackers,
        reached.successfulTransactions.map Transaction.data =
          tracker.successfulTransactions.map Transaction.data) ↔
      tracker.successfulTransactions = [] := by
  have logs := relay_log relayed
  constructor
  · intro handed
    rcases List.exists_cons_of_ne_nil nonempty with ⟨joiner, behind, rfl⟩
    rcases relay_cons relayed with ⟨next, others, _, _, rfl⟩
    have same := handed next List.mem_cons_self
    rw [logs next List.mem_cons_self] at same
    exact List.map_eq_nil_iff.mp same.symm
  · intro unlogged reached member
    rw [logs reached member, unlogged]

end Chain

/-- Trackers that know of no other one. -/
def threeHosts : List Host :=
  [{ platform := .oldestFirst, config := .alone }, { platform := .newestFirst, config := .alone },
    { platform := .oldestFirst, config := .alone }]

theorem relay_log_readings :
    ∃ trackers, relay { platform := .oldestFirst, config := .alone }
        (serve .oldestFirst .alone .empty [ascii "117 list_users"]) threeHosts = .ok trackers ∧
      ((∀ reached ∈ trackers,
          reached.successfulTransactions.map Transaction.data =
            (serve .oldestFirst .alone .empty
              [ascii "117 list_users"]).successfulTransactions.map Transaction.data) ↔
        (serve .oldestFirst .alone .empty
          [ascii "117 list_users"]).successfulTransactions = []) := by
  have unlogged :
      (serve .oldestFirst .alone .empty [ascii "117 list_users"]).successfulTransactions = [] := by
    decide +kernel
  have relayed : relay { platform := .oldestFirst, config := .alone }
      (serve .oldestFirst .alone .empty [ascii "117 list_users"]) threeHosts =
        .ok (threeHosts.map fun _ => .empty) :=
    relay_unlogged unlogged threeHosts
  exact ⟨_, relayed, relay_log_iff _ _ threeHosts _ (List.cons_ne_nil _ _) relayed⟩

/-- One user is created.  The first tracker of the chain knows her and has logged
nothing; the second one does not know her. -/
theorem relay_forgets_user :
    (serve .oldestFirst .alone .empty
        [ascii "117 create_user ann pw"]).successfulTransactions.map Transaction.data =
        [ascii "17 create_user ann pw"] ∧
      ((relay { platform := .oldestFirst, config := .alone }
          (serve .oldestFirst .alone .empty [ascii "117 create_user ann pw"])
          threeHosts).toOption.map fun trackers => trackers.map fun reached =>
            ((reached.user? (ascii "ann")).isSome,
              reached.successfulTransactions.map Transaction.data)) =
        some [(true, []), (false, []), (false, [])] := by
  decide +kernel

end P2PFileShare
