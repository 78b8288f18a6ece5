import P2PFileShare.Swarm.Replies

/-!
# Requests and their answers

A client sends a request and waits for the answer.  As long as its connection holds, there
is never more than one message of it in flight, and what it gets is the answer to what it
asked.  Nobody waits in vain: the tracker has an answer for every request of a client, and
the client can take it.
-/

namespace P2PFileShare

open Container Text Transition

/-! ## What a client sends -/

section Commands

variable {ι : Type} {setting : Setting ι} {i : ι} {client : ClientState} {line request : Bytes}
  {awaiting : Awaiting}

/-- The request is the one that the typed word names. -/
theorem submit_request_named
    (sent : (client.submit setting.sha1 (setting.myId i) (setting.endpoint i) line).2 =
      some (request, awaiting)) :
    ∀ transaction ∈ parseRequest setting.trackerPlatform (request.drop 1),
      requestOfName (Stream.ofText line).extractWord.1 = some transaction.request := by
  obtain ⟨text, rfl, typed⟩ := submit_line sent
  intro transaction parsing
  rw [requestPrefix_drop, Option.mem_def] at parsing
  simp only [parseRequest] at parsing
  rcases Option.map_eq_some_iff.mp parsing with ⟨named, found, rfl⟩
  rw [requestHead_line, typed] at found
  exact found

/-- Only a download waits for a file. -/
theorem submit_awaits {destinationPath : Bytes}
    (sent : (client.submit setting.sha1 (setting.myId i) (setting.endpoint i) line).2 =
      some (request, .file destinationPath)) :
    (Stream.ofText line).extractWord.1 = ascii "download_file" := by
  simp only [ClientState.submit] at sent
  split at sent
  · split at sent
    · cases sent
    · cases sent
  · split at sent
    · assumption
    · split at sent
      · cases sent
      · cases sent

/-- What a tracker has an answer to, whatever its state. -/
structure Setting.Polite (setting : Setting ι) (request : Bytes) : Prop where
  flagged : ∃ data, request = 49 :: data
  notSync : ∀ transaction ∈ parseRequest setting.trackerPlatform (request.drop 1),
    transaction.request ≠ .tracker .sync
  harmless : ∀ tracker, ¬FatalUpload setting.trackerPlatform tracker (request.drop 1)

/-- Every request is polite, unless somebody types the one by which trackers ask each other
for their logs. -/
theorem submit_polite (regular : RegularDisk client.disk)
    (sent : (client.submit setting.sha1 (setting.myId i) (setting.endpoint i) line).2 =
      some (request, awaiting))
    (noSync : (Stream.ofText line).extractWord.1 ≠ ascii "sync") : setting.Polite request where
  flagged := by
    obtain ⟨text, rfl, _⟩ := submit_line sent
    exact ⟨Text.toString (setting.myId i).toNat ++ 32 :: text, by simp [requestPrefix, ascii]⟩
  notSync transaction parsing syncs := by
    have named := submit_request_named sent transaction parsing
    rw [syncs] at named
    exact noSync (requestOfName_sync named)
  harmless tracker fatal := by
    by_cases typed : (Stream.ofText line).extractWord.1 = ascii "upload_file"
    · simp only [ClientState.submit, if_pos typed] at sent
      split at sent
      · cases sent
      · next found =>
          simp only [Option.some.injEq, Prod.mk.injEq] at sent
          rcases sent with ⟨rfl, _⟩
          rcases Option.map_eq_some_iff.mp found with ⟨content, there, rfl⟩
          have isWord := isWord_basename (Stream.extractWord_noSpace _) (regular _ _ there).2
          exact uploadRequest_harmless (fun named => ⟨named, Stream.extractWord_noSpace _⟩)
            (getFileInfo_isPlain isWord setting.sha1_isWord) tracker fatal
    · obtain ⟨transaction, parsing, uploads, _⟩ := fatal
      have named := submit_request_named sent transaction parsing
      rw [uploads] at named
      exact typed (requestOfName_upload named)

end Commands

namespace Swarm

variable {ι : Type} [DecidableEq ι] {setting : Setting ι} {source target : Swarm ι}
  {event : SwarmEvent ι}

/-! ## One message for each client -/

/-- How many messages of a client are in flight. -/
def inFlight (swarm : Swarm ι) (i : ι) : Nat :=
  swarm.requests.countP (fun request => request.1 = i) +
    swarm.answers.countP fun answer => answer.1 = i

/-- The connections hold: a client gives up only when nothing is left of its exchange.  And
nobody types the request by which trackers ask each other for their logs. -/
def Orderly (swarm : Swarm ι) : SwarmEvent ι → Prop
  | .input _ line => (Stream.ofText line).extractWord.1 ≠ ascii "sync"
  | .fail i => swarm.inFlight i = 0
  | _ => True

def OrderlyStep (setting : Setting ι) (source : Swarm ι) (event : SwarmEvent ι)
    (target : Swarm ι) : Prop :=
  Step setting source event target ∧ source.Orderly event ∧ target.tracker.Countable

/-- No message is lost, and no reply fails. -/
def Lossless : SwarmEvent ι → Prop
  | .serve _ network => network 0 = none
  | .lose _ | .fail _ => False
  | _ => True

/-- A client that waits has at most one message in flight, and any other client none.  What
is in flight is a request that the tracker answers, or an answer that the client
understands. -/
structure Conversing (setting : Setting ι) (swarm : Swarm ι) : Prop where
  proper : Proper setting swarm
  seeded : ∀ groupId entry, swarm.tracker.directory.Lists groupId entry →
    entry.2.Nonempty ∧ ∀ seeder ∈ entry.2, ∃ i, seeder = setting.endpoint i
  countable : swarm.tracker.Countable
  alone : ∀ i, swarm.inFlight i ≤ if (swarm.awaiting i).isSome then 1 else 0
  polite : ∀ i request, (i, request) ∈ swarm.requests → setting.Polite request
  asks : ∀ i request destinationPath, (i, request) ∈ swarm.requests →
    swarm.awaiting i = some (.file destinationPath) →
      ∀ transaction ∈ parseRequest setting.trackerPlatform (request.drop 1),
        transaction.request = .file .download
  tells : ∀ i answer destinationPath, (i, answer) ∈ swarm.answers →
    swarm.awaiting i = some (.file destinationPath) →
      swarm.tracker.directory.Tells (setting.platform i) answer

theorem countP_eraseIdx {α : Type} {list : List α} {place : Nat} {element : α}
    (found : list[place]? = some element) (p : α → Bool) :
    list.countP p = (list.eraseIdx place).countP p + if p element then 1 else 0 := by
  obtain ⟨inRange, rfl⟩ := List.getElem?_eq_some_iff.mp found
  rw [← (List.getElem_cons_eraseIdx_perm inRange).countP_eq, List.countP_cons]

/-! ### What an event does -/

theorem next_input {i : ι} {line : Bytes}
    (next : source.next setting (.input i line) = some target) :
    source.awaiting i = none ∧
      let submitted := (source.client i).submit setting.sha1 (setting.myId i) (setting.endpoint i)
        line
      (submitted.2 = none ∧ target = source.setClient i submitted.1) ∨
        ∃ request awaiting, submitted.2 = some (request, awaiting) ∧
          target = { source.setClient i submitted.1 with
            awaiting := Function.update source.awaiting i (some awaiting)
            requests := source.requests ++ [(i, request)] } := by
  simp only [Swarm.next] at next
  split at next
  · cases next
  · next idle =>
      refine ⟨idle, ?_⟩
      split at next
      · next submitted =>
          rw [submitted]
          exact Or.inl ⟨rfl, (Option.some.inj next).symm⟩
      · next request awaiting submitted =>
          rw [submitted]
          exact Or.inr ⟨request, awaiting, rfl, (Option.some.inj next).symm⟩

/-- Any other event leaves the tracker alone and brings no message. -/
theorem next_silent (next : source.next setting event = some target)
    (notInput : ∀ i line, event ≠ .input i line)
    (notServe : ∀ place network, event ≠ .serve place network)
    (notReceive : ∀ place, event ≠ .receive place) :
    target.tracker = source.tracker ∧ target.requests.Sublist source.requests ∧
      target.answers = source.answers ∧
        ∀ i, target.awaiting i = source.awaiting i ∨
          event = .fail i ∧ target.awaiting i = none := by
  cases event with
  | input j line => exact absurd rfl (notInput j line)
  | serve place network => exact absurd rfl (notServe place network)
  | receive place => exact absurd rfl (notReceive place)
  | lose place =>
      obtain rfl := Option.some.inj next
      exact ⟨rfl, List.eraseIdx_sublist _ _, rfl, fun _ => Or.inl rfl⟩
  | fail j =>
      obtain rfl := Option.some.inj next
      refine ⟨rfl, List.Sublist.refl _, rfl, fun i => ?_⟩
      by_cases same : i = j
      · subst same
        exact Or.inr ⟨rfl, Function.update_self _ _ _⟩
      · exact Or.inl (Function.update_of_ne same _ _)
  | work j answers =>
      simp only [Swarm.next] at next
      split at next
      · cases next
      · obtain rfl := Option.some.inj next
        exact ⟨rfl, List.Sublist.refl _, rfl, fun _ => Or.inl rfl⟩
  | changeDisk j disk =>
      obtain rfl := Option.some.inj next
      exact ⟨rfl, List.Sublist.refl _, rfl, fun _ => Or.inl rfl⟩

/-! ### What is in flight -/

theorem inFlight_pos_of_request {swarm : Swarm ι} {i : ι} {request : Bytes}
    (member : (i, request) ∈ swarm.requests) : 0 < swarm.inFlight i :=
  Nat.add_pos_left (List.countP_pos_iff.mpr ⟨_, member, decide_eq_true rfl⟩) _

theorem inFlight_pos_of_answer {swarm : Swarm ι} {i : ι} {answer : Bytes}
    (member : (i, answer) ∈ swarm.answers) : 0 < swarm.inFlight i :=
  Nat.add_pos_right _ (List.countP_pos_iff.mpr ⟨_, member, decide_eq_true rfl⟩)

/-- A client that waits for nothing has nothing in flight. -/
theorem Conversing.idle {swarm : Swarm ι} (conversing : swarm.Conversing setting) {i : ι}
    (idle : swarm.awaiting i = none) : swarm.inFlight i = 0 := by
  have alone := conversing.alone i
  rw [idle] at alone
  exact Nat.le_zero.mp alone

theorem Conversing.writable {swarm : Swarm ι} (conversing : swarm.Conversing setting) :
    swarm.tracker.Writable where
  plain groupId entry lists := by
    obtain ⟨group, described⟩ := conversing.proper.listed groupId entry lists
    obtain ⟨nonempty, clients⟩ := conversing.seeded groupId entry lists
    refine ⟨group, isPlain_of_described described, nonempty, fun seeder member => ?_⟩
    obtain ⟨i, rfl⟩ := clients seeder member
    exact setting.endpoint_isPlain i
  countable := conversing.countable

/-- What is listed behind a request of a client has clients as seeders. -/
theorem Conversing.seeded_after {swarm : Swarm ι} (conversing : swarm.Conversing setting)
    {place : Nat} {i : ι} {request : Bytes} (found : swarm.requests[place]? = some (i, request))
    (network : Network) (groupId : Bytes) (entry : Entry)
    (lists : (processData setting.trackerPlatform .alone swarm.tracker network
      request).tracker.directory.Lists groupId entry) :
    entry.2.Nonempty ∧ ∀ seeder ∈ entry.2, ∃ i, seeder = setting.endpoint i := by
  have valid := conversing.proper.valid
  by_cases accepted : ∃ group endpoint fileInfo view,
      swarm.tracker.Accepts setting.trackerPlatform request group endpoint fileInfo view
  · rcases accepted with ⟨group, endpoint, fileInfo, view, accepts⟩
    obtain ⟨_, own, _⟩ := conversing.proper.accepted found accepts
    by_cases same : groupId = group
    · subst same
      have viewed : swarm.tracker.directory.groups groupId = some view :=
        accepts.choose_spec.2.2.1
      rcases listed_of_accepted valid network accepts lists with
        ⟨old, member, _, seeders⟩ | ⟨_, rfl⟩
      · obtain ⟨nonempty, clients⟩ := conversing.seeded groupId old ⟨view, viewed, member⟩
        rcases seeders with older | ⟨newer, _⟩
        · rw [older]
          exact ⟨nonempty, clients⟩
        · rw [newer]
          refine ⟨Finset.insert_nonempty _ _, ?_⟩
          intro seeder isSeeder
          rcases Finset.mem_insert.mp isSeeder with rfl | before
          · exact ⟨i, own⟩
          · exact clients seeder before
      · refine ⟨Finset.singleton_nonempty _, ?_⟩
        intro seeder isSeeder
        exact ⟨i, (Finset.mem_singleton.mp isSeeder).trans own⟩
    · exact conversing.seeded groupId entry
        (((lists_of_accepted valid network accepts entry).2 groupId same).mp lists)
  · have refused : ∀ group endpoint fileInfo view,
        ¬swarm.tracker.Accepts setting.trackerPlatform request group endpoint fileInfo view :=
      fun group endpoint fileInfo view accepts =>
        accepted ⟨group, endpoint, fileInfo, view, accepts⟩
    exact conversing.seeded groupId entry
      ((lists_of_refused valid network refused groupId entry).mp lists)

/-- The answer to a download tells what is listed. -/
theorem Conversing.tells_after {swarm : Swarm ι} (conversing : swarm.Conversing setting)
    {request : Bytes} (network : Network) (client : Platform)
    (polite : setting.Polite request)
    (asks : ∀ transaction ∈ parseRequest setting.trackerPlatform (request.drop 1),
      transaction.request = .file .download) :
    ∀ answer ∈ (processData setting.trackerPlatform .alone swarm.tracker network request).sent,
      swarm.tracker.directory.Tells client answer := by
  intro answer member
  obtain ⟨data, rfl⟩ := polite.flagged
  have notSync := polite.notSync
  rw [List.drop_one, List.tail_cons] at asks notSync
  cases parsing : parseRequest setting.trackerPlatform data with
  | none =>
      rw [processData_sent_unknown parsing] at member
      split at member
      · rw [List.mem_singleton.mp member]
        exact Or.inl (by rfl)
      · cases member
  | some transaction =>
      rw [processData_sent_eq parsing (notSync transaction parsing)] at member
      have download := asks transaction parsing
      split at member
      · next result answered =>
          split at member
          · rw [List.mem_singleton.mp member]
            rcases transaction with ⟨origin, _, text, outcome⟩
            subst download
            exact tells_of_download conversing.proper.valid conversing.writable client origin _
              answered
          · cases member
      · cases member

/-! ### The invariant -/

omit [DecidableEq ι] in
theorem Conversing.start [DecidableEq ι] : (start setting).Conversing setting where
  proper := .start
  seeded groupId entry lists := by
    rcases lists with ⟨view, found, _⟩
    cases found
  countable groupId file member := absurd member List.not_mem_nil
  alone _ := Nat.le_refl 0
  polite i request member := absurd member List.not_mem_nil
  asks i request destinationPath member := absurd member List.not_mem_nil
  tells i answer destinationPath member := absurd member List.not_mem_nil

/-- A line is typed: the client of it had nothing in flight. -/
theorem Conversing.input (conversing : source.Conversing setting) {i : ι} {line : Bytes}
    (step : OrderlyStep setting source (.input i line) target) :
    target.Conversing setting ∧
      ∀ j, target.awaiting j = source.awaiting j ∧ target.inFlight j = source.inFlight j ∨
        target.inFlight j = 1 := by
  obtain ⟨⟨next, leaves⟩, noSync, countable⟩ := step
  have properAfter := conversing.proper.step ⟨next, leaves⟩
  obtain ⟨idle, outcome⟩ := next_input next
  have nothing := conversing.idle idle
  rcases outcome with ⟨_, rfl⟩ | ⟨request, awaiting, submitted, rfl⟩
  · exact ⟨⟨properAfter, conversing.seeded, countable, conversing.alone, conversing.polite,
      conversing.asks, conversing.tells⟩, fun j => Or.inl ⟨rfl, rfl⟩⟩
  · have count (j : ι) : inFlight { source.setClient i ((source.client i).submit setting.sha1
        (setting.myId i) (setting.endpoint i) line).1 with
          awaiting := Function.update source.awaiting i (some awaiting)
          requests := source.requests ++ [(i, request)] } j =
        source.inFlight j + if i = j then 1 else 0 := by
      simp only [inFlight, setClient, List.countP_append, List.countP_singleton,
        decide_eq_true_eq]
      omega
    refine ⟨⟨properAfter, conversing.seeded, countable, ?_, ?_, ?_, ?_⟩, ?_⟩
    · intro j
      rw [count]
      by_cases same : i = j
      · subst same
        simp [nothing]
      · simp only [if_neg same, Nat.add_zero, Function.update_of_ne (Ne.symm same)]
        exact conversing.alone j
    · intro j other member
      rcases List.mem_append.mp member with older | new
      · exact conversing.polite j other older
      · obtain ⟨rfl, rfl⟩ := Prod.mk.inj (List.mem_singleton.mp new)
        exact submit_polite (conversing.proper.regular j) submitted noSync
    · intro j other destinationPath member waits transaction parsing
      rcases List.mem_append.mp member with older | new
      · by_cases same : j = i
        · subst same
          exact absurd nothing (Nat.ne_of_gt (inFlight_pos_of_request older))
        · exact conversing.asks j other destinationPath older
            ((Function.update_of_ne same _ _).symm.trans waits) transaction parsing
      · obtain ⟨rfl, rfl⟩ := Prod.mk.inj (List.mem_singleton.mp new)
        obtain rfl := Option.some.inj
          ((Function.update_self j (some awaiting) source.awaiting).symm.trans waits)
        have named := submit_request_named submitted transaction parsing
        rw [submit_awaits submitted] at named
        exact (Option.some.inj named).symm
    · intro j answer destinationPath member waits
      by_cases same : j = i
      · subst same
        exact absurd nothing (Nat.ne_of_gt (inFlight_pos_of_answer member))
      · exact conversing.tells j answer destinationPath member
          ((Function.update_of_ne same _ _).symm.trans waits)
    · intro j
      by_cases same : i = j
      · subst same
        exact Or.inr (by rw [count, nothing, if_pos rfl])
      · exact Or.inl ⟨Function.update_of_ne (Ne.symm same) _ _,
          by rw [count, if_neg same, Nat.add_zero]⟩

/-- A request is served: its answer takes its place. -/
theorem Conversing.serve (conversing : source.Conversing setting) {place : Nat}
    {network : Network} (step : OrderlyStep setting source (.serve place network) target) :
    target.Conversing setting ∧ target.awaiting = source.awaiting ∧
      (network 0 = none → target.inFlight = source.inFlight) := by
  obtain ⟨⟨next, leaves⟩, _, countable⟩ := step
  have properAfter := conversing.proper.step ⟨next, leaves⟩
  obtain ⟨i, request, found, rfl⟩ := next_serve next
  have requested := List.mem_of_getElem? found
  have polite := conversing.polite i request requested
  have short := processData_sent_cases setting.trackerPlatform .alone source.tracker network request
    polite.notSync
  have count (j : ι) := countP_eraseIdx found fun request => decide (request.1 = j)
  have answers (j : ι) : (source.answers ++ (processData setting.trackerPlatform .alone
      source.tracker network request).sent.map fun answer => (i, answer)).countP
        (fun answer => answer.1 = j) = source.answers.countP (fun answer => answer.1 = j) +
          if i = j then (processData setting.trackerPlatform .alone source.tracker network
            request).sent.length else 0 := by
    rw [List.countP_append, List.countP_map]
    congr 1
    by_cases same : i = j
    · simp [same, Function.comp_def]
    · simp [same, Function.comp_def]
  refine ⟨⟨properAfter, conversing.seeded_after found network, countable, ?_, ?_, ?_, ?_⟩, rfl, ?_⟩
  · intro j
    refine Nat.le_trans ?_ (conversing.alone j)
    have own := count j
    simp only [inFlight, answers]
    simp only [decide_eq_true_eq] at own
    rw [own]
    rcases short with none | ⟨reply, _, one, _⟩
    · rw [none]
      split <;> simp
    · rw [one]
      split <;> simp
      omega
  · exact fun j other member => conversing.polite j other (List.mem_of_mem_eraseIdx member)
  · exact fun j other destinationPath member =>
      conversing.asks j other destinationPath (List.mem_of_mem_eraseIdx member)
  · intro j answer destinationPath member waits
    apply Directory.Tells.processData conversing.proper.valid
    rcases List.mem_append.mp member with older | new
    · exact conversing.tells j answer destinationPath older waits
    · obtain ⟨sent, isSent, same⟩ := List.mem_map.mp new
      obtain ⟨rfl, rfl⟩ := Prod.mk.inj same
      exact conversing.tells_after network _ polite
        (conversing.asks i request destinationPath requested waits) sent isSent
  · intro delivered
    funext j
    obtain ⟨data, rfl⟩ := polite.flagged
    have notSync := polite.notSync
    have harmless := polite.harmless source.tracker
    rw [List.drop_one, List.tail_cons] at notSync harmless
    obtain ⟨reply, _, one⟩ := processData_answers .alone delivered notSync harmless
    have own := count j
    simp only [inFlight, answers]
    simp only [decide_eq_true_eq] at own
    rw [own, one]
    split <;> simp
    omega

/-- An answer is received: nothing of the exchange is left. -/
theorem Conversing.receive (conversing : source.Conversing setting) {place : Nat}
    (step : OrderlyStep setting source (.receive place) target) :
    target.Conversing setting ∧
      ∀ j, target.awaiting j = source.awaiting j ∧ target.inFlight j = source.inFlight j ∨
        target.awaiting j = none := by
  obtain ⟨⟨next, leaves⟩, _, countable⟩ := step
  have properAfter := conversing.proper.step ⟨next, leaves⟩
  obtain ⟨i, answer, awaiting, client, found, waits, _, rfl⟩ := next_receive next
  have count (j : ι) : source.inFlight j = inFlight { source.setClient i client with
      awaiting := Function.update source.awaiting i none
      answers := source.answers.eraseIdx place } j + if i = j then 1 else 0 := by
    have own := countP_eraseIdx found fun answer => decide (answer.1 = j)
    simp only [decide_eq_true_eq] at own
    simp only [inFlight, setClient]
    omega
  have nothing : inFlight { source.setClient i client with
      awaiting := Function.update source.awaiting i none
      answers := source.answers.eraseIdx place } i = 0 := by
    have alone := conversing.alone i
    have own := count i
    rw [waits, Option.isSome_some, if_pos rfl] at alone
    rw [if_pos rfl] at own
    omega
  have others {j : ι} (distinct : j ≠ i) : Function.update source.awaiting i none j =
      source.awaiting j := Function.update_of_ne distinct _ _
  refine ⟨⟨properAfter, conversing.seeded, countable, ?_, conversing.polite, ?_, ?_⟩, ?_⟩
  · intro j
    by_cases same : j = i
    · subst same
      rw [nothing]
      exact Nat.zero_le _
    · have alone := conversing.alone j
      rw [count j, if_neg (Ne.symm same), Nat.add_zero] at alone
      simpa only [others same] using alone
  · intro j request destinationPath member waits
    by_cases same : j = i
    · subst same
      exact absurd nothing (Nat.ne_of_gt (inFlight_pos_of_request member))
    · exact conversing.asks j request destinationPath member ((others same).symm.trans waits)
  · intro j other destinationPath member waits
    by_cases same : j = i
    · subst same
      exact absurd nothing (Nat.ne_of_gt (inFlight_pos_of_answer member))
    · exact conversing.tells j other destinationPath (List.mem_of_mem_eraseIdx member)
        ((others same).symm.trans waits)
  · intro j
    by_cases same : j = i
    · subst same
      exact Or.inr (Function.update_self _ _ _)
    · refine Or.inl ⟨others same, ?_⟩
      rw [count j, if_neg (Ne.symm same), Nat.add_zero]

/-- Any other event brings nothing into flight. -/
theorem Conversing.silent (conversing : source.Conversing setting)
    (step : OrderlyStep setting source event target)
    (notInput : ∀ i line, event ≠ .input i line)
    (notServe : ∀ place network, event ≠ .serve place network)
    (notReceive : ∀ place, event ≠ .receive place) : target.Conversing setting := by
  obtain ⟨⟨next, leaves⟩, orderly, countable⟩ := step
  have properAfter := conversing.proper.step ⟨next, leaves⟩
  obtain ⟨tracker, requests, answers, waiting⟩ := next_silent next notInput notServe notReceive
  have fewer (j : ι) : target.inFlight j ≤ source.inFlight j := by
    rw [inFlight, inFlight, answers]
    exact Nat.add_le_add_right requests.countP_le _
  have waited {j : ι} {awaiting : Awaiting} (waits : target.awaiting j = some awaiting) :
      source.awaiting j = some awaiting := by
    rcases waiting j with same | ⟨_, gaveUp⟩
    · exact same.symm.trans waits
    · cases gaveUp.symm.trans waits
  refine ⟨properAfter, ?_, countable, ?_, ?_, ?_, ?_⟩
  · rw [tracker]
    exact conversing.seeded
  · intro j
    rcases waiting j with same | ⟨rfl, _⟩
    · rw [same]
      exact Nat.le_trans (fewer j) (conversing.alone j)
    · rw [Nat.le_zero.mp (Nat.le_trans (fewer j) (Nat.le_of_eq orderly))]
      exact Nat.zero_le _
  · exact fun j request member => conversing.polite j request (requests.subset member)
  · exact fun j request destinationPath member waits =>
      conversing.asks j request destinationPath (requests.subset member) (waited waits)
  · intro j answer destinationPath member waits
    rw [answers] at member
    rw [tracker]
    exact conversing.tells j answer destinationPath member (waited waits)

theorem Conversing.step (conversing : source.Conversing setting)
    (step : OrderlyStep setting source event target) : target.Conversing setting := by
  cases event with
  | input i line => exact (conversing.input step).1
  | serve place network => exact (conversing.serve step).1
  | receive place => exact (conversing.receive step).1
  | lose place => exact conversing.silent step nofun nofun nofun
  | fail i => exact conversing.silent step nofun nofun nofun
  | work i answers => exact conversing.silent step nofun nofun nofun
  | changeDisk i disk => exact conversing.silent step nofun nofun nofun

/-- Whoever waits has a message in flight. -/
def Attended (swarm : Swarm ι) : Prop :=
  ∀ i, swarm.awaiting i ≠ none → swarm.inFlight i = 1

/-- As long as no message is lost, it is so. -/
theorem Attended.step (attended : source.Attended) (conversing : source.Conversing setting)
    (step : OrderlyStep setting source event target) (lossless : Lossless event) :
    target.Attended := by
  intro i waits
  have quiet (same : target.awaiting i = source.awaiting i ∧
      target.inFlight i = source.inFlight i) : target.inFlight i = 1 := by
    rw [same.2]
    exact attended i fun nothing => waits (same.1.trans nothing)
  cases event with
  | input j line => exact ((conversing.input step).2 i).elim quiet id
  | serve place network =>
      obtain ⟨_, waiting, inFlight⟩ := conversing.serve step
      exact quiet ⟨congrFun waiting i, congrFun (inFlight lossless) i⟩
  | receive place => exact ((conversing.receive step).2 i).elim quiet fun done => absurd done waits
  | lose place => exact lossless.elim
  | fail j => exact lossless.elim
  | work j answers =>
      have next := step.1.1
      simp only [Swarm.next] at next
      split at next
      · cases next
      · obtain rfl := Option.some.inj next
        exact attended i waits
  | changeDisk j disk =>
      obtain rfl := Option.some.inj step.1.1
      exact attended i waits

theorem conversing_run {history : List (SwarmEvent ι)} {swarm : Swarm ι}
    (run : Run (start setting) (OrderlyStep setting) history swarm) :
    swarm.Conversing setting :=
  run.invariant (p := fun _ swarm => swarm.Conversing setting) .start
    fun _ _ _ _ _ conversing step => conversing.step step

/-! ## Nobody waits in vain -/

/-- A client can take an answer that tells what is listed. -/
theorem concludes_of_tells {directory : Directory} {platform : Platform} {answer : Bytes}
    (client : ClientState) (awaiting : Awaiting)
    (tells : ∀ destinationPath, awaiting = .file destinationPath →
      directory.Tells platform answer) :
    ∃ next, client.conclude platform answer awaiting = .ok next := by
  cases awaiting with
  | answer => exact ⟨client, rfl⟩
  | file destinationPath =>
      rcases tells destinationPath rfl with nothing | ⟨file, decoded, _⟩
      · refine ⟨client, ?_⟩
        simp only [ClientState.conclude, nothing, bind, Except.bind, pure, Except.pure]
      · exact ⟨_, ClientState.conclude_file decoded⟩

/-- An answer that is received brings the client back to its prompt. -/
def BringsBack (setting : Setting ι) (swarm : Swarm ι) (i : ι) (place : Nat) : Prop :=
  ∃ target, swarm.next setting (.receive place) = some target ∧ target.awaiting i = none

/-- An answer that is in flight is received, unless its last buffer is full. -/
theorem bringsBack_iff {swarm : Swarm ι} {directory : Directory} {place : Nat} {i : ι}
    {answer : Bytes} {awaiting : Awaiting} (found : swarm.answers[place]? = some (i, answer))
    (waits : swarm.awaiting i = some awaiting)
    (tells : ∀ destinationPath, awaiting = .file destinationPath →
      directory.Tells (setting.platform i) answer) :
    swarm.BringsBack setting i place ↔ Receivable answer := by
  obtain ⟨client, concluded⟩ := concludes_of_tells (swarm.client i) awaiting tells
  simp only [BringsBack, Swarm.next, found, waits, concluded]
  constructor
  · rintro ⟨target, received, _⟩
    by_contra full
    rw [if_pos full] at received
    cases received
  · intro receivable
    rw [if_neg (not_not.mpr receivable)]
    exact ⟨_, rfl, Function.update_self _ _ _⟩

/-- A request that is in flight is served, unless its last buffer is full, and then its answer
is in flight. -/
theorem serves_iff {swarm : Swarm ι} (conversing : swarm.Conversing setting) {place : Nat} {i : ι}
    {request : Bytes} {awaiting : Awaiting} (found : swarm.requests[place]? = some (i, request))
    (waits : swarm.awaiting i = some awaiting) :
    (∃ served later answer, swarm.next setting (.serve place .reliable) = some served ∧
        served.answers[later]? = some (i, answer) ∧
          (served.BringsBack setting i later ↔ Receivable answer)) ↔
      Receivable request := by
  have member := List.mem_of_getElem? found
  have polite := conversing.polite i request member
  have told := conversing.tells_after .reliable (setting.platform i) polite
  constructor
  · rintro ⟨served, _, _, serves, _⟩
    by_contra full
    simp only [Swarm.next, found, if_pos full] at serves
    cases serves
  · intro receivable
    obtain ⟨data, rfl⟩ := polite.flagged
    have notSync := polite.notSync
    have harmless := polite.harmless swarm.tracker
    rw [List.drop_one, List.tail_cons] at notSync harmless
    obtain ⟨reply, _, sent⟩ :=
      processData_answers .alone (show Network.reliable 0 = none from rfl) notSync harmless
    let served : Swarm ι := { swarm with
      tracker := (processData setting.trackerPlatform .alone swarm.tracker .reliable
        (49 :: data)).tracker
      requests := swarm.requests.eraseIdx place
      answers := swarm.answers ++ [(i, reply)] }
    have serves : swarm.next setting (.serve place .reliable) = some served := by
      simp only [Swarm.next, found, if_neg (not_not.mpr receivable), sent, List.map_cons,
        List.map_nil, served]
    have last : served.answers[swarm.answers.length]? = some (i, reply) := by
      simp [served]
    refine ⟨served, swarm.answers.length, reply, serves, last, ?_⟩
    exact bringsBack_iff last waits fun destinationPath file =>
      told (conversing.asks i _ destinationPath member (file ▸ waits)) reply
        (by rw [sent]; exact List.mem_singleton_self reply)

/-- In every state of a lossless run, a client that does not wait has nothing in flight, and a
client that waits has exactly one message.  An answer brings it back to its prompt, and a
request is served and answered, each of them exactly if its last buffer is not full. -/
theorem conversations_end {history : List (SwarmEvent ι)} {swarm : Swarm ι}
    (run : Run (start setting) (fun source event target =>
      OrderlyStep setting source event target ∧ Lossless event) history swarm) (i : ι) :
    (swarm.awaiting i = none → swarm.inFlight i = 0) ∧
      (swarm.awaiting i ≠ none → swarm.inFlight i = 1 ∧
        (∀ place answer, swarm.answers[place]? = some (i, answer) →
          (swarm.BringsBack setting i place ↔ Receivable answer)) ∧
        ∀ place request, swarm.requests[place]? = some (i, request) →
          ((∃ served later answer, swarm.next setting (.serve place .reliable) = some served ∧
              served.answers[later]? = some (i, answer) ∧
                (served.BringsBack setting i later ↔ Receivable answer)) ↔
            Receivable request)) := by
  have conversing : swarm.Conversing setting :=
    conversing_run (run.mono fun _ _ _ step => step.1)
  have attended : swarm.Attended := by
    have both : swarm.Conversing setting ∧ swarm.Attended :=
      run.invariant (p := fun _ swarm => swarm.Conversing setting ∧ swarm.Attended)
        ⟨.start, fun _ waits => absurd rfl waits⟩
        fun _ _ _ _ _ before step =>
          ⟨before.1.step step.1, before.2.step before.1 step.1 step.2⟩
    exact both.2
  refine ⟨conversing.idle, fun waits => ⟨attended i waits, ?_, ?_⟩⟩
  · obtain ⟨awaiting, waits⟩ := Option.ne_none_iff_exists'.mp waits
    intro place answer found
    exact bringsBack_iff found waits fun destinationPath file =>
      conversing.tells i answer destinationPath (List.mem_of_getElem? found) (file ▸ waits)
  · obtain ⟨awaiting, waits⟩ := Option.ne_none_iff_exists'.mp waits
    intro place request found
    exact serves_iff conversing found waits

/-- A user has just typed her first line. -/
theorem conversations_end_first : ∃ swarm,
    (start oneClient).next oneClient (.input () (ascii "create_user u p")) = some swarm ∧
      swarm.inFlight () = 1 ∧
        (∀ place answer, swarm.answers[place]? = some ((), answer) →
          (swarm.BringsBack oneClient () place ↔ Receivable answer)) ∧
        ∀ place request, swarm.requests[place]? = some ((), request) →
          ((∃ served later answer, swarm.next oneClient (.serve place .reliable) = some served ∧
              served.answers[later]? = some ((), answer) ∧
                (served.BringsBack oneClient () later ↔ Receivable answer)) ↔
            Receivable request) := by
  obtain ⟨swarm, next⟩ := Option.isSome_iff_exists.mp
    (show ((start oneClient).next oneClient
      (.input () (ascii "create_user u p"))).isSome = true by decide +kernel)
  have waits : swarm.awaiting () ≠ none := by
    rcases (next_input next).2 with ⟨nothing, _⟩ | ⟨request, awaiting, _, rfl⟩
    · exact absurd nothing (by decide +kernel)
    · simp
  have tracker : swarm.tracker = Tracker.empty := by
    rcases (next_input next).2 with ⟨_, rfl⟩ | ⟨request, awaiting, _, rfl⟩
    · rfl
    · rfl
  have countable : swarm.tracker.Countable := by
    rw [tracker]
    exact fun groupId file member => absurd member List.not_mem_nil
  have typed : (Stream.ofText (ascii "create_user u p")).extractWord.1 ≠ ascii "sync" := by decide
  have tame : Tame (SwarmEvent.input () (ascii "create_user u p")) := trivial
  exact ⟨swarm, next, (conversations_end
    (Run.start.step ⟨⟨.of_tame tame next, typed, countable⟩, trivial⟩) ()).2 waits⟩

end Swarm

end P2PFileShare
