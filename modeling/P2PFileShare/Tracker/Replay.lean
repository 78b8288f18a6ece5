import P2PFileShare.Tracker.Serving
import Mathlib.Data.Finset.Card

/-!
# Rebuilding a tracker from its log

`sync_with_online_trackers` executes the log of another tracker, entry by entry,
without a client and without mirroring.  The rebuilt state agrees with the
original one as long as no request changes the state while it reports a failure,
and no request is decided by what the platform leaves open.
-/

namespace P2PFileShare

open Container Text

/-- The body of the loop of `sync_with_online_trackers`, for one entry. -/
def execute (platform : Platform) (tracker : Tracker) (data : Bytes) :
    Except Exception Tracker :=
  match parseRequest platform data with
  | none => .error .unknownRequest
  | some transaction =>
      match processRequest platform tracker transaction none false with
      | { outcome := .ok _, tracker, .. } => .ok tracker
      | { outcome := .error exception, .. } => .error exception

/-- The loop of `sync_with_online_trackers` over the entries it receives. -/
def replay (platform : Platform) : Tracker → List Bytes → Except Exception Tracker
  | tracker, [] => .ok tracker
  | tracker, data :: log => do
      let tracker ← execute platform tracker data
      replay platform tracker log

/-! ## When the log tells everything -/

namespace Directory

variable (directory : Directory) (origin : EndpointID)

/-- The user of the session is a member of the group. -/
def Admits (view : GroupView) : Prop :=
  ∃ user ∈ directory.sessions origin, view.HasMember user

instance (view : GroupView) : Decidable (directory.Admits origin view) :=
  inferInstanceAs (Decidable (∃ user, user ∈ directory.sessions origin ∧ view.HasMember user))

/-- The log tells the whole effect of a command.

* An owner accepts a name that at most one pending user carries: of several, the
  order of a hash set would choose one.
* A member uploads content that is new, and other platforms decode the upload
  alike; or it names a seeder that the known file already has.  A new seeder of a
  known file is added, but the upload counts as a failure and is not recorded. -/
def Faithful (alike : Prop) : Command → Prop
  | .group groupId (.accept username) =>
      ∀ view ∈ directory.groups groupId, view.owner ∈ directory.sessions origin →
        (directory.candidates groupId username).card ≤ 1
  | .group groupId (.upload endpoint fileInfo) =>
      ∀ view ∈ directory.groups groupId, directory.Admits origin view →
        if view.HasContent fileInfo.hash then
          ∀ entry ∈ view.files, entry.1.hash = fileInfo.hash → endpoint ∈ entry.2
        else alike
  | _ => True

instance (alike : Prop) [Decidable alike] :
    (command : Command) → Decidable (directory.Faithful origin alike command)
  | .group groupId (.accept _) =>
      inferInstanceAs (Decidable (∀ view ∈ directory.groups groupId, _ → _))
  | .group groupId (.upload endpoint fileInfo) =>
      inferInstanceAs (Decidable (∀ view ∈ directory.groups groupId, _ →
        if view.HasContent fileInfo.hash then
          ∀ entry ∈ view.files, entry.1.hash = fileInfo.hash → endpoint ∈ entry.2
        else alike))
  | .group _ .create | .group _ .join | .group _ .leave | .group _ (.download _)
  | .group _ .read | .createUser _ _ | .deleteUser _ | .login _ _ | .logout | .read =>
      isTrue trivial

/-- A seeder that the file already has changes nothing. -/
theorem reseed_eq_self {view : GroupView} {hash : Bytes} {endpoint : Endpoint}
    (seeded : ∀ entry ∈ view.files, entry.1.hash = hash → endpoint ∈ entry.2) :
    view.reseed hash endpoint = view := by
  have unchanged : ∀ entry ∈ view.files,
      (if entry.1.hash = hash then (entry.1, insert endpoint entry.2) else entry) = entry := by
    intro entry member
    split
    · next same => rw [Finset.insert_eq_self.mpr (seeded entry member same)]
    · rfl
  have files_eq : (view.files.image fun entry =>
      if entry.1.hash = hash then (entry.1, insert endpoint entry.2) else entry) = view.files := by
    rw [Finset.image_congr unchanged, Finset.image_id']
  simp only [GroupView.reseed, files_eq]

variable {directory origin}

/-- A command that is not recorded has no effect. -/
theorem exec_unchanged {alike : Prop} {picked : Option User} {command : Command}
    (faithful : directory.Faithful origin alike command)
    (failure : (directory.exec picked origin command).1 = false) :
    (directory.exec picked origin command).2 = directory := by
  have effect := exec_effect picked directory origin command
  rw [failure] at effect
  generalize (directory.exec picked origin command).2 = after at effect
  cases effect with
  | idle => rfl
  | @group groupId command user _ after session step =>
      suffices unchanged : after = directory.groups groupId by
        rw [unchanged, Function.update_eq_self]
      generalize found : directory.groups groupId = view at step
      cases step with
      | idle => rfl
      | @reseed view fileInfo endpoint member known =>
          have told := faithful view found ⟨user, session, member⟩
          rw [if_pos known] at told
          rw [reseed_eq_self told]

/-- A successful upload is made by a member, and its content is new. -/
theorem exec_upload_success {picked : Option User} {groupId : Bytes} {endpoint : Endpoint}
    {fileInfo : FileInfo}
    (success : (directory.exec picked origin (.group groupId (.upload endpoint fileInfo))).1 =
      true) :
    ∃ view ∈ directory.groups groupId, directory.Admits origin view ∧
      ¬view.HasContent fileInfo.hash := by
  have effect := exec_effect picked directory origin (.group groupId (.upload endpoint fileInfo))
  rw [success] at effect
  generalize (directory.exec picked origin _).2 = after at effect
  cases effect with
  | @group _ _ user _ after session step =>
      generalize found : directory.groups groupId = view at step
      cases step with
      | @upload view _ _ member fresh => exact ⟨view, rfl, ⟨user, session, member⟩, fresh⟩

/-- Where one user at most can be accepted, the choice does not matter. -/
theorem exec_congr {alike : Prop} {first second : Option User} {command : Command}
    (faithful : directory.Faithful origin alike command)
    (firstPicks : directory.Picks first command)
    (secondPicks : directory.Picks second command) :
    directory.exec first origin command = directory.exec second origin command := by
  cases command with
  | group groupId command =>
      cases session : directory.sessions origin with
      | none => simp only [exec, session]
      | some user =>
          have alike (step : command.exec first user (directory.groups groupId) =
              command.exec second user (directory.groups groupId)) :
              directory.exec first origin (.group groupId command) =
                directory.exec second origin (.group groupId command) := by
            simp only [exec, session, step]
          apply alike
          cases command with
          | accept username =>
              cases found : directory.groups groupId with
              | none => rfl
              | some view =>
                  by_cases owner : view.owner = user
                  · have few := faithful view found (by rw [owner]; exact session)
                    have same : first = second := by
                      cases first with
                      | none =>
                          cases second with
                          | none => rfl
                          | some joiner =>
                              simp only [Picks] at firstPicks secondPicks
                              rw [firstPicks] at secondPicks
                              exact absurd secondPicks (Finset.notMem_empty joiner)
                      | some joiner =>
                          cases second with
                          | none =>
                              simp only [Picks] at firstPicks secondPicks
                              rw [secondPicks] at firstPicks
                              exact absurd firstPicks (Finset.notMem_empty joiner)
                          | some rival =>
                              rw [Finset.card_le_one.mp few joiner firstPicks rival secondPicks]
                    rw [same]
                  · have refused (picked : Option User) :
                        GroupCommand.exec picked user (.accept username) (some view) =
                          (false, some view) := by
                      cases picked with
                      | none => rfl
                      | some joiner => simp only [GroupCommand.exec, if_neg owner]
                    rw [refused first, refused second]
          | _ => cases directory.groups groupId <;> rfl
  | _ => rfl

end Directory

/-! ## Executing one entry -/

/-- A message is recorded faithfully. -/
def Replayable (platform other : Platform) (tracker : Tracker) (data : Bytes) : Prop :=
  ∀ transaction ∈ parseRequest platform data,
    tracker.directory.Faithful transaction.origin
      (command platform transaction = command other transaction) (command platform transaction)

instance (platform other : Platform) (tracker : Tracker) (data : Bytes) :
    Decidable (Replayable platform other tracker data) :=
  inferInstanceAs (Decidable (∀ transaction ∈ parseRequest platform data, _))

/-- Every message of a run is recorded faithfully. -/
def ReplayableRun (platform other : Platform) (config : Config) : Tracker → List Bytes → Prop
  | _, [] => True
  | tracker, message :: messages =>
      Replayable platform other tracker (message.drop 1) ∧
        ReplayableRun platform other config
          (processData platform config tracker Network.reliable message).tracker messages

instance decidableReplayableRun (platform other : Platform) (config : Config) :
    (tracker : Tracker) → (messages : List Bytes) →
      Decidable (ReplayableRun platform other config tracker messages)
  | _, [] => isTrue trivial
  | tracker, message :: messages =>
      have := decidableReplayableRun platform other config
        (processData platform config tracker Network.reliable message).tracker messages
      inferInstanceAs (Decidable (_ ∧ _))

section Execution

variable {platform other : Platform} {tracker copy : Tracker} {data : Bytes}

/-- Without a client, a request runs the handlers. -/
theorem execute_eq {transaction : Transaction}
    (parsed : parseRequest platform data = some transaction)
    (success : succeeded (handle platform tracker transaction).1 = true) :
    execute platform tracker data = .ok (handle platform tracker transaction).2 := by
  have notSync : transaction.request ≠ .tracker .sync := by
    intro sync
    rcases transaction with ⟨origin, request, data, outcome⟩
    subst sync
    cases success
  unfold execute
  rw [parsed]
  simp only [processRequest_unattended platform tracker transaction notSync]
  cases answer : (handle platform tracker transaction).1 with
  | error exception =>
      rw [answer] at success
      cases success
  | ok result => rfl

/-- An unrecorded message leaves the state as it was. -/
theorem handled_of_unrecorded (valid : tracker.Valid)
    (replayable : Replayable platform other tracker data)
    (record : recorded platform tracker data = none) :
    (handled platform tracker data).directory = tracker.directory := by
  simp only [handled]
  cases parsing : parseRequest platform data with
  | none => rfl
  | some parsed =>
      have failure := recorded_eq_none record parsing
      have step := handle_exec platform valid parsed
      rw [failure] at step
      have unchanged := Directory.exec_unchanged (replayable parsed parsing)
        (congrArg Prod.fst step).symm
      exact (congrArg Prod.snd step).trans unchanged

/-- On a copy of the state, a recorded message is executed to the same effect. -/
theorem execute_of_recorded (valid : tracker.Valid) (copyValid : copy.Valid)
    (agree : copy.directory = tracker.directory)
    (replayable : Replayable platform other tracker data) {transaction : Transaction}
    (record : recorded platform tracker data = some transaction) :
    ∃ next, execute other copy data = .ok next ∧ next.Valid ∧
      next.directory = (handled platform tracker data).directory := by
  obtain ⟨_, parsed, parsing, success⟩ := recorded_eq_some record
  have faithful := replayable parsed parsing
  have step := handle_exec platform valid parsed
  have copyStep := handle_exec other copyValid parsed
  have picks := tracker.picks_picked platform (command platform parsed)
  have copyPicks := copy.picks_picked other (command platform parsed)
  rw [agree] at copyPicks copyStep
  -- A successful upload is new to the group, so both platforms decode it alike.
  have decoded : command other parsed = command platform parsed := by
    by_cases upload : ∃ groupId endpoint fileInfo,
        command platform parsed = .group groupId (.upload endpoint fileInfo)
    · rcases upload with ⟨groupId, endpoint, fileInfo, upload⟩
      rw [success, upload] at step
      rw [upload] at faithful ⊢
      obtain ⟨view, found, admitted, fresh⟩ :=
        Directory.exec_upload_success (congrArg Prod.fst step).symm
      have alike := faithful view found admitted
      rw [if_neg fresh] at alike
      exact alike.symm
    · have notUpload : ∀ groupId endpoint fileInfo,
          command platform parsed ≠ .group groupId (.upload endpoint fileInfo) := by
        intro groupId endpoint fileInfo same
        exact upload ⟨groupId, endpoint, fileInfo, same⟩
      exact (command_congr platform other parsed notUpload).symm
  rw [decoded, Directory.exec_congr faithful copyPicks picks, ← step, success] at copyStep
  have copyParsing : parseRequest other data = some parsed := by
    rw [← parseRequest_congr platform other, parsing]
  refine ⟨_, execute_eq copyParsing (congrArg Prod.fst copyStep),
    handle_valid other copyValid parsed, ?_⟩
  simp only [handled, parsing]
  exact congrArg Prod.snd copyStep

end Execution

/-! ## Replaying a whole log -/

/-- Serving a run and replaying what it recorded reach the same state, from
states that agree. -/
theorem replay_serve (platform other : Platform) (config : Config) (messages : List Bytes)
    {tracker copy : Tracker} (valid : tracker.Valid) (copyValid : copy.Valid)
    (agree : copy.directory = tracker.directory)
    (replayable : ReplayableRun platform other config tracker messages) :
    ∃ log, (serve platform config tracker messages).successfulTransactions =
        tracker.successfulTransactions ++ log ∧
      ∃ replayed, replay other copy (log.map Transaction.data) = .ok replayed ∧
        replayed.directory = (serve platform config tracker messages).directory := by
  induction messages generalizing tracker copy with
  | nil => exact ⟨[], by simp [serve], copy, rfl, agree⟩
  | cons message messages ih =>
      rcases replayable with ⟨first, others⟩
      cases message with
      | nil => exact ih valid copyValid agree others
      | cons flag data =>
          simp only [List.drop_succ_cons, List.drop_zero] at first
          have served := processData_tracker platform tracker config flag data
          have servedValid :
              (processData platform config tracker Network.reliable
                (flag :: data)).tracker.Valid := by
            rw [served]
            exact handled_valid platform valid data
          have servedDirectory :
              (processData platform config tracker Network.reliable
                  (flag :: data)).tracker.directory =
                (handled platform tracker data).directory := by
            rw [served]
            rfl
          cases record : recorded platform tracker data with
          | none =>
              have same := handled_of_unrecorded valid first record
              have agreeNext := agree.trans (servedDirectory.trans same).symm
              obtain ⟨log, log_eq, replayed⟩ := ih servedValid copyValid agreeNext others
              refine ⟨log, ?_, replayed⟩
              rw [serve, log_eq, served, record]
              simp
          | some transaction =>
              obtain ⟨next, executed, nextValid, nextDirectory⟩ :=
                execute_of_recorded valid copyValid agree first record
              have agreeNext := nextDirectory.trans servedDirectory.symm
              obtain ⟨log, log_eq, replayed, replay_eq, directory_eq⟩ :=
                ih servedValid nextValid agreeNext others
              refine ⟨transaction :: log, ?_, replayed, ?_, directory_eq⟩
              · rw [serve, log_eq, served, record]
                simp
              · rw [List.map_cons, (recorded_eq_some record).1]
                rw [replay, executed]
                exact replay_eq

/-- The log of a tracker that started empty rebuilds its state on any other
platform, if every request of the run is recorded faithfully. -/
theorem replay_rebuilds (platform other : Platform) (config : Config) (messages : List Bytes)
    (replayable : ReplayableRun platform other config Tracker.empty messages) :
    ∃ replayed,
      replay other Tracker.empty
          ((serve platform config Tracker.empty messages).successfulTransactions.map
            Transaction.data) = .ok replayed ∧
        replayed.directory = (serve platform config Tracker.empty messages).directory := by
  obtain ⟨log, log_eq, replayed, replay_eq, directory_eq⟩ :=
    replay_serve platform other config messages Tracker.valid_empty Tracker.valid_empty rfl
      replayable
  refine ⟨replayed, ?_, directory_eq⟩
  rw [log_eq]
  exact replay_eq

def oneUpload : List Bytes :=
  [ascii "17 create_user ann pw", ascii "17 login ann pw", ascii "17 create_group g",
    ascii "17 upload_file g 1:1 File: a\tSize: 1 bytes\tPieces: h \n"]

theorem replay_rebuilds_oneUpload :
    ReplayableRun .oldestFirst .newestFirst .alone .empty oneUpload ∧
      ∃ replayed,
        replay .newestFirst .empty
            ((serve .oldestFirst .alone .empty oneUpload).successfulTransactions.map
              Transaction.data) = .ok replayed ∧
          replayed.directory = (serve .oldestFirst .alone .empty oneUpload).directory :=
  have replayable : ReplayableRun .oldestFirst .newestFirst .alone .empty oneUpload := by
    decide +kernel
  ⟨replayable, replay_rebuilds .oldestFirst .newestFirst .alone oneUpload replayable⟩

def twoSeeders : List Bytes :=
  oneUpload ++ [ascii "17 upload_file g 2:2 File: a\tSize: 1 bytes\tPieces: h \n"]

/-- The second seeder of a file is not in the log. -/
theorem replay_forgets_seeder :
    ¬∃ replayed,
      replay .oldestFirst .empty
          ((serve .oldestFirst .alone .empty twoSeeders).successfulTransactions.map
            Transaction.data) = .ok replayed ∧
        replayed.directory.groups (ascii "g") =
          (serve .oldestFirst .alone .empty twoSeeders).directory.groups (ascii "g") := by
  have differ :
      ((replay .oldestFirst .empty
          ((serve .oldestFirst .alone .empty twoSeeders).successfulTransactions.map
            Transaction.data)).toOption.map fun replayed =>
          replayed.directory.groups (ascii "g")) ≠
        some ((serve .oldestFirst .alone .empty twoSeeders).directory.groups (ascii "g")) := by
    decide +kernel
  rintro ⟨replayed, replay_eq, same⟩
  rw [replay_eq] at differ
  exact differ (congrArg some same)

end P2PFileShare
