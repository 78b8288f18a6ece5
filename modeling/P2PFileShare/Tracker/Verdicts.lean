import P2PFileShare.Tracker.Failures

/-!
# What goes back to a client

Whatever a request is, a tracker that is not asked for its log sends one message at most.
A client gets exactly one, and never an empty one, which it would take for a closed
connection; another tracker gets none.
-/

namespace P2PFileShare

open Container Text

section Messages

variable (platform : Platform) (tracker : Tracker) (origin : EndpointID)

theorem listing_ne_nil (lines : List Bytes) {nothing : Bytes} (nonempty : nothing ≠ []) :
    listing lines nothing ≠ [] := by
  simp only [listing]
  split
  · exact nonempty
  · assumption

theorem processUserRequest_message (request : UserRequest) (stream : Stream) :
    (processUserRequest platform tracker origin request stream).1.message ≠ [] := by
  cases request with
  | create =>
      simp only [processUserRequest]
      split
      · simp [ascii]
      · split <;> simp [ascii]
  | delete =>
      simp only [processUserRequest]
      split <;> simp [ascii]
  | list => exact listing_ne_nil _ (by decide)
  | login =>
      simp only [processUserRequest]
      split
      · simp [ascii]
      · split
        · exact List.append_ne_nil_of_right_ne_nil _ (by decide)
        · simp [ascii]
        · split <;> simp [ascii]
  | logout =>
      simp only [processUserRequest]
      split <;> simp [ascii]

theorem processGroupRequest_message (request : GroupRequest) (stream : Stream) :
    (processGroupRequest platform tracker origin request stream).1.message ≠ [] := by
  by_cases list : request = .list
  · subst list
    exact listing_ne_nil _ (by decide)
  simp only [processGroupRequest, if_neg list]
  cases tracker.session? origin with
  | none => simp [loginRequiredWarning, ascii]
  | some user =>
      cases request with
      | list => contradiction
      | create =>
          simp only
          split <;> simp [ascii]
      | join =>
          simp only
          split
          · split <;> simp [ascii]
          · simp [ascii]
      | leave =>
          simp only
          split
          · split <;> simp [ascii]
          · simp [ascii]
      | listJoinRequests =>
          simp only
          split
          · exact listing_ne_nil _ (by decide)
          · simp [ascii]
      | acceptJoinRequest =>
          simp only
          split
          · split
            · simp [ascii]
            · split <;> simp [ascii]
          · simp [ascii]

theorem processFileRequest_message (request : FileRequest) (stream : Stream) :
    ∀ result, (processFileRequest platform tracker origin request stream).1 = .ok result →
      result.message ≠ [] := by
  simp only [processFileRequest]
  cases tracker.session? origin with
  | none => simp [loginRequiredWarning, ascii]
  | some user =>
      cases tracker.group? stream.extractWord.1 with
      | none => simp [ascii]
      | some group =>
          simp only
          split
          · simp [ascii]
          cases request with
          | list =>
              intro result answer
              obtain rfl := Except.ok.inj answer
              exact listing_ne_nil _ (by decide)
          | download =>
              simp only
              split <;> simp [ascii]
          | upload =>
              simp only
              cases decodeUpload platform stream.extractWord.2 with
              | error error => cases error <;> simp [ascii]
              | ok arguments =>
                  simp only [uploadFile]
                  split <;> simp [ascii]

/-- Every handler has something to say. -/
theorem handle_message (transaction : Transaction) :
    ∀ result, (handle platform tracker transaction).1 = .ok result → result.message ≠ [] := by
  rcases transaction with ⟨origin, request, data, outcome⟩
  cases request with
  | user request =>
      intro result answer
      obtain rfl := Except.ok.inj answer
      exact processUserRequest_message platform tracker origin request _
  | group request =>
      intro result answer
      obtain rfl := Except.ok.inj answer
      exact processGroupRequest_message platform tracker origin request _
  | file request => exact processFileRequest_message platform tracker origin request _
  | tracker request =>
      intro result answer
      obtain rfl := Except.ok.inj answer
      decide

end Messages

section Answers

variable {platform : Platform} {tracker : Tracker} {config : Config} {network : Network}
  {flag : UInt8} {data : Bytes} {transaction : Transaction}

/-- The message of the handler goes to a client that is there, and to nobody else. -/
theorem processData_sent_eq (parsing : parseRequest platform data = some transaction)
    (notSync : transaction.request ≠ .tracker .sync) :
    (processData platform config tracker network (flag :: data)).sent =
      match (handle platform tracker transaction).1 with
      | .ok result => if flag = 49 ∧ network 0 = none then [result.message] else []
      | .error _ => [] := by
  simp only [processData, parsing]
  rw [processRequest_answered platform tracker network transaction _ notSync]
  generalize handle platform tracker transaction = served
  rcases served with ⟨outcome | result, after⟩
  · rfl
  · by_cases client : flag = 49
    · cases network 0 with
      | some error => simp [client]
      | none => cases success : result.success <;> simp [client, success]
    · cases success : result.success <;> simp [client, success]

/-- A message that is not understood is answered, wherever it comes from. -/
theorem processData_sent_unknown (parsing : parseRequest platform data = none) :
    (processData platform config tracker network (flag :: data)).sent =
      if network 0 = none then [ascii "Unknown request"] else [] := by
  simp only [processData, parsing]
  cases network 0 with
  | none => rfl
  | some error => rfl

/-- Apart from the log, one message at most is sent, and none that is empty. -/
theorem processData_sent_cases (platform : Platform) (config : Config) (tracker : Tracker)
    (network : Network) (message : Bytes)
    (notSync : ∀ transaction ∈ parseRequest platform (message.drop 1),
      transaction.request ≠ .tracker .sync) :
    (processData platform config tracker network message).sent = [] ∨
      ∃ reply ≠ [], (processData platform config tracker network message).sent = [reply] ∧
        ∀ transaction ∈ parseRequest platform (message.drop 1), ∃ result,
          (handle platform tracker transaction).1 = .ok result ∧ reply = result.message := by
  cases message with
  | nil => exact Or.inl rfl
  | cons flag data =>
      rw [List.drop_one, List.tail_cons] at notSync ⊢
      cases parsing : parseRequest platform data with
      | none =>
          rw [processData_sent_unknown parsing]
          split
          · exact Or.inr ⟨_, by decide, rfl, nofun⟩
          · exact Or.inl rfl
      | some transaction =>
          rw [processData_sent_eq parsing (notSync transaction parsing)]
          cases answer : (handle platform tracker transaction).1 with
          | error exception => exact Or.inl rfl
          | ok result =>
              simp only
              split
              · refine Or.inr
                  ⟨_, handle_message platform tracker transaction result answer, rfl, ?_⟩
                intro other parsed
                obtain rfl := Option.some.inj parsed
                exact ⟨result, answer, rfl⟩
              · exact Or.inl rfl

/-- A client that is there gets its answer, unless it uploads with arguments that are not
decoded. -/
theorem processData_answers (config : Config) (delivered : network 0 = none)
    (notSync : ∀ transaction ∈ parseRequest platform data, transaction.request ≠ .tracker .sync)
    (harmless : ¬FatalUpload platform tracker data) :
    ∃ reply ≠ [], (processData platform config tracker network (49 :: data)).sent = [reply] := by
  cases parsing : parseRequest platform data with
  | none =>
      rw [processData_sent_unknown parsing, if_pos delivered]
      exact ⟨_, by decide, rfl⟩
  | some transaction =>
      rw [processData_sent_eq parsing (notSync transaction parsing)]
      cases answer : (handle platform tracker transaction).1 with
      | error exception =>
          exact absurd ((handle_throws_iff platform tracker parsing exception).mp answer).2 harmless
      | ok result =>
          refine ⟨_, handle_message platform tracker transaction result answer, ?_⟩
          simp only [delivered, and_self, if_true]

end Answers

end P2PFileShare
