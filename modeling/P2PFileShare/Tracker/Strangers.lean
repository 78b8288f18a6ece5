import P2PFileShare.Tracker.Serving

/-!
# Requests of strangers

A stranger is an origin without a session.  The handlers of groups and files look the
session up before they change anything, and a logout has nothing to erase.  The deletion
of a user does not ask who wants it.
-/

namespace P2PFileShare

open Container Text

/-- A transaction deletes a user of the tracker. -/
def Tracker.DeletesUser (platform : Platform) (tracker : Tracker) (transaction : Transaction) :
    Prop :=
  transaction.request = .user .delete ∧
    (tracker.user? (requestHead platform transaction.data).2.2.extractWord.1).isSome = true

/-- The users, the sessions and the groups of two trackers are the same. -/
def Tracker.AgreesWith (tracker other : Tracker) : Prop :=
  tracker.userDB = other.userDB ∧ tracker.loggedInUsers = other.loggedInUsers ∧
    tracker.groupDB = other.groupDB

section Strangers

variable {platform : Platform} {tracker : Tracker} {origin : EndpointID}

theorem processGroupRequest_stranger (stranger : tracker.session? origin = none)
    (request : GroupRequest) (stream : Stream) :
    (processGroupRequest platform tracker origin request stream).2 = tracker := by
  by_cases list : request = .list
  · subst list
    rfl
  · simp only [processGroupRequest, if_neg list, stranger]

theorem processFileRequest_stranger (stranger : tracker.session? origin = none)
    (request : FileRequest) (stream : Stream) :
    (processFileRequest platform tracker origin request stream).2 = tracker := by
  simp only [processFileRequest, stranger]

/-- The deletion of a user changes the tracker exactly if there is such a user. -/
theorem processUserRequest_delete_iff (platform : Platform) (tracker : Tracker)
    (origin : EndpointID) (stream : Stream) :
    (processUserRequest platform tracker origin .delete stream).2.AgreesWith tracker ↔
      ¬(tracker.user? stream.extractWord.1).isSome = true := by
  simp only [processUserRequest, UserDB.deleteUser, Tracker.user?, UserDB.getUser]
  by_cases present : (tracker.userDB.users.find? stream.extractWord.1).isSome = true
  · rw [if_pos present]
    apply iff_of_false _ (not_not_intro present)
    rintro ⟨users, _, _⟩
    have erased := congrArg (fun db : UserDB => db.users.find? stream.extractWord.1) users
    simp only [UnorderedMap.find?_erase, Function.update_self] at erased
    rw [← erased] at present
    cases present
  · rw [if_neg present]
    exact iff_of_true ⟨rfl, rfl, rfl⟩ present

theorem processUserRequest_logout (platform : Platform)
    (stranger : tracker.session? origin = none) (stream : Stream) :
    (processUserRequest platform tracker origin .logout stream).2 = tracker := by
  have loggedOut : tracker.isLoggedIn origin = false := Option.isSome_eq_false_iff.mpr
    (Option.isNone_iff_eq_none.mpr stranger)
  simp only [processUserRequest, loggedOut, Bool.false_eq_true, if_false]

/-- What a request of a stranger can change. -/
theorem handle_stranger_iff {transaction : Transaction}
    (stranger : tracker.session? transaction.origin = none)
    (notCreate : transaction.request ≠ .user .create)
    (notLogin : transaction.request ≠ .user .login) :
    (handle platform tracker transaction).2.AgreesWith tracker ↔
      ¬tracker.DeletesUser platform transaction := by
  rcases transaction with ⟨origin, request, data, outcome⟩
  have unchanged {after : Tracker} (same : after = tracker) : after.AgreesWith tracker := by
    subst same
    exact ⟨rfl, rfl, rfl⟩
  cases request with
  | tracker request => exact iff_of_true (unchanged rfl) (fun deletes => nomatch deletes.1)
  | group request =>
      exact iff_of_true (unchanged (processGroupRequest_stranger stranger request _))
        (fun deletes => nomatch deletes.1)
  | file request =>
      exact iff_of_true (unchanged (processFileRequest_stranger stranger request _))
        (fun deletes => nomatch deletes.1)
  | user request =>
      cases request with
      | create => contradiction
      | login => contradiction
      | list => exact iff_of_true (unchanged rfl) (fun deletes => nomatch deletes.1)
      | logout =>
          exact iff_of_true
            (unchanged
              (processUserRequest_logout platform stranger (requestHead platform data).2.2))
            (fun deletes => nomatch deletes.1)
      | delete =>
          exact (processUserRequest_delete_iff platform tracker origin
            (requestHead platform data).2.2).trans (not_congr (and_iff_right rfl).symm)

/-- The state behind a request is that behind its handler, whatever the network does. -/
theorem processRequest_tracker (platform : Platform) (tracker : Tracker)
    (transaction : Transaction) (client : Option Network) (doMirror : Bool) :
    (processRequest platform tracker transaction client doMirror).tracker =
      (handle platform tracker transaction).2 := by
  unfold processRequest
  split
  · next request => simp only [handle, request]
  · next network request =>
      simp only [handle, request]
      split
      · rfl
      · rfl
  · generalize handle platform tracker transaction = served
    split
    · rfl
    · rfl
    · rfl
    · split
      · rfl
      · rfl

/-- A request of a stranger, other than `create_user` and `login`, leaves users,
sessions and groups alone exactly if it deletes no user. -/
theorem processRequest_stranger_iff (platform : Platform) (tracker : Tracker)
    (transaction : Transaction) (client : Option Network) (doMirror : Bool)
    (loggedOut : tracker.isLoggedIn transaction.origin = false)
    (notCreate : transaction.request ≠ .user .create)
    (notLogin : transaction.request ≠ .user .login) :
    (processRequest platform tracker transaction client doMirror).tracker.AgreesWith tracker ↔
      ¬tracker.DeletesUser platform transaction := by
  rw [processRequest_tracker]
  apply handle_stranger_iff _ notCreate notLogin
  exact Option.isNone_iff_eq_none.mp (Option.isSome_eq_false_iff.mp loggedOut)

/-- A tracker that knows ann. -/
def knowingAnn : Tracker :=
  serve .oldestFirst .alone .empty [ascii "17 create_user ann pw"]

/-- Origin 8, which is not logged in, asks to delete a user. -/
def deletionOf (username : Bytes) : Transaction where
  origin := 8
  request := .user .delete
  data := ascii "8 delete_user " ++ username

theorem processRequest_stranger_bob :
    (processRequest .oldestFirst knowingAnn (deletionOf (ascii "bob")) (some Network.reliable)
      true).tracker.AgreesWith knowingAnn := by
  have noBob : ¬knowingAnn.DeletesUser .oldestFirst (deletionOf (ascii "bob")) := by
    rintro ⟨_, present⟩
    exact absurd present (by decide +kernel)
  exact (processRequest_stranger_iff .oldestFirst knowingAnn (deletionOf (ascii "bob"))
    (some Network.reliable) true (by decide +kernel) (by decide) (by decide)).mpr noBob

theorem stranger_deletes_ann :
    parseRequest .oldestFirst (ascii "8 delete_user ann") = some (deletionOf (ascii "ann")) ∧
      knowingAnn.isLoggedIn 8 = false ∧ (knowingAnn.user? (ascii "ann")).isSome = true ∧
      (processRequest .oldestFirst knowingAnn (deletionOf (ascii "ann")) (some Network.reliable)
        true).tracker.user? (ascii "ann") = none := by
  decide +kernel

end Strangers

end P2PFileShare
