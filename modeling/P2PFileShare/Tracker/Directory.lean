import P2PFileShare.Tracker.ProcessData
import Mathlib.Data.Finset.Image
import Mathlib.Tactic.Tauto

/-!
# What a tracker is for

The abstract state of a tracker: which user objects, sessions and groups there
are, with plain sets where the code keeps hash sets of pointers.  A request is
first decoded into a command; a command touches one user name, one session or
one group.

The order in which a hash set is iterated matters in one place only.  An
accepted join request is the first pending one that carries the given name, so
`picked` is a parameter of the abstract step.
-/

namespace P2PFileShare

open Container Text

/-- A file with its seeders as a set of endpoint values. -/
abbrev Entry := FileInfo × Finset Endpoint

structure GroupView where
  owner : User
  members : Finset User := ∅
  pending : Finset User := ∅
  files : Finset Entry := ∅
  deriving DecidableEq

/-- The abstract state.  `made` counts the users ever made for each name. -/
@[ext]
structure Directory where
  made : Bytes → Nat
  users : Bytes → Option User
  sessions : EndpointID → Option User
  groups : Bytes → Option GroupView

inductive GroupCommand
  | create
  | join
  | leave
  | accept (username : Bytes)
  | upload (endpoint : Endpoint) (fileInfo : FileInfo)
  | download (fileName : Bytes)
  | read
  deriving DecidableEq

inductive Command
  | createUser (username password : Bytes)
  | deleteUser (username : Bytes)
  | login (username password : Bytes)
  | logout
  | group (groupId : Bytes) (command : GroupCommand)
  | read
  deriving DecidableEq

/-- The commands that file requests decode to. -/
def GroupCommand.isFile : GroupCommand → Bool
  | .upload _ _ | .download _ | .read => true
  | _ => false

/-! ## Decoding -/

/-- The command of a user request, from the stream behind its name. -/
def userCommand (stream : Stream) : UserRequest → Command
  | .create => .createUser stream.extractWord.1 stream.extractWord.2.extractWord.1
  | .delete => .deleteUser stream.extractWord.1
  | .list => .read
  | .login => .login stream.extractWord.1 stream.extractWord.2.extractWord.1
  | .logout => .logout

/-- The command of a group request; all but one name a group first. -/
def groupCommand (stream : Stream) (request : GroupRequest) : Command :=
  let (groupId, stream) := stream.extractWord
  match request with
  | .create => .group groupId .create
  | .join => .group groupId .join
  | .leave => .group groupId .leave
  | .list => .read
  | .listJoinRequests => .group groupId .read
  | .acceptJoinRequest => .group groupId (.accept stream.extractWord.1)

/-- The command of a file request.  An upload that cannot be decoded reads. -/
def fileCommand (platform : Platform) (stream : Stream) (request : FileRequest) : Command :=
  let (groupId, stream) := stream.extractWord
  match request with
  | .list => .group groupId .read
  | .upload =>
      match decodeUpload platform stream with
      | .ok (endpoint, fileInfo) => .group groupId (.upload endpoint fileInfo)
      | .error _ => .group groupId .read
  | .download => .group groupId (.download stream.extractWord.1)

/-- The command of a transaction. -/
def command (platform : Platform) (transaction : Transaction) : Command :=
  let (_, _, stream) := requestHead platform transaction.data
  match transaction.request with
  | .user request => userCommand stream request
  | .group request => groupCommand stream request
  | .file request => fileCommand platform stream request
  | .tracker _ => .read

/-! ## The abstract step -/

/-- A user counts as a member of a group it owns. -/
def GroupView.HasMember (view : GroupView) (user : User) : Prop :=
  user = view.owner ∨ user ∈ view.members

instance (view : GroupView) (user : User) : Decidable (view.HasMember user) :=
  inferInstanceAs (Decidable (_ ∨ _))

/-- The file of some content, if the group has one. -/
def GroupView.HasContent (view : GroupView) (hash : Bytes) : Prop :=
  ∃ entry ∈ view.files, entry.1.hash = hash

instance (view : GroupView) (hash : Bytes) : Decidable (view.HasContent hash) :=
  inferInstanceAs (Decidable (∃ entry ∈ view.files, _))

/-- A seeder is added to the file of the given content. -/
def GroupView.reseed (view : GroupView) (hash : Bytes) (endpoint : Endpoint) : GroupView :=
  { view with
    files := view.files.image fun entry =>
      if entry.1.hash = hash then (entry.1, insert endpoint entry.2) else entry }

/-- A command on one group by a logged-in user: whether it succeeds, and what
the group becomes. -/
def GroupCommand.exec (picked : Option User) (user : User) (command : GroupCommand)
    (view : Option GroupView) : Bool × Option GroupView :=
  match command, view with
  | .create, none => (true, some { owner := user })
  | .join, some view =>
      if view.HasMember user then (false, view)
      else (true, some { view with pending := insert user view.pending })
  | .leave, some view =>
      if user ∈ view.members then (true, some { view with members := view.members.erase user })
      else (false, view)
  | .accept _, some view =>
      match picked with
      | some joiner =>
          if view.owner = user then
            (true, some { view with
              members := insert joiner view.members
              pending := view.pending.erase joiner })
          else (false, view)
      | none => (false, view)
  | .upload endpoint fileInfo, some view =>
      if view.HasMember user then
        if view.HasContent fileInfo.hash then (false, view.reseed fileInfo.hash endpoint)
        else (true, some { view with files := insert (fileInfo, {endpoint}) view.files })
      else (false, view)
  | .download fileName, some view =>
      (view.HasMember user ∧ ∃ entry ∈ view.files, entry.1.name = fileName, view)
  | _, view => (false, view)

namespace GroupCommand

/-- What a command on a group can do: succeed with its change, or change
nothing.  The one exception is an upload of known content, which adds a seeder
and yet counts as a failure. -/
inductive Effect (picked : Option User) (user : User) :
    GroupCommand → Option GroupView → Bool → Option GroupView → Prop
  | idle (command : GroupCommand) (view : Option GroupView) :
      Effect picked user command view false view
  | create : Effect picked user .create none true (some { owner := user })
  | join {view : GroupView} (outside : ¬view.HasMember user) :
      Effect picked user .join (some view) true
        (some { view with pending := insert user view.pending })
  | leave {view : GroupView} (member : user ∈ view.members) :
      Effect picked user .leave (some view) true
        (some { view with members := view.members.erase user })
  | accept {view : GroupView} {joiner : User} (username : Bytes) (owner : view.owner = user)
      (pick : picked = some joiner) :
      Effect picked user (.accept username) (some view) true
        (some { view with
          members := insert joiner view.members
          pending := view.pending.erase joiner })
  | upload {view : GroupView} {fileInfo : FileInfo} (endpoint : Endpoint)
      (member : view.HasMember user) (fresh : ¬view.HasContent fileInfo.hash) :
      Effect picked user (.upload endpoint fileInfo) (some view) true
        (some { view with files := insert (fileInfo, {endpoint}) view.files })
  | reseed {view : GroupView} {fileInfo : FileInfo} (endpoint : Endpoint)
      (member : view.HasMember user) (known : view.HasContent fileInfo.hash) :
      Effect picked user (.upload endpoint fileInfo) (some view) false
        (some (view.reseed fileInfo.hash endpoint))
  | download {view : GroupView} (fileName : Bytes) (member : view.HasMember user) :
      Effect picked user (.download fileName) (some view) true (some view)

theorem exec_effect (picked : Option User) (user : User) (command : GroupCommand)
    (view : Option GroupView) :
    Effect picked user command view (command.exec picked user view).1
      (command.exec picked user view).2 := by
  cases view with
  | none =>
      cases command with
      | create => exact .create
      | _ => exact .idle _ _
  | some view =>
      cases command with
      | create => exact .idle _ _
      | read => exact .idle _ _
      | join =>
          simp only [exec]
          split
          · exact .idle _ _
          · next outside => exact .join outside
      | leave =>
          simp only [exec]
          split
          · next member => exact .leave member
          · exact .idle _ _
      | accept username =>
          simp only [exec]
          split
          · next joiner =>
              split
              · next owner => exact .accept username owner rfl
              · exact .idle _ _
          · exact .idle _ _
      | upload endpoint fileInfo =>
          simp only [exec]
          split
          · next member =>
              split
              · next known => exact .reseed endpoint member known
              · next fresh => exact .upload endpoint member fresh
          · exact .idle _ _
      | download fileName =>
          simp only [exec]
          by_cases offered : view.HasMember user ∧ ∃ entry ∈ view.files, entry.1.name = fileName
          · rw [decide_eq_true offered]
            exact .download fileName offered.1
          · rw [decide_eq_false offered]
            exact .idle _ _

end GroupCommand

namespace Directory

/-- One command from one origin: whether it succeeds, and the state it leaves. -/
def exec (picked : Option User) (directory : Directory) (origin : EndpointID) :
    Command → Bool × Directory
  | .createUser username password =>
      if username = [] ∨ password = [] ∨ (directory.users username).isSome then
        (false, directory)
      else
        let user : User := { username, password, serial := directory.made username }
        (true, { directory with
          made := Function.update directory.made username (directory.made username + 1)
          users := Function.update directory.users username (some user) })
  | .deleteUser username =>
      if (directory.users username).isSome then
        (true, { directory with users := Function.update directory.users username none })
      else (false, directory)
  | .login username password =>
      if username = [] ∨ password = [] then (false, directory)
      else
        match directory.sessions origin, directory.users username with
        | none, some user =>
            if user.password = password then
              (true, { directory with
                sessions := Function.update directory.sessions origin (some user) })
            else (false, directory)
        | _, _ => (false, directory)
  | .logout =>
      if (directory.sessions origin).isSome then
        (true, { directory with sessions := Function.update directory.sessions origin none })
      else (false, directory)
  | .group groupId command =>
      match directory.sessions origin with
      | none => (false, directory)
      | some user =>
          let (success, view) := command.exec picked user (directory.groups groupId)
          (success, { directory with groups := Function.update directory.groups groupId view })
  | .read => (false, directory)

/-- What a command can do.  A command on a group does what it does there; any
other command either succeeds with its change or changes nothing. -/
inductive Effect (picked : Option User) (directory : Directory) (origin : EndpointID) :
    Command → Bool → Directory → Prop
  | idle (command : Command) : Effect picked directory origin command false directory
  | createUser {username : Bytes} (password : Bytes) (fresh : directory.users username = none) :
      Effect picked directory origin (.createUser username password) true
        { directory with
          made := Function.update directory.made username (directory.made username + 1)
          users := Function.update directory.users username
            (some { username, password, serial := directory.made username }) }
  | deleteUser (username : Bytes) :
      Effect picked directory origin (.deleteUser username) true
        { directory with users := Function.update directory.users username none }
  | login {username : Bytes} {user : User} (loggedOut : directory.sessions origin = none)
      (found : directory.users username = some user) :
      Effect picked directory origin (.login username user.password) true
        { directory with sessions := Function.update directory.sessions origin (some user) }
  | logout :
      Effect picked directory origin .logout true
        { directory with sessions := Function.update directory.sessions origin none }
  | group {groupId : Bytes} {command : GroupCommand} {user : User} {success : Bool}
      {view : Option GroupView} (session : directory.sessions origin = some user)
      (step : GroupCommand.Effect picked user command (directory.groups groupId) success view) :
      Effect picked directory origin (.group groupId command) success
        { directory with groups := Function.update directory.groups groupId view }

theorem exec_effect (picked : Option User) (directory : Directory) (origin : EndpointID)
    (command : Command) :
    Effect picked directory origin command (directory.exec picked origin command).1
      (directory.exec picked origin command).2 := by
  cases command with
  | createUser username password =>
      simp only [exec]
      split
      · exact .idle _
      · next allowed =>
          have fresh : directory.users username = none := by
            rw [← Option.not_isSome_iff_eq_none]
            tauto
          exact .createUser password fresh
  | deleteUser username =>
      simp only [exec]
      split
      · exact .deleteUser username
      · exact .idle _
  | login username password =>
      simp only [exec]
      split
      · exact .idle _
      · split
        · next user loggedOut found =>
            split
            · next same =>
                subst same
                exact .login loggedOut found
            · exact .idle _
        · exact .idle _
  | logout =>
      simp only [exec]
      split
      · exact .logout
      · exact .idle _
  | group groupId command =>
      simp only [exec]
      cases session : directory.sessions origin with
      | none => exact .idle _
      | some user => exact .group session (command.exec_effect picked user _)
  | read => exact .idle _

/-- The pending users of a group that carry a name. -/
def candidates (directory : Directory) (groupId username : Bytes) : Finset User :=
  match directory.groups groupId with
  | some view => view.pending.filter fun user => user.username = username
  | none => ∅

/-- What a tracker picks is one of the candidates, if there is one. -/
def Picks (directory : Directory) (picked : Option User) : Command → Prop
  | .group groupId (.accept username) =>
      match picked with
      | some user => user ∈ directory.candidates groupId username
      | none => directory.candidates groupId username = ∅
  | _ => True

end Directory

/-! ## The abstraction of the code's state -/

def File.entry (file : File) : Entry :=
  (file.fileInfo, file.seeders.toFinset)

def Group.view (group : Group) : GroupView where
  owner := group.owner
  members := group.users.toFinset
  pending := group.joinRequests.toFinset
  files := (group.files.map File.entry).toFinset

def Tracker.directory (tracker : Tracker) : Directory where
  made := tracker.userDB.made
  users := tracker.user?
  sessions := tracker.session?
  groups groupId := (tracker.group? groupId).map Group.view

/-- The user that a tracker would accept for a command: the first pending one of
that name in iteration order. -/
def Tracker.picked (platform : Platform) (tracker : Tracker) : Command → Option User
  | .group groupId (.accept username) =>
      (tracker.group? groupId).bind fun group =>
        (platform.order group.joinRequests).find? fun user => user.username = username
  | _ => none

/-- Whether the handler answered with success. -/
def succeeded : Except Exception Result → Bool
  | .ok result => result.success
  | .error _ => false

/-! ## Invariants of the file catalogue -/

/-- The files of a group belong to it and are told apart by their content. -/
structure Group.Valid (groupId : Bytes) (group : Group) : Prop where
  files_group : ∀ file ∈ group.files, file.groupId = groupId
  files_nodup : (group.files.map fun file => file.fileInfo.hash).Nodup

def Tracker.Valid (tracker : Tracker) : Prop :=
  ∀ groupId group, tracker.group? groupId = some group → group.Valid groupId

theorem Tracker.valid_empty : Tracker.empty.Valid := by
  intro groupId group found
  cases found

end P2PFileShare
