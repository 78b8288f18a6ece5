import P2PFileShare.Tracker.State

/-!
# The request handlers

`process_user_request`, `process_group_request` and `process_file_request` of
`tracker/process_request.cpp`.  Each reads its arguments from the stream, which
stands behind the id and the name of the request, and answers with a result;
only the file handler lets an exception through.
-/

namespace P2PFileShare

open Container Text

def loginRequiredWarning : Bytes :=
  ascii "You must be logged in to perform this action\n"

/-- One line for each entry of a list, or a fixed text when there is none. -/
def listing (lines : List Bytes) (none : Bytes) : Bytes :=
  let response := lines.flatMap fun line => line ++ ascii "\n"
  if response = [] then none else response

def processUserRequest (platform : Platform) (tracker : Tracker) (origin : EndpointID)
    (request : UserRequest) (stream : Stream) : Result × Tracker :=
  let userNotFoundWarning := ascii "User does not exist\n"
  match request with
  | .create =>
      let (username, stream) := stream.extractWord
      let (password, _) := stream.extractWord
      if username = [] ∨ password = [] then
        ({ message := ascii "Username or password cannot be empty\n" }, tracker)
      else
        match tracker.userDB.createUser username password with
        | (true, userDB) =>
            ({ success := true, message := ascii "User created\n" }, { tracker with userDB })
        | (false, _) => ({ message := ascii "User already exists\n" }, tracker)
  | .delete =>
      let (username, _) := stream.extractWord
      match tracker.userDB.deleteUser username with
      | (true, userDB) =>
          ({ success := true, message := ascii "User deleted\n" }, { tracker with userDB })
      | (false, _) => ({ message := userNotFoundWarning }, tracker)
  | .list =>
      let usernames := tracker.userDB.getUsernames platform
      ({ message := listing usernames (ascii "No users found\n") }, tracker)
  | .login =>
      let (username, stream) := stream.extractWord
      let (password, _) := stream.extractWord
      if username = [] ∨ password = [] then
        ({ message := ascii "Username or password cannot be empty\n" }, tracker)
      else
        match tracker.session? origin, tracker.userDB.getUser username with
        | some loggedIn, _ =>
            ({ message := loggedIn.username ++ ascii " is already logged in\n" }, tracker)
        | none, none => ({ message := userNotFoundWarning }, tracker)
        | none, some user =>
            if user.checkPassword password then
              ({ success := true, message := ascii "Login successful\n" },
                { tracker with loggedInUsers := tracker.loggedInUsers.insert origin user })
            else ({ message := ascii "Login failed\n" }, tracker)
  | .logout =>
      if tracker.isLoggedIn origin then
        ({ success := true, message := ascii "Logout successful\n" },
          { tracker with loggedInUsers := tracker.loggedInUsers.erase origin })
      else ({ message := ascii "Logout failed\n" }, tracker)

def processGroupRequest (platform : Platform) (tracker : Tracker) (origin : EndpointID)
    (request : GroupRequest) (stream : Stream) : Result × Tracker :=
  if request = .list then
    let groups := tracker.groupDB.getGroups platform
    ({ message := listing groups (ascii "No groups found\n") }, tracker)
  else
    let (groupId, stream) := stream.extractWord
    -- Every branch below starts with `logged_in_users.at(origin)`.
    match tracker.session? origin with
    | none => ({ message := loginRequiredWarning }, tracker)
    | some user =>
        match request with
        | .create =>
            match tracker.groupDB.createGroup groupId user with
            | (true, groupDB) =>
                ({ success := true, message := ascii "Group created\n" },
                  { tracker with groupDB })
            | (false, _) => ({ message := ascii "Group already exists\n" }, tracker)
        | .join =>
            match tracker.group? groupId with
            | some group =>
                if group.hasMember user then ({ message := ascii "Invalid request\n" }, tracker)
                else
                  ({ success := true, message := ascii "Join request sent\n" },
                    tracker.updateGroup groupId (group.addJoinRequest user).2)
            | none => ({ message := ascii "Invalid request\n" }, tracker)
        | .leave =>
            match tracker.group? groupId with
            | some group =>
                match group.removeUser user with
                | (true, group) =>
                    ({ success := true, message := ascii "Left group\n" },
                      tracker.updateGroup groupId group)
                | (false, _) => ({ message := ascii "Invalid request\n" }, tracker)
            | none => ({ message := ascii "Invalid request\n" }, tracker)
        | .listJoinRequests =>
            match tracker.group? groupId with
            | some group =>
                let usernames := (platform.order group.joinRequests).map User.username
                ({ message := listing usernames (ascii "No pending join_requests\n") }, tracker)
            | none => ({ message := ascii "Group does not exist\n" }, tracker)
        | .acceptJoinRequest =>
            let (username, _) := stream.extractWord
            match tracker.group? groupId with
            | some group =>
                if group.owner ≠ user then
                  ({ message := ascii "You are not the owner of the group\n" }, tracker)
                else
                  match (platform.order group.joinRequests).find?
                      fun joinRequest => joinRequest.username = username with
                  | some joinRequest =>
                      let group := (group.addUser joinRequest).2
                      let group := (group.removeJoinRequest joinRequest).2
                      ({ success := true, message := ascii "Request accepted\n" },
                        tracker.updateGroup groupId group)
                  | none =>
                      ({ message := ascii "This user has not sent a request\n" }, tracker)
            | none => ({ message := ascii "Group does not exist\n" }, tracker)
        | .list => ({ message := ascii "Not a group request\n" }, tracker)

/-- The arguments of an upload: the endpoint that seeds the file, and the text
behind it as a `FileInfo`. -/
def decodeUpload (platform : Platform) (stream : Stream) :
    Except StdException (Endpoint × FileInfo) := do
  let (endpointStr, stream) := stream.extractWord
  let endpoint ← Endpoint.fromString endpointStr
  let text ← stream.remainder
  return (endpoint, FileInfo.fromString platform text)

/-- The branch `FileRequest::UPLOAD` once the arguments are decoded. -/
def uploadFile (platform : Platform) (tracker : Tracker) (groupId : Bytes) (group : Group)
    (endpoint : Endpoint) (fileInfo : FileInfo) : Result × Tracker :=
  let file : File := { seeders := [endpoint], fileInfo, groupId }
  match (platform.objects groupId group.files).find? fun f => f.2.equals file with
  | some (place, _) =>
      -- The file gains a seeder, and `result.success` stays false.
      ({ message := ascii "File already exists. Added you as a seeder\n" },
        tracker.updateGroup groupId (group.addSeeder place endpoint))
  | none =>
      ({ success := true, message := ascii "File uploaded\n" },
        tracker.updateGroup groupId (group.addFile file).2)

def processFileRequest (platform : Platform) (tracker : Tracker) (origin : EndpointID)
    (request : FileRequest) (stream : Stream) : Except Exception Result × Tracker :=
  match tracker.session? origin with
  | none => (.ok { message := loginRequiredWarning }, tracker)
  | some user =>
      let (groupId, stream) := stream.extractWord
      match tracker.group? groupId with
      | none => (.ok { message := ascii "Group not found\n" }, tracker)
      | some group =>
          if !group.hasMember user then
            (.ok { message := ascii "You are not a member of this group\n" }, tracker)
          else
            match request with
            | .list =>
                let files := (platform.objects groupId group.files).map
                  fun file => file.2.fileInfo.toString
                (.ok { message := listing files (ascii "No files found\n") }, tracker)
            | .upload =>
                match decodeUpload platform stream with
                | .ok (endpoint, fileInfo) =>
                    let (result, tracker) :=
                      uploadFile platform tracker groupId group endpoint fileInfo
                    (.ok result, tracker)
                | .error .invalidArgument =>
                    (.ok { message := ascii "Invalid request\n" }, tracker)
                | .error .outOfRange => (.error (.std .outOfRange), tracker)
            | .download =>
                let (fileName, _) := stream.extractWord
                match (platform.objects groupId group.files).find?
                    fun f => f.2.fileInfo.name = fileName with
                | some (_, file) =>
                    (.ok { success := true,
                           message := ascii "1 " ++ file.toString platform ++ ascii "\n" },
                      tracker)
                | none => (.ok { message := ascii "0 File not found\n" }, tracker)

end P2PFileShare
