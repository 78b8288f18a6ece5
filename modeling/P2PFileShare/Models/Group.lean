import P2PFileShare.Models.File

/-!
# Users and groups

`models/user.hpp` and `models/group.hpp`.  Groups hold shared pointers to users.
Users never change, so a pointer is represented by the object itself together
with a serial number, which tells apart the objects made for one name.
-/

namespace P2PFileShare

open Container Text

structure User where
  username : Bytes
  password : Bytes
  serial : Nat
  deriving DecidableEq

/-- `User::checkPassword`. -/
def User.checkPassword (user : User) (password : Bytes) : Bool :=
  user.password == password

structure Group where
  groupId : Bytes
  owner : User
  users : UnorderedSet User := {}
  joinRequests : UnorderedSet User := {}
  files : List File := []
  deriving DecidableEq

namespace Group

/-- `Group::add_user`. -/
def addUser (group : Group) (user : User) : Bool × Group :=
  if user ∈ group.users then (false, group)
  else (true, { group with users := group.users.insert user })

/-- `Group::has_member`. -/
def hasMember (group : Group) (user : User) : Bool :=
  user = group.owner || user ∈ group.users

/-- `Group::remove_user`. -/
def removeUser (group : Group) (user : User) : Bool × Group :=
  (user ∈ group.users, { group with users := group.users.erase user })

/-- `Group::add_join_request`. -/
def addJoinRequest (group : Group) (user : User) : Bool × Group :=
  if user ∈ group.joinRequests then (false, group)
  else (true, { group with joinRequests := group.joinRequests.insert user })

/-- `Group::remove_join_request`. -/
def removeJoinRequest (group : Group) (user : User) : Bool × Group :=
  if user ∈ group.joinRequests then
    (true, { group with joinRequests := group.joinRequests.erase user })
  else (false, group)

/-- `Group::add_file`, for a pointer made by the caller: it is never in the set
yet. -/
def addFile (group : Group) (file : File) : Bool × Group :=
  (true, { group with files := group.files ++ [file] })

/-- `group.files[place]->seeders.insert(endpoint)`, through the pointer found at
that place of the set. -/
def addSeeder (group : Group) (place : Nat) (endpoint : Endpoint) : Group :=
  { group with
    files := group.files.modify place fun file =>
      { file with seeders := file.seeders ++ [endpoint] } }

end Group

end P2PFileShare
