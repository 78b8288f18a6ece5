import P2PFileShare.Models.Group
import P2PFileShare.Models.Transaction

/-!
# The state of a tracker

`UserDB`, `GroupDB` and the static variables of `process_request.cpp` and
`tracker.cpp`.
-/

namespace P2PFileShare

open Container Text

structure UserDB where
  users : UnorderedMap Bytes User := .empty

namespace UserDB

/-- How many users have been made for a name so far. -/
def made (db : UserDB) (username : Bytes) : Nat :=
  db.users.keys.history.count (.insert username)

/-- `UserDB::createUser`. -/
def createUser (db : UserDB) (username password : Bytes) : Bool × UserDB :=
  if (db.users.find? username).isSome then (false, db)
  else
    let user : User := { username, password, serial := db.made username }
    (true, { users := db.users.insert username user })

/-- `UserDB::deleteUser`. -/
def deleteUser (db : UserDB) (username : Bytes) : Bool × UserDB :=
  if (db.users.find? username).isSome then (true, { users := db.users.erase username })
  else (false, db)

/-- `UserDB::getUser`. -/
def getUser (db : UserDB) (username : Bytes) : Option User :=
  db.users.find? username

/-- `UserDB::getUsernames`. -/
def getUsernames (platform : Platform) (db : UserDB) : List Bytes :=
  platform.order db.users.keys

end UserDB

structure GroupDB where
  groups : UnorderedMap Bytes Group := .empty

namespace GroupDB

/-- `GroupDB::createGroup`. -/
def createGroup (db : GroupDB) (groupId : Bytes) (owner : User) : Bool × GroupDB :=
  if (db.groups.find? groupId).isSome then (false, db)
  else (true, { groups := db.groups.insert groupId { groupId, owner } })

/-- `GroupDB::getGroup`. -/
def getGroup (db : GroupDB) (groupId : Bytes) : Option Group :=
  db.groups.find? groupId

/-- `GroupDB::getGroups`. -/
def getGroups (platform : Platform) (db : GroupDB) : List Bytes :=
  platform.order db.groups.keys

/-- A change made through the pointer that `getGroup` returned. -/
def update (db : GroupDB) (groupId : Bytes) (group : Group) : GroupDB :=
  { groups := db.groups.adjust groupId fun _ => group }

end GroupDB

/-- The mutable state of a tracker process. -/
structure Tracker where
  groupDB : GroupDB := {}
  loggedInUsers : UnorderedMap EndpointID User := .empty
  userDB : UserDB := {}
  successfulTransactions : List Transaction := []

namespace Tracker

/-- A tracker as it starts. -/
def empty : Tracker :=
  {}

/-- `is_logged_in`. -/
def isLoggedIn (tracker : Tracker) (client : EndpointID) : Bool :=
  (tracker.loggedInUsers.find? client).isSome

/-- The user of a name, the session of an origin, and the group of an id. -/
def user? (tracker : Tracker) (username : Bytes) : Option User :=
  tracker.userDB.getUser username

def session? (tracker : Tracker) (origin : EndpointID) : Option User :=
  tracker.loggedInUsers.find? origin

def group? (tracker : Tracker) (groupId : Bytes) : Option Group :=
  tracker.groupDB.getGroup groupId

/-- A change of one group made through its pointer. -/
def updateGroup (tracker : Tracker) (groupId : Bytes) (group : Group) : Tracker :=
  { tracker with groupDB := tracker.groupDB.update groupId group }

end Tracker

end P2PFileShare
