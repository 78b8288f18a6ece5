import P2PFileShare.Tracker.Serving
import P2PFileShare.Transition.Crossing

/-!
# Two trackers that know each other

The configuration that `main` builds from the list of trackers, for each of two
processes.  What one of them mirrors goes to the other one.
-/

namespace P2PFileShare

open Text Transition

/-- Two trackers that know each other and can tell each other apart. -/
structure Deployment where
  platform : Side → Platform
  endpoint : Side → Endpoint
  distinct : ∀ side, (endpoint side.other).generateId (platform side) ≠
    (endpoint side).generateId (platform side)

namespace Deployment

variable (deployment : Deployment)

def config (side : Side) : Config where
  myId := (deployment.endpoint side).generateId (deployment.platform side)
  trackers := [deployment.endpoint .left, deployment.endpoint .right]

variable {deployment}

theorem mirror_eq (side : Side) (transaction : Transaction) :
    mirror (deployment.platform side) (deployment.config side) transaction =
      [(deployment.endpoint side.other, ascii "0" ++ transaction.data)] := by
  have distinct := deployment.distinct side
  cases side <;>
    · simp only [Side.other] at distinct
      simp [mirror, config, distinct, Side.other]

end Deployment

/-- A hash that tells short texts apart. -/
def hashing (text : Bytes) : UInt64 :=
  text.foldl (fun hash byte => 31 * hash + byte.toUInt64) 7

/-- Two trackers on one host. -/
def neighbours : Deployment where
  platform
    | .left => { Platform.oldestFirst with stringHash := hashing }
    | .right => { Platform.newestFirst with stringHash := hashing }
  endpoint
    | .left => { ip := ascii "127.0.0.1", port := 5000 }
    | .right => { ip := ascii "127.0.0.1", port := 5001 }
  distinct := by
    intro side
    cases side <;> decide

end P2PFileShare
