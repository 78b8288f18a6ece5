import P2PFileShare.Container.Unordered
import P2PFileShare.Text.Stream

/-!
# What the source leaves to the platform

The exceptions that cross function boundaries, and the parameters that the
language and its library leave open: the iteration order of the unordered
containers, `std::hash<std::string>`, and the value read from a `size_t` that
was never assigned.
-/

namespace P2PFileShare

open Container Text

/-- The classes of `network_errors.hpp`.  `WouldBlockError` and
`ConnectionClosedError` derive from `NetworkError`. -/
inductive NetworkError
  | networkError
  | wouldBlockError
  | connectionClosedError
  deriving DecidableEq, Repr

/-- Everything that can leave a function other than by returning.  The last
case is not an exception but the end of the process. -/
inductive Exception
  | std (error : StdException)
  | runtimeError
  | unknownRequest
  | network (error : NetworkError)
  | nullDereference
  deriving DecidableEq, Repr

/-- The platform a program runs on.  An unassigned `size_t` reads as some value,
looked up by the text that is being decoded: a request decodes no text twice.
What several requests, or two executions, find may differ beyond that, and where
it matters each request brings values of its own. -/
structure Platform extends IterationOrder where
  stringHash : Bytes → UInt64
  uninitialised : Bytes → UInt64

namespace Platform

/-- A platform that iterates in the order of insertion. -/
def oldestFirst : Platform where
  toIterationOrder := .oldestFirst
  stringHash _ := 0
  uninitialised _ := 0

/-- A platform that iterates in the reverse order of insertion. -/
def newestFirst : Platform where
  toIterationOrder := .newestFirst
  stringHash _ := 1
  uninitialised _ := 1

end Platform

end P2PFileShare
