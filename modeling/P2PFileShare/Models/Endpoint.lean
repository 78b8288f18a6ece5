import P2PFileShare.Models.Platform

/-!
# Endpoints

`models/endpoint.hpp`: an address with its textual form `ip:port`, and the id
that is derived from it.
-/

namespace P2PFileShare

open Text

/-- `using EndpointID = size_t`. -/
abbrev EndpointID := UInt64

structure Endpoint where
  ip : Bytes
  port : UInt16
  deriving DecidableEq

namespace Endpoint

/-- The byte `':'`. -/
def colon : UInt8 := 58

/-- The number in the textual form of an endpoint. -/
def portText (str : Bytes) : Bytes :=
  (str.dropWhile (· != colon)).drop 1

/-- `Endpoint::from_string`.  The number behind the first colon is cast to
sixteen bits whatever its value. -/
def fromString (str : Bytes) : Except StdException Endpoint :=
  if colon ∈ str then do
    let port ← stoi ((str.dropWhile (· != colon)).drop 1)
    return { ip := str.takeWhile (· != colon), port := UInt16.ofInt port }
  else
    .error .invalidArgument

/-- `Endpoint::to_string`. -/
def toString (endpoint : Endpoint) : Bytes :=
  endpoint.ip ++ colon :: Text.toString endpoint.port.toNat

/-- `Endpoint::generate_id`. -/
def generateId (platform : Platform) (endpoint : Endpoint) : EndpointID :=
  platform.stringHash endpoint.toString

/-- An address that survives the textual form: it holds neither the separator
nor whitespace. -/
def IsPlain (endpoint : Endpoint) : Prop :=
  ∀ byte ∈ endpoint.ip, byte ≠ colon ∧ isSpace byte = false

instance (endpoint : Endpoint) : Decidable endpoint.IsPlain :=
  List.decidableBAll (fun byte => byte ≠ colon ∧ isSpace byte = false) endpoint.ip

/-- `from_string` inverts `to_string` on an address without a colon. -/
theorem fromString_toString_of_noColon {endpoint : Endpoint}
    (noColon : ∀ byte ∈ endpoint.ip, byte ≠ colon) :
    fromString endpoint.toString = .ok endpoint := by
  have inside : ∀ byte ∈ endpoint.ip, (byte != colon) = true := fun byte mem => by
    simpa using noColon byte mem
  have bound : endpoint.port.toNat < 2 ^ 16 := endpoint.port.toNat_lt
  have small : endpoint.port.toNat < 2 ^ 31 := by omega
  have member : colon ∈ endpoint.toString := by simp [toString]
  have outside : (colon != colon) = false := by decide
  have number : ((endpoint.toString.dropWhile (· != colon)).drop 1) =
      Text.toString endpoint.port.toNat := by
    rw [toString, dropWhile_append_stop inside outside]
    rfl
  have address : endpoint.toString.takeWhile (· != colon) = endpoint.ip := by
    rw [toString, takeWhile_append_stop inside outside]
  rw [fromString, if_pos member, number, stoi_toString small, address]
  have cast : UInt16.ofInt endpoint.port.toNat = endpoint.port := by
    apply UInt16.toNat.inj
    simp only [UInt16.ofInt, UInt16.toNat_ofNat']
    omega
  simp only [bind, Except.bind, pure, Except.pure, cast]

/-- `from_string` inverts `to_string` on plain endpoints. -/
theorem fromString_toString {endpoint : Endpoint} (plain : endpoint.IsPlain) :
    fromString endpoint.toString = .ok endpoint :=
  fromString_toString_of_noColon fun byte mem => (plain byte mem).1

/-- The textual form of a plain endpoint is one token. -/
theorem isWord_toString {endpoint : Endpoint} (plain : endpoint.IsPlain) :
    IsWord endpoint.toString := by
  constructor
  · simp [toString]
  · intro byte member
    rcases List.mem_append.mp member with inIp | behind
    · exact (plain byte inIp).2
    · rcases List.mem_cons.mp behind with rfl | inPort
      · decide
      · exact (Text.isWord_toString _).2 byte inPort

end Endpoint

end P2PFileShare
