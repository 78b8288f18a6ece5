import P2PFileShare.Models.Endpoint
import P2PFileShare.Text.Numerals

/-!
# Which texts are endpoints

`Endpoint::from_string` leaves the number behind the colon to `std::stoi`, and casts what
that returns to sixteen bits.  So it reads more than `ip:port`: blanks and a sign in front
of the digits, anything behind them, and numbers that do not fit.
-/

namespace P2PFileShare.Endpoint

open Text

/-- `std::invalid_argument`, or the endpoint that the text spells. -/
def Reads (str : Bytes) : Except StdException Endpoint → Prop
  | .error error => error = .invalidArgument
  | .ok endpoint =>
      IsNumeral (portText str) ∧ endpoint.port.toNat = digitsValue (portText str) ∧
        endpoint.ip = str.takeWhile (· != colon) ∧
          fromString endpoint.toString = .ok endpoint

instance (str : Bytes) : DecidablePred (Reads str)
  | .error error => inferInstanceAs (Decidable (error = .invalidArgument))
  | .ok _ => inferInstanceAs (Decidable (_ ∧ _ ∧ _ ∧ _))

section Parsing

variable {str : Bytes}

theorem fromString_noColon (noColon : colon ∉ str) :
    fromString str = .error .invalidArgument :=
  if_neg noColon

theorem fromString_colon (found : colon ∈ str) :
    fromString str = (stoi (portText str)).map fun port =>
      { ip := str.takeWhile (· != colon), port := UInt16.ofInt port } := by
  rw [fromString, if_pos found, portText]
  cases stoi ((str.dropWhile (· != colon)).drop 1) <;> rfl

/-- The text is refused: it has no colon, or no number behind the first one. -/
theorem fromString_invalidArgument_iff :
    fromString str = .error .invalidArgument ↔ colon ∉ str ∨ ¬StartsNumber (portText str) := by
  by_cases found : colon ∈ str
  · rw [fromString_colon found, ← stoi_invalidArgument_iff]
    cases stoi (portText str) with
    | error error => simp [Except.map, found]
    | ok port => simp [Except.map, found]
  · exact iff_of_true (fromString_noColon found) (Or.inl found)

theorem noColon_takeWhile : ∀ byte ∈ str.takeWhile (· != colon), byte ≠ colon := by
  intro byte member
  simpa using List.all_eq_true.mp List.all_takeWhile byte member

/-- No address that was read holds a colon. -/
theorem noColon_of_fromString {endpoint : Endpoint} (parsed : fromString str = .ok endpoint) :
    ∀ byte ∈ endpoint.ip, byte ≠ colon := by
  by_cases found : colon ∈ str
  · rw [fromString_colon found] at parsed
    cases number : stoi (portText str) with
    | error error =>
        rw [number] at parsed
        cases parsed
    | ok port =>
        rw [number] at parsed
        rw [← Except.ok.inj parsed]
        exact noColon_takeWhile
  · rw [fromString_noColon found] at parsed
    cases parsed

/-- Different endpoints have different texts. -/
theorem eq_of_toString_eq {endpoint other : Endpoint} (noColon : ∀ byte ∈ endpoint.ip, byte ≠ colon)
    (noColonOther : ∀ byte ∈ other.ip, byte ≠ colon)
    (same : endpoint.toString = other.toString) : endpoint = other := by
  have parsed := fromString_toString_of_noColon noColon
  rw [same, fromString_toString_of_noColon noColonOther] at parsed
  exact (Except.ok.inj parsed).symm

/-- A numeral of sixteen bits is read exactly. -/
theorem fromString_numeral (found : colon ∈ str) (numeral : IsNumeral (portText str))
    (small : digitsValue (portText str) < 2 ^ 16) : Reads str (fromString str) := by
  have inRange : digitsValue (portText str) < 2 ^ 31 := by omega
  rw [fromString_colon found, stoi_numeral numeral, if_pos inRange]
  refine ⟨numeral, ?_, rfl, fromString_toString_of_noColon ?_⟩
  · simp only [UInt16.ofInt, UInt16.toNat_ofNat']
    omega
  · exact noColon_takeWhile

/-- An endpoint is read as it is written, or refused with `std::invalid_argument`, exactly
if the text has no colon, or no number behind the first one, or a numeral of sixteen bits
there. -/
theorem fromString_reads_iff (str : Bytes) :
    Reads str (fromString str) ↔
      colon ∉ str ∨ ¬StartsNumber (portText str) ∨
        (IsNumeral (portText str) ∧ digitsValue (portText str) < 2 ^ 16) := by
  constructor
  · intro reads
    rw [← or_assoc, ← fromString_invalidArgument_iff]
    cases outcome : fromString str with
    | error error =>
        rw [outcome] at reads
        exact Or.inl (congrArg Except.error reads)
    | ok endpoint =>
        rw [outcome] at reads
        rcases reads with ⟨numeral, port_eq, _, _⟩
        exact Or.inr ⟨numeral, port_eq ▸ endpoint.port.toNat_lt⟩
  · rintro (noColon | noNumber | ⟨numeral, small⟩)
    · rw [fromString_noColon noColon]
      rfl
    · rw [fromString_invalidArgument_iff.mpr (Or.inr noNumber)]
      rfl
    · by_cases found : colon ∈ str
      · exact fromString_numeral found numeral small
      · rw [fromString_noColon found]
        rfl

end Parsing

/-- The second one is read as port 80, the third leaves the program. -/
theorem fromString_misreads :
    ¬Reads (ascii "1.2.3.4:80/tcp") (fromString (ascii "1.2.3.4:80/tcp")) ∧
      ¬Reads (ascii "1.2.3.4:65616") (fromString (ascii "1.2.3.4:65616")) ∧
      ¬Reads (ascii "1.2.3.4:2147483648") (fromString (ascii "1.2.3.4:2147483648")) := by
  decide +kernel

end P2PFileShare.Endpoint
