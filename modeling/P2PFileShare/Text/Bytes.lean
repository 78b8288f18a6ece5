import Mathlib.Data.List.Basic
import Mathlib.Algebra.Group.Nat.Defs
import Mathlib.Algebra.Group.Int.Defs

/-!
# Byte strings

A C++ `std::string` is a sequence of bytes.  This file fixes that
representation, the character classes of the C locale, and the decimal
notation of natural numbers together with its exact inverse.
-/

namespace P2PFileShare.Text

/-- A `std::string`: its bytes, first byte first. -/
abbrev Bytes := List UInt8

/-- The bytes of an ASCII literal. -/
def ascii (literal : String) : Bytes :=
  literal.toList.map fun char => UInt8.ofNat char.toNat

/-- `isspace` in the C locale: tab, newline, vertical tab, form feed, carriage
return and space. -/
def isSpace (byte : UInt8) : Bool :=
  byte == 32 || (9 ≤ byte && byte ≤ 13)

/-- `isdigit` in the C locale. -/
def isDigit (byte : UInt8) : Bool :=
  48 ≤ byte && byte ≤ 57

/-- A token that formatted extraction reads back whole: it is not empty and
holds no whitespace. -/
def IsWord (word : Bytes) : Prop :=
  word ≠ [] ∧ ∀ byte ∈ word, isSpace byte = false

instance (word : Bytes) : Decidable (IsWord word) :=
  have := List.decidableBAll (fun byte => isSpace byte = false) word
  inferInstanceAs (Decidable (_ ∧ _))

/-! ## Splitting at the first byte outside a class -/

section Split

variable {p : UInt8 → Bool} {word rest : Bytes} {stop : UInt8}

theorem takeWhile_append_stop (inside : ∀ byte ∈ word, p byte = true)
    (outside : p stop = false) :
    (word ++ stop :: rest).takeWhile p = word := by
  rw [List.takeWhile_append_of_pos inside]
  simp [outside]

theorem dropWhile_append_stop (inside : ∀ byte ∈ word, p byte = true)
    (outside : p stop = false) :
    (word ++ stop :: rest).dropWhile p = stop :: rest := by
  rw [List.dropWhile_append_of_pos inside]
  simp [outside]

theorem takeWhile_eq_self (inside : ∀ byte ∈ word, p byte = true) :
    word.takeWhile p = word := by
  have split : (word ++ []).takeWhile p = word ++ [].takeWhile p :=
    List.takeWhile_append_of_pos inside
  simpa using split

theorem dropWhile_eq_nil (inside : ∀ byte ∈ word, p byte = true) :
    word.dropWhile p = [] := by
  have split : (word ++ []).dropWhile p = [].dropWhile p :=
    List.dropWhile_append_of_pos inside
  simpa using split

end Split

/-! ## Decimal notation -/

/-- The ASCII byte of a decimal digit character. -/
def digitByte (char : Char) : UInt8 :=
  UInt8.ofNat char.toNat

/-- `std::to_string` of an unsigned number. -/
def toString (n : Nat) : Bytes :=
  (Nat.toDigits 10 n).map digitByte

/-- The value of a run of decimal digits. -/
def digitsValue (digits : Bytes) : Nat :=
  digits.foldl (fun value byte => 10 * value + (byte.toNat - 48)) 0

/-- A decimal digit character is one of the ten, and its byte is a digit with
the same value. -/
theorem digitByte_spec {char : Char} (digit : char.isDigit = true) :
    isDigit (digitByte char) = true ∧
      (digitByte char).toNat - 48 = char.toNat - '0'.toNat := by
  simp only [Char.isDigit, ge_iff_le, Bool.and_eq_true, decide_eq_true_eq,
    UInt32.le_iff_toNat_le] at digit
  have lower : 48 ≤ char.toNat := digit.1
  have upper : char.toNat ≤ 57 := digit.2
  have byteValue : (digitByte char).toNat = char.toNat := by
    simp only [digitByte, UInt8.toNat_ofNat']
    omega
  refine ⟨?_, by rw [byteValue]; rfl⟩
  simp only [isDigit, Bool.and_eq_true, decide_eq_true_eq, UInt8.le_iff_toNat_le,
    byteValue]
  exact ⟨lower, upper⟩

theorem isDigit_of_mem_toString {n : Nat} {byte : UInt8} (member : byte ∈ toString n) :
    isDigit byte = true := by
  rcases List.mem_map.mp member with ⟨char, charMem, rfl⟩
  exact (digitByte_spec (Nat.isDigit_of_mem_toDigits (by decide) (by decide) charMem)).1

theorem toString_ne_nil (n : Nat) : toString n ≠ [] := by
  simp [toString, Nat.toDigits_ne_nil]

private theorem foldl_digitByte (chars : List Char)
    (digits : ∀ char ∈ chars, char.isDigit = true) (init : Nat) :
    (chars.map digitByte).foldl (fun value byte => 10 * value + (byte.toNat - 48)) init =
      Nat.ofDigitChars 10 chars init := by
  induction chars generalizing init with
  | nil => simp
  | cons char chars ih =>
      have head := digitByte_spec (digits char List.mem_cons_self)
      have tail := ih fun other mem => digits other (List.mem_cons_of_mem char mem)
      simp only [List.map_cons, List.foldl_cons, tail, Nat.ofDigitChars_cons, head.2]

/-- Decimal notation is read back exactly. -/
@[simp]
theorem digitsValue_toString (n : Nat) : digitsValue (toString n) = n := by
  have digits : ∀ char ∈ Nat.toDigits 10 n, char.isDigit = true := fun _ mem =>
    Nat.isDigit_of_mem_toDigits (by decide) (by decide) mem
  rw [digitsValue, toString, foldl_digitByte _ digits]
  exact Nat.ofDigitChars_ten_toDigits

/-- A digit is neither whitespace nor a sign. -/
theorem isDigit_class {byte : UInt8} (digit : isDigit byte = true) :
    isSpace byte = false ∧ byte ≠ 43 ∧ byte ≠ 45 ∧ byte ≠ 58 := by
  simp only [isDigit, Bool.and_eq_true, decide_eq_true_eq, UInt8.le_iff_toNat_le] at digit
  have bounds : 48 ≤ byte.toNat ∧ byte.toNat ≤ 57 := digit
  refine ⟨?_, ?_, ?_, ?_⟩
  · simp only [isSpace, Bool.or_eq_false_iff, Bool.and_eq_false_iff, decide_eq_false_iff_not,
      beq_eq_false_iff_ne, ne_eq, UInt8.le_iff_toNat_le]
    refine ⟨?_, Or.inr ?_⟩
    · rintro rfl
      exact absurd bounds.1 (by decide)
    · have : (13 : UInt8).toNat = 13 := rfl
      omega
  all_goals
    rintro rfl
    revert bounds
    decide

theorem isWord_toString (n : Nat) : IsWord (toString n) :=
  ⟨toString_ne_nil n, fun _ member => (isDigit_class (isDigit_of_mem_toString member)).1⟩

end P2PFileShare.Text
