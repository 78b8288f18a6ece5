import P2PFileShare.Text.Stream

/-!
# Numerals

What `std::stoi` makes of a text that is a decimal numeral, and of one in which it finds
no number.
-/

namespace P2PFileShare.Text

/-- A decimal numeral: nothing but digits, and at least one. -/
def IsNumeral (text : Bytes) : Prop :=
  text ≠ [] ∧ ∀ byte ∈ text, isDigit byte = true

instance (text : Bytes) : Decidable (IsNumeral text) :=
  have := List.decidableBAll (fun byte => isDigit byte = true) text
  inferInstanceAs (Decidable (_ ∧ _))

/-- Behind whitespace and a sign, if there are any, comes a digit. -/
def StartsNumber (text : Bytes) : Prop :=
  ∃ byte ∈ (Stream.splitSign (text.dropWhile isSpace)).2.2.head?, isDigit byte = true

section Numerals

variable {text : Bytes}

theorem IsNumeral.isWord (numeral : IsNumeral text) : IsWord text :=
  ⟨numeral.1, fun byte member => (isDigit_class (numeral.2 byte member)).1⟩

theorem dropWhile_isSpace_word (isWord : IsWord text) : text.dropWhile isSpace = text := by
  obtain ⟨byte, tail, rfl⟩ := List.exists_cons_of_ne_nil isWord.1
  rw [List.dropWhile_cons_of_neg]
  rw [isWord.2 byte List.mem_cons_self]
  exact Bool.false_ne_true

theorem splitSign_numeral (numeral : IsNumeral text) :
    Stream.splitSign text = (false, [], text) := by
  simpa using Stream.splitSign_digits numeral.2 [] numeral.1

/-- `std::stoi` reads the value of a numeral, if an `int` holds it. -/
theorem stoi_numeral (numeral : IsNumeral text) :
    stoi text = if digitsValue text < 2 ^ 31 then .ok (digitsValue text : Int)
      else .error .outOfRange := by
  simp only [stoi, dropWhile_isSpace_word numeral.isWord, splitSign_numeral numeral,
    takeWhile_eq_self numeral.2, numeral.1, if_false, Bool.false_eq_true]
  by_cases small : digitsValue text < 2 ^ 31
  · rw [if_pos small, if_neg (by omega)]
  · rw [if_neg small, if_pos (by omega)]

/-- `std::stoi` throws `std::invalid_argument` where it finds no number. -/
theorem stoi_invalidArgument_iff : stoi text = .error .invalidArgument ↔ ¬StartsNumber text := by
  simp only [stoi, StartsNumber]
  generalize Stream.splitSign (text.dropWhile isSpace) = split
  rcases split with ⟨minus, sign, body⟩
  cases body with
  | nil => simp
  | cons byte rest =>
      cases digit : isDigit byte with
      | false => simp [digit]
      | true =>
          have starts : ∃ first ∈ (byte :: rest).head?, isDigit first = true := ⟨byte, rfl, digit⟩
          refine iff_of_false ?_ (not_not_intro starts)
          simp only [List.takeWhile_cons_of_pos digit, if_neg (List.cons_ne_nil _ _)]
          split_ifs <;> simp

end Numerals

end P2PFileShare.Text
