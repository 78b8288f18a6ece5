import P2PFileShare.Text.Bytes

/-!
# Formatted extraction from a string stream

The part of `std::stringstream`, `std::stoi` and `std::string::substr` that
hand-written text protocols rest on.  A stream keeps the text it was built over
split at its read position, so that the position never leaves the text, and the
two state bits that formatted extraction sets.

The extraction lemmas describe one token at a time: what a word or a number
followed by a separator leaves behind.  Decoders are verified by chaining them.
-/

namespace P2PFileShare.Text

/-- The exceptions of the standard string functions. -/
inductive StdException
  | invalidArgument
  | outOfRange
  deriving DecidableEq, Repr

/-- A string stream opened for reading: the bytes already extracted, the bytes
still to come, and the `eofbit` and `failbit` of its state. -/
structure Stream where
  taken : Bytes
  rest : Bytes
  eof : Bool := false
  fail : Bool := false
  deriving DecidableEq

namespace Stream

/-- `std::stringstream ss(text)`. -/
def ofText (text : Bytes) : Stream :=
  { taken := [], rest := text }

/-- `ss.str()`. -/
def str (stream : Stream) : Bytes :=
  stream.taken ++ stream.rest

/-- `ss.good()`: neither state bit is set. -/
def good (stream : Stream) : Bool :=
  !stream.eof && !stream.fail

/-- The sentry of a formatted extraction.  It skips whitespace, and sets
`failbit` when the stream was not good or when nothing but whitespace was left;
the extraction goes on exactly when the stream is good afterwards. -/
def sentry (stream : Stream) : Stream :=
  if stream.good then
    let spaces := stream.rest.takeWhile isSpace
    let rest := stream.rest.dropWhile isSpace
    { taken := stream.taken ++ spaces
      rest := rest
      eof := rest.isEmpty
      fail := rest.isEmpty }
  else
    { stream with fail := true }

/-- `ss >> word` on a fresh string variable.  When the sentry fails the
variable is not touched, so it is still empty. -/
def extractWord (stream : Stream) : Bytes × Stream :=
  let stream := stream.sentry
  if stream.good then
    let word := stream.rest.takeWhile fun byte => !isSpace byte
    let rest := stream.rest.dropWhile fun byte => !isSpace byte
    (word, { taken := stream.taken ++ word, rest := rest, eof := rest.isEmpty })
  else
    ([], stream)

/-- An optional sign in front of a number: whether it is a minus, the sign
itself and what follows it. -/
def splitSign : Bytes → Bool × Bytes × Bytes
  | 45 :: rest => (true, [45], rest)
  | 43 :: rest => (false, [43], rest)
  | rest => (false, [], rest)

/-- `ss >> number` for a variable that holds `old`.  `convert` turns a sign and
a magnitude into the value stored and whether it was in range; without a digit
the value stored is `zero`.  When the sentry fails, `old` is left in place. -/
def extractNumber {α : Type} (convert : Bool → Nat → α × Bool) (zero old : α)
    (stream : Stream) : α × Stream :=
  let stream := stream.sentry
  if stream.good then
    let (minus, sign, body) := splitSign stream.rest
    let digits := body.takeWhile isDigit
    let rest := body.dropWhile isDigit
    let (value, inRange) :=
      if digits = [] then (zero, false) else convert minus (digitsValue digits)
    (value, { taken := stream.taken ++ sign ++ digits, rest := rest,
              eof := rest.isEmpty, fail := !inRange })
  else
    (old, stream)

/-- `ss >> value` for a `size_t`.  A minus sign is accepted and negates modulo
`2 ^ 64`. -/
def extractSize (old : UInt64) (stream : Stream) : UInt64 × Stream :=
  stream.extractNumber
    (fun minus magnitude =>
      if magnitude < 2 ^ 64 then
        (if minus then -UInt64.ofNat magnitude else UInt64.ofNat magnitude, true)
      else (UInt64.ofNat (2 ^ 64 - 1), false))
    0 old

/-- `ss >> value` for an `int`: a value outside its range is clamped. -/
def extractInt (old : Int) (stream : Stream) : Int × Stream :=
  stream.extractNumber
    (fun minus magnitude =>
      let value : Int := if minus then -magnitude else magnitude
      if value < -2 ^ 31 then (-2 ^ 31, false)
      else if 2 ^ 31 ≤ value then (2 ^ 31 - 1, false)
      else (value, true))
    0 old

/-- `ss.tellg()`: the read position, or `-1` when the stream is not good. -/
def tellg (stream : Stream) : Option Nat :=
  if stream.good then some stream.taken.length else none

end Stream

/-- `text.substr(position)`, where no position stands for `-1` converted to
`size_t`, which lies behind every string. -/
def substr (text : Bytes) : Option Nat → Except StdException Bytes
  | some position =>
      if position ≤ text.length then .ok (text.drop position) else .error .outOfRange
  | none => .error .outOfRange

/-- `substr` of everything behind the first bytes needs these bytes. -/
theorem substr_eq_ok {text behind : Bytes} {start : Nat}
    (found : substr text (some start) = .ok behind) :
    start ≤ text.length ∧ text.drop start = behind := by
  simp only [substr] at found
  split at found
  · next long => exact ⟨long, Except.ok.inj found⟩
  · cases found

/-- `ss.str().substr(ss.tellg())`: the text behind the read position. -/
def Stream.remainder (stream : Stream) : Except StdException Bytes :=
  substr stream.str stream.tellg

/-- `std::stoi(text)`: whitespace and a sign may precede the digits, and what
follows them is ignored. -/
def stoi (text : Bytes) : Except StdException Int :=
  let (minus, _, body) := Stream.splitSign (text.dropWhile isSpace)
  let digits := body.takeWhile isDigit
  if digits = [] then .error .invalidArgument
  else
    let magnitude : Int := digitsValue digits
    let value := if minus then -magnitude else magnitude
    if value < -2 ^ 31 ∨ 2 ^ 31 ≤ value then .error .outOfRange else .ok value

namespace Stream

/-! ## One token at a time -/

/-- The good stream that has read `taken` and has `rest` still to come. -/
abbrev reading (taken rest : Bytes) : Stream :=
  { taken := taken, rest := rest }

@[simp]
theorem reading_good (taken rest : Bytes) : (reading taken rest).good = true :=
  rfl

@[simp]
theorem ofText_eq_reading (text : Bytes) : ofText text = reading [] text :=
  rfl

@[simp]
theorem remainder_reading (taken rest : Bytes) :
    (reading taken rest).remainder = .ok rest := by
  simp [remainder, substr, tellg, str]

theorem remainder_of_good {stream : Stream} (ready : stream.good = true) :
    stream.remainder = .ok stream.rest := by
  simp [remainder, substr, tellg, ready, str]

theorem remainder_of_not_good {stream : Stream} (bad : stream.good = false) :
    stream.remainder = .error .outOfRange := by
  simp [remainder, substr, tellg, bad]

/-- Behind a word, a stream is good exactly if the text goes on. -/
theorem extractWord_good {stream : Stream} (found : stream.extractWord.1 ≠ []) :
    stream.extractWord.2.good = !stream.extractWord.2.rest.isEmpty := by
  by_cases ready : stream.sentry.good = true
  · simp only [extractWord, ready, if_true]
    simp [good]
  · simp only [extractWord, if_neg ready] at found
    contradiction

theorem sentry_reading_cons {byte : UInt8} (notSpace : isSpace byte = false)
    (taken rest : Bytes) :
    (reading taken (byte :: rest)).sentry = reading taken (byte :: rest) := by
  simp [sentry, notSpace]

/-- A leading separator is skipped before anything is extracted. -/
theorem sentry_reading_space {byte : UInt8} (space : isSpace byte = true)
    (taken rest : Bytes) :
    (reading taken (byte :: rest)).sentry = (reading (taken ++ [byte]) rest).sentry := by
  simp [sentry, space]

theorem sentry_reading_nil (taken : Bytes) :
    (reading taken []).sentry = { taken := taken, rest := [], eof := true, fail := true } := by
  simp [sentry]

theorem sentry_of_not_good {stream : Stream} (bad : stream.good = false) :
    stream.sentry = { stream with fail := true } := by
  simp [sentry, bad]

theorem extractWord_of_not_good {stream : Stream} (bad : stream.good = false) :
    stream.extractWord = ([], { stream with fail := true }) := by
  have still_bad : Stream.good { stream with fail := true } = false := by simp [good]
  simp [extractWord, sentry_of_not_good bad, still_bad]

theorem extractWord_nil (taken : Bytes) :
    (reading taken []).extractWord =
      ([], { taken := taken, rest := [], eof := true, fail := true }) := by
  simp [extractWord, sentry_reading_nil, good]

/-- What is extracted does not depend on what was read before. -/
theorem extractWord_reading (taken rest : Bytes) :
    (reading taken rest).extractWord.1 = (ofText rest).extractWord.1 := by
  simp only [extractWord, sentry, ofText_eq_reading, reading_good, if_true]
  cases rest.dropWhile isSpace with
  | nil => rfl
  | cons byte others => rfl

/-- Nothing that is extracted holds whitespace. -/
theorem extractWord_noSpace (stream : Stream) :
    ∀ byte ∈ stream.extractWord.1, isSpace byte = false := by
  intro byte member
  simp only [extractWord] at member
  split at member
  · simpa using List.all_eq_true.mp List.all_takeWhile byte member
  · cases member

theorem extractWord_space {byte : UInt8} (space : isSpace byte = true)
    (taken rest : Bytes) :
    (reading taken (byte :: rest)).extractWord =
      (reading (taken ++ [byte]) rest).extractWord := by
  simp only [extractWord, sentry_reading_space space]

/-- A word that ends at whitespace is extracted whole and leaves the separator. -/
theorem extractWord_word {word : Bytes} (isWord : IsWord word) {stop : UInt8}
    (space : isSpace stop = true) (taken rest : Bytes) :
    (reading taken (word ++ stop :: rest)).extractWord =
      (word, reading (taken ++ word) (stop :: rest)) := by
  rcases isWord with ⟨nonempty, noSpace⟩
  have inside : ∀ byte ∈ word, (!isSpace byte) = true := fun byte mem => by
    simp [noSpace byte mem]
  obtain ⟨byte, tail, rfl⟩ := List.exists_cons_of_ne_nil nonempty
  have sentryEq : (reading taken (byte :: tail ++ stop :: rest)).sentry =
      reading taken (byte :: tail ++ stop :: rest) :=
    sentry_reading_cons (noSpace byte List.mem_cons_self) taken _
  have outside : (!isSpace stop) = false := by simp [space]
  simp only [extractWord, sentryEq, takeWhile_append_stop inside outside,
    dropWhile_append_stop inside outside]
  simp

/-- Whitespace in front of a token does not matter. -/
theorem sentry_spaces {spaces : Bytes} (blank : ∀ byte ∈ spaces, isSpace byte = true)
    (taken rest : Bytes) :
    (reading taken (spaces ++ rest)).sentry = (reading (taken ++ spaces) rest).sentry := by
  induction spaces generalizing taken with
  | nil => simp
  | cons byte spaces ih =>
      rw [List.cons_append, sentry_reading_space (blank byte List.mem_cons_self),
        ih fun other member => blank other (List.mem_cons_of_mem byte member)]
      simp

theorem extractWord_spaces {spaces : Bytes} (blank : ∀ byte ∈ spaces, isSpace byte = true)
    (taken rest : Bytes) :
    (reading taken (spaces ++ rest)).extractWord =
      (reading (taken ++ spaces) rest).extractWord := by
  simp only [extractWord, sentry_spaces blank]

/-- The next word is extracted, whatever whitespace stands in front of it. -/
theorem extractWord_token {spaces word : Bytes} (blank : ∀ byte ∈ spaces, isSpace byte = true)
    (isWord : IsWord word) {stop : UInt8} (space : isSpace stop = true) (taken rest : Bytes) :
    (reading taken (spaces ++ (word ++ stop :: rest))).extractWord =
      (word, reading (taken ++ spaces ++ word) (stop :: rest)) := by
  rw [extractWord_spaces blank, extractWord_word isWord space]

/-- The word behind a separator. -/
theorem extractWord_next {separator : UInt8} (before : isSpace separator = true) {word : Bytes}
    (isWord : IsWord word) {stop : UInt8} (space : isSpace stop = true) (taken rest : Bytes) :
    (reading taken (separator :: (word ++ stop :: rest))).extractWord =
      (word, reading (taken ++ [separator] ++ word) (stop :: rest)) := by
  have blank : ∀ byte ∈ [separator], isSpace byte = true := by
    intro byte member
    rw [List.mem_singleton.mp member]
    exact before
  exact extractWord_token blank isWord space taken rest

/-- No word is left in whitespace. -/
theorem extractWord_blank {spaces : Bytes} (blank : ∀ byte ∈ spaces, isSpace byte = true)
    (taken : Bytes) :
    (reading taken spaces).extractWord =
      ([], { taken := taken ++ spaces, rest := [], eof := true, fail := true }) := by
  have skipped := extractWord_spaces blank taken []
  rw [List.append_nil] at skipped
  rw [skipped, extractWord_nil]

/-- A word at the end of the text is extracted whole and sets `eofbit`. -/
theorem extractWord_last {word : Bytes} (isWord : IsWord word) (taken : Bytes) :
    (reading taken word).extractWord =
      (word, { taken := taken ++ word, rest := [], eof := true }) := by
  rcases isWord with ⟨nonempty, noSpace⟩
  have inside : ∀ byte ∈ word, (!isSpace byte) = true := fun byte mem => by
    simp [noSpace byte mem]
  obtain ⟨byte, tail, rfl⟩ := List.exists_cons_of_ne_nil nonempty
  have sentryEq := sentry_reading_cons (noSpace byte List.mem_cons_self) taken tail
  simp only [extractWord, sentryEq, takeWhile_eq_self inside, dropWhile_eq_nil inside]
  simp

/-! ## Numbers -/

/-- Digits carry no sign. -/
theorem splitSign_digits {digits : Bytes} (allDigits : ∀ byte ∈ digits, isDigit byte = true)
    (rest : Bytes) (nonempty : digits ≠ []) :
    splitSign (digits ++ rest) = (false, [], digits ++ rest) := by
  obtain ⟨byte, tail, rfl⟩ := List.exists_cons_of_ne_nil nonempty
  have class_eq := isDigit_class (allDigits byte List.mem_cons_self)
  rw [List.cons_append, splitSign.eq_def]
  split
  · next equal => exact absurd (List.cons.inj equal).1 class_eq.2.2.1
  · next equal => exact absurd (List.cons.inj equal).1 class_eq.2.1
  · rfl

/-- A decimal numeral followed by whitespace is read back exactly. -/
theorem extractNumber_toString {α : Type} {convert : Bool → Nat → α × Bool} {zero old : α}
    {n : Nat} {stop : UInt8} (space : isSpace stop = true) (taken rest : Bytes) :
    (reading taken (toString n ++ stop :: rest)).extractNumber convert zero old =
      ((convert false n).1,
        { taken := taken ++ toString n, rest := stop :: rest,
          fail := !(convert false n).2 }) := by
  have digits : ∀ byte ∈ toString n, isDigit byte = true := fun _ => isDigit_of_mem_toString
  have stopDigit : isDigit stop = false := by
    by_contra digit
    simp [(isDigit_class (by simpa using digit)).1] at space
  have sentryEq : (reading taken (toString n ++ stop :: rest)).sentry =
      reading taken (toString n ++ stop :: rest) := by
    obtain ⟨byte, tail, shape⟩ := List.exists_cons_of_ne_nil (toString_ne_nil n)
    rw [shape]
    exact sentry_reading_cons ((isWord_toString n).2 byte (by simp [shape])) taken _
  simp only [extractNumber, sentryEq, reading_good, if_true,
    splitSign_digits digits _ (toString_ne_nil n), takeWhile_append_stop digits stopDigit,
    dropWhile_append_stop digits stopDigit, toString_ne_nil, if_false, digitsValue_toString]
  simp

theorem extractSize_toString (old value : UInt64) {stop : UInt8}
    (space : isSpace stop = true) (taken rest : Bytes) :
    (reading taken (toString value.toNat ++ stop :: rest)).extractSize old =
      (value, reading (taken ++ toString value.toNat) (stop :: rest)) := by
  have inRange : value.toNat < 2 ^ 64 := value.toNat_lt
  rw [extractSize, extractNumber_toString space]
  simp only [Bool.false_eq_true, if_false, if_pos inRange, UInt64.ofNat_toNat, Bool.not_true]

/-- The number behind a separator. -/
theorem extractSize_next (old value : UInt64) {separator : UInt8}
    (before : isSpace separator = true) {stop : UInt8} (space : isSpace stop = true)
    (taken rest : Bytes) :
    (reading taken (separator :: (toString value.toNat ++ stop :: rest))).extractSize old =
      (value, reading (taken ++ [separator] ++ toString value.toNat) (stop :: rest)) := by
  have skipped :
      (reading taken (separator :: (toString value.toNat ++ stop :: rest))).extractSize old =
        (reading (taken ++ [separator]) (toString value.toNat ++ stop :: rest)).extractSize
          old := by
    simp only [extractSize, extractNumber, sentry_reading_space before]
  rw [skipped, extractSize_toString old value space]

theorem extractInt_toString (old : Int) {n : Nat} (small : n < 2 ^ 31) {stop : UInt8}
    (space : isSpace stop = true) (taken rest : Bytes) :
    (reading taken (toString n ++ stop :: rest)).extractInt old =
      ((n : Int), reading (taken ++ toString n) (stop :: rest)) := by
  have notBelow : ¬((n : Int) < -2 ^ 31) := by omega
  have notAbove : ¬((2 : Int) ^ 31 ≤ n) := by omega
  rw [extractInt, extractNumber_toString space]
  simp only [Bool.false_eq_true, if_false, notBelow, notAbove, Bool.not_true]

end Stream

/-- `std::stoi` inverts `std::to_string` within the range of `int`. -/
theorem stoi_toString {n : Nat} (small : n < 2 ^ 31) : stoi (toString n) = .ok (n : Int) := by
  have digits : ∀ byte ∈ toString n, isDigit byte = true := fun _ => isDigit_of_mem_toString
  have noSpace : (toString n).dropWhile isSpace = toString n := by
    obtain ⟨byte, tail, shape⟩ := List.exists_cons_of_ne_nil (toString_ne_nil n)
    rw [shape]
    simp [(isWord_toString n).2 byte (by simp [shape])]
  have signless : Stream.splitSign (toString n) = (false, [], toString n) := by
    simpa using Stream.splitSign_digits digits [] (toString_ne_nil n)
  have inRange : ¬((n : Int) < -2 ^ 31 ∨ (2 : Int) ^ 31 ≤ n) := by omega
  simp only [stoi, noSpace, signless, takeWhile_eq_self digits, toString_ne_nil, if_false,
    digitsValue_toString, Bool.false_eq_true, inRange]

end P2PFileShare.Text
