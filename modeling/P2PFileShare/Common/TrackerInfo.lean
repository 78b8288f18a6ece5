import P2PFileShare.Models.Endpoint
import P2PFileShare.Text.Numerals

/-!
# The list of trackers

`common/load_tracker_info.cpp`.  The file is read into an array on the stack, and nothing
terminates it there: `sscanf` and `strchr` go on behind the data until they come to a NUL.
`sscanf` skips blank lines by itself, and the cursor then moves by one line.
-/

namespace P2PFileShare

open Text

/-- `constexpr size_t len`, the size of `contents` and of `ip`. -/
def contentsLength : Nat :=
  1024

/-- Where the behaviour of the function is undefined: a word does not fit into `ip`, or the
cursor is moved behind the null pointer that `strchr` returned. -/
inductive Fault
  | overflow
  | failedStrchr
  deriving DecidableEq

/-- What the functions of `<cstring>` see of the memory behind a pointer. -/
def cString (memory : Bytes) : Bytes :=
  memory.takeWhile fun byte => byte != 0

/-- The conversion `%hu`: `strtoul`, and a cast to sixteen bits. -/
def scanShort (minus : Bool) (magnitude : Nat) : UInt16 :=
  let value : UInt64 :=
    if magnitude < 2 ^ 64 then
      if minus then -UInt64.ofNat magnitude else UInt64.ofNat magnitude
    else UInt64.ofNat (2 ^ 64 - 1)
  value.toUInt16

/-- `sscanf(line, "%s %hu", ip, &port)`, where `none` stands for a result other than 2. -/
def scanEndpoint (line : Bytes) : Except Fault (Option Endpoint) :=
  let line := line.dropWhile isSpace
  let ip := line.takeWhile fun byte => !isSpace byte
  let rest := line.dropWhile fun byte => !isSpace byte
  if ip = [] then .ok none
  else if contentsLength ≤ ip.length then .error .overflow
  else
    let (minus, _, body) := Stream.splitSign (rest.dropWhile isSpace)
    let digits := body.takeWhile isDigit
    if digits = [] then .ok none
    else .ok (some { ip, port := scanShort minus (digitsValue digits) })

/-- The byte `'\n'`. -/
def newline : UInt8 := 10

/-- `strchr(line, '\n') + 1`. -/
def nextLine (line : Bytes) : Except Fault Bytes :=
  match line.dropWhile fun byte => byte != newline with
  | [] => .error .failedStrchr
  | _ :: rest => .ok rest

/-- The loop.  The cursor moves in each turn, so that the length of the text is enough
fuel. -/
def readTrackers : Nat → Bytes → Except Fault (List Endpoint)
  | 0, _ => .ok []
  | fuel + 1, line =>
      match scanEndpoint line with
      | .error fault => .error fault
      | .ok none => .ok []
      | .ok (some tracker) =>
          match nextLine line with
          | .error fault => .error fault
          | .ok line => (readTrackers fuel line).map (tracker :: ·)

/-- The loop with enough fuel. -/
def readAll (line : Bytes) : Except Fault (List Endpoint) :=
  readTrackers (line.length + 1) line

/-- `load_tracker_info`, for a file that can be read.  `behind` is what lies in memory
behind the bytes that were read. -/
def loadTrackerInfo (file behind : Bytes) : Except Fault (List Endpoint) :=
  readAll (cString (file.take contentsLength ++ behind))

/-! ## Files of lines -/

/-- A line as a user writes it. -/
inductive TrackerLine
  | blank (spaces : Bytes)
  | entry (ip port : Bytes)

namespace TrackerLine

def text : TrackerLine → Bytes
  | blank spaces => spaces
  | entry ip port => ip ++ 32 :: port

def endpoint : TrackerLine → Option Endpoint
  | blank _ => none
  | entry ip port => some { ip, port := UInt16.ofNat (digitsValue port) }

/-- A blank line is made of whitespace other than the newline; an entry is an address and
a numeral of sixteen bits. -/
def IsWritten : TrackerLine → Prop
  | blank spaces => ∀ byte ∈ spaces, isSpace byte = true ∧ byte ≠ newline
  | entry ip port => IsWord ip ∧ IsNumeral port ∧ digitsValue port < 2 ^ 16

instance : DecidablePred IsWritten
  | blank spaces =>
      List.decidableBAll (fun byte => isSpace byte = true ∧ byte ≠ newline) spaces
  | entry _ _ => inferInstanceAs (Decidable (_ ∧ _ ∧ _))

end TrackerLine

/-- Lines with the newline behind each. -/
def linesText (lines : List TrackerLine) : Bytes :=
  lines.flatMap fun line => line.text ++ [newline]

/-- A file of lines.  `last` is the line behind the last newline, if there is one. -/
structure TrackerFile where
  lines : List TrackerLine
  last : Option TrackerLine
  written : ∀ line ∈ lines ++ last.toList, line.IsWritten
  small : (linesText lines ++ last.elim [] TrackerLine.text).length ≤ 1023

namespace TrackerFile

def text (file : TrackerFile) : Bytes :=
  linesText file.lines ++ file.last.elim [] TrackerLine.text

/-- One endpoint for each line that is not blank. -/
def endpoints (file : TrackerFile) : List Endpoint :=
  (file.lines ++ file.last.toList).filterMap TrackerLine.endpoint

/-- The list is read as it is written, and would be the same with a NUL right behind the
data: nothing hangs on the bytes that lie there. -/
def LoadsAsWritten (file : TrackerFile) (behind : Bytes) : Prop :=
  loadTrackerInfo file.text behind = .ok file.endpoints ∧
    loadTrackerInfo file.text [] = .ok file.endpoints

/-- No blank line comes before an entry, every entry has its newline, and no address has a
NUL in it. -/
structure IsCompact (file : TrackerFile) : Prop where
  compact : file.lines.Pairwise fun earlier later =>
    later.endpoint.isSome = true → earlier.endpoint.isSome = true
  ended : ∀ line ∈ file.last, line.endpoint = none
  noNul : ∀ endpoint ∈ file.endpoints, 0 ∉ endpoint.ip

end TrackerFile

/-! ## The loop over the lines -/

section Loop

variable {line : TrackerLine} {lines : List TrackerLine} {rest tail : Bytes}

theorem length_nextLine {source target : Bytes} (moved : nextLine source = .ok target) :
    target.length < source.length := by
  have shorter := (List.dropWhile_suffix (l := source) fun byte => byte != newline).length_le
  simp only [nextLine] at moved
  split at moved
  · cases moved
  · next byte rest behind =>
      obtain rfl := Except.ok.inj moved
      rw [behind, List.length_cons] at shorter
      exact shorter

/-- More fuel than bytes changes nothing. -/
theorem readTrackers_enough {fuel : Nat} {source : Bytes} (enough : source.length < fuel) :
    readTrackers fuel source = readAll source := by
  suffices same : ∀ fuel other source, source.length < fuel → source.length < other →
      readTrackers fuel source = readTrackers other source from
    same _ _ _ enough (Nat.lt_succ_self _)
  intro fuel
  induction fuel with
  | zero => exact fun _ _ enough => absurd enough (Nat.not_lt_zero _)
  | succ fuel ih =>
      intro other source enough enoughOther
      cases other with
      | zero => exact absurd enoughOther (Nat.not_lt_zero _)
      | succ other =>
          simp only [readTrackers]
          split
          · rfl
          · rfl
          · split
            · rfl
            · next target moved =>
                have shorter := length_nextLine moved
                rw [ih other target (by omega) (by omega)]

theorem readAll_none {source : Bytes} (stops : scanEndpoint source = .ok none) :
    readAll source = .ok [] := by
  rw [readAll, readTrackers, stops]

theorem readAll_some {source target : Bytes} {tracker : Endpoint}
    (scanned : scanEndpoint source = .ok (some tracker)) (moved : nextLine source = .ok target) :
    readAll source = (readAll target).map (tracker :: ·) := by
  rw [readAll, readTrackers, scanned]
  simp only [moved]
  rw [readTrackers_enough (length_nextLine moved)]

theorem readAll_stuck {source : Bytes} {tracker : Endpoint} {fault : Fault}
    (scanned : scanEndpoint source = .ok (some tracker)) (stuck : nextLine source = .error fault) :
    readAll source = .error fault := by
  rw [readAll, readTrackers, scanned]
  simp only [stuck]

/-- What the loop returns. -/
theorem readAll_cases {source : Bytes} {trackers : List Endpoint}
    (read : readAll source = .ok trackers) :
    (scanEndpoint source = .ok none ∧ trackers = []) ∨
      ∃ tracker target others, scanEndpoint source = .ok (some tracker) ∧
        nextLine source = .ok target ∧ readAll target = .ok others ∧
          trackers = tracker :: others := by
  cases scanned : scanEndpoint source with
  | error fault =>
      rw [readAll, readTrackers, scanned] at read
      cases read
  | ok found =>
      cases found with
      | none =>
          rw [readAll_none scanned, Except.ok.injEq] at read
          exact Or.inl ⟨rfl, read.symm⟩
      | some tracker =>
          cases moved : nextLine source with
          | error fault =>
              rw [readAll_stuck scanned moved] at read
              cases read
          | ok target =>
              rw [readAll_some scanned moved] at read
              cases later : readAll target with
              | error fault =>
                  rw [later] at read
                  cases read
              | ok others =>
                  rw [later] at read
                  exact Or.inr ⟨tracker, target, others, rfl, rfl, later,
                    (Except.ok.inj read).symm⟩

theorem nextLine_append {line : Bytes} (noNewline : newline ∉ line) (rest : Bytes) :
    nextLine (line ++ newline :: rest) = .ok rest := by
  have inside : ∀ byte ∈ line, (byte != newline) = true := by
    intro byte member
    simpa using fun same : byte = newline => noNewline (same ▸ member)
  rw [nextLine, dropWhile_append_stop inside (by decide)]

/-- `sscanf` skips whitespace. -/
theorem scanEndpoint_spaces {spaces : Bytes} (blank : ∀ byte ∈ spaces, isSpace byte = true)
    (rest : Bytes) : scanEndpoint (spaces ++ rest) = scanEndpoint rest := by
  simp only [scanEndpoint, List.dropWhile_append_of_pos blank]

theorem scanShort_numeral {magnitude : Nat} (small : magnitude < 2 ^ 16) :
    scanShort false magnitude = UInt16.ofNat magnitude := by
  have inRange : magnitude < 2 ^ 64 := by omega
  rw [scanShort, if_pos inRange]
  apply UInt16.toNat.inj
  simp

theorem scanEndpoint_word {ip : Bytes} (isWord : IsWord ip) (fits : ip.length < contentsLength)
    (rest : Bytes) :
    scanEndpoint (ip ++ 32 :: rest) =
      let (minus, _, body) := Stream.splitSign (rest.dropWhile isSpace)
      let digits := body.takeWhile isDigit
      if digits = [] then .ok none
      else .ok (some { ip, port := scanShort minus (digitsValue digits) }) := by
  have inside : ∀ byte ∈ ip, (!isSpace byte) = true := fun byte member => by
    rw [isWord.2 byte member]
    rfl
  have start : (ip ++ 32 :: rest).dropWhile isSpace = ip ++ 32 :: rest := by
    obtain ⟨first, others, rfl⟩ := List.exists_cons_of_ne_nil isWord.1
    rw [List.cons_append, List.dropWhile_cons_of_neg]
    rw [isWord.2 first List.mem_cons_self]
    exact Bool.false_ne_true
  have space : (32 :: rest).dropWhile isSpace = rest.dropWhile isSpace :=
    List.dropWhile_cons_of_pos (by decide)
  simp only [scanEndpoint, start, takeWhile_append_stop inside (by decide : (!isSpace 32) = false),
    dropWhile_append_stop inside (by decide : (!isSpace 32) = false), if_neg isWord.1,
    if_neg (Nat.not_le_of_lt fits), space]

/-- `sscanf` reads an entry that has a newline. -/
theorem scanEndpoint_entry {ip port : Bytes} (written : (TrackerLine.entry ip port).IsWritten)
    (fits : ip.length < contentsLength) (rest : Bytes) :
    scanEndpoint (ip ++ 32 :: (port ++ newline :: rest)) =
      .ok (some { ip, port := UInt16.ofNat (digitsValue port) }) := by
  rcases written with ⟨isWord, numeral, small⟩
  have start : (port ++ newline :: rest).dropWhile isSpace = port ++ newline :: rest := by
    obtain ⟨first, others, rfl⟩ := List.exists_cons_of_ne_nil numeral.1
    rw [List.cons_append, List.dropWhile_cons_of_neg]
    rw [(isDigit_class (numeral.2 first List.mem_cons_self)).1]
    exact Bool.false_ne_true
  rw [scanEndpoint_word isWord fits, start, Stream.splitSign_digits numeral.2 _ numeral.1]
  simp only [takeWhile_append_stop numeral.2 (by decide : isDigit newline = false),
    if_neg numeral.1, scanShort_numeral small]

/-! ## Lines -/

theorem TrackerLine.noNewline (written : line.IsWritten) : newline ∉ line.text := by
  intro member
  cases line with
  | blank spaces => exact (written newline member).2 rfl
  | entry ip port =>
      rcases List.mem_append.mp member with inIp | behind
      · exact absurd (written.1.2 newline inIp) (by decide)
      · rcases List.mem_cons.mp behind with space | inPort
        · exact absurd space (by decide)
        · exact absurd (written.2.1.2 newline inPort) (by decide)

theorem scanEndpoint_line {tracker : Endpoint} (written : line.IsWritten)
    (fits : line.text.length < contentsLength) (isEntry : line.endpoint = some tracker) :
    scanEndpoint (line.text ++ newline :: rest) = .ok (some tracker) := by
  cases line with
  | blank spaces => cases isEntry
  | entry ip port =>
      obtain rfl := Option.some.inj isEntry
      have shorter : ip.length < contentsLength := by
        simp only [TrackerLine.text, List.length_append] at fits
        omega
      rw [TrackerLine.text, List.append_assoc, List.cons_append]
      exact scanEndpoint_entry written shorter rest

/-- The loop reads an entry and goes on behind it. -/
theorem readAll_entry {tracker : Endpoint} (written : line.IsWritten)
    (fits : line.text.length < contentsLength) (isEntry : line.endpoint = some tracker) :
    readAll (line.text ++ newline :: rest) = (readAll rest).map (tracker :: ·) :=
  readAll_some (scanEndpoint_line written fits isEntry)
    (nextLine_append (line.noNewline written) rest)

theorem scanEndpoint_blank (written : line.IsWritten) (isBlank : line.endpoint = none) :
    scanEndpoint (line.text ++ newline :: rest) = scanEndpoint rest := by
  cases line with
  | entry ip port => cases isBlank
  | blank spaces =>
      have all : ∀ byte ∈ spaces ++ [newline], isSpace byte = true := by
        intro byte member
        rcases List.mem_append.mp member with inside | last
        · exact (written byte inside).1
        · rw [List.mem_singleton.mp last]
          decide
      rw [TrackerLine.text, List.append_cons]
      exact scanEndpoint_spaces all rest

theorem linesText_cons (line : TrackerLine) (lines : List TrackerLine) (tail : Bytes) :
    linesText (line :: lines) ++ tail = line.text ++ newline :: (linesText lines ++ tail) := by
  simp [linesText]

/-- Blank lines are skipped at once. -/
theorem scanEndpoint_lines (written : ∀ line ∈ lines, line.IsWritten)
    (blank : ∀ line ∈ lines, line.endpoint = none) (tail : Bytes) :
    scanEndpoint (linesText lines ++ tail) = scanEndpoint tail := by
  induction lines with
  | nil => rfl
  | cons line lines ih =>
      rcases List.forall_mem_cons.mp written with ⟨here, later⟩
      rcases List.forall_mem_cons.mp blank with ⟨isBlank, others⟩
      rw [linesText_cons, scanEndpoint_blank here isBlank, ih later others]

/-- In front of an entry, or of a text that starts with one, `sscanf` finds something. -/
theorem scanEndpoint_found (written : ∀ line ∈ lines, line.IsWritten)
    (fits : ∀ line ∈ lines, line.text.length < contentsLength)
    (found : (∃ line ∈ lines, line.endpoint ≠ none) ∨
      ∃ tracker, scanEndpoint tail = .ok (some tracker)) :
    ∃ tracker, scanEndpoint (linesText lines ++ tail) = .ok (some tracker) := by
  induction lines with
  | nil => exact found.resolve_left fun ⟨_, member, _⟩ => nomatch member
  | cons line lines ih =>
      rcases List.forall_mem_cons.mp written with ⟨here, later⟩
      rcases List.forall_mem_cons.mp fits with ⟨short, shorts⟩
      rw [linesText_cons]
      cases isEntry : line.endpoint with
      | some tracker => exact ⟨tracker, scanEndpoint_line here short isEntry⟩
      | none =>
          rw [scanEndpoint_blank here isEntry]
          apply ih later shorts
          rcases found with ⟨other, member, entry⟩ | inTail
          · rcases List.mem_cons.mp member with rfl | behind
            · exact absurd isEntry entry
            · exact Or.inl ⟨other, behind, entry⟩
          · exact Or.inr inTail

theorem blank_of_stops (written : ∀ line ∈ lines, line.IsWritten)
    (fits : ∀ line ∈ lines, line.text.length < contentsLength)
    (stops : scanEndpoint (linesText lines ++ tail) = .ok none) :
    (∀ line ∈ lines, line.endpoint = none) ∧ scanEndpoint tail = .ok none := by
  have blank : ∀ line ∈ lines, line.endpoint = none := by
    intro line member
    by_contra entry
    obtain ⟨tracker, found⟩ : ∃ tracker, scanEndpoint (linesText lines ++ tail) =
        .ok (some tracker) := scanEndpoint_found written fits (Or.inl ⟨line, member, entry⟩)
    rw [stops] at found
    cases found
  rw [scanEndpoint_lines written blank] at stops
  exact ⟨blank, stops⟩

/-- The loop returns at least the entries.  If it returns no more, no blank line comes before
an entry, and nothing is read behind the lines. -/
theorem readAll_lines (written : ∀ line ∈ lines, line.IsWritten)
    (fits : ∀ line ∈ lines, line.text.length < contentsLength) {trackers : List Endpoint}
    (read : readAll (linesText lines ++ tail) = .ok trackers) :
    (lines.filterMap TrackerLine.endpoint).length ≤ trackers.length ∧
      (trackers.length = (lines.filterMap TrackerLine.endpoint).length →
        lines.Pairwise (fun earlier later =>
          later.endpoint.isSome = true → earlier.endpoint.isSome = true) ∧
        scanEndpoint tail = .ok none) := by
  induction lines generalizing trackers with
  | nil =>
      refine ⟨Nat.zero_le _, fun none => ⟨.nil, ?_⟩⟩
      rcases readAll_cases read with ⟨stops, _⟩ | ⟨_, _, _, _, _, _, rfl⟩
      · exact stops
      · cases none
  | cons line lines ih =>
      rcases List.forall_mem_cons.mp written with ⟨here, later⟩
      rcases List.forall_mem_cons.mp fits with ⟨short, shorts⟩
      rw [linesText_cons] at read
      cases isEntry : line.endpoint with
      | some tracker =>
          rw [readAll_entry here short isEntry] at read
          cases rest : readAll (linesText lines ++ tail) with
          | error fault =>
              rw [rest] at read
              cases read
          | ok others =>
              rw [rest] at read
              obtain rfl := Except.ok.inj read
              obtain ⟨atLeast, exactly⟩ := ih later shorts rest
              rw [List.filterMap_cons_some isEntry, List.length_cons, List.length_cons]
              refine ⟨Nat.succ_le_succ atLeast, fun same => ?_⟩
              obtain ⟨compact, stops⟩ := exactly (Nat.succ.inj same)
              refine ⟨List.pairwise_cons.mpr ⟨fun _ _ _ => ?_, compact⟩, stops⟩
              rw [isEntry]
              rfl
      | none =>
          rw [List.filterMap_cons_none isEntry]
          rcases readAll_cases read with ⟨stops, rfl⟩ | ⟨_, _, others, _, moved, rest, rfl⟩
          · -- Nothing is found from here on, so that all lines that are left are blank.
            rw [scanEndpoint_blank here isEntry] at stops
            obtain ⟨blank, stops⟩ := blank_of_stops later shorts stops
            rw [List.filterMap_eq_nil_iff.mpr blank]
            refine ⟨Nat.le_refl _, fun _ => ⟨List.pairwise_of_forall_mem_list ?_, stops⟩⟩
            intro _ _ other member entry
            rcases List.mem_cons.mp member with rfl | behind
            · rw [isEntry] at entry
              cases entry
            · rw [blank other behind] at entry
              cases entry
          · rw [nextLine_append (line.noNewline here), Except.ok.injEq] at moved
            subst moved
            obtain ⟨atLeast, _⟩ := ih later shorts rest
            rw [List.length_cons]
            exact ⟨Nat.le_succ_of_le atLeast, fun same => absurd same (by omega)⟩

/-- When no blank line comes before an entry, and nothing is found behind the lines, the
loop returns the entries. -/
theorem readAll_compact (written : ∀ line ∈ lines, line.IsWritten)
    (fits : ∀ line ∈ lines, line.text.length < contentsLength)
    (compact : lines.Pairwise fun earlier later =>
      later.endpoint.isSome = true → earlier.endpoint.isSome = true)
    (stops : scanEndpoint tail = .ok none) :
    readAll (linesText lines ++ tail) = .ok (lines.filterMap TrackerLine.endpoint) := by
  induction lines with
  | nil => exact readAll_none stops
  | cons line lines ih =>
      rcases List.forall_mem_cons.mp written with ⟨here, later⟩
      rcases List.forall_mem_cons.mp fits with ⟨short, shorts⟩
      rcases List.pairwise_cons.mp compact with ⟨first, others⟩
      rw [linesText_cons]
      cases isEntry : line.endpoint with
      | some tracker =>
          rw [readAll_entry here short isEntry, ih later shorts others,
            List.filterMap_cons_some isEntry]
          rfl
      | none =>
          have blank : ∀ line ∈ lines, line.endpoint = none := by
            intro other member
            by_contra entry
            have before := first other member (Option.isSome_iff_ne_none.mpr entry)
            rw [isEntry] at before
            cases before
          rw [List.filterMap_cons_none isEntry, List.filterMap_eq_nil_iff.mpr blank]
          apply readAll_none
          rw [scanEndpoint_blank here isEntry, scanEndpoint_lines later blank, stops]

/-- An entry without a newline behind it leads to a failed `strchr`. -/
theorem readAll_unended (written : ∀ line ∈ lines, line.IsWritten)
    (fits : ∀ line ∈ lines, line.text.length < contentsLength) {tracker : Endpoint}
    {fault : Fault} (found : scanEndpoint tail = .ok (some tracker))
    (stuck : nextLine tail = .error fault) : readAll (linesText lines ++ tail) = .error fault := by
  induction lines with
  | nil => exact readAll_stuck found stuck
  | cons line lines ih =>
      rcases List.forall_mem_cons.mp written with ⟨here, later⟩
      rcases List.forall_mem_cons.mp fits with ⟨short, shorts⟩
      obtain ⟨first, scanned⟩ : ∃ first,
          scanEndpoint (linesText (line :: lines) ++ tail) = .ok (some first) :=
        scanEndpoint_found written fits (Or.inr ⟨tracker, found⟩)
      rw [linesText_cons] at scanned ⊢
      rw [readAll_some scanned (nextLine_append (line.noNewline here) _), ih later shorts]
      rfl

theorem mem_of_scanEndpoint {source : Bytes} {tracker : Endpoint}
    (scanned : scanEndpoint source = .ok (some tracker)) : ∀ byte ∈ tracker.ip, byte ∈ source := by
  have ip_eq : tracker.ip = (source.dropWhile isSpace).takeWhile fun byte => !isSpace byte := by
    simp only [scanEndpoint] at scanned
    split at scanned
    · cases scanned
    · split at scanned
      · cases scanned
      · split at scanned
        · cases scanned
        · rw [Except.ok.injEq, Option.some.injEq] at scanned
          rw [← scanned]
  intro byte member
  rw [ip_eq] at member
  exact (List.dropWhile_suffix _).subset ((List.takeWhile_prefix _).subset member)

theorem mem_of_nextLine {source target : Bytes} (moved : nextLine source = .ok target) :
    ∀ byte ∈ target, byte ∈ source := by
  simp only [nextLine] at moved
  split at moved
  · cases moved
  · next first rest behind =>
      obtain rfl := Except.ok.inj moved
      intro byte member
      apply (List.dropWhile_suffix fun byte => byte != newline).subset
      rw [behind]
      exact List.mem_cons_of_mem first member

/-- The addresses are made of bytes of the text. -/
theorem mem_of_readAll {source : Bytes} {trackers : List Endpoint}
    (read : readAll source = .ok trackers) :
    ∀ tracker ∈ trackers, ∀ byte ∈ tracker.ip, byte ∈ source := by
  induction trackers generalizing source with
  | nil => nofun
  | cons first others ih =>
      rcases readAll_cases read with
        ⟨_, none⟩ | ⟨tracker, target, rest, scanned, moved, later, same⟩
      · cases none
      · obtain ⟨rfl, rfl⟩ := List.cons.inj same
        intro other member byte inIp
        rcases List.mem_cons.mp member with rfl | behind
        · exact mem_of_scanEndpoint scanned byte inIp
        · exact mem_of_nextLine moved byte (ih later other behind byte inIp)

end Loop

/-! ## Files -/

namespace TrackerFile

variable {file : TrackerFile} {behind : Bytes}

theorem fits_lines (file : TrackerFile) :
    ∀ line ∈ file.lines, line.text.length < contentsLength := by
  intro line member
  have short := file.small
  obtain ⟨before, after, split⟩ := List.append_of_mem member
  rw [split, linesText, List.flatMap_append, List.flatMap_cons] at short
  simp only [List.length_append] at short
  rw [contentsLength]
  omega

theorem written_lines (file : TrackerFile) : ∀ line ∈ file.lines, line.IsWritten :=
  fun line member => file.written line (List.mem_append_left _ member)

theorem text_eq (file : TrackerFile) (rest : Bytes) :
    file.text ++ rest = linesText file.lines ++ (file.last.elim [] TrackerLine.text ++ rest) :=
  List.append_assoc _ _ _

/-- When the line behind the last newline is no entry, it is whitespace. -/
theorem last_blank (ended : ∀ line ∈ file.last, line.endpoint = none) :
    (∀ byte ∈ file.last.elim [] TrackerLine.text, isSpace byte = true) ∧
      file.endpoints = file.lines.filterMap TrackerLine.endpoint := by
  have written := file.written
  rw [endpoints, List.filterMap_append]
  cases last : file.last with
  | none => exact ⟨nofun, List.append_nil _⟩
  | some line =>
      have isBlank := ended line last
      rw [last] at written
      have here := written line (List.mem_append_right _ (List.mem_singleton_self line))
      cases line with
      | entry ip port => cases isBlank
      | blank spaces => exact ⟨fun byte member => (here byte member).1, List.append_nil _⟩

/-- An entry behind the last newline leads to a failed `strchr`. -/
theorem readAll_unended_text {ip port : Bytes} (unended : file.last = some (.entry ip port)) :
    readAll file.text = .error .failedStrchr := by
  have written := file.written (.entry ip port) (List.mem_append_right _ (by rw [unended]; simp))
  have short := file.small
  rw [unended, Option.elim_some, List.length_append, TrackerLine.text, List.length_append] at short
  have fits : ip.length < contentsLength := by
    rw [contentsLength]
    omega
  have stuck : nextLine (ip ++ 32 :: port) = .error .failedStrchr := by
    have noNewline : newline ∉ ip ++ 32 :: port := TrackerLine.noNewline written
    rw [nextLine, dropWhile_eq_nil]
    intro byte member
    simpa using fun same : byte = newline => noNewline (same ▸ member)
  have scanned : scanEndpoint (ip ++ 32 :: port) =
      .ok (some { ip, port := UInt16.ofNat (digitsValue port) }) := by
    rcases written with ⟨isWord, numeral, small⟩
    rw [scanEndpoint_word isWord fits, dropWhile_isSpace_word numeral.isWord,
      splitSign_numeral numeral]
    simp only [takeWhile_eq_self numeral.2, if_neg numeral.1, scanShort_numeral small]
  rw [text, unended]
  exact readAll_unended file.written_lines file.fits_lines scanned stuck

/-- A text has no NUL if no address has one. -/
theorem noNul_text (noNul : ∀ endpoint ∈ file.endpoints, 0 ∉ endpoint.ip) : 0 ∉ file.text := by
  have lineNoNul : ∀ line ∈ file.lines ++ file.last.toList, 0 ∉ line.text := by
    intro line member inLine
    have written := file.written line member
    cases line with
    | blank spaces => exact absurd (written 0 inLine).1 (by decide)
    | entry ip port =>
        rcases List.mem_append.mp inLine with inIp | behind
        · exact noNul _ (List.mem_filterMap.mpr ⟨_, member, rfl⟩) inIp
        · rcases List.mem_cons.mp behind with space | inPort
          · exact absurd space (by decide)
          · exact absurd (written.2.1.2 0 inPort) (by decide)
  intro inText
  rcases List.mem_append.mp inText with inLines | inLast
  · obtain ⟨line, member, inLine⟩ := List.mem_flatMap.mp inLines
    rcases List.mem_append.mp inLine with inLine | isNewline
    · exact lineNoNul line (List.mem_append_left _ member) inLine
    · exact absurd (List.mem_singleton.mp isNewline) (by decide)
  · cases last : file.last with
    | none =>
        rw [last] at inLast
        cases inLast
    | some line =>
        rw [last] at inLast
        exact lineNoNul line (List.mem_append_right _ (by rw [last]; simp)) inLast

/-- Behind a text without a NUL, the functions of `<cstring>` read on. -/
theorem loadTrackerInfo_text (noNul : 0 ∉ file.text) (behind : Bytes) :
    loadTrackerInfo file.text behind = readAll (file.text ++ cString behind) := by
  have short : file.text.length ≤ contentsLength := Nat.le_succ_of_le file.small
  have inside : ∀ byte ∈ file.text, (byte != 0) = true := by
    intro byte member
    simpa using fun same : byte = 0 => noNul (same ▸ member)
  rw [loadTrackerInfo, List.take_of_length_le short, cString,
    List.takeWhile_append_of_pos inside, cString]

/-- What is loaded has no NUL in it. -/
theorem noNul_loaded {content : Bytes} {trackers : List Endpoint}
    (loaded : loadTrackerInfo content behind = .ok trackers) :
    ∀ tracker ∈ trackers, 0 ∉ tracker.ip := by
  intro tracker member inIp
  have seen := mem_of_readAll loaded tracker member 0 inIp
  rw [cString] at seen
  have notNul := List.all_eq_true.mp List.all_takeWhile 0 seen
  exact absurd notNul (by decide)

theorem LoadsAsWritten.isCompact (loads : file.LoadsAsWritten behind) :
    file.IsCompact ∧ scanEndpoint (cString behind) = .ok none := by
  rcases loads with ⟨loaded, alone⟩
  have noNul := noNul_loaded loaded
  rw [loadTrackerInfo_text (noNul_text noNul)] at loaded alone
  have ended : ∀ line ∈ file.last, line.endpoint = none := by
    intro line last
    cases line with
    | blank spaces => rfl
    | entry ip port =>
        rw [show cString [] = [] from rfl, List.append_nil, readAll_unended_text last] at alone
        cases alone
  obtain ⟨blank, endpoints_eq⟩ := last_blank ended
  rw [text_eq] at loaded
  obtain ⟨compact, stops⟩ := (readAll_lines file.written_lines file.fits_lines loaded).2
    (congrArg List.length endpoints_eq)
  rw [scanEndpoint_spaces blank] at stops
  exact ⟨⟨compact, ended, noNul⟩, stops⟩

theorem IsCompact.loads (isCompact : file.IsCompact)
    (stops : scanEndpoint (cString behind) = .ok none) :
    loadTrackerInfo file.text behind = .ok file.endpoints := by
  obtain ⟨blank, endpoints_eq⟩ := last_blank isCompact.ended
  rw [loadTrackerInfo_text (noNul_text isCompact.noNul), text_eq, endpoints_eq]
  apply readAll_compact file.written_lines file.fits_lines isCompact.compact
  rw [scanEndpoint_spaces blank, stops]

/-- The list is read as it is written exactly if the file is compact, and `sscanf` finds no
endpoint in the bytes behind the data; and there are always bytes in which it finds one. -/
theorem loadsAsWritten_iff (file : TrackerFile) (behind : Bytes) :
    (file.LoadsAsWritten behind ↔
        file.IsCompact ∧ scanEndpoint (cString behind) = .ok none) ∧
      ∃ other, ¬file.LoadsAsWritten other := by
  constructor
  · constructor
    · exact LoadsAsWritten.isCompact
    · exact fun ⟨isCompact, stops⟩ => ⟨isCompact.loads stops, isCompact.loads rfl⟩
  · refine ⟨ascii "x 1", fun loads => ?_⟩
    have stops := loads.isCompact.2
    exact absurd stops (by decide +kernel)

/-! Three files: a blank line between two entries, an entry without a newline, and a file
that is compact. -/

def withBlankLine : TrackerFile where
  lines := [.entry (ascii "10.0.0.1") (ascii "80"), .blank [],
    .entry (ascii "10.0.0.2") (ascii "81")]
  last := none
  written := by decide
  small := by decide

def withoutNewline : TrackerFile where
  lines := [.entry (ascii "10.0.0.1") (ascii "80")]
  last := some (.entry (ascii "10.0.0.2") (ascii "81"))
  written := by decide
  small := by decide

def twoLines : TrackerFile where
  lines := [.entry (ascii "10.0.0.1") (ascii "80"), .entry (ascii "10.0.0.2") (ascii "81")]
  last := none
  written := by decide
  small := by decide

/-- An endpoint is read twice, a failed `strchr` is used, and an endpoint is read from the
bytes behind the data. -/
theorem loaded_otherwise :
    ¬withBlankLine.LoadsAsWritten [] ∧ ¬withoutNewline.LoadsAsWritten [] ∧
      ¬twoLines.LoadsAsWritten (ascii "10.0.0.3 82\n") := by
  refine ⟨fun loads => ?_, fun loads => ?_, fun loads => ?_⟩
  · exact absurd loads.1 (by decide +kernel)
  · exact absurd loads.1 (by decide +kernel)
  · exact absurd loads.1 (by decide +kernel)

end TrackerFile

end P2PFileShare
