import P2PFileShare.Models.Endpoint

/-!
# Files and their textual form

`models/fileinfo.hpp` and `models/file.hpp`.  A `FileInfo` is written with tabs
and labels and read back token by token; a `File` puts the list of its seeders
and its group in front of it.
-/

namespace P2PFileShare

open Container Text

/-- `constexpr size_t block_size`: 512 KB. -/
def blockSize : Nat :=
  512 * 1024

structure FileInfo where
  name : Bytes
  size : UInt64
  pieces : List Bytes
  hash : Bytes
  deriving DecidableEq

namespace FileInfo

/-- `FileInfo::to_string`. -/
def toString (info : FileInfo) : Bytes :=
  ascii "File: " ++ info.name ++ ascii "\t" ++
    ascii "Size: " ++ Text.toString info.size.toNat ++ ascii " bytes\t" ++
    ascii "Pieces: " ++ (info.pieces.flatMap fun piece => piece ++ ascii " ") ++ ascii "\n"

/-- The loop `while (ss >> piece)`.  Every word read takes at least one byte, so
the length of the text is enough fuel. -/
def collectWords : Nat → Stream → List Bytes
  | 0, _ => []
  | fuel + 1, stream =>
      let (word, stream) := stream.extractWord
      if stream.fail then [] else word :: collectWords fuel stream

/-- `FileInfo::from_string`.  No extraction is checked. -/
def fromString (platform : Platform) (str : Bytes) : FileInfo :=
  let stream := Stream.ofText str
  let (_, stream) := stream.extractWord
  let (name, stream) := stream.extractWord
  let (_, stream) := stream.extractWord
  let (size, stream) := stream.extractSize (platform.uninitialised str)
  let (_, stream) := stream.extractWord
  let (_, stream) := stream.extractWord
  let pieces := collectWords stream.rest.length stream
  { name := name, size := size, pieces := pieces, hash := pieces.flatten }

end FileInfo

/-- A file offered in a group.  The list holds the pointees of the set
`seeders` in the order of their insertion. -/
structure File where
  seeders : List Endpoint
  fileInfo : FileInfo
  groupId : Bytes
  deriving DecidableEq

namespace File

/-- `operator==`: content hash and group decide. -/
def equals (lhs rhs : File) : Bool :=
  lhs.fileInfo.hash == rhs.fileInfo.hash && lhs.groupId == rhs.groupId

/-- `File::to_string`. -/
def toString (platform : Platform) (file : File) : Bytes :=
  let seeders := platform.objects (file.groupId, file.fileInfo.hash) file.seeders
  Text.toString file.seeders.length ++ ascii " " ++
    (seeders.flatMap fun seeder => seeder.2.toString ++ ascii " ") ++
    file.groupId ++ ascii " " ++ file.fileInfo.toString

/-- The loop of `File::from_string` over the announced number of seeders. -/
def readSeeders : Nat → Stream → Except StdException (List Endpoint × Stream)
  | 0, stream => .ok ([], stream)
  | count + 1, stream => do
      let (word, stream) := stream.extractWord
      let seeder ← Endpoint.fromString word
      let (seeders, stream) ← readSeeders count stream
      return (seeder :: seeders, stream)

/-- `File::from_string`. -/
def fromString (platform : Platform) (str : Bytes) : Except StdException File := do
  let stream := Stream.ofText str
  let (count, stream) := stream.extractSize (platform.uninitialised str)
  let (seeders, stream) ← readSeeders count.toNat stream
  let (groupId, stream) := stream.extractWord
  let text ← stream.remainder
  return { seeders := seeders, fileInfo := FileInfo.fromString platform text, groupId := groupId }

end File

/-! ## Round trips

The separators are single spaces and tabs.  Each encoder is first written token
by token; the decoder then takes one token after another. -/

/-- A description that survives the textual form: its name and its pieces are
words, and its hash is made of the pieces. -/
structure FileInfo.IsPlain (info : FileInfo) : Prop where
  name : IsWord info.name
  pieces : ∀ piece ∈ info.pieces, IsWord piece
  hash : info.hash = info.pieces.flatten

/-- Pieces as they are written, each with a space behind it. -/
def FileInfo.written (pieces : List Bytes) : Bytes :=
  pieces.flatMap fun piece => piece ++ ascii " "

theorem FileInfo.toString_tokens (info : FileInfo) :
    info.toString =
      ascii "File:" ++ 32 :: (info.name ++ 9 :: (ascii "Size:" ++
        32 :: (Text.toString info.size.toNat ++ 32 :: (ascii "bytes" ++
          9 :: (ascii "Pieces:" ++ 32 :: (FileInfo.written info.pieces ++ [10])))))) := by
  simp [FileInfo.toString, FileInfo.written, ascii]

theorem FileInfo.length_le_written {pieces : List Bytes}
    (words : ∀ piece ∈ pieces, IsWord piece) :
    pieces.length ≤ (FileInfo.written pieces).length := by
  induction pieces with
  | nil => simp
  | cons piece pieces ih =>
      have others := ih fun other member => words other (List.mem_cons_of_mem piece member)
      simp only [written, List.flatMap_cons, List.length_append, List.length_cons] at others ⊢
      have separator : (ascii " ").length = 1 := rfl
      omega

/-- The loop collects the pieces that were written, and stops at the whitespace
behind them. -/
theorem FileInfo.collectWords_written {pieces : List Bytes}
    (words : ∀ piece ∈ pieces, IsWord piece) {spaces tail : Bytes}
    (blank : ∀ byte ∈ spaces, isSpace byte = true)
    (blankTail : ∀ byte ∈ tail, isSpace byte = true) {fuel : Nat}
    (enough : pieces.length ≤ fuel) (taken : Bytes) :
    collectWords fuel (Stream.reading taken (spaces ++ (written pieces ++ tail))) = pieces := by
  induction pieces generalizing spaces fuel taken with
  | nil =>
      cases fuel with
      | zero => rfl
      | succ fuel =>
          have allBlank : ∀ byte ∈ spaces ++ tail, isSpace byte = true := by
            intro byte member
            rcases List.mem_append.mp member with before | behind
            · exact blank byte before
            · exact blankTail byte behind
          simp only [written, List.flatMap_nil, List.nil_append, collectWords,
            Stream.extractWord_blank allBlank, if_true]
  | cons piece pieces ih =>
      cases fuel with
      | zero => exact absurd enough (by simp)
      | succ fuel =>
          have shape : written (piece :: pieces) ++ tail =
              piece ++ 32 :: (written pieces ++ tail) := by
            simp [written, ascii]
          have separator : ∀ byte ∈ ([32] : Bytes), isSpace byte = true := by
            intro byte member
            rw [List.mem_singleton.mp member]
            rfl
          have others := ih (fun other member => words other (List.mem_cons_of_mem piece member))
            separator (Nat.le_of_succ_le_succ enough) (taken ++ spaces ++ piece)
          rw [shape, collectWords, Stream.extractWord_token blank (words piece List.mem_cons_self)
            (by rfl)]
          simp only [Bool.false_eq_true, if_false]
          exact congrArg (piece :: ·) others

/-- `from_string` inverts `to_string`, also with whitespace around the text. -/
theorem FileInfo.fromString_toString (platform : Platform) {info : FileInfo}
    (plain : info.IsPlain) {spaces tail : Bytes}
    (blank : ∀ byte ∈ spaces, isSpace byte = true)
    (blankTail : ∀ byte ∈ tail, isSpace byte = true) :
    fromString platform (spaces ++ (info.toString ++ tail)) = info := by
  have label : IsWord (ascii "File:") := by decide
  have sizeLabel : IsWord (ascii "Size:") := by decide
  have unit : IsWord (ascii "bytes") := by decide
  have piecesLabel : IsWord (ascii "Pieces:") := by decide
  have separator : ∀ byte ∈ ([32] : Bytes), isSpace byte = true :=
    List.forall_mem_singleton.mpr rfl
  have blankEnd : ∀ byte ∈ 10 :: tail, isSpace byte = true := by
    intro byte member
    rcases List.mem_cons.mp member with rfl | behind
    · rfl
    · exact blankTail byte behind
  have shape : spaces ++ (info.toString ++ tail) =
      spaces ++ (ascii "File:" ++ 32 :: (info.name ++ 9 :: (ascii "Size:" ++
        32 :: (Text.toString info.size.toNat ++ 32 :: (ascii "bytes" ++
          9 :: (ascii "Pieces:" ++ 32 :: (written info.pieces ++ 10 :: tail))))))) := by
    rw [toString_tokens]
    simp only [List.append_assoc, List.cons_append, List.nil_append]
  rw [fromString, Stream.ofText_eq_reading, shape, Stream.extractWord_token blank label (by rfl)]
  simp only
  rw [Stream.extractWord_next (by rfl) plain.name (by rfl)]
  simp only
  rw [Stream.extractWord_next (by rfl) sizeLabel (by rfl)]
  simp only
  rw [Stream.extractSize_next _ _ (by rfl) (by rfl)]
  simp only
  rw [Stream.extractWord_next (by rfl) unit (by rfl)]
  simp only
  rw [Stream.extractWord_next (by rfl) piecesLabel (by rfl)]
  simp only
  have collected : ∀ {fuel : Nat}, (32 :: (written info.pieces ++ 10 :: tail)).length ≤ fuel →
      ∀ taken, collectWords fuel
        (Stream.reading taken (32 :: (written info.pieces ++ 10 :: tail))) = info.pieces := by
    intro fuel enough taken
    have written := length_le_written plain.pieces
    simp only [List.length_cons, List.length_append] at enough
    exact collectWords_written plain.pieces separator blankEnd (by omega) taken
  rw [collected (Nat.le_refl _), ← plain.hash]

/-- A file that survives the textual form. -/
structure File.IsPlain (file : File) : Prop where
  seeders : ∀ seeder ∈ file.seeders, seeder.IsPlain
  fileInfo : file.fileInfo.IsPlain
  groupId : IsWord file.groupId

/-- Endpoints as they are written, each with a space behind it. -/
def File.written (seeders : List Endpoint) : Bytes :=
  seeders.flatMap fun seeder => seeder.toString ++ ascii " "

/-- The loop reads back the endpoints that were written. -/
theorem File.readSeeders_written {seeders : List Endpoint}
    (plain : ∀ seeder ∈ seeders, seeder.IsPlain) (taken rest : Bytes) :
    ∃ read, readSeeders seeders.length
        (Stream.reading taken (32 :: (written seeders ++ rest))) =
      .ok (seeders, Stream.reading read (32 :: rest)) := by
  induction seeders generalizing taken with
  | nil => exact ⟨taken, rfl⟩
  | cons seeder seeders ih =>
      have seederPlain := plain seeder List.mem_cons_self
      have shape : written (seeder :: seeders) ++ rest =
          seeder.toString ++ 32 :: (written seeders ++ rest) := by
        simp [written, ascii]
      rcases ih (fun other member => plain other (List.mem_cons_of_mem seeder member))
          (taken ++ [32] ++ seeder.toString) with ⟨read, others⟩
      refine ⟨read, ?_⟩
      rw [shape, List.length_cons, readSeeders,
        Stream.extractWord_next (by rfl) (Endpoint.isWord_toString seederPlain) (by rfl)]
      simp only [Endpoint.fromString_toString seederPlain, others, bind, Except.bind, pure,
        Except.pure]

/-- `from_string` inverts `to_string`, up to the order in which the set of seeders
was iterated, and also with whitespace around the text. -/
theorem File.fromString_toString (platform other : Platform) {file : File}
    (plain : file.IsPlain) (countable : file.seeders.length < 2 ^ 64) {tail : Bytes}
    (blankTail : ∀ byte ∈ tail, isSpace byte = true) :
    ∃ seeders, seeders.Perm file.seeders ∧
      fromString other (32 :: (file.toString platform ++ tail)) =
        .ok { file with seeders := seeders } := by
  let seeders := (platform.objects (file.groupId, file.fileInfo.hash) file.seeders).map Prod.snd
  have perm : seeders.Perm file.seeders := platform.objects_map_snd_perm _ _
  have allPlain : ∀ seeder ∈ seeders, seeder.IsPlain := fun seeder member =>
    plain.seeders seeder (perm.mem_iff.mp member)
  have count : (UInt64.ofNat file.seeders.length).toNat = file.seeders.length :=
    UInt64.toNat_ofNat_of_lt' countable
  have shape : file.toString platform ++ tail =
      Text.toString (UInt64.ofNat file.seeders.length).toNat ++ 32 :: (written seeders ++
        (file.groupId ++ 32 :: (file.fileInfo.toString ++ tail))) := by
    simp [toString, written, seeders, count, ascii, List.flatMap_map]
  have space : ∀ byte ∈ ([32] : Bytes), isSpace byte = true :=
    List.forall_mem_singleton.mpr rfl
  rcases readSeeders_written allPlain ([] ++ [32] ++
      Text.toString (UInt64.ofNat file.seeders.length).toNat)
    (file.groupId ++ 32 :: (file.fileInfo.toString ++ tail)) with ⟨read, readAll⟩
  rw [perm.length_eq] at readAll
  refine ⟨seeders, perm, ?_⟩
  rw [fromString, Stream.ofText_eq_reading, shape,
    Stream.extractSize_next _ _ (by rfl) (by rfl)]
  simp only [count] at readAll ⊢
  rw [readAll]
  simp only [bind, Except.bind, pure, Except.pure]
  rw [Stream.extractWord_next (by rfl) plain.groupId (by rfl)]
  have info := FileInfo.fromString_toString other plain.fileInfo space blankTail
  simp only [List.cons_append, List.nil_append] at info
  simp only [Stream.remainder_reading, info]

end P2PFileShare
