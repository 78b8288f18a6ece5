import P2PFileShare.Models.File
import P2PFileShare.Storage.Blocks

/-!
# Files on the client's disk

`client/file_io.cpp`.  SHA-1 is a parameter.  A file is its content, if it
exists.
-/

namespace P2PFileShare

open Container Text Storage

/-- `get_file_info`, for a regular file of the given name and content. -/
def getFileInfo (sha1 : Bytes → Bytes) (name content : Bytes) : FileInfo :=
  let pieces := (blocks blockSize content).map sha1
  { name, size := UInt64.ofNat content.length, pieces, hash := pieces.flatten }

/-- `get_piece_index`: the first index of a piece, or `-1` as a `size_t`. -/
def getPieceIndex (fileInfo : FileInfo) (piece : Bytes) : Nat :=
  match fileInfo.pieces.findIdx? (· == piece) with
  | some index => index
  | none => 2 ^ 64 - 1

/-- `is_piece_valid`. -/
def isPieceValid (sha1 : Bytes → Bytes) (hash data : Bytes) : Bool :=
  hash == sha1 data

/-- `lseek(fd, offset, SEEK_SET)` on a file just opened, for an offset computed
as a `size_t`.  A negative `off_t` is refused, and the position stays. -/
def seek (offset : Nat) : Nat :=
  if offset % 2 ^ 64 < 2 ^ 63 then offset % 2 ^ 64 else 0

/-- `read_piece_from_file`.  It throws when the file cannot be opened; a read returns
as many bytes as are left. -/
def readPieceFromFile (file : Option Bytes) (blockIndex blockSize : Nat) :
    Except Exception Bytes :=
  match file with
  | none => .error .runtimeError
  | some content => .ok ((content.drop (seek (blockIndex * blockSize))).take blockSize)

/-- `write_piece_to_file`.  It throws when the file cannot be opened; a write
takes all its bytes. -/
def writePieceToFile (opened : Bool) (file : Option Bytes) (blockIndex blockSize : Nat)
    (data : Bytes) : Except Exception Bytes :=
  if opened then .ok (writeAt 0 (file.getD []) (seek (blockIndex * blockSize)) data)
  else .error .runtimeError

theorem blockSize_pos : 0 < blockSize := by
  decide

section Pieces

variable {sha1 : Bytes → Bytes} {name content : Bytes}

/-- A description survives its textual form if the name and the digests are words. -/
theorem getFileInfo_isPlain (isWord : IsWord name) (words : ∀ data, IsWord (sha1 data)) :
    (getFileInfo sha1 name content).IsPlain := by
  constructor
  · exact isWord
  · intro piece member
    rcases List.mem_map.mp member with ⟨block, _, rfl⟩
    exact words block
  · rfl

/-- As digests have one length, the hash of a file determines its pieces. -/
theorem getFileInfo_pieces_eq {length : Nat} {otherName other : Bytes} (positive : 0 < length)
    (lengths : ∀ data, (sha1 data).length = length)
    (same : (getFileInfo sha1 name content).hash = (getFileInfo sha1 otherName other).hash) :
    (getFileInfo sha1 name content).pieces = (getFileInfo sha1 otherName other).pieces := by
  have each (content : Bytes) : ∀ piece ∈ (blocks blockSize content).map sha1,
      piece.length = length := by
    intro piece member
    rcases List.mem_map.mp member with ⟨block, _, rfl⟩
    exact lengths block
  exact eq_of_flatten_eq positive (each content) (each other) same

/-- The piece of a file has the hash of the block at its index. -/
theorem getPieceIndex_spec {piece : Bytes}
    (member : piece ∈ (getFileInfo sha1 name content).pieces) :
    ∃ block, (blocks blockSize content)[getPieceIndex (getFileInfo sha1 name content) piece]? =
        some block ∧ sha1 block = piece := by
  simp only [getPieceIndex]
  cases search : (getFileInfo sha1 name content).pieces.findIdx? (· == piece) with
  | none =>
      rw [List.findIdx?_eq_none_iff] at search
      have missing := search piece member
      rw [beq_self_eq_true] at missing
      cases missing
  | some index =>
      rcases List.findIdx?_eq_some_iff_getElem.mp search with ⟨inRange, same, _⟩
      simp only [getFileInfo, List.length_map] at inRange
      refine ⟨(blocks blockSize content)[index], List.getElem?_eq_getElem inRange, ?_⟩
      simpa [getFileInfo] using same

/-- No earlier block has the hash of a piece. -/
theorem getPieceIndex_le {index : Nat} {block : Bytes}
    (found : (blocks blockSize content)[index]? = some block) :
    getPieceIndex (getFileInfo sha1 name content) (sha1 block) ≤ index := by
  rcases List.getElem?_eq_some_iff.mp found with ⟨inRange, found⟩
  have place : index < (getFileInfo sha1 name content).pieces.length := by
    simpa [getFileInfo] using inRange
  have same : ((getFileInfo sha1 name content).pieces[index] == sha1 block) = true := by
    simp [getFileInfo, found]
  simp only [getPieceIndex]
  cases search : (getFileInfo sha1 name content).pieces.findIdx? (· == sha1 block) with
  | none =>
      rw [List.findIdx?_eq_none_iff] at search
      rw [search _ (List.getElem_mem place)] at same
      cases same
  | some first =>
      rcases List.findIdx?_eq_some_iff_getElem.mp search with ⟨_, _, minimal⟩
      by_contra later
      exact minimal index (by simpa using later) same

/-- Among blocks without collisions, the index of a piece is the first index of
its block. -/
theorem getPieceIndex_eq_iff {involved : Set Bytes}
    (blocksInvolved : ∀ block ∈ blocks blockSize content, block ∈ involved)
    (injective : Set.InjOn sha1 involved) {index : Nat} {block : Bytes}
    (found : (blocks blockSize content)[index]? = some block) :
    getPieceIndex (getFileInfo sha1 name content) (sha1 block) = index ↔
      ∀ earlier < index, (blocks blockSize content)[earlier]? ≠ some block := by
  constructor
  · intro first earlier before same
    have bound : getPieceIndex (getFileInfo sha1 name content) (sha1 block) ≤ earlier :=
      getPieceIndex_le same
    omega
  · intro first
    have member : sha1 block ∈ (getFileInfo sha1 name content).pieces :=
      List.mem_map_of_mem (List.mem_of_getElem? found)
    obtain ⟨other, foundOther, same⟩ := getPieceIndex_spec member
    have equal : other = block :=
      injective (blocksInvolved other (List.mem_of_getElem? foundOther))
        (blocksInvolved block (List.mem_of_getElem? found)) same
    subst equal
    apply Nat.le_antisymm (getPieceIndex_le found)
    by_contra earlier
    exact first _ (by simpa using earlier) foundOther

end Pieces

end P2PFileShare
