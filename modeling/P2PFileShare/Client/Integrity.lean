import P2PFileShare.Client.Download

/-!
# What a complete download holds

Pieces are told apart by their hash, and a piece is written at the first index
of its block only.  A block that repeats an earlier one is therefore left out,
which shows unless it is zero and not the last.
-/

namespace P2PFileShare

open Container Text Storage

/-- Every block that repeats an earlier one is zero, and is not the last. -/
def Restorable (content : Bytes) : Prop :=
  ∀ index block, (blocks blockSize content)[index]? = some block →
    (∃ earlier < index, (blocks blockSize content)[earlier]? = some block) →
      index + 1 < (blocks blockSize content).length ∧ ∀ byte ∈ block, byte = 0

section Completion

variable {sha1 : Bytes → Bytes} {name content groupId : Bytes} {involved : Set Bytes}
  {download : Download}

/-- A complete download holds the first of every group of equal blocks. -/
theorem Download.Consistent.eq_content_iff (nonempty : content ≠ [])
    (blocksInvolved : ∀ block ∈ blocks blockSize content, block ∈ involved)
    (injective : Set.InjOn sha1 involved)
    (consistent : download.Consistent sha1 name content)
    (complete : download.partFile.isComplete = true) :
    download.disk = some content ↔ Restorable content := by
  have none_remains := PartFile.isComplete_iff.mp complete
  have all_marked (piece : Bytes) :
      piece ∈ download.partFile.downloadedPieces ↔
        piece ∈ (getFileInfo sha1 name content).pieces := by
    rw [← consistent.fileInfo, ← consistent.cover piece]
    simp [none_remains piece]
  have onDisk : download.disk = some content ↔ download.disk.getD [] = content := by
    cases download.disk with
    | none => simpa [eq_comm] using nonempty
    | some file => simp
  rw [onDisk, consistent.written.eq_content_iff blockSize_pos nonempty]
  -- A block is left out exactly if an earlier one is equal to it.
  have leftOut {index : Nat} {block : Bytes}
      (found : (blocks blockSize content)[index]? = some block) :
      (¬∃ piece ∈ download.partFile.downloadedPieces,
          index = getPieceIndex download.partFile.fileInfo piece) ↔
        ∃ earlier < index, (blocks blockSize content)[earlier]? = some block := by
    have first : getPieceIndex (getFileInfo sha1 name content) (sha1 block) = index ↔
        ∀ earlier < index, (blocks blockSize content)[earlier]? ≠ some block :=
      getPieceIndex_eq_iff blocksInvolved injective found
    rw [not_iff_comm]
    push Not
    rw [← first, consistent.fileInfo]
    constructor
    · intro here
      refine ⟨sha1 block, (all_marked _).mpr ?_, here.symm⟩
      exact List.mem_map_of_mem (List.mem_of_getElem? found)
    · rintro ⟨piece, isMarked, here⟩
      rcases getPieceIndex_spec ((all_marked piece).mp isMarked) with ⟨other, foundOther, rfl⟩
      rw [← here] at foundOther
      obtain rfl := Option.some.inj (found.symm.trans foundOther)
      exact here.symm
  constructor
  · intro zeros index block found repeated
    exact zeros index block found ((leftOut found).mpr repeated)
  · intro restorable index block found missing
    exact restorable index block found ((leftOut found).mp missing)

/-- Honest peers can complete every download from where it is. -/
theorem Download.Reachable.exists_complete (size : content.length < 2 ^ 63)
    (blocksInvolved : ∀ block ∈ blocks blockSize content, block ∈ involved)
    (injective : Set.InjOn sha1 involved) (count : Nat)
    (bound : download.partFile.remainingPieces.toList.length ≤ count)
    (reachable : Download.Reachable sha1 involved
      (Download.enqueue groupId (getFileInfo sha1 name content)) download) :
    ∃ complete, Download.Reachable sha1 involved
        (Download.enqueue groupId (getFileInfo sha1 name content)) complete ∧
      complete.partFile.isComplete = true := by
  induction count generalizing download with
  | zero =>
      refine ⟨download, reachable, ?_⟩
      exact PartFile.isComplete_iff_length.mpr (Nat.le_zero.mp bound)
  | succ count ih =>
      by_cases complete : download.partFile.isComplete = true
      · exact ⟨download, reachable, complete⟩
      · rw [PartFile.isComplete_iff] at complete
        push Not at complete
        rcases complete with ⟨piece, remains⟩
        have consistent := reachable.consistent size blocksInvolved injective
        have isPiece := (consistent.cover piece).mp (Or.inr remains)
        rw [consistent.fileInfo] at isPiece
        obtain ⟨block, found, rfl⟩ := getPieceIndex_spec isPiece
        have fresh : sha1 block ∉ download.partFile.downloadedPieces := fun marked =>
          consistent.disjoint _ marked remains
        have inside := blocksInvolved block (List.mem_of_getElem? found)
        obtain ⟨next, further, marked⟩ := reachable.served remains inside
        apply ih _ further
        have fewer := UnorderedSet.length_erase remains
        simp only [marked, PartFile.markDownloaded, if_neg fresh]
        omega

/-- A content that downloads restore has only harmless repetitions. -/
theorem restorable_of_restored (nonempty : content ≠ []) (size : content.length < 2 ^ 63)
    (blocksInvolved : ∀ block ∈ blocks blockSize content, block ∈ involved)
    (injective : Set.InjOn sha1 involved)
    (restored : ∀ download, Download.Reachable sha1 involved
        (Download.enqueue groupId (getFileInfo sha1 name content)) download →
      download.partFile.isComplete = true → download.disk = some content) :
    Restorable content := by
  have start : Download.Reachable sha1 involved
      (Download.enqueue groupId (getFileInfo sha1 name content))
      (Download.enqueue groupId (getFileInfo sha1 name content)) := .enqueued
  obtain ⟨download, reachable, complete⟩ :=
    start.exists_complete size blocksInvolved injective _ (Nat.le_refl _)
  have consistent := reachable.consistent size blocksInvolved injective
  exact (consistent.eq_content_iff nonempty blocksInvolved injective complete).mp
    (restored download reachable complete)

/-- Whenever a download becomes complete, the output file is the content: so it is
exactly for contents whose repeated blocks are zero and not the last. -/
theorem download_restores_iff (nonempty : content ≠ []) (size : content.length < 2 ^ 63)
    (blocksInvolved : ∀ block ∈ blocks blockSize content, block ∈ involved)
    (injective : Set.InjOn sha1 involved) :
    (∀ download, Download.Reachable sha1 involved
        (Download.enqueue groupId (getFileInfo sha1 name content)) download →
      download.partFile.isComplete = true → download.disk = some content) ↔
      Restorable content := by
  constructor
  · exact restorable_of_restored nonempty size blocksInvolved injective
  · intro restorable download reachable complete
    have consistent := reachable.consistent size blocksInvolved injective
    exact (consistent.eq_content_iff nonempty blocksInvolved injective complete).mpr restorable

end Completion

/-! ## Two different blocks, and two equal ones -/

/-- Blocks that differ are no repetition. -/
theorem restorable_blockAndByte : Restorable blockAndByte := by
  have different := ne_of_apply_ne List.length length_fullBlock_ne
  rw [Restorable, blocks_blockAndByte]
  rintro (_ | _ | index) block found ⟨earlier, before, same⟩
  · omega
  · obtain rfl : earlier = 0 := by omega
    exact absurd (Option.some.inj (same.trans found.symm)) different
  · cases found

theorem download_restores_blocks : ∃ download,
    Download.Reachable sha1Blocks {fullBlock, ascii "a"}
        (Download.enqueue (ascii "g") (getFileInfo sha1Blocks (ascii "f") blockAndByte)) download ∧
      download.partFile.isComplete = true ∧ download.disk = some blockAndByte := by
  obtain ⟨download, reachable, complete⟩ :=
    Download.Reachable.enqueued.exists_complete length_blockAndByte_lt blockAndByte_mem_involved
      sha1Blocks_injOn _ (Nat.le_refl _)
  exact ⟨download, reachable, complete, (download_restores_iff blockAndByte_ne_nil
    length_blockAndByte_lt blockAndByte_mem_involved sha1Blocks_injOn).mpr
      restorable_blockAndByte download reachable complete⟩

/-- SHA-1 of a block of one repeated letter, in hexadecimal. -/
def sha1Block (data : Bytes) : Bytes :=
  if data = List.replicate blockSize 97 then ascii "f7fec128d7fcd59222ba37368d3b7210d4c7b6ef"
  else []

/-- Two blocks of one repeated letter. -/
def twoBlocks : Bytes :=
  List.replicate (2 * blockSize) 97

theorem getElem?_blocks_twoBlocks {index : Nat} :
    (blocks blockSize twoBlocks)[index]? =
      if index < 2 then some (List.replicate blockSize 97) else none := by
  have positive := blockSize_pos
  rw [twoBlocks, getElem?_blocks positive, List.length_replicate, List.drop_replicate,
    List.take_replicate, ← Nat.sub_mul]
  by_cases first : index < 2
  · have whole : blockSize ≤ (2 - index) * blockSize := Nat.le_mul_of_pos_left _ (by omega)
    rw [if_pos (Nat.mul_lt_mul_of_pos_right first positive), if_pos first,
      Nat.min_eq_left whole]
  · have behind : 2 * blockSize ≤ index * blockSize :=
      Nat.mul_le_mul_right _ (Nat.le_of_not_lt first)
    rw [if_neg (Nat.not_lt_of_le behind), if_neg first]

/-- The second of two equal blocks is never written. -/
theorem download_loses_repetition :
    ¬∀ download, Download.Reachable sha1Block {List.replicate blockSize 97}
        (Download.enqueue (ascii "g") (getFileInfo sha1Block (ascii "f") twoBlocks)) download →
      download.partFile.isComplete = true → download.disk = some twoBlocks := by
  intro restored
  have nonempty : twoBlocks ≠ [] := by
    have positive := blockSize_pos
    simp only [twoBlocks, ne_eq, List.replicate_eq_nil_iff]
    omega
  have size : twoBlocks.length < 2 ^ 63 := by
    rw [twoBlocks, List.length_replicate]
    decide
  have blocksInvolved : ∀ block ∈ blocks blockSize twoBlocks,
      block ∈ ({List.replicate blockSize 97} : Set Bytes) := by
    intro block member
    rcases List.mem_iff_getElem?.mp member with ⟨index, found⟩
    rw [getElem?_blocks_twoBlocks] at found
    split at found
    · exact (Option.some.inj found).symm
    · cases found
  have restorable :=
    restorable_of_restored nonempty size blocksInvolved (Set.injOn_singleton _ _) restored
  have found {index : Nat} (bound : index < 2) :
      (blocks blockSize twoBlocks)[index]? = some (List.replicate blockSize 97) := by
    rw [getElem?_blocks_twoBlocks, if_pos bound]
  obtain ⟨notLast, _⟩ := restorable 1 _ (found (by omega)) ⟨0, by omega, found (by omega)⟩
  have missing := List.getElem?_eq_getElem notLast
  rw [getElem?_blocks_twoBlocks] at missing
  cases missing

end P2PFileShare
