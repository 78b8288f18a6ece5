import P2PFileShare.Client.Download

/-!
# A file is put together from its blocks

`get_file_info` splits a file by reading it to its end, `read_piece_from_file` and
`write_piece_to_file` compute the place of a block from its index.  When every block was
copied at least once, the output file has the content, in whatever order they came.
-/

namespace P2PFileShare

open Container Text Storage

/-- A block is read from a file of the given content and written to the output file,
which exists or not. -/
def copyPiece (content : Bytes) (output : Option Bytes) (index : Nat) :
    Except Exception (Option Bytes) := do
  let data ← readPieceFromFile (some content) index blockSize
  let output ← writePieceToFile true output index blockSize data
  return some output

section Reassembly

variable {sha1 : Bytes → Bytes} {name content : Bytes} {output : Option Bytes} {index : Nat}
  {indices : List Nat} {written : Nat → Prop}

/-- A file has one piece for each block that is begun. -/
theorem length_pieces :
    (getFileInfo sha1 name content).pieces.length =
      (content.length + blockSize - 1) / blockSize := by
  have begun (index : Nat) : index < (blocks blockSize content).length ↔
      index < (content.length + blockSize - 1) / blockSize := by
    rw [lt_length_blocks_iff blockSize_pos, Nat.lt_div_iff_mul_lt blockSize_pos]
    have positive := blockSize_pos
    omega
  rw [getFileInfo, List.length_map]
  exact Nat.le_antisymm (Nat.le_of_not_lt fun more => Nat.lt_irrefl _ ((begun _).mp more))
    (Nat.le_of_not_lt fun more => Nat.lt_irrefl _ ((begun _).mpr more))

/-- Copying a block of the file writes it at its place. -/
theorem copyPiece_block (small : content.length < 2 ^ 63)
    (patched : Patched 0 blockSize content written (output.getD []))
    (inRange : index < (blocks blockSize content).length) :
    ∃ next, copyPiece content output index = .ok (some next) ∧
      Patched 0 blockSize content (fun other => other = index ∨ written other) next := by
  have found := List.getElem?_eq_getElem inRange
  obtain ⟨inside, block⟩ := (blocks_eq_some_iff blockSize_pos).mp found
  have place : seek (index * blockSize) = index * blockSize :=
    seek_eq (Nat.lt_trans inside small)
  refine ⟨writeAt 0 (output.getD []) (index * blockSize) (blocks blockSize content)[index], ?_,
    patched.write blockSize_pos found⟩
  simp only [copyPiece, readPieceFromFile, writePieceToFile, place, block, bind, Except.bind, pure,
    Except.pure, if_true]

/-- The blocks that were copied are in the output file. -/
theorem copyPieces_patched (small : content.length < 2 ^ 63)
    (inRange : ∀ index ∈ indices, index < (blocks blockSize content).length)
    (patched : Patched 0 blockSize content written (output.getD [])) :
    ∃ last, indices.foldlM (copyPiece content) output = .ok last ∧
      Patched 0 blockSize content (fun index => written index ∨ index ∈ indices)
        (last.getD []) := by
  induction indices generalizing output written with
  | nil => exact ⟨output, rfl, patched.congr fun index => by simp⟩
  | cons first rest ih =>
      rcases List.forall_mem_cons.mp inRange with ⟨here, later⟩
      obtain ⟨next, copied, patchedNext⟩ := copyPiece_block small patched here
      have start : Patched 0 blockSize content (fun index => index = first ∨ written index)
          ((some next).getD []) := patchedNext
      obtain ⟨last, copiedAll, patchedLast⟩ := ih later start
      refine ⟨last, ?_, patchedLast.congr fun index => ?_⟩
      · rw [List.foldlM_cons, copied]
        exact copiedAll
      · rw [List.mem_cons]
        tauto

/-- A file has as many pieces as blocks are begun, and copying them in any order, each at
least once, to a file that does not exist makes a file of the same content. -/
theorem blocks_reassemble (nonempty : content ≠ []) (small : content.length < 2 ^ 63) :
    (getFileInfo sha1 name content).pieces.length =
        (content.length + blockSize - 1) / blockSize ∧
      ∀ indices : List Nat,
        (∀ index ∈ indices, index < (getFileInfo sha1 name content).pieces.length) →
        (∀ index < (getFileInfo sha1 name content).pieces.length, index ∈ indices) →
          indices.foldlM (copyPiece content) none = .ok (some content) := by
  refine ⟨length_pieces, fun indices inRange all => ?_⟩
  simp only [getFileInfo, List.length_map] at inRange all
  have start : Patched 0 blockSize content (fun _ => False) ((none : Option Bytes).getD []) :=
    .nothing
  obtain ⟨last, copied, patched⟩ := copyPieces_patched small inRange start
  have same : last.getD [] = content := by
    rw [patched.eq_content_iff blockSize_pos nonempty]
    intro index block found missing
    exact absurd (Or.inr (all index (List.getElem?_eq_some_iff.mp found).1)) missing
  cases last with
  | none => exact absurd same.symm nonempty
  | some last => rw [copied, ← same, Option.getD_some]

end Reassembly

/-- The byte is written first, then the block, then the byte again. -/
theorem blocks_reassemble_two :
    (getFileInfo sha1Letter (ascii "f") blockAndByte).pieces.length = 2 ∧
      [1, 0, 1].foldlM (copyPiece blockAndByte) none = .ok (some blockAndByte) := by
  have length : blockAndByte.length = blockSize + 1 := List.length_replicate
  have nonempty : blockAndByte ≠ [] := List.ne_nil_of_length_eq_add_one length
  have small : blockAndByte.length < 2 ^ 63 := by
    rw [length]
    decide
  obtain ⟨count, reassembled⟩ := blocks_reassemble nonempty small
  have two : (getFileInfo sha1Letter (ascii "f") blockAndByte).pieces.length = 2 := by
    rw [count, length]
    decide
  refine ⟨two, reassembled [1, 0, 1] ?_ ?_⟩
  · rw [two]
    decide
  · rw [two]
    decide

end P2PFileShare
