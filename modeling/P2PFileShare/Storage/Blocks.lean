import Mathlib.Data.List.Basic
import Mathlib.Data.Set.Function
import Mathlib.Tactic.Tauto

/-!
# Files written block by block

Contents are lists.  `blocks` cuts a content into blocks of a fixed size, the
last of which may be short; `writeAt` is a write behind a seek, which fills a
gap in front of it with zeros.  `Patched` describes a file that holds some
blocks of a content, each at its place, and is zero elsewhere.
-/

namespace P2PFileShare.Storage

variable {α : Type}

/-- Blocks are read until a read comes back empty.  Every block takes at least
one element, so that the length of the content is enough fuel. -/
def readBlocks (size : Nat) : Nat → List α → List (List α)
  | 0, _ => []
  | fuel + 1, content =>
      match content.take size with
      | [] => []
      | first :: others => (first :: others) :: readBlocks size fuel (content.drop size)

/-- The blocks of a content. -/
def blocks (size : Nat) (content : List α) : List (List α) :=
  readBlocks size content.length content

/-- The block at an index starts at that multiple of the block size. -/
theorem getElem?_readBlocks {size : Nat} (positive : 0 < size) {fuel : Nat} {content : List α}
    (enough : content.length ≤ fuel) (index : Nat) :
    (readBlocks size fuel content)[index]? =
      if index * size < content.length then some ((content.drop (index * size)).take size)
      else none := by
  induction fuel generalizing content index with
  | zero =>
      have empty : content.length = 0 := Nat.le_zero.mp enough
      simp [readBlocks, empty]
  | succ fuel ih =>
      cases content with
      | nil => simp [readBlocks]
      | cons head tail =>
          obtain ⟨before, rfl⟩ := Nat.exists_eq_succ_of_ne_zero (Nat.ne_of_gt positive)
          have shorter : (tail.drop before).length ≤ fuel := by
            simp only [List.length_drop, List.length_cons] at enough ⊢
            omega
          simp only [readBlocks, List.take_succ_cons, List.drop_succ_cons]
          cases index with
          | zero => simp
          | succ index =>
              have start : (index + 1) * (before + 1) = index * (before + 1) + before + 1 := by
                rw [Nat.succ_mul]
                omega
              rw [List.getElem?_cons_succ, ih shorter, start, List.drop_succ_cons, List.drop_drop,
                Nat.add_comm before]
              by_cases inside : index * (before + 1) < (tail.drop before).length
              · rw [if_pos inside, if_pos]
                simp only [List.length_drop, List.length_cons] at inside ⊢
                omega
              · rw [if_neg inside, if_neg]
                simp only [List.length_drop, List.length_cons] at inside ⊢
                omega

theorem getElem?_blocks {size : Nat} (positive : 0 < size) (content : List α) (index : Nat) :
    (blocks size content)[index]? =
      if index * size < content.length then some ((content.drop (index * size)).take size)
      else none :=
  getElem?_readBlocks positive (Nat.le_refl _) index

section Block

variable {size index position : Nat} {content block : List α}

theorem blocks_eq_some_iff (positive : 0 < size) :
    (blocks size content)[index]? = some block ↔
      index * size < content.length ∧ block = (content.drop (index * size)).take size := by
  rw [getElem?_blocks positive]
  by_cases inside : index * size < content.length
  · rw [if_pos inside, Option.some.injEq]
    constructor
    · rintro rfl
      exact ⟨inside, rfl⟩
    · rintro ⟨_, rfl⟩
      rfl
  · rw [if_neg inside]
    constructor
    · intro absent
      cases absent
    · rintro ⟨within, _⟩
      exact absurd within inside

theorem lt_length_blocks_iff (positive : 0 < size) :
    index < (blocks size content).length ↔ index * size < content.length := by
  rw [← not_iff_not, Nat.not_lt, ← List.getElem?_eq_none_iff, getElem?_blocks positive]
  simp

/-- A block is never empty, and reaches to its end or to the end of the content. -/
theorem length_block (positive : 0 < size) (found : (blocks size content)[index]? = some block) :
    0 < block.length ∧ block.length ≤ size ∧
      index * size + block.length = min ((index + 1) * size) content.length := by
  rcases (blocks_eq_some_iff positive).mp found with ⟨inside, rfl⟩
  rw [List.length_take, List.length_drop, Nat.succ_mul]
  omega

/-- The elements of a block are those of the content at its place. -/
theorem getElem?_block (positive : 0 < size) (found : (blocks size content)[index]? = some block)
    {offset : Nat} (inside : offset < block.length) :
    block[offset]? = content[index * size + offset]? := by
  obtain ⟨_, _, _⟩ := length_block positive found
  rcases (blocks_eq_some_iff positive).mp found with ⟨_, rfl⟩
  rw [List.getElem?_take_of_lt (by omega), List.getElem?_drop]

/-- Every position of a content lies in one of its blocks. -/
theorem exists_block (positive : 0 < size) (inside : position < content.length) :
    ∃ block, (blocks size content)[position / size]? = some block ∧
      position / size * size ≤ position ∧
      position < position / size * size + block.length := by
  have below := Nat.div_mul_le_self position size
  have above : position < (position / size + 1) * size := by
    rw [Nat.mul_comm]
    exact Nat.lt_mul_div_succ position positive
  have found : (blocks size content)[position / size]? =
      some ((content.drop (position / size * size)).take size) :=
    (blocks_eq_some_iff positive).mpr ⟨by omega, rfl⟩
  obtain ⟨_, _, _⟩ := length_block positive found
  exact ⟨_, found, below, by omega⟩

/-- Blocks do not overlap. -/
theorem index_eq_of_mem_block (positive : 0 < size)
    (found : (blocks size content)[index]? = some block)
    (start : index * size ≤ position) (stop : position < index * size + block.length) :
    index = position / size := by
  obtain ⟨_, _, _⟩ := length_block positive found
  symm
  apply Nat.div_eq_of_lt_le start
  rw [Nat.succ_mul]
  omega

end Block

/-! ## Putting blocks together -/

/-- The blocks of a content make up the content. -/
theorem flatten_readBlocks {size : Nat} (positive : 0 < size) {fuel : Nat} {content : List α}
    (enough : content.length ≤ fuel) : (readBlocks size fuel content).flatten = content := by
  induction fuel generalizing content with
  | zero =>
      rw [List.length_eq_zero_iff.mp (Nat.le_zero.mp enough)]
      rfl
  | succ fuel ih =>
      cases content with
      | nil => simp [readBlocks]
      | cons head tail =>
          obtain ⟨before, rfl⟩ := Nat.exists_eq_succ_of_ne_zero (Nat.ne_of_gt positive)
          have shorter : (tail.drop before).length ≤ fuel := by
            simp only [List.length_drop, List.length_cons] at enough ⊢
            omega
          simp only [readBlocks, List.take_succ_cons, List.drop_succ_cons, List.flatten_cons,
            List.cons_append]
          rw [ih shorter, List.take_append_drop]

theorem blocks_inj {size : Nat} (positive : 0 < size) {content other : List α} :
    blocks size content = blocks size other ↔ content = other := by
  constructor
  · intro same
    calc
      content = (blocks size content).flatten :=
        (flatten_readBlocks positive (Nat.le_refl _)).symm
      _ = (blocks size other).flatten := by rw [same]
      _ = other := flatten_readBlocks positive (Nat.le_refl _)
  · rintro rfl
    rfl

/-- Pieces of one length can be told apart in their concatenation. -/
theorem eq_of_flatten_eq {pieces others : List (List α)} {length : Nat} (positive : 0 < length)
    (each : ∀ piece ∈ pieces, piece.length = length)
    (eachOther : ∀ piece ∈ others, piece.length = length)
    (same : pieces.flatten = others.flatten) : pieces = others := by
  have lengths {pieces : List (List α)} (each : ∀ piece ∈ pieces, piece.length = length) :
      pieces.map List.length = List.replicate pieces.length length := by
    rw [List.eq_replicate_iff, List.length_map]
    refine ⟨rfl, ?_⟩
    intro count member
    rcases List.mem_map.mp member with ⟨piece, isPiece, rfl⟩
    exact each piece isPiece
  have total := congrArg List.length same
  rw [List.length_flatten, List.length_flatten, lengths each, lengths eachOther,
    List.sum_replicate_nat, List.sum_replicate_nat] at total
  have count : pieces.length = others.length := Nat.eq_of_mul_eq_mul_right positive total
  rw [List.eq_iff_flatten_eq, lengths each, lengths eachOther, count]
  exact ⟨same, rfl⟩

/-- Pieces are told apart by what a function without collisions makes of them. -/
theorem eq_of_map_eq {β : Type} {f : α → β} {involved : Set α}
    (injective : Set.InjOn f involved) {pieces others : List α}
    (each : ∀ piece ∈ pieces, piece ∈ involved) (eachOther : ∀ piece ∈ others, piece ∈ involved)
    (same : pieces.map f = others.map f) : pieces = others := by
  induction pieces generalizing others with
  | nil => exact (List.map_eq_nil_iff.mp same.symm).symm
  | cons piece pieces ih =>
      rcases List.map_eq_cons_iff.mp same.symm with ⟨other, others, rfl, sameFirst, sameRest⟩
      rcases List.forall_mem_cons.mp each with ⟨first, rest⟩
      rcases List.forall_mem_cons.mp eachOther with ⟨otherFirst, otherRest⟩
      rw [injective otherFirst first sameFirst, ih rest otherRest sameRest.symm]

/-! ## Writes -/

/-- A write of some data behind a seek: the file grows if need be, and a gap in
front of the data reads as zeros.  Writing nothing changes nothing. -/
def writeAt (zero : α) (file : List α) (offset : Nat) (data : List α) : List α :=
  if data.isEmpty then file
  else
    (file ++ List.replicate (offset - file.length) zero).take offset ++ data ++
      file.drop (offset + data.length)

section Write

variable {zero : α} {file data : List α} {offset : Nat}

theorem length_writeAt (nonempty : data ≠ []) :
    (writeAt zero file offset data).length = max file.length (offset + data.length) := by
  have notEmpty : data.isEmpty = false := by simpa using nonempty
  simp only [writeAt, notEmpty, Bool.false_eq_true, if_false, List.length_append,
    List.length_take, List.length_replicate, List.length_drop]
  omega

/-- Inside the write, the data is read back. -/
theorem getD_writeAt_inside {position : Nat} (start : offset ≤ position)
    (stop : position < offset + data.length) :
    (writeAt zero file offset data).getD position zero = data.getD (position - offset) zero := by
  cases data with
  | nil =>
      rw [List.length_nil] at stop
      omega
  | cons first others =>
      have prefixLength :
          ((file ++ List.replicate (offset - file.length) zero).take offset).length = offset := by
        simp only [List.length_take, List.length_append, List.length_replicate]
        omega
      simp only [writeAt, List.isEmpty_cons, Bool.false_eq_true, if_false,
        List.getD_eq_getElem?_getD]
      rw [List.getElem?_append_left (by rw [List.length_append, prefixLength]; exact stop),
        List.getElem?_append_right (by rw [prefixLength]; exact start), prefixLength]

/-- Outside the write, the file reads as before, and as zero where it was not. -/
theorem getD_writeAt_outside {position : Nat}
    (outside : position < offset ∨ offset + data.length ≤ position) :
    (writeAt zero file offset data).getD position zero = file.getD position zero := by
  cases data with
  | nil => rfl
  | cons first others =>
      have prefixLength :
          ((file ++ List.replicate (offset - file.length) zero).take offset).length = offset := by
        simp only [List.length_take, List.length_append, List.length_replicate]
        omega
      simp only [writeAt, List.isEmpty_cons, Bool.false_eq_true, if_false,
        List.getD_eq_getElem?_getD]
      rcases outside with before | behind
      · rw [List.append_assoc, List.getElem?_append_left (by rw [prefixLength]; exact before),
          List.getElem?_take_of_lt before]
        by_cases within : position < file.length
        · rw [List.getElem?_append_left within]
        · rw [List.getElem?_append_right (by omega), List.getElem?_replicate,
            if_pos (by omega), List.getElem?_eq_none (by omega)]
          rfl
      · rw [List.getElem?_append_right
            (by rw [List.length_append, prefixLength]; exact behind),
          List.length_append, prefixLength, List.getElem?_drop]
        congr 2
        omega

end Write

/-! ## Partly written files -/

/-- A file that holds the blocks of a content whose indices are `written`, each
at its place; it is zero elsewhere and ends with a written block. -/
structure Patched (zero : α) (size : Nat) (content : List α) (written : Nat → Prop)
    (file : List α) : Prop where
  reach : ∀ position < content.length, written (position / size) → position < file.length
  inside : ∀ position < content.length, written (position / size) →
    file.getD position zero = content.getD position zero
  outside : ∀ position, ¬(position < content.length ∧ written (position / size)) →
    file.getD position zero = zero
  last : file ≠ [] → file.length ≤ content.length ∧ written ((file.length - 1) / size)

namespace Patched

variable {zero : α} {size : Nat} {content file block : List α} {written : Nat → Prop}

theorem nothing : Patched zero size content (fun _ => False) [] where
  reach _ _ absent := absent.elim
  inside _ _ absent := absent.elim
  outside _ _ := rfl
  last nonempty := absurd rfl nonempty

/-- The same blocks, described otherwise. -/
theorem congr {other : Nat → Prop} (patched : Patched zero size content written file)
    (same : ∀ index, written index ↔ other index) :
    Patched zero size content other file := by
  obtain rfl : written = other := funext fun index => propext (same index)
  exact patched

/-- One more block is written at its place. -/
theorem write (positive : 0 < size) (patched : Patched zero size content written file)
    {index : Nat} (found : (blocks size content)[index]? = some block) :
    Patched zero size content (fun other => other = index ∨ written other)
      (writeAt zero file (index * size) block) := by
  obtain ⟨nonempty, short, reach⟩ := length_block positive found
  have length_eq : (writeAt zero file (index * size) block).length =
      max file.length (index * size + block.length) :=
    length_writeAt (List.ne_nil_of_length_pos nonempty)
  have within {position : Nat} (inside : position < content.length)
      (here : position / size = index) :
      index * size ≤ position ∧ position < index * size + block.length := by
    obtain ⟨other, foundOther, start, stop⟩ := exists_block positive inside
    rw [here] at foundOther start stop
    obtain rfl := Option.some.inj (found.symm.trans foundOther)
    exact ⟨start, stop⟩
  have elsewhere {position : Nat} (away : ¬(position < content.length ∧ position / size = index)) :
      position < index * size ∨ index * size + block.length ≤ position := by
    by_contra between
    have start : index * size ≤ position := by omega
    have stop : position < index * size + block.length := by omega
    exact away ⟨by omega, (index_eq_of_mem_block positive found start stop).symm⟩
  constructor
  · intro position inside isWritten
    by_cases here : position / size = index
    · obtain ⟨start, stop⟩ := within inside here
      omega
    · have before := patched.reach position inside (isWritten.resolve_left here)
      omega
  · intro position inside isWritten
    by_cases here : position / size = index
    · obtain ⟨start, stop⟩ := within inside here
      rw [getD_writeAt_inside start stop, List.getD_eq_getElem?_getD, List.getD_eq_getElem?_getD,
        getElem?_block positive found (by omega), Nat.add_sub_cancel' start]
    · rw [getD_writeAt_outside (elsewhere fun both => here both.2)]
      exact patched.inside position inside (isWritten.resolve_left here)
  · intro position away
    rw [getD_writeAt_outside (elsewhere fun both => away ⟨both.1, Or.inl both.2⟩)]
    exact patched.outside position fun both => away ⟨both.1, Or.inr both.2⟩
  · intro _
    rw [length_eq]
    by_cases grown : file.length ≤ index * size + block.length
    · rw [Nat.max_eq_right grown]
      refine ⟨by omega, Or.inl ?_⟩
      exact (index_eq_of_mem_block positive found (by omega) (by omega)).symm
    · rw [Nat.max_eq_left (by omega)]
      have fileNonempty : file ≠ [] := by
        rintro rfl
        simp at grown
      obtain ⟨bounded, lastWritten⟩ := patched.last fileNonempty
      exact ⟨bounded, Or.inr lastWritten⟩

/-- A written block is read back. -/
theorem read_block (positive : 0 < size) (patched : Patched zero size content written file)
    {index : Nat} (isWritten : written index)
    (found : (blocks size content)[index]? = some block) :
    (file.drop (index * size)).take block.length = block := by
  obtain ⟨nonempty, _, reach⟩ := length_block positive found
  have place {offset : Nat} (within : offset < block.length) :
      index * size + offset < content.length ∧ (index * size + offset) / size = index :=
    ⟨by omega, (index_eq_of_mem_block positive found (by omega) (by omega)).symm⟩
  have reached {offset : Nat} (within : offset < block.length) :
      index * size + offset < file.length := by
    obtain ⟨inside, here⟩ := place within
    exact patched.reach _ inside (by rw [here]; exact isWritten)
  have long := reached (Nat.sub_lt nonempty Nat.one_pos)
  apply List.ext_getElem
  · rw [List.length_take, List.length_drop]
    omega
  · intro offset _ within
    obtain ⟨inside, here⟩ := place within
    have value := patched.inside _ inside (by rw [here]; exact isWritten)
    rw [List.getD_eq_getElem?_getD, List.getD_eq_getElem?_getD,
      ← getElem?_block positive found within, List.getElem?_eq_getElem (reached within),
      List.getElem?_eq_getElem within] at value
    rw [List.getElem_take, List.getElem_drop]
    exact value

/-- A partly written file is the whole content exactly if every block left out is
zero and not the last one. -/
theorem eq_content_iff (positive : 0 < size) (nonempty : content ≠ [])
    (patched : Patched zero size content written file) :
    file = content ↔
      ∀ index block, (blocks size content)[index]? = some block → ¬written index →
        index + 1 < (blocks size content).length ∧ ∀ element ∈ block, element = zero := by
  have contentLength : 0 < content.length := List.length_pos_iff.mpr nonempty
  constructor
  · rintro rfl index block found missing
    obtain ⟨_, _, reach⟩ := length_block positive found
    constructor
    · rw [lt_length_blocks_iff positive]
      by_contra last
      have end_eq : file.length = index * size + block.length := by omega
      have here : index = (file.length - 1) / size :=
        index_eq_of_mem_block positive found (by omega) (by omega)
      exact missing (here ▸ (patched.last nonempty).2)
    · intro element member
      rcases List.mem_iff_getElem.mp member with ⟨offset, within, rfl⟩
      have here : index = (index * size + offset) / size :=
        index_eq_of_mem_block positive found (by omega) (by omega)
      have zeroThere := patched.outside (index * size + offset) fun both => missing (here ▸ both.2)
      rw [List.getD_eq_getElem?_getD, ← getElem?_block positive found within,
        List.getElem?_eq_getElem within] at zeroThere
      exact zeroThere
  · intro leftOut
    have lengths : file.length = content.length := by
      apply Nat.le_antisymm
      · by_cases empty : file = []
        · simp [empty]
        · exact (patched.last empty).1
      · obtain ⟨block, found, _, stop⟩ :=
          exists_block positive (Nat.sub_lt contentLength Nat.one_pos)
        obtain ⟨_, _, reach⟩ := length_block positive found
        by_contra short
        have missing : ¬written ((content.length - 1) / size) := by
          intro isWritten
          have reached := patched.reach _ (Nat.sub_lt contentLength Nat.one_pos) isWritten
          omega
        have notLast := (leftOut _ block found missing).1
        rw [lt_length_blocks_iff positive] at notLast
        omega
    have values : ∀ position < content.length,
        file.getD position zero = content.getD position zero := by
      intro position within
      by_cases isWritten : written (position / size)
      · exact patched.inside position within isWritten
      · obtain ⟨block, found, start, stop⟩ := exists_block positive within
        rw [patched.outside position fun both => isWritten both.2]
        have zeros := (leftOut _ block found isWritten).2
        have offset_lt : position - position / size * size < block.length := by omega
        have element := getElem?_block positive found offset_lt
        rw [Nat.add_sub_cancel' start, List.getElem?_eq_getElem offset_lt] at element
        rw [List.getD_eq_getElem?_getD, ← element, Option.getD_some]
        exact (zeros _ (List.getElem_mem offset_lt)).symm
    apply List.ext_getElem lengths
    intro position inFile inContent
    have value := values position inContent
    rw [List.getD_eq_getElem?_getD, List.getD_eq_getElem?_getD, List.getElem?_eq_getElem inFile,
      List.getElem?_eq_getElem inContent] at value
    exact value

end Patched

end P2PFileShare.Storage
