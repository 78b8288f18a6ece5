import P2PFileShare.Client.FileIO

/-!
# The identity of contents

`client/hash.cpp`, and what two equal hashes say.  The hash of a file is the
concatenation of the digests of its blocks, without separators, and the tracker
computes it again from the pieces that it reads.  Digits determine bytes, digests of
one length determine the pieces, and blocks determine the content.
-/

namespace P2PFileShare

open Text Storage

/-- What `SHA1` returns: `SHA_DIGEST_LENGTH` bytes. -/
abbrev Digest := { bytes : Bytes // bytes.length = 20 }

def hexDigits : Bytes :=
  ascii "0123456789abcdef"

/-- `snprintf` of a byte with `"%02x"`. -/
def hexByte (byte : UInt8) : Bytes :=
  [hexDigits.getD (byte.toNat / 16) 0, hexDigits.getD (byte.toNat % 16) 0]

/-- `get_sha1`.  The digest is a parameter. -/
def getSha1 (digest : Bytes → Digest) (input : Bytes) : Bytes :=
  (digest input).val.flatMap hexByte

section Digits

variable {value other : Nat}

theorem hexDigits_getD (inRange : value < 16) :
    ∃ within : value < hexDigits.length, hexDigits.getD value 0 = hexDigits[value] := by
  have within : value < hexDigits.length := inRange
  exact ⟨within, (List.getElem_eq_getD 0).symm⟩

/-- The digits are different from one another. -/
theorem hexDigits_inj (inRange : value < 16) (otherInRange : other < 16)
    (same : hexDigits.getD value 0 = hexDigits.getD other 0) : value = other := by
  have distinct : hexDigits.Nodup := by decide
  obtain ⟨within, digit⟩ := hexDigits_getD inRange
  obtain ⟨otherWithin, otherDigit⟩ := hexDigits_getD otherInRange
  rw [digit, otherDigit] at same
  exact (distinct.getElem_inj_iff).mp same

theorem halves_lt (byte : UInt8) : byte.toNat / 16 < 16 ∧ byte.toNat % 16 < 16 := by
  have bound := byte.toNat_lt
  omega

theorem hexByte_injective : Function.Injective hexByte := by
  intro byte other same
  obtain ⟨high, low⟩ := halves_lt byte
  obtain ⟨otherHigh, otherLow⟩ := halves_lt other
  obtain ⟨sameHigh, others⟩ := List.cons.inj same
  obtain ⟨sameLow, _⟩ := List.cons.inj others
  have highs := hexDigits_inj high otherHigh sameHigh
  have lows := hexDigits_inj low otherLow sameLow
  apply UInt8.toNat_inj.mp
  calc
    byte.toNat = 16 * (byte.toNat / 16) + byte.toNat % 16 := (Nat.div_add_mod _ _).symm
    _ = 16 * (other.toNat / 16) + other.toNat % 16 := by rw [highs, lows]
    _ = other.toNat := Nat.div_add_mod _ _

theorem mem_hexDigits {byte digit : UInt8} (member : digit ∈ hexByte byte) :
    digit ∈ hexDigits := by
  have inDigits {value : Nat} (inRange : value < 16) : hexDigits.getD value 0 ∈ hexDigits := by
    obtain ⟨within, digit⟩ := hexDigits_getD inRange
    rw [digit]
    exact List.getElem_mem within
  obtain ⟨high, low⟩ := halves_lt byte
  rcases List.mem_pair.mp member with rfl | rfl
  · exact inDigits high
  · exact inDigits low

end Digits

section Sha1

variable {digest : Bytes → Digest} {input other : Bytes}

theorem length_getSha1 : (getSha1 digest input).length = 40 := by
  have pairs : ∀ byte ∈ (digest input).val, (hexByte byte).length = 2 := fun _ _ => rfl
  rw [getSha1, List.length_flatMap, List.map_congr_left pairs, List.map_const',
    List.sum_replicate_nat, (digest input).property]

theorem isWord_getSha1 : IsWord (getSha1 digest input) := by
  constructor
  · apply List.ne_nil_of_length_pos
    rw [length_getSha1]
    exact Nat.succ_pos 39
  · intro digit member
    rcases List.mem_flatMap.mp member with ⟨byte, _, isDigit⟩
    have digits : IsWord hexDigits := by decide
    exact digits.2 digit (mem_hexDigits isDigit)

/-- Digests are told apart by their digits. -/
theorem digest_eq_of_getSha1 (same : getSha1 digest input = getSha1 digest other) :
    digest input = digest other := by
  have pairs (bytes : Bytes) : ∀ pair ∈ bytes.map hexByte, pair.length = 2 := by
    intro pair member
    rcases List.mem_map.mp member with ⟨byte, _, rfl⟩
    rfl
  rw [getSha1, getSha1, List.flatMap_def, List.flatMap_def] at same
  apply Subtype.ext
  exact List.map_injective_iff.mpr hexByte_injective
    (eq_of_flatten_eq Nat.two_pos (pairs _) (pairs _) same)

end Sha1

/-- The tracker's `FileInfo::from_string` of what a client made of a file with
`get_file_info` and `to_string`. -/
def receivedInfo (platform : Platform) (digest : Bytes → Digest) (name content : Bytes) :
    FileInfo :=
  FileInfo.fromString platform (getFileInfo (getSha1 digest) name content).toString

section Contents

variable {digest : Bytes → Digest} {name otherName content other : Bytes} {involved : Set Bytes}

/-- A description is received as it was made. -/
theorem receivedInfo_eq (platform : Platform) (isWord : IsWord name) :
    receivedInfo platform digest name content = getFileInfo (getSha1 digest) name content := by
  have plain : (getFileInfo (getSha1 digest) name content).IsPlain :=
    getFileInfo_isPlain isWord fun _ => isWord_getSha1
  have nothing : ∀ byte ∈ ([] : Bytes), isSpace byte = true := nofun
  have restored := FileInfo.fromString_toString platform plain nothing nothing
  rw [List.nil_append, List.append_nil] at restored
  exact restored

/-- Among blocks without collisions, a hash belongs to one content. -/
theorem hash_eq_iff (contentInvolved : ∀ block ∈ blocks blockSize content, block ∈ involved)
    (otherInvolved : ∀ block ∈ blocks blockSize other, block ∈ involved)
    (injective : Set.InjOn digest involved) :
    (getFileInfo (getSha1 digest) name content).hash =
      (getFileInfo (getSha1 digest) otherName other).hash ↔ content = other := by
  have injectiveDigits : Set.InjOn (getSha1 digest) involved := by
    intro block isInvolved another anotherInvolved same
    exact injective isInvolved anotherInvolved (digest_eq_of_getSha1 same)
  constructor
  · intro same
    have pieces : (blocks blockSize content).map (getSha1 digest) =
        (blocks blockSize other).map (getSha1 digest) :=
      getFileInfo_pieces_eq (Nat.succ_pos 39) (fun _ => length_getSha1) same
    apply (blocks_inj blockSize_pos).mp
    exact eq_of_map_eq injectiveDigits contentInvolved otherInvolved pieces
  · rintro rfl
    rfl

/-- The hash identifies the content, as the client computes it and as the tracker does
again from the text; so files of a group are equal exactly if their contents are. -/
theorem contents_identified (contentInvolved : ∀ block ∈ blocks blockSize content, block ∈ involved)
    (otherInvolved : ∀ block ∈ blocks blockSize other, block ∈ involved)
    (injective : Set.InjOn digest involved) :
    (∀ name otherName, (getFileInfo (getSha1 digest) name content).hash =
        (getFileInfo (getSha1 digest) otherName other).hash ↔ content = other) ∧
      ∀ platform name otherName, IsWord name → IsWord otherName →
        ((receivedInfo platform digest name content).hash =
            (receivedInfo platform digest otherName other).hash ↔ content = other) ∧
          ∀ groupId seeders otherSeeders,
            File.equals ⟨seeders, receivedInfo platform digest name content, groupId⟩
                ⟨otherSeeders, receivedInfo platform digest otherName other, groupId⟩ = true ↔
              content = other := by
  constructor
  · intro name otherName
    exact hash_eq_iff contentInvolved otherInvolved injective
  · intro platform name otherName isWord otherIsWord
    have received : (receivedInfo platform digest name content).hash =
        (receivedInfo platform digest otherName other).hash ↔ content = other := by
      rw [receivedInfo_eq platform isWord, receivedInfo_eq platform otherIsWord]
      exact hash_eq_iff contentInvolved otherInvolved injective
    refine ⟨received, ?_⟩
    intro groupId seeders otherSeeders
    rw [File.equals, Bool.and_eq_true, beq_iff_eq, beq_iff_eq, and_iff_left rfl]
    exact received

end Contents

/-- SHA-1 of two letters; any other digest will do for the rest. -/
def digestLetters (data : Bytes) : Digest :=
  if data = ascii "a" then
    ⟨[134, 247, 228, 55, 250, 165, 167, 252, 225, 93, 29, 220, 185, 234, 234, 234, 55, 118, 103,
      184], rfl⟩
  else if data = ascii "b" then
    ⟨[233, 215, 31, 94, 231, 201, 45, 109, 201, 46, 159, 253, 173, 23, 184, 189, 73, 65, 143,
      152], rfl⟩
  else ⟨List.replicate 20 0, rfl⟩

example : getSha1 digestLetters (ascii "a") =
    ascii "86f7e437faa5a7fce15d1ddcb9eaeaea377667b8" := by
  decide +kernel

theorem contents_identified_letters :
    (receivedInfo .oldestFirst digestLetters (ascii "x") (ascii "a")).hash ≠
        (receivedInfo .oldestFirst digestLetters (ascii "x") (ascii "b")).hash := by
  have letters {letter : Bytes} (blocks_eq : blocks blockSize letter = [letter])
      (member : letter ∈ ({ascii "a", ascii "b"} : Set Bytes)) :
      ∀ block ∈ blocks blockSize letter, block ∈ ({ascii "a", ascii "b"} : Set Bytes) := by
    intro block isBlock
    rw [blocks_eq] at isBlock
    rw [List.mem_singleton.mp isBlock]
    exact member
  have injective : Set.InjOn digestLetters {ascii "a", ascii "b"} := by
    rintro block (rfl | rfl) other (rfl | rfl) same
    · rfl
    · exact absurd same (by decide)
    · exact absurd same (by decide)
    · rfl
  have identified := (contents_identified (letters (by rfl) (Or.inl rfl))
    (letters (by rfl) (Or.inr rfl)) injective).2 .oldestFirst (ascii "x") (ascii "x")
    (by decide) (by decide)
  intro same
  exact absurd (identified.1.mp same) (by decide)

end P2PFileShare
