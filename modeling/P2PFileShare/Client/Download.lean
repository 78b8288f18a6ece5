import P2PFileShare.Client.FileIO

/-!
# Downloads

`client/partfile.cpp` and the worker of `client/downloadmanager.cpp`.  The sets
of a part file tell which pieces are done; the bytes go to the output file, at
the place of the first block with the hash of the piece.
-/

namespace P2PFileShare

open Container Text Storage

structure PartFile where
  groupId : Bytes
  fileInfo : FileInfo
  downloadedPieces : UnorderedSet Bytes := {}
  remainingPieces : UnorderedSet Bytes := {}

namespace PartFile

/-- The constructor. -/
def create (groupId : Bytes) (fileInfo : FileInfo) (allDownloaded : Bool) : PartFile :=
  let pieces := fileInfo.pieces.foldl UnorderedSet.insert {}
  if allDownloaded then { groupId, fileInfo, downloadedPieces := pieces }
  else { groupId, fileInfo, remainingPieces := pieces }

/-- `PartFile::is_complete`. -/
def isComplete (partFile : PartFile) : Bool :=
  partFile.remainingPieces.toList.isEmpty

/-- `PartFile::mark_downloaded`. -/
def markDownloaded (partFile : PartFile) (piece : Bytes) : Bool × PartFile :=
  if piece ∈ partFile.downloadedPieces then (false, partFile)
  else
    (true, { partFile with
      downloadedPieces := partFile.downloadedPieces.insert piece
      remainingPieces := partFile.remainingPieces.erase piece })

end PartFile

/-- A download in progress: the part file, and the output file if it exists. -/
structure Download where
  partFile : PartFile
  disk : Option Bytes := none

/-- What one attempt at one peer meets: the reply, or the network error that ends
it; the value of `status` when the reply gives none; and whether the output file
can be opened. -/
structure Exchange where
  reply : Except NetworkError Bytes
  unassigned : Int := 0
  opened : Bool := true

/-- The request for a piece. -/
def getRequest (partFile : PartFile) (missingPiece : Bytes) : Bytes :=
  ascii "get " ++ partFile.groupId ++ ascii " " ++ partFile.fileInfo.name ++ ascii " " ++
    missingPiece

/-- `DownloadManager::download_piece`, over the peers that have the file. -/
def downloadPiece (sha1 : Bytes → Bytes) (download : Download) (missingPiece : Bytes) :
    List (Bytes → Exchange) → Except Exception Download
  | [] => .ok download
  | peer :: peers =>
      let exchange := peer (getRequest download.partFile missingPiece)
      match exchange.reply with
      | .error .connectionClosedError => downloadPiece sha1 download missingPiece peers
      | .error error => .error (.network error)
      | .ok response =>
          let (status, _) := (Stream.ofText response).extractInt exchange.unassigned
          if status = 1 then
            match substr response (some 2) with
            | .error error => .error (.std error)
            | .ok pieceData =>
                if isPieceValid sha1 missingPiece pieceData then
                  match writePieceToFile exchange.opened download.disk
                      (getPieceIndex download.partFile.fileInfo missingPiece) blockSize
                      pieceData with
                  | .error error => .error error
                  | .ok written =>
                      .ok { partFile := (download.partFile.markDownloaded missingPiece).2
                            disk := some written }
                else downloadPiece sha1 download missingPiece peers
          else downloadPiece sha1 download missingPiece peers

/-- A download as `enqueue_download` leaves it: nothing is done, and the output
file does not exist. -/
def Download.enqueue (groupId : Bytes) (fileInfo : FileInfo) : Download where
  partFile := PartFile.create groupId fileInfo false

/-- The states of a download that the worker can reach.  One visit asks peers, in
any order and with any replies, for any one of the remaining pieces.  The data
that is hashed comes from the set `involved`. -/
inductive Download.Reachable (sha1 : Bytes → Bytes) (involved : Set Bytes) (start : Download) :
    Download → Prop
  | enqueued : Reachable sha1 involved start start
  | visit {download next : Download} {piece : Bytes} {peers : List (Bytes → Exchange)} :
      Reachable sha1 involved start download →
        piece ∈ download.partFile.remainingPieces →
          (∀ peer ∈ peers, ∀ response,
            (peer (getRequest download.partFile piece)).reply = .ok response →
              response.drop 2 ∈ involved) →
            downloadPiece sha1 download piece peers = .ok next →
              Reachable sha1 involved start next

section Completion

variable {partFile : PartFile}

theorem PartFile.isComplete_iff :
    partFile.isComplete = true ↔ ∀ piece, piece ∉ partFile.remainingPieces := by
  rw [PartFile.isComplete, List.isEmpty_iff, List.eq_nil_iff_forall_not_mem]
  exact Iff.rfl

theorem PartFile.isComplete_iff_length :
    partFile.isComplete = true ↔ partFile.remainingPieces.toList.length = 0 := by
  rw [PartFile.isComplete, List.isEmpty_iff, List.length_eq_zero_iff]

theorem PartFile.isComplete_iff_order (iteration : IterationOrder) :
    partFile.isComplete = true ↔ iteration.order partFile.remainingPieces = [] := by
  rw [PartFile.isComplete_iff_length, ← (iteration.perm _).length_eq, List.length_eq_zero_iff]

theorem PartFile.incomplete_of_mem {piece : Bytes} (remains : piece ∈ partFile.remainingPieces) :
    partFile.isComplete = false := by
  rw [Bool.eq_false_iff]
  exact fun complete => PartFile.isComplete_iff.mp complete piece remains

end Completion

/-! ## What one visit can do -/

/-- One of the peers replied with data that has the hash of the piece; it was
written at the index of the piece, and the piece was marked. -/
def Download.Writes (sha1 : Bytes → Bytes) (download : Download) (piece : Bytes)
    (peers : List (Bytes → Exchange)) (next : Download) : Prop :=
  ∃ peer ∈ peers, ∃ response,
    (peer (getRequest download.partFile piece)).reply = .ok response ∧
      sha1 (response.drop 2) = piece ∧
        next = { partFile := (download.partFile.markDownloaded piece).2
                 disk := some (writeAt 0 (download.disk.getD [])
                   (seek (getPieceIndex download.partFile.fileInfo piece * blockSize))
                   (response.drop 2)) }

/-- The reply is data with the hash of the piece, behind the number one. -/
def Exchange.Delivers (sha1 : Bytes → Bytes) (piece : Bytes) (exchange : Exchange) : Prop :=
  ∃ response, exchange.reply = .ok response ∧
    ((Stream.ofText response).extractInt exchange.unassigned).1 = 1 ∧
      2 ≤ response.length ∧ sha1 (response.drop 2) = piece

/-- The exchange ends the visit with an exception: a network error other than a closed
connection, or the status 1 without room for data behind it. -/
def Exchange.Fatal (exchange : Exchange) : Prop :=
  match exchange.reply with
  | .error error => error ≠ .connectionClosedError
  | .ok response =>
      ((Stream.ofText response).extractInt exchange.unassigned).1 = 1 ∧ response.length < 2

/-- The download with the data of a piece written and the piece marked. -/
def Download.stored (download : Download) (piece data : Bytes) : Download where
  partFile := (download.partFile.markDownloaded piece).2
  disk := some (writeAt 0 (download.disk.getD [])
    (seek (getPieceIndex download.partFile.fileInfo piece * blockSize)) data)

/-- Behind the number one and a space stands the data. -/
theorem status_of_served (data : Bytes) (unassigned : Int) :
    ((Stream.ofText (ascii "1 " ++ data)).extractInt unassigned).1 = 1 := by
  have shape : ascii "1 " ++ data = Text.toString 1 ++ 32 :: data := rfl
  rw [shape, Stream.ofText_eq_reading, Stream.extractInt_toString _ (by decide) (by rfl)]
  rfl

theorem substr_of_served (data : Bytes) : substr (ascii "1 " ++ data) (some 2) = .ok data := by
  have long : 2 ≤ (ascii "1 " ++ data).length := by
    simp [ascii]
  rw [substr, if_pos long]
  rfl

section Outcome

variable {sha1 : Bytes → Bytes} {download next : Download} {piece : Bytes}
  {peer : Bytes → Exchange} {peers : List (Bytes → Exchange)}

/-- A peer that delivers the piece is the last one that is asked. -/
theorem downloadPiece_delivers (peers : List (Bytes → Exchange))
    (delivers : (peer (getRequest download.partFile piece)).Delivers sha1 piece) :
    ∃ response, (peer (getRequest download.partFile piece)).reply = .ok response ∧
      sha1 (response.drop 2) = piece ∧
      downloadPiece sha1 download piece (peer :: peers) =
        if (peer (getRequest download.partFile piece)).opened then
          .ok (download.stored piece (response.drop 2))
        else .error .runtimeError := by
  obtain ⟨response, reply, status, long, hash⟩ := delivers
  have valid : isPieceValid sha1 piece (response.drop 2) = true := beq_iff_eq.mpr hash.symm
  have behind : substr response (some 2) = .ok (response.drop 2) := by
    rw [substr, if_pos long]
  refine ⟨response, reply, hash, ?_⟩
  simp only [downloadPiece, reply, status, behind, valid, if_true, writePieceToFile]
  cases (peer (getRequest download.partFile piece)).opened with
  | true => rfl
  | false => rfl

/-- After a fatal exchange, no peer is asked. -/
theorem downloadPiece_fatal (sha1 : Bytes → Bytes) (peers : List (Bytes → Exchange))
    (fatal : (peer (getRequest download.partFile piece)).Fatal) :
    ∃ exception, downloadPiece sha1 download piece (peer :: peers) = .error exception := by
  rw [Exchange.Fatal] at fatal
  simp only [downloadPiece]
  cases reply : (peer (getRequest download.partFile piece)).reply with
  | error error =>
      rw [reply] at fatal
      cases error with
      | connectionClosedError => exact absurd rfl fatal
      | _ => exact ⟨_, rfl⟩
  | ok response =>
      rw [reply] at fatal
      have behind : substr response (some 2) = .error .outOfRange := by
        rw [substr, if_neg (Nat.not_le.mpr fatal.2)]
      simp only [fatal.1, behind, if_true]
      exact ⟨_, rfl⟩

/-- After every other peer, the next ones are asked as if it were not there. -/
theorem downloadPiece_useless (peers : List (Bytes → Exchange))
    (harmless : ¬(peer (getRequest download.partFile piece)).Fatal)
    (useless : ¬(peer (getRequest download.partFile piece)).Delivers sha1 piece) :
    downloadPiece sha1 download piece (peer :: peers) =
      downloadPiece sha1 download piece peers := by
  rw [Exchange.Fatal] at harmless
  simp only [downloadPiece]
  cases reply : (peer (getRequest download.partFile piece)).reply with
  | error error =>
      rw [reply] at harmless
      rw [not_ne_iff.mp harmless]
  | ok response =>
      rw [reply] at harmless
      dsimp only
      split
      · next status =>
          have long : 2 ≤ response.length := by
            rw [← Nat.not_lt]
            exact fun short => harmless ⟨status, short⟩
          have behind : substr response (some 2) = .ok (response.drop 2) := by
            rw [substr, if_pos long]
          have invalid : ¬isPieceValid sha1 piece (response.drop 2) = true := fun valid =>
            useless ⟨response, reply, status, long, (beq_iff_eq.mp valid).symm⟩
          simp only [behind, if_neg invalid]
      · rfl

/-- A visit that ends well ends with the first peer if that delivers the piece, and with
the other ones if it does not. -/
theorem downloadPiece_cons (visit : downloadPiece sha1 download piece (peer :: peers) = .ok next) :
    ((peer (getRequest download.partFile piece)).Delivers sha1 piece ∧
        download.Writes sha1 piece [peer] next) ∨
      ¬(peer (getRequest download.partFile piece)).Delivers sha1 piece ∧
        downloadPiece sha1 download piece peers = .ok next := by
  by_cases delivers : (peer (getRequest download.partFile piece)).Delivers sha1 piece
  · obtain ⟨response, reply, hash, outcome⟩ := downloadPiece_delivers peers delivers
    rw [visit] at outcome
    split at outcome
    · obtain rfl := Except.ok.inj outcome
      exact Or.inl ⟨delivers, peer, List.mem_singleton_self peer, response, reply, hash, rfl⟩
    · cases outcome
  · refine Or.inr ⟨delivers, ?_⟩
    by_cases fatal : (peer (getRequest download.partFile piece)).Fatal
    · obtain ⟨exception, thrown⟩ := downloadPiece_fatal sha1 peers fatal
      rw [visit] at thrown
      cases thrown
    · rw [← downloadPiece_useless peers fatal delivers]
      exact visit

/-- A visit that ends well has written the piece, if any of the peers delivered it, and
has done nothing otherwise. -/
theorem downloadPiece_outcome (visit : downloadPiece sha1 download piece peers = .ok next) :
    (next = download ∧
        ∀ peer ∈ peers, ¬(peer (getRequest download.partFile piece)).Delivers sha1 piece) ∨
      download.Writes sha1 piece peers next ∧
        ∃ peer ∈ peers, (peer (getRequest download.partFile piece)).Delivers sha1 piece := by
  induction peers with
  | nil =>
      simp only [downloadPiece, Except.ok.injEq] at visit
      exact Or.inl ⟨visit.symm, by simp⟩
  | cons peer peers ih =>
      rcases downloadPiece_cons visit with ⟨delivers, written⟩ | ⟨useless, later⟩
      · right
        rcases written with ⟨_, member, rest⟩
        rw [List.mem_singleton] at member
        subst member
        exact ⟨⟨_, List.mem_cons_self, rest⟩, _, List.mem_cons_self, delivers⟩
      · rcases ih later with ⟨same, none⟩ | ⟨⟨other, member, rest⟩, found, foundMember, delivers⟩
        · exact Or.inl ⟨same, List.forall_mem_cons.mpr ⟨useless, none⟩⟩
        · exact Or.inr ⟨⟨other, List.mem_cons_of_mem peer member, rest⟩,
            found, List.mem_cons_of_mem peer foundMember, delivers⟩

theorem downloadPiece_cases (visit : downloadPiece sha1 download piece peers = .ok next) :
    next = download ∨ download.Writes sha1 piece peers next := by
  rcases downloadPiece_outcome visit with ⟨same, _⟩ | ⟨written, _⟩
  · exact Or.inl same
  · exact Or.inr written

end Outcome

/-! ## The invariant of the loop -/

/-- Marked and remaining pieces make up the file, and exactly the blocks of the
marked pieces are in the output file. -/
structure Download.Consistent (sha1 : Bytes → Bytes) (name content : Bytes)
    (download : Download) : Prop where
  fileInfo : download.partFile.fileInfo = getFileInfo sha1 name content
  disjoint : ∀ piece ∈ download.partFile.downloadedPieces,
    piece ∉ download.partFile.remainingPieces
  cover : ∀ piece, piece ∈ download.partFile.downloadedPieces ∨
      piece ∈ download.partFile.remainingPieces ↔ piece ∈ download.partFile.fileInfo.pieces
  written : Patched 0 blockSize content
    (fun index => ∃ piece ∈ download.partFile.downloadedPieces,
      index = getPieceIndex download.partFile.fileInfo piece)
    (download.disk.getD [])

theorem PartFile.mem_insertAll {pieces : List Bytes} {set : UnorderedSet Bytes} {piece : Bytes} :
    piece ∈ pieces.foldl UnorderedSet.insert set ↔ piece ∈ pieces ∨ piece ∈ set := by
  induction pieces generalizing set with
  | nil => simp
  | cons first pieces ih =>
      rw [List.foldl_cons, ih, UnorderedSet.mem_insert, List.mem_cons]
      tauto

section Invariant

variable {sha1 : Bytes → Bytes} {name content : Bytes} {involved : Set Bytes}

theorem Download.consistent_enqueue (groupId : Bytes) :
    Download.Consistent sha1 name content
      (Download.enqueue groupId (getFileInfo sha1 name content)) where
  fileInfo := rfl
  disjoint piece member := absurd member (UnorderedSet.not_mem_empty piece)
  cover piece := by
    have nothing : piece ∉ ({} : UnorderedSet Bytes) := UnorderedSet.not_mem_empty piece
    simp [Download.enqueue, PartFile.create, PartFile.mem_insertAll, nothing]
  written := by
    apply Patched.nothing.congr
    intro index
    constructor
    · exact False.elim
    · rintro ⟨piece, member, _⟩
      exact UnorderedSet.not_mem_empty piece member

/-- An offset within a file of regular size is reached. -/
theorem seek_eq {offset : Nat} (small : offset < 2 ^ 63) : seek offset = offset := by
  have noWrap : offset % 2 ^ 64 = offset := Nat.mod_eq_of_lt (by omega)
  rw [seek, noWrap, if_pos small]

/-- Data with the hash of a piece is the block of the piece. -/
theorem Download.Consistent.visit {download next : Download} {piece : Bytes}
    {peers : List (Bytes → Exchange)} (consistent : download.Consistent sha1 name content)
    (size : content.length < 2 ^ 63)
    (blocksInvolved : ∀ block ∈ blocks blockSize content, block ∈ involved)
    (injective : Set.InjOn sha1 involved)
    (remains : piece ∈ download.partFile.remainingPieces)
    (replies : ∀ peer ∈ peers, ∀ response,
      (peer (getRequest download.partFile piece)).reply = .ok response →
        response.drop 2 ∈ involved)
    (visit : downloadPiece sha1 download piece peers = .ok next) :
    next.Consistent sha1 name content := by
  rcases downloadPiece_cases visit with rfl | ⟨peer, member, response, reply, hash_eq, rfl⟩
  · exact consistent
  have isPiece := (consistent.cover piece).mp (Or.inr remains)
  have fresh : piece ∉ download.partFile.downloadedPieces := fun marked =>
    consistent.disjoint piece marked remains
  rw [consistent.fileInfo] at isPiece
  obtain ⟨block, found, blockHash⟩ := getPieceIndex_spec isPiece
  have data_eq : response.drop 2 = block := by
    apply injective (replies peer member response reply)
      (blocksInvolved block (List.mem_of_getElem? found))
    rw [hash_eq, blockHash]
  have inside := ((blocks_eq_some_iff blockSize_pos).mp found).1
  have marked : (download.partFile.markDownloaded piece).2 =
      { download.partFile with
        downloadedPieces := download.partFile.downloadedPieces.insert piece
        remainingPieces := download.partFile.remainingPieces.erase piece } := by
    simp only [PartFile.markDownloaded, if_neg fresh]
  rw [marked, data_eq, consistent.fileInfo, seek_eq (by omega)]
  constructor
  · exact consistent.fileInfo
  · intro other isMarked
    simp only [UnorderedSet.mem_insert, UnorderedSet.mem_erase] at isMarked ⊢
    rintro ⟨stays, distinct⟩
    exact consistent.disjoint other (isMarked.resolve_left distinct) stays
  · intro other
    rw [← consistent.cover other, UnorderedSet.mem_insert, UnorderedSet.mem_erase]
    by_cases same : other = piece
    · subst same
      simp [remains]
    · simp [same]
  · apply (consistent.written.write blockSize_pos found).congr
    intro index
    simp only [UnorderedSet.mem_insert, consistent.fileInfo]
    constructor
    · rintro (here | ⟨other, isMarked, here⟩)
      · exact ⟨piece, Or.inl rfl, here⟩
      · exact ⟨other, Or.inr isMarked, here⟩
    · rintro ⟨other, rfl | isMarked, here⟩
      · exact Or.inl here
      · exact Or.inr ⟨other, isMarked, here⟩

/-- The invariant holds of every state that the worker reaches. -/
theorem Download.Reachable.consistent {groupId : Bytes} {download : Download}
    (size : content.length < 2 ^ 63)
    (blocksInvolved : ∀ block ∈ blocks blockSize content, block ∈ involved)
    (injective : Set.InjOn sha1 involved)
    (reachable : Download.Reachable sha1 involved
      (Download.enqueue groupId (getFileInfo sha1 name content)) download) :
    download.Consistent sha1 name content := by
  induction reachable with
  | enqueued => exact Download.consistent_enqueue groupId
  | visit _ remains replies visit ih =>
      exact ih.visit size blocksInvolved injective remains replies visit

/-- What peers cannot change about a download: marked and remaining pieces are
disjoint and make up the file, the block of every marked piece is in the output
file at its place, and every byte outside these blocks is zero. -/
structure Download.Uncorrupted (sha1 : Bytes → Bytes) (name content : Bytes)
    (download : Download) : Prop where
  disjoint : ∀ piece ∈ download.partFile.downloadedPieces,
    piece ∉ download.partFile.remainingPieces
  cover : ∀ piece, piece ∈ download.partFile.downloadedPieces ∨
    piece ∈ download.partFile.remainingPieces ↔ piece ∈ (getFileInfo sha1 name content).pieces
  block : ∀ piece ∈ download.partFile.downloadedPieces, ∃ block,
    (blocks blockSize content)[getPieceIndex (getFileInfo sha1 name content) piece]? = some block ∧
      ((download.disk.getD []).drop
        (getPieceIndex (getFileInfo sha1 name content) piece * blockSize)).take block.length = block
  zero : ∀ position byte, (download.disk.getD [])[position]? = some byte →
    (∀ piece ∈ download.partFile.downloadedPieces, ∀ block,
      (blocks blockSize content)[getPieceIndex (getFileInfo sha1 name content) piece]? =
          some block →
        ¬(getPieceIndex (getFileInfo sha1 name content) piece * blockSize ≤ position ∧
          position < getPieceIndex (getFileInfo sha1 name content) piece * blockSize +
            block.length)) →
      byte = 0

/-- No peer can corrupt a download, in any state that the worker reaches. -/
theorem download_uncorrupted {groupId : Bytes} {download : Download}
    (size : content.length < 2 ^ 63)
    (blocksInvolved : ∀ block ∈ blocks blockSize content, block ∈ involved)
    (injective : Set.InjOn sha1 involved)
    (reachable : Download.Reachable sha1 involved
      (Download.enqueue groupId (getFileInfo sha1 name content)) download) :
    download.Uncorrupted sha1 name content := by
  have consistent := reachable.consistent size blocksInvolved injective
  have cover := consistent.cover
  have written := consistent.written
  rw [consistent.fileInfo] at cover written
  constructor
  · exact consistent.disjoint
  · exact cover
  · intro piece isMarked
    rcases getPieceIndex_spec ((cover piece).mp (Or.inl isMarked)) with ⟨block, found, _⟩
    exact ⟨block, found, written.read_block blockSize_pos ⟨piece, isMarked, rfl⟩ found⟩
  · intro position byte value away
    have zeroThere : (download.disk.getD []).getD position 0 = 0 := by
      apply written.outside
      rintro ⟨inside, piece, isMarked, here⟩
      obtain ⟨block, found, start, stop⟩ := exists_block blockSize_pos inside
      rw [here] at found start stop
      exact away piece isMarked block found ⟨start, stop⟩
    rw [List.getD_eq_getElem?_getD, value, Option.getD_some] at zeroThere
    exact zeroThere

/-- A peer that has the block serves it. -/
theorem downloadPiece_served (download : Download) (block : Bytes) :
    downloadPiece sha1 download (sha1 block) [fun _ => { reply := .ok (ascii "1 " ++ block) }] =
      .ok { partFile := (download.partFile.markDownloaded (sha1 block)).2
            disk := some (writeAt 0 (download.disk.getD [])
              (seek (getPieceIndex download.partFile.fileInfo (sha1 block) * blockSize))
              block) } := by
  have valid : isPieceValid sha1 (sha1 block) block = true := beq_self_eq_true _
  simp only [downloadPiece, status_of_served, substr_of_served, valid, if_true, writePieceToFile]

/-- So it is one visit further that the block is downloaded. -/
theorem Download.Reachable.served {start download : Download} {block : Bytes}
    (reachable : Download.Reachable sha1 involved start download)
    (remains : sha1 block ∈ download.partFile.remainingPieces) (inside : block ∈ involved) :
    ∃ next, Download.Reachable sha1 involved start next ∧
      next.partFile = (download.partFile.markDownloaded (sha1 block)).2 := by
  refine ⟨_, reachable.visit remains ?_ (downloadPiece_served download block), rfl⟩
  intro peer member response reply
  rw [List.mem_singleton.mp member] at reply
  obtain rfl := Except.ok.inj reply
  exact inside

end Invariant

/-! ## A file of one letter -/

/-- SHA-1 of one letter, in hexadecimal. -/
def sha1Letter (data : Bytes) : Bytes :=
  if data = ascii "a" then ascii "86f7e437faa5a7fce15d1ddcb9eaeaea377667b8" else []

theorem blocks_letter : blocks blockSize (ascii "a") = [ascii "a"] := by
  decide +kernel

/-! ## A file of two blocks -/

def fullBlock : Bytes :=
  List.replicate blockSize 97

/-- One byte more than a block. -/
def blockAndByte : Bytes :=
  List.replicate (blockSize + 1) 97

/-- SHA-1 of the two blocks of it, in hexadecimal. -/
def sha1Blocks (data : Bytes) : Bytes :=
  if data = ascii "a" then ascii "86f7e437faa5a7fce15d1ddcb9eaeaea377667b8"
  else if data = fullBlock then ascii "f7fec128d7fcd59222ba37368d3b7210d4c7b6ef"
  else []

def blockAndByteInfo : FileInfo where
  name := ascii "f"
  size := 524289
  pieces :=
    [ascii "f7fec128d7fcd59222ba37368d3b7210d4c7b6ef",
      ascii "86f7e437faa5a7fce15d1ddcb9eaeaea377667b8"]
  hash := ascii "f7fec128d7fcd59222ba37368d3b7210d4c7b6ef" ++
    ascii "86f7e437faa5a7fce15d1ddcb9eaeaea377667b8"

theorem length_blockAndByte : blockAndByte.length = blockSize + 1 :=
  List.length_replicate

theorem blockAndByte_ne_nil : blockAndByte ≠ [] :=
  List.ne_nil_of_length_eq_add_one length_blockAndByte

theorem length_blockAndByte_lt : blockAndByte.length < 2 ^ 63 := by
  rw [length_blockAndByte]
  decide

theorem length_fullBlock_ne : fullBlock.length ≠ (ascii "a").length := by
  rw [fullBlock, List.length_replicate]
  decide

theorem sha1Blocks_fullBlock :
    sha1Blocks fullBlock = ascii "f7fec128d7fcd59222ba37368d3b7210d4c7b6ef" := by
  rw [sha1Blocks, if_neg (ne_of_apply_ne List.length length_fullBlock_ne), if_pos rfl]

theorem blocks_blockAndByte : blocks blockSize blockAndByte = [fullBlock, ascii "a"] := by
  have positive := blockSize_pos
  apply List.ext_getElem?
  rintro (_ | _ | index)
  · rw [getElem?_blocks positive, length_blockAndByte, if_pos (by omega), Nat.zero_mul,
      List.drop_zero, blockAndByte, List.take_replicate, Nat.min_eq_left (Nat.le_succ _)]
    rfl
  · rw [getElem?_blocks positive, length_blockAndByte, if_pos (by omega), Nat.zero_add,
      Nat.one_mul, blockAndByte, List.drop_replicate, Nat.add_sub_cancel_left,
      List.take_replicate, Nat.min_eq_right positive]
    rfl
  · have behind : blockSize + 1 ≤ (index + 2) * blockSize := by
      rw [Nat.add_mul]
      omega
    rw [getElem?_blocks positive, length_blockAndByte, if_neg (Nat.not_lt_of_le behind)]
    rfl

theorem getFileInfo_blockAndByte :
    getFileInfo sha1Blocks (ascii "f") blockAndByte = blockAndByteInfo := by
  have byte : sha1Blocks (ascii "a") = ascii "86f7e437faa5a7fce15d1ddcb9eaeaea377667b8" :=
    if_pos rfl
  simp only [getFileInfo, blocks_blockAndByte, length_blockAndByte, List.map_cons, List.map_nil,
    sha1Blocks_fullBlock, byte]
  rfl

theorem blockAndByte_mem_involved :
    ∀ block ∈ blocks blockSize blockAndByte, block ∈ ({fullBlock, ascii "a"} : Set Bytes) := by
  intro block member
  rw [blocks_blockAndByte] at member
  simpa using member

theorem sha1Blocks_injOn : Set.InjOn sha1Blocks {fullBlock, ascii "a"} := by
  have byte : sha1Blocks (ascii "a") = ascii "86f7e437faa5a7fce15d1ddcb9eaeaea377667b8" :=
    if_pos rfl
  have different : sha1Blocks fullBlock ≠ sha1Blocks (ascii "a") := by
    rw [sha1Blocks_fullBlock, byte]
    decide
  rintro _ (rfl | rfl) _ (rfl | rfl) same
  · rfl
  · exact absurd same different
  · exact absurd same.symm different
  · rfl

/-- The second block is served, and the first one is still missing. -/
def byteServed : Download where
  partFile := ((PartFile.create (ascii "g") blockAndByteInfo false).markDownloaded
    (sha1Blocks (ascii "a"))).2
  disk := some (writeAt 0 [] blockSize (ascii "a"))

theorem byteServed_reachable :
    Download.Reachable sha1Blocks {fullBlock, ascii "a"}
      (Download.enqueue (ascii "g") (getFileInfo sha1Blocks (ascii "f") blockAndByte))
      byteServed := by
  rw [getFileInfo_blockAndByte]
  have remains : sha1Blocks (ascii "a") ∈
      (Download.enqueue (ascii "g") blockAndByteInfo).partFile.remainingPieces := by
    decide +kernel
  have served : downloadPiece sha1Blocks (Download.enqueue (ascii "g") blockAndByteInfo)
      (sha1Blocks (ascii "a")) [fun _ => { reply := .ok (ascii "1 " ++ ascii "a") }] =
        .ok byteServed := by
    have place : seek (getPieceIndex
        (Download.enqueue (ascii "g") blockAndByteInfo).partFile.fileInfo
        (sha1Blocks (ascii "a")) * blockSize) = blockSize := by
      decide +kernel
    rw [downloadPiece_served, place]
    rfl
  apply Download.Reachable.enqueued.visit remains _ served
  intro peer member response reply
  rw [List.mem_singleton.mp member] at reply
  obtain rfl := Except.ok.inj reply
  exact Or.inr rfl

theorem download_uncorrupted_byte :
    sha1Blocks (ascii "a") ∈ byteServed.partFile.downloadedPieces ∧
      sha1Blocks fullBlock ∈ byteServed.partFile.remainingPieces ∧
        byteServed.Uncorrupted sha1Blocks (ascii "f") blockAndByte := by
  refine ⟨by decide +kernel, ?_, download_uncorrupted length_blockAndByte_lt
    blockAndByte_mem_involved sha1Blocks_injOn byteServed_reachable⟩
  rw [sha1Blocks_fullBlock]
  decide +kernel

end P2PFileShare
