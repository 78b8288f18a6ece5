import P2PFileShare.Client.Databases

/-!
# Failing over to the next peer

`download_piece` asks one peer after another.  A peer that is not there, that refuses, or
that sends other data is skipped.  Two kinds of peers are not: one whose connection fails
with another error than a closed connection, and one that says it has the piece and sends
no data behind that.  They end the visit, whoever comes after them.
-/

namespace P2PFileShare

open Container Text Storage

/-- The part files that come from the constructor and `mark_downloaded` on their own
pieces. -/
inductive PartFile.Made : PartFile → Prop
  | create (groupId : Bytes) (fileInfo : FileInfo) (allDownloaded : Bool) :
      Made (PartFile.create groupId fileInfo allDownloaded)
  | mark {partFile : PartFile} {piece : Bytes} :
      Made partFile → piece ∈ partFile.fileInfo.pieces → Made (partFile.markDownloaded piece).2

/-- No bad element comes before the first good one. -/
def Guarded {α : Type} (bad good : α → Prop) : List α → Prop
  | [] => True
  | first :: rest => ¬bad first ∧ (good first ∨ Guarded bad good rest)

/-- The reply is the number one, a space and data with the hash of the piece. -/
def Exchange.Serves (sha1 : Bytes → Bytes) (piece : Bytes) (exchange : Exchange) : Prop :=
  ∃ data, exchange.reply = .ok (ascii "1 " ++ data) ∧ sha1 data = piece

namespace Download

variable (sha1 : Bytes → Bytes) (download : Download) (piece : Bytes)
  (peers : List (Bytes → Exchange))

/-- What the peers do when they are asked for the piece. -/
def exchanges : List Exchange :=
  peers.map fun peer => peer (getRequest download.partFile piece)

/-- If a peer serves the piece, data of its hash is written at its place, and the piece is
moved to the downloaded ones.  If none does, nothing changes. -/
def FailsOver : Prop :=
  ((∃ exchange ∈ download.exchanges piece peers, exchange.Serves sha1 piece) →
    ∃ data, sha1 data = piece ∧
      downloadPiece sha1 download piece peers = .ok
        { partFile := { download.partFile with
            downloadedPieces := download.partFile.downloadedPieces.insert piece
            remainingPieces := download.partFile.remainingPieces.erase piece }
          disk := some (writeAt 0 (download.disk.getD [])
            (seek (getPieceIndex download.partFile.fileInfo piece * blockSize)) data) }) ∧
  ((¬∃ exchange ∈ download.exchanges piece peers, exchange.Serves sha1 piece) →
    downloadPiece sha1 download piece peers = .ok download)

end Download

section Failover

variable {sha1 : Bytes → Bytes} {download : Download} {piece : Bytes}
  {peers : List (Bytes → Exchange)}

/-- Pieces are downloaded or they remain, and never both. -/
theorem PartFile.Made.disjoint {partFile : PartFile} (made : partFile.Made) :
    ∀ piece ∈ partFile.downloadedPieces, piece ∉ partFile.remainingPieces := by
  induction made with
  | create groupId fileInfo allDownloaded =>
      intro piece marked remains
      have done := (PartFile.mem_create.1.mp marked).1
      rw [(PartFile.mem_create.2.mp remains).1] at done
      cases done
  | @mark partFile piece _ _ ih => exact PartFile.markDownloaded_disjoint piece ih

theorem PartFile.markDownloaded_fresh {partFile : PartFile}
    (fresh : piece ∉ partFile.downloadedPieces) :
    (partFile.markDownloaded piece).2 = { partFile with
      downloadedPieces := partFile.downloadedPieces.insert piece
      remainingPieces := partFile.remainingPieces.erase piece } := by
  simp only [PartFile.markDownloaded, if_neg fresh]

/-- Who serves a piece delivers it. -/
theorem Exchange.Serves.delivers {exchange : Exchange} (serves : exchange.Serves sha1 piece) :
    exchange.Delivers sha1 piece := by
  obtain ⟨data, reply, hash⟩ := serves
  obtain ⟨long, behind⟩ := substr_eq_ok (substr_of_served data)
  refine ⟨_, reply, status_of_served data _, long, ?_⟩
  rw [behind]
  exact hash

/-- Who delivers a piece is not fatal. -/
theorem Exchange.Delivers.harmless {exchange : Exchange}
    (delivers : exchange.Delivers sha1 piece) : ¬exchange.Fatal := by
  obtain ⟨response, reply, _, long, _⟩ := delivers
  rw [Exchange.Fatal, reply]
  exact fun fatal => absurd long (Nat.not_le.mpr fatal.2)

/-- The visit ends well exactly if no peer is fatal before the first one that delivers,
and then it ends as the first of these makes it. -/
theorem downloadPiece_spec (sha1 : Bytes → Bytes) (download : Download) (piece : Bytes)
    (peers : List (Bytes → Exchange))
    (opened : ∀ exchange ∈ download.exchanges piece peers, exchange.opened = true) :
    (Guarded Exchange.Fatal (Exchange.Delivers sha1 piece) (download.exchanges piece peers) ∧
      ((∃ exchange ∈ download.exchanges piece peers, exchange.Delivers sha1 piece) ∧
          (∃ data, sha1 data = piece ∧
            downloadPiece sha1 download piece peers = .ok (download.stored piece data)) ∨
        (¬∃ exchange ∈ download.exchanges piece peers, exchange.Delivers sha1 piece) ∧
          downloadPiece sha1 download piece peers = .ok download)) ∨
    (¬Guarded Exchange.Fatal (Exchange.Delivers sha1 piece) (download.exchanges piece peers) ∧
      ∃ exception, downloadPiece sha1 download piece peers = .error exception) := by
  induction peers with
  | nil => exact Or.inl ⟨trivial, Or.inr ⟨by simp [Download.exchanges], rfl⟩⟩
  | cons peer peers ih =>
      have here := opened _ List.mem_cons_self
      have rest := ih fun exchange member => opened exchange (List.mem_cons_of_mem _ member)
      by_cases fatal : (peer (getRequest download.partFile piece)).Fatal
      · exact Or.inr ⟨fun guarded => guarded.1 fatal, downloadPiece_fatal sha1 peers fatal⟩
      · by_cases delivers : (peer (getRequest download.partFile piece)).Delivers sha1 piece
        · obtain ⟨response, _, hash, outcome⟩ := downloadPiece_delivers peers delivers
          rw [if_pos here] at outcome
          exact Or.inl ⟨⟨fatal, Or.inl delivers⟩,
            Or.inl ⟨⟨_, List.mem_cons_self, delivers⟩, response.drop 2, hash, outcome⟩⟩
        · have guarded_iff : Guarded Exchange.Fatal (Exchange.Delivers sha1 piece)
                (download.exchanges piece (peer :: peers)) ↔
              Guarded Exchange.Fatal (Exchange.Delivers sha1 piece)
                (download.exchanges piece peers) :=
            ⟨fun guarded => guarded.2.resolve_left delivers, fun guarded => ⟨fatal, Or.inr guarded⟩⟩
          have delivers_iff : (∃ exchange ∈ download.exchanges piece (peer :: peers),
                exchange.Delivers sha1 piece) ↔
              ∃ exchange ∈ download.exchanges piece peers, exchange.Delivers sha1 piece := by
            simp only [Download.exchanges, List.map_cons, List.exists_mem_cons_iff, delivers,
              false_or]
          rw [guarded_iff, delivers_iff, downloadPiece_useless peers fatal delivers]
          exact rest

/-- A visit fails over exactly if no peer is fatal before the first one that delivers the
piece, and a piece is delivered only if some peer serves it. -/
theorem download_fails_over_iff (sha1 : Bytes → Bytes) (download : Download) (piece : Bytes)
    (peers : List (Bytes → Exchange)) (made : download.partFile.Made)
    (remains : piece ∈ download.partFile.remainingPieces)
    (opened : ∀ exchange ∈ download.exchanges piece peers, exchange.opened = true) :
    download.FailsOver sha1 piece peers ↔
      Guarded Exchange.Fatal (Exchange.Delivers sha1 piece) (download.exchanges piece peers) ∧
        ((∃ exchange ∈ download.exchanges piece peers, exchange.Delivers sha1 piece) →
          ∃ exchange ∈ download.exchanges piece peers, exchange.Serves sha1 piece) := by
  have fresh : piece ∉ download.partFile.downloadedPieces := fun marked =>
    made.disjoint piece marked remains
  have stored_ne (data : Bytes) : download.stored piece data ≠ download := by
    intro same
    have erased := congrArg (fun next => next.partFile.remainingPieces) same
    simp only [Download.stored, PartFile.markDownloaded_fresh fresh] at erased
    rw [← erased, UnorderedSet.mem_erase] at remains
    exact remains.2 rfl
  have delivered : (∃ exchange ∈ download.exchanges piece peers, exchange.Serves sha1 piece) →
      ∃ exchange ∈ download.exchanges piece peers, exchange.Delivers sha1 piece := by
    rintro ⟨exchange, member, serves⟩
    exact ⟨exchange, member, serves.delivers⟩
  rw [Download.FailsOver, ← PartFile.markDownloaded_fresh fresh]
  rcases downloadPiece_spec sha1 download piece peers opened with
    ⟨guarded, ⟨delivers, data, hash, outcome⟩ | ⟨useless, outcome⟩⟩ | ⟨unguarded, exception, thrown⟩
  · rw [and_iff_right guarded]
    constructor
    · rintro ⟨_, unchanged⟩ _
      by_contra unserved
      rw [outcome, Except.ok.injEq] at unchanged
      exact stored_ne data (unchanged unserved)
    · intro served
      exact ⟨fun _ => ⟨data, hash, outcome⟩, fun unserved => absurd (served delivers) unserved⟩
  · apply iff_of_true
    · exact ⟨fun serves => absurd (delivered serves) useless, fun _ => outcome⟩
    · exact ⟨guarded, fun delivers => absurd delivers useless⟩
  · apply iff_of_false
    · rintro ⟨written, unchanged⟩
      by_cases serves : ∃ exchange ∈ download.exchanges piece peers, exchange.Serves sha1 piece
      · obtain ⟨data, _, outcome⟩ := written serves
        rw [thrown] at outcome
        cases outcome
      · rw [thrown] at unchanged
        cases unchanged serves
    · exact fun condition => unguarded condition.1

/-- The download of a file of one letter. -/
def letterWanted : Download :=
  Download.enqueue (ascii "g") (getFileInfo sha1Letter (ascii "f") (ascii "a"))

def servingPeer (_ : Bytes) : Exchange where
  reply := .ok (ascii "1 " ++ ascii "a")

/-- Nobody listens there. -/
def refusingPeer (_ : Bytes) : Exchange where
  reply := .error .connectionClosedError

/-- Its network is down. -/
def unreachablePeer (_ : Bytes) : Exchange where
  reply := .error .networkError

theorem servingPeer_serves (request : Bytes) :
    (servingPeer request).Serves sha1Letter (sha1Letter (ascii "a")) :=
  ⟨ascii "a", rfl, rfl⟩

theorem download_fails_over_letter :
    letterWanted.FailsOver sha1Letter (sha1Letter (ascii "a")) [refusingPeer, servingPeer] := by
  have delivers := (servingPeer_serves (getRequest letterWanted.partFile
    (sha1Letter (ascii "a")))).delivers
  have made : letterWanted.partFile.Made :=
    .create (ascii "g") (getFileInfo sha1Letter (ascii "f") (ascii "a")) false
  refine (download_fails_over_iff sha1Letter letterWanted (sha1Letter (ascii "a"))
    [refusingPeer, servingPeer] made (by decide +kernel) ?_).mpr ⟨?_, ?_⟩
  · intro exchange member
    rcases List.mem_cons.mp member with rfl | member
    · rfl
    · rw [List.mem_singleton.mp member]
      rfl
  · exact ⟨fun fatal => fatal rfl, Or.inr ⟨delivers.harmless, Or.inl delivers⟩⟩
  · rintro _
    exact ⟨_, List.mem_cons_of_mem _ List.mem_cons_self, servingPeer_serves _⟩

/-- Behind the unreachable peer, the one that has the letter is never asked. -/
theorem download_stops_letter :
    (∃ exchange ∈ letterWanted.exchanges (sha1Letter (ascii "a")) [unreachablePeer, servingPeer],
        exchange.Serves sha1Letter (sha1Letter (ascii "a"))) ∧
      downloadPiece sha1Letter letterWanted (sha1Letter (ascii "a"))
          [unreachablePeer, servingPeer] = .error (.network .networkError) ∧
        ¬letterWanted.FailsOver sha1Letter (sha1Letter (ascii "a"))
          [unreachablePeer, servingPeer] := by
  have served : ∃ exchange ∈ letterWanted.exchanges (sha1Letter (ascii "a"))
      [unreachablePeer, servingPeer], exchange.Serves sha1Letter (sha1Letter (ascii "a")) :=
    ⟨_, List.mem_cons_of_mem _ List.mem_cons_self, servingPeer_serves _⟩
  have thrown : downloadPiece sha1Letter letterWanted (sha1Letter (ascii "a"))
      [unreachablePeer, servingPeer] = .error (.network .networkError) := rfl
  refine ⟨served, thrown, ?_⟩
  rintro ⟨written, _⟩
  obtain ⟨data, _, outcome⟩ := written served
  rw [thrown] at outcome
  cases outcome

end Failover

end P2PFileShare
