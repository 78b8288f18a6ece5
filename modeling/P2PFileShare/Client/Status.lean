import P2PFileShare.Client.Commands
import P2PFileShare.Client.Inventory
import P2PFileShare.Tracker.Listings

/-!
# What a client shows of its downloads

`DownloadManager::list_downloads` writes one line for each download.  What is read back from
these lines is how far every download is: numbers never fall, and a file that is complete
stays as it is.  The number of pieces counts a piece as often as the file holds it, while a
piece is downloaded once, so that a complete file may show fewer pieces than it has.
-/

namespace P2PFileShare

open Container Text Transition

/-- The status of an entry, as `DownloadManager::list_downloads` writes it.  `PieceCount` is
the number of hashes in the description. -/
def QueuedFile.status (entry : QueuedFile) : Bytes :=
  (if entry.isComplete then ascii "[C]" else ascii "[D]") ++
    ascii " " ++ entry.groupId ++ ascii " " ++ entry.fileInfo.name ++
    ascii " " ++ Text.toString entry.downloadedPieces.toList.length ++
    ascii "/" ++ Text.toString entry.fileInfo.pieces.length

/-- `DownloadManager::list_downloads`. -/
def ClientState.listDownloads (client : ClientState) : Bytes :=
  if client.downloads.isEmpty then ascii "Nothing to show\n"
  else client.downloads.flatMap fun entry => entry.status ++ ascii "\n"

/-! ## Reading the list -/

/-- What a line says about a download. -/
structure Shown where
  complete : Bool
  groupId : Bytes
  fileName : Bytes
  downloaded : Nat
  pieceCount : Nat
  deriving DecidableEq

namespace Shown

/-- A later line about the same download: it shows no less, and nothing else if the file was
complete. -/
structure Follows (earlier later : Shown) : Prop where
  groupId : later.groupId = earlier.groupId
  fileName : later.fileName = earlier.fileName
  pieceCount : later.pieceCount = earlier.pieceCount
  downloaded : earlier.downloaded ≤ later.downloaded
  complete : earlier.complete = true → later = earlier

theorem Follows.refl (shown : Shown) : shown.Follows shown :=
  ⟨rfl, rfl, rfl, Nat.le_refl _, fun _ => rfl⟩

theorem Follows.trans {first second third : Shown} (before : first.Follows second)
    (after : second.Follows third) : first.Follows third where
  groupId := after.groupId.trans before.groupId
  fileName := after.fileName.trans before.fileName
  pieceCount := after.pieceCount.trans before.pieceCount
  downloaded := before.downloaded.trans after.downloaded
  complete := by
    intro complete
    obtain rfl := before.complete complete
    exact after.complete complete

/-- The byte between the number of downloaded pieces and the number of all. -/
def slash : UInt8 :=
  47

/-- A line has four words, the last of which is a fraction. -/
def ofLine (line : Bytes) : Option Shown :=
  match line.splitOn 32 with
  | [mark, groupId, fileName, fraction] =>
      match fraction.splitOn slash with
      | [downloaded, pieceCount] =>
          some
            { complete := decide (mark = ascii "[C]")
              groupId
              fileName
              downloaded := digitsValue downloaded
              pieceCount := digitsValue pieceCount }
      | _ => none
  | _ => none

/-- What a list says, line by line. -/
def ofList (list : Bytes) : List Shown :=
  (lines list).filterMap ofLine

end Shown

/-- What the status of an entry is meant to say. -/
def QueuedFile.shown (entry : QueuedFile) : Shown where
  complete := entry.isComplete
  groupId := entry.groupId
  fileName := entry.fileInfo.name
  downloaded := entry.downloadedPieces.toList.length
  pieceCount := entry.fileInfo.pieces.length

section Reading

theorem Unbroken.space_notMem {text : Bytes} (unbroken : Unbroken text) : (32 : UInt8) ∉ text :=
  fun member => absurd (unbroken 32 member) (by decide)

theorem notMem_toString {byte : UInt8} (other : isDigit byte = false) (n : Nat) :
    byte ∉ Text.toString n := by
  intro member
  rw [isDigit_of_mem_toString member] at other
  cases other

/-- The words of a status, and the numbers of its fraction. -/
theorem QueuedFile.status_eq (entry : QueuedFile) :
    entry.status = [32].intercalate
      [if entry.isComplete then ascii "[C]" else ascii "[D]", entry.groupId, entry.fileInfo.name,
        [Shown.slash].intercalate
          [Text.toString entry.downloadedPieces.toList.length,
            Text.toString entry.fileInfo.pieces.length]] := by
  have space : ascii " " = [32] := rfl
  have stroke : ascii "/" = [Shown.slash] := rfl
  simp only [status, space, stroke, List.intercalate, List.intersperse, List.flatten_cons,
    List.flatten_nil, List.append_nil, List.append_assoc]

/-- A status whose names are words says what it is meant to say. -/
theorem QueuedFile.ofLine_status {entry : QueuedFile} (groupId : Unbroken entry.groupId)
    (name : Unbroken entry.fileInfo.name) : Shown.ofLine entry.status = some entry.shown := by
  have fraction : ([Shown.slash].intercalate
      [Text.toString entry.downloadedPieces.toList.length,
        Text.toString entry.fileInfo.pieces.length]).splitOn Shown.slash =
      [Text.toString entry.downloadedPieces.toList.length,
        Text.toString entry.fileInfo.pieces.length] := by
    apply List.splitOn_intercalate
    · simp [notMem_toString (show isDigit Shown.slash = false from rfl)]
    · exact List.cons_ne_nil _ _
  have words : entry.status.splitOn 32 =
      [if entry.isComplete then ascii "[C]" else ascii "[D]", entry.groupId, entry.fileInfo.name,
        [Shown.slash].intercalate
          [Text.toString entry.downloadedPieces.toList.length,
            Text.toString entry.fileInfo.pieces.length]] := by
    rw [status_eq]
    apply List.splitOn_intercalate
    · have mark : (32 : UInt8) ∉ if entry.isComplete then ascii "[C]" else ascii "[D]" := by
        split <;> decide
      have inFraction := notMem_toString (show isDigit 32 = false from rfl)
      have stroke : (32 : UInt8) ≠ Shown.slash := by decide
      simp [mark, groupId.space_notMem, name.space_notMem, List.intercalate, inFraction, stroke]
    · exact List.cons_ne_nil _ _
  simp only [Shown.ofLine, words, fraction, digitsValue_toString, shown, Option.some.injEq,
    Shown.mk.injEq, and_true]
  cases entry.isComplete <;> decide

theorem QueuedFile.endOfLine_notMem_status {entry : QueuedFile} (groupId : Unbroken entry.groupId)
    (name : Unbroken entry.fileInfo.name) : endOfLine ∉ entry.status := by
  have mark : endOfLine ∉ if entry.isComplete then ascii "[C]" else ascii "[D]" := by
    split <;> decide
  have space : endOfLine ∉ ascii " " := by decide
  have stroke : endOfLine ∉ ascii "/" := by decide
  simp only [status, List.mem_append, mark, space, stroke, groupId.endOfLine_notMem,
    name.endOfLine_notMem, notMem_toString (show isDigit endOfLine = false from rfl), or_self,
    not_false_eq_true]

/-- The list is read back entry by entry; the text for an empty list has no such line. -/
theorem ClientState.ofList_listDownloads {client : ClientState}
    (unbroken : ∀ entry ∈ client.downloads, Unbroken entry.groupId ∧ Unbroken entry.fileInfo.name) :
    Shown.ofList client.listDownloads = client.downloads.map QueuedFile.shown := by
  cases empty : client.downloads with
  | nil =>
      rw [listDownloads, empty]
      decide +kernel
  | cons first others =>
      rw [listDownloads, empty, if_neg (by simp), ← empty, Shown.ofList]
      have read : lines (client.downloads.flatMap fun entry => entry.status ++ ascii "\n") =
          client.downloads.map QueuedFile.status := by
        rw [← List.flatMap_map QueuedFile.status fun line => line ++ ascii "\n"]
        apply lines_flatMap
        intro line member
        rcases List.mem_map.mp member with ⟨entry, queued, rfl⟩
        exact entry.endOfLine_notMem_status (unbroken entry queued).1 (unbroken entry queued).2
      rw [read, List.filterMap_map, ← List.filterMap_eq_map]
      apply List.filterMap_congr
      intro entry queued
      exact QueuedFile.ofLine_status (unbroken entry queued).1 (unbroken entry queued).2

end Reading

/-! ## What a client does to its queue -/

/-- What happens at a client: a line is submitted, an answer is made use of, the worker makes
a step, or somebody else changes the disk. -/
inductive Use
  | submit (input : Bytes)
  | conclude (response : Bytes) (awaiting : Awaiting)
  | work (answers : PeerDB.Peer → Bytes → Exchange)
  | changeDisk (disk : Bytes → Option Bytes)

inductive Use.Step (sha1 : Bytes → Bytes) (platform : Platform) (myId : EndpointID)
    (clientEndpoint : Endpoint) : ClientState → Use → ClientState → Prop
  | submit {client : ClientState} {input : Bytes} :
      Use.Step sha1 platform myId clientEndpoint client (.submit input)
        (client.submit sha1 myId clientEndpoint input).1
  | conclude {client next : ClientState} {response : Bytes} {awaiting : Awaiting} :
      client.conclude platform response awaiting = .ok next →
        Use.Step sha1 platform myId clientEndpoint client (.conclude response awaiting) next
  | work {client next : ClientState} {answers : PeerDB.Peer → Bytes → Exchange} :
      client.work sha1 platform.toIterationOrder answers = .ok next →
        Use.Step sha1 platform myId clientEndpoint client (.work answers) next
  | changeDisk {client : ClientState} {disk : Bytes → Option Bytes} :
      Use.Step sha1 platform myId clientEndpoint client (.changeDisk disk) { client with disk }

/-- What holds of every entry: its names came out of a stream, and its pieces are those that
are downloaded and those that are not. -/
structure QueuedFile.Sound (entry : QueuedFile) : Prop where
  groupId : Unbroken entry.groupId
  fileName : Unbroken entry.fileInfo.name
  downloaded : ∀ piece ∈ entry.downloadedPieces, piece ∈ entry.fileInfo.pieces
  remaining : ∀ piece, piece ∈ entry.remainingPieces ↔
    piece ∈ entry.fileInfo.pieces ∧ piece ∉ entry.downloadedPieces

/-- The group and the name of a file are read from a stream. -/
theorem fromString_unbroken {platform : Platform} {text : Bytes} {file : File}
    (read : File.fromString platform text = .ok file) :
    Unbroken file.groupId ∧ Unbroken file.fileInfo.name := by
  simp only [File.fromString, bind, Except.bind, pure, Except.pure] at read
  split at read
  · cases read
  · split at read
    · cases read
    · rw [Except.ok.injEq] at read
      subst read
      exact ⟨Stream.extractWord_noSpace _, Stream.extractWord_noSpace _⟩

theorem decodeDownload_unbroken {platform : Platform} {response : Bytes} {file : File}
    (decoded : decodeDownload platform response = .ok (some file)) :
    Unbroken file.groupId ∧ Unbroken file.fileInfo.name := by
  simp only [decodeDownload, bind, Except.bind, pure, Except.pure] at decoded
  split at decoded
  · cases decoded
  · split at decoded
    · cases decoded
    · split at decoded
      · split at decoded
        · cases decoded
        · next read =>
            rw [Except.ok.injEq, Option.some.injEq] at decoded
            exact fromString_unbroken (decoded ▸ read)
      · cases decoded

section Use

variable {sha1 : Bytes → Bytes} {platform : Platform} {myId : EndpointID}
  {clientEndpoint : Endpoint} {source target client : ClientState} {use : Use}

/-- The queue stays, is continued by a file that a reply described, or has one more piece of
an entry marked. -/
theorem Use.Step.effect (step : Use.Step sha1 platform myId clientEndpoint source use target) :
    target.downloads = source.downloads ∨
      (∃ (file : File) (filePath : Bytes) (address : Nat),
        Unbroken file.groupId ∧ Unbroken file.fileInfo.name ∧
          target.downloads = source.downloads ++
            [{ toLocatedPartFile :=
                LocatedPartFile.create file.groupId file.fileInfo filePath false, address }]) ∨
      ∃ index entry, source.downloads[index]? = some entry ∧ ∃ piece ∈ entry.remainingPieces,
        target.downloads = source.downloads.set index
          { entry with toPartFile := (entry.markDownloaded piece).2 } := by
  cases step with
  | submit =>
      left
      rcases (ClientState.submit_cases :
          (source.submit sha1 myId clientEndpoint _).1 = source ∨ _) with
        same | ⟨_, _, _, _, submitted⟩
      · rw [same]
      · rw [submitted]
  | conclude concluded =>
      rcases ClientState.conclude_cases concluded with rfl | ⟨path, file, _, decoded, rfl⟩
      · exact Or.inl rfl
      · rw [ClientState.startDownloads_eq]
        rcases ClientState.enqueueDownload_cases _ file.groupId file.fileInfo source.newAddress
          path with ⟨_, refused⟩ | ⟨_, queued⟩
        · rw [refused]
          exact Or.inl rfl
        · rw [queued]
          have unbroken := decodeDownload_unbroken decoded
          exact Or.inr (Or.inl ⟨file, path, _, unbroken.1, unbroken.2, rfl⟩)
  | work work =>
      rcases ClientState.work_marks work with ⟨_, rfl⟩ |
        ⟨index, entry, found, piece, remains, _, _, _, rfl⟩
      · exact Or.inl rfl
      · exact Or.inr (Or.inr ⟨index, entry, found, piece, remains, rfl⟩)
  | changeDisk => exact Or.inl rfl

theorem QueuedFile.sound_create {groupId filePath : Bytes} {fileInfo : FileInfo} {address : Nat}
    (group : Unbroken groupId) (name : Unbroken fileInfo.name) :
    QueuedFile.Sound
      { toLocatedPartFile := LocatedPartFile.create groupId fileInfo filePath false, address } where
  groupId := group
  fileName := name
  downloaded := fun _ member => absurd (PartFile.mem_create.1.mp member).1 Bool.false_ne_true
  remaining := FilesDB.whole_create groupId fileInfo false

theorem QueuedFile.Sound.markDownloaded {entry : QueuedFile} (sound : entry.Sound) {piece : Bytes}
    (remains : piece ∈ entry.remainingPieces) :
    QueuedFile.Sound { entry with toPartFile := (entry.markDownloaded piece).2 } where
  groupId := by
    rw [PartFile.markDownloaded_groupId]
    exact sound.groupId
  fileName := by
    rw [PartFile.markDownloaded_fileInfo]
    exact sound.fileName
  downloaded := by
    intro other member
    rw [PartFile.markDownloaded_fileInfo]
    rcases PartFile.mem_markDownloaded.mp member with rfl | held
    · exact ((sound.remaining other).mp remains).1
    · exact sound.downloaded other held
  remaining := FilesDB.whole_markDownloaded sound.remaining piece

/-- Every entry of the queue stays sound. -/
theorem sound_run {disk : Bytes → Option Bytes} {history : List Use}
    (run : Run { disk } (Use.Step sha1 platform myId clientEndpoint) history client) :
    ∀ entry ∈ client.downloads, entry.Sound := by
  apply run.invariant (p := fun _ client => ∀ entry ∈ client.downloads, QueuedFile.Sound entry)
  · nofun
  · intro past source use target _ sound step entry member
    rcases step.effect with same | ⟨file, filePath, address, group, name, queued⟩ |
      ⟨index, older, found, piece, remains, marked⟩
    · exact sound entry (same ▸ member)
    · rw [queued, List.mem_append, List.mem_singleton] at member
      rcases member with before | rfl
      · exact sound entry before
      · exact QueuedFile.sound_create group name
    · rw [marked] at member
      rcases List.mem_or_eq_of_mem_set member with before | rfl
      · exact sound entry before
      · exact (sound older (List.mem_of_getElem? found)).markDownloaded remains

/-! ## The numbers -/

variable {entry : QueuedFile}

theorem QueuedFile.Sound.held (sound : entry.Sound) :
    entry.downloadedPieces.toFinset ⊆ entry.fileInfo.pieces.toFinset := by
  intro piece member
  rw [UnorderedSet.mem_toFinset] at member
  exact List.mem_toFinset.mpr (sound.downloaded piece member)

/-- A piece is downloaded once, however often the file holds it. -/
theorem QueuedFile.Sound.downloaded_le (sound : entry.Sound) :
    entry.shown.downloaded ≤ entry.fileInfo.pieces.toFinset.card := by
  calc entry.shown.downloaded
      = entry.downloadedPieces.toFinset.card :=
        (List.toFinset_card_of_nodup (UnorderedSet.nodup_toList _)).symm
    _ ≤ entry.fileInfo.pieces.toFinset.card := Finset.card_le_card sound.held

/-- The file is complete when as many pieces are shown as it has different ones. -/
theorem QueuedFile.Sound.complete_iff (sound : entry.Sound) :
    entry.shown.complete = true ↔
      entry.shown.downloaded = entry.fileInfo.pieces.toFinset.card := by
  have shown_eq : entry.shown.downloaded = entry.downloadedPieces.toFinset.card :=
    (List.toFinset_card_of_nodup (UnorderedSet.nodup_toList _)).symm
  have complete_iff : entry.shown.complete = true ↔
      entry.fileInfo.pieces.toFinset ⊆ entry.downloadedPieces.toFinset := by
    simp only [shown, PartFile.isComplete_iff, sound.remaining, not_and, not_not,
      Finset.subset_iff, List.mem_toFinset, UnorderedSet.mem_toFinset]
  rw [complete_iff, shown_eq]
  constructor
  · intro complete
    exact Nat.le_antisymm (Finset.card_le_card sound.held) (Finset.card_le_card complete)
  · intro same
    exact (Finset.eq_of_subset_of_card_le sound.held (Nat.le_of_eq same.symm)).ge

/-- A complete file shows all of its pieces exactly if none of them is there twice. -/
theorem QueuedFile.Sound.repeats_iff (sound : entry.Sound)
    (complete : entry.shown.complete = true) :
    entry.shown.downloaded = entry.shown.pieceCount ↔ entry.fileInfo.pieces.Nodup := by
  rw [sound.complete_iff.mp complete, List.card_toFinset]
  constructor
  · intro same
    rw [← List.dedup_eq_self]
    exact (List.dedup_sublist _).eq_of_length same
  · intro nodup
    rw [nodup.dedup]
    rfl

/-- What is marked is shown. -/
theorem QueuedFile.follows_markDownloaded {piece : Bytes}
    (remains : piece ∈ entry.remainingPieces) :
    entry.shown.Follows
      (QueuedFile.shown { entry with toPartFile := (entry.markDownloaded piece).2 }) where
  groupId := PartFile.markDownloaded_groupId _ _
  fileName := congrArg FileInfo.name (PartFile.markDownloaded_fileInfo _ _)
  pieceCount :=
    congrArg (fun info : FileInfo => info.pieces.length) (PartFile.markDownloaded_fileInfo _ _)
  downloaded := by
    apply List.Nodup.length_le_of_subset (UnorderedSet.nodup_toList _)
    intro other member
    exact PartFile.mem_markDownloaded.mpr (Or.inr member)
  complete := by
    intro complete
    rw [QueuedFile.shown, PartFile.incomplete_of_mem remains] at complete
    cases complete

theorem Use.Step.follows (step : Use.Step sha1 platform myId clientEndpoint source use target)
    {index : Nat} (found : source.downloads[index]? = some entry) :
    ∃ later, target.downloads[index]? = some later ∧ entry.shown.Follows later.shown := by
  rcases step.effect with same | ⟨file, filePath, address, _, _, queued⟩ |
    ⟨place, older, there, piece, remains, marked⟩
  · exact ⟨entry, same ▸ found, .refl _⟩
  · rw [queued, List.getElem?_append_left (List.getElem?_eq_some_iff.mp found).1]
    exact ⟨entry, found, .refl _⟩
  · rw [marked]
    by_cases here : place = index
    · subst here
      obtain rfl := Option.some.inj (found.symm.trans there)
      refine ⟨_, List.getElem?_set_self (List.getElem?_eq_some_iff.mp found).1, ?_⟩
      exact QueuedFile.follows_markDownloaded remains
    · rw [List.getElem?_set_ne here]
      exact ⟨entry, found, .refl _⟩

/-- In whatever order lines are handled, the worker works and others change the disk: the
list says how far every download is, a file is shown as complete when all of its different
pieces are downloaded, and what a later list says about a download follows on what an earlier
one said. -/
theorem downloads_shown {disk : Bytes → Option Bytes} {history past : List Use}
    {earlier later : ClientState}
    (before : Run { disk } (Use.Step sha1 platform myId clientEndpoint) history earlier)
    (after : Run earlier (Use.Step sha1 platform myId clientEndpoint) past later) :
    Shown.ofList later.listDownloads = later.downloads.map QueuedFile.shown ∧
      (∀ entry ∈ later.downloads,
        entry.shown.downloaded ≤ entry.fileInfo.pieces.toFinset.card ∧
          (entry.shown.complete = true ↔
            entry.shown.downloaded = entry.fileInfo.pieces.toFinset.card) ∧
          (entry.shown.complete = true →
            (entry.shown.downloaded = entry.shown.pieceCount ↔
              entry.fileInfo.pieces.Nodup))) ∧
      ∀ (index : Nat) (line : Shown), (Shown.ofList earlier.listDownloads)[index]? = some line →
        ∃ next, (Shown.ofList later.listDownloads)[index]? = some next ∧ line.Follows next := by
  have sound := sound_run before
  have laterSound := sound_run (before.append after)
  have read := ClientState.ofList_listDownloads fun entry queued =>
    ⟨(laterSound entry queued).groupId, (laterSound entry queued).fileName⟩
  refine ⟨read, ?_, ?_⟩
  · intro entry queued
    have entrySound := laterSound entry queued
    exact ⟨entrySound.downloaded_le, entrySound.complete_iff, entrySound.repeats_iff⟩
  · intro index line found
    rw [ClientState.ofList_listDownloads fun entry queued =>
      ⟨(sound entry queued).groupId, (sound entry queued).fileName⟩, List.getElem?_map,
      Option.map_eq_some_iff] at found
    rcases found with ⟨entry, queued, rfl⟩
    obtain ⟨next, there, follows⟩ : ∃ next, later.downloads[index]? = some next ∧
        entry.shown.Follows next.shown := by
      refine after.invariant (p := fun _ client => ∃ next, client.downloads[index]? = some next ∧
        entry.shown.Follows next.shown) ⟨entry, queued, .refl _⟩ ?_
      rintro _ source use target _ ⟨middle, there, follows⟩ step
      rcases step.follows there with ⟨next, found, onwards⟩
      exact ⟨next, found, follows.trans onwards⟩
    exact ⟨next.shown, by rw [read, List.getElem?_map, there, Option.map_some], follows⟩

end Use

/-! A file that holds its piece twice has one piece to ask for. -/

def twiceReply : Bytes :=
  ascii "1 " ++ File.toString .oldestFirst
    { seeders := [{ ip := ascii "1.2.3.4", port := 80 }]
      fileInfo := { name := ascii "f", size := 2, pieces := [ascii "h", ascii "h"]
                    hash := ascii "hh" }
      groupId := ascii "g" }

/-- A hash function with one value. -/
def sha1Constant (_ : Bytes) : Bytes :=
  ascii "h"

theorem downloads_shown_twice : ∃ earlier later : ClientState,
    earlier.listDownloads = ascii "[D] g f 0/2\n" ∧
      later.listDownloads = ascii "[C] g f 1/2\n" ∧
      ∀ (index : Nat) (line : Shown), (Shown.ofList earlier.listDownloads)[index]? = some line →
        ∃ next, (Shown.ofList later.listDownloads)[index]? = some next ∧ line.Follows next := by
  let client : ClientState := { disk := fun _ => none }
  obtain ⟨earlier, middle, later, queues, enters, visits, empty, full⟩ :
      ∃ earlier middle later : ClientState,
        client.conclude .oldestFirst twiceReply (.file (ascii "new")) = .ok earlier ∧
          earlier.work sha1Constant .oldestFirst ClientState.silentPeers = .ok middle ∧
          middle.work sha1Constant .oldestFirst (fun _ _ => { reply := .ok (ascii "1 a") }) =
            .ok later ∧
          earlier.listDownloads = ascii "[D] g f 0/2\n" ∧
          later.listDownloads = ascii "[C] g f 1/2\n" := by
    refine ⟨_, _, _, rfl, rfl, rfl, ?_, ?_⟩
    · decide +kernel
    · decide +kernel
  let endpoint : Endpoint := { ip := ascii "1.2.3.5", port := 80 }
  have asks : Use.Step sha1Constant .oldestFirst 7 endpoint client
      (.submit (ascii "download_file g f new")) client := .submit
  have before : Run client (Use.Step sha1Constant .oldestFirst 7 endpoint) _ earlier :=
    (Run.start.step asks).step (.conclude queues)
  have after : Run earlier (Use.Step sha1Constant .oldestFirst 7 endpoint) _ later :=
    (Run.start.step (.work enters)).step (.work visits)
  exact ⟨earlier, later, empty, full, (downloads_shown before after).2.2⟩

end P2PFileShare
