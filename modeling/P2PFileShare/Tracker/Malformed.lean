import P2PFileShare.Models.EndpointText
import P2PFileShare.Tracker.Seeders

/-!
# Descriptions that are malformed

`FileInfo::from_string` checks none of its extractions, so that every text is decoded to
something, with a `size` that may never have been assigned.  The handler of uploads has a
branch for invalid arguments, and only the endpoint ever takes it.
-/

namespace P2PFileShare

open Container Text

/-- `isxdigit` in the C locale. -/
def isHexDigit (byte : UInt8) : Bool :=
  isDigit byte || (65 ≤ byte && byte ≤ 70) || (97 ≤ byte && byte ≤ 102)

/-- A file can be described so: the name is one word, there is a piece for every block that
is begun, and the pieces are digests of SHA-1. -/
structure FileInfo.IsDescription (info : FileInfo) : Prop where
  name : IsWord info.name
  count : info.pieces.length = (info.size.toNat + blockSize - 1) / blockSize
  digests : ∀ piece ∈ info.pieces, piece.length = 40 ∧ ∀ byte ∈ piece, isHexDigit byte = true

/-- What stands behind the endpoint of an upload is a space and such a description. -/
def Described (behind : Bytes) : Prop :=
  ∃ info : FileInfo, info.IsDescription ∧ behind = 32 :: info.toString

/-- An upload does not succeed, and changes neither the files nor the seeders of any
group. -/
def RejectsUpload (platform : Platform) (tracker : Tracker) (origin : EndpointID)
    (stream : Stream) : Prop :=
  (∃ result, (processFileRequest platform tracker origin .upload stream).1 = .ok result ∧
      result.success = false) ∧
    ∀ groupId, (processFileRequest platform tracker origin .upload stream).2.filesOf groupId =
      tracker.filesOf groupId

section Uploads

variable {platform : Platform} {tracker : Tracker} {origin : EndpointID} {stream : Stream}

/-- Of the arguments of an upload, only the endpoint is ever found invalid. -/
theorem decodeUpload_invalidArgument_iff :
    decodeUpload platform stream = .error .invalidArgument ↔
      Endpoint.colon ∉ stream.extractWord.1 ∨
        ¬StartsNumber (Endpoint.portText stream.extractWord.1) := by
  rw [← Endpoint.fromString_invalidArgument_iff, decodeUpload]
  generalize stream.extractWord = extracted
  rcases extracted with ⟨endpointStr, behind⟩
  cases parsed : Endpoint.fromString endpointStr with
  | error error => simp [bind, Except.bind, parsed]
  | ok endpoint =>
      cases good : behind.good with
      | true => simp [bind, Except.bind, parsed, Stream.remainder_of_good good, pure, Except.pure]
      | false => simp [bind, Except.bind, parsed, Stream.remainder_of_not_good good]

/-- An upload by a member is rejected exactly if its arguments are found invalid. -/
theorem rejectsUpload_iff (member : tracker.MemberAt stream.extractWord.1 origin) :
    RejectsUpload platform tracker origin stream ↔
      decodeUpload platform stream.extractWord.2 = .error .invalidArgument := by
  cases decoded : decodeUpload platform stream.extractWord.2 with
  | error error =>
      obtain ⟨user, group, session, found, isMember⟩ := member
      cases error with
      | invalidArgument =>
          refine iff_of_true ?_ rfl
          simp [RejectsUpload, processFileRequest, session, found, isMember, decoded]
      | outOfRange =>
          refine iff_of_false ?_ (by simp)
          rintro ⟨⟨result, outcome, _⟩, _⟩
          simp [processFileRequest, session, found, isMember, decoded] at outcome
  | ok arguments =>
      rcases arguments with ⟨endpoint, fileInfo⟩
      refine iff_of_false ?_ (by simp)
      obtain ⟨group, found, outcome⟩ := processFileRequest_upload member decoded
      rintro ⟨⟨result, result_eq, refused⟩, kept⟩
      rw [outcome] at result_eq kept
      obtain rfl := Except.ok.inj result_eq
      rcases uploadFile_cases platform tracker stream.extractWord.1 group endpoint fileInfo with
        ⟨place, file, atPlace, _, _, after⟩ | ⟨_, success, _⟩
      · have same := kept stream.extractWord.1
        simp only [after] at same
        rw [Tracker.filesOf_updateGroup found, if_pos rfl, Tracker.filesOf_of_group found] at same
        have reseeded : (group.addSeeder place endpoint).files[place]? =
            some { file with seeders := file.seeders ++ [endpoint] } :=
          Group.files_addSeeder atPlace
        rw [same, atPlace, Option.some.injEq] at reseeded
        have longer := congrArg (fun file => file.seeders.length) reseeded
        simp at longer
      · rw [success] at refused
        cases refused

/-- An upload whose description is malformed is rejected exactly if its endpoint is: it has
no colon, or no number behind the first one. -/
theorem malformed_rejected_iff (member : tracker.MemberAt stream.extractWord.1 origin) :
    (¬Described stream.extractWord.2.extractWord.2.rest →
        RejectsUpload platform tracker origin stream) ↔
      Described stream.extractWord.2.extractWord.2.rest ∨
        Endpoint.colon ∉ stream.extractWord.2.extractWord.1 ∨
          ¬StartsNumber (Endpoint.portText stream.extractWord.2.extractWord.1) := by
  rw [rejectsUpload_iff member, decodeUpload_invalidArgument_iff]
  exact Classical.or_iff_not_imp_left.symm

end Uploads

/-! A member uploads one word for a description, and a text that has no endpoint. -/

/-- The stream behind the name of a request. -/
def argumentsOf (data : Bytes) : Stream :=
  (requestHead .oldestFirst data).2.2

/-- The tracker with the member logged in. -/
def withMember : Tracker :=
  serve .oldestFirst .alone .empty uploadingMember

/-- Every description starts with the letter `F`. -/
theorem not_described {byte : UInt8} {rest : Bytes} (other : byte ≠ 70) :
    ¬Described (32 :: byte :: rest) := by
  rintro ⟨info, _, text_eq⟩
  have first : byte = 70 := by
    rw [FileInfo.toString_tokens] at text_eq
    exact (List.cons.inj (List.cons.inj text_eq).2).1
  exact other first

theorem not_described_word {stream : Stream}
    (behind : stream.extractWord.2.extractWord.2.rest = ascii " x") :
    ¬Described stream.extractWord.2.extractWord.2.rest := by
  rw [behind]
  exact not_described (by decide)

theorem malformed_rejected_word :
    ¬Described (argumentsOf (ascii "17 upload_file g here x")).extractWord.2.extractWord.2.rest ∧
      RejectsUpload .oldestFirst withMember 17 (argumentsOf (ascii "17 upload_file g here x")) := by
  have member : withMember.MemberAt
      (argumentsOf (ascii "17 upload_file g here x")).extractWord.1 17 := by
    decide +kernel
  have malformed : ¬Described
      (argumentsOf (ascii "17 upload_file g here x")).extractWord.2.extractWord.2.rest :=
    not_described_word (by decide +kernel)
  exact ⟨malformed, (malformed_rejected_iff member).mpr (Or.inr (Or.inl (by decide +kernel)))
    malformed⟩

theorem malformed_accepted :
    ¬∀ messages origin stream,
      (serve .oldestFirst .alone .empty messages).MemberAt stream.extractWord.1 origin →
        ¬Described stream.extractWord.2.extractWord.2.rest →
          RejectsUpload .oldestFirst (serve .oldestFirst .alone .empty messages) origin stream := by
  intro claim
  have member : withMember.MemberAt
      (argumentsOf (ascii "17 upload_file g 1:1 x")).extractWord.1 17 := by
    decide +kernel
  have malformed : ¬Described
      (argumentsOf (ascii "17 upload_file g 1:1 x")).extractWord.2.extractWord.2.rest :=
    not_described_word (by decide +kernel)
  have success : succeeded (processFileRequest .oldestFirst withMember 17 .upload
      (argumentsOf (ascii "17 upload_file g 1:1 x"))).1 = true := by
    decide +kernel
  obtain ⟨⟨result, outcome, refused⟩, _⟩ := claim uploadingMember 17 _ member malformed
  rw [withMember, outcome, succeeded, refused] at success
  cases success

end P2PFileShare
