import P2PFileShare.Tracker.Serving

/-!
# What a request finds in a variable that nothing was assigned to

`FileInfo::from_string` reads the size of a file from the fourth word of the text.  Where there
is no fourth word, the size keeps what was left in its place by whatever ran before, and that
may be another value each time a request is handled.  One kind of request stores it: an upload
of new content by a member of the group.
-/

namespace P2PFileShare

open Container Text

/-- The platform at a moment when unassigned variables hold the given values, each
for the text that is being decoded. -/
def Platform.reading (platform : Platform) (residue : Bytes → UInt64) : Platform :=
  { platform with uninitialised := residue }

/-- A text has a fourth word, so that a size is read from it. -/
def FileInfo.givesSize (str : Bytes) : Bool :=
  let stream := Stream.ofText str
  let (_, stream) := stream.extractWord
  let (_, stream) := stream.extractWord
  let (_, stream) := stream.extractWord
  stream.sentry.good

/-- No file of the group equals one of that description. -/
def Group.Lacks (group : Group) (groupId : Bytes) (fileInfo : FileInfo) : Prop :=
  ∀ file ∈ group.files, file.equals { seeders := [], fileInfo, groupId } = false

instance (group : Group) (groupId : Bytes) (fileInfo : FileInfo) :
    Decidable (group.Lacks groupId fileInfo) :=
  inferInstanceAs (Decidable (∀ file ∈ group.files, _ = false))

/-- A member uploads new content to the group that is named first, and the text behind the
endpoint gives no size. -/
def Tracker.UploadsUnsized (platform : Platform) (tracker : Tracker) (origin : EndpointID)
    (stream : Stream) : Prop :=
  (∃ user ∈ tracker.session? origin, ∃ group ∈ tracker.group? stream.extractWord.1,
      group.hasMember user = true ∧
        ∃ upload ∈ (decodeUpload platform stream.extractWord.2).toOption,
          group.Lacks stream.extractWord.1 upload.2) ∧
    ∃ text ∈ stream.extractWord.2.extractWord.2.remainder.toOption,
      FileInfo.givesSize text = false

/-- The request stores the value of a variable that nothing was assigned to. -/
def Tracker.StoresResidue (platform : Platform) (tracker : Tracker) (transaction : Transaction) :
    Prop :=
  transaction.request = .file .upload ∧
    tracker.UploadsUnsized platform transaction.origin
      (requestHead platform transaction.data).2.2

instance (platform : Platform) (tracker : Tracker) (origin : EndpointID) (stream : Stream) :
    Decidable (tracker.UploadsUnsized platform origin stream) :=
  inferInstanceAs (Decidable
    ((∃ user, user ∈ tracker.session? origin ∧
      ∃ group, group ∈ tracker.group? stream.extractWord.1 ∧ group.hasMember user = true ∧
        ∃ upload, upload ∈ (decodeUpload platform stream.extractWord.2).toOption ∧
          group.Lacks stream.extractWord.1 upload.2) ∧
    ∃ text, text ∈ stream.extractWord.2.extractWord.2.remainder.toOption ∧
      FileInfo.givesSize text = false))

instance (platform : Platform) (tracker : Tracker) (transaction : Transaction) :
    Decidable (tracker.StoresResidue platform transaction) :=
  inferInstanceAs (Decidable (_ ∧ _))

/-! ## Decoding -/

section Decoding

variable (platform : Platform) (residue : Bytes → UInt64)

theorem FileInfo.fromString_reading {str : Bytes} (sized : givesSize str = true) :
    fromString (platform.reading residue) str = fromString platform str := by
  have same := extractSize_of_good ((platform.reading residue).uninitialised str)
    (platform.uninitialised str)
    (Stream.ofText str).extractWord.2.extractWord.2.extractWord.2 sized
  simp only [fromString, same]

/-- The content of a file does not depend on the residue. -/
theorem FileInfo.hash_reading (str : Bytes) :
    (fromString (platform.reading residue) str).hash = (fromString platform str).hash := by
  have same (stream : Stream) := extractSize_stream
    ((platform.reading residue).uninitialised str) (platform.uninitialised str) stream
  simp only [fromString, same]

/-- Whether an upload is decoded, and the endpoint that it names, do not depend on the
residue; nor does anything else, if its text gives a size. -/
theorem decodeUpload_reading (stream : Stream) :
    (∃ error, decodeUpload (platform.reading residue) stream = .error error ∧
        decodeUpload platform stream = .error error) ∨
      ∃ endpoint text, stream.extractWord.2.remainder = .ok text ∧
        decodeUpload (platform.reading residue) stream =
            .ok (endpoint, FileInfo.fromString (platform.reading residue) text) ∧
          decodeUpload platform stream = .ok (endpoint, FileInfo.fromString platform text) := by
  simp only [decodeUpload]
  cases Endpoint.fromString stream.extractWord.1 with
  | error error => exact Or.inl ⟨error, rfl, rfl⟩
  | ok endpoint =>
      cases stream.extractWord.2.remainder with
      | error error => exact Or.inl ⟨error, rfl, rfl⟩
      | ok text => exact Or.inr ⟨endpoint, text, rfl, rfl, rfl⟩

end Decoding

/-! ## One request -/

section Request

variable (platform : Platform) (residue : Bytes → UInt64) (tracker : Tracker)

/-- An upload finds the same file whatever the residue, and a file that it finds is not
replaced. -/
theorem uploadFile_reading (groupId : Bytes) (group : Group) (endpoint : Endpoint)
    {fileInfo other : FileInfo} (alike : fileInfo.hash = other.hash) :
    (uploadFile (platform.reading residue) tracker groupId group endpoint fileInfo).1 =
        (uploadFile platform tracker groupId group endpoint other).1 ∧
      ((group.Lacks groupId other → fileInfo = other) →
        (uploadFile (platform.reading residue) tracker groupId group endpoint fileInfo).2 =
          (uploadFile platform tracker groupId group endpoint other).2) := by
  have search : ((platform.objects groupId group.files).find? fun f =>
        f.2.equals { seeders := [endpoint], fileInfo, groupId }) =
      (platform.objects groupId group.files).find? fun f =>
        f.2.equals { seeders := [endpoint], fileInfo := other, groupId } := by
    simp only [File.equals, alike]
  have searched : (platform.reading residue).objects groupId group.files =
    platform.objects groupId group.files := rfl
  simp only [uploadFile, searched, search]
  cases found : (platform.objects groupId group.files).find? fun f =>
      f.2.equals { seeders := [endpoint], fileInfo := other, groupId } with
  | some file => exact ⟨rfl, fun _ => rfl⟩
  | none =>
      have lacks : group.Lacks groupId other := by
        intro file member
        obtain ⟨place, listed⟩ := platform.exists_mem_objects groupId member
        exact Bool.eq_false_iff.mpr (List.find?_eq_none.mp found (place, file) listed)
      exact ⟨rfl, fun same => by rw [same lacks]⟩

theorem processFileRequest_reading (origin : EndpointID) (request : FileRequest)
    (stream : Stream) :
    (processFileRequest (platform.reading residue) tracker origin request stream).1 =
        (processFileRequest platform tracker origin request stream).1 ∧
      ((request = .upload → ¬tracker.UploadsUnsized platform origin stream) →
        (processFileRequest (platform.reading residue) tracker origin request stream).2 =
          (processFileRequest platform tracker origin request stream).2) := by
  simp only [processFileRequest]
  cases session : tracker.session? origin with
  | none => exact ⟨rfl, fun _ => rfl⟩
  | some user =>
      simp only
      cases found : tracker.group? stream.extractWord.1 with
      | none => exact ⟨rfl, fun _ => rfl⟩
      | some group =>
          by_cases member : group.hasMember user = true
          · simp only [member, Bool.not_true, Bool.false_eq_true, if_false]
            cases request with
            | list => exact ⟨rfl, fun _ => rfl⟩
            | download => exact ⟨rfl, fun _ => rfl⟩
            | upload =>
                simp only
                obtain ⟨error, failsReading, fails⟩ | ⟨endpoint, text, behind, readsHere, reads⟩ :=
                  decodeUpload_reading platform residue stream.extractWord.2
                · simp only [failsReading, fails]
                  cases error <;> exact ⟨rfl, fun _ => rfl⟩
                · obtain ⟨answer, after⟩ := uploadFile_reading platform residue tracker
                    stream.extractWord.1 group endpoint
                    (FileInfo.hash_reading platform residue text)
                  simp only [readsHere, reads]
                  refine ⟨congrArg Except.ok answer, fun sized => after fun lacks => ?_⟩
                  apply FileInfo.fromString_reading
                  by_contra unsized
                  refine sized trivial ⟨⟨user, session, group, found, member,
                    (endpoint, FileInfo.fromString platform text), ?_, lacks⟩,
                    text, ?_, Bool.eq_false_iff.mpr unsized⟩
                  · rw [reads]
                    rfl
                  · rw [behind]
                    rfl
          · simp only [member, Bool.not_false, if_true]
            exact ⟨trivial, fun _ => trivial⟩

/-- No answer depends on the residue, and a request that does not store it does nothing that
depends on it. -/
theorem handle_reading (transaction : Transaction) :
    (handle (platform.reading residue) tracker transaction).1 =
        (handle platform tracker transaction).1 ∧
      (¬tracker.StoresResidue platform transaction →
        (handle (platform.reading residue) tracker transaction).2 =
          (handle platform tracker transaction).2) := by
  have tail := congrArg Prod.snd (requestHead_snd (platform.reading residue) platform
    transaction.data)
  rcases transaction with ⟨origin, request, data, outcome⟩
  cases request with
  | user request =>
      simp only [handle, tail]
      cases request <;> exact ⟨rfl, fun _ => rfl⟩
  | group request =>
      simp only [handle, tail]
      exact ⟨rfl, fun _ => rfl⟩
  | tracker request => exact ⟨rfl, fun _ => rfl⟩
  | file request =>
      simp only [handle, tail]
      obtain ⟨answer, after⟩ := processFileRequest_reading platform residue tracker origin
        request (requestHead platform data).2.2
      refine ⟨answer, fun sized => after ?_⟩
      rintro rfl unsized
      exact sized ⟨rfl, unsized⟩

end Request

end P2PFileShare
