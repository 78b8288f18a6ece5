import P2PFileShare.Client.Peers
import P2PFileShare.Swarm.Seeding
import P2PFileShare.Tracker.Verdicts

/-!
# What a reply tells

A tracker tells a client about a file only in answer to a download, and then tells it what
is listed at that moment.  A file that is listed stays listed, with the same description
and with at least the same seeders, so that what a client was told stays true.
-/

namespace P2PFileShare

open Container Text Transition

/-- The group lists the file, and the endpoint as one of its seeders. -/
def Directory.Knows (directory : Directory) (groupId : Bytes) (fileInfo : FileInfo)
    (endpoint : Endpoint) : Prop :=
  ∃ seeders, directory.Lists groupId (fileInfo, seeders) ∧ endpoint ∈ seeders

section Knowledge

variable {platform : Platform} {config : Config} {tracker : Tracker} {groupId : Bytes}
  {fileInfo other : FileInfo} {endpoint : Endpoint}

/-- No request makes a tracker forget a seeder. -/
theorem Directory.Knows.processData (valid : tracker.Valid) (network : Network) (request : Bytes)
    (knows : tracker.directory.Knows groupId fileInfo endpoint) :
    (processData platform config tracker network request).tracker.directory.Knows groupId fileInfo
      endpoint := by
  rcases knows with ⟨seeders, lists, seeds⟩
  by_cases accepted : ∃ group newSeeder newInfo view,
      tracker.Accepts platform request group newSeeder newInfo view
  · rcases accepted with ⟨group, newSeeder, newInfo, view, accepts⟩
    by_cases here : groupId = group
    · subst here
      have found : tracker.directory.groups groupId = some view := accepts.choose_spec.2.2.1
      obtain ⟨_, viewed, member⟩ := lists
      obtain rfl := Option.some.inj (found.symm.trans viewed)
      by_cases known : view.HasContent newInfo.hash
      · by_cases same : fileInfo.hash = newInfo.hash
        · refine ⟨insert newSeeder seeders, ?_, Finset.mem_insert_of_mem seeds⟩
          rw [(lists_of_accepted valid network accepts _).1, if_pos known]
          exact GroupView.mem_reseed.mpr ⟨_, member, if_pos same⟩
        · refine ⟨seeders, ?_, seeds⟩
          rw [(lists_of_accepted valid network accepts _).1, if_pos known]
          exact GroupView.mem_reseed.mpr ⟨_, member, if_neg same⟩
      · refine ⟨seeders, ?_, seeds⟩
        rw [(lists_of_accepted valid network accepts _).1, if_neg known]
        exact Or.inr member
    · exact ⟨seeders,
        ((lists_of_accepted valid network accepts _).2 groupId here).mpr lists, seeds⟩
  · have refused : ∀ group newSeeder newInfo view,
        ¬tracker.Accepts platform request group newSeeder newInfo view :=
      fun group newSeeder newInfo view accepts =>
        accepted ⟨group, newSeeder, newInfo, view, accepts⟩
    exact ⟨seeders, (lists_of_refused valid network refused groupId _).mpr lists, seeds⟩

/-- A group lists one description for a hash. -/
theorem Tracker.Valid.knows_unique (valid : tracker.Valid) {otherEndpoint : Endpoint}
    (knows : tracker.directory.Knows groupId fileInfo endpoint)
    (knowsToo : tracker.directory.Knows groupId other otherEndpoint)
    (same : fileInfo.hash = other.hash) : fileInfo = other := by
  obtain ⟨seeders, lists, _⟩ := knows
  obtain ⟨others, listsToo, _⟩ := knowsToo
  obtain ⟨file, member, entry⟩ := exists_file_of_entry (Directory.mem_files.mpr lists)
  obtain ⟨file', member', entry'⟩ := exists_file_of_entry (Directory.mem_files.mpr listsToo)
  obtain ⟨rfl, _⟩ := Prod.mk.inj entry
  obtain ⟨rfl, _⟩ := Prod.mk.inj entry'
  exact congrArg File.fileInfo
    (List.inj_on_of_nodup_map (valid.filesOf_nodup groupId) member member' same)

end Knowledge

/-! ## Answers -/

section Answers

variable {platform : Platform} {config : Config} {tracker : Tracker} {network : Network}
  {request : Bytes} {transaction : Transaction}

theorem requestOfName_sync {word : Bytes} (syncs : requestOfName word = some (.tracker .sync)) :
    word = ascii "sync" := by
  have skip {c : Prop} [Decidable c] {first : Request} {others : Option Request}
      (found : (if c then some first else others) = some (.tracker .sync))
      (different : first ≠ .tracker .sync) : others = some (.tracker .sync) := by
    split at found
    · exact absurd (Option.some.inj found) different
    · exact found
  by_contra other
  rw [requestOfName] at syncs
  iterate 14 replace syncs := skip syncs fun same => by cases same
  rw [if_neg other] at syncs
  cases syncs

/-- What a client makes of an answer to a download is nothing, or a file that is listed,
with seeders that are listed for it. -/
def Directory.Tells (directory : Directory) (client : Platform) (answer : Bytes) : Prop :=
  decodeDownload client answer = .ok none ∨
    ∃ file, decodeDownload client answer = .ok (some file) ∧ file.seeders ≠ [] ∧
      ∀ seeder ∈ file.seeders, directory.Knows file.groupId file.fileInfo seeder

theorem Directory.Tells.processData (valid : tracker.Valid) (network : Network) (request : Bytes)
    {client : Platform} {answer : Bytes} (tells : tracker.directory.Tells client answer) :
    (processData platform config tracker network request).tracker.directory.Tells client
      answer := by
  rcases tells with nothing | ⟨file, decoded, nonempty, known⟩
  · exact Or.inl nothing
  · exact Or.inr ⟨file, decoded, nonempty, fun seeder member =>
      (known seeder member).processData valid network request⟩

/-- The file that a tracker writes is the one that a client reads, with its seeders in some
order. -/
theorem decodeDownload_file (client : Platform) {file : File} (plain : file.IsPlain)
    (countable : file.seeders.length < 2 ^ 64) :
    ∃ seeders, seeders.Perm file.seeders ∧
      decodeDownload client (ascii "1 " ++ file.toString platform ++ ascii "\n") =
        .ok (some { file with seeders := seeders }) := by
  have newline : ∀ byte ∈ ascii "\n", isSpace byte = true := List.forall_mem_singleton.mpr rfl
  obtain ⟨seeders, perm, decoded⟩ :=
    File.fromString_toString platform client plain countable newline
  have shape : ascii "1 " ++ file.toString platform ++ ascii "\n" =
      Text.toString 1 ++ 32 :: (file.toString platform ++ ascii "\n") := by
    rw [List.append_assoc]
    rfl
  refine ⟨seeders, perm, ?_⟩
  rw [decodeDownload, Stream.ofText_eq_reading, shape,
    Stream.extractInt_toString 0 (by decide) (by rfl)]
  simp only [Bool.false_eq_true, if_false, Stream.remainder_reading, bind, Except.bind, decoded]
  rfl

/-- The sizes of the sets of seeders fit into a `size_t`. -/
def Tracker.Countable (tracker : Tracker) : Prop :=
  ∀ groupId, ∀ file ∈ tracker.filesOf groupId, file.seeders.length < 2 ^ 64

/-- Everything that is listed survives the textual form. -/
structure Tracker.Writable (tracker : Tracker) : Prop where
  plain : ∀ groupId entry, tracker.directory.Lists groupId entry →
    IsWord groupId ∧ entry.1.IsPlain ∧ entry.2.Nonempty ∧ ∀ seeder ∈ entry.2, seeder.IsPlain
  countable : tracker.Countable

/-- The answer to a download tells what is listed. -/
theorem tells_of_download (valid : tracker.Valid) (writable : tracker.Writable)
    (client : Platform) (origin : EndpointID) (stream : Stream) {result : Result}
    (answered : (processFileRequest platform tracker origin .download stream).1 = .ok result) :
    tracker.directory.Tells client result.message := by
  simp only [processFileRequest] at answered
  cases session : tracker.session? origin with
  | none =>
      simp only [session] at answered
      obtain rfl := Except.ok.inj answered
      exact Or.inl (by rfl)
  | some user =>
      simp only [session] at answered
      cases found : tracker.group? stream.extractWord.1 with
      | none =>
          simp only [found] at answered
          obtain rfl := Except.ok.inj answered
          exact Or.inl (by rfl)
      | some group =>
          simp only [found] at answered
          split at answered
          · obtain rfl := Except.ok.inj answered
            exact Or.inl (by rfl)
          split at answered
          · next place file searched =>
              obtain rfl := Except.ok.inj answered
              have inGroup : file ∈ group.files :=
                List.mem_of_getElem? (platform.mem_objects.mp (List.mem_of_find?_eq_some searched))
              have group_eq := (valid _ group found).files_group file inGroup
              have inFiles : file ∈ tracker.filesOf stream.extractWord.1 := by
                rwa [Tracker.filesOf, found]
              have lists := Directory.mem_files.mp (mem_files_entry inFiles)
              obtain ⟨isWord, infoPlain, nonempty, seedersPlain⟩ := writable.plain _ _ lists
              have plain : file.IsPlain :=
                ⟨fun seeder member => seedersPlain seeder (List.mem_toFinset.mpr member), infoPlain,
                  group_eq ▸ isWord⟩
              obtain ⟨seeders, perm, decoded⟩ :=
                decodeDownload_file client plain (writable.countable _ file inFiles)
              refine Or.inr ⟨_, decoded, ?_, ?_⟩
              · obtain ⟨seeder, member⟩ := nonempty
                exact List.ne_nil_of_mem (perm.mem_iff.mpr (List.mem_toFinset.mp member))
              · intro seeder member
                refine ⟨file.seeders.toFinset, ?_,
                  List.mem_toFinset.mpr (perm.mem_iff.mp member)⟩
                rw [group_eq]
                exact lists
          · obtain rfl := Except.ok.inj answered
            exact Or.inl (by rfl)

end Answers

end P2PFileShare
