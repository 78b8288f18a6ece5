import P2PFileShare.Tracker.Verdicts
import P2PFileShare.Tracker.Links
import P2PFileShare.Tracker.Uploads

/-!
# What a list says

A list has one line for each entry, or is a fixed text when there is none.  Names come out
of a stream word by word, so that none of them holds the end of a line, and what a client
reads back line by line is what the tracker has, each thing once.
-/

namespace P2PFileShare

open Container Text Transition

/-- The byte that ends a line. -/
def endOfLine : UInt8 :=
  10

/-- The lines of a text, each of which has its end. -/
def lines (text : Bytes) : List Bytes :=
  (text.splitOn endOfLine).dropLast

/-- No byte of the text is a space. -/
def Unbroken (text : Bytes) : Prop :=
  ∀ byte ∈ text, isSpace byte = false

section Lines

theorem Unbroken.endOfLine_notMem {text : Bytes} (unbroken : Unbroken text) : endOfLine ∉ text :=
  fun member => absurd (unbroken endOfLine member) (by decide)

theorem lines_nil : lines [] = [] :=
  rfl

theorem lines_cons {line : Bytes} (ends : endOfLine ∉ line) (rest : Bytes) :
    lines (line ++ endOfLine :: rest) = line :: lines rest := by
  rw [lines, List.splitOn_append_cons_self_of_not_mem ends, List.dropLast_cons_of_ne_nil
    (List.splitOn_ne_nil _ _), lines]

/-- Entries that are written line by line are read line by line. -/
theorem lines_flatMap {entries : List Bytes}
    (end_free : ∀ entry ∈ entries, endOfLine ∉ entry) :
    lines (entries.flatMap fun entry => entry ++ ascii "\n") = entries := by
  induction entries with
  | nil => exact lines_nil
  | cons entry entries ih =>
      rcases List.forall_mem_cons.mp end_free with ⟨first, others⟩
      rw [List.flatMap_cons, List.append_assoc]
      exact (lines_cons first _).trans (congrArg (entry :: ·) (ih others))

/-- A list that is not empty is written as it is. -/
theorem listing_of_ne_nil {entries : List Bytes} (nonempty : entries ≠ []) (none : Bytes) :
    listing entries none = entries.flatMap fun entry => entry ++ ascii "\n" := by
  rw [listing, if_neg]
  obtain ⟨entry, others, rfl⟩ := List.exists_cons_of_ne_nil nonempty
  simp [ascii]

theorem listing_nil (none : Bytes) : listing [] none = none :=
  rfl

theorem lines_listing {entries : List Bytes} (end_free : ∀ entry ∈ entries, endOfLine ∉ entry)
    (nonempty : entries ≠ []) (none : Bytes) : lines (listing entries none) = entries := by
  rw [listing_of_ne_nil nonempty, lines_flatMap end_free]

end Lines

/-! ## Descriptions -/

section Descriptions

variable {platform : Platform}

/-- An extraction that does not fail takes a word. -/
theorem extractWord_ne_nil {stream : Stream} (extracted : stream.extractWord.2.fail = false) :
    stream.extractWord.1 ≠ [] := by
  by_cases good : stream.good = true
  · simp only [Stream.extractWord, Stream.sentry, if_pos good] at extracted ⊢
    have first := List.head?_dropWhile_not isSpace stream.rest
    cases behind : stream.rest.dropWhile isSpace with
    | nil => simp [behind, Stream.good] at extracted
    | cons byte rest =>
        rw [behind] at first
        simp only [List.head?_cons] at first
        simp [Stream.good, first]
  · rw [Stream.extractWord_of_not_good (eq_false_of_ne_true good)] at extracted
    cases extracted

theorem collectWords_isWord {fuel : Nat} {stream : Stream} :
    ∀ piece ∈ FileInfo.collectWords fuel stream, IsWord piece := by
  induction fuel generalizing stream with
  | zero => nofun
  | succ fuel ih =>
      intro piece member
      simp only [FileInfo.collectWords] at member
      split at member
      · cases member
      · next extracted =>
          rcases List.mem_cons.mp member with rfl | later
          · exact ⟨extractWord_ne_nil (eq_false_of_ne_true extracted),
              Stream.extractWord_noSpace stream⟩
          · exact ih piece later

/-- A description that was read has words for pieces, whatever text it was read from. -/
theorem isPlain_fromString (text : Bytes)
    (named : (FileInfo.fromString platform text).name ≠ []) :
    (FileInfo.fromString platform text).IsPlain where
  name := ⟨named, Stream.extractWord_noSpace _⟩
  pieces := collectWords_isWord
  hash := rfl

theorem read_of_decodeUpload {stream : Stream} {endpoint : Endpoint} {fileInfo : FileInfo}
    (decoded : decodeUpload platform stream = .ok (endpoint, fileInfo)) :
    ∃ text, fileInfo = FileInfo.fromString platform text := by
  simp only [decodeUpload, bind, Except.bind, pure, Except.pure] at decoded
  split at decoded
  · cases decoded
  · split at decoded
    · cases decoded
    · next text _ =>
        obtain ⟨_, rfl⟩ := Prod.mk.inj (Except.ok.inj decoded)
        exact ⟨text, rfl⟩

end Descriptions

/-! ## What is written can be read -/

/-- What a command puts into the directory comes word by word. -/
def Command.Legible (platform : Platform) : Command → Prop
  | .createUser username _ => Unbroken username
  | .group groupId command => Unbroken groupId ∧
      ∀ endpoint fileInfo, command = .upload endpoint fileInfo →
        ∃ text, fileInfo = FileInfo.fromString platform text
  | _ => True

theorem command_legible (platform : Platform) (transaction : Transaction) :
    (command platform transaction).Legible platform := by
  rcases transaction with ⟨origin, request, data, outcome⟩
  simp only [command]
  cases request with
  | user request =>
      cases request with
      | create => exact Stream.extractWord_noSpace _
      | _ => trivial
  | group request =>
      cases request with
      | list => trivial
      | _ => exact ⟨Stream.extractWord_noSpace _, fun _ _ uploads => by cases uploads⟩
  | file request =>
      cases request with
      | list => exact ⟨Stream.extractWord_noSpace _, fun _ _ uploads => by cases uploads⟩
      | download => exact ⟨Stream.extractWord_noSpace _, fun _ _ uploads => by cases uploads⟩
      | upload =>
          simp only [fileCommand]
          cases decoded : decodeUpload platform (requestHead platform data).2.2.extractWord.2 with
          | error error => exact ⟨Stream.extractWord_noSpace _, fun _ _ uploads => by cases uploads⟩
          | ok arguments =>
              refine ⟨Stream.extractWord_noSpace _, ?_⟩
              rintro endpoint fileInfo uploads
              obtain ⟨rfl, rfl⟩ := GroupCommand.upload.inj uploads
              exact read_of_decodeUpload decoded
  | tracker request => trivial

/-- Names are unbroken, and descriptions were read from some text. -/
structure Directory.Legible (platform : Platform) (directory : Directory) : Prop where
  named : directory.Named
  users : ∀ username user, directory.users username = some user → Unbroken username
  referred : ∀ user, directory.RefersTo user → Unbroken user.username
  groups : ∀ groupId view, directory.groups groupId = some view → Unbroken groupId
  files : ∀ groupId entry, directory.Lists groupId entry →
    ∃ text, entry.1 = FileInfo.fromString platform text

/-- A file that is listed behind a command was described before, or by the command. -/
theorem GroupCommand.Effect.described {picked : Option User} {user : User}
    {command : GroupCommand} {success : Bool} {view after : Option GroupView} {entry : Entry}
    (effect : Effect picked user command view success after)
    (listed : ∃ held ∈ after, entry ∈ held.files) :
    (∃ held ∈ view, ∃ older ∈ held.files, older.1 = entry.1) ∨
      ∃ endpoint, command = .upload endpoint entry.1 := by
  obtain ⟨held, found, member⟩ := listed
  cases effect with
  | idle => exact Or.inl ⟨held, found, entry, member, rfl⟩
  | create =>
      obtain rfl := Option.some.inj found
      cases member
  | join | leave | accept | download =>
      obtain rfl := Option.some.inj found
      exact Or.inl ⟨_, rfl, entry, member, rfl⟩
  | upload endpoint _ _ =>
      obtain rfl := Option.some.inj found
      rcases Finset.mem_insert.mp member with rfl | older
      · exact Or.inr ⟨endpoint, rfl⟩
      · exact Or.inl ⟨_, rfl, entry, older, rfl⟩
  | reseed endpoint _ _ =>
      obtain rfl := Option.some.inj found
      obtain ⟨older, inView, rfl⟩ := GroupView.mem_reseed.mp member
      refine Or.inl ⟨_, rfl, older, inView, ?_⟩
      split
      · rfl
      · rfl

theorem Directory.Step.legible {platform : Platform} {source target : Directory} {event : Event}
    (step : source.Step event target) (legible : source.Legible platform)
    (commanded : event.command.Legible platform) : target.Legible platform := by
  have referred : ∀ user, target.RefersTo user → Unbroken user.username := by
    intro user refers
    rcases step.refersTo refers with ⟨username, found⟩ | older
    · rw [legible.named username user found]
      exact legible.users username user found
    · exact legible.referred user older
  refine ⟨step.named legible.named, ?_, referred, ?_, ?_⟩
  all_goals
    obtain ⟨picked, _, effect⟩ := step.effect
    rcases event with ⟨origin, command, success, before, after⟩
    simp only at effect commanded
  · intro username user found
    cases effect with
    | @createUser other password fresh =>
        simp only [Function.update_apply] at found
        split at found
        · next same =>
            rw [same]
            exact commanded
        · exact legible.users username user found
    | deleteUser other =>
        simp only [Function.update_apply] at found
        split at found
        · cases found
        · exact legible.users username user found
    | _ => exact legible.users username user found
  · intro groupId view found
    cases effect with
    | group session inner =>
        simp only [Function.update_apply] at found
        split at found
        · next same =>
            rw [same]
            exact commanded.1
        · exact legible.groups groupId view found
    | _ => exact legible.groups groupId view found
  · intro groupId entry lists
    cases effect with
    | @group named command user _ after session inner =>
        by_cases same : groupId = named
        · subst same
          simp only [Directory.Lists, Function.update_self] at lists
          rcases inner.described lists with
            ⟨held, found, older, member, same⟩ | ⟨endpoint, uploads⟩
          · rw [← same]
            exact legible.files groupId older ⟨held, found, member⟩
          · exact commanded.2 endpoint entry.1 uploads
        · simp only [Directory.Lists, Function.update_of_ne same] at lists
          exact legible.files groupId entry lists
    | _ => exact legible.files groupId entry lists

theorem legible_serveOn (platform : Platform) (config : Config)
    (messages : List (Network × Bytes)) :
    (serveOn platform config .empty messages).Valid ∧
      (serveOn platform config .empty messages).directory.Legible platform := by
  have run : Run Tracker.empty (Tracker.Receives platform config) (messages.reverse ++ [])
      (serveOn platform config .empty messages) := run_serveOn messages .start
  apply run.invariant (p := fun _ tracker => tracker.Valid ∧ tracker.directory.Legible platform)
  · refine ⟨Tracker.valid_empty, nofun, nofun, ?_, nofun, ?_⟩
    · rintro user (⟨_, session⟩ | ⟨_, _, found, _⟩)
      · cases session
      · cases found
    · rintro groupId entry ⟨_, found, _⟩
      cases found
  · rintro past source message target _ ⟨valid, legible⟩ receives
    refine ⟨receives.valid valid, ?_⟩
    cases parsing : parseRequest platform (message.2.drop 1) with
    | none =>
        rw [receives.unchanged valid parsing]
        exact legible
    | some transaction =>
        obtain ⟨event, _, commanded, step⟩ := receives.step valid parsing
        refine step.legible legible ?_
        rw [commanded]
        exact command_legible platform transaction

/-! ## Lists -/

/-- A reply names, line by line and each once, the things with a property; or it is the
fixed text, if there are none. -/
def Shows (reply none : Bytes) (p : Bytes → Prop) : Prop :=
  ((∀ name, ¬p name) ∧ reply = none) ∨
    ((∃ name, p name) ∧ (lines reply).Nodup ∧ ∀ name, name ∈ lines reply ↔ p name)

theorem shows_listing {names : List Bytes} {p : Bytes → Prop} (none : Bytes)
    (nodup : names.Nodup) (mem_iff : ∀ name, name ∈ names ↔ p name)
    (unbroken : ∀ name, p name → Unbroken name) : Shows (listing names none) none p := by
  by_cases empty : names = []
  · subst empty
    exact Or.inl ⟨fun name holds => List.not_mem_nil ((mem_iff name).mpr holds), rfl⟩
  · have read : lines (listing names none) = names :=
      lines_listing (fun name member => (unbroken name ((mem_iff name).mp member)).endOfLine_notMem)
        empty none
    obtain ⟨name, member⟩ := List.exists_mem_of_ne_nil _ empty
    refine Or.inr ⟨⟨name, (mem_iff name).mp member⟩, ?_, ?_⟩
    · rw [read]
      exact nodup
    · rw [read]
      exact mem_iff

/-- A reply describes the files of a group: the lines that are not empty are read as their
descriptions, each once. -/
def Describes (platform : Platform) (reply : Bytes) (files : Finset Entry) : Prop :=
  (files = ∅ ∧ reply = ascii "No files found\n") ∨
    (files ≠ ∅ ∧
      ((((lines reply).filter fun line => line ≠ []).map fun line =>
        FileInfo.fromString platform (line ++ ascii "\n") : List FileInfo) : Multiset FileInfo) =
          files.val.map Prod.fst)

/-- What the reply to a list is, going by the directory. -/
def Directory.Truthful (platform : Platform) (directory : Directory) (origin : EndpointID)
    (groupId : Bytes) (reply : Bytes) : Request → Prop
  | .user .list => Shows reply (ascii "No users found\n") fun name =>
      (directory.users name).isSome = true
  | .group .list => Shows reply (ascii "No groups found\n") fun name =>
      (directory.groups name).isSome = true
  | .group .listJoinRequests =>
      match directory.sessions origin, directory.groups groupId with
      | none, _ => reply = loginRequiredWarning
      | some _, none => reply = ascii "Group does not exist\n"
      | some _, some view =>
          (view.pending = ∅ ∧ reply = ascii "No pending join_requests\n") ∨
            (view.pending ≠ ∅ ∧
              (lines reply : Multiset Bytes) = view.pending.val.map User.username)
  | .file .list =>
      match directory.sessions origin, directory.groups groupId with
      | none, _ => reply = loginRequiredWarning
      | some _, none => reply = ascii "Group not found\n"
      | some user, some view =>
          if view.HasMember user then
            (∀ entry ∈ view.files, entry.1.name ≠ []) → Describes platform reply view.files
          else reply = ascii "You are not a member of this group\n"
  | _ => True

section Replies

variable {platform : Platform} {tracker : Tracker}

/-- The line of a description, without its end. -/
def FileInfo.line (info : FileInfo) : Bytes :=
  ascii "File: " ++ info.name ++ ascii "\t" ++
    ascii "Size: " ++ Text.toString info.size.toNat ++ ascii " bytes\t" ++
    ascii "Pieces: " ++ info.pieces.flatMap fun piece => piece ++ ascii " "

theorem FileInfo.toString_line (info : FileInfo) : info.toString = info.line ++ ascii "\n" := by
  simp only [toString, line, List.append_assoc]

theorem FileInfo.IsPlain.endOfLine_notMem {info : FileInfo} (plain : info.IsPlain) :
    endOfLine ∉ info.line := by
  have name := Unbroken.endOfLine_notMem plain.name.2
  have size := Unbroken.endOfLine_notMem (isWord_toString info.size.toNat).2
  have pieces : endOfLine ∉ info.pieces.flatMap fun piece => piece ++ ascii " " := by
    intro member
    obtain ⟨piece, isPiece, inside⟩ := List.mem_flatMap.mp member
    rcases List.mem_append.mp inside with own | separator
    · exact Unbroken.endOfLine_notMem (plain.pieces piece isPiece).2 own
    · exact absurd separator (by decide)
  simp only [line, List.mem_append, not_or]
  exact ⟨⟨⟨⟨⟨⟨⟨by decide, name⟩, by decide⟩, by decide⟩, size⟩, by decide⟩, by decide⟩,
    pieces⟩

theorem FileInfo.line_ne_nil (info : FileInfo) : info.line ≠ [] := by
  simp [line, ascii]

/-- Descriptions that are listed are read again, each with an empty line behind it. -/
theorem read_descriptions (platform : Platform) {infos : List FileInfo}
    (plain : ∀ info ∈ infos, info.IsPlain) :
    ((lines ((infos.map FileInfo.toString).flatMap fun entry => entry ++ ascii "\n")).filter
        fun line => line ≠ []).map
      (fun line => FileInfo.fromString platform (line ++ ascii "\n")) = infos := by
  induction infos with
  | nil => rfl
  | cons info infos ih =>
      rcases List.forall_mem_cons.mp plain with ⟨first, others⟩
      have blank : ∀ byte ∈ ([] : Bytes), isSpace byte = true := nofun
      have read := FileInfo.fromString_toString platform first blank blank
      rw [List.nil_append, List.append_nil, FileInfo.toString_line] at read
      have shape : ((info :: infos).map FileInfo.toString).flatMap (fun entry =>
          entry ++ ascii "\n") =
          info.line ++ endOfLine :: ([] ++ endOfLine :: ((infos.map FileInfo.toString).flatMap
            fun entry => entry ++ ascii "\n")) := by
        simp [FileInfo.toString_line, ascii, endOfLine]
      rw [shape, lines_cons first.endOfLine_notMem, lines_cons List.not_mem_nil,
        List.filter_cons_of_pos (by simp [info.line_ne_nil]),
        List.filter_cons_of_neg (by simp), List.map_cons, read, ih others]

theorem order_val {α : Type} [DecidableEq α] (set : UnorderedSet α) :
    (platform.order set : Multiset α) = set.toFinset.val := by
  rw [UnorderedSet.toFinset, List.toFinset_val, (UnorderedSet.nodup_toList set).dedup]
  exact Multiset.coe_eq_coe.mpr (platform.perm set)

/-- The files of a group are told apart by their content. -/
theorem files_val {groupId : Bytes} {group : Group} (valid : group.Valid groupId) :
    group.view.files.val.map Prod.fst =
      (((platform.objects groupId group.files).map fun file => file.2.fileInfo : List FileInfo) :
        Multiset FileInfo) := by
  have hashes : ((group.files.map File.entry).map fun entry => entry.1.hash).Nodup := by
    rw [List.map_map]
    exact valid.files_nodup
  have distinct := hashes.of_map _
  have listed := (platform.objects_map_snd_perm groupId group.files).map File.fileInfo
  rw [List.map_map] at listed
  rw [Group.view, List.toFinset_val, distinct.dedup, Multiset.map_coe, List.map_map]
  exact (Multiset.coe_eq_coe.mpr listed).symm

theorem getUsernames_shows (legible : tracker.directory.Legible platform) (none : Bytes) :
    Shows (listing (tracker.userDB.getUsernames platform) none) none fun name =>
      (tracker.directory.users name).isSome = true := by
  refine shows_listing none
    ((platform.perm tracker.userDB.users.keys).nodup_iff.mpr (UnorderedSet.nodup_toList _)) ?_ ?_
  · exact fun name => platform.mem_order.trans (tracker.userDB.users.mem_keys_iff name)
  · intro name present
    obtain ⟨user, found⟩ := Option.isSome_iff_exists.mp present
    exact legible.users name user found

theorem getGroups_shows (legible : tracker.directory.Legible platform) (none : Bytes) :
    Shows (listing (tracker.groupDB.getGroups platform) none) none fun name =>
      (tracker.directory.groups name).isSome = true := by
  refine shows_listing none
    ((platform.perm tracker.groupDB.groups.keys).nodup_iff.mpr (UnorderedSet.nodup_toList _)) ?_ ?_
  · intro name
    rw [Tracker.directory, Option.isSome_map]
    exact platform.mem_order.trans (tracker.groupDB.groups.mem_keys_iff name)
  · intro name present
    obtain ⟨view, found⟩ := Option.isSome_iff_exists.mp present
    exact legible.groups name view found

/-- The join requests of a group are listed by name. -/
theorem joinRequests_listed (legible : tracker.directory.Legible platform) {groupId : Bytes}
    {group : Group} (found : tracker.group? groupId = some group) (none : Bytes) :
    (group.view.pending = ∅ ∧
        listing ((platform.order group.joinRequests).map User.username) none = none) ∨
      (group.view.pending ≠ ∅ ∧
        (lines (listing ((platform.order group.joinRequests).map User.username) none) :
          Multiset Bytes) = group.view.pending.val.map User.username) := by
  have pending_val : (platform.order group.joinRequests : Multiset User) =
      group.view.pending.val := order_val group.joinRequests
  by_cases empty : platform.order group.joinRequests = []
  · rw [empty] at pending_val ⊢
    exact Or.inl ⟨Finset.val_eq_zero.mp pending_val.symm, listing_nil none⟩
  · right
    constructor
    · intro nobody
      rw [nobody, Finset.empty_val, Multiset.coe_eq_zero] at pending_val
      exact empty pending_val
    · rw [lines_listing ?_ (by simpa using empty) none, ← pending_val, Multiset.map_coe]
      intro name member
      obtain ⟨user, waits, rfl⟩ := List.mem_map.mp member
      have pending : user ∈ group.view.pending :=
        UnorderedSet.mem_toFinset.mpr (platform.mem_order.mp waits)
      exact (legible.referred user (Or.inr ⟨groupId, group.view,
        Tracker.directory_groups_eq found, Or.inr (Or.inr pending)⟩)).endOfLine_notMem

/-- The files of a group are listed by their descriptions. -/
theorem files_listed (valid : tracker.Valid) (legible : tracker.directory.Legible platform)
    {groupId : Bytes} {group : Group} (found : tracker.group? groupId = some group)
    (named : ∀ entry ∈ group.view.files, entry.1.name ≠ []) :
    Describes platform
      (listing ((platform.objects groupId group.files).map fun file => file.2.fileInfo.toString)
        (ascii "No files found\n")) group.view.files := by
  have infos := @files_val platform groupId group (valid groupId group found)
  have entries : ∀ object ∈ platform.objects groupId group.files,
      object.2.entry ∈ group.view.files := by
    rintro ⟨place, file⟩ member
    exact List.mem_toFinset.mpr (List.mem_map_of_mem
      (List.mem_of_getElem? (platform.mem_objects.mp member)))
  by_cases empty : platform.objects groupId group.files = []
  · rw [empty] at infos ⊢
    exact Or.inl ⟨Finset.val_eq_zero.mp (Multiset.map_eq_zero.mp infos), listing_nil _⟩
  · right
    constructor
    · intro nothing
      rw [nothing, Finset.empty_val, Multiset.map_zero] at infos
      exact empty (List.map_eq_nil_iff.mp ((Multiset.coe_eq_zero _).mp infos.symm))
    · rw [infos, listing_of_ne_nil (by simpa using empty)]
      have shape : (platform.objects groupId group.files).map
          (fun file => file.2.fileInfo.toString) =
          ((platform.objects groupId group.files).map fun file => file.2.fileInfo).map
            FileInfo.toString := by
        rw [List.map_map]
        rfl
      rw [shape, read_descriptions platform]
      intro info member
      obtain ⟨object, isObject, rfl⟩ := List.mem_map.mp member
      obtain ⟨text, read⟩ := legible.files groupId _
        ⟨group.view, Tracker.directory_groups_eq found, entries object isObject⟩
      have nonempty := named _ (entries object isObject)
      rw [File.entry] at read nonempty
      simp only at read nonempty
      rw [read] at nonempty ⊢
      exact isPlain_fromString text nonempty

/-- The reply to a list tells the truth about the directory. -/
theorem handle_truthful (valid : tracker.Valid) (legible : tracker.directory.Legible platform)
    (transaction : Transaction) {result : Result}
    (handled : (handle platform tracker transaction).1 = .ok result) :
    tracker.directory.Truthful platform transaction.origin
      (requestHead platform transaction.data).2.2.extractWord.1 result.message
      transaction.request := by
  rcases transaction with ⟨origin, request, data, outcome⟩
  generalize stands : (requestHead platform data).2.2 = stream
  simp only [handle, stands] at handled
  have sessions_eq : tracker.directory.sessions origin = tracker.session? origin := rfl
  rcases request with request | request | request | request
  · cases request with
    | list =>
        obtain rfl := Except.ok.inj handled
        exact getUsernames_shows legible _
    | _ => trivial
  · cases request with
    | list =>
        obtain rfl := Except.ok.inj handled
        exact getGroups_shows legible _
    | listJoinRequests =>
        simp only [processGroupRequest, reduceCtorEq, if_false] at handled
        simp only [Directory.Truthful, sessions_eq]
        cases session : tracker.session? origin with
        | none =>
            simp only [session, Except.ok.injEq] at handled
            rw [← handled]
        | some user =>
            simp only [session, Except.ok.injEq] at handled
            cases found : tracker.group? stream.extractWord.1 with
            | none =>
                rw [Tracker.directory_groups_none found]
                simp only [found] at handled
                rw [← handled]
            | some group =>
                rw [Tracker.directory_groups_eq found]
                simp only [found] at handled
                rw [← handled]
                exact joinRequests_listed legible found _
    | _ => trivial
  · cases request with
    | list =>
        simp only [processFileRequest] at handled
        simp only [Directory.Truthful, sessions_eq]
        cases session : tracker.session? origin with
        | none =>
            simp only [session, Except.ok.injEq] at handled
            rw [← handled]
        | some user =>
            simp only [session] at handled
            cases found : tracker.group? stream.extractWord.1 with
            | none =>
                rw [Tracker.directory_groups_none found]
                simp only [found, Except.ok.injEq] at handled
                rw [← handled]
            | some group =>
                rw [Tracker.directory_groups_eq found]
                simp only [found] at handled ⊢
                by_cases member : group.hasMember user = true
                · simp only [member, Bool.not_true, Bool.false_eq_true, if_false,
                    Except.ok.injEq] at handled
                  rw [if_pos ((group.hasMember_iff user).mp member), ← handled]
                  exact files_listed valid legible found
                · simp only [member, Bool.not_false, if_true, Except.ok.injEq] at handled
                  rw [if_neg (mt (group.hasMember_iff user).mpr member), ← handled]
    | _ => trivial
  · trivial

/-- Whatever messages a tracker has received, what it answers to a list is what its
directory holds: names line by line, and descriptions that are read again. -/
theorem listings_truthful (platform : Platform) (config : Config)
    (messages : List (Network × Bytes)) {network : Network} (delivered : network 0 = none)
    {data : Bytes} {transaction : Transaction}
    (parsing : parseRequest platform data = some transaction)
    (lists : transaction.request ∈
      [.user .list, .group .list, .group .listJoinRequests, .file .list]) :
    let tracker := serveOn platform config .empty messages
    ∃ reply, (processData platform config tracker network (49 :: data)).sent = [reply] ∧
      tracker.directory.Truthful platform transaction.origin
        (requestHead platform transaction.data).2.2.extractWord.1 reply transaction.request := by
  intro tracker
  obtain ⟨valid, legible⟩ := legible_serveOn platform config messages
  have notSync : transaction.request ≠ .tracker .sync := by
    intro same
    rw [same] at lists
    exact absurd lists (by decide)
  rw [processData_sent_eq parsing notSync]
  cases answer : (handle platform tracker transaction).1 with
  | error exception =>
      obtain ⟨other, parsed, uploads, -⟩ :=
        ((handle_throws_iff platform tracker parsing exception).mp answer).2
      obtain rfl := Option.some.inj (parsing.symm.trans parsed)
      rw [uploads] at lists
      exact absurd lists (by decide)
  | ok result =>
      simp only [delivered, and_self, if_true]
      exact ⟨result.message, rfl, handle_truthful valid legible transaction answer⟩

/-- Two users, one of whom has gone again. -/
def annWasHere : List (Network × Bytes) :=
  overReliable [ascii "17 create_user ann pw", ascii "17 create_user bob pw",
    ascii "17 login ann pw", ascii "17 delete_user ann"]

theorem listings_truthful_users :
    let tracker := serveOn .oldestFirst .alone .empty annWasHere
    ∃ reply, (processData .oldestFirst .alone tracker .reliable
        (49 :: ascii "8 list_users")).sent = [reply] ∧
      tracker.directory.Truthful .oldestFirst 8
        (requestHead .oldestFirst (ascii "8 list_users")).2.2.extractWord.1 reply (.user .list) :=
  listings_truthful .oldestFirst .alone annWasHere (show Network.reliable 0 = none from rfl)
    (show parseRequest .oldestFirst (ascii "8 list_users") =
      some ⟨8, .user .list, ascii "8 list_users", {}⟩ by decide +kernel) (by decide)

end Replies

end P2PFileShare
