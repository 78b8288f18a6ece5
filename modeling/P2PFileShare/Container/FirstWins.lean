import Mathlib.Data.Finset.Image
import Mathlib.Data.List.Basic

/-!
# The first payload wins, and tags add up

A log of payloads, each under a key of its own and handed in with a tag.  A catalogue
keeps one record for each key: the first payload that came under it, and the tags of all
that came under it.  It can be kept up to date one entry of the log at a time, without the
log: a new key brings a new record, and a known one a tag for its record.
-/

namespace P2PFileShare.Container

variable {α κ τ : Type} [DecidableEq κ] (key : α → κ)

/-- The first payload of a log that has the key. -/
def firstOf (log : List (τ × α)) (k : κ) : Option α :=
  (log.find? fun entry => key entry.2 = k).map Prod.snd

/-- The tags that came with payloads of the key. -/
def tagsOf [DecidableEq τ] (log : List (τ × α)) (k : κ) : Finset τ :=
  ((log.filter fun entry => key entry.2 = k).map Prod.fst).toFinset

/-- The records are the catalogue of the log. -/
def Catalogues [DecidableEq τ] (records : Finset (α × Finset τ)) (log : List (τ × α)) :
    Prop :=
  ∀ record, record ∈ records ↔
    firstOf key log (key record.1) = some record.1 ∧ record.2 = tagsOf key log (key record.1)

section Logs

variable {key} {log : List (τ × α)} {k : κ}

theorem key_of_firstOf {payload : α} (first : firstOf key log k = some payload) :
    key payload = k := by
  obtain ⟨entry, found, rfl⟩ := Option.map_eq_some_iff.mp first
  simpa using List.find?_some found

theorem firstOf_isSome_iff :
    (firstOf key log k).isSome = true ↔ ∃ entry ∈ log, key entry.2 = k := by
  rw [firstOf, Option.isSome_map, List.find?_isSome]
  simp only [decide_eq_true_eq]

theorem firstOf_append (log : List (τ × α)) (entry : τ × α) (k : κ) :
    firstOf key (log ++ [entry]) k =
      (firstOf key log k).or (if key entry.2 = k then some entry.2 else none) := by
  simp only [firstOf, List.find?_append, List.find?_singleton, decide_eq_true_eq]
  cases log.find? fun entry => key entry.2 = k with
  | some first => rfl
  | none => split <;> rfl

variable [DecidableEq τ]

theorem mem_tagsOf {tag : τ} : tag ∈ tagsOf key log k ↔ ∃ payload, (tag, payload) ∈ log ∧
    key payload = k := by
  simp [tagsOf]

theorem tagsOf_append (log : List (τ × α)) (entry : τ × α) (k : κ) :
    tagsOf key (log ++ [entry]) k =
      if key entry.2 = k then insert entry.1 (tagsOf key log k) else tagsOf key log k := by
  split
  · next same =>
      ext tag
      simp [tagsOf, List.filter_append, same]
  · next distinct => simp [tagsOf, List.filter_append, distinct]

end Logs

section Catalogues

variable [DecidableEq τ] {key} {records : Finset (α × Finset τ)} {log : List (τ × α)}

theorem catalogues_nil : Catalogues key (∅ : Finset (α × Finset τ)) [] := by
  intro record
  simp [firstOf]

namespace Catalogues

/-- The keys of the records are those of the log. -/
theorem holds_iff (catalogues : Catalogues key records log) (k : κ) :
    (∃ record ∈ records, key record.1 = k) ↔ (firstOf key log k).isSome = true := by
  constructor
  · rintro ⟨record, member, rfl⟩
    rw [((catalogues record).mp member).1]
    rfl
  · intro present
    obtain ⟨payload, first⟩ := Option.isSome_iff_exists.mp present
    have key_eq := key_of_firstOf first
    refine ⟨(payload, tagsOf key log k), (catalogues _).mpr ⟨?_, ?_⟩, key_eq⟩
    · rw [key_eq]
      exact first
    · rw [key_eq]

/-- A record stays when the log goes on, and its tags with it. -/
theorem kept (catalogues : Catalogues key records log) {later : Finset (α × Finset τ)}
    {more : List (τ × α)} (cataloguesLater : Catalogues key later (log ++ more))
    {record : α × Finset τ} (member : record ∈ records) :
    ∃ other ∈ later, other.1 = record.1 ∧ record.2 ⊆ other.2 := by
  obtain ⟨first, tags⟩ := (catalogues record).mp member
  have stays : firstOf key (log ++ more) (key record.1) = some record.1 := by
    rw [firstOf, Option.map_eq_some_iff] at first
    obtain ⟨entry, found, payload_eq⟩ := first
    rw [firstOf, List.find?_append, found, Option.some_or, Option.map_some, payload_eq]
  refine ⟨(record.1, tagsOf key (log ++ more) (key record.1)),
    (cataloguesLater _).mpr ⟨stays, rfl⟩, rfl, ?_⟩
  intro tag tagged
  rw [tags, mem_tagsOf] at tagged
  obtain ⟨payload, logged, same⟩ := tagged
  exact mem_tagsOf.mpr ⟨payload, List.mem_append_left more logged, same⟩

variable [DecidableEq α]

/-- A payload of a new key makes a record. -/
theorem insert_record (catalogues : Catalogues key records log) {payload : α} (tag : τ)
    (fresh : ¬∃ record ∈ records, key record.1 = key payload) :
    Catalogues key (insert (payload, {tag}) records) (log ++ [(tag, payload)]) := by
  have missing : firstOf key log (key payload) = none := by
    rwa [catalogues.holds_iff, Option.not_isSome_iff_eq_none] at fresh
  have untagged : tagsOf key log (key payload) = ∅ := by
    rw [Finset.eq_empty_iff_forall_notMem]
    intro other tagged
    obtain ⟨held, member, same⟩ := mem_tagsOf.mp tagged
    have present := firstOf_isSome_iff.mpr ⟨(other, held), member, same⟩
    rw [missing] at present
    cases present
  intro record
  rw [Finset.mem_insert, catalogues record, firstOf_append, tagsOf_append]
  by_cases same : key payload = key record.1
  · rw [if_pos same, if_pos same, ← same, missing, untagged]
    simp only [reduceCtorEq, false_and, or_false, Option.none_or, Option.some.injEq]
    constructor
    · rintro rfl
      exact ⟨rfl, rfl⟩
    · rintro ⟨rfl, tags⟩
      exact Prod.ext rfl tags
  · rw [if_neg same, if_neg same, Option.or_none]
    apply or_iff_right
    rintro rfl
    exact same rfl

/-- A payload of a known key adds its tag to the record. -/
theorem add_tag (catalogues : Catalogues key records log) {payload : α} (tag : τ)
    (known : ∃ record ∈ records, key record.1 = key payload) :
    Catalogues key (records.image fun record =>
        if key record.1 = key payload then (record.1, insert tag record.2) else record)
      (log ++ [(tag, payload)]) := by
  have present := (catalogues.holds_iff _).mp known
  intro record
  rw [Finset.mem_image, firstOf_append, tagsOf_append]
  by_cases same : key payload = key record.1
  · rw [if_pos same, if_pos same, ← same]
    obtain ⟨first, first_eq⟩ := Option.isSome_iff_exists.mp present
    rw [first_eq, Option.some_or, Option.some.injEq]
    constructor
    · rintro ⟨old, member, changed⟩
      obtain ⟨oldFirst, oldTags⟩ := (catalogues old).mp member
      split at changed
      · next oldKey =>
          rw [oldKey] at oldFirst oldTags
          subst changed
          rw [first_eq, Option.some.injEq] at oldFirst
          exact ⟨oldFirst, by rw [oldTags]⟩
      · next oldKey =>
          subst changed
          exact absurd same.symm oldKey
    · rintro ⟨rfl, tags⟩
      refine ⟨(record.1, tagsOf key log (key payload)), (catalogues _).mpr ⟨?_, ?_⟩, ?_⟩
      · rw [← same]
        exact first_eq
      · rw [← same]
      · rw [if_pos same.symm, ← tags]
  · rw [if_neg same, if_neg same, Option.or_none, ← catalogues record]
    constructor
    · rintro ⟨old, member, changed⟩
      split at changed
      · next oldKey =>
          subst changed
          exact absurd oldKey.symm same
      · subst changed
        exact member
    · intro member
      exact ⟨record, member, if_neg (Ne.symm same)⟩

end Catalogues

end Catalogues

end P2PFileShare.Container
