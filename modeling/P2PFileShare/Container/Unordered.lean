import Mathlib.Data.Finset.Basic
import Mathlib.Data.Finset.Dedup
import Mathlib.Data.List.Perm.Basic
import Mathlib.Data.List.Nodup
import Mathlib.Logic.Function.Basic

/-!
# Unordered containers

`std::unordered_set` and `std::unordered_map` hand out their elements in an
unspecified order, which may depend on everything that was ever inserted or
erased.  A set is therefore represented by its history of changes, and the
iteration order is a parameter: a permutation of the contents, chosen from the
history.

A map adds the values.  Values are usually reached through shared pointers and
changed in place, which is not a change of the map; `adjust` models it and
leaves the history of the keys alone.
-/

namespace P2PFileShare.Container

/-- One change of a set. -/
inductive Change (α : Type)
  | insert (element : α)
  | erase (element : α)
  deriving DecidableEq

/-- A hash set, as the changes made to it, newest first. -/
structure UnorderedSet (α : Type) where
  history : List (Change α) := []
  deriving DecidableEq

namespace UnorderedSet

variable {α : Type} [DecidableEq α]

/-- The elements left by a history, in the order of their insertion. -/
def contents : List (Change α) → List α
  | [] => []
  | .insert element :: past =>
      if element ∈ contents past then contents past else contents past ++ [element]
  | .erase element :: past => (contents past).filter (· ≠ element)

/-- The elements of a set, in the order of their insertion. -/
def toList (set : UnorderedSet α) : List α :=
  contents set.history

instance : Membership α (UnorderedSet α) :=
  ⟨fun set element => element ∈ set.toList⟩

instance (element : α) (set : UnorderedSet α) : Decidable (element ∈ set) :=
  inferInstanceAs (Decidable (element ∈ set.toList))

/-- `set.insert(element)`. -/
def insert (set : UnorderedSet α) (element : α) : UnorderedSet α :=
  ⟨.insert element :: set.history⟩

/-- `set.erase(element)`. -/
def erase (set : UnorderedSet α) (element : α) : UnorderedSet α :=
  ⟨.erase element :: set.history⟩

/-- The contents of a set as a finite set. -/
def toFinset (set : UnorderedSet α) : Finset α :=
  set.toList.toFinset

@[simp]
theorem mem_toList {set : UnorderedSet α} {element : α} :
    element ∈ set.toList ↔ element ∈ set :=
  Iff.rfl

@[simp]
theorem mem_toFinset {set : UnorderedSet α} {element : α} :
    element ∈ set.toFinset ↔ element ∈ set := by
  simp [toFinset]

@[simp]
theorem not_mem_empty (element : α) : element ∉ (⟨[]⟩ : UnorderedSet α) := by
  change element ∉ ([] : List α)
  simp

@[simp]
theorem mem_insert {set : UnorderedSet α} {element other : α} :
    other ∈ set.insert element ↔ other = element ∨ other ∈ set := by
  change other ∈ contents (.insert element :: set.history) ↔ _
  simp only [contents]
  split
  · next present =>
      constructor
      · exact Or.inr
      · rintro (rfl | member)
        · exact present
        · exact member
  · simp only [List.mem_append, List.mem_singleton]
    exact or_comm

@[simp]
theorem mem_erase {set : UnorderedSet α} {element other : α} :
    other ∈ set.erase element ↔ other ∈ set ∧ other ≠ element := by
  change other ∈ contents (.erase element :: set.history) ↔ _
  simp only [contents, List.mem_filter, decide_eq_true_eq]
  exact Iff.rfl

theorem nodup_toList (set : UnorderedSet α) : set.toList.Nodup := by
  obtain ⟨history⟩ := set
  change (contents history).Nodup
  induction history with
  | nil => exact List.nodup_nil
  | cons change past ih =>
      cases change with
      | insert element =>
          rw [contents]
          split
          · exact ih
          · next fresh =>
              rw [← List.concat_eq_append]
              exact ih.concat fresh
      | erase element => exact ih.filter _

/-- An element that is erased leaves one less behind. -/
theorem length_erase {set : UnorderedSet α} {element : α} (member : element ∈ set) :
    (set.erase element).toList.length + 1 = set.toList.length := by
  have others : (set.erase element).toList = set.toList.erase element := by
    rw [(nodup_toList set).erase_eq_filter]
    change set.toList.filter _ = _
    apply List.filter_congr
    intro other _
    by_cases same : other = element <;> simp [same]
  rw [others, List.length_erase_of_mem member]
  exact Nat.sub_add_cancel (List.length_pos_of_mem member)

@[simp]
theorem toFinset_empty : (⟨[]⟩ : UnorderedSet α).toFinset = ∅ :=
  rfl

@[simp]
theorem toFinset_insert (set : UnorderedSet α) (element : α) :
    (set.insert element).toFinset = Insert.insert element set.toFinset := by
  ext other
  simp

@[simp]
theorem toFinset_erase (set : UnorderedSet α) (element : α) :
    (set.erase element).toFinset = set.toFinset.erase element := by
  ext other
  simp [and_comm]

end UnorderedSet

/-! ## Iteration -/

/-- The order in which the containers of one process are iterated. -/
structure IterationOrder where
  order : {α : Type} → [DecidableEq α] → UnorderedSet α → List α
  perm : ∀ {α : Type} [DecidableEq α] (set : UnorderedSet α), (order set).Perm set.toList

namespace IterationOrder

/-- Elements come in the order of their insertion. -/
def oldestFirst : IterationOrder where
  order set := set.toList
  perm _ := List.Perm.refl _

/-- Elements come in the reverse order of their insertion. -/
def newestFirst : IterationOrder where
  order set := set.toList.reverse
  perm set := List.reverse_perm set.toList

variable (iteration : IterationOrder) {α : Type} [DecidableEq α]

@[simp]
theorem mem_order {set : UnorderedSet α} {element : α} :
    element ∈ iteration.order set ↔ element ∈ set :=
  (iteration.perm set).mem_iff

/-- A set of `count` objects allocated one after another, each inserted when it
is made and none erased.  The tag tells apart the sets of different owners. -/
def allocated {τ : Type} (tag : τ) : Nat → UnorderedSet (τ × Nat)
  | 0 => ⟨[]⟩
  | count + 1 => ⟨.insert (tag, count) :: (allocated tag count).history⟩

theorem toList_allocated {τ : Type} [DecidableEq τ] (tag : τ) (count : Nat) :
    (allocated tag count).toList = (List.range count).map (tag, ·) := by
  induction count with
  | zero => rfl
  | succ count ih =>
      have fresh : (tag, count) ∉ UnorderedSet.contents (allocated tag count).history := by
        change _ ∉ (allocated tag count).toList
        rw [ih]
        simp
      change UnorderedSet.contents (.insert (tag, count) :: (allocated tag count).history) = _
      rw [UnorderedSet.contents, if_neg fresh]
      change (allocated tag count).toList ++ _ = _
      rw [ih, List.range_succ, List.map_append]
      rfl

/-- The objects of a set of shared pointers in iteration order.  The list holds
the pointees in the order of their insertion, and each is handed out together
with its place in it, which stands for the pointer. -/
def objects {τ β : Type} [DecidableEq τ] (tag : τ) (pointees : List β) : List (Nat × β) :=
  (iteration.order (allocated tag pointees.length)).filterMap fun pointer =>
    pointees[pointer.2]?.map (pointer.2, ·)

theorem objects_perm {τ β : Type} [DecidableEq τ] (tag : τ) (pointees : List β) :
    (iteration.objects tag pointees).Perm
      ((List.range pointees.length).filterMap fun place =>
        pointees[place]?.map (place, ·)) := by
  have shuffled := (iteration.perm (allocated tag pointees.length)).filterMap
    fun pointer => pointees[pointer.2]?.map (pointer.2, ·)
  rw [toList_allocated, List.filterMap_map] at shuffled
  exact shuffled

@[simp]
theorem mem_objects {τ β : Type} [DecidableEq τ] {tag : τ} {pointees : List β}
    {place : Nat} {pointee : β} :
    (place, pointee) ∈ iteration.objects tag pointees ↔ pointees[place]? = some pointee := by
  rw [(iteration.objects_perm tag pointees).mem_iff]
  simp only [List.mem_filterMap, List.mem_range, Option.map_eq_some_iff, Prod.mk.injEq]
  constructor
  · rintro ⟨_, _, _, found, rfl, rfl⟩
    exact found
  · intro found
    rcases List.getElem?_eq_some_iff.mp found with ⟨inRange, _⟩
    exact ⟨place, inRange, pointee, found, rfl, rfl⟩

/-- Every pointee is handed out. -/
theorem exists_mem_objects {τ β : Type} [DecidableEq τ] (tag : τ) {pointees : List β}
    {pointee : β} (member : pointee ∈ pointees) :
    ∃ place, (place, pointee) ∈ iteration.objects tag pointees := by
  rcases List.mem_iff_getElem.mp member with ⟨place, inRange, atPlace⟩
  exact ⟨place, (iteration.mem_objects).mpr (List.getElem?_eq_some_iff.mpr ⟨inRange, atPlace⟩)⟩

/-- Iteration visits every pointee exactly once. -/
theorem objects_map_snd_perm {τ β : Type} [DecidableEq τ] (tag : τ) (pointees : List β) :
    ((iteration.objects tag pointees).map Prod.snd).Perm pointees := by
  have inOrder : ((List.range pointees.length).filterMap fun place =>
      pointees[place]?.map (place, ·)).map Prod.snd = pointees := by
    rw [List.map_filterMap]
    simp only [Option.map_map, Function.comp_def, Option.map_id']
    induction pointees with
    | nil => rfl
    | cons first others ih =>
        rw [List.length_cons, List.range_succ_eq_map, List.filterMap_cons, List.filterMap_map]
        simpa [Function.comp_def] using ih
  have shuffled := (iteration.objects_perm tag pointees).map Prod.snd
  rw [inOrder] at shuffled
  exact shuffled

/-- A search through a set finds an element with the property sought, and none
only if there is none. -/
theorem find?_order_eq_some {set : UnorderedSet α} {p : α → Bool} {element : α}
    (found : (iteration.order set).find? p = some element) :
    element ∈ set ∧ p element = true :=
  ⟨(iteration.mem_order).mp (List.mem_of_find?_eq_some found), List.find?_some found⟩

theorem find?_order_eq_none {set : UnorderedSet α} {p : α → Bool} :
    (iteration.order set).find? p = none ↔ ∀ element ∈ set, p element = false := by
  simp [List.find?_eq_none]

end IterationOrder

/-! ## Change at one place -/

/-- In a list whose keys are distinct, changing the element at one place is
changing the element of that key. -/
theorem modify_eq_map_of_nodup {α κ : Type} [DecidableEq κ] (key : α → κ)
    (change : α → α) {list : List α} (distinct : (list.map key).Nodup) {place : Nat}
    {element : α} (found : list[place]? = some element) :
    list.modify place change =
      list.map fun other => if key other = key element then change other else other := by
  induction list generalizing place with
  | nil => simp
  | cons first others ih =>
      rcases List.nodup_cons.mp distinct with ⟨fresh, distinct⟩
      cases place with
      | zero =>
          obtain rfl : first = element := by simpa using found
          have untouched : others.map (fun other =>
              if key other = key first then change other else other) = others := by
            conv_rhs => rw [← List.map_id' others]
            apply List.map_congr_left
            intro other member
            have distinctKey : key other ≠ key first := fun same =>
              fresh (same ▸ List.mem_map_of_mem member)
            rw [if_neg distinctKey]
          simp [untouched]
      | succ place =>
          have foundRest : others[place]? = some element := by simpa using found
          have distinctKey : key first ≠ key element := fun same =>
            fresh (same ▸ List.mem_map_of_mem (List.mem_of_getElem? foundRest))
          simp [distinctKey, ih distinct foundRest]

/-! ## Maps -/

/-- A hash map: the history of its keys, and the value of each key held. -/
@[ext]
structure UnorderedMap (κ ν : Type) [DecidableEq κ] where
  keys : UnorderedSet κ
  find? : κ → Option ν
  mem_keys_iff : ∀ key, key ∈ keys ↔ (find? key).isSome = true

namespace UnorderedMap

variable {κ ν : Type} [DecidableEq κ]

/-- The map without keys. -/
def empty : UnorderedMap κ ν where
  keys := ⟨[]⟩
  find? _ := none
  mem_keys_iff _ := by simp

/-- `map[key] = value`. -/
def insert (map : UnorderedMap κ ν) (key : κ) (value : ν) : UnorderedMap κ ν where
  keys := map.keys.insert key
  find? := Function.update map.find? key (some value)
  mem_keys_iff other := by
    by_cases same : other = key
    · subst other
      simp
    · simp [same, map.mem_keys_iff]

/-- `map.erase(key)`. -/
def erase (map : UnorderedMap κ ν) (key : κ) : UnorderedMap κ ν where
  keys := map.keys.erase key
  find? := Function.update map.find? key none
  mem_keys_iff other := by
    by_cases same : other = key
    · subst other
      simp
    · simp [same, map.mem_keys_iff]

/-- A change of the value of a key in place. -/
def adjust (map : UnorderedMap κ ν) (key : κ) (change : ν → ν) : UnorderedMap κ ν where
  keys := map.keys
  find? := Function.update map.find? key ((map.find? key).map change)
  mem_keys_iff other := by
    by_cases same : other = key
    · subst other
      simp [map.mem_keys_iff]
    · simp [same, map.mem_keys_iff]

@[simp]
theorem find?_insert (map : UnorderedMap κ ν) (key : κ) (value : ν) :
    (map.insert key value).find? = Function.update map.find? key (some value) :=
  rfl

@[simp]
theorem find?_erase (map : UnorderedMap κ ν) (key : κ) :
    (map.erase key).find? = Function.update map.find? key none :=
  rfl

@[simp]
theorem find?_adjust (map : UnorderedMap κ ν) (key : κ) (change : ν → ν) :
    (map.adjust key change).find? =
      Function.update map.find? key ((map.find? key).map change) :=
  rfl

@[simp]
theorem keys_insert (map : UnorderedMap κ ν) (key : κ) (value : ν) :
    (map.insert key value).keys = map.keys.insert key :=
  rfl

@[simp]
theorem keys_erase (map : UnorderedMap κ ν) (key : κ) :
    (map.erase key).keys = map.keys.erase key :=
  rfl

end UnorderedMap

end P2PFileShare.Container
