import Mathlib.Logic.Basic
import Mathlib.Data.List.Basic

/-!
# Machines whose requests each name one cell

A keyed machine answers requests one after another.  A request reads and changes
the cell it names and no other; it may read a shared part of the state, which no
request changes.  Then only the order of the requests to one cell matters:
`Keyed.run_congr` compares any two runs that agree on every cell.

A request may have variants, which differ only in states that break some condition.
`Keyed.Variants.run_congr` compares runs over variants of the same requests, if the
condition is met at every step of one of them.
-/

namespace P2PFileShare.Transition

/-- A machine with its frame conditions. -/
structure Keyed (σ ρ ω κ γ β : Type) where
  step : σ → ρ → ω × σ
  key : ρ → κ
  cell : σ → κ → γ
  shared : σ → β
  /-- What a request answers depends on its own cell and the shared part. -/
  answer_congr : ∀ {state other : σ} (request : ρ), shared state = shared other →
    cell state (key request) = cell other (key request) →
      (step state request).1 = (step other request).1
  /-- So does what it makes of the cell. -/
  cell_congr : ∀ {state other : σ} (request : ρ), shared state = shared other →
    cell state (key request) = cell other (key request) →
      cell (step state request).2 (key request) = cell (step other request).2 (key request)
  frame : ∀ (state : σ) (request : ρ) (other : κ), other ≠ key request →
    cell (step state request).2 other = cell state other
  shared_step : ∀ (state : σ) (request : ρ), shared (step state request).2 = shared state

namespace Keyed

variable {σ ρ ω κ γ β : Type} (machine : Keyed σ ρ ω κ γ β)

/-- The state after a sequence of requests. -/
def run (state : σ) : List ρ → σ
  | [] => state
  | request :: requests => run (machine.step state request).2 requests

/-- The answers to the requests for one cell, in order. -/
def answers [DecidableEq κ] (key : κ) (state : σ) : List ρ → List ω
  | [] => []
  | request :: requests =>
      let (answer, next) := machine.step state request
      if machine.key request = key then answer :: answers key next requests
      else answers key next requests

theorem shared_run (state : σ) (requests : List ρ) :
    machine.shared (machine.run state requests) = machine.shared state := by
  induction requests generalizing state with
  | nil => rfl
  | cons request requests ih =>
      rw [run, ih]
      exact machine.shared_step state request

variable [DecidableEq κ]

/-- Seen from one cell, a run is the run of the requests that name it. -/
theorem run_filter (key : κ) (requests : List ρ) {state other : σ}
    (shared : machine.shared state = machine.shared other)
    (cell : machine.cell state key = machine.cell other key) :
    machine.answers key state requests =
        machine.answers key other (requests.filter fun request => machine.key request = key) ∧
      machine.cell (machine.run state requests) key =
        machine.cell
          (machine.run other (requests.filter fun request => machine.key request = key)) key := by
  induction requests generalizing state other with
  | nil => exact ⟨rfl, cell⟩
  | cons request requests ih =>
      have sharedNext := machine.shared_step state request
      by_cases named : machine.key request = key
      · subst named
        have sharedOther := machine.shared_step other request
        obtain ⟨answers, cells⟩ := ih (sharedNext.trans (shared.trans sharedOther.symm))
          (machine.cell_congr request shared cell)
        rw [List.filter_cons_of_pos (by simp)]
        simp only [Keyed.answers, Keyed.run, if_true]
        exact ⟨by rw [answers, machine.answer_congr request shared cell], cells⟩
      · have untouched := machine.frame state request key (Ne.symm named)
        obtain ⟨answers, cells⟩ := ih (sharedNext.trans shared) (untouched.trans cell)
        rw [List.filter_cons_of_neg (by simpa using named)]
        simp only [Keyed.answers, Keyed.run, if_neg named]
        exact ⟨answers, cells⟩

/-- Runs that agree on the order of the requests to every cell give the same
answers there and end with the same cells. -/
theorem run_congr {first second : List ρ} (state : σ)
    (agree : ∀ key, (first.filter fun request => machine.key request = key) =
      second.filter fun request => machine.key request = key) (key : κ) :
    machine.answers key state first = machine.answers key state second ∧
      machine.cell (machine.run state first) key = machine.cell (machine.run state second) key := by
  have shared : machine.shared state = machine.shared state := rfl
  obtain ⟨firstAnswers, firstCell⟩ := machine.run_filter key first shared rfl
  obtain ⟨secondAnswers, secondCell⟩ := machine.run_filter key second shared rfl
  rw [agree key] at firstAnswers firstCell
  exact ⟨firstAnswers.trans secondAnswers.symm, firstCell.trans secondCell.symm⟩

/-! ## Requests with variants -/

/-- Every request meets a condition, in the state before it. -/
def Meets (condition : σ → ρ → Prop) (state : σ) : List ρ → Prop
  | [] => True
  | request :: requests =>
      condition state request ∧ Meets condition (machine.step state request).2 requests

instance decidableMeets (condition : σ → ρ → Prop)
    [∀ state request, Decidable (condition state request)] (state : σ) :
    (requests : List ρ) → Decidable (machine.Meets condition state requests)
  | [] => isTrue trivial
  | request :: requests =>
      have := decidableMeets condition (machine.step state request).2 requests
      inferInstanceAs (Decidable (_ ∧ _))

/-- A condition looks at the shared part and at the cell of the request. -/
def Local (condition : σ → ρ → Prop) : Prop :=
  ∀ {state other : σ} (request : ρ), machine.shared state = machine.shared other →
    machine.cell state (machine.key request) = machine.cell other (machine.key request) →
      (condition state request ↔ condition other request)

/-- Every request has a variant for the same cell, and does as the variant does where the
condition is met.  The condition is local, and does not tell a request from its variant. -/
structure Variants (condition : σ → ρ → Prop) (variant : ρ → ρ) : Prop where
  local_condition : machine.Local condition
  condition_iff : ∀ state request, condition state (variant request) ↔ condition state request
  key_eq : ∀ request, machine.key (variant request) = machine.key request
  step_eq : ∀ {state request}, condition state request →
    machine.step state (variant request) = machine.step state request

section Variants

variable {machine} {condition : σ → ρ → Prop} {variant : ρ → ρ}

omit [DecidableEq κ] in
/-- Requests for one cell meet a local condition in any state that looks the same there. -/
theorem meets_congr (isLocal : machine.Local condition) (key : κ) {requests : List ρ}
    (named : ∀ request ∈ requests, machine.key request = key) {state other : σ}
    (shared : machine.shared state = machine.shared other)
    (cell : machine.cell state key = machine.cell other key) :
    machine.Meets condition state requests ↔ machine.Meets condition other requests := by
  induction requests generalizing state other with
  | nil => exact Iff.rfl
  | cons request requests ih =>
      obtain rfl := named request List.mem_cons_self
      have sharedNext := (machine.shared_step state request).trans
        (shared.trans (machine.shared_step other request).symm)
      exact and_congr (isLocal request shared cell)
        (ih (fun another member => named another (List.mem_cons_of_mem _ member)) sharedNext
          (machine.cell_congr request shared cell))

/-- A run meets a local condition if the requests for each cell do. -/
theorem meets_iff_filter (isLocal : machine.Local condition) (state : σ) (requests : List ρ) :
    machine.Meets condition state requests ↔
      ∀ key, machine.Meets condition state
        (requests.filter fun request => machine.key request = key) := by
  induction requests generalizing state with
  | nil => exact ⟨fun _ _ => trivial, fun _ => trivial⟩
  | cons request requests ih =>
      have elsewhere (key : κ) (other : key ≠ machine.key request) :
          machine.Meets condition (machine.step state request).2
              (requests.filter fun request => machine.key request = key) ↔
            machine.Meets condition state
              ((request :: requests).filter fun request => machine.key request = key) := by
        rw [List.filter_cons_of_neg (by simpa using other.symm)]
        exact meets_congr isLocal key
          (fun another member => of_decide_eq_true (List.mem_filter.mp member).2)
          (machine.shared_step state request) (machine.frame state request key other)
      have here : machine.Meets condition state
          ((request :: requests).filter fun other => machine.key other = machine.key request) ↔
            condition state request ∧ machine.Meets condition (machine.step state request).2
              (requests.filter fun other => machine.key other = machine.key request) := by
        rw [List.filter_cons_of_pos (by simp)]
        exact Iff.rfl
      rw [Meets, ih]
      constructor
      · rintro ⟨meets, rest⟩ key
        by_cases same : key = machine.key request
        · subst same
          exact here.mpr ⟨meets, rest _⟩
        · exact (elsewhere key same).mp (rest key)
      · intro all
        refine ⟨(here.mp (all _)).1, fun key => ?_⟩
        by_cases same : key = machine.key request
        · subst same
          exact (here.mp (all _)).2
        · exact (elsewhere key same).mpr (all key)

/-- Where the condition is met, a run over the variants goes as the run over the requests. -/
theorem Variants.run_map (variants : machine.Variants condition variant) {state : σ}
    {requests : List ρ} (meets : machine.Meets condition state requests) :
    machine.run state (requests.map variant) = machine.run state requests ∧
      ∀ key, machine.answers key state (requests.map variant) =
        machine.answers key state requests := by
  induction requests generalizing state with
  | nil => exact ⟨rfl, fun _ => rfl⟩
  | cons request requests ih =>
      obtain ⟨run, answers⟩ := ih meets.2
      simp only [List.map_cons, Keyed.run, Keyed.answers, variants.step_eq meets.1,
        variants.key_eq, run, answers]
      exact ⟨trivial, fun _ => trivial⟩

omit [DecidableEq κ] in
theorem Variants.meets_map (variants : machine.Variants condition variant) (state : σ)
    (requests : List ρ) :
    machine.Meets condition state (requests.map variant) ↔
      machine.Meets condition state requests := by
  induction requests generalizing state with
  | nil => exact Iff.rfl
  | cons request requests ih =>
      rw [List.map_cons, Meets, Meets, variants.condition_iff]
      refine and_congr_right fun meets => ?_
      rw [variants.step_eq meets, ih]

/-- Runs over variants of the same requests, in the same order for every cell, give the same
answers there and end with the same cells, if one of them meets the condition. -/
theorem Variants.run_congr (variants : machine.Variants condition variant)
    {first second : List ρ} (state : σ)
    (agree : ∀ key, ((first.filter fun request => machine.key request = key).map variant) =
      (second.filter fun request => machine.key request = key).map variant)
    (meets : machine.Meets condition state first) (key : κ) :
    machine.answers key state first = machine.answers key state second ∧
      machine.cell (machine.run state first) key = machine.cell (machine.run state second) key := by
  have mapped (requests : List ρ) (key : κ) :
      (requests.map variant).filter (fun request => machine.key request = key) =
        (requests.filter fun request => machine.key request = key).map variant := by
    rw [List.filter_map]
    congr 2
    funext request
    simp only [Function.comp_apply, variants.key_eq]
  have agreeMapped (key : κ) :
      ((first.map variant).filter fun request => machine.key request = key) =
        (second.map variant).filter fun request => machine.key request = key := by
    rw [mapped, mapped, agree]
  have meetsSecond : machine.Meets condition state second := by
    rw [← variants.meets_map, meets_iff_filter variants.local_condition] at meets ⊢
    intro key
    rw [← agreeMapped]
    exact meets key
  obtain ⟨firstRun, firstAnswers⟩ := variants.run_map meets
  obtain ⟨secondRun, secondAnswers⟩ := variants.run_map meetsSecond
  rw [← firstRun, ← secondRun, ← firstAnswers, ← secondAnswers]
  exact Keyed.run_congr machine state agreeMapped key

end Variants

end Keyed

end P2PFileShare.Transition
