import Mathlib.Logic.Basic
import Mathlib.Data.List.Basic

/-!
# Histories and what they justify

A run of a transition system records its events, newest first.  `Since` is the
past-time operator over such a history: something happened, and nothing has
undone it since.  `Run.since_iff` derives it for a property of the state from
what one step can do, so that a statement about whole histories is proved step
by step.
-/

namespace P2PFileShare.Transition

section Since

variable {ε : Type} {hold start : ε → List ε → Prop}

/-- At some point of the history `start` was true, and at every later point
`hold` was.  Both see the event together with the history before it. -/
def Since (hold start : ε → List ε → Prop) : List ε → Prop
  | [] => False
  | event :: past => start event past ∨ (hold event past ∧ Since hold start past)

theorem not_since_nil : ¬Since hold start [] :=
  id

theorem since_cons {event : ε} {past : List ε} :
    Since hold start (event :: past) ↔
      start event past ∨ (hold event past ∧ Since hold start past) :=
  Iff.rfl

/-- The operator spelled out: the history splits at the event that started it. -/
theorem since_iff_split {history : List ε} :
    Since hold start history ↔
      ∃ later event past, history = later ++ event :: past ∧ start event past ∧
        ∀ newer next older, later = newer ++ next :: older →
          hold next (older ++ event :: past) := by
  induction history with
  | nil => simp [Since]
  | cons latest history ih =>
      rw [since_cons, ih]
      constructor
      · rintro (started | ⟨held, later, event, past, rfl, started, holds⟩)
        · exact ⟨[], latest, history, rfl, started, by simp⟩
        · refine ⟨latest :: later, event, past, rfl, started, ?_⟩
          intro newer next older split
          cases newer with
          | nil =>
              obtain ⟨rfl, rfl⟩ := List.cons.inj split
              exact held
          | cons _ newer => exact holds newer next older (List.cons.inj split).2
      · rintro ⟨later, event, past, split, started, holds⟩
        cases later with
        | nil =>
            obtain ⟨rfl, rfl⟩ := List.cons.inj split
            exact Or.inl started
        | cons first later =>
            obtain ⟨rfl, rfl⟩ := List.cons.inj split
            refine Or.inr ⟨holds [] latest later rfl, later, event, past, rfl, started, ?_⟩
            intro newer next older inner
            exact holds (latest :: newer) next older (congrArg (latest :: ·) inner)

end Since

/-- The states a system can reach, with the events on the way, newest first. -/
inductive Run {σ ε : Type} (initial : σ) (step : σ → ε → σ → Prop) : List ε → σ → Prop
  | start : Run initial step [] initial
  | step {past : List ε} {source target : σ} {event : ε} :
      Run initial step past source → step source event target →
        Run initial step (event :: past) target

namespace Run

variable {σ ε : Type} {initial : σ} {step : σ → ε → σ → Prop} {history : List ε} {state : σ}

/-- What holds initially and is preserved by every step holds of every state
reached. -/
theorem invariant {p : List ε → σ → Prop} (run : Run initial step history state)
    (initially : p [] initial)
    (preserved : ∀ past source event target, Run initial step past source → p past source →
      step source event target → p (event :: past) target) : p history state := by
  induction run with
  | start => exact initially
  | step earlier last ih => exact preserved _ _ _ _ earlier ih last

/-- When a step out of a good state leads to a good one exactly if it is `kept`, the runs
of kept steps are the runs through good states.  The decision may rest on an invariant of
all runs. -/
theorem kept_iff_good {kept : σ → ε → Prop} {good p : σ → Prop}
    (initially : p initial) (goodInitially : good initial)
    (preserved : ∀ source event target, p source → step source event target → p target)
    (decided : ∀ source event target, p source → good source →
      step source event target → (good target ↔ kept source event)) :
    Run initial (fun source event target => step source event target ∧ kept source event)
        history state ↔
      Run initial (fun source event target => step source event target ∧ good target)
        history state := by
  have invariantOf {restriction : σ → ε → σ → Prop} {history : List ε} {state : σ}
      (run : Run initial (fun source event target =>
        step source event target ∧ restriction source event target) history state) :
      p state :=
    run.invariant initially fun _ source event target _ before last =>
      preserved source event target before last.1
  have goodOf {history : List ε} {state : σ}
      (run : Run initial (fun source event target => step source event target ∧ good target)
        history state) : good state := by
    cases run with
    | start => exact goodInitially
    | step _ last => exact last.2
  constructor
  · intro run
    induction run with
    | start => exact .start
    | step earlier last ih =>
        exact ih.step ⟨last.1, (decided _ _ _ (invariantOf earlier) (goodOf ih) last.1).mpr last.2⟩
  · intro run
    induction run with
    | start => exact .start
    | step earlier last ih =>
        exact ih.step
          ⟨last.1, (decided _ _ _ (invariantOf earlier) (goodOf earlier) last.1).mp last.2⟩

/-- A property that only `start` establishes, and that no step loses unless
`hold` fails, is justified by the history. -/
theorem since {hold start : ε → List ε → Prop} {p : σ → Prop}
    (run : Run initial step history state) (initially : ¬p initial)
    (justified : ∀ past source event target, Run initial step past source →
      step source event target → p target → start event past ∨ (hold event past ∧ p source))
    (holds : p state) : Since hold start history := by
  induction run with
  | start => exact absurd holds initially
  | step earlier last ih =>
      rcases justified _ _ _ _ earlier last holds with started | ⟨held, before⟩
      · exact Or.inl started
      · exact Or.inr ⟨held, ih before⟩

/-- When a step decides a property exactly, the history does. -/
theorem since_iff {hold start : ε → List ε → Prop} {p : σ → Prop}
    (run : Run initial step history state) (initially : ¬p initial)
    (decided : ∀ past source event target, Run initial step past source →
      step source event target → (p target ↔ start event past ∨ (hold event past ∧ p source))) :
    Since hold start history ↔ p state := by
  induction run with
  | start => exact iff_of_false not_since_nil initially
  | step earlier last ih => rw [since_cons, ih, decided _ _ _ _ earlier last]

/-- A run can be continued by one that starts where it ends. -/
theorem append {past later : List ε} {middle target : σ} (first : Run initial step past middle)
    (second : Run middle step later target) : Run initial step (later ++ past) target := by
  induction second with
  | start => exact first
  | step _ last ih => exact ih.step last

theorem mono {wider : σ → ε → σ → Prop} (run : Run initial step history state)
    (included : ∀ source event target, step source event target → wider source event target) :
    Run initial wider history state := by
  induction run with
  | start => exact .start
  | step _ last ih => exact ih.step (included _ _ _ last)

end Run

end P2PFileShare.Transition
