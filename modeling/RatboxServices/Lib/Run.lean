import Mathlib.Data.List.Basic

namespace RatboxServices

/-! Runs of a step function that may stop. A stopped run has no state after
it; an invariant of the steps that do not stop holds in every state reached. -/

theorem Except.ok_bind {ε α β : Type} (value : α) (next : α → Except ε β) :
    (Except.ok value >>= next) = next value := rfl

theorem Except.bind_eq_ok {ε α β : Type} {first : Except ε α}
    {second : α → Except ε β} {result : β} :
    (first >>= second) = .ok result ↔
      ∃ middle, first = .ok middle ∧ second middle = .ok result := by
  cases first with
  | error reason =>
      constructor
      · intro impossible
        cases impossible
      · rintro ⟨_, impossible, _⟩
        cases impossible
  | ok middle =>
      constructor
      · intro equation
        exact ⟨middle, rfl, equation⟩
      · rintro ⟨value, same, equation⟩
        cases same
        exact equation

theorem Except.exists_of_observed {ε α β : Type} {result : Except ε α}
    {observe : α → β} {seen : β}
    (observed : result.toOption.map observe = some seen) :
    ∃ value, result = .ok value ∧ observe value = seen := by
  cases result with
  | error reason => cases observed
  | ok value => exact ⟨value, rfl, Option.some.inj observed⟩

section Run

variable {σ ε α : Type}

def run (step : σ → α → Except ε σ) : σ → List α → Except ε σ
  | state, [] => .ok state
  | state, event :: rest => step state event >>= fun after =>
      run step after rest

@[simp] theorem run_nil (step : σ → α → Except ε σ) (state : σ) :
    run step state [] = .ok state := rfl

variable {step : σ → α → Except ε σ} {Condition : σ → α → Prop}
  {events : List α}

theorem run_cons_eq_ok {state final : σ} {event : α} {rest : List α} :
    run step state (event :: rest) = .ok final ↔
      ∃ after, step state event = .ok after ∧
        run step after rest = .ok final := by
  rw [run, Except.bind_eq_ok]

theorem run_append_eq_ok {state final : σ} {first second : List α} :
    run step state (first ++ second) = .ok final ↔
      ∃ middle, run step state first = .ok middle ∧
        run step middle second = .ok final := by
  induction first generalizing state with
  | nil => simp
  | cons event rest ih =>
      simp only [List.cons_append, run_cons_eq_ok, ih]
      constructor
      · rintro ⟨after, stepped, middle, left, right⟩
        exact ⟨middle, ⟨after, stepped, left⟩, right⟩
      · rintro ⟨middle, ⟨after, stepped, left⟩, right⟩
        exact ⟨after, stepped, middle, left, right⟩

/-- Every step of the run meets `Condition` in the state before it. -/
def Meets (step : σ → α → Except ε σ) (Condition : σ → α → Prop) :
    σ → List α → Prop
  | _, [] => True
  | state, event :: rest =>
      Condition state event ∧
        ∀ after, step state event = .ok after →
          Meets step Condition after rest

def Except.decidableForall {result : Except ε σ} {P : σ → Prop}
    (decide : ∀ value, Decidable (P value)) :
    Decidable (∀ value, result = .ok value → P value) :=
  match result with
  | .error _ => isTrue fun _ impossible => nomatch impossible
  | .ok value =>
      match decide value with
      | isTrue holds => isTrue fun _ same => Except.ok.inj same ▸ holds
      | isFalse fails => isFalse fun all => fails (all value rfl)

instance Meets.decidable (step : σ → α → Except ε σ)
    (Condition : σ → α → Prop)
    [∀ state event, Decidable (Condition state event)] :
    ∀ state events, Decidable (Meets step Condition state events)
  | _, [] => isTrue trivial
  | state, event :: rest =>
      have : Decidable (∀ after, step state event = .ok after →
          Meets step Condition after rest) :=
        Except.decidableForall fun after =>
          Meets.decidable step Condition after rest
      inferInstanceAs (Decidable (_ ∧ _))

theorem meets_of_mem (always : ∀ event ∈ events, ∀ state, Condition state event)
    (state : σ) : Meets step Condition state events := by
  induction events generalizing state with
  | nil => exact trivial
  | cons event rest ih =>
      refine ⟨always event (by simp) state, fun after _ => ih ?_ after⟩
      exact fun event later => always event (List.mem_cons_of_mem _ later)

theorem meets_of_forall (always : ∀ state event, Condition state event)
    (state : σ) (events : List α) : Meets step Condition state events :=
  meets_of_mem (fun event _ state => always state event) state

theorem Meets.mono {Condition Weaker : σ → α → Prop}
    (weaker : ∀ state event, Condition state event → Weaker state event)
    {state : σ} (meets : Meets step Condition state events) :
    Meets step Weaker state events := by
  induction events generalizing state with
  | nil => exact trivial
  | cons event rest ih =>
      exact ⟨weaker state event meets.1,
        fun after stepped => ih (meets.2 after stepped)⟩

/-- Conditions that hold along an invariant, which they keep. -/
theorem Meets.carry {Condition Fits : σ → α → Prop} (Invariant : σ → Prop)
    (fits : ∀ state event, Invariant state → Condition state event →
      Fits state event)
    (kept : ∀ state event after, Fits state event → Invariant state →
      step state event = .ok after → Invariant after) {state : σ}
    (meets : Meets step Condition state events) (start : Invariant state) :
    Meets step Fits state events := by
  induction events generalizing state with
  | nil => exact trivial
  | cons event rest ih =>
      have here : Fits state event := fits state event start meets.1
      exact ⟨here, fun after stepped => ih (meets.2 after stepped)
        (kept state event after here start stepped)⟩

theorem Meets.left {state : σ} {first second : List α}
    (meets : Meets step Condition state (first ++ second)) :
    Meets step Condition state first := by
  induction first generalizing state with
  | nil => exact trivial
  | cons event rest ih =>
      exact ⟨meets.1, fun next stepped => ih (meets.2 next stepped)⟩

theorem Meets.after {state middle : σ} {first second : List α}
    (meets : Meets step Condition state (first ++ second))
    (reached : run step state first = .ok middle) :
    Meets step Condition middle second := by
  induction first generalizing state with
  | nil =>
      cases reached
      exact meets
  | cons event rest ih =>
      obtain ⟨next, stepped, remaining⟩ := run_cons_eq_ok.mp reached
      exact ih (meets.2 next stepped) remaining

def FinalLast (step : σ → α → Except ε σ) (final : σ → α → Bool) :
    σ → List α → Prop
  | _, [] => True
  | state, event :: rest =>
      (final state event = true → rest = []) ∧
        ∀ after, step state event = .ok after →
          FinalLast step final after rest

instance FinalLast.decidable [DecidableEq α] (step : σ → α → Except ε σ)
    (final : σ → α → Bool) :
    ∀ state events, Decidable (FinalLast step final state events)
  | _, [] => isTrue trivial
  | state, event :: rest =>
      have : Decidable (∀ after, step state event = .ok after →
          FinalLast step final after rest) :=
        Except.decidableForall fun after =>
          FinalLast.decidable step final after rest
      inferInstanceAs (Decidable (_ ∧ _))

theorem FinalLast.meets {final : σ → α → Bool} (Good : σ → Prop)
    (kept : ∀ state event after, Good state → final state event = false →
      step state event = .ok after → Good after) {state : σ}
    (last : FinalLast step final state events) (good : Good state) :
    Meets step (fun state _ => Good state) state events := by
  induction events generalizing state with
  | nil => exact trivial
  | cons event rest ih =>
      refine ⟨good, fun after stepped => ?_⟩
      cases ends : final state event with
      | true =>
          rw [last.1 ends]
          exact trivial
      | false =>
          exact ih (last.2 after stepped) (kept state event after good ends stepped)

theorem run_preserves_of_meets (Invariant : σ → Prop)
    (kept : ∀ state event after, Condition state event → Invariant state →
      step state event = .ok after → Invariant after) {state final : σ}
    (meets : Meets step Condition state events) (start : Invariant state)
    (reached : run step state events = .ok final) : Invariant final := by
  induction events generalizing state with
  | nil =>
      cases reached
      exact start
  | cons event rest ih =>
      obtain ⟨after, stepped, remaining⟩ := run_cons_eq_ok.mp reached
      exact ih (meets.2 after stepped)
        (kept state event after meets.1 start stepped) remaining

theorem run_of_meets (Invariant : σ → Prop)
    (goes : ∀ state event, Condition state event → Invariant state →
      ∃ after, step state event = .ok after ∧ Invariant after) {state : σ}
    (meets : Meets step Condition state events) (start : Invariant state) :
    ∃ final, run step state events = .ok final ∧ Invariant final := by
  induction events generalizing state with
  | nil => exact ⟨state, rfl, start⟩
  | cons event rest ih =>
      obtain ⟨after, stepped, kept⟩ := goes state event meets.1 start
      obtain ⟨final, remaining, holds⟩ := ih (meets.2 after stepped) kept
      exact ⟨final, run_cons_eq_ok.mpr ⟨after, stepped, remaining⟩, holds⟩

theorem run_preserves (Invariant : σ → Prop)
    (kept : ∀ state event after, Invariant state →
      step state event = .ok after → Invariant after) {state final : σ}
    (start : Invariant state) (reached : run step state events = .ok final) :
    Invariant final :=
  run_preserves_of_meets Invariant
    (fun state event after _ => kept state event after)
    (meets_of_forall (fun _ _ => trivial) state events) start reached

end Run

end RatboxServices
