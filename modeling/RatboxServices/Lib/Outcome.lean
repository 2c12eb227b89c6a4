import RatboxServices.Lib.Run

namespace RatboxServices

/-! Rules for the outcome of a computation that may stop: what holds of its
result, and what holds of the reason it stops for. -/

def Outcome {ε α : Type} (Fails : ε → Prop) (Gives : α → Prop) :
    Except ε α → Prop
  | .ok value => Gives value
  | .error reason => Fails reason

/-- Partial correctness: the result, if there is one, satisfies `Gives`. -/
abbrev Ensures {ε α : Type} (Gives : α → Prop) (result : Except ε α) :
    Prop :=
  Outcome (fun _ => True) Gives result

namespace Outcome

variable {ε α β : Type} {Fails Fails' : ε → Prop} {Gives Gives' : α → Prop}
  {Then : β → Prop} {first : Except ε α} {second : α → Except ε β}

theorem ok {value : α} (gives : Gives value) :
    Outcome Fails Gives (.ok value : Except ε α) := gives

theorem error {reason : ε} (fails : Fails reason) :
    Outcome Fails Gives (.error reason : Except ε α) := fails

theorem mono (outcome : Outcome Fails Gives first)
    (fails : ∀ reason, Fails reason → Fails' reason)
    (gives : ∀ value, Gives value → Gives' value) :
    Outcome Fails' Gives' first := by
  cases first with
  | ok value => exact gives value outcome
  | error reason => exact fails reason outcome

theorem imp (outcome : Outcome Fails Gives first)
    (gives : ∀ value, Gives value → Gives' value) :
    Outcome Fails Gives' first :=
  outcome.mono (fun _ fails => fails) gives

theorem bind (outcome : Outcome Fails Gives first)
    (next : ∀ value, Gives value → Outcome Fails Then (second value)) :
    Outcome Fails Then (first >>= second) := by
  cases first with
  | ok value => exact next value outcome
  | error reason => exact outcome

theorem of_ok {result : α} (outcome : Outcome Fails Gives first)
    (returned : first = .ok result) : Gives result := by
  subst returned
  exact outcome

theorem exists_ok (outcome : Outcome (fun _ => False) Gives first) :
    ∃ value, first = .ok value ∧ Gives value := by
  cases first with
  | ok value => exact ⟨value, rfl, outcome⟩
  | error reason => exact outcome.elim

theorem of_exists_ok (returns : ∃ value, first = .ok value ∧ Gives value) :
    Outcome Fails Gives first := by
  obtain ⟨value, rfl, gives⟩ := returns
  exact gives

theorem of_error {reason : ε} (outcome : Outcome Fails Gives first)
    (stopped : first = .error reason) : Fails reason := by
  subst stopped
  exact outcome

theorem foldlM {σ : Type} (Inv : σ → Prop) {turn : σ → α → Except ε σ}
    {list : List α} {start : σ} (init : Inv start)
    (kept : ∀ state, Inv state → ∀ item ∈ list,
      Outcome Fails Inv (turn state item)) :
    Outcome Fails Inv (list.foldlM turn start) := by
  induction list generalizing start with
  | nil => exact init
  | cons item rest ih =>
      rw [List.foldlM_cons]
      refine bind (kept start init item (by simp)) fun state inv => ?_
      exact ih inv fun state inv item member =>
        kept state inv item (List.mem_cons_of_mem _ member)

end Outcome

namespace Ensures

variable {ε α β : Type} {Gives : β → Prop} {first : Except ε α}
  {second : α → Except ε β}

theorem bind (next : ∀ value, first = .ok value →
    Ensures Gives (second value)) : Ensures Gives (first >>= second) := by
  cases first with
  | ok value => exact next value rfl
  | error reason => exact trivial

theorem intro {Gives : α → Prop}
    (gives : ∀ value, first = .ok value → Gives value) :
    Ensures Gives first := by
  cases first with
  | ok value => exact gives value rfl
  | error reason => exact trivial

theorem mapError {δ : Type} {Gives : α → Prop} {change : ε → δ}
    (ensures : Ensures Gives first) :
    Ensures Gives (first.mapError change) := by
  cases first with
  | ok value => exact ensures
  | error reason => exact trivial

end Ensures

end RatboxServices
