import Mathlib.Data.List.Forall2
import Mathlib.Data.List.DropRight

namespace RatboxServices

/-! Patterns with stars over any letters: what such a pattern matches, and
which part of a match can be settled from the left. -/

section Glob

variable {α β : Type} (star : α → Prop) (fits : α → β → Prop)

inductive Glob : List α → List β → Prop
  | nil : Glob [] []
  | fit {a : α} {b : β} {pattern : List α} {text : List β}
      (letter : ¬star a) (fit : fits a b) (rest : Glob pattern text) :
      Glob (a :: pattern) (b :: text)
  | skip {a : α} {pattern : List α} {text : List β} (wild : star a)
      (rest : Glob pattern text) : Glob (a :: pattern) text
  | take {a : α} {b : β} {pattern : List α} {text : List β} (wild : star a)
      (rest : Glob (a :: pattern) text) : Glob (a :: pattern) (b :: text)

namespace Glob

variable {star : α → Prop} {fits : α → β → Prop} {a : α} {pattern rest : List α}
  {text : List β}

theorem nil_iff : Glob star fits [] text ↔ text = [] := by
  constructor
  · intro glob
    cases glob
    rfl
  · rintro rfl
    exact .nil

theorem cons_iff (letter : ¬star a) :
    Glob star fits (a :: rest) text ↔
      ∃ b others, text = b :: others ∧ fits a b ∧ Glob star fits rest others := by
  constructor
  · intro glob
    cases glob with
    | fit _ fit glob => exact ⟨_, _, rfl, fit, glob⟩
    | skip wild _ => exact absurd wild letter
    | take wild _ => exact absurd wild letter
  · rintro ⟨b, others, rfl, fit, glob⟩
    exact .fit letter fit glob

theorem star_iff (wild : star a) :
    Glob star fits (a :: rest) text ↔
      ∃ taken others, text = taken ++ others ∧ Glob star fits rest others := by
  constructor
  · intro glob
    induction text with
    | nil =>
        cases glob with
        | skip _ glob => exact ⟨[], [], rfl, glob⟩
    | cons b text ih =>
        cases glob with
        | fit letter _ _ => exact absurd wild letter
        | skip _ glob => exact ⟨[], b :: text, rfl, glob⟩
        | take _ glob =>
            obtain ⟨taken, others, same, glob⟩ := ih glob
            exact ⟨b :: taken, others, by rw [same, List.cons_append], glob⟩
  · rintro ⟨taken, others, rfl, glob⟩
    induction taken with
    | nil => exact .skip wild glob
    | cons b taken ih => exact .take wild ih

theorem append_iff {front : List α} (letters : ∀ a ∈ front, ¬star a) :
    Glob star fits (front ++ rest) text ↔
      ∃ taken others, text = taken ++ others ∧
        List.Forall₂ fits front taken ∧ Glob star fits rest others := by
  induction front generalizing text with
  | nil => simp
  | cons a front ih =>
      have later : ∀ a ∈ front, ¬star a :=
        fun a listed => letters a (List.mem_cons_of_mem _ listed)
      rw [List.cons_append, cons_iff (letters a List.mem_cons_self)]
      constructor
      · rintro ⟨b, others, rfl, fit, glob⟩
        obtain ⟨taken, others, rfl, fits, glob⟩ := (ih later).mp glob
        exact ⟨b :: taken, others, rfl, .cons fit fits, glob⟩
      · rintro ⟨taken, others, rfl, fits, glob⟩
        cases fits with
        | cons fit fits =>
            exact ⟨_, _, rfl, fit, (ih later).mpr ⟨_, _, rfl, fits, glob⟩⟩

theorem of_forall₂ {front : List α} {taken others : List β}
    (letters : ∀ a ∈ front, ¬star a) (fit : List.Forall₂ fits front taken)
    (glob : Glob star fits rest others) :
    Glob star fits (front ++ rest) (taken ++ others) :=
  (append_iff letters).mpr ⟨taken, others, rfl, fit, glob⟩

theorem append_iff_of_fit {front : List α} {taken others : List β}
    (letters : ∀ a ∈ front, ¬star a) (fit : List.Forall₂ fits front taken) :
    Glob star fits (front ++ rest) (taken ++ others) ↔
      Glob star fits rest others := by
  constructor
  · intro glob
    obtain ⟨first, left, same, fitted, inner⟩ := (append_iff letters).mp glob
    have length : taken.length = first.length :=
      fit.length_eq.symm.trans fitted.length_eq
    rw [(List.append_inj same length).2]
    exact inner
  · exact of_forall₂ letters fit

theorem star_swap_iff {other : α} (wild : star a) (again : star other) :
    Glob star fits (a :: rest) text ↔ Glob star fits (other :: rest) text := by
  rw [star_iff wild, star_iff again]

theorem star_star_iff {other : α} (wild : star a) (again : star other) :
    Glob star fits (a :: other :: rest) text ↔
      Glob star fits (other :: rest) text := by
  constructor
  · intro glob
    obtain ⟨taken, left, rfl, inner⟩ := (star_iff wild).mp glob
    obtain ⟨more, final, rfl, last⟩ := (star_iff again).mp inner
    exact (star_iff again).mpr
      ⟨taken ++ more, final, by rw [List.append_assoc], last⟩
  · exact fun glob => .skip wild glob

theorem stars_iff {stars : List α} (wild : star a)
    (all : ∀ other ∈ stars, star other) :
    Glob star fits (a :: (stars ++ rest)) text ↔
      Glob star fits (a :: rest) text := by
  induction stars generalizing a with
  | nil => rfl
  | cons other stars ih =>
      have again : star other := all other List.mem_cons_self
      rw [List.cons_append, star_star_iff wild again,
        ih again fun other listed => all other (List.mem_cons_of_mem _ listed),
        star_swap_iff again wild]

/-- The letters between two stars can be taken at the first place where they
fit: what they leave is the most that the second star can be given. -/
theorem star_append_star_iff {other : α} {front : List α} {taken others : List β}
    (wild : star a) (again : star other) (letters : ∀ a ∈ front, ¬star a)
    (fit : List.Forall₂ fits front taken) :
    Glob star fits (a :: (front ++ other :: rest)) (taken ++ others) ↔
      Glob star fits (other :: rest) others := by
  constructor
  · intro glob
    obtain ⟨skipped, left, same, inner⟩ := (star_iff wild).mp glob
    obtain ⟨later, after, rfl, fitted, second⟩ := (append_iff letters).mp inner
    obtain ⟨more, final, rfl, last⟩ := (star_iff again).mp second
    -- The second star ends behind `taken`, which is as long as `later`.
    have length : taken.length = later.length :=
      fit.length_eq.symm.trans fitted.length_eq
    have left : others =
        (skipped ++ (later ++ (more ++ final))).drop taken.length := by
      rw [← same, List.drop_left]
    refine (star_iff again).mpr
      ⟨(skipped ++ (later ++ more)).drop taken.length, final, ?_, last⟩
    have whole : skipped ++ (later ++ (more ++ final)) =
        (skipped ++ (later ++ more)) ++ final := by
      simp only [List.append_assoc]
    rw [left, whole, List.drop_append_of_le_length]
    rw [List.length_append, List.length_append]
    omega
  · intro glob
    exact .skip wild (of_forall₂ letters fit glob)

/-- A star in front of a pattern that does not match here takes one symbol
more. -/
theorem star_cons_iff {b : β} (wild : star a)
    (fails : ¬Glob star fits rest (b :: text)) :
    Glob star fits (a :: rest) (b :: text) ↔
      Glob star fits (a :: rest) text := by
  constructor
  · intro glob
    cases glob with
    | fit letter _ _ => exact absurd wild letter
    | skip _ glob => exact absurd glob fails
    | take _ glob => exact glob
  · exact fun glob => .take wild glob

theorem length_le {front : List α} (letters : ∀ a ∈ front, ¬star a)
    (glob : Glob star fits (front ++ rest) text) :
    front.length ≤ text.length := by
  obtain ⟨taken, others, rfl, fit, _⟩ := (append_iff letters).mp glob
  rw [fit.length_eq, List.length_append]
  exact Nat.le_add_right _ _

theorem star_of_length_le (wild : star a) (letters : ∀ a ∈ rest, ¬star a)
    (any : ∀ a ∈ rest, ∀ b, fits a b) (long : rest.length ≤ text.length) :
    Glob star fits (a :: rest) text := by
  have split := List.take_append_drop (text.length - rest.length) text
  refine (star_iff wild).mpr ⟨_, _, split.symm, ?_⟩
  have length : (text.drop (text.length - rest.length)).length =
      rest.length := by
    rw [List.length_drop]
    omega
  generalize text.drop (text.length - rest.length) = final at length
  clear split long
  induction rest generalizing final with
  | nil => exact nil_iff.mpr (List.length_eq_zero_iff.mp length)
  | cons a rest ih =>
      cases final with
      | nil => cases length
      | cons b final =>
          exact .fit (letters a List.mem_cons_self)
            (any a List.mem_cons_self b)
            (ih (fun a listed => letters a (List.mem_cons_of_mem _ listed))
              (fun a listed => any a (List.mem_cons_of_mem _ listed)) final
              (Nat.succ.inj length))

end Glob

end Glob

end RatboxServices
