import RatboxServices.Lib.Dlink

namespace RatboxServices

/-! A list that collects who gets a status. Along a sequence of states in each
of which an item has the status or not, the list holds exactly the items that
have it now and lacked it at some time. -/

section Track

variable {σ α : Type} {Has : σ → α → Prop} {list : σ → List α} {s t : σ}

inductive Turn [DecidableEq α] (Has : σ → α → Prop) (list : σ → List α)
    (s t : σ) : Prop where
  | same (kept : ∀ item, Has t item ↔ Has s item) (listed : list t = list s)
  | gain (item : α) (lacked : ¬Has s item)
      (has : ∀ other, Has t other ↔ other = item ∨ Has s other)
      (listed : list t = Dlink.add item (list s))
  | lose (item : α) (has : ∀ other, Has t other ↔ other ≠ item ∧ Has s other)
      (listed : list t = Dlink.findDestroy item (list s))

/-- The list holds those of `Lacked` that have the status, and everyone who
lacks it is in `Lacked`. -/
structure Tracks (Has : σ → α → Prop) (list : σ → List α)
    (Lacked : α → Prop) (s : σ) : Prop where
  exactly : Exactly (list s) fun item => Has s item ∧ Lacked item
  here : ∀ item, ¬Has s item → Lacked item

namespace Tracks

variable {Lacked Other : α → Prop}

theorem start (empty : list s = []) :
    Tracks Has list (fun item => ¬Has s item) s where
  exactly := by
    rw [empty]
    exact .nil fun item both => both.2 both.1
  here := fun _ lacks => lacks

theorem congr (tracks : Tracks Has list Lacked s)
    (same : ∀ item, Lacked item ↔ Other item) : Tracks Has list Other s where
  exactly := tracks.exactly.congr fun item => by rw [same item]
  here := fun item lacks => (same item).mp (tracks.here item lacks)

theorem turn [DecidableEq α] (tracks : Tracks Has list Lacked s)
    (step : Turn Has list s t) :
    Tracks Has list (fun item => Lacked item ∨ ¬Has t item) t where
  exactly := by
    cases step with
    | same kept listed =>
        rw [listed]
        refine tracks.exactly.congr fun item => ?_
        rw [kept item]
        tauto
    | gain item lacked has listed =>
        rw [listed]
        refine (tracks.exactly.add fun both => lacked both.1).congr
          fun other => ?_
        have known := tracks.here item lacked
        rw [has other]
        constructor
        · rintro (rfl | ⟨had, before⟩)
          · exact ⟨Or.inl rfl, Or.inl known⟩
          · exact ⟨Or.inr had, Or.inl before⟩
        · rintro ⟨rfl | had, before | never⟩
          · exact Or.inl rfl
          · exact Or.inl rfl
          · exact Or.inr ⟨had, before⟩
          · exact absurd (Or.inr had) never
    | lose item has listed =>
        rw [listed]
        refine (tracks.exactly.delete item).congr fun other => ?_
        rw [has other]
        tauto
  here := fun item lacks => Or.inr lacks

end Tracks

end Track

end RatboxServices
