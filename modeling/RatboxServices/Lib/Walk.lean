import RatboxServices.Lib.Dlink
import RatboxServices.Lib.Outcome

namespace RatboxServices

/-! Walks over a list whose turns may unlink the node they are at. The next
node is read before the turn, from the list as it is then. -/

namespace Dlink

variable {α : Type} [DecidableEq α]

def next (item : α) : List α → Option α
  | [] => none
  | head :: rest => if head = item then rest.head? else next item rest

theorem next_append {item : α} {before rest : List α}
    (absent : item ∉ before) :
    next item (before ++ item :: rest) = rest.head? := by
  induction before with
  | nil => simp [next]
  | cons head others ih =>
      rw [List.mem_cons, not_or] at absent
      rw [List.cons_append, next, if_neg (Ne.symm absent.1)]
      exact ih absent.2

theorem delete_append {item : α} {before rest : List α}
    (absent : item ∉ before) :
    delete item (before ++ item :: rest) = before ++ rest := by
  rw [delete, List.erase_append_right _ absent, List.erase_cons_head]

end Dlink

section Walk

variable {α σ ε : Type}

/-- `RB_DLINK_FOREACH_SAFE` from a node on, for at most so many turns. A walk
that is not at the end by then stops. -/
def foreachSafe (stop : ε) (nextOf : σ → α → Except ε (Option α))
    (turn : α → σ → Except ε σ) : Nat → Option α → σ → Except ε σ
  | _, none, s => .ok s
  | 0, some _, _ => .error stop
  | turns + 1, some node, s => do
      let next ← nextOf s node
      let s ← turn node s
      foreachSafe stop nextOf turn turns next s

variable [DecidableEq α] {stop : ε} {nextOf : σ → α → Except ε (Option α)}
  {turn : α → σ → Except ε σ}

theorem foreachSafe_ok (nodes : σ → List α) (Inv : σ → Prop)
    (nodup : ∀ s, Inv s → (nodes s).Nodup)
    (reads : ∀ s node, Inv s → node ∈ nodes s →
      nextOf s node = .ok (Dlink.next node (nodes s)))
    (turns : ∀ s node, Inv s → node ∈ nodes s →
      ∃ t, turn node s = .ok t ∧ Inv t ∧
        (nodes t = nodes s ∨ nodes t = Dlink.delete node (nodes s)))
    {s : σ} (start : Inv s) :
    ∃ t, foreachSafe stop nextOf turn (nodes s).length (nodes s).head? s =
      .ok t ∧ Inv t := by
  suffices walk : ∀ rest before s, Inv s → nodes s = before ++ rest →
      ∃ t, foreachSafe stop nextOf turn rest.length rest.head? s = .ok t ∧
        Inv t from
    walk (nodes s) [] s start rfl
  intro rest
  induction rest with
  | nil => exact fun before s inv listed => ⟨s, rfl, inv⟩
  | cons node rest ih =>
      intro before s inv listed
      have once : (before ++ node :: rest).Nodup := listed ▸ nodup s inv
      have absent : node ∉ before := by
        intro earlier
        exact (List.nodup_append.mp once).2.2 node earlier node (by simp) rfl
      have here : node ∈ nodes s := by simp [listed]
      have read : nextOf s node = .ok rest.head? := by
        rw [reads s node inv here, listed, Dlink.next_append absent]
      obtain ⟨t, turned, kept, shape⟩ := turns s node inv here
      obtain ⟨before, left⟩ : ∃ before, nodes t = before ++ rest := by
        obtain same | gone := shape
        · exact ⟨before ++ [node], by rw [same, listed, List.append_assoc]; rfl⟩
        · exact ⟨before, by rw [gone, listed, Dlink.delete_append absent]⟩
      obtain ⟨u, ended, final⟩ := ih before t kept left
      refine ⟨u, ?_, final⟩
      simp only [List.length_cons, List.head?_cons, foreachSafe]
      exact Except.bind_eq_ok.mpr ⟨_, read, Except.bind_eq_ok.mpr ⟨t, turned, ended⟩⟩

end Walk

end RatboxServices
