import Mathlib.Data.List.Induction

namespace RatboxServices

/-! Stores that are assigned to, one assignment after the other. -/

section Assign

variable {σ κ ι β : Type} [DecidableEq κ] [DecidableEq ι]

def firstFor (key : κ) (assignments : List (κ × β)) : Option β :=
  (assignments.find? fun assignment => assignment.1 = key).map Prod.snd

def lastFor (key : κ) (assignments : List (κ × β)) : Option β :=
  firstFor key assignments.reverse

/-- An assignment gives its key the value if the key is there, and no other
key another value. -/
structure Assigns (look : κ → σ → Option β) (assign : σ → κ × β → σ) :
    Prop where
  self : ∀ store key value,
    look key (assign store (key, value)) = (look key store).map fun _ => value
  other : ∀ store key value key', key ≠ key' →
    look key' (assign store (key, value)) = look key' store

variable {look : κ → σ → Option β} {assign : σ → κ × β → σ}
  {assignments : List (κ × β)} {key : κ}

theorem firstFor_cons (assignment : κ × β) :
    firstFor key (assignment :: assignments) =
      if assignment.1 = key then some assignment.2
      else firstFor key assignments := by
  unfold firstFor
  rw [List.find?_cons]
  split
  · rename_i same
    rw [if_pos (by simpa using same)]
    rfl
  · rename_i different
    rw [if_neg (by simpa using different)]

theorem lastFor_concat (assignment : κ × β) :
    lastFor key (assignments ++ [assignment]) =
      if assignment.1 = key then some assignment.2
      else lastFor key assignments := by
  rw [lastFor, List.reverse_concat, firstFor_cons, lastFor]

theorem lastFor_reverse :
    lastFor key assignments.reverse = firstFor key assignments := by
  rw [lastFor, List.reverse_reverse]

theorem firstFor_eq_none_iff :
    firstFor key assignments = none ↔ lastFor key assignments = none := by
  simp [lastFor, firstFor]

theorem Assigns.foldl (assigns : Assigns look assign) (store : σ) :
    look key (assignments.foldl assign store) =
      (look key store).map fun old =>
        (lastFor key assignments).getD old := by
  induction assignments using List.reverseRecOn with
  | nil => simp [lastFor, firstFor]
  | append_singleton assignments assignment ih =>
      obtain ⟨changed, value⟩ := assignment
      rw [List.foldl_append, List.foldl_cons, List.foldl_nil, lastFor_concat]
      by_cases same : changed = key
      · subst same
        rw [assigns.self, ih, if_pos rfl, Option.map_map]
        rfl
      · rw [assigns.other _ _ _ _ same, ih, if_neg same]

theorem firstFor_map {rename : κ → ι}
    (apart : ∀ assignment ∈ assignments,
      rename assignment.1 = rename key → assignment.1 = key) :
    firstFor (rename key)
        (assignments.map fun assignment =>
          (rename assignment.1, assignment.2)) =
      firstFor key assignments := by
  induction assignments with
  | nil => rfl
  | cons assignment rest ih =>
      have others := ih fun other listed =>
        apart other (List.mem_cons_of_mem _ listed)
      rw [List.map_cons, firstFor_cons, firstFor_cons, others]
      by_cases same : assignment.1 = key
      · rw [if_pos same, if_pos (congrArg rename same)]
      · rw [if_neg same, if_neg fun named =>
          same (apart assignment (by simp) named)]

end Assign

end RatboxServices
