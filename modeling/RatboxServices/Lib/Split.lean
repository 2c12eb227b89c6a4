import Mathlib.Data.List.Basic

namespace RatboxServices

/-! The parts of a list between separators. -/

namespace Split

variable {α : Type} [BEq α] [LawfulBEq α] {sep a : α} {list part : List α}
  {parts : List (List α)}

theorem splitOn_cons_self (sep : α) (list : List α) :
    (sep :: list).splitOn sep = [] :: list.splitOn sep := by
  rw [List.splitOn_cons_eq_if_modifyHead]
  simp

theorem splitOn_cons_of_ne (other : a ≠ sep)
    (split : list.splitOn sep = part :: parts) :
    (a :: list).splitOn sep = (a :: part) :: parts := by
  rw [List.splitOn_cons_eq_if_modifyHead, split]
  simp [other]

theorem not_mem_of_mem_splitOn (listed : part ∈ list.splitOn sep) :
    sep ∉ part := by
  induction list generalizing part with
  | nil =>
      rw [List.splitOn_nil, List.mem_singleton] at listed
      rw [listed]
      exact List.not_mem_nil
  | cons a list ih =>
      obtain ⟨first, others, split⟩ :=
        List.exists_cons_of_ne_nil (List.splitOn_ne_nil sep list)
      by_cases same : a = sep
      · rw [same, splitOn_cons_self, List.mem_cons] at listed
        obtain rfl | listed := listed
        · exact List.not_mem_nil
        · exact ih listed
      · rw [splitOn_cons_of_ne same split, List.mem_cons] at listed
        obtain rfl | listed := listed
        · rw [List.mem_cons, not_or]
          exact ⟨Ne.symm same, ih (split ▸ List.mem_cons_self)⟩
        · exact ih (split ▸ List.mem_cons_of_mem _ listed)

theorem splitOn_of_not_mem (absent : sep ∉ list) : list.splitOn sep = [list] := by
  have inside : ∀ part ∈ [list], sep ∉ part := by
    simpa using absent
  have joined := List.splitOn_intercalate sep inside (List.cons_ne_nil _ _)
  simpa using joined

theorem eq_of_splitOn_singleton (split : list.splitOn sep = [part]) :
    list = part := by
  have joined := @List.intercalate_splitOn α list _ _ sep
  rw [split] at joined
  simpa using joined.symm

theorem mem_of_splitOn_cons_cons {first second : List α}
    (split : list.splitOn sep = first :: second :: parts) : sep ∈ list := by
  by_contra absent
  rw [splitOn_of_not_mem absent] at split
  cases split

theorem exists_of_mem (inside : a ∈ list) (other : a ≠ sep) :
    ∃ part ∈ list.splitOn sep, a ∈ part := by
  induction list with
  | nil => cases inside
  | cons b list ih =>
      obtain ⟨first, others, split⟩ :=
        List.exists_cons_of_ne_nil (List.splitOn_ne_nil sep list)
      obtain rfl | inside := List.mem_cons.mp inside
      · rw [splitOn_cons_of_ne other split]
        exact ⟨_, List.mem_cons_self, List.mem_cons_self⟩
      · obtain ⟨part, listed, inPart⟩ := ih inside
        by_cases same : b = sep
        · rw [same, splitOn_cons_self]
          exact ⟨part, List.mem_cons_of_mem _ listed, inPart⟩
        · rw [splitOn_cons_of_ne same split]
          rw [split, List.mem_cons] at listed
          obtain rfl | listed := listed
          · exact ⟨_, List.mem_cons_self, List.mem_cons_of_mem _ inPart⟩
          · exact ⟨part, List.mem_cons_of_mem _ listed, inPart⟩

end Split

end RatboxServices
