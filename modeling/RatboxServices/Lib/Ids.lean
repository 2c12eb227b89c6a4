import Mathlib.Data.List.Nodup

namespace RatboxServices

/-! Tables that give each name an id of its own. A name that is new gets the
id after the highest one. -/

structure Ids (α : Type) where
  rows : List (Nat × α)
  ids : (rows.map Prod.fst).Nodup
  names : (rows.map Prod.snd).Nodup

namespace Ids

variable {α : Type} [DecidableEq α]

def empty : Ids α := ⟨[], by simp, by simp⟩

def highest (rows : List (Nat × α)) : Nat :=
  rows.foldr (fun row above => max row.1 above) 0

omit [DecidableEq α] in
theorem le_highest {rows : List (Nat × α)} {row : Nat × α}
    (listed : row ∈ rows) : row.1 ≤ highest rows := by
  induction rows with
  | nil => cases listed
  | cons first rest ih =>
      obtain rfl | listed := List.mem_cons.mp listed
      · exact Nat.le_max_left _ _
      · exact Nat.le_trans (ih listed) (Nat.le_max_right _ _)

def add (table : Ids α) (name : α) : Ids α :=
  if new : name ∉ table.rows.map Prod.snd then
    { rows := table.rows ++ [(highest table.rows + 1, name)]
      ids := by
        rw [List.map_append, List.nodup_append]
        refine ⟨table.ids, by simp, ?_⟩
        rintro id listed _ last rfl
        obtain ⟨row, inside, same⟩ := List.mem_map.mp listed
        have below := le_highest inside
        have above : id = highest table.rows + 1 := by simpa using last
        omega
      names := by
        rw [List.map_append, List.nodup_append]
        refine ⟨table.names, by simp, ?_⟩
        rintro there listed _ last rfl
        have same : there = name := by simpa using last
        exact new (same ▸ listed) }
  else table

def addAll (table : Ids α) (names : List α) : Ids α :=
  names.foldl add table

def find (table : Ids α) (name : α) : Option Nat :=
  (table.rows.find? fun row => row.2 == name).map Prod.fst

section Find

variable {table : Ids α} {name other : α} {id : Nat} {names : List α}

theorem find_eq_some : table.find name = some id ↔ (id, name) ∈ table.rows := by
  unfold find
  rw [Option.map_eq_some_iff]
  constructor
  · rintro ⟨row, found, rfl⟩
    have same : row.2 = name := by simpa using List.find?_some found
    exact same ▸ List.mem_of_find?_eq_some found
  · intro listed
    cases found : table.rows.find? fun row => row.2 == name with
    | none =>
        rw [List.find?_eq_none] at found
        exact absurd (found _ listed) (by simp)
    | some row =>
        have there := List.mem_of_find?_eq_some found
        have same : row.2 = name := by simpa using List.find?_some found
        have equal : row = (id, name) :=
          List.inj_on_of_nodup_map table.names there listed same
        exact ⟨row, rfl, by rw [equal]⟩

theorem find_add (found : table.find name = some id) :
    (table.add other).find name = some id := by
  rw [find_eq_some] at found ⊢
  unfold add
  split
  · exact List.mem_append_left _ found
  · exact found

theorem exists_find_add : ∃ id, (table.add name).find name = some id := by
  unfold add
  split
  · exact ⟨_, find_eq_some.mpr (List.mem_append_right _ (List.mem_singleton.mpr rfl))⟩
  · rename_i there
    obtain ⟨row, listed, same⟩ := List.mem_map.mp (not_not.mp there)
    exact ⟨row.1, find_eq_some.mpr (same ▸ listed)⟩

theorem find_addAll (found : table.find name = some id) :
    (table.addAll names).find name = some id := by
  induction names generalizing table with
  | nil => exact found
  | cons first rest ih => exact ih (find_add found)

theorem exists_find_addAll (listed : name ∈ names) :
    ∃ id, (table.addAll names).find name = some id := by
  induction names generalizing table with
  | nil => cases listed
  | cons first rest ih =>
      obtain rfl | listed := List.mem_cons.mp listed
      · obtain ⟨id, found⟩ : ∃ id, (table.add name).find name = some id :=
          exists_find_add
        show ∃ id, ((table.add name).addAll rest).find name = some id
        exact ⟨id, find_addAll found⟩
      · exact ih listed

end Find

end Ids

end RatboxServices
