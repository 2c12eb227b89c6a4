import Mathlib.Data.List.Nodup

namespace RatboxServices

/-! Tables of a database with a key that no two rows share. The rows stand in
the order in which they were inserted. -/

structure Table (ρ κ : Type) (key : ρ → κ) where
  rows : List ρ
  unique : (rows.map key).Nodup

namespace Table

variable {ρ κ : Type} {key : ρ → κ}

def empty : Table ρ κ key := ⟨[], by simp⟩

/-- `INSERT`, which fails on a key that is there. -/
def insert [DecidableEq κ] (row : ρ) (table : Table ρ κ key) :
    Option (Table ρ κ key) :=
  if new : key row ∉ table.rows.map key then
    some ⟨table.rows ++ [row], by
      rw [List.map_append, List.nodup_append]
      refine ⟨table.unique, by simp, ?_⟩
      rintro there listed _ last rfl
      rw [List.map_singleton, List.mem_singleton] at last
      exact new (last ▸ listed)⟩
  else none

/-- `DELETE` of the rows that pass a test. -/
def delete (test : ρ → Bool) (table : Table ρ κ key) : Table ρ κ key where
  rows := table.rows.filter fun row => !test row
  unique := table.unique.sublist (List.filter_sublist.map key)

theorem insert_eq_some [DecidableEq κ] {row : ρ}
    {table after : Table ρ κ key} (inserted : table.insert row = some after) :
    after.rows = table.rows ++ [row] := by
  unfold insert at inserted
  split at inserted
  · cases inserted
    rfl
  · cases inserted

theorem exists_insert [DecidableEq κ] {row : ρ} {table : Table ρ κ key}
    (new : ∀ there ∈ table.rows, key there ≠ key row) :
    ∃ after, table.insert row = some after := by
  refine ⟨_, dif_pos ?_⟩
  intro listed
  obtain ⟨there, inside, same⟩ := List.mem_map.mp listed
  exact new there inside same

end Table

end RatboxServices
