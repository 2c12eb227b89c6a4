import Mathlib.Data.List.Perm.Basic
import Mathlib.Data.List.Nodup

namespace RatboxServices

/-! Lists whose entries are found by a key. What is found is the first entry
with the key, which is the only one while the keys are distinct. -/

section Keyed

variable {α κ : Type} (key : α → κ)

def UniqueKeys (list : List α) : Prop :=
  (list.map key).Nodup

namespace UniqueKeys

variable {key} {list other : List α} {entry : α}

theorem nil : UniqueKeys key [] :=
  List.nodup_nil

theorem cons_iff : UniqueKeys key (entry :: list) ↔
    (∀ old ∈ list, key old ≠ key entry) ∧ UniqueKeys key list := by
  simp [UniqueKeys]

theorem perm (unique : UniqueKeys key list) (same : list.Perm other) :
    UniqueKeys key other :=
  ((same.map key).nodup_iff).mp unique

theorem sublist (unique : UniqueKeys key list) (part : other.Sublist list) :
    UniqueKeys key other :=
  List.Nodup.sublist (part.map key) unique

theorem filter (unique : UniqueKeys key list) (keep : α → Bool) :
    UniqueKeys key (list.filter keep) :=
  unique.sublist List.filter_sublist

theorem eq_of_key {left right : α} (unique : UniqueKeys key list)
    (first : left ∈ list) (second : right ∈ list)
    (same : key left = key right) : left = right :=
  List.inj_on_of_nodup_map unique first second same

end UniqueKeys

variable [DecidableEq κ]

def findKey (sought : κ) (list : List α) : Option α :=
  list.find? fun entry => key entry = sought

def eraseKey (sought : κ) (list : List α) : List α :=
  list.eraseP fun entry => key entry = sought

def putKey (entry : α) (list : List α) : List α :=
  if (findKey key (key entry) list).isSome then
    list.replaceF fun old => if key old = key entry then some entry else none
  else entry :: list

variable {key} {list : List α} {sought : κ} {entry : α}

theorem key_of_findKey (found : findKey key sought list = some entry) :
    key entry = sought := by
  simpa using List.find?_some found

theorem mem_of_findKey (found : findKey key sought list = some entry) :
    entry ∈ list :=
  List.mem_of_find?_eq_some found

theorem findKey_eq_none_iff :
    findKey key sought list = none ↔ ∀ entry ∈ list, key entry ≠ sought := by
  simp [findKey]

theorem eraseKey_of_findKey (found : findKey key sought list = none) :
    eraseKey key sought list = list := by
  refine List.eraseP_of_forall_not fun entry listed => ?_
  simpa using findKey_eq_none_iff.mp found entry listed

theorem putKey_perm (entry : α) (list : List α) :
    (putKey key entry list).Perm (entry :: eraseKey key (key entry) list) := by
  unfold putKey
  split
  · rename_i present
    induction list with
    | nil => cases present
    | cons head tail ih =>
        rw [List.replaceF_cons]
        by_cases same : key head = key entry
        · rw [if_pos same, eraseKey,
            List.eraseP_cons_of_pos (by simpa using same)]
        · have later : (findKey key (key entry) tail).isSome = true := by
            rwa [findKey, List.find?_cons_of_neg (by simpa using same)]
              at present
          rw [if_neg same, eraseKey,
            List.eraseP_cons_of_neg (by simpa using same)]
          exact ((ih later).cons head).trans (List.Perm.swap ..)
  · rename_i absent
    rw [eraseKey_of_findKey (by simpa using absent)]

namespace UniqueKeys

theorem findKey_eq_some_iff (unique : UniqueKeys key list) :
    findKey key sought list = some entry ↔
      entry ∈ list ∧ key entry = sought := by
  constructor
  · intro found
    exact ⟨mem_of_findKey found, key_of_findKey found⟩
  · rintro ⟨listed, rfl⟩
    cases found : findKey key (key entry) list with
    | none => exact absurd rfl (findKey_eq_none_iff.mp found entry listed)
    | some other =>
        rw [unique.eq_of_key listed (mem_of_findKey found)
          (key_of_findKey found).symm]

theorem eraseKey_eq_filter (unique : UniqueKeys key list) (sought : κ) :
    eraseKey key sought list =
      list.filter fun entry => decide (key entry ≠ sought) := by
  induction list with
  | nil => rfl
  | cons head tail ih =>
      obtain ⟨others, rest⟩ := cons_iff.mp unique
      by_cases same : key head = sought
      · rw [eraseKey, List.eraseP_cons_of_pos (by simpa using same),
          List.filter_cons_of_neg (by simpa using same)]
        refine (List.filter_eq_self.mpr fun entry listed => ?_).symm
        simpa [same] using others entry listed
      · rw [eraseKey, List.eraseP_cons_of_neg (by simpa using same),
          List.filter_cons_of_pos (by simpa using same)]
        exact congrArg (head :: ·) (ih rest)

theorem erase (unique : UniqueKeys key list) (sought : κ) :
    UniqueKeys key (eraseKey key sought list) :=
  unique.sublist List.eraseP_sublist

theorem mem_eraseKey (unique : UniqueKeys key list) :
    entry ∈ eraseKey key sought list ↔ entry ∈ list ∧ key entry ≠ sought := by
  rw [unique.eraseKey_eq_filter]
  simp

theorem mem_putKey {old : α} (unique : UniqueKeys key list) :
    old ∈ putKey key entry list ↔
      old = entry ∨ old ∈ list ∧ key old ≠ key entry := by
  rw [(putKey_perm entry list).mem_iff, List.mem_cons, unique.mem_eraseKey]

theorem put (unique : UniqueKeys key list) (entry : α) :
    UniqueKeys key (putKey key entry list) := by
  refine perm ?_ (putKey_perm entry list).symm
  exact cons_iff.mpr ⟨fun other listed => (unique.mem_eraseKey.mp listed).2,
    unique.erase (key entry)⟩

end UniqueKeys

end Keyed

end RatboxServices
