import Mathlib.Data.List.Nodup
import Mathlib.Data.List.Perm.Basic
import Mathlib.Data.Set.Insert

namespace RatboxServices

/-! Doubly linked lists. A list of intrusive nodes is the list of its owners
from head to tail; the primitives act as their documentation says. -/

namespace Dlink

variable {α : Type}

/-- `rb_dlinkAdd`: link at the head. -/
def add (item : α) (list : List α) : List α :=
  item :: list

/-- `rb_dlinkAddTail`: link at the tail. -/
def addTail (item : α) (list : List α) : List α :=
  list ++ [item]

/-- `rb_dlinkMoveList`: the nodes of `source` go before those of `target`. -/
def moveList (source target : List α) : List α :=
  source ++ target

@[simp] theorem mem_add {item other : α} {list : List α} :
    other ∈ add item list ↔ other = item ∨ other ∈ list := by
  simp [add]

@[simp] theorem nodup_add {item : α} {list : List α} :
    (add item list).Nodup ↔ item ∉ list ∧ list.Nodup := by
  simp [add]

@[simp] theorem mem_moveList {source target : List α} {item : α} :
    item ∈ moveList source target ↔ item ∈ source ∨ item ∈ target := by
  simp [moveList]

theorem nodup_moveList {source target : List α} (left : source.Nodup)
    (right : target.Nodup) (apart : ∀ item ∈ source, item ∉ target) :
    (moveList source target).Nodup := by
  rw [moveList, List.nodup_append]
  refine ⟨left, right, ?_⟩
  intro item inSource other inTarget equal
  subst equal
  exact apart item inSource inTarget

variable [DecidableEq α]

/-- `rb_dlinkDelete`: unlink a node of the list. -/
def delete (item : α) (list : List α) : List α :=
  list.erase item

/-- `rb_dlinkFindDestroy`: unlink the first node that holds the item, if any. -/
def findDestroy (item : α) (list : List α) : List α :=
  list.erase item

/-- `rb_dlinkFind`. -/
def find (item : α) (list : List α) : Bool :=
  decide (item ∈ list)

theorem mem_delete {item other : α} {list : List α} (nodup : list.Nodup) :
    other ∈ delete item list ↔ other ≠ item ∧ other ∈ list :=
  nodup.mem_erase_iff

theorem nodup_delete {item : α} {list : List α} (nodup : list.Nodup) :
    (delete item list).Nodup :=
  nodup.erase item

theorem mem_delete_of_ne {item other : α} {list : List α}
    (different : other ≠ item) : other ∈ delete item list ↔ other ∈ list :=
  List.mem_erase_of_ne different

theorem delete_sublist (item : α) (list : List α) :
    (delete item list).Sublist list :=
  List.erase_sublist

theorem findDestroy_sublist (item : α) (list : List α) :
    (findDestroy item list).Sublist list :=
  List.erase_sublist

theorem findDestroy_of_not_mem {item : α} {list : List α}
    (absent : item ∉ list) : findDestroy item list = list :=
  List.erase_of_not_mem absent

def Single (item : α) (list : List α) : Prop :=
  item ∈ list ∧ item ∉ delete item list

theorem Single.add {item : α} {list : List α} (absent : item ∉ list) :
    Single item (Dlink.add item list) := by
  refine ⟨by simp, ?_⟩
  simpa [Dlink.add, delete] using absent

theorem Single.add_of_ne {item other : α} {list : List α}
    (single : Single item list) (different : item ≠ other) :
    Single item (Dlink.add other list) := by
  refine ⟨by simp [single.1], ?_⟩
  have kept : delete item (Dlink.add other list) =
      Dlink.add other (delete item list) := by
    simp [Dlink.add, delete, List.erase_cons_tail, different.symm]
  rw [kept, mem_add]
  rintro (equal | again)
  · exact different equal
  · exact single.2 again

theorem Single.delete_of_ne {item other : α} {list : List α}
    (single : Single item list) (different : item ≠ other) :
    Single item (delete other list) := by
  refine ⟨(mem_delete_of_ne different).mpr single.1, fun again => ?_⟩
  unfold delete at again
  rw [List.erase_comm] at again
  exact single.2 (List.mem_of_mem_erase again)

end Dlink

/-- The list holds exactly the items of `Member`, each once. -/
structure Exactly {α : Type} (list : List α) (Member : α → Prop) :
    Prop where
  nodup : list.Nodup
  mem_iff : ∀ item, item ∈ list ↔ Member item

namespace Exactly

variable {α : Type} {list : List α} {Member Other : α → Prop} {item : α}

theorem nil (none : ∀ item, ¬Member item) : Exactly [] Member where
  nodup := List.nodup_nil
  mem_iff := fun item => by simp [none item]

theorem congr (exactly : Exactly list Member)
    (same : ∀ item, Member item ↔ Other item) : Exactly list Other where
  nodup := exactly.nodup
  mem_iff := fun item => (exactly.mem_iff item).trans (same item)

theorem add (exactly : Exactly list Member) (absent : ¬Member item) :
    Exactly (Dlink.add item list) fun other =>
      other = item ∨ Member other where
  nodup := by
    rw [Dlink.nodup_add, exactly.mem_iff]
    exact ⟨absent, exactly.nodup⟩
  mem_iff := by
    intro other
    rw [Dlink.mem_add, exactly.mem_iff]

theorem delete [DecidableEq α] (exactly : Exactly list Member)
    (item : α) :
    Exactly (Dlink.delete item list) fun other =>
      other ≠ item ∧ Member other where
  nodup := Dlink.nodup_delete exactly.nodup
  mem_iff := by
    intro other
    rw [Dlink.mem_delete exactly.nodup, exactly.mem_iff]

theorem move {source : List α} (left : Exactly source Member)
    (right : Exactly list Other)
    (apart : ∀ item, Member item → ¬Other item) :
    Exactly (Dlink.moveList source list) fun item =>
      Member item ∨ Other item where
  nodup := by
    refine Dlink.nodup_moveList left.nodup right.nodup ?_
    intro item inSource inTarget
    exact apart item ((left.mem_iff item).mp inSource)
      ((right.mem_iff item).mp inTarget)
  mem_iff := by
    intro item
    rw [Dlink.mem_moveList, left.mem_iff, right.mem_iff]

section Among

variable {set : Set α} {P : α → Prop}

theorem enter (exactly : Exactly list fun each => each ∈ set ∧ P each)
    (absent : item ∉ set) (has : P item) :
    Exactly (Dlink.add item list) fun each =>
      each ∈ insert item set ∧ P each :=
  (exactly.add fun here => absent here.1).congr fun each => by
    rw [Set.mem_insert_iff]
    grind

theorem enter_other (exactly : Exactly list fun each => each ∈ set ∧ P each)
    (lacks : ¬P item) :
    Exactly list fun each => each ∈ insert item set ∧ P each :=
  exactly.congr fun each => by
    rw [Set.mem_insert_iff]
    grind

theorem erase [DecidableEq α]
    (exactly : Exactly list fun each => each ∈ set ∧ P each) :
    Exactly (Dlink.delete item list) fun each =>
      each ∈ set \ {item} ∧ P each :=
  (exactly.delete item).congr fun each => by
    rw [Set.mem_sdiff, Set.mem_singleton_iff]
    tauto

theorem erase_other (exactly : Exactly list fun each => each ∈ set ∧ P each)
    (lacks : ¬P item) :
    Exactly list fun each => each ∈ set \ {item} ∧ P each :=
  exactly.congr fun each => by
    rw [Set.mem_sdiff, Set.mem_singleton_iff]
    grind

end Among

end Exactly

/-! A list with its length counter, for the tables whose counters are part of
what is proved. -/

structure DlinkList (α : Type) where
  nodes : List α
  length : Nat
  deriving DecidableEq, Repr

namespace DlinkList

variable {α : Type}

def empty : DlinkList α := ⟨[], 0⟩

def add (item : α) (list : DlinkList α) : DlinkList α :=
  ⟨Dlink.add item list.nodes, list.length + 1⟩

/-- The list holds exactly the items of `Member`, each once, and counts them. -/
structure Holds (list : DlinkList α) (Member : α → Prop) : Prop where
  nodup : list.nodes.Nodup
  mem_iff : ∀ item, item ∈ list.nodes ↔ Member item
  length_eq : list.length = list.nodes.length

theorem Holds.empty : (empty : DlinkList α).Holds fun _ => False where
  nodup := List.nodup_nil
  mem_iff := by simp [DlinkList.empty]
  length_eq := rfl

theorem Holds.congr {list : DlinkList α} {Member Other : α → Prop}
    (holds : list.Holds Member) (same : ∀ item, Member item ↔ Other item) :
    list.Holds Other where
  nodup := holds.nodup
  mem_iff := fun item => (holds.mem_iff item).trans (same item)
  length_eq := holds.length_eq

theorem Holds.add {list : DlinkList α} {Member : α → Prop} {item : α}
    (holds : list.Holds Member) (absent : ¬Member item) :
    (list.add item).Holds fun other => other = item ∨ Member other where
  nodup := by
    rw [DlinkList.add, Dlink.nodup_add]
    exact ⟨fun linked => absent ((holds.mem_iff item).mp linked), holds.nodup⟩
  mem_iff := by
    intro other
    rw [DlinkList.add, Dlink.mem_add, holds.mem_iff]
  length_eq := by
    simp [DlinkList.add, Dlink.add, holds.length_eq]

variable [DecidableEq α]

/-- `rb_dlinkDelete` on a list with its counter. Nothing is documented for a
node that is not linked in the list: `wild` stands for whatever happens then. -/
def delete (wild : α → DlinkList α → DlinkList α) (item : α)
    (list : DlinkList α) : DlinkList α :=
  if item ∈ list.nodes then
    ⟨Dlink.delete item list.nodes, list.length - 1⟩
  else wild item list

theorem Holds.delete {list : DlinkList α} {Member : α → Prop} {item : α}
    (wild : α → DlinkList α → DlinkList α) (holds : list.Holds Member)
    (present : Member item) :
    (list.delete wild item).Holds fun other =>
      other ≠ item ∧ Member other := by
  have linked : item ∈ list.nodes := (holds.mem_iff item).mpr present
  rw [DlinkList.delete, if_pos linked]
  exact {
    nodup := Dlink.nodup_delete holds.nodup
    mem_iff := by
      intro other
      rw [Dlink.mem_delete holds.nodup, holds.mem_iff]
    length_eq := by
      simp only [Dlink.delete, List.length_erase_of_mem linked,
        holds.length_eq] }

end DlinkList

end RatboxServices
