import Mathlib.Data.Set.Insert
import RatboxServices.Lib.Buckets
import RatboxServices.Lib.Heap

namespace RatboxServices

/-! Tables that items are linked in and taken out of: the runs of such steps,
the set of items that a run leaves, and what a lookup owes to that set. -/

/-- The operations of a table. An item is added when it is `ready`; `keeps` are
the changes to a state that leave its table and the names in it alone. -/
structure TableOps (σ α : Type) where
  start : σ
  ready : σ → α → Prop
  add : α → σ → σ
  delete : α → σ → σ
  keeps : Set α → σ → σ → Prop

namespace TableOps

variable {σ α : Type} {ops : TableOps σ α} {s t : σ} {items : Set α}

/-- The runs, with the items in the table. No item is added twice, and only
what is in the table is deleted. -/
inductive Run (ops : TableOps σ α) : σ → Set α → Prop
  | start : Run ops ops.start ∅
  | add {s : σ} {items : Set α} {item : α} (before : Run ops s items)
      (ready : ops.ready s item) (absent : item ∉ items) :
      Run ops (ops.add item s) (insert item items)
  | delete {s : σ} {items : Set α} {item : α} (before : Run ops s items)
      (present : item ∈ items) : Run ops (ops.delete item s) (items \ {item})
  | keep {s t : σ} {items : Set α} (before : Run ops s items)
      (keeps : ops.keeps items s t) : Run ops t items

structure Invariant (ops : TableOps σ α) (inv : σ → Set α → Prop) : Prop where
  start : inv ops.start ∅
  add : ∀ {s items item}, inv s items → ops.ready s item → item ∉ items →
    inv (ops.add item s) (insert item items)
  delete : ∀ {s items item}, inv s items → item ∈ items →
    inv (ops.delete item s) (items \ {item})
  keep : ∀ {s t items}, inv s items → ops.keeps items s t → inv t items

theorem Invariant.run {inv : σ → Set α → Prop} (invariant : ops.Invariant inv)
    (run : ops.Run s items) : inv s items := by
  induction run with
  | start => exact invariant.start
  | add _ ready absent ih => exact invariant.add ih ready absent
  | delete _ present ih => exact invariant.delete ih present
  | keep _ keeps ih => exact invariant.keep ih keeps

theorem Run.congr {other : Set α} (run : ops.Run s items)
    (same : ∀ item, item ∈ other ↔ item ∈ items) : ops.Run s other := by
  rwa [Set.ext same]

end TableOps

/-- A lookup finds something exactly when an item has the name, and then such an
item. -/
structure Answers {α : Type} (found : Option α) (items : Set α)
    (named : α → Bool) : Prop where
  isSome_iff : found.isSome = true ↔ ∃ item ∈ items, named item = true
  sound : ∀ item, found = some item → item ∈ items ∧ named item = true

theorem Answers.of_find {α : Type} {list : List α} {items : Set α}
    {named : α → Bool} (inside : ∀ item ∈ list, item ∈ items)
    (complete : ∀ item ∈ items, named item = true → item ∈ list) :
    Answers (list.find? named) items named where
  isSome_iff := by
    rw [List.find?_isSome]
    constructor
    · intro ⟨item, listed, name⟩
      exact ⟨item, inside item listed, name⟩
    · intro ⟨item, here, name⟩
      exact ⟨item, complete item here name, name⟩
  sound := by
    intro item found
    exact ⟨inside item (List.mem_of_find?_eq_some found),
      List.find?_some found⟩

namespace DlinkList

variable {α : Type}

def counted (list : List α) : DlinkList α :=
  ⟨list, list.length⟩

theorem counted_add (item : α) (list : List α) :
    (counted list).add item = counted (Dlink.add item list) :=
  rfl

theorem counted_delete [DecidableEq α]
    (wild : α → DlinkList α → DlinkList α) {item : α} {list : List α}
    (linked : item ∈ list) :
    (counted list).delete wild item = counted (Dlink.delete item list) := by
  rw [delete, if_pos (by exact linked), counted, counted]
  simp only [Dlink.delete, List.length_erase_of_mem linked]

end DlinkList

namespace Buckets

variable {α : Type} {table : Nat → List α} {key : α → Option Nat}
  {items : Set α} {item : α} {hashv : Nat}

/-- `Holds` for lists without a counter. -/
def Lists (table : Nat → List α) (key : α → Option Nat) (items : Set α) :
    Prop :=
  Holds (fun hashv => DlinkList.counted (table hashv)) key items

namespace Lists

theorem counted_update (list : List α) :
    (fun other => DlinkList.counted (Function.update table hashv list other)) =
      Function.update (fun other => DlinkList.counted (table other)) hashv
        (DlinkList.counted list) := by
  funext other
  rw [Function.update_apply, Function.update_apply]
  split <;> rfl

theorem empty : Lists (fun _ => []) key ∅ :=
  Holds.empty

theorem congr {other : α → Option Nat} (lists : Lists table key items)
    (same : ∀ item ∈ items, other item = key item) :
    Lists table other items :=
  Holds.congr lists same

theorem mem_iff (lists : Lists table key items)
    (keyed : key item = some hashv) : item ∈ table hashv ↔ item ∈ items :=
  Holds.mem_iff lists keyed

theorem mem_of_linked (lists : Lists table key items)
    (linked : item ∈ table hashv) : item ∈ items :=
  Holds.mem_of_linked lists linked

theorem add (lists : Lists table key items) (keyed : key item = some hashv)
    (absent : item ∉ items) :
    Lists (Function.update table hashv (Dlink.add item (table hashv))) key
      (insert item items) := by
  unfold Lists
  rw [counted_update, ← DlinkList.counted_add]
  exact Holds.add lists keyed absent

theorem delete [DecidableEq α] (lists : Lists table key items)
    (keyed : key item = some hashv) (present : item ∈ items) :
    Lists (Function.update table hashv (Dlink.delete item (table hashv))) key
      (items \ {item}) := by
  have linked : item ∈ table hashv := (lists.mem_iff keyed).mpr present
  unfold Lists
  rw [counted_update, ← DlinkList.counted_delete (fun _ list => list) linked]
  exact Holds.delete _ lists keyed present

end Lists

end Buckets

/-- Every item is in use and linked in the list of its key, and nothing else is
linked. -/
structure HeapLists {β : Type} (heap : Heap β) (key : β → Nat)
    (table : Nat → List Nat) (items : Set Nat) : Prop where
  used : ∀ item ∈ items, ∃ value, heap.cell item = some value
  lists : Buckets.Lists table (fun item => (heap.cell item).map key) items

namespace HeapLists

variable {β : Type} {heap other : Heap β} {key : β → Nat}
  {table : Nat → List Nat} {items : Set Nat} {item hashv : Nat} {value : β}

theorem empty : HeapLists heap key (fun _ => []) ∅ where
  used := fun _ here => here.elim
  lists := Buckets.Lists.empty

theorem keyed (used : heap.cell item = some value) :
    (heap.cell item).map key = some (key value) := by
  rw [used, Option.map_some]

theorem add (linked : HeapLists heap key table items)
    (used : heap.cell item = some value) (absent : item ∉ items) :
    HeapLists heap key
      (Function.update table (key value)
        (Dlink.add item (table (key value)))) (insert item items) where
  used := by
    intro each here
    obtain rfl | before := here
    · exact ⟨value, used⟩
    · exact linked.used each before
  lists := linked.lists.add (keyed used) absent

theorem delete (linked : HeapLists heap key table items)
    (used : heap.cell item = some value) (present : item ∈ items) :
    HeapLists heap key
      (Function.update table (key value)
        (Dlink.delete item (table (key value)))) (items \ {item}) where
  used := fun each here => linked.used each here.1
  lists := linked.lists.delete (keyed used) present

theorem keep (linked : HeapLists heap key table items)
    (keys : ∀ item ∈ items,
      (other.cell item).map key = (heap.cell item).map key) :
    HeapLists other key table items where
  used := by
    intro each here
    obtain ⟨value, used⟩ := linked.used each here
    have kept := keys each here
    rw [keyed used] at kept
    obtain ⟨new, there, _⟩ := Option.map_eq_some_iff.mp kept
    exact ⟨new, there⟩
  lists := linked.lists.congr keys

theorem answers (linked : HeapLists heap key table items)
    {named : Nat → Bool} (agree : ∀ item, named item = true →
      ∃ value, heap.cell item = some value ∧ key value = hashv) :
    Answers ((table hashv).find? named) items named := by
  apply Answers.of_find
  · intro item there
    exact linked.lists.mem_of_linked there
  · intro item here name
    obtain ⟨value, used, equal⟩ := agree item name
    refine (linked.lists.mem_iff ?_).mpr here
    rw [used, Option.map_some, equal]

end HeapLists

end RatboxServices
