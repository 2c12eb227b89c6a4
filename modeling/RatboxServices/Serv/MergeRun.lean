import Mathlib.Data.List.Forall2
import Mathlib.Data.List.TakeWhile
import RatboxServices.Lib.Firsts
import RatboxServices.Serv.CommandTable

namespace RatboxServices

open CString

/-! Command tables stay sorted and complete while services are added, merged
and reloaded. -/

theorem ucommandEntries_named {table : Option (List UcommandEntry)}
    {ucommand : UcommandEntry} (listed : ucommand ∈ ucommandEntries table) :
    (!ucommand.ends) = true := by
  unfold ucommandEntries at listed
  have named := List.mem_takeWhile_imp listed
  exact named

theorem ucommandEntries_merged (front back : Option (List UcommandEntry)) :
    ucommandEntries (some (ucommandEntries front ++ ucommandEntries back ++
      [⟨none, none, 0, 0, 0⟩])) = ucommandEntries front ++ ucommandEntries back := by
  have named : ∀ ucommand ∈ ucommandEntries front ++ ucommandEntries back,
      (!ucommand.ends) = true := by
    intro ucommand listed
    rcases List.mem_append.mp listed with inside | inside
    · exact ucommandEntries_named inside
    · exact ucommandEntries_named inside
  rw [ucommandEntries, Option.getD_some, List.takeWhile_append_of_pos named]
  simp [UcommandEntry.ends]

namespace ServiceTables

variable {handler : ServiceHandler} {startup : Bool} {s : ServiceTables}
  {merged : List ServiceHandler}

theorem copied_of_sized {table : Option (List ServiceCommand)} {bytes : Nat}
    (sized : bytes = commandBytes * (table.getD []).length) :
    copied table bytes = table.getD [] := by
  unfold copied
  rw [sized, Nat.mul_div_cancel_left _ (by decide), List.take_length]

theorem copied_handler (handler : ServiceHandler) :
    copied handler.command handler.commandSize = handler.commands :=
  copied_of_sized handler.sized

section Merge

variable (handler startup s)

theorem merge_mergedHandlerList :
    (merge handler startup s).mergedHandlerList =
      if startup then s.mergedHandlerList ++ [handler]
      else s.mergedHandlerList := rfl

theorem merge_origCommand :
    (merge handler startup s).origCommand = s.origCommand.or s.command := by
  unfold merge
  cases s.origCommand <;> rfl

theorem merge_origCommandSize :
    (merge handler startup s).origCommandSize =
      if s.origCommand.isNone then s.commandSize else s.origCommandSize := rfl

theorem merge_ucommand_none (missing : handler.ucommand = none) :
    (merge handler startup s).ucommand = s.ucommand ∧
      (merge handler startup s).origUcommand = s.origUcommand := by
  unfold merge
  rw [missing]
  exact ⟨rfl, rfl⟩

theorem merge_ucommand_some {table : List UcommandEntry}
    (given : handler.ucommand = some table) :
    (merge handler startup s).ucommand =
      some (ucommandEntries s.ucommand ++ ucommandEntries (some table) ++
        [⟨none, none, 0, 0, 0⟩]) ∧
      (merge handler startup s).origUcommand =
        s.origUcommand.or s.ucommand := by
  unfold merge
  rw [given]
  cases s.origUcommand <;> exact ⟨rfl, rfl⟩

theorem mem_merge_ucommand (ucommand : UcommandEntry) :
    ucommand ∈ ucommandEntries (merge handler startup s).ucommand ↔
      ucommand ∈ ucommandEntries s.ucommand ∨
        ucommand ∈ ucommandEntries handler.ucommand := by
  cases given : handler.ucommand with
  | none =>
      rw [(merge_ucommand_none handler startup s given).1]
      simp [ucommandEntries]
  | some table =>
      rw [(merge_ucommand_some handler startup s given).1,
        ucommandEntries_merged, List.mem_append]

end Merge

@[simp] theorem unmerge_id (s : ServiceTables) : s.unmerge.id = s.id := by
  unfold unmerge
  cases s.origCommand <;> rfl

@[simp] theorem unmerge_added (s : ServiceTables) :
    s.unmerge.added = s.added := by
  unfold unmerge
  cases s.origCommand <;> rfl

@[simp] theorem unmerge_mergedHandlerList (s : ServiceTables) :
    s.unmerge.mergedHandlerList = s.mergedHandlerList := by
  unfold unmerge
  cases s.origCommand <;> rfl

theorem unmerge_none (missing : s.origCommand = none) : s.unmerge = s := by
  unfold unmerge
  rw [missing]

theorem unmerge_some {kept : List ServiceCommand}
    (given : s.origCommand = some kept) :
    s.unmerge =
      { s with
        command := some kept
        commandSize := s.origCommandSize
        ucommand := s.origUcommand.or s.ucommand
        origCommand := none
        origCommandSize := 0
        origUcommand := none } := by
  unfold unmerge
  rw [given]
  cases s.origUcommand <;> rfl

/-- The array holds the commands of the service and of these handlers, and what
is remembered of it those of the service. -/
structure Holds (s : ServiceTables) (merged : List ServiceHandler) : Prop where
  sized : s.commandSize = commandBytes * (s.command.getD []).length
  keptSized : ∀ kept ∈ s.origCommand,
    s.origCommandSize = commandBytes * kept.length
  sorted : BSearch.Sorted nameKey (s.command.getD [])
  keptSorted : ∀ kept ∈ s.origCommand, BSearch.Sorted nameKey kept
  perm : (s.command.getD []).Perm
    (s.added.commands ++ merged.flatMap ServiceHandler.commands)
  fresh : s.command = none → s.added.command = none ∧ merged = []
  restores : ¬Unmarked s.added merged →
    ((s.origCommand.or s.command).getD []).Perm s.added.commands
  least : ∀ ucommand, (ucommand ∈ ucommandEntries s.added.ucommand ∨
    ∃ handler ∈ merged, ucommand ∈ ucommandEntries handler.ucommand) →
    ucommand ∈ ucommandEntries s.ucommand
  keptLeast : ∀ ucommand ∈ ucommandEntries s.added.ucommand,
    ucommand ∈ ucommandEntries (s.origUcommand.or s.ucommand)
  most : ∀ ucommand, (ucommand ∈ ucommandEntries s.ucommand ∨
    ucommand ∈ ucommandEntries s.origUcommand) →
    ucommand ∈ ucommandEntries s.added.ucommand ∨
    ∃ handler ∈ s.mergedHandlerList,
      ucommand ∈ ucommandEntries handler.ucommand

theorem Unmarked.append {added : ServiceHandler}
    (unmarked : Unmarked added merged) (more : List ServiceHandler) :
    Unmarked added (merged ++ more) := by
  obtain ⟨missing, first, head, filled⟩ := unmarked
  refine ⟨missing, first, ?_, filled⟩
  rw [List.head?_append, Option.mem_def.mp head]
  rfl

theorem Holds.merge_command (holds : s.Holds merged)
    (handler : ServiceHandler) (startup : Bool) :
    (merge handler startup s).command =
      some (scmdSort (s.command.getD [] ++ handler.commands)) := by
  rw [ServiceTables.merge, copied_of_sized holds.sized, copied_handler]

theorem merge_kept {kept : List ServiceCommand}
    (given : kept ∈ (merge handler startup s).origCommand) :
    s.origCommand = some kept ∨
      (s.origCommand = none ∧ s.command = some kept) := by
  rw [merge_origCommand] at given
  cases before : s.origCommand with
  | none =>
      rw [before] at given
      exact Or.inr ⟨rfl, given⟩
  | some old =>
      rw [before] at given
      exact Or.inl given

theorem Holds.merge_keptSized (holds : s.Holds merged) :
    ∀ kept ∈ (merge handler startup s).origCommand,
      (merge handler startup s).origCommandSize =
        commandBytes * kept.length := by
  intro kept given
  rw [merge_origCommandSize]
  obtain before | ⟨before, command⟩ := merge_kept given
  · rw [before]
    exact holds.keptSized kept before
  · rw [before, Option.isNone_none, if_pos rfl, holds.sized, command]
    rfl

theorem Holds.merge_keptSorted (holds : s.Holds merged) :
    ∀ kept ∈ (merge handler startup s).origCommand,
      BSearch.Sorted nameKey kept := by
  intro kept given
  obtain before | ⟨_, command⟩ := merge_kept given
  · exact holds.keptSorted kept before
  · have sorted := holds.sorted
    rwa [command] at sorted

theorem Holds.merge_restores (holds : s.Holds merged)
    (marked : ¬Unmarked s.added (merged ++ [handler])) :
    (((merge handler startup s).origCommand.or
      (merge handler startup s).command).getD []).Perm s.added.commands := by
  have before := holds.restores fun unmarked => marked (unmarked.append _)
  rw [merge_origCommand, holds.merge_command]
  cases kept : s.origCommand with
  | some old =>
      rw [kept] at before
      exact before
  | none =>
      cases command : s.command with
      | some table =>
          rw [kept, command] at before
          exact before
      | none =>
          -- the null pointer is kept as the table of the service
          obtain ⟨missing, rfl⟩ := holds.fresh command
          have empty : handler.commands = [] := by
            by_contra filled
            exact marked ⟨missing, handler, rfl, filled⟩
          rw [empty]
          have bare : s.added.commands = [] := by
            rw [ServiceHandler.commands, missing]
            rfl
          change List.Perm _ s.added.commands
          rw [bare]
          exact BSearch.sort_perm nameKey []

theorem Holds.merge_keptLeast (holds : s.Holds merged) :
    ∀ ucommand ∈ ucommandEntries s.added.ucommand, ucommand ∈
      ucommandEntries ((merge handler startup s).origUcommand.or
        (merge handler startup s).ucommand) := by
  intro ucommand own
  have before := holds.keptLeast ucommand own
  cases given : handler.ucommand with
  | none =>
      obtain ⟨current, kept⟩ := merge_ucommand_none handler startup s given
      rwa [current, kept]
  | some table =>
      obtain ⟨_, kept⟩ := merge_ucommand_some handler startup s given
      rw [kept]
      cases remembered : s.origUcommand.or s.ucommand with
      | none =>
          rw [remembered] at before
          simp [ucommandEntries] at before
      | some old =>
          rw [remembered] at before
          exact before

theorem known_of_merge {ucommand : UcommandEntry}
    (known : ucommand ∈ ucommandEntries (merge handler startup s).ucommand ∨
      ucommand ∈ ucommandEntries (merge handler startup s).origUcommand) :
    (ucommand ∈ ucommandEntries s.ucommand ∨
      ucommand ∈ ucommandEntries s.origUcommand) ∨
      ucommand ∈ ucommandEntries handler.ucommand := by
  obtain current | kept := known
  · exact ((mem_merge_ucommand handler startup s ucommand).mp current).imp_left
      Or.inl
  · left
    cases given : handler.ucommand with
    | none =>
        rw [(merge_ucommand_none handler startup s given).2] at kept
        exact Or.inr kept
    | some table =>
        rw [(merge_ucommand_some handler startup s given).2] at kept
        cases remembered : s.origUcommand with
        | none =>
            rw [remembered] at kept
            exact Or.inl kept
        | some old =>
            rw [remembered] at kept
            exact Or.inr kept

theorem Holds.merge_most (holds : s.Holds merged)
    (listed : startup = true ∨ handler ∈ s.mergedHandlerList)
    (ucommand : UcommandEntry)
    (known : ucommand ∈ ucommandEntries (merge handler startup s).ucommand ∨
      ucommand ∈ ucommandEntries (merge handler startup s).origUcommand) :
    ucommand ∈ ucommandEntries s.added.ucommand ∨
      ∃ other ∈ (merge handler startup s).mergedHandlerList,
        ucommand ∈ ucommandEntries other.ucommand := by
  rw [merge_mergedHandlerList]
  obtain old | new := known_of_merge known
  · obtain own | ⟨other, member, has⟩ := holds.most ucommand old
    · exact Or.inl own
    · refine Or.inr ⟨other, ?_, has⟩
      split
      · exact List.mem_append_left _ member
      · exact member
  · refine Or.inr ⟨handler, ?_, new⟩
    obtain rfl | member := listed
    · simp
    · split
      · exact List.mem_append_left _ member
      · exact member

theorem Holds.merge (holds : s.Holds merged)
    (listed : startup = true ∨ handler ∈ s.mergedHandlerList) :
    (merge handler startup s).Holds (merged ++ [handler]) := by
  have sorting := BSearch.sort_perm nameKey
    (s.command.getD [] ++ handler.commands)
  exact
    { sized := by
        rw [holds.merge_command, Option.getD_some, scmdSort,
          sorting.length_eq, List.length_append, Nat.mul_add, ← holds.sized,
          ServiceHandler.commands, ← handler.sized]
        rfl
      keptSized := holds.merge_keptSized
      sorted := by
        rw [holds.merge_command]
        exact BSearch.sorted_sort nameKey _
      keptSorted := holds.merge_keptSorted
      perm := by
        rw [holds.merge_command, Option.getD_some, List.flatMap_append,
          ← List.append_assoc]
        refine sorting.trans ?_
        rw [List.flatMap_singleton]
        exact holds.perm.append_right _
      fresh := by
        intro missing
        rw [holds.merge_command] at missing
        cases missing
      restores := holds.merge_restores
      least := by
        intro ucommand known
        rw [mem_merge_ucommand]
        obtain own | ⟨other, member, has⟩ := known
        · exact Or.inl (holds.least ucommand (Or.inl own))
        · obtain old | new := List.mem_append.mp member
          · exact Or.inl (holds.least ucommand (Or.inr ⟨other, old, has⟩))
          · cases List.mem_singleton.mp new
            exact Or.inr has
      keptLeast := holds.merge_keptLeast
      most := holds.merge_most listed }

theorem Holds.unmerge (holds : s.Holds merged)
    (marked : ¬Unmarked s.added merged) : s.unmerge.Holds [] := by
  have restored := holds.restores marked
  cases kept : s.origCommand with
  | none =>
      rw [kept] at restored
      rw [unmerge_none kept]
      exact
        { holds with
          perm := by simpa using restored
          fresh := fun missing => ⟨(holds.fresh missing).1, rfl⟩
          restores := fun _ => kept ▸ restored
          least := fun ucommand known => by
            rcases known with own | ⟨_, impossible, _⟩
            · exact holds.least ucommand (Or.inl own)
            · cases impossible }
  | some table =>
      rw [kept] at restored
      rw [unmerge_some kept]
      refine
        { sized := holds.keptSized _ kept
          keptSized := fun _ impossible => nomatch impossible
          sorted := holds.keptSorted _ kept
          keptSorted := fun _ impossible => nomatch impossible
          perm := by simpa using restored
          fresh := fun impossible => nomatch impossible
          restores := fun _ => restored
          least := fun ucommand known => ?_
          keptLeast := holds.keptLeast
          most := fun ucommand known => ?_ }
      · rcases known with own | ⟨_, impossible, _⟩
        · exact holds.keptLeast ucommand own
        · cases impossible
      · rcases known with current | impossible
        · cases remembered : s.origUcommand with
          | none => exact holds.most ucommand (Or.inl (by simpa [remembered] using current))
          | some old => exact holds.most ucommand (Or.inr (by simpa [remembered] using current))
        · simp [ucommandEntries] at impossible

/-- What `rehash_help` makes of a service. -/
def rehash (s : ServiceTables) : ServiceTables :=
  s.mergedHandlerList.foldl (fun s handler => merge handler false s) s.unmerge

def shape (s : ServiceTables) : CString × List ServiceHandler :=
  (s.id, s.mergedHandlerList)

@[simp] theorem shape_merge (handler : ServiceHandler) (s : ServiceTables) :
    (merge handler false s).shape = s.shape := rfl

theorem foldl_merge_frame (handlers : List ServiceHandler) (s : ServiceTables) :
    (handlers.foldl (fun s handler => merge handler false s) s).shape =
        s.shape ∧
      (handlers.foldl (fun s handler => merge handler false s) s).added =
        s.added := by
  induction handlers generalizing s with
  | nil => exact ⟨rfl, rfl⟩
  | cons handler handlers ih =>
      obtain ⟨shape, added⟩ := ih (merge handler false s)
      exact ⟨shape, added⟩

@[simp] theorem shape_rehash (s : ServiceTables) : s.rehash.shape = s.shape := by
  unfold rehash
  rw [(foldl_merge_frame _ _).1, shape, unmerge_id, unmerge_mergedHandlerList]
  rfl

@[simp] theorem rehash_added (s : ServiceTables) : s.rehash.added = s.added := by
  unfold rehash
  rw [(foldl_merge_frame _ _).2, unmerge_added]

@[simp] theorem rehash_mergedHandlerList (s : ServiceTables) :
    s.rehash.mergedHandlerList = s.mergedHandlerList :=
  congrArg Prod.snd s.shape_rehash

theorem Holds.foldl_merge {handlers : List ServiceHandler}
    (holds : s.Holds merged)
    (listed : ∀ handler ∈ handlers, handler ∈ s.mergedHandlerList) :
    (handlers.foldl (fun s handler => ServiceTables.merge handler false s) s).Holds
      (merged ++ handlers) := by
  induction handlers generalizing s merged with
  | nil => simpa using holds
  | cons handler handlers ih =>
      have next : (ServiceTables.merge handler false s).Holds
          (merged ++ [handler]) :=
        holds.merge (Or.inr (listed handler (List.mem_cons_self ..)))
      have all := ih next fun other member =>
        listed other (List.mem_cons_of_mem _ member)
      rwa [List.append_assoc] at all

theorem Holds.rehash (holds : s.Holds s.mergedHandlerList)
    (marked : ¬Unmarked s.added s.mergedHandlerList) :
    s.rehash.Holds s.rehash.mergedHandlerList := by
  rw [rehash_mergedHandlerList]
  refine (holds.unmerge marked).foldl_merge fun handler listed => ?_
  rwa [unmerge_mergedHandlerList]

theorem nameKey_eq_iff (command : ServiceCommand) (name : CString) :
    nameKey command = name.map asciiLower ↔
      strcasecmp command.cmd name = true := by
  simp [nameKey, strcasecmp]

theorem Holds.correct (holds : s.Holds s.mergedHandlerList) : s.Correct := by
  have array := copied_of_sized holds.sized
  refine ⟨?_, ?_, ?_, ?_⟩
  · rw [array]
    exact holds.sorted
  · rw [array]
    exact holds.perm
  · rw [holds.sized, holds.perm.length_eq]
    rfl
  · intro name
    rw [findCommand, array, BSearch.search_sorted_iff holds.sorted]
    refine exists_congr fun command => ?_
    rw [nameKey_eq_iff, holds.perm.mem_iff]
    rfl

theorem Holds.mem_ucommand (holds : s.Holds s.mergedHandlerList)
    (ucommand : UcommandEntry) :
    ucommand ∈ ucommandEntries s.ucommand ↔
      ucommand ∈ ucommandEntries s.added.ucommand ∨
      ∃ handler ∈ s.mergedHandlerList,
        ucommand ∈ ucommandEntries handler.ucommand :=
  ⟨fun known => holds.most ucommand (Or.inl known), holds.least ucommand⟩

theorem Holds.sameSets (holds : s.Holds s.mergedHandlerList)
    (marked : ¬Unmarked s.added s.mergedHandlerList) :
    SameSets s s.rehash := by
  have after := holds.rehash marked
  constructor
  · intro command
    rw [copied_of_sized after.sized, copied_of_sized holds.sized,
      after.perm.mem_iff, holds.perm.mem_iff, rehash_added,
      rehash_mergedHandlerList]
  · intro ucommand
    rw [after.mem_ucommand, holds.mem_ucommand, rehash_added,
      rehash_mergedHandlerList]

end ServiceTables

namespace ServiceList

open ServiceTables

variable {list : ServiceList}

def Firsts (list : ServiceList) : Prop :=
  (list.map shape).Pairwise fun left right =>
    right.2 ≠ [] → strcasecmp left.1 right.1 = false

structure Invariant (list : ServiceList) : Prop where
  holds : ∀ s ∈ list, s.Holds s.mergedHandlerList
  firsts : list.Firsts

theorem findServiceId_eq (name : CString) (list : ServiceList) :
    list.findServiceId name =
      (list.map shape).findIdx? fun shape => strcasecmp shape.1 name := by
  rw [List.findIdx?_map]
  rfl

theorem map_shape_modify {change : ServiceTables → ServiceTables}
    (kept : ∀ s, (change s).shape = s.shape) (i : Nat) (list : ServiceList) :
    (list.modify i change).map shape = list.map shape := by
  refine List.ext_getElem? fun j => ?_
  rw [List.getElem?_map, List.getElem?_map, List.getElem?_modify]
  cases list[j]? with
  | none => rfl
  | some s =>
      simp only [Option.map_some, Option.map_eq_map]
      split
      · rw [kept]
      · rfl

/-- The name as `strcasecmp` reads it. -/
def nameOf (s : ServiceTables) : CString :=
  s.id.map asciiLower

theorem strcasecmp_eq (left right : ServiceTables) :
    strcasecmp left.id right.id = decide (nameOf left = nameOf right) := by
  rw [strcasecmp, Bool.eq_iff_iff, beq_iff_eq, decide_eq_true_eq]
  rfl

theorem firsts_iff :
    list.Firsts ↔ RatboxServices.Firsts nameOf
      (fun s => s.mergedHandlerList ≠ []) list := by
  unfold Firsts RatboxServices.Firsts
  rw [List.pairwise_map]
  apply List.Pairwise.iff
  intro left right
  simp only [shape, strcasecmp_eq, decide_eq_false_iff_not, ne_eq]

theorem Firsts.findServiceId (firsts : Firsts list) {i : Nat}
    {s : ServiceTables} (here : list[i]? = some s)
    (merged : s.mergedHandlerList ≠ []) :
    list.findServiceId s.id = some i := by
  have found := (firsts_iff.mp firsts).findIdx here merged
  simp only [← strcasecmp_eq] at found
  exact found

theorem foldl_mergeService {name : CString} {i : Nat}
    (handlers : List ServiceHandler) {list : ServiceList}
    (found : list.findServiceId name = some i) :
    handlers.foldl (fun list handler => mergeService handler name false list)
        list =
      list.modify i fun s =>
        handlers.foldl (fun s handler => merge handler false s) s := by
  induction handlers generalizing list with
  | nil => exact (List.modify_id i list).symm
  | cons handler handlers ih =>
      have next : (mergeService handler name false list) =
          list.modify i (merge handler false) := by
        rw [mergeService, found]
      have again : findServiceId name (list.modify i (merge handler false)) =
          some i := by
        rw [findServiceId_eq, map_shape_modify (shape_merge handler),
          ← findServiceId_eq, found]
      rw [List.foldl_cons, next, ih again, List.modify_modify_eq]
      rfl

theorem modify_congr {i : Nat} {s : ServiceTables}
    {left right : ServiceTables → ServiceTables} (here : list[i]? = some s)
    (same : left s = right s) : list.modify i left = list.modify i right := by
  refine List.ext_getElem? fun j => ?_
  rw [List.getElem?_modify, List.getElem?_modify]
  by_cases equal : i = j
  · subst equal
    simp [here, same]
  · simp [equal]

theorem rehashService_eq (firsts : Firsts list) (i : Nat) :
    rehashService list i = list.modify i rehash := by
  unfold rehashService
  have looked : (list.modify i unmerge)[i]? = list[i]?.map unmerge :=
    List.getElem?_modify_eq ..
  cases here : list[i]? with
  | none =>
      have beyond : list.length ≤ i := List.getElem?_eq_none_iff.mp here
      simp only [looked, here, Option.map_none]
      rw [List.modify_eq_self beyond, List.modify_eq_self beyond]
  | some s =>
      simp only [looked, here, Option.map_some, unmerge_mergedHandlerList,
        unmerge_id]
      by_cases merged : s.mergedHandlerList = []
      · rw [merged, List.foldl_nil]
        refine modify_congr here ?_
        rw [rehash, merged]
        rfl
      · have kept : ∀ s : ServiceTables, s.unmerge.shape = s.shape := by
          intro s
          simp [shape]
        have found : findServiceId s.id (list.modify i unmerge) = some i := by
          rw [findServiceId_eq, map_shape_modify kept, ← findServiceId_eq]
          exact firsts.findServiceId here merged
        rw [foldl_mergeService _ found, List.modify_modify_eq]
        exact modify_congr here rfl

theorem rehashHelp_eq (firsts : Firsts list) :
    list.rehashHelp = list.map rehash := by
  have walked : ∀ count, ((List.range count).foldl rehashService list).map
      shape = list.map shape ∧
      ∀ j : Nat, ((List.range count).foldl rehashService list)[j]? =
        if j < count then list[j]?.map rehash else list[j]? := by
    intro count
    induction count with
    | zero => exact ⟨rfl, fun j => rfl⟩
    | succ count ih =>
        obtain ⟨shapes, cells⟩ := ih
        rw [List.range_succ, List.foldl_append, List.foldl_cons, List.foldl_nil]
        have still : Firsts ((List.range count).foldl rehashService list) := by
          unfold Firsts
          rw [shapes]
          exact firsts
        rw [rehashService_eq still]
        refine ⟨(map_shape_modify shape_rehash _ _).trans shapes, fun j => ?_⟩
        rw [List.getElem?_modify, cells j]
        by_cases equal : count = j
        · subst equal
          simp
        · by_cases below : j < count
          · simp [equal, below, Nat.lt_succ_of_lt below]
          · have beyond : ¬j < count + 1 := by omega
            simp [equal, below, beyond]
  refine List.ext_getElem? fun j => ?_
  rw [rehashHelp, (walked list.length).2 j, List.getElem?_map]
  split
  · rfl
  · rename_i beyond
    rw [List.getElem?_eq_none (Nat.le_of_not_lt beyond)]
    rfl

theorem Invariant.empty : Invariant [] :=
  ⟨fun _ impossible => (nomatch impossible), List.Pairwise.nil⟩

theorem holds_added (nickLen : Nat) (handler : ServiceHandler) :
    Holds
      { id := strlcpy (nickLen + 1) handler.id
        command := handler.command.map scmdSort
        commandSize := handler.commandSize
        ucommand := handler.ucommand
        added := handler } [] := by
  have table : (handler.command.map scmdSort).getD [] =
      scmdSort handler.commands := by
    unfold ServiceHandler.commands
    cases handler.command with
    | none => exact (BSearch.sort_perm nameKey []).eq_nil.symm
    | some table => rfl
  have sorting := BSearch.sort_perm nameKey handler.commands
  exact
    { sized := by
        rw [table, scmdSort, sorting.length_eq]
        exact handler.sized
      keptSized := fun _ impossible => nomatch impossible
      sorted := by
        rw [table]
        exact BSearch.sorted_sort nameKey _
      keptSorted := fun _ impossible => nomatch impossible
      perm := by
        rw [table, List.flatMap_nil, List.append_nil]
        exact sorting
      fresh := fun missing => ⟨Option.map_eq_none_iff.mp missing, rfl⟩
      restores := fun _ => by
        rw [Option.none_or, table]
        exact sorting
      least := fun ucommand known => by
        rcases known with own | ⟨_, impossible, _⟩
        · exact own
        · cases impossible
      keptLeast := fun ucommand own => own
      most := fun ucommand known => by
        rcases known with own | impossible
        · exact Or.inl own
        · simp [ucommandEntries] at impossible }

theorem Invariant.append (inv : Invariant list) {s : ServiceTables}
    (holds : s.Holds s.mergedHandlerList) (fresh : s.mergedHandlerList = []) :
    Invariant (list ++ [s]) := by
  constructor
  · intro other listed
    rcases List.mem_append.mp listed with old | new
    · exact inv.holds other old
    · cases List.mem_singleton.mp new
      exact holds
  · exact firsts_iff.mpr
      ((firsts_iff.mp inv.firsts).append (not_not_intro fresh))

theorem Invariant.addService {nickLen : Nat} {holder : Option NameHolder}
    {handler : ServiceHandler} {after : ServiceList} (inv : Invariant list)
    (ok : list.addService nickLen holder handler = .ok after) :
    Invariant after := by
  have appended := inv.append (holds_added nickLen handler) rfl
  unfold ServiceList.addService at ok
  split at ok
  · cases ok
  · split at ok
    · cases ok
      exact inv
    · cases ok
      exact inv
    · split at ok
      · cases ok
      · cases ok
        exact appended
    · cases ok
      exact appended

theorem Invariant.mergeService (inv : Invariant list)
    (handler : ServiceHandler) (serviceId : CString) :
    Invariant (list.mergeService handler serviceId true) := by
  unfold ServiceList.mergeService
  cases found : list.findServiceId serviceId with
  | none => exact inv
  | some i =>
      obtain ⟨below, named, others⟩ :=
        List.findIdx?_eq_some_iff_getElem.mp found
      have here : list[i]? = some list[i] := List.getElem?_eq_getElem below
      constructor
      · intro s listed
        obtain ⟨j, at_⟩ := List.mem_iff_getElem?.mp listed
        rw [List.getElem?_modify] at at_
        by_cases equal : i = j
        · subst equal
          rw [here] at at_
          simp only [↓reduceIte, Option.map_eq_map, Option.map_some,
            Option.some.injEq] at at_
          subst at_
          exact (inv.holds _ (List.getElem_mem below)).merge (Or.inl rfl)
        · simp only [equal, ↓reduceIte, Option.map_eq_map, Option.map_id'] at at_
          exact inv.holds s (List.mem_of_getElem? at_)
      · -- the merged service is the first with this name, and so with its own
        change Firsts (list.modify i _)
        rw [firsts_iff, List.modify_eq_set_get _ below]
        apply (firsts_iff.mp inv.firsts).set here
        · rfl
        · refine fun _ => Or.inr fun j before inside same => ?_
          have differs := others j before
          simp only [strcasecmp, beq_iff_eq] at named differs
          exact differs (same.trans named)

theorem Invariant.rehashHelp (inv : Invariant list)
    (marked : ∀ s ∈ list, ¬Unmarked s.added s.mergedHandlerList) :
    Invariant list.rehashHelp := by
  rw [rehashHelp_eq inv.firsts]
  constructor
  · intro s listed
    obtain ⟨old, member, rfl⟩ := List.mem_map.mp listed
    exact (inv.holds old member).rehash (marked old member)
  · have same : (list.map rehash).map shape = list.map shape := by
      rw [List.map_map]
      exact List.map_congr_left fun s _ => shape_rehash s
    unfold Firsts
    rw [same]
    exact inv.firsts

theorem Invariant.unlink (inv : Invariant list) (i : Nat) :
    Invariant (list.eraseIdx i) :=
  ⟨fun s listed => inv.holds s (List.mem_of_mem_eraseIdx listed),
    firsts_iff.mpr
      ((firsts_iff.mp inv.firsts).sublist (List.eraseIdx_sublist list i))⟩

/-- The help is not reloaded while a service without commands of its own has
some from a handler that nothing marks as merged. -/
def Marked (list : ServiceList) : TableOp → Prop
  | .rehashHelp => ∀ s ∈ list, ¬Unmarked s.added s.mergedHandlerList
  | _ => True

theorem Invariant.step {nickLen : Nat} {op : TableOp} {after : ServiceList}
    (inv : Invariant list) (marked : Marked list op)
    (ok : op.step nickLen list = .ok after) : Invariant after := by
  cases op with
  | addService holder handler => exact inv.addService ok
  | mergeService handler serviceId =>
      cases ok
      exact inv.mergeService handler serviceId
  | rehashHelp =>
      cases ok
      exact inv.rehashHelp marked
  | unlink i =>
      cases ok
      exact inv.unlink i

/-- After any such run every table is sorted, complete and searched rightly,
and loading the help again changes no set of commands. -/
theorem run_correct {nickLen : Nat} {ops : List TableOp} {list : ServiceList}
    (marked : Meets (TableOp.step nickLen) Marked [] ops)
    (ran : run (TableOp.step nickLen) [] ops = .ok list) :
    (∀ s ∈ list, s.Correct) ∧
      (Marked list .rehashHelp →
        List.Forall₂ SameSets list list.rehashHelp) := by
  have inv : Invariant list :=
    run_preserves_of_meets Invariant
      (fun _ _ _ marked inv ok => inv.step marked ok) marked Invariant.empty ran
  refine ⟨fun s listed => (inv.holds s listed).correct, fun now => ?_⟩
  rw [rehashHelp_eq inv.firsts, List.forall₂_map_right_iff, List.forall₂_same]
  exact fun s listed => (inv.holds s listed).sameSets (now s listed)

def operHandler : ServiceHandler where
  id := "OPERSERV".toList
  name := "operserv".toList
  command := some [{ cmd := "OSPART".toList }, { cmd := "OMODE".toList }]
  commandSize := 128
  ucommand := none
  sized := rfl
  ended := ServiceHandler.ended_none

def jupeHandler : ServiceHandler where
  id := "JUPESERV".toList
  name := "jupeserv".toList
  command := some [{ cmd := "JUPE".toList }]
  commandSize := 64
  ucommand := none
  sized := rfl
  ended := ServiceHandler.ended_none

/-- A service without a table, as `add_service` takes it. -/
def bareHandler : ServiceHandler where
  id := "BARE".toList
  name := "bare".toList
  command := none
  commandSize := 0
  ucommand := none
  sized := ServiceHandler.sized_none
  ended := ServiceHandler.ended_none

theorem run_correct_merged :
    ∃ list, run (TableOp.step 9) []
        [.addService none operHandler,
          .mergeService jupeHandler "operserv".toList, .rehashHelp] =
          .ok list ∧
      ((∀ s ∈ list, s.Correct) ∧
        (Marked list .rehashHelp →
          List.Forall₂ SameSets list list.rehashHelp)) := by
  have marked : Meets (TableOp.step 9) Marked []
      [.addService none operHandler,
        .mergeService jupeHandler "operserv".toList, .rehashHelp] := by
    refine ⟨trivial, fun one first => ⟨trivial, fun two second => ⟨?_,
      fun _ _ => trivial⟩⟩⟩
    cases first
    cases second
    intro s listed
    rintro ⟨missing, _⟩
    rw [List.mem_singleton.mp listed] at missing
    cases missing
  exact ⟨_, rfl, run_correct marked rfl⟩

/-- The null pointer that stands for the table of the service says that nothing
was merged: the commands of the handler come a second time. -/
theorem not_correct_twice :
    ∃ list, run (TableOp.step 9) []
        [.addService none bareHandler,
          .mergeService jupeHandler "BARE".toList, .rehashHelp] =
          .ok list ∧ ¬∀ s ∈ list, s.Correct := by
  refine ⟨_, rfl, fun correct => ?_⟩
  have whole := (correct _ (List.mem_singleton_self _)).whole
  revert whole
  decide +kernel

end ServiceList

end RatboxServices
