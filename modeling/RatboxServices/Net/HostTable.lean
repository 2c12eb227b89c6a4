import RatboxServices.Irc.Hash
import RatboxServices.Lib.Edits
import RatboxServices.Lib.Heap

namespace RatboxServices

open CString

/-! The table of hosts of `client.c`, which counts what the users of a host
have asked for. -/

abbrev HostId := Nat

structure HostEntry where
  name : CString
  floodExpire : Int := 0
  cregisterExpire : Int := 0
  uregisterExpire : Int := 0
  deriving DecidableEq, Repr

def HostEntry.expired (now : Int) (hent : HostEntry) : Bool :=
  decide (hent.floodExpire < now ∧ hent.cregisterExpire < now ∧
    hent.uregisterExpire < now)

/-- `MAX_HOST_HASH`. -/
def maxHostHash : Nat := 65536

structure Hosts where
  host : Heap HostEntry
  hostTable : Nat → List HostId

namespace Hosts

def empty : Hosts where
  host := .empty
  hostTable := fun _ => []

def onBucket (hashv : Nat) (change : List HostId → List HostId) (s : Hosts) :
    Hosts :=
  { s with
    hostTable :=
      Function.update s.hostTable hashv (change (s.hostTable hashv)) }

def isHost (s : Hosts) (name : CString) (target : HostId) : Bool :=
  match s.host.cell target with
  | some hent => irccmp hent.name name
  | none => false

/-- The search of `find_host`. -/
def lookup (s : Hosts) (name : CString) : Option HostId :=
  (s.hostTable (hashHost name)).find? (s.isHost name)

/-- `find_host`. The result is never NULL. -/
def findHost (s : Hosts) (name : CString) : Option HostId × Hosts :=
  match s.lookup name with
  | some target => (some target, s)
  | none =>
      let target := s.host.next
      let s := { s with host := s.host.alloc { name := name } }
      (some target, s.onBucket (hashHost name) (Dlink.add target))

def cleanupEntry (now : Int) (hashv : Nat) (s : Hosts) (target : HostId) :
    Hosts :=
  match s.host.cell target with
  | none => s
  | some hent =>
      if hent.expired now then
        let s := s.onBucket hashv (Dlink.delete target)
        { s with host := s.host.free target }
      else s

/-- `cleanup_host_table`. -/
def cleanupHostTable (now : Int) (s : Hosts) : Hosts :=
  (List.range maxHostHash).foldl
    (fun s hashv => (s.hostTable hashv).foldl (cleanupEntry now hashv) s) s

def hostKey (s : Hosts) (target : HostId) : Option Nat :=
  (s.host.cell target).map fun hent => hashHost hent.name

def SameHosts (items : Set HostId) (s t : Hosts) : Prop :=
  t.hostTable = s.hostTable ∧ ∀ target ∈ items,
    (t.host.cell target).map HostEntry.name =
      (s.host.cell target).map HostEntry.name

def linkHost (target : HostId) (s : Hosts) : Hosts :=
  match s.host.cell target with
  | none => s
  | some hent => s.onBucket (hashHost hent.name) (Dlink.add target)

def unlinkHost (target : HostId) (s : Hosts) : Hosts :=
  match s.host.cell target with
  | none => s
  | some hent => s.onBucket (hashHost hent.name) (Dlink.delete target)

def tableOps : TableOps Hosts HostId where
  start := empty
  ready := fun s target => ∃ hent, s.host.cell target = some hent
  add := linkHost
  delete := unlinkHost
  keeps := SameHosts

/-- Every host of the set is in use and linked in the bucket of its name, and
nothing else is linked. -/
def Linked (s : Hosts) (items : Set HostId) : Prop :=
  HeapLists s.host (fun hent => hashHost hent.name) s.hostTable items

variable {s t : Hosts} {items : Set HostId} {target : HostId}
  {hent : HostEntry} {name : CString}

theorem hostKey_eq (used : s.host.cell target = some hent) :
    s.hostKey target = some (hashHost hent.name) := by
  rw [hostKey, used]
  rfl

theorem isHost_eq_true : s.isHost name target = true ↔
    ∃ hent, s.host.cell target = some hent ∧ irccmp hent.name name = true := by
  unfold isHost
  cases s.host.cell target <;> simp

theorem linkHost_of_used (used : s.host.cell target = some hent) :
    s.linkHost target =
      s.onBucket (hashHost hent.name) (Dlink.add target) := by
  rw [linkHost, used]

theorem unlinkHost_of_used (used : s.host.cell target = some hent) :
    s.unlinkHost target =
      s.onBucket (hashHost hent.name) (Dlink.delete target) := by
  rw [unlinkHost, used]

theorem Linked.invariant : tableOps.Invariant Linked where
  start := HeapLists.empty
  add := by
    intro s items target linked ready absent
    obtain ⟨hent, used⟩ := ready
    change Linked (s.linkHost target) _
    rw [linkHost_of_used used]
    exact linked.add used absent
  delete := by
    intro s items target linked present
    obtain ⟨hent, used⟩ := linked.used target present
    change Linked (s.unlinkHost target) _
    rw [unlinkHost_of_used used]
    exact linked.delete used present
  keep := by
    intro s t items linked keeps
    obtain ⟨table, names⟩ := keeps
    rw [Linked, table]
    refine linked.keep fun target here => ?_
    have kept := congrArg (Option.map hashHost) (names target here)
    simpa [Option.map_map, Function.comp_def] using kept

theorem Linked.lookup (linked : Linked s items) (name : CString) :
    Answers (s.lookup name) items (s.isHost name) := by
  refine linked.answers fun target same => ?_
  obtain ⟨hent, used, equal⟩ := isHost_eq_true.mp same
  exact ⟨hent, used, hashHost_of_irccmp equal⟩

/-- An entry under the name is returned and nothing else changes, or there was
none and a new one is linked. -/
structure Found (s : Hosts) (items : Set HostId) (name : CString)
    (found : Option HostId) (t : Hosts) : Prop where
  returned : ∃ target, found = some target ∧ t.isHost name target = true
  there_iff : (∃ target ∈ items, found = some target) ↔
    ∃ target ∈ items, s.isHost name target = true
  same : (∃ target ∈ items, found = some target) → t = s
  run : ∃ target, found = some target ∧ tableOps.Run t (insert target items)

theorem next_not_mem (linked : Linked s items) : s.host.next ∉ items := by
  intro here
  obtain ⟨hent, used⟩ := linked.used _ here
  rw [s.host.cell_next] at used
  cases used

theorem sameHosts_alloc (linked : Linked s items) (hent : HostEntry) :
    SameHosts items s { s with host := s.host.alloc hent } := by
  refine ⟨rfl, fun target here => ?_⟩
  have different : target ≠ s.host.next := by
    intro equal
    exact next_not_mem linked (equal ▸ here)
  show ((s.host.alloc hent).cell target).map _ = _
  rw [Heap.alloc_cell, if_neg different]

theorem findHost_found (run : tableOps.Run s items) (name : CString) :
    Found s items name (s.findHost name).1 (s.findHost name).2 := by
  have linked := Linked.invariant.run run
  have answers := linked.lookup name
  unfold findHost
  cases found : s.lookup name with
  | some target =>
      obtain ⟨here, named⟩ := answers.sound target found
      exact {
        returned := ⟨target, rfl, named⟩
        there_iff := iff_of_true ⟨target, here, rfl⟩ ⟨target, here, named⟩
        same := fun _ => rfl
        run := ⟨target, rfl, by rwa [Set.insert_eq_of_mem here]⟩ }
  | none =>
      have absent : ¬∃ target ∈ items, s.isHost name target = true := by
        rw [← answers.isSome_iff, found]
        simp
      have new := next_not_mem linked
      have outside : ¬∃ target ∈ items, some s.host.next = some target := by
        rintro ⟨target, here, equal⟩
        cases equal
        exact new here
      let hent : HostEntry := { name := name }
      have used : (s.host.alloc hent).cell s.host.next = some hent := by
        rw [Heap.alloc_cell, if_pos rfl]
      have kept := run.keep (sameHosts_alloc linked hent)
      have added := kept.add ⟨hent, used⟩ new
      change tableOps.Run (linkHost s.host.next _) _ at added
      rw [linkHost_of_used used] at added
      exact {
        returned := by
          refine ⟨s.host.next, rfl, ?_⟩
          refine isHost_eq_true.mpr ⟨hent, used, ?_⟩
          simp [hent, irccmp]
        there_iff := iff_of_false outside absent
        same := fun inside => absurd inside outside
        run := ⟨s.host.next, rfl, added⟩ }

def isExpired (s : Hosts) (now : Int) (target : HostId) : Bool :=
  match s.host.cell target with
  | some hent => hent.expired now
  | none => false

theorem eq_of_cell (same : t.host.cell target = s.host.cell target)
    (now : Int) : t.hostKey target = s.hostKey target ∧
      t.isExpired now target = s.isExpired now target := by
  unfold hostKey isExpired
  rw [same]
  exact ⟨rfl, rfl⟩

/-- The expired ones of the entries that were walked over are deleted and
their cells freed, and nothing else changes. -/
structure Sweeps (now : Int) (s : Hosts) (items walked : Set HostId)
    (t : Hosts) : Prop where
  run : tableOps.Run t
    {other ∈ items | ¬(other ∈ walked ∧ s.isExpired now other = true)}
  kept : ∀ other, ¬(other ∈ walked ∧ s.isExpired now other = true) →
    t.host.cell other = s.host.cell other
  freed : ∀ other ∈ walked, s.isExpired now other = true →
    t.host.cell other = none

namespace Sweeps

variable {u : Hosts} {now : Int} {walked later : Set HostId}

theorem nothing (run : tableOps.Run s items) (now : Int) :
    Sweeps now s items ∅ s where
  run := by simpa using run
  kept := fun _ _ => rfl
  freed := fun _ impossible => absurd impossible (Set.notMem_empty _)

theorem congr (sweeps : Sweeps now s items walked t)
    (same : ∀ other, other ∈ walked ↔ other ∈ later) :
    Sweeps now s items later t :=
  Set.ext same ▸ sweeps

theorem trans (first : Sweeps now s items walked t)
    (second : Sweeps now t
      {other ∈ items | ¬(other ∈ walked ∧ s.isExpired now other = true)}
      later u) : Sweeps now s items (walked ∪ later) u := by
  have freed : ∀ other ∈ walked, s.isExpired now other = true →
      t.isExpired now other = false := by
    intro other there gone
    rw [isExpired, first.freed other there gone]
  have same : ∀ other, ¬(other ∈ walked ∧ s.isExpired now other = true) →
      t.isExpired now other = s.isExpired now other :=
    fun other kept => (eq_of_cell (first.kept other kept) now).2
  refine ⟨second.run.congr fun other => ?_, fun other kept => ?_,
    fun other there gone => ?_⟩
  · simp only [Set.mem_ofPred_eq, Set.mem_union]
    grind
  · have early : ¬(other ∈ walked ∧ s.isExpired now other = true) :=
      fun both => kept ⟨.inl both.1, both.2⟩
    refine (second.kept other fun both => ?_).trans (first.kept other early)
    exact kept ⟨.inr both.1, (same other early).symm.trans both.2⟩
  · by_cases early : other ∈ walked
    · have kept : ¬(other ∈ later ∧ t.isExpired now other = true) := by
        rw [freed other early gone]
        simp
      exact (second.kept other kept).trans (first.freed other early gone)
    · have expired := same other fun both => early both.1
      exact second.freed other (there.resolve_left early) (expired.trans gone)

end Sweeps

theorem sweeps_cleanupEntry (run : tableOps.Run s items) (here : target ∈ items)
    {hashv : Nat} (keyed : s.hostKey target = some hashv) (now : Int) :
    Sweeps now s items {target} (s.cleanupEntry now hashv target) := by
  obtain ⟨hent, used⟩ := (Linked.invariant.run run).used target here
  have equal : hashHost hent.name = hashv :=
    Option.some.inj ((hostKey_eq used).symm.trans keyed)
  have expired : s.isExpired now target = hent.expired now := by
    rw [isExpired, used]
  unfold cleanupEntry
  rw [used]
  dsimp only
  split
  · rename_i gone
    have apart : ∀ other,
        ¬(other = target ∧ s.isExpired now other = true) ↔ other ≠ target := by
      intro other
      constructor
      · exact fun kept same => kept ⟨same, by rw [same, expired, gone]⟩
      · exact fun different both => different both.1
    have deleted := run.delete here
    change tableOps.Run (unlinkHost target s) _ at deleted
    rw [unlinkHost_of_used used, equal] at deleted
    have cells : ∀ other ≠ target,
        (s.host.free target).cell other = s.host.cell other := by
      intro other different
      rw [Heap.free_cell, if_neg different]
    refine ⟨?_, fun other kept => cells other ((apart other).mp kept), ?_⟩
    · have freed : tableOps.Run
          { s.onBucket hashv (Dlink.delete target) with
            host := s.host.free target } _ :=
        deleted.keep
          ⟨rfl, fun other kept => congrArg _ (cells other kept.2)⟩
      exact freed.congr fun other => and_congr_right fun _ => apart other
    · rintro other rfl _
      show (s.host.free other).cell other = none
      rw [Heap.free_cell, if_pos rfl]
  · rename_i fresh
    have kept : ∀ other, ¬(other = target ∧ s.isExpired now other = true) := by
      rintro other ⟨rfl, gone⟩
      exact fresh (expired ▸ gone)
    refine ⟨run.congr fun other => and_iff_left (kept other),
      fun _ _ => rfl, fun other there gone => ?_⟩
    exact absurd ⟨there, gone⟩ (kept other)

theorem sweeps_cleanupBucket (hosts : List HostId) (nodup : hosts.Nodup)
    {hashv : Nat} (now : Int) (run : tableOps.Run s items)
    (bucket : ∀ target ∈ hosts,
      target ∈ items ∧ s.hostKey target = some hashv) :
    Sweeps now s items {other | other ∈ hosts}
      (hosts.foldl (cleanupEntry now hashv) s) := by
  induction hosts generalizing s items with
  | nil => simpa using Sweeps.nothing run now
  | cons target hosts ih =>
      obtain ⟨here, keyed⟩ := bucket target List.mem_cons_self
      obtain ⟨fresh, nodup⟩ := List.nodup_cons.mp nodup
      have first := sweeps_cleanupEntry run here keyed now
      have later : ∀ other ∈ hosts,
          ¬(other ∈ ({target} : Set HostId) ∧
            s.isExpired now other = true) := by
        rintro other there ⟨rfl, _⟩
        exact fresh there
      have rest := ih nodup first.run fun other there => by
        obtain ⟨present, same⟩ := bucket other (List.mem_cons_of_mem _ there)
        rw [(eq_of_cell (first.kept other (later other there)) now).1]
        exact ⟨⟨present, later other there⟩, same⟩
      exact (first.trans rest).congr fun other => by simp

theorem sweeps_cleanupWalk (walk : List Nat) (now : Int)
    (run : tableOps.Run s items) :
    Sweeps now s items
      {other ∈ items | ∃ hashv ∈ walk, s.hostKey other = some hashv}
      (walk.foldl (fun s hashv =>
        (s.hostTable hashv).foldl (cleanupEntry now hashv) s) s) := by
  induction walk generalizing s items with
  | nil => simpa using Sweeps.nothing run now
  | cons hashv walk ih =>
      have holds := (Linked.invariant.run run).lists hashv
      have there : ∀ other, other ∈ s.hostTable hashv ↔
          other ∈ items ∧ s.hostKey other = some hashv := holds.mem_iff
      have first : Sweeps now s items {other | other ∈ s.hostTable hashv} _ :=
        sweeps_cleanupBucket (s.hostTable hashv) holds.nodup now run
          fun target inside => (there target).mp inside
      refine (first.trans (ih first.run)).congr fun other => ?_
      by_cases gone : other ∈ s.hostTable hashv ∧ s.isExpired now other = true
      · have linked := (there other).mp gone.1
        simp [gone.1, linked.1, linked.2]
      · have same := (eq_of_cell (first.kept other gone) now).1
        simp only [Set.mem_union, Set.mem_ofPred_eq, same, there,
          List.mem_cons]
        grind

/-- Exactly the entries that were not expired are linked, with their cells as
they were, and the cells of the others are free. -/
structure Cleaned (now : Int) (s : Hosts) (items : Set HostId) (t : Hosts) :
    Prop where
  run : tableOps.Run t {target ∈ items | s.isExpired now target = false}
  linked : Linked t {target ∈ items | s.isExpired now target = false}
  kept : ∀ target ∈ items, s.isExpired now target = false →
    t.host.cell target = s.host.cell target
  freed : ∀ target ∈ items, s.isExpired now target = true →
    t.host.cell target = none

/-- The walk through the table deletes exactly the expired entries. -/
theorem run_cleanupHostTable (run : tableOps.Run s items) (now : Int) :
    Cleaned now s items (s.cleanupHostTable now) := by
  have walked : Sweeps now s items _ (s.cleanupHostTable now) :=
    sweeps_cleanupWalk (List.range maxHostHash) now run
  have everywhere : ∀ target ∈ items,
      ∃ hashv ∈ List.range maxHostHash, s.hostKey target = some hashv := by
    intro target here
    obtain ⟨hent, used⟩ := (Linked.invariant.run run).used target here
    have bound : hashHost hent.name < maxHostHash := Nat.mod_lt _ (by decide)
    exact ⟨_, List.mem_range.mpr bound, hostKey_eq used⟩
  have stays : tableOps.Run (s.cleanupHostTable now)
      {target ∈ items | s.isExpired now target = false} := by
    refine walked.run.congr fun target => and_congr_right fun here => ?_
    simp only [Set.mem_ofPred_eq, here, everywhere target here, true_and,
      Bool.not_eq_true]
  refine ⟨stays, Linked.invariant.run stays, fun target here fresh => ?_,
    fun target here gone => walked.freed target ⟨here, everywhere target here⟩
      gone⟩
  refine walked.kept target fun both => ?_
  rw [fresh] at both
  cases both.2

def twoHosts : Hosts :=
  let s := ((empty.findHost "a".toList).2.findHost "b".toList).2
  { s with host := s.host.modify 1 fun hent => { hent with floodExpire := 9 } }

theorem run_twoHosts : tableOps.Run twoHosts {1, 0} := by
  obtain ⟨first, found, one⟩ := (findHost_found .start "a".toList).run
  cases found
  obtain ⟨second, found, two⟩ := (findHost_found one "b".toList).run
  have new : some 1 = some second := found
  cases new
  rw [insert_empty_eq] at two
  refine two.keep ⟨rfl, fun target _ => ?_⟩
  have kept : ∀ hent : HostEntry,
      HostEntry.name { hent with floodExpire := 9 } = hent.name :=
    fun _ => rfl
  exact Heap.modify_cell_map kept _ 1 target

theorem run_cleanupHostTable_two :
    tableOps.Run twoHosts {1, 0} ∧
      Linked (twoHosts.cleanupHostTable 5) {1} ∧
      (twoHosts.cleanupHostTable 5).host.cell (1 : HostId) =
        twoHosts.host.cell (1 : HostId) ∧
      (twoHosts.cleanupHostTable 5).host.cell (0 : HostId) = none := by
  have kept : twoHosts.isExpired 5 1 = false := by decide +kernel
  have gone : twoHosts.isExpired 5 0 = true := by decide +kernel
  have cleaned := run_cleanupHostTable run_twoHosts 5
  have stays : {target ∈ ({1, 0} : Set HostId) |
      twoHosts.isExpired 5 target = false} = {1} := by
    ext target
    simp only [Set.mem_singleton_iff, Set.mem_ofPred_eq, Set.mem_insert_iff]
    grind
  have linked := cleaned.linked
  rw [stays] at linked
  exact ⟨run_twoHosts, linked, cleaned.kept 1 (Set.mem_insert 1 {0}) kept,
    cleaned.freed 0 (Set.mem_insert_of_mem 1 rfl) gone⟩

end Hosts

end RatboxServices
