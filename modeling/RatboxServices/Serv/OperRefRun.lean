import RatboxServices.Serv.OperRefs

namespace RatboxServices

open CString

namespace OperCell

def block (cell : OperCell) : ConfOper × OperUser :=
  (cell.toConfOper, cell.toOperUser)

theorem isDead_eq {left right : OperCell} (same : left.block = right.block) :
    left.isDead = right.isDead := by
  unfold isDead
  rw [show left.toConfOper = right.toConfOper from congrArg Prod.fst same]

end OperCell

/-- A connection has a block until it is logged in, and is dead and not read from
when it was signed off. -/
structure OperConn.IsSound (conn : OperConn) : Prop where
  login : conn.oper.isSome = !conn.auth
  signedOff : conn.signedOff = true → conn.dead = true ∧ conn.reading = false

namespace OperState

variable {s : OperState} {opers : Heap OperCell} {list : List OperId}
  {refs ids : List OperId} {id : OperId}

def SameBlocks (before after : Heap OperCell) : Prop :=
  ∀ id, (after.cell id).map OperCell.block =
    (before.cell id).map OperCell.block

def isDeadAt (opers : Heap OperCell) (id : OperId) : Bool :=
  match opers.cell id with
  | none => false
  | some cell => cell.isDead

namespace SameBlocks

variable {before middle after : Heap OperCell}

theorem refl (opers : Heap OperCell) : SameBlocks opers opers :=
  fun _ => rfl

theorem trans (first : SameBlocks before middle)
    (second : SameBlocks middle after) : SameBlocks before after :=
  fun id => (second id).trans (first id)

theorem isSome (same : SameBlocks before after) (id : OperId) :
    (after.cell id).isSome = (before.cell id).isSome := by
  rw [← Option.isSome_map, same id, Option.isSome_map]

theorem isDeadAt (same : SameBlocks before after) (id : OperId) :
    isDeadAt after id = isDeadAt before id := by
  have blocks := same id
  unfold OperState.isDeadAt
  cases left : after.cell id with
  | none =>
      rw [left] at blocks
      rw [Option.map_eq_none_iff.mp blocks.symm]
  | some cell =>
      rw [left] at blocks
      obtain ⟨old, right, equal⟩ := Option.map_eq_some_iff.mp blocks.symm
      rw [right]
      exact OperCell.isDead_eq equal.symm

theorem modify (change : OperCell → OperCell)
    (keeps : ∀ cell, (change cell).block = cell.block) (target : OperId) :
    SameBlocks opers (opers.modify target change) := by
  intro id
  exact Heap.modify_cell_map keeps opers target id

end SameBlocks

theorem readOper_of_isSome (used : (opers.cell id).isSome = true) :
    ∃ cell, opers.cell id = some cell ∧ readOper opers id = .ok cell := by
  obtain ⟨cell, found⟩ := Option.isSome_iff_exists.mp used
  refine ⟨cell, found, ?_⟩
  unfold readOper
  rw [found]

theorem findOper_of_live (test : OperEntry → Bool)
    (live : ∀ id ∈ list, (opers.cell id).isSome = true) :
    ∃ found, findOper test opers list = .ok found ∧
      ∀ id, found = some id → id ∈ list := by
  induction list with
  | nil => exact ⟨none, rfl, fun _ impossible => nomatch impossible⟩
  | cons first rest ih =>
      obtain ⟨cell, -, read⟩ := readOper_of_isSome (live first (by simp))
      obtain ⟨found, later, inside⟩ :=
        ih fun id listed => live id (List.mem_cons_of_mem _ listed)
      rw [findOper, read]
      by_cases passes : test cell.entry = true
      · refine ⟨some first, if_pos passes, ?_⟩
        rintro id ⟨⟩
        exact List.mem_cons_self
      · refine ⟨found, (if_neg passes).trans later, fun id same => ?_⟩
        exact List.mem_cons_of_mem _ (inside id same)

theorem retain_of_counts (counts : Counts OperCell.refcount opers refs)
    (used : (opers.cell id).isSome = true) :
    ∃ after, retain id opers = .ok after ∧
      Counts OperCell.refcount after (id :: refs) ∧ SameBlocks opers after := by
  obtain ⟨cell, -, read⟩ := readOper_of_isSome used
  refine ⟨opers.modify id OperCell.retain, ?_, counts.acquire used fun _ => rfl,
    .modify OperCell.retain (fun _ => rfl) id⟩
  unfold retain
  rw [read]
  rfl

theorem deallocate_of_counts
    (counts : Counts OperCell.refcount opers (id :: refs))
    (keeps : isDeadAt opers id = true → id ∈ refs) :
    ∃ after, deallocateConfOper opers id = .ok after ∧
      Counts OperCell.refcount after refs ∧ SameBlocks opers after := by
  obtain ⟨cell, found, read⟩ := readOper_of_isSome (counts.live id (by simp))
  refine ⟨opers.modify id OperCell.release, ?_, counts.release fun _ => rfl,
    .modify OperCell.release (fun _ => rfl) id⟩
  have stays : (cell.isDead && cell.refcount - 1 == 0) = false := by
    rw [Bool.and_eq_false_imp]
    intro dead
    have held : id ∈ refs := keeps (by rw [isDeadAt, found]; exact dead)
    have known := counts.counted id cell found
    have positive := List.count_pos_iff.mpr held
    rw [List.count_cons_self] at known
    rw [beq_eq_false_iff_ne]
    omega
  unfold deallocateConfOper
  rw [read]
  exact Except.bind_eq_ok.mpr
    ⟨cell, rfl, if_neg (by rw [stays]; exact Bool.false_ne_true)⟩

theorem deallocateAll_of_counts
    (counts : Counts OperCell.refcount opers (ids ++ refs))
    (keeps : ∀ id ∈ ids, isDeadAt opers id = true → id ∈ refs) :
    ∃ after, run deallocateConfOper opers ids = .ok after ∧
      Counts OperCell.refcount after refs ∧ SameBlocks opers after := by
  induction ids generalizing opers with
  | nil => exact ⟨opers, rfl, counts, .refl opers⟩
  | cons id rest ih =>
      obtain ⟨middle, first, left, same⟩ := deallocate_of_counts counts
        fun dead => List.mem_append_right _ (keeps id (by simp) dead)
      obtain ⟨after, others, counted, equal⟩ := ih left fun other listed dead =>
        keeps other (List.mem_cons_of_mem _ listed)
          (by rwa [same.isDeadAt] at dead)
      exact ⟨after, run_cons_eq_ok.mpr ⟨middle, first, others⟩, counted,
        same.trans equal⟩

structure Tracked (opers : Heap OperCell) (list refs : List OperId) :
    Prop where
  counts : Counts OperCell.refcount opers refs
  linked : ∀ id, (opers.cell id).isSome = true ↔ id ∈ list
  nodup : list.Nodup

namespace Tracked

theorem live (tracked : Tracked opers list refs) :
    ∀ id ∈ list, (opers.cell id).isSome = true :=
  fun id => (tracked.linked id).mpr

theorem modify (tracked : Tracked opers list refs) (id : OperId)
    {change : OperCell → OperCell}
    (keeps : ∀ cell, (change cell).refcount = cell.refcount) :
    Tracked (opers.modify id change) list refs where
  counts := tracked.counts.modify id keeps
  linked other := by
    rw [Heap.modify_isSome]
    exact tracked.linked other
  nodup := tracked.nodup

theorem alloc (tracked : Tracked opers list refs) {cell : OperCell}
    (unused : cell.refcount = 0) :
    Tracked (opers.alloc cell) (list ++ [opers.next]) refs where
  counts := tracked.counts.alloc unused
  linked id := by
    rw [Heap.alloc_cell, List.mem_append, List.mem_singleton]
    split
    · rename_i equal
      simp [equal]
    · rename_i different
      rw [tracked.linked id]
      exact ⟨.inl, fun listed => listed.resolve_right different⟩
  nodup := by
    refine List.nodup_append.mpr ⟨tracked.nodup, List.nodup_singleton _, ?_⟩
    rintro id listed other new rfl
    have used := tracked.live id listed
    rw [List.mem_singleton.mp new, Heap.cell_next] at used
    cases used

theorem setConfDead (tracked : Tracked opers list refs) :
    ∃ after, run setConfDead opers list = .ok after ∧
      Tracked after list refs := by
  refine run_of_meets (Tracked · list refs) ?_
    (meets_of_mem (fun id listed _ => listed) opers) tracked
  intro opers id listed tracked
  obtain ⟨cell, -, read⟩ := readOper_of_isSome (tracked.live id listed)
  refine ⟨opers.modify id OperCell.setDead, ?_, tracked.modify id fun _ => rfl⟩
  unfold OperState.setConfDead
  rw [read]
  rfl

end Tracked

def Reloads (before after : OperState) : Prop :=
  after = { before with
    opers := after.opers
    confOperList := after.confOperList }

theorem Reloads.trans {before middle after : OperState}
    (first : Reloads before middle) (second : Reloads middle after) :
    Reloads before after := by
  unfold Reloads at *
  rw [second, first]

namespace Tracked

variable {before : OperState}

theorem endOperUser (block : OperBlock) (user : OperUser)
    (tracked : Tracked s.opers s.confOperList refs) :
    ∃ after, endOperUser block s user = .ok after ∧
      Tracked after.opers after.confOperList refs ∧ Reloads s after := by
  obtain ⟨found, search, -⟩ :=
    findOper_of_live (OperEntry.isFor block user) tracked.live
  unfold OperState.endOperUser
  rw [search]
  cases found with
  | some id => exact ⟨_, rfl, tracked.modify id fun _ => rfl, rfl⟩
  | none => exact ⟨_, rfl, tracked.alloc rfl, rfl⟩

theorem confEndOperator (block : OperBlock)
    (tracked : Tracked s.opers s.confOperList refs) :
    ∃ after, confEndOperator s block = .ok after ∧
      Tracked after.opers after.confOperList refs ∧ Reloads s after := by
  unfold OperState.confEndOperator
  split
  · refine run_of_meets
      (fun after => Tracked after.opers after.confOperList refs ∧
        Reloads s after) ?_
      (meets_of_forall (fun _ _ => trivial) s block.users) ⟨tracked, rfl⟩
    rintro middle user - ⟨tracked, reloads⟩
    obtain ⟨after, loaded, kept, next⟩ := tracked.endOperUser block user
    exact ⟨after, loaded, kept, reloads.trans next⟩
  · exact ⟨s, rfl, tracked, rfl⟩

theorem yyparse (blocks : List OperBlock)
    (tracked : Tracked s.opers s.confOperList refs) :
    ∃ after, run OperState.confEndOperator s blocks = .ok after ∧
      Tracked after.opers after.confOperList refs ∧ Reloads s after := by
  refine run_of_meets
    (fun after => Tracked after.opers after.confOperList refs ∧
      Reloads s after) ?_
    (meets_of_forall (fun _ _ => trivial) s blocks) ⟨tracked, rfl⟩
  rintro middle block - ⟨tracked, reloads⟩
  obtain ⟨after, loaded, kept, next⟩ := tracked.confEndOperator block
  exact ⟨after, loaded, kept, reloads.trans next⟩

end Tracked

theorem clearOldConfFinal_of_counts
    (counts : Counts OperCell.refcount opers refs)
    (live : ∀ id ∈ list, (opers.cell id).isSome = true)
    (nodup : list.Nodup) :
    ∃ kept after, clearOldConfFinal opers list = .ok (kept, after) ∧
      Counts OperCell.refcount after refs ∧ kept.Sublist list ∧
      (∀ id ∈ list, (after.cell id).isSome = true ↔ id ∈ kept) ∧
      ∀ id, id ∉ list → after.cell id = opers.cell id := by
  induction list generalizing opers with
  | nil =>
      exact ⟨[], opers, rfl, counts, .slnil, fun _ impossible => (nomatch impossible),
        fun _ _ => rfl⟩
  | cons first rest ih =>
      obtain ⟨fresh, others⟩ := List.nodup_cons.mp nodup
      obtain ⟨cell, found, read⟩ := readOper_of_isSome (live first (by simp))
      rw [clearOldConfFinal, read]
      by_cases goes : (cell.isDead && cell.refcount == 0) = true
      · have unused : cell.refcount = 0 :=
          beq_iff_eq.mp (Bool.and_eq_true_iff.mp goes).2
        have different (id : OperId) (listed : id ∈ rest) : id ≠ first := by
          rintro rfl
          exact fresh listed
        obtain ⟨kept, after, cleared, counted, part, inside, outside⟩ :=
          ih (counts.free found unused) (fun id listed => by
            rw [Heap.free_cell, if_neg (different id listed)]
            exact live id (List.mem_cons_of_mem _ listed)) others
        refine ⟨kept, after, (if_pos goes).trans cleared, counted,
          part.cons first, ?_, ?_⟩
        · intro id listed
          obtain rfl | listed := List.mem_cons.mp listed
          · rw [outside id fresh, Heap.free_cell, if_pos rfl]
            exact iff_of_false Bool.false_ne_true
              fun member => fresh (part.subset member)
          · exact inside id listed
        · intro id outer
          obtain ⟨unequal, outer⟩ := not_or.mp (mt List.mem_cons.mpr outer)
          rw [outside id outer, Heap.free_cell, if_neg unequal]
      · obtain ⟨kept, after, cleared, counted, part, inside, outside⟩ :=
          ih counts (fun id listed => live id (List.mem_cons_of_mem _ listed))
            others
        refine ⟨first :: kept, after, ?_, counted, part.cons_cons first, ?_, ?_⟩
        · refine (if_neg goes).trans ?_
          rw [cleared]
          rfl
        · intro id listed
          obtain rfl | later := List.mem_cons.mp listed
          · rw [outside id fresh, found]
            exact iff_of_true rfl List.mem_cons_self
          · have unequal : id ≠ first := by
              rintro rfl
              exact fresh later
            rw [inside id later, List.mem_cons]
            exact ⟨.inr, fun either => either.resolve_left unequal⟩
        · intro id outer
          exact outside id (mt (List.mem_cons_of_mem first) outer)

theorem Tracked.clearOldConfFinal (tracked : Tracked opers list refs) :
    ∃ kept after, clearOldConfFinal opers list = .ok (kept, after) ∧
      Tracked after kept refs := by
  obtain ⟨kept, after, cleared, counted, part, inside, outside⟩ :=
    clearOldConfFinal_of_counts tracked.counts tracked.live tracked.nodup
  refine ⟨kept, after, cleared, counted, fun id => ?_,
    tracked.nodup.sublist part⟩
  by_cases listed : id ∈ list
  · exact inside id listed
  · rw [outside id listed, tracked.linked id]
    exact iff_of_false listed fun member => listed (part.subset member)

theorem Tracked.rehash (file : Option OperFile)
    (tracked : Tracked s.opers s.confOperList refs) :
    ∃ after, rehash file s = .ok after ∧
      Tracked after.opers after.confOperList refs ∧
      after.users = s.users ∧ after.conns = s.conns ∧
      after.clientOpers = s.clientOpers ∧ after.reads = s.reads := by
  cases file with
  | none => exact ⟨s, rfl, tracked, rfl, rfl, rfl, rfl⟩
  | some file =>
      obtain ⟨marked, marking, first⟩ := tracked.setConfDead
      obtain ⟨parsed, parsing, second, reloads⟩ :=
        first.yyparse (s := { s with opers := marked }) file.blocks
      obtain ⟨kept, after, clearing, third⟩ := second.clearOldConfFinal
      refine ⟨{ parsed with
        opers := after
        confOperList := kept
        splitOperTime := file.splitOperTime.getD parsed.splitOperTime },
        ?_, third, ?_⟩
      · unfold OperState.rehash
        simp only [Except.bind_eq_ok]
        exact ⟨marked, marking, parsed, parsing, (kept, after), clearing, rfl⟩
      · rw [reloads]
        exact ⟨rfl, rfl, rfl, rfl⟩

def refsOf (users : List OperClient) (conns : List OperConn)
    (clientOpers : List StoredOper) : List OperId :=
  users.filterMap OperClient.oper ++
    (conns.filterMap OperConn.holds ++ clientOpers.map StoredOper.oper)

def holders (s : OperState) : List OperId :=
  refsOf s.users s.conns s.clientOpers

/-- What holds in every state: the blocks that are referred to or linked are
there, with their number of references. The connection whose lines are handled
can still use its block. -/
structure Counted (s : OperState) : Prop
    extends Tracked s.opers s.confOperList s.holders where
  sound : ∀ conn ∈ s.conns, conn.IsSound
  reading : ∀ i conn id, s.reads = some i → s.conns[i]? = some conn →
    conn.oper = some id → (s.opers.cell id).isSome = true

section Perm

variable {users users' : List OperClient} {conns conns' : List OperConn}
  {stored stored' : List StoredOper}

theorem refsOf_users
    (same : (users.filterMap OperClient.oper).Perm
      (ids ++ users'.filterMap OperClient.oper)) :
    (refsOf users conns stored).Perm (ids ++ refsOf users' conns stored) := by
  unfold refsOf
  rw [← List.append_assoc ids]
  exact same.append_right _

theorem refsOf_conns
    (same : (conns.filterMap OperConn.holds).Perm
      (ids ++ conns'.filterMap OperConn.holds)) :
    (refsOf users conns stored).Perm (ids ++ refsOf users conns' stored) := by
  unfold refsOf
  refine ((same.append_right _).append_left _).trans ?_
  rw [List.append_assoc]
  exact List.perm_append_comm_assoc ..

theorem refsOf_stored
    (same : (stored.map StoredOper.oper).Perm
      (ids ++ stored'.map StoredOper.oper)) :
    (refsOf users conns stored).Perm (ids ++ refsOf users conns stored') := by
  unfold refsOf
  refine ((same.append_left _).append_left _).trans ?_
  refine ((List.perm_append_comm_assoc ..).append_left _).trans ?_
  exact List.perm_append_comm_assoc ..

end Perm

namespace Counted

theorem giveUp (counted : s.Counted) (before : OperState)
    (opers : before.opers = s.opers)
    (list : before.confOperList = s.confOperList)
    (split : s.holders.Perm (ids ++ before.holders))
    (keeps : ∀ id ∈ ids, isDeadAt s.opers id = true →
      ids.count id < s.holders.count id)
    (sound : ∀ conn ∈ before.conns, conn.IsSound)
    (reading : ∀ i conn id, before.reads = some i →
      before.conns[i]? = some conn → conn.oper = some id →
      (s.opers.cell id).isSome = true) :
    ∃ after, giveUp ids before = .ok after ∧ after.Counted ∧
      after.confOperList = before.confOperList ∧
      after.conns = before.conns ∧ after.reads = before.reads := by
  obtain ⟨after, released, counts, same⟩ := deallocateAll_of_counts
    (counted.counts.perm split) fun id listed dead => by
      have fewer := keeps id listed dead
      rw [split.count_eq, List.count_append] at fewer
      exact List.count_pos_iff.mp (by omega)
  refine ⟨{ before with opers := after }, ?_, ?_, rfl, rfl, rfl⟩
  · unfold OperState.giveUp
    rw [opers, released]
    rfl
  · exact
      { counts := counts
        linked := fun id => by
          show (after.cell id).isSome = true ↔ id ∈ before.confOperList
          rw [same.isSome, list]
          exact counted.linked id
        nodup := list ▸ counted.nodup
        sound := sound
        reading := fun i conn id reads found held => by
          show (after.cell id).isSome = true
          rw [same.isSome]
          exact reading i conn id reads found held }

theorem retain (counted : s.Counted) (listed : id ∈ s.confOperList)
    {users : List OperClient} {conns : List OperConn}
    {clientOpers : List StoredOper}
    (joined : (id :: s.holders).Perm (refsOf users conns clientOpers))
    (sound : ∀ conn ∈ conns, conn.IsSound) (idle : s.reads = none) :
    ∃ opers, retain id s.opers = .ok opers ∧
      Counted { s with
        opers := opers
        users := users
        conns := conns
        clientOpers := clientOpers } := by
  obtain ⟨opers, retained, counts, same⟩ :=
    retain_of_counts counted.counts (counted.live id listed)
  refine ⟨opers, retained, ?_⟩
  exact
    { counts := counts.perm joined
      linked := fun id => by
        rw [same.isSome]
        exact counted.linked id
      nodup := counted.nodup
      sound := sound
      reading := fun i conn id reads => by
        rw [show s.reads = some i from reads] at idle
        cases idle }

theorem congr (counted : s.Counted) {users : List OperClient}
    {conns : List OperConn} {clientOpers : List StoredOper}
    (same : s.holders.Perm (refsOf users conns clientOpers))
    (sound : ∀ conn ∈ conns, conn.IsSound)
    (reading : ∀ i conn id, s.reads = some i → conns[i]? = some conn →
      conn.oper = some id → (s.opers.cell id).isSome = true) :
    Counted { s with
      users := users
      conns := conns
      clientOpers := clientOpers } :=
  { counts := counted.counts.perm same
    linked := counted.linked
    nodup := counted.nodup
    sound := sound
    reading := reading }

end Counted

section Events

variable {crypt : CString → CString → CString} {conn : OperConn}

def operOf (client : Nat) (s : OperState) : Option OperId :=
  s.users[client]?.bind OperClient.oper

theorem Counted.findConfOper (counted : s.Counted)
    (username host server operUsername : CString) :
    ∃ found, s.findConfOper username host server operUsername = .ok found ∧
      ∀ id, found = some id → id ∈ s.confOperList :=
  findOper_of_live _ counted.live

theorem Counted.ologin (counted : s.Counted) (idle : s.reads = none)
    (client : Nat) (parv : List CString) :
    ∃ after, ologin crypt client parv s = .ok after ∧ after.Counted := by
  unfold OperState.ologin
  split
  · exact ⟨s, rfl, counted⟩
  · rename_i user found
    split
    · exact ⟨s, rfl, counted⟩
    · rename_i free
      have absent : user.oper = none := by
        simp only [Bool.or_eq_true, not_or, Bool.not_eq_true,
          Option.isSome_eq_false_iff, Option.isNone_iff_eq_none] at free
        exact free.1
      obtain ⟨result, search, inside⟩ := counted.findConfOper user.username
        user.host user.servername (parv.getD 0 [])
      cases result with
      | none => exact ⟨s, Except.bind_eq_ok.mpr ⟨none, search, rfl⟩, counted⟩
      | some id =>
          have listed := inside id rfl
          obtain ⟨cell, -, read⟩ := readOper_of_isSome (counted.live id listed)
          by_cases refused : (!cell.accepts crypt (parv.getD 1 [])) = true
          · exact ⟨s, Except.bind_eq_ok.mpr ⟨some id, search,
              Except.bind_eq_ok.mpr ⟨cell, read, if_pos refused⟩⟩, counted⟩
          · have joined : (id :: s.holders).Perm
                (refsOf (s.users.set client { user with oper := some id })
                  s.conns s.clientOpers) := by
              refine List.Perm.trans ?_
                (refsOf_users (slots_set_perm found _)).symm
              refine List.Perm.cons id (refsOf_users ?_)
              have others : (s.users.filterMap OperClient.oper).Perm _ :=
                slots_perm found
              rwa [absent] at others
            obtain ⟨opers, retained, kept⟩ :=
              counted.retain listed joined counted.sound idle
            refine ⟨_, Except.bind_eq_ok.mpr ⟨some id, search,
              Except.bind_eq_ok.mpr ⟨cell, read, (if_neg refused).trans ?_⟩⟩,
              kept⟩
            exact Except.bind_eq_ok.mpr ⟨opers, retained, rfl⟩

theorem operOf_eq {client : Nat} {user : OperClient}
    (found : s.users[client]? = some user) : s.operOf client = user.oper := by
  rw [operOf, found]
  rfl

theorem Counted.ologout (counted : s.Counted) (client : Nat)
    (keeps : ∀ id ∈ (s.operOf client).toList, isDeadAt s.opers id = true →
      (s.operOf client).toList.count id < s.holders.count id) :
    ∃ after, ologout client s = .ok after ∧ after.Counted := by
  unfold OperState.ologout
  split
  · exact ⟨s, rfl, counted⟩
  · rename_i user found
    rw [operOf_eq found] at keeps
    obtain ⟨after, released, kept, -⟩ := counted.giveUp
      { s with users := s.users.set client { user with oper := none } }
      rfl rfl (refsOf_users (slots_set_split found _ (by simp))) keeps
      counted.sound counted.reading
    exact ⟨after, released, kept⟩

theorem Counted.exitUser (counted : s.Counted) (idle : s.reads = none)
    (client : Nat) (split : Bool) (now : Int)
    (keeps : s.isStored split = false →
      ∀ id ∈ (s.operOf client).toList, isDeadAt s.opers id = true →
        (s.operOf client).toList.count id < s.holders.count id) :
    ∃ after, exitUser client split now s = .ok after ∧ after.Counted := by
  unfold OperState.exitUser
  split
  · exact ⟨s, rfl, counted⟩
  · rename_i user found
    rw [operOf_eq found] at keeps
    have others (stored : List StoredOper) :
        (refsOf s.users s.conns stored).Perm (user.oper.toList ++
          refsOf (s.users.eraseIdx client) s.conns stored) :=
      refsOf_users (slots_perm found)
    dsimp only
    split
    · rename_i absent
      rw [absent] at others
      exact ⟨_, rfl,
        counted.congr (others s.clientOpers) counted.sound counted.reading⟩
    · rename_i id present
      rw [present] at others keeps
      cases stays : s.isStored split with
      | false =>
          obtain ⟨after, released, kept, -⟩ := counted.giveUp
            { s with users := s.users.eraseIdx client }
            rfl rfl (others s.clientOpers) (keeps stays) counted.sound
            counted.reading
          refine ⟨after, Except.bind_eq_ok.mpr ⟨_, if_neg ?_, released⟩, kept⟩
          simpa [OperState.isStored] using stays
      | true =>
          have held : id ∈ s.holders := by
            refine (others s.clientOpers).mem_iff.mpr ?_
            exact List.mem_append_left _ (List.mem_singleton_self id)
          have listed : id ∈ s.confOperList :=
            (counted.linked id).mp (counted.counts.live id held)
          -- the user is still counted beside its stored oper, and then is not
          let stored : StoredOper :=
            { uid := strlcpy (uidLen + 1) user.uid
              username := strlcpy (userLen + 1) user.username
              host := strlcpy (hostLen + 1) user.host
              sid := strlcpy (uidLen + 1) user.sid
              oper := id
              timestamp := now }
          have joined : (id :: s.holders).Perm
              (refsOf s.users s.conns (stored :: s.clientOpers)) := by
            have added : (refsOf s.users s.conns (stored :: s.clientOpers)).Perm
                ([id] ++ refsOf s.users s.conns s.clientOpers) :=
              refsOf_stored .rfl
            exact added.symm
          obtain ⟨opers, retained, both⟩ :=
            counted.retain listed joined counted.sound idle
          have twice : ∀ other ∈ [id], [id].count other <
              (refsOf s.users s.conns (stored :: s.clientOpers)).count other := by
            intro other same
            have positive := List.count_pos_iff.mpr held
            rw [← joined.count_eq, List.mem_singleton.mp same,
              List.count_cons_self, List.count_cons_self, List.count_nil]
            omega
          obtain ⟨after, released, kept, -⟩ := both.giveUp
            { s with
              opers := opers
              users := s.users.eraseIdx client
              clientOpers := stored :: s.clientOpers }
            rfl rfl (others (stored :: s.clientOpers))
            (fun other same _ => twice other same) counted.sound
            (fun _ _ _ reads => by
              rw [show s.reads = _ from reads] at idle
              cases idle)
          refine ⟨after, Except.bind_eq_ok.mpr
            ⟨_, (if_pos ?_).trans ?_, released⟩, kept⟩
          · simpa [OperState.isStored] using stays
          · exact Except.bind_eq_ok.mpr ⟨opers, retained, rfl⟩

theorem Counted.freeClientOpers (counted : s.Counted)
    (goes : StoredOper → Bool)
    (keeps : ∀ id ∈ (s.clientOpers.filter goes).map StoredOper.oper,
      isDeadAt s.opers id = true →
        ((s.clientOpers.filter goes).map StoredOper.oper).count id <
          s.holders.count id) :
    ∃ after, freeClientOpers goes s = .ok after ∧ after.Counted := by
  have split : (s.clientOpers.map StoredOper.oper).Perm
      ((s.clientOpers.filter goes).map StoredOper.oper ++
        (s.clientOpers.filter fun stored => !goes stored).map
          StoredOper.oper) := by
    rw [← List.map_append]
    exact (List.filter_append_perm goes s.clientOpers).symm.map _
  obtain ⟨after, released, kept, -⟩ := counted.giveUp
    { s with clientOpers := s.clientOpers.filter fun stored => !goes stored }
    rfl rfl (refsOf_stored split) keeps counted.sound counted.reading
  exact ⟨after, released, kept⟩

theorem oper_of_auth (sound : conn.IsSound) (auth : conn.auth = true) :
    conn.oper = none := by
  have login := sound.login
  rw [auth] at login
  simpa using login

theorem signOff_isSound (sound : conn.IsSound) : conn.signOff.IsSound := by
  unfold OperConn.signOff
  split
  · exact sound
  · exact ⟨sound.login, fun _ => ⟨rfl, rfl⟩⟩

theorem signOff_splits (sound : conn.IsSound) :
    conn.holds.toList =
      conn.givesUp.toList ++ conn.signOff.holds.toList := by
  unfold OperConn.signOff OperConn.givesUp
  cases dead : conn.dead with
  | true => rfl
  | false =>
      have counts : conn.signedOff ≠ true := fun signedOff =>
        Bool.false_ne_true (dead ▸ (sound.signedOff signedOff).1)
      unfold OperConn.holds
      rw [if_neg counts]
      simp

theorem Counted.set_sound (counted : s.Counted) {i : Nat} (sound : conn.IsSound) :
    ∀ other ∈ s.conns.set i conn, other.IsSound := by
  intro other listed
  obtain same | rfl := List.mem_or_eq_of_mem_set listed
  · exact counted.sound other same
  · exact sound

theorem Counted.set_reading (counted : s.Counted) {i : Nat}
    {conn next : OperConn} (found : s.conns[i]? = some conn)
    (same : ∀ id, next.oper = some id → conn.oper = some id) :
    ∀ j other id, s.reads = some j → (s.conns.set i next)[j]? = some other →
      other.oper = some id → (s.opers.cell id).isSome = true := by
  intro j other id reads here held
  rw [List.getElem?_set] at here
  split at here
  · rename_i equal
    split at here
    · cases here
      exact counted.reading j conn id reads (equal ▸ found) (same id held)
    · cases here
  · exact counted.reading j other id reads here held

theorem signOff_oper (conn : OperConn) : conn.signOff.oper = conn.oper := by
  unfold OperConn.signOff
  split <;> rfl

theorem Counted.signoffClient (counted : s.Counted) {i : Nat}
    (found : s.conns[i]? = some conn)
    (keeps : ∀ id ∈ conn.givesUp.toList, isDeadAt s.opers id = true →
      conn.givesUp.toList.count id < s.holders.count id) :
    ∃ after, signoffClient i s = .ok after ∧ after.Counted ∧
      after.confOperList = s.confOperList ∧
      after.conns = s.conns.set i conn.signOff ∧ after.reads = s.reads := by
  have sound := counted.sound conn (List.mem_of_getElem? found)
  unfold OperState.signoffClient
  rw [found]
  exact counted.giveUp { s with conns := s.conns.set i conn.signOff } rfl rfl
    (refsOf_conns (slots_set_split found _ (signOff_splits sound))) keeps
    (counted.set_sound (signOff_isSound sound))
    (counted.set_reading found fun id held => signOff_oper conn ▸ held)

/-- The block `connect_callback` or the accept of a connection gives up. -/
def failedOper (i : Nat) (s : OperState) : Option OperId :=
  s.conns[i]?.bind fun conn =>
    if conn.connecting && !conn.dead then conn.givesUp else none

theorem Counted.openFailed (counted : s.Counted) (i : Nat)
    (keeps : ∀ id ∈ (s.failedOper i).toList, isDeadAt s.opers id = true →
      (s.failedOper i).toList.count id < s.holders.count id) :
    ∃ after, openFailed i s = .ok after ∧ after.Counted := by
  unfold OperState.openFailed
  unfold failedOper at keeps
  split
  · exact ⟨s, rfl, counted⟩
  · rename_i conn found
    rw [found] at keeps
    split
    · rename_i waits
      rw [Option.bind_some, if_pos waits] at keeps
      obtain ⟨after, signed, kept, -⟩ := counted.signoffClient found keeps
      exact ⟨after, signed, kept⟩
    · exact ⟨s, rfl, counted⟩

def closedOper (i : Nat) (closes : Bool) (s : OperState) : Option OperId :=
  s.conns[i]?.bind fun conn =>
    if conn.reading && closes then conn.givesUp else none

theorem Counted.readAny (counted : s.Counted) (i : Nat) (closes : Bool)
    (keeps : ∀ id ∈ (s.closedOper i closes).toList,
      isDeadAt s.opers id = true →
        (s.closedOper i closes).toList.count id < s.holders.count id) :
    ∃ after, readAny i closes s = .ok after ∧ after.Counted := by
  unfold OperState.readAny
  unfold closedOper at keeps
  split
  · exact ⟨s, rfl, counted⟩
  · rename_i conn found
    rw [found, Option.bind_some] at keeps
    split
    · rename_i reading
      have sound := counted.sound conn (List.mem_of_getElem? found)
      have counts : conn.signedOff ≠ true := fun signedOff =>
        Bool.false_ne_true ((sound.signedOff signedOff).2.symm.trans reading)
      have listed : ∀ id, conn.oper = some id → id ∈ s.confOperList := by
        intro id held
        refine (counted.linked id).mp (counted.counts.live id ?_)
        refine List.mem_append_right _ (List.mem_append_left _ ?_)
        refine List.mem_filterMap.mpr ⟨conn, List.mem_of_getElem? found, ?_⟩
        rw [OperConn.holds, if_neg counts, held]
      have begins : ∀ after : OperState, after.Counted →
          after.confOperList = s.confOperList →
          (∀ next, after.conns[i]? = some next → next.oper = conn.oper) →
          Counted { after with reads := some i } := by
        intro after kept list same
        exact
          { toTracked := kept.toTracked
            sound := kept.sound
            reading := fun j next id reads here held => by
              cases reads
              refine (kept.linked id).mpr (list ▸ listed id ?_)
              rw [← same next here, held] }
      cases closes with
      | false =>
          refine ⟨_, rfl, begins s counted rfl fun next here => ?_⟩
          rw [found] at here
          cases here
          rfl
      | true =>
          rw [reading] at keeps
          obtain ⟨after, signed, kept, list, conns, -⟩ :=
            counted.signoffClient found keeps
          refine ⟨_, Except.bind_eq_ok.mpr ⟨after, signed, rfl⟩,
            begins after kept list fun next here => ?_⟩
          rw [conns, List.getElem?_set_self' , found] at here
          cases here
          exact signOff_oper conn
    · exact ⟨s, rfl, counted⟩

theorem Counted.openConn (counted : s.Counted) (idle : s.reads = none)
    (client : Nat) (outwards : Bool) :
    ∃ after, openConn client outwards s = .ok after ∧ after.Counted := by
  unfold OperState.openConn
  split
  · exact ⟨s, rfl, counted⟩
  · rename_i user found
    obtain ⟨result, search, inside⟩ := counted.findConfOper user.username
      user.host user.servername []
    cases result with
    | none => exact ⟨s, Except.bind_eq_ok.mpr ⟨none, search, rfl⟩, counted⟩
    | some id =>
        have listed := inside id rfl
        obtain ⟨cell, -, read⟩ := readOper_of_isSome (counted.live id listed)
        by_cases refused : (!cell.flags.getLsbD confOperDcc) = true
        · exact ⟨s, Except.bind_eq_ok.mpr ⟨some id, search,
            Except.bind_eq_ok.mpr ⟨cell, read, if_pos refused⟩⟩, counted⟩
        · let conn : OperConn :=
            { name := cell.name, outwards := outwards, oper := some id }
          have joined : (id :: s.holders).Perm
              (refsOf s.users (conn :: s.conns) s.clientOpers) := by
            have added : (refsOf s.users (conn :: s.conns) s.clientOpers).Perm
                ([id] ++ refsOf s.users s.conns s.clientOpers) :=
              refsOf_conns .rfl
            exact added.symm
          have sound : ∀ other ∈ conn :: s.conns, other.IsSound := by
            intro other member
            obtain rfl | old := List.mem_cons.mp member
            · exact ⟨rfl, fun signedOff => nomatch signedOff⟩
            · exact counted.sound other old
          obtain ⟨opers, retained, kept⟩ :=
            counted.retain listed joined sound idle
          refine ⟨_, Except.bind_eq_ok.mpr ⟨some id, search,
            Except.bind_eq_ok.mpr ⟨cell, read, (if_neg refused).trans ?_⟩⟩,
            kept⟩
          exact Except.bind_eq_ok.mpr ⟨opers, retained, rfl⟩

theorem Counted.onConn (counted : s.Counted) (i : Nat)
    {change : OperConn → OperConn}
    (oper : ∀ conn, (change conn).oper = conn.oper)
    (signedOff : ∀ conn, (change conn).signedOff = conn.signedOff)
    (sound : ∀ conn : OperConn, conn.IsSound → (change conn).IsSound) :
    (onConn i change s).Counted := by
  unfold OperState.onConn
  split
  · exact counted
  · rename_i conn found
    have same : (change conn).holds = conn.holds := by
      rw [OperConn.holds, OperConn.holds, oper, signedOff]
    have split : (s.conns.filterMap OperConn.holds).Perm
        ((none : Option OperId).toList ++
          (s.conns.set i (change conn)).filterMap OperConn.holds) :=
      slots_set_split found (change conn) (by rw [same]; rfl)
    exact counted.congr (refsOf_conns split)
      (counted.set_sound
        (sound conn (counted.sound conn (List.mem_of_getElem? found))))
      (counted.set_reading found fun id held => oper conn ▸ held)

theorem signOn_isSound (fails : Bool) (sound : conn.IsSound) :
    (signOn fails conn).IsSound := by
  unfold OperState.signOn
  split
  · rename_i waits
    have alive : conn.dead = false := by simpa using (Bool.and_eq_true_iff.mp waits).2
    refine ⟨sound.login, fun signedOff => ?_⟩
    rw [(sound.signedOff signedOff).1] at alive
    cases alive
  · exact sound

theorem reader_eq_some {i : Nat} (handled : s.reader i = some conn) :
    s.reads = some i ∧ s.conns[i]? = some conn := by
  unfold reader at handled
  split at handled
  · rename_i reads
    obtain ⟨found, -⟩ := Option.filter_eq_some_iff.mp handled
    exact ⟨reads, found⟩
  · cases handled

def loginOper (crypt : CString → CString → CString) (i : Nat)
    (parv : List CString) (s : OperState) : Option OperId := do
  let conn ← s.reader i
  if conn.auth || lacks parv 2 1 then none
  else
    let id ← conn.oper
    let cell ← s.opers.cell id
    if cell.accepts crypt (parv.getD 1 []) then some id else none

theorem Counted.uLogin (counted : s.Counted) (i : Nat) (parv : List CString)
    (keeps : ∀ id ∈ (s.loginOper crypt i parv).toList,
      isDeadAt s.opers id = true →
        (s.loginOper crypt i parv).toList.count id < s.holders.count id)
    (once : ∀ conn, s.reader i = some conn → conn.signedOff = true →
      s.loginOper crypt i parv = none) :
    ∃ after, uLogin crypt i parv s = .ok after ∧ after.Counted := by
  unfold OperState.uLogin
  split
  · exact ⟨s, rfl, counted⟩
  · rename_i conn handled
    obtain ⟨reads, found⟩ := reader_eq_some handled
    have sound := counted.sound conn (List.mem_of_getElem? found)
    split
    · exact ⟨s, rfl, counted⟩
    · rename_i tries
      split
      · rename_i absent
        have login := sound.login
        rw [absent] at login
        simp only [Option.isSome_none, Bool.false_eq, Bool.not_eq_false'] at login
        exact absurd (by rw [login]; rfl) tries
      · rename_i id held
        obtain ⟨cell, here, read⟩ := readOper_of_isSome
          (counted.reading i conn id reads found held)
        by_cases refused : (!cell.accepts crypt (parv.getD 1 [])) = true
        · exact ⟨s, Except.bind_eq_ok.mpr ⟨cell, read, if_pos refused⟩, counted⟩
        · have accepted : s.loginOper crypt i parv = some id := by
            unfold loginOper
            simp only [handled, Option.bind_eq_bind, Option.bind_some, held, here]
            rw [if_neg tries]
            simpa using refused
          have counts : conn.signedOff ≠ true := fun signedOff => by
            rw [once conn handled signedOff] at accepted
            cases accepted
          have splits : conn.holds.toList = (some id).toList ++
              (OperConn.holds { conn with auth := true, oper := none }).toList := by
            simp [OperConn.holds, counts, held]
          rw [accepted] at keeps
          obtain ⟨after, released, kept, -⟩ := counted.giveUp
            { s with
              conns := s.conns.set i { conn with auth := true, oper := none } }
            rfl rfl
            (refsOf_conns (slots_set_split found _ splits)) keeps
            (counted.set_sound ⟨rfl, sound.signedOff⟩)
            (counted.set_reading found fun _ impossible => nomatch impossible)
          exact ⟨after, Except.bind_eq_ok.mpr
            ⟨cell, read, (if_neg refused).trans released⟩, kept⟩

theorem Counted.uQuit (counted : s.Counted) (i : Nat) :
    ∃ after, uQuit i s = .ok after ∧ after.Counted := by
  unfold OperState.uQuit
  split
  · exact ⟨s, rfl, counted⟩
  · rename_i conn handled
    obtain ⟨-, found⟩ := reader_eq_some handled
    split
    · rename_i auth
      have sound := counted.sound conn (List.mem_of_getElem? found)
      have none_ : conn.givesUp = none := by
        rw [OperConn.givesUp, oper_of_auth sound auth, ite_self]
      obtain ⟨after, signed, kept, -⟩ := counted.signoffClient found (by
        rw [none_]
        exact fun _ impossible => nomatch impossible)
      exact ⟨after, signed, kept⟩
    · exact ⟨s, rfl, counted⟩

theorem Counted.rehash (counted : s.Counted) (file : Option OperFile)
    (unused : ∀ i conn, s.reads = some i → s.conns[i]? = some conn →
      conn.oper = none) :
    ∃ after, rehash file s = .ok after ∧ after.Counted := by
  obtain ⟨after, loaded, tracked, users, conns, clientOpers, reads⟩ :=
    counted.toTracked.rehash file
  have holders : after.holders = s.holders := by
    unfold OperState.holders
    rw [users, conns, clientOpers]
  refine ⟨after, loaded, ⟨holders ▸ tracked, conns ▸ counted.sound, ?_⟩⟩
  intro i conn id isRead found held
  rw [unused i conn (reads ▸ isRead) (conns ▸ found)] at held
  cases held

theorem Counted.uRehash (counted : s.Counted) (i : Nat)
    (file : Option OperFile) :
    ∃ after, uRehash i file s = .ok after ∧ after.Counted := by
  unfold OperState.uRehash
  split
  · exact ⟨s, rfl, counted⟩
  · rename_i conn handled
    obtain ⟨reads, found⟩ := reader_eq_some handled
    split
    · rename_i auth
      refine counted.rehash file fun j other isRead here => ?_
      rw [reads] at isRead
      cases isRead
      rw [found] at here
      cases here
      exact oper_of_auth (counted.sound conn (List.mem_of_getElem? found)) auth
    · exact ⟨s, rfl, counted⟩

theorem Counted.uBoot (counted : s.Counted) (i : Nat) (name : CString)
    (keeps : ∀ conn, s.reader i = some conn → conn.auth = true →
      ∀ id ∈ s.bootedOpers name, isDeadAt s.opers id = true →
        (s.bootedOpers name).count id < s.holders.count id) :
    ∃ after, uBoot i name s = .ok after ∧ after.Counted := by
  unfold OperState.uBoot
  split
  · exact ⟨s, rfl, counted⟩
  · rename_i conn handled
    split
    · exact ⟨s, rfl, counted⟩
    · rename_i auth
      have live : ∀ id ∈ s.users.filterMap OperClient.oper,
          (s.opers.cell id).isSome = true := fun id listed =>
        counted.counts.live id (List.mem_append_left _ listed)
      obtain ⟨cell, reads, -⟩ : ∃ cell, run (fun _ => readOper s.opers) default
          (s.users.filterMap OperClient.oper) = .ok cell ∧ True := by
        refine run_of_meets (fun _ => True) ?_
          (meets_of_mem (fun id listed _ => live id listed) default) trivial
        intro _ id used _
        obtain ⟨cell, -, read⟩ := readOper_of_isSome used
        exact ⟨cell, read, trivial⟩
      have users : (s.users.filterMap OperClient.oper).Perm
          ((s.users.filter (isBooted name s.opers)).filterMap OperClient.oper ++
            (s.users.map fun user =>
              if isBooted name s.opers user then { user with oper := none }
              else user).filterMap OperClient.oper) :=
        slots_map_perm fun user _ _ => by simp
      have conns : (s.conns.filterMap OperConn.holds).Perm
          ((s.conns.filter (isNamed name)).filterMap OperConn.givesUp ++
            (s.conns.map fun conn =>
              if isNamed name conn then conn.signOff else conn).filterMap
                OperConn.holds) :=
        slots_map_perm fun conn listed _ =>
          signOff_splits (counted.sound conn listed)
      have oper (conn : OperConn) :
          (if isNamed name conn then conn.signOff else conn).oper =
            conn.oper := by
        split
        · exact signOff_oper conn
        · rfl
      obtain ⟨after, released, kept, -⟩ := counted.giveUp
        { s with
          users := s.users.map fun user =>
            if isBooted name s.opers user then { user with oper := none }
            else user
          conns := s.conns.map fun conn =>
            if isNamed name conn then conn.signOff else conn }
        rfl rfl
        ((refsOf_users users).trans (by
          unfold bootedOpers
          rw [List.append_assoc]
          exact (refsOf_conns conns).append_left _))
        (keeps conn handled (by simpa using auth))
        (fun other listed => by
          obtain ⟨before, member, rfl⟩ := List.mem_map.mp listed
          split
          · exact signOff_isSound (counted.sound before member)
          · exact counted.sound before member)
        (fun j other id isRead here held => by
          rw [List.getElem?_map] at here
          obtain ⟨before, found, rfl⟩ := Option.map_eq_some_iff.mp here
          exact counted.reading j before id isRead found (oper before ▸ held))
      exact ⟨after, Except.bind_eq_ok.mpr ⟨cell, reads, released⟩, kept⟩

theorem Counted.cleanup (counted : s.Counted) (idle : s.reads = none)
    (freed : ∀ conn ∈ s.conns, conn.dead = true → conn.holds = none) :
    Counted { s with conns := s.conns.filter fun conn => !conn.dead } := by
  have same : (s.conns.filter fun conn => !conn.dead).filterMap
      OperConn.holds = s.conns.filterMap OperConn.holds :=
    slots_filter fun conn listed dead =>
      freed conn listed (by simpa using dead)
  refine counted.congr (.of_eq ?_) (fun conn listed => ?_) ?_
  · unfold refsOf
    rw [same]
    rfl
  · exact counted.sound conn (List.mem_of_mem_filter listed)
  · intro i conn id reads
    rw [idle] at reads
    cases reads

def givenUp (crypt : CString → CString → CString) (s : OperState) :
    OperEvent → List OperId
  | .ologout client => (s.operOf client).toList
  | .exit client split _ =>
      if s.isStored split then [] else (s.operOf client).toList
  | .eob sid => (s.clientOpers.filter (isFrom sid)).map StoredOper.oper
  | .expire now => (s.clientOpers.filter (s.isStale now)).map StoredOper.oper
  | .openFailed i => (s.failedOper i).toList
  | .read i closes => (s.closedOper i closes).toList
  | .login i parv => (s.loginOper crypt i parv).toList
  | .boot i name =>
      if (s.reader i).any OperConn.auth then s.bootedOpers name else []
  | .rehash _ | .introduce _ | .ologin _ _ | .opened _ _ | .signon _ _
  | .writeError _ | .quit _ | .rehashLine _ _ | .cleanup => []

/-- What goes wrong with connections: a login that was read behind the end of
the connection, and a connection that is freed without being signed off. -/
def ConnSafe (crypt : CString → CString → CString) (s : OperState) :
    OperEvent → Prop
  | .login i parv =>
      (s.reader i).any OperConn.signedOff = true →
        s.loginOper crypt i parv = none
  | .cleanup => ∀ conn ∈ s.conns, conn.dead = true → conn.holds = none
  | _ => True

/-- No dead block loses the last that points to it, and the connections are
safe. -/
def Safe (crypt : CString → CString → CString) (s : OperState)
    (event : OperEvent) : Prop :=
  (∀ id ∈ s.givenUp crypt event, isDeadAt s.opers id = true →
    (s.givenUp crypt event).count id < s.holders.count id) ∧
  ConnSafe crypt s event

instance ConnSafe.decidable (crypt : CString → CString → CString)
    (s : OperState) : ∀ event, Decidable (ConnSafe crypt s event)
  | .login _ _ => inferInstanceAs (Decidable (_ → _))
  | .cleanup => inferInstanceAs (Decidable (∀ _ ∈ _, _))
  | .rehash _ | .introduce _ | .ologin _ _ | .ologout _ | .exit _ _ _
  | .eob _ | .expire _ | .opened _ _ | .signon _ _ | .openFailed _
  | .writeError _ | .read _ _ | .quit _ | .boot _ _ | .rehashLine _ _ =>
      inferInstanceAs (Decidable True)

instance Safe.decidable (crypt : CString → CString → CString) (s : OperState)
    (event : OperEvent) : Decidable (Safe crypt s event) :=
  inferInstanceAs (Decidable (_ ∧ _))

theorem Counted.empty : OperState.empty.Counted where
  counts := .empty
  linked _ := iff_of_false Bool.false_ne_true List.not_mem_nil
  nodup := List.nodup_nil
  sound _ listed := nomatch listed
  reading _ _ _ reads := nomatch reads

theorem Counted.line (counted : s.Counted) {event : OperEvent}
    (isLine : event.isLine = true) (safe : Safe crypt s event) :
    ∃ after, act crypt s event = .ok after ∧ after.Counted := by
  obtain ⟨keeps, connSafe⟩ := safe
  cases event with
  | login i parv =>
      refine counted.uLogin i parv keeps fun conn handled signedOff => ?_
      exact connSafe (by rw [handled]; exact signedOff)
  | quit i => exact counted.uQuit i
  | boot i name =>
      refine counted.uBoot i name fun conn handled auth => ?_
      have given : s.givenUp crypt (.boot i name) = s.bootedOpers name :=
        if_pos (by rw [handled]; exact auth)
      rwa [given] at keeps
  | rehashLine i file => exact counted.uRehash i file
  | writeError i =>
      refine ⟨_, rfl, counted.onConn i (fun _ => rfl) (fun _ => rfl) ?_⟩
      exact fun conn sound =>
        ⟨sound.login, fun signedOff => ⟨rfl, (sound.signedOff signedOff).2⟩⟩
  | rehash | introduce | ologin | ologout | exit | eob | expire | opened
  | signon | openFailed | read | cleanup => cases isLine

theorem Counted.notLine (counted : s.Counted) (idle : s.reads = none)
    {event : OperEvent} (notLine : event.isLine = false)
    (safe : Safe crypt s event) :
    ∃ after, act crypt s event = .ok after ∧ after.Counted := by
  obtain ⟨keeps, connSafe⟩ := safe
  cases event with
  | rehash file =>
      refine counted.rehash file fun i conn reads => ?_
      rw [idle] at reads
      cases reads
  | introduce user =>
      exact ⟨_, rfl, counted.congr .rfl counted.sound counted.reading⟩
  | ologin client parv => exact counted.ologin idle client parv
  | ologout client => exact counted.ologout client keeps
  | exit client split now =>
      refine counted.exitUser idle client split now fun stays => ?_
      have given : s.givenUp crypt (.exit client split now) =
          (s.operOf client).toList := if_neg (by simp [stays])
      rwa [given] at keeps
  | eob sid => exact counted.freeClientOpers (isFrom sid) keeps
  | expire now => exact counted.freeClientOpers (s.isStale now) keeps
  | opened client outwards => exact counted.openConn idle client outwards
  | signon i fails =>
      refine ⟨_, rfl, counted.onConn i ?_ ?_ fun _ => signOn_isSound fails⟩
      · intro conn
        unfold OperState.signOn
        split <;> rfl
      · intro conn
        unfold OperState.signOn
        split <;> rfl
  | openFailed i => exact counted.openFailed i keeps
  | read i closes => exact counted.readAny i closes keeps
  | cleanup => exact ⟨_, rfl, counted.cleanup idle connSafe⟩
  | login | quit | boot | rehashLine | writeError => cases notLine

theorem Counted.step (counted : s.Counted) {event : OperEvent}
    (safe : Safe crypt s event) :
    ∃ after, step crypt s event = .ok after ∧ after.Counted := by
  unfold OperState.step
  cases isLine : event.isLine with
  | true => exact counted.line isLine safe
  | false =>
      have idle : Counted { s with reads := none } :=
        { toTracked := counted.toTracked
          sound := counted.sound
          reading := fun _ _ _ reads => nomatch reads }
      refine idle.notLine rfl isLine ?_
      cases event with
      | rehash | introduce | ologin | ologout | exit | eob | expire | opened
      | signon | openFailed | read | cleanup => exact safe
      | login | quit | boot | rehashLine | writeError => cases isLine

end Events

/-- While no dead block loses the last that points to it, no login is read behind
the end of its connection, and no connection is freed without being signed off,
nothing uses a block that was freed: in every state reached the blocks that are
referred to, and just those of the list, are there, and each has the number of
its references. -/
theorem refcounts_of_run (crypt : CString → CString → CString)
    (events : List OperEvent)
    (safe : Meets (step crypt) (Safe crypt) empty events) :
    ∃ s, run (step crypt) empty events = .ok s ∧
      (∀ id cell, s.opers.cell id = some cell →
        cell.refcount = s.holders.count id) ∧
      (∀ id ∈ s.holders, (s.opers.cell id).isSome = true) ∧
      (∀ id, (s.opers.cell id).isSome = true ↔ id ∈ s.confOperList) ∧
      s.confOperList.Nodup := by
  obtain ⟨s, reached, counted⟩ := run_of_meets Counted
    (fun s event safe counted => Counted.step counted safe) safe .empty
  exact ⟨s, reached, counted.counts.counted, counted.counts.live,
    counted.linked, counted.nodup⟩

def operBlock : OperBlock where
  name := "lyra".toList
  pass := "secret".toList
  flags := .ofNat 64 32
  users := [⟨"*".toList, "*".toList, []⟩]

def operUser : OperClient where
  uid := "1AAAAAAAA".toList
  username := "lyra".toList
  host := "example.org".toList
  servername := "hub.int".toList
  sid := "1AA".toList

def password : List CString :=
  ["lyra".toList, "secret".toList]

def untilUser : List OperEvent :=
  [.rehash (some { blocks := [operBlock] }), .introduce operUser]

theorem refcounts_of_run_split :
    ∃ s, run (step fun given _ => given) empty
        (untilUser ++
          [.ologin 0 password, .exit 0 true 100,
            .rehash (some { blocks := [] }), .rehash none]) = .ok s ∧
      (∀ id cell, s.opers.cell id = some cell →
        cell.refcount = s.holders.count id) := by
  obtain ⟨s, reached, counted, -⟩ := refcounts_of_run (fun given _ => given)
    (untilUser ++
      [.ologin 0 password, .exit 0 true 100,
        .rehash (some { blocks := [] }), .rehash none]) (by decide +kernel)
  exact ⟨s, reached, counted⟩

/-- An oper logs out whose block is not in the configuration any more: the block
is freed and stays in the list, and the next rehash uses it. A login that is read
behind the end of its connection is uncounted twice, and a connection whose
first write fails is never uncounted. -/
theorem not_counted_of_run :
    ((run (step fun given _ => given) empty
        (untilUser ++
          [.ologin 0 password, .rehash (some { blocks := [] }),
            .ologout 0])).toOption.map fun s =>
        (s.confOperList, s.confOperList.map fun id =>
          (s.opers.cell id).isSome)) = some ([0], [false]) ∧
      (run (step fun given _ => given) empty
        (untilUser ++
          [.ologin 0 password, .rehash (some { blocks := [] }), .ologout 0,
            .rehash (some { blocks := [] })])).toOption.isNone = true ∧
      ((run (step fun given _ => given) empty
        (untilUser ++
          [.opened 0 false, .signon 0 false, .read 0 true,
            .login 0 password])).toOption.map fun s =>
        (s.holders, (s.opers.cell 0).map OperCell.refcount)) =
          some ([], some (-1)) ∧
      ((run (step fun given _ => given) empty
        (untilUser ++
          [.opened 0 false, .signon 0 true, .cleanup])).toOption.map fun s =>
        (s.holders, (s.opers.cell 0).map OperCell.refcount)) =
          some ([], some 1) := by
  decide +kernel

end OperState

end RatboxServices
