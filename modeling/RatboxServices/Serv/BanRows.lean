import RatboxServices.Serv.BanRun

namespace RatboxServices

open CString

/-! Table `bans` against the lists in memory. -/

/-- The record that `ban_db_callback` makes of the texts of a row. -/
def BanRow.ban (row : BanRow) : BanReg :=
  makeBan row.mask row.reason row.username (atoi (formatInt row.level))
    (atoi (formatInt row.hold))

structure Storable (ban : BanReg) : Prop where
  collapsed : collapse ban.mask = ban.mask
  mask : ban.mask ≠ []
  reason : ban.reason ≠ []
  username : ban.username ≠ []
  level : -2147483648 ≤ ban.level ∧ ban.level < 2147483648
  hold : 0 ≤ ban.hold ∧ ban.hold < 2147483648

theorem Storable.row_ban {ban : BanReg} (storable : Storable ban)
    (chname : CString) : (ban.row chname).ban = ban := by
  obtain ⟨collapsed, -, reason, username, level, hold⟩ := storable
  have kept : ban.hold % 18446744073709551616 = ban.hold :=
    Int.emod_eq_of_lt hold.1 (by omega)
  have small : ban.hold.bmod 4294967296 = ban.hold :=
    Int.bmod_eq_of_le (by omega) (by omega)
  unfold BanRow.ban BanReg.row makeBan
  dsimp only
  rw [kept, atoi_formatInt level.1 level.2,
    atoi_formatInt (by omega) (by omega), collapsed, small]
  simp [reason, username]

theorem Storable.makeBan {mask reason username : CString} {level hold : Int}
    (some_ : mask ≠ [])
    (small : -2147483648 ≤ level ∧ level < 2147483648)
    (future : 0 ≤ hold.bmod 4294967296) :
    Storable (makeBan mask reason username level hold) := by
  refine ⟨collapse_collapse mask, collapse_ne_nil some_, ?_, ?_, small, future,
    (Regs.bmod_small hold).2⟩
  · show (if reason.isEmpty then _ else reason) ≠ []
    split
    · decide
    · rename_i given
      simpa using given
  · show (if username.isEmpty then _ else username) ≠ []
    split
    · decide
    · rename_i given
      simpa using given

namespace Regs

variable {conf : ServConfig} {Given : CString → Prop} {Broken : Prop}
  {r s t : Regs} {now : Int}
  {reg : ChanReg} {target : ChanRegId}

structure Filable (bans : List BanReg) : Prop where
  storable : ∀ ban ∈ bans, Storable ban
  masks : (bans.map BanReg.mask).Nodup

def filedRules : BanRules where
  add bans ban := Storable ban ∧ ban.mask ∉ bans.map BanReg.mask
  mod ban mask := ban.mask = mask
  bump _ := True
  expire := True

theorem modifyBan_mem {mask : CString} {change : BanReg → BanReg}
    {bans : List BanReg} {ban : BanReg}
    (listed : ban ∈ modifyBan mask change bans) :
    ban ∈ bans ∨ ∃ old ∈ bans, ban = change old := by
  induction bans with
  | nil => cases listed
  | cons first rest ih =>
      unfold modifyBan at listed
      split at listed
      · obtain rfl | later := List.mem_cons.mp listed
        · exact Or.inr ⟨first, List.mem_cons_self, rfl⟩
        · exact Or.inl (List.mem_cons_of_mem _ later)
      · obtain rfl | later := List.mem_cons.mp listed
        · exact Or.inl List.mem_cons_self
        · obtain same | ⟨old, there, equal⟩ := ih later
          · exact Or.inl (List.mem_cons_of_mem _ same)
          · exact Or.inr ⟨old, List.mem_cons_of_mem _ there, equal⟩

theorem Filable.keeps : Keeps filedRules Filable := by
  refine ⟨?_, ?_, ?_⟩
  · rintro bans ban filable ⟨storable, new⟩
    refine ⟨?_, ?_⟩
    · intro other listed
      obtain rfl | later := List.mem_cons.mp listed
      · exact storable
      · exact filable.storable other later
    · rw [List.map_cons]
      exact List.nodup_cons.mpr ⟨new, filable.masks⟩
  · intro bans ban filable
    have left : (Dlink.delete ban bans).Sublist bans := List.erase_sublist
    exact ⟨fun other listed => filable.storable other (left.subset listed),
      filable.masks.sublist (left.map _)⟩
  · intro bans mask ban level username filable hit typed small some_
    refine ⟨?_, ?_⟩
    · intro other listed
      obtain same | ⟨old, there, rfl⟩ := modifyBan_mem listed
      · exact filable.storable other same
      · obtain ⟨collapsed, stored, reason, -, -, hold⟩ :=
          filable.storable old there
        exact ⟨collapsed, stored, reason, some_, small, hold⟩
    · have masks := modifyBan_masks mask
        (fun ban => { ban with level := level, username := username })
        (fun _ => rfl) bans
      rw [masks]
      exact filable.masks

theorem delete_eq_filter {bans : List BanReg} {ban : BanReg}
    (masks : (bans.map BanReg.mask).Nodup) (listed : ban ∈ bans) :
    Dlink.delete ban bans = bans.filter fun other => other.mask != ban.mask := by
  induction bans with
  | nil => cases listed
  | cons first rest ih =>
      rw [List.map_cons, List.nodup_cons] at masks
      unfold Dlink.delete at ih ⊢
      by_cases same : first = ban
      · subst same
        rw [List.erase_cons_head, List.filter_cons_of_neg (by simp)]
        refine (List.filter_eq_self.mpr fun other later => ?_).symm
        rw [bne_iff_ne]
        exact fun equal => masks.1 (equal ▸ List.mem_map_of_mem later)
      · have later : ban ∈ rest := by
          obtain equal | later := List.mem_cons.mp listed
          · exact absurd equal.symm same
          · exact later
        have different : first.mask ≠ ban.mask := fun equal =>
          masks.1 (equal ▸ List.mem_map_of_mem later)
        rw [List.erase_cons_tail (by simpa using same),
          List.filter_cons_of_pos (by simpa using different), ih masks.2 later]

theorem findBanReg_cons (first : BanReg) (rest : List BanReg) (mask : CString) :
    findBanReg (first :: rest) mask =
      if irccmp first.mask mask then some first else findBanReg rest mask := by
  unfold findBanReg
  rw [List.find?_cons]
  cases irccmp first.mask mask <;> rfl

theorem modifyBan_rows {bans : List BanReg} {ban : BanReg} {mask : CString}
    (masks : (bans.map BanReg.mask).Nodup)
    (hit : findBanReg bans mask = some ban) (typed : ban.mask = mask)
    (chname : CString) (level : Int) (username : CString) :
    (modifyBan mask (fun ban =>
        { ban with level := level, username := username }) bans).map
      (BanReg.row chname) =
    bans.map fun ban =>
      if BanRow.isOf chname mask (ban.row chname) then
        { ban.row chname with level := level, username := username }
      else ban.row chname := by
  have isOf (other : BanReg) : BanRow.isOf chname mask (other.row chname) =
      (other.mask == mask) := by
    simp [BanRow.isOf, BanReg.row]
  induction bans with
  | nil => cases hit
  | cons first rest ih =>
      rw [List.map_cons, List.nodup_cons] at masks
      unfold modifyBan
      by_cases same : irccmp first.mask mask = true
      · rw [findBanReg_cons, if_pos same] at hit
        rw [if_pos same]
        cases hit
        rw [List.map_cons, List.map_cons, isOf]
        have equal : (ban.mask == mask) = true := beq_iff_eq.mpr typed
        rw [if_pos equal]
        refine congrArg (List.cons _) (List.map_congr_left fun other later => ?_)
        have different : ¬(other.mask == mask) = true := by
          rw [beq_iff_eq]
          intro again
          exact masks.1 ((typed.trans again.symm) ▸ List.mem_map_of_mem later)
        rw [isOf, if_neg different]
      · rw [findBanReg_cons, if_neg same] at hit
        rw [if_neg same, List.map_cons, List.map_cons, isOf]
        have different : ¬(first.mask == mask) = true := by
          rw [beq_iff_eq]
          rintro rfl
          exact same (irccmp_iff.mpr rfl)
        rw [if_neg different, ih masks.2 hit]

structure BanRowsInv (s : Regs) : Prop where
  rows : ∀ c reg, s.chan.cell c = some reg →
    s.bans.filter (fun row => row.chname == reg.name) =
      (reg.bans.map (BanReg.row reg.name)).reverse
  owned : ∀ row ∈ s.bans, ∃ c reg, s.chan.cell c = some reg ∧
    reg.name = row.chname

theorem BanRowsInv.kept (inv : BanRowsInv s) (same : KeptBans s t) :
    BanRowsInv t := by
  refine ⟨?_, ?_⟩
  · intro c reg found
    obtain ⟨old, before, name, bans, -⟩ := same.chans c reg found
    rw [same.rows c reg found, ← name, ← bans]
    exact inv.rows c old before
  · intro row listed
    obtain ⟨before, stays⟩ := same.owned row listed
    obtain ⟨c, reg, found, name⟩ := inv.owned row before
    obtain ⟨new, after⟩ := stays c reg found name
    obtain ⟨old, cell, kept, -⟩ := same.chans c new after
    rw [found, Option.some.injEq] at cell
    subst cell
    exact ⟨c, new, after, kept.symm.trans name⟩

theorem BanRowsInv.opened (inv : BanRowsInv s) (channels : ChannelInv s)
    {name : CString} (opened : Opened name s t) : BanRowsInv t := by
  refine ⟨?_, ?_⟩
  · intro c reg found
    rw [opened.rows]
    obtain ⟨rfl, none_, -⟩ | ⟨old, before, name, bans, -⟩ :=
      opened.chans c reg found
    · rw [none_]
      refine List.filter_eq_nil_iff.mpr fun row listed => ?_
      obtain ⟨d, other, there, owner⟩ := inv.owned row listed
      have absent := channels.absent opened.new there
      intro same
      rw [owner, beq_iff_eq.mp same, irccmp_iff.mpr rfl] at absent
      cases absent
    · rw [← name, ← bans]
      exact inv.rows c old before
  · intro row listed
    rw [opened.rows] at listed
    obtain ⟨c, reg, found, owner⟩ := inv.owned row listed
    obtain ⟨after, there, same⟩ := opened.old c reg found
    exact ⟨c, after, there, same.trans owner⟩

theorem BanRowsInv.modifyChan (inv : BanRowsInv s) (channels : ChannelInv s)
    {change : ChanReg → ChanReg} {rows : List BanRow}
    (found : s.chan.cell target = some reg)
    (name : (change reg).name = reg.name)
    (own : rows.filter (fun row => row.chname == reg.name) =
      ((change reg).bans.map (BanReg.row reg.name)).reverse)
    (others : ∀ other, other ≠ reg.name →
      rows.filter (fun row => row.chname == other) =
        s.bans.filter fun row => row.chname == other) :
    BanRowsInv { s.modifyChan target change with bans := rows } := by
  have here : (s.chan.modify target change).cell target =
      some (change reg) := modifyChan_cell found change
  refine ⟨?_, ?_⟩
  · intro c new after
    obtain ⟨old, before, changed⟩ := Heap.cell_of_modify after
    by_cases same : c = target
    · rw [if_pos same] at changed
      rw [same, found, Option.some.injEq] at before
      subst before
      rw [changed, name]
      exact own
    · rw [if_neg same] at changed
      rw [changed, ← inv.rows c old before]
      refine others old.name fun equal => same ?_
      refine channels.unique c target old reg before found ?_
      rw [equal]
      exact irccmp_iff.mpr rfl
  · intro row listed
    by_cases same : row.chname = reg.name
    · exact ⟨target, change reg, here, name.trans same.symm⟩
    · have selected : row ∈ rows.filter fun other =>
          other.chname == row.chname := by
        rw [List.mem_filter]
        exact ⟨listed, beq_iff_eq.mpr rfl⟩
      rw [others row.chname same] at selected
      obtain ⟨c, old, before, owner⟩ :=
        inv.owned row (List.mem_filter.mp selected).1
      have different : c ≠ target := by
        rintro rfl
        rw [found, Option.some.injEq] at before
        exact same (before ▸ owner.symm)
      refine ⟨c, old, ?_, owner⟩
      show (s.chan.modify target change).cell c = _
      rw [Heap.modify_cell_of_ne _ _ different, before]

theorem BanRowsInv.bumpBants (inv : BanRowsInv s) (channels : ChannelInv s)
    (found : s.chan.cell target = some reg) :
    BanRowsInv (s.bumpBants target) := by
  have same : BanRowsInv { s.bumpBants target with bans := s.bans } :=
    inv.modifyChan channels found rfl (inv.rows target reg found)
      fun _ _ => rfl
  exact same

theorem chanName_eq (found : s.chan.cell target = some reg) :
    s.chanName target = reg.name := by
  unfold chanName
  rw [found]

theorem BanRowsInv.addBan (inv : BanRowsInv s) (channels : ChannelInv s)
    (found : s.chan.cell target = some reg) (ban : BanReg) :
    BanRowsInv (s.addBan target ban) := by
  have renamed : (s.modifyChan target fun reg =>
      { reg with bans := Dlink.add ban reg.bans }).chanName target =
        reg.name := by
    rw [chanName_eq (modifyChan_cell found _)]
  unfold Regs.addBan
  dsimp only
  rw [renamed]
  refine inv.modifyChan channels found rfl ?_ ?_
  · show List.filter _ (s.bans ++ [ban.row reg.name]) = _
    rw [List.filter_append, inv.rows target reg found]
    simp [BanReg.row, Dlink.add]
  · intro other different
    show List.filter _ (s.bans ++ [ban.row reg.name]) = _
    rw [List.filter_append]
    simp [BanReg.row, different.symm]

theorem BanRowsInv.removeBan (inv : BanRowsInv s) (channels : ChannelInv s)
    (lists : Lists Filable s) {ban : BanReg}
    (found : s.chan.cell target = some reg) (listed : ban ∈ reg.bans) :
    BanRowsInv (s.removeBan target ban) := by
  unfold Regs.removeBan
  rw [chanName_eq found]
  refine inv.modifyChan channels found rfl ?_ ?_
  · have own : (s.bans.filter fun row =>
          !BanRow.isOf reg.name ban.mask row).filter
          (fun row => row.chname == reg.name) =
        (s.bans.filter fun row => row.chname == reg.name).filter
          fun row => row.mask != ban.mask := by
      rw [List.filter_filter, List.filter_filter]
      refine List.filter_congr fun row _ => ?_
      unfold BanRow.isOf
      cases row.chname == reg.name <;> cases same : row.mask == ban.mask <;>
        simp [bne, same]
    rw [own, inv.rows target reg found, List.filter_reverse, List.filter_map]
    show _ = ((Dlink.delete ban reg.bans).map _).reverse
    rw [delete_eq_filter (lists target reg found).masks listed]
    rfl
  · intro other different
    rw [List.filter_filter]
    refine List.filter_congr fun row _ => ?_
    unfold BanRow.isOf
    by_cases same : row.chname = other
    · simp [same, different]
    · simp [same]

theorem BanRowsInv.modBan (inv : BanRowsInv s) (channels : ChannelInv s)
    (lists : Lists Filable s) {ban : BanReg} {mask : CString}
    (found : s.chan.cell target = some reg)
    (hit : findBanReg reg.bans mask = some ban) (typed : ban.mask = mask)
    (level : Int) (username : CString) :
    BanRowsInv (s.modBan target mask level username) := by
  unfold Regs.modBan
  rw [chanName_eq found]
  -- the statement does not change which channel a row is of
  have selects (rows : List BanRow) (other : CString) :
      (rows.map fun row =>
        if BanRow.isOf reg.name mask row then
          { row with level := level, username := username }
        else row).filter (fun row => row.chname == other) =
      (rows.filter fun row => row.chname == other).map fun row =>
        if BanRow.isOf reg.name mask row then
          { row with level := level, username := username }
        else row := by
    rw [List.filter_map]
    congr 1
    refine List.filter_congr fun row _ => ?_
    rw [Function.comp_apply]
    split <;> rfl
  refine inv.modifyChan channels found rfl ?_ ?_
  · rw [selects, inv.rows target reg found, List.map_reverse, List.map_map]
    have same := modifyBan_rows (lists target reg found).masks hit typed reg.name
      level username
    exact congrArg List.reverse same.symm
  · intro other different
    rw [selects]
    refine (List.map_congr_left fun row selected => ?_).trans (List.map_id _)
    have owner := beq_iff_eq.mp (List.mem_filter.mp selected).2
    rw [if_neg]
    · rfl
    · simp [BanRow.isOf, owner, different]

structure BansFiled (s : Regs) : Prop where
  lists : Lists Filable s
  table : BanRowsInv s

theorem BansFiled.empty : BansFiled empty := by
  refine ⟨?_, ?_, ?_⟩
  · intro c reg found
    cases found
  · intro c reg found
    cases found
  · intro row listed
    cases listed

theorem Move.bansFiled (move : Move conf Given Broken s t)
    (channels : ChannelInv s) (filed : BansFiled s) : BansFiled t := by
  refine ⟨?_, ?_⟩
  · refine move.lists channels ⟨?_, List.nodup_nil⟩ filed.lists
    intro ban listed
    cases listed
  · obtain kept | ⟨name, -, opened⟩ := move.bans channels
    · exact filed.table.kept kept
    · exact filed.table.opened channels opened

theorem BanMove.bansFiled (move : BanMove now filedRules s t) (sound : Sound s)
    (filed : BansFiled s) : BansFiled t := by
  have channels := sound.channels
  refine ⟨move.lists Filable.keeps sound.accounts filed.lists, ?_⟩
  -- the channel of before, to go on with its counter
  have bumped {r : Regs} {target : ChanRegId} {reg : ChanReg}
      (same : SameEntries s r) (table : BanRowsInv r)
      (found : s.chan.cell target = some reg) :
      BanRowsInv (r.bumpBants target) := by
    have equal := same.chan target
    rw [found] at equal
    obtain ⟨new, after, -⟩ := Option.map_eq_some_iff.mp equal
    exact table.bumpBants (same.sound sound).channels after
  cases move with
  | settings settled => exact filed.table.kept settled.access.keptBans
  | add target reg ban found fine => exact filed.table.addBan channels found ban
  | expire target reg ban found listed spent runsOut =>
      exact filed.table.removeBan channels filed.lists found listed
  | drop target reg ban found listed counts =>
      exact bumped (.removeBan s target ban)
        (filed.table.removeBan channels filed.lists found listed) found
  | change target reg ban mask level account user found hit owner small fine
      counts =>
      exact bumped (.modBan s target mask level user.name)
        (filed.table.modBan channels filed.lists found hit fine level user.name)
        found
  | cache target entry member ban found inside listed above =>
      exact filed.table.kept (.of_eq rfl rfl)

/-- `ban_db_callback`. -/
def banDbCallback (s : Regs) (row : BanRow) : Regs :=
  if row.chname.isEmpty || row.mask.isEmpty then s
  else
    match s.findChannelReg row.chname with
    | none => s
    | some target =>
        s.modifyChan target fun reg =>
          { reg with bans := Dlink.add row.ban reg.bans }

def withoutBans (s : Regs) : Regs :=
  { s with chan := s.chan.map fun reg => { reg with bans := [] } }

/-- `SELECT … FROM bans` into the channels there are. -/
def loadBans (s : Regs) : Regs :=
  s.bans.foldl banDbCallback s.withoutBans

theorem banDbCallback_row (channels : ChannelInv s) (chans : SameChans s r)
    {c : ChanRegId} (found : s.chan.cell c = some reg) {row : BanRow}
    (owner : reg.name = row.chname) (mask : row.mask ≠ []) :
    banDbCallback r row = r.modifyChan c fun reg =>
      { reg with bans := Dlink.add row.ban reg.bans } := by
  have named := channels.found found
  rw [owner, ← chans.findChannelReg] at named
  have some_ : row.chname ≠ [] := owner ▸ channels.named c reg found
  unfold banDbCallback
  rw [named]
  simp [some_, mask]

theorem foldl_banDbCallback (channels : ChannelInv s) (chans : SameChans s r)
    (rows : List BanRow) (owned : ∀ row ∈ rows, row.mask ≠ [] ∧ ∃ c reg,
      s.chan.cell c = some reg ∧ reg.name = row.chname) {c : ChanRegId}
    (found : s.chan.cell c = some reg) :
    (rows.foldl banDbCallback r).bansOf c =
      ((rows.filter fun row => row.chname == reg.name).map
        BanRow.ban).reverse ++ r.bansOf c := by
  induction rows generalizing r with
  | nil => rfl
  | cons row rest ih =>
      obtain ⟨mask, d, other, there, owner⟩ := owned row List.mem_cons_self
      rw [List.foldl_cons, banDbCallback_row channels chans there owner mask]
      have loaded : SameChans r (r.modifyChan d fun reg =>
          { reg with bans := Dlink.add row.ban reg.bans }) :=
        .modifyChan r d fun _ => rfl
      have after : SameChans s (r.modifyChan d fun reg =>
          { reg with bans := Dlink.add row.ban reg.bans }) :=
        ⟨loaded.chanTable.trans chans.chanTable,
          fun c => (loaded.names c).trans (chans.names c)⟩
      rw [ih after fun row later => owned row (List.mem_cons_of_mem _ later)]
      by_cases same : row.chname = reg.name
      · have equal : c = d := by
          refine channels.unique c d reg other found there ?_
          rw [owner, same]
          exact irccmp_iff.mpr rfl
        subst equal
        obtain ⟨now, cell, -⟩ := chans.symm.cell found
        have front : (r.modifyChan c fun reg =>
            { reg with bans := Dlink.add row.ban reg.bans }).bansOf c =
              row.ban :: r.bansOf c := by
          rw [bansOf_eq (modifyChan_cell cell _), bansOf_eq cell]
          rfl
        rw [front, List.filter_cons_of_pos (by simpa using same)]
        simp
      · have apart : c ≠ d := by
          rintro rfl
          rw [found, Option.some.injEq] at there
          exact same (there ▸ owner.symm)
        have kept : (r.modifyChan d fun reg =>
            { reg with bans := Dlink.add row.ban reg.bans }).bansOf c =
              r.bansOf c := by
          unfold bansOf modifyChan
          rw [Heap.modify_cell_of_ne _ _ apart]
        rw [kept, List.filter_cons_of_neg (by simpa using same)]

theorem BansFiled.loadBans (filed : BansFiled s) (channels : ChannelInv s)
    {c : ChanRegId} (found : s.chan.cell c = some reg) :
    s.loadBans.bansOf c = reg.bans := by
  have chans : SameChans s s.withoutBans :=
    ⟨rfl, fun c => by
      show ((s.chan.cell c).map _).map ChanReg.name = _
      rw [Option.map_map]
      rfl⟩
  have nothing : s.withoutBans.bansOf c = [] := by
    have cell : s.withoutBans.chan.cell c = some { reg with bans := [] } := by
      show (s.chan.cell c).map _ = _
      rw [found]
      rfl
    rw [bansOf_eq cell]
  have owned : ∀ row ∈ s.bans, row.mask ≠ [] ∧ ∃ c reg,
      s.chan.cell c = some reg ∧ reg.name = row.chname := by
    intro row listed
    obtain ⟨d, other, there, owner⟩ := filed.table.owned row listed
    refine ⟨?_, d, other, there, owner⟩
    have selected : row ∈ s.bans.filter fun row =>
        row.chname == other.name := by
      rw [List.mem_filter]
      exact ⟨listed, beq_iff_eq.mpr owner.symm⟩
    rw [filed.table.rows d other there, List.mem_reverse] at selected
    obtain ⟨ban, inList, rfl⟩ := List.mem_map.mp selected
    exact ((filed.lists d other there).storable ban inList).mask
  unfold Regs.loadBans
  rw [foldl_banDbCallback channels chans s.bans owned found, nothing,
    filed.table.rows c reg found, List.map_reverse, List.reverse_reverse,
    List.append_nil, List.map_map]
  refine (List.map_congr_left fun ban listed => ?_).trans (List.map_id _)
  exact ((filed.lists c reg found).storable ban listed).row_ban reg.name

/-- What `ADDBAN` adds has a mask that is not stored, and runs out at a time that
an `int` can hold; and `MODBAN` is given the mask of the ban that it changes as
it is stored. -/
def banFiled (conf : ServConfig) (s : Regs) (event : ServEvent) : Bool :=
  match event.act with
  | .ban (.addban client parv _) =>
      match s.callerOf event.now client parv.chname sCRegular with
      | none => true
      | some caller =>
          let bans := s.bansOf caller.channelReg
          let hold := if parv.duration ≠ 0 then event.now + parv.duration else 0
          (newBan conf event.now caller.level (s.userName caller.userReg) parv
            bans).isNone ||
            (!(bans.map BanReg.mask).contains (collapse parv.mask) &&
              decide (0 ≤ hold.bmod 4294967296))
  | .ban (.modban client chname mask levelText) =>
      match s.callerOf event.now client chname sCRegular with
      | none => true
      | some caller =>
          let level := (strtol levelText).1.bmod 4294967296
          match findBanReg (s.bansOf caller.channelReg) mask with
          | none => true
          | some ban =>
              decide (!(strtol levelText).2.isEmpty ∨ level < 1 ∨
                caller.level < level) ||
                decide (caller.level < ban.level) || ban.mask == mask
  | _ => true

theorem validBan_ne_nil {nickLen : Nat} {mask : CString}
    (valid : State.validBan nickLen mask = true) : mask ≠ [] := by
  rintro rfl
  cases valid

theorem newBan_mask {callerLevel : Int} {username : CString}
    {parv : AddbanArgs} {bans : List BanReg} {ban : BanReg}
    (made : newBan conf now callerLevel username parv bans = some ban) :
    parv.mask ≠ [] := by
  unfold newBan at made
  dsimp only at made
  split at made
  · cases made
  · rename_i valid
    have some_ : parv.fields.1 ≠ [] := validBan_ne_nil (by simpa using valid)
    exact some_

theorem banFiled_allowed {event : ServEvent} {act : BanAct}
    (filed : s.banFiled conf event = true) (same : event.act = .ban act) :
    Allowed conf filedRules s event.now act := by
  unfold banFiled at filed
  rw [same] at filed
  refine ⟨?_, ?_, fun _ _ _ _ _ _ _ _ _ => trivial, fun _ => trivial⟩
  · rintro client parv live rfl account entry caller reg ban admitted found -
      made
    simp only [admitted.callerOf, bansOf_eq found, made, Option.isNone_some,
      Bool.false_or, Bool.and_eq_true, Bool.not_eq_true', decide_eq_true_eq]
      at filed
    obtain ⟨new, future⟩ := filed
    have some_ := newBan_mask made
    obtain ⟨level, reason, low, high, rfl, -⟩ := newBan_level made
    refine ⟨.makeBan some_ ⟨by omega, high⟩ future, fun listed => ?_⟩
    have there := List.contains_iff_mem.mpr listed
    rw [← Bool.not_eq_true] at new
    exact new there
  · rintro client chname mask levelText rfl account entry caller reg ban
      admitted found level hit low
    simp only [admitted.callerOf, bansOf_eq found, hit, Bool.or_eq_true,
      decide_eq_true_eq, beq_iff_eq] at filed
    obtain (bad | high) | typed := filed
    · exact absurd bad level
    · omega
    · exact typed

theorem bansFiled_of_run {events : List ServEvent}
    (filed : Meets (servStep conf) (fun s event => s.banFiled conf event = true)
      empty events)
    (reached : run (servStep conf) empty events = .ok s) :
    Sound s ∧ BansFiled s := by
  refine run_preserves_of_meets (fun s => Sound s ∧ BansFiled s) ?_ filed
    ⟨.empty, .empty⟩ reached
  rintro before event after filed ⟨sound, kept⟩ returned
  refine sound.servStep (fun act same => banFiled_allowed filed same) ?_ ?_ kept
    returned
  · intro r t sound filed move
    exact move.bansFiled sound.channels filed
  · intro r t sound filed move
    exact move.bansFiled sound filed

/-- Where new bans have new masks and `MODBAN` is given masks as they are
stored, the table has exactly the rows of the lists, and loading it gives the
same lists again. -/
theorem banRows_of_run {events : List ServEvent}
    (filed : Meets (servStep conf) (fun s event => s.banFiled conf event = true)
      empty events)
    (reached : run (servStep conf) empty events = .ok s) :
    (∀ c reg, s.chan.cell c = some reg →
      s.bans.filter (fun row => row.chname == reg.name) =
        (reg.bans.map (BanReg.row reg.name)).reverse ∧
      s.loadBans.bansOf c = reg.bans) ∧
    ∀ row ∈ s.bans, ∃ c reg ban, s.chan.cell c = some reg ∧ ban ∈ reg.bans ∧
      row = ban.row reg.name := by
  obtain ⟨sound, kept⟩ := bansFiled_of_run filed reached
  refine ⟨fun c reg found => ⟨kept.table.rows c reg found,
    kept.loadBans sound.channels found⟩, fun row listed => ?_⟩
  obtain ⟨c, reg, found, owner⟩ := kept.table.owned row listed
  have selected : row ∈ s.bans.filter fun row => row.chname == reg.name := by
    rw [List.mem_filter]
    exact ⟨listed, beq_iff_eq.mpr owner.symm⟩
  rw [kept.table.rows c reg found, List.mem_reverse] at selected
  obtain ⟨ban, inList, same⟩ := List.mem_map.mp selected
  exact ⟨c, reg, ban, found, inList, same.symm⟩

def changedBan (mask : CString) : List ServEvent :=
  bannedChannel ["*!*@one".toList, "*!*@two".toList] ++
    [⟨103, .ban (.modban 1 "#chan".toList mask "20".toList)⟩]

theorem banRows_of_changedBan :
    let conf := setDefaultConf "services.".toList
    let events := changedBan "*!*@one".toList
    Meets (servStep conf) (fun s event => s.banFiled conf event = true) empty
        events ∧
      ∃ s reg, run (servStep conf) empty events = .ok s ∧
        s.chan.cell 0 = some reg ∧ reg.bans.map BanReg.level = [10, 20] ∧
        s.loadBans.bansOf 0 = reg.bans := by
  intro conf events
  have filed : Meets (servStep conf)
      (fun s event => s.banFiled conf event = true) empty events := by
    decide +kernel
  have observed : (run (servStep conf) empty events).toOption.map
      (fun s => (s.chan.cell 0).map fun reg => reg.bans.map BanReg.level) =
        some (some [10, 20]) := by
    decide +kernel
  obtain ⟨s, reached, cell⟩ := Except.exists_of_observed observed
  obtain ⟨reg, found, levels⟩ := Option.map_eq_some_iff.mp cell
  refine ⟨filed, s, reg, reached, found, levels, ?_⟩
  exact ((banRows_of_run filed reached).1 0 reg found).2

/-- With another case of its letters the ban is found, and its row is not. -/
theorem not_banRows_of_run :
    ∃ s reg, run (servStep (setDefaultConf "services.".toList)) empty
        (changedBan "*!*@ONE".toList) = .ok s ∧
      s.chan.cell 0 = some reg ∧ reg.bans.map BanReg.level = [10, 20] ∧
      s.bans.map BanRow.level = [10, 10] ∧
      s.loadBans.bansOf 0 ≠ reg.bans := by
  have observed : (run (servStep (setDefaultConf "services.".toList)) empty
      (changedBan "*!*@ONE".toList)).toOption.map
        (fun s => ((s.chan.cell 0).map fun reg => reg.bans.map BanReg.level,
          s.bans.map BanRow.level,
          (s.loadBans.bansOf 0).map BanReg.level)) =
      some (some [10, 20], [10, 10], [10, 10]) := by
    decide +kernel
  obtain ⟨s, reached, seen⟩ := Except.exists_of_observed observed
  obtain ⟨cell, rows, loaded⟩ : _ ∧ _ ∧ _ := by
    simpa only [Prod.mk.injEq] using seen
  obtain ⟨reg, found, levels⟩ := Option.map_eq_some_iff.mp cell
  refine ⟨s, reg, reached, found, levels, rows, fun same => ?_⟩
  rw [same, levels] at loaded
  revert loaded
  decide

end Regs

end RatboxServices
