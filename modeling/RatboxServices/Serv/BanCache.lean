import RatboxServices.Serv.BanRun

namespace RatboxServices

open CString

/-! The answer that `UNBAN` gives from the cache. An entry has the number that
the counter of its channel had when a ban above the entry was met; the counter
goes up when a ban is removed or changed. -/

namespace Regs

variable {conf : ServConfig} {Given : CString → Prop} {Broken : Prop}
  {Good : BanReg → Prop} {r s t : Regs} {now : Int}
  {target : ChanRegId} {reg : ChanReg}

structure Uncounted (s : Regs) : Prop where
  members : ∀ m member, s.member.cell m = some member → member.bants = 0#64
  chans : ∀ c reg, s.chan.cell c = some reg → reg.bants = 1#64

theorem freeMemberReg_bants {upgrade : Bool} {target m : MemberRegId}
    {member : MemberReg}
    (after : (s.freeMemberReg conf upgrade target).member.cell m =
      some member) :
    ∃ old, s.member.cell m = some old ∧ member.bants = old.bants := by
  have unlinked {entry : MemberReg}
      (there : (s.unlinkMember target entry).member.cell m = some member) :
      ∃ old, s.member.cell m = some old ∧ member.bants = old.bants :=
    ⟨member, (unlinkMember_cell.mp there).2, rfl⟩
  unfold freeMemberReg at after
  split at after
  · exact ⟨member, after, rfl⟩
  · dsimp only at after
    split at after
    · exact unlinked after
    · split at after
      · exact unlinked after
      · split at after
        · split at after
          · rw [promote_member] at after
            obtain ⟨old, before, changed⟩ := Heap.cell_of_modify after
            refine ⟨old, (unlinkMember_cell.mp before).2, ?_⟩
            rw [changed]
            split <;> rfl
          · exact unlinked after
        · exact unlinked after

theorem freeMembers_bants {upgrade : Bool} {entries : List MemberRegId}
    {m : MemberRegId} {member : MemberReg}
    (after : (entries.foldl (fun s entry => s.freeMemberReg conf upgrade entry)
      s).member.cell m = some member) :
    ∃ old, s.member.cell m = some old ∧ member.bants = old.bants := by
  induction entries generalizing s with
  | nil => exact ⟨member, after, rfl⟩
  | cons first rest ih =>
      obtain ⟨middle, between, same⟩ := ih after
      obtain ⟨old, before, same'⟩ := freeMemberReg_bants between
      exact ⟨old, before, same.trans same'⟩

theorem Move.bants (move : Move conf Given Broken s t) {m : MemberRegId}
    {member : MemberReg} (after : t.member.cell m = some member) :
    member.bants = 0#64 ∨
      ∃ old, s.member.cell m = some old ∧ member.bants = old.bants := by
  cases move with
  | settings settled =>
      exact Or.inr ⟨member, settled.access.member ▸ after, rfl⟩
  | connect client new => exact Or.inr ⟨member, after, rfl⟩
  | link client account reg out found opened => exact Or.inr ⟨member, after, rfl⟩
  | leave client account inside => exact Or.inr ⟨member, after, rfl⟩
  | torn access broken => exact Or.inr ⟨member, access.member ▸ after, rfl⟩
  | exit client out => exact Or.inr ⟨member, after, rfl⟩
  | logout account =>
      have same := (SameAccess.logoutUserReg s account).member
      exact Or.inr ⟨member, same ▸ after, rfl⟩
  | block account change empty kept users => exact Or.inr ⟨member, after, rfl⟩
  | newUser reg given some_ new copied unique channels users =>
      exact Or.inr ⟨member, after, rfl⟩
  | dropUser account reg found unused =>
      unfold freeUserReg at after
      rw [found] at after
      dsimp only at after
      obtain ⟨old, before, same⟩ := freeMembers_bants after
      exact Or.inr ⟨old, before, same⟩
  | newChan now name account lastmod reg found new =>
      have cell : (s.member.alloc _).cell m = some member := after
      rw [Heap.alloc_cell] at cell
      split at cell
      · cases cell
        exact Or.inl rfl
      · exact Or.inr ⟨member, cell, rfl⟩
  | dropChan target =>
      unfold destroyChannelReg at after
      split at after
      · exact Or.inr ⟨member, after, rfl⟩
      · dsimp only at after
        obtain ⟨old, before, same⟩ := freeMembers_bants after
        exact Or.inr ⟨old, before, same⟩
  | add entry owner channel new level tame active fresh =>
      have cell : (s.member.alloc entry).cell m = some member := after
      rw [Heap.alloc_cell] at cell
      split at cell
      · cases cell
        exact Or.inl fresh
      · exact Or.inr ⟨member, cell, rfl⟩
  | set target entry change row found kept proper written bants =>
      obtain ⟨old, before, changed⟩ := Heap.cell_of_modify after
      refine Or.inr ⟨old, before, ?_⟩
      rw [changed]
      split
      · rename_i same
        rw [same, found, Option.some.injEq] at before
        exact before ▸ bants
      · rfl
  | remove target entry found =>
      unfold removeMember at after
      obtain ⟨old, before, same⟩ := freeMemberReg_bants after
      exact Or.inr ⟨old, before, same⟩

theorem Move.uncounted (move : Move conf Given Broken s t)
    (channels : ChannelInv s) (uncounted : Uncounted s) : Uncounted t := by
  refine ⟨?_, ?_⟩
  · intro m member after
    obtain zero | ⟨old, before, same⟩ := move.bants after
    · exact zero
    · rw [same]
      exact uncounted.members m old before
  · intro c reg after
    obtain kept | ⟨name, -, opened⟩ := move.bans channels
    · obtain ⟨old, before, -, -, same⟩ := kept.chans c reg after
      rw [← same]
      exact uncounted.chans c old before
    · obtain ⟨-, -, one⟩ | ⟨old, before, -, -, same⟩ := opened.chans c reg after
      · exact one
      · rw [← same]
        exact uncounted.chans c old before

theorem uncounted_of_run {events : List RegEvent}
    (reached : run (step conf) empty events = .ok s) :
    Sound s ∧ Uncounted s := by
  have start : Uncounted empty := by
    refine ⟨?_, ?_⟩
    · intro m member used
      cases used
    · intro c reg found
      cases found
  refine run_preserves (fun s => Sound s ∧ Uncounted s) ?_ ⟨.empty, start⟩
    reached
  rintro before event after ⟨sound, uncounted⟩ returned
  have naming : Naming conf (fun _ => True) event :=
    ⟨fun _ _ => trivial, fun _ _ _ _ _ => trivial⟩
  have moves : Moves conf (fun _ => True) True before after :=
    step_moves naming sound.access (Or.inl trivial) returned
  clear returned
  induction moves with
  | refl => exact ⟨sound, uncounted⟩
  | tail _ last ih =>
      exact ⟨ih.1.moves (.single last), last.uncounted ih.1.channels ih.2⟩

/-- No number is ahead of its counter, and an entry that is cached and not
suspended has a good ban above it. -/
structure CacheInv (Good : BanReg → Prop) (s : Regs) : Prop where
  counted : ∀ m member reg, s.member.cell m = some member →
    s.chan.cell member.channelReg = some reg →
    member.bants.toNat ≤ reg.bants.toNat
  above : ∀ m member reg, s.member.cell m = some member →
    s.chan.cell member.channelReg = some reg → member.bants = reg.bants →
    member.suspend = 0 → ∃ ban ∈ reg.bans, Good ban ∧ member.level < ban.level

theorem Uncounted.cacheInv (uncounted : Uncounted s) : CacheInv Good s := by
  refine ⟨?_, ?_⟩
  · intro m member reg used found
    rw [uncounted.members m member used, uncounted.chans _ reg found]
    decide
  · intro m member reg used found cached
    rw [uncounted.members m member used, uncounted.chans _ reg found] at cached
    exact absurd cached (by decide)

theorem CacheInv.same (inv : CacheInv Good s) (same : SameAccess s t) :
    CacheInv Good t := by
  refine ⟨?_, ?_⟩
  · intro m member reg used found
    obtain ⟨old, before, -, -, -, bants⟩ := same.chanCell found
    rw [← bants]
    exact inv.counted m member old (same.member ▸ used) before
  · intro m member reg used found cached active
    obtain ⟨old, before, -, -, bans, bants⟩ := same.chanCell found
    rw [← bans]
    exact inv.above m member old (same.member ▸ used) before
      (cached.trans bants.symm) active

theorem CacheInv.modifyChan (inv : CacheInv Good s) {change : ChanReg → ChanReg}
    {rows : List BanRow} (found : s.chan.cell target = some reg)
    (count : reg.bants.toNat ≤ (change reg).bants.toNat)
    (above : ∀ m member, s.member.cell m = some member →
      member.channelReg = target → member.bants = (change reg).bants →
      member.suspend = 0 →
      ∃ ban ∈ (change reg).bans, Good ban ∧ member.level < ban.level) :
    CacheInv Good { s.modifyChan target change with bans := rows } := by
  refine ⟨?_, ?_⟩
  · intro m member new used after
    obtain ⟨old, before, changed⟩ := Heap.cell_of_modify after
    have low := inv.counted m member old used before
    rw [changed]
    split
    · rename_i same
      rw [same, found, Option.some.injEq] at before
      subst before
      exact low.trans count
    · exact low
  · intro m member new used after cached active
    obtain ⟨old, before, changed⟩ := Heap.cell_of_modify after
    by_cases same : member.channelReg = target
    · rw [if_pos same] at changed
      rw [same, found, Option.some.injEq] at before
      subst before changed
      exact above m member used same cached active
    · rw [if_neg same] at changed
      rw [changed] at cached ⊢
      exact inv.above m member old used before cached active

theorem CacheInv.bump (inv : CacheInv Good s) {change : ChanReg → ChanReg}
    {rows : List BanRow} (found : s.chan.cell target = some reg)
    (counts : reg.bants ≠ BitVec.allOnes 64)
    (bants : (change reg).bants = reg.bants + 1) :
    CacheInv Good { s.modifyChan target change with bans := rows } := by
  have next : (reg.bants + 1).toNat = reg.bants.toNat + 1 := by
    have room : reg.bants.toNat ≠ 18446744073709551615 := fun full =>
      counts (BitVec.eq_of_toNat_eq full)
    have small := reg.bants.isLt
    rw [BitVec.toNat_add]
    refine Nat.mod_eq_of_lt ?_
    show reg.bants.toNat + 1 < 18446744073709551616
    omega
  refine inv.modifyChan found ?_ ?_
  · rw [bants, next]
    exact Nat.le_succ _
  · intro m member used inside cached
    have low := inv.counted m member reg used (inside ▸ found)
    rw [cached, bants, next] at low
    omega

theorem CacheInv.addBan (inv : CacheInv Good s)
    (found : s.chan.cell target = some reg) (ban : BanReg) :
    CacheInv Good (s.addBan target ban) := by
  refine inv.modifyChan found (le_refl _) ?_
  intro m member used inside cached active
  obtain ⟨other, listed, good⟩ :=
    inv.above m member reg used (inside ▸ found) cached active
  exact ⟨other, List.mem_cons_of_mem _ listed, good⟩

theorem CacheInv.removeBan (inv : CacheInv Good s) {ban : BanReg}
    (found : s.chan.cell target = some reg) (bad : ¬Good ban) :
    CacheInv Good (s.removeBan target ban) := by
  refine inv.modifyChan found (le_refl _) ?_
  intro m member used inside cached active
  obtain ⟨other, listed, good, low⟩ :=
    inv.above m member reg used (inside ▸ found) cached active
  have different : other ≠ ban := by
    rintro rfl
    exact bad good
  exact ⟨other, (List.mem_erase_of_ne different).mpr listed, good, low⟩

theorem CacheInv.drop (inv : CacheInv Good s)
    (found : s.chan.cell target = some reg)
    (counts : reg.bants ≠ BitVec.allOnes 64) (ban : BanReg) :
    CacheInv Good ((s.removeBan target ban).bumpBants target) := by
  unfold Regs.removeBan bumpBants Regs.modifyChan
  dsimp only
  rw [Heap.modify_modify]
  exact inv.bump found counts rfl

theorem CacheInv.change (inv : CacheInv Good s)
    (found : s.chan.cell target = some reg)
    (counts : reg.bants ≠ BitVec.allOnes 64) (mask : CString) (level : Int)
    (username : CString) :
    CacheInv Good ((s.modBan target mask level username).bumpBants target) := by
  unfold Regs.modBan bumpBants Regs.modifyChan
  dsimp only
  rw [Heap.modify_modify]
  exact inv.bump found counts rfl

theorem CacheInv.modifyMember (inv : CacheInv Good s) {target : MemberRegId}
    {member : MemberReg} {change : MemberReg → MemberReg}
    (used : s.member.cell target = some member)
    (inside : (change member).channelReg = member.channelReg)
    (count : ∀ reg, s.chan.cell member.channelReg = some reg →
      (change member).bants.toNat ≤ reg.bants.toNat)
    (above : ∀ reg, s.chan.cell member.channelReg = some reg →
      (change member).bants = reg.bants → (change member).suspend = 0 →
      ∃ ban ∈ reg.bans, Good ban ∧ (change member).level < ban.level) :
    CacheInv Good (s.modifyMember target change) := by
  have either {m : MemberRegId} {new : MemberReg}
      (after : (s.modifyMember target change).member.cell m = some new) :
      new = change member ∨ s.member.cell m = some new := by
    obtain ⟨old, before, changed⟩ := Heap.cell_of_modify after
    by_cases same : m = target
    · rw [if_pos same] at changed
      rw [same, used, Option.some.injEq] at before
      exact Or.inl (before ▸ changed)
    · rw [if_neg same] at changed
      exact Or.inr (changed ▸ before)
  refine ⟨?_, ?_⟩
  · intro m new reg after found
    obtain rfl | before := either after
    · exact count reg (inside ▸ found)
    · exact inv.counted m new reg before found
  · intro m new reg after found cached active
    obtain rfl | before := either after
    · exact above reg (inside ▸ found) cached active
    · exact inv.above m new reg before found cached active

theorem CacheInv.congr (inv : CacheInv Good s) (member : t.member = s.member)
    (chan : t.chan = s.chan) : CacheInv Good t := by
  obtain ⟨counted, above⟩ := inv
  rw [← member, ← chan] at counted above
  exact ⟨counted, above⟩

def cacheRules : BanRules where
  add _ _ := True
  mod _ _ := True
  bump count := count ≠ BitVec.allOnes 64
  expire := False

theorem BanMove.cacheInv (move : BanMove now cacheRules s t)
    (inv : CacheInv (fun _ => True) s) : CacheInv (fun _ => True) t := by
  cases move with
  | settings settled => exact inv.same settled.access
  | add target reg ban found fine => exact inv.addBan found ban
  | expire target reg ban found listed spent runsOut => exact runsOut.elim
  | drop target reg ban found listed counts => exact inv.drop found counts ban
  | change target reg ban mask level account user found hit owner small fine
      counts => exact inv.change found counts mask level user.name
  | cache target entry member ban found inside listed above =>
      have same {reg : ChanReg} (there : s.chan.cell member.channelReg =
          some reg) : s.bantsOf target = reg.bants ∧ ban ∈ reg.bans := by
        rw [inside] at there
        rw [bansOf_eq there] at listed
        refine ⟨?_, listed⟩
        unfold bantsOf
        rw [there]
      refine inv.modifyMember found rfl ?_ ?_
      · intro reg there
        rw [(same there).1]
      · intro reg there _ active
        exact ⟨ban, (same there).2, trivial, above active⟩

theorem CacheInv.foldl_removeBan (inv : CacheInv Good s) {spent : List BanReg}
    (found : s.chan.cell target = some reg) (bad : ∀ ban ∈ spent, ¬Good ban) :
    CacheInv Good (spent.foldl (fun s ban => s.removeBan target ban) s) := by
  induction spent generalizing s reg with
  | nil => exact inv
  | cons ban rest ih =>
      have after : (s.removeBan target ban).chan.cell target =
          some { reg with bans := Dlink.delete ban reg.bans } :=
        modifyChan_cell found _
      exact ih (inv.removeBan found (bad ban List.mem_cons_self)) after
        fun other later => bad other (List.mem_cons_of_mem _ later)

theorem CacheInv.expireban
    (inv : CacheInv (fun ban => ban.expired now = false) s) :
    CacheInv (fun ban => ban.expired now = false) (s.eChanservExpireban now) := by
  unfold eChanservExpireban
  generalize hashWalk _ s.chanTable = targets
  induction targets generalizing s with
  | nil => exact inv
  | cons target rest ih =>
      refine ih ?_
      unfold expireBans
      cases found : s.chan.cell target with
      | none =>
          unfold bansOf
          rw [found]
          exact inv
      | some reg =>
          refine inv.foldl_removeBan found fun ban listed kept => ?_
          rw [(List.mem_filter.mp listed).2] at kept
          cases kept

theorem Settled.findUserRegNick (settled : Settled s t) (target : AccountArg) :
    t.findUserRegNick target = s.findUserRegNick target := by
  cases target with
  | account name => exact settled.access.findUserReg name
  | nick client =>
      unfold Regs.findUserRegNick
      rw [settled.logins.login]

/-- The entry that `MODUSER` changes, and its level after that. -/
def moduserTarget (s : Regs) (now : Int) (client : ClientId) (chname : CString)
    (target : AccountArg) (levelText : CString) :
    Option (MemberRegId × MemberReg × Int) := do
  let caller ← s.callerOf now client chname sCUserlist
  let account ← s.findUserRegNick target
  let entry ←
    match s.findMemberReg (some account) caller.channelReg with
    | .ok found => found
    | .error _ => none
  let member ← s.member.cell entry
  let level := (strtol levelText).1.bmod 4294967296
  if caller.level ≤ member.level ∨ !(strtol levelText).2.isEmpty ∨ level < 1 ∨
      caller.level ≤ level then none
  else some (entry, member, level)

theorem sChanModuser_eq_ok {client : ClientId} {chname : CString}
    {target : AccountArg} {levelText : CString}
    (returned : s.sChanModuser now client chname target levelText = .ok t) :
    Settled s t ∨ ∃ entry member level lastmod r, Settled s r ∧
      s.moduserTarget now client chname target levelText =
        some (entry, member, level) ∧
      s.member.cell entry = some member ∧ t.chan = r.chan ∧
      t.member = (r.modifyMember entry fun member =>
        { member with level := level, lastmod := lastmod }).member := by
  obtain settled | ⟨account, own, caller, r, settled, admitted, rest⟩ :=
    asMember_eq_ok returned
  · exact Or.inl settled
  obtain rfl | ⟨other, entry, member, named, looked, used, rest⟩ :=
    onEntry_eq_ok rest
  · exact Or.inl settled
  split at rest
  · cases rest
    exact Or.inl settled
  rename_i below
  dsimp only at rest
  split at rest
  · cases rest
    exact Or.inl settled
  rename_i level
  cases rest
  rw [settled.findUserRegNick] at named
  rw [settled.access.findMemberReg] at looked
  rw [settled.access.member] at used
  refine Or.inr ⟨entry, member, _, r.userName caller.userReg, r, settled, ?_,
    used, rfl, rfl⟩
  unfold moduserTarget
  rw [admitted.callerOf]
  simp only [Option.bind_eq_bind, Option.bind_some, named, looked, used]
  rw [if_neg]
  rintro (high | bad)
  · exact below high
  · exact level bad

def outlasts (s : Regs) (now : Int) : Bool :=
  (List.range s.member.next).all fun m =>
    match s.member.cell m with
    | none => true
    | some member =>
        !s.isCached m || member.suspend != 0 ||
          (s.bansOf member.channelReg).all fun ban =>
            decide (ban.level ≤ member.level) || !ban.expired now

/-- No ban above a cached entry has run out; a level that `MODUSER` gives to a
cached entry has a ban above it; and the counter of a channel has not come to
its end when a ban is removed or changed. -/
def cacheSafe (s : Regs) (event : ServEvent) : Bool :=
  s.outlasts event.now &&
    match event.act with
    | .reg (.moduser client chname target levelText) =>
        match s.moduserTarget event.now client chname target levelText with
        | none => true
        | some (entry, member, level) =>
            !s.isCached entry || member.suspend != 0 ||
              (s.bansOf member.channelReg).any fun ban =>
                decide (level < ban.level)
    | .ban (.delban client chname _) | .ban (.modban client chname _ _) =>
        match s.callerOf event.now client chname sCRegular with
        | none => true
        | some caller => s.bantsOf caller.channelReg != BitVec.allOnes 64
    | _ => true

theorem isCached_iff {m : MemberRegId} {member : MemberReg}
    (used : s.member.cell m = some member)
    (found : s.chan.cell member.channelReg = some reg) :
    s.isCached m = true ↔ member.bants = reg.bants := by
  unfold isCached bantsOf
  rw [used]
  dsimp only
  rw [found]
  simp

theorem CacheInv.outlasts (inv : CacheInv (fun _ => True) s)
    (safe : s.outlasts now = true) :
    CacheInv (fun ban => ban.expired now = false) s := by
  refine ⟨inv.counted, ?_⟩
  intro m member reg used found cached active
  obtain ⟨ban, listed, -, low⟩ := inv.above m member reg used found cached active
  refine ⟨ban, listed, ?_, low⟩
  unfold Regs.outlasts at safe
  have one := List.all_eq_true.mp safe m
    (List.mem_range.mpr (Heap.lt_next used))
  rw [used] at one
  simp only [(isCached_iff used found).mpr cached, active, bansOf_eq found,
    Bool.not_true, bne_self_eq_false, Bool.false_or, List.all_eq_true,
    Bool.or_eq_true, decide_eq_true_eq, Bool.not_eq_true'] at one
  obtain high | kept := one ban listed
  · omega
  · exact kept

theorem CacheInv.weaken (inv : CacheInv Good s) :
    CacheInv (fun _ => True) s := by
  refine ⟨inv.counted, ?_⟩
  intro m member reg used found cached active
  obtain ⟨ban, listed, -, low⟩ := inv.above m member reg used found cached active
  exact ⟨ban, listed, trivial, low⟩

theorem cacheSafe_allowed {event : ServEvent} {act : BanAct}
    (safe : s.cacheSafe event = true) (same : event.act = .ban act)
    (other : act ≠ .expireban) :
    Allowed conf cacheRules s event.now act := by
  refine ⟨fun _ _ _ _ _ _ _ _ _ _ _ _ _ => trivial,
    fun _ _ _ _ _ _ _ _ _ _ _ _ _ _ _ => trivial, ?_,
    fun expires => absurd expires other⟩
  intro client chname which account entry caller reg admitted found
  unfold cacheSafe at safe
  rw [Bool.and_eq_true] at safe
  have bants : s.bantsOf caller.channelReg = reg.bants := by
    unfold bantsOf
    rw [found]
  have counts : reg.bants ≠ BitVec.allOnes 64 := by
    obtain ⟨mask, rfl⟩ | ⟨mask, level, rfl⟩ := which
    · simpa only [same, admitted.callerOf, bants, bne_iff_ne] using safe.2
    · simpa only [same, admitted.callerOf, bants, bne_iff_ne] using safe.2
  exact counts

theorem CacheInv.moduser (inv : CacheInv (fun _ => True) s)
    {client : ClientId} {chname : CString} {target : AccountArg}
    {levelText : CString}
    (safe : s.cacheSafe ⟨now, .reg (.moduser client chname target levelText)⟩ =
      true)
    (returned : s.sChanModuser now client chname target levelText = .ok t) :
    CacheInv (fun _ => True) t := by
  obtain settled | ⟨entry, member, level, lastmod, r, settled, targeted, used,
    chan, entries⟩ := sChanModuser_eq_ok returned
  · exact inv.same settled.access
  have before := inv.same settled.access
  have there : r.member.cell entry = some member := by
    rw [settled.access.member]
    exact used
  have changed : CacheInv (fun _ => True) (r.modifyMember entry fun member =>
      { member with level := level, lastmod := lastmod }) := by
    refine before.modifyMember there rfl ?_ ?_
    · intro reg found
      exact before.counted entry member reg there found
    · intro reg found cached active
      obtain ⟨old, first, -, -, bans, bants⟩ := settled.access.chanCell found
      unfold cacheSafe at safe
      rw [Bool.and_eq_true] at safe
      have kept := safe.2
      have calm : member.suspend = 0 := active
      simp only [targeted, bansOf_eq first,
        (isCached_iff used first).mpr (cached.trans bants.symm), calm,
        Bool.not_true, bne_self_eq_false, Bool.false_or, List.any_eq_true,
        decide_eq_true_eq] at kept
      obtain ⟨ban, listed, low⟩ := kept
      exact ⟨ban, bans ▸ listed, trivial, low⟩
  exact changed.congr entries chan

end Regs

/-- Joins, the commands on bans, `MODUSER` and the timer. -/
def ServAct.onBans : ServAct → Bool
  | .ban _ => true
  | .reg (.moduser _ _ _ _) => true
  | .reg _ => false

namespace Regs

variable {conf : ServConfig} {s t : Regs} {now : Int}

theorem CacheInv.servStep {event : ServEvent} (sound : Sound s)
    (inv : CacheInv (fun _ => True) s) (kind : event.act.onBans = true)
    (safe : s.cacheSafe event = true)
    (returned : s.servStep conf event = .ok t) :
    Sound t ∧ CacheInv (fun _ => True) t := by
  obtain ⟨now, act⟩ := event
  cases act with
  | reg act =>
      refine ⟨sound.step returned, ?_⟩
      cases act with
      | moduser client chname target levelText => exact inv.moduser safe returned
      | _ => cases kind
  | ban act =>
      by_cases expires : act = .expireban
      · subst expires
        have anything : Allowed conf ⟨fun _ _ => True, fun _ _ => True,
            fun _ => True, True⟩ s now .expireban :=
          ⟨fun _ _ _ _ _ _ _ _ _ _ _ _ _ => trivial,
            fun _ _ _ _ _ _ _ _ _ _ _ _ _ _ _ => trivial,
            fun _ _ _ _ _ _ _ _ _ => trivial, fun _ => trivial⟩
        have after := sound.banMoves
          (banStep_moves sound.access anything returned)
        cases returned
        unfold cacheSafe at safe
        rw [Bool.and_eq_true] at safe
        exact ⟨after, (inv.outlasts safe.1).expireban.weaken⟩
      · have moves : BanMoves now cacheRules s t :=
          banStep_moves sound.access (cacheSafe_allowed safe rfl expires)
            returned
        clear returned
        induction moves with
        | refl => exact ⟨sound, inv⟩
        | tail _ last ih => exact ⟨last.sound ih.1, last.cacheInv ih.2⟩

/-- Where no ban above a cached entry runs out, and a level that `MODUSER` gives
to such an entry has a ban above it, `UNBAN` refuses a user from the cache only
where there is a ban above the level of the user. -/
theorem cached_of_run {setup : List RegEvent} {events : List ServEvent}
    {start : Regs} {client : ClientId} {chname : CString} {live : Bool}
    (begun : run (step conf) empty setup = .ok start)
    (safe : Meets (servStep conf) (fun s event =>
        event.act.onBans = true ∧ s.cacheSafe event = true) start
      (events ++ [⟨now, .ban (.unban client chname live)⟩]))
    (reached : run (servStep conf) start events = .ok s)
    (refused : s.sChanUnban now client chname live = .ok (true, t)) :
    ∃ account entry caller reg ban,
      Admitted s now client chname sCRegular account entry caller ∧
      s.chan.cell caller.channelReg = some reg ∧ ban ∈ reg.bans ∧
      ban.expired now = false ∧ caller.level < ban.level := by
  obtain ⟨fresh, uncounted⟩ := uncounted_of_run begun
  obtain ⟨sound, inv⟩ : Sound s ∧ CacheInv (fun _ => True) s := by
    refine run_preserves_of_meets
      (fun s => Sound s ∧ CacheInv (fun _ => True) s) ?_ safe.left
      ⟨fresh, uncounted.cacheInv⟩ reached
    rintro before event after ⟨kind, safe⟩ ⟨sound, inv⟩ returned
    exact inv.servStep sound kind safe returned
  obtain ⟨account, entry, caller, admitted, cached⟩ :=
    (sChanUnban_eq_ok refused).2 rfl
  obtain ⟨reg, found⟩ := admitted.chan sound.access
  have last := (safe.after reached).1.2
  unfold cacheSafe at last
  rw [Bool.and_eq_true] at last
  have same : caller.bants = reg.bants := by
    rw [cached]
    unfold bantsOf
    rw [found]
  obtain ⟨ban, listed, kept, low⟩ := (inv.outlasts last.1).above entry caller reg
    admitted.used found same admitted.active
  exact ⟨account, entry, caller, reg, ban, admitted, found, listed, kept, low⟩

def twoUsers : List RegEvent :=
  [ ⟨100, .connect 1⟩,
    ⟨100, .userRegister 1 ⟨"alice".toList, alice_ne_nil⟩ true []⟩,
    ⟨100, .connect 2⟩,
    ⟨100, .userRegister 2 ⟨"bob".toList, bob_ne_nil⟩ true []⟩,
    ⟨101, .chanRegister 1 "#chan".toList true⟩,
    ⟨102, .adduser 1 "#chan".toList (.account "bob".toList) "50".toList none⟩ ]

def banBob : ServEvent :=
  ⟨103, .ban (.addban 1
    ⟨"#chan".toList, "bob!*@*".toList, "100".toList, "spam".toList, []⟩
    (some ⟨[], [], [⟨2, "bob!user@host".toList⟩]⟩))⟩

def raiseBob : ServEvent :=
  ⟨104, .reg (.moduser 1 "#chan".toList (.account "bob".toList)
    "150".toList)⟩

/-- What Bob is told when he asks for `UNBAN`. -/
def askUnban (s : Regs) : Option Bool :=
  match s.sChanUnban 105 2 "#chan".toList true with
  | .ok (refused, _) => some refused
  | .error _ => none

theorem refused_of_askUnban {s : Regs} (asked : s.askUnban = some true) :
    ∃ t, s.sChanUnban 105 2 "#chan".toList true = .ok (true, t) := by
  unfold askUnban at asked
  split at asked
  · rename_i refused t returned
    rw [Option.some.inj asked] at returned
    exact ⟨t, returned⟩
  · cases asked

theorem cached_of_banBob :
    ∃ start s t, run (step (setDefaultConf "services.".toList)) empty twoUsers =
        .ok start ∧
      Meets (servStep (setDefaultConf "services.".toList)) (fun s event =>
          event.act.onBans = true ∧ s.cacheSafe event = true) start
        ([banBob] ++ [⟨105, .ban (.unban 2 "#chan".toList true)⟩]) ∧
      run (servStep (setDefaultConf "services.".toList)) start [banBob] =
        .ok s ∧
      s.sChanUnban 105 2 "#chan".toList true = .ok (true, t) ∧
      ∃ c reg ban, s.chan.cell c = some reg ∧ ban ∈ reg.bans ∧
        ban.expired 105 = false := by
  have checked : (run (step (setDefaultConf "services.".toList)) empty
      twoUsers).toOption.map (fun start => decide
        (Meets (servStep (setDefaultConf "services.".toList)) (fun s event =>
            event.act.onBans = true ∧ s.cacheSafe event = true) start
          ([banBob] ++ [⟨105, .ban (.unban 2 "#chan".toList true)⟩]))) =
      some true := by
    decide +kernel
  have asked : (run (step (setDefaultConf "services.".toList)) empty
      twoUsers).toOption.map (fun start =>
        (run (servStep (setDefaultConf "services.".toList)) start
          [banBob]).toOption.map askUnban) = some (some (some true)) := by
    decide +kernel
  obtain ⟨start, begun, safe⟩ := Except.exists_of_observed checked
  have safe := of_decide_eq_true safe
  rw [begun] at asked
  obtain ⟨s, reached, answer⟩ :=
    Except.exists_of_observed (Option.some.inj asked)
  obtain ⟨t, refused⟩ := refused_of_askUnban answer
  obtain ⟨account, entry, caller, reg, ban, -, found, listed, kept, -⟩ :=
    cached_of_run begun safe reached refused
  exact ⟨start, s, t, begun, safe, reached, refused, caller.channelReg, reg, ban,
    found, listed, kept⟩

/-- Bob is refused at level 150, and the only ban has level 100. -/
theorem not_cached_of_run :
    ∃ start s t account entry caller,
      run (step (setDefaultConf "services.".toList)) empty twoUsers =
        .ok start ∧
      run (servStep (setDefaultConf "services.".toList)) start
        [banBob, raiseBob] = .ok s ∧
      s.sChanUnban 105 2 "#chan".toList true = .ok (true, t) ∧
      Admitted s 105 2 "#chan".toList sCRegular account entry caller ∧
      ¬∃ reg ban, s.chan.cell caller.channelReg = some reg ∧ ban ∈ reg.bans ∧
        ban.expired 105 = false ∧ caller.level < ban.level := by
  have asked : (run (step (setDefaultConf "services.".toList)) empty
      twoUsers).toOption.map (fun start =>
        (run (servStep (setDefaultConf "services.".toList)) start
          [banBob, raiseBob]).toOption.map fun s =>
            (s.askUnban,
              (s.callerOf 105 2 "#chan".toList sCRegular).map fun caller =>
                (caller.level,
                  (s.bansOf caller.channelReg).map BanReg.level))) =
      some (some (some true, some (150, [100]))) := by
    decide +kernel
  obtain ⟨start, begun, later⟩ := Except.exists_of_observed asked
  obtain ⟨s, reached, seen⟩ := Except.exists_of_observed later
  obtain ⟨answer, levels⟩ := Prod.mk.inj seen
  obtain ⟨t, refused⟩ := refused_of_askUnban answer
  obtain ⟨account, entry, caller, admitted, -⟩ :=
    (sChanUnban_eq_ok refused).2 rfl
  rw [admitted.callerOf] at levels
  obtain ⟨level, bans⟩ := Prod.mk.inj (Option.some.inj levels)
  refine ⟨start, s, t, account, entry, caller, begun, reached, refused, admitted,
    ?_⟩
  rintro ⟨reg, ban, found, listed, -, low⟩
  rw [bansOf_eq found] at bans
  have value := List.mem_map_of_mem (f := BanReg.level) listed
  rw [bans, List.mem_singleton] at value
  omega

end Regs

end RatboxServices
