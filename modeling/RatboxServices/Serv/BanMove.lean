import RatboxServices.Serv.AccessRun
import RatboxServices.Serv.ChanBan

namespace RatboxServices

open CString

/-! What the commands on bans can do, as moves. -/

namespace Regs

/-- What is known of new bans, of the masks that changed bans are found by and
of the counters that go up, and whether bans run out. -/
structure BanRules where
  add : List BanReg → BanReg → Prop
  mod : BanReg → CString → Prop
  bump : BitVec 64 → Prop
  expire : Prop

variable {conf : ServConfig} {rules : BanRules} {r s t : Regs} {now : Int}
  {target : ChanRegId} {client : ClientId}

inductive BanMove (now : Int) (rules : BanRules) : Regs → Regs → Prop where
  | settings {s t : Regs} (settled : Settled s t) : BanMove now rules s t
  | add {s : Regs} (target : ChanRegId) (reg : ChanReg) (ban : BanReg)
      (found : s.chan.cell target = some reg) (fine : rules.add reg.bans ban) :
      BanMove now rules s (s.addBan target ban)
  | expire {s : Regs} (target : ChanRegId) (reg : ChanReg) (ban : BanReg)
      (found : s.chan.cell target = some reg) (listed : ban ∈ reg.bans)
      (spent : ban.expired now = true) (runsOut : rules.expire) :
      BanMove now rules s (s.removeBan target ban)
  | drop {s : Regs} (target : ChanRegId) (reg : ChanReg) (ban : BanReg)
      (found : s.chan.cell target = some reg) (listed : ban ∈ reg.bans)
      (counts : rules.bump reg.bants) :
      BanMove now rules s ((s.removeBan target ban).bumpBants target)
  | change {s : Regs} (target : ChanRegId) (reg : ChanReg) (ban : BanReg)
      (mask : CString) (level : Int) (account : UserRegId) (user : UserReg)
      (found : s.chan.cell target = some reg)
      (hit : findBanReg reg.bans mask = some ban)
      (owner : s.user.cell account = some user)
      (small : -2147483648 ≤ level ∧ level < 2147483648)
      (fine : rules.mod ban mask)
      (counts : rules.bump reg.bants) :
      BanMove now rules s
        ((s.modBan target mask level user.name).bumpBants target)
  | cache {s : Regs} (target : ChanRegId) (entry : MemberRegId)
      (member : MemberReg) (ban : BanReg)
      (found : s.member.cell entry = some member)
      (inside : member.channelReg = target)
      (listed : ban ∈ s.bansOf target)
      (above : member.suspend = 0 → member.level < ban.level) :
      BanMove now rules s (s.cacheBan target entry)

abbrev BanMoves (now : Int) (rules : BanRules) : Regs → Regs → Prop :=
  Relation.ReflTransGen (BanMove now rules)

theorem bansOf_eq {reg : ChanReg} (found : s.chan.cell target = some reg) :
    s.bansOf target = reg.bans := by
  unfold bansOf
  rw [found]

theorem modifyChan_cell {reg : ChanReg} (found : s.chan.cell target = some reg)
    (change : ChanReg → ChanReg) :
    (s.modifyChan target change).chan.cell target = some (change reg) := by
  unfold modifyChan
  rw [Heap.modify_cell_self, found]
  rfl

theorem SameAccess.bansOf (same : SameAccess s t) : t.bansOf = s.bansOf := by
  funext c
  have equal := same.chan_map (fun kept => kept.2.2.1) c
  unfold Regs.bansOf
  cases left : t.chan.cell c <;> cases right : s.chan.cell c <;>
    simp_all [ChanReg.kept]

theorem SameAccess.bantsOf (same : SameAccess s t) : t.bantsOf = s.bantsOf := by
  funext c
  have equal := same.chan_map (fun kept => kept.2.2.2) c
  unfold Regs.bantsOf
  cases left : t.chan.cell c <;> cases right : s.chan.cell c <;>
    simp_all [ChanReg.kept]

theorem SameAccess.chanCell (same : SameAccess s t) {c : ChanRegId}
    {new : ChanReg} (found : t.chan.cell c = some new) :
    ∃ old, s.chan.cell c = some old ∧ old.name = new.name ∧
      old.users = new.users ∧ old.bans = new.bans ∧ old.bants = new.bants := by
  have equal := same.chan c
  rw [found] at equal
  obtain ⟨old, before, kept⟩ := Option.map_eq_some_iff.mp equal.symm
  simp only [ChanReg.kept, Prod.mk.injEq] at kept
  exact ⟨old, before, kept⟩

structure Allowed (conf : ServConfig) (rules : BanRules) (s : Regs) (now : Int)
    (act : BanAct) : Prop where
  add : ∀ client parv live, act = .addban client parv live →
    ∀ account entry caller reg ban,
      Admitted s now client parv.chname sCRegular account entry caller →
      s.chan.cell caller.channelReg = some reg →
      reg.bans.length ≤ conf.cmaxBans →
      newBan conf now caller.level (s.userName caller.userReg) parv reg.bans =
        some ban → rules.add reg.bans ban
  mod : ∀ client chname mask level, act = .modban client chname mask level →
    ∀ account entry caller reg ban,
      Admitted s now client chname sCRegular account entry caller →
      s.chan.cell caller.channelReg = some reg →
      ¬(!(strtol level).2.isEmpty ∨ (strtol level).1.bmod 4294967296 < 1 ∨
        caller.level < (strtol level).1.bmod 4294967296) →
      findBanReg reg.bans mask = some ban → ban.level ≤ caller.level →
      rules.mod ban mask
  bump : ∀ client chname, ((∃ mask, act = .delban client chname mask) ∨
      ∃ mask level, act = .modban client chname mask level) →
    ∀ account entry caller reg,
      Admitted s now client chname sCRegular account entry caller →
      s.chan.cell caller.channelReg = some reg → rules.bump reg.bants
  expire : act = .expireban → rules.expire

theorem bansOf_mem {ban : BanReg} (listed : ban ∈ s.bansOf target) :
    ∃ reg, s.chan.cell target = some reg ∧ ban ∈ reg.bans := by
  unfold bansOf at listed
  split at listed
  · rename_i reg found
    exact ⟨reg, found, listed⟩
  · cases listed

theorem bmod_small (value : Int) :
    -2147483648 ≤ value.bmod 4294967296 ∧
      value.bmod 4294967296 < 2147483648 := by
  have low := Int.le_bmod (x := value) (m := 4294967296) (by decide)
  have high := Int.bmod_lt (x := value) (m := 4294967296) (by decide)
  omega

theorem findBanReg_mem {bans : List BanReg} {mask : CString} {ban : BanReg}
    (hit : findBanReg bans mask = some ban) : ban ∈ bans :=
  List.mem_of_find?_eq_some hit

theorem Admitted.chan (access : AccessInv (fun _ => False) s) {chname : CString}
    {level : Int} {account : UserRegId} {entry : MemberRegId}
    {caller : MemberReg}
    (admitted : Admitted s now client chname level account entry caller) :
    ∃ reg, s.chan.cell caller.channelReg = some reg := by
  obtain ⟨_, users⟩ := access.wired.channel entry caller admitted.used
  obtain ⟨reg, found, -⟩ := Option.map_eq_some_iff.mp users
  exact ⟨reg, found⟩

theorem levelOf_eq {entry : MemberRegId} {member : MemberReg}
    (found : s.member.cell entry = some member) :
    s.levelOf entry = member.level := by
  unfold levelOf
  rw [found]

theorem suspendOf_eq {entry : MemberRegId} {member : MemberReg}
    (found : s.member.cell entry = some member) :
    s.suspendOf entry = member.suspend := by
  unfold suspendOf
  rw [found]

theorem entry_of_found {account : Option UserRegId} {entry : MemberRegId}
    (found : s.findMemberReg account target = .ok (some entry)) :
    ∃ member, s.member.cell entry = some member ∧
      member.channelReg = target := by
  cases account with
  | none => cases found
  | some u =>
      obtain ⟨reg, -, first⟩ := findMemberReg_eq_ok.mp found
      exact entryIn_iff.mp (List.find?_some first)

theorem foldlM_banMoves {α : Type} {turn : Regs → α → Except RegStop Regs}
    (Inv : Regs → Prop) {list : List α} (start : Inv s)
    (turns : ∀ r item t, Inv r → turn r item = .ok t →
      BanMoves now rules r t ∧ Inv t)
    (returned : list.foldlM turn s = .ok t) : BanMoves now rules s t := by
  induction list generalizing s with
  | nil =>
      cases returned
      exact .refl
  | cons first rest ih =>
      rw [List.foldlM_cons] at returned
      obtain ⟨middle, one, later⟩ := Except.bind_eq_ok.mp returned
      obtain ⟨moves, kept⟩ := turns s first middle start one
      exact moves.trans (ih kept later)

theorem enforceBan_moves {mask : CString} {excepts : List CString}
    {user : LiveUser} {ban : BanReg} (listed : ban ∈ s.bansOf target)
    (returned : s.enforceBan target mask ban.level excepts user = .ok t) :
    BanMoves now rules s t ∧ ban ∈ t.bansOf target := by
  unfold enforceBan at returned
  split at returned
  · cases returned
    exact ⟨.refl, listed⟩
  obtain ⟨hit, found, rest⟩ := Except.bind_eq_ok.mp returned
  cases hit with
  | none =>
      cases rest
      exact ⟨.refl, listed⟩
  | some entry =>
      dsimp only at rest
      split at rest
      · cases rest
        exact ⟨.refl, listed⟩
      · rename_i kept
        cases rest
        obtain ⟨member, used, inside⟩ := entry_of_found found
        rw [levelOf_eq used, suspendOf_eq used] at kept
        refine ⟨.single (.cache target entry member ban used inside listed
          fun active => ?_), listed⟩
        by_contra high
        exact kept ⟨Int.not_lt.mp high, active⟩

theorem addBan_bansOf (s : Regs) (target : ChanRegId) (ban : BanReg)
    {reg : ChanReg} (found : s.chan.cell target = some reg) :
    (s.addBan target ban).bansOf target = ban :: reg.bans := by
  exact bansOf_eq (modifyChan_cell found _)

theorem newBan_level {callerLevel : Int} {username : CString}
    {parv : AddbanArgs} {bans : List BanReg} {ban : BanReg}
    (made : newBan conf now callerLevel username parv bans = some ban) :
    ∃ level reason, 1 ≤ level ∧ level < 2147483648 ∧
      ban = makeBan parv.mask reason username level
        (if parv.duration ≠ 0 then now + parv.duration else 0) ∧
      findBanReg bans parv.mask = none := by
  unfold newBan at made
  dsimp only at made
  split at made
  · cases made
  split at made
  · cases made
  rename_i new
  split at made
  · cases made
  rename_i bounds
  simp only [not_or, Int.not_lt] at bounds
  split at made
  · cases made
  cases made
  exact ⟨_, _, bounds.2.1, (bmod_small _).2, rfl,
    by simpa [AddbanArgs.mask] using new⟩

theorem sChanAddban_moves {parv : AddbanArgs} {live : Option LiveChan}
    (access : AccessInv (fun _ => False) s)
    (allowed : Allowed conf rules s now (.addban client parv live))
    (returned : s.sChanAddban conf now client parv live = .ok t) :
    BanMoves now rules s t := by
  obtain settled | ⟨account, entry, caller, r, settled, admitted, rest⟩ :=
    asMember_eq_ok returned
  · exact .single (.settings settled)
  refine .head (.settings settled) ?_
  obtain ⟨old, before⟩ := admitted.chan access
  obtain ⟨reg, found, kept⟩ : ∃ reg, r.chan.cell caller.channelReg = some reg ∧
      ChanReg.kept reg = ChanReg.kept old := by
    have equal := settled.access.chan caller.channelReg
    rw [before] at equal
    exact Option.map_eq_some_iff.mp equal
  simp only [ChanReg.kept, Prod.mk.injEq] at kept
  dsimp only at rest
  rw [bansOf_eq found, kept.2.2.1, settled.access.userName] at rest
  split at rest
  · split at rest
    · cases rest
    · cases rest
      exact .refl
  rename_i room
  split at rest
  · cases rest
    exact .refl
  rename_i ban made
  have fine := allowed.add client parv live rfl account entry caller old ban
    admitted before (Nat.not_lt.mp room) made
  rw [← kept.2.2.1] at fine
  have listed : ban ∈ (r.addBan caller.channelReg ban).bansOf
      caller.channelReg := by
    rw [addBan_bansOf r caller.channelReg ban found]
    exact List.mem_cons_self
  refine .head (.add caller.channelReg reg ban found fine) ?_
  cases live with
  | none =>
      cases rest
      exact .refl
  | some chan =>
      dsimp only at rest
      split at rest
      · cases rest
        exact .refl
      · refine foldlM_banMoves (fun r => ban ∈ r.bansOf caller.channelReg)
          listed ?_ rest
        intro r user t there returned
        exact enforceBan_moves there returned

theorem sChanDelban_moves {chname mask : CString}
    (allowed : Allowed conf rules s now (.delban client chname mask))
    (returned : s.sChanDelban now client chname mask = .ok t) :
    BanMoves now rules s t := by
  obtain settled | ⟨account, entry, caller, r, settled, admitted, rest⟩ :=
    asMember_eq_ok returned
  · exact .single (.settings settled)
  refine .head (.settings settled) ?_
  split at rest
  · cases rest
    exact .refl
  rename_i ban hit
  split at rest
  · cases rest
    exact .refl
  cases rest
  obtain ⟨reg, found, listed⟩ := bansOf_mem (findBanReg_mem hit)
  obtain ⟨old, before, -, -, -, bants⟩ := settled.access.chanCell found
  have counts := allowed.bump client chname (Or.inl ⟨mask, rfl⟩) account entry
    caller old admitted before
  rw [bants] at counts
  exact .single (.drop caller.channelReg reg ban found listed counts)

theorem sChanModban_moves {chname mask levelText : CString}
    (access : AccessInv (fun _ => False) s) (allowed : Allowed conf rules s now
      (.modban client chname mask levelText))
    (returned : s.sChanModban now client chname mask levelText = .ok t) :
    BanMoves now rules s t := by
  obtain settled | ⟨account, entry, caller, r, settled, admitted, rest⟩ :=
    asMember_eq_ok returned
  · exact .single (.settings settled)
  refine .head (.settings settled) ?_
  dsimp only at rest
  split at rest
  · cases rest
    exact .refl
  rename_i level
  split at rest
  · cases rest
    exact .refl
  rename_i ban hit
  split at rest
  · cases rest
    exact .refl
  rename_i low
  cases rest
  obtain ⟨reg, found, -⟩ := bansOf_mem (findBanReg_mem hit)
  rw [bansOf_eq found] at hit
  obtain ⟨old, before, -, -, bans, bants⟩ := settled.access.chanCell found
  have counts := allowed.bump client chname (Or.inr ⟨mask, levelText, rfl⟩)
    account entry caller old admitted before
  rw [bants] at counts
  have fine := allowed.mod client chname mask levelText rfl account entry caller
    old ban admitted before level (bans ▸ hit) (Int.not_lt.mp low)
  obtain ⟨_, ofUser⟩ := access.wired.owner entry caller admitted.used
  rw [← settled.access.channelsOf] at ofUser
  obtain ⟨user, owner, -⟩ := Option.map_eq_some_iff.mp ofUser
  have username : r.userName caller.userReg = user.name := by
    unfold userName
    rw [owner]
  rw [username]
  refine .single (.change caller.channelReg reg ban mask _ caller.userReg user
    found hit owner ?_ fine counts)
  exact bmod_small _

theorem sChanUnban_eq_ok {chname : CString} {live : Bool} {refused : Bool}
    (returned : s.sChanUnban now client chname live = .ok (refused, t)) :
    Settled s t ∧ (refused = true → ∃ account entry caller,
      Admitted s now client chname sCRegular account entry caller ∧
        caller.bants = s.bantsOf caller.channelReg) := by
  unfold sChanUnban at returned
  cases login : s.loginOf client with
  | none =>
      rw [login] at returned
      cases returned
      exact ⟨.refl s, fun impossible => by cases impossible⟩
  | some account =>
      rw [login] at returned
      obtain ⟨user, -, rest⟩ := Except.bind_eq_ok.mp returned
      have touched := Settled.touchUser now account s
      dsimp only at rest
      split at rest
      · cases rest
        exact ⟨touched, fun impossible => by cases impossible⟩
      rename_i target named
      split at rest
      · cases rest
        exact ⟨touched, fun impossible => by cases impossible⟩
      obtain ⟨⟨hit, r⟩, verified, rest⟩ := Except.bind_eq_ok.mp rest
      obtain ⟨settled, looked⟩ := verifyMemberReg_eq_ok verified
      have noted := touched.trans settled
      cases hit with
      | none =>
          cases rest
          exact ⟨noted, fun impossible => by cases impossible⟩
      | some entry =>
          cases rest
          refine ⟨noted, fun cached => ?_⟩
          obtain ⟨caller, opened, member, used, inside, high, active⟩ :=
            looked entry rfl
          rw [touched.access.member] at used
          rw [touched.loginOf, login, touched.access.findMemberReg] at member
          rw [touched.access.findChannelReg] at named
          refine ⟨account, entry, caller, ⟨login, ?_, ?_, ?_, used, high,
            active⟩, ?_⟩
          · rw [inside]
            exact named
          · rw [inside]
            exact opened
          · rw [inside]
            exact member
          · unfold isCached at cached
            rw [noted.access.member, used, noted.access.bantsOf] at cached
            simpa using cached

theorem foldl_removeBan_moves {spent : List BanReg} (runsOut : rules.expire)
    (expired : ∀ ban ∈ spent, ban.expired now = true)
    (listed : spent.Subperm (s.bansOf target)) :
    BanMoves now rules s
      (spent.foldl (fun s ban => s.removeBan target ban) s) := by
  induction spent generalizing s with
  | nil => exact .refl
  | cons ban rest ih =>
      have there : ban ∈ s.bansOf target := listed.subset List.mem_cons_self
      obtain ⟨reg, found, inside⟩ := bansOf_mem there
      refine .head (.expire target reg ban found inside
        (expired ban List.mem_cons_self) runsOut) (ih ?_ ?_)
      · exact fun other later => expired other (List.mem_cons_of_mem _ later)
      · have after : (s.removeBan target ban).chan.cell target =
            some { reg with bans := Dlink.delete ban reg.bans } :=
          modifyChan_cell found _
        rw [bansOf_eq found] at listed
        rw [bansOf_eq after]
        have erased := listed.erase ban
        rwa [List.erase_cons_head] at erased

theorem expireBans_moves (runsOut : rules.expire) (s : Regs)
    (target : ChanRegId) : BanMoves now rules s (s.expireBans now target) :=
  foldl_removeBan_moves runsOut (fun _ listed => (List.mem_filter.mp listed).2)
    List.filter_sublist.subperm

theorem eChanservExpireban_moves (runsOut : rules.expire) (s : Regs) :
    BanMoves now rules s (s.eChanservExpireban now) := by
  unfold eChanservExpireban
  generalize hashWalk _ s.chanTable = targets
  induction targets generalizing s with
  | nil => exact .refl
  | cons target rest ih => exact (expireBans_moves runsOut s target).trans (ih _)

theorem hitBan_eq_some {level : Option Int} {mask : CString}
    {excepts : List CString} {bans : List BanReg} {ban : BanReg}
    (hit : hitBan now level mask excepts bans = some ban) :
    ban ∈ bans ∧ ∀ value, level = some value → value < ban.level := by
  unfold hitBan at hit
  split at hit
  · cases hit
  · rename_i other first
    split at hit
    · cases hit
    · cases hit
      refine ⟨List.mem_of_find?_eq_some first, ?_⟩
      rintro value rfl
      have holds := List.find?_some first
      simp only [Option.any_some, Bool.and_eq_true, Bool.not_eq_true',
        decide_eq_false_iff_not, Int.not_le] at holds
      exact holds.2

theorem activeEntry_eq_some {entry : MemberRegId}
    (found : s.activeEntry client target = .ok (some entry)) :
    ∃ member, s.member.cell entry = some member ∧
      member.channelReg = target := by
  obtain ⟨hit, looked, rest⟩ := Except.bind_eq_ok.mp found
  cases hit with
  | none => cases rest
  | some other =>
      have kept := Except.ok.inj rest
      rw [Option.filter_eq_some_iff] at kept
      obtain ⟨same, -⟩ := kept
      rw [Option.some.inj same] at looked
      exact entry_of_found looked

theorem joinUser_moves {excepts : List CString} {user : LiveUser}
    (returned : s.joinUser now target excepts user = .ok t) :
    BanMoves now rules s t := by
  obtain ⟨found, active, rest⟩ := Except.bind_eq_ok.mp returned
  cases found with
  | none =>
      split at rest
      · rename_i impossible
        cases impossible
      · rename_i impossible
        cases impossible
      · cases rest
        exact .refl
  | some entry =>
      obtain ⟨member, used, inside⟩ := activeEntry_eq_some active
      split at rest
      · rename_i ban other hit same
        cases same
        cases rest
        obtain ⟨listed, above⟩ := hitBan_eq_some hit
        refine .single (.cache target entry member ban used inside listed
          fun _ => ?_)
        exact above _ (congrArg some (levelOf_eq used))
      · cases rest
        exact .single (.settings (.touchChan now target s))
      · rename_i impossible
        cases impossible

theorem hChanservJoin_moves {chname : CString} {excepts : List CString}
    {users : List LiveUser}
    (returned : s.hChanservJoin now chname excepts users = .ok t) :
    BanMoves now rules s t := by
  unfold hChanservJoin at returned
  split at returned
  · cases returned
    exact .refl
  split at returned
  · cases returned
    exact .refl
  rename_i target named
  refine .head (.settings (.expireIfDue now target s)) ?_
  dsimp only at returned
  split at returned
  · cases returned
    exact .refl
  · exact foldlM_banMoves (fun _ => True) trivial
      (fun _ _ _ _ turn => ⟨joinUser_moves turn, trivial⟩) returned

theorem banStep_moves {act : BanAct} (access : AccessInv (fun _ => False) s)
    (allowed : Allowed conf rules s now act)
    (returned : s.banStep conf now act = .ok t) : BanMoves now rules s t := by
  cases act with
  | addban client parv live => exact sChanAddban_moves access allowed returned
  | delban client chname mask => exact sChanDelban_moves allowed returned
  | modban client chname mask level =>
      exact sChanModban_moves access allowed returned
  | unban client chname live =>
      obtain ⟨⟨refused, r⟩, answered, rest⟩ := Except.bind_eq_ok.mp returned
      cases rest
      exact .single (.settings (sChanUnban_eq_ok answered).1)
  | expireban =>
      cases returned
      exact eChanservExpireban_moves (allowed.expire rfl) s
  | join chname excepts users => exact hChanservJoin_moves returned

end Regs

end RatboxServices
