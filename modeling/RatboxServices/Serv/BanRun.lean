import RatboxServices.Serv.BanMove

namespace RatboxServices

open CString

/-! The lists of bans in every run, beside everything else that happens to the
registrations. -/

namespace Regs

variable {conf : ServConfig} {Given : CString → Prop} {Broken : Prop}
  {rules : BanRules} {r s t : Regs} {now : Int}

structure SameEntries (s t : Regs) : Prop where
  user : t.user = s.user
  member : t.member = s.member
  userTable : t.userTable = s.userTable
  chanTable : t.chanTable = s.chanTable
  users : t.users = s.users
  chan : ∀ c, (t.chan.cell c).map (fun reg => (reg.name, reg.users)) =
    (s.chan.cell c).map (fun reg => (reg.name, reg.users))

theorem SameEntries.trans (first : SameEntries r s) (second : SameEntries s t) :
    SameEntries r t where
  user := second.user.trans first.user
  member := second.member.trans first.member
  userTable := second.userTable.trans first.userTable
  chanTable := second.chanTable.trans first.chanTable
  users := second.users.trans first.users
  chan c := (second.chan c).trans (first.chan c)

theorem SameEntries.modifyChan (s : Regs) (target : ChanRegId)
    {change : ChanReg → ChanReg} (rows : List BanRow)
    (name : ∀ reg, (change reg).name = reg.name)
    (users : ∀ reg, (change reg).users = reg.users) :
    SameEntries s { s.modifyChan target change with bans := rows } := by
  refine ⟨rfl, rfl, rfl, rfl, rfl, fun c => ?_⟩
  apply Heap.modify_cell_map
  intro reg
  simp [name, users]

theorem SameEntries.addBan (s : Regs) (target : ChanRegId) (ban : BanReg) :
    SameEntries s (s.addBan target ban) :=
  .modifyChan s target _ (fun _ => rfl) fun _ => rfl

theorem SameEntries.removeBan (s : Regs) (target : ChanRegId) (ban : BanReg) :
    SameEntries s (s.removeBan target ban) :=
  .modifyChan s target _ (fun _ => rfl) fun _ => rfl

theorem SameEntries.modBan (s : Regs) (target : ChanRegId) (mask : CString)
    (level : Int) (username : CString) :
    SameEntries s (s.modBan target mask level username) :=
  .modifyChan s target _ (fun _ => rfl) fun _ => rfl

theorem SameEntries.bumpBants (s : Regs) (target : ChanRegId) :
    SameEntries s (s.bumpBants target) :=
  .modifyChan s target s.bans (fun _ => rfl) fun _ => rfl

theorem SameEntries.sound (same : SameEntries s t) (sound : Sound s) :
    Sound t := by
  refine ⟨sound.access.congr ?_ ?_ same.member, sound.accounts.same ?_,
    sound.channels.same ⟨same.chanTable, fun c => ?_⟩⟩
  · unfold channelsOf
    rw [same.user]
  · funext c
    have equal := congrArg (Option.map Prod.snd) (same.chan c)
    rw [Option.map_map, Option.map_map] at equal
    exact equal
  · exact ⟨same.userTable, same.users, fun u => by rw [same.user]⟩
  · have equal := congrArg (Option.map Prod.fst) (same.chan c)
    rw [Option.map_map, Option.map_map] at equal
    exact equal

theorem BanMove.sound (move : BanMove now rules s t) (sound : Sound s) :
    Sound t := by
  cases move with
  | settings settled =>
      exact ⟨sound.access.same settled.access,
        sound.accounts.same settled.access.sameNames,
        sound.channels.same settled.access.sameChans⟩
  | add target reg ban found fine => exact (SameEntries.addBan _ _ _).sound sound
  | expire target reg ban found listed spent runsOut =>
      exact (SameEntries.removeBan _ _ _).sound sound
  | drop target reg ban found listed counts =>
      have removed := SameEntries.removeBan s target ban
      exact (removed.trans (.bumpBants _ _)).sound sound
  | change target reg ban mask level account user found hit owner small fine
      counts =>
      have changed := SameEntries.modBan s target mask level user.name
      exact (changed.trans (.bumpBants _ _)).sound sound
  | cache target entry member ban found inside listed above =>
      have tame := sound.access.tame entry member found
      have noted : AccessInv (fun _ => False) (s.setMember entry member
          (fun member => { member with bants := s.bantsOf target }) id) :=
        sound.access.setMember found (fun _ => ⟨rfl, rfl⟩)
          ⟨rfl, rfl, Or.inl rfl, sound.access.owner_active found,
            tame.suspend, tame.flags⟩
      exact ⟨noted.congr rfl rfl rfl,
        sound.accounts.same ⟨rfl, rfl, fun _ => rfl⟩,
        sound.channels.same ⟨rfl, fun _ => rfl⟩⟩

theorem Sound.banMoves (sound : Sound s) (moves : BanMoves now rules s t) :
    Sound t := by
  induction moves with
  | refl => exact sound
  | tail _ last ih => exact last.sound ih

/-- The channels there are, with their bans, are channels of before; and the
rows of a ban go with its channel. -/
structure KeptBans (s t : Regs) : Prop where
  chans : ∀ c new, t.chan.cell c = some new → ∃ old, s.chan.cell c = some old ∧
    old.name = new.name ∧ old.bans = new.bans ∧ old.bants = new.bants
  rows : ∀ c reg, t.chan.cell c = some reg →
    t.bans.filter (fun row => row.chname == reg.name) =
      s.bans.filter fun row => row.chname == reg.name
  owned : ∀ row ∈ t.bans, row ∈ s.bans ∧ ∀ c reg, s.chan.cell c = some reg →
    reg.name = row.chname → ∃ new, t.chan.cell c = some new

theorem KeptBans.trans (first : KeptBans r s) (second : KeptBans s t) :
    KeptBans r t := by
  refine ⟨?_, ?_, ?_⟩
  · intro c new found
    obtain ⟨middle, between, name, bans, bants⟩ := second.chans c new found
    obtain ⟨old, before, name', bans', bants'⟩ := first.chans c middle between
    exact ⟨old, before, name'.trans name, bans'.trans bans, bants'.trans bants⟩
  · intro c reg found
    obtain ⟨middle, between, name, -, -⟩ := second.chans c reg found
    rw [second.rows c reg found, ← name]
    exact first.rows c middle between
  · intro row listed
    obtain ⟨between, stays⟩ := second.owned row listed
    obtain ⟨before, stays'⟩ := first.owned row between
    refine ⟨before, fun c reg found same => ?_⟩
    obtain ⟨middle, there⟩ := stays' c reg found same
    obtain ⟨old, cell, name, -, -⟩ := first.chans c middle there
    rw [found, Option.some.injEq] at cell
    subst cell
    exact stays c middle there (name.symm.trans same)

theorem KeptBans.of_same (rows : t.bans = s.bans)
    (chans : ∀ c, (t.chan.cell c).map (fun reg =>
        (reg.name, reg.bans, reg.bants)) =
      (s.chan.cell c).map (fun reg => (reg.name, reg.bans, reg.bants))) :
    KeptBans s t := by
  refine ⟨?_, ?_, ?_⟩
  · intro c new found
    have equal := chans c
    rw [found] at equal
    obtain ⟨old, before, kept⟩ := Option.map_eq_some_iff.mp equal.symm
    simp only [Prod.mk.injEq] at kept
    exact ⟨old, before, kept⟩
  · intro c reg found
    rw [rows]
  · intro row listed
    rw [rows] at listed
    refine ⟨listed, fun c reg found _ => ?_⟩
    have equal := chans c
    rw [found] at equal
    obtain ⟨new, after, -⟩ := Option.map_eq_some_iff.mp equal
    exact ⟨new, after⟩

theorem KeptBans.of_eq (rows : t.bans = s.bans) (chans : t.chan = s.chan) :
    KeptBans s t :=
  .of_same rows fun c => by rw [chans]

theorem SameAccess.keptBans (same : SameAccess s t) : KeptBans s t :=
  .of_same same.bans (same.chan_map fun kept => (kept.1, kept.2.2.1, kept.2.2.2))

theorem KeptBans.modifyUsers (s : Regs) (target : ChanRegId)
    (change : List MemberRegId → List MemberRegId) :
    KeptBans s (s.modifyChan target fun reg =>
      { reg with users := change reg.users }) := by
  refine .of_same rfl fun c => ?_
  unfold Regs.modifyChan
  apply Heap.modify_cell_map
  exact fun _ => rfl

theorem KeptBans.freeChan (inv : ChannelInv s) (target : ChanRegId) :
    KeptBans s (s.freeChannelReg target) := by
  have stays {c : ChanRegId} {reg : ChanReg}
      (after : (s.freeChannelReg target).chan.cell c = some reg) :
      c ≠ target ∧ s.chan.cell c = some reg := by
    unfold freeChannelReg at after
    rw [Heap.free_cell] at after
    split at after
    · cases after
    · rename_i different
      exact ⟨different, after⟩
  have apart {c : ChanRegId} {reg : ChanReg}
      (found : s.chan.cell c = some reg) (different : c ≠ target) :
      reg.name ≠ s.chanName target := by
    intro same
    unfold chanName at same
    split at same
    · rename_i other there
      refine different (inv.unique c target reg other found there ?_)
      rw [same]
      exact irccmp_iff.mpr rfl
    · exact inv.named c reg found same
  refine ⟨?_, ?_, ?_⟩
  · intro c new after
    exact ⟨new, (stays after).2, rfl, rfl, rfl⟩
  · intro c reg after
    obtain ⟨different, found⟩ := stays after
    show List.filter _ (List.filter _ s.bans) = _
    rw [List.filter_filter]
    refine List.filter_congr fun row _ => ?_
    by_cases same : row.chname = reg.name
    · simp [same, apart found different]
    · simp [same]
  · intro row listed
    obtain ⟨before, other⟩ := List.mem_filter.mp listed
    refine ⟨before, fun c reg found same => ⟨reg, ?_⟩⟩
    have different : c ≠ target := by
      rintro rfl
      rw [bne_iff_ne] at other
      refine other (same.symm.trans ?_)
      unfold chanName
      rw [found]
    unfold freeChannelReg
    rw [Heap.free_cell, if_neg different]
    exact found

theorem KeptBans.freeMember (inv : ChannelInv s) (upgrade : Bool)
    (target : MemberRegId) :
    KeptBans s (s.freeMemberReg conf upgrade target) := by
  have unlinked (member : MemberReg) :
      KeptBans s (s.unlinkMember target member) :=
    (KeptBans.modifyUsers s member.channelReg (Dlink.delete target)).trans
      (.of_eq rfl rfl)
  have channels (member : MemberReg) :
      ChannelInv (s.unlinkMember target member) := by
    have left : SameChans s (s.modifyChan member.channelReg fun reg =>
        { reg with users := Dlink.delete target reg.users }) :=
      .modifyChan s _ fun _ => rfl
    exact inv.same ⟨left.chanTable, left.names⟩
  have promoted (r : Regs) (top : MemberRegId) :
      KeptBans r (r.promote conf top) := by
    unfold promote
    split
    · exact .of_eq rfl rfl
    · exact .of_eq rfl rfl
  unfold freeMemberReg
  split
  · exact .of_eq rfl rfl
  · rename_i member used
    dsimp only
    split
    · exact unlinked member
    · split
      · exact (unlinked member).trans (.freeChan (channels member) _)
      · split
        · split
          · exact (unlinked member).trans (promoted _ _)
          · exact unlinked member
        · exact unlinked member

theorem KeptBans.freeMembers (conf : ServConfig) (inv : ChannelInv s)
    (upgrade : Bool) (entries : List MemberRegId) :
    KeptBans s (entries.foldl
      (fun s entry => s.freeMemberReg conf upgrade entry) s) := by
  induction entries generalizing s with
  | nil => exact .of_eq rfl rfl
  | cons first rest ih =>
      have freed : KeptBans s (s.freeMemberReg conf upgrade first) :=
        .freeMember inv upgrade first
      exact freed.trans (ih (inv.freeMember upgrade first))

structure Opened (name : CString) (s t : Regs) : Prop where
  rows : t.bans = s.bans
  new : s.findChannelReg name = none
  chans : ∀ c reg, t.chan.cell c = some reg →
    (reg.name = name ∧ reg.bans = [] ∧ reg.bants = 1#64) ∨
      ∃ old, s.chan.cell c = some old ∧ old.name = reg.name ∧
        old.bans = reg.bans ∧ old.bants = reg.bants
  old : ∀ c reg, s.chan.cell c = some reg →
    ∃ after, t.chan.cell c = some after ∧ after.name = reg.name

theorem Opened.registerChannel {name : Token}
    (new : s.findChannelReg name.text = none) (now : Int)
    (account : UserRegId) (lastmod : CString) :
    Opened name.text s (s.registerChannel now name account lastmod) := by
  have cells (c : ChanRegId) :
      (s.registerChannel now name account lastmod).chan.cell c =
        ((s.chan.alloc { name := name.text, lastTime := now }).modify
          s.chan.next fun reg =>
            { reg with users := Dlink.add s.member.next reg.users }).cell c :=
    rfl
  refine ⟨rfl, new, ?_, ?_⟩
  · intro c reg found
    rw [cells] at found
    obtain ⟨old, before, changed⟩ := Heap.cell_of_modify found
    rw [Heap.alloc_cell] at before
    split at before
    · rename_i same
      cases before
      rw [if_pos same] at changed
      rw [changed]
      exact Or.inl ⟨rfl, rfl, rfl⟩
    · rename_i different
      rw [if_neg different] at changed
      rw [changed]
      exact Or.inr ⟨old, before, rfl, rfl, rfl⟩
  · intro c reg found
    have different := Nat.ne_of_lt (Heap.lt_next found)
    refine ⟨reg, ?_, rfl⟩
    rw [cells, Heap.modify_cell_of_ne _ _ different, Heap.alloc_cell,
      if_neg different]
    exact found

theorem Move.bans (move : Move conf Given Broken s t) (inv : ChannelInv s) :
    KeptBans s t ∨ ∃ name, name ≠ [] ∧ Opened name s t := by
  cases move with
  | settings settled => exact Or.inl settled.access.keptBans
  | connect client new => exact Or.inl (.of_eq rfl rfl)
  | link client account reg out found opened => exact Or.inl (.of_eq rfl rfl)
  | leave client account inside => exact Or.inl (.of_eq rfl rfl)
  | torn access broken => exact Or.inl access.keptBans
  | exit client out => exact Or.inl (.of_eq rfl rfl)
  | logout account =>
      exact Or.inl (SameAccess.logoutUserReg s account).keptBans
  | block account change empty kept users => exact Or.inl (.of_eq rfl rfl)
  | newUser reg given some_ new copied unique channels users =>
      exact Or.inl (.of_eq rfl rfl)
  | dropUser account reg found unused =>
      unfold freeUserReg
      rw [found]
      have start : ChannelInv
          (({ s with userTable := Dlink.delete account s.userTable } :
            Regs).deleteMembers fun row => row.username == reg.name) :=
        inv.same ⟨rfl, fun _ => rfl⟩
      have freed := KeptBans.freeMembers conf start true reg.channels
      exact Or.inl ⟨freed.chans, freed.rows, freed.owned⟩
  | newChan now name account lastmod reg found new =>
      exact Or.inr ⟨name.text, name.nonempty,
        .registerChannel new now account lastmod⟩
  | dropChan target =>
      unfold destroyChannelReg
      split
      · exact Or.inl (.of_eq rfl rfl)
      · rename_i reg found
        have start : ChannelInv
            (s.deleteMembers fun row => row.chname == reg.name) :=
          inv.same ⟨rfl, fun _ => rfl⟩
        have freed := KeptBans.freeMembers conf start false reg.users
        exact Or.inl ⟨freed.chans, freed.rows, freed.owned⟩
  | add member owner channel new level tame active fresh =>
      have entered := KeptBans.modifyUsers s member.channelReg
        (Dlink.add s.member.next)
      exact Or.inl ⟨entered.chans, entered.rows, entered.owned⟩
  | set target member change row found kept proper written bants =>
      exact Or.inl (.of_eq rfl rfl)
  | remove target member found =>
      have deleted : ChannelInv (s.deleteMemberDbEntry member) :=
        inv.same ⟨rfl, fun _ => rfl⟩
      have freed : KeptBans (s.deleteMemberDbEntry member)
          ((s.deleteMemberDbEntry member).freeMemberReg conf true target) :=
        .freeMember deleted true target
      exact Or.inl ⟨freed.chans, freed.rows, freed.owned⟩

def Lists (P : List BanReg → Prop) (s : Regs) : Prop :=
  ∀ c reg, s.chan.cell c = some reg → P reg.bans

theorem Lists.modifyChan {P : List BanReg → Prop} (lists : Lists P s)
    {target : ChanRegId} {change : ChanReg → ChanReg} {rows : List BanRow}
    (kept : ∀ reg, s.chan.cell target = some reg → P (change reg).bans) :
    Lists P { s.modifyChan target change with bans := rows } := by
  intro c reg after
  obtain ⟨old, before, changed⟩ := Heap.cell_of_modify after
  rw [changed]
  split
  · rename_i same
    exact kept old (same ▸ before)
  · exact lists c old before

theorem Lists.kept {P : List BanReg → Prop} (lists : Lists P s)
    (same : KeptBans s t) : Lists P t := by
  intro c reg found
  obtain ⟨old, before, -, bans, -⟩ := same.chans c reg found
  rw [← bans]
  exact lists c old before

theorem Move.lists {P : List BanReg → Prop}
    (move : Move conf Given Broken s t) (inv : ChannelInv s) (empty : P [])
    (lists : Lists P s) : Lists P t := by
  obtain kept | ⟨name, -, opened⟩ := move.bans inv
  · exact lists.kept kept
  · intro c reg found
    obtain ⟨-, none_, -⟩ | ⟨old, before, -, bans, -⟩ := opened.chans c reg found
    · rw [none_]
      exact empty
    · rw [← bans]
      exact lists c old before

structure Keeps (rules : BanRules) (P : List BanReg → Prop) : Prop where
  add : ∀ bans ban, P bans → rules.add bans ban → P (ban :: bans)
  delete : ∀ bans ban, P bans → P (Dlink.delete ban bans)
  change : ∀ bans mask ban level username, P bans →
    findBanReg bans mask = some ban → rules.mod ban mask →
    -2147483648 ≤ level ∧ level < 2147483648 → username ≠ [] →
    P (modifyBan mask (fun ban =>
      { ban with level := level, username := username }) bans)

theorem BanMove.lists {P : List BanReg → Prop} (move : BanMove now rules s t)
    (keeps : Keeps rules P) (accounts : AccountInv s) (lists : Lists P s) :
    Lists P t := by
  have deleted (target : ChanRegId) (ban : BanReg) :
      Lists P (s.removeBan target ban) := by
    refine lists.modifyChan fun reg found => ?_
    exact keeps.delete reg.bans ban (lists target reg found)
  have bumped {r : Regs} (lists : Lists P r) (target : ChanRegId) :
      Lists P (r.bumpBants target) := by
    have same : Lists P { r.bumpBants target with bans := r.bans } :=
      lists.modifyChan fun reg found => lists target reg found
    exact same
  cases move with
  | settings settled => exact lists.kept settled.access.keptBans
  | add target reg ban found fine =>
      refine lists.modifyChan fun other there => ?_
      rw [found, Option.some.injEq] at there
      subst there
      exact keeps.add reg.bans ban (lists target reg found) fine
  | expire target reg ban found listed spent runsOut => exact deleted target ban
  | drop target reg ban found listed counts => exact bumped (deleted target ban) target
  | change target reg ban mask level account user found hit owner small fine
      counts =>
      have changed : Lists P (s.modBan target mask level user.name) := by
        refine lists.modifyChan fun other there => ?_
        rw [found, Option.some.injEq] at there
        subst there
        exact keeps.change reg.bans mask ban level user.name
          (lists target reg found) hit fine small
          (accounts.named account user owner)
      exact bumped changed target
  | cache target entry member ban found inside listed above =>
      exact lists.kept (.of_eq rfl rfl)

theorem servStep_moves {event : ServEvent} (sound : Sound s)
    (allowed : ∀ act, event.act = .ban act →
      Allowed conf rules s event.now act)
    (returned : s.servStep conf event = .ok t) :
    Moves conf (fun _ => True) True s t ∨ BanMoves event.now rules s t := by
  unfold servStep at returned
  split at returned
  · rename_i act same
    have naming : Naming conf (fun _ => True) ⟨event.now, act⟩ :=
      ⟨fun _ _ => trivial, fun _ _ _ _ _ => trivial⟩
    exact Or.inl (step_moves naming sound.access (Or.inl trivial) returned)
  · rename_i act same
    exact Or.inr (banStep_moves sound.access (allowed act same) returned)

theorem Sound.servStep {P : Regs → Prop} {event : ServEvent} (sound : Sound s)
    (allowed : ∀ act, event.act = .ban act →
      Allowed conf rules s event.now act)
    (moved : ∀ r t, Sound r → P r → Move conf (fun _ => True) True r t → P t)
    (banned : ∀ r t, Sound r → P r → BanMove event.now rules r t → P t)
    (holds : P s) (returned : s.servStep conf event = .ok t) :
    Sound t ∧ P t := by
  obtain moves | moves := servStep_moves sound allowed returned
  · clear returned
    induction moves with
    | refl => exact ⟨sound, holds⟩
    | tail _ last ih =>
        exact ⟨ih.1.moves (.single last), moved _ _ ih.1 ih.2 last⟩
  · clear returned
    induction moves with
    | refl => exact ⟨sound, holds⟩
    | tail _ last ih => exact ⟨last.sound ih.1, banned _ _ ih.1 ih.2 last⟩

def callerOf (s : Regs) (now : Int) (client : ClientId) (chname : CString)
    (level : Int) : Option MemberReg :=
  match s.loginOf client, s.findChannelReg chname with
  | some account, some target =>
      if s.lockedOut now target then none
      else
        match s.findMemberReg (some account) target with
        | .ok (some entry) =>
            (s.member.cell entry).filter fun caller =>
              decide (level ≤ caller.level) && caller.suspend == 0
        | _ => none
  | _, _ => none

theorem Admitted.callerOf {client : ClientId} {chname : CString} {level : Int}
    {account : UserRegId} {entry : MemberRegId} {caller : MemberReg}
    (admitted : Admitted s now client chname level account entry caller) :
    s.callerOf now client chname level = some caller := by
  unfold Regs.callerOf
  rw [admitted.login, admitted.channel]
  simp [admitted.opened, admitted.found, admitted.used, admitted.level,
    admitted.active]

theorem findMemberReg_eq_error {account : Option UserRegId}
    {target : ChanRegId} {stop : RegStop}
    (returned : s.findMemberReg account target = .error stop) :
    ∃ u, stop = .freed u := by
  cases account with
  | none => cases returned
  | some u =>
      unfold findMemberReg derefUser at returned
      cases found : s.user.cell u with
      | none =>
          simp only [found, bind, Except.bind, Except.error.injEq] at returned
          exact ⟨u, returned.symm⟩
      | some reg =>
          simp only [found, bind, Except.bind] at returned
          cases returned

/-- A command on an access list that does not return uses an account that was
freed, or its own part does not return. -/
theorem asMember_eq_error {client : ClientId} {chname : CString} {level : Int}
    {body : MemberRegId → MemberReg → Regs → Except RegStop Regs}
    {stop : RegStop}
    (returned : s.asMember now client chname level body = .error stop) :
    (∃ u, stop = .freed u) ∨ ∃ entry caller r, Settled s r ∧
      body entry caller r = .error stop := by
  unfold asMember asUser at returned
  cases login : s.loginOf client with
  | none =>
      rw [login] at returned
      cases returned
  | some account =>
      rw [login] at returned
      unfold derefUser at returned
      cases found : s.user.cell account with
      | none =>
          simp only [found, bind, Except.bind, Except.error.injEq] at returned
          exact Or.inl ⟨account, returned.symm⟩
      | some reg =>
          simp only [found, bind, Except.bind] at returned
          have touched := Settled.touchUser now account s
          split at returned
          · cases returned
          rename_i target named
          cases verified : (s.touchUser now account).verifyMemberReg now client
              target level with
          | error other =>
              rw [verified] at returned
              cases returned
              unfold verifyMemberReg at verified
              dsimp only at verified
              split at verified
              · cases verified
              cases looked : ((s.touchUser now account).expireIfDue now
                  target).findMemberReg (((s.touchUser now
                    account).expireIfDue now target).loginOf client)
                    target with
              | error other =>
                  rw [looked] at verified
                  cases verified
                  exact Or.inl (findMemberReg_eq_error looked)
              | ok hit =>
                  rw [looked] at verified
                  cases hit with
                  | none => cases verified
                  | some entry =>
                      simp only [bind, Except.bind] at verified
                      split at verified <;> cases verified
          | ok result =>
              obtain ⟨hit, r⟩ := result
              rw [verified] at returned
              have settled := touched.trans (verifyMemberReg_eq_ok verified).1
              cases hit with
              | none => cases returned
              | some entry =>
                  dsimp only at returned
                  split at returned
                  · cases returned
                  · rename_i caller used
                    exact Or.inr ⟨entry, caller, r, settled, returned⟩

theorem modifyBan_masks (mask : CString) (change : BanReg → BanReg)
    (kept : ∀ ban, (change ban).mask = ban.mask) (bans : List BanReg) :
    (modifyBan mask change bans).map BanReg.mask = bans.map BanReg.mask := by
  induction bans with
  | nil => rfl
  | cons ban rest ih =>
      unfold modifyBan
      split
      · rw [List.map_cons, List.map_cons, kept]
      · rw [List.map_cons, List.map_cons, ih]

structure Spaced (limit : Nat) (bans : List BanReg) : Prop where
  length : bans.length ≤ limit
  masks : (bans.map BanReg.mask).Pairwise fun left right =>
    irccmp left right = false

def spacedRules (limit : Nat) : BanRules where
  add bans ban := bans.length < limit ∧ findBanReg bans ban.mask = none
  mod _ _ := True
  bump _ := True
  expire := True

theorem Spaced.keeps (limit : Nat) :
    Keeps (spacedRules limit) (Spaced limit) := by
  refine ⟨?_, ?_, ?_⟩
  · rintro bans ban spaced ⟨room, new⟩
    refine ⟨room, ?_⟩
    rw [List.map_cons]
    refine List.Pairwise.cons ?_ spaced.masks
    intro mask listed
    obtain ⟨other, there, rfl⟩ := List.mem_map.mp listed
    have different := List.find?_eq_none.mp new other there
    by_contra same
    rw [Bool.not_eq_false] at same
    exact different (irccmp_comm same)
  · intro bans ban spaced
    have left : (Dlink.delete ban bans).Sublist bans := List.erase_sublist
    exact ⟨left.length_le.trans spaced.length,
      spaced.masks.sublist (left.map _)⟩
  · intro bans mask ban level username spaced hit fine small some_
    have masks := modifyBan_masks mask
      (fun ban => { ban with level := level, username := username })
      (fun _ => rfl) bans
    refine ⟨?_, ?_⟩
    · have lengths := congrArg List.length masks
      rw [List.length_map, List.length_map] at lengths
      rw [lengths]
      exact spaced.length
    · rw [masks]
      exact spaced.masks

/-- What `ADDBAN` adds goes to a list that has room for it and does not have the
mask as it is stored. -/
def banRoom (conf : ServConfig) (s : Regs) (event : ServEvent) : Bool :=
  match event.act with
  | .ban (.addban client parv _) =>
      match s.callerOf event.now client parv.chname sCRegular with
      | none => true
      | some caller =>
          let bans := s.bansOf caller.channelReg
          (newBan conf event.now caller.level (s.userName caller.userReg) parv
            bans).isNone ||
            (decide (bans.length < conf.cmaxBans) &&
              (findBanReg bans (collapse parv.mask)).isNone)
  | _ => true

theorem banRoom_allowed {event : ServEvent} {act : BanAct}
    (room : s.banRoom conf event = true) (same : event.act = .ban act) :
    Allowed conf (spacedRules conf.cmaxBans) s event.now act := by
  refine ⟨?_, fun _ _ _ _ _ _ _ _ _ _ _ _ _ _ _ => trivial,
    fun _ _ _ _ _ _ _ _ _ => trivial, fun _ => trivial⟩
  rintro client parv live rfl account entry caller reg ban admitted found -
    made
  unfold banRoom at room
  simp only [same, admitted.callerOf, bansOf_eq found, made, Option.isNone_some,
    Bool.false_or, Bool.and_eq_true, decide_eq_true_eq, Option.isNone_iff_eq_none]
    at room
  obtain ⟨level, reason, -, -, rfl, -⟩ := newBan_level made
  exact room

theorem spaced_of_run {events : List ServEvent}
    (room : Meets (servStep conf) (fun s event => s.banRoom conf event = true)
      empty events)
    (reached : run (servStep conf) empty events = .ok s) :
    Sound s ∧ Lists (Spaced conf.cmaxBans) s := by
  have start : Lists (Spaced conf.cmaxBans) empty := by
    intro c reg found
    cases found
  refine run_preserves_of_meets
    (fun s => Sound s ∧ Lists (Spaced conf.cmaxBans) s) ?_ room ⟨.empty, start⟩
    reached
  rintro before event after room ⟨sound, lists⟩ returned
  refine sound.servStep (fun act same => banRoom_allowed room same) ?_ ?_ lists
    returned
  · intro r t sound lists move
    exact move.lists sound.channels ⟨Nat.zero_le _, .nil⟩ lists
  · intro r t sound lists move
    exact move.lists (Spaced.keeps _) sound.accounts lists

/-- Where every ban that is added finds room and a mask that is not there, masks
are different for `irccmp`, no list is too long, and `ADDBAN` does not use a
channel that is not there. -/
theorem bans_of_run {events : List ServEvent}
    (room : Meets (servStep conf) (fun s event => s.banRoom conf event = true)
      empty events)
    (reached : run (servStep conf) empty events = .ok s) :
    (∀ c reg, s.chan.cell c = some reg → reg.bans.length ≤ conf.cmaxBans ∧
      reg.bans.Pairwise fun left right =>
        irccmp left.mask right.mask = false) ∧
    ∀ now client parv,
      s.sChanAddban conf now client parv none ≠ .error .nullChannel := by
  obtain ⟨-, lists⟩ := spaced_of_run room reached
  refine ⟨fun c reg found => ?_, fun now client parv stopped => ?_⟩
  · have spaced := lists c reg found
    exact ⟨spaced.length, List.pairwise_map.mp spaced.masks⟩
  · obtain ⟨u, impossible⟩ | ⟨entry, caller, r, settled, rest⟩ :=
      asMember_eq_error stopped
    · cases impossible
    · have short : (r.bansOf caller.channelReg).length ≤ conf.cmaxBans := by
        rw [settled.access.bansOf]
        unfold bansOf
        split
        · rename_i reg found
          exact (lists _ reg found).length
        · exact Nat.zero_le _
      dsimp only at rest
      rw [if_neg (Nat.not_lt.mpr short)] at rest
      split at rest <;> cases rest

def bannedChannel (masks : List CString) : List ServEvent :=
  [ ⟨100, .reg (.connect 1)⟩,
    ⟨100, .reg (.userRegister 1 ⟨"alice".toList, alice_ne_nil⟩ true [])⟩,
    ⟨101, .reg (.chanRegister 1 "#chan".toList true)⟩ ] ++
  masks.map fun mask =>
    ⟨102, .ban (.addban 1
      ⟨"#chan".toList, mask, "10".toList, "spam".toList, []⟩ none)⟩

theorem bans_of_bannedChannel :
    let conf := setDefaultConf "services.".toList
    let events := bannedChannel ["*!*@one".toList, "**!*@two".toList]
    Meets (servStep conf) (fun s event => s.banRoom conf event = true) empty
        events ∧
      ∃ s, run (servStep conf) empty events = .ok s ∧
        (s.bansOf 0).map BanReg.mask =
          ["*!*@two".toList, "*!*@one".toList] ∧
        ∀ c reg, s.chan.cell c = some reg → reg.bans.length ≤ 50 := by
  intro conf events
  have room : Meets (servStep conf)
      (fun s event => s.banRoom conf event = true) empty events := by
    decide +kernel
  have observed : (run (servStep conf) empty events).toOption.map
      (fun s => (s.bansOf 0).map BanReg.mask) =
        some ["*!*@two".toList, "*!*@one".toList] := by
    decide +kernel
  obtain ⟨s, reached, masks⟩ := Except.exists_of_observed observed
  refine ⟨room, s, reached, masks, fun c reg found => ?_⟩
  exact ((bans_of_run room reached).1 c reg found).1

/-- A mask is looked up as it was typed and stored without the second star, so
that it is there twice. With `cmax_bans` at one, two bans are added, and the
next `ADDBAN` uses the channel that is not there. -/
theorem not_bans_of_run :
    (∃ s reg, run (servStep (setDefaultConf "services.".toList)) empty
        (bannedChannel ["*!*@one".toList, "**!*@one".toList]) = .ok s ∧
      s.chan.cell 0 = some reg ∧
      ¬reg.bans.Pairwise fun left right =>
        irccmp left.mask right.mask = false) ∧
    ∃ s reg, run (servStep { setDefaultConf "services.".toList with
          cmaxBans := 1 }) empty
        (bannedChannel ["*!*@one".toList, "*!*@two".toList]) = .ok s ∧
      s.chan.cell 0 = some reg ∧ ¬reg.bans.length ≤ 1 ∧
      s.sChanAddban { setDefaultConf "services.".toList with cmaxBans := 1 }
        103 1 ⟨"#chan".toList, "*!*@six".toList, "10".toList, "spam".toList, []⟩
        none = .error .nullChannel := by
  constructor
  · have observed : (run (servStep (setDefaultConf "services.".toList)) empty
        (bannedChannel ["*!*@one".toList, "**!*@one".toList])).toOption.map
          (fun s => (s.chan.cell 0).map fun reg => reg.bans.map BanReg.mask) =
        some (some ["*!*@one".toList, "*!*@one".toList]) := by
      decide +kernel
    obtain ⟨s, reached, cell⟩ := Except.exists_of_observed observed
    obtain ⟨reg, found, masks⟩ := Option.map_eq_some_iff.mp cell
    refine ⟨s, reg, reached, found, fun different => ?_⟩
    have apart : (reg.bans.map BanReg.mask).Pairwise fun left right =>
        irccmp left right = false := List.pairwise_map.mpr different
    rw [masks] at apart
    revert apart
    decide
  · have observed : (run (servStep { setDefaultConf "services.".toList with
          cmaxBans := 1 }) empty
        (bannedChannel ["*!*@one".toList, "*!*@two".toList])).toOption.map
          (fun s => ((s.chan.cell 0).map fun reg => reg.bans.length,
            match s.sChanAddban { setDefaultConf "services.".toList with
                cmaxBans := 1 } 103 1
              ⟨"#chan".toList, "*!*@six".toList, "10".toList, "spam".toList,
                []⟩ none with
            | .error stop => some stop
            | .ok _ => none)) =
        some (some 2, some .nullChannel) := by
      decide +kernel
    obtain ⟨s, reached, seen⟩ := Except.exists_of_observed observed
    obtain ⟨cell, stopped⟩ := Prod.mk.inj seen
    obtain ⟨reg, found, two⟩ := Option.map_eq_some_iff.mp cell
    refine ⟨s, reg, reached, found, by omega, ?_⟩
    split at stopped
    · rename_i stop error
      rw [error, Option.some.inj stopped]
    · cases stopped

end Regs

end RatboxServices
