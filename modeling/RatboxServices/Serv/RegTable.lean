import RatboxServices.Serv.RegMove

namespace RatboxServices

open CString

/-! The tables of accounts and of channels, and the names in them. -/

def UserReg.names (reg : UserReg) : CString × CString :=
  (reg.name, reg.given)

namespace Regs

variable {conf : ServConfig} {Given : CString → Prop} {Broken : Prop}
  {r s t : Regs}

structure SameNames (s t : Regs) : Prop where
  userTable : t.userTable = s.userTable
  users : t.users = s.users
  names : ∀ u, (t.user.cell u).map UserReg.names =
    (s.user.cell u).map UserReg.names

theorem SameAccess.sameNames (same : SameAccess s t) : SameNames s t where
  userTable := same.userTable
  users := same.users
  names := same.user_map fun kept => (kept.1, kept.2.1)

theorem SameAccounts.sameNames (same : SameAccounts s t) : SameNames s t := by
  refine ⟨same.userTable, same.users, fun u => ?_⟩
  have equal := congrArg (Option.map UserReg.names) (same.core u)
  rw [Option.map_map, Option.map_map] at equal
  exact equal

theorem SameNames.cell (same : SameNames s t) {u : UserRegId} {new : UserReg}
    (found : t.user.cell u = some new) :
    ∃ old, s.user.cell u = some old ∧ old.name = new.name ∧
      old.given = new.given := by
  have equal := same.names u
  rw [found] at equal
  obtain ⟨old, before, names⟩ := Option.map_eq_some_iff.mp equal.symm
  exact ⟨old, before, congrArg Prod.fst names, congrArg Prod.snd names⟩

theorem SameNames.symm (same : SameNames s t) : SameNames t s :=
  ⟨same.userTable.symm, same.users.symm, fun u => (same.names u).symm⟩

theorem Move.names (move : Move conf Given Broken s t) :
    SameNames s t ∨
      (∃ reg : UserReg, Given reg.given ∧ reg.given ≠ [] ∧
        s.findUserReg reg.given = none ∧
        reg.name = strlcpy (conf.userRegNameLen + 1) reg.given ∧
        reg.name ∉ s.users ∧
        t = { s.addUserReg reg with users := s.users ++ [reg.name] }) ∨
      ∃ account, t = s.freeUserReg conf account := by
  have same {t : Regs} (names : SameNames s t) :
      SameNames s t ∨
      (∃ reg : UserReg, Given reg.given ∧ reg.given ≠ [] ∧
        s.findUserReg reg.given = none ∧
        reg.name = strlcpy (conf.userRegNameLen + 1) reg.given ∧
        reg.name ∉ s.users ∧
        t = { s.addUserReg reg with users := s.users ++ [reg.name] }) ∨
      ∃ account, t = s.freeUserReg conf account := Or.inl names
  cases move with
  | settings settled => exact same settled.access.sameNames
  | connect client new => exact same (SameAccess.setLogin s client none).sameNames
  | link client account reg out found opened =>
      exact same (SameAccess.linkUser s client account).sameNames
  | leave client account inside =>
      have left : SameAccess s (s.modifyUser account fun reg =>
          { reg with users := Dlink.findDestroy client reg.users }) :=
        .modifyUser _ account fun _ => rfl
      exact same (left.trans (.setLogin _ client none)).sameNames
  | torn access broken => exact same access.sameNames
  | exit client out => exact same ⟨rfl, rfl, fun _ => rfl⟩
  | logout account => exact same (SameAccess.logoutUserReg s account).sameNames
  | block account change empty kept users =>
      exact same (SameAccess.modifyUser s account kept).sameNames
  | newUser reg given some_ new copied unique channels users =>
      exact Or.inr (Or.inl ⟨reg, given, some_, new, copied, unique, rfl⟩)
  | dropUser account reg found unused => exact Or.inr (Or.inr ⟨account, rfl⟩)
  | newChan now name account lastmod reg found new =>
      refine same ⟨rfl, rfl, fun u => ?_⟩
      show ((s.user.modify account _).cell u).map UserReg.names = _
      apply Heap.modify_cell_map
      exact fun _ => rfl
  | dropChan target =>
      refine same ?_
      unfold destroyChannelReg
      split
      · exact ⟨rfl, rfl, fun _ => rfl⟩
      · rename_i reg found
        have freed := SameAccounts.freeMembers conf
          (s.deleteMembers fun row => row.chname == reg.name) false reg.users
        have names := freed.sameNames
        exact ⟨names.userTable, names.users, names.names⟩
  | add member owner channel new level tame active fresh =>
      refine same ⟨rfl, rfl, fun u => ?_⟩
      show ((s.user.modify member.userReg _).cell u).map UserReg.names = _
      apply Heap.modify_cell_map
      exact fun _ => rfl
  | set target member change row found kept proper written bants =>
      exact same ⟨rfl, rfl, fun _ => rfl⟩
  | remove target member found =>
      have names := (SameAccounts.freeMember conf
        (s.deleteMemberDbEntry member) true target).sameNames
      exact same ⟨names.userTable, names.users, names.names⟩

theorem strlcpy_ne_nil {size : Nat} {text : CString} (room : 0 < size)
    (some_ : text ≠ []) : strlcpy (size + 1) text ≠ [] := by
  unfold strlcpy
  rw [Nat.add_sub_cancel]
  intro none_
  rw [List.take_eq_nil_iff] at none_
  obtain zero | empty := none_
  · omega
  · exact some_ empty

structure AccountInv (s : Regs) : Prop where
  table : Exactly s.userTable (s.user.Has fun _ => True)
  known : ∀ u reg, s.user.cell u = some reg → reg.name ∈ s.users
  given : ∀ u reg, s.user.cell u = some reg → reg.given ≠ []
  named : ∀ u reg, s.user.cell u = some reg → reg.name ≠ []
  unique : ∀ u v left right, s.user.cell u = some left →
    s.user.cell v = some right → left.name = right.name → u = v

theorem AccountInv.same (inv : AccountInv s) (same : SameNames s t) :
    AccountInv t := by
  have live (u : UserRegId) : s.user.Has (fun _ => True) u ↔
      t.user.Has (fun _ => True) u := by
    constructor
    · rintro ⟨old, found, -⟩
      obtain ⟨new, there, -⟩ := same.symm.cell found
      exact ⟨new, there, trivial⟩
    · rintro ⟨new, found, -⟩
      obtain ⟨old, there, -⟩ := same.cell found
      exact ⟨old, there, trivial⟩
  refine ⟨?_, ?_, ?_, ?_, ?_⟩
  · rw [same.userTable]
    exact inv.table.congr live
  · intro u reg found
    obtain ⟨old, before, name, -⟩ := same.cell found
    rw [same.users, ← name]
    exact inv.known u old before
  · intro u reg found
    obtain ⟨old, before, -, given⟩ := same.cell found
    rw [← given]
    exact inv.given u old before
  · intro u reg found
    obtain ⟨old, before, name, -⟩ := same.cell found
    rw [← name]
    exact inv.named u old before
  · intro u v left right first second names
    obtain ⟨old, before, name, -⟩ := same.cell first
    obtain ⟨old', before', name', -⟩ := same.cell second
    rw [← name, ← name'] at names
    exact inv.unique u v old old' before before' names

theorem freeUserReg_names (conf : ServConfig) (s : Regs)
    (account : UserRegId) {reg : UserReg} (found : s.user.cell account = some reg) :
    SameNames
      { s with
        userTable := Dlink.delete account s.userTable
        users := s.users.filter fun name => name != reg.name
        user := s.user.free account }
      (s.freeUserReg conf account) := by
  unfold freeUserReg
  rw [found]
  have same := SameAccounts.freeMembers conf
    (({ s with userTable := Dlink.delete account s.userTable } :
      Regs).deleteMembers fun row => row.username == reg.name) true reg.channels
  have names := same.sameNames
  refine ⟨names.userTable, ?_, fun u => ?_⟩
  · exact congrArg (List.filter fun name => name != reg.name) names.users
  · dsimp only
    rw [Heap.free_cell, Heap.free_cell]
    split
    · rfl
    · exact names.names u

theorem Move.accountInv (move : Move conf Given Broken s t)
    (inv : AccountInv s) : AccountInv t := by
  obtain same | ⟨reg, -, some_, -, copied, new, rfl⟩ | ⟨account, rfl⟩ :=
    move.names
  · exact inv.same same
  · have either {u : UserRegId} {other : UserReg}
        (found : (s.user.alloc reg).cell u = some other) :
        reg = other ∨ s.user.cell u = some other := by
      rw [Heap.alloc_cell] at found
      split at found
      · exact Or.inl (Option.some.inj found)
      · exact Or.inr found
    refine ⟨inv.table.alloc_in trivial, ?_, ?_, ?_, ?_⟩
    · intro u other found
      obtain rfl | there := either found
      · exact List.mem_append_right _ (List.mem_singleton_self _)
      · exact List.mem_append_left _ (inv.known u other there)
    · intro u other found
      obtain rfl | there := either found
      · exact some_
      · exact inv.given u other there
    · intro u other found
      obtain rfl | there := either found
      · rw [copied]
        exact strlcpy_ne_nil conf.someName some_
      · exact inv.named u other there
    · intro u v left right first second names
      simp only [addUserReg, Heap.alloc_cell] at first second
      split at first
      · rename_i equal
        cases first
        split at second
        · rename_i equal'
          exact equal.trans equal'.symm
        · exact absurd (names ▸ inv.known v right second) new
      · split at second
        · cases second
          exact absurd (names ▸ inv.known u left first) new
        · exact inv.unique u v left right first second names
  · cases found : s.user.cell account with
    | none =>
        unfold freeUserReg
        rw [found]
        exact inv
    | some reg =>
        have rest : AccountInv
            { s with
              userTable := Dlink.delete account s.userTable
              users := s.users.filter fun name => name != reg.name
              user := s.user.free account } := by
          have stays {u : UserRegId} {other : UserReg}
              (after : (s.user.free account).cell u = some other) :
              u ≠ account ∧ s.user.cell u = some other := by
            rw [Heap.free_cell] at after
            split at after
            · cases after
            · rename_i different
              exact ⟨different, after⟩
          refine ⟨inv.table.free_in, ?_, ?_, ?_, ?_⟩
          · intro u other after
            obtain ⟨different, there⟩ := stays after
            refine List.mem_filter.mpr ⟨inv.known u other there, ?_⟩
            rw [bne_iff_ne]
            exact fun equal => different
              (inv.unique u account other reg there found equal)
          · intro u other after
            exact inv.given u other (stays after).2
          · intro u other after
            exact inv.named u other (stays after).2
          · intro u v left right first second
            exact inv.unique u v left right (stays first).2 (stays second).2
        exact rest.same (freeUserReg_names conf s account found)

structure SameChans (s t : Regs) : Prop where
  chanTable : t.chanTable = s.chanTable
  names : ∀ c, (t.chan.cell c).map ChanReg.name =
    (s.chan.cell c).map ChanReg.name

theorem SameAccess.sameChans (same : SameAccess s t) : SameChans s t where
  chanTable := same.chanTable
  names := same.chan_map Prod.fst

theorem SameChans.cell (same : SameChans s t) {c : ChanRegId} {new : ChanReg}
    (found : t.chan.cell c = some new) :
    ∃ old, s.chan.cell c = some old ∧ old.name = new.name := by
  have equal := same.names c
  rw [found] at equal
  exact Option.map_eq_some_iff.mp equal.symm

theorem SameChans.symm (same : SameChans s t) : SameChans t s :=
  ⟨same.chanTable.symm, fun c => (same.names c).symm⟩

theorem SameChans.modifyChan (s : Regs) (target : ChanRegId)
    {change : ChanReg → ChanReg} (kept : ∀ reg, (change reg).name = reg.name) :
    SameChans s (s.modifyChan target change) := by
  refine ⟨rfl, fun c => ?_⟩
  exact Heap.modify_cell_map kept s.chan target c

structure ChannelInv (s : Regs) : Prop where
  table : Exactly s.chanTable (s.chan.Has fun _ => True)
  named : ∀ c reg, s.chan.cell c = some reg → reg.name ≠ []
  unique : ∀ c d left right, s.chan.cell c = some left →
    s.chan.cell d = some right → irccmp left.name right.name = true → c = d

theorem ChannelInv.same (inv : ChannelInv s) (same : SameChans s t) :
    ChannelInv t := by
  have live (c : ChanRegId) : s.chan.Has (fun _ => True) c ↔
      t.chan.Has (fun _ => True) c := by
    constructor
    · rintro ⟨old, found, -⟩
      obtain ⟨new, there, -⟩ := same.symm.cell found
      exact ⟨new, there, trivial⟩
    · rintro ⟨new, found, -⟩
      obtain ⟨old, there, -⟩ := same.cell found
      exact ⟨old, there, trivial⟩
  refine ⟨?_, ?_, ?_⟩
  · rw [same.chanTable]
    exact inv.table.congr live
  · intro c reg found
    obtain ⟨old, before, name⟩ := same.cell found
    rw [← name]
    exact inv.named c old before
  · intro c d left right first second names
    obtain ⟨old, before, name⟩ := same.cell first
    obtain ⟨old', before', name'⟩ := same.cell second
    rw [← name, ← name'] at names
    exact inv.unique c d old old' before before' names

theorem ChannelInv.freeChan (inv : ChannelInv s) (target : ChanRegId) :
    ChannelInv (s.freeChannelReg target) := by
  have stays {c : ChanRegId} {reg : ChanReg}
      (after : (s.freeChannelReg target).chan.cell c = some reg) :
      s.chan.cell c = some reg := by
    unfold freeChannelReg at after
    rw [Heap.free_cell] at after
    split at after
    · cases after
    · exact after
  refine ⟨inv.table.free_in, ?_, ?_⟩
  · intro c reg after
    exact inv.named c reg (stays after)
  · intro c d left right first second
    exact inv.unique c d left right (stays first) (stays second)

theorem ChannelInv.freeMember (inv : ChannelInv s) (upgrade : Bool)
    (target : MemberRegId) :
    ChannelInv (s.freeMemberReg conf upgrade target) := by
  have unlinked (member : MemberReg) :
      ChannelInv (s.unlinkMember target member) := by
    have left : SameChans s (s.modifyChan member.channelReg fun reg =>
        { reg with users := Dlink.delete target reg.users }) :=
      .modifyChan s _ fun _ => rfl
    exact inv.same ⟨left.chanTable, left.names⟩
  have promoted {r : Regs} (inv : ChannelInv r) (top : MemberRegId) :
      ChannelInv (r.promote conf top) := by
    unfold promote
    split
    · exact inv
    · exact inv.same ⟨rfl, fun _ => rfl⟩
  unfold freeMemberReg
  split
  · exact inv
  · rename_i member used
    dsimp only
    split
    · exact unlinked member
    · split
      · exact (unlinked member).freeChan _
      · split
        · split
          · exact promoted (unlinked member) _
          · exact unlinked member
        · exact unlinked member

theorem ChannelInv.freeMembers (conf : ServConfig) (inv : ChannelInv s)
    (upgrade : Bool) (entries : List MemberRegId) :
    ChannelInv (entries.foldl
      (fun s entry => s.freeMemberReg conf upgrade entry) s) := by
  induction entries generalizing s with
  | nil => exact inv
  | cons first rest ih => exact ih (inv.freeMember upgrade first)

theorem ChannelInv.absent (inv : ChannelInv s) {name : CString}
    (missing : s.findChannelReg name = none) {c : ChanRegId} {reg : ChanReg}
    (found : s.chan.cell c = some reg) : irccmp reg.name name = false := by
  by_contra same
  rw [Bool.not_eq_false] at same
  have listed := (inv.table.mem_iff c).mpr ⟨reg, found, trivial⟩
  refine List.find?_eq_none.mp missing c listed ?_
  unfold chanNamed
  simp [found, same, hashChannel_cased same]

theorem Move.channelInv (move : Move conf Given Broken s t)
    (inv : ChannelInv s) : ChannelInv t := by
  cases move with
  | settings settled => exact inv.same settled.access.sameChans
  | connect client new =>
      exact inv.same (SameAccess.setLogin s client none).sameChans
  | link client account reg out found opened =>
      exact inv.same ⟨rfl, fun _ => rfl⟩
  | leave client account inside => exact inv.same ⟨rfl, fun _ => rfl⟩
  | torn access broken => exact inv.same access.sameChans
  | exit client out => exact inv.same ⟨rfl, fun _ => rfl⟩
  | logout account =>
      exact inv.same (SameAccess.logoutUserReg s account).sameChans
  | block account change empty kept users =>
      exact inv.same ⟨rfl, fun _ => rfl⟩
  | newUser reg given some_ new copied unique channels users =>
      exact inv.same ⟨rfl, fun _ => rfl⟩
  | dropUser account reg found unused =>
      unfold freeUserReg
      rw [found]
      have start : ChannelInv
          (({ s with userTable := Dlink.delete account s.userTable } :
            Regs).deleteMembers fun row => row.username == reg.name) :=
        inv.same ⟨rfl, fun _ => rfl⟩
      exact (start.freeMembers conf true reg.channels).same
        ⟨rfl, fun _ => rfl⟩
  | newChan now name account lastmod reg found new =>
      have opened : ChannelInv (s.withChan
          { name := name.text, lastTime := now }) := by
        refine ⟨inv.table.alloc_in trivial, ?_, ?_⟩
        · intro c reg found
          unfold withChan at found
          rw [Heap.alloc_cell] at found
          split at found
          · cases found
            exact name.nonempty
          · exact inv.named c reg found
        · intro c d left right first second names
          unfold withChan at first second
          rw [Heap.alloc_cell] at first second
          split at first
          · rename_i equal
            cases first
            split at second
            · rename_i equal'
              exact equal.trans equal'.symm
            · have other := inv.absent new second
              rw [irccmp_comm names] at other
              cases other
          · split at second
            · cases second
              have other := inv.absent new first
              rw [names] at other
              cases other
            · exact inv.unique c d left right first second names
      have entered : SameChans
          (s.withChan { name := name.text, lastTime := now })
          ((s.withChan { name := name.text, lastTime := now }).modifyChan
            s.chan.next fun reg =>
              { reg with users := Dlink.add s.member.next reg.users }) :=
        .modifyChan _ _ fun _ => rfl
      exact opened.same ⟨entered.chanTable, entered.names⟩
  | dropChan target =>
      unfold destroyChannelReg
      split
      · exact inv
      · rename_i reg found
        have start : ChannelInv
            (s.deleteMembers fun row => row.chname == reg.name) :=
          inv.same ⟨rfl, fun _ => rfl⟩
        exact start.freeMembers conf false reg.users
  | add member owner channel new level tame active fresh =>
      have entered : SameChans s (s.modifyChan member.channelReg fun reg =>
          { reg with users := Dlink.add s.member.next reg.users }) :=
        .modifyChan _ _ fun _ => rfl
      exact inv.same ⟨entered.chanTable, entered.names⟩
  | set target member change row found kept proper written bants =>
      exact inv.same ⟨rfl, fun _ => rfl⟩
  | remove target member found =>
      have deleted : ChannelInv (s.deleteMemberDbEntry member) :=
        inv.same ⟨rfl, fun _ => rfl⟩
      exact deleted.freeMember true target

theorem ChannelInv.found (inv : ChannelInv s) {c : ChanRegId} {reg : ChanReg}
    (used : s.chan.cell c = some reg) : s.findChannelReg reg.name = some c := by
  have hit : s.chanNamed reg.name c = true := by
    unfold chanNamed
    simp [used, irccmp_iff.mpr rfl]
  have listed := (inv.table.mem_iff c).mpr ⟨reg, used, trivial⟩
  cases first : s.findChannelReg reg.name with
  | none => exact absurd hit (List.find?_eq_none.mp first c listed)
  | some d =>
      have named := List.find?_some first
      unfold chanNamed at named
      cases cell : s.chan.cell d with
      | none =>
          rw [cell] at named
          cases named
      | some other =>
          simp only [cell, Bool.and_eq_true] at named
          rw [inv.unique d c other reg cell used named.2]

theorem SameNames.findUserReg (same : SameNames s t) (name : CString) :
    t.findUserReg name = s.findUserReg name := by
  have named : t.userNamed name = s.userNamed name := by
    funext u
    have equal := congrArg (Option.map Prod.fst) (same.names u)
    unfold userNamed
    cases left : t.user.cell u <;> cases right : s.user.cell u <;>
      simp_all [UserReg.names]
  unfold Regs.findUserReg
  rw [same.userTable, named]

theorem SameChans.findChannelReg (same : SameChans s t) (name : CString) :
    t.findChannelReg name = s.findChannelReg name := by
  have named : t.chanNamed name = s.chanNamed name := by
    funext c
    have equal := same.names c
    unfold chanNamed
    cases left : t.chan.cell c <;> cases right : s.chan.cell c <;> simp_all
  unfold Regs.findChannelReg
  rw [same.chanTable, named]

theorem Moves.tables (moves : Moves conf Given Broken s t)
    (accounts : AccountInv s) (channels : ChannelInv s) :
    AccountInv t ∧ ChannelInv t := by
  induction moves with
  | refl => exact ⟨accounts, channels⟩
  | tail _ last ih => exact ⟨last.accountInv ih.1, last.channelInv ih.2⟩

end Regs

end RatboxServices
