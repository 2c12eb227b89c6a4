import RatboxServices.Serv.RegInv

namespace RatboxServices

open CString

/-! What commands do before they come to the access lists: times and flags are
brought up to date, and the caller is looked up and checked. -/

def UserReg.blocked (reg : UserReg) : Bool :=
  reg.flags.has usFlagsSuspended || reg.flags.has usFlagsNeverloggedin

namespace Regs

structure SameLogin (s t : Regs) : Prop where
  login : t.login = s.login
  user : ∀ u new, t.user.cell u = some new → ∃ old, s.user.cell u = some old ∧
    new.users = old.users ∧ new.regTime = old.regTime ∧
    (new.blocked = true → old.blocked = true)

structure Settled (s t : Regs) : Prop where
  access : SameAccess s t
  logins : SameLogin s t

variable {r s t : Regs}

theorem SameLogin.refl (s : Regs) : SameLogin s s :=
  ⟨rfl, fun _ new found => ⟨new, found, rfl, rfl, fun blocked => blocked⟩⟩

theorem SameLogin.trans (first : SameLogin r s) (second : SameLogin s t) :
    SameLogin r t := by
  refine ⟨second.login.trans first.login, fun u new found => ?_⟩
  obtain ⟨middle, there, users, regTime, blocked⟩ := second.user u new found
  obtain ⟨old, before, users', regTime', blocked'⟩ := first.user u middle there
  exact ⟨old, before, users.trans users', regTime.trans regTime',
    fun last => blocked' (blocked last)⟩

theorem SameLogin.of_core (login : t.login = s.login)
    (core : ∀ u, (t.user.cell u).map UserReg.core =
      (s.user.cell u).map UserReg.core) : SameLogin s t := by
  refine ⟨login, fun u new found => ?_⟩
  have same := core u
  rw [found] at same
  obtain ⟨old, before, equal⟩ := Option.map_eq_some_iff.mp same.symm
  refine ⟨old, before, (congrArg UserReg.users equal).symm,
    (congrArg UserReg.regTime equal).symm, fun blocked => ?_⟩
  have flags : old.core.flags = new.core.flags := congrArg UserReg.flags equal
  change old.flags = new.flags at flags
  unfold UserReg.blocked at blocked ⊢
  rwa [flags]

theorem SameLogin.modifyUser (s : Regs) (target : UserRegId)
    {change : UserReg → UserReg}
    (users : ∀ reg, (change reg).users = reg.users ∧
      (change reg).regTime = reg.regTime)
    (blocked : ∀ reg, (change reg).blocked = true → reg.blocked = true) :
    SameLogin s (s.modifyUser target change) := by
  refine ⟨rfl, fun u new found => ?_⟩
  obtain ⟨old, before, changed⟩ := Heap.cell_of_modify found
  refine ⟨old, before, ?_⟩
  rw [changed]
  split
  · exact ⟨(users old).1, (users old).2, blocked old⟩
  · exact ⟨rfl, rfl, fun blocked => blocked⟩

theorem SameLogin.modifyChan (s : Regs) (target : ChanRegId)
    (change : ChanReg → ChanReg) : SameLogin s (s.modifyChan target change) :=
  .of_core rfl fun _ => rfl

namespace Settled

theorem refl (s : Regs) : Settled s s :=
  ⟨.refl s, .refl s⟩

theorem trans (first : Settled r s) (second : Settled s t) : Settled r t :=
  ⟨first.access.trans second.access, first.logins.trans second.logins⟩

theorem modifyUser (s : Regs) (target : UserRegId)
    {change : UserReg → UserReg}
    (kept : ∀ reg, UserReg.kept (change reg) = UserReg.kept reg)
    (users : ∀ reg, (change reg).users = reg.users ∧
      (change reg).regTime = reg.regTime)
    (blocked : ∀ reg, (change reg).blocked = true → reg.blocked = true) :
    Settled s (s.modifyUser target change) :=
  ⟨.modifyUser s target kept, .modifyUser s target users blocked⟩

theorem modifyChan (s : Regs) (target : ChanRegId) {change : ChanReg → ChanReg}
    (kept : ∀ reg, ChanReg.kept (change reg) = ChanReg.kept reg) :
    Settled s (s.modifyChan target change) :=
  ⟨.modifyChan s target kept, .modifyChan s target change⟩

theorem touchUser (now : Int) (target : UserRegId) (s : Regs) :
    Settled s (s.touchUser now target) := by
  refine .modifyUser s target (fun _ => rfl) (fun _ => ⟨rfl, rfl⟩)
    fun reg blocked => ?_
  simpa [UserReg.blocked, usFlagsNeedupdate, usFlagsSuspended,
    usFlagsNeverloggedin] using blocked

theorem touchChan (now : Int) (target : ChanRegId) (s : Regs) :
    Settled s (s.touchChan now target) :=
  .modifyChan s target fun _ => rfl

theorem expireUserSuspend (now : Int) (target : UserRegId) (s : Regs) :
    Settled s (s.expireUserSuspend now target) := by
  refine .modifyUser s target (fun _ => rfl) (fun _ => ⟨rfl, rfl⟩)
    fun reg blocked => ?_
  simp only [UserReg.blocked, Word.has_clear, usFlagsSuspended,
    usFlagsNeverloggedin] at blocked ⊢
  simpa using Or.inr (by simpa using blocked)

theorem expireIfDue (now : Int) (target : ChanRegId) (s : Regs) :
    Settled s (s.expireIfDue now target) := by
  unfold Regs.expireIfDue
  split
  · split
    · exact .modifyChan s target fun _ => rfl
    · exact .refl s
  · exact .refl s

end Settled

theorem SameAccess.userNamed (same : SameAccess s t) (name : CString) :
    t.userNamed name = s.userNamed name := by
  funext u
  have equal := same.user_map Prod.fst u
  unfold Regs.userNamed
  cases left : t.user.cell u <;> cases right : s.user.cell u <;>
    simp_all [UserReg.kept]

theorem SameAccess.chanNamed (same : SameAccess s t) (name : CString) :
    t.chanNamed name = s.chanNamed name := by
  funext c
  have equal := same.chan_map Prod.fst c
  unfold Regs.chanNamed
  cases left : t.chan.cell c <;> cases right : s.chan.cell c <;>
    simp_all [ChanReg.kept]

theorem SameAccess.findUserReg (same : SameAccess s t) (name : CString) :
    t.findUserReg name = s.findUserReg name := by
  unfold Regs.findUserReg
  rw [same.userTable, same.userNamed]

theorem SameAccess.findChannelReg (same : SameAccess s t) (name : CString) :
    t.findChannelReg name = s.findChannelReg name := by
  unfold Regs.findChannelReg
  rw [same.chanTable, same.chanNamed]

theorem SameAccess.entryIn (same : SameAccess s t) : t.entryIn = s.entryIn := by
  funext c m
  unfold Regs.entryIn
  rw [same.member]

theorem SameAccess.findMemberReg (same : SameAccess s t)
    (account : Option UserRegId) (c : ChanRegId) :
    t.findMemberReg account c = s.findMemberReg account c := by
  cases account with
  | none => rfl
  | some u =>
      have equal := same.user_map (fun kept => kept.2.2) u
      unfold Regs.findMemberReg derefUser
      rw [same.entryIn]
      cases left : t.user.cell u <;> cases right : s.user.cell u <;>
        simp_all [UserReg.kept, bind, Except.bind]

theorem Settled.loginOf (same : Settled s t) (client : ClientId) :
    t.loginOf client = s.loginOf client := by
  unfold Regs.loginOf
  rw [same.logins.login]

theorem derefUser_eq_ok {u : UserRegId} {reg : UserReg} :
    s.derefUser u = .ok reg ↔ s.user.cell u = some reg := by
  unfold derefUser
  cases s.user.cell u with
  | none => simp
  | some other => simp

theorem findMemberReg_eq_ok {u : UserRegId} {c : ChanRegId}
    {found : Option MemberRegId} :
    s.findMemberReg (some u) c = .ok found ↔
      ∃ reg, s.user.cell u = some reg ∧
        reg.channels.find? (s.entryIn c) = found := by
  unfold findMemberReg
  dsimp only
  rw [Except.bind_eq_ok]
  constructor
  · rintro ⟨reg, there, equal⟩
    exact ⟨reg, derefUser_eq_ok.mp there, Except.ok.inj equal⟩
  · rintro ⟨reg, there, equal⟩
    exact ⟨reg, derefUser_eq_ok.mpr there, congrArg Except.ok equal⟩

theorem entryIn_iff {c : ChanRegId} {m : MemberRegId} :
    s.entryIn c m = true ↔
      ∃ member, s.member.cell m = some member ∧ member.channelReg = c := by
  unfold entryIn
  cases s.member.cell m with
  | none => simp
  | some member => simp

theorem Wired.absent (wired : s.Wired) {u : UserRegId} {c : ChanRegId}
    (missing : s.findMemberReg (some u) c = .ok none) (m : MemberRegId)
    (other : MemberReg) (used : s.member.cell m = some other)
    (owner : other.userReg = u) : other.channelReg ≠ c := by
  intro inside
  obtain ⟨reg, cell, none_⟩ := findMemberReg_eq_ok.mp missing
  have channels : s.channelsOf u = some reg.channels := by
    unfold channelsOf
    rw [cell]
    rfl
  have listed := ((wired.channels u _ channels).mem_iff m).mpr
    ⟨other, used, owner⟩
  have fails := List.find?_eq_none.mp none_ m listed
  exact fails (entryIn_iff.mpr ⟨other, used, inside⟩)

def lockedOut (s : Regs) (now : Int) (target : ChanRegId) : Bool :=
  match s.chan.cell target with
  | some reg => reg.flags.has csFlagsSuspended && !reg.suspendExpired now
  | none => false

theorem expireIfDue_isSuspended (s : Regs) (now : Int) (target : ChanRegId) :
    (s.expireIfDue now target).isSuspended target = s.lockedOut now target := by
  unfold expireIfDue lockedOut
  cases found : s.chan.cell target with
  | none => simp [isSuspended, found]
  | some reg =>
      by_cases due : reg.suspendExpired now = true
      · simp [due, isSuspended, expireChanSuspend, modifyChan, found]
      · simp [due, isSuspended, found]

/-- The user has an entry in the channel that allows a command of `level`. -/
structure Admitted (s : Regs) (now : Int) (client : ClientId)
    (chname : CString) (level : Int) (account : UserRegId)
    (entry : MemberRegId) (caller : MemberReg) : Prop where
  login : s.loginOf client = some account
  channel : s.findChannelReg chname = some caller.channelReg
  opened : s.lockedOut now caller.channelReg = false
  found : s.findMemberReg (some account) caller.channelReg = .ok (some entry)
  used : s.member.cell entry = some caller
  level : level ≤ caller.level
  active : caller.suspend = 0

theorem asUser_eq_ok {now : Int} {client : ClientId}
    {body : UserRegId → Regs → Except RegStop Regs}
    (returned : s.asUser now client body = .ok t) :
    t = s ∨ ∃ account reg, s.loginOf client = some account ∧
      s.user.cell account = some reg ∧
      body account (s.touchUser now account) = .ok t := by
  unfold asUser at returned
  split at returned
  · exact Or.inl (Except.ok.inj returned).symm
  · rename_i account login
    obtain ⟨reg, found, rest⟩ := Except.bind_eq_ok.mp returned
    exact Or.inr ⟨account, reg, login, derefUser_eq_ok.mp found, rest⟩

theorem verifyMemberReg_eq_ok {now : Int} {client : ClientId}
    {target : ChanRegId} {level : Int} {hit : Option MemberRegId}
    (returned : s.verifyMemberReg now client target level = .ok (hit, t)) :
    Settled s t ∧ ∀ entry, hit = some entry → ∃ caller,
      s.lockedOut now target = false ∧
      s.findMemberReg (s.loginOf client) target = .ok (some entry) ∧
      s.member.cell entry = some caller ∧ caller.channelReg = target ∧
      level ≤ caller.level ∧ caller.suspend = 0 := by
  unfold verifyMemberReg at returned
  dsimp only at returned
  have expired := Settled.expireIfDue now target s
  rw [expireIfDue_isSuspended] at returned
  split at returned
  · cases returned
    exact ⟨expired, fun entry found => by cases found⟩
  rename_i unlocked
  obtain ⟨middle, looked, returned⟩ := Except.bind_eq_ok.mp returned
  rw [expired.loginOf, expired.access.findMemberReg] at looked
  cases middle with
  | none =>
      cases returned
      exact ⟨expired, fun entry found => by cases found⟩
  | some own =>
      dsimp only at returned
      split at returned
      · rename_i allowed
        cases returned
        refine ⟨expired.trans (Settled.touchChan now target _), ?_⟩
        rintro entry ⟨⟩
        cases login : s.loginOf client with
        | none =>
            rw [login] at looked
            cases looked
        | some account =>
            rw [login] at looked
            obtain ⟨reg, -, first⟩ := findMemberReg_eq_ok.mp looked
            obtain ⟨caller, used, inside⟩ :=
              entryIn_iff.mp (List.find?_some first)
            unfold allows at allowed
            rw [expired.access.member, used] at allowed
            simp only [Bool.and_eq_true, decide_eq_true_eq, beq_iff_eq]
              at allowed
            exact ⟨caller, Bool.eq_false_iff.mpr unlocked, looked, used,
              inside, allowed.1, allowed.2⟩
      · cases returned
        exact ⟨expired, fun entry found => by cases found⟩

theorem asMember_eq_ok {now : Int} {client : ClientId} {chname : CString}
    {level : Int}
    {body : MemberRegId → MemberReg → Regs → Except RegStop Regs}
    (returned : s.asMember now client chname level body = .ok t) :
    Settled s t ∨ ∃ account entry caller r, Settled s r ∧
      Admitted s now client chname level account entry caller ∧
      body entry caller r = .ok t := by
  obtain rfl | ⟨account, reg, login, cell, rest⟩ := asUser_eq_ok returned
  · exact Or.inl (.refl _)
  have touched := Settled.touchUser now account s
  split at rest
  · cases rest
    exact Or.inl touched
  rename_i target found
  obtain ⟨⟨hit, r⟩, verified, rest⟩ := Except.bind_eq_ok.mp rest
  obtain ⟨settled, looked⟩ := verifyMemberReg_eq_ok verified
  have noted := touched.trans settled
  cases hit with
  | none =>
      cases rest
      exact Or.inl noted
  | some entry =>
      obtain ⟨caller, opened, member, used, inside, high, active⟩ :=
        looked entry rfl
      rw [touched.access.member] at used
      have after := used
      rw [← noted.access.member] at after
      dsimp only at rest
      rw [after] at rest
      rw [touched.loginOf, login, touched.access.findMemberReg] at member
      rw [touched.access.findChannelReg] at found
      refine Or.inr ⟨account, entry, caller, r, noted, ⟨login, ?_, ?_, ?_,
        used, high, active⟩, rest⟩
      · rw [inside]
        exact found
      · rw [inside]
        exact opened
      · rw [inside]
        exact member

theorem onEntry_eq_ok {target : AccountArg} {caller : MemberReg}
    {body : MemberRegId → MemberReg → Regs → Except RegStop Regs}
    (returned : s.onEntry target caller body = .ok t) :
    t = s ∨ ∃ account entry member, s.findUserRegNick target = some account ∧
      s.findMemberReg (some account) caller.channelReg = .ok (some entry) ∧
      s.member.cell entry = some member ∧ body entry member s = .ok t := by
  unfold onEntry at returned
  split at returned
  · exact Or.inl (Except.ok.inj returned).symm
  · rename_i account named
    obtain ⟨hit, found, rest⟩ := Except.bind_eq_ok.mp returned
    cases hit with
    | none => exact Or.inl (Except.ok.inj rest).symm
    | some entry =>
        dsimp only at rest
        split at rest
        · exact Or.inl (Except.ok.inj rest).symm
        · rename_i member used
          exact Or.inr ⟨account, entry, member, named, found, used, rest⟩

end Regs

end RatboxServices
