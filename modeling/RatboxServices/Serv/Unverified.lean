import RatboxServices.Serv.Accounts

namespace RatboxServices

open CString

/-! An account that has to be activated stays so, whatever else is done to
it. -/

def UserReg.unverified (reg : UserReg) : Bool :=
  reg.flags.has usFlagsNeverloggedin

namespace Regs

variable {conf : ServConfig} {r s t : Regs} {now : Int} {client : ClientId}
  {chname : CString}
  {target : AccountArg}

structure StaysUnverified (s t : Regs) : Prop where
  user : ∀ u new, t.user.cell u = some new → ∃ old, s.user.cell u = some old ∧
    (old.unverified = true → new.unverified = true)

namespace StaysUnverified

theorem of_user (same : t.user = s.user) : StaysUnverified s t :=
  ⟨fun _ new found => ⟨new, same ▸ found, fun flag => flag⟩⟩

theorem refl (s : Regs) : StaysUnverified s s :=
  .of_user rfl

theorem trans (first : StaysUnverified r s) (second : StaysUnverified s t) :
    StaysUnverified r t := by
  refine ⟨fun u new found => ?_⟩
  obtain ⟨middle, there, later⟩ := second.user u new found
  obtain ⟨old, before, earlier⟩ := first.user u middle there
  exact ⟨old, before, fun flag => later (earlier flag)⟩

theorem modifyUser (s : Regs) (target : UserRegId)
    {change : UserReg → UserReg}
    (flag : ∀ reg, reg.unverified = true → (change reg).unverified = true) :
    StaysUnverified s (s.modifyUser target change) := by
  refine ⟨fun u new found => ?_⟩
  obtain ⟨old, before, changed⟩ := Heap.cell_of_modify found
  refine ⟨old, before, fun set => ?_⟩
  rw [changed]
  split
  · exact flag old set
  · exact set

theorem of_core (same : ∀ u, (t.user.cell u).map UserReg.core =
    (s.user.cell u).map UserReg.core) : StaysUnverified s t := by
  refine ⟨fun u new found => ?_⟩
  have equal := same u
  rw [found] at equal
  obtain ⟨old, before, core⟩ := Option.map_eq_some_iff.mp equal.symm
  refine ⟨old, before, fun flag => ?_⟩
  have flags : old.core.flags = new.core.flags := congrArg UserReg.flags core
  change old.flags = new.flags at flags
  unfold UserReg.unverified at flag ⊢
  rwa [← flags]

theorem foldl {α : Type} {turn : Regs → α → Regs}
    (one : ∀ s item, StaysUnverified s (turn s item)) (list : List α)
    (s : Regs) : StaysUnverified s (list.foldl turn s) := by
  induction list generalizing s with
  | nil => exact .refl s
  | cons first rest ih => exact (one s first).trans (ih _)

theorem touchUser (now : Int) (target : UserRegId) (s : Regs) :
    StaysUnverified s (s.touchUser now target) := by
  refine .modifyUser s target fun reg flag => ?_
  unfold UserReg.unverified at flag ⊢
  simp [flag]

theorem expireUserSuspend (now : Int) (target : UserRegId) (s : Regs) :
    StaysUnverified s (s.expireUserSuspend now target) := by
  refine .modifyUser s target fun reg flag => ?_
  unfold UserReg.unverified at flag ⊢
  rw [Word.has_clear, flag]
  rfl

theorem setLogin (s : Regs) (client : ClientId) (account : Option UserRegId) :
    StaysUnverified s (s.setLogin client account) :=
  .of_user rfl

theorem linkUser (s : Regs) (client : ClientId) (account : UserRegId) :
    StaysUnverified s (s.linkUser client account) :=
  (setLogin s client (some account)).trans
    (.modifyUser _ account fun _ flag => flag)

theorem freeUserReg (conf : ServConfig) (s : Regs) (account : UserRegId) :
    StaysUnverified s (s.freeUserReg conf account) := by
  unfold Regs.freeUserReg
  split
  · exact .refl s
  · rename_i reg found
    refine ⟨fun u new there => ?_⟩
    dsimp only at there
    rw [Heap.free_cell] at there
    split at there
    · cases there
    · have freed := SameAccounts.freeMembers conf
        (({ s with userTable := Dlink.delete account s.userTable } :
          Regs).deleteMembers fun row => row.username == reg.name) true
        reg.channels
      exact (StaysUnverified.of_core freed.core).user u new there

theorem addMember (s : Regs) (member : MemberReg) :
    StaysUnverified s (s.addMember member) := by
  have entered : StaysUnverified s (s.modifyUser member.userReg fun reg =>
      { reg with channels := Dlink.add s.member.next reg.channels }) :=
    .modifyUser s _ fun _ flag => flag
  exact ⟨entered.user⟩

theorem removeMember (s : Regs) (target : MemberRegId) (member : MemberReg) :
    StaysUnverified s (s.removeMember conf target member) :=
  .of_core (SameAccounts.freeMember conf (s.deleteMemberDbEntry member) true
    target).core

theorem registerChannel (s : Regs) (now : Int) (name : Token)
    (account : UserRegId) (lastmod : CString) :
    StaysUnverified s (s.registerChannel now name account lastmod) := by
  have entered : StaysUnverified s (s.modifyUser account fun reg =>
      { reg with channels := Dlink.add s.member.next reg.channels }) :=
    .modifyUser s _ fun _ flag => flag
  exact ⟨entered.user⟩

theorem destroyChannelReg (s : Regs) (target : ChanRegId) :
    StaysUnverified s (s.destroyChannelReg conf target) := by
  unfold Regs.destroyChannelReg
  split
  · exact .refl s
  · exact .of_core (SameAccounts.freeMembers conf _ false _).core

end StaysUnverified

theorem asUser_unverified {body : UserRegId → Regs → Except RegStop Regs}
    (returned : s.asUser now client body = .ok t)
    (inside : ∀ account r, body account r = .ok t → StaysUnverified r t) :
    StaysUnverified s t := by
  obtain rfl | ⟨account, reg, -, -, rest⟩ := asUser_eq_ok returned
  · exact .refl t
  · exact (StaysUnverified.touchUser now account s).trans (inside _ _ rest)

theorem expireIfDue_user (target : ChanRegId) :
    (s.expireIfDue now target).user = s.user := by
  unfold expireIfDue
  split
  · split <;> rfl
  · rfl

theorem verifyMemberReg_user {target : ChanRegId} {level : Int}
    {hit : Option MemberRegId}
    (returned : s.verifyMemberReg now client target level = .ok (hit, t)) :
    t.user = s.user := by
  have due : (s.expireIfDue now target).user = s.user :=
    expireIfDue_user target
  unfold verifyMemberReg at returned
  dsimp only at returned
  split at returned
  · cases returned
    exact due
  obtain ⟨found, -, rest⟩ := Except.bind_eq_ok.mp returned
  cases found with
  | none =>
      cases rest
      exact due
  | some entry =>
      dsimp only at rest
      split at rest
      · cases rest
        exact due
      · cases rest
        exact due

theorem asMember_unverified {level : Int}
    {body : MemberRegId → MemberReg → Regs → Except RegStop Regs}
    (returned : s.asMember now client chname level body = .ok t)
    (inside : ∀ entry caller r, body entry caller r = .ok t →
      StaysUnverified r t) : StaysUnverified s t := by
  refine asUser_unverified returned fun account r rest => ?_
  split at rest
  · cases rest
    exact .refl _
  obtain ⟨⟨found, checked⟩, verified, rest⟩ := Except.bind_eq_ok.mp rest
  have same := StaysUnverified.of_user (verifyMemberReg_user verified)
  dsimp only at rest
  split at rest
  · cases rest
    exact same
  split at rest
  · cases rest
    exact same
  · exact same.trans (inside _ _ _ rest)

theorem onEntry_unverified {level : Int}
    {body : MemberRegId → MemberReg → MemberRegId → MemberReg → Regs →
      Except RegStop Regs}
    (returned : s.asMember now client chname level (fun own caller =>
      onEntry target caller (body own caller)) = .ok t)
    (inside : ∀ own caller entry member r,
      body own caller entry member r = .ok t → StaysUnverified r t) :
    StaysUnverified s t := by
  refine asMember_unverified returned fun own caller r rest => ?_
  obtain rfl | ⟨account, entry, member, -, -, -, rest⟩ := onEntry_eq_ok rest
  · exact .refl _
  · exact inside own caller entry member r rest

theorem sChanAdduser_unverified {level : CString} {auto : Option CString}
    (returned : s.sChanAdduser now client chname target level auto = .ok t) :
    StaysUnverified s t := by
  refine asMember_unverified returned fun entry caller r rest => ?_
  split at rest
  · cases rest
    exact .refl _
  obtain ⟨hit, -, rest⟩ := Except.bind_eq_ok.mp rest
  split at rest
  · cases rest
    exact .refl _
  obtain ⟨reg, -, rest⟩ := Except.bind_eq_ok.mp rest
  split at rest
  · cases rest
    exact .refl _
  dsimp only at rest
  split at rest
  · cases rest
    exact .refl _
  split at rest
  · cases rest
    exact .refl _
  · cases rest
    exact .addMember r _

theorem sChanDeluser_unverified
    (returned : s.sChanDeluser conf now client chname target = .ok t) :
    StaysUnverified s t := by
  refine onEntry_unverified returned fun own caller entry member r rest => ?_
  split at rest
  · cases rest
    exact .refl _
  split at rest
  · cases rest
    exact .refl _
  · cases rest
    exact .removeMember r entry member

theorem sChanDelowner_unverified {authorised : Bool}
    (returned : s.sChanDelowner conf now client chname authorised = .ok t) :
    StaysUnverified s t := by
  refine asMember_unverified returned fun own caller r rest => ?_
  split at rest
  · cases rest
    exact .removeMember r own caller
  · cases rest
    exact .refl _

theorem sChanModuser_unverified {level : CString}
    (returned : s.sChanModuser now client chname target level = .ok t) :
    StaysUnverified s t := by
  refine onEntry_unverified returned fun own caller entry member r rest => ?_
  split at rest
  · cases rest
    exact .refl _
  dsimp only at rest
  split at rest
  · cases rest
    exact .refl _
  · cases rest
    exact .of_user rfl

theorem sChanModauto_unverified {auto : CString}
    (returned : s.sChanModauto now client chname target auto = .ok t) :
    StaysUnverified s t := by
  refine onEntry_unverified returned fun own caller entry member r rest => ?_
  split at rest
  · cases rest
    exact .refl _
  split at rest
  · cases rest
    exact .refl _
  · cases rest
    exact .of_user rfl

theorem sChanSuspend_unverified {level : CString}
    (returned : s.sChanSuspend now client chname target level = .ok t) :
    StaysUnverified s t := by
  refine onEntry_unverified returned fun own caller entry member r rest => ?_
  split at rest
  · cases rest
    exact .refl _
  split at rest
  · cases rest
    exact .refl _
  dsimp only at rest
  split at rest
  · cases rest
    exact .refl _
  · cases rest
    exact .of_user rfl

theorem sChanUnsuspend_unverified
    (returned : s.sChanUnsuspend now client chname target = .ok t) :
    StaysUnverified s t := by
  refine onEntry_unverified returned fun own caller entry member r rest => ?_
  split at rest
  · cases rest
    exact .refl _
  · cases rest
    exact .of_user rfl

theorem foldl_setLogin_unverified (clients : List ClientId) (s : Regs) :
    StaysUnverified s
      (clients.foldl (fun s client => s.setLogin client none) s) :=
  .foldl (fun s client => .setLogin s client none) clients s

theorem logoutUserReg_unverified (account : UserRegId) :
    StaysUnverified s (s.logoutUserReg account) := by
  unfold logoutUserReg
  split
  · exact .refl s
  · exact (foldl_setLogin_unverified _ s).trans
      (.modifyUser _ account fun _ flag => flag)

theorem sChanRegister_unverified {name : CString} {permitted : Bool}
    (returned : s.sChanRegister now client name permitted = .ok t) :
    StaysUnverified s t := by
  refine asUser_unverified returned fun account r rest => ?_
  split at rest
  · cases rest
    exact .refl _
  split at rest
  · cases rest
    exact .refl _
  · cases rest
    exact .registerChannel r now _ account _

theorem oChanChanregister_unverified {name : Token} {oper : CString}
    (returned : s.oChanChanregister now name target oper = .ok t) :
    StaysUnverified s t := by
  unfold oChanChanregister at returned
  split at returned
  · cases returned
    exact .refl _
  split at returned
  · cases returned
    exact .refl _
  obtain ⟨reg, -, rest⟩ := Except.bind_eq_ok.mp returned
  cases rest
  exact .registerChannel s now name _ oper

theorem oChanChandrop_unverified (name : CString) :
    StaysUnverified s (s.oChanChandrop conf name) := by
  unfold oChanChandrop
  split
  · exact .refl s
  · exact .destroyChannelReg s _

theorem oChanChansuspend_user (duration : Int) (name : CString)
    (reasonGiven : Bool) :
    (s.oChanChansuspend now duration name reasonGiven).user = s.user := by
  unfold oChanChansuspend
  split
  · rfl
  · dsimp only
    split
    · exact expireIfDue_user _
    · exact expireIfDue_user _

theorem oChanChanunsuspend_user (name : CString) :
    (s.oChanChanunsuspend now name).user = s.user := by
  unfold oChanChanunsuspend
  split
  · rfl
  · split <;> rfl

theorem expireChan_unverified (inUse : CString → Bool) (s : Regs)
    (target : ChanRegId) :
    StaysUnverified s (s.expireChan conf now inUse target) := by
  have due : StaysUnverified s (s.expireIfDue now target) :=
    .of_user (expireIfDue_user target)
  unfold expireChan
  dsimp only
  split
  · exact due
  split
  · split
    · exact due
    · exact due.trans (.destroyChannelReg _ target)
  split
  · exact due
  split
  · exact due.trans (.of_user rfl)
  · exact due.trans (.destroyChannelReg _ target)

theorem noteLogin_user {account : UserRegId} {chname : CString}
    (returned : s.noteLogin now account chname = .ok t) :
    t.user = s.user := by
  unfold noteLogin at returned
  split at returned
  · cases returned
    rfl
  dsimp only at returned
  split at returned
  · cases returned
    exact expireIfDue_user _
  obtain ⟨hit, -, rest⟩ := Except.bind_eq_ok.mp returned
  cases hit with
  | none =>
      cases rest
      exact expireIfDue_user _
  | some entry =>
      dsimp only at rest
      split at rest
      · cases rest
        exact expireIfDue_user _
      · cases rest
        exact expireIfDue_user _

theorem hChanservUserLogin_unverified {account : UserRegId}
    {channels : List CString}
    (returned : s.hChanservUserLogin now account channels = .ok t) :
    StaysUnverified s t := by
  have kept : Ensures (StaysUnverified s)
      (s.hChanservUserLogin now account channels) := by
    refine Outcome.foldlM (StaysUnverified s) (.refl s) fun r stays _ _ => ?_
    exact Ensures.intro fun after noted =>
      stays.trans (.of_user (noteLogin_user noted))
  exact kept.of_ok returned

theorem sUserLogin_unverified {name : CString} {passwordRight : Bool}
    {channels : List CString}
    (returned : s.sUserLogin conf now client name passwordRight channels =
      .ok t) : StaysUnverified s t := by
  unfold sUserLogin at returned
  split at returned
  · cases returned
    exact .refl _
  split at returned
  · cases returned
    exact .refl _
  rename_i account named
  obtain ⟨reg, -, rest⟩ := Except.bind_eq_ok.mp returned
  split at rest
  · cases rest
    exact .refl _
  have lifted : StaysUnverified s (if reg.flags.has usFlagsSuspended then
      s.expireUserSuspend now account else s) := by
    split
    · exact .expireUserSuspend now account s
    · exact .refl s
  dsimp only at rest
  generalize (if reg.flags.has usFlagsSuspended = true then
    s.expireUserSuspend now account else s) = r at lifted rest
  split at rest
  · cases rest
    exact lifted
  split at rest
  · cases rest
    exact lifted
  split at rest
  · cases rest
    exact lifted
  · refine lifted.trans (.trans (.touchUser now account r) ?_)
    exact (StaysUnverified.linkUser _ client account).trans
      (hChanservUserLogin_unverified rest)

theorem unlinkUser_unverified {account : UserRegId}
    (returned : s.unlinkUser client account = .ok t) :
    StaysUnverified s t := by
  obtain ⟨reg, -, rest⟩ := Except.bind_eq_ok.mp returned
  cases rest
  exact .modifyUser s account fun _ flag => flag

theorem sUserLogout_unverified
    (returned : s.sUserLogout now client = .ok t) : StaysUnverified s t := by
  refine asUser_unverified returned fun account r rest => ?_
  obtain ⟨left, unlinked, rest⟩ := Except.bind_eq_ok.mp rest
  cases rest
  exact (unlinkUser_unverified unlinked).trans (.setLogin left client none)

theorem hUserBurstLogin_unverified {name : CString} {eob : Bool}
    (returned : s.hUserBurstLogin now client name eob = .ok t) :
    StaysUnverified s t := by
  unfold hUserBurstLogin at returned
  split at returned
  · cases returned
    exact .refl _
  rename_i old known
  split at returned
  · cases returned
    exact .refl _
  split at returned
  · cases returned
    exact .refl _
  rename_i account named
  cases old with
  | none =>
      obtain ⟨reg, there, ⟨-, rfl⟩ | ⟨-, rfl⟩⟩ := burst_rest returned
      · exact .refl _
      · exact (StaysUnverified.touchUser now account s).trans
          (.linkUser _ client account)
  | some before =>
      obtain ⟨r, left, rest⟩ := Except.bind_eq_ok.mp returned
      have unlinked := unlinkUser_unverified left
      obtain ⟨reg, there, ⟨-, rfl⟩ | ⟨-, rfl⟩⟩ := burst_rest rest
      · exact unlinked
      · exact unlinked.trans ((StaysUnverified.touchUser now account r).trans
          (.linkUser _ client account))

theorem exitUser_unverified (returned : s.exitUser client = .ok t) :
    StaysUnverified s t := by
  unfold exitUser at returned
  dsimp only at returned
  split at returned
  · cases returned
    exact .of_user rfl
  · obtain ⟨r, left, rest⟩ := Except.bind_eq_ok.mp returned
    cases rest
    exact (unlinkUser_unverified left).trans (.of_user rfl)

theorem sUserSetNoaccess_unverified {on : Bool}
    (returned : s.sUserSetNoaccess now client on = .ok t) :
    StaysUnverified s t := by
  refine asUser_unverified returned fun account r rest => ?_
  cases rest
  refine .modifyUser r account fun reg flag => ?_
  unfold UserReg.unverified at flag ⊢
  cases on with
  | true => simp [flag]
  | false => simpa [usFlagsNoaccess, usFlagsNeverloggedin] using flag

theorem oUserUsersuspend_unverified (duration : Int) (name : CString)
    (reasonGiven : Bool) :
    StaysUnverified s (s.oUserUsersuspend now duration name reasonGiven) := by
  unfold oUserUsersuspend
  split
  · exact .refl s
  rename_i account named
  split
  · exact .refl s
  rename_i reg found
  split
  · exact .refl s
  have lifted : StaysUnverified s (if reg.flags.has usFlagsSuspended then
      s.expireUserSuspend now account else s) := by
    split
    · exact .expireUserSuspend now account s
    · exact .refl s
  dsimp only
  split
  · exact lifted
  · refine lifted.trans ((logoutUserReg_unverified account).trans
      (.modifyUser _ account fun reg flag => ?_))
    unfold UserReg.unverified at flag ⊢
    simp [flag]

theorem oUserUserunsuspend_unverified (name : CString) :
    StaysUnverified s (s.oUserUserunsuspend now name) := by
  unfold oUserUserunsuspend
  split
  · exact .refl s
  · refine .modifyUser s _ fun reg flag => ?_
    split
    · unfold UserReg.unverified at flag ⊢
      rw [Word.has_clear, flag]
      rfl
    · exact flag

theorem oUserUserdrop_unverified (name : CString) :
    StaysUnverified s (s.oUserUserdrop conf name) := by
  unfold oUserUserdrop
  split
  · exact .refl s
  · exact (logoutUserReg_unverified _).trans (.freeUserReg conf _ _)

theorem keep_or_free_unverified {account : UserRegId} {keep : Prop}
    [Decidable keep] (stays : StaysUnverified s t) :
    StaysUnverified s (if keep then t else t.freeUserReg conf account) := by
  split
  · exact stays
  · exact stays.trans (.freeUserReg conf t account)

theorem expireUser_unverified (conf : ServConfig) (now : Int) (s : Regs)
    (account : UserRegId) :
    StaysUnverified s (s.expireUser conf now account) := by
  unfold expireUser
  split
  · exact .refl s
  rename_i reg found
  split
  · exact .freeUserReg conf s account
  dsimp only
  generalize (if reg.users.isEmpty = true then reg.lastTime else now) =
    lastTime
  have noted : StaysUnverified s (s.modifyUser account fun old =>
      { old with
        lastTime := lastTime
        flags := old.flags.clear usFlagsNeedupdate }) := by
    refine .modifyUser s account fun old flag => ?_
    unfold UserReg.unverified at flag ⊢
    rw [Word.has_clear, flag]
    rfl
  split
  · refine keep_or_free_unverified ?_
    split
    · exact noted.trans (.expireUserSuspend now account _)
    · exact noted
  · exact keep_or_free_unverified noted

theorem StaysUnverified.of_registers {event : RegEvent}
    (registers : event.act.registers conf s = true)
    (returned : step conf s event = .ok t) :
    ∃ reg, StaysUnverified (s.withUser reg) t := by
  obtain ⟨reg, -, rfl | ⟨client, channels, rest⟩⟩ :=
    registers_eq_ok registers returned
  · exact ⟨reg, .refl _⟩
  · have linked :=
      StaysUnverified.linkUser (s.withUser reg) client s.user.next
    exact ⟨reg, linked.trans (hChanservUserLogin_unverified rest)⟩

theorem StaysUnverified.of_plain {event : RegEvent}
    (plain : event.act.isRegister = false)
    (other : ∀ client name right, event.act ≠ .activate client name right)
    (returned : step conf s event = .ok t) : StaysUnverified s t := by
  obtain ⟨now, act⟩ := event
  cases act with
  | connect client =>
      simp only [step] at returned
      split at returned
      · cases returned
        exact .refl _
      · cases returned
        exact .setLogin s client none
  | exit client => exact exitUser_unverified returned
  | burst client name eob => exact hUserBurstLogin_unverified returned
  | userRegister client name permitted channels => cases plain
  | operUserRegister name permitted => cases plain
  | hookRegister name password => cases plain
  | activate client name right => exact absurd rfl (other client name right)
  | login client name passwordRight channels =>
      exact sUserLogin_unverified returned
  | logout client => exact sUserLogout_unverified returned
  | setNoaccess client on => exact sUserSetNoaccess_unverified returned
  | userSuspend duration name reasonGiven =>
      cases returned
      exact oUserUsersuspend_unverified duration name reasonGiven
  | userUnsuspend name =>
      cases returned
      exact oUserUserunsuspend_unverified name
  | userDrop name =>
      cases returned
      exact oUserUserdrop_unverified name
  | userExpire =>
      cases returned
      have walked := StaysUnverified.foldl (expireUser_unverified conf now)
        s.expireWalk s
      exact ⟨walked.user⟩
  | chanRegister client name permitted =>
      exact sChanRegister_unverified returned
  | operChanRegister name target oper =>
      exact oChanChanregister_unverified returned
  | chanSuspend duration name reasonGiven =>
      cases returned
      exact .of_user (oChanChansuspend_user duration name reasonGiven)
  | chanUnsuspend name =>
      cases returned
      exact .of_user (oChanChanunsuspend_user name)
  | chanDrop name =>
      cases returned
      exact oChanChandrop_unverified name
  | chanExpire inUse =>
      cases returned
      exact StaysUnverified.foldl (expireChan_unverified inUse) _ s
  | adduser client chname target level auto =>
      exact sChanAdduser_unverified returned
  | deluser client chname target => exact sChanDeluser_unverified returned
  | delowner client chname authorised =>
      exact sChanDelowner_unverified returned
  | moduser client chname target level =>
      exact sChanModuser_unverified returned
  | modauto client chname target auto =>
      exact sChanModauto_unverified returned
  | suspend client chname target level =>
      exact sChanSuspend_unverified returned
  | unsuspend client chname target =>
      exact sChanUnsuspend_unverified returned

/-- Only `ACTIVATE` activates an account. -/
theorem step_unverified {event : RegEvent}
    (other : ∀ client name right, event.act ≠ .activate client name right)
    (returned : step conf s event = .ok t) {u : UserRegId}
    {old new : UserReg} (before : s.user.cell u = some old)
    (after : t.user.cell u = some new) (flag : old.unverified = true) :
    new.unverified = true := by
  cases plain : event.act.isRegister with
  | false =>
      have stays := StaysUnverified.of_plain plain other returned
      obtain ⟨reg, found, kept⟩ := stays.user u new after
      rw [before, Option.some.injEq] at found
      exact kept (found ▸ flag)
  | true =>
      cases registers : event.act.registers conf s with
      | false =>
          rw [step_of_refused plain registers returned, before,
            Option.some.injEq] at after
          exact after ▸ flag
      | true =>
          obtain ⟨added, stays⟩ :=
            StaysUnverified.of_registers registers returned
          obtain ⟨reg, found, kept⟩ := stays.user u new after
          have same : (s.withUser added).user.cell u = some old :=
            Heap.alloc_cell_of_used before
          rw [same, Option.some.injEq] at found
          exact kept (found ▸ flag)

end Regs

end RatboxServices
