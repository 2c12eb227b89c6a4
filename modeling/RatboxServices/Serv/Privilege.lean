import RatboxServices.Serv.RegSettle

namespace RatboxServices

open CString

/-! What a command on an access list may do for a caller of some level. -/

def RegAct.onAccess : RegAct → Option (ClientId × CString × Int)
  | .adduser client chname _ _ _ => some (client, chname, sCUserlist)
  | .deluser client chname _ => some (client, chname, sCUserlist)
  | .moduser client chname _ _ => some (client, chname, sCUserlist)
  | .modauto client chname _ _ => some (client, chname, sCUserlist)
  | .suspend client chname _ _ => some (client, chname, sCSuspend)
  | .unsuspend client chname _ => some (client, chname, sCSuspend)
  | _ => none

namespace Regs

variable {conf : ServConfig} {r s t : Regs} {L : Int} {own m : MemberRegId}
  {c : ChanRegId}

structure Caller (s : Regs) (client : ClientId) (chname : CString)
    (entry : MemberRegId) (caller : MemberReg) : Prop where
  channel : s.findChannelReg chname = some caller.channelReg
  found : s.findMemberReg (s.loginOf client) caller.channelReg =
    .ok (some entry)
  used : s.member.cell entry = some caller

theorem Caller.unique {client : ClientId} {chname : CString}
    {entry other : MemberRegId} {caller again : MemberReg}
    (one : s.Caller client chname entry caller)
    (two : s.Caller client chname other again) :
    entry = other ∧ caller = again := by
  have channel := one.channel.symm.trans two.channel
  have found := one.found
  rw [Option.some.inj channel, two.found] at found
  have entries : other = entry := Option.some.inj (Except.ok.inj found)
  subst entries
  exact ⟨rfl, Option.some.inj (one.used.symm.trans two.used)⟩

theorem Admitted.caller {now : Int} {client : ClientId} {chname : CString}
    {level : Int} {account : UserRegId} {entry : MemberRegId}
    {caller : MemberReg}
    (admitted : Admitted s now client chname level account entry caller) :
    s.Caller client chname entry caller :=
  ⟨admitted.channel, by rw [admitted.login]; exact admitted.found,
    admitted.used⟩

/-- What a caller of level `L` whose entry is `own` may do to the entries of
the channel `c`. -/
structure Within (L : Int) (own : MemberRegId) (c : ChanRegId) (s t : Regs) :
    Prop where
  others : ∀ m member, s.member.cell m = some member → m ≠ own →
    L ≤ member.level → ∃ new, t.member.cell m = some new ∧
      new.level = member.level ∧ new.flags = member.flags
  elsewhere : ∀ m member, s.member.cell m = some member →
    member.channelReg ≠ c → t.member.cell m = some member
  suspensions : ∀ m old new, s.member.cell m = some old →
    t.member.cell m = some new → new.suspend ≠ old.suspend →
    old.suspend ≤ L ∧ new.suspend ≤ L
  levels : ∀ m new, t.member.cell m = some new →
    (∀ old, s.member.cell m = some old → old.level ≠ new.level) → new.level < L

theorem Within.same (same : t.member = s.member) : Within L own c s t := by
  refine ⟨?_, ?_, ?_, ?_⟩
  · intro m member used _ _
    exact ⟨member, same ▸ used, rfl, rfl⟩
  · intro m member used _
    exact same ▸ used
  · intro m old new before after changed
    rw [same, before, Option.some.injEq] at after
    exact absurd (after ▸ rfl) changed
  · intro m new after changed
    rw [same] at after
    exact absurd rfl (changed new after)

theorem Within.of_same (within : Within L own c r t)
    (same : r.member = s.member) : Within L own c s t := by
  obtain ⟨others, elsewhere, suspensions, levels⟩ := within
  rw [same] at others elsewhere suspensions levels
  exact ⟨others, elsewhere, suspensions, levels⟩

theorem Within.add {member : MemberReg} (level : member.level < L) :
    Within L own c s (s.addMember member) := by
  have cells : (s.addMember member).member = s.member.alloc member := rfl
  refine ⟨?_, ?_, ?_, ?_⟩
  · intro m other used _ _
    exact ⟨other, cells ▸ Heap.alloc_cell_of_used used, rfl, rfl⟩
  · intro m other used _
    exact cells ▸ Heap.alloc_cell_of_used used
  · intro m old new before after changed
    rw [cells, Heap.alloc_cell_of_used before, Option.some.injEq] at after
    exact absurd (after ▸ rfl) changed
  · intro m new after changed
    rw [cells, Heap.alloc_cell] at after
    split at after
    · cases after
      exact level
    · exact absurd rfl (changed new after)

theorem Within.set {target : MemberRegId} {member : MemberReg}
    {change : MemberReg → MemberReg} {row : MemberRow → MemberRow}
    (found : s.member.cell target = some member)
    (inside : member.channelReg = c)
    (other : target ≠ own → L ≤ member.level →
      (change member).level = member.level ∧
        (change member).flags = member.flags)
    (suspend : (change member).suspend ≠ member.suspend →
      member.suspend ≤ L ∧ (change member).suspend ≤ L)
    (level : (change member).level ≠ member.level →
      (change member).level < L) :
    Within L own c s (s.setMember target member change row) := by
  have cells : (s.setMember target member change row).member =
      s.member.modify target change := rfl
  have old {m : MemberRegId} {new : MemberReg}
      (after : (s.setMember target member change row).member.cell m =
        some new) :
      s.member.cell m = some new ∨ m = target ∧ new = change member := by
    rw [cells] at after
    obtain ⟨before, there, changed⟩ := Heap.cell_of_modify after
    split at changed
    · rename_i same
      rw [same, found, Option.some.injEq] at there
      exact Or.inr ⟨same, there ▸ changed⟩
    · exact Or.inl (changed ▸ there)
  refine ⟨?_, ?_, ?_, ?_⟩
  · intro m before used different high
    refine ⟨_, cells ▸ Heap.modify_of_cell used, ?_⟩
    split
    · rename_i same
      rw [same, found, Option.some.injEq] at used
      subst used
      exact other (same ▸ different) high
    · exact ⟨rfl, rfl⟩
  · intro m before used apart
    rw [cells, Heap.modify_of_cell used]
    split
    · rename_i same
      rw [same, found, Option.some.injEq] at used
      exact absurd (used ▸ inside) apart
    · rfl
  · intro m before new used after changed
    obtain there | ⟨rfl, rfl⟩ := old after
    · rw [used, Option.some.injEq] at there
      exact absurd (there ▸ rfl) changed
    · rw [found, Option.some.injEq] at used
      subst used
      exact suspend changed
  · intro m new after changed
    obtain there | ⟨rfl, rfl⟩ := old after
    · exact absurd rfl (changed new there)
    · exact level fun same => changed member found same.symm

theorem freeMemberReg_member {target : MemberRegId} {member : MemberReg}
    {upgrade : Bool} (found : s.member.cell target = some member)
    (below : member.level ≠ sCOwner) :
    (s.freeMemberReg conf upgrade target).member = s.member.free target := by
  unfold freeMemberReg
  rw [found]
  dsimp only
  split
  · rfl
  · split
    · rfl
    · rw [if_neg (by simp [below])]
      rfl

theorem Within.remove {target : MemberRegId} {member : MemberReg}
    (found : s.member.cell target = some member)
    (inside : member.channelReg = c) (below : member.level ≠ sCOwner)
    (other : target ≠ own → member.level < L) :
    Within L own c s (s.removeMember conf target member) := by
  have cells : (s.removeMember conf target member).member =
      s.member.free target :=
    freeMemberReg_member (s := s.deleteMemberDbEntry member) found below
  have stays {m : MemberRegId} {new : MemberReg}
      (after : (s.removeMember conf target member).member.cell m =
        some new) : s.member.cell m = some new := by
    rw [cells, Heap.free_cell] at after
    split at after
    · cases after
    · exact after
  have kept {m : MemberRegId} {before : MemberReg}
      (used : s.member.cell m = some before) (apart : m ≠ target) :
      (s.removeMember conf target member).member.cell m = some before := by
    rw [cells, Heap.free_cell, if_neg apart, used]
  refine ⟨?_, ?_, ?_, ?_⟩
  · intro m before used different high
    refine ⟨before, kept used ?_, rfl, rfl⟩
    rintro rfl
    rw [found, Option.some.injEq] at used
    have low := other different
    rw [used] at low
    omega
  · intro m before used apart
    refine kept used ?_
    rintro rfl
    rw [found, Option.some.injEq] at used
    exact apart (used ▸ inside)
  · intro m before new used after changed
    have there := stays after
    rw [used, Option.some.injEq] at there
    exact absurd (there ▸ rfl) changed
  · intro m new after changed
    exact absurd rfl (changed new (stays after))

theorem found_inside {account : UserRegId} {entry : MemberRegId}
    {member : MemberReg}
    (found : s.findMemberReg (some account) c = .ok (some entry))
    (used : s.member.cell entry = some member) : member.channelReg = c := by
  obtain ⟨reg, -, first⟩ := findMemberReg_eq_ok.mp found
  obtain ⟨value, there, inside⟩ := entryIn_iff.mp (List.find?_some first)
  rw [used, Option.some.injEq] at there
  exact there ▸ inside

/-- A command leaves the access lists alone, or a member of the level does
what its own level allows. -/
def Privileged (s : Regs) (now : Int) (client : ClientId) (chname : CString)
    (level : Int) (t : Regs) : Prop :=
  SameAccess s t ∨ ∃ account entry caller,
    Admitted s now client chname level account entry caller ∧
      Within caller.level entry caller.channelReg s t

variable {now : Int} {client : ClientId} {chname : CString} {level : Int}
  {target : AccountArg} {levelText : CString}

theorem Privileged.asMember
    {body : MemberRegId → MemberReg → Regs → Except RegStop Regs}
    (ran : s.asMember now client chname level body = .ok t)
    (does : ∀ entry caller r, level ≤ caller.level →
      body entry caller r = .ok t →
      Within caller.level entry caller.channelReg r t) :
    Privileged s now client chname level t := by
  obtain settled | ⟨account, entry, caller, r, settled, admitted, rest⟩ :=
    asMember_eq_ok ran
  · exact Or.inl settled.access
  · exact Or.inr ⟨account, entry, caller, admitted,
      (does entry caller r admitted.level rest).of_same settled.access.member⟩

theorem Privileged.onEntry
    {body : MemberRegId → MemberReg → MemberRegId → MemberReg → Regs →
      Except RegStop Regs}
    (ran : s.asMember now client chname level (fun own caller =>
      onEntry target caller (body own caller)) = .ok t)
    (does : ∀ own caller entry member r, level ≤ caller.level →
      r.member.cell entry = some member →
      member.channelReg = caller.channelReg →
      body own caller entry member r = .ok t →
      Within caller.level own caller.channelReg r t) :
    Privileged s now client chname level t := by
  refine .asMember ran fun own caller r high rest => ?_
  obtain rfl | ⟨account, entry, member, -, found, used, rest⟩ :=
    onEntry_eq_ok rest
  · exact .same rfl
  · exact does own caller entry member r high used (found_inside found used)
      rest

theorem sChanAdduser_privileged {auto : Option CString}
    (ran : s.sChanAdduser now client chname target levelText auto = .ok t) :
    Privileged s now client chname sCUserlist t := by
  refine .asMember ran fun entry caller r _ rest => ?_
  split at rest
  · cases rest
    exact .same rfl
  obtain ⟨hit, looked, rest⟩ := Except.bind_eq_ok.mp rest
  split at rest
  · cases rest
    exact .same rfl
  obtain ⟨reg, found, rest⟩ := Except.bind_eq_ok.mp rest
  split at rest
  · cases rest
    exact .same rfl
  dsimp only at rest
  split at rest
  · cases rest
    exact .same rfl
  rename_i bounds
  rw [not_or, Int.not_lt, Int.not_le] at bounds
  split at rest
  · cases rest
    exact .same rfl
  cases rest
  exact .add bounds.2

theorem sChanDeluser_privileged
    (ran : s.sChanDeluser conf now client chname target = .ok t) :
    Privileged s now client chname sCUserlist t := by
  refine .onEntry ran fun own caller entry member r _ used inside rest => ?_
  split at rest
  · cases rest
    exact .same rfl
  rename_i higher
  split at rest
  · cases rest
    exact .same rfl
  rename_i below
  cases rest
  refine .remove used inside below fun apart => ?_
  by_contra high
  exact higher ⟨Int.not_lt.mp high, apart.symm⟩

theorem sChanModuser_privileged
    (ran : s.sChanModuser now client chname target levelText = .ok t) :
    Privileged s now client chname sCUserlist t := by
  refine .onEntry ran fun own caller entry member r _ used inside rest => ?_
  split at rest
  · cases rest
    exact .same rfl
  rename_i below
  dsimp only at rest
  split at rest
  · cases rest
    exact .same rfl
  rename_i bounds
  simp only [not_or, Int.not_lt, Int.not_le] at bounds
  cases rest
  exact .set used inside (fun _ high => absurd high below)
    (fun changed => absurd rfl changed) fun _ => bounds.2.2

theorem sChanModauto_privileged {auto : CString}
    (ran : s.sChanModauto now client chname target auto = .ok t) :
    Privileged s now client chname sCUserlist t := by
  refine .onEntry ran fun own caller entry member r _ used inside rest => ?_
  split at rest
  · cases rest
    exact .same rfl
  rename_i higher
  split at rest
  · cases rest
    exact .same rfl
  cases rest
  refine .set used inside (fun apart high => ?_)
    (fun changed => absurd rfl changed) fun changed => absurd rfl changed
  exact absurd ⟨high, apart.symm⟩ higher

theorem sChanSuspend_privileged
    (ran : s.sChanSuspend now client chname target levelText = .ok t) :
    Privileged s now client chname sCSuspend t := by
  refine .onEntry ran fun own caller entry member r _ used inside rest => ?_
  split at rest
  · cases rest
    exact .same rfl
  split at rest
  · cases rest
    exact .same rfl
  rename_i lower
  dsimp only at rest
  split at rest
  · cases rest
    exact .same rfl
  rename_i bounds
  rw [not_or, Int.not_lt, Int.not_lt] at bounds
  cases rest
  exact .set used inside (fun _ _ => ⟨rfl, rfl⟩)
    (fun _ => ⟨Int.not_lt.mp lower, bounds.2⟩) fun changed => absurd rfl changed

theorem sChanUnsuspend_privileged
    (ran : s.sChanUnsuspend now client chname target = .ok t) :
    Privileged s now client chname sCSuspend t := by
  refine .onEntry ran fun own caller entry member r high used inside rest => ?_
  split at rest
  · cases rest
    exact .same rfl
  rename_i lower
  cases rest
  have positive : 0 ≤ caller.level := le_trans (by decide) high
  exact .set used inside (fun _ _ => ⟨rfl, rfl⟩)
    (fun _ => ⟨Int.not_lt.mp lower, positive⟩) fun changed => absurd rfl changed

theorem access_within {event : RegEvent}
    (command : event.act.onAccess = some (client, chname, level))
    (returned : step conf s event = .ok t) :
    Privileged s event.now client chname level t := by
  obtain ⟨now, act⟩ := event
  cases act with
  | adduser user name target levelText auto =>
      cases command
      exact sChanAdduser_privileged returned
  | deluser user name target =>
      cases command
      exact sChanDeluser_privileged returned
  | moduser user name target levelText =>
      cases command
      exact sChanModuser_privileged returned
  | modauto user name target auto =>
      cases command
      exact sChanModauto_privileged returned
  | suspend user name target levelText =>
      cases command
      exact sChanSuspend_privileged returned
  | unsuspend user name target =>
      cases command
      exact sChanUnsuspend_privileged returned
  | _ => cases command

def twoMembers : List RegEvent :=
  [ ⟨100, .connect 1⟩,
    ⟨100, .userRegister 1 ⟨"alice".toList, alice_ne_nil⟩ true []⟩,
    ⟨100, .connect 2⟩,
    ⟨100, .userRegister 2 ⟨"bob".toList, bob_ne_nil⟩ true []⟩,
    ⟨101, .chanRegister 1 "#chan".toList true⟩,
    ⟨102, .adduser 1 "#chan".toList (.account "bob".toList) "150".toList none⟩ ]

end Regs

end RatboxServices
