import Mathlib.Logic.Relation
import RatboxServices.Lib.Outcome
import RatboxServices.Serv.RegCommand

namespace RatboxServices

open CString

/-! The access lists in every state: an entry is in the list of its account and
in that of its channel, and every channel has one owner. -/

def UserReg.kept (reg : UserReg) : CString × CString × List MemberRegId :=
  (reg.name, reg.given, reg.channels)

def UserReg.core (reg : UserReg) : UserReg :=
  { reg with channels := [] }

def ChanReg.kept (reg : ChanReg) :
    CString × List MemberRegId × List BanReg × BitVec 64 :=
  (reg.name, reg.users, reg.bans, reg.bants)

namespace MemberReg

def OfUser (u : UserRegId) (member : MemberReg) : Prop :=
  member.userReg = u

def InChan (c : ChanRegId) (member : MemberReg) : Prop :=
  member.channelReg = c

end MemberReg

namespace Regs

open MemberReg (OfUser InChan)

variable {c : ChanRegId}

def channelsOf (s : Regs) (u : UserRegId) : Option (List MemberRegId) :=
  (s.user.cell u).map UserReg.channels

def usersOf (s : Regs) (c : ChanRegId) : Option (List MemberRegId) :=
  (s.chan.cell c).map ChanReg.users

structure Wired (s : Regs) : Prop where
  owner : ∀ m member, s.member.cell m = some member →
    ∃ list, s.channelsOf member.userReg = some list
  channel : ∀ m member, s.member.cell m = some member →
    ∃ list, s.usersOf member.channelReg = some list
  channels : ∀ u list, s.channelsOf u = some list →
    Exactly list (s.member.Has (OfUser u))
  users : ∀ c list, s.usersOf c = some list →
    Exactly list (s.member.Has (InChan c))
  unique : ∀ m n left right, s.member.cell m = some left →
    s.member.cell n = some right → left.userReg = right.userReg →
    left.channelReg = right.channelReg → m = n

/-- The channel has one owner, who is not suspended, and everybody else has a
level below. -/
def Ruled (s : Regs) (c : ChanRegId) : Prop :=
  ∃ m member, s.member.cell m = some member ∧ member.channelReg = c ∧
    member.level = sCOwner ∧ member.suspend = 0 ∧
    ∀ n other, s.member.cell n = some other → other.channelReg = c → n ≠ m →
      1 ≤ other.level ∧ other.level < sCOwner

structure Tame (member : MemberReg) : Prop where
  suspend : 0 ≤ member.suspend ∧ member.suspend ≤ sCOwner
  flags : member.flags &&& 3#32 = member.flags

/-- The invariant of the access lists. Channels of `Unruled` may be without an
owner. -/
structure AccessInv (Unruled : ChanRegId → Prop) (s : Regs) : Prop where
  wired : s.Wired
  occupied : ∀ c list, s.usersOf c = some list → list ≠ []
  ruled : ∀ c list, s.usersOf c = some list → Unruled c ∨ s.Ruled c
  tame : ∀ m member, s.member.cell m = some member → Tame member

/-- Both states have the same accounts and channels, with the same access and
the same bans. -/
structure SameAccess (s t : Regs) : Prop where
  user : ∀ u, (t.user.cell u).map UserReg.kept =
    (s.user.cell u).map UserReg.kept
  chan : ∀ c, (t.chan.cell c).map ChanReg.kept =
    (s.chan.cell c).map ChanReg.kept
  member : t.member = s.member
  userTable : t.userTable = s.userTable
  chanTable : t.chanTable = s.chanTable
  users : t.users = s.users
  members : t.members = s.members
  bans : t.bans = s.bans

namespace SameAccess

variable {r s t : Regs}

theorem refl (s : Regs) : SameAccess s s :=
  ⟨fun _ => rfl, fun _ => rfl, rfl, rfl, rfl, rfl, rfl, rfl⟩

theorem trans (first : SameAccess r s) (second : SameAccess s t) :
    SameAccess r t where
  user := fun u => (second.user u).trans (first.user u)
  chan := fun c => (second.chan c).trans (first.chan c)
  member := second.member.trans first.member
  userTable := second.userTable.trans first.userTable
  chanTable := second.chanTable.trans first.chanTable
  users := second.users.trans first.users
  members := second.members.trans first.members
  bans := second.bans.trans first.bans

theorem user_map {β : Type} (same : SameAccess s t)
    (read : CString × CString × List MemberRegId → β) (u : UserRegId) :
    (t.user.cell u).map (fun reg => read (UserReg.kept reg)) =
      (s.user.cell u).map (fun reg => read (UserReg.kept reg)) := by
  have equal := congrArg (Option.map read) (same.user u)
  simpa [Option.map_map, Function.comp_def] using equal

theorem chan_map {β : Type} (same : SameAccess s t)
    (read : CString × List MemberRegId × List BanReg × BitVec 64 → β)
    (c : ChanRegId) :
    (t.chan.cell c).map (fun reg => read (ChanReg.kept reg)) =
      (s.chan.cell c).map (fun reg => read (ChanReg.kept reg)) := by
  have equal := congrArg (Option.map read) (same.chan c)
  simpa [Option.map_map, Function.comp_def] using equal

theorem channelsOf (same : SameAccess s t) : t.channelsOf = s.channelsOf := by
  funext u
  exact same.user_map (fun kept => kept.2.2) u

theorem usersOf (same : SameAccess s t) : t.usersOf = s.usersOf := by
  funext c
  exact same.chan_map (fun kept => kept.2.1) c

theorem userName (same : SameAccess s t) : t.userName = s.userName := by
  funext u
  have equal := same.user_map Prod.fst u
  unfold Regs.userName
  cases left : t.user.cell u <;> cases right : s.user.cell u <;>
    simp_all [UserReg.kept]

theorem chanName (same : SameAccess s t) : t.chanName = s.chanName := by
  funext c
  have equal := same.chan_map Prod.fst c
  unfold Regs.chanName
  cases left : t.chan.cell c <;> cases right : s.chan.cell c <;>
    simp_all [ChanReg.kept]

theorem modifyUser (s : Regs) (target : UserRegId) {change : UserReg → UserReg}
    (kept : ∀ reg, UserReg.kept (change reg) = UserReg.kept reg) :
    SameAccess s (s.modifyUser target change) := by
  refine { refl s with user := fun u => ?_ }
  unfold Regs.modifyUser
  rw [Heap.modify_cell]
  by_cases equal : u = target
  · subst equal
    rw [if_pos rfl]
    cases s.user.cell u with
    | none => rfl
    | some reg => simp [kept reg]
  · rw [if_neg equal]

theorem modifyChan (s : Regs) (target : ChanRegId) {change : ChanReg → ChanReg}
    (kept : ∀ reg, ChanReg.kept (change reg) = ChanReg.kept reg) :
    SameAccess s (s.modifyChan target change) := by
  refine { refl s with chan := fun c => ?_ }
  unfold Regs.modifyChan
  rw [Heap.modify_cell]
  by_cases equal : c = target
  · subst equal
    rw [if_pos rfl]
    cases s.chan.cell c with
    | none => rfl
    | some reg => simp [kept reg]
  · rw [if_neg equal]

theorem setLogin (s : Regs) (client : ClientId) (account : Option UserRegId) :
    SameAccess s (s.setLogin client account) :=
  { refl s with }

end SameAccess

theorem AccessInv.congr {Unruled : ChanRegId → Prop} {s t : Regs}
    (inv : AccessInv Unruled s) (channels : t.channelsOf = s.channelsOf)
    (users : t.usersOf = s.usersOf) (member : t.member = s.member) :
    AccessInv Unruled t := by
  obtain ⟨⟨owner, channel, inChannels, inUsers, unique⟩, occupied, ruled,
    tame⟩ := inv
  refine ⟨⟨?_, ?_, ?_, ?_, ?_⟩, ?_, ?_, ?_⟩
  · rwa [channels, member]
  · rwa [users, member]
  · rwa [channels, member]
  · rwa [users, member]
  · rwa [member]
  · rwa [users]
  · unfold Ruled at ruled ⊢
    rwa [users, member]
  · rwa [member]

theorem AccessInv.same {Unruled : ChanRegId → Prop} {s t : Regs}
    (inv : AccessInv Unruled s) (same : SameAccess s t) :
    AccessInv Unruled t :=
  inv.congr same.channelsOf same.usersOf same.member

section Lists

variable {s : Regs} {u : UserRegId} {c : ChanRegId} {target : MemberRegId}
  {member : MemberReg}

theorem channelsOf_modifyUser (s : Regs) (target u : UserRegId)
    (change : UserReg → UserReg) :
    (s.modifyUser target change).channelsOf u =
      if u = target then
        (s.user.cell target).map fun reg => (change reg).channels
      else s.channelsOf u := by
  unfold channelsOf modifyUser
  rw [Heap.modify_cell]
  split
  · rw [Option.map_map]
    rfl
  · rfl

theorem usersOf_modifyChan (s : Regs) (target c : ChanRegId)
    (change : ChanReg → ChanReg) :
    (s.modifyChan target change).usersOf c =
      if c = target then
        (s.chan.cell target).map fun reg => (change reg).users
      else s.usersOf c := by
  unfold usersOf modifyChan
  rw [Heap.modify_cell]
  split
  · rw [Option.map_map]
    rfl
  · rfl

theorem makeMemberReg_channelsOf (s : Regs) (member : MemberReg)
    (u : UserRegId) :
    (s.makeMemberReg member).channelsOf u =
      if u = member.userReg then (s.channelsOf u).map (Dlink.add s.member.next)
      else s.channelsOf u := by
  show (({ s with member := s.member.alloc member } : Regs).modifyUser
    member.userReg _).channelsOf u = _
  rw [channelsOf_modifyUser]
  split
  · rename_i same
    subst same
    unfold channelsOf
    rw [Option.map_map]
    rfl
  · rfl

theorem makeMemberReg_usersOf (s : Regs) (member : MemberReg) (c : ChanRegId) :
    (s.makeMemberReg member).usersOf c =
      if c = member.channelReg then (s.usersOf c).map (Dlink.add s.member.next)
      else s.usersOf c := by
  unfold makeMemberReg
  rw [usersOf_modifyChan]
  split
  · rename_i same
    subst same
    unfold usersOf
    rw [Option.map_map]
    rfl
  · rfl

theorem makeMemberReg_member (s : Regs) (member : MemberReg) :
    (s.makeMemberReg member).member = s.member.alloc member := rfl

theorem unlinkMember_channelsOf (s : Regs) (target : MemberRegId)
    (member : MemberReg) (u : UserRegId) :
    (s.unlinkMember target member).channelsOf u =
      if u = member.userReg then (s.channelsOf u).map (Dlink.delete target)
      else s.channelsOf u := by
  show (s.modifyUser member.userReg _).channelsOf u = _
  rw [channelsOf_modifyUser]
  split
  · rename_i same
    subst same
    unfold channelsOf
    rw [Option.map_map]
    rfl
  · rfl

theorem unlinkMember_usersOf (s : Regs) (target : MemberRegId)
    (member : MemberReg) (c : ChanRegId) :
    (s.unlinkMember target member).usersOf c =
      if c = member.channelReg then (s.usersOf c).map (Dlink.delete target)
      else s.usersOf c := by
  show ((s.modifyUser member.userReg _).modifyChan member.channelReg _).usersOf
    c = _
  rw [usersOf_modifyChan]
  split
  · rename_i same
    subst same
    unfold usersOf
    rw [Option.map_map]
    rfl
  · rfl

theorem unlinkMember_member (s : Regs) (target : MemberRegId)
    (member : MemberReg) :
    (s.unlinkMember target member).member = s.member.free target := rfl

theorem Wired.make (wired : s.Wired)
    (owner : ∃ list, s.channelsOf member.userReg = some list)
    (channel : ∃ list, s.usersOf member.channelReg = some list)
    (new : ∀ m other, s.member.cell m = some other →
      other.userReg = member.userReg →
      other.channelReg ≠ member.channelReg) :
    (s.makeMemberReg member).Wired := by
  have known (u : UserRegId) (some_ : ∃ list, s.channelsOf u = some list) :
      ∃ list, (s.makeMemberReg member).channelsOf u = some list := by
    obtain ⟨list, found⟩ := some_
    rw [makeMemberReg_channelsOf, found]
    split
    · exact ⟨_, rfl⟩
    · exact ⟨_, rfl⟩
  have there (c : ChanRegId) (some_ : ∃ list, s.usersOf c = some list) :
      ∃ list, (s.makeMemberReg member).usersOf c = some list := by
    obtain ⟨list, found⟩ := some_
    rw [makeMemberReg_usersOf, found]
    split
    · exact ⟨_, rfl⟩
    · exact ⟨_, rfl⟩
  constructor
  · intro m other used
    rw [makeMemberReg_member, Heap.alloc_cell] at used
    split at used
    · cases used
      exact known _ owner
    · exact known _ (wired.owner m other used)
  · intro m other used
    rw [makeMemberReg_member, Heap.alloc_cell] at used
    split at used
    · cases used
      exact there _ channel
    · exact there _ (wired.channel m other used)
  · intro u list found
    rw [makeMemberReg_channelsOf] at found
    rw [makeMemberReg_member]
    split at found
    · rename_i same
      obtain ⟨old, before, rfl⟩ := Option.map_eq_some_iff.mp found
      exact (wired.channels u old before).alloc_in same.symm
    · rename_i different
      exact (wired.channels u list found).alloc_out fun same =>
        different same.symm
  · intro c list found
    rw [makeMemberReg_usersOf] at found
    rw [makeMemberReg_member]
    split at found
    · rename_i same
      obtain ⟨old, before, rfl⟩ := Option.map_eq_some_iff.mp found
      exact (wired.users c old before).alloc_in same.symm
    · rename_i different
      exact (wired.users c list found).alloc_out fun same =>
        different same.symm
  · intro m n left right first second user chan
    rw [makeMemberReg_member, Heap.alloc_cell] at first second
    split at first
    · rename_i new_
      cases first
      split at second
      · rename_i again
        rw [new_, again]
      · exact absurd chan.symm (new n right second user.symm)
    · split at second
      · cases second
        exact absurd chan (new m left first user)
      · exact wired.unique m n left right first second user chan

theorem Wired.unlink (wired : s.Wired)
    (used : s.member.cell target = some member) :
    (s.unlinkMember target member).Wired := by
  have stays {m : MemberRegId} {other : MemberReg}
      (after : (s.unlinkMember target member).member.cell m = some other) :
      s.member.cell m = some other := by
    rw [unlinkMember_member, Heap.free_cell] at after
    split at after
    · cases after
    · exact after
  constructor
  · intro m other after
    obtain ⟨list, found⟩ := wired.owner m other (stays after)
    rw [unlinkMember_channelsOf, found]
    split
    · exact ⟨_, rfl⟩
    · exact ⟨_, rfl⟩
  · intro m other after
    obtain ⟨list, found⟩ := wired.channel m other (stays after)
    rw [unlinkMember_usersOf, found]
    split
    · exact ⟨_, rfl⟩
    · exact ⟨_, rfl⟩
  · intro u list found
    rw [unlinkMember_channelsOf] at found
    rw [unlinkMember_member]
    split at found
    · obtain ⟨old, before, rfl⟩ := Option.map_eq_some_iff.mp found
      exact (wired.channels u old before).free_in
    · rename_i different
      refine (wired.channels u list found).free_out ?_
      rw [Heap.has_iff used]
      exact fun same => different same.symm
  · intro c list found
    rw [unlinkMember_usersOf] at found
    rw [unlinkMember_member]
    split at found
    · obtain ⟨old, before, rfl⟩ := Option.map_eq_some_iff.mp found
      exact (wired.users c old before).free_in
    · rename_i different
      refine (wired.users c list found).free_out ?_
      rw [Heap.has_iff used]
      exact fun same => different same.symm
  · intro m n left right first second
    exact wired.unique m n left right (stays first) (stays second)

theorem Wired.modifyMember (wired : s.Wired) {change : MemberReg → MemberReg}
    (kept : ∀ member, (change member).userReg = member.userReg ∧
      (change member).channelReg = member.channelReg) :
    (s.modifyMember target change).Wired := by
  have old {m : MemberRegId} {other : MemberReg}
      (after : (s.member.modify target change).cell m = some other) :
      ∃ before, s.member.cell m = some before ∧
        other.userReg = before.userReg ∧
        other.channelReg = before.channelReg := by
    obtain ⟨before, found, changed⟩ := Heap.cell_of_modify after
    refine ⟨before, found, ?_⟩
    rw [changed]
    split
    · exact kept before
    · exact ⟨rfl, rfl⟩
  constructor
  · intro m other after
    obtain ⟨before, found, user, -⟩ := old after
    rw [user]
    exact wired.owner m before found
  · intro m other after
    obtain ⟨before, found, -, chan⟩ := old after
    rw [chan]
    exact wired.channel m before found
  · intro u list found
    refine (wired.channels u list found).modify_same fun value _ => ?_
    unfold OfUser
    rw [(kept value).1]
  · intro c list found
    refine (wired.users c list found).modify_same fun value _ => ?_
    unfold InChan
    rw [(kept value).2]
  · intro m n left right first second user chan
    obtain ⟨leftOld, leftFound, leftUser, leftChan⟩ := old first
    obtain ⟨rightOld, rightFound, rightUser, rightChan⟩ := old second
    rw [leftUser, rightUser] at user
    rw [leftChan, rightChan] at chan
    exact wired.unique m n leftOld rightOld leftFound rightFound user chan

theorem Wired.freeChan (wired : s.Wired) (none_ : s.usersOf c = some []) :
    (s.freeChannelReg c).Wired := by
  have users (other : ChanRegId) : (s.freeChannelReg c).usersOf other =
      if other = c then none else s.usersOf other := by
    unfold usersOf freeChannelReg
    rw [Heap.free_cell]
    split
    · rfl
    · rfl
  refine ⟨wired.owner, ?_, wired.channels, ?_, wired.unique⟩
  · intro m other used
    obtain ⟨list, found⟩ := wired.channel m other used
    rw [users]
    split
    · rename_i same
      have listed : m ∈ [] :=
        ((wired.users c [] none_).mem_iff m).mpr ⟨other, used, same⟩
      cases listed
    · exact ⟨list, found⟩
  · intro other list found
    rw [users] at found
    split at found
    · cases found
    · exact wired.users other list found

theorem Wired.freeUser (wired : s.Wired) (none_ : s.channelsOf u = some []) :
    ({ s with user := s.user.free u } : Regs).Wired := by
  have channels (other : UserRegId) :
      ({ s with user := s.user.free u } : Regs).channelsOf other =
        if other = u then none else s.channelsOf other := by
    unfold channelsOf
    rw [Heap.free_cell]
    split
    · rfl
    · rfl
  refine ⟨?_, wired.channel, ?_, wired.users, wired.unique⟩
  · intro m other used
    obtain ⟨list, found⟩ := wired.owner m other used
    rw [channels]
    split
    · rename_i same
      have listed : m ∈ [] :=
        ((wired.channels u [] none_).mem_iff m).mpr ⟨other, used, same⟩
      cases listed
    · exact ⟨list, found⟩
  · intro other list found
    rw [channels] at found
    split at found
    · cases found
    · exact wired.channels other list found

theorem addUserReg_channelsOf (s : Regs) (reg : UserReg) (u : UserRegId) :
    (s.addUserReg reg).channelsOf u =
      if u = s.user.next then some reg.channels else s.channelsOf u := by
  unfold channelsOf addUserReg
  rw [Heap.alloc_cell]
  split
  · rfl
  · rfl

theorem Wired.addUser (wired : s.Wired) {reg : UserReg}
    (none_ : reg.channels = []) : (s.addUserReg reg).Wired := by
  have absent : s.channelsOf s.user.next = none := by
    unfold channelsOf
    rw [s.user.cell_next]
    rfl
  refine ⟨?_, wired.channel, ?_, wired.users, wired.unique⟩
  · intro m other used
    obtain ⟨list, found⟩ := wired.owner m other used
    rw [addUserReg_channelsOf]
    split
    · exact ⟨_, rfl⟩
    · exact ⟨list, found⟩
  · intro u list found
    rw [addUserReg_channelsOf] at found
    split at found
    · rename_i new
      cases found
      rw [none_]
      refine .nil ?_
      rintro m ⟨other, used, same⟩
      obtain ⟨list, before⟩ := wired.owner m other used
      rw [same, new, absent] at before
      cases before
    · exact wired.channels u list found

def withChan (reg : ChanReg) (s : Regs) : Regs :=
  { s with
    chan := s.chan.alloc reg
    chanTable := Dlink.add s.chan.next s.chanTable }

theorem withChan_usersOf (s : Regs) (reg : ChanReg) (c : ChanRegId) :
    (s.withChan reg).usersOf c =
      if c = s.chan.next then some reg.users else s.usersOf c := by
  unfold usersOf withChan
  rw [Heap.alloc_cell]
  split
  · rfl
  · rfl

theorem usersOf_next (s : Regs) : s.usersOf s.chan.next = none := by
  unfold usersOf
  rw [s.chan.cell_next]
  rfl

theorem Wired.addChan (wired : s.Wired) {reg : ChanReg}
    (none_ : reg.users = []) : (s.withChan reg).Wired := by
  refine ⟨wired.owner, ?_, wired.channels, ?_, wired.unique⟩
  · intro m other used
    obtain ⟨list, found⟩ := wired.channel m other used
    rw [withChan_usersOf]
    split
    · exact ⟨_, rfl⟩
    · exact ⟨list, found⟩
  · intro c list found
    rw [withChan_usersOf] at found
    split at found
    · rename_i new
      cases found
      rw [none_]
      refine .nil ?_
      rintro m ⟨other, used, same⟩
      obtain ⟨list, before⟩ := wired.channel m other used
      rw [same, new, usersOf_next] at before
      cases before
    · exact wired.users c list found

end Lists

section Highest

variable {s : Regs}

theorem searchHighest_mem {list : List MemberRegId}
    {tops : Option MemberRegId × Option MemberRegId} {m : MemberRegId}
    (found : (list.foldl s.searchHighest tops).1 = some m ∨
      (list.foldl s.searchHighest tops).2 = some m) :
    m ∈ list ∨ tops.1 = some m ∨ tops.2 = some m := by
  induction list generalizing tops with
  | nil => exact Or.inr found
  | cons first rest ih =>
      obtain later | here := ih found
      · exact Or.inl (List.mem_cons_of_mem _ later)
      · unfold searchHighest at here
        split at here
        · split at here
          · obtain one | two := here
            · exact Or.inr (Or.inl one)
            · cases two
              exact Or.inl List.mem_cons_self
          · exact Or.inr here
        · split at here
          · obtain one | two := here
            · cases one
              exact Or.inl List.mem_cons_self
            · exact Or.inr (Or.inr two)
          · exact Or.inr here

theorem searchHighest_some (list : List MemberRegId)
    {tops : Option MemberRegId × Option MemberRegId}
    (some_ : tops.1 ≠ none ∨ tops.2 ≠ none) :
    (list.foldl s.searchHighest tops).1 ≠ none ∨
      (list.foldl s.searchHighest tops).2 ≠ none := by
  induction list generalizing tops with
  | nil => exact some_
  | cons first rest ih =>
      refine ih ?_
      unfold searchHighest
      split
      · split
        · exact Or.inr (by simp)
        · exact some_
      · split
        · exact Or.inl (by simp)
        · exact some_

theorem exists_highest {list : List MemberRegId} (nonempty : list ≠ []) :
    ∃ top ∈ list, s.highest list = some top := by
  obtain ⟨first, rest, rfl⟩ := List.exists_cons_of_ne_nil nonempty
  have one : (s.searchHighest (none, none) first).1 ≠ none ∨
      (s.searchHighest (none, none) first).2 ≠ none := by
    unfold searchHighest
    split
    · exact Or.inr (by simp [isAbove])
    · exact Or.inl (by simp [isAbove])
  have some_ := searchHighest_some (s := s) rest one
  have from_ (m : MemberRegId)
      (found : ((first :: rest).foldl s.searchHighest (none, none)).1 = some m ∨
        ((first :: rest).foldl s.searchHighest (none, none)).2 = some m) :
      m ∈ first :: rest := by
    obtain listed | none_ | none_ := searchHighest_mem found
    · exact listed
    · cases none_
    · cases none_
  unfold highest
  rw [List.foldl_cons] at from_ ⊢
  cases top : (rest.foldl s.searchHighest
      (s.searchHighest (none, none) first)).1 with
  | some m =>
      refine ⟨m, from_ m (Or.inl top), ?_⟩
      simp only [top]
  | none =>
      cases topsus : (rest.foldl s.searchHighest
          (s.searchHighest (none, none) first)).2 with
      | some m =>
          refine ⟨m, from_ m (Or.inr topsus), ?_⟩
          simp only [top, topsus]
      | none => simp [top, topsus] at some_

end Highest

section Free

variable {Unruled : ChanRegId → Prop} {s : Regs} {target : MemberRegId}
  {member : MemberReg} {conf : ServConfig}

theorem unlinkMember_cell {m : MemberRegId} {other : MemberReg} :
    (s.unlinkMember target member).member.cell m = some other ↔
      m ≠ target ∧ s.member.cell m = some other := by
  rw [unlinkMember_member, Heap.free_cell]
  by_cases equal : m = target
  · simp [equal]
  · simp [equal]

theorem Ruled.unlink (ruled : s.Ruled c)
    (used : s.member.cell target = some member)
    (other : member.channelReg = c → member.level ≠ sCOwner) :
    (s.unlinkMember target member).Ruled c := by
  obtain ⟨m, owner, found, inside, level, suspend, rest⟩ := ruled
  refine ⟨m, owner, unlinkMember_cell.mpr ⟨?_, found⟩, inside, level, suspend,
    fun n entry there => rest n entry (unlinkMember_cell.mp there).2⟩
  rintro rfl
  rw [used, Option.some.injEq] at found
  subst found
  exact other inside level

theorem Ruled.promote (ruled : s.Ruled c)
    (used : s.member.cell target = some member) (inside : member.channelReg = c)
    (owner : member.level = sCOwner) {top : MemberRegId} {entry : MemberReg}
    (found : (s.unlinkMember target member).member.cell top = some entry)
    (same : entry.channelReg = c) :
    ((s.unlinkMember target member).promote conf top).Ruled c := by
  obtain ⟨m, first, there, firstIn, -, -, rest⟩ := ruled
  have only : m = target := by
    by_contra different
    have below := rest target member used inside fun equal =>
      different equal.symm
    omega
  unfold Regs.promote
  rw [found]
  refine ⟨top, { entry with
      level := sCOwner
      lastmod := conf.myName
      suspend := 0 }, ?_, same, rfl, rfl, ?_⟩
  · show ((s.unlinkMember target member).member.modify top _).cell top = _
    rw [Heap.modify_cell_self, found]
    rfl
  · intro n other after inChan different
    have before : (s.unlinkMember target member).member.cell n =
        some other := by
      rw [← after]
      exact (Heap.modify_cell_of_ne _ _ different).symm
    obtain ⟨left, old⟩ := unlinkMember_cell.mp before
    exact rest n other old inChan (only ▸ left)

theorem promote_member (s : Regs) (top : MemberRegId) :
    (s.promote conf top).member = s.member.modify top fun member =>
      { member with
        level := sCOwner
        lastmod := conf.myName
        suspend := 0 } := by
  unfold promote
  cases found : s.member.cell top with
  | some member => rfl
  | none =>
      show s.member = _
      ext1
      · funext m
        rw [Heap.modify_cell]
        split
        · rename_i same
          rw [same, found]
          rfl
        · rfl
      · rfl

theorem promote_channelsOf (s : Regs) (top : MemberRegId) :
    (s.promote conf top).channelsOf = s.channelsOf := by
  unfold promote
  cases s.member.cell top <;> rfl

theorem promote_usersOf (s : Regs) (top : MemberRegId) :
    (s.promote conf top).usersOf = s.usersOf := by
  unfold promote
  cases s.member.cell top <;> rfl

theorem Wired.congr {t : Regs} (wired : s.Wired)
    (channels : t.channelsOf = s.channelsOf) (users : t.usersOf = s.usersOf)
    (entries : t.member = s.member) : t.Wired := by
  obtain ⟨owner, channel, inChannels, inUsers, unique⟩ := wired
  refine ⟨?_, ?_, ?_, ?_, ?_⟩
  · rwa [channels, entries]
  · rwa [users, entries]
  · rwa [channels, entries]
  · rwa [users, entries]
  · rwa [entries]

theorem Wired.promote (wired : s.Wired) (top : MemberRegId) :
    (s.promote conf top).Wired := by
  have modified : (s.modifyMember top fun member =>
      { member with
        level := sCOwner
        lastmod := conf.myName
        suspend := 0 }).Wired := wired.modifyMember fun _ => ⟨rfl, rfl⟩
  exact modified.congr (promote_channelsOf s top) (promote_usersOf s top)
    (promote_member s top)

/-- What `free_member_reg` does after the entry has left its lists. -/
inductive Freed (conf : ServConfig) (upgrade : Bool) (member : MemberReg)
    (s : Regs) : Regs → Prop where
  | channel (none_ : s.usersOf member.channelReg = some []) :
      Freed conf upgrade member s (s.freeChannelReg member.channelReg)
  | promoted (top : MemberRegId) (entry : MemberReg)
      (owner : member.level = sCOwner) (upgraded : upgrade = true)
      (found : s.member.cell top = some entry)
      (inside : entry.channelReg = member.channelReg) :
      Freed conf upgrade member s (s.promote conf top)
  | left (users : List MemberRegId) (some_ : users ≠ [])
      (there : s.usersOf member.channelReg = some users)
      (kept : member.level = sCOwner → upgrade = false) :
      Freed conf upgrade member s s

theorem freeMemberReg_freed (wired : s.Wired) (upgrade : Bool)
    (used : s.member.cell target = some member) :
    Freed conf upgrade member (s.unlinkMember target member)
      (s.freeMemberReg conf upgrade target) := by
  have after := wired.unlink used
  obtain ⟨list, listed⟩ := wired.channel target member used
  have users : (s.unlinkMember target member).usersOf member.channelReg =
      some (Dlink.delete target list) := by
    rw [unlinkMember_usersOf, if_pos rfl, listed]
    rfl
  obtain ⟨reg, cell, same⟩ := Option.map_eq_some_iff.mp users
  unfold freeMemberReg
  simp only [used, cell]
  split
  · rename_i empty
    refine .channel ?_
    rw [users, ← same]
    exact congrArg some (List.isEmpty_iff.mp empty)
  · rename_i empty
    have nonempty : reg.users ≠ [] := by simpa using empty
    split
    · rename_i owner
      rw [Bool.and_eq_true, beq_iff_eq] at owner
      obtain ⟨top, inside, found⟩ :=
        exists_highest (s := s.unlinkMember target member) nonempty
      rw [found]
      rw [same] at inside
      obtain ⟨entry, there, chan⟩ :=
        ((after.users _ _ users).mem_iff top).mp inside
      exact .promoted top entry owner.1 owner.2 there chan
    · rename_i owner
      refine .left reg.users nonempty (by rw [users, same]) fun level => ?_
      cases upgrade with
      | false => rfl
      | true => simp [level] at owner

theorem Freed.member_cell {upgrade : Bool} {t : Regs}
    (freed : Freed conf upgrade member s t) {m : MemberRegId}
    {other : MemberReg} (after : t.member.cell m = some other) :
    ∃ old, s.member.cell m = some old ∧ other.userReg = old.userReg ∧
      other.channelReg = old.channelReg := by
  cases freed with
  | channel none_ => exact ⟨other, after, rfl, rfl⟩
  | promoted top entry owner upgraded found inside =>
      rw [promote_member] at after
      obtain ⟨old, before, changed⟩ := Heap.cell_of_modify after
      refine ⟨old, before, ?_⟩
      rw [changed]
      split
      · exact ⟨rfl, rfl⟩
      · exact ⟨rfl, rfl⟩
  | left users some_ there kept => exact ⟨other, after, rfl, rfl⟩

theorem Ruled.modify_of_ne (ruled : s.Ruled c) {entry : MemberReg}
    (found : s.member.cell target = some entry)
    (different : entry.channelReg ≠ c) {change : MemberReg → MemberReg}
    (kept : ∀ entry, (change entry).channelReg = entry.channelReg) :
    (s.modifyMember target change).Ruled c := by
  obtain ⟨m, owner, there, inside, level, suspend, rest⟩ := ruled
  have other : m ≠ target := by
    rintro rfl
    rw [found, Option.some.injEq] at there
    exact different (there ▸ inside)
  refine ⟨m, owner, ?_, inside, level, suspend, ?_⟩
  · rw [← there]
    exact Heap.modify_cell_of_ne _ _ other
  · intro n entry' after inChan apart
    obtain ⟨old, before, changed⟩ := Heap.cell_of_modify after
    by_cases same : n = target
    · rw [if_pos same] at changed
      rw [same, found, Option.some.injEq] at before
      rw [changed, kept, ← before] at inChan
      exact absurd inChan different
    · rw [if_neg same] at changed
      exact rest n entry' (changed ▸ before) inChan apart

theorem Ruled.congr {t : Regs} (ruled : s.Ruled c)
    (entries : t.member = s.member) : t.Ruled c := by
  unfold Ruled at ruled ⊢
  rwa [entries]

theorem freeChannelReg_usersOf (s : Regs) (target c : ChanRegId) :
    (s.freeChannelReg target).usersOf c =
      if c = target then none else s.usersOf c := by
  unfold Regs.usersOf freeChannelReg
  rw [Heap.free_cell]
  split
  · rfl
  · rfl

theorem AccessInv.freeMember (inv : AccessInv Unruled s) (upgrade : Bool)
    (target : MemberRegId) (allowed : upgrade = true ∨ ∀ member,
      s.member.cell target = some member → Unruled member.channelReg) :
    AccessInv Unruled (s.freeMemberReg conf upgrade target) := by
  cases used : s.member.cell target with
  | none =>
      unfold freeMemberReg
      rw [used]
      exact inv
  | some member =>
      have wired := inv.wired.unlink used
      have freed : Freed conf upgrade member (s.unlinkMember target member)
          (s.freeMemberReg conf upgrade target) :=
        freeMemberReg_freed inv.wired upgrade used
      have elsewhere {c : ChanRegId} {list : List MemberRegId}
          (different : c ≠ member.channelReg)
          (there : (s.unlinkMember target member).usersOf c = some list) :
          list ≠ [] ∧ (Unruled c ∨ (s.unlinkMember target member).Ruled c) := by
        rw [unlinkMember_usersOf, if_neg different] at there
        refine ⟨inv.occupied c list there, ?_⟩
        obtain free | ruled := inv.ruled c list there
        · exact Or.inl free
        · exact Or.inr (ruled.unlink used fun same =>
            absurd same.symm different)
      have tame {m : MemberRegId} {other : MemberReg}
          (there : (s.unlinkMember target member).member.cell m =
            some other) : Tame other :=
        inv.tame m other (unlinkMember_cell.mp there).2
      generalize equal : s.freeMemberReg conf upgrade target = t at freed ⊢
      cases freed with
      | channel none_ =>
          refine ⟨wired.freeChan none_, ?_, ?_, fun m other => tame⟩
          · intro c list there
            rw [freeChannelReg_usersOf] at there
            split at there
            · cases there
            · rename_i different
              exact (elsewhere different there).1
          · intro c list there
            rw [freeChannelReg_usersOf] at there
            split at there
            · cases there
            · rename_i different
              exact (elsewhere different there).2
      | promoted top entry owner upgraded found inside =>
          refine ⟨wired.promote top, ?_, ?_, ?_⟩
          · intro c list there
            rw [promote_usersOf] at there
            by_cases same : c = member.channelReg
            · subst same
              have listed := ((wired.users _ _ there).mem_iff top).mpr
                ⟨entry, found, inside⟩
              exact List.ne_nil_of_mem listed
            · exact (elsewhere same there).1
          · intro c list there
            rw [promote_usersOf] at there
            by_cases same : c = member.channelReg
            · subst same
              obtain ⟨old, before⟩ := inv.wired.channel target member used
              obtain free | ruled := inv.ruled _ _ before
              · exact Or.inl free
              · exact Or.inr (ruled.promote used rfl owner found inside)
            · obtain free | ruled := (elsewhere same there).2
              · exact Or.inl free
              · have modified : ((s.unlinkMember target member).modifyMember top
                    fun entry =>
                      { entry with
                        level := sCOwner
                        lastmod := conf.myName
                        suspend := 0 }).Ruled c :=
                  ruled.modify_of_ne found
                    (fun equal => same (equal.symm.trans inside)) fun _ => rfl
                exact Or.inr (modified.congr (promote_member _ top))
          · intro m other after
            rw [promote_member] at after
            obtain ⟨old, before, changed⟩ := Heap.cell_of_modify after
            have known := tame before
            rw [changed]
            split
            · exact ⟨⟨le_refl _, by simp [sCOwner]⟩, known.flags⟩
            · exact known
      | left users some_ there kept =>
          refine ⟨wired, ?_, ?_, fun m other => tame⟩
          · intro c list found
            by_cases same : c = member.channelReg
            · subst same
              rw [there, Option.some.injEq] at found
              exact found ▸ some_
            · exact (elsewhere same found).1
          · intro c list found
            by_cases same : c = member.channelReg
            · subst same
              obtain ⟨old, before⟩ := inv.wired.channel target member used
              obtain free | ruled := inv.ruled _ _ before
              · exact Or.inl free
              · by_cases owner : member.level = sCOwner
                · obtain upgraded | free := allowed
                  · rw [kept owner] at upgraded
                    cases upgraded
                  · exact Or.inl (free member used)
                · exact Or.inr (ruled.unlink used fun _ => owner)
            · exact (elsewhere same found).2

theorem freeMemberReg_cell (inv : AccessInv Unruled s) {upgrade : Bool}
    {m : MemberRegId} {other : MemberReg}
    (after : (s.freeMemberReg conf upgrade target).member.cell m =
      some other) :
    m ≠ target ∧ ∃ old, s.member.cell m = some old ∧
      other.userReg = old.userReg ∧ other.channelReg = old.channelReg := by
  cases used : s.member.cell target with
  | none =>
      unfold freeMemberReg at after
      rw [used] at after
      refine ⟨?_, other, after, rfl, rfl⟩
      rintro rfl
      rw [used] at after
      cases after
  | some member =>
      have freed : Freed conf upgrade member (s.unlinkMember target member)
          (s.freeMemberReg conf upgrade target) :=
        freeMemberReg_freed inv.wired upgrade used
      obtain ⟨old, before, same⟩ := freed.member_cell after
      obtain ⟨different, there⟩ := unlinkMember_cell.mp before
      exact ⟨different, old, there, same⟩

theorem AccessInv.freeMembers (conf : ServConfig) (inv : AccessInv Unruled s)
    (upgrade : Bool) (entries : List MemberRegId)
    (allowed : upgrade = true ∨ ∀ m ∈ entries, ∀ member,
      s.member.cell m = some member → Unruled member.channelReg) :
    AccessInv Unruled (entries.foldl
        (fun s entry => s.freeMemberReg conf upgrade entry) s) ∧
      ∀ m other, (entries.foldl
          (fun s entry => s.freeMemberReg conf upgrade entry) s).member.cell m =
            some other →
        m ∉ entries ∧ ∃ old, s.member.cell m = some old ∧
          other.userReg = old.userReg ∧
          other.channelReg = old.channelReg := by
  induction entries generalizing s with
  | nil => exact ⟨inv, fun m other found => ⟨by simp, other, found, rfl, rfl⟩⟩
  | cons first rest ih =>
      have one : AccessInv Unruled (s.freeMemberReg conf upgrade first) := by
        refine inv.freeMember upgrade first (allowed.imp_right fun free => ?_)
        exact free first List.mem_cons_self
      have later : upgrade = true ∨ ∀ m ∈ rest, ∀ member,
          (s.freeMemberReg conf upgrade first).member.cell m = some member →
            Unruled member.channelReg := by
        refine allowed.imp_right fun free m listed member found => ?_
        obtain ⟨-, old, before, -, same⟩ := freeMemberReg_cell inv found
        rw [same]
        exact free m (List.mem_cons_of_mem _ listed) old before
      obtain ⟨kept, cells⟩ := ih one later
      refine ⟨kept, fun m other found => ?_⟩
      obtain ⟨absent, middle, there, user, chan⟩ := cells m other found
      obtain ⟨different, old, before, user', chan'⟩ :=
        freeMemberReg_cell inv there
      refine ⟨?_, old, before, user.trans user', chan.trans chan'⟩
      simp [different, absent]

theorem AccessInv.weaken {Weaker : ChanRegId → Prop}
    (inv : AccessInv Unruled s) (weaker : ∀ c, Unruled c → Weaker c) :
    AccessInv Weaker s :=
  { inv with
    ruled := fun c list there => (inv.ruled c list there).imp_left (weaker c) }

theorem AccessInv.destroyChannel (inv : AccessInv Unruled s)
    (c : ChanRegId) : AccessInv Unruled (s.destroyChannelReg conf c) := by
  unfold destroyChannelReg
  split
  · exact inv
  rename_i reg found
  have same : AccessInv Unruled
      (s.deleteMembers fun row => row.chname == reg.name) :=
    inv.congr rfl rfl rfl
  have start : AccessInv (fun other => Unruled other ∨ other = c)
      (s.deleteMembers fun row => row.chname == reg.name) :=
    same.weaken fun _ => Or.inl
  have users : s.usersOf c = some reg.users := by
    unfold usersOf
    rw [found]
    rfl
  have index := inv.wired.users c reg.users users
  obtain ⟨kept, cells⟩ := start.freeMembers conf false reg.users <| by
    refine Or.inr fun m listed member there => Or.inr ?_
    obtain ⟨value, cell, inside⟩ := (index.mem_iff m).mp listed
    rw [Option.some.inj (there.symm.trans cell)]
    exact inside
  refine { kept with ruled := fun other list there => ?_ }
  obtain (free | rfl) | ruled := kept.ruled other list there
  · exact Or.inl free
  · -- nobody is left in its list, which a channel never survives
    exfalso
    refine kept.occupied _ list there (List.eq_nil_iff_forall_not_mem.mpr ?_)
    intro m listed
    obtain ⟨value, cell, inside⟩ :=
      ((kept.wired.users _ list there).mem_iff m).mp listed
    obtain ⟨absent, old, before, -, same⟩ := cells m value cell
    exact absent ((index.mem_iff m).mpr ⟨old, before, same.symm.trans inside⟩)
  · exact Or.inr ruled

structure SameAccounts (s t : Regs) : Prop where
  login : t.login = s.login
  userTable : t.userTable = s.userTable
  users : t.users = s.users
  core : ∀ u, (t.user.cell u).map UserReg.core =
    (s.user.cell u).map UserReg.core

theorem SameAccounts.trans {r t : Regs} (first : SameAccounts r s)
    (second : SameAccounts s t) : SameAccounts r t where
  login := second.login.trans first.login
  userTable := second.userTable.trans first.userTable
  users := second.users.trans first.users
  core := fun u => (second.core u).trans (first.core u)

theorem SameAccounts.freeMember (conf : ServConfig) (s : Regs)
    (upgrade : Bool) (target : MemberRegId) :
    SameAccounts s (s.freeMemberReg conf upgrade target) := by
  have unlinked (member : MemberReg) :
      SameAccounts s (s.unlinkMember target member) := by
    refine ⟨rfl, rfl, rfl, fun u => ?_⟩
    show ((s.user.modify member.userReg _).cell u).map UserReg.core = _
    apply Heap.modify_cell_map
    exact fun _ => rfl
  have promoted (s : Regs) (top : MemberRegId) :
      SameAccounts s (s.promote conf top) := by
    unfold promote
    split
    · exact ⟨rfl, rfl, rfl, fun _ => rfl⟩
    · exact ⟨rfl, rfl, rfl, fun _ => rfl⟩
  have dropped (s : Regs) (c : ChanRegId) :
      SameAccounts s (s.freeChannelReg c) :=
    ⟨rfl, rfl, rfl, fun _ => rfl⟩
  unfold freeMemberReg
  split
  · exact ⟨rfl, rfl, rfl, fun _ => rfl⟩
  · rename_i member used
    dsimp only
    split
    · exact unlinked member
    · split
      · exact (unlinked member).trans (dropped _ _)
      · split
        · split
          · exact (unlinked member).trans (promoted _ _)
          · exact unlinked member
        · exact unlinked member

theorem SameAccounts.freeMembers (conf : ServConfig) (s : Regs)
    (upgrade : Bool) (entries : List MemberRegId) :
    SameAccounts s (entries.foldl
      (fun s entry => s.freeMemberReg conf upgrade entry) s) := by
  induction entries generalizing s with
  | nil => exact ⟨rfl, rfl, rfl, fun _ => rfl⟩
  | cons first rest ih =>
      exact (SameAccounts.freeMember conf s upgrade first).trans (ih _)

theorem AccessInv.freeUser (inv : AccessInv Unruled s) (u : UserRegId) :
    AccessInv Unruled (s.freeUserReg conf u) := by
  unfold freeUserReg
  split
  · exact inv
  rename_i reg found
  dsimp only
  have start : AccessInv Unruled
      (({ s with userTable := Dlink.delete u s.userTable } : Regs).deleteMembers
        fun row => row.username == reg.name) := inv.congr rfl rfl rfl
  have channels : s.channelsOf u = some reg.channels := by
    unfold channelsOf
    rw [found]
    rfl
  have index := inv.wired.channels u reg.channels channels
  obtain ⟨kept, cells⟩ :=
    start.freeMembers conf true reg.channels (Or.inl rfl)
  have core := (SameAccounts.freeMembers conf
    (({ s with userTable := Dlink.delete u s.userTable } : Regs).deleteMembers
      fun row => row.username == reg.name) true reg.channels).core u
  generalize List.foldl _ _ reg.channels = t at kept cells core ⊢
  have alone : t.channelsOf u = some [] := by
    have live : (t.user.cell u).map UserReg.core = some reg.core := by
      rw [core]
      show (s.user.cell u).map UserReg.core = _
      rw [found]
      rfl
    obtain ⟨last, cell, -⟩ := Option.map_eq_some_iff.mp live
    have listed : t.channelsOf u = some last.channels := by
      unfold channelsOf
      rw [cell]
      rfl
    rw [listed, Option.some.injEq, List.eq_nil_iff_forall_not_mem]
    intro m there
    obtain ⟨value, used, owner⟩ :=
      ((kept.wired.channels u _ listed).mem_iff m).mp there
    obtain ⟨absent, old, before, same, -⟩ := cells m value used
    exact absent ((index.mem_iff m).mpr ⟨old, before, same.symm.trans owner⟩)
  have wired : ({ t with
      users := t.users.filter fun name => name != reg.name
      user := t.user.free u } : Regs).Wired :=
    (kept.wired.freeUser alone).congr rfl rfl rfl
  exact ⟨wired, kept.occupied, kept.ruled, kept.tame⟩

end Free

section Entries

variable {Unruled : ChanRegId → Prop} {s : Regs} {target : MemberRegId}
  {member : MemberReg}

def Ordinary (level : Int) : Prop :=
  1 ≤ level ∧ level < sCOwner

theorem Ruled.make (ruled : s.Ruled c)
    (level : member.channelReg = c → Ordinary member.level) :
    (s.makeMemberReg member).Ruled c := by
  obtain ⟨m, owner, there, inside, top, suspend, rest⟩ := ruled
  refine ⟨m, owner, ?_, inside, top, suspend, ?_⟩
  · rw [makeMemberReg_member]
    exact Heap.alloc_cell_of_used there
  · intro n other after inChan different
    rw [makeMemberReg_member, Heap.alloc_cell] at after
    split at after
    · cases after
      exact level inChan
    · exact rest n other after inChan different

theorem AccessInv.addMember (inv : AccessInv Unruled s)
    (owner : ∃ list, s.channelsOf member.userReg = some list)
    (channel : ∃ list, s.usersOf member.channelReg = some list)
    (new : ∀ m other, s.member.cell m = some other →
      other.userReg = member.userReg → other.channelReg ≠ member.channelReg)
    (level : Ordinary member.level) (tame : Tame member) :
    AccessInv Unruled (s.addMember member) := by
  have made : AccessInv Unruled (s.makeMemberReg member) := by
    refine ⟨inv.wired.make owner channel new, ?_, ?_, ?_⟩
    · intro c list there
      rw [makeMemberReg_usersOf] at there
      split at there
      · obtain ⟨old, -, rfl⟩ := Option.map_eq_some_iff.mp there
        simp [Dlink.add]
      · exact inv.occupied c list there
    · intro c list there
      have before : ∃ list, s.usersOf c = some list := by
        rw [makeMemberReg_usersOf] at there
        split at there
        · obtain ⟨old, before, -⟩ := Option.map_eq_some_iff.mp there
          exact ⟨old, before⟩
        · exact ⟨list, there⟩
      obtain ⟨old, before⟩ := before
      exact (inv.ruled c old before).imp_right fun ruled =>
        ruled.make fun _ => level
    · intro m other after
      rw [makeMemberReg_member, Heap.alloc_cell] at after
      split at after
      · cases after
        exact tame
      · exact inv.tame m other after
  exact made.congr rfl rfl rfl

structure Proper (before after : MemberReg) : Prop where
  user : after.userReg = before.userReg
  chan : after.channelReg = before.channelReg
  level : after.level = before.level ∨
    before.level ≠ sCOwner ∧ Ordinary after.level
  suspend : before.level = sCOwner → after.suspend = 0
  tame : Tame after

theorem Ruled.modify {change : MemberReg → MemberReg} (ruled : s.Ruled c)
    (found : s.member.cell target = some member)
    (proper : Proper member (change member)) :
    (s.modifyMember target change).Ruled c := by
  obtain ⟨m, owner, there, inside, top, suspend, rest⟩ := ruled
  have others (n : MemberRegId) (other : MemberReg)
      (after : (s.member.modify target change).cell n = some other)
      (inChan : other.channelReg = c) (different : n ≠ m) :
      1 ≤ other.level ∧ other.level < sCOwner := by
    obtain ⟨old, before, changed⟩ := Heap.cell_of_modify after
    by_cases same : n = target
    · rw [if_pos same] at changed
      rw [same, found, Option.some.injEq] at before
      subst before changed
      obtain level | ⟨-, level⟩ := proper.level
      · rw [level]
        exact rest n member (same ▸ found) (proper.chan ▸ inChan) different
      · exact level
    · rw [if_neg same] at changed
      exact rest n other (changed ▸ before) inChan different
  by_cases same : m = target
  · rw [same, found, Option.some.injEq] at there
    subst there
    refine ⟨m, change member, ?_, proper.chan.trans inside, ?_,
      proper.suspend top, others⟩
    · show (s.member.modify target change).cell m = _
      rw [Heap.modify_cell, if_pos same, found]
      rfl
    · obtain level | ⟨below, -⟩ := proper.level
      · exact level.trans top
      · exact absurd top below
  · refine ⟨m, owner, ?_, inside, top, suspend, others⟩
    show (s.member.modify target change).cell m = _
    rw [Heap.modify_cell_of_ne _ _ same, there]

theorem AccessInv.setMember (inv : AccessInv Unruled s)
    {change : MemberReg → MemberReg} {row : MemberRow → MemberRow}
    (found : s.member.cell target = some member)
    (kept : ∀ entry, (change entry).userReg = entry.userReg ∧
      (change entry).channelReg = entry.channelReg)
    (proper : Proper member (change member)) :
    AccessInv Unruled (s.setMember target member change row) := by
  have changed : AccessInv Unruled (s.modifyMember target change) := by
    refine ⟨inv.wired.modifyMember kept, inv.occupied, ?_, ?_⟩
    · intro c list there
      exact (inv.ruled c list there).imp_right fun ruled =>
        ruled.modify found proper
    · intro m other after
      obtain ⟨old, before, equal⟩ := Heap.cell_of_modify after
      rw [equal]
      split
      · rename_i same
        rw [same, found, Option.some.injEq] at before
        exact before ▸ proper.tame
      · exact inv.tame m old before
  exact changed.congr rfl rfl rfl

theorem AccessInv.newUser (inv : AccessInv Unruled s) {reg : UserReg}
    (none_ : reg.channels = []) (names : List CString) :
    AccessInv Unruled { s.addUserReg reg with users := names } := by
  have added : AccessInv Unruled (s.addUserReg reg) :=
    ⟨inv.wired.addUser none_, inv.occupied, inv.ruled, inv.tame⟩
  exact added.congr rfl rfl rfl

theorem AccessInv.newChan (inv : AccessInv Unruled s) {account : UserRegId}
    (owner : ∃ list, s.channelsOf account = some list) (now : Int)
    (name : Token) (lastmod : CString) :
    AccessInv Unruled (s.registerChannel now name account lastmod) := by
  let reg : ChanReg := { name := name.text, lastTime := now }
  let entry : MemberReg :=
    { userReg := account
      channelReg := s.chan.next
      lastmod := lastmod
      level := sCOwner
      flags := 0#32 }
  have nobody (m : MemberRegId) (other : MemberReg)
      (used : s.member.cell m = some other) :
      other.channelReg ≠ s.chan.next := by
    intro same
    obtain ⟨list, there⟩ := inv.wired.channel m other used
    rw [same, usersOf_next] at there
    cases there
  have wired : ((s.withChan reg).makeMemberReg entry).Wired := by
    refine (inv.wired.addChan rfl).make owner ⟨[], ?_⟩ fun m other used _ =>
      nobody m other used
    rw [withChan_usersOf, if_pos rfl]
  have users (c : ChanRegId) :
      ((s.withChan reg).makeMemberReg entry).usersOf c =
        if c = s.chan.next then some [s.member.next] else s.usersOf c := by
    rw [makeMemberReg_usersOf, withChan_usersOf]
    by_cases same : c = s.chan.next
    · simp only [same, if_true, entry]
      rfl
    · simp only [if_neg same, entry]
  have made : AccessInv Unruled ((s.withChan reg).makeMemberReg entry) := by
    refine ⟨wired, ?_, ?_, ?_⟩
    · intro c list there
      rw [users] at there
      split at there
      · cases there
        simp
      · exact inv.occupied c list there
    · intro c list there
      rw [users] at there
      split at there
      · rename_i same
        refine Or.inr ⟨s.member.next, entry, ?_, same.symm, rfl, rfl, ?_⟩
        · exact Heap.alloc_cell_next _ _
        · intro n other after inChan different
          rw [makeMemberReg_member, Heap.alloc_cell] at after
          split at after
          · rename_i new
            exact absurd new different
          · exact absurd (inChan.trans same) (nobody n other after)
      · rename_i different
        refine (inv.ruled c list there).imp_right fun ruled => ?_
        have opened : (s.withChan reg).Ruled c := ruled.congr rfl
        exact opened.make fun same => absurd same.symm different
    · intro m other after
      rw [makeMemberReg_member, Heap.alloc_cell] at after
      split at after
      · cases after
        exact ⟨⟨le_refl _, by simp [sCOwner, entry]⟩, by simp [entry]⟩
      · exact inv.tame m other after
  exact made.congr rfl rfl rfl

end Entries

end Regs

end RatboxServices
