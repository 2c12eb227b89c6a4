import RatboxServices.Serv.LoginRun

namespace RatboxServices

open CString

/-! Table `members` against the entries in memory. -/

def MemberRow.key (row : MemberRow) : CString × CString :=
  (row.chname, row.username)

theorem MemberRow.isOf_iff {chname username : CString} {row : MemberRow} :
    MemberRow.isOf chname username row = true ↔ row.key = (chname, username) := by
  unfold isOf key
  rw [Bool.and_eq_true, beq_iff_eq, beq_iff_eq, Prod.mk.injEq]

namespace Regs

variable {conf : ServConfig} {Given : CString → Prop} {Broken : Prop}
  {Unruled : ChanRegId → Prop} {Skip : MemberReg → Prop} {r s t : Regs}
  {target : MemberRegId} {member : MemberReg}

/-- The table has the rows of the entries, those of `Skip` apart, and no two
rows that a statement could not tell from each other. -/
structure RowsInv (Skip : MemberReg → Prop) (s : Regs) : Prop where
  keys : (s.members.map MemberRow.key).Nodup
  rows : ∀ row, row ∈ s.members ↔ ∃ m member, s.member.cell m = some member ∧
    ¬Skip member ∧ s.rowOf member = row

theorem SameNames.userName (same : SameNames s t) : t.userName = s.userName := by
  funext u
  have equal := congrArg (Option.map Prod.fst) (same.names u)
  unfold Regs.userName
  cases left : t.user.cell u <;> cases right : s.user.cell u <;>
    simp_all [UserReg.names]

theorem SameChans.chanName (same : SameChans s t) : t.chanName = s.chanName := by
  funext c
  have equal := same.names c
  unfold Regs.chanName
  cases left : t.chan.cell c <;> cases right : s.chan.cell c <;> simp_all

theorem rowOf_congr (users : t.userName = s.userName)
    (chans : t.chanName = s.chanName) : t.rowOf = s.rowOf := by
  funext member
  unfold rowOf
  rw [users, chans]

def OneName (s : Regs) : Prop :=
  ∀ u v left right, s.user.cell u = some left →
    s.user.cell v = some right → left.name = right.name → u = v

theorem OneName.same (accounts : OneName s)
    (names : ∀ u, (t.user.cell u).map UserReg.names =
      (s.user.cell u).map UserReg.names) : OneName t := by
  have old {u : UserRegId} {new : UserReg} (found : t.user.cell u = some new) :
      ∃ old, s.user.cell u = some old ∧ old.name = new.name := by
    have equal := names u
    rw [found] at equal
    obtain ⟨old, before, same⟩ := Option.map_eq_some_iff.mp equal.symm
    exact ⟨old, before, congrArg Prod.fst same⟩
  intro u v left right first second same
  obtain ⟨before, there, name⟩ := old first
  obtain ⟨before', there', name'⟩ := old second
  rw [← name, ← name'] at same
  exact accounts u v before before' there there' same

theorem Wired.distinct (wired : s.Wired) (accounts : OneName s)
    (channels : ChannelInv s) {m n : MemberRegId} {left right : MemberReg}
    (first : s.member.cell m = some left)
    (second : s.member.cell n = some right)
    (same : (s.rowOf left).key = (s.rowOf right).key) : m = n := by
  have chname : s.chanName left.channelReg = s.chanName right.channelReg :=
    congrArg Prod.fst same
  have username : s.userName left.userReg = s.userName right.userReg :=
    congrArg Prod.snd same
  obtain ⟨_, ofUser⟩ := wired.owner m left first
  obtain ⟨_, ofUser'⟩ := wired.owner n right second
  obtain ⟨_, ofChan⟩ := wired.channel m left first
  obtain ⟨_, ofChan'⟩ := wired.channel n right second
  obtain ⟨user, userCell, -⟩ := Option.map_eq_some_iff.mp ofUser
  obtain ⟨user', userCell', -⟩ := Option.map_eq_some_iff.mp ofUser'
  obtain ⟨chan, chanCell, -⟩ := Option.map_eq_some_iff.mp ofChan
  obtain ⟨chan', chanCell', -⟩ := Option.map_eq_some_iff.mp ofChan'
  simp only [chanName, chanCell, chanCell'] at chname
  simp only [userName, userCell, userCell'] at username
  refine wired.unique m n left right first second ?_ ?_
  · exact accounts _ _ user user' userCell userCell' username
  · refine channels.unique _ _ chan chan' chanCell chanCell' ?_
    rw [chname]
    exact irccmp_iff.mpr rfl

theorem RowsInv.same {Skip' : MemberReg → Prop} (inv : RowsInv Skip s)
    (rows : t.members = s.members)
    (cells : ∀ m member, t.member.cell m = some member ∧ ¬Skip' member ↔
      s.member.cell m = some member ∧ ¬Skip member)
    (names : ∀ m member, s.member.cell m = some member → ¬Skip member →
      t.rowOf member = s.rowOf member) : RowsInv Skip' t := by
  refine ⟨rows ▸ inv.keys, fun row => ?_⟩
  rw [rows, inv.rows]
  constructor
  · rintro ⟨m, member, used, kept, rfl⟩
    obtain ⟨after, kept'⟩ := (cells m member).mpr ⟨used, kept⟩
    exact ⟨m, member, after, kept', names m member used kept⟩
  · rintro ⟨m, member, after, kept', rfl⟩
    obtain ⟨used, kept⟩ := (cells m member).mp ⟨after, kept'⟩
    exact ⟨m, member, used, kept, (names m member used kept).symm⟩

theorem RowsInv.congr (inv : RowsInv Skip s) (rows : t.members = s.members)
    (entries : t.member = s.member) (names : t.rowOf = s.rowOf) :
    RowsInv Skip t :=
  inv.same rows (fun m member => by rw [entries]) fun m member _ _ => by
    rw [names]

theorem RowsInv.update (inv : RowsInv Skip s) (wired : s.Wired)
    (accounts : OneName s) (channels : ChannelInv s)
    {change : MemberReg → MemberReg} {row : MemberRow → MemberRow}
    (found : s.member.cell target = some member)
    (kept : (change member).userReg = member.userReg ∧
      (change member).channelReg = member.channelReg)
    (skip : Skip (change member) ↔ Skip member)
    (written : row (s.rowOf member) = s.rowOf (change member)) :
    RowsInv Skip (s.setMember target member change row) := by
  have key : (s.rowOf (change member)).key = (s.rowOf member).key := by
    unfold rowOf MemberRow.key
    rw [kept.1, kept.2]
  -- the rows that the statement selects are at most the one of the entry
  have only {line : MemberRow} (listed : line ∈ s.members)
      (hit : MemberRow.isOf (s.chanName member.channelReg)
        (s.userName member.userReg) line = true) :
      line = s.rowOf member ∧ ¬Skip member := by
    obtain ⟨n, other, used, live, rfl⟩ := (inv.rows line).mp listed
    have same : n = target := wired.distinct accounts channels used found
      (MemberRow.isOf_iff.mp hit)
    rw [same, found, Option.some.injEq] at used
    subst used
    exact ⟨rfl, live⟩
  have self : MemberRow.isOf (s.chanName member.channelReg)
      (s.userName member.userReg) (s.rowOf member) = true :=
    MemberRow.isOf_iff.mpr rfl
  have other {n : MemberRegId} {entry : MemberReg}
      (used : s.member.cell n = some entry) (different : n ≠ target) :
      ¬MemberRow.isOf (s.chanName member.channelReg)
        (s.userName member.userReg) (s.rowOf entry) = true := fun hit =>
    different (wired.distinct accounts channels used found
      (MemberRow.isOf_iff.mp hit))
  refine ⟨?_, fun line => ?_⟩
  · have same : (s.setMember target member change row).members.map
        MemberRow.key = s.members.map MemberRow.key := by
      show (s.members.map _).map MemberRow.key = _
      rw [List.map_map]
      refine List.map_congr_left fun line listed => ?_
      rw [Function.comp_apply]
      split
      · rename_i hit
        obtain ⟨rfl, -⟩ := only listed hit
        rw [written, key]
      · rfl
    rw [same]
    exact inv.keys
  · show line ∈ s.members.map _ ↔ _
    rw [List.mem_map]
    constructor
    · rintro ⟨old, listed, changed⟩
      split at changed
      · rename_i hit
        obtain ⟨rfl, live⟩ := only listed hit
        refine ⟨target, change member, ?_, fun gone => live (skip.mp gone), ?_⟩
        · show (s.member.modify target change).cell target = _
          rw [Heap.modify_cell_self, found]
          rfl
        · rw [← changed, written]
          rfl
      · rename_i miss
        obtain ⟨n, entry, used, live, same⟩ := (inv.rows old).mp listed
        have different : n ≠ target := by
          rintro rfl
          rw [found, Option.some.injEq] at used
          exact miss (same ▸ used ▸ self)
        refine ⟨n, entry, ?_, live, same.trans changed⟩
        show (s.member.modify target change).cell n = _
        rw [Heap.modify_cell_of_ne _ _ different, used]
    · rintro ⟨n, entry, after, live, rfl⟩
      obtain ⟨old, before, changed⟩ := Heap.cell_of_modify after
      by_cases same : n = target
      · rw [if_pos same] at changed
        rw [same, found, Option.some.injEq] at before
        subst before changed
        refine ⟨s.rowOf member, (inv.rows _).mpr ⟨target, member, found,
          fun gone => live (skip.mpr gone), rfl⟩, ?_⟩
        rw [if_pos self, written]
        rfl
      · rw [if_neg same] at changed
        subst changed
        refine ⟨s.rowOf entry, (inv.rows _).mpr ⟨n, entry, before, live, rfl⟩,
          ?_⟩
        rw [if_neg (other before same)]
        rfl

structure Filed (Unruled : ChanRegId → Prop) (Skip : MemberReg → Prop)
    (s : Regs) : Prop where
  access : AccessInv Unruled s
  accounts : OneName s
  channels : ChannelInv s
  rows : RowsInv Skip s

/-- What `Skip` says of an entry depends on whose it is. -/
def Stable (Skip : MemberReg → Prop) : Prop :=
  ∀ left right, left.userReg = right.userReg →
    left.channelReg = right.channelReg → (Skip left ↔ Skip right)

theorem unlinkMember_names (s : Regs) (target : MemberRegId)
    (member : MemberReg) :
    SameNames s (s.unlinkMember target member) ∧
      SameChans s (s.unlinkMember target member) := by
  constructor
  · refine ⟨rfl, rfl, fun u => ?_⟩
    show ((s.user.modify member.userReg _).cell u).map UserReg.names = _
    apply Heap.modify_cell_map
    exact fun _ => rfl
  · have left : SameChans s (s.modifyChan member.channelReg fun reg =>
        { reg with users := Dlink.delete target reg.users }) :=
      .modifyChan s _ fun _ => rfl
    exact ⟨left.chanTable, left.names⟩

theorem unlinkMember_rowOf (s : Regs) (target : MemberRegId)
    (member : MemberReg) :
    (s.unlinkMember target member).rowOf = s.rowOf := by
  obtain ⟨names, chans⟩ := unlinkMember_names s target member
  exact rowOf_congr names.userName chans.chanName

theorem unlinkMember_tables (accounts : OneName s) (channels : ChannelInv s)
    (target : MemberRegId) (member : MemberReg) :
    OneName (s.unlinkMember target member) ∧
      ChannelInv (s.unlinkMember target member) := by
  obtain ⟨names, chans⟩ := unlinkMember_names s target member
  exact ⟨accounts.same names.names, channels.same chans⟩

theorem RowsInv.freeMember (inv : RowsInv Skip s) (stable : Stable Skip)
    (wired : s.Wired) (accounts : OneName s) (channels : ChannelInv s)
    (upgrade : Bool) (target : MemberRegId)
    (skipped : ∀ member, s.member.cell target = some member → Skip member) :
    RowsInv Skip (s.freeMemberReg conf upgrade target) := by
  cases used : s.member.cell target with
  | none =>
      unfold freeMemberReg
      rw [used]
      exact inv
  | some member =>
      have after := wired.unlink used
      obtain ⟨accounts', channels'⟩ :=
        unlinkMember_tables accounts channels target member
      have gone : RowsInv Skip (s.unlinkMember target member) := by
        refine inv.same rfl (fun m other => ?_) fun m other _ _ => by
          rw [unlinkMember_rowOf]
        rw [unlinkMember_cell]
        constructor
        · rintro ⟨⟨-, there⟩, live⟩
          exact ⟨there, live⟩
        · rintro ⟨there, live⟩
          refine ⟨⟨?_, there⟩, live⟩
          rintro rfl
          exact live (skipped other there)
      have freed : Freed conf upgrade member (s.unlinkMember target member)
          (s.freeMemberReg conf upgrade target) :=
        freeMemberReg_freed wired upgrade used
      generalize s.freeMemberReg conf upgrade target = t at freed ⊢
      cases freed with
      | channel none_ =>
          refine gone.same rfl (fun _ _ => Iff.rfl) fun m other there _ => ?_
          have apart : other.channelReg ≠ member.channelReg := by
            intro same
            have listed : m ∈ [] := ((after.users _ _ none_).mem_iff m).mpr
              ⟨other, there, same⟩
            cases listed
          unfold rowOf freeChannelReg chanName
          simp only [Heap.free_cell, if_neg apart]
          rfl
      | promoted top entry owner upgraded found inside =>
          unfold promote
          rw [found]
          refine RowsInv.update gone after accounts' channels' found ⟨rfl, rfl⟩
            (stable _ _ rfl rfl) ?_
          rfl
      | left users some_ there kept => exact gone

theorem Filed.freeMember (filed : Filed Unruled Skip s) (stable : Stable Skip)
    (upgrade : Bool) (target : MemberRegId)
    (allowed : upgrade = true ∨ ∀ member,
      s.member.cell target = some member → Unruled member.channelReg)
    (skipped : ∀ member, s.member.cell target = some member → Skip member) :
    Filed Unruled Skip (s.freeMemberReg conf upgrade target) where
  access := filed.access.freeMember upgrade target allowed
  accounts := filed.accounts.same
    (SameAccounts.freeMember conf s upgrade target).sameNames.names
  channels := filed.channels.freeMember upgrade target
  rows := filed.rows.freeMember stable filed.access.wired filed.accounts
    filed.channels upgrade target skipped

theorem Filed.freeMembers (conf : ServConfig)
    (filed : Filed Unruled Skip s) (stable : Stable Skip) (upgrade : Bool) (entries : List MemberRegId)
    (allowed : upgrade = true ∨ ∀ m ∈ entries, ∀ member,
      s.member.cell m = some member → Unruled member.channelReg)
    (skipped : ∀ m ∈ entries, ∀ member, s.member.cell m = some member →
      Skip member) :
    RowsInv Skip (entries.foldl
      (fun s entry => s.freeMemberReg conf upgrade entry) s) := by
  induction entries generalizing s with
  | nil => exact filed.rows
  | cons first rest ih =>
      have one : Filed Unruled Skip (s.freeMemberReg conf upgrade first) := by
        refine filed.freeMember stable upgrade first
          (allowed.imp_right fun free => ?_) ?_
        · exact free first List.mem_cons_self
        · exact skipped first List.mem_cons_self
      refine ih one (allowed.imp_right fun free m listed member found => ?_)
        fun m listed member found => ?_
      · obtain ⟨-, old, before, -, same⟩ :=
          freeMemberReg_cell filed.access found
        rw [same]
        exact free m (List.mem_cons_of_mem _ listed) old before
      · obtain ⟨-, old, before, user, chan⟩ :=
          freeMemberReg_cell filed.access found
        rw [stable member old user chan]
        exact skipped m (List.mem_cons_of_mem _ listed) old before

theorem RowsInv.delete (inv : RowsInv (fun _ => False) s)
    {test : MemberRow → Bool}
    (which : ∀ m member, s.member.cell m = some member →
      (test (s.rowOf member) = true ↔ Skip member)) :
    RowsInv Skip (s.deleteMembers test) := by
  refine ⟨inv.keys.sublist (List.filter_sublist.map _), fun row => ?_⟩
  show row ∈ s.members.filter _ ↔ _
  rw [List.mem_filter, inv.rows]
  constructor
  · rintro ⟨⟨m, member, used, -, rfl⟩, live⟩
    refine ⟨m, member, used, fun skipped => ?_, rfl⟩
    rw [(which m member used).mpr skipped] at live
    cases live
  · rintro ⟨m, member, used, live, rfl⟩
    refine ⟨⟨m, member, used, fun impossible => impossible, rfl⟩, ?_⟩
    rw [Bool.not_eq_true']
    exact Bool.eq_false_iff.mpr fun hit => live ((which m member used).mp hit)

theorem RowsInv.finish (inv : RowsInv Skip s)
    (gone : ∀ m member, s.member.cell m = some member → ¬Skip member) :
    RowsInv (fun _ => False) s :=
  inv.same rfl (fun m member =>
    ⟨fun ⟨used, _⟩ => ⟨used, gone m member used⟩,
      fun ⟨used, _⟩ => ⟨used, fun impossible => impossible⟩⟩) fun _ _ _ _ => rfl

theorem makeMemberReg_names (s : Regs) (member : MemberReg) :
    SameNames s (s.makeMemberReg member) ∧
      SameChans s (s.makeMemberReg member) := by
  constructor
  · refine ⟨rfl, rfl, fun u => ?_⟩
    show ((s.user.modify member.userReg _).cell u).map UserReg.names = _
    apply Heap.modify_cell_map
    exact fun _ => rfl
  · have entered : SameChans s (s.modifyChan member.channelReg fun reg =>
        { reg with users := Dlink.add s.member.next reg.users }) :=
      .modifyChan s _ fun _ => rfl
    exact ⟨entered.chanTable, entered.names⟩

theorem makeMemberReg_rowOf (s : Regs) (member : MemberReg) :
    (s.makeMemberReg member).rowOf = s.rowOf := by
  obtain ⟨names, chans⟩ := makeMemberReg_names s member
  exact rowOf_congr names.userName chans.chanName

theorem RowsInv.add (inv : RowsInv (fun _ => False) s)
    (active : member.suspend = 0)
    (new : ∀ m other, s.member.cell m = some other →
      (s.rowOf other).key ≠ (s.rowOf member).key) :
    RowsInv (fun _ => False) (s.addMember member) := by
  have names : (s.addMember member).rowOf = s.rowOf :=
    makeMemberReg_rowOf s member
  have rows : (s.addMember member).members = s.members ++ [s.rowOf member] := by
    show s.members ++ [{ (s.makeMemberReg member).rowOf member with
      suspend := 0 }] = _
    rw [makeMemberReg_rowOf]
    unfold rowOf
    rw [active]
  constructor
  · rw [rows, List.map_append, List.nodup_append]
    refine ⟨inv.keys, by simp, ?_⟩
    intro key listed other last equal
    obtain ⟨row, inside, rfl⟩ := List.mem_map.mp listed
    obtain ⟨m, entry, used, -, rfl⟩ := (inv.rows row).mp inside
    rw [List.map_singleton, List.mem_singleton] at last
    exact new m entry used (equal.trans last)
  · intro row
    rw [rows, List.mem_append, List.mem_singleton, inv.rows, names]
    constructor
    · rintro (⟨m, entry, used, live, rfl⟩ | rfl)
      · exact ⟨m, entry, Heap.alloc_cell_of_used used, live, rfl⟩
      · exact ⟨s.member.next, member, Heap.alloc_cell_next _ _,
          fun impossible => impossible, rfl⟩
    · rintro ⟨m, entry, after, live, rfl⟩
      have cell : (s.member.alloc member).cell m = some entry := after
      rw [Heap.alloc_cell] at cell
      split at cell
      · cases cell
        exact Or.inr rfl
      · exact Or.inl ⟨m, entry, cell, live, rfl⟩

theorem ChannelInv.chanName_iff (channels : ChannelInv s) (wired : s.Wired)
    {c : ChanRegId} {reg : ChanReg} (found : s.chan.cell c = some reg)
    {m : MemberRegId} {entry : MemberReg}
    (used : s.member.cell m = some entry) :
    s.chanName entry.channelReg = reg.name ↔ entry.channelReg = c := by
  obtain ⟨_, ofChan⟩ := wired.channel m entry used
  obtain ⟨chan, cell, -⟩ := Option.map_eq_some_iff.mp ofChan
  unfold chanName
  rw [cell]
  constructor
  · intro same
    refine channels.unique _ _ chan reg cell found ?_
    exact irccmp_iff.mpr (congrArg _ same)
  · intro same
    rw [same, found, Option.some.injEq] at cell
    rw [cell]

theorem OneName.userName_iff (accounts : OneName s) (wired : s.Wired)
    {u : UserRegId} {reg : UserReg} (found : s.user.cell u = some reg)
    {m : MemberRegId} {entry : MemberReg}
    (used : s.member.cell m = some entry) :
    s.userName entry.userReg = reg.name ↔ entry.userReg = u := by
  obtain ⟨_, ofUser⟩ := wired.owner m entry used
  obtain ⟨user, cell, -⟩ := Option.map_eq_some_iff.mp ofUser
  unfold userName
  rw [cell]
  constructor
  · exact accounts _ _ user reg cell found
  · intro same
    rw [same, found, Option.some.injEq] at cell
    rw [cell]

theorem Filed.dropChan (filed : Filed (fun _ => False) (fun _ => False) s)
    (c : ChanRegId) :
    RowsInv (fun _ => False) (s.destroyChannelReg conf c) := by
  have access : AccessInv (fun _ => False) (s.destroyChannelReg conf c) :=
    filed.access.destroyChannel c
  unfold destroyChannelReg at access ⊢
  split
  · exact filed.rows
  rename_i reg found
  simp only [found] at access
  have users : s.usersOf c = some reg.users := by
    unfold usersOf
    rw [found]
    rfl
  have index := filed.access.wired.users c reg.users users
  have inside {m : MemberRegId} (listed : m ∈ reg.users) {entry : MemberReg}
      (used : s.member.cell m = some entry) : entry.channelReg = c := by
    obtain ⟨value, cell, same⟩ := (index.mem_iff m).mp listed
    rw [used, Option.some.injEq] at cell
    exact cell ▸ same
  have rows : RowsInv (fun entry => entry.channelReg = c)
      (s.deleteMembers fun row => row.chname == reg.name) := by
    refine filed.rows.delete fun m entry used => ?_
    rw [beq_iff_eq]
    exact filed.channels.chanName_iff filed.access.wired found used
  have access' : AccessInv (fun other => other = c)
      (s.deleteMembers fun row => row.chname == reg.name) := by
    have same : AccessInv (fun _ => False)
        (s.deleteMembers fun row => row.chname == reg.name) :=
      filed.access.congr rfl rfl rfl
    exact same.weaken fun _ impossible => impossible.elim
  have start : Filed (fun other => other = c)
      (fun entry => entry.channelReg = c)
      (s.deleteMembers fun row => row.chname == reg.name) :=
    ⟨access', filed.accounts.same fun _ => rfl,
      filed.channels.same ⟨rfl, fun _ => rfl⟩, rows⟩
  have stable : Stable fun entry => entry.channelReg = c := by
    intro left right _ chan
    dsimp only
    rw [chan]
  have freed := start.freeMembers conf stable false reg.users
    (Or.inr fun m listed entry used => inside listed used)
    fun m listed entry used => inside listed used
  have cells := (access'.freeMembers conf false reg.users
    (Or.inr fun m listed entry used => inside listed used)).2
  refine freed.finish fun m entry used same => ?_
  obtain ⟨absent, old, before, -, chan⟩ := cells m entry used
  exact absent ((index.mem_iff m).mpr ⟨old, before, chan.symm.trans same⟩)

theorem Filed.dropUser (filed : Filed (fun _ => False) (fun _ => False) s)
    (u : UserRegId) : RowsInv (fun _ => False) (s.freeUserReg conf u) := by
  unfold freeUserReg
  split
  · exact filed.rows
  rename_i reg found
  dsimp only
  have channels : s.channelsOf u = some reg.channels := by
    unfold channelsOf
    rw [found]
    rfl
  have index := filed.access.wired.channels u reg.channels channels
  have inside {m : MemberRegId} (listed : m ∈ reg.channels) {entry : MemberReg}
      (used : s.member.cell m = some entry) : entry.userReg = u := by
    obtain ⟨value, cell, same⟩ := (index.mem_iff m).mp listed
    rw [used, Option.some.injEq] at cell
    exact cell ▸ same
  have deleted : RowsInv (fun entry => entry.userReg = u)
      (s.deleteMembers fun row => row.username == reg.name) := by
    refine filed.rows.delete fun m entry used => ?_
    rw [beq_iff_eq]
    exact filed.accounts.userName_iff filed.access.wired found used
  have start : Filed (fun _ => False) (fun entry => entry.userReg = u)
      (({ s with userTable := Dlink.delete u s.userTable } : Regs).deleteMembers
        fun row => row.username == reg.name) :=
    ⟨filed.access.congr rfl rfl rfl, filed.accounts.same fun _ => rfl,
      filed.channels.same ⟨rfl, fun _ => rfl⟩, deleted.congr rfl rfl rfl⟩
  have stable : Stable fun entry => entry.userReg = u := by
    intro left right user _
    dsimp only
    rw [user]
  have freed := start.freeMembers conf stable true reg.channels (Or.inl rfl)
    fun m listed entry used => inside listed used
  have cells := (start.access.freeMembers conf true reg.channels
    (Or.inl rfl)).2
  have gone (m : MemberRegId) (entry : MemberReg)
      (used : (reg.channels.foldl
        (fun s entry => s.freeMemberReg conf true entry)
        (({ s with userTable := Dlink.delete u s.userTable } :
          Regs).deleteMembers fun row =>
            row.username == reg.name)).member.cell m = some entry) :
      entry.userReg ≠ u := by
    intro same
    obtain ⟨absent, old, before, user, -⟩ := cells m entry used
    exact absent ((index.mem_iff m).mpr ⟨old, before, user.symm.trans same⟩)
  refine (freed.finish gone).same rfl (fun _ _ => Iff.rfl)
    fun m entry used _ => ?_
  unfold rowOf userName
  simp only [Heap.free_cell, if_neg (gone m entry used)]
  rfl

theorem Filed.remove (filed : Filed (fun _ => False) (fun _ => False) s)
    (found : s.member.cell target = some member) :
    RowsInv (fun _ => False) (s.removeMember conf target member) := by
  have only {m : MemberRegId} {entry : MemberReg}
      (used : s.member.cell m = some entry) :
      MemberRow.isOf (s.chanName member.channelReg) (s.userName member.userReg)
        (s.rowOf entry) = true ↔
          entry.userReg = member.userReg ∧
            entry.channelReg = member.channelReg := by
    constructor
    · intro hit
      have same : m = target := filed.access.wired.distinct filed.accounts
        filed.channels used found (MemberRow.isOf_iff.mp hit)
      rw [same, found, Option.some.injEq] at used
      subst used
      exact ⟨rfl, rfl⟩
    · rintro ⟨user, chan⟩
      rw [MemberRow.isOf_iff, ← user, ← chan]
      rfl
  have deleted : RowsInv (fun entry => entry.userReg = member.userReg ∧
      entry.channelReg = member.channelReg) (s.deleteMemberDbEntry member) :=
    filed.rows.delete fun m entry used => only used
  have access : AccessInv (fun _ => False) (s.deleteMemberDbEntry member) :=
    filed.access.congr rfl rfl rfl
  have stable : Stable fun entry => entry.userReg = member.userReg ∧
      entry.channelReg = member.channelReg := by
    intro left right user chan
    dsimp only
    rw [user, chan]
  have freed : RowsInv _ (s.removeMember conf target member) :=
    deleted.freeMember stable access.wired
      (filed.accounts.same fun _ => rfl)
      (filed.channels.same ⟨rfl, fun _ => rfl⟩) true target fun entry used => by
        rw [Option.some.inj (used.symm.trans found)]
        exact ⟨rfl, rfl⟩
  refine freed.finish fun m entry used same => ?_
  obtain ⟨different, old, before, user, chan⟩ := freeMemberReg_cell access used
  exact different (filed.access.wired.unique m target old member before found
    (user.symm.trans same.1) (chan.symm.trans same.2))

theorem Filed.newChan (filed : Filed (fun _ => False) (fun _ => False) s)
    {name : Token} (new : s.findChannelReg name.text = none) (now : Int)
    (account : UserRegId) (lastmod : CString) :
    RowsInv (fun _ => False) (s.registerChannel now name account lastmod) := by
  let opened := s.withChan { name := name.text, lastTime := now }
  have other {m : MemberRegId} {entry : MemberReg}
      (used : s.member.cell m = some entry) :
      entry.channelReg ≠ s.chan.next := by
    intro same
    obtain ⟨list, there⟩ := filed.access.wired.channel m entry used
    rw [same, usersOf_next] at there
    cases there
  have chanName_of {c : ChanRegId} (old : c ≠ s.chan.next) :
      opened.chanName c = s.chanName c := by
    simp only [opened, withChan, chanName, Heap.alloc_cell, if_neg old]
  have rows : RowsInv (fun _ => False) opened := by
    refine filed.rows.same rfl (fun _ _ => Iff.rfl) fun m entry used _ => ?_
    have chname := chanName_of (other used)
    unfold rowOf
    rw [chname]
    rfl
  refine rows.add rfl fun m entry used same => ?_
  have apart := other used
  have chname : opened.chanName entry.channelReg =
      opened.chanName s.chan.next := congrArg Prod.fst same
  have newName : opened.chanName s.chan.next = name.text := by
    simp [opened, withChan, chanName]
  rw [chanName_of apart, newName] at chname
  obtain ⟨_, ofChan⟩ := filed.access.wired.channel m entry used
  obtain ⟨chan, cell, -⟩ := Option.map_eq_some_iff.mp ofChan
  simp only [chanName, cell] at chname
  have absent := filed.channels.absent new cell
  rw [chname, irccmp_iff.mpr rfl] at absent
  cases absent

theorem Move.rows (move : Move conf Given Broken s t) (sound : Sound s)
    (rows : RowsInv (fun _ => False) s) : RowsInv (fun _ => False) t := by
  have filed : Filed (fun _ => False) (fun _ => False) s :=
    ⟨sound.access, sound.accounts.unique, sound.channels, rows⟩
  have access {t : Regs} (same : SameAccess s t) :
      RowsInv (fun _ => False) t :=
    rows.congr same.members same.member
      (rowOf_congr same.userName same.chanName)
  cases move with
  | settings settled => exact access settled.access
  | connect client new => exact access (.setLogin s client none)
  | link client account reg out found opened =>
      have noted := SameAccess.setLogin s client (some account)
      exact access (noted.trans (.modifyUser _ account fun _ => rfl))
  | leave client account inside =>
      have left : SameAccess s (s.modifyUser account fun reg =>
          { reg with users := Dlink.findDestroy client reg.users }) :=
        .modifyUser _ account fun _ => rfl
      exact access (left.trans (.setLogin _ client none))
  | torn same broken => exact access same
  | exit client out => exact rows.congr rfl rfl rfl
  | logout account => exact access (.logoutUserReg s account)
  | block account change empty kept users =>
      exact access (.modifyUser s account kept)
  | newUser reg given some_ new copied unique channels users =>
      refine rows.same rfl (fun _ _ => Iff.rfl) fun m entry used _ => ?_
      obtain ⟨_, ofUser⟩ := sound.access.wired.owner m entry used
      obtain ⟨user, cell, -⟩ := Option.map_eq_some_iff.mp ofUser
      have old := Nat.ne_of_lt (Heap.lt_next cell)
      unfold rowOf userName addUserReg
      simp only [Heap.alloc_cell, if_neg old]
      rfl
  | dropUser account reg found unused => exact filed.dropUser account
  | newChan now name account lastmod reg found new =>
      exact filed.newChan new now account lastmod
  | dropChan target => exact filed.dropChan target
  | add member owner channel new level tame active fresh =>
      refine rows.add active fun m other used same => ?_
      obtain ⟨_, ofUser⟩ := owner
      obtain ⟨_, ofChan⟩ := channel
      obtain ⟨user, userCell, -⟩ := Option.map_eq_some_iff.mp ofUser
      obtain ⟨chan, chanCell, -⟩ := Option.map_eq_some_iff.mp ofChan
      have wired := sound.access.wired
      refine new m other used ?_ ?_
      · refine (filed.accounts.userName_iff wired userCell used).mp ?_
        have username : s.userName other.userReg = s.userName member.userReg :=
          congrArg Prod.snd same
        rw [username]
        simp only [userName, userCell]
      · refine (filed.channels.chanName_iff wired chanCell used).mp ?_
        have chname : s.chanName other.channelReg =
            s.chanName member.channelReg := congrArg Prod.fst same
        rw [chname]
        simp only [chanName, chanCell]
  | set target member change row found kept proper written bants =>
      exact rows.update sound.access.wired filed.accounts sound.channels found
        ⟨proper.user, proper.chan⟩ Iff.rfl written
  | remove target member found => exact filed.remove found

/-- `member_db_callback`, on the text of a row. -/
def memberDbCallback (s : Regs) (row : MemberRow) : Regs :=
  if row.chname.isEmpty || row.username.isEmpty then s
  else
    match s.findChannelReg row.chname, s.findUserReg row.username with
    | some channel, some account =>
        s.makeMemberReg
          { userReg := account
            channelReg := channel
            lastmod := row.lastmod
            level := atoi (formatInt row.level)
            flags := BitVec.ofInt 32 (atoi (formatInt row.flags)) &&& 3#32
            suspend := atoi (formatInt row.suspend) }
    | _, _ => s

def withoutAccess (s : Regs) : Regs :=
  { s with
    member := .empty
    user := s.user.map fun reg => { reg with channels := [] }
    chan := s.chan.map fun reg => { reg with users := [] } }

/-- `SELECT … FROM members` into the accounts and channels there are. -/
def loadMembers (s : Regs) : Regs :=
  s.members.foldl memberDbCallback s.withoutAccess

theorem Tame.flags_read (tame : Tame member) :
    BitVec.ofInt 32 (atoi (formatInt member.flags.toInt)) &&& 3#32 =
      member.flags := by
  have low : -2147483648 ≤ member.flags.toInt := BitVec.le_toInt member.flags
  have high : member.flags.toInt < 2147483648 := BitVec.toInt_lt
  rw [atoi_formatInt low high, BitVec.ofInt_toInt]
  exact tame.flags

theorem memberDbCallback_rowOf (sound : Sound s) (named : NamedInv conf s)
    (users : SameNames s r) (chans : SameChans s r) {m : MemberRegId}
    (used : s.member.cell m = some member) :
    ∃ new, memberDbCallback r (s.rowOf member) = r.makeMemberReg new ∧
      s.rowOf new = s.rowOf member := by
  obtain ⟨_, ofUser⟩ := sound.access.wired.owner m member used
  obtain ⟨_, ofChan⟩ := sound.access.wired.channel m member used
  obtain ⟨user, userCell, -⟩ := Option.map_eq_some_iff.mp ofUser
  obtain ⟨chan, chanCell, -⟩ := Option.map_eq_some_iff.mp ofChan
  have tame := sound.access.tame m member used
  have level := sound.access.level used
  have username : s.userName member.userReg = user.name := by
    simp only [userName, userCell]
  have chname : s.chanName member.channelReg = chan.name := by
    simp only [chanName, chanCell]
  have some_ : user.name ≠ [] := by
    rw [(named.fits _ user userCell).1]
    exact sound.accounts.given _ user userCell
  have account := named.found sound.accounts userCell
  rw [← (named.fits _ user userCell).1, ← users.findUserReg] at account
  have channel := sound.channels.found chanCell
  rw [← chans.findChannelReg] at channel
  have top : sCOwner = 200 := rfl
  have suspend := tame.suspend
  refine ⟨{ member with bants := 0#64 }, ?_, rfl⟩
  unfold memberDbCallback rowOf
  dsimp only
  rw [username, chname, account, channel, tame.flags_read,
    atoi_formatInt (by omega) (by omega), atoi_formatInt (by omega) (by omega)]
  have nonempty : (chan.name.isEmpty || user.name.isEmpty) = false := by
    simp [sound.channels.named _ chan chanCell, some_]
  rw [nonempty]
  rfl

theorem foldl_memberDbCallback (sound : Sound s) (named : NamedInv conf s)
    (users : SameNames s r) (chans : SameChans s r) (rows : List MemberRow)
    (entries : ∀ row ∈ rows, ∃ m member, s.member.cell m = some member ∧
      s.rowOf member = row) :
    SameNames s (rows.foldl memberDbCallback r) ∧
      SameChans s (rows.foldl memberDbCallback r) ∧
      ∀ row, (∃ m new, (rows.foldl memberDbCallback r).member.cell m =
          some new ∧ s.rowOf new = row) ↔
        (∃ m new, r.member.cell m = some new ∧ s.rowOf new = row) ∨
          row ∈ rows := by
  induction rows generalizing r with
  | nil => exact ⟨users, chans, fun row => by simp⟩
  | cons first rest ih =>
      obtain ⟨m, member, used, rfl⟩ := entries first List.mem_cons_self
      obtain ⟨new, made, same⟩ :=
        memberDbCallback_rowOf sound named users chans used
      obtain ⟨users', chans'⟩ := makeMemberReg_names r new
      rw [List.foldl_cons, made]
      have names : SameNames s (r.makeMemberReg new) :=
        ⟨users'.userTable.trans users.userTable, users'.users.trans users.users,
          fun u => (users'.names u).trans (users.names u)⟩
      have channels : SameChans s (r.makeMemberReg new) :=
        ⟨chans'.chanTable.trans chans.chanTable,
          fun c => (chans'.names c).trans (chans.names c)⟩
      obtain ⟨users'', chans'', loaded⟩ := ih names channels fun row listed =>
        entries row (List.mem_cons_of_mem _ listed)
      refine ⟨users'', chans'', fun row => ?_⟩
      rw [loaded, List.mem_cons]
      constructor
      · rintro (⟨n, entry, there, rfl⟩ | later)
        · rw [makeMemberReg_member, Heap.alloc_cell] at there
          split at there
          · cases there
            exact Or.inr (Or.inl same)
          · exact Or.inl ⟨n, entry, there, rfl⟩
        · exact Or.inr (Or.inr later)
      · rintro (⟨n, entry, there, rfl⟩ | rfl | later)
        · exact Or.inl ⟨n, entry, Heap.alloc_cell_of_used there, rfl⟩
        · exact Or.inl ⟨r.member.next, new, Heap.alloc_cell_next _ _, same⟩
        · exact Or.inr later

end Regs

end RatboxServices
