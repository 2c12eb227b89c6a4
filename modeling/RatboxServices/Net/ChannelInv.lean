import RatboxServices.Net.Act
import RatboxServices.Net.ChannelLookup

namespace RatboxServices

/-! The lists of the channel store always hold exactly what the member and
channel records say. -/

namespace Chmember

def InChannel (c : ChannelId) (member : Chmember) : Prop :=
  member.chptr = c

def OppedIn (c : ChannelId) (member : Chmember) : Prop :=
  member.chptr = c ∧ member.isOpped = true

def UnoppedIn (c : ChannelId) (member : Chmember) : Prop :=
  member.chptr = c ∧ member.isOpped = false

def OfClient (u : ClientId) (member : Chmember) : Prop :=
  member.clientP = u

end Chmember

def Channel.InBucket (hashv : Nat) (ch : Channel) : Prop :=
  CString.hashChannel ch.name = hashv

namespace Chans

open Chmember

/-- The invariant of the store. Only channels of `Empty` may be without users
and services. -/
structure Inv (Empty : ChannelId → Prop) (s : Chans) : Prop where
  owner : ∀ m member, s.member.cell m = some member →
    ∃ ch, s.channel.cell member.chptr = some ch
  users : ∀ c ch, s.channel.cell c = some ch →
    Exactly ch.users (s.member.Has (InChannel c))
  opped : ∀ c ch, s.channel.cell c = some ch →
    Exactly ch.usersOpped (s.member.Has (OppedIn c))
  unopped : ∀ c ch, s.channel.cell c = some ch →
    Exactly ch.usersUnopped (s.member.Has (UnoppedIn c))
  channels : ∀ u, Exactly (s.userChannels u) (s.member.Has (OfClient u))
  unique : ∀ m n left right, s.member.cell m = some left →
    s.member.cell n = some right → left.chptr = right.chptr →
    left.clientP = right.clientP → m = n
  flags : ∀ m member, s.member.cell m = some member →
    member.isOpped = true → member.flags.has modeDeopped = false
  list : Exactly s.channelList (s.channel.Has fun _ => True)
  table : ∀ hashv, Exactly (s.channelTable hashv)
    (s.channel.Has (Channel.InBucket hashv))
  occupied : ∀ c ch, s.channel.cell c = some ch →
    Empty c ∨ ch.users ≠ [] ∨ ch.services ≠ []

/-- Nothing happened, or a member has other flags and a channel other lists of
the opped and the unopped. -/
inductive Restatus (s : Chans) (mptr : MemberId) : Chans → Prop
  | same : Restatus s mptr s
  | other (chptr : ChannelId) (flags : Chmember → Word)
      (opped unopped : Channel → List MemberId) :
      Restatus s mptr ((s.modifyMember mptr fun m =>
        { m with flags := flags m }).modifyChannel chptr fun ch =>
          { ch with
            usersOpped := opped ch
            usersUnopped := unopped ch })

namespace Restatus

variable {s : Chans}

theorem op (mptr : MemberId) : Restatus s mptr (s.opChmember mptr) := by
  unfold opChmember
  split
  · exact .same
  · split
    · exact .same
    · exact .other ..

theorem deop (mptr : MemberId) : Restatus s mptr (s.deopChmember mptr) := by
  unfold deopChmember
  split
  · exact .same
  · split
    · exact .same
    · exact .other ..

end Restatus

namespace Inv

variable {Empty Other : ChannelId → Prop} {s : Chans} {target : ChannelId}

theorem empty : Inv Empty Chans.empty where
  owner := by simp [Chans.empty]
  users := by simp [Chans.empty]
  opped := by simp [Chans.empty]
  unopped := by simp [Chans.empty]
  channels := fun u => .nil (by simp [Heap.Has, Chans.empty])
  unique := by simp [Chans.empty]
  flags := by simp [Chans.empty]
  list := .nil (by simp [Heap.Has, Chans.empty])
  table := fun hashv => .nil (by simp [Heap.Has, Chans.empty])
  occupied := by simp [Chans.empty]

theorem weaken (inv : Inv Empty s) (wider : ∀ c, Empty c → Other c) :
    Inv Other s :=
  { inv with
    occupied := by
      intro c ch used
      obtain allowed | rest := inv.occupied c ch used
      · exact Or.inl (wider c allowed)
      · exact Or.inr rest }

theorem mem_usersOf (inv : Inv Empty s) (c : ChannelId) (m : MemberId) :
    m ∈ s.usersOf c ↔ s.member.Has (InChannel c) m := by
  cases there : s.channel.cell c with
  | none =>
      constructor
      · intro member
        simp [usersOf, there] at member
      · rintro ⟨member, found, inside⟩
        obtain ⟨ch, used⟩ := inv.owner m member found
        rw [inside, there] at used
        cases used
  | some ch =>
      simp only [usersOf, there]
      exact (inv.users c ch there).mem_iff m

theorem nodup_usersOf (inv : Inv Empty s) (c : ChannelId) :
    (s.usersOf c).Nodup := by
  unfold Chans.usersOf
  cases there : s.channel.cell c with
  | none => exact List.nodup_nil
  | some ch => exact (inv.users c ch there).nodup

/-- A change of a channel that touches neither its name nor its users and
services. -/
def Plain (change : Channel → Channel) : Prop :=
  ∀ ch, (change ch).name = ch.name ∧ (change ch).users = ch.users ∧
    (change ch).usersOpped = ch.usersOpped ∧
    (change ch).usersUnopped = ch.usersUnopped ∧
    (change ch).services = ch.services

theorem modifyServices (inv : Inv Empty s) (target : ChannelId)
    {change : Channel → Channel}
    (servicesOnly : ∀ ch, (change ch).name = ch.name ∧
      (change ch).users = ch.users ∧
      (change ch).usersOpped = ch.usersOpped ∧
      (change ch).usersUnopped = ch.usersUnopped) :
    Inv (fun c => Empty c ∨ c = target) (s.modifyChannel target change) := by
  have kept : ∀ c ch, (s.channel.modify target change).cell c = some ch →
      ∃ old, s.channel.cell c = some old ∧ ch.users = old.users ∧
        ch.usersOpped = old.usersOpped ∧
        ch.usersUnopped = old.usersUnopped ∧
        (c = target ∨ ch.services = old.services) := by
    intro c ch used
    obtain ⟨old, found, changed⟩ := Heap.cell_of_modify used
    refine ⟨old, found, ?_⟩
    rw [changed]
    split
    · rename_i equal
      obtain ⟨_, sameUsers, sameOpped, sameUnopped⟩ := servicesOnly old
      exact ⟨sameUsers, sameOpped, sameUnopped, Or.inl equal⟩
    · exact ⟨rfl, rfl, rfl, Or.inr rfl⟩
  exact {
    owner := by
      intro m member found
      obtain ⟨old, used⟩ := inv.owner m member found
      exact ⟨_, Heap.modify_of_cell used⟩
    users := by
      intro c ch used
      obtain ⟨old, found, same, _⟩ := kept c ch used
      rw [same]
      exact inv.users c old found
    opped := by
      intro c ch used
      obtain ⟨old, found, _, same, _⟩ := kept c ch used
      rw [same]
      exact inv.opped c old found
    unopped := by
      intro c ch used
      obtain ⟨old, found, _, _, same, _⟩ := kept c ch used
      rw [same]
      exact inv.unopped c old found
    channels := inv.channels
    unique := inv.unique
    flags := inv.flags
    list := inv.list.modify_same fun _ _ => Iff.rfl
    table := by
      intro hashv
      refine (inv.table hashv).modify_same fun ch _ => ?_
      rw [Channel.InBucket, Channel.InBucket, (servicesOnly ch).1]
    occupied := by
      intro c ch used
      obtain ⟨old, found, sameUsers, _, _, equal | sameServices⟩ :=
        kept c ch used
      · exact Or.inl (Or.inr equal)
      · rw [sameUsers, sameServices]
        obtain allowed | rest := inv.occupied c old found
        · exact Or.inl (Or.inl allowed)
        · exact Or.inr rest }

theorem modifyChannel (inv : Inv Empty s) (target : ChannelId)
    {change : Channel → Channel} (plain : Plain change) :
    Inv Empty (s.modifyChannel target change) := by
  have changed : Inv _ (s.modifyChannel target change) :=
    inv.modifyServices target fun ch =>
      ⟨(plain ch).1, (plain ch).2.1, (plain ch).2.2.1, (plain ch).2.2.2.1⟩
  refine { changed with occupied := ?_ }
  intro c ch used
  obtain ⟨old, found, moved⟩ := Heap.cell_of_modify used
  obtain allowed | rest := inv.occupied c old found
  · exact Or.inl allowed
  · obtain ⟨_, users, _, _, services⟩ := plain old
    rw [moved]
    split
    · rw [users, services]
      exact Or.inr rest
    · exact Or.inr rest

/-- Flags and the two halves of the users change together: whatever else a
list sees of a member stays. -/
structure Reflag (s : Chans) (member : Heap Chmember)
    (channel : Heap Channel) : Prop where
  cells : ∀ m new, member.cell m = some new → ∃ old,
    s.member.cell m = some old ∧ new.chptr = old.chptr ∧
      new.clientP = old.clientP
  has : ∀ (P : Chmember → Prop) m,
    (∀ left right : Chmember, left.chptr = right.chptr →
      left.clientP = right.clientP → (P left ↔ P right)) →
    (member.Has P m ↔ s.member.Has P m)
  lists : ∀ c ch, channel.cell c = some ch → ∃ old,
    s.channel.cell c = some old ∧ ch.users = old.users ∧
      ch.services = old.services
  names : ∀ (P : Channel → Prop) c,
    (∀ left right : Channel, left.name = right.name → (P left ↔ P right)) →
    (channel.Has P c ↔ s.channel.Has P c)

theorem reflag (inv : Inv Empty s) {member : Heap Chmember}
    {channel : Heap Channel} (change : Reflag s member channel)
    (opped : ∀ c ch, channel.cell c = some ch →
      Exactly ch.usersOpped (member.Has (OppedIn c)))
    (unopped : ∀ c ch, channel.cell c = some ch →
      Exactly ch.usersUnopped (member.Has (UnoppedIn c)))
    (flags : ∀ m new, member.cell m = some new →
      new.isOpped = true → new.flags.has modeDeopped = false) :
    Inv Empty { s with member := member, channel := channel } where
  owner := by
    intro m new used
    obtain ⟨old, found, same, _⟩ := change.cells m new used
    obtain ⟨ch, there⟩ := inv.owner m old found
    have before : s.channel.Has (fun _ => True) old.chptr :=
      ⟨ch, there, trivial⟩
    rw [← change.names _ _ (fun _ _ _ => Iff.rfl)] at before
    obtain ⟨ch, there, _⟩ := before
    exact ⟨ch, by rw [same, there]⟩
  users := by
    intro c ch used
    obtain ⟨old, found, same, _⟩ := change.lists c ch used
    rw [same]
    refine (inv.users c old found).congr fun m => (change.has _ m ?_).symm
    intro left right sameChannel _
    rw [InChannel, InChannel, sameChannel]
  opped := opped
  unopped := unopped
  channels := by
    intro u
    refine (inv.channels u).congr fun m => (change.has _ m ?_).symm
    intro left right _ sameClient
    rw [OfClient, OfClient, sameClient]
  unique := by
    intro m n left right usedLeft usedRight sameChannel sameClient
    obtain ⟨oldLeft, foundLeft, inLeft, ofLeft⟩ := change.cells m left usedLeft
    obtain ⟨oldRight, foundRight, inRight, ofRight⟩ :=
      change.cells n right usedRight
    refine inv.unique m n oldLeft oldRight foundLeft foundRight ?_ ?_
    · rw [← inLeft, ← inRight, sameChannel]
    · rw [← ofLeft, ← ofRight, sameClient]
  flags := flags
  list := inv.list.congr fun c =>
    (change.names _ c fun _ _ _ => Iff.rfl).symm
  table := by
    intro hashv
    refine (inv.table hashv).congr fun c => (change.names _ c ?_).symm
    intro left right sameName
    rw [Channel.InBucket, Channel.InBucket, sameName]
  occupied := by
    intro c ch used
    obtain ⟨old, found, sameUsers, sameServices⟩ := change.lists c ch used
    rw [sameUsers, sameServices]
    exact inv.occupied c old found

theorem reflag_one (mptr : MemberId) (chptr : ChannelId)
    {change : Chmember → Chmember} {shuffle : Channel → Channel}
    (flagsOnly : ∀ member, (change member).chptr = member.chptr ∧
      (change member).clientP = member.clientP)
    (halvesOnly : ∀ ch, (shuffle ch).name = ch.name ∧
      (shuffle ch).users = ch.users ∧ (shuffle ch).services = ch.services) :
    Reflag s (s.member.modify mptr change)
      (s.channel.modify chptr shuffle) where
  cells := by
    intro m new used
    obtain ⟨old, found, changed⟩ := Heap.cell_of_modify used
    refine ⟨old, found, ?_⟩
    rw [changed]
    split
    · exact flagsOnly old
    · exact ⟨rfl, rfl⟩
  has := fun P m sees => Heap.has_modify_of_same fun member =>
    sees _ _ (flagsOnly member).1 (flagsOnly member).2
  lists := by
    intro c ch used
    obtain ⟨old, found, changed⟩ := Heap.cell_of_modify used
    refine ⟨old, found, ?_⟩
    rw [changed]
    split
    · exact (halvesOnly old).2
    · exact ⟨rfl, rfl⟩
  names := fun P c sees => Heap.has_modify_of_same fun ch =>
    sees _ _ (halvesOnly ch).1

theorem modifyMember (inv : Inv Empty s) (mptr : MemberId)
    {change : Chmember → Chmember}
    (flagsOnly : ∀ member, (change member).chptr = member.chptr ∧
      (change member).clientP = member.clientP)
    (side : ∀ member, (change member).isOpped = member.isOpped)
    (marks : ∀ member : Chmember, member.flags.has modeDeopped = false →
      (change member).flags.has modeDeopped = false) :
    Inv Empty (s.modifyMember mptr change) := by
  have one : Reflag s (s.member.modify mptr change)
      (s.channel.modify 0 id) :=
    reflag_one mptr 0 flagsOnly fun _ => ⟨rfl, rfl, rfl⟩
  have change : Reflag s (s.member.modify mptr change) s.channel :=
    { cells := one.cells
      has := fun P m sees => Heap.has_modify_of_same fun member =>
        sees _ _ (flagsOnly member).1 (flagsOnly member).2
      lists := fun c ch used => ⟨ch, used, rfl, rfl⟩
      names := fun _ _ _ => Iff.rfl }
  refine inv.reflag change ?_ ?_ ?_
  · intro c ch used
    refine (inv.opped c ch used).modify_same fun member _ => ?_
    rw [OppedIn, OppedIn, (flagsOnly member).1, side]
  · intro c ch used
    refine (inv.unopped c ch used).modify_same fun member _ => ?_
    rw [UnoppedIn, UnoppedIn, (flagsOnly member).1, side]
  · intro m member used opped
    obtain ⟨old, found, changed⟩ := Heap.cell_of_modify used
    rw [changed] at opped ⊢
    split at opped
    · rename_i equal
      rw [if_pos equal]
      rw [side old] at opped
      exact marks old (inv.flags m old found opped)
    · rename_i different
      rw [if_neg different]
      exact inv.flags m old found opped

theorem voiceChmember (inv : Inv Empty s) (mptr : MemberId) :
    Inv Empty (s.voiceChmember mptr) := by
  refine inv.modifyMember mptr (fun _ => ⟨rfl, rfl⟩) ?_ ?_
  · intro member
    simp [Chmember.isOpped, modeOpped, modeVoiced]
  · intro member unmarked
    simpa [modeDeopped, modeVoiced] using unmarked

theorem devoiceChmember (inv : Inv Empty s) (mptr : MemberId) :
    Inv Empty (s.devoiceChmember mptr) := by
  refine inv.modifyMember mptr (fun _ => ⟨rfl, rfl⟩) ?_ ?_
  · intro member
    simp [Chmember.isOpped, modeOpped, modeVoiced]
  · intro member unmarked
    simpa [modeDeopped, modeVoiced] using unmarked

theorem clearDeopped (inv : Inv Empty s) (mptr : MemberId) :
    Inv Empty (s.modifyMember mptr fun m =>
      { m with flags := m.flags.clear modeDeopped }) := by
  refine inv.modifyMember mptr (fun _ => ⟨rfl, rfl⟩) ?_ ?_
  · intro member
    simp [Chmember.isOpped, modeOpped, modeDeopped]
  · intro member _
    simp

/-- A list of the channel of a member changes with the member, and that of
another channel stays as it is. -/
theorem shuffled {P : ChannelId → Chmember → Prop}
    {half : Channel → List MemberId} {mptr : MemberId} {member : Chmember}
    {change : Chmember → Chmember} {shuffle : Channel → Channel}
    (found : s.member.cell mptr = some member)
    (inside : ∀ c member, P c member → member.chptr = c)
    (seat : (change member).chptr = member.chptr)
    (lists : ∀ c ch, s.channel.cell c = some ch →
      Exactly (half ch) (s.member.Has (P c)))
    (here : ∀ ch, Exactly (half ch) (s.member.Has (P member.chptr)) →
      Exactly (half (shuffle ch))
        ((s.member.modify mptr change).Has (P member.chptr))) :
    ∀ c ch, (s.channel.modify member.chptr shuffle).cell c = some ch →
      Exactly (half ch) ((s.member.modify mptr change).Has (P c)) := by
  intro c ch used
  obtain ⟨old, there, changed⟩ := Heap.cell_of_modify used
  have before := lists c old there
  by_cases equal : c = member.chptr
  · subst equal
    rw [changed, if_pos rfl]
    exact here old before
  · rw [changed, if_neg equal]
    refine before.modify_same fun value same => ?_
    rw [found, Option.some.injEq] at same
    subst same
    exact iff_of_false (fun new => equal ((inside c _ new).symm.trans seat))
      fun old => equal (inside c _ old).symm

theorem unmarked (inv : Inv Empty s) {mptr : MemberId}
    {change : Chmember → Chmember}
    (cleared : ∀ member, (change member).isOpped = true →
      (change member).flags.has modeDeopped = false) :
    ∀ m new, (s.member.modify mptr change).cell m = some new →
      new.isOpped = true → new.flags.has modeDeopped = false := by
  intro m new used opped
  obtain ⟨old, there, changed⟩ := Heap.cell_of_modify used
  rw [changed] at opped ⊢
  split at opped
  · rename_i self
    rw [if_pos self]
    exact cleared old opped
  · rename_i different
    rw [if_neg different]
    exact inv.flags m old there opped

theorem opChmember (inv : Inv Empty s) (mptr : MemberId) :
    Inv Empty (s.opChmember mptr) := by
  unfold Chans.opChmember
  cases found : s.member.cell mptr with
  | none => exact inv
  | some member =>
      by_cases already : member.isOpped = true
      · simpa [already] using inv
      · simp only [already, Bool.false_eq_true, if_false]
        refine inv.reflag (reflag_one mptr member.chptr
          (fun _ => ⟨rfl, rfl⟩) (fun _ => ⟨rfl, rfl, rfl⟩)) ?_ ?_ ?_
        · refine shuffled found (fun _ _ inside => inside.1) rfl inv.opped
            fun ch before => before.modify_enter found ?_ ?_
          · exact fun opped => already opped.2
          · exact ⟨rfl, by simp [Chmember.isOpped, modeOpped]⟩
        · refine shuffled found (fun _ _ inside => inside.1) rfl inv.unopped
            fun ch before => before.modify_leave found ?_
          simp [UnoppedIn, Chmember.isOpped, modeOpped]
        · exact inv.unmarked fun other _ => by
            simp [modeOpped, modeDeopped]

theorem deopChmember (inv : Inv Empty s) (mptr : MemberId) :
    Inv Empty (s.deopChmember mptr) := by
  unfold Chans.deopChmember
  cases found : s.member.cell mptr with
  | none => exact inv
  | some member =>
      by_cases already : member.isOpped = true
      · simp only [already, Bool.not_true, Bool.false_eq_true, if_false]
        refine inv.reflag (reflag_one mptr member.chptr
          (fun _ => ⟨rfl, rfl⟩) (fun _ => ⟨rfl, rfl, rfl⟩)) ?_ ?_ ?_
        · refine shuffled found (fun _ _ inside => inside.1) rfl inv.opped
            fun ch before => before.modify_leave found ?_
          simp [OppedIn, Chmember.isOpped]
        · refine shuffled found (fun _ _ inside => inside.1) rfl inv.unopped
            fun ch before => before.modify_enter found ?_ ?_
          · simp [UnoppedIn, already]
          · exact ⟨rfl, by simp [Chmember.isOpped]⟩
        · exact inv.unmarked fun other opped => by
            simp [Chmember.isOpped] at opped
      · simpa [already] using inv

/-- The flags `remove_our_ov_modes` leaves. -/
def clearOv (member : Chmember) : Chmember :=
  { member with flags := (member.flags.clear modeOpped).clear modeVoiced }

theorem clearOv_isOpped (member : Chmember) :
    (clearOv member).isOpped = false := by
  simp [clearOv, Chmember.isOpped]

theorem clearOv_stable (member : Chmember) :
    clearOv (clearOv member) = clearOv member := by
  have same : ((clearOv member).flags.clear modeOpped).clear modeVoiced =
      (clearOv member).flags := by
    apply Word.ext
    intro bit _
    simp only [clearOv, Word.has_clear]
    cases member.flags.has bit <;> grind
  simp only [clearOv] at same ⊢
  rw [same]

/-- What `remove_our_ov_modes` does to the channel's lists. -/
def mergeHalves (ch : Channel) : Channel :=
  { ch with
    usersUnopped := Dlink.moveList ch.usersOpped ch.usersUnopped
    usersOpped := [] }

theorem foldl_modifyMember (change : Chmember → Chmember)
    (targets : List MemberId) (s : Chans) :
    targets.foldl (fun s target => s.modifyMember target change) s =
      { s with
        member := targets.foldl
          (fun heap target => heap.modify target change) s.member } := by
  induction targets generalizing s with
  | nil => rfl
  | cons target rest ih =>
      rw [List.foldl_cons, ih]
      rfl

theorem removeOurOvModes_eq (s : Chans) (chptr : ChannelId) :
    s.removeOurOvModes chptr =
      { s with
        member := (s.usersOf chptr).foldl
          (fun heap target => heap.modify target clearOv) s.member
        channel := s.channel.modify chptr mergeHalves } := by
  have folded := foldl_modifyMember clearOv (s.usersOf chptr) s
  change Chans.modifyChannel chptr mergeHalves
    ((s.usersOf chptr).foldl
      (fun s target => s.modifyMember target clearOv) s) = _
  rw [folded]
  rfl

theorem clearOv_cell (inv : Inv Empty s) (chptr : ChannelId) (m : MemberId)
    (new : Chmember) :
    ((s.usersOf chptr).foldl
        (fun heap target => heap.modify target clearOv) s.member).cell m =
      some new ↔
    ∃ old, s.member.cell m = some old ∧
      new = if old.chptr = chptr then clearOv old else old := by
  rw [Heap.foldl_modify_cell clearOv_stable]
  cases found : s.member.cell m with
  | none => simp
  | some old =>
      have listed : m ∈ s.usersOf chptr ↔ old.chptr = chptr := by
        rw [inv.mem_usersOf, Heap.has_iff found]
        rfl
      by_cases inside : old.chptr = chptr
      · rw [if_pos (listed.mpr inside)]
        simp [inside, eq_comm]
      · rw [if_neg fun member => inside (listed.mp member)]
        simp only [Option.some.injEq, exists_eq_left', if_neg inside]
        exact eq_comm

theorem removeOurOvModes (inv : Inv Empty s) (chptr : ChannelId) :
    Inv Empty (s.removeOurOvModes chptr) := by
  rw [removeOurOvModes_eq]
  have cells := inv.clearOv_cell chptr
  have kept : ∀ old : Chmember,
      (if old.chptr = chptr then clearOv old else old).chptr = old.chptr ∧
        (if old.chptr = chptr then clearOv old else old).clientP =
          old.clientP := by
    intro old
    split
    · exact ⟨rfl, rfl⟩
    · exact ⟨rfl, rfl⟩
  have has : ∀ (P : Chmember → Prop) m,
      ((s.usersOf chptr).foldl
        (fun heap target => heap.modify target clearOv) s.member).Has P m ↔
      s.member.Has (fun old =>
        P (if old.chptr = chptr then clearOv old else old)) m := by
    intro P m
    simp only [Heap.Has, cells]
    constructor
    · rintro ⟨new, ⟨old, found, rfl⟩, holds⟩
      exact ⟨old, found, holds⟩
    · rintro ⟨old, found, holds⟩
      exact ⟨_, ⟨old, found, rfl⟩, holds⟩
  have merged : Reflag s (s.member.modify 0 id)
      (s.channel.modify chptr mergeHalves) :=
    reflag_one 0 chptr (fun _ => ⟨rfl, rfl⟩) fun _ => ⟨rfl, rfl, rfl⟩
  have change : Reflag s
      ((s.usersOf chptr).foldl
        (fun heap target => heap.modify target clearOv) s.member)
      (s.channel.modify chptr mergeHalves) :=
    { cells := by
        intro m new used
        obtain ⟨old, found, rfl⟩ := (cells m new).mp used
        exact ⟨old, found, kept old⟩
      has := by
        intro P m sees
        rw [has]
        refine exists_congr fun old => and_congr_right fun _ => ?_
        exact sees _ _ (kept old).1 (kept old).2
      lists := merged.lists
      names := merged.names }
  refine inv.reflag change ?_ ?_ ?_
  · intro c ch used
    obtain ⟨old, there, changed⟩ := Heap.cell_of_modify used
    by_cases equal : c = chptr
    · rw [changed, if_pos equal]
      refine Exactly.nil fun m => ?_
      rw [has]
      rintro ⟨member, _, inside, opped⟩
      rw [(kept member).1] at inside
      rw [if_pos (inside.trans equal), clearOv_isOpped] at opped
      cases opped
    · rw [changed, if_neg equal]
      refine (inv.opped c old there).congr fun m => ?_
      rw [has]
      refine exists_congr fun member => and_congr_right fun _ => ?_
      by_cases inside : member.chptr = chptr
      · simp [OppedIn, inside, Ne.symm equal, clearOv]
      · simp [inside]
  · intro c ch used
    obtain ⟨old, there, changed⟩ := Heap.cell_of_modify used
    by_cases equal : c = chptr
    · rw [changed, if_pos equal]
      have apart : ∀ m, s.member.Has (OppedIn c) m →
          ¬s.member.Has (UnoppedIn c) m := by
        rintro m ⟨left, found, _, opped⟩ ⟨right, same, _, unopped⟩
        rw [found, Option.some.injEq] at same
        rw [same, unopped] at opped
        cases opped
      refine ((inv.opped c old there).move (inv.unopped c old there)
        apart).congr fun m => ?_
      rw [has, Heap.Has, Heap.Has, ← exists_or]
      refine exists_congr fun member => ?_
      by_cases inside : member.chptr = chptr
      · cases side : member.isOpped <;>
          simp [OppedIn, UnoppedIn, inside, equal, side, clearOv_isOpped] <;>
          simp [clearOv, inside]
      · simp [OppedIn, UnoppedIn, inside, equal]
    · rw [changed, if_neg equal]
      refine (inv.unopped c old there).congr fun m => ?_
      rw [has]
      refine exists_congr fun member => and_congr_right fun _ => ?_
      by_cases inside : member.chptr = chptr
      · simp [UnoppedIn, inside, Ne.symm equal, clearOv]
      · simp [inside]
  · intro m member used opped
    obtain ⟨old, found, rfl⟩ := (cells m member).mp used
    by_cases inside : old.chptr = chptr
    · rw [if_pos inside, clearOv_isOpped] at opped
      cases opped
    · rw [if_neg inside] at opped ⊢
      exact inv.flags m old found opped

theorem nobody_in_next (inv : Inv Empty s) (m : MemberId) :
    ¬s.member.Has (InChannel s.channel.next) m := by
  rintro ⟨member, found, inside⟩
  obtain ⟨ch, used⟩ := inv.owner m member found
  rw [inside, Heap.cell_next] at used
  cases used

theorem createChannel (inv : Inv Empty s) (name : CString) (tsinfo : Int)
    (mode : Chmode) :
    Inv (fun c => Empty c ∨ c = s.channel.next)
      (s.createChannel name tsinfo mode).1 := by
  have cells : ∀ c ch,
      (s.createChannel name tsinfo mode).1.channel.cell c = some ch →
      s.channel.cell c = some ch ∨ (c = s.channel.next ∧ ch.users = [] ∧
        ch.usersOpped = [] ∧ ch.usersUnopped = []) := by
    intro c ch used
    change (Heap.alloc _ _).cell c = some ch at used
    rw [Heap.alloc_cell] at used
    split at used
    · rename_i new
      cases used
      exact Or.inr ⟨new, rfl, rfl, rfl⟩
    · exact Or.inl used
  have nobody := inv.nobody_in_next
  exact {
    owner := by
      intro m member found
      obtain ⟨ch, used⟩ := inv.owner m member found
      exact ⟨ch, Heap.alloc_cell_of_used used⟩
    users := by
      intro c ch used
      obtain used | ⟨rfl, noUsers, _⟩ := cells c ch used
      · exact inv.users c ch used
      · rw [noUsers]
        exact .nil nobody
    opped := by
      intro c ch used
      obtain used | ⟨rfl, _, noOpped, _⟩ := cells c ch used
      · exact inv.opped c ch used
      · rw [noOpped]
        refine .nil fun m => ?_
        rintro ⟨member, found, inside, _⟩
        exact nobody m ⟨member, found, inside⟩
    unopped := by
      intro c ch used
      obtain used | ⟨rfl, _, _, noUnopped⟩ := cells c ch used
      · exact inv.unopped c ch used
      · rw [noUnopped]
        refine .nil fun m => ?_
        rintro ⟨member, found, inside, _⟩
        exact nobody m ⟨member, found, inside⟩
    channels := inv.channels
    unique := inv.unique
    flags := inv.flags
    list := inv.list.alloc_in trivial
    table := by
      intro hashv
      simp only [Chans.createChannel, Chans.addChannel, Chans.onBucket,
        Function.update_apply]
      split
      · rename_i equal
        rw [equal]
        exact (inv.table _).alloc_in rfl
      · rename_i different
        exact (inv.table hashv).alloc_out (Ne.symm different)
    occupied := by
      intro c ch used
      obtain used | ⟨new, _⟩ := cells c ch used
      · obtain allowed | rest := inv.occupied c ch used
        · exact Or.inl (Or.inl allowed)
        · exact Or.inr rest
      · exact Or.inl (Or.inr new) }

theorem freeChannel (inv : Inv (fun c => Empty c ∨ c = target) s)
    (deserted : ∀ ch, s.channel.cell target = some ch → ch.users = []) :
    Inv Empty (s.freeChannel target) := by
  unfold Chans.freeChannel
  cases there : s.channel.cell target with
  | none =>
      refine { inv with occupied := ?_ }
      intro c ch used
      obtain (allowed | equal) | rest := inv.occupied c ch used
      · exact Or.inl allowed
      · rw [equal, there] at used
        cases used
      · exact Or.inr rest
  | some gone =>
      have nobody : ∀ m, ¬s.member.Has (InChannel target) m := by
        intro m inside
        have listed := ((inv.users target gone there).mem_iff m).mpr inside
        rw [deserted gone there] at listed
        cases listed
      have cells : ∀ c ch, (s.channel.free target).cell c = some ch →
          c ≠ target ∧ s.channel.cell c = some ch := by
        intro c ch used
        rw [Heap.free_cell] at used
        split at used
        · cases used
        · rename_i different
          exact ⟨different, used⟩
      exact {
        owner := by
          intro m member found
          obtain ⟨ch, used⟩ := inv.owner m member found
          have different : member.chptr ≠ target := fun equal =>
            nobody m ⟨member, found, equal⟩
          refine ⟨ch, ?_⟩
          change (s.channel.free target).cell _ = _
          rw [Heap.free_cell, if_neg different, used]
        users := fun c ch used => inv.users c ch (cells c ch used).2
        opped := fun c ch used => inv.opped c ch (cells c ch used).2
        unopped := fun c ch used => inv.unopped c ch (cells c ch used).2
        channels := inv.channels
        unique := inv.unique
        flags := inv.flags
        list := inv.list.free_in
        table := by
          intro hashv
          simp only [Chans.delChannel, Chans.onBucket, Function.update_apply]
          split
          · rename_i equal
            rw [equal]
            exact (inv.table _).free_in
          · rename_i other
            refine (inv.table hashv).free_out ?_
            rw [Heap.has_iff there]
            exact Ne.symm other
        occupied := by
          intro c ch used
          obtain ⟨different, used⟩ := cells c ch used
          obtain (allowed | equal) | rest := inv.occupied c ch used
          · exact Or.inl allowed
          · exact absurd equal different
          · exact Or.inr rest }

theorem freeIfEmpty (inv : Inv (fun c => Empty c ∨ c = target) s) :
    Inv Empty (s.freeIfEmpty target) := by
  unfold Chans.freeIfEmpty
  cases there : s.channel.cell target with
  | none =>
      have freed := inv.freeChannel (by simp [there])
      simpa [Chans.freeChannel, there] using freed
  | some ch =>
      by_cases deserted : (ch.users.isEmpty && ch.services.isEmpty) = true
      · simp only [deserted, if_true]
        refine inv.freeChannel fun other same => ?_
        rw [there, Option.some.injEq] at same
        rw [Bool.and_eq_true, List.isEmpty_iff] at deserted
        rw [← same, deserted.1]
      · simp only [deserted, Bool.false_eq_true, if_false]
        refine { inv with occupied := ?_ }
        intro c other used
        obtain (allowed | equal) | rest := inv.occupied c other used
        · exact Or.inl allowed
        · rw [equal, there, Option.some.injEq] at used
          rw [← used]
          simp only [Bool.and_eq_true, List.isEmpty_iff, not_and_or] at deserted
          exact Or.inr deserted
        · exact Or.inr rest

def enlist (m : MemberId) (opped : Bool) (ch : Channel) : Channel :=
  if opped then
    { ch with
      users := Dlink.add m ch.users
      usersOpped := Dlink.add m ch.usersOpped }
  else
    { ch with
      users := Dlink.add m ch.users
      usersUnopped := Dlink.add m ch.usersUnopped }

def delist (m : MemberId) (opped : Bool) (ch : Channel) : Channel :=
  if opped then
    { ch with
      users := Dlink.delete m ch.users
      usersOpped := Dlink.delete m ch.usersOpped }
  else
    { ch with
      users := Dlink.delete m ch.users
      usersUnopped := Dlink.delete m ch.usersUnopped }

theorem addChmember_eq (s : Chans) (c : ChannelId) (u : ClientId)
    (flags : Word) :
    (s.addChmember c u flags).1 =
      { s with
        member := s.member.alloc ⟨c, u, flags⟩
        channel := s.channel.modify c
          (enlist s.member.next (flags.has modeOpped))
        userChannels := Function.update s.userChannels u
          (Dlink.add s.member.next (s.userChannels u)) } := by
  simp only [Chans.addChmember, Chans.modifyChannel, Chans.onUserChannels,
    Heap.modify_modify]
  congr 2

theorem addChmember (inv : Inv Empty s) {c : ChannelId} {u : ClientId}
    {flags : Word} (there : ∃ ch, s.channel.cell c = some ch)
    (stranger : ∀ m member, s.member.cell m = some member →
      member.chptr = c → member.clientP ≠ u)
    (clean : flags.has modeOpped = true → flags.has modeDeopped = false) :
    Inv (fun other => Empty other ∧ other ≠ c) (s.addChmember c u flags).1 := by
  rw [addChmember_eq]
  have cells : ∀ m member,
      (s.member.alloc ⟨c, u, flags⟩).cell m = some member →
      (m = s.member.next ∧ member = ⟨c, u, flags⟩) ∨
        s.member.cell m = some member := by
    intro m member found
    rw [Heap.alloc_cell] at found
    split at found
    · rename_i new
      cases found
      exact Or.inl ⟨new, rfl⟩
    · exact Or.inr found
  exact {
    owner := by
      intro m member found
      obtain ⟨_, rfl⟩ | found := cells m member found
      · obtain ⟨ch, used⟩ := there
        exact ⟨_, Heap.modify_of_cell used⟩
      · obtain ⟨ch, used⟩ := inv.owner m member found
        exact ⟨_, Heap.modify_of_cell used⟩
    users := by
      intro d ch used
      obtain ⟨old, found, changed⟩ := Heap.cell_of_modify used
      have before := inv.users d old found
      by_cases equal : d = c
      · have lists : ch.users = Dlink.add s.member.next old.users := by
          rw [changed, if_pos equal, enlist]
          split <;> rfl
        rw [lists]
        exact before.alloc_in equal.symm
      · rw [changed, if_neg equal]
        exact before.alloc_out (Ne.symm equal)
    opped := by
      intro d ch used
      obtain ⟨old, found, changed⟩ := Heap.cell_of_modify used
      have before := inv.opped d old found
      by_cases equal : d = c
      · rw [changed, if_pos equal, enlist]
        split
        · rename_i opped
          exact before.alloc_in ⟨equal.symm, opped⟩
        · rename_i unopped
          exact before.alloc_out fun holds => unopped holds.2
      · rw [changed, if_neg equal]
        exact before.alloc_out fun holds => equal holds.1.symm
    unopped := by
      intro d ch used
      obtain ⟨old, found, changed⟩ := Heap.cell_of_modify used
      have before := inv.unopped d old found
      by_cases equal : d = c
      · rw [changed, if_pos equal, enlist]
        split
        · rename_i opped
          refine before.alloc_out fun holds => ?_
          have unopped : flags.has modeOpped = false := holds.2
          rw [opped] at unopped
          cases unopped
        · rename_i unopped
          have side : flags.has modeOpped = false := by simpa using unopped
          exact before.alloc_in ⟨equal.symm, side⟩
      · rw [changed, if_neg equal]
        exact before.alloc_out fun holds => equal holds.1.symm
    channels := by
      intro v
      simp only [Function.update_apply]
      split
      · rename_i equal
        rw [equal]
        exact (inv.channels u).alloc_in rfl
      · rename_i different
        exact (inv.channels v).alloc_out (Ne.symm different)
    unique := by
      intro m n left right foundLeft foundRight sameChannel sameClient
      obtain ⟨newLeft, rfl⟩ | foundLeft := cells m left foundLeft
      · obtain ⟨newRight, _⟩ | foundRight := cells n right foundRight
        · rw [newLeft, newRight]
        · exact absurd sameClient.symm
            (stranger n right foundRight sameChannel.symm)
      · obtain ⟨_, rfl⟩ | foundRight := cells n right foundRight
        · exact absurd sameClient (stranger m left foundLeft sameChannel)
        · exact inv.unique m n left right foundLeft foundRight sameChannel
            sameClient
    flags := by
      intro m member found opped
      obtain ⟨_, rfl⟩ | found := cells m member found
      · exact clean opped
      · exact inv.flags m member found opped
    list := inv.list.modify_same fun _ _ => Iff.rfl
    table := by
      intro hashv
      refine (inv.table hashv).modify_same fun ch _ => ?_
      unfold enlist
      split <;> rfl
    occupied := by
      intro d ch used
      obtain ⟨old, found, changed⟩ := Heap.cell_of_modify used
      by_cases equal : d = c
      · refine Or.inr (Or.inl ?_)
        rw [changed, if_pos equal, enlist]
        split <;> simp [Dlink.add]
      · rw [changed, if_neg equal]
        obtain allowed | rest := inv.occupied d old found
        · exact Or.inl ⟨allowed, equal⟩
        · exact Or.inr rest }

def dropChmember (s : Chans) (mptr : MemberId) (member : Chmember) :
    Chans :=
  { s with
    member := s.member.free mptr
    channel := s.channel.modify member.chptr (delist mptr member.isOpped)
    userChannels := Function.update s.userChannels member.clientP
      (Dlink.delete mptr (s.userChannels member.clientP)) }

theorem freeIfEmpty_free_member (s : Chans) (c : ChannelId)
    (mptr : MemberId) :
    { s.freeIfEmpty c with member := (s.freeIfEmpty c).member.free mptr } =
      { s with member := s.member.free mptr }.freeIfEmpty c := by
  unfold Chans.freeIfEmpty
  cases there : s.channel.cell c with
  | none => rfl
  | some ch =>
      simp only [Chans.freeChannel, there]
      split <;> rfl

theorem delChmember_eq {mptr : MemberId} {member : Chmember}
    (found : s.member.cell mptr = some member) :
    s.delChmember mptr =
      (dropChmember s mptr member).freeIfEmpty member.chptr := by
  simp only [Chans.delChmember, found, freeIfEmpty_free_member, dropChmember,
    Chans.modifyChannel, Chans.onUserChannels, Heap.modify_modify]
  congr 3

theorem dropChmember_inv (inv : Inv Empty s) {mptr : MemberId}
    {member : Chmember} (found : s.member.cell mptr = some member) :
    Inv (fun c => Empty c ∨ c = member.chptr)
      (dropChmember s mptr member) := by
  have cells : ∀ m other, (s.member.free mptr).cell m = some other →
      s.member.cell m = some other := by
    intro m other used
    rw [Heap.free_cell] at used
    split at used
    · cases used
    · exact used
  exact {
    owner := by
      intro m other used
      obtain ⟨ch, there⟩ := inv.owner m other (cells m other used)
      exact ⟨_, Heap.modify_of_cell there⟩
    users := by
      intro d ch used
      obtain ⟨old, there, changed⟩ := Heap.cell_of_modify used
      have before := inv.users d old there
      by_cases equal : d = member.chptr
      · have lists : ch.users = Dlink.delete mptr old.users := by
          rw [changed, if_pos equal, delist]
          split <;> rfl
        rw [lists]
        exact before.free_in
      · rw [changed, if_neg equal]
        refine before.free_out ?_
        rw [Heap.has_iff found]
        exact Ne.symm equal
    opped := by
      intro d ch used
      obtain ⟨old, there, changed⟩ := Heap.cell_of_modify used
      have before := inv.opped d old there
      by_cases equal : d = member.chptr
      · rw [changed, if_pos equal, delist]
        split
        · exact before.free_in
        · rename_i unopped
          refine before.free_out ?_
          rw [Heap.has_iff found]
          exact fun holds => unopped holds.2
      · rw [changed, if_neg equal]
        refine before.free_out ?_
        rw [Heap.has_iff found]
        exact fun holds => equal holds.1.symm
    unopped := by
      intro d ch used
      obtain ⟨old, there, changed⟩ := Heap.cell_of_modify used
      have before := inv.unopped d old there
      by_cases equal : d = member.chptr
      · rw [changed, if_pos equal, delist]
        split
        · rename_i opped
          refine before.free_out ?_
          rw [Heap.has_iff found]
          intro holds
          rw [holds.2] at opped
          cases opped
        · exact before.free_in
      · rw [changed, if_neg equal]
        refine before.free_out ?_
        rw [Heap.has_iff found]
        exact fun holds => equal holds.1.symm
    channels := by
      intro v
      simp only [dropChmember, Function.update_apply]
      split
      · rename_i equal
        rw [equal]
        exact (inv.channels _).free_in
      · rename_i different
        refine (inv.channels v).free_out ?_
        rw [Heap.has_iff found]
        exact Ne.symm different
    unique := fun m n left right usedLeft usedRight =>
      inv.unique m n left right (cells m left usedLeft)
        (cells n right usedRight)
    flags := fun m other used => inv.flags m other (cells m other used)
    list := inv.list.modify_same fun _ _ => Iff.rfl
    table := by
      intro hashv
      refine (inv.table hashv).modify_same fun ch _ => ?_
      unfold delist
      split <;> rfl
    occupied := by
      intro d ch used
      obtain ⟨old, there, changed⟩ := Heap.cell_of_modify used
      by_cases equal : d = member.chptr
      · exact Or.inl (Or.inr equal)
      · rw [changed, if_neg equal]
        obtain allowed | rest := inv.occupied d old there
        · exact Or.inl (Or.inl allowed)
        · exact Or.inr rest }

theorem delChmember (inv : Inv Empty s) (mptr : MemberId) :
    Inv Empty (s.delChmember mptr) := by
  cases found : s.member.cell mptr with
  | none => simpa [Chans.delChmember, found] using inv
  | some member =>
      rw [delChmember_eq found]
      exact (inv.dropChmember_inv found).freeIfEmpty

theorem foldl_delChmember (inv : Inv Empty s) (members : List MemberId) :
    Inv Empty (members.foldl (fun s mptr => s.delChmember mptr) s) := by
  induction members generalizing s with
  | nil => exact inv
  | cons mptr rest ih => exact ih (inv.delChmember mptr)

theorem seated (inv : Inv Empty s) : Seated s where
  users := inv.mem_usersOf
  channels := fun u => (inv.channels u).mem_iff
  unique := inv.unique

theorem no_chmember (inv : Inv Empty s) {c : ChannelId} {u : ClientId}
    (absent : s.findChmember c u = none) :
    ∀ m member, s.member.cell m = some member → member.chptr = c →
      member.clientP ≠ u := by
  intro m member found inside owned
  have only := inv.seated.findChmember c u
  rw [absent] at only
  exact only m ⟨member, found, inside, owned⟩

theorem links_of_findChmember (inv : Inv Empty s) {c : ChannelId}
    {u : ClientId} {m : MemberId} (found : s.findChmember c u = some m) :
    s.Links c u m :=
  ((inv.seated.findChmember c u).eq_some_iff m).mp found

theorem users_of_findChmember (inv : Inv Empty s) {c : ChannelId}
    {u : ClientId} {m : MemberId} {ch : Channel}
    (found : s.findChmember c u = some m)
    (there : s.channel.cell c = some ch) : ch.users ≠ [] := by
  have linked := inv.links_of_findChmember found
  have listed : m ∈ s.usersOf c :=
    (inv.mem_usersOf c m).mpr (links_iff.mp linked).1
  simp only [usersOf, there] at listed
  exact List.ne_nil_of_mem listed

theorem settle (inv : Inv Empty s) {c : ChannelId}
    (users : ∀ ch, s.channel.cell c = some ch → ch.users ≠ []) :
    Inv (fun other => Empty other ∧ other ≠ c) s := by
  refine { inv with occupied := ?_ }
  intro other ch used
  by_cases equal : other = c
  · subst equal
    exact Or.inr (Or.inl (users ch used))
  · obtain allowed | rest := inv.occupied other ch used
    · exact Or.inl ⟨allowed, equal⟩
    · exact Or.inr rest

theorem onServiceChannels (inv : Inv Empty s) (service : ClientId)
    (change : List ChannelId → List ChannelId) :
    Inv Empty (s.onServiceChannels service change) :=
  { inv with }

theorem linkService (inv : Inv (fun c => Empty c ∨ c = target) s)
    (serviceP : ClientId) : Inv Empty (s.linkService serviceP target) := by
  refine onServiceChannels ?_ _ _
  have linked : Inv _ (s.modifyChannel target fun ch =>
      { ch with services := Dlink.add serviceP ch.services }) :=
    inv.modifyServices target fun _ => ⟨rfl, rfl, rfl, rfl⟩
  refine { linked with occupied := ?_ }
  intro c ch used
  obtain ⟨old, found, changed⟩ := Heap.cell_of_modify used
  by_cases equal : c = target
  · refine Or.inr (Or.inr ?_)
    rw [changed, if_pos equal]
    simp [Dlink.add]
  · obtain ((allowed | same) | same) | rest := linked.occupied c ch used
    · exact Or.inl allowed
    · exact absurd same equal
    · exact absurd same equal
    · exact Or.inr rest

theorem joinService (inv : Inv Empty s) (serviceP : ClientId)
    (chname : CString) (tsinfo : Int) (mode : Option Chmode)
    (override : Bool) (now : Int) :
    Inv Empty (s.joinService serviceP chname tsinfo mode override now) := by
  unfold Chans.joinService
  cases s.findChannel chname with
  | none => exact (inv.createChannel _ _ _).linkService serviceP
  | some chptr =>
      dsimp only
      cases s.channel.cell chptr with
      | none => exact inv
      | some ch =>
          dsimp only
          have wide : Inv (fun c => Empty c ∨ c = chptr) s :=
            inv.weaken fun c allowed => Or.inl allowed
          split
          · exact inv
          · split
            · refine Inv.linkService ?_ serviceP
              exact wide.modifyChannel chptr fun _ => ⟨rfl, rfl, rfl, rfl, rfl⟩
            · exact wide.linkService serviceP

theorem partService (inv : Inv Empty s) (serviceP : ClientId)
    (chname : CString) : Inv Empty (s.partService serviceP chname).1 := by
  unfold Chans.partService
  cases s.findChannel chname with
  | none => exact inv
  | some chptr =>
      dsimp only
      cases s.channel.cell chptr with
      | none => exact inv
      | some ch =>
          dsimp only
          split
          · refine freeIfEmpty (onServiceChannels ?_ _ _)
            exact inv.modifyServices chptr fun _ => ⟨rfl, rfl, rfl, rfl⟩
          · exact inv

theorem removeOurSimpleModes (inv : Inv Empty s) (chptr : ChannelId) :
    Inv Empty (s.removeOurSimpleModes chptr) :=
  inv.modifyChannel chptr fun _ => ⟨rfl, rfl, rfl, rfl, rfl⟩

theorem removeOurBans (inv : Inv Empty s) (chptr : ChannelId)
    (bans exceptions invex : Bool) :
    Inv Empty (s.removeOurBans chptr bans exceptions invex) :=
  inv.modifyChannel chptr fun _ => ⟨rfl, rfl, rfl, rfl, rfl⟩

theorem lower_plain (bits : List Nat) : Plain fun ch =>
    { ch with
      mode := { ch.mode with mode := Word.ofBits bits }
      tsinfo := ch.tsinfo - 1 } :=
  fun _ => ⟨rfl, rfl, rfl, rfl, rfl⟩

theorem takeover (inv : Inv Empty s) (serviceP : ClientId)
    (chptr : ChannelId) (invite exceptions invex : Bool) (now : Int) :
    Inv Empty (s.takeover serviceP chptr invite exceptions invex now) := by
  unfold Chans.takeover
  cases s.channel.cell chptr with
  | none => exact inv
  | some ch =>
      dsimp only
      split
      · exact inv
      · have cleared := (((inv.partService serviceP ch.name
          ).removeOurSimpleModes chptr).removeOurOvModes chptr
          ).removeOurBans chptr true exceptions invex
        have lowered (bits : List Nat) := cleared.modifyChannel chptr
          (lower_plain bits)
        split
        · exact lowered _
        · exact (lowered _).joinService serviceP _ _ none false now

theorem exec (inv : Inv Empty s) (now : Int) (act : ChanAct) :
    Inv Empty (act.exec now s) := by
  cases act with
  | op mptr => exact inv.opChmember mptr
  | deop mptr => exact inv.deopChmember mptr
  | voice mptr => exact inv.voiceChmember mptr
  | devoice mptr => exact inv.devoiceChmember mptr
  | kick mptr => exact inv.delChmember mptr
  | enforce chptr emode =>
      exact inv.modifyChannel chptr fun _ => ⟨rfl, rfl, rfl, rfl, rfl⟩
  | setTopic chptr topic topicwho tsinfo =>
      exact inv.modifyChannel chptr fun _ => ⟨rfl, rfl, rfl, rfl, rfl⟩
  | addBan chptr mask =>
      exact inv.modifyChannel chptr fun _ => ⟨rfl, rfl, rfl, rfl, rfl⟩
  | delBan chptr mask =>
      exact inv.modifyChannel chptr fun _ => ⟨rfl, rfl, rfl, rfl, rfl⟩
  | removeModes chptr => exact inv.removeOurSimpleModes chptr
  | removeOv chptr => exact inv.removeOurOvModes chptr
  | removeBans chptr bans exceptions invex =>
      exact inv.removeOurBans chptr bans exceptions invex
  | join serviceP chname tsinfo mode override =>
      exact inv.joinService serviceP chname tsinfo mode override now
  | part serviceP chname => exact inv.partService serviceP chname
  | takeover serviceP chptr invite exceptions invex =>
      exact inv.takeover serviceP chptr invite exceptions invex now

theorem execAll (inv : Inv Empty s) (now : Int) (acts : List ChanAct) :
    Inv Empty (ChanAct.execAll now acts s) := by
  unfold ChanAct.execAll
  induction acts generalizing s with
  | nil => exact inv
  | cons act rest ih => exact ih (inv.exec now act)

end Inv

end Chans

end RatboxServices
