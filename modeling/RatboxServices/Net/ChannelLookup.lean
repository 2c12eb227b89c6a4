import RatboxServices.Lib.Index
import RatboxServices.Lib.Lookup
import RatboxServices.Net.Channel

namespace RatboxServices

/-! `find_chmember` looks for a member in the users of the channel or in the
channels of the user. -/

namespace Chans

variable {s : Chans} {c : ChannelId} {u : ClientId} {m : MemberId}

/-- The loop of `find_chmember` through the users of the channel. -/
def scanUsers (s : Chans) (chptr : ChannelId) (targetP : ClientId) :
    Option MemberId :=
  (s.usersOf chptr).find? (s.isMemberOfClient targetP)

/-- The loop of `find_chmember` through the channels of the user. -/
def scanChannels (s : Chans) (chptr : ChannelId) (targetP : ClientId) :
    Option MemberId :=
  (s.userChannels targetP).find? (s.isMemberOfChannel chptr)

theorem findChmember_cases (s : Chans) (c : ChannelId) (u : ClientId) :
    s.findChmember c u = s.scanUsers c u ∨
      s.findChmember c u = s.scanChannels c u := by
  unfold findChmember
  split
  · exact Or.inl rfl
  · exact Or.inr rfl

def Links (s : Chans) (c : ChannelId) (u : ClientId) : MemberId → Prop :=
  s.member.Has fun member => member.chptr = c ∧ member.clientP = u

theorem isMemberOfClient_iff :
    s.isMemberOfClient u m = true ↔
      s.member.Has (fun member => member.clientP = u) m := by
  unfold isMemberOfClient Heap.Has
  cases s.member.cell m with
  | none => simp
  | some member => simp

theorem isMemberOfChannel_iff :
    s.isMemberOfChannel c m = true ↔
      s.member.Has (fun member => member.chptr = c) m := by
  unfold isMemberOfChannel Heap.Has
  cases s.member.cell m with
  | none => simp
  | some member => simp

theorem links_iff :
    s.Links c u m ↔ s.member.Has (fun member => member.chptr = c) m ∧
      s.member.Has (fun member => member.clientP = u) m := by
  constructor
  · rintro ⟨member, found, inside, owned⟩
    exact ⟨⟨member, found, inside⟩, ⟨member, found, owned⟩⟩
  · rintro ⟨⟨member, found, inside⟩, ⟨same, again, owned⟩⟩
    rw [found, Option.some.injEq] at again
    subst again
    exact ⟨member, found, inside, owned⟩

/-- What the two lists that are scanned must hold: every member is in the users
of its channel and in the channels of its user, and no two members link the
same channel and user. -/
structure Seated (s : Chans) : Prop where
  users : ∀ c m, m ∈ s.usersOf c ↔
    s.member.Has (fun member => member.chptr = c) m
  channels : ∀ u m, m ∈ s.userChannels u ↔
    s.member.Has (fun member => member.clientP = u) m
  unique : ∀ m n left right, s.member.cell m = some left →
    s.member.cell n = some right → left.chptr = right.chptr →
    left.clientP = right.clientP → m = n

namespace Seated

theorem links_unique (seated : Seated s) {n : MemberId}
    (left : s.Links c u m) (right : s.Links c u n) : m = n := by
  obtain ⟨first, atFirst, inFirst, ofFirst⟩ := left
  obtain ⟨second, atSecond, inSecond, ofSecond⟩ := right
  apply seated.unique m n first second atFirst atSecond
  · rw [inFirst, inSecond]
  · rw [ofFirst, ofSecond]

theorem scanUsers (seated : Seated s) (c : ChannelId) (u : ClientId) :
    TheOnly (s.Links c u) (s.scanUsers c u) := by
  apply TheOnly.find
  · intro m
    rw [links_iff, seated.users, isMemberOfClient_iff]
  · exact fun m n left right => seated.links_unique left right

theorem scanChannels (seated : Seated s) (c : ChannelId) (u : ClientId) :
    TheOnly (s.Links c u) (s.scanChannels c u) := by
  apply TheOnly.find
  · intro m
    rw [links_iff, seated.channels, isMemberOfChannel_iff, and_comm]
  · exact fun m n left right => seated.links_unique left right

theorem findChmember (seated : Seated s) (c : ChannelId) (u : ClientId) :
    TheOnly (s.Links c u) (s.findChmember c u) := by
  obtain users | channels := s.findChmember_cases c u
  · rw [users]
    exact seated.scanUsers c u
  · rw [channels]
    exact seated.scanChannels c u

end Seated

end Chans

end RatboxServices
