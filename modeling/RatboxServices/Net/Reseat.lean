import RatboxServices.Lib.Evolve
import RatboxServices.Net.ModeInv

namespace RatboxServices

/-! Steps on the channels that only move members and services. Their names,
their TS, their topics, their modes and their masks stay what they are. -/

def Channel.Reseated (before after : Channel) : Prop :=
  ∃ users usersOpped usersUnopped services,
    after = { before with
      users := users
      usersOpped := usersOpped
      usersUnopped := usersUnopped
      services := services }

namespace Chans

theorem reseated_lawful :
    Heap.Lawful Channel.Reseated fun _ => False where
  refl := fun _ => ⟨_, _, _, _, rfl⟩
  trans := by
    rintro first _ _ ⟨_, _, _, _, rfl⟩ ⟨_, _, _, _, rfl⟩
    exact ⟨_, _, _, _, rfl⟩
  born := fun impossible _ => impossible

/-- No channel came, and those that stayed changed their members and services
only. -/
def Reseats (s t : Chans) : Prop :=
  s.channel.Evolves Channel.Reseated (fun _ => False) t.channel

namespace Reseats

variable {s t u : Chans}

theorem refl (s : Chans) : Reseats s s :=
  Heap.Evolves.refl reseated_lawful.refl s.channel

theorem trans (first : Reseats s t) (second : Reseats t u) : Reseats s u :=
  Heap.Evolves.trans reseated_lawful first second

theorem of_channel (same : t.channel = s.channel) : Reseats s t := by
  unfold Reseats
  rw [same]
  exact refl s

theorem mono {R : Channel → Channel → Prop} {Born : Channel → Prop}
    (step : Reseats s t)
    (weaker : ∀ before after, Channel.Reseated before after →
      R before after) :
    s.channel.Evolves R Born t.channel :=
  Heap.Evolves.mono step weaker fun _ impossible => impossible.elim

theorem modify {target : ChannelId} {change : Channel → Channel}
    (changed : t.channel = s.channel.modify target change)
    (kept : ∀ ch, Channel.Reseated ch (change ch)) : Reseats s t := by
  unfold Reseats
  rw [changed]
  exact Heap.Evolves.modify reseated_lawful.refl fun ch _ => kept ch

theorem modifyChannel (target : ChannelId) {change : Channel → Channel}
    (kept : ∀ ch, Channel.Reseated ch (change ch)) :
    Reseats s (s.modifyChannel target change) :=
  modify rfl kept

theorem freeChannel (target : ChannelId) :
    Reseats s (s.freeChannel target) := by
  unfold Chans.freeChannel
  split
  · exact refl s
  · exact Heap.Evolves.free reseated_lawful.refl

theorem freeIfEmpty (target : ChannelId) :
    Reseats s (s.freeIfEmpty target) := by
  unfold Chans.freeIfEmpty
  split
  · exact refl s
  · split
    · exact freeChannel target
    · exact refl s

theorem addChmember (chptr : ChannelId) (targetP : ClientId) (flags : Word) :
    Reseats s (s.addChmember chptr targetP flags).1 := by
  refine modify (congrArg Chans.channel
    (Inv.addChmember_eq s chptr targetP flags)) fun ch => ?_
  unfold Inv.enlist
  split
  · exact ⟨_, _, _, _, rfl⟩
  · exact ⟨_, _, _, _, rfl⟩

theorem delChmember (mptr : MemberId) : Reseats s (s.delChmember mptr) := by
  cases used : s.member.cell mptr with
  | none =>
      simp only [Chans.delChmember, used]
      exact refl s
  | some member =>
      rw [Inv.delChmember_eq used]
      refine Reseats.trans ?_ (freeIfEmpty member.chptr)
      refine modify rfl fun ch => ?_
      unfold Inv.delist
      split
      · exact ⟨_, _, _, _, rfl⟩
      · exact ⟨_, _, _, _, rfl⟩

theorem restatus {mptr : MemberId} (step : Restatus s mptr t) :
    Reseats s t := by
  cases step with
  | same => exact refl s
  | other => exact modifyChannel _ fun _ => ⟨_, _, _, _, rfl⟩

theorem removeOurOvModes (chptr : ChannelId) :
    Reseats s (s.removeOurOvModes chptr) := by
  rw [Inv.removeOurOvModes_eq]
  exact modify rfl fun ch => ⟨_, _, _, _, rfl⟩

theorem linkService (serviceP : ClientId) (chptr : ChannelId) :
    Reseats s (s.linkService serviceP chptr) :=
  modifyChannel chptr fun _ => ⟨_, _, _, _, rfl⟩

theorem partService (serviceP : ClientId) (chname : CString) :
    Reseats s (s.partService serviceP chname).1 := by
  unfold Chans.partService
  split
  · exact refl s
  · rename_i chptr found
    split
    · exact refl s
    · split
      · refine Reseats.trans ?_ (freeIfEmpty chptr)
        exact modifyChannel chptr fun _ => ⟨_, _, _, _, rfl⟩
      · exact refl s

variable {call : FullModeCall} {st : FullMode}

theorem serviceOp (target : ClientId) (letter : Char) :
    Reseats st.chans (st.serviceOp call target letter).chans := by
  unfold FullMode.serviceOp
  split
  · exact refl _
  · split
    · exact of_channel rfl
    · split
      · exact refl _
      · exact of_channel rfl

theorem memberOp (mptr : MemberId) (member : Chmember) (nick : CString) :
    Reseats st.chans (st.memberOp call mptr member nick).chans := by
  unfold FullMode.memberOp
  split
  · dsimp only
    split
    · exact of_channel rfl
    · rw [FullMode.modebuildAdd_chans]
      have unmarked : Reseats st.chans (st.chans.modifyMember mptr fun m =>
          { m with flags := m.flags.clear modeDeopped }) := of_channel rfl
      exact unmarked.trans ((restatus (.op mptr)).trans (of_channel rfl))
  · split
    · rw [FullMode.modebuildAdd_chans]
      have unlisted : Reseats st.chans { st.chans with
          oppedList := Dlink.findDestroy mptr st.chans.oppedList } :=
        of_channel rfl
      exact unlisted.trans (restatus (.deop mptr))
    · rw [FullMode.modebuildAdd_chans]
      exact refl _

theorem memberVoice (mptr : MemberId) (member : Chmember) (nick : CString) :
    Reseats st.chans (st.memberVoice call mptr member nick).chans := by
  unfold FullMode.memberVoice
  split
  · split
    · exact refl _
    · rw [FullMode.modebuildAdd_chans]
      exact of_channel rfl
  · split
    · rw [FullMode.modebuildAdd_chans]
      exact of_channel rfl
    · rw [FullMode.modebuildAdd_chans]
      exact refl _

theorem prefixMode (letter : Char) (nick : CString) :
    Reseats st.chans (st.prefixMode call letter nick).chans := by
  unfold FullMode.prefixMode
  split
  · exact serviceOp _ letter
  · split
    · exact refl _
    · split
      · exact refl _
      · split
        · exact refl _
        · split
          · exact memberOp _ _ nick
          · exact memberVoice _ _ nick

end Reseats

end Chans

end RatboxServices
