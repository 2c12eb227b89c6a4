import RatboxServices.Net.BanMask
import RatboxServices.Net.ChannelEvolve

namespace RatboxServices

open CString

/-! That no channel has a mask in one of its lists twice, through mode strings,
the acts of the services and the handlers of channels. -/

namespace Channel

structure Tidy (ch : Channel) : Prop where
  bans : DistinctMasks ch.bans
  excepts : DistinctMasks ch.excepts
  invites : DistinctMasks ch.invites

structure Sheds (before after : Channel) : Prop where
  bans : after.bans.Sublist before.bans
  excepts : after.excepts.Sublist before.excepts
  invites : after.invites.Sublist before.invites

theorem Tidy.sheds {before after : Channel} (tidy : before.Tidy)
    (sheds : Sheds before after) : after.Tidy where
  bans := tidy.bans.sublist sheds.bans
  excepts := tidy.excepts.sublist sheds.excepts
  invites := tidy.invites.sublist sheds.invites

theorem Sheds.of_same {before after : Channel}
    (bans : after.bans = before.bans) (excepts : after.excepts = before.excepts)
    (invites : after.invites = before.invites) : Sheds before after where
  bans := bans ▸ List.Sublist.refl _
  excepts := excepts ▸ List.Sublist.refl _
  invites := invites ▸ List.Sublist.refl _

/-- The list that the letter of a `BMASK` names. -/
def maskList (ch : Channel) : Char → Option (List CString)
  | 'b' => some ch.bans
  | 'e' => some ch.excepts
  | 'I' => some ch.invites
  | _ => none

def onMaskList (letter : Char) (change : List CString → List CString)
    (ch : Channel) : Channel :=
  match letter with
  | 'b' => { ch with bans := change ch.bans }
  | 'e' => { ch with excepts := change ch.excepts }
  | 'I' => { ch with invites := change ch.invites }
  | _ => ch

theorem maskList_onMaskList (letter : Char)
    (change : List CString → List CString) (ch : Channel) :
    (ch.onMaskList letter change).maskList letter =
      (ch.maskList letter).map change := by
  unfold onMaskList
  split
  · rfl
  · rfl
  · rfl
  · rename_i bans excepts invites
    unfold maskList
    split
    · exact absurd rfl bans
    · exact absurd rfl excepts
    · exact absurd rfl invites
    · rfl

theorem maskList_of_ne {letter other : Char} (differs : other ≠ letter)
    {change : List CString → List CString} {ch : Channel} :
    (ch.onMaskList letter change).maskList other = ch.maskList other := by
  unfold onMaskList
  split
  case h_4 => rfl
  all_goals
    unfold maskList
    split <;> first | rfl | exact absurd rfl differs

theorem Sheds.cleared (remove : Bool) (list : List CString) :
    (if remove then [] else list).Sublist list := by
  cases remove with
  | false => exact List.Sublist.refl list
  | true => exact List.nil_sublist list

end Channel

namespace Chans

open Channel (Sheds)

def Tidy (s : Chans) : Prop :=
  ∀ chptr ch, s.channel.cell chptr = some ch → ch.Tidy

def StaysTidy (s t : Chans) : Prop :=
  s.Evolves (fun before after => before.Tidy → after.Tidy) Channel.Tidy t

theorem staysTidy_lawful :
    Heap.Lawful (fun before after : Channel => before.Tidy → after.Tidy)
      Channel.Tidy where
  refl := fun _ => id
  trans := fun first second tidy => second (first tidy)
  born := fun tidy changed => changed tidy

theorem tidy_empty : Chans.empty.Tidy :=
  fun _ _ used => nomatch used

theorem Tidy.stays {s t : Chans} (tidy : s.Tidy) (stays : StaysTidy s t) :
    t.Tidy :=
  fun _ _ used =>
    Heap.Evolves.forall_of_forall stays (fun _ _ changed => changed)
      (fun _ tidy => tidy) tidy used

def SetsNew (s : Chans) : ChanAct → Prop
  | .addBan chptr mask =>
      ∀ ch, s.channel.cell chptr = some ch → Lacks ch.bans mask
  | _ => True

namespace StaysTidy

variable {s t u : Chans}

theorem refl (s : Chans) : StaysTidy s s :=
  Heap.Evolves.refl staysTidy_lawful.refl s.channel

theorem trans (first : StaysTidy s t) (second : StaysTidy t u) :
    StaysTidy s u :=
  Heap.Evolves.trans staysTidy_lawful first second

theorem of_reseats (step : Reseats s t) : StaysTidy s t :=
  step.mono fun _ _ seats => by
    obtain ⟨_, _, _, _, rfl⟩ := seats
    exact fun tidy => ⟨tidy.bans, tidy.excepts, tidy.invites⟩

theorem modifyChannel {target : ChannelId} {change : Channel → Channel}
    (kept : ∀ ch, s.channel.cell target = some ch → ch.Tidy →
      (change ch).Tidy) :
    StaysTidy s (s.modifyChannel target change) :=
  Heap.Evolves.modify staysTidy_lawful.refl kept

theorem sheds (target : ChannelId) {change : Channel → Channel}
    (sheds : ∀ ch, Sheds ch (change ch)) :
    StaysTidy s (s.modifyChannel target change) :=
  modifyChannel fun ch _ tidy => tidy.sheds (sheds ch)

theorem keeps (target : ChannelId) {change : Channel → Channel}
    (kept : ∀ ch, (change ch).bans = ch.bans ∧
      (change ch).excepts = ch.excepts ∧ (change ch).invites = ch.invites) :
    StaysTidy s (s.modifyChannel target change) :=
  sheds target fun ch => .of_same (kept ch).1 (kept ch).2.1 (kept ch).2.2

theorem createChannel (name : CString) (tsinfo : Int) (mode : Chmode) :
    StaysTidy s (s.createChannel name tsinfo mode).1 :=
  Heap.Evolves.alloc staysTidy_lawful.refl ⟨.nil, .nil, .nil⟩

theorem removeOurBans (chptr : ChannelId) (bans exceptions invex : Bool) :
    StaysTidy s (s.removeOurBans chptr bans exceptions invex) :=
  sheds chptr fun ch => ⟨Sheds.cleared bans ch.bans,
    Sheds.cleared exceptions ch.excepts, Sheds.cleared invex ch.invites⟩

theorem joinService (serviceP : ClientId) (chname : CString) (tsinfo : Int)
    (mode : Option Chmode) (override : Bool) (now : Int) :
    StaysTidy s (s.joinService serviceP chname tsinfo mode override now) := by
  unfold Chans.joinService
  split
  · exact (createChannel _ _ _).trans (of_reseats (.linkService _ _))
  · split
    · exact refl s
    · split
      · exact refl s
      · refine StaysTidy.trans ?_ (of_reseats (.linkService _ _))
        split
        · exact keeps _ fun _ => ⟨rfl, rfl, rfl⟩
        · exact refl s

theorem takeover (serviceP : ClientId) (chptr : ChannelId)
    (invite exceptions invex : Bool) (now : Int) :
    StaysTidy s (s.takeover serviceP chptr invite exceptions invex now) := by
  unfold Chans.takeover
  split
  · exact refl s
  · rename_i ch used
    split
    · exact refl s
    · have stripped : StaysTidy s
          (((s.partService serviceP ch.name).1.removeOurSimpleModes
            chptr).removeOurOvModes chptr) := by
        refine StaysTidy.trans ?_ (of_reseats (.removeOurOvModes chptr))
        refine (of_reseats (.partService serviceP ch.name)).trans ?_
        exact keeps chptr fun _ => ⟨rfl, rfl, rfl⟩
      have lowered : ∀ bits, StaysTidy s
          ((((s.partService serviceP ch.name).1.removeOurSimpleModes
            chptr).removeOurOvModes chptr).removeOurBans chptr true exceptions
              invex |>.modifyChannel chptr fun ch =>
                { ch with
                  mode := { ch.mode with mode := bits }
                  tsinfo := ch.tsinfo - 1 }) := fun bits =>
        (stripped.trans (removeOurBans chptr true exceptions invex)).trans
          (keeps chptr fun _ => ⟨rfl, rfl, rfl⟩)
      dsimp only
      split
      · exact lowered _
      · exact (lowered _).trans (joinService _ _ _ _ _ _)

theorem exec (now : Int) {act : ChanAct} (fits : SetsNew s act) :
    StaysTidy s (act.exec now s) := by
  cases act with
  | op mptr => exact of_reseats (.restatus (.op mptr))
  | deop mptr => exact of_reseats (.restatus (.deop mptr))
  | voice mptr => exact of_reseats (.of_channel rfl)
  | devoice mptr => exact of_reseats (.of_channel rfl)
  | kick mptr => exact of_reseats (.delChmember mptr)
  | enforce chptr emode => exact keeps chptr fun _ => ⟨rfl, rfl, rfl⟩
  | setTopic chptr topic topicwho tsinfo =>
      exact keeps chptr fun _ => ⟨rfl, rfl, rfl⟩
  | addBan chptr mask =>
      exact modifyChannel fun ch used tidy =>
        ⟨tidy.bans.add (fits ch used), tidy.excepts, tidy.invites⟩
  | delBan chptr mask =>
      exact sheds chptr fun ch => ⟨Dlink.findDestroy_sublist _ _,
        List.Sublist.refl _, List.Sublist.refl _⟩
  | removeModes chptr => exact keeps chptr fun _ => ⟨rfl, rfl, rfl⟩
  | removeOv chptr => exact of_reseats (.removeOurOvModes chptr)
  | removeBans chptr bans exceptions invex =>
      exact removeOurBans chptr bans exceptions invex
  | join serviceP chname tsinfo mode override =>
      exact joinService serviceP chname tsinfo mode override now
  | part serviceP chname => exact of_reseats (.partService serviceP chname)
  | takeover serviceP chptr invite exceptions invex =>
      exact takeover serviceP chptr invite exceptions invex now

variable {call : FullModeCall} {st : FullMode}

theorem onMode (change : Chmode → Chmode) :
    StaysTidy st.chans (st.onMode call change).chans :=
  keeps call.chptr fun _ => ⟨rfl, rfl, rfl⟩

theorem banMode (mask : CString) :
    StaysTidy st.chans (st.banMode call mask).chans := by
  have written : ∀ {bans}, (∀ ch, st.chans.channel.cell call.chptr = some ch →
      DistinctMasks ch.bans → DistinctMasks bans) →
      StaysTidy st.chans (st.onChannel call fun ch =>
        { ch with bans := bans }).chans := fun kept =>
    modifyChannel fun ch used tidy =>
      ⟨kept ch used tidy.bans, tidy.excepts, tidy.invites⟩
  have listed : ∀ {ch}, st.chans.channel.cell call.chptr = some ch →
      st.bansOf call = ch.bans := by
    intro ch used
    rw [FullMode.bansOf, used]
  unfold FullMode.banMode
  rw [FullMode.modebuildAdd_chans]
  split
  · split
    · exact refl _
    · rename_i bans added
      exact (written fun ch used distinct =>
        distinct.addBan (listed used ▸ added)).trans
          (of_reseats (.of_channel rfl))
  · split
    · exact refl _
    · rename_i ban bans removed
      exact (written fun ch used distinct =>
        distinct.delBan (listed used ▸ removed)).trans
          (of_reseats (.of_channel rfl))

theorem letter {p : Char} {after : FullMode}
    (taken : st.letter call p = some after) :
    StaysTidy st.chans after.chans := by
  unfold FullMode.letter at taken
  split at taken
  case h_1 => cases taken; exact refl _
  case h_2 => cases taken; exact refl _
  case h_3 =>
    split at taken
    · cases taken
      rw [FullMode.modebuildAdd_chans]
      exact onMode _
    · cases taken
  case h_4 =>
    split at taken
    · cases taken
    · split at taken
      · cases taken
        rw [FullMode.nextArg_chans, FullMode.modebuildAdd_chans]
        exact onMode _
      · cases taken
        rw [FullMode.nextArg_chans, FullMode.modebuildAdd_chans]
        exact onMode _
  case h_5 =>
    split at taken
    · split at taken
      · cases taken
      · dsimp only at taken
        split at taken
        · cases taken
        · split at taken
          · cases taken
          · cases taken
            rw [FullMode.nextArg_chans]
            show StaysTidy st.chans (Chans.modifyChannel _ _
              (FullMode.modebuildAdd call 'l' (some (st.args.headD []))
                st).chans)
            rw [FullMode.modebuildAdd_chans]
            exact keeps _ fun _ => ⟨rfl, rfl, rfl⟩
    · cases taken
      rw [FullMode.modebuildAdd_chans]
      exact onMode _
  case h_6 =>
    split at taken
    · cases taken
    · cases taken
      exact banMode _
  case h_7 =>
    split at taken
    · cases taken
    · cases taken
      rw [FullMode.nextArg_chans, FullMode.modebuildAdd_chans]
      exact modifyChannel fun ch _ tidy =>
        ⟨tidy.bans, tidy.excepts.listMode _ _, tidy.invites⟩
  case h_8 =>
    split at taken
    · cases taken
    · cases taken
      rw [FullMode.nextArg_chans, FullMode.modebuildAdd_chans]
      exact modifyChannel fun ch _ tidy =>
        ⟨tidy.bans, tidy.excepts, tidy.invites.listMode _ _⟩
  case h_9 =>
    split at taken
    · split at taken
      · cases taken
      · cases taken
        have moved : Reseats st.nextArg.chans
            (st.nextArg.prefixMode call p (st.args.headD [])).chans :=
          .prefixMode p _
        exact of_reseats moved
    · split at taken
      · cases taken
        rw [FullMode.modebuildAdd_chans]
        exact onMode _
      · cases taken
        exact refl _

theorem modeLoop (modes : List Char) :
    StaysTidy st.chans (FullMode.loop call modes st).1.chans := by
  induction modes generalizing st with
  | nil => exact refl _
  | cons p modes ih =>
      unfold FullMode.loop
      cases taken : st.letter call p with
      | none => exact refl _
      | some after => exact (letter taken).trans ih

theorem parseFullMode (call : FullModeCall) (parv : List CString) :
    StaysTidy s (RatboxServices.parseFullMode call parv s).1 := by
  cases parv with
  | nil => exact refl s
  | cons modes args =>
      exact @modeLoop call ⟨s, args, true, []⟩ modes

end StaysTidy

end Chans

namespace State

open Channel (Sheds)
open Chans (StaysTidy SetsNew)

variable {env : Env} {now : Int} {s : State} {clientP : ClientId}
  {parv : List CString}

theorem tidy_admits : Admits SetsNew now StaysTidy where
  trans := StaysTidy.trans
  reseats := StaysTidy.of_reseats
  modes := fun call parv _ => StaysTidy.parseFullMode call parv
  act := fun _ _ fits => StaysTidy.exec now fits

theorem found_tidy (target : JoinTarget) :
    StaysTidy s.chans (target.found s).chans := by
  unfold JoinTarget.found joinChannel
  dsimp only
  split
  · exact .createChannel _ _ _
  · split
    · exact .keeps _ fun _ => ⟨rfl, rfl, rfl⟩
    · exact .refl _

theorem settled_tidy (target : JoinTarget) (removeBans : Bool) :
    StaysTidy s.chans (target.settled s removeBans).chans := by
  refine (found_tidy target).trans ?_
  unfold JoinTarget.settled applyOldModes
  split
  · exact .refl _
  · rw [onChans_chans, dropOldModes_eq]
    exact Heap.Evolves.modify Chans.staysTidy_lawful.refl fun ch _ tidy =>
      tidy.sheds ⟨Sheds.cleared removeBans ch.bans,
        Sheds.cleared removeBans ch.excepts,
        Sheds.cleared removeBans ch.invites⟩

theorem lowertsHook_tidy (chptr : ChannelId) (keepOld : Bool) :
    StaysTidy s.chans (s.lowertsHook env chptr keepOld).chans := by
  unfold lowertsHook
  split
  · exact .refl _
  · split
    · exact .refl _
    · exact .keeps _ fun _ => ⟨rfl, rfl, rfl⟩

theorem lowered_tidy (call : SjoinCall) :
    StaysTidy s.chans (call.lowered s env).chans := by
  have merged : StaysTidy s.chans (call.merged s).chans := by
    refine (settled_tidy call.target call.removeBans).trans ?_
    unfold SjoinCall.merged applyNewModes
    split
    · exact .keeps _ fun _ => ⟨rfl, rfl, rfl⟩
    · exact .refl _
  exact merged.trans (lowertsHook_tidy _ _)

theorem cSjoin_tidy (fits : HooksFit SetsNew env now clientP parv s .sjoin) :
    Moved StaysTidy s (s.cSjoin env now clientP parv) :=
  tidy_admits.cSjoin (found_tidy _) fun call read =>
    tidy_admits.sjoinCall (lowered_tidy call) (fits call read)

theorem cJoin_tidy (fits : HooksFit SetsNew env now clientP parv s .join) :
    Moved StaysTidy s (s.cJoin env now clientP parv) :=
  tidy_admits.cJoin (found_tidy _) fun target read =>
    tidy_admits.joinCall
      ((settled_tidy target false).trans (lowertsHook_tidy _ _))
      (fits target read)

theorem cBmask_tidy : Moved StaysTidy s (s.cBmask env parv) := by
  unfold cBmask
  refine Ensures.bind fun chname _ => ?_
  split
  · exact StaysTidy.refl _
  · refine Ensures.bind fun tsinfo _ => ?_
    split
    · exact StaysTidy.refl _
    · refine Ensures.bind fun type _ => ?_
      split
      · refine Ensures.bind fun masks _ => ?_
        exact StaysTidy.modifyChannel fun ch _ tidy =>
          ⟨distinct_addBans tidy.bans, tidy.excepts, tidy.invites⟩
      · refine Ensures.bind fun masks _ => ?_
        exact StaysTidy.modifyChannel fun ch _ tidy =>
          ⟨tidy.bans, distinct_addBans tidy.excepts, tidy.invites⟩
      · refine Ensures.bind fun masks _ => ?_
        exact StaysTidy.modifyChannel fun ch _ tidy =>
          ⟨tidy.bans, tidy.excepts, distinct_addBans tidy.invites⟩
      · exact StaysTidy.refl _

/-- Of two lists of a channel and what a `BMASK` made of them: the new masks of
the message were put before the old entries of the one that its letter names.
The loop over the masks ends in it. -/
structure BmaskAdds (nickLen : Nat) (letter : Char) (masks : CString)
    (before after : Channel) : Prop where
  adds : ∀ list, before.maskList letter = some list →
    ∃ longer, after.maskList letter = some longer ∧
      bmaskList nickLen masks list = some longer ∧ list <:+ longer ∧
      ∀ mask, mask ∈ longer ↔
        mask ∈ list ∨ NewMask nickLen list (banMasks masks) mask
  others : ∀ other, other ≠ letter →
    after.maskList other = before.maskList other

theorem bmaskAdds (nickLen : Nat) (letter : Char) (masks : CString)
    (ch : Channel) :
    BmaskAdds nickLen letter masks ch
      (ch.onMaskList letter (addBans nickLen (banMasks masks))) where
  adds := by
    intro list named
    refine ⟨addBans nickLen (banMasks masks) list, ?_,
      bmaskList_eq nickLen masks list, suffix_addBans, fun _ => mem_addBans⟩
    rw [Channel.maskList_onMaskList, named]
    rfl
  others := fun other differs => Channel.maskList_of_ne differs

theorem cBmask_eq {ts chname type masks : CString} {letter : Char}
    {rest : List CString} {chptr : ChannelId} {ch : Channel}
    (found : s.chans.findChannel chname = some chptr)
    (there : s.chans.channel.cell chptr = some ch)
    (current : atol ts ≤ ch.tsinfo) :
    s.cBmask env (ts :: chname :: (letter :: type) :: masks :: rest) =
      .ok (s.onChans (·.modifyChannel chptr (Channel.onMaskList letter
        (addBans env.nickLen (banMasks masks))))) := by
  have lower : ¬(s.chans.channel.get chptr).tsinfo < atol ts := by
    rw [Heap.get_eq there]
    omega
  have named : param (ts :: chname :: (letter :: type) :: masks :: rest) 1 =
      .ok chname := rfl
  unfold cBmask
  rw [named, Except.ok_bind, found]
  show (if (s.chans.channel.get chptr).tsinfo < atol ts then _ else _) = _
  rw [if_neg lower]
  unfold Channel.onMaskList
  split
  · rename_i named
    cases named
    rfl
  · rename_i named
    cases named
    rfl
  · rename_i named
    cases named
    rfl
  · rename_i bans excepts invites
    have same : s.chans.modifyChannel chptr id = s.chans := by
      unfold Chans.modifyChannel
      rw [Heap.modify_self]
    have typed : param (ts :: chname :: (letter :: type) :: masks :: rest) 2 =
        .ok (letter :: type) := rfl
    rw [typed, Except.ok_bind]
    split
    · rename_i named
      exact absurd (List.cons.inj named).1 bans
    · rename_i named
      exact absurd (List.cons.inj named).1 excepts
    · rename_i named
      exact absurd (List.cons.inj named).1 invites
    · exact congrArg (fun chans => Except.ok { s with chans := chans })
        same.symm

theorem cBmask_adds {ts chname type masks : CString} {letter : Char}
    {rest : List CString} {chptr : ChannelId} {ch : Channel}
    (found : s.chans.findChannel chname = some chptr)
    (there : s.chans.channel.cell chptr = some ch)
    (current : atol ts ≤ ch.tsinfo) :
    ∃ t after,
      s.cBmask env (ts :: chname :: (letter :: type) :: masks :: rest) =
        .ok t ∧
      t.chans.channel.cell chptr = some after ∧
      BmaskAdds env.nickLen letter masks ch after ∧
      ∀ other, other ≠ chptr →
        t.chans.channel.cell other = s.chans.channel.cell other := by
  refine ⟨_, _, cBmask_eq found there current, ?_,
    bmaskAdds env.nickLen letter masks ch, fun other differs => ?_⟩
  · rw [onChans_chans, Chans.modifyChannel, Heap.modify_cell_self, there]
    rfl
  · exact Heap.modify_cell_of_ne _ _ differs

end State

end RatboxServices
