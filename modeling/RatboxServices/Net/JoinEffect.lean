import RatboxServices.Net.HandlerEffect

namespace RatboxServices

/-! The effects of the handlers of `channel.c` and `c_mode.c`. `SJOIN` and
`JOIN` put a channel in the tables before they read the rest of the message;
the hazard of a strand is that they then leave it there empty. -/

theorem Chans.findChannel_isSome {s : Chans} {chname : CString}
    {chptr : ChannelId} (found : s.findChannel chname = some chptr) :
    (s.channel.cell chptr).isSome = true := by
  have named := List.find?_some found
  unfold Chans.isNamed at named
  split at named
  · rename_i ch used
    simp [used]
  · cases named

namespace State

open Chans (Inv)
open CString

def Moves (Before After : Chans → Prop) (s t : State) : Prop :=
  ∃ chans, t = { s with chans := chans } ∧ (Before s.chans → After chans)

namespace Moves

variable {First Second Third : Chans → Prop} {s t u : State}

theorem onChans {change : Chans → Chans}
    (kept : First s.chans → Second (change s.chans)) :
    Moves First Second s (s.onChans change) :=
  ⟨change s.chans, rfl, kept⟩

theorem refl (kept : First s.chans → Second s.chans) :
    Moves First Second s s :=
  ⟨s.chans, rfl, kept⟩

theorem trans (first : Moves First Second s t)
    (second : Moves Second Third t u) : Moves First Third s u := by
  obtain ⟨middle, rfl, before⟩ := first
  obtain ⟨last, rfl, after⟩ := second
  exact ⟨last, rfl, fun start => after (before start)⟩

theorem effects {env : Env} {Allowed : State → Hazard → Prop}
    {Chan : Chans → Chans → Prop} (moved : Chan s.chans t.chans)
    (moves : ∀ Empty, Moves (Inv Empty) (Inv Empty) s t) :
    Effects env Allowed Chan s t := by
  have same : t = { s with chans := t.chans } := by
    obtain ⟨chans, rfl, _⟩ := moves fun _ => True
    rfl
  rw [same]
  refine Effects.one (.chans moved fun Empty inv => ?_)
  obtain ⟨chans, rfl, kept⟩ := moves Empty
  exact kept inv

end Moves

variable {env : Env} {Allowed : State → Hazard → Prop}
  {Chan : Chans → Chans → Prop} {Empty : ChannelId → Prop} {now : Int}
  {clientP : ClientId} {parv : List CString} {s : State}

theorem cKick_effects (closed : Closed Chan) :
    Ensures (Effects env Allowed Chan s) (s.cKick parv) := by
  unfold cKick
  split
  · exact Effects.refl
  · refine Ensures.bind fun chname _ => ?_
    split
    · exact Effects.refl
    · refine Ensures.bind fun nick _ => ?_
      split
      · exact Effects.refl
      · split
        · exact Effects.refl
        · split
          · exact Effects.refl
          · exact Effects.onChans (closed.leave _ _) fun inv =>
              inv.delChmember _

theorem cPart_effects (closed : Closed Chan) :
    Ensures (Effects env Allowed Chan s) (s.cPart clientP parv) := by
  unfold cPart
  split
  · exact Effects.refl
  · split
    · exact Effects.refl
    · refine Ensures.bind fun chname _ => ?_
      split
      · exact Effects.refl
      · split
        · exact Effects.refl
        · exact Effects.onChans (closed.leave _ _) fun inv =>
              inv.delChmember _

theorem topicHook_moves {chptr : ChannelId} :
    Moves (Inv Empty) (Inv Empty) s (s.topicHook env now chptr) :=
  Moves.onChans fun inv => inv.execAll now _

theorem setTopic_moves {change : Channel → Channel} (chptr : ChannelId)
    (plain : Inv.Plain change) :
    Moves (Inv Empty) (Inv Empty) s
      ((s.onChans (·.modifyChannel chptr change)).topicHook env now chptr) :=
  Moves.trans (Moves.onChans fun inv => inv.modifyChannel chptr plain)
    topicHook_moves

theorem dress_effects {change : Channel → Channel} (closed : Closed Chan)
    (chptr : ChannelId) (dressing : Dressing change) :
    Effects env Allowed Chan s (s.onChans (·.modifyChannel chptr change)) :=
  Effects.onChans (closed.dress chptr _ dressing) fun inv =>
    inv.modifyChannel chptr dressing.plain

theorem cTopic_moves :
    Ensures (Moves (Inv Empty) (Inv Empty) s)
      (s.cTopic env now clientP parv) := by
  unfold cTopic
  split
  · exact Moves.refl id
  · refine Ensures.bind fun chname _ => ?_
    split
    · exact Moves.refl id
    · rename_i chptr found
      refine Ensures.bind fun topic _ => ?_
      refine Ensures.bind fun client _ => ?_
      dsimp only
      split
      · exact setTopic_moves chptr fun _ => ⟨rfl, rfl, rfl, rfl, rfl⟩
      · exact setTopic_moves chptr fun _ => ⟨rfl, rfl, rfl, rfl, rfl⟩

theorem cTb_moves :
    Ensures (Moves (Inv Empty) (Inv Empty) s)
      (s.cTb env now clientP parv) := by
  unfold cTb
  split
  · exact Moves.refl id
  · refine Ensures.bind fun chname _ => ?_
    split
    · exact Moves.refl id
    · rename_i chptr found
      refine Ensures.bind fun topicts _ => ?_
      dsimp only
      split
      · exact Moves.refl id
      · refine Ensures.bind fun client _ => ?_
        refine Ensures.bind fun text _ => ?_
        obtain ⟨topic, who⟩ := text
        dsimp only
        split
        · exact Moves.refl id
        · exact setTopic_moves chptr fun _ => ⟨rfl, rfl, rfl, rfl, rfl⟩

theorem callHook_moves (called : Bool) (acts : List ChanAct) :
    Moves (Inv Empty) (Inv Empty) s (s.callHook now called acts) := by
  unfold callHook
  split
  · exact Moves.onChans fun inv => inv.execAll now acts
  · exact Moves.refl id

theorem handleChmode_moves {chptr : ChannelId} :
    Moves (Inv Empty) (Inv Empty) s
      (s.handleChmode env now chptr clientP parv) := by
  unfold handleChmode
  refine Moves.trans ?_
    (Moves.onChans fun inv => FullMode.inv_lists inv [] [] [] [])
  refine Moves.trans ?_ (callHook_moves _ _)
  refine Moves.trans ?_ (callHook_moves _ _)
  refine Moves.trans ?_ (callHook_moves _ _)
  refine Moves.trans ?_ (callHook_moves _ _)
  exact Moves.onChans fun inv => inv.parseFullMode _ _

theorem cMode_effects (moved : Moved Chan s (s.cMode env now clientP parv)) :
    Ensures (Effects env Allowed Chan s) (s.cMode env now clientP parv) := by
  have either : Ensures (fun t => Chan s.chans t.chans →
      Effects env Allowed Chan s t) (s.cMode env now clientP parv) := by
    unfold cMode
    split
    · exact fun _ => Effects.refl
    · refine Ensures.bind fun name _ => ?_
      split
      · exact fun _ => Effects.refl
      · split
        · split
          · exact fun _ => Effects.refl
          · split
            · exact fun _ => Effects.refl
            · refine Ensures.bind fun modes _ => ?_
              exact fun _ => Effects.modifyUser _ _
        · split
          · exact fun _ => Effects.refl
          · split
            · exact fun _ => Effects.refl
            · exact fun moved => Moves.effects moved fun _ =>
                handleChmode_moves
  exact Ensures.intro fun t returned =>
    either.of_ok returned (moved.of_ok returned)

theorem cTmode_moves :
    Ensures (Moves (Inv Empty) (Inv Empty) s)
      (s.cTmode env now clientP parv) := by
  unfold cTmode
  split
  · exact Moves.refl id
  · refine Ensures.bind fun chname _ => ?_
    split
    · exact Moves.refl id
    · refine Ensures.bind fun tsinfo _ => ?_
      split
      · exact Moves.refl id
      · exact handleChmode_moves

theorem cBmask_effects (closed : Closed Chan) :
    Ensures (Effects env Allowed Chan s) (s.cBmask env parv) := by
  unfold cBmask
  refine Ensures.bind fun chname _ => ?_
  split
  · exact Effects.refl
  · rename_i chptr found
    refine Ensures.bind fun tsinfo _ => ?_
    split
    · exact Effects.refl
    · refine Ensures.bind fun letter _ => ?_
      split
      · refine Ensures.bind fun masks _ => ?_
        exact dress_effects closed chptr
          ⟨fun _ => ⟨rfl, rfl, rfl, rfl, rfl⟩, fun _ => rfl, fun _ => rfl⟩
      · refine Ensures.bind fun masks _ => ?_
        exact dress_effects closed chptr
          ⟨fun _ => ⟨rfl, rfl, rfl, rfl, rfl⟩, fun _ => rfl, fun _ => rfl⟩
      · refine Ensures.bind fun masks _ => ?_
        exact dress_effects closed chptr
          ⟨fun _ => ⟨rfl, rfl, rfl, rfl, rfl⟩, fun _ => rfl, fun _ => rfl⟩
      · exact Effects.refl

def Pending (Empty : ChannelId → Prop) (chptr : ChannelId) (s : Chans) :
    Prop :=
  Inv Empty s ∧ (s.channel.cell chptr).isSome = true

theorem joinChannel_pending {s : Chans} (chname : CString) (newts : Int)
    (inv : Inv Empty s) :
    Pending (fun c => Empty c ∨ (s.findChannel chname = none ∧
        c = (joinChannel chname newts s).2.1))
      (joinChannel chname newts s).2.1 (joinChannel chname newts s).1 := by
  unfold joinChannel
  cases found : s.findChannel chname with
  | none =>
      refine ⟨?_, ?_⟩
      · refine (inv.createChannel chname newts {}).weaken fun c => ?_
        rintro (allowed | new)
        · exact Or.inl allowed
        · exact Or.inr ⟨rfl, new⟩
      · simp [Chans.createChannel, Chans.addChannel, Chans.onBucket]
  | some chptr =>
      have there := Chans.findChannel_isSome found
      dsimp only
      split
      · refine ⟨(inv.weaken fun c => Or.inl).modifyChannel chptr
          fun _ => ⟨rfl, rfl, rfl, rfl, rfl⟩, ?_⟩
        simpa [Chans.modifyChannel, Heap.modify_isSome] using there
      · exact ⟨inv.weaken fun c => Or.inl, there⟩

section Pending

variable {s : Chans} {chptr : ChannelId}

theorem Pending.modifyChannel (pending : Pending Empty chptr s)
    {change : Channel → Channel} (plain : Inv.Plain change) :
    Pending Empty chptr (s.modifyChannel chptr change) := by
  refine ⟨pending.1.modifyChannel chptr plain, ?_⟩
  rw [← pending.2]
  exact Heap.modify_isSome _ _ _ _

theorem Pending.dropOldModes (pending : Pending Empty chptr s)
    (newts : Int) (removeBans : Bool) :
    Pending Empty chptr (dropOldModes chptr newts removeBans s) := by
  have lowered : Pending Empty chptr
      (s.modifyChannel chptr fun ch => { ch with tsinfo := newts }) :=
    pending.modifyChannel fun _ => ⟨rfl, rfl, rfl, rfl, rfl⟩
  have cleared : Pending Empty chptr (Chans.removeOurSimpleModes chptr
      (s.modifyChannel chptr fun ch => { ch with tsinfo := newts })) :=
    lowered.modifyChannel fun _ => ⟨rfl, rfl, rfl, rfl, rfl⟩
  have unopped : Pending Empty chptr
      (Chans.removeOurOvModes chptr (Chans.removeOurSimpleModes chptr
        (s.modifyChannel chptr fun ch => { ch with tsinfo := newts }))) := by
    refine ⟨cleared.1.removeOurOvModes chptr, ?_⟩
    rw [Inv.removeOurOvModes_eq, ← cleared.2]
    exact Heap.modify_isSome _ _ _ _
  unfold State.dropOldModes
  dsimp only
  split
  · exact unopped.modifyChannel fun _ => ⟨rfl, rfl, rfl, rfl, rfl⟩
  · exact unopped

theorem memberFlags_clean (keepNew opped voiced : Bool) :
    (memberFlags keepNew opped voiced).has modeOpped = true →
      (memberFlags keepNew opped voiced).has modeDeopped = false := by
  revert keepNew opped voiced
  decide

theorem Pending.addChmember (pending : Pending Empty chptr s)
    {target : ClientId} {flags : Word}
    (absent : s.findChmember chptr target = none)
    (clean : flags.has modeOpped = true → flags.has modeDeopped = false) :
    Pending (fun c => Empty c ∧ c ≠ chptr) chptr
      (s.addChmember chptr target flags).1 := by
  obtain ⟨inv, there⟩ := pending
  refine ⟨inv.addChmember (Option.isSome_iff_exists.mp there)
    (inv.no_chmember absent) clean, ?_⟩
  rw [Inv.addChmember_eq, ← there]
  exact Heap.modify_isSome _ _ _ _

theorem Pending.sjoinNick {findUser : CString → Option ClientId}
    {keepNew : Bool} {joined : List MemberId} {token : CString}
    (pending : Pending Empty chptr s) :
    Pending Empty chptr
      (sjoinNick findUser chptr keepNew (s, joined) token).1 := by
  unfold State.sjoinNick
  obtain ⟨opped, voiced, nick⟩ := nickPrefix token
  dsimp only
  split
  · exact pending
  · split
    · exact pending
    · rename_i absent
      obtain ⟨inv, there⟩ :=
        pending.addChmember absent (memberFlags_clean keepNew opped voiced)
      exact ⟨inv.weaken fun c both => both.1, there⟩

theorem Pending.sjoinNicks {findUser : CString → Option ClientId}
    {keepNew : Bool} (tokens : List CString) {joined : List MemberId}
    (pending : Pending Empty chptr s) :
    Pending Empty chptr
      (tokens.foldl (State.sjoinNick findUser chptr keepNew)
        (s, joined)).1 := by
  induction tokens generalizing s joined with
  | nil => exact pending
  | cons token rest ih => exact ih pending.sjoinNick

theorem isFree_eq : (if isFree s chptr then s.freeChannel chptr else s) =
    s.freeIfEmpty chptr := by
  unfold isFree Chans.freeIfEmpty
  cases there : s.channel.cell chptr with
  | none => simp
  | some ch => rfl

end Pending

section Join

variable {Wide : ChannelId → Prop} {chptr : ChannelId}

theorem sjoinNicks_moves (wider : ∀ c, Wide c → Empty c ∨ c = chptr)
    (keepNew : Bool) (nicks : CString) :
    Moves (Pending Wide chptr) (Inv Empty) s
      (s.sjoinNicks env now chptr keepNew nicks) := by
  have joined : Pending Wide chptr s.chans → Inv Empty
      (Chans.freeIfEmpty chptr ((nickTokens (nicks.length + 1) nicks).foldl
        (sjoinNick (fun nick => s.clients.findUser nick true) chptr keepNew)
        (s.chans, [])).1) := fun pending =>
    ((pending.sjoinNicks _).1.weaken wider).freeIfEmpty
  rw [← isFree_eq] at joined
  unfold sjoinNicks
  revert joined
  generalize (nickTokens (nicks.length + 1) nicks).foldl _ _ = result
  obtain ⟨chans, members⟩ := result
  intro joined
  dsimp only at joined ⊢
  split
  · rename_i free
    rw [if_pos free] at joined
    exact ⟨_, rfl, joined⟩
  · rename_i occupied
    rw [if_neg occupied] at joined
    exact ⟨_, rfl, fun pending => (joined pending).execAll now _⟩

variable (env) in
theorem lowertsHook_moves (keepOld : Bool) :
    Moves (Pending Wide chptr) (Pending Wide chptr) s
      (s.lowertsHook env chptr keepOld) := by
  unfold lowertsHook
  split
  · exact Moves.refl id
  · split
    · exact Moves.refl id
    · exact Moves.onChans fun pending =>
        pending.modifyChannel fun _ => ⟨rfl, rfl, rfl, rfl, rfl⟩

theorem applyOldModes_moves (keepOld removeBans : Bool) (newts : Int) :
    Moves (Pending Wide chptr) (Pending Wide chptr) s
      (s.applyOldModes chptr keepOld newts removeBans) := by
  unfold applyOldModes
  split
  · exact Moves.refl id
  · exact Moves.onChans fun pending => pending.dropOldModes newts removeBans

theorem applyNewModes_moves (keepNew : Bool) (newmode : Chmode) :
    Moves (Pending Wide chptr) (Pending Wide chptr) s
      (s.applyNewModes chptr keepNew newmode) := by
  unfold applyNewModes
  split
  · exact Moves.onChans fun pending =>
      pending.modifyChannel fun _ => ⟨rfl, rfl, rfl, rfl, rfl⟩
  · exact Moves.refl id

theorem sjoinRest_moves (wider : ∀ c, Wide c → Empty c ∨ c = chptr)
    {args : List CString}
    (early : emptyHead args = true → ∀ c, Wide c → Empty c)
    (keepNew : Bool) :
    Moves (Pending Wide chptr) (Inv Empty) s
      (s.sjoinRest env now chptr keepNew args) := by
  unfold sjoinRest
  split
  · rename_i noNicks
    exact Moves.refl fun pending => pending.1.weaken (early noNicks)
  · exact sjoinNicks_moves wider keepNew _

theorem sjoinModes_moves (wider : ∀ c, Wide c → Empty c ∨ c = chptr)
    {args : List CString}
    (early : emptyHead args = true → ∀ c, Wide c → Empty c)
    (keepOld keepNew removeBans : Bool) (newts : Int) (newmode : Chmode) :
    Moves (Pending Wide chptr) (Inv Empty) s
      (s.sjoinModes env now chptr keepOld keepNew removeBans newts newmode
        args) := by
  unfold sjoinModes
  refine Moves.trans (applyOldModes_moves keepOld removeBans newts) ?_
  refine Moves.trans (applyNewModes_moves keepNew newmode) ?_
  refine Moves.trans (lowertsHook_moves env keepOld) ?_
  exact sjoinRest_moves wider early keepNew

theorem cSjoin_moves
    (early : s.sjoinStrands parv = true → ∀ c, Empty c) :
    Ensures (Moves (Inv Empty) (Inv Empty) s) (s.cSjoin env now clientP parv) := by
  unfold cSjoin
  split
  · exact Moves.refl id
  · rename_i enough
    refine Ensures.bind fun chname named => ?_
    split
    · exact Moves.refl id
    · rename_i valid
      refine Ensures.bind fun newts _ => ?_
      have pending : Inv Empty s.chans → _ := fun inv =>
        joinChannel_pending chname newts.atol inv
      dsimp only
      revert pending
      rcases joinChannel chname newts.atol s.chans with
        ⟨chans, chptr, keepOld⟩
      intro pending
      dsimp only at pending ⊢
      refine Ensures.bind fun client _ => ?_
      refine Ensures.bind fun modes given => ?_
      have strands : endsEarly (sjoinParse modes parv) = true →
          ∀ c, (Empty c ∨ s.chans.findChannel chname = none ∧ c = chptr) →
            Empty c := by
        rintro stops c (already | ⟨absent, rfl⟩)
        · exact already
        · refine early ?_ c
          rw [sjoinStrands, param_eq_ok named, param_eq_ok given, stops,
            absent]
          simpa [enough] using valid
      cases parsed : sjoinParse modes parv with
      | none =>
          rw [parsed] at strands
          refine ⟨chans, rfl, fun inv => ?_⟩
          exact (pending inv).1.weaken (strands rfl)
      | some rest =>
          obtain ⟨newmode, args⟩ := rest
          rw [parsed] at strands
          refine Moves.trans ⟨chans, rfl, pending⟩
            (sjoinModes_moves ?_ strands _ _ _ _ _)
          rintro c (already | ⟨_, new⟩)
          · exact Or.inl already
          · exact Or.inr new

theorem joinHook_moves (joined : List MemberId) :
    Moves (Inv Empty) (Inv Empty) s (s.joinHook env now chptr joined) :=
  Moves.onChans fun inv => inv.execAll now _

theorem joinSource_moves (wider : ∀ c, Wide c → Empty c ∨ c = chptr) :
    Moves (Pending Wide chptr) (Inv Empty) s
      (s.joinSource env now chptr clientP) := by
  have settled : ∀ {chans : Chans},
      Inv (fun c => Wide c ∧ c ≠ chptr) chans → Inv Empty chans :=
    fun inv => inv.weaken fun c both => (wider c both.1).resolve_right both.2
  unfold joinSource
  split
  · rename_i mptr already
    refine Moves.trans (Moves.refl fun pending => ?_) (joinHook_moves [])
    exact settled (pending.1.settle fun ch there =>
      pending.1.users_of_findChmember already there)
  · rename_i absent
    refine Moves.trans ⟨_, rfl, fun pending => ?_⟩ (joinHook_moves _)
    exact settled (pending.addChmember absent (by decide)).1

theorem joinMember_moves (wider : ∀ c, Wide c → Empty c ∨ c = chptr)
    (keepOld : Bool) (newts : Int) :
    Moves (Pending Wide chptr) (Inv Empty) s
      (s.joinMember env now chptr clientP keepOld newts) := by
  unfold joinMember
  refine Moves.trans (applyOldModes_moves keepOld false newts) ?_
  refine Moves.trans (lowertsHook_moves env keepOld) ?_
  exact joinSource_moves wider

theorem cJoin_moves
    (early : s.joinStrands clientP parv = true → ∀ c, Empty c) :
    Ensures (Moves (Inv Empty) (Inv Empty) s) (s.cJoin env now clientP parv) := by
  unfold cJoin
  refine Ensures.bind fun empty tested => ?_
  split
  · exact Moves.refl id
  · split
    · exact Moves.refl id
    · rename_i nonempty user
      refine Ensures.bind fun target given => ?_
      split
      · exact Moves.onChans fun inv => inv.foldl_delChmember _
      · split
        · exact Moves.refl id
        · rename_i enough
          refine Ensures.bind fun chname named => ?_
          split
          · exact Moves.refl id
          · rename_i valid
            refine Ensures.bind fun newts stamp => ?_
            have pending : Inv Empty s.chans → _ := fun inv =>
              joinChannel_pending chname newts.atol inv
            dsimp only
            revert pending
            rcases joinChannel chname newts.atol s.chans with
              ⟨chans, chptr, keepOld⟩
            intro pending
            dsimp only at pending ⊢
            split
            · rename_i invalid
              refine ⟨chans, rfl, fun inv => ?_⟩
              refine (pending inv).1.weaken ?_
              rintro c (already | ⟨absent, rfl⟩)
              · exact already
              · refine early ?_ c
                have given := emptyParam_eq_ok tested
                rw [joinStrands, param_eq_ok named, absent, invalid]
                simp_all
            · refine Moves.trans ⟨chans, rfl, pending⟩
                (joinMember_moves ?_ _ _)
              rintro c (already | ⟨_, new⟩)
              · exact Or.inl already
              · exact Or.inr new

theorem effects_of_moves {outcome : Except Stop State} {strands : Bool}
    (moves : ∀ Empty, (strands = true → ∀ c, Empty c) →
      Ensures (Moves (Inv Empty) (Inv Empty) s) outcome)
    (moved : Ensures (fun t => Chan s.chans t.chans) outcome)
    (allowed : strands = true → Allowed s .strand) :
    Ensures (Effects env Allowed Chan s) outcome := by
  refine Ensures.intro fun t returned => ?_
  have moved : Chan s.chans t.chans := moved.of_ok returned
  cases strands with
  | false =>
      exact Moves.effects moved fun Empty =>
        (moves Empty (by simp)).of_ok returned
  | true =>
      obtain ⟨chans, rfl, kept⟩ :=
        (moves (fun _ => True) fun _ _ => trivial).of_ok returned
      exact Effects.one (.strand (allowed rfl) moved kept)

theorem effects_of_all_moves {outcome : Except Stop State}
    (moves : ∀ Empty, Ensures (Moves (Inv Empty) (Inv Empty) s) outcome)
    (moved : Moved Chan s outcome) :
    Ensures (Effects env Allowed Chan s) outcome :=
  effects_of_moves (fun Empty _ => moves Empty) moved
    (fun never => absurd never Bool.false_ne_true)

end Join

end State

end RatboxServices
