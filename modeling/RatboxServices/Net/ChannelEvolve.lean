import RatboxServices.Net.HookMove

namespace RatboxServices

/-! What may become of a channel's TS and simple modes. Members, services,
masks and topics come and go without touching them. -/

namespace Chans

/-- Each channel that is still there changed by `R`, and those that came since
were born as `Born`. -/
def Evolves (R : Channel → Channel → Prop) (Born : Channel → Prop)
    (s t : Chans) : Prop :=
  s.channel.Evolves R Born t.channel

def SameModes (before after : Channel) : Prop :=
  after.tsinfo = before.tsinfo ∧ after.mode = before.mode

theorem sameModes_lawful : Heap.Lawful SameModes fun _ => False where
  refl := fun _ => ⟨rfl, rfl⟩
  trans := fun first second =>
    ⟨second.1.trans first.1, second.2.trans first.2⟩
  born := fun impossible _ => impossible

def Same (s t : Chans) : Prop :=
  s.Evolves SameModes (fun _ => False) t

namespace Same

variable {s t u : Chans}

theorem refl (s : Chans) : Same s s :=
  Heap.Evolves.refl sameModes_lawful.refl s.channel

theorem trans (first : Same s t) (second : Same t u) : Same s u :=
  Heap.Evolves.trans sameModes_lawful first second

theorem of_channel (same : t.channel = s.channel) : Same s t := by
  unfold Same Evolves
  rw [same]
  exact refl s

theorem modifyChannel (target : ChannelId) {change : Channel → Channel}
    (kept : ∀ ch, SameModes ch (change ch)) :
    Same s (s.modifyChannel target change) :=
  Heap.Evolves.modify sameModes_lawful.refl fun ch _ => kept ch

theorem of_reseats (step : Reseats s t) : Same s t :=
  step.mono fun _ _ seats => by
    obtain ⟨_, _, _, _, rfl⟩ := seats
    exact ⟨rfl, rfl⟩

theorem removeOurBans (chptr : ChannelId) (bans exceptions invex : Bool) :
    Same s (s.removeOurBans chptr bans exceptions invex) :=
  modifyChannel chptr fun _ => ⟨rfl, rfl⟩

end Same

/-- The relation allows everything that is done to channels at some time, once
the acts of the services meet `Fits`. -/
structure Laws (R : Channel → Channel → Prop) (Born : Channel → Prop)
    (Fits : Chans → ChanAct → Prop) (now : Int) : Prop
    extends Heap.Lawful R Born where
  same : ∀ {ch after}, SameModes ch after → R ch after
  letter : ∀ {ch : Channel} {mode}, ch.mode.Letter mode →
    R ch { ch with mode := mode }
  cleared : ∀ ch : Channel, R ch { ch with mode := {} }
  takenOver : ∀ {ch : Channel} {bits}, 2 ≤ ch.tsinfo → ch.mode = {} →
    Word.has bits modeLimit = false → Word.has bits modeKey = false →
    R ch { ch with
      mode := { ch.mode with mode := bits }
      tsinfo := ch.tsinfo - 1 }
  reborn : ∀ name {tsinfo}, 1 ≤ tsinfo →
    Born { name := name, tsinfo := tsinfo, mode := serviceMode {} none }
  enforce : ∀ {s chptr emode ch}, Fits s (.enforce chptr emode) →
    s.channel.cell chptr = some ch →
    R ch { ch with mode := .enforce emode ch.mode }
  lowerts : ∀ {s chptr emode ch}, Fits s (.enforce chptr emode) →
    s.channel.cell chptr = some ch → ∀ bursting,
    R ch { ch with mode := .enforceLowerts bursting emode ch.mode }
  create : ∀ {s serviceP chname tsinfo mode override},
    Fits s (.join serviceP chname tsinfo mode override) →
    s.findChannel chname = none → ∀ name,
    Born
      { name := name
        tsinfo := if tsinfo = 0 then now else tsinfo
        mode := serviceMode {} mode }
  override : ∀ {s serviceP chname tsinfo mode chptr ch},
    Fits s (.join serviceP chname tsinfo mode true) →
    s.findChannel chname = some chptr → s.channel.cell chptr = some ch →
    tsinfo < ch.tsinfo →
    R ch { ch with tsinfo := tsinfo, mode := serviceMode ch.mode mode }

namespace Evolves

variable {R : Channel → Channel → Prop} {Born : Channel → Prop}
  {Fits : Chans → ChanAct → Prop} {now : Int} {s t u : Chans}

theorem of_same (laws : Laws R Born Fits now) (same : Same s t) :
    Evolves R Born s t :=
  same.mono (fun _ _ kept => laws.same kept) fun _ impossible =>
    impossible.elim

theorem of_reseats (laws : Laws R Born Fits now) (step : Reseats s t) :
    Evolves R Born s t :=
  of_same laws (.of_reseats step)

theorem refl (laws : Laws R Born Fits now) (s : Chans) : Evolves R Born s s :=
  of_same laws (Same.refl s)

theorem trans (laws : Laws R Born Fits now) (first : Evolves R Born s t)
    (second : Evolves R Born t u) : Evolves R Born s u :=
  Heap.Evolves.trans laws.toLawful first second

theorem modifyChannel (laws : Laws R Born Fits now) {target : ChannelId}
    {change : Channel → Channel}
    (changes : ∀ ch, s.channel.cell target = some ch → R ch (change ch)) :
    Evolves R Born s (s.modifyChannel target change) :=
  Heap.Evolves.modify laws.refl changes

theorem createChannel (laws : Laws R Born Fits now) {name : CString}
    {tsinfo : Int} {mode : Chmode}
    (born : ∀ name, Born { name := name, tsinfo := tsinfo, mode := mode }) :
    Evolves R Born s (s.createChannel name tsinfo mode).1 :=
  Heap.Evolves.alloc laws.refl (born _)

theorem removeOurSimpleModes (laws : Laws R Born Fits now)
    (chptr : ChannelId) : Evolves R Born s (s.removeOurSimpleModes chptr) :=
  modifyChannel laws fun ch _ => laws.cleared ch

theorem joinService (laws : Laws R Born Fits now) {serviceP : ClientId}
    {chname : CString} {tsinfo : Int} {mode : Option Chmode}
    {override : Bool}
    (born : s.findChannel chname = none → ∀ name,
      Born
        { name := name
          tsinfo := if tsinfo = 0 then now else tsinfo
          mode := serviceMode {} mode })
    (overrides : override = true → ∀ chptr ch,
      s.findChannel chname = some chptr → s.channel.cell chptr = some ch →
      tsinfo < ch.tsinfo →
      R ch { ch with tsinfo := tsinfo, mode := serviceMode ch.mode mode }) :
    Evolves R Born s
      (s.joinService serviceP chname tsinfo mode override now) := by
  unfold Chans.joinService
  split
  · rename_i absent
    exact (createChannel laws (born absent)).trans laws
      (of_reseats laws (.linkService _ _))
  · rename_i chptr found
    split
    · exact refl laws s
    · rename_i ch used
      split
      · exact refl laws s
      · refine Evolves.trans laws ?_ (of_reseats laws (.linkService _ _))
        split
        · rename_i lower
          rw [Bool.and_eq_true, decide_eq_true_eq] at lower
          refine modifyChannel laws fun other there => ?_
          rw [used, Option.some.injEq] at there
          subst there
          exact overrides lower.1 chptr ch found used lower.2
        · exact refl laws s

theorem cell_of_stripped {chptr : ChannelId} {serviceP : ClientId}
    {chname : CString} {exceptions invex : Bool} {ch after : Channel}
    (used : s.channel.cell chptr = some ch)
    (left : ((((s.partService serviceP chname).1.removeOurSimpleModes
      chptr).removeOurOvModes chptr).removeOurBans chptr true exceptions
        invex).channel.cell chptr = some after) :
    after.tsinfo = ch.tsinfo ∧ after.mode = {} := by
  have tail : Same ((s.partService serviceP chname).1.removeOurSimpleModes
      chptr) _ := (Same.of_reseats (.removeOurOvModes chptr)).trans
    (Same.removeOurBans chptr true exceptions invex)
  have known : chptr < s.channel.next := Heap.lt_next used
  have parted : Same s (s.partService serviceP chname).1 :=
    .of_reseats (.partService serviceP chname)
  obtain ⟨bare, there, sameTs, sameMode⟩ := tail.kept chptr after
    (Nat.lt_of_lt_of_le known parted.next_le) left
  obtain ⟨middle, here, cleared⟩ := Heap.cell_of_modify there
  rw [if_pos rfl] at cleared
  obtain ⟨first, start, sameStart, _⟩ := parted.kept chptr middle known here
  rw [used, Option.some.injEq] at start
  subst start
  subst cleared
  exact ⟨sameTs.trans sameStart, sameMode⟩

theorem takeover (laws : Laws R Born Fits now) (serviceP : ClientId)
    (chptr : ChannelId) (invite exceptions invex : Bool) :
    Evolves R Born s
      (s.takeover serviceP chptr invite exceptions invex now) := by
  unfold Chans.takeover
  split
  · exact refl laws s
  · rename_i ch used
    split
    · exact refl laws s
    · rename_i allowed
      have enough : 2 ≤ ch.tsinfo := by
        simp only [Bool.or_eq_true, decide_eq_true_eq, not_or] at allowed
        omega
      have stripped : Evolves R Born s
          ((((s.partService serviceP ch.name).1.removeOurSimpleModes
            chptr).removeOurOvModes chptr).removeOurBans chptr true
              exceptions invex) := by
        refine (of_reseats laws (.partService serviceP ch.name)).trans laws ?_
        refine Evolves.trans laws (removeOurSimpleModes laws chptr) ?_
        exact (of_reseats laws (.removeOurOvModes chptr)).trans laws
          (of_same laws (Same.removeOurBans chptr true exceptions invex))
      have bits : ∀ list : List Nat,
          list = [modeTopic, modeNoexternal, modeInviteonly] ∨
            list = [modeTopic, modeNoexternal] →
          (Word.ofBits list).has modeLimit = false ∧
            (Word.ofBits list).has modeKey = false := by
        rintro list (rfl | rfl)
        · decide
        · decide
      have chosen := bits
        (if invite then [modeTopic, modeNoexternal, modeInviteonly]
          else [modeTopic, modeNoexternal]) (by cases invite <;> simp)
      have lowered := stripped.trans laws
        (modifyChannel laws fun after left => by
          obtain ⟨sameTs, noMode⟩ := cell_of_stripped used left
          exact laws.takenOver (by omega) noMode chosen.1 chosen.2)
      dsimp only
      split
      · exact lowered
      · rename_i after left
        refine lowered.trans laws (joinService laws (fun _ name => ?_)
          fun impossible => absurd impossible Bool.false_ne_true)
        obtain ⟨before, there, rfl⟩ := Heap.cell_of_modify left
        obtain ⟨sameTs, _⟩ := cell_of_stripped used there
        rw [if_pos rfl]
        dsimp only
        rw [if_neg (by omega)]
        exact laws.reborn name (by omega)

theorem exec (laws : Laws R Born Fits now) (act : ChanAct)
    (fits : Fits s act) : Evolves R Born s (act.exec now s) := by
  cases act with
  | op mptr => exact of_reseats laws (.restatus (.op mptr))
  | deop mptr => exact of_reseats laws (.restatus (.deop mptr))
  | voice mptr => exact of_same laws (Same.of_channel rfl)
  | devoice mptr => exact of_same laws (Same.of_channel rfl)
  | kick mptr => exact of_reseats laws (.delChmember mptr)
  | enforce chptr emode =>
      exact modifyChannel laws fun ch used => laws.enforce fits used
  | setTopic chptr topic topicwho tsinfo =>
      exact of_same laws (Same.modifyChannel chptr fun _ => ⟨rfl, rfl⟩)
  | addBan chptr mask =>
      exact of_same laws (Same.modifyChannel chptr fun _ => ⟨rfl, rfl⟩)
  | delBan chptr mask =>
      exact of_same laws (Same.modifyChannel chptr fun _ => ⟨rfl, rfl⟩)
  | removeModes chptr => exact removeOurSimpleModes laws chptr
  | removeOv chptr => exact of_reseats laws (.removeOurOvModes chptr)
  | removeBans chptr bans exceptions invex =>
      exact of_same laws (Same.removeOurBans chptr bans exceptions invex)
  | join serviceP chname tsinfo mode override =>
      refine joinService laws (fun absent => laws.create fits absent) ?_
      rintro rfl chptr ch found used lower
      exact laws.override fits found used lower
  | part serviceP chname => exact of_reseats laws (.partService serviceP chname)
  | takeover serviceP chptr invite exceptions invex =>
      exact takeover laws serviceP chptr invite exceptions invex

theorem banMode_same (call : FullModeCall) (mask : CString) (st : FullMode) :
    Same st.chans (st.banMode call mask).chans := by
  unfold FullMode.banMode
  rw [FullMode.modebuildAdd_chans]
  split
  · split
    · exact Same.refl _
    · exact Same.modifyChannel call.chptr fun _ => ⟨rfl, rfl⟩
  · split
    · exact Same.refl _
    · exact Same.modifyChannel call.chptr fun _ => ⟨rfl, rfl⟩

theorem letterEffect (laws : Laws R Born Fits now) {call : FullModeCall}
    {st : FullMode} (effect : FullMode.LetterEffect call st t) :
    Evolves R Born st.chans t := by
  cases effect with
  | none => exact refl laws _
  | mode letter => exact modifyChannel laws fun ch _ => laws.letter (letter _)
  | lists lists =>
      refine of_same laws (Same.modifyChannel call.chptr fun ch => ?_)
      obtain ⟨excepts, invites, same⟩ := lists ch
      rw [same]
      exact ⟨rfl, rfl⟩
  | ban mask => exact of_same laws (banMode_same call mask st)
  | status letter nick =>
      have moved : Reseats st.nextArg.chans
          (st.nextArg.prefixMode call letter nick).chans :=
        .prefixMode letter nick
      exact of_reseats laws moved

theorem parseFullMode (laws : Laws R Born Fits now) (call : FullModeCall)
    (parv : List CString) :
    Evolves R Born s (RatboxServices.parseFullMode call parv s).1 := by
  cases parv with
  | nil => exact refl laws s
  | cons modes args =>
      exact @FullMode.loop_related call ⟨s, args, true, []⟩ _ (refl laws)
        (fun first second => first.trans laws second)
        (fun _ _ effect => letterEffect laws effect) modes

end Evolves

end Chans

namespace State

open Chans (Laws Evolves Reseats Same)

variable {R : Channel → Channel → Prop} {Born : Channel → Prop}
  {Fits : Chans → ChanAct → Prop} {env : Env} {now : Int} {s : State}

theorem admits (laws : Laws R Born Fits now) :
    Admits Fits now (Evolves R Born) where
  trans := fun first second => first.trans laws second
  reseats := Evolves.of_reseats laws
  modes := fun call parv _ => Evolves.parseFullMode laws call parv
  act := fun _ act fits => Evolves.exec laws act fits

theorem setTopic_evolves (laws : Laws R Born Fits now) {chptr : ChannelId}
    {change : Channel → Channel} (dressing : Dressing change)
    (fits : TopicFits Fits env now chptr s) :
    Evolves R Born s.chans
      ((s.onChans (·.modifyChannel chptr change)).topicHook env now
        chptr).chans := by
  have written : Evolves R Born s.chans
      (s.onChans (·.modifyChannel chptr change)).chans :=
    Evolves.of_same laws (Same.modifyChannel chptr fun ch =>
      ⟨dressing.tsinfo ch, dressing.mode ch⟩)
  exact written.trans laws ((admits laws).execAll (fits _ _ dressing rfl))

theorem cTopic_evolves (laws : Laws R Born Fits now) {clientP : ClientId}
    {parv : List CString}
    (fits : HooksFit Fits env now clientP parv s .topic) :
    Moved (Evolves R Born) s (s.cTopic env now clientP parv) := by
  unfold cTopic
  split
  · exact Evolves.refl laws _
  · refine Ensures.bind fun chname named => ?_
    split
    · exact Evolves.refl laws _
    · rename_i chptr found
      refine Ensures.bind fun topic _ => ?_
      refine Ensures.bind fun client _ => ?_
      have fits : TopicFits Fits env now chptr s :=
        fits chptr (by rw [param_eq_ok named]; exact found)
      dsimp only
      split
      · exact setTopic_evolves laws
          ⟨fun _ => ⟨rfl, rfl, rfl, rfl, rfl⟩, fun _ => rfl, fun _ => rfl⟩ fits
      · exact setTopic_evolves laws
          ⟨fun _ => ⟨rfl, rfl, rfl, rfl, rfl⟩, fun _ => rfl, fun _ => rfl⟩ fits

theorem cTb_evolves (laws : Laws R Born Fits now) {clientP : ClientId}
    {parv : List CString}
    (fits : HooksFit Fits env now clientP parv s .tb) :
    Moved (Evolves R Born) s (s.cTb env now clientP parv) := by
  unfold cTb
  split
  · exact Evolves.refl laws _
  · refine Ensures.bind fun chname named => ?_
    split
    · exact Evolves.refl laws _
    · rename_i chptr found
      refine Ensures.bind fun topicts _ => ?_
      dsimp only
      split
      · exact Evolves.refl laws _
      · refine Ensures.bind fun client _ => ?_
        refine Ensures.bind fun text _ => ?_
        obtain ⟨topic, who⟩ := text
        dsimp only
        split
        · exact Evolves.refl laws _
        · refine setTopic_evolves laws
            ⟨fun _ => ⟨rfl, rfl, rfl, rfl, rfl⟩, fun _ => rfl, fun _ => rfl⟩
            (fits chptr ?_)
          rw [param_eq_ok named]
          exact found

structure TargetFits (R : Channel → Channel → Prop) (Born : Channel → Prop)
    (target : JoinTarget) : Prop where
  born : ∀ name, Born { name := name, tsinfo := target.newts }
  zero : ∀ ch : Channel, target.newts = 0 ∨ ch.tsinfo = 0 →
    R ch { ch with tsinfo := 0 }
  lower : ∀ ch : Channel, target.newts < ch.tsinfo →
    R ch { ch with tsinfo := target.newts }

def MergeFits (R : Channel → Channel → Prop) (call : SjoinCall)
    (s : State) : Prop :=
  call.target.keepNew s = true → ∀ ch,
    (call.target.settled s call.removeBans).chans.channel.cell
      (call.target.chptr s) = some ch →
    R ch { ch with mode := mergeMode call.newmode ch.mode }

section Join

variable {target : JoinTarget}

theorem found_evolves (laws : Laws R Born Fits now)
    (fits : TargetFits R Born target) :
    Evolves R Born s.chans (target.found s).chans := by
  show Evolves R Born s.chans
    (joinChannel target.chname target.newts s.chans).1
  unfold joinChannel
  split
  · exact Evolves.createChannel laws fits.born
  · rename_i chptr found
    dsimp only
    split
    · rename_i zero
      refine Evolves.modifyChannel laws fun ch used => fits.zero ch ?_
      rw [Heap.get_eq used] at zero
      simpa using zero
    · exact Evolves.refl laws _

theorem tsinfo_of_not_keepOld {ch : Channel}
    (dropped : target.keepOld s = false)
    (used : (target.found s).chans.channel.cell (target.chptr s) = some ch) :
    target.newts = ch.tsinfo ∨ target.newts < ch.tsinfo := by
  unfold JoinTarget.keepOld at dropped
  unfold JoinTarget.found JoinTarget.chptr at used
  unfold joinChannel at dropped used
  cases found : s.chans.findChannel target.chname with
  | none =>
      rw [found] at used
      simp only [Chans.createChannel, Chans.addChannel, Chans.onBucket,
        Heap.alloc_cell_next, Option.some.injEq] at used
      subst used
      exact Or.inl rfl
  | some chptr =>
      rw [found] at used dropped
      dsimp only at used dropped
      split at dropped
      · cases dropped
      · rename_i nonzero
        rw [if_neg nonzero] at used
        rw [Heap.get_eq used] at dropped
        right
        simpa using dropped

theorem settled_evolves (laws : Laws R Born Fits now)
    (fits : TargetFits R Born target) (removeBans : Bool) :
    Evolves R Born (target.found s).chans
      (target.settled s removeBans).chans := by
  unfold JoinTarget.settled applyOldModes
  split
  · exact Evolves.refl laws _
  · rename_i dropped
    have lowered : Evolves R Born (target.found s).chans
        ((target.found s).chans.modifyChannel (target.chptr s) fun ch =>
          { ch with tsinfo := target.newts }) := by
      refine Evolves.modifyChannel laws fun ch used => ?_
      obtain same | lower :=
        tsinfo_of_not_keepOld (by simpa using dropped) used
      · exact laws.same ⟨same, rfl⟩
      · exact fits.lower ch lower
    refine lowered.trans laws ?_
    refine (Evolves.removeOurSimpleModes laws (target.chptr s)).trans laws ?_
    refine Evolves.of_same laws ?_
    refine (Same.of_reseats (.removeOurOvModes (target.chptr s))).trans ?_
    cases removeBans with
    | false => exact Same.refl _
    | true => exact Same.removeOurBans _ true true true

theorem lowertsHook_evolves (laws : Laws R Born Fits now)
    {chptr : ChannelId} {keepOld : Bool}
    (fits : LowertsFits Fits env chptr keepOld s) :
    Evolves R Born s.chans (s.lowertsHook env chptr keepOld).chans := by
  unfold lowertsHook
  split
  · exact Evolves.refl laws _
  · rename_i dropped
    split
    · exact Evolves.refl laws _
    · rename_i emode asked
      exact Evolves.modifyChannel laws fun ch used =>
        laws.lowerts (fits (by simpa using dropped) emode asked) used _

theorem sjoinLowered_evolves (laws : Laws R Born Fits now) {call : SjoinCall}
    (target : TargetFits R Born call.target) (merge : MergeFits R call s)
    (fits : LowertsFits Fits env (call.target.chptr s) (call.target.keepOld s)
      (call.merged s)) :
    Evolves R Born (call.target.found s).chans
      (call.lowered s env).chans := by
  have merged : Evolves R Born (call.target.found s).chans
      (call.merged s).chans := by
    refine (settled_evolves laws target call.removeBans).trans laws ?_
    unfold SjoinCall.merged applyNewModes
    split
    · rename_i keep
      exact Evolves.modifyChannel laws fun ch used => merge keep ch used
    · exact Evolves.refl laws _
  exact merged.trans laws (lowertsHook_evolves laws fits)

theorem sjoin_evolves (laws : Laws R Born Fits now) {call : SjoinCall}
    (target : TargetFits R Born call.target) (merge : MergeFits R call s)
    (fits : call.HooksFit s Fits env now) :
    Evolves R Born (call.target.found s).chans
      (call.apply s env now).chans :=
  (admits laws).sjoinCall
    (sjoinLowered_evolves laws target merge fits.lowerts) fits

theorem joinLowered_evolves (laws : Laws R Born Fits now)
    (start : TargetFits R Born target)
    (fits : LowertsFits Fits env (target.chptr s) (target.keepOld s)
      (target.settled s false)) :
    Evolves R Born (target.found s).chans (target.lowered s env).chans :=
  (settled_evolves laws start false).trans laws (lowertsHook_evolves laws fits)

theorem join_evolves (laws : Laws R Born Fits now) {clientP : ClientId}
    (start : TargetFits R Born target)
    (fits : target.HooksFit s Fits env now clientP) :
    Evolves R Born (target.found s).chans
      (target.apply s env now clientP).chans :=
  (admits laws).joinCall (joinLowered_evolves laws start fits.lowerts) fits

end Join

/-- What an `SJOIN` or `JOIN` asks of the relation by its parameters. -/
def JoinSuits (R : Channel → Channel → Prop) (Born : Channel → Prop)
    (clientP : ClientId) (parv : List CString) (s : State) : Command → Prop
  | .sjoin =>
      TargetFits R Born (joinTarget parv) ∧
        ∀ call, s.sjoinCall clientP parv = some call → MergeFits R call s
  | .join => TargetFits R Born (joinTarget parv)
  | _ => True

def ServiceSuits (Fits : Chans → ChanAct → Prop) (s : State) :
    ServiceAct → Prop
  | .chan act => Fits s.chans act
  | _ => True

structure ServicesSuit (Fits : Chans → ChanAct → Prop) (env : Env)
    (now : Int) (clientP : ClientId) (parv : List CString) (s : State)
    (command : Command) : Prop where
  hooks : HooksFit Fits env now clientP parv s command
  command : CommandMeets (ServiceSuits Fits) env now clientP parv s command

structure LineSuits (R : Channel → Channel → Prop) (Born : Channel → Prop)
    (Fits : Chans → ChanAct → Prop) (env : Env) (now : Int) (s : State)
    (line : Incoming) : Prop where
  joins : ∀ command clientP parv,
    lineCall env s line.text = some (command, clientP, parv) →
      JoinSuits R Born clientP parv s command
  services : ∀ command clientP parv,
    lineCall env s line.text = some (command, clientP, parv) →
      ServicesSuit Fits env now clientP parv s command

def EventActSuits (Fits : Chans → ChanAct → Prop) (s : State) :
    Event → Prop
  | .service _ act => ServiceSuits Fits s act
  | _ => True

theorem serviceFits_of_suits (laws : Laws R Born Fits now)
    {act : ServiceAct} (suits : ServiceSuits Fits s act) :
    ServiceFits (Evolves R Born) now s act := by
  cases act with
  | chan act => exact Evolves.exec laws act suits
  | issueMode serviceP chptr allowSslonly parv =>
      exact Evolves.parseFullMode laws _ parv
  | exit name => exact trivial

theorem callFits_of_suits (laws : Laws R Born Fits now)
    {clientP : ClientId} {parv : List CString} {command : Command}
    (joins : JoinSuits R Born clientP parv s command)
    (services : ServicesSuit Fits env now clientP parv s command) :
    CallFits env (Evolves R Born) now clientP parv s command := by
  have hooks := services.hooks
  have commands : CommandFits env (Evolves R Born) now clientP parv s
      command := services.command.mono fun _ _ suits =>
    serviceFits_of_suits laws suits
  cases command with
  | sjoin =>
      obtain ⟨start, merge⟩ := joins
      refine (admits laws).cSjoin (found_evolves laws start)
        fun call read => ?_
      have start : TargetFits R Born call.target :=
        sjoinCall_target read ▸ start
      exact (found_evolves laws start).trans laws
        (sjoin_evolves laws start (merge call read) (hooks call read))
  | join =>
      refine (admits laws).cJoin (found_evolves laws joins)
        fun target read => ?_
      have start : TargetFits R Born target := joinCall_target read ▸ joins
      exact (found_evolves laws start).trans laws
        (join_evolves laws start (hooks target read))
  | mode => exact (admits laws).cMode hooks
  | tmode => exact (admits laws).cTmode hooks
  | topic => exact cTopic_evolves laws hooks
  | tb => exact cTb_evolves laws hooks
  | privmsg => exact commands
  | encap => exact commands
  | _ => exact trivial

structure EventSuits (R : Channel → Channel → Prop) (Born : Channel → Prop)
    (Fits : Chans → ChanAct → Prop) (env : Env) (s : State)
    (event : Event) : Prop where
  laws : Laws R Born Fits event.now
  act : EventActSuits Fits s event
  lines : MeetsLines env (LineSuits R Born Fits env event.now) s event

theorem lineFits_of_suits (laws : Laws R Born Fits now) {line : Incoming}
    (suits : LineSuits R Born Fits env now s line) :
    LineFits env now (Evolves R Born) s line :=
  fun command clientP parv called =>
    callFits_of_suits laws (suits.joins command clientP parv called)
      (suits.services command clientP parv called)

theorem eventFits_of_suits {event : Event}
    (suits : EventSuits R Born Fits env s event) :
    EventFits env (Evolves R Born) s event where
  act := by
    have laws := suits.laws
    have act := suits.act
    cases event with
    | service now act_ => exact serviceFits_of_suits laws act
    | _ => exact trivial
  lines := suits.lines.mono fun _ _ => lineFits_of_suits suits.laws

theorem closed_of_laws (laws : Laws R Born Fits now) :
    Closed (Evolves R Born) where
  refl := Evolves.refl laws
  trans := fun first second => first.trans laws second
  leave := fun mptr _ => Evolves.of_reseats laws (.delChmember mptr)
  dress := fun chptr _ _ dressing =>
    Evolves.of_same laws (Same.modifyChannel chptr fun ch =>
      ⟨dressing.tsinfo ch, dressing.mode ch⟩)

theorem run_evolves {events : List Event} {t : State}
    (laws : Laws R Born Fits now)
    (suits : Meets (step env) (EventSuits R Born Fits env) s events)
    (reached : run (step env) s events = .ok t) :
    Evolves R Born s.chans t.chans :=
  run_moved (closed_of_laws laws)
    (suits.mono fun _ _ suits => eventFits_of_suits suits) reached

theorem quiet_servicesSuit {clientP : ClientId} {parv : List CString}
    {command : Command} : ServicesSuit Fits .quiet now clientP parv s
      command where
  hooks := by
    cases command with
    | mode =>
        exact fun _ _ => ⟨fun _ _ _ => trivial, fun _ _ _ => trivial,
          fun _ _ _ => trivial, fun _ _ _ _ => trivial⟩
    | tmode =>
        exact fun _ _ => ⟨fun _ _ _ => trivial, fun _ _ _ => trivial,
          fun _ _ _ => trivial, fun _ _ _ _ => trivial⟩
    | topic => exact fun _ _ _ _ _ _ => trivial
    | tb => exact fun _ _ _ _ _ _ => trivial
    | sjoin => exact fun _ _ => ⟨(fun _ _ asked => nomatch asked), trivial⟩
    | join => exact fun _ _ => ⟨(fun _ _ asked => nomatch asked), trivial⟩
    | _ => exact trivial
  command := fun _ _ _ _ _ _ _ _ => trivial

end State

end RatboxServices
