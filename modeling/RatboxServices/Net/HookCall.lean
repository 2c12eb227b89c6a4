import RatboxServices.Net.JoinEffect

namespace RatboxServices

/-! The hook calls of the channel handlers: the state in which each callback is
called, and what a condition on the acts of the services asks of a line. -/

def MeetsActs (Fits : Chans → ChanAct → Prop) (now : Int) :
    Chans → List ChanAct → Prop
  | _, [] => True
  | s, act :: rest => Fits s act ∧ MeetsActs Fits now (act.exec now s) rest

section MeetsActs

variable {Fits : Chans → ChanAct → Prop} {now : Int}

theorem meetsActs_of_forall {acts : List ChanAct} {s : Chans}
    (always : ∀ act ∈ acts, ∀ s, Fits s act) : MeetsActs Fits now s acts := by
  induction acts generalizing s with
  | nil => exact trivial
  | cons act rest ih =>
      refine ⟨always act (by simp) s, ih fun act later => ?_⟩
      exact always act (List.mem_cons_of_mem _ later)

theorem execAll_related {Chan : Chans → Chans → Prop}
    (refl : ∀ s, Chan s s)
    (trans : ∀ {r s t}, Chan r s → Chan s t → Chan r t)
    (each : ∀ s act, Fits s act → Chan s (act.exec now s))
    {acts : List ChanAct} {s : Chans} (meets : MeetsActs Fits now s acts) :
    Chan s (ChanAct.execAll now acts s) := by
  induction acts generalizing s with
  | nil => exact refl s
  | cons act rest ih => exact trans (each s act meets.1) (ih meets.2)

end MeetsActs

namespace Chans

variable {s : Chans}

theorem findChannel_congr {t : Chans} (table : t.channelTable = s.channelTable)
    (named : ∀ name, t.isNamed name = s.isNamed name) (name : CString) :
    t.findChannel name = s.findChannel name := by
  unfold findChannel
  rw [table, named]

theorem isNamed_modify {t : Chans} {target : ChannelId}
    {change : Channel → Channel}
    (channel : t.channel = s.channel.modify target change)
    (kept : ∀ ch, (change ch).name = ch.name) (name : CString) :
    t.isNamed name = s.isNamed name := by
  funext other
  unfold isNamed
  rw [channel, Heap.modify_cell]
  by_cases same : other = target
  · subst same
    rw [if_pos rfl]
    cases s.channel.cell other with
    | none => rfl
    | some ch => simp [kept ch]
  · rw [if_neg same]

end Chans

namespace State

open Chans (Inv)

/-- `parse_full_mode` as `handle_chmode` calls it. -/
def receivedCall (s : State) (chptr : ChannelId) : FullModeCall where
  chptr := chptr
  sourceP := none
  allowSslonly := true
  findService := s.clients.findService
  findUser := fun nick => s.clients.findUser nick true

/-- The state after the mode string, in which `HOOK_CHANNEL_MODE_OP` is
called. -/
def parsed (chptr : ChannelId) (parv : List CString) (s : State) : State :=
  s.onChans fun chans => (parseFullMode (s.receivedCall chptr) parv chans).1

def tellOpped (env : Env) (now : Int) (chptr : ChannelId) (s : State) :
    State :=
  s.callHook now (!s.chans.oppedList.isEmpty)
    (env.hooks.modeOp s chptr s.chans.oppedList)

def tellVoiced (env : Env) (now : Int) (chptr : ChannelId) (s : State) :
    State :=
  s.callHook now (!s.chans.voicedList.isEmpty)
    (env.hooks.modeVoice s chptr s.chans.voicedList)

def modeDiffers (oldmode mode : Chmode) : Bool :=
  oldmode.mode ≠ mode.mode || oldmode.limit ≠ mode.limit ||
    !CString.strcasecmp oldmode.key mode.key

def tellSimple (env : Env) (now : Int) (chptr : ChannelId)
    (oldmode : Chmode) (s : State) : State :=
  s.callHook now (modeDiffers oldmode (s.chans.channel.get chptr).mode)
    (env.hooks.modeSimple s chptr)

def tellBanned (env : Env) (now : Int) (chptr : ChannelId)
    (sourceP : ClientId) (s : State) : State :=
  s.callHook now (s.clients.isUser sourceP && !s.chans.banList.isEmpty)
    (env.hooks.modeBan s chptr s.chans.banList)

def clearLists (s : State) : State :=
  s.onChans fun chans =>
    { chans with
      oppedList := []
      voicedList := []
      banList := []
      deoppedList := [] }

/-- The states in which `HOOK_CHANNEL_MODE_VOICE`, `HOOK_CHANNEL_MODE_SIMPLE`
and `HOOK_CHANNEL_MODE_BAN` are called. -/
def beforeVoice (env : Env) (now : Int) (chptr : ChannelId)
    (parv : List CString) (s : State) : State :=
  (s.parsed chptr parv).tellOpped env now chptr

def beforeSimple (env : Env) (now : Int) (chptr : ChannelId)
    (parv : List CString) (s : State) : State :=
  (s.beforeVoice env now chptr parv).tellVoiced env now chptr

def beforeBan (env : Env) (now : Int) (chptr : ChannelId)
    (parv : List CString) (s : State) : State :=
  (s.beforeSimple env now chptr parv).tellSimple env now chptr
    (s.chans.channel.get chptr).mode

theorem handleChmode_eq (env : Env) (now : Int) (chptr sourceP : ClientId)
    (parv : List CString) (s : State) :
    s.handleChmode env now chptr sourceP parv =
      ((s.beforeBan env now chptr parv).tellBanned env now chptr
        sourceP).clearLists := rfl

structure ChmodeFits (Fits : Chans → ChanAct → Prop) (env : Env) (now : Int)
    (chptr sourceP : ClientId) (parv : List CString) (s : State) : Prop where
  op : ∀ t, t = s.parsed chptr parv → t.chans.oppedList ≠ [] →
    MeetsActs Fits now t.chans (env.hooks.modeOp t chptr t.chans.oppedList)
  voice : ∀ t, t = s.beforeVoice env now chptr parv →
    t.chans.voicedList ≠ [] →
    MeetsActs Fits now t.chans
      (env.hooks.modeVoice t chptr t.chans.voicedList)
  simple : ∀ t, t = s.beforeSimple env now chptr parv →
    modeDiffers (s.chans.channel.get chptr).mode
      (t.chans.channel.get chptr).mode = true →
    MeetsActs Fits now t.chans (env.hooks.modeSimple t chptr)
  ban : ∀ t, t = s.beforeBan env now chptr parv →
    t.clients.isUser sourceP = true → t.chans.banList ≠ [] →
    MeetsActs Fits now t.chans (env.hooks.modeBan t chptr t.chans.banList)

def TopicFits (Fits : Chans → ChanAct → Prop) (env : Env) (now : Int)
    (chptr : ChannelId) (s : State) : Prop :=
  ∀ t change, Dressing change →
    t = s.onChans (·.modifyChannel chptr change) →
    MeetsActs Fits now t.chans (env.hooks.channelTopic t chptr)

def LowertsFits (Fits : Chans → ChanAct → Prop) (env : Env)
    (chptr : ChannelId) (keepOld : Bool) (s : State) : Prop :=
  keepOld = false → ∀ emode, env.hooks.sjoinLowerts s chptr = some emode →
    Fits s.chans (.enforce chptr emode)

def JoinHookFits (Fits : Chans → ChanAct → Prop) (env : Env) (now : Int)
    (chptr : ChannelId) (joined : List MemberId) (s : State) : Prop :=
  MeetsActs Fits now s.chans (env.hooks.channelJoin s chptr joined)

def stripped (newts : Int) (removeBans : Bool) (ch : Channel) : Channel :=
  { ch with
    tsinfo := newts
    mode := {}
    usersUnopped := Dlink.moveList ch.usersOpped ch.usersUnopped
    usersOpped := []
    bans := if removeBans then [] else ch.bans
    excepts := if removeBans then [] else ch.excepts
    invites := if removeBans then [] else ch.invites }

theorem usersOf_modifyChannel {s : Chans} {target chptr : ChannelId}
    {change : Channel → Channel}
    (kept : ∀ ch, (change ch).users = ch.users) :
    (s.modifyChannel target change).usersOf chptr = s.usersOf chptr := by
  unfold Chans.usersOf Chans.modifyChannel
  rw [Heap.modify_cell]
  by_cases here : chptr = target
  · subst here
    rw [if_pos rfl]
    cases s.channel.cell chptr with
    | none => rfl
    | some ch => exact kept ch
  · rw [if_neg here]

theorem dropOldModes_eq (chptr : ChannelId) (newts : Int) (removeBans : Bool)
    (s : Chans) :
    dropOldModes chptr newts removeBans s =
      { s with
        member := (s.usersOf chptr).foldl
          (fun heap target => heap.modify target Inv.clearOv) s.member
        channel := s.channel.modify chptr (stripped newts removeBans) } := by
  have users : (Chans.removeOurSimpleModes chptr (s.modifyChannel chptr
      fun ch => { ch with tsinfo := newts })).usersOf chptr =
        s.usersOf chptr := by
    unfold Chans.removeOurSimpleModes
    rw [usersOf_modifyChannel, usersOf_modifyChannel]
    · exact fun _ => rfl
    · exact fun _ => rfl
  unfold dropOldModes
  dsimp only
  rw [Inv.removeOurOvModes_eq, users]
  cases removeBans with
  | false =>
      simp only [Chans.modifyChannel, Chans.removeOurSimpleModes,
        Heap.modify_modify]
      rfl
  | true =>
      simp only [Chans.modifyChannel, Chans.removeOurSimpleModes,
        Chans.removeOurBans, Heap.modify_modify, if_true]
      rfl

/-- The channel that an `SJOIN` or `JOIN` names, and its TS. -/
structure JoinTarget where
  chname : CString
  newts : Int
  deriving DecidableEq

namespace JoinTarget

variable (target : JoinTarget) (s : State)

def chptr : ChannelId :=
  (joinChannel target.chname target.newts s.chans).2.1

def keepOld : Bool :=
  (joinChannel target.chname target.newts s.chans).2.2

def keepNew : Bool :=
  keepNewModes target.chname target.newts s.chans

def found : State :=
  { s with chans := (joinChannel target.chname target.newts s.chans).1 }

def settled (removeBans : Bool) : State :=
  (target.found s).applyOldModes (target.chptr s) (target.keepOld s)
    target.newts removeBans

/-- The state after the hooks on a lower TS of a `JOIN`. -/
def lowered (env : Env) : State :=
  (target.settled s false).lowertsHook env (target.chptr s) (target.keepOld s)

def entered (env : Env) (clientP : ClientId) : Chans × List MemberId :=
  match (target.lowered s env).chans.findChmember (target.chptr s) clientP with
  | some _ => ((target.lowered s env).chans, [])
  | none =>
      let (chans, mptr) := (target.lowered s env).chans.addChmember
        (target.chptr s) clientP 0#32
      (chans, [mptr])

/-- `c_join` from the channel on. -/
def apply (env : Env) (now : Int) (clientP : ClientId) : State :=
  (target.lowered s env).joinSource env now (target.chptr s) clientP

theorem apply_eq (env : Env) (now : Int) (clientP : ClientId) :
    target.apply s env now clientP =
      { target.lowered s env with
        chans := (target.entered s env clientP).1 }.joinHook env now
          (target.chptr s) (target.entered s env clientP).2 := by
  unfold apply joinSource entered
  cases (target.lowered s env).chans.findChmember (target.chptr s) clientP with
  | some mptr => rfl
  | none => rfl

/-- The callbacks on a `JOIN` meet the condition. -/
structure HooksFit (Fits : Chans → ChanAct → Prop) (env : Env) (now : Int)
    (clientP : ClientId) : Prop where
  lowerts : LowertsFits Fits env (target.chptr s) (target.keepOld s)
    (target.settled s false)
  join : JoinHookFits Fits env now (target.chptr s)
    (target.entered s env clientP).2
    { target.lowered s env with chans := (target.entered s env clientP).1 }

end JoinTarget

/-- An `SJOIN` with its modes read. -/
structure SjoinCall where
  target : JoinTarget
  removeBans : Bool
  newmode : Chmode
  args : List CString
  deriving DecidableEq

namespace SjoinCall

variable (call : SjoinCall) (s : State)

/-- The state after the new modes, in which `HOOK_CHANNEL_SJOIN_LOWERTS` is
called. -/
def merged : State :=
  (call.target.settled s call.removeBans).applyNewModes
    (call.target.chptr s) (call.target.keepNew s) call.newmode

def lowered (env : Env) : State :=
  (call.merged s).lowertsHook env (call.target.chptr s)
    (call.target.keepOld s)

def entered (env : Env) : Chans × List MemberId :=
  (nickTokens ((call.args.headD []).length + 1) (call.args.headD [])).foldl
    (sjoinNick (fun nick => (call.lowered s env).clients.findUser nick true)
      (call.target.chptr s) (call.target.keepNew s))
    ((call.lowered s env).chans, [])

/-- `c_sjoin` from the channel on. -/
def apply (env : Env) (now : Int) : State :=
  (call.lowered s env).sjoinRest env now (call.target.chptr s)
    (call.target.keepNew s) call.args

/-- The callbacks on an `SJOIN` meet the condition. -/
structure HooksFit (Fits : Chans → ChanAct → Prop) (env : Env) (now : Int) :
    Prop where
  lowerts : LowertsFits Fits env (call.target.chptr s)
    (call.target.keepOld s) (call.merged s)
  join : JoinHookFits Fits env now (call.target.chptr s)
    (call.entered s env).2
    { call.lowered s env with chans := (call.entered s env).1 }

end SjoinCall

def joinTarget (parv : List CString) : JoinTarget where
  chname := parv.getD 1 []
  newts := CString.atol (parv.getD 0 [])

/-- The `SJOIN` has its parameters and a channel to join. -/
def sjoinHeard (parv : List CString) : Bool :=
  !lacks parv 4 3 && Chans.validChname (parv.getD 1 [])

/-- The `SJOIN` that a message makes, unless it returns before that. -/
def sjoinCall (clientP : ClientId) (parv : List CString) (s : State) :
    Option SjoinCall :=
  if !sjoinHeard parv then none
  else
    match s.clients.client.cell clientP, sjoinParse (parv.getD 2 []) parv with
    | some client, some (newmode, args) =>
        some ⟨joinTarget parv, !client.uid.isEmpty, newmode, args⟩
    | _, _ => none

/-- The `JOIN` has a user for its source and a channel to join. -/
def joinHeard (clientP : ClientId) (parv : List CString) (s : State) : Bool :=
  !(parv.getD 0 []).isEmpty && s.clients.isUser clientP &&
    decide (3 ≤ parv.length) && Chans.validChname (parv.getD 1 [])

def joinCall (clientP : ClientId) (parv : List CString) (s : State) :
    Option JoinTarget :=
  if s.joinHeard clientP parv &&
      (parseSimpleMode {} (parv.drop 2) true).isSome then
    some (joinTarget parv)
  else none

section Calls

variable {env : Env} {now : Int} {clientP : ClientId} {parv : List CString}
  {s : State}

theorem SjoinCall.apply_eq (call : SjoinCall) :
    call.apply s env now =
      if emptyHead call.args then call.lowered s env
      else if isFree (call.entered s env).1 (call.target.chptr s) then
        { call.lowered s env with
          chans := (call.entered s env).1.freeChannel (call.target.chptr s) }
      else
        { call.lowered s env with
          chans := (call.entered s env).1 }.joinHook env now
            (call.target.chptr s) (call.entered s env).2 := rfl

theorem sjoinCall_target {call : SjoinCall}
    (read : s.sjoinCall clientP parv = some call) :
    call.target = joinTarget parv := by
  unfold sjoinCall at read
  split at read
  · cases read
  · split at read
    · cases read
      rfl
    · cases read

theorem joinCall_target {target : JoinTarget}
    (read : s.joinCall clientP parv = some target) :
    target = joinTarget parv := by
  unfold joinCall at read
  split at read
  · exact (Option.some.inj read).symm
  · cases read

theorem cSjoin_of_call {call : SjoinCall}
    (read : s.sjoinCall clientP parv = some call) :
    s.cSjoin env now clientP parv = .ok (call.apply s env now) := by
  unfold sjoinCall at read
  split at read
  · cases read
  · rename_i heard
    obtain ⟨enough, valid⟩ :
        lacks parv 4 3 = false ∧ Chans.validChname (parv.getD 1 []) = true := by
      simpa [sjoinHeard] using heard
    have long : 4 ≤ parv.length := by
      by_contra short
      simp [lacks, Nat.lt_of_not_le short] at enough
    have given : ∀ index, index < 4 →
        param parv index = .ok (parv.getD index []) := by
      intro index below
      have inside : index < parv.length := by omega
      simp [param, List.getD, List.getElem?_eq_getElem inside]
    split at read
    · rename_i client newmode args known parsed
      cases read
      unfold cSjoin
      rw [if_neg (by simp [enough])]
      refine Except.bind_eq_ok.mpr ⟨_, given 1 (by omega), ?_⟩
      rw [if_neg (by rw [valid]; decide)]
      refine Except.bind_eq_ok.mpr ⟨_, given 0 (by omega), ?_⟩
      refine Except.bind_eq_ok.mpr ⟨client, by simp [Clients.deref, known], ?_⟩
      refine Except.bind_eq_ok.mpr ⟨_, given 2 (by omega), ?_⟩
      rw [parsed]
      rfl
    · cases read

theorem cSjoin_of_none (unread : s.sjoinCall clientP parv = none) :
    Ensures (fun t => (sjoinHeard parv = false ∧ t = s) ∨
        (sjoinHeard parv = true ∧ t = (joinTarget parv).found s))
      (s.cSjoin env now clientP parv) := by
  unfold cSjoin
  split
  · rename_i lacking
    exact Or.inl ⟨by simp [sjoinHeard, lacking], rfl⟩
  · rename_i enough
    refine Ensures.bind fun chname named => ?_
    split
    · rename_i invalid
      refine Or.inl ⟨?_, rfl⟩
      rw [sjoinHeard, param_eq_ok named]
      simp_all
    · rename_i valid
      have heard : sjoinHeard parv = true := by
        rw [sjoinHeard, param_eq_ok named]
        simp_all
      refine Ensures.bind fun newts stamp => ?_
      refine Ensures.bind fun client known => ?_
      refine Ensures.bind fun modes given => ?_
      have known : s.clients.client.cell clientP = some client := by
        unfold Clients.deref at known
        split at known
        · rename_i other there
          cases known
          exact there
        · cases known
      rw [sjoinCall, heard, param_eq_ok given, known] at unread
      rw [joinTarget, param_eq_ok named, param_eq_ok stamp]
      split
      · exact Or.inr ⟨heard, rfl⟩
      · rename_i newmode args parsed
        rw [parsed] at unread
        cases unread

/-- What a `JOIN` does: it leaves all channels, it leaves the channel it names
behind, or it joins its source. -/
theorem cJoin_cases :
    Ensures (fun t =>
        (s.joinHeard clientP parv = false ∧
          (t = s ∨ t = s.joinZero clientP)) ∨
        (s.joinHeard clientP parv = true ∧ t = (joinTarget parv).found s) ∨
        ∃ target, s.joinCall clientP parv = some target ∧
          t = target.apply s env now clientP)
      (s.cJoin env now clientP parv) := by
  unfold cJoin
  refine Ensures.bind fun empty tested => ?_
  have given := emptyParam_eq_ok tested
  split
  · rename_i none_
    refine Or.inl ⟨?_, Or.inl rfl⟩
    rw [joinHeard, given, none_]
    rfl
  · rename_i nonempty
    split
    · rename_i noUser
      refine Or.inl ⟨?_, Or.inl rfl⟩
      simp_all [joinHeard]
    · rename_i user
      refine Ensures.bind fun first _ => ?_
      split
      · rename_i zero
        refine Or.inl ⟨?_, Or.inr rfl⟩
        simp_all [joinHeard]
      · split
        · rename_i few
          refine Or.inl ⟨?_, Or.inl rfl⟩
          have short : ¬3 ≤ parv.length := by omega
          simp [joinHeard, short]
        · rename_i enough
          have long : 3 ≤ parv.length := by omega
          refine Ensures.bind fun chname named => ?_
          split
          · rename_i invalid
            refine Or.inl ⟨?_, Or.inl rfl⟩
            rw [joinHeard, param_eq_ok named]
            simp_all
          · rename_i valid
            have heard : s.joinHeard clientP parv = true := by
              rw [joinHeard, given, param_eq_ok named]
              simp_all
            refine Ensures.bind fun newts stamp => ?_
            have target : joinTarget parv = ⟨chname, newts.atol⟩ := by
              rw [joinTarget, param_eq_ok named, param_eq_ok stamp]
            dsimp only
            split
            · refine Or.inr (Or.inl ⟨heard, ?_⟩)
              rw [target]
              rfl
            · rename_i modes parsed
              refine Or.inr (Or.inr ⟨joinTarget parv, ?_, ?_⟩)
              · rw [joinCall, heard, parsed]
                rfl
              · rw [target]
                rfl

end Calls

def HooksFit (Fits : Chans → ChanAct → Prop) (env : Env) (now : Int)
    (clientP : ClientId) (parv : List CString) (s : State) : Command → Prop
  | .mode => ∀ chptr, s.chans.findChannel (parv.getD 0 []) = some chptr →
      ChmodeFits Fits env now chptr clientP (parv.drop 1) s
  | .tmode => ∀ chptr, s.chans.findChannel (parv.getD 1 []) = some chptr →
      ChmodeFits Fits env now chptr clientP (parv.drop 2) s
  | .topic => ∀ chptr, s.chans.findChannel (parv.getD 0 []) = some chptr →
      TopicFits Fits env now chptr s
  | .tb => ∀ chptr, s.chans.findChannel (parv.getD 0 []) = some chptr →
      TopicFits Fits env now chptr s
  | .sjoin => ∀ call, s.sjoinCall clientP parv = some call →
      call.HooksFit s Fits env now
  | .join => ∀ target, s.joinCall clientP parv = some target →
      target.HooksFit s Fits env now clientP
  | _ => True

end State

end RatboxServices
