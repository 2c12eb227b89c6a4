import RatboxServices.Net.ChannelPath
import RatboxServices.Net.HookCall
import RatboxServices.Net.Reseat

namespace RatboxServices

/-! The handlers that call hooks, for any relation on the channels that has the
steps they are made of. -/

namespace State

open Chans (Reseats)

theorem sjoinNick_reseats (findUser : CString → Option ClientId)
    (chptr : ChannelId) (keepNew : Bool) (state : Chans × List MemberId)
    (token : CString) :
    Reseats state.1 (sjoinNick findUser chptr keepNew state token).1 := by
  unfold sjoinNick
  obtain ⟨opped, voiced, nick⟩ := nickPrefix token
  dsimp only
  split
  · exact Reseats.refl _
  · split
    · exact Reseats.refl _
    · exact Reseats.addChmember _ _ _

theorem entered_reseats (call : SjoinCall) (s : State) (env : Env) :
    Reseats (call.lowered s env).chans (call.entered s env).1 := by
  unfold SjoinCall.entered
  generalize nickTokens _ _ = tokens
  have walk : ∀ state : Chans × List MemberId, Reseats state.1
      (tokens.foldl (sjoinNick
        (fun nick => (call.lowered s env).clients.findUser nick true)
        (call.target.chptr s) (call.target.keepNew s)) state).1 := by
    induction tokens with
    | nil => exact fun state => Reseats.refl _
    | cons token rest ih =>
        exact fun state => (sjoinNick_reseats _ _ _ state token).trans (ih _)
  exact walk ((call.lowered s env).chans, [])

theorem joinEntered_reseats (target : JoinTarget) (s : State) (env : Env)
    (clientP : ClientId) :
    Reseats (target.lowered s env).chans (target.entered s env clientP).1 := by
  unfold JoinTarget.entered
  split
  · exact Reseats.refl _
  · exact Reseats.addChmember _ _ _

/-- Changes of seats, mode strings and the acts of the services that meet the
condition are in the relation, and so is what is made up of them. -/
structure Admits (Fits : Chans → ChanAct → Prop) (now : Int)
    (Chan : Chans → Chans → Prop) : Prop where
  trans : ∀ {r s t}, Chan r s → Chan s t → Chan r t
  reseats : ∀ {s t}, Reseats s t → Chan s t
  modes : ∀ call parv s, Chan s (parseFullMode call parv s).1
  act : ∀ s act, Fits s act → Chan s (act.exec now s)

namespace Admits

variable {Fits : Chans → ChanAct → Prop} {env : Env} {now : Int}
  {Chan : Chans → Chans → Prop} {r : Chans} {s : State} {clientP : ClientId}
  {parv : List CString}
  (admits : Admits Fits now Chan)

include admits

theorem refl (s : Chans) : Chan s s :=
  admits.reseats (.refl s)

theorem execAll {acts : List ChanAct} {s : Chans}
    (meets : MeetsActs Fits now s acts) :
    Chan s (ChanAct.execAll now acts s) :=
  execAll_related admits.refl admits.trans admits.act meets

theorem callHook {called : Bool} {acts : List ChanAct}
    (meets : called = true → MeetsActs Fits now s.chans acts) :
    Chan s.chans (s.callHook now called acts).chans := by
  unfold State.callHook
  split
  · rename_i called_
    exact admits.execAll (meets called_)
  · exact admits.refl _

theorem handleChmode {chptr sourceP : ClientId}
    (fits : ChmodeFits Fits env now chptr sourceP parv s) :
    Chan s.chans (s.handleChmode env now chptr sourceP parv).chans := by
  have told : ∀ {list : List MemberId}, (!list.isEmpty) = true → list ≠ [] := by
    intro list some_
    cases list with
    | nil => cases some_
    | cons first rest => exact List.cons_ne_nil _ _
  have parsing : Chan s.chans (s.parsed chptr parv).chans :=
    admits.modes _ parv s.chans
  have opping : Chan (s.parsed chptr parv).chans
      (s.beforeVoice env now chptr parv).chans :=
    admits.callHook fun called => fits.op _ rfl (told called)
  have voicing : Chan (s.beforeVoice env now chptr parv).chans
      (s.beforeSimple env now chptr parv).chans :=
    admits.callHook fun called => fits.voice _ rfl (told called)
  have setting : Chan (s.beforeSimple env now chptr parv).chans
      (s.beforeBan env now chptr parv).chans :=
    admits.callHook fun called => fits.simple _ rfl called
  have banning : Chan (s.beforeBan env now chptr parv).chans
      ((s.beforeBan env now chptr parv).tellBanned env now chptr
        sourceP).chans := by
    refine admits.callHook fun called => ?_
    rw [Bool.and_eq_true] at called
    refine fits.ban _ rfl called.1 fun none_ => ?_
    rw [none_] at called
    cases called.2
  rw [handleChmode_eq]
  have told := admits.trans (admits.trans (admits.trans (admits.trans
    parsing opping) voicing) setting) banning
  exact admits.trans told (admits.reseats (.of_channel rfl))

theorem cMode (fits : HooksFit Fits env now clientP parv s .mode) :
    Moved Chan s (s.cMode env now clientP parv) := by
  unfold State.cMode
  split
  · exact admits.refl _
  · refine Ensures.bind fun name named => ?_
    split
    · exact admits.refl _
    · split
      · split
        · exact admits.refl _
        · split
          · exact admits.refl _
          · exact Ensures.bind fun modes _ => admits.refl _
      · split
        · exact admits.refl _
        · rename_i chptr found
          split
          · exact admits.refl _
          · refine admits.handleChmode (fits chptr ?_)
            rw [param_eq_ok named]
            exact found

theorem cTmode (fits : HooksFit Fits env now clientP parv s .tmode) :
    Moved Chan s (s.cTmode env now clientP parv) := by
  unfold State.cTmode
  split
  · exact admits.refl _
  · refine Ensures.bind fun chname named => ?_
    split
    · exact admits.refl _
    · rename_i chptr found
      refine Ensures.bind fun tsinfo _ => ?_
      split
      · exact admits.refl _
      · refine admits.handleChmode (fits chptr ?_)
        rw [param_eq_ok named]
        exact found

theorem sjoinCall {call : SjoinCall}
    (before : Chan r (call.lowered s env).chans)
    (fits : call.HooksFit s Fits env now) :
    Chan r (call.apply s env now).chans := by
  have entered : Chan r (call.entered s env).1 :=
    admits.trans before (admits.reseats (entered_reseats call s env))
  rw [SjoinCall.apply_eq]
  split
  · exact before
  · split
    · exact admits.trans entered (admits.reseats (.freeChannel _))
    · exact admits.trans entered (admits.execAll fits.join)

theorem joinCall {target : JoinTarget}
    (before : Chan r (target.lowered s env).chans)
    (fits : target.HooksFit s Fits env now clientP) :
    Chan r (target.apply s env now clientP).chans := by
  have entered : Chan r (target.entered s env clientP).1 := admits.trans before
    (admits.reseats (joinEntered_reseats target s env clientP))
  rw [JoinTarget.apply_eq]
  exact admits.trans entered (admits.execAll fits.join)

theorem cSjoin (found : Chan s.chans ((joinTarget parv).found s).chans)
    (applied : ∀ call, s.sjoinCall clientP parv = some call →
      Chan s.chans (call.apply s env now).chans) :
    Moved Chan s (s.cSjoin env now clientP parv) := by
  cases read : s.sjoinCall clientP parv with
  | some call =>
      rw [cSjoin_of_call read]
      exact applied call read
  | none =>
      refine Outcome.imp (cSjoin_of_none read) ?_
      rintro t (⟨_, rfl⟩ | ⟨_, rfl⟩)
      · exact admits.refl _
      · exact found

theorem cJoin (found : Chan s.chans ((joinTarget parv).found s).chans)
    (applied : ∀ target, s.joinCall clientP parv = some target →
      Chan s.chans (target.apply s env now clientP).chans) :
    Moved Chan s (s.cJoin env now clientP parv) := by
  refine Outcome.imp cJoin_cases ?_
  rintro t (⟨_, rfl | rfl⟩ | ⟨_, rfl⟩ | ⟨target, read, rfl⟩)
  · exact admits.refl _
  · exact foldl_leave (P := fun chans => Chan s.chans chans)
      (fun mptr _ before =>
        admits.trans before (admits.reseats (.delChmember mptr))) _
      (admits.refl _)
  · exact found
  · exact applied target read

end Admits

end State

end RatboxServices
