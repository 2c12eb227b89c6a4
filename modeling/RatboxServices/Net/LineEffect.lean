import RatboxServices.Net.JoinEffect

namespace RatboxServices

/-! The effects of the commands to services and of a whole line from the
uplink. -/

namespace State

open CString

variable {env : Env} {Allowed : State → Hazard → Prop}
  {Chan : Chans → Chans → Prop} {now : Int}
  {clientP serviceP : ClientId} {parv : List CString} {s : State}

theorem execService_effects (act : ServiceAct)
    (fits : ServiceFits Chan now s act) :
    Ensures (Effects env Allowed Chan s) (execService env now s act) := by
  cases act with
  | chan act => exact Effects.onChans fits fun inv => inv.exec now act
  | issueMode issuer chptr allowSslonly parv =>
      exact Effects.onChans fits fun inv => inv.parseFullMode _ _
  | exit name =>
      dsimp only [execService]
      split
      · exact Effects.refl
      · rename_i target found
        exact exit_effects (Or.inl found)

theorem flood_effects (user service : Int) :
    Effects env Allowed Chan s (s.flood serviceP clientP user service) := by
  refine (Effects.modifyUser clientP _).tail (.client ?_)
  exact Client.benign_flood _ fun service => ⟨rfl, rfl⟩

theorem floodReset_effects (expired : Bool) :
    Effects env Allowed Chan s (s.floodReset now clientP expired) := by
  unfold floodReset
  split
  · exact Effects.modifyUser clientP _
  · exact Effects.refl

theorem floodLimit_effects (s : State) (user : User) (service : Service)
    (command : CString) :
    Effects env Allowed Chan s (s.floodLimit env now serviceP clientP user service
      command).1 := by
  unfold floodLimit
  split
  · exact Effects.refl
  · split
    · exact Effects.refl
    · dsimp only
      split
      · exact (floodReset_effects _).trans (flood_effects 1 0)
      · split
        · exact (floodReset_effects _).trans (flood_effects 1 0)
        · exact floodReset_effects _

theorem operLogin_effects (user : User) :
    Ensures (Effects env Allowed Chan s)
      (s.operLogin env serviceP clientP user parv) := by
  unfold operLogin
  split
  · exact Effects.refl
  · split
    · exact flood_effects 1 0
    · refine Ensures.bind fun name _ => ?_
      split
      · exact flood_effects 1 0
      · refine Ensures.bind fun given _ => ?_
        split
        · exact Effects.refl
        · exact Effects.modifyUser clientP _

theorem serviceCommand_effects (user : User) (service : Service)
    (command : CString) (msg : Bool)
    (fits : Meets (execService env now) (ServiceFits Chan now) s
      (env.runCommand s serviceP clientP command parv).1) :
    Ensures (Effects env Allowed Chan s) (s.serviceCommand env now serviceP clientP
      user service command parv msg) := by
  unfold serviceCommand
  dsimp only
  split
  · show Effects env Allowed Chan s _
    split
    · exact Effects.refl
    · exact flood_effects 1 1
  · split
    · split
      · exact Effects.refl
      · split
        · exact Effects.refl
        · exact flood_effects 2 _
    · split
      · exact operLogin_effects user
      · split
        · show Effects env Allowed Chan s _
          split
          · exact flood_effects 1 0
          · exact Effects.modifyUser clientP _
        · split
          · exact Effects.refl
          · split
            · exact flood_effects 1 1
            · split
              · exact flood_effects 1 1
              · refine effects_then (effects_meets (fun s act fits =>
                  execService_effects act fits) fits) fun t _ _ => ?_
                exact flood_effects _ _

theorem handleService_effects (command : CString) (msg : Bool)
    (fits : ∀ user service t,
      t = (s.floodLimit env now serviceP clientP user service command).1 →
      Meets (execService env now) (ServiceFits Chan now) t
        (env.runCommand t serviceP clientP command parv).1) :
    Ensures (Effects env Allowed Chan s)
      (s.handleService env now serviceP clientP command parv msg) := by
  unfold handleService
  refine Ensures.bind fun service _ => ?_
  split
  · exact Effects.refl
  · refine Ensures.bind fun user _ => ?_
    have limited : Effects env Allowed Chan s
        (s.floodLimit env now serviceP clientP user service command).1 :=
      floodLimit_effects s user service command
    have fits := fits user service
    revert limited fits
    rcases s.floodLimit env now serviceP clientP user service command with
      ⟨t, pass⟩
    intro limited fits
    dsimp only at limited fits ⊢
    split
    · exact limited
    · exact effects_after limited
        (serviceCommand_effects user service command msg (fits t rfl))

theorem cMessage_effects
    (fits : CommandFits env Chan now clientP parv s .privmsg) :
    Ensures (Effects env Allowed Chan s) (s.cMessage env now clientP parv) := by
  unfold cMessage
  split
  · exact Effects.refl
  · refine Ensures.bind fun name named => ?_
    split
    · exact Effects.refl
    · rename_i target found
      refine Ensures.bind fun text given => ?_
      split
      · split
        · exact Effects.refl
        · exact Ensures.bind fun _ _ => Effects.refl
      · unfold handleServiceMsg
        unfold CommandFits CommandMeets serviceCall at fits
        rw [param_eq_ok named, found, param_eq_ok given] at fits
        split
        · exact Effects.refl
        · split
          · rename_i command whole
            rw [whole] at fits
            exact handleService_effects command true (fits _ _ _ rfl)
          · rename_i command rest split_
            rw [split_] at fits
            exact handleService_effects command true (fits _ _ _ rfl)

theorem gcap_effects (caps : CString) :
    Effects env Allowed Chan s
      (match strstr "RSFNC".toList caps with
      | none => s
      | some hit =>
          match hit.drop 5 with
          | [] => s.modifyClient clientP (·.setFlag flagsRsfnc)
          | c :: _ =>
              if c == ' ' then
                s.modifyClient clientP (·.setFlag flagsRsfnc)
              else s) := by
  have marked : Effects env Allowed Chan s
      (s.modifyClient clientP (·.setFlag flagsRsfnc)) :=
    Effects.setFlag clientP (by decide)
  split
  · exact Effects.refl
  · split
    · exact marked
    · split
      · exact marked
      · exact Effects.refl

theorem cEncap_effects
    (fits : CommandFits env Chan now clientP parv s .encap) :
    Ensures (Effects env Allowed Chan s) (s.cEncap env now clientP parv) := by
  unfold cEncap
  split
  · exact Effects.refl
  · refine Ensures.bind fun mask _ => ?_
    split
    · exact Effects.refl
    · refine Ensures.bind fun subcommand _ => ?_
      split
      · refine Ensures.bind fun empty _ => ?_
        split
        · exact Effects.refl
        · refine Ensures.bind fun account _ => ?_
          dsimp only
          split
          · exact Effects.refl
          · exact Effects.modifyUser clientP _
      · split
        · refine Ensures.bind fun empty _ => ?_
          split
          · exact Effects.refl
          · exact Ensures.bind fun caps _ => gcap_effects caps
        · split
          · split
            · exact Effects.refl
            · refine Ensures.bind fun name named => ?_
              split
              · exact Effects.refl
              · rename_i target found
                refine Ensures.bind fun command given => ?_
                unfold CommandFits CommandMeets serviceCall at fits
                rw [param_eq_ok named, found, param_eq_ok given] at fits
                exact handleService_effects command false (fits _ _ _ rfl)
          · exact Effects.refl

theorem handleScommandClient_effects {source : CString} {conn : Lconn}
    {command : Command} (closed : Closed Chan)
    (fits : CallFits env Chan now clientP parv s command)
    (found : s.clients.findClient source = some clientP)
    (allowed : ∀ hazard, s.hazard conn (some clientP) command parv =
      some hazard → Allowed s hazard) :
    Ensures (Effects env Allowed Chan s)
      (s.handleScommandClient env now clientP command parv) := by
  cases command with
  | admin => exact cAdmin_effects
  | capab => exact cCapab_effects _
  | encap => exact cEncap_effects fits
  | pass => exact cPass_effects _ (by simp)
  | ping => exact cPing_effects
  | pong => exact cPong_effects
  | stats => exact cStats_effects
  | trace => exact cTrace_effects
  | version => exact cVersion_effects
  | time => exact cVersion_effects
  | whois => exact cWhois_effects
  | error =>
      exact cError_effects fun given => allowed _ (by simp [hazard, given])
  | mode => exact cMode_effects fits
  | tmode => exact effects_of_all_moves (fun _ => cTmode_moves) fits
  | bmask => exact cBmask_effects closed
  | privmsg => exact cMessage_effects fits
  | join =>
      exact effects_of_moves (fun _ early => cJoin_moves early) fits fun strands =>
        allowed _ (by simp [hazard, strands])
  | kick => exact cKick_effects closed
  | part => exact cPart_effects closed
  | sjoin =>
      exact effects_of_moves (fun _ early => cSjoin_moves early) fits fun strands =>
        allowed _ (by simp [hazard, strands])
  | tb => exact effects_of_all_moves (fun _ => cTb_moves) fits
  | topic => exact effects_of_all_moves (fun _ => cTopic_moves) fits
  | kill =>
      exact cKill_effects fun kills => allowed _ (by simp [hazard, kills])
  | nick => exact cNick_effects (Or.inl found)
  | uid => exact cUid_effects
  | quit => exact cQuit_effects (Or.inl found)
  | server =>
      refine cServer_effects now (some clientP) ?_ (by simp)
      rintro _ ⟨⟩
      exact ⟨source, Or.inl found⟩
  | sid => exact cSid_effects (Or.inl found)
  | squit =>
      exact cSquit_effects fun nameless =>
        allowed _ (by simp [hazard, nameless])

theorem handleScommandUnknown_effects {conn : Lconn} {command : Command}
    (link : s.serverP = some conn) (noUplink : conn.clientP = none)
    (allowed : ∀ hazard, s.hazard conn none command parv = some hazard →
      Allowed s hazard) :
    Ensures (Effects env Allowed Chan s)
      (s.handleScommandUnknown env now command parv) := by
  have only : ∀ other, s.serverP = some other → other = conn := by
    intro other same
    rw [link, Option.some.injEq] at same
    exact same.symm
  unfold handleScommandUnknown
  split
  · exact cCapab_effects none
  · refine cPass_effects none fun other _ here rejects => ?_
    rw [only other here] at rejects
    exact allowed _ (by simp [hazard, rejects])
  · exact cError_effects fun given => allowed _ (by simp [hazard, given])
  · refine cServer_effects now none (by simp) fun _ enough => ?_
    have long : ¬parv.length < 3 := by omega
    refine cServerUplink_effects ?_ ?_ ?_
    · intro other here
      rw [only other here]
      exact noUplink
    · intro other here rejects
      rw [only other here] at rejects
      exact allowed _ (by simp [hazard, long, rejects])
    · intro other here accepts
      rw [only other here] at accepts
      exact allowed _ (by simp [hazard, long, accepts])
  · exact Effects.refl

theorem parseServer_effects {buf : CString} (closed : Closed Chan)
    (calls : ∀ command clientP parv,
      lineCall env s buf = some (command, clientP, parv) →
      CallFits env Chan now clientP parv s command)
    (parsed : ∀ conn, s.serverP = some conn → conn.isDead = false)
    (allowed : ∀ hazard, lineHazard env s buf = some hazard →
      Allowed s hazard) :
    Ensures (Effects env Allowed Chan s) (s.parseServer env now buf) := by
  unfold parseServer
  refine Ensures.bind fun conn link => ?_
  have here := uplink_eq_ok link
  have open_ := parsed conn here
  split
  · exact Effects.refl
  · rename_i line line_
    unfold handleScommand
    refine Ensures.bind fun other again => ?_
    rw [link, Except.ok.injEq] at again
    subst again
    split
    · exact Effects.refl
    · rename_i command known
      simp only [lineHazard, here, open_, line_, known, Bool.false_eq_true,
        if_false] at allowed
      simp only [lineCall, here, open_, line_, known, Bool.false_eq_true,
        if_false] at calls
      split
      · rename_i clientP found
        rw [found] at allowed calls
        exact handleScommandClient_effects closed (calls _ _ _ rfl) found
          fun hazard given => allowed hazard (by simpa [heard] using given)
      · rename_i unknown
        rw [unknown] at allowed
        split
        · rename_i noUplink
          exact handleScommandUnknown_effects here (by simpa using noUplink)
            fun hazard given => allowed hazard (by simp [heard, noUplink, given])
        · exact Effects.refl

theorem readLine_effects {buf : CString} (closed : Closed Chan)
    (calls : ∀ command clientP parv,
      lineCall env s buf = some (command, clientP, parv) →
      CallFits env Chan now clientP parv s command)
    (allowed : ∀ hazard, lineHazard env s buf = some hazard →
      Allowed s hazard) :
    Ensures (Effects env Allowed Chan s) (readLine env now s buf) := by
  unfold readLine
  refine Ensures.bind fun conn link => ?_
  split
  · exact Effects.refl
  · rename_i open_
    refine parseServer_effects closed calls (fun other here => ?_) allowed
    rw [uplink_eq_ok link, Option.some.injEq] at here
    subst here
    simpa using open_

theorem readLine_effects_true {buf : CString}
    (allowed : ∀ hazard, lineHazard env s buf = some hazard →
      Allowed s hazard) :
    Ensures (Effects env Allowed (fun _ _ => True) s)
      (readLine env now s buf) :=
  readLine_effects Closed.trivial
    (fun command clientP parv _ => callFits_true env now clientP parv s command)
    allowed

theorem execService_effects_true (act : ServiceAct) :
    Ensures (Effects env Allowed (fun _ _ => True) s)
      (execService env now s act) :=
  execService_effects act (serviceFits_true now s act)

end State

end RatboxServices
