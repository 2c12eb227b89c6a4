import RatboxServices.Net.Effect

namespace RatboxServices

/-! The effects of each handler. -/

namespace State

open Chans (Inv)

variable {env : Env} {Allowed : State → Hazard → Prop}
  {Chan : Chans → Chans → Prop} {now : Int}
  {clientP : ClientId} {parv : List CString} {s : State} {source : CString}

theorem uplink_eq_ok {conn : Lconn} (link : s.uplink = .ok conn) :
    s.serverP = some conn := by
  unfold uplink at link
  split at link
  · cases link
    assumption
  · cases link

theorem param_eq_ok {index : Nat} {value : CString}
    (read : param parv index = .ok value) : parv.getD index [] = value := by
  unfold param at read
  split at read
  · rename_i other found
    cases read
    simp [List.getD, found]
  · cases read

theorem emptyParam_eq_ok {index : Nat} {empty : Bool}
    (tested : emptyParam parv index = .ok empty) :
    (parv.getD index []).isEmpty = empty := by
  unfold emptyParam at tested
  split at tested
  · cases tested
    rfl
  · cases tested

theorem cAdmin_effects :
    Ensures (Effects env Allowed Chan s) (s.cAdmin clientP parv) := by
  unfold cAdmin
  split
  · exact Effects.refl
  · split
    · exact Effects.refl
    · exact Ensures.bind fun _ _ => Effects.refl

theorem cPing_effects :
    Ensures (Effects env Allowed Chan s) (s.cPing clientP parv) := by
  unfold cPing
  split
  · exact Effects.refl
  · exact Ensures.bind fun _ _ => Effects.refl

theorem cVersion_effects :
    Ensures (Effects env Allowed Chan s) (s.cVersion clientP parv) := by
  unfold cVersion
  split
  · exact Effects.refl
  · exact Ensures.bind fun _ _ => Effects.refl

theorem cTrace_effects :
    Ensures (Effects env Allowed Chan s) (s.cTrace clientP parv) := by
  unfold cTrace
  split
  · exact Effects.refl
  · split
    · exact Effects.refl
    · refine Ensures.bind fun _ _ => ?_
      refine Ensures.bind fun _ _ => ?_
      exact Ensures.bind fun _ _ => Effects.refl

theorem cWhois_effects :
    Ensures (Effects env Allowed Chan s) (s.cWhois clientP parv) := by
  unfold cWhois
  split
  · exact Effects.refl
  · split
    · exact Effects.refl
    · refine Ensures.bind fun nick _ => ?_
      refine Ensures.bind fun _ _ => ?_
      refine Ensures.bind fun target _ => ?_
      exact Ensures.bind fun _ _ => Effects.refl

theorem cStats_effects :
    Ensures (Effects env Allowed Chan s) (s.cStats clientP parv) := by
  unfold cStats
  split
  · exact Effects.refl
  · split
    · exact Effects.refl
    · refine Ensures.bind fun statchar _ => ?_
      refine Ensures.bind fun _ _ => ?_
      exact Ensures.bind fun _ _ => Effects.refl

theorem tame_setFlag {bit : Nat} (conn : Lconn)
    (handshake : bit = connTs ∨ bit = connCapService ∨
      bit = connCapRsfnc ∨ bit = connCapTb ∨ bit = connFlagsEob ∨
      bit = connFlagsSentburst) : Lconn.Tame conn (conn.setFlag bit) := by
  have others : bit ≠ connDead ∧ bit ≠ connConnecting ∧
      bit ≠ connSentping := by
    rcases handshake with h | h | h | h | h | h <;> subst h <;> decide
  exact {
    clientP := rfl
    dead := by simp [Lconn.dead, Lconn.setFlag, others.1]
    signedOff := rfl
    reading := rfl
    connecting := by simp [Lconn.setFlag, others.2.1]
    sentping := by simp [Lconn.setFlag, others.2.2]
    lastTime := rfl
    opened := rfl
    lastData := rfl
    passed := id
    sid := Or.inl rfl }

theorem capabFlag_handshake {name : CString} {bit : Nat}
    (known : capabFlag name = some bit) :
    bit = connCapService ∨ bit = connCapRsfnc ∨ bit = connCapTb := by
  unfold capabFlag at known
  split at known
  · cases known
    exact Or.inl rfl
  · split at known
    · cases known
      exact Or.inr (Or.inl rfl)
    · split at known
      · cases known
        exact Or.inr (Or.inr rfl)
      · cases known

theorem tame_capab (names : List CString) (conn : Lconn) :
    Lconn.Tame conn (names.foldl (fun conn name =>
      match capabFlag name with
      | some bit => conn.setFlag bit
      | none => conn) conn) := by
  induction names generalizing conn with
  | nil => exact Lconn.Tame.refl conn
  | cons name rest ih =>
      rw [List.foldl_cons]
      refine Lconn.Tame.trans ?_ (ih _)
      cases known : capabFlag name with
      | none => exact Lconn.Tame.refl conn
      | some bit =>
          refine tame_setFlag conn ?_
          have flag := capabFlag_handshake known
          tauto

theorem cCapab_effects (source : Option ClientId) :
    Ensures (Effects env Allowed Chan s) (s.cCapab source parv) := by
  unfold cCapab
  split
  · exact Effects.refl
  · split
    · exact Effects.refl
    · refine Ensures.bind fun data _ => ?_
      refine Ensures.bind fun _ _ => ?_
      exact Effects.one (.link (tame_capab _))

theorem cPass_effects (source : Option ClientId)
    (allowed : ∀ conn, source = none → s.serverP = some conn →
      passRejects conn parv = true → Allowed s .signoff) :
    Ensures (Effects env Allowed Chan s) (s.cPass env source parv) := by
  unfold cPass
  split
  · exact Effects.refl
  · split
    · exact Effects.refl
    · rename_i enough unknown
      refine Ensures.bind fun conn link => ?_
      refine Ensures.bind fun pass given => ?_
      have rejected : (decide (conn.pass ≠ pass) ||
          !CString.strcasecmp (parv.getD 1 []) ['T', 'S'] ||
          (passSid parv).isNone) = true → Allowed s .signoff := by
        intro rejects
        refine allowed conn (by simpa using unknown) (uplink_eq_ok link) ?_
        rw [passRejects, param_eq_ok given, rejects, Bool.and_true,
          decide_eq_true_eq]
        omega
      split
      · rename_i wrong
        exact signoff_effects (Relinked.refl s) (rejected (by simp [wrong]))
      · refine Ensures.bind fun protocol named => ?_
        rw [param_eq_ok named] at rejected
        split
        · rename_i other
          exact signoff_effects (Relinked.refl s)
            (rejected (by rw [other]; simp))
        · have ts : Effects env Allowed Chan s (s.onLink (·.setFlag connTs)) :=
            Effects.one (.link fun conn => tame_setFlag conn (Or.inl rfl))
          dsimp only
          split
          · refine ts.tail (.link fun conn => ?_)
            exact ⟨rfl, rfl, rfl, rfl, rfl, rfl, rfl, rfl, rfl,
              fun _ => rfl, Or.inr rfl⟩
          · rename_i unaccepted
            exact effects_after ts (signoff_effects
              (Relinked.onLink fun conn => tame_setFlag conn (Or.inl rfl))
              (rejected (by simp [unaccepted])))

theorem cError_effects
    (allowed : lacks parv 1 0 = false → Allowed s .signoff) :
    Ensures (Effects env Allowed Chan s) (s.cError env parv) := by
  unfold cError
  split
  · exact Effects.refl
  · rename_i given
    refine Ensures.bind fun _ _ => ?_
    refine Ensures.bind fun _ _ => ?_
    exact signoff_effects (Relinked.refl s) (allowed (by simpa using given))

theorem finburst_effects :
    Ensures (Effects env Allowed Chan s) (s.finburst env) := by
  unfold finburst
  refine effects_foldlM fun s name => ?_
  split
  · exact Effects.refl
  · rename_i target found
    have lookup := (Option.filter_eq_some_iff.mp found).1
    exact exit_effects (Or.inl lookup)

theorem finishBurst_effects :
    Ensures (Effects env Allowed Chan s) (s.finishBurst env) := by
  unfold finishBurst
  split
  · exact Effects.refl
  · have link : Effects env Allowed Chan s (s.onLink (·.setFlag connFlagsEob)) :=
      Effects.one (.link fun conn => tame_setFlag conn (by decide))
    exact effects_after link finburst_effects

theorem cPong_effects :
    Ensures (Effects env Allowed Chan s) (s.cPong env clientP parv) := by
  unfold cPong
  split
  · exact Effects.refl
  · refine Ensures.bind fun _ _ => ?_
    refine effects_then finishBurst_effects fun t _ _ => ?_
    exact Effects.setFlag clientP (by decide)

variable (env Allowed Chan) in
theorem collideNick_effects (newts : Int) (found : Option ClientId)
    (lookup : ∀ target, found = some target →
      ∃ name, s.clients.Finds name target) :
    Ensures (fun result => Effects env Allowed Chan s result.1)
      (s.collideNick env newts found) := by
  unfold collideNick
  split
  · exact Effects.refl
  · rename_i target
    obtain ⟨name, finds⟩ := lookup target rfl
    refine Ensures.bind fun client _ => ?_
    split
    · exact Effects.refl
    · split
      · exact Effects.refl
      · exact Outcome.bind (exit_effects finds) fun t after => after
    · split
      · exact trivial
      · exact Effects.refl

theorem linkUser_effects {uplinkP : ClientId} {user : Client}
    (new : Client.NewUser uplinkP user) :
    Ensures (Effects env Allowed Chan s) (s.linkUser uplinkP user) :=
  Ensures.intro fun _ linked => Effects.one (.linkUser new linked)

theorem linkLeaf_effects {server : Client}
    (found : s.clients.Finds source clientP)
    (new : Client.NewServer (some clientP) server) :
    Ensures (Effects env Allowed Chan s) (s.linkLeaf clientP server) :=
  Ensures.intro fun _ linked => Effects.one (.linkLeaf found new linked)

theorem introduceNick_effects :
    Ensures (Effects env Allowed Chan s) (s.introduceNick env parv) := by
  unfold introduceNick
  refine Ensures.bind fun nick _ => ?_
  refine Ensures.bind fun newts _ => ?_
  refine Ensures.bind fun server _ => ?_
  split
  · exact Effects.refl
  · split
    · exact trivial
    · refine Outcome.bind (collideNick_effects env Allowed Chan _ _
        fun target found => ⟨nick, Or.inr found⟩) fun result before => ?_
      obtain ⟨t, introduce⟩ := result
      dsimp only at before ⊢
      split
      · exact before
      · refine Ensures.bind fun _ _ => ?_
        refine Ensures.bind fun _ _ => ?_
        refine Ensures.bind fun _ _ => ?_
        refine Ensures.bind fun _ _ => ?_
        refine Ensures.bind fun _ _ => ?_
        refine effects_after before (linkUser_effects ?_)
        exact ⟨⟨_, rfl⟩, rfl, by simp [Client.isDead]⟩

theorem changeNick_effects (found : s.clients.Finds source clientP) :
    Ensures (Effects env Allowed Chan s) (s.changeNick env clientP parv) := by
  unfold changeNick
  split
  · exact Effects.refl
  · rename_i user
    refine Ensures.bind fun nick _ => ?_
    split
    · exact trivial
    · refine Ensures.bind fun tsinfo _ => ?_
      refine Relation.ReflTransGen.trans
        (Effects.one (.rename (CString.strlcpy (hostLen + 1) nick) found
          (by simpa using user))) ?_
      exact Effects.modifyUser clientP _

theorem cNick_effects (found : s.clients.Finds source clientP) :
    Ensures (Effects env Allowed Chan s) (s.cNick env clientP parv) := by
  unfold cNick
  split
  · exact introduceNick_effects
  · split
    · exact changeNick_effects found
    · exact Effects.refl

theorem cUid_effects :
    Ensures (Effects env Allowed Chan s) (s.cUid env clientP parv) := by
  unfold cUid
  split
  · exact Effects.refl
  · refine Ensures.bind fun nick _ => ?_
    refine Ensures.bind fun newts _ => ?_
    split
    · exact trivial
    · refine Outcome.bind (collideNick_effects env Allowed Chan _ _
        fun target found => ⟨nick, Or.inl found⟩) fun result before => ?_
      obtain ⟨t, introduce⟩ := result
      dsimp only at before ⊢
      split
      · exact before
      · refine Ensures.bind fun _ _ => ?_
        refine Ensures.bind fun _ _ => ?_
        refine Ensures.bind fun _ _ => ?_
        refine Ensures.bind fun _ _ => ?_
        refine Ensures.bind fun _ _ => ?_
        refine Ensures.bind fun _ _ => ?_
        refine Ensures.bind fun _ _ => ?_
        refine effects_after before (linkUser_effects ?_)
        refine ⟨⟨_, rfl⟩, rfl, ?_⟩
        simp only [Client.isDead]
        split
        · decide
        · decide

theorem cQuit_effects (found : s.clients.Finds source clientP) :
    Ensures (Effects env Allowed Chan s) (s.cQuit env clientP) := by
  unfold cQuit
  split
  · exact Effects.refl
  · exact exit_effects found

theorem countKill_eq_ok {t : State} (counted : s.countKill now = .ok t) :
    ∃ firstKill numKill,
      t = { s with firstKill := firstKill, numKill := numKill } := by
  unfold countKill at counted
  split at counted
  · cases counted
    exact ⟨_, _, rfl⟩
  · split at counted
    · cases counted
    · cases counted
      exact ⟨_, _, rfl⟩

theorem killService_effects {name : CString} {target : ClientId}
    (allowed : Allowed s .revive) (found : s.clients.Finds name target)
    (service : s.clients.isService target = true) :
    Ensures (Effects env Allowed Chan s) (s.killService env now clientP target) := by
  unfold killService
  refine Ensures.bind fun _ _ => ?_
  refine Ensures.bind fun t counted => ?_
  obtain ⟨firstKill, numKill, rfl⟩ := countKill_eq_ok counted
  have counters : Effects env Allowed Chan s
      { s with firstKill := firstKill, numKill := numKill } :=
    Effects.one (.counters firstKill numKill)
  refine counters.tail (.revive ?_ allowed found service)
  exact ⟨rfl, rfl, (Relinked.refl s).serverP⟩

theorem cKill_effects
    (allowed : s.killsService parv = true → Allowed s .revive) :
    Ensures (Effects env Allowed Chan s) (s.cKill env now clientP parv) := by
  unfold cKill
  split
  · exact Effects.refl
  · rename_i given
    refine Ensures.bind fun name named => ?_
    split
    · exact Effects.refl
    · rename_i target found
      split
      · exact Effects.refl
      · split
        · rename_i service
          refine killService_effects (allowed ?_) (Or.inl found) service
          rw [killsService, param_eq_ok named, found]
          simpa [given] using service
        · exact exit_effects (Or.inl found)

theorem cServerUplink_effects
    (noUplink : ∀ conn, s.serverP = some conn → conn.clientP = none)
    (rejected : ∀ conn, s.serverP = some conn →
      serverRejects conn parv = true → Allowed s .signoff)
    (accepted : ∀ conn, s.serverP = some conn →
      serverRejects conn parv = false → Allowed s .accept) :
    Ensures (Effects env Allowed Chan s) (s.cServerUplink env now parv) := by
  unfold cServerUplink
  refine Ensures.bind fun conn link => ?_
  have here := uplink_eq_ok link
  refine Ensures.bind fun name named => ?_
  have checked : serverRejects conn parv =
      (!conn.flags.has connTs || !CString.irccmp conn.name name) := by
    rw [serverRejects, param_eq_ok named]
  split
  · rename_i noPass
    exact signoff_effects (Relinked.refl s)
      (rejected conn here (by simp [checked, noPass]))
  · rename_i pass
    split
    · rename_i misnamed
      exact signoff_effects (Relinked.refl s)
        (rejected conn here (by simp [checked, misnamed]))
    · rename_i matched
      refine Ensures.bind fun info _ => ?_
      refine Ensures.bind fun sid known => ?_
      refine Ensures.bind fun hops _ => ?_
      have sidSome : conn.sid.isSome = true := by
        cases at_ : conn.sid with
        | some value => rfl
        | none =>
            rw [Lconn.sidOf, at_] at known
            cases known
      have allowed : Allowed s .accept := by
        refine accepted conn here ?_
        rw [checked, Bool.or_eq_false_iff]
        exact ⟨by simpa using pass, by simpa using matched⟩
      refine Effects.one (.accept allowed here (noUplink conn here) sidSome
        ⟨⟨_, rfl⟩, rfl, ?_⟩)
      simp only [Client.isDead]
      split
      · decide
      · decide

variable (now) in
theorem cServer_effects (source : Option ClientId)
    (known : ∀ clientP, source = some clientP →
      ∃ name, s.clients.Finds name clientP)
    (uplink : source = none → 3 ≤ parv.length →
      Ensures (Effects env Allowed Chan s) (s.cServerUplink env now parv)) :
    Ensures (Effects env Allowed Chan s) (s.cServer env now source parv) := by
  unfold cServer
  split
  · exact Effects.refl
  · rename_i enough
    refine Ensures.bind fun name _ => ?_
    split
    · exact trivial
    · split
      · exact uplink rfl (by omega)
      · refine Ensures.bind fun info _ => ?_
        refine Ensures.bind fun hops _ => ?_
        obtain ⟨name, found⟩ := known _ rfl
        refine effects_then (linkLeaf_effects found ?_) fun t _ _ => ?_
        · exact ⟨⟨_, rfl⟩, rfl, by simp [Client.isDead]⟩
        · exact Effects.one (.link fun conn =>
            tame_setFlag conn (by decide))

theorem cSid_effects (found : s.clients.Finds source clientP) :
    Ensures (Effects env Allowed Chan s) (s.cSid clientP parv) := by
  unfold cSid
  split
  · exact Effects.refl
  · refine Ensures.bind fun name _ => ?_
    split
    · exact trivial
    · refine Ensures.bind fun info _ => ?_
      refine Ensures.bind fun sid _ => ?_
      refine Ensures.bind fun hops _ => ?_
      exact linkLeaf_effects found ⟨⟨_, rfl⟩, rfl, by simp [Client.isDead]⟩

theorem cSquit_effects
    (allowed : lacks parv 1 0 = true → Allowed s .exitUplink) :
    Ensures (Effects env Allowed Chan s) (s.cSquit env parv) := by
  unfold cSquit
  split
  · rename_i nameless
    refine Ensures.bind fun conn link => ?_
    refine Ensures.bind fun target present => ?_
    have uplinkP : conn.clientP = some target := by
      unfold nonNull at present
      split at present
      · cases present
        assumption
      · cases present
    exact Ensures.intro fun _ exited =>
      Effects.one (.exitUplink (allowed nameless) (uplink_eq_ok link) uplinkP
        exited)
  · refine Ensures.bind fun name _ => ?_
    split
    · exact Effects.refl
    · rename_i target found
      exact exit_effects (Or.inl (Option.filter_eq_some_iff.mp found).1)

end State

end RatboxServices
