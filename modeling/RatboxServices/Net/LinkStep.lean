import RatboxServices.Net.ExitFrame
import RatboxServices.Net.System

namespace RatboxServices

/-! What each event can do to the connection of the uplink. -/

namespace Lconn

inductive Step : Lconn → Lconn → Prop where
  | tame {old new : Lconn} (tame : Tame old new) : Step old new
  | givenUp {old : Lconn} (live : old.dead = false) : Step old old.giveUp
  | accepted {old : Lconn} (now : Int) (target : ClientId)
      (noUplink : old.clientP = none) (sid : old.sid.isSome = true) :
      Step old ((old.introduce now target).setFlag connFlagsSentburst)
  | failed (old : Lconn) : Step old (old.setFlag connDead)
  | pinged (old : Lconn) : Step old (old.setFlag connSentping)
  | answered (old : Lconn) : Step old (old.clearFlag connSentping)
  | noted (old : Lconn) (now : Int) :
      Step old { old with lastData := some now }
  | signedOn {old : Lconn} (writeFails : Bool) (live : old.dead = false) :
      Step old (old.signOn writeFails)

abbrev Steps : Lconn → Lconn → Prop :=
  Relation.ReflTransGen Step

end Lconn

namespace State

variable {env : Env} {Allowed : State → Hazard → Prop}
  {Chan : Chans → Chans → Prop} {now : Int}
  {s t : State}

def Stays (s t : State) : Prop :=
  ∀ conn, t.serverP = some conn →
    ∃ before, s.serverP = some before ∧ Lconn.Steps before conn

namespace Stays

variable {r : State}

theorem of_eq (same : t.serverP = s.serverP) : Stays s t :=
  fun conn here => ⟨conn, same ▸ here, .refl⟩

theorem refl (s : State) : Stays s s :=
  of_eq rfl

theorem gone (absent : t.serverP = none) : Stays s t := by
  intro conn here
  rw [absent] at here
  cases here

theorem onLink {change : Lconn → Lconn}
    (steps : ∀ conn, Lconn.Steps conn (change conn)) :
    Stays s (s.onLink change) := by
  intro conn here
  obtain ⟨before, there, rfl⟩ := Option.map_eq_some_iff.mp here
  exact ⟨before, there, steps before⟩

theorem trans (first : Stays r s) (second : Stays s t) : Stays r t := by
  intro conn here
  obtain ⟨middle, there, later⟩ := second conn here
  obtain ⟨before, start, earlier⟩ := first middle there
  exact ⟨before, start, earlier.trans later⟩

end Stays

theorem Relinked.offline {r : State} (before : Relinked r s) :
    s.offline = r.offline := by
  have rel := before.serverP
  unfold State.offline
  generalize r.serverP = old at rel
  generalize s.serverP = new at rel
  cases rel with
  | none => rfl
  | some tame => exact tame.dead

theorem one_step {old new : Lconn} (step : Lconn.Step old new) :
    Lconn.Steps old new :=
  Relation.ReflTransGen.single step

theorem exit_stays {target : ClientId} :
    Ensures (Stays s) (s.exit env target) :=
  Outcome.imp exit_frame fun _ frame => Stays.of_eq frame.serverP

theorem signoffServer_stays : Ensures (Stays s) (s.signoffServer env) := by
  unfold signoffServer
  refine Ensures.bind fun conn link => ?_
  split
  · exact Stays.refl s
  · rename_i live
    have given : Stays s (s.signoffState env) := by
      intro after here
      obtain ⟨before, there, rfl⟩ := Option.map_eq_some_iff.mp here
      rw [uplink_eq_ok link, Option.some.injEq] at there
      subst there
      exact ⟨conn, uplink_eq_ok link,
        one_step (.givenUp (by simpa using live))⟩
    split
    · exact given
    · exact Outcome.imp exit_stays fun _ exited => given.trans exited

theorem Effect.stays (effect : Effect env Allowed Chan s t) : Stays s t := by
  cases effect with
  | chans moved kept => exact Stays.of_eq rfl
  | strand allowed moved kept => exact Stays.of_eq rfl
  | client benign => exact Stays.of_eq rfl
  | counters firstKill numKill => exact Stays.of_eq rfl
  | exit found exited => exact exit_stays.of_ok exited
  | exitUplink allowed link uplink exited => exact exit_stays.of_ok exited
  | linkUser new linked =>
      obtain ⟨leaf, _, rfl⟩ := linkUser_eq_ok linked
      exact Stays.of_eq rfl
  | linkLeaf found new linked =>
      obtain ⟨leaf, _, rfl⟩ := linkLeaf_eq_ok linked
      exact Stays.of_eq rfl
  | rename name found user => exact Stays.of_eq rfl
  | revive before allowed found service => exact Stays.of_eq rfl
  | link tame => exact Stays.onLink fun conn => one_step (.tame (tame conn))
  | signoff before allowed signed => exact signoffServer_stays.of_ok signed
  | accept allowed link noUplink sid new =>
      rename_i conn now client
      intro after here
      have here : (s.serverP.map (Lconn.introduce now
          s.clients.client.next)).map (Lconn.setFlag connFlagsSentburst) =
            some after := here
      rw [link] at here
      cases here
      exact ⟨conn, link, one_step (.accepted now _ noUplink sid)⟩

theorem Effects.stays (effects : Effects env Allowed Chan s t) : Stays s t :=
  effects.relates Stays.refl fun _ _ _ before effect =>
    before.trans effect.stays

theorem writeError_stays : Stays s s.writeError :=
  Stays.onLink fun conn => one_step (.failed conn)

theorem readTurn_stays {line : Incoming} :
    Ensures (Stays s) (readTurn env now s line) := by
  have effects : Ensures (Effects env (fun _ _ => True)
      (fun _ _ => True) s)
      (readLine env now s line.text) := readLine_effects_true fun _ _ => trivial
  unfold readTurn
  refine Outcome.bind effects fun t effects => ?_
  show Stays s (if line.writeFails then t.writeError else t)
  split
  · exact effects.stays.trans writeError_stays
  · exact effects.stays

theorem noteData_stays {received : Bool} :
    Stays s (s.noteData now received) := by
  unfold noteData
  split
  · exact Stays.onLink fun conn => one_step (.noted conn now)
  · exact Stays.refl s

theorem readAny_stays {received : Bool} {finish : ReadEnd} :
    Ensures (Stays s) (s.readAny env now received finish) := by
  unfold readAny
  dsimp only
  split
  · exact noteData_stays
  · exact Outcome.imp signoffServer_stays fun _ signed =>
      noteData_stays.trans signed
  · exact Outcome.imp signoffServer_stays fun _ signed =>
      noteData_stays.trans signed

theorem readServer_stays {received : Bool} {finish : ReadEnd}
    {lines : List Incoming} :
    Ensures (Stays s) (s.readServer env now received finish lines) := by
  refine Ensures.intro fun t read => ?_
  obtain ⟨after, first, ended⟩ := readServer_eq_ok read
  have begun := readAny_stays.of_ok first
  obtain rfl | ran := ended
  · exact begun
  · refine run_preserves (Stays s) (fun _ _ _ before turned =>
      before.trans (readTurn_stays.of_ok turned)) ?_ ran
    exact begun.trans (Stays.onLink fun conn => one_step (.answered conn))

theorem checkServerStatus_stays :
    Ensures (Stays s) (s.checkServerStatus env now) := by
  have signed : Ensures (Stays s) (s.signoffServer env) := signoffServer_stays
  unfold checkServerStatus
  split
  · exact Stays.refl s
  · split
    · unfold dropServer
      exact Ensures.bind fun _ _ => Stays.gone rfl
    · split
      · exact signed
      · split
        · exact signed
        · split
          · exact signed
          · split
            · exact signed
            · split
              · exact Stays.onLink fun conn => one_step (.pinged conn)
              · exact Stays.refl s

/-- Only `connect_to_server` makes a connection. -/
theorem step_link {event : Event} :
    Ensures (fun t => Stays s t ∨ (s.serverP = none ∧
      ∃ name pass now, t.serverP = some (.fresh name pass now)))
      (s.step env event) := by
  cases event with
  | read now fragment finish lines =>
      unfold step
      dsimp only
      split
      · exact Outcome.imp readServer_stays fun _ => Or.inl
      · exact Or.inl (Stays.refl s)
  | tick now => exact Outcome.imp checkServerStatus_stays fun _ => Or.inl
  | connect now conf =>
      unfold step connectToServer
      dsimp only
      split
      · exact Or.inl (Stays.refl s)
      · split
        · exact Or.inl (Stays.of_eq rfl)
        · rename_i absent
          split
          · exact trivial
          · exact Or.inr ⟨absent, _, _, _, rfl⟩
  | connected writeFails =>
      refine Or.inl ?_
      split
      · rename_i awaiting
        intro after here
        obtain ⟨conn, link, rfl⟩ := Option.map_eq_some_iff.mp here
        refine ⟨conn, link, one_step (.signedOn writeFails ?_)⟩
        rw [isAwaiting, link, Bool.and_eq_true] at awaiting
        simpa using awaiting.2
      · exact Stays.refl s
  | connectFailed timeout =>
      unfold step
      dsimp only
      split
      · exact Outcome.imp signoffServer_stays fun _ => Or.inl
      · exact Or.inl (Stays.refl s)
  | writeError => exact Or.inl writeError_stays
  | reroute =>
      unfold step uConnect
      dsimp only
      split
      · exact Or.inl (Stays.refl s)
      · split
        · exact Or.inl (Stays.refl s)
        · exact Outcome.imp signoffServer_stays fun _ => Or.inl
  | boot name =>
      have effects : Effects env (fun _ _ => True) (fun _ _ => True)
          s (s.uBoot name) :=
        uBoot_effects name s
      exact Or.inl effects.stays
  | rehash settings pingTime =>
      have link := congrArg State.serverP (rehash_eq env settings pingTime s)
      exact Or.inl (Stays.of_eq link)
  | service now act =>
      have effects : Ensures (Effects env (fun _ _ => True)
      (fun _ _ => True) s)
          (execService env now s act) := execService_effects_true act
      exact Outcome.imp effects fun _ effects => Or.inl effects.stays

/-- What holds of a new connection and is kept by every change holds of the
connection in every state reached. -/
theorem link_of_run {blocks : List ServiceBlock} {pingTime : Int}
    {events : List Event} {P : Lconn → Prop}
    (fresh : ∀ name pass now, P (.fresh name pass now))
    (kept : ∀ old new, Lconn.Step old new → P old → P new)
    (reached : run (step env) (start blocks pingTime) events = .ok s)
    {conn : Lconn} (link : s.serverP = some conn) : P conn := by
  have always : ∀ old new, Lconn.Steps old new → P old → P new := by
    intro old new steps start
    induction steps with
    | refl => exact start
    | tail _ step ih => exact kept _ _ step ih
  refine run_preserves (fun t => ∀ conn, t.serverP = some conn → P conn)
    (fun s event t holds stepped conn here => ?_) ?_ reached conn link
  · obtain stays | ⟨_, name, pass, now, new⟩ := step_link.of_ok stepped
    · obtain ⟨before, there, steps⟩ := stays conn here
      exact always before conn steps (holds before there)
    · rw [new] at here
      cases here
      exact fresh name pass now
  · intro conn impossible
    cases impossible

end State

end RatboxServices
