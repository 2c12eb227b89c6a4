import RatboxServices.Net.System

namespace RatboxServices

/-! What the events of the daemon do to the channels. A predicate that a
leaving member, the lines and the acts of the services keep is kept by every
event; a relation that closed what they do holds from start to end of a run. -/

namespace State

section Keeps

variable {env : Env} {P : Chans → Prop} {now : Int} {s : State}

theorem unlinkUp_chans {uplink : ClientId} {change : Server → Server} :
    Ensures (fun t => t.chans = s.chans) (s.unlinkUp uplink change) := by
  unfold unlinkUp
  exact Ensures.bind fun _ _ => rfl

theorem foldl_leave (leave : ∀ mptr s, P s → P (Chans.delChmember mptr s))
    (members : List MemberId) {chans : Chans} (start : P chans) :
    P (members.foldl (fun chans mptr => chans.delChmember mptr) chans) := by
  induction members generalizing chans with
  | nil => exact start
  | cons mptr rest ih => exact ih (leave mptr chans start)

variable (leave : ∀ mptr s, P s → P (Chans.delChmember mptr s))
include leave

theorem exitUser_chans {target : ClientId} {client : Client}
    (start : P s.chans) :
    Ensures (fun t => P t.chans) (s.exitUser target client) := by
  unfold exitUser
  split
  · exact start
  · refine Ensures.bind fun uplink _ => ?_
    refine Outcome.imp unlinkUp_chans fun t same => ?_
    rw [same]
    exact foldl_leave leave _ start

omit leave in
theorem exitServer_chans {exit : ClientId → State → Except Stop State}
    (each : ∀ target s, P s.chans →
      Ensures (fun t => P t.chans) (exit target s))
    {target : ClientId} {client : Client} (start : P s.chans) :
    Ensures (fun t => P t.chans) (s.exitServer exit target client) := by
  unfold exitServer
  split
  · exact start
  · refine Ensures.bind fun server _ => ?_
    refine Outcome.bind (Outcome.foldlM (fun t => P t.chans) start
      fun t kept user _ => each user t kept) fun t kept => ?_
    refine Ensures.bind fun server _ => ?_
    refine Outcome.bind (Outcome.foldlM (fun t => P t.chans) kept
      fun t kept leaf _ => each leaf t kept) fun t kept => ?_
    split
    · exact kept
    · refine Outcome.imp unlinkUp_chans fun u same => ?_
      rw [same]
      exact kept

theorem exitClient_chans {wild : Clients.Wild} (depth : Nat)
    (target : ClientId) (s : State) (start : P s.chans) :
    Ensures (fun t => P t.chans) (exitClient wild depth target s) := by
  induction depth generalizing target s with
  | zero => exact trivial
  | succ depth ih =>
      unfold exitClient
      refine Ensures.bind fun client _ => ?_
      split
      · exact start
      · exact Outcome.bind (exitServer_chans ih start) fun t kept => kept
      · exact Outcome.bind (exitUser_chans leave start) fun t kept => kept

theorem exit_chans {target : ClientId} (start : P s.chans) :
    Ensures (fun t => P t.chans) (s.exit env target) :=
  exitClient_chans leave _ _ _ start

theorem signoffServer_chans (start : P s.chans) :
    Ensures (fun t => P t.chans) (s.signoffServer env) := by
  unfold signoffServer
  refine Ensures.bind fun conn _ => ?_
  split
  · exact start
  · split
    · exact start
    · exact exit_chans leave start

theorem readAny_chans {received : Bool} {finish : ReadEnd}
    (start : P s.chans) :
    Ensures (fun t => P t.chans) (s.readAny env now received finish) := by
  have noted : P (s.noteData now received).chans := by
    unfold noteData
    split
    · exact start
    · exact start
  unfold readAny
  dsimp only
  split
  · exact noted
  · exact signoffServer_chans leave noted
  · exact signoffServer_chans leave noted

theorem checkServerStatus_chans (start : P s.chans) :
    Ensures (fun t => P t.chans) (s.checkServerStatus env now) := by
  have signed : Ensures (fun t => P t.chans) (s.signoffServer env) :=
    signoffServer_chans leave start
  unfold checkServerStatus
  split
  · exact start
  · split
    · unfold dropServer
      refine Outcome.bind ?_ fun t kept => kept
      unfold State.exitUplink
      split
      · exact start
      · split
        · exact start
        · exact exit_chans leave start
    · split
      · exact signed
      · split
        · exact signed
        · split
          · exact signed
          · split
            · exact signed
            · split
              · exact start
              · exact start

def LineKeeps (env : Env) (now : Int) (P : Chans → Prop) (s : State)
    (line : Incoming) : Prop :=
  P s.chans → Ensures (fun t => P t.chans) (readTurn env now s line)

def ServiceKeeps (env : Env) (P : Chans → Prop) (s : State) :
    Event → Prop
  | .service now act =>
      P s.chans → Ensures (fun t => P t.chans) (execService env now s act)
  | _ => True

theorem step_chans {event : Event}
    (meets : MeetsLines env (LineKeeps env event.now P) s event)
    (acts : ServiceKeeps env P s event) (start : P s.chans) :
    Ensures (fun t => P t.chans) (s.step env event) := by
  cases event with
  | read now fragment finish lines =>
      unfold step
      dsimp only
      split
      · rename_i reading
        refine Ensures.intro fun t read => ?_
        obtain ⟨after, first, ended⟩ := readServer_eq_ok read
        have begun : P after.chans := (readAny_chans leave start).of_ok first
        obtain rfl | ran := ended
        · exact begun
        · exact run_preserves_of_meets (fun t => P t.chans)
            (fun s line t keeps kept turned => (keeps kept).of_ok turned)
            (meets reading after first) begun ran
      · exact start
  | tick now => exact checkServerStatus_chans leave start
  | connect now conf =>
      unfold step connectToServer
      dsimp only
      split
      · exact start
      · split
        · exact start
        · split
          · exact trivial
          · exact start
  | connected writeFails =>
      show P (State.chans _)
      split
      · exact start
      · exact start
  | connectFailed timeout =>
      unfold step
      dsimp only
      split
      · exact signoffServer_chans leave start
      · exact start
  | writeError => exact start
  | reroute =>
      unfold step uConnect
      dsimp only
      split
      · exact start
      · split
        · exact start
        · exact signoffServer_chans leave start
  | rehash settings pingTime =>
      show P (State.chans _)
      rw [congrArg State.chans (rehash_eq env settings pingTime s)]
      exact start
  | boot name =>
      show P (s.uBoot name).chans
      rw [uBoot_chans]
      exact start
  | service now act => exact acts start

end Keeps

section Related

variable {env : Env} {Allowed : State → Hazard → Prop}
  {Chan : Chans → Chans → Prop} {now : Int} {r : Chans} {s t : State}

theorem Effect.moved (closed : Closed Chan)
    (effect : Effect env Allowed Chan s t) (before : Chan r s.chans) :
    Chan r t.chans := by
  have leave : ∀ mptr s, Chan r s → Chan r (Chans.delChmember mptr s) :=
    fun mptr s before => closed.trans before (closed.leave mptr s)
  cases effect with
  | chans moved kept => exact closed.trans before moved
  | strand allowed moved kept => exact closed.trans before moved
  | client benign => exact before
  | counters firstKill numKill => exact before
  | exit found exited => exact (exit_chans leave before).of_ok exited
  | exitUplink allowed link uplink exited =>
      exact (exit_chans leave before).of_ok exited
  | linkUser new linked =>
      obtain ⟨leaf, _, rfl⟩ := linkUser_eq_ok linked
      exact before
  | linkLeaf found new linked =>
      obtain ⟨leaf, _, rfl⟩ := linkLeaf_eq_ok linked
      exact before
  | rename name found user => exact before
  | revive before_ allowed found service => exact before
  | link tame => exact before
  | signoff before_ allowed signed =>
      exact (signoffServer_chans leave before).of_ok signed
  | accept allowed link noUplink sid new => exact before

def LineFits (env : Env) (now : Int) (Chan : Chans → Chans → Prop)
    (s : State) (line : Incoming) : Prop :=
  ∀ command clientP parv,
    lineCall env s line.text = some (command, clientP, parv) →
      CallFits env Chan now clientP parv s command

def ActFits (Chan : Chans → Chans → Prop) (s : State) : Event → Prop
  | .service now act => ServiceFits Chan now s act
  | _ => True

structure EventFits (env : Env) (Chan : Chans → Chans → Prop) (s : State)
    (event : Event) : Prop where
  act : ActFits Chan s event
  lines : MeetsLines env (LineFits env event.now Chan) s event

theorem readTurn_moved {line : Incoming} (closed : Closed Chan)
    (fits : LineFits env now Chan s line) (before : Chan r s.chans) :
    Ensures (fun t => Chan r t.chans) (readTurn env now s line) := by
  have effects : Ensures (Effects env (fun _ _ => True) Chan s)
      (readLine env now s line.text) :=
    readLine_effects closed fits fun _ _ => trivial
  unfold readTurn
  refine Outcome.bind effects fun t effects => ?_
  have kept : Chan r t.chans :=
    effects.preserves (P := fun t => Chan r t.chans)
      (fun _ _ effect => effect.moved closed) before
  show Chan r (State.chans _)
  split
  · exact kept
  · exact kept

theorem actFits_keeps {event : Event} (closed : Closed Chan)
    (fits : ActFits Chan s event) : ServiceKeeps env (Chan r) s event := by
  cases event with
  | service now act =>
      intro before
      have effects : Ensures (Effects env (fun _ _ => True) Chan s)
          (execService env now s act) := execService_effects act fits
      refine Outcome.imp effects fun t effects => ?_
      exact effects.preserves (P := fun t => Chan r t.chans)
        (fun _ _ effect => effect.moved closed) before
  | _ => exact trivial

theorem step_moved {event : Event} (closed : Closed Chan)
    (fits : EventFits env Chan s event) :
    Ensures (fun t => Chan s.chans t.chans) (s.step env event) := by
  refine step_chans (P := Chan s.chans) ?_ ?_ (actFits_keeps closed fits.act)
    (closed.refl s.chans)
  · exact fun mptr u before => closed.trans before (closed.leave mptr u)
  · exact fits.lines.mono fun u line fits before =>
      readTurn_moved closed fits before

theorem run_moved {events : List Event} (closed : Closed Chan)
    (fits : Meets (step env) (EventFits env Chan) s events)
    (reached : run (step env) s events = .ok t) : Chan s.chans t.chans :=
  run_preserves_of_meets (fun u => Chan s.chans u.chans)
    (fun _ _ _ fits before stepped =>
      closed.trans before ((step_moved closed fits).of_ok stepped))
    fits (closed.refl _) reached

/-- The state is there while the event is handled: before it, or between two
lines of a read. -/
inductive Moment (env : Env) (s : State) : Event → State → Prop where
  | before (event : Event) : Moment env s event s
  | line {now : Int} {fragment : Bool} {finish : ReadEnd}
      {first rest : List Incoming} {u : State} (reading : s.isReading = true)
      (read : s.readServer env now (fragment || !(first ++ rest).isEmpty)
        finish first = .ok u) :
      Moment env s (.read now fragment finish (first ++ rest)) u

theorem moved_moment {event : Event} {u : State} (closed : Closed Chan)
    (fits : EventFits env Chan s event) (moment : Moment env s event u) :
    Chan s.chans u.chans := by
  cases moment with
  | before => exact closed.refl _
  | @line now fragment finish first rest _ reading read =>
      have lines := fits.lines reading
      have same : (fragment || !(first ++ rest).isEmpty) =
          ((fragment || !(first ++ rest).isEmpty) || !first.isEmpty) := by
        cases first with
        | nil => simp
        | cons line others => simp
      -- the state is the one after the read that ends here
      have cut : EventFits env Chan s (.read now
          (fragment || !(first ++ rest).isEmpty) finish first) :=
        ⟨trivial, fun _ after begun => (lines after (same ▸ begun)).left⟩
      have ended : s.step env (.read now
          (fragment || !(first ++ rest).isEmpty) finish first) = .ok u := by
        simp only [step, if_pos reading]
        rw [← same]
        exact read
      exact (step_moved closed cut).of_ok ended

theorem moment_moved {event : Event} {u : State} (closed : Closed Chan)
    (fits : EventFits env Chan s event) (moment : Moment env s event u)
    (stepped : s.step env event = .ok t) : Chan u.chans t.chans := by
  cases moment with
  | before => exact (step_moved closed fits).of_ok stepped
  | @line now fragment finish first rest _ reading read =>
      simp only [step, if_pos reading] at stepped
      obtain ⟨after, begun, rfl | ⟨head, tail⟩⟩ := readServer_cut stepped read
      · exact closed.refl _
      · exact run_preserves_of_meets (fun v => Chan u.chans v.chans)
          (fun _ _ _ fits before turned =>
            (readTurn_moved closed fits before).of_ok turned)
          ((fits.lines reading after begun).after head) (closed.refl _) tail

theorem run_moved_from {event : Event} {later : List Event} {u v : State}
    (closed : Closed Chan)
    (fits : Meets (step env) (EventFits env Chan) s (event :: later))
    (moment : Moment env s event u)
    (reached : run (step env) s (event :: later) = .ok v) :
    Chan u.chans v.chans := by
  obtain ⟨after, stepped, rest⟩ := run_cons_eq_ok.mp reached
  exact closed.trans (moment_moved closed fits.1 moment stepped)
    (run_moved closed (fits.2 after stepped) rest)

end Related

end State

end RatboxServices
