import RatboxServices.Net.LinkStep

namespace RatboxServices

/-! The ping timeout of the uplink. `read_any` never reaches its assignment to
`last_time`, so the timeout is measured from the opening of the connection. -/

namespace State

variable {env : Env} {s : State}

def healthy (now : Int) (s : State) (conn : Lconn) : Bool :=
  !conn.dead && !s.uplinkExited conn && !connectTimedOut now conn &&
    !handshakeTimedOut now conn

def pingDrops (now : Int) (s : State) : Bool :=
  match s.serverP with
  | none => false
  | some conn => s.healthy now conn && pingTimedOut now s.pingTime conn

/-- No data came from the uplink in the last `ping_time` seconds. -/
def silent (now : Int) (s : State) : Bool :=
  match s.serverP with
  | none => true
  | some conn =>
      match conn.lastData with
      | none => true
      | some last => decide (last + s.pingTime ≤ now)

/-- A `PING` is out since the last read, on a link that was opened twice the
ping time ago, and still data came within the ping time. -/
def slowAnswer (now : Int) (s : State) : Bool :=
  match s.serverP with
  | none => false
  | some conn =>
      s.healthy now conn && conn.flags.has connSentping &&
        decide (conn.opened + s.pingTime * 2 ≤ now) && !s.silent now

theorem lastTime_step {old new : Lconn} (step : Lconn.Step old new)
    (before : old.lastTime = old.opened) : new.lastTime = new.opened := by
  cases step with
  | tame tame => rw [tame.lastTime, tame.opened, before]
  | givenUp live => exact before
  | accepted now target noUplink sid => exact before
  | failed => exact before
  | pinged => exact before
  | answered => exact before
  | noted now => exact before
  | signedOn writeFails live =>
      unfold Lconn.signOn
      dsimp only
      split
      · exact before
      · exact before

theorem lastTime_eq_opened {blocks : List ServiceBlock} {pingTime : Int}
    {events : List Event}
    (reached : run (step env) (start blocks pingTime) events = .ok s)
    {conn : Lconn} (link : s.serverP = some conn) :
    conn.lastTime = conn.opened :=
  link_of_run (fun _ _ _ => rfl) (fun _ _ => lastTime_step) reached link

/-- A tick drops the link for a ping timeout only after a silence, exactly when
it does not find a slow answer. -/
theorem pingDrops_silent_iff (env : Env) (blocks : List ServiceBlock)
    (pingTime : Int) (events : List Event) (s : State)
    (reached : run (step env) (start blocks pingTime) events = .ok s)
    (now : Int) :
    (s.pingDrops now = true → s.silent now = true) ↔
      s.slowAnswer now = false := by
  cases link : s.serverP with
  | none => simp [pingDrops, slowAnswer, link]
  | some conn =>
      have opened := lastTime_eq_opened reached link
      simp only [pingDrops, slowAnswer, link, pingTimedOut, opened]
      cases s.healthy now conn <;> cases conn.flags.has connSentping <;>
        cases decide (conn.opened + s.pingTime * 2 ≤ now) <;>
          cases s.silent now <;> simp

/-- Data at 589, a `PING` at 590, and the tick at 600 comes before the
answer. -/
def lateTicks : List Event :=
  linkUp [] ++ [.read 589 true .again [], .tick 590]

theorem pingDrops_silent_iff_lateTicks :
    ∃ s, run (step .quiet) (start [] 300) lateTicks = .ok s ∧
      s.slowAnswer 600 = true ∧ s.slowAnswer 595 = false ∧
      (s.pingDrops 595 = true → s.silent 595 = true) := by
  have observed : (run (step .quiet) (start [] 300) lateTicks).toOption.map
      (fun s => (s.slowAnswer 600, s.slowAnswer 595)) =
        some (true, false) := by
    decide +kernel
  obtain ⟨s, reached, seen⟩ := Except.exists_of_observed observed
  rw [Prod.mk.injEq] at seen
  exact ⟨s, reached, seen.1, seen.2,
    (pingDrops_silent_iff .quiet [] 300 _ s reached 595).mpr seen.2⟩

theorem pingDrops_not_silent :
    ∃ s, run (step .quiet) (start [] 300) lateTicks = .ok s ∧
      s.pingDrops 600 = true ∧ s.silent 600 = false := by
  have observed : (run (step .quiet) (start [] 300) lateTicks).toOption.map
      (fun s => (s.pingDrops 600, s.silent 600)) = some (true, false) := by
    decide +kernel
  obtain ⟨s, reached, seen⟩ := Except.exists_of_observed observed
  rw [Prod.mk.injEq] at seen
  exact ⟨s, reached, seen.1, seen.2⟩

end State

end RatboxServices
