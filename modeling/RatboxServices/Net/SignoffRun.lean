import RatboxServices.Net.Dcc
import RatboxServices.Net.LinkStep

namespace RatboxServices

open CString

/-! What comes after a connection was signed off. The loops of `read_server` and
`read_client` test a flag that `signoff_server` and `signoff_client` do not set,
so the lines that are left in the queue are parsed all the same. -/

variable {line : DccLine}

namespace Lconn

/-- A connection that was signed off is dead and not read any more, and our
uplink is only introduced on a connection that gave its password. -/
structure Sound (conn : Lconn) : Prop where
  dead : conn.signedOff = true → conn.dead = true
  closed : conn.signedOff = true → conn.reading = false
  sid : conn.sid.isSome = true → conn.passed = true
  uplink : conn.clientP.isSome = true → conn.passed = true

namespace Sound

variable {old new : Lconn}

theorem fresh (name pass : CString) (now : Int) :
    Sound (.fresh name pass now) := by
  constructor <;> intro impossible <;> cases impossible

theorem tame (sound : Sound old) (tame : Tame old new) : Sound new where
  dead := by
    rw [tame.signedOff, tame.dead]
    exact sound.dead
  closed := by
    rw [tame.signedOff, tame.reading]
    exact sound.closed
  sid := by
    intro given
    obtain same | passed := tame.sid
    · rw [same] at given
      exact tame.passed (sound.sid given)
    · exact passed
  uplink := by
    rw [tame.clientP]
    exact fun given => tame.passed (sound.uplink given)

theorem setFlag (sound : Sound old) (bit : Nat) : Sound (old.setFlag bit) where
  dead := fun signed => dead_setFlag (sound.dead signed)
  closed := sound.closed
  sid := sound.sid
  uplink := sound.uplink

theorem clearFlag (sound : Sound old) {bit : Nat} (other : bit ≠ connDead) :
    Sound (old.clearFlag bit) where
  dead := by
    rw [dead_clearFlag other]
    exact sound.dead
  closed := sound.closed
  sid := sound.sid
  uplink := sound.uplink

theorem step (step : Step old new) (sound : Sound old) : Sound new := by
  cases step with
  | tame tame => exact sound.tame tame
  | givenUp live =>
      exact ⟨fun _ => dead_giveUp old, fun _ => rfl, sound.sid,
        sound.uplink⟩
  | accepted now target noUplink sid =>
      have passed := sound.sid sid
      have cleared : Sound (old.clearFlag connHandshake) :=
        sound.clearFlag (by decide)
      have introduced : Sound (old.introduce now target) :=
        ⟨cleared.dead, cleared.closed, cleared.sid, fun _ => passed⟩
      exact introduced.setFlag _
  | failed => exact sound.setFlag _
  | pinged => exact sound.setFlag _
  | answered => exact sound.clearFlag (by decide)
  | noted now => exact ⟨sound.dead, sound.closed, sound.sid, sound.uplink⟩
  | signedOn writeFails live =>
      have unsigned : old.signedOff = false := by
        by_contra signed
        rw [sound.dead (by simpa using signed)] at live
        cases live
      have marked : Sound ((old.clearFlag connConnecting).setFlag
          connHandshake) := (sound.clearFlag (by decide)).setFlag _
      unfold signOn
      dsimp only
      split
      · exact marked.setFlag _
      · refine ⟨marked.dead, fun signed => ?_, marked.sid, marked.uplink⟩
        have signed : old.signedOff = true := signed
        rw [unsigned] at signed
        cases signed

end Sound

end Lconn

namespace State

variable {env : Env} {now : Int} {s t : State}

theorem sound_of_run {blocks : List ServiceBlock} {pingTime : Int}
    {events : List Event}
    (reached : run (step env) (start blocks pingTime) events = .ok s)
    {conn : Lconn} (link : s.serverP = some conn) : conn.Sound :=
  link_of_run Lconn.Sound.fresh (fun _ _ => Lconn.Sound.step) reached link

def signedOff (s : State) : Bool :=
  match s.serverP with
  | some conn => conn.signedOff
  | none => false

def signsOff (env : Env) (s : State) (line : Incoming) : Bool :=
  !s.offline && decide (lineHazard env s line.text = some .signoff)

/-- The read does not end a live connection and bring lines too, and a line
that signs the connection off is the last one. -/
def SignsLast (env : Env) (s : State) : Event → Prop
  | .read now fragment finish lines =>
      s.isReading = true →
        (finish ≠ .again → s.offline = false → lines = []) ∧
        ∀ after,
          s.readAny env now (fragment || !lines.isEmpty) finish = .ok after →
            FinalLast (readTurn env now) (signsOff env)
              (after.onLink (·.clearFlag connSentping)) lines
  | _ => True

instance (env : Env) (s : State) (event : Event) :
    Decidable (SignsLast env s event) :=
  match event with
  | .read now fragment finish lines =>
      have : Decidable (∀ after,
          s.readAny env now (fragment || !lines.isEmpty) finish =
            .ok after →
          FinalLast (readTurn env now) (signsOff env)
            (after.onLink (·.clearFlag connSentping)) lines) :=
        Except.decidableForall fun _ => inferInstance
      inferInstanceAs (Decidable (_ → _ ∧ _))
  | .tick _ => isTrue trivial
  | .connect _ _ => isTrue trivial
  | .connected _ => isTrue trivial
  | .connectFailed _ => isTrue trivial
  | .writeError => isTrue trivial
  | .reroute => isTrue trivial
  | .boot _ => isTrue trivial
  | .rehash _ _ => isTrue trivial
  | .service _ _ => isTrue trivial

theorem signedOff_onLink (change : Lconn → Lconn)
    (same : ∀ conn, (change conn).signedOff = conn.signedOff) :
    (s.onLink change).signedOff = s.signedOff := by
  unfold signedOff onLink
  cases s.serverP with
  | none => rfl
  | some conn => exact same conn

theorem signedOff_of_serverP (link : t.serverP = s.serverP) :
    t.signedOff = s.signedOff := by
  unfold signedOff
  rw [link]

theorem signoffServer_dead (off : s.offline = true) :
    Ensures (· = s) (s.signoffServer env) := by
  unfold signoffServer
  refine Ensures.bind fun conn link => ?_
  split
  · exact rfl
  · rename_i live
    simp [offline, uplink_eq_ok link, live] at off

def KeepsSigned (r : State) (hazard : Hazard) : Prop :=
  hazard = .signoff → r.offline = true

theorem Effect.signedOff (effect : Effect env KeepsSigned Chan s t) :
    t.signedOff = s.signedOff := by
  cases effect with
  | chans moved kept => rfl
  | strand allowed moved kept => rfl
  | client benign => rfl
  | counters firstKill numKill => rfl
  | exit found exited =>
      exact signedOff_of_serverP (exit_frame.of_ok exited).serverP
  | exitUplink allowed link uplink exited =>
      exact signedOff_of_serverP (exit_frame.of_ok exited).serverP
  | linkUser new linked =>
      obtain ⟨leaf, _, rfl⟩ := linkUser_eq_ok linked
      rfl
  | linkLeaf found new linked =>
      obtain ⟨leaf, _, rfl⟩ := linkLeaf_eq_ok linked
      rfl
  | rename name found user => rfl
  | revive before allowed found service => rfl
  | link tame => exact signedOff_onLink _ fun conn => (tame conn).signedOff
  | signoff before allowed signed =>
      have off := before.offline.trans (allowed rfl)
      rw [(signoffServer_dead off).of_ok signed]
  | accept allowed link noUplink sid new =>
      rename_i conn now client
      have introduced := signedOff_onLink (s := s)
        (Lconn.introduce now s.clients.client.next) fun _ => rfl
      exact (signedOff_onLink (Lconn.setFlag connFlagsSentburst)
        fun _ => rfl).trans introduced

theorem readTurn_signedOff {line : Incoming}
    (stays : s.signsOff env line = false) :
    Ensures (fun t => t.signedOff = s.signedOff) (readTurn env now s line) := by
  have effects : Ensures (Effects env KeepsSigned (fun _ _ => True) s)
      (readLine env now s line.text) := by
    refine readLine_effects_true fun hazard given same => ?_
    subst same
    simpa [signsOff, given] using stays
  unfold readTurn
  refine Outcome.bind effects fun t effects => ?_
  have kept : t.signedOff = s.signedOff :=
    effects.relates (R := fun s t => t.signedOff = s.signedOff) (fun _ => rfl)
      fun _ _ _ before effect => effect.signedOff.trans before
  show (if line.writeFails then t.writeError else t).signedOff = s.signedOff
  split
  · exact (signedOff_onLink (Lconn.setFlag connDead) fun _ => rfl).trans kept
  · exact kept

theorem noteData_signedOff {received : Bool} :
    (s.noteData now received).signedOff = s.signedOff := by
  unfold noteData
  split
  · exact signedOff_onLink _ fun _ => rfl
  · rfl

theorem noteData_offline {received : Bool} :
    (s.noteData now received).offline = s.offline := by
  unfold noteData
  split
  · unfold offline onLink
    cases s.serverP <;> rfl
  · rfl

theorem readAny_signedOff {received : Bool} {finish : ReadEnd}
    (stays : finish = .again ∨ s.offline = true) :
    Ensures (fun t => t.signedOff = s.signedOff)
      (s.readAny env now received finish) := by
  have ended (off : s.offline = true) :
      Ensures (fun t => t.signedOff = s.signedOff)
        ((s.noteData now received).signoffServer env) := by
    refine Outcome.imp (signoffServer_dead (noteData_offline.trans off))
      fun t same => ?_
    rw [same, noteData_signedOff]
  unfold readAny
  dsimp only
  split
  · exact noteData_signedOff
  · exact ended (stays.resolve_left (by simp))
  · exact ended (stays.resolve_left (by simp))

theorem meetsLines_of_signsLast {event : Event}
    (sound : ∀ conn, s.serverP = some conn → conn.Sound)
    (last : SignsLast env s event) :
    MeetsLines env (fun s _ => s.signedOff = false) s event := by
  cases event with
  | read now fragment finish lines =>
      intro reading after first
      obtain ⟨ending, turns⟩ := last reading
      have fine : s.signedOff = false := by
        unfold State.signedOff
        unfold isReading at reading
        cases link : s.serverP with
        | none => rfl
        | some conn =>
            rw [link] at reading
            have reading : conn.reading = true := reading
            cases signed : conn.signedOff with
            | false => exact signed
            | true =>
                have closed := (sound conn link).closed signed
                rw [closed] at reading
                cases reading
      by_cases stays : finish = .again ∨ s.offline = true
      · have begun := (readAny_signedOff stays).of_ok first
        refine FinalLast.meets (fun s => s.signedOff = false)
          (fun _ _ _ good ends turned => ?_) (turns after first) ?_
        · rw [(readTurn_signedOff ends).of_ok turned, good]
        · have cleared := signedOff_onLink (s := after)
            (Lconn.clearFlag connSentping) fun _ => rfl
          exact cleared.trans (begun.trans fine)
      · rw [not_or, Bool.not_eq_true] at stays
        rw [ending stays.1 stays.2]
        exact trivial
  | _ => exact trivial

theorem uBoot_serverP (name : CString) (s : State) :
    (s.uBoot name).serverP = s.serverP := by
  unfold uBoot
  generalize s.clients.userList = users
  induction users generalizing s with
  | nil => rfl
  | cons target rest ih =>
      rw [List.foldl_cons, ih]
      unfold bootOper
      split <;> rfl

theorem execService_serverP (act : ServiceAct) :
    Ensures (fun t => t.serverP = s.serverP) (execService env now s act) := by
  cases act with
  | chan act => exact rfl
  | issueMode serviceP chptr allowSslonly parv => exact rfl
  | exit name =>
      unfold execService
      dsimp only
      split
      · exact rfl
      · exact Outcome.imp exit_frame fun _ frame => frame.serverP

def isAsked : Event → Bool
  | .reroute => true
  | .boot _ => true
  | .rehash _ _ => true
  | .service _ _ => true
  | _ => false

/-- On a dead connection nothing that is asked for reaches the link. -/
theorem step_asked {event : Event} (asked : isAsked event = true)
    (off : s.offline = true) :
    Ensures (fun t => t.serverP = s.serverP) (s.step env event) := by
  cases event with
  | reroute =>
      unfold step uConnect
      dsimp only
      split
      · exact rfl
      · rename_i conn link
        have dead : conn.dead = true := by simpa [offline, link] using off
        rw [if_pos dead]
        exact rfl
  | boot name => exact uBoot_serverP name s
  | rehash settings pingTime =>
      have kept := congrArg State.serverP (rehash_eq env settings pingTime s)
      exact kept
  | service now act => exact execService_serverP act
  | _ => cases asked

theorem run_asked {events : List Event}
    (asked : ∀ event ∈ events, isAsked event = true)
    (off : s.offline = true) (ran : run (step env) s events = .ok t) :
    t.serverP = s.serverP := by
  have meets : Meets (step env) (fun _ event => isAsked event = true) s
      events := meets_of_mem (fun event here _ => asked event here) s
  refine run_preserves_of_meets (fun t => t.serverP = s.serverP)
    (fun middle event after asked kept stepped => ?_) meets rfl ran
  have still : middle.offline = true := by
    rw [offline, kept]
    exact off
  exact ((step_asked asked still).of_ok stepped).trans kept

theorem step_signedOff {event : Event} {conn : Lconn}
    (link : s.serverP = some conn) (sound : conn.Sound)
    (signed : conn.signedOff = true) :
    Ensures (fun t => ∀ after, t.serverP = some after →
      after.clientP = conn.clientP) (s.step env event) := by
  have dead := sound.dead signed
  have closed := sound.closed signed
  have off : s.offline = true := by simp [offline, link, dead]
  have frozen : s.isAwaiting = false := by simp [isAwaiting, link, dead]
  have same (t : State) (kept : t.serverP = s.serverP) (after : Lconn)
      (here : t.serverP = some after) : after.clientP = conn.clientP := by
    rw [kept, link, Option.some.injEq] at here
    rw [here]
  cases event with
  | read now fragment finish lines =>
      have deaf : s.isReading = false := by simp [isReading, link, closed]
      have idle : s.step env (.read now fragment finish lines) = .ok s := by
        simp [step, deaf]
      rw [idle]
      exact same s rfl
  | tick now =>
      simp only [step, checkServerStatus, link, dead, if_true, dropServer]
      exact Ensures.bind fun _ _ after impossible => by cases impossible
  | connect now conf =>
      unfold step connectToServer
      dsimp only
      split
      · exact same s rfl
      · rw [link]
        exact same _ link.symm
  | connected writeFails =>
      have idle : s.step env (.connected writeFails) = .ok s := by
        simp [step, frozen]
      rw [idle]
      exact same s rfl
  | connectFailed timeout =>
      have idle : s.step env (.connectFailed timeout) = .ok s := by
        simp [step, frozen]
      rw [idle]
      exact same s rfl
  | writeError =>
      intro after here
      obtain ⟨before, there, rfl⟩ := Option.map_eq_some_iff.mp here
      exact same s rfl before there
  | reroute => exact Outcome.imp (step_asked rfl off) same
  | boot name => exact Outcome.imp (step_asked rfl off) same
  | rehash settings pingTime => exact Outcome.imp (step_asked rfl off) same
  | service now act => exact Outcome.imp (step_asked rfl off) same

end State

namespace DccConn

structure Sound (conn : DccConn) : Prop where
  dead : conn.signedOff = true → conn.dead = true
  closed : conn.signedOff = true → conn.reading = false

structure Tame (old new : DccConn) : Prop where
  name : new.name = old.name
  dead : old.dead = true → new.dead = true
  reading : new.reading = old.reading
  signedOff : new.signedOff = old.signedOff

namespace Tame

theorem refl (conn : DccConn) : Tame conn conn :=
  ⟨rfl, id, rfl, rfl⟩

theorem setFlag (conn : DccConn) (bit : Nat) : Tame conn (conn.setFlag bit) :=
  ⟨rfl, fun dead => by simp_all [DccConn.dead, DccConn.setFlag], rfl, rfl⟩

theorem clearFlag (conn : DccConn) {bit : Nat} (other : bit ≠ connDead) :
    Tame conn (conn.clearFlag bit) :=
  ⟨rfl, fun dead => by simp_all [DccConn.dead, DccConn.clearFlag], rfl, rfl⟩

theorem write (conn : DccConn) (fails : Bool) :
    Tame conn (conn.write fails) := by
  unfold DccConn.write
  split
  · exact setFlag conn connDead
  · exact refl conn

theorem login (conn : DccConn) (oper : ConfOper) :
    Tame conn (conn.login oper) := by
  refine ⟨rfl, fun dead => ?_, rfl, rfl⟩
  have marked := (setFlag (conn.setFlag connFlagsAuth) connFlagsChat).dead
  exact marked ((setFlag conn connFlagsAuth).dead dead)

theorem sound {old new : DccConn} (tame : Tame old new)
    (sound : old.Sound) : new.Sound where
  dead := by
    rw [tame.signedOff]
    exact fun signed => tame.dead (sound.dead signed)
  closed := by
    rw [tame.signedOff, tame.reading]
    exact sound.closed

end Tame

theorem Sound.giveUp (conn : DccConn) : Sound conn.giveUp where
  dead := fun _ => by simp [DccConn.giveUp, DccConn.dead, DccConn.setFlag, connDead]
  closed := fun _ => rfl

theorem Sound.signOn {conn : DccConn} (sound : Sound conn) (fails : Bool)
    (live : conn.dead = false) : Sound (conn.signOn fails) := by
  have unsigned : conn.signedOff = false := by
    cases signed : conn.signedOff with
    | false => rfl
    | true =>
        rw [sound.dead signed] at live
        cases live
  have tame : Tame (conn.clearFlag connConnecting)
      ((conn.clearFlag connConnecting).write fails) := .write _ fails
  have same : (conn.signOn fails).signedOff = conn.signedOff := by
    unfold DccConn.signOn
    dsimp only
    split
    · exact tame.signedOff
    · exact tame.signedOff
  constructor <;> intro signed <;> rw [same, unsigned] at signed <;>
    cases signed

end DccConn

namespace Dcc

def All (P : ConnId → DccConn → Prop) (d : Dcc) : Prop :=
  ∀ target conn, d.conn.cell target = some conn → P target conn

section Keeps

variable {P : ConnId → DccConn → Prop} {d : Dcc} {target : ConnId}
  {fails : List ConnId}

theorem All.modify {change : DccConn → DccConn}
    (kept : ∀ conn, d.conn.cell target = some conn → P target conn →
      P target (change conn)) (all : d.All P) :
    (d.modify target change).All P := by
  intro other conn used
  unfold Dcc.modify at used
  dsimp only at used
  rw [Heap.modify_cell] at used
  by_cases equal : other = target
  · subst equal
    rw [if_pos rfl] at used
    obtain ⟨before, there, rfl⟩ := Option.map_eq_some_iff.mp used
    exact kept before there (all other before there)
  · rw [if_neg equal] at used
    exact all other conn used

theorem All.foldl {turn : Dcc → ConnId → Dcc} (targets : List ConnId)
    (kept : ∀ d target, d.All P → (turn d target).All P) (all : d.All P) :
    (targets.foldl turn d).All P := by
  induction targets generalizing d with
  | nil => exact all
  | cons target rest ih => exact ih (kept d target all)

def Blind (P : ConnId → DccConn → Prop) : Prop :=
  ∀ target old new, DccConn.Tame old new → P target old → P target new

variable (blind : Blind P)

include blind

theorem sendtoOne_all (all : d.All P) : (d.sendtoOne fails target).All P := by
  refine all.modify fun conn _ => blind target _ _ ?_
  split
  · exact .refl conn
  · exact .write conn _

theorem sendtoAll_all (all : d.All P) : (d.sendtoAll fails).All P := by
  refine all.foldl _ fun d target all => all.modify fun conn _ =>
    blind target _ _ ?_
  split
  · exact .write conn _
  · exact .refl conn

theorem sendtoAllChat_all (all : d.All P) :
    (d.sendtoAllChat fails target).All P := by
  refine all.foldl _ fun d target all => all.modify fun conn _ =>
    blind target _ _ ?_
  split
  · exact .write conn _
  · exact .refl conn

theorem leave_all
    (gives : ∀ conn, d.conn.cell target = some conn → target ∉ fails →
      conn.dead = false → P target conn → P target conn.giveUp)
    (all : d.All P) :
    ((d.sendtoOne fails target).signoffClient target).All P := by
  unfold signoffClient sendtoOne Dcc.modify
  dsimp only
  rw [Heap.modify_modify]
  refine All.modify (fun conn used here => ?_) all
  by_cases dead : conn.dead = true
  · simpa [dead] using here
  · have live : conn.dead = false := by simpa using dead
    by_cases failed : target ∈ fails
    · have marked : (conn.setFlag connDead).dead = true := by
        simp [DccConn.dead, DccConn.setFlag, connDead]
      simp only [live, failed, decide_true, DccConn.write, if_true, marked,
        Bool.false_eq_true, if_false]
      exact blind target _ _ (.setFlag conn connDead) here
    · simp only [live, failed, decide_false, DccConn.write,
        Bool.false_eq_true, if_false]
      exact gives conn used failed live here

theorem bootConn_all {name : CString}
    (gives : ∀ conn, irccmp conn.name name = true → target ∉ fails →
      conn.dead = false → P target conn → P target conn.giveUp)
    (all : d.All P) : (d.bootConn fails name target).All P := by
  unfold bootConn
  split
  · rename_i named
    refine leave_all blind (fun conn used => gives conn ?_) all
    simpa [isNamed, used] using named
  · exact all

theorem uLogin_all {env : DaemonEnv} {conn : DccConn} {parv : List CString}
    (all : d.All P) : (d.uLogin env fails target conn parv).All P := by
  unfold uLogin
  split
  · exact sendtoOne_all blind all
  · split
    · exact all
    · split
      · refine sendtoOne_all blind (all.modify fun conn _ => ?_)
        exact blind target _ _ (.login conn _)
      · exact sendtoOne_all blind all

theorem uChat_all {parv : List CString} (all : d.All P) :
    (d.uChat fails target parv).All P := by
  unfold uChat
  split
  · exact sendtoOne_all blind all
  · split
    · refine sendtoOne_all blind (all.modify fun conn _ => ?_)
      exact blind target _ _ (.setFlag conn _)
    · split
      · refine sendtoOne_all blind (all.modify fun conn _ => ?_)
        exact blind target _ _ (.clearFlag conn (by decide))
      · exact sendtoOne_all blind all

theorem uConnect_all {env : DaemonEnv} {parv : List CString} {live : Bool}
    (all : d.All P) : (d.uConnect env fails target parv live).1.All P := by
  unfold uConnect
  split
  · exact sendtoOne_all blind all
  · split
    · exact sendtoOne_all blind all
    · split
      · exact sendtoAll_all blind all
      · exact all

theorem uRehash_all {conf : ConfFile} {parv : List CString}
    (all : d.All P) : (d.uRehash conf fails parv).1.All P := by
  unfold uRehash
  split
  · exact sendtoAll_all blind all
  · exact sendtoAll_all blind all

end Keeps

def signsOff (env : DaemonEnv) (source : ConnId) (conn : DccConn)
    (line : DccLine) (target : ConnId) (name : CString) : Bool :=
  conn.auth && !decide (target ∈ line.fails) &&
    match env.parseClient line.text with
    | .command command parv =>
        match env.permits conn command parv with
        | some handler =>
            match handler.func with
            | .quit => decide (target = source)
            | .boot => irccmp name (parv.getD 0 [])
            | _ => false
        | none => false
    | _ => false

theorem handleLine_all {P : ConnId → DccConn → Prop} {env : DaemonEnv}
    {now : Int} {conf : ConfFile} {source : ConnId} {live : Bool}
    {conn : DccConn} {d : Dcc} (blind : Blind P) (gives : ∀ target other,
      signsOff env source conn line target other.name = true →
        other.dead = false → P target other → P target other.giveUp)
    (all : d.All P) :
    (d.handleLine env now conf source live conn line).1.All P := by
  unfold handleLine
  split
  · split
    · exact sendtoAllChat_all blind all
    · exact sendtoOne_all blind all
  · exact all
  · rename_i command parv parsed
    unfold handleUcommand
    split
    · split
      · exact uLogin_all blind all
      · exact sendtoOne_all blind all
    · rename_i auth
      have auth : conn.auth = true := by simpa using auth
      split
      · exact sendtoOne_all blind all
      · rename_i handler permitted
        simp only [signsOff, auth, parsed, permitted] at gives
        unfold execUcommand
        split
        · rename_i boot
          refine sendtoOne_all blind (all.foldl _ fun d target all => ?_)
          refine bootConn_all blind (fun other named works => ?_) all
          exact gives target other (by simpa [boot, works] using named)
        · exact uChat_all blind all
        · exact uConnect_all blind all
        · rename_i quit
          refine leave_all blind (fun other _ works => ?_) all
          exact gives source other (by simp [quit, works])
        · exact uRehash_all blind all
        all_goals exact sendtoOne_all blind all

end Dcc

namespace Daemon

variable {env : DaemonEnv} {now : Int} {conf : ConfFile} {d e : Daemon}
  {target : ConnId}

def signedOff (target : ConnId) (d : Daemon) : Bool :=
  match d.dcc.conn.cell target with
  | some conn => conn.signedOff
  | none => false

def signsOff (env : DaemonEnv) (target : ConnId) (d : Daemon)
    (line : DccLine) : Bool :=
  match d.dcc.conn.cell target with
  | some conn =>
      !conn.dead && Dcc.signsOff env target conn line target conn.name
  | none => false

def live (target : ConnId) (d : Daemon) : Bool :=
  match d.dcc.conn.cell target with
  | some conn => !conn.dead
  | none => false

/-- No read ends a live connection and brings lines too, and a line that signs
its connection off is the last one of its read. -/
def SignsLast (env : DaemonEnv) (d : Daemon) : DaemonEvent → Prop
  | .net event => State.SignsLast env.toEnv d.net event
  | .read now conf target finish lines =>
      d.isReading target = true →
        (finish ≠ .again → d.live target = true → lines = []) ∧
        FinalLast (readTurn env now conf target) (signsOff env target)
          (d.readAny target finish) lines
  | _ => True

def ParsesLive (env : DaemonEnv) (d : Daemon) : DaemonEvent → Prop
  | .net event =>
      State.MeetsLines env.toEnv (fun s _ => s.signedOff = false) d.net event
  | .read now conf target finish lines =>
      d.isReading target = true →
        Meets (readTurn env now conf target)
          (fun d _ => d.signedOff target = false) (d.readAny target finish)
          lines
  | _ => True

theorem readTurn_dcc (turned : readTurn env now conf target d line = .ok e) :
    e.dcc = d.dcc ∨ ∃ conn, d.dcc.conn.cell target = some conn ∧
      e.dcc = (d.dcc.handleLine env now conf target (!d.net.offline) conn
        line).1 := by
  unfold readTurn at turned
  split at turned
  · cases turned
    exact Or.inl rfl
  · rename_i conn used
    split at turned
    · cases turned
      exact Or.inl rfl
    · obtain ⟨net, ran, turned⟩ := Except.bind_eq_ok.mp turned
      cases turned
      exact Or.inr ⟨conn, used, rfl⟩

theorem readTurn_sound (sound : d.dcc.All fun _ conn => conn.Sound)
    (turned : readTurn env now conf target d line = .ok e) :
    e.dcc.All fun _ conn => conn.Sound := by
  obtain same | ⟨conn, used, handled⟩ := readTurn_dcc turned
  · rw [same]
    exact sound
  · rw [handled]
    refine Dcc.handleLine_all (fun _ _ _ tame sound => tame.sound sound) ?_
      sound
    exact fun _ other _ _ _ => DccConn.Sound.giveUp other

theorem signoffClient_sound {d : Dcc}
    (sound : d.All fun _ conn => conn.Sound) :
    (d.signoffClient target).All fun _ conn => conn.Sound := by
  refine sound.modify fun conn _ sound => ?_
  split
  · exact sound
  · exact DccConn.Sound.giveUp conn

theorem readAny_sound {finish : State.ReadEnd}
    (sound : d.dcc.All fun _ conn => conn.Sound) :
    (d.readAny target finish).dcc.All fun _ conn => conn.Sound := by
  cases finish with
  | again => exact sound
  | error => exact signoffClient_sound sound
  | eof => exact signoffClient_sound sound

theorem freeDead_sound {d : Dcc} (sound : d.All fun _ conn => conn.Sound) :
    (d.freeDead target).All fun _ conn => conn.Sound := by
  unfold Dcc.freeDead
  split
  · exact sound
  · split
    · intro other conn used
      dsimp only at used
      rw [Heap.free_cell] at used
      split at used
      · cases used
      · exact sound other conn used
    · exact sound

theorem step_sound {event : DaemonEvent}
    (sound : d.dcc.All fun _ conn => conn.Sound)
    (stepped : d.step env event = .ok e) :
    e.dcc.All fun _ conn => conn.Sound := by
  cases event with
  | net event =>
      obtain ⟨net, _, same⟩ := Except.bind_eq_ok.mp stepped
      cases same
      exact sound
  | opened oper outwards =>
      cases stepped
      intro other conn used
      have used : (d.dcc.conn.alloc (.fresh oper outwards)).cell other =
          some conn := used
      rw [Heap.alloc_cell] at used
      split at used
      · cases used
        constructor <;> intro impossible <;> cases impossible
      · exact sound other conn used
  | signon target fails =>
      cases stepped
      split
      · rename_i awaiting
        refine sound.modify fun conn used sound => ?_
        have live : conn.awaits = true := by
          simpa [isAwaiting, used] using awaiting
        simp only [DccConn.awaits, Bool.and_eq_true, Bool.not_eq_true'] at live
        exact sound.signOn fails live.2
      · exact sound
  | openFailed target =>
      cases stepped
      split
      · exact signoffClient_sound sound
      · exact sound
  | read now conf target finish lines =>
      unfold step at stepped
      dsimp only at stepped
      split at stepped
      · exact run_preserves (fun d => d.dcc.All fun _ conn => conn.Sound)
          (fun _ _ _ => readTurn_sound) (readAny_sound sound) stepped
      · cases stepped
        exact sound
  | writeError target =>
      cases stepped
      exact sound.modify fun conn _ => (DccConn.Tame.setFlag conn _).sound
  | cleanup =>
      cases stepped
      exact sound.foldl _ fun _ _ => freeDead_sound

theorem sound_of_run {blocks : List ServiceBlock} {pingTime : Int}
    {events : List DaemonEvent}
    (reached : run (step env) (start blocks pingTime) events = .ok d) :
    d.dcc.All fun _ conn => conn.Sound := by
  refine run_preserves (fun d => d.dcc.All fun _ conn => conn.Sound)
    (fun _ _ _ => step_sound) ?_ reached
  intro target conn used
  cases used

theorem readTurn_signedOff (fine : d.signedOff target = false)
    (stays : d.signsOff env target line = false)
    (turned : readTurn env now conf target d line = .ok e) :
    e.signedOff target = false := by
  obtain same | ⟨conn, used, handled⟩ := readTurn_dcc turned
  · unfold signedOff at fine ⊢
    rw [same]
    exact fine
  · have unsigned : conn.signedOff = false := by
      simpa [signedOff, used] using fine
    simp only [signsOff, used, Bool.and_eq_false_iff, Bool.not_eq_false'] at stays
    have all : e.dcc.All fun other after => other = target →
        after.name = conn.name ∧ (conn.dead = true → after.dead = true) ∧
          after.signedOff = false := by
      rw [handled]
      refine Dcc.handleLine_all ?_ ?_ ?_
      · intro other old new tame kept same
        obtain ⟨name, dead, signed⟩ := kept same
        exact ⟨tame.name.trans name, fun was => tame.dead (dead was),
          tame.signedOff.trans signed⟩
      · intro other old signs live kept same
        subst same
        obtain ⟨name, dead, _⟩ := kept rfl
        rw [name] at signs
        obtain was | never := stays
        · rw [dead was] at live
          cases live
        · rw [never] at signs
          cases signs
      · intro other old there same
        subst same
        rw [used, Option.some.injEq] at there
        subst there
        exact ⟨rfl, id, unsigned⟩
    unfold signedOff
    split
    · rename_i after there
      exact (all target after there rfl).2.2
    · rfl

theorem readAny_signedOff {finish : State.ReadEnd}
    (stays : finish = .again ∨ d.live target = false) :
    (d.readAny target finish).signedOff target = d.signedOff target := by
  have ended (down : d.live target = false) :
      (d.onDcc (·.signoffClient target)).signedOff target =
        d.signedOff target := by
    unfold signedOff onDcc Dcc.signoffClient Dcc.modify
    dsimp only
    rw [Heap.modify_cell_self]
    unfold live at down
    cases used : d.dcc.conn.cell target with
    | none => rfl
    | some conn =>
        rw [used] at down
        have dead : conn.dead = true := by simpa using down
        simp [dead]
  cases finish with
  | again => rfl
  | error => exact ended (stays.resolve_left (by simp))
  | eof => exact ended (stays.resolve_left (by simp))

theorem parsesLive_of_signsLast {event : DaemonEvent}
    (net : ∀ conn, d.net.serverP = some conn → conn.Sound)
    (sound : d.dcc.All fun _ conn => conn.Sound)
    (last : SignsLast env d event) : ParsesLive env d event := by
  cases event with
  | net event => exact State.meetsLines_of_signsLast net last
  | read now conf target finish lines =>
      intro reading
      obtain ⟨ending, turns⟩ := last reading
      have fine : d.signedOff target = false := by
        unfold signedOff
        cases used : d.dcc.conn.cell target with
        | none => rfl
        | some conn =>
            have reading : conn.reading = true := by
              simpa [isReading, used] using reading
            cases signed : conn.signedOff with
            | false => exact signed
            | true =>
                rw [(sound target conn used).closed signed] at reading
                cases reading
      by_cases stays : finish = .again ∨ d.live target = false
      · refine FinalLast.meets (fun d => d.signedOff target = false)
          (fun _ _ _ => readTurn_signedOff) turns ?_
        rw [readAny_signedOff stays, fine]
      · rw [not_or, Bool.not_eq_false] at stays
        rw [ending stays.1 stays.2]
        exact trivial
  | _ => exact trivial

theorem handleLine_asks {conn : DccConn} {live : Bool} {dcc : Dcc}
    (event : Event)
    (asked : event ∈ (dcc.handleLine env now conf target live conn line).2) :
    State.isAsked event = true := by
  have nothing : ∀ {e : Event}, e ∈ ([] : List Event) →
      State.isAsked e = true := fun impossible => by cases impossible
  unfold Dcc.handleLine at asked
  split at asked
  · split at asked <;> exact nothing asked
  · exact nothing asked
  · unfold Dcc.handleUcommand at asked
    split at asked
    · split at asked <;> exact nothing asked
    · split at asked
      · exact nothing asked
      · unfold Dcc.execUcommand at asked
        split at asked
        · rw [List.mem_singleton.mp asked]
          rfl
        · exact nothing asked
        · unfold Dcc.uConnect at asked
          split at asked
          · exact nothing asked
          · split at asked
            · exact nothing asked
            · split at asked
              · rw [List.mem_singleton.mp asked]
                rfl
              · exact nothing asked
        · exact nothing asked
        · unfold Dcc.uRehash at asked
          split at asked
          · exact nothing asked
          · rw [List.mem_singleton.mp asked]
            rfl
        · obtain ⟨act, _, rfl⟩ := List.mem_map.mp asked
          rfl
        all_goals exact nothing asked

theorem readTurn_serverP (off : d.net.offline = true)
    (turned : readTurn env now conf target d line = .ok e) :
    e.net.serverP = d.net.serverP := by
  unfold readTurn at turned
  split at turned
  · cases turned
    rfl
  · split at turned
    · cases turned
      rfl
    · obtain ⟨net, ran, turned⟩ := Except.bind_eq_ok.mp turned
      cases turned
      exact State.run_asked handleLine_asks off ran

theorem step_signedOff {event : DaemonEvent} {conn : Lconn}
    (link : d.net.serverP = some conn) (sound : conn.Sound)
    (signed : conn.signedOff = true) (stepped : d.step env event = .ok e)
    {after : Lconn} (here : e.net.serverP = some after) :
    after.clientP = conn.clientP := by
  have off : d.net.offline = true := by
    simp [State.offline, link, sound.dead signed]
  have same (kept : e.net.serverP = d.net.serverP) :
      after.clientP = conn.clientP := by
    rw [kept, link, Option.some.injEq] at here
    rw [here]
  cases event with
  | net event =>
      obtain ⟨net, first, equal⟩ := Except.bind_eq_ok.mp stepped
      cases equal
      exact (State.step_signedOff link sound signed).of_ok first after here
  | opened oper outwards =>
      cases stepped
      exact same rfl
  | signon target fails =>
      cases stepped
      refine same ?_
      split <;> rfl
  | openFailed target =>
      cases stepped
      refine same ?_
      split <;> rfl
  | read now conf target finish lines =>
      unfold step at stepped
      dsimp only at stepped
      split at stepped
      · refine same (run_preserves (fun e => e.net.serverP = d.net.serverP)
          (fun middle line after kept turned => ?_) ?_ stepped)
        · have still : middle.net.offline = true := by
            rw [State.offline, kept]
            exact off
          exact (readTurn_serverP still turned).trans kept
        · exact congrArg State.serverP readAny_net
      · cases stepped
        exact same rfl
  | writeError target =>
      cases stepped
      exact same rfl
  | cleanup =>
      cases stepped
      exact same rfl

/-- In every state a daemon reaches, our uplink is only introduced on a
connection that gave its password; and whatever happens next, as long as what
signs a connection off comes last in its read, no line is parsed on a connection
that was signed off, and no uplink is introduced on one. -/
theorem silentAfterSignoff (env : DaemonEnv) (blocks : List ServiceBlock)
    (pingTime : Int) (events : List DaemonEvent) (d : Daemon)
    (reached : run (step env) (start blocks pingTime) events = .ok d) :
    (∀ conn, d.net.serverP = some conn → conn.clientP.isSome = true →
      conn.passed = true) ∧
    ∀ event, SignsLast env d event →
      ParsesLive env d event ∧
      ∀ conn, d.net.serverP = some conn → conn.signedOff = true →
        ∀ e, d.step env event = .ok e →
          ∀ after, e.net.serverP = some after →
            after.clientP = conn.clientP := by
  obtain ⟨netEvents, netReached⟩ := net_of_run reached
  have sound (conn : Lconn) (link : d.net.serverP = some conn) : conn.Sound :=
    State.sound_of_run netReached link
  refine ⟨fun conn link => (sound conn link).uplink, fun event last => ?_⟩
  refine ⟨parsesLive_of_signsLast sound (sound_of_run reached) last, ?_⟩
  intro conn link signed e stepped after here
  exact step_signedOff link (sound conn link) signed stepped here

instance (env : DaemonEnv) (d : Daemon) (event : DaemonEvent) :
    Decidable (SignsLast env d event) :=
  match event with
  | .net event => inferInstanceAs (Decidable (State.SignsLast _ _ event))
  | .read _ _ _ _ _ => inferInstanceAs (Decidable (_ → _ ∧ _))
  | .opened _ _ => isTrue trivial
  | .signon _ _ => isTrue trivial
  | .openFailed _ => isTrue trivial
  | .writeError _ => isTrue trivial
  | .cleanup => isTrue trivial

instance (env : DaemonEnv) (d : Daemon) (event : DaemonEvent) :
    Decidable (ParsesLive env d event) :=
  match event with
  | .net event => inferInstanceAs (Decidable (State.MeetsLines _ _ _ event))
  | .read _ _ _ _ _ => inferInstanceAs (Decidable (_ → Meets _ _ _ _))
  | .opened _ _ => isTrue trivial
  | .signon _ _ => isTrue trivial
  | .openFailed _ => isTrue trivial
  | .writeError _ => isTrue trivial
  | .cleanup => isTrue trivial

def operatorHere : List DaemonEvent :=
  (linkUp []).map .net ++
    [.opened { name := "oper".toList, pass := "word".toList } true,
      .signon 0 false,
      .read 2 ([], 300) 0 .again [{ text := ".login oper word".toList }]]

def goodbye : DaemonEvent :=
  .read 3 ([], 300) 0 .again
    [{ text := "bye all".toList }, { text := ".quit".toList }]

theorem silentAfterSignoff_goodbye :
    ∃ d, run (step .quiet) (start [] 300) operatorHere = .ok d ∧
      SignsLast .quiet d goodbye ∧ ParsesLive .quiet d goodbye ∧
      ∃ e, d.step .quiet goodbye = .ok e ∧ e.signedOff 0 = true := by
  have observed : (run (step .quiet) (start [] 300)
      operatorHere).toOption.map (fun d => (decide (SignsLast .quiet d goodbye),
        (d.step .quiet goodbye).toOption.map (signedOff 0))) =
          some (true, some true) := by
    decide +kernel
  obtain ⟨d, reached, seen⟩ := Except.exists_of_observed observed
  rw [Prod.mk.injEq] at seen
  have last : SignsLast .quiet d goodbye := of_decide_eq_true seen.1
  have silent := silentAfterSignoff .quiet [] 300 operatorHere d reached
  exact ⟨d, reached, last, (silent.2 goodbye last).1,
    Except.exists_of_observed seen.2⟩

def secondTry : DaemonEvent :=
  .net (.read 1 false .again
    [{ text := "PASS no TS 6 0AB".toList }, { text := "PASS pw TS 6 0AB".toList },
      { text := "SERVER hub. 1 :hub".toList }])

theorem not_silentAfterSignoff_secondTry :
    ∃ d, run (step .quiet) (start [] 300)
        [.net (.connect 0 (some ("hub.".toList, "pw".toList))),
          .net (.connected false)] = .ok d ∧
      ¬ ParsesLive .quiet d secondTry ∧
      ∃ e, d.step .quiet secondTry = .ok e ∧
        ∃ conn, e.net.serverP = some conn ∧ conn.signedOff = true ∧
          conn.clientP.isSome = true := by
  have observed : (run (step .quiet) (start [] 300)
      [.net (.connect 0 (some ("hub.".toList, "pw".toList))),
        .net (.connected false)]).toOption.map (fun d =>
          (decide (ParsesLive .quiet d secondTry),
            (d.step .quiet secondTry).toOption.map (fun e =>
              e.net.serverP.map fun conn =>
                (conn.signedOff, conn.clientP.isSome)))) =
          some (false, some (some (true, true))) := by
    decide +kernel
  obtain ⟨d, reached, seen⟩ := Except.exists_of_observed observed
  rw [Prod.mk.injEq] at seen
  obtain ⟨e, stepped, link⟩ := Except.exists_of_observed seen.2
  obtain ⟨conn, there, marks⟩ := Option.map_eq_some_iff.mp link
  rw [Prod.mk.injEq] at marks
  exact ⟨d, reached, of_decide_eq_false seen.1, e, stepped, conn, there, marks⟩

end Daemon

end RatboxServices
