import RatboxServices.Net.ReconnectRun
import RatboxServices.Net.RestEffect

namespace RatboxServices

open CString

/-! The tables of clients along every run of the daemon. -/

namespace Clients

variable {s : Clients} {good : Prop} {uplink : Option ClientId}

theorem present_withNew_absent {client : Client}
    (absent : client.present = false) :
    (s.withNew client).present = s.present := by
  refine present_congr fun a => ?_
  by_cases new : a = s.client.next
  · subst new
    rw [shows, withNew_next, shows, Heap.cell_next]
    exact absent
  · exact withNew_shows _ new

theorem AtRest.addService (rest : AtRest good uplink s)
    (block : ServiceBlock) : AtRest good uplink (s.addService block) := by
  have absent : block.client.present = false := by
    simp [ServiceBlock.client, Client.present]
  have fits : s.Fits block.client := by
    refine ⟨fun is => ?_, fun _ => rfl, fun b on => ?_, fun leaf is => ?_⟩
    · simp [ServiceBlock.client, Client.isUser] at is
    · simp [ServiceBlock.client] at on
    · simp [ServiceBlock.client] at is
  have linked : (s.addService block).present = s.present :=
    present_withNew_absent absent
  have tree : (s.addService block).Tree s.present :=
    (rest.tree.alloc fits next_not_present).of_cells rfl
  have old {a : ClientId} (known : s.isServer a = true ∨
      s.isService a = true) : a ≠ s.client.next := by
    rintro rfl
    simp [isServer, isService, Heap.cell_next] at known
  refine ⟨linked ▸ tree, fun sound => ?_, ?_, fun a listed => ?_,
    fun target here => ?_⟩
  · rw [linked]
    refine ((rest.tabled sound).alloc fun a here => ?_).of_cells rfl rfl rfl
      fun _ _ => rfl
    rintro rfl
    exact next_not_present here
  · show (s.serviceList ++ [s.client.next]).Nodup
    rw [← List.concat_eq_append]
    refine rest.nodup.concat fun listed => ?_
    exact old (Or.inr (rest.services _ listed)) rfl
  · have either : a ∈ s.serviceList ∨ a = s.client.next := by
      simpa [Clients.addService, Dlink.addTail] using listed
    obtain before | rfl := either
    · have service := rest.services a before
      exact (withNew_shows Client.isService (old (Or.inr service))).trans
        service
    · show (s.withNew block.client).isService _ = true
      rw [isService, withNew_next]
      rfl
  · exact withNew_isServer (rest.uplink target here)

end Clients

namespace State

variable {env : Env} {now : Int} {s t : State} {good : Prop}

theorem start_atRest (blocks : List ServiceBlock) (pingTime : Int) :
    AtRest good (start blocks pingTime) := by
  have turns (clients : Clients) (rest : clients.AtRest good none) :
      (blocks.foldl Clients.addService clients).AtRest good none := by
    induction blocks generalizing clients with
    | nil => exact rest
    | cons block others ih => exact ih _ (rest.addService block)
  have nobody : Clients.empty.present = ∅ := by
    ext a
    exact ⟨Clients.not_mem_present rfl, fun impossible => impossible.elim⟩
  refine turns .empty ⟨?_, fun _ => ?_, List.nodup_nil, ?_, ?_⟩
  · rw [nobody]
    refine ⟨?_, ?_, ?_, ?_, ?_⟩
    · intro a impossible
      cases impossible
    · intro a impossible
      cases impossible
    · intro a b impossible
      cases impossible
    · intro a client leaf impossible
      cases impossible
    · intro a client leaf impossible
      cases impossible
  · rw [nobody]
    exact ⟨Buckets.Holds.empty, Buckets.Holds.empty, rfl⟩
  · intro a impossible
    cases impossible
  · intro target impossible
    cases impossible

def SafeSetting (s : State) (setting : ClientId × ServiceSetting) : Prop :=
  match setting.2 with
  | .nick data =>
      ∀ client, s.clients.client.cell setting.1 = some client →
        client.name ≠ data → client.isService = true →
          client.introduced = s.sentBurst
  | _ => True

def SafeSettings (env : Env) : State → List (ClientId × ServiceSetting) →
    Prop
  | _, [] => True
  | s, setting :: rest =>
      s.SafeSetting setting ∧
        SafeSettings env (s.confSetService env setting) rest

theorem markReintroduce_atRest {serviceP : ClientId} (rest : AtRest good s) :
    AtRest good (s.markReintroduce serviceP) := by
  unfold markReintroduce
  split
  · exact Clients.AtRest.onService rest fun ours => by
      simp [serviceReintroduce, serviceIntroduced]
  · exact rest

theorem confSetServiceNick_atRest {serviceP : ClientId} {client : Client}
    {data : CString} (rest : AtRest good s)
    (used : s.clients.client.cell serviceP = some client)
    (service : client.isService = true)
    (safe : good → s.SafeSetting (serviceP, .nick data)) :
    AtRest good (s.confSetServiceNick env serviceP client data) := by
  unfold confSetServiceNick
  dsimp only
  split
  · exact rest
  · rename_i changes
    have known (sound : good) : serviceP ∈ s.clients.present ↔
        s.sentBurst = true := by
      rw [Clients.mem_present used, Client.present_of_service service,
        safe sound client used changes service]
    split
    · rename_i sent
      refine Clients.AtRest.onService ?_ fun ours => by
        simp [serviceReintroduce, serviceIntroduced]
      exact Clients.AtRest.relink env.wild rest used
        (fun sound => (known sound).mpr sent) (fun _ => rfl) (fun _ => rfl)
        fun _ => rfl
    · rename_i unsent
      refine Clients.AtRest.modify_unlinked rest (fun _ => rfl)
        (fun _ => rfl) (fun _ => rfl) fun sound here => ?_
      exact unsent ((known sound).mp here)

theorem confSetService_atRest {setting : ClientId × ServiceSetting}
    (rest : AtRest good s) (safe : good → s.SafeSetting setting) :
    AtRest good (s.confSetService env setting) := by
  obtain ⟨serviceP, value⟩ := setting
  unfold confSetService
  dsimp only
  split
  · exact rest
  · rename_i client used
    split
    · rename_i ours data part
      exact confSetServiceNick_atRest rest used
        (by simp [Client.isService, part]) safe
    · split
      · exact rest
      · exact markReintroduce_atRest
          (Clients.AtRest.onService rest fun _ => rfl)
    · split
      · exact rest
      · exact markReintroduce_atRest
          (Clients.AtRest.onService rest fun _ => rfl)
    · split
      · exact rest
      · exact markReintroduce_atRest (Clients.AtRest.modify rest
          (fun _ => rfl) (fun _ => rfl) (fun _ => rfl) (fun _ => rfl)
          fun _ => rfl)
    · exact Clients.AtRest.onService rest fun _ => rfl
    · exact Clients.AtRest.onService rest fun _ => rfl
    · exact rest

theorem confSetServices_atRest {settings : List (ClientId × ServiceSetting)}
    (rest : AtRest good s) (safe : good → SafeSettings env s settings) :
    AtRest good (settings.foldl (confSetService env) s) := by
  induction settings generalizing s with
  | nil => exact rest
  | cons setting others ih =>
      exact ih (confSetService_atRest rest fun sound => (safe sound).1)
        fun sound => (safe sound).2

theorem rehash_atRest {settings : List (ClientId × ServiceSetting)}
    {pingTime : Int} (rest : AtRest good s)
    (safe : good → SafeSettings env s settings) :
    AtRest good (s.rehash env settings pingTime) := by
  have set : AtRest good (settings.foldl (confSetService env) s) :=
    confSetServices_atRest rest safe
  unfold rehash reloadServices
  dsimp only
  split
  · exact Clients.AtRest.reloadServices env.wild set _ set.services
  · exact set

def KeepsTabledLine (env : Env) (s : State) (line : Incoming) : Prop :=
  ∀ hazard, lineHazard env s line.text = some hazard → TableSafe s hazard

def tickSignsOff (now : Int) (s : State) : Bool :=
  match s.serverP with
  | none => false
  | some conn =>
      !conn.dead && (s.uplinkExited conn || connectTimedOut now conn ||
        handshakeTimedOut now conn || pingTimedOut now s.pingTime conn)

/-- Whatever unlinks clients finds them linked, and whatever links them does
not. -/
def KeepsTabled (env : Env) (s : State) : Event → Prop
  | .read now fragment finish lines =>
      (s.isReading = true → finish ≠ .again → s.signoffSafe = true) ∧
        MeetsLines env (KeepsTabledLine env) s
          (.read now fragment finish lines)
  | .tick now => s.tickSignsOff now = true → s.signoffSafe = true
  | .connectFailed timeout =>
      s.isAwaiting = true → timeout = true → s.signoffSafe = true
  | .reroute => s.signoffSafe = true
  | .rehash settings _ => SafeSettings env s settings
  | _ => True

theorem effects_atRest
    (effects : Effects env (fun r hazard => good → TableSafe r hazard) Chan s t)
    (rest : AtRest good s) : AtRest good t :=
  effects.preserves (fun _ _ effect => effect.atRest) rest

theorem onLink_atRest {change : Lconn → Lconn}
    (kept : ∀ conn, (change conn).clientP = conn.clientP)
    (rest : AtRest good s) : AtRest good (s.onLink change) :=
  rest.of_clients rfl (uplinkP_map kept)

theorem signoffServer_ensures (rest : AtRest good s)
    (safe : good → s.signoffSafe = true) :
    Ensures (AtRest good) (s.signoffServer env) := by
  refine Ensures.intro fun t signed => ?_
  refine (signoffServer_atRest rest safe ?_).of_ok signed
  unfold signoffServer at signed
  obtain ⟨conn, link, _⟩ := Except.bind_eq_ok.mp signed
  rw [uplink_eq_ok link]
  rfl

theorem signoffSafe_onLink {change : Lconn → Lconn}
    (dead : ∀ conn, (change conn).dead = conn.dead)
    (kept : ∀ conn, (change conn).clientP = conn.clientP) :
    (s.onLink change).signoffSafe = s.signoffSafe := by
  have offline : (s.onLink change).offline = s.offline := by
    unfold State.offline onLink
    cases s.serverP with
    | none => rfl
    | some conn => exact dead conn
  have uplink : (s.onLink change).uplinkP = s.uplinkP := uplinkP_map kept
  rw [signoffSafe, signoffSafe, offline, uplinkHere, uplinkHere, uplink]
  rfl

theorem readTurn_atRest {line : Incoming}
    (keeps : good → KeepsTabledLine env s line) (rest : AtRest good s) :
    Ensures (AtRest good) (readTurn env now s line) := by
  have effects : Ensures
      (Effects env (fun r hazard => good → TableSafe r hazard)
        (fun _ _ => True) s)
      (readLine env now s line.text) :=
    readLine_effects_true fun hazard found sound => keeps sound hazard found
  unfold readTurn
  refine Outcome.bind effects fun t effects => ?_
  have kept := effects_atRest effects rest
  show AtRest good (if line.writeFails then t.writeError else t)
  split
  · exact onLink_atRest (fun _ => rfl) kept
  · exact kept

theorem readAny_atRest {received : Bool} {finish : ReadEnd}
    (rest : AtRest good s)
    (safe : good → finish ≠ .again → s.signoffSafe = true) :
    Ensures (AtRest good) (s.readAny env now received finish) := by
  have noted : AtRest good (s.noteData now received) ∧
      (s.noteData now received).signoffSafe = s.signoffSafe := by
    unfold noteData
    split
    · refine ⟨onLink_atRest (fun _ => rfl) rest, ?_⟩
      exact signoffSafe_onLink (fun _ => rfl) fun _ => rfl
    · exact ⟨rest, rfl⟩
  unfold readAny
  dsimp only
  split
  · exact noted.1
  · exact signoffServer_ensures noted.1 fun sound => by
      rw [noted.2]
      exact safe sound (by simp)
  · exact signoffServer_ensures noted.1 fun sound => by
      rw [noted.2]
      exact safe sound (by simp)

theorem readServer_atRest {fragment : Bool} {finish : ReadEnd}
    {lines : List Incoming} (reading : s.isReading = true)
    (keeps : good → KeepsTabled env s (.read now fragment finish lines))
    (rest : AtRest good s) :
    Ensures (AtRest good) (s.readServer env now
      (fragment || !lines.isEmpty) finish lines) := by
  refine Ensures.intro fun t read => ?_
  obtain ⟨after, first, ended⟩ := readServer_eq_ok read
  have begun : AtRest good after :=
    (readAny_atRest rest fun sound => (keeps sound).1 reading).of_ok first
  have turns : Meets (readTurn env now)
      (fun s line => good → KeepsTabledLine env s line)
      (after.onLink (·.clearFlag connSentping)) lines := by
    by_cases sound : good
    · exact ((keeps sound).2 reading after first).mono
        fun _ _ keeps _ => keeps
    · exact meets_of_forall (fun _ _ impossible =>
        absurd impossible sound) _ lines
  obtain rfl | ran := ended
  · exact begun
  · exact run_preserves_of_meets (AtRest good)
      (fun _ _ _ keeps before turned =>
        (readTurn_atRest keeps before).of_ok turned)
      turns (onLink_atRest (fun _ => rfl) begun) ran

theorem dropServer_atRest {conn : Lconn} (rest : AtRest good s)
    (link : s.serverP = some conn) :
    Ensures (AtRest good) (s.dropServer env conn) := by
  have exited : Ensures (AtRest good) (s.exitUplink env conn) := by
    unfold State.exitUplink
    split
    · exact rest
    · rename_i target uplink
      split
      · exact rest
      · rename_i here
        have ours : s.uplinkP = some target := by
          rw [uplinkP, link]
          exact uplink
        refine (rest.exit_uplink ours fun _ => ?_).mono
          (fun _ impossible => impossible.elim) fun _ => id
        have same : s.uplinkExited conn = s.clients.isExited target := by
          rw [uplinkExited, uplink]
          rfl
        rw [same] at here
        rw [uplinkHere, ours]
        simpa using here
  unfold dropServer
  refine Outcome.bind exited fun t exited => ?_
  exact Clients.AtRest.of_uplink exited fun _ impossible => by
    cases impossible

theorem checkServerStatus_atRest (rest : AtRest good s)
    (keeps : good → s.tickSignsOff now = true → s.signoffSafe = true) :
    Ensures (AtRest good) (s.checkServerStatus env now) := by
  unfold checkServerStatus
  split
  · exact rest
  · rename_i conn link
    have signed (due : s.tickSignsOff now = true) :
        Ensures (AtRest good) (s.signoffServer env) :=
      signoffServer_ensures rest fun sound => keeps sound due
    split
    · exact dropServer_atRest rest link
    · rename_i live
      split
      · rename_i gone
        exact signed (by simp [tickSignsOff, link, live, gone])
      · split
        · rename_i timeout
          exact signed (by simp [tickSignsOff, link, live, timeout])
        · split
          · rename_i timeout
            exact signed (by simp [tickSignsOff, link, live, timeout])
          · split
            · rename_i timeout
              exact signed (by simp [tickSignsOff, link, live, timeout])
            · split
              · exact onLink_atRest (fun _ => rfl) rest
              · exact rest

theorem step_atRest {event : Event}
    (keeps : good → KeepsTabled env s event) (rest : AtRest good s) :
    Ensures (AtRest good) (s.step env event) := by
  cases event with
  | read now fragment finish lines =>
      unfold step
      dsimp only
      split
      · rename_i reading
        exact readServer_atRest reading keeps rest
      · exact rest
  | tick now => exact checkServerStatus_atRest rest keeps
  | connect now conf =>
      unfold step connectToServer
      dsimp only
      split
      · exact rest
      · split
        · exact rest
        · split
          · exact trivial
          · exact Clients.AtRest.of_uplink rest fun _ impossible => by
              cases impossible
  | connected writeFails =>
      show AtRest good
        (if s.isAwaiting then s.signonServer writeFails else s)
      split
      · refine onLink_atRest (fun conn => ?_) rest
        unfold Lconn.signOn
        dsimp only
        split <;> rfl
      · exact rest
  | connectFailed timeout =>
      unfold step
      dsimp only
      split
      · rename_i failed
        rw [Bool.and_eq_true] at failed
        exact signoffServer_ensures rest fun sound =>
          keeps sound failed.1 failed.2
      · exact rest
  | writeError => exact onLink_atRest (fun _ => rfl) rest
  | reroute =>
      unfold step uConnect
      dsimp only
      split
      · exact rest
      · split
        · exact rest
        · exact signoffServer_ensures rest keeps
  | boot name =>
      have effects : Effects env
          (fun r hazard => good → TableSafe r hazard) (fun _ _ => True) s
            (s.uBoot name) :=
        uBoot_effects name s
      exact effects_atRest effects rest
  | rehash settings pingTime => exact rehash_atRest rest keeps
  | service now act =>
      have effects : Ensures
          (Effects env (fun r hazard => good → TableSafe r hazard)
        (fun _ _ => True) s)
          (execService env now s act) := execService_effects_true act
      exact Outcome.imp effects fun _ effects => effects_atRest effects rest

theorem atRest_of_run {blocks : List ServiceBlock} {pingTime : Int}
    {events : List Event}
    (keeps : good → Meets (step env) (KeepsTabled env)
      (start blocks pingTime) events)
    (reached : run (step env) (start blocks pingTime) events = .ok s) :
    AtRest good s := by
  have turns : Meets (step env)
      (fun s event => good → KeepsTabled env s event)
      (start blocks pingTime) events := by
    by_cases sound : good
    · exact (keeps sound).mono fun _ _ keeps _ => keeps
    · exact meets_of_forall (fun _ _ impossible =>
        absurd impossible sound) _ events
  exact run_preserves_of_meets (AtRest good)
    (fun _ _ _ keeps before stepped =>
      (step_atRest keeps before).of_ok stepped)
    turns (start_atRest blocks pingTime) reached

/-- In every run in which `signoff_server` finds our services and our uplink
linked, and nothing else is unlinked or linked twice, the tables link exactly
the clients that belong there and nothing was deleted that was not linked. -/
theorem tabled_of_run (env : Env) (blocks : List ServiceBlock)
    (pingTime : Int) (events : List Event) (s : State)
    (keeps : Meets (step env) (KeepsTabled env) (start blocks pingTime)
      events)
    (reached : run (step env) (start blocks pingTime) events = .ok s) :
    s.clients.Tabled s.clients.present := by
  have rest : AtRest True s := atRest_of_run (fun _ => keeps) reached
  exact rest.tabled trivial

instance (r : State) (hazard : Hazard) : Decidable (TableSafe r hazard) :=
  match hazard with
  | .signoff => inferInstanceAs (Decidable (_ = _))
  | .accept => inferInstanceAs (Decidable (_ = _))
  | .exitUplink => inferInstanceAs (Decidable (_ = _))
  | .strand => isTrue trivial
  | .revive => isTrue trivial

instance (env : Env) (s : State) (line : Incoming) :
    Decidable (KeepsTabledLine env s line) :=
  match found : lineHazard env s line.text with
  | none => isTrue (by simp [KeepsTabledLine, found])
  | some hazard =>
      decidable_of_iff (TableSafe s hazard) (by simp [KeepsTabledLine, found])

instance (s : State) (setting : ClientId × ServiceSetting) :
    Decidable (s.SafeSetting setting) :=
  match setting with
  | (target, .nick data) =>
      match used : s.clients.client.cell target with
      | none => isTrue (by simp [SafeSetting, used])
      | some client =>
          decidable_of_iff (client.name ≠ data → client.isService = true →
            client.introduced = s.sentBurst) (by simp [SafeSetting, used])
  | (_, .username _) => isTrue trivial
  | (_, .host _) => isTrue trivial
  | (_, .realname _) => isTrue trivial
  | (_, .flags _) => isTrue trivial
  | (_, .floodMax _) => isTrue trivial

instance decidableSafeSettings (env : Env) (s : State)
    (settings : List (ClientId × ServiceSetting)) :
    Decidable (SafeSettings env s settings) :=
  match settings with
  | [] => isTrue trivial
  | setting :: rest =>
      have := decidableSafeSettings env (s.confSetService env setting) rest
      inferInstanceAs (Decidable (_ ∧ _))

instance (env : Env) (s : State) (event : Event) :
    Decidable (KeepsTabled env s event) :=
  match event with
  | .read now fragment finish lines =>
      inferInstanceAs (Decidable ((_ → _ → _) ∧
        MeetsLines env (KeepsTabledLine env) s
          (.read now fragment finish lines)))
  | .tick _ => inferInstanceAs (Decidable (_ → _))
  | .connectFailed _ => inferInstanceAs (Decidable (_ → _ → _))
  | .reroute => inferInstanceAs (Decidable (_ = _))
  | .rehash settings _ => decidableSafeSettings env s settings
  | .connect _ _ => isTrue trivial
  | .connected _ => isTrue trivial
  | .writeError => isTrue trivial
  | .boot _ => isTrue trivial
  | .service _ _ => isTrue trivial

def comeAndGo : List Event :=
  linkUp
    [⟨":0AB SID leaf. 2 0AC :leaf".toList, false⟩,
      ⟨":0AC UID nick 2 5 +i user host 0 0ACAAAAAA :gecos".toList, false⟩,
      ⟨":0ACAAAAAA NICK other 7".toList, false⟩,
      ⟨":0AB SQUIT leaf. :gone".toList, false⟩] ++
    [.rehash [(0, .nick "oper".toList)] 300, .read 9 false .eof [], .tick 10]

theorem tabled_comeAndGo :
    ∃ s, run (step .quiet) (start oneService 300) comeAndGo = .ok s ∧
      s.clients.client.next = 4 ∧ s.clients.Tabled s.clients.present := by
  have keeps : Meets (step .quiet) (KeepsTabled .quiet)
      (start oneService 300) comeAndGo := by
    decide +kernel
  have observed : (run (step .quiet) (start oneService 300)
      comeAndGo).toOption.map (·.clients.client.next) = some 4 := by
    decide +kernel
  obtain ⟨s, reached, seen⟩ := Except.exists_of_observed observed
  exact ⟨s, reached, seen,
    tabled_of_run .quiet oneService 300 _ s keeps reached⟩

/-- The connection times out before our service is introduced. -/
theorem not_tabled_connectTimeout :
    ∃ s, run (step .quiet) (start oneService 300)
        [.connect 0 (some ("hub.".toList, "pw".toList)),
          .connectFailed true] = .ok s ∧
      s.clients.unlinkedDeletes = [0] ∧
        ¬ s.clients.Tabled s.clients.present := by
  have observed : (run (step .quiet) (start oneService 300)
      [.connect 0 (some ("hub.".toList, "pw".toList)),
        .connectFailed true]).toOption.map (·.clients.unlinkedDeletes) =
          some [0] := by
    decide +kernel
  obtain ⟨s, reached, seen⟩ := Except.exists_of_observed observed
  refine ⟨s, reached, seen, fun tabled => ?_⟩
  have nothing := tabled.unlinkedDeletes
  rw [seen] at nothing
  cases nothing

end State

end RatboxServices
