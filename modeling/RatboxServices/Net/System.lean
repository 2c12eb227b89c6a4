import RatboxServices.Net.LineEffect

namespace RatboxServices

open CString

/-! The daemon as a state machine: its events and what each of them does. A run
that ends inside a read is the run whose last read brings only the lines up to
there. -/

inductive Event where
  /-- Data from the uplink: some without a line end, and the complete lines. -/
  | read (now : Int) (fragment : Bool) (finish : State.ReadEnd)
      (lines : List State.Incoming)
  | tick (now : Int)
  | connect (now : Int) (conf : Option (CString × CString))
  | connected (writeFails : Bool)
  | connectFailed (timeout : Bool)
  | writeError
  /-- The command `.connect` of an operator. -/
  | reroute
  /-- The command `.boot` of an operator. -/
  | boot (name : CString)
  | rehash (settings : List (ClientId × State.ServiceSetting))
      (pingTime : Int)
  /-- What a service does from a timer or from a direct connection. -/
  | service (now : Int) (act : ServiceAct)

def Event.now : Event → Int
  | .read now _ _ _ => now
  | .tick now => now
  | .connect now _ => now
  | .service now _ => now
  | _ => 0

def Event.isService : Event → Bool
  | .service _ _ => true
  | _ => false

/-- What `add_service` gets to know of a service. -/
structure ServiceBlock where
  name : CString
  uid : CString := []
  info : CString := []
  username : CString := []
  host : CString := []
  flags : Word := 0#32
  floodMax : Int := 0
  hasCommands : Bool := true

def ServiceBlock.client (block : ServiceBlock) : Client where
  name := block.name
  uid := block.uid
  info := block.info
  part := .service
    { username := block.username
      host := block.host
      flags := block.flags
      floodMax := block.floodMax
      hasCommands := block.hasCommands }

/-- `add_service`. -/
def Clients.addService (s : Clients) (block : ServiceBlock) : Clients :=
  { s with
    client := s.client.alloc block.client
    serviceList := Dlink.addTail s.client.next s.serviceList }

namespace State

def start (blocks : List ServiceBlock) (pingTime : Int) : State where
  clients := blocks.foldl Clients.addService .empty
  chans := .empty
  serverP := none
  connectEvents := 1
  pingTime := pingTime
  firstKill := 0
  numKill := 0

def isReading (s : State) : Bool :=
  match s.serverP with
  | some conn => conn.reading
  | none => false

def offline (s : State) : Bool :=
  match s.serverP with
  | none => true
  | some conn => conn.dead

/-- `connect_callback` is still to come. -/
def isAwaiting (s : State) : Bool :=
  match s.serverP with
  | some conn => conn.flags.has connConnecting && !conn.dead
  | none => false

/-- `u_connect`: a link that is not dead is given up. -/
def uConnect (env : Env) (s : State) : Except Stop State :=
  match s.serverP with
  | none => .ok s
  | some conn => if conn.dead then .ok s else s.signoffServer env

def isOperNamed (name : CString) (s : State) (target : ClientId) : Bool :=
  match s.clients.client.cell target with
  | some client =>
      match client.part with
      | .user user =>
          match user.oper with
          | some oper => irccmp oper.name name
          | none => false
      | _ => false
  | none => false

def bootOper (name : CString) (s : State) (target : ClientId) : State :=
  if s.isOperNamed name target then
    s.modifyClient target (·.onUser fun user => { user with oper := none })
  else s

/-- `u_boot` on `oper_list`, which is the users that are logged in. -/
def uBoot (name : CString) (s : State) : State :=
  s.clients.userList.foldl (bootOper name) s

def step (env : Env) (s : State) : Event → Except Stop State
  | .read now fragment finish lines =>
      if s.isReading then
        s.readServer env now (fragment || !lines.isEmpty) finish lines
      else .ok s
  | .tick now => s.checkServerStatus env now
  | .connect now conf =>
      if s.connectEvents = 0 then .ok s else s.connectToServer now conf
  | .connected writeFails =>
      .ok (if s.isAwaiting then s.signonServer writeFails else s)
  | .connectFailed timeout =>
      -- a failure without a timeout is only logged
      if s.isAwaiting && timeout then s.signoffServer env else .ok s
  | .writeError => .ok s.writeError
  | .reroute => s.uConnect env
  | .boot name => .ok (s.uBoot name)
  | .rehash settings pingTime => .ok (s.rehash env settings pingTime)
  | .service now act => execService env now s act

theorem uBoot_effects {env : Env} {Allowed : State → Hazard → Prop}
    {Chan : Chans → Chans → Prop} (name : CString) (s : State) :
    Effects env Allowed Chan s (s.uBoot name) := by
  unfold uBoot
  generalize s.clients.userList = users
  induction users generalizing s with
  | nil => exact Effects.refl
  | cons target rest ih =>
      have first : Effects env Allowed Chan s (s.bootOper name target) := by
        unfold bootOper
        split
        · exact Effects.modifyUser target _
        · exact Effects.refl
      exact first.trans (ih _)

theorem uBoot_chans (name : CString) (s : State) :
    (s.uBoot name).chans = s.chans := by
  unfold uBoot
  generalize s.clients.userList = users
  induction users generalizing s with
  | nil => rfl
  | cons target rest ih =>
      rw [List.foldl_cons, ih]
      unfold bootOper
      split
      · rfl
      · rfl

section Rehash

variable (env : Env)

theorem confSetService_eq (s : State) (setting : ClientId × ServiceSetting) :
    s.confSetService env setting =
      s.onClients fun _ => (s.confSetService env setting).clients := by
  unfold confSetService markReintroduce confSetServiceNick
  split
  · rfl
  · split <;> (try split) <;> (try split) <;> rfl

theorem confSetServices_eq (settings : List (ClientId × ServiceSetting))
    (s : State) :
    settings.foldl (confSetService env) s = s.onClients fun _ =>
      (settings.foldl (confSetService env) s).clients := by
  induction settings generalizing s with
  | nil => rfl
  | cons setting rest ih =>
      rw [List.foldl_cons, ih, confSetService_eq]
      rfl

theorem rehash_eq (settings : List (ClientId × ServiceSetting))
    (pingTime : Int) (s : State) :
    s.rehash env settings pingTime =
      { s with
        clients := (s.rehash env settings pingTime).clients
        pingTime := validPingTime pingTime } := by
  unfold rehash reloadServices
  dsimp only
  rw [confSetServices_eq]
  split
  · rfl
  · rfl

end Rehash

section Read

variable {env : Env} {now : Int} {received : Bool} {finish : ReadEnd}
  {lines : List Incoming} {s t : State}

def MeetsLines (env : Env) (Condition : State → Incoming → Prop)
    (s : State) : Event → Prop
  | .read now fragment finish lines =>
      s.isReading = true → ∀ after,
        s.readAny env now (fragment || !lines.isEmpty) finish = .ok after →
          Meets (readTurn env now) Condition
            (after.onLink (·.clearFlag connSentping)) lines
  | _ => True

instance (env : Env) (Condition : State → Incoming → Prop)
    [∀ s line, Decidable (Condition s line)] (s : State) (event : Event) :
    Decidable (MeetsLines env Condition s event) :=
  match event with
  | .read now fragment finish lines =>
      have : Decidable (∀ after,
          s.readAny env now (fragment || !lines.isEmpty) finish =
            .ok after →
          Meets (readTurn env now) Condition
            (after.onLink (·.clearFlag connSentping)) lines) :=
        Except.decidableForall fun _ => inferInstance
      inferInstanceAs (Decidable (_ → _))
  | .tick _ => isTrue trivial
  | .connect _ _ => isTrue trivial
  | .connected _ => isTrue trivial
  | .connectFailed _ => isTrue trivial
  | .writeError => isTrue trivial
  | .reroute => isTrue trivial
  | .boot _ => isTrue trivial
  | .rehash _ _ => isTrue trivial
  | .service _ _ => isTrue trivial

theorem meetsLines_of_forall {Condition : State → Incoming → Prop}
    (always : ∀ s line, Condition s line) (s : State) (event : Event) :
    MeetsLines env Condition s event := by
  cases event with
  | read now fragment finish lines =>
      exact fun _ after _ => meets_of_forall always _ lines
  | _ => exact trivial

theorem MeetsLines.mono {Condition Weaker : State → Incoming → Prop}
    (weaker : ∀ s line, Condition s line → Weaker s line) {event : Event}
    (meets : MeetsLines env Condition s event) :
    MeetsLines env Weaker s event := by
  cases event with
  | read now fragment finish lines =>
      exact fun reading after first => (meets reading after first).mono weaker
  | _ => exact trivial

theorem readServer_eq_ok
    (read : s.readServer env now received finish lines = .ok t) :
    ∃ after, s.readAny env now received finish = .ok after ∧
      (t = after ∨
        run (readTurn env now) (after.onLink (·.clearFlag connSentping))
          lines = .ok t) := by
  unfold readServer at read
  obtain ⟨after, first, read⟩ := Except.bind_eq_ok.mp read
  obtain ⟨conn, _, read⟩ := Except.bind_eq_ok.mp read
  refine ⟨after, first, ?_⟩
  split at read
  · cases read
    exact Or.inl rfl
  · exact Or.inr read

theorem readServer_cut {u : State} {first rest : List Incoming}
    (read : s.readServer env now received finish (first ++ rest) = .ok t)
    (cut : s.readServer env now received finish first = .ok u) :
    ∃ after, s.readAny env now received finish = .ok after ∧
      (u = t ∨
        run (readTurn env now) (after.onLink (·.clearFlag connSentping))
          first = .ok u ∧ run (readTurn env now) u rest = .ok t) := by
  unfold readServer at read cut
  obtain ⟨after, begun, read⟩ := Except.bind_eq_ok.mp read
  obtain ⟨conn, link, read⟩ := Except.bind_eq_ok.mp read
  obtain ⟨same, again, cut⟩ := Except.bind_eq_ok.mp cut
  rw [begun, Except.ok.injEq] at again
  subst again
  obtain ⟨other, relink, cut⟩ := Except.bind_eq_ok.mp cut
  rw [link, Except.ok.injEq] at relink
  subst relink
  refine ⟨after, begun, ?_⟩
  split at read
  · rename_i dead
    rw [if_pos dead] at cut
    cases read
    cases cut
    exact Or.inl rfl
  · rename_i open_
    rw [if_neg open_] at cut
    obtain ⟨middle, head, tail⟩ := run_append_eq_ok.mp read
    rw [cut, Except.ok.injEq] at head
    subst head
    exact Or.inr ⟨cut, tail⟩

end Read

end State

/-- `rb_string_to_array` as documented: words between spaces, and after a colon
the rest of the line. -/
def splitParams : Nat → CString → List CString
  | 0, _ => []
  | limit + 1, text =>
      match text.dropWhile (· == ' ') with
      | [] => []
      | ':' :: rest => [rest]
      | text =>
          match CString.cut ' ' text with
          | (word, none) => [word]
          | (word, some rest) => word :: splitParams limit rest

/-- What the list macros do to a node whose links are `NULL`: the list loses
its head and its tail, and its counter goes down. -/
def wipeList (_ : ClientId) (list : DlinkList ClientId) :
    DlinkList ClientId :=
  ⟨[], (list.length + 18446744073709551615) % 18446744073709551616⟩

def Env.quiet : Env where
  wild := wipeList
  hooks :=
    { channelJoin := fun _ _ _ => []
      modeOp := fun _ _ _ => []
      modeVoice := fun _ _ _ => []
      modeSimple := fun _ _ => []
      modeBan := fun _ _ _ => []
      sjoinLowerts := fun _ _ => none
      channelTopic := fun _ _ => [] }
  stringToArray := splitParams 15
  nickLen := 30
  topicLen := 160
  myName := "services.".toList
  maskMatch := fun _ _ => false
  clientFloodTime := 60
  clientFloodMax := 20
  clientFloodMaxIgnore := 30
  findIgnore := fun _ => false
  findConfOper := fun _ _ => none
  crypt := fun key _ => key
  burstLogin := fun _ _ _ => none
  activeJupes := []
  helpPenalty := fun _ _ _ => 0
  findCommand := fun _ _ => none
  runCommand := fun _ _ _ _ _ => ([], 0)

/-- The connection to `hub.` up to its `PASS` and `SERVER`, and the lines that
come with them. -/
def linkUp (rest : List State.Incoming) : List Event :=
  [.connect 0 (some ("hub.".toList, "pw".toList)), .connected false,
    .read 1 false .again
      (⟨"PASS pw TS 6 0AB".toList, false⟩ ::
        ⟨"SERVER hub. 1 :hub".toList, false⟩ :: rest)]

end RatboxServices
