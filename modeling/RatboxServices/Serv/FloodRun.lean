import RatboxServices.Serv.HelpIndex
import RatboxServices.Serv.Regs

namespace RatboxServices

open CString State

/-! How often a client can have a password compared before `handle_service`
stops looking at its commands. -/

structure FloodConf where
  clientFloodTime : Nat
  clientFloodMax : Nat
  clientFloodMaxIgnore : Nat
  umaxLogins : Nat
  crypt : CString → CString → CString

/-- The part of `struct service` that `handle_service` reads. -/
structure FloodService where
  flags : BitVec 64
  tables : ServiceTables
  flood : Int
  floodMax : Int

/-- What `s_user_login` reads of an account. -/
structure LoginAccount where
  name : CString
  password : CString
  flags : Word := 0#32
  suspendTime : Int := 0
  /-- How many clients are logged in to it. -/
  logins : Nat := 0
  deriving DecidableEq, Repr

/-- `USER_SUSPEND_EXPIRED`, for a suspended account. -/
def LoginAccount.suspendExpired (account : LoginAccount) (now : Int) : Bool :=
  account.suspendTime != 0 && decide (account.suspendTime ≤ now)

/-- A command of a client, with what is there besides the client when it comes:
the service and the results of the searches. -/
structure Call where
  now : Int
  service : FloodService
  command : CString
  parv : List CString
  msg : Bool
  /-- `find_ignore` -/
  ignored : Bool
  findConfOper : User → Option CString → Option ConfOper
  findUserReg : CString → Option LoginAccount
  /-- The help penalty of the command that help is asked for. -/
  helpPenalty : Int
  /-- The account that a function of a command leaves the client with, and what
  it returns. -/
  runCommand : Nat → User → List CString → Option CString × Int

namespace Flood

variable {conf : FloodConf} {call : Call} {user : User}

/-- `flood_count`, an `unsigned int`, is raised. -/
def count (amount : Int) (user : User) : User :=
  { user with floodCount := (user.floodCount + amount) % 4294967296 }

/-- What comes of a command: the client without the flood count raised, what
the flood count of the client is raised by, the flood of the service, and
whether a password was compared. -/
structure Served where
  user : User
  charge : Int
  flood : Int
  compared : Bool

/-- `s_user_login`: the client, and whether the password was compared. It
always returns 1. -/
def sUserLogin (conf : FloodConf) (call : Call) (user : User) :
    Except Stop (User × Bool) := do
  if user.userReg.isSome then .ok (user, false)
  else
    match call.findUserReg (← param call.parv 0) with
    | none => .ok (user, false)
    | some account =>
        if account.flags.has usFlagsSuspended &&
            !account.suspendExpired call.now then .ok (user, false)
        else if account.flags.has usFlagsNeverloggedin then .ok (user, false)
        else if conf.umaxLogins ≠ 0 ∧ conf.umaxLogins ≤ account.logins then
          .ok (user, false)
        else
          let given ← param call.parv 1
          if conf.crypt given account.password ≠ account.password then
            .ok (user, true)
          else .ok ({ user with userReg := some account.name }, true)

/-- `OLOGIN`. -/
def operLogin (conf : FloodConf) (call : Call) (user : User) :
    Except Stop Served := do
  let flood := call.service.flood
  if user.oper.isSome then .ok ⟨user, 0, flood, false⟩
  else if call.parv.length < 2 then .ok ⟨user, 1, flood, false⟩
  else
    match call.findConfOper user (some (← param call.parv 0)) with
    | none => .ok ⟨user, 1, flood, false⟩
    | some oper =>
        let given ← param call.parv 1
        if !oper.accepts conf.crypt given then .ok ⟨user, 0, flood, true⟩
        else .ok ⟨{ user with oper := some oper }, 0, flood, true⟩

def tableCommand (conf : FloodConf) (call : Call) (user : User) :
    Except Stop Served := do
  let flood := call.service.flood
  match call.service.tables.findCommand call.command with
  | none => .ok ⟨user, 1, flood + 1, false⟩
  | some entry =>
      if entry.noAccess user then .ok ⟨user, 1, flood + 1, false⟩
      else if entry.userreg && user.userReg.isNone then
        .ok ⟨user, 1, flood + 1, false⟩
      else if call.parv.length < entry.minparc then
        .ok ⟨user, 1, flood + 1, false⟩
      else
        match entry.func with
        | none => .ok ⟨user, 0, flood, false⟩
        | some .sUserLogin => do
            let (user, compared) ← sUserLogin conf call user
            .ok ⟨user, 1, flood + 1, compared⟩
        | some (.other index) =>
            let (userReg, retval) := call.runCommand index user call.parv
            .ok ⟨{ user with userReg := userReg }, retval, flood + retval,
              false⟩

def isOperLogin (command : CString) : Bool :=
  strcasecmp command "OPERLOGIN".toList || strcasecmp command "OLOGIN".toList

def isOperLogout (command : CString) : Bool :=
  strcasecmp command "OPERLOGOUT".toList || strcasecmp command "OLOGOUT".toList

/-- `msg && ServiceShortcut(service_p)` -/
def wantsShortcut (call : Call) : Bool :=
  call.msg && call.service.flags &&& Newconf.serviceShortcut != 0

/-- `handle_service` behind the flood limits. -/
def serviceCommand (conf : FloodConf) (call : Call) (user : User) :
    Except Stop Served :=
  let flood := call.service.flood
  let stealth := call.service.flags &&& Newconf.serviceStealth != 0 &&
    user.oper.isNone && !user.umode.has clientOper
  if wantsShortcut call then
    .ok (if stealth then ⟨user, 0, flood, false⟩
      else ⟨user, 1, flood + 1, false⟩)
  else if strcasecmp call.command "HELP".toList then
    if stealth then .ok ⟨user, 0, flood, false⟩
    else if call.service.flags &&& Newconf.serviceLoginhelp != 0 &&
        user.userReg.isNone && user.oper.isNone &&
        !user.umode.has clientOper then .ok ⟨user, 0, flood, false⟩
    else .ok ⟨user, 2, flood + 2 + call.helpPenalty, false⟩
  else if isOperLogin call.command then operLogin conf call user
  else if isOperLogout call.command then
    .ok (if user.oper.isNone then ⟨user, 1, flood, false⟩
      else ⟨{ user with oper := none }, 0, flood, false⟩)
  else if stealth then .ok ⟨user, 0, flood, false⟩
  else tableCommand conf call user

def expired (conf : FloodConf) (call : Call) (user : User) : Bool :=
  decide (user.floodTime + conf.clientFloodTime < call.now)

def restarted (conf : FloodConf) (call : Call) (user : User) : User :=
  if expired conf call user then
    { user with floodTime := call.now, floodCount := 0 }
  else user

inductive Limit
  | ignored
  | tooMany
  | paced
  | pass
  deriving DecidableEq, Repr

def limit (conf : FloodConf) (call : Call) (user : User) : Limit :=
  let count := (restarted conf call user).floodCount
  if call.ignored && (!strcasecmp call.command "OLOGIN".toList ||
      (call.findConfOper user none).isNone) then .ignored
  else if conf.clientFloodMaxIgnore < count then .tooMany
  else if (call.service.floodMax ≠ 0 ∧
      call.service.floodMax < call.service.flood) ∨
      conf.clientFloodMax < count then .paced
  else .pass

/-- What `handle_service` does, and whether the flood count started again. -/
def served (conf : FloodConf) (call : Call) (user : User) :
    Except Stop (Served × Bool) := do
  let flood := call.service.flood
  if call.service.tables.command.isNone then
    .ok (⟨user, 0, flood, false⟩, false)
  else if user.oper.isSome then
    let served ← serviceCommand conf call user
    .ok (served, false)
  else
    match limit conf call user with
    | .ignored => .ok (⟨user, 0, flood, false⟩, false)
    | .tooMany | .paced =>
        .ok (⟨restarted conf call user, 1, flood, false⟩,
          expired conf call user)
    | .pass => do
        let served ← serviceCommand conf call (restarted conf call user)
        .ok (served, expired conf call user)

/-- A client, and how many passwords were compared for it since its flood count
started again. -/
structure FloodState where
  user : User
  compared : Nat

/-- `handle_service`. -/
def handleService (conf : FloodConf) (state : FloodState) (call : Call) :
    Except Stop FloodState := do
  let (served, reset) ← served conf call state.user
  .ok
    { user := count served.charge served.user
      compared := (if reset then 0 else state.compared) +
        (if served.compared then 1 else 0) }

/-- The client names an operator block and gives a password for it, and the
flood limits let the command through. -/
def AsksOperPassword (conf : FloodConf) (call : Call) (user : User) : Prop :=
  call.service.tables.command ≠ none ∧ user.oper = none ∧
    limit conf call user = .pass ∧ wantsShortcut call = false ∧
    isOperLogin call.command = true ∧
    ∃ name password, call.parv[0]? = some name ∧
      call.parv[1]? = some password ∧
      (call.findConfOper (restarted conf call user) (some name)).isSome = true

/-- What the function of the command returns, for a command whose function is
not `s_user_login`. -/
def returned (call : Call) (user : User) : Option Int :=
  match (call.service.tables.findCommand call.command).bind (·.func) with
  | some (.other index) => some (call.runCommand index user call.parv).2
  | _ => none

/-- The flood count does not overflow, whether a command costs two or what its
function returns. -/
def Room (call : Call) (user : User) : Prop :=
  user.floodCount + 2 < 4294967296 ∧
    ∀ retval, returned call user = some retval →
      0 ≤ retval ∧ user.floodCount + retval < 4294967296

def Charged (conf : FloodConf) (state : FloodState) (call : Call) : Prop :=
  ¬AsksOperPassword conf call state.user ∧
    Room call (restarted conf call state.user)

def Costs (call : Call) (user : User) (charge : Int) : Prop :=
  (0 ≤ charge ∧ charge ≤ 2) ∨ returned call user = some charge

theorem Costs.one (call : Call) (user : User) : Costs call user 1 :=
  .inl ⟨by decide, by decide⟩

theorem Room.costs {charge : Int} (room : Room call user)
    (costs : Costs call user charge) :
    0 ≤ charge ∧ user.floodCount + charge < 4294967296 := by
  obtain ⟨two, values⟩ := room
  rcases costs with ⟨positive, small⟩ | retval
  · exact ⟨positive, by omega⟩
  · exact values charge retval

/-- The client is still no operator, its flood count is not touched, and a
password that was compared is charged for. -/
structure Fair (call : Call) (user : User) (result : Served) : Prop where
  oper : result.user.oper = none
  count : result.user.floodCount = user.floodCount
  costs : Costs call user result.charge
  charged : result.compared = true → result.charge = 1

theorem sUserLogin_frame {user after : User} {compared : Bool}
    (ok : sUserLogin conf call user = .ok (after, compared)) :
    after.oper = user.oper ∧ after.floodCount = user.floodCount := by
  unfold sUserLogin at ok
  split at ok
  · cases ok
    exact ⟨rfl, rfl⟩
  · obtain ⟨name, _, ok⟩ := Except.bind_eq_ok.mp ok
    split at ok
    · cases ok
      exact ⟨rfl, rfl⟩
    · split at ok
      · cases ok
        exact ⟨rfl, rfl⟩
      · split at ok
        · cases ok
          exact ⟨rfl, rfl⟩
        · split at ok
          · cases ok
            exact ⟨rfl, rfl⟩
          · obtain ⟨given, _, ok⟩ := Except.bind_eq_ok.mp ok
            split at ok
            · cases ok
              exact ⟨rfl, rfl⟩
            · cases ok
              exact ⟨rfl, rfl⟩

theorem Fair.plain {charge : Int} (out : user.oper = none)
    (small : 0 ≤ charge ∧ charge ≤ 2) (flood : Int) :
    Fair call user ⟨user, charge, flood, false⟩ :=
  ⟨out, rfl, .inl small, fun impossible => nomatch impossible⟩

theorem tableCommand_fair {result : Served} (out : user.oper = none)
    (ok : tableCommand conf call user = .ok result) :
    Fair call user result := by
  unfold tableCommand at ok
  split at ok
  · cases ok
    exact .plain out (by decide) _
  · rename_i entry found
    split at ok
    · cases ok
      exact .plain out (by decide) _
    · split at ok
      · cases ok
        exact .plain out (by decide) _
      · split at ok
        · cases ok
          exact .plain out (by decide) _
        · split at ok
          · cases ok
            exact .plain out (by decide) _
          · obtain ⟨⟨after, compared⟩, login, ok⟩ := Except.bind_eq_ok.mp ok
            cases ok
            obtain ⟨oper, count⟩ := sUserLogin_frame login
            exact ⟨oper.trans out, count, .one call user, fun _ => rfl⟩
          · rename_i index func
            cases ok
            have retval : returned call user =
                some (call.runCommand index user call.parv).2 := by
              rw [returned, found, Option.bind_some, func]
            exact ⟨out, rfl, .inr retval, fun impossible => nomatch impossible⟩

theorem param_eq_ok {parv : List CString} {i : Nat} {value : CString} :
    param parv i = .ok value ↔ parv[i]? = some value := by
  unfold param
  cases parv[i]? <;> simp

theorem operLogin_fair {result : Served} (out : user.oper = none)
    (unasked : ¬∃ name password, call.parv[0]? = some name ∧
      call.parv[1]? = some password ∧
      (call.findConfOper user (some name)).isSome = true)
    (ok : operLogin conf call user = .ok result) : Fair call user result := by
  unfold operLogin at ok
  split at ok
  · cases ok
    exact .plain out (by decide) _
  · split at ok
    · cases ok
      exact .plain out (by decide) _
    · obtain ⟨name, named, ok⟩ := Except.bind_eq_ok.mp ok
      split at ok
      · cases ok
        exact .plain out (by decide) _
      · rename_i oper found
        obtain ⟨given, gave, ok⟩ := Except.bind_eq_ok.mp ok
        exact absurd ⟨name, given, param_eq_ok.mp named, param_eq_ok.mp gave,
          by rw [found]; rfl⟩ unasked

theorem serviceCommand_fair {result : Served} (out : user.oper = none)
    (unasked : wantsShortcut call = false → isOperLogin call.command = true →
      ¬∃ name password, call.parv[0]? = some name ∧
        call.parv[1]? = some password ∧
        (call.findConfOper user (some name)).isSome = true)
    (ok : serviceCommand conf call user = .ok result) :
    Fair call user result := by
  unfold serviceCommand at ok
  simp only [out, Option.isNone_none, Bool.and_true] at ok
  split at ok
  · cases ok
    split
    · exact .plain out (by decide) _
    · exact .plain out (by decide) _
  · rename_i direct
    split at ok
    · split at ok
      · cases ok
        exact .plain out (by decide) _
      · split at ok
        · cases ok
          exact .plain out (by decide) _
        · cases ok
          exact .plain out (by decide) _
    · split at ok
      · rename_i login
        exact operLogin_fair out
          (unasked (Bool.eq_false_of_not_eq_true direct) login) ok
      · split at ok
        · cases ok
          exact .plain out (by decide) _
        · split at ok
          · cases ok
            exact .plain out (by decide) _
          · exact tableCommand_fair out ok

theorem restarted_oper (conf : FloodConf) (call : Call) (user : User) :
    (restarted conf call user).oper = user.oper := by
  unfold restarted
  split
  · rfl
  · rfl

theorem restarted_count (conf : FloodConf) (call : Call) (user : User) :
    (restarted conf call user).floodCount =
      if expired conf call user then 0 else user.floodCount := by
  unfold restarted
  split
  · rfl
  · rfl

theorem count_le_of_pass (pass : limit conf call user = .pass) :
    (restarted conf call user).floodCount ≤ conf.clientFloodMax := by
  unfold limit at pass
  dsimp only at pass
  split at pass
  · cases pass
  · split at pass
    · cases pass
    · split at pass
      · cases pass
      · rename_i unpaced
        omega

/-- The flood count of a client is still what an `unsigned int` holds once it
is charged for the command. -/
def Holds (result : Served) : Prop :=
  0 ≤ result.charge ∧ result.user.floodCount + result.charge < 4294967296

structure Step (conf : FloodConf) (user : User) (result : Served × Bool) :
    Prop where
  oper : result.1.user.oper = none
  count : result.1.user.floodCount = if result.2 then 0 else user.floodCount
  holds : Holds result.1
  charged : result.1.compared = true → result.1.charge = 1
  below : result.1.compared = true →
    result.1.user.floodCount ≤ conf.clientFloodMax

theorem Step.quiet {result : Served × Bool} (oper : result.1.user.oper = none)
    (count : result.1.user.floodCount =
      if result.2 then 0 else user.floodCount) (holds : Holds result.1)
    (uncompared : result.1.compared = false) : Step conf user result := by
  refine ⟨oper, count, holds, fun compared => ?_, fun compared => ?_⟩
  · rw [uncompared] at compared
    cases compared
  · rw [uncompared] at compared
    cases compared

theorem served_step {result : Served × Bool} (out : user.oper = none)
    (small : user.floodCount < 4294967296)
    (unasked : ¬AsksOperPassword conf call user)
    (room : Room call (restarted conf call user))
    (ok : served conf call user = .ok result) : Step conf user result := by
  have fresh : (restarted conf call user).oper = none :=
    (restarted_oper conf call user).trans out
  have free (flood : Int) : Holds ⟨user, 0, flood, false⟩ := by
    refine ⟨Int.le_refl 0, ?_⟩
    dsimp only
    omega
  have one (flood : Int) : Holds ⟨restarted conf call user, 1, flood, false⟩ :=
    room.costs (.one call _)
  unfold served at ok
  split at ok
  · cases ok
    exact .quiet out rfl (free _) rfl
  · rename_i table
    rw [out, Option.isSome_none, if_neg Bool.false_ne_true] at ok
    split at ok
    · cases ok
      exact .quiet out rfl (free _) rfl
    · cases ok
      exact .quiet fresh (restarted_count conf call user) (one _) rfl
    · cases ok
      exact .quiet fresh (restarted_count conf call user) (one _) rfl
    · rename_i pass
      obtain ⟨done, command, ok⟩ := Except.bind_eq_ok.mp ok
      cases ok
      have fair := serviceCommand_fair fresh
        (fun direct login asks =>
          unasked ⟨fun missing => table (by simp [missing]),
            out, pass, direct, login, asks⟩) command
      have holds : Holds done := by
        rw [Holds, fair.count]
        exact room.costs fair.costs
      refine ⟨fair.oper, fair.count.trans (restarted_count conf call user),
        holds, fair.charged, fun _ => ?_⟩
      rw [fair.count]
      exact count_le_of_pass pass

structure Invariant (conf : FloodConf) (state : FloodState) : Prop where
  oper : state.user.oper = none
  charged : (state.compared : Int) ≤ state.user.floodCount
  small : state.user.floodCount < 4294967296
  bound : state.compared ≤ conf.clientFloodMax + 1

theorem Invariant.step {state after : FloodState}
    (charged : Charged conf state call) (inv : Invariant conf state)
    (ok : handleService conf state call = .ok after) :
    Invariant conf after := by
  unfold handleService at ok
  obtain ⟨result, done, ok⟩ := Except.bind_eq_ok.mp ok
  cases ok
  have step := served_step inv.oper inv.small charged.1 charged.2 done
  obtain ⟨positive, room⟩ := step.holds
  have start : ((if result.2 then 0 else state.compared : Nat) : Int) ≤
      result.1.user.floodCount := by
    rw [step.count]
    split
    · exact Int.le_refl 0
    · exact inv.charged
  have old : (if result.2 then 0 else state.compared) ≤
      conf.clientFloodMax + 1 := by
    split
    · exact Nat.zero_le _
    · exact inv.bound
  have total : (result.1.user.floodCount + result.1.charge) % 4294967296 =
      result.1.user.floodCount + result.1.charge :=
    Int.emod_eq_of_lt (by omega) room
  cases compared : result.1.compared with
  | false =>
      refine ⟨step.oper, ?_, ?_, ?_⟩
      · simp only [count, total, Bool.false_eq_true, if_false]
        omega
      · simpa only [count, total] using room
      · simpa [compared] using old
  | true =>
      have charge := step.charged compared
      have below := step.below compared
      refine ⟨step.oper, ?_, ?_, ?_⟩
      · simp only [count, total, if_true]
        omega
      · simpa only [count, total] using room
      · simp only [if_true]
        omega

structure Fresh (state : FloodState) : Prop where
  oper : state.user.oper = none
  count : state.user.floodCount = 0
  compared : state.compared = 0

/-- As long as no operator password is compared and the flood count does not
overflow, one password more than the limit is compared at most. -/
theorem compared_le {start after : FloodState} {calls : List Call}
    (fresh : Fresh start)
    (charged : Meets (handleService conf) (Charged conf) start calls)
    (ran : run (handleService conf) start calls = .ok after) :
    after.compared ≤ conf.clientFloodMax + 1 := by
  have first : Invariant conf start := by
    refine ⟨fresh.oper, ?_, ?_, ?_⟩
    · rw [fresh.compared, fresh.count]
      exact Int.le_refl 0
    · rw [fresh.count]
      decide
    · rw [fresh.compared]
      exact Nat.zero_le _
  exact (run_preserves_of_meets (Invariant conf)
    (fun _ _ _ charged inv ok => inv.step charged ok) charged first ran).bound

def defaults : FloodConf where
  clientFloodTime := 60
  clientFloodMax := 20
  clientFloodMaxIgnore := 30
  umaxLogins := 5
  crypt := fun given _ => given

def loginService : FloodService where
  flags := 0
  tables :=
    { id := "USERSERV".toList
      command := some [{ cmd := "LOGIN".toList, func := some .sUserLogin
                         minparc := 2 }]
      commandSize := 64
      ucommand := none
      added :=
        { id := [], name := [], command := none, commandSize := 0
          ucommand := none, sized := ServiceHandler.sized_none
          ended := ServiceHandler.ended_none } }
  flood := 0
  floodMax := 0

def wrongLogin (command : CString) : Call where
  now := 0
  service := loginService
  command := command
  parv := ["ann".toList, "guess".toList]
  msg := false
  ignored := false
  findConfOper := fun _ _ => some { name := "ann".toList, pass := "key".toList }
  findUserReg := fun _ =>
    some { name := "ann".toList, password := "key".toList }
  helpPenalty := 0
  runCommand := fun _ user _ => (user.userReg, 0)

theorem compared_le_login :
    ∃ after, run (handleService defaults) ⟨{}, 0⟩
        [wrongLogin "LOGIN".toList] = .ok after ∧
      after.compared ≤ defaults.clientFloodMax + 1 := by
  have charged : Meets (handleService defaults) (Charged defaults) ⟨{}, 0⟩
      [wrongLogin "LOGIN".toList] := by
    refine ⟨⟨?_, by decide, ?_⟩, fun _ _ => trivial⟩
    · rintro ⟨_, _, _, _, login, _⟩
      revert login
      decide
    · intro retval returns
      cases returns
  exact ⟨_, rfl, compared_le ⟨rfl, rfl, rfl⟩ charged rfl⟩

/-- A wrong operator password costs nothing: all of 22 are compared. -/
theorem not_compared_le_ologin :
    ∃ after, run (handleService defaults) ⟨{}, 0⟩
        (List.replicate 22 (wrongLogin "OLOGIN".toList)) = .ok after ∧
      ¬after.compared ≤ defaults.clientFloodMax + 1 :=
  ⟨_, rfl, by decide +kernel⟩

end Flood

end RatboxServices
