import RatboxServices.Serv.RegCommand

namespace RatboxServices

open CString

/-! The commands of `s_userserv.c` that ask for a token: `RESETPASS`,
`RESETEMAIL` and `ACTIVATE`. The tokens are in the database, under the name of
the account they are for. -/

/-- What the commands read of the configuration. The durations are `int`. -/
structure TokenConfig where
  disableEmail : Bool
  allowResetpass : Bool
  allowResetemail : Bool
  uresetRegtimeDuration : Int
  uresetpassDuration : Int
  uresetemailDuration : Int
  passwdLen : Nat
  resetpassInt : -2147483648 ≤ uresetpassDuration ∧
    uresetpassDuration < 2147483648
  resetemailInt : -2147483648 ≤ uresetemailDuration ∧
    uresetemailDuration < 2147483648

/-- `set_default_conf`, but with mail and with both resets allowed. -/
def TokenConfig.default : TokenConfig where
  disableEmail := false
  allowResetpass := true
  allowResetemail := true
  uresetRegtimeDuration := 1209600
  uresetpassDuration := 86400
  uresetemailDuration := 86400
  passwdLen := 35
  resetpassInt := by decide
  resetemailInt := by decide

/-- A row of table `users_resetpass`. -/
structure ResetpassRow where
  username : CString
  token : CString
  time : Int
  deriving DecidableEq, Repr

/-- A row of table `users_resetemail`. -/
structure ResetemailRow where
  username : CString
  token : CString
  email : Option CString
  time : Int
  deriving DecidableEq, Repr

/-- What has happened to tokens, which the source does not keep. A token is for
an account, not for a name. -/
inductive TokenNote where
  | verifyIssued (account : UserRegId) (token : CString)
  | passIssued (account : UserRegId) (token : CString) (time : Int)
  | passReset (account : UserRegId)
  | emailIssued (account : UserRegId) (token : CString) (time : Int)
      (address : CString)
  | emailConfirmed (account : UserRegId) (given : CString) (token : CString)
      (time : Int) (address : CString)
  | emailReset (account : UserRegId)
  deriving DecidableEq, Repr

structure TokenState where
  regs : Regs
  password : UserRegId → CString
  /-- `email` of the accounts, empty where there is none. -/
  email : UserRegId → CString
  /-- Columns `username` and `verify_token` of table `users`. -/
  verify : List (CString × CString)
  resetpass : List ResetpassRow
  resetemail : List ResetemailRow
  /-- The newest note is the first. -/
  notes : List TokenNote

/-- What comes from outside in one command: `get_password`, `get_crypt` and
what the mail system says. -/
structure TokenChance where
  token : CString
  password : CString
  canSendEmail : Bool
  sent : Bool
  validEmail : Bool

/-- `rb_time() - duration` as `%lu` prints it. -/
def timeSince (now duration : Int) : Int :=
  (now - duration) % 18446744073709551616

namespace TokenState

def start : TokenState where
  regs := .empty
  password := fun _ => []
  email := fun _ => []
  verify := []
  resetpass := []
  resetemail := []
  notes := []

structure NewUser where
  password : CString
  email : CString
  verifyToken : CString

/-- The tokens of names that are no longer in table `users` are deleted:
`free_user_reg` deletes by the name of the account. -/
def dropTokens (s : TokenState) (regs : Regs) : TokenState :=
  let gone (name : CString) : Bool :=
    decide (name ∈ s.regs.users) && !decide (name ∈ regs.users)
  { s with
    regs := regs
    verify := s.verify.filter fun row => !gone row.1
    resetpass := s.resetpass.filter fun row => !gone row.username
    resetemail := s.resetemail.filter fun row => !gone row.username }

def follow (s : TokenState) (regs : Regs) (given : NewUser) : TokenState :=
  let account := s.regs.user.next
  let s := s.dropTokens regs
  match regs.user.cell account with
  | none => s
  | some reg =>
      { s with
        password := Function.update s.password account given.password
        email := Function.update s.email account given.email
        verify := s.verify ++ [(reg.name, given.verifyToken)]
        notes := .verifyIssued account given.verifyToken :: s.notes }

/-- `s_user_activate`. -/
def sUserActivate (client : ClientId) (name given : CString)
    (s : TokenState) : TokenState :=
  let right :=
    match s.regs.findUserReg name with
    | none => false
    | some account =>
        let column := (s.verify.find? fun row =>
          row.1 == s.regs.userName account).map Prod.snd
        match column with
        | none => false
        | some token => !token.isEmpty && token == given
  { s with regs := s.regs.sUserActivate client name right }

def isBarred (now : Int) (reg : UserReg) : Bool :=
  reg.flags.has usFlagsSuspended && !reg.suspendExpired now

/-- The request of `s_user_resetpass`. -/
def askResetpass (conf : TokenConfig) (now : Int) (account : UserRegId)
    (chance : TokenChance) (s : TokenState) : TokenState :=
  let name := s.regs.userName account
  let pending := s.resetpass.countP fun row =>
    row.username == name &&
      decide (timeSince now conf.uresetpassDuration < row.time)
  if (s.email account).isEmpty then s
  else if pending ≠ 0 then s
  else if !chance.canSendEmail then s
  else
    { s with
      resetpass := (s.resetpass.filter fun row => row.username != name) ++
        [{ username := name, token := chance.token, time := now }]
      notes := .passIssued account chance.token now :: s.notes }

/-- The answer to a token of `s_user_resetpass`. -/
def authResetpass (conf : TokenConfig) (now : Int) (account : UserRegId)
    (given new : CString) (chance : TokenChance) (s : TokenState) :
    TokenState :=
  let name := s.regs.userName account
  if new.isEmpty || decide (conf.passwdLen < new.length) then s
  else
    match s.resetpass.find? fun row =>
        row.username == name &&
          decide (timeSince now conf.uresetpassDuration < row.time) with
    | none => s
    | some row =>
        if row.token == given then
          { s with
            resetpass := s.resetpass.filter fun row => row.username != name
            password := Function.update s.password account chance.password
            notes := .passReset account :: s.notes }
        else s

/-- `s_user_resetpass`; a parameter that is not there is empty. -/
def sUserResetpass (conf : TokenConfig) (now : Int) (client : ClientId)
    (name given new : CString) (chance : TokenChance) (s : TokenState) :
    Except RegStop TokenState := do
  if conf.disableEmail || !conf.allowResetpass then .ok s
  else if s.regs.login client ≠ some none then .ok s
  else
    match s.regs.findUserReg name with
    | none => .ok s
    | some account =>
        let reg ← s.regs.derefUser account
        if now - reg.regTime < conf.uresetRegtimeDuration then .ok s
        else if isBarred now reg then .ok s
        else
          let regs :=
            if reg.flags.has usFlagsSuspended then
              s.regs.expireUserSuspend now account
            else s.regs
          let s := { s with regs := regs }
          if given.isEmpty then .ok (s.askResetpass conf now account chance)
          else .ok (s.authResetpass conf now account given new chance)

/-- `RESETEMAIL` without parameters. -/
def askResetemail (conf : TokenConfig) (now : Int) (account : UserRegId)
    (chance : TokenChance) (s : TokenState) : TokenState :=
  let name := s.regs.userName account
  let pending := s.resetemail.countP fun row =>
    row.username == name &&
      decide (timeSince now conf.uresetemailDuration < row.time)
  if pending ≠ 0 then s
  else if !chance.canSendEmail then s
  else
    { s with
      resetemail := (s.resetemail.filter fun row => row.username != name) ++
        [{ username := name, token := chance.token, email := none, time := now }]
      notes := .emailIssued account chance.token now (s.email account) ::
        s.notes }

/-- `RESETEMAIL CONFIRM`. -/
def confirmResetemail (conf : TokenConfig) (now : Int) (account : UserRegId)
    (given address : CString) (chance : TokenChance) (s : TokenState) :
    TokenState :=
  let name := s.regs.userName account
  if given.isEmpty || address.isEmpty || !chance.validEmail then s
  else
    match s.resetemail.find? fun row =>
        row.username == name && row.email.isNone &&
          decide (timeSince now conf.uresetemailDuration < row.time) with
    | none => s
    | some row =>
        if row.token == given && chance.sent then
          { s with
            resetemail :=
              (s.resetemail.filter fun row => row.username != name) ++
                [{ username := name
                   token := chance.token
                   email := some address
                   time := now }]
            notes := .emailConfirmed account given chance.token now address ::
              s.notes }
        else s

/-- `RESETEMAIL AUTH`. -/
def authResetemail (conf : TokenConfig) (now : Int) (account : UserRegId)
    (given : CString) (s : TokenState) : TokenState :=
  let name := s.regs.userName account
  if given.isEmpty then s
  else
    match s.resetemail.find? fun row =>
        row.username == name && row.email.isSome &&
          decide (timeSince now conf.uresetemailDuration < row.time) with
    | none => s
    | some row =>
        if row.token == given then
          { s with
            resetemail := s.resetemail.filter fun row => row.username != name
            email := Function.update s.email account (row.email.getD [])
            notes := .emailReset account :: s.notes }
        else s

/-- `s_user_resetemail`. -/
def sUserResetemail (conf : TokenConfig) (now : Int) (client : ClientId)
    (parv : List CString) (chance : TokenChance) (s : TokenState) :
    Except RegStop TokenState :=
  match s.regs.loginOf client with
  | none => .ok s
  | some account => do
      let reg ← s.regs.derefUser account
      let s := { s with regs := s.regs.touchUser now account }
      if conf.disableEmail || !conf.allowResetemail then .ok s
      else if now - reg.regTime < conf.uresetRegtimeDuration then .ok s
      else if (s.email account).isEmpty then .ok s
      else
        match parv with
        | [] => .ok (s.askResetemail conf now account chance)
        | option :: rest =>
            if strcasecmp option "CONFIRM".toList then
              .ok (s.confirmResetemail conf now account (rest.getD 0 [])
                (rest.getD 1 []) chance)
            else if strcasecmp option "AUTH".toList then
              .ok (s.authResetemail conf now account (rest.getD 0 []))
            else .ok s

/-- `e_user_expire_reset`. -/
def eUserExpireReset (conf : TokenConfig) (now : Int) (s : TokenState) :
    TokenState :=
  { s with
    resetpass := s.resetpass.filter fun row =>
      !decide (row.time ≤ timeSince now conf.uresetpassDuration)
    resetemail := s.resetemail.filter fun row =>
      !decide (row.time ≤ timeSince now conf.uresetemailDuration) }

end TokenState

def RegAct.isActivate : RegAct → Bool
  | .activate .. => true
  | _ => false

/-- What a new account is given: there is a token if `REGISTER` mails one. -/
def RegAct.verifyToken (conf : ServConfig) (token : CString) :
    RegAct → CString
  | .userRegister .. => if conf.uregisterVerify then token else []
  | _ => []

inductive TokenAct where
  | account (act : RegAct) (other : act.isActivate = false) (email : CString)
  | activate (client : ClientId) (name given : CString)
  | resetpass (client : ClientId) (name given new : CString)
  | resetemail (client : ClientId) (parv : List CString)
  | expireReset

structure TokenEvent where
  now : Int
  /-- `rb_time` is a `long` and counts from 1970. -/
  clock : 0 ≤ now ∧ now ≤ longMax
  act : TokenAct
  chance : TokenChance

namespace TokenState

def step (conf : ServConfig) (tokenConf : TokenConfig) (s : TokenState)
    (event : TokenEvent) : Except RegStop TokenState :=
  let now := event.now
  let chance := event.chance
  match event.act with
  | .account act _ email => do
      let regs ← s.regs.step conf { now := now, act := act }
      .ok (s.follow regs
        { password := chance.password
          email := email
          verifyToken := act.verifyToken conf chance.token })
  | .activate client name given => .ok (s.sUserActivate client name given)
  | .resetpass client name given new =>
      s.sUserResetpass tokenConf now client name given new chance
  | .resetemail client parv =>
      s.sUserResetemail tokenConf now client parv chance
  | .expireReset => .ok (s.eUserExpireReset tokenConf now)

end TokenState

end RatboxServices
