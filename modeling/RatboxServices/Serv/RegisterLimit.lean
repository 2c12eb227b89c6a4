import RatboxServices.Net.Channel
import RatboxServices.Serv.RegCommand

namespace RatboxServices

open CString

/-! How many registrations `REGISTER` of ChanServ and of UserServ lets through:
overall, and from one host. -/

inductive RegisterService
  | chanserv
  | userserv
  deriving DecidableEq, Repr

/-- `register_time` and `register_amount`, overall and for a host. There is no
limit where one of the two is 0. -/
structure RegisterAmounts where
  time : Nat
  amount : Nat
  hostTime : Nat
  hostAmount : Nat
  deriving DecidableEq, Repr

/-- The part of `config_file` that `REGISTER` reads. -/
structure RegisterConfig where
  serv : ServConfig
  disableCregister : Bool
  ctimeLock : Nat
  cregister : RegisterAmounts
  disableUregister : Bool
  uregisterEmail : Bool
  uregister : RegisterAmounts
  disableEmail : Bool
  emailNumber : Nat
  emailDuration : Nat
  /-- `email_program[0]`, empty where it is not set. -/
  emailProgram : CString

def RegisterConfig.amounts (config : RegisterConfig) :
    RegisterService → RegisterAmounts
  | .chanserv => config.cregister
  | .userserv => config.uregister

/-- The static `last_time` and `last_count` of a command. -/
structure OverallLimit where
  lastTime : Int := 0
  lastCount : Nat := 0
  deriving DecidableEq, Repr

/-- `cregister` and `cregister_expire` of a `struct host_entry`, or `uregister`
and `uregister_expire`. -/
structure HostLimit where
  count : Nat := 0
  expire : Int := 0
  deriving DecidableEq, Repr

/-- `email_last` and `email_count`. -/
structure EmailLimit where
  last : Int := 0
  count : Nat := 0
  deriving DecidableEq, Repr

/-- All counters. `find_host` adds an entry of zeros for a host that has none;
its names are compared in upper case. -/
structure Limits where
  overall : RegisterService → OverallLimit
  host : RegisterService → CString → HostLimit
  email : EmailLimit

/-- Why `REGISTER` is refused. -/
inductive RegisterRefusal
  | isDisabled
  | notLoggedIn
  | chanAlreadyReg
  | notOppedOnChannel
  | timeLocked
  | alreadyLoggedIn
  | userAlreadyReg
  | invalidUsername
  | longPassword
  | needMoreParams
  | emailInvalid
  | emailBannedDomain
  | rateLimited
  | rateLimitedHost
  | isDisabledEmail
  | emailTempUnavailable
  | emailSendFailed
  deriving DecidableEq, Repr

/-- `REGISTER` of ChanServ, with the network that it comes from. -/
structure ChanRegister where
  now : Int
  chans : Chans
  client : ClientId
  host : CString
  name : CString

/-- `REGISTER` of UserServ. -/
structure UserRegister where
  now : Int
  client : ClientId
  host : CString
  name : Token
  password : CString
  /-- `parv[2]`, empty where it is not given. -/
  email : CString
  /-- Table `email_banned_domain`. -/
  bannedDomains : List CString
  /-- The mail program is started. -/
  piped : Bool
  /-- The channels that the user is in. -/
  channels : List CString

namespace RegisterAmounts

def limited (amounts : RegisterAmounts) : Bool :=
  decide (0 < amounts.time ∧ 0 < amounts.amount)

def hostLimited (amounts : RegisterAmounts) : Bool :=
  decide (0 < amounts.hostTime ∧ 0 < amounts.hostAmount)

def pass (amounts : RegisterAmounts) (now : Int) (limit : OverallLimit) :
    Option OverallLimit :=
  if !amounts.limited then some limit
  else if limit.lastTime + amounts.time < now then some ⟨now, 1⟩
  else if amounts.amount ≤ limit.lastCount then none
  else some { limit with lastCount := limit.lastCount + 1 }

def passHost (amounts : RegisterAmounts) (now : Int) (limit : HostLimit) :
    Option HostLimit :=
  if !amounts.hostLimited then some limit
  else if amounts.hostAmount ≤ limit.count ∧ now < limit.expire then none
  else if limit.expire ≤ now then some ⟨0, now + amounts.hostTime⟩
  else some limit

def raise (amounts : RegisterAmounts) (limit : HostLimit) : HostLimit :=
  if amounts.hostLimited then { limit with count := limit.count + 1 }
  else limit

end RegisterAmounts

namespace Limits

def start : Limits where
  overall := fun _ => {}
  host := fun _ _ => {}
  email := {}

def hostOf (limits : Limits) (service : RegisterService) (name : CString) :
    HostLimit :=
  limits.host service (name.map toUpper)

def setOverall (service : RegisterService) (limit : OverallLimit)
    (limits : Limits) : Limits :=
  { limits with overall := Function.update limits.overall service limit }

def setHost (service : RegisterService) (name : CString) (limit : HostLimit)
    (limits : Limits) : Limits :=
  { limits with
    host := Function.update limits.host service
      (Function.update (limits.host service) (name.map toUpper) limit) }

end Limits

namespace EmailLimit

/-- `can_send_email`. -/
def canSendEmail (config : RegisterConfig) (now : Int) (limit : EmailLimit) :
    EmailLimit × Bool :=
  if limit.last + config.emailDuration < now then (⟨now, 0⟩, true)
  else (limit, decide (limit.count < config.emailNumber))

/-- `send_email`. -/
def sendEmail (config : RegisterConfig) (now : Int) (piped : Bool)
    (limit : EmailLimit) : EmailLimit × Bool :=
  if config.disableEmail then (limit, false)
  else
    let (limit, able) := limit.canSendEmail config now
    if !able then (limit, false)
    else
      ({ limit with count := limit.count + 1 },
        !config.emailProgram.isEmpty && piped)

def verify (config : RegisterConfig) (now : Int) (piped : Bool)
    (limit : EmailLimit) : EmailLimit × Option RegisterRefusal :=
  if !config.serv.uregisterVerify then (limit, none)
  else if config.disableEmail then (limit, some .isDisabledEmail)
  else
    let (limit, able) := limit.canSendEmail config now
    if !able then (limit, some .emailTempUnavailable)
    else
      let (limit, sent) := limit.sendEmail config now piped
      (limit, if sent then none else some .emailSendFailed)

end EmailLimit

namespace Register

/-- `PASSWDLEN` -/
def passwdLen : Nat := 35

/-- `EMAILLEN` -/
def emailLen : Nat := 100

/-- `valid_email`: there is something before the first `@`, and behind the last
dot that follows it. -/
def validEmail (email : CString) : Bool :=
  decide (email.length ≤ emailLen) && !firstIs (· == '@') email &&
    match (cut '@' email).2 with
    | none => false
    | some domain => domain.contains '.' && domain.getLast? != some '.'

/-- `valid_email_domain`. -/
def validEmailDomain (banned : List CString) (email : CString) : Bool :=
  match (cut '@' email).2 with
  | none => false
  | some domain => !banned.any fun row => strcasecmp row domain

def oppedChannel (call : ChanRegister) : Option Channel := do
  let chptr ← call.chans.findChannel call.name
  let mptr ← call.chans.findChmember chptr call.client
  let member ← call.chans.member.cell mptr
  if member.isOpped then call.chans.channel.cell chptr else none

/-- What `s_chan_register` checks before the limits. -/
def chanRefusal (config : RegisterConfig) (call : ChanRegister) (regs : Regs) :
    Option RegisterRefusal :=
  if config.disableCregister then some .isDisabled
  else if (regs.findChannelReg call.name).isSome then some .chanAlreadyReg
  else
    match oppedChannel call with
    | none => some .notOppedOnChannel
    | some ch =>
        if 0 < config.ctimeLock ∧ ch.tsinfo < call.now - config.ctimeLock then
          some .timeLocked
        else none

/-- What `s_user_register` checks before the limits. -/
def userRefusal (config : RegisterConfig) (call : UserRegister) (regs : Regs) :
    Option RegisterRefusal :=
  if config.disableUregister then some .isDisabled
  else if regs.login call.client ≠ some none then some .alreadyLoggedIn
  else if (regs.findUserReg call.name.text).isSome then some .userAlreadyReg
  else if !Regs.validUsername config.serv call.name.text then
    some .invalidUsername
  else if passwdLen < call.password.length then some .longPassword
  else if call.email.isEmpty then
    if config.uregisterEmail then some .needMoreParams else none
  else if !validEmail call.email then some .emailInvalid
  else if !validEmailDomain call.bannedDomains call.email then
    some .emailBannedDomain
  else none

/-- `s_chan_register`, as far as it decides. -/
def sChanRegister (config : RegisterConfig) (call : ChanRegister) (regs : Regs)
    (limits : Limits) : Limits × Option RegisterRefusal :=
  match chanRefusal config call regs with
  | some reason => (limits, some reason)
  | none =>
      match config.cregister.pass call.now (limits.overall .chanserv) with
      | none => (limits, some .rateLimited)
      | some overall =>
          let limits := limits.setOverall .chanserv overall
          match config.cregister.passHost call.now
              (limits.hostOf .chanserv call.host) with
          | none => (limits, some .rateLimitedHost)
          | some hent =>
              (limits.setHost .chanserv call.host (config.cregister.raise hent),
                none)

/-- `s_user_register`, as far as it decides. The host is not charged if no mail
can be sent. -/
def sUserRegister (config : RegisterConfig) (call : UserRegister) (regs : Regs)
    (limits : Limits) : Limits × Option RegisterRefusal :=
  match userRefusal config call regs with
  | some reason => (limits, some reason)
  | none =>
      match config.uregister.pass call.now (limits.overall .userserv) with
      | none => (limits, some .rateLimited)
      | some overall =>
          let limits := limits.setOverall .userserv overall
          match config.uregister.passHost call.now
              (limits.hostOf .userserv call.host) with
          | none => (limits, some .rateLimitedHost)
          | some hent =>
              let limits := limits.setHost .userserv call.host hent
              match limits.email.verify config call.now call.piped with
              | (email, some reason) => ({ limits with email }, some reason)
              | (email, none) =>
                  ({ limits with email }.setHost .userserv call.host
                    (config.uregister.raise hent), none)

end Register

inductive RegisterCall
  | chan (call : ChanRegister)
  | user (call : UserRegister)

structure RegisterState where
  regs : Regs
  limits : Limits

namespace RegisterState

def exec (config : RegisterConfig) (s : RegisterState) :
    RegisterCall → Except RegStop (RegisterState × Option RegisterRefusal)
  | .chan call =>
      if (s.regs.loginOf call.client).isNone then .ok (s, some .notLoggedIn)
      else do
        let (limits, refusal) :=
          Register.sChanRegister config call s.regs s.limits
        let regs ← s.regs.sChanRegister call.now call.client call.name
          refusal.isNone
        .ok (⟨regs, limits⟩, refusal)
  | .user call => do
      let (limits, refusal) :=
        Register.sUserRegister config call s.regs s.limits
      let regs ← s.regs.sUserRegister config.serv call.now call.client call.name
        refusal.isNone call.channels
      .ok (⟨regs, limits⟩, refusal)

def step (config : RegisterConfig) (s : RegisterState) (call : RegisterCall) :
    Except RegStop RegisterState :=
  (s.exec config call).map Prod.fst

structure Untouched (before after : Limits) : Prop where
  overall : after.overall = before.overall
  host : ∀ service name,
    (after.hostOf service name).count = (before.hostOf service name).count

def Harmless (config : RegisterConfig) (s : RegisterState)
    (call : RegisterCall) : Prop :=
  ∀ t reason, s.exec config call = .ok (t, some reason) →
    Untouched s.limits t.limits

def serviceOf : RegisterCall → RegisterService
  | .chan _ => .chanserv
  | .user _ => .userserv

/-- `client_p->user->host` -/
def hostOf : RegisterCall → CString
  | .chan call => call.host
  | .user call => call.host

def timeOf : RegisterCall → Int
  | .chan call => call.now
  | .user call => call.now

def Checked (config : RegisterConfig) (s : RegisterState) :
    RegisterCall → Prop
  | .chan call =>
      (∃ account reg, s.regs.loginOf call.client = some account ∧
        s.regs.user.cell account = some reg) ∧
      Register.chanRefusal config call s.regs = none
  | .user call => Register.userRefusal config call s.regs = none

def Resets (config : RegisterConfig) (service : RegisterService)
    (s : RegisterState) (call : RegisterCall) : Prop :=
  serviceOf call = service ∧ Checked config s call ∧
    (config.amounts service).limited = true ∧
    (s.limits.overall service).lastTime + (config.amounts service).time <
      timeOf call

def successes (config : RegisterConfig) (service : RegisterService) :
    RegisterState → List RegisterCall → Nat
  | _, [] => 0
  | s, call :: rest =>
      match s.exec config call with
      | .ok (t, refusal) =>
          (if serviceOf call = service ∧ refusal = none then 1 else 0) +
            successes config service t rest
      | .error _ => 0

/-- Commands that are refused are not counted, and from a reset of an overall
limit on up to the next one, no more than its amount is registered. -/
structure Fair (config : RegisterConfig) (s : RegisterState)
    (calls : List RegisterCall) : Prop where
  harmless : Meets (step config) (Harmless config) s calls
  bounded : ∀ service before first piece after t u,
    calls = before ++ first :: piece ++ after →
    run (step config) s before = .ok t → Resets config service t first →
    step config t first = .ok u →
    Meets (step config) (fun s call => ¬Resets config service s call) u piece →
    successes config service t (first :: piece) ≤
      (config.amounts service).amount

def Full (amounts : RegisterAmounts) (now : Int) (limit : OverallLimit) :
    Prop :=
  amounts.limited = true ∧ now ≤ limit.lastTime + amounts.time ∧
    amounts.amount ≤ limit.lastCount

def HostFull (amounts : RegisterAmounts) (now : Int) (limit : HostLimit) :
    Prop :=
  amounts.hostLimited = true ∧ amounts.hostAmount ≤ limit.count ∧
    now < limit.expire

def Unmailed (config : RegisterConfig) (call : UserRegister)
    (limit : EmailLimit) : Prop :=
  config.serv.uregisterVerify = true ∧ (config.disableEmail = true ∨
    config.emailNumber ≤
      (if limit.last + config.emailDuration < call.now then 0
        else limit.count) ∨
    config.emailProgram = [] ∨ call.piped = false)

def MailFails (config : RegisterConfig) (s : RegisterState) :
    RegisterCall → Prop
  | .chan _ => False
  | .user call => Unmailed config call s.limits.email

/-- A command that the overall limit lets through is not refused later. Where
there is no such limit, no mail fails for a host whose count was reset. -/
def Spared (config : RegisterConfig) (s : RegisterState)
    (call : RegisterCall) : Prop :=
  let amounts := config.amounts (serviceOf call)
  let host := s.limits.hostOf (serviceOf call) (hostOf call)
  Checked config s call →
    ¬Full amounts (timeOf call) (s.limits.overall (serviceOf call)) →
    (amounts.limited = true →
      ¬HostFull amounts (timeOf call) host ∧ ¬MailFails config s call) ∧
    (amounts.limited = false → amounts.hostLimited = true →
      host.expire ≤ timeOf call → host.count ≠ 0 → ¬MailFails config s call)

section Limits

variable {amounts : RegisterAmounts} {now : Int} {config : RegisterConfig}
  {service : RegisterService} {name : CString}

theorem pass_eq_none {limit : OverallLimit} :
    amounts.pass now limit = none ↔ Full amounts now limit := by
  unfold RegisterAmounts.pass Full
  cases amounts.limited with
  | false => simp
  | true =>
      by_cases late : limit.lastTime + amounts.time < now
      · simp [late]
      · by_cases reached : amounts.amount ≤ limit.lastCount
        · simp [late, reached]
          omega
        · simp [late, reached]

theorem pass_eq_some {limit after : OverallLimit}
    (passed : amounts.pass now limit = some after) :
    (amounts.limited = false ∧ after = limit) ∨
    (amounts.limited = true ∧ limit.lastTime + amounts.time < now ∧
      after = ⟨now, 1⟩) ∨
    (amounts.limited = true ∧ now ≤ limit.lastTime + amounts.time ∧
      limit.lastCount < amounts.amount ∧
      after = { limit with lastCount := limit.lastCount + 1 }) := by
  unfold RegisterAmounts.pass at passed
  cases on : amounts.limited with
  | false =>
      rw [on] at passed
      exact Or.inl ⟨rfl, (Option.some.inj passed).symm⟩
  | true =>
      rw [on] at passed
      simp only [Bool.not_true, Bool.false_eq_true, if_false] at passed
      split at passed
      · rename_i late
        exact Or.inr (Or.inl ⟨rfl, late, (Option.some.inj passed).symm⟩)
      · rename_i late
        split at passed
        · cases passed
        · rename_i few
          refine Or.inr (Or.inr ⟨rfl, ?_, ?_, (Option.some.inj passed).symm⟩)
          · omega
          · omega

theorem eq_of_pass {limit after : OverallLimit}
    (passed : amounts.pass now limit = some after) :
    after = limit ↔ amounts.limited = false := by
  rcases pass_eq_some passed with ⟨off, same⟩ | ⟨on, late, rfl⟩ |
    ⟨on, -, -, rfl⟩
  · exact ⟨fun _ => off, fun _ => same⟩
  · have positive : 0 < amounts.time := (of_decide_eq_true on).1
    refine ⟨fun same => ?_, fun off => ?_⟩
    · rw [← same] at late
      dsimp only at late
      omega
    · rw [off] at on
      cases on
  · refine ⟨fun same => ?_, fun off => ?_⟩
    · have count := congrArg OverallLimit.lastCount same
      dsimp only at count
      omega
    · rw [off] at on
      cases on

theorem passHost_eq_none {limit : HostLimit} :
    amounts.passHost now limit = none ↔ HostFull amounts now limit := by
  unfold RegisterAmounts.passHost HostFull
  cases amounts.hostLimited with
  | false => simp
  | true =>
      by_cases full : amounts.hostAmount ≤ limit.count ∧ now < limit.expire
      · simp [full]
      · simp only [Bool.not_true, Bool.false_eq_true, if_false, true_and, full,
          iff_false]
        split
        · exact Option.some_ne_none _
        · exact Option.some_ne_none _

theorem count_of_passHost {limit after : HostLimit}
    (passed : amounts.passHost now limit = some after) :
    after.count = limit.count ↔
      (amounts.hostLimited = true → limit.expire ≤ now → limit.count = 0) := by
  unfold RegisterAmounts.passHost at passed
  cases on : amounts.hostLimited with
  | false =>
      rw [on] at passed
      rw [← Option.some.inj passed]
      exact ⟨fun _ off => absurd off Bool.false_ne_true, fun _ => rfl⟩
  | true =>
      rw [on] at passed
      simp only [Bool.not_true, Bool.false_eq_true, if_false] at passed
      split at passed
      · cases passed
      · split at passed
        · rename_i expired
          rw [← Option.some.inj passed]
          exact ⟨fun same _ _ => same.symm, fun zero => (zero rfl expired).symm⟩
        · rename_i lasts
          rw [← Option.some.inj passed]
          exact ⟨fun _ _ expired => (lasts expired).elim, fun _ => rfl⟩

theorem verify_eq_none {call : UserRegister} {limit : EmailLimit} :
    (limit.verify config call.now call.piped).2 = none ↔
      ¬Unmailed config call limit := by
  unfold EmailLimit.verify EmailLimit.sendEmail EmailLimit.canSendEmail Unmailed
  cases config.serv.uregisterVerify with
  | false => simp
  | true =>
      cases config.disableEmail with
      | true => simp
      | false =>
          by_cases late : limit.last + config.emailDuration < call.now
          · have again :
                ¬call.now + (config.emailDuration : Int) < call.now := by
              omega
            by_cases room : 0 < config.emailNumber
            · have some_ : ¬config.emailNumber = 0 := by omega
              simp [late, again, room, some_]
            · have none_ : config.emailNumber = 0 := by omega
              simp [late, again, none_]
          · by_cases room : limit.count < config.emailNumber
            · have few : ¬config.emailNumber ≤ limit.count := by omega
              simp [late, room, few]
            · have full : config.emailNumber ≤ limit.count := by omega
              simp [late, room, full]

end Limits

section Counters

variable {service : RegisterService} {name : CString} {limits : Limits}

@[simp] theorem hostOf_setOverall {other : RegisterService} {host : CString}
    {limit : OverallLimit} :
    (limits.setOverall service limit).hostOf other host =
      limits.hostOf other host := rfl

theorem hostOf_setHost {limit : HostLimit} :
    (limits.setHost service name limit).hostOf service name = limit := by
  unfold Limits.hostOf Limits.setHost
  dsimp only
  rw [Function.update_self, Function.update_self]

theorem untouched_refl (limits : Limits) : Untouched limits limits :=
  ⟨rfl, fun _ _ => rfl⟩

theorem setOverall_eq {limit : OverallLimit} :
    (limits.setOverall service limit).overall = limits.overall ↔
      limit = limits.overall service := by
  constructor
  · intro same
    have here := congrFun same service
    rw [← here]
    exact (Function.update_self service limit limits.overall).symm
  · rintro rfl
    exact Function.update_eq_self service limits.overall

theorem untouched_setOverall {limit : OverallLimit} :
    Untouched limits (limits.setOverall service limit) ↔
      limit = limits.overall service :=
  ⟨fun untouched => setOverall_eq.mp untouched.overall,
    fun same => ⟨setOverall_eq.mpr same, fun _ _ => rfl⟩⟩

theorem count_setHost {limit : HostLimit}
    (same : limit.count = (limits.hostOf service name).count)
    (other : RegisterService) (host : CString) :
    ((limits.setHost service name limit).hostOf other host).count =
      (limits.hostOf other host).count := by
  unfold Limits.hostOf Limits.setHost
  dsimp only
  by_cases own : other = service
  · subst own
    rw [Function.update_self]
    by_cases here : host.map toUpper = name.map toUpper
    · rw [here, Function.update_self]
      exact same
    · rw [Function.update_of_ne here]
  · rw [Function.update_of_ne own]

theorem untouched_setHost {overall : OverallLimit} {limit : HostLimit}
    {email : EmailLimit} :
    Untouched limits
        { (limits.setOverall service overall).setHost service name limit with
          email } ↔
      overall = limits.overall service ∧
        limit.count = (limits.hostOf service name).count := by
  constructor
  · intro untouched
    refine ⟨setOverall_eq.mp untouched.overall, ?_⟩
    refine Eq.trans ?_ (untouched.host service name)
    exact congrArg HostLimit.count (hostOf_setHost).symm
  · rintro ⟨same, count⟩
    exact ⟨setOverall_eq.mpr same, fun other host => count_setHost count _ _⟩

end Counters

section Command

variable {config : RegisterConfig} {s t : RegisterState} {call : RegisterCall}
  {refusal : Option RegisterRefusal}

def decided (config : RegisterConfig) (s : RegisterState) :
    RegisterCall → Limits × Option RegisterRefusal
  | .chan call =>
      if (s.regs.loginOf call.client).isNone then (s.limits, some .notLoggedIn)
      else Register.sChanRegister config call s.regs s.limits
  | .user call => Register.sUserRegister config call s.regs s.limits

theorem decided_of_exec (executed : s.exec config call = .ok (t, refusal)) :
    decided config s call = (t.limits, refusal) := by
  cases call with
  | chan call =>
      unfold exec at executed
      unfold decided
      dsimp only at executed ⊢
      split at executed
      · rename_i absent
        rw [if_pos absent]
        cases executed
        rfl
      · rename_i present
        rw [if_neg present]
        obtain ⟨regs, -, ok⟩ := Except.bind_eq_ok.mp executed
        cases ok
        rfl
  | user call =>
      unfold exec at executed
      unfold decided
      obtain ⟨regs, -, ok⟩ := Except.bind_eq_ok.mp executed
      cases ok
      rfl

theorem exec_of_refused {reason : RegisterRefusal}
    (checked : Checked config s call)
    (refused : (decided config s call).2 = some reason) :
    ∃ t, s.exec config call = .ok (t, some reason) := by
  cases call with
  | chan call =>
      obtain ⟨⟨account, reg, login, live⟩, -⟩ := checked
      have present : ¬(s.regs.loginOf call.client).isNone = true := by
        rw [login]
        exact Bool.false_ne_true
      unfold decided at refused
      dsimp only at refused
      rw [if_neg present] at refused
      unfold exec
      dsimp only
      rw [if_neg present, refused]
      unfold Regs.sChanRegister Regs.asUser Regs.derefUser
      rw [login]
      dsimp only
      rw [live]
      dsimp only
      by_cases named : call.name = []
      · exact ⟨_, by rw [Except.ok_bind, dif_pos named]; rfl⟩
      · exact ⟨_, by rw [Except.ok_bind, dif_neg named]; rfl⟩
  | user call =>
      unfold decided at refused
      dsimp only at refused
      unfold exec
      dsimp only
      rw [refused]
      unfold Regs.sUserRegister
      simp only [Option.isNone_some, Bool.not_false, Bool.or_true, if_true,
        ite_self]
      exact ⟨_, rfl⟩

theorem live_of_exec {request : ChanRegister}
    (executed : s.exec config (.chan request) = .ok (t, refusal))
    (present : ¬(s.regs.loginOf request.client).isNone = true) :
    ∃ account reg, s.regs.loginOf request.client = some account ∧
      s.regs.user.cell account = some reg := by
  unfold exec at executed
  dsimp only at executed
  rw [if_neg present] at executed
  obtain ⟨regs, registered, -⟩ := Except.bind_eq_ok.mp executed
  unfold Regs.sChanRegister Regs.asUser at registered
  cases login : s.regs.loginOf request.client with
  | none =>
      rw [login] at present
      exact (present rfl).elim
  | some account =>
      rw [login] at registered
      obtain ⟨reg, live, -⟩ := Except.bind_eq_ok.mp registered
      unfold Regs.derefUser at live
      split at live
      · rename_i found
        exact ⟨account, _, rfl, found⟩
      · cases live

theorem refused_of_unchecked (unchecked : ¬Checked config s call)
    (executed : s.exec config call = .ok (t, refusal)) :
    t.limits = s.limits ∧ refusal ≠ none := by
  have decision := decided_of_exec executed
  suffices early : ∃ reason, decided config s call = (s.limits, some reason) by
    obtain ⟨reason, early⟩ := early
    obtain ⟨same, refused⟩ := Prod.mk.inj (decision.symm.trans early)
    exact ⟨same, refused ▸ Option.some_ne_none reason⟩
  cases call with
  | chan request =>
      unfold decided
      dsimp only
      split
      · exact ⟨_, rfl⟩
      · rename_i present
        unfold Register.sChanRegister
        split
        · exact ⟨_, rfl⟩
        · rename_i clear
          exact (unchecked ⟨live_of_exec executed present, clear⟩).elim
  | user request =>
      unfold decided Register.sUserRegister
      dsimp only
      split
      · exact ⟨_, rfl⟩
      · rename_i clear
        exact (unchecked clear).elim

inductive Course (config : RegisterConfig) (s : RegisterState)
    (call : RegisterCall) : Limits × Option RegisterRefusal → Prop
  | full (reached : (config.amounts (serviceOf call)).pass (timeOf call)
        (s.limits.overall (serviceOf call)) = none) :
      Course config s call (s.limits, some .rateLimited)
  | hostFull (overall : OverallLimit)
      (passed : (config.amounts (serviceOf call)).pass (timeOf call)
        (s.limits.overall (serviceOf call)) = some overall)
      (reached : (config.amounts (serviceOf call)).passHost (timeOf call)
        (s.limits.hostOf (serviceOf call) (hostOf call)) = none) :
      Course config s call
        (s.limits.setOverall (serviceOf call) overall, some .rateLimitedHost)
  | unmailed (overall : OverallLimit) (hent : HostLimit) (email : EmailLimit)
      (reason : RegisterRefusal)
      (passed : (config.amounts (serviceOf call)).pass (timeOf call)
        (s.limits.overall (serviceOf call)) = some overall)
      (fits : (config.amounts (serviceOf call)).passHost (timeOf call)
        (s.limits.hostOf (serviceOf call) (hostOf call)) = some hent)
      (failed : MailFails config s call) :
      Course config s call
        ({ (s.limits.setOverall (serviceOf call) overall).setHost
            (serviceOf call) (hostOf call) hent with email }, some reason)
  | registered (overall : OverallLimit) (hent : HostLimit) (limits : Limits)
      (passed : (config.amounts (serviceOf call)).pass (timeOf call)
        (s.limits.overall (serviceOf call)) = some overall)
      (fits : (config.amounts (serviceOf call)).passHost (timeOf call)
        (s.limits.hostOf (serviceOf call) (hostOf call)) = some hent)
      (mailed : ¬MailFails config s call)
      (counted : limits.overall =
        (s.limits.setOverall (serviceOf call) overall).overall) :
      Course config s call (limits, none)

theorem course_chan {request : ChanRegister}
    (checked : Checked config s (.chan request)) :
    Course config s (.chan request) (decided config s (.chan request)) := by
  obtain ⟨⟨account, reg, login, -⟩, clear⟩ := checked
  have decision : decided config s (.chan request) =
      Register.sChanRegister config request s.regs s.limits := by
    unfold decided
    dsimp only
    rw [login]
    exact if_neg Bool.false_ne_true
  rw [decision]
  unfold Register.sChanRegister
  rw [clear]
  dsimp only
  split
  · rename_i reached
    exact .full reached
  · rename_i overall passed
    dsimp only [hostOf_setOverall]
    split
    · rename_i reached
      exact .hostFull overall passed reached
    · rename_i hent fits
      exact .registered overall hent _ passed fits id rfl

theorem course_user {request : UserRegister}
    (checked : Checked config s (.user request)) :
    Course config s (.user request) (decided config s (.user request)) := by
  have clear : Register.userRefusal config request s.regs = none := checked
  have mail := @verify_eq_none config request s.limits.email
  unfold decided Register.sUserRegister
  dsimp only
  rw [clear]
  dsimp only
  split
  · rename_i reached
    exact .full reached
  · rename_i overall passed
    dsimp only [hostOf_setOverall]
    split
    · rename_i reached
      exact .hostFull overall passed reached
    · rename_i hent fits
      split
      · rename_i email reason sent
        have failed : Unmailed config request s.limits.email := by
          by_contra mailed
          have none_ := mail.mpr mailed
          rw [show s.limits.email.verify config request.now request.piped =
            (email, some reason) from sent] at none_
          cases none_
        exact .unmailed overall hent email reason passed fits failed
      · rename_i email sent
        have mailed : ¬Unmailed config request s.limits.email := by
          apply mail.mp
          rw [show s.limits.email.verify config request.now request.piped =
            (email, none) from sent]
        exact .registered overall hent _ passed fits mailed rfl

theorem course (checked : Checked config s call) :
    Course config s call (decided config s call) := by
  cases call with
  | chan request => exact course_chan checked
  | user request => exact course_user checked

theorem harmless_iff_untouched (checked : Checked config s call) :
    Harmless config s call ↔ ∀ reason,
      (decided config s call).2 = some reason →
        Untouched s.limits (decided config s call).1 := by
  constructor
  · intro harmless reason refused
    obtain ⟨t, executed⟩ := exec_of_refused checked refused
    rw [decided_of_exec executed]
    exact harmless t reason executed
  · intro untouched t reason executed
    have decision := decided_of_exec executed
    rw [decision] at untouched
    exact untouched reason rfl

/-- A refused command is not counted, if and only if it is not refused after
the overall limit has let it through. -/
theorem harmless_iff (config : RegisterConfig) (s : RegisterState)
    (call : RegisterCall) : Harmless config s call ↔ Spared config s call := by
  by_cases checked : Checked config s call
  · rw [harmless_iff_untouched checked]
    have course := course checked
    generalize decided config s call = result at course
    unfold Spared
    dsimp only
    cases course with
    | full reached =>
        have full := pass_eq_none.mp reached
        refine ⟨fun _ _ room => (room full).elim, fun _ _ _ => ?_⟩
        exact untouched_refl s.limits
    | hostFull overall passed reached =>
        have room := fun full => Option.some_ne_none overall
          (passed.symm.trans (pass_eq_none.mpr full))
        have full := passHost_eq_none.mp reached
        constructor
        · intro untouched _ _
          have off := (eq_of_pass passed).mp
            (untouched_setOverall.mp (untouched _ rfl))
          refine ⟨fun on => ?_, fun _ _ expired => ?_⟩
          · rw [off] at on
            cases on
          · exact absurd full.2.2 (not_lt.mpr expired)
        · intro spared _ _
          refine untouched_setOverall.mpr ((eq_of_pass passed).mpr ?_)
          rw [← Bool.not_eq_true]
          exact fun on => ((spared checked room).1 on).1 full
    | unmailed overall hent email reason passed fits failed =>
        have room := fun full => Option.some_ne_none overall
          (passed.symm.trans (pass_eq_none.mpr full))
        constructor
        · intro untouched _ _
          obtain ⟨same, count⟩ := untouched_setHost.mp (untouched _ rfl)
          have off := (eq_of_pass passed).mp same
          have unset := (count_of_passHost fits).mp count
          refine ⟨fun on => ?_, fun _ limited expired some_ => ?_⟩
          · rw [off] at on
            cases on
          · exact absurd (unset limited expired) some_
        · intro spared _ _
          obtain ⟨on, off⟩ := spared checked room
          have out : (config.amounts (serviceOf call)).limited = false := by
            rw [← Bool.not_eq_true]
            exact fun limited => (on limited).2 failed
          refine untouched_setHost.mpr ⟨(eq_of_pass passed).mpr out,
            (count_of_passHost fits).mpr fun limited expired => ?_⟩
          by_contra some_
          exact off out limited expired some_ failed
    | registered overall hent limits passed fits mailed counted =>
        have open_ := fun full => Option.some_ne_none hent
          (fits.symm.trans (passHost_eq_none.mpr full))
        constructor
        · exact fun _ _ _ =>
            ⟨fun _ => ⟨open_, mailed⟩, fun _ _ _ _ => mailed⟩
        · exact fun _ _ none_ => nomatch none_
  · refine ⟨fun _ given => (checked given).elim, fun _ t reason executed => ?_⟩
    rw [(refused_of_unchecked checked executed).1]
    exact untouched_refl s.limits

theorem overall_setOverall {service other : RegisterService}
    {limits : Limits} {limit : OverallLimit} :
    (limits.setOverall service limit).overall other =
      if other = service then limit else limits.overall other :=
  Function.update_apply limits.overall service limit other

theorem overall_of_course {limits : Limits} (service : RegisterService)
    (course : Course config s call (limits, refusal)) :
    (limits.overall service = s.limits.overall service ∧
      ¬(serviceOf call = service ∧ refusal = none) ∧
      (serviceOf call = service → Full (config.amounts service) (timeOf call)
        (s.limits.overall service))) ∨
    (serviceOf call = service ∧ (config.amounts service).pass (timeOf call)
      (s.limits.overall service) = some (limits.overall service)) := by
  by_cases own : serviceOf call = service
  · subst own
    have here (limit : OverallLimit) :
        (s.limits.setOverall (serviceOf call) limit).overall (serviceOf call) =
          limit := overall_setOverall.trans (if_pos rfl)
    cases course with
    | full reached =>
        exact Or.inl ⟨rfl, fun given => Option.some_ne_none _ given.2,
          fun _ => pass_eq_none.mp reached⟩
    | hostFull overall passed reached =>
        exact Or.inr ⟨rfl, passed.trans (congrArg some (here overall).symm)⟩
    | unmailed overall hent email reason passed fits failed =>
        exact Or.inr ⟨rfl, passed.trans (congrArg some (here overall).symm)⟩
    | registered overall hent limits passed fits mailed counted =>
        rw [counted, here]
        exact Or.inr ⟨rfl, passed⟩
  · have there (limit : OverallLimit) :
        (s.limits.setOverall (serviceOf call) limit).overall service =
          s.limits.overall service :=
      overall_setOverall.trans (if_neg fun same => own same.symm)
    refine Or.inl ⟨?_, fun given => own given.1, fun same => (own same).elim⟩
    cases course with
    | full reached => rfl
    | hostFull overall passed reached => exact there overall
    | unmailed overall hent email reason passed fits failed =>
        exact there overall
    | registered overall hent limits passed fits mailed counted =>
        rw [counted]
        exact there overall

theorem overall_of_exec (service : RegisterService)
    (executed : s.exec config call = .ok (t, refusal)) :
    (t.limits.overall service = s.limits.overall service ∧
      ¬(serviceOf call = service ∧ refusal = none) ∧
      ¬Resets config service s call) ∨
    (serviceOf call = service ∧ Checked config s call ∧
      (config.amounts service).pass (timeOf call)
        (s.limits.overall service) = some (t.limits.overall service)) := by
  by_cases checked : Checked config s call
  · have course := course checked
    rw [decided_of_exec executed] at course
    rcases overall_of_course service course with ⟨same, refused, full⟩ |
      ⟨own, passed⟩
    · refine Or.inl ⟨same, refused, fun resets => ?_⟩
      obtain ⟨own, -, -, late⟩ := resets
      exact absurd (full own).2.1 (not_le.mpr late)
    · exact Or.inr ⟨own, checked, passed⟩
  · obtain ⟨same, refused⟩ := refused_of_unchecked checked executed
    rw [same]
    exact Or.inl ⟨rfl, fun given => refused given.2,
      fun resets => checked resets.2.1⟩

end Command

section Resets

variable {config : RegisterConfig} {service : RegisterService}
  {s t : RegisterState} {call : RegisterCall}
  {refusal : Option RegisterRefusal}

theorem counted_of_exec (on : (config.amounts service).limited = true)
    (executed : s.exec config call = .ok (t, refusal))
    (goes : ¬Resets config service s call)
    (few : (s.limits.overall service).lastCount ≤
      (config.amounts service).amount) :
    (if serviceOf call = service ∧ refusal = none then 1 else 0) +
        (s.limits.overall service).lastCount ≤
      (t.limits.overall service).lastCount ∧
    (t.limits.overall service).lastCount ≤
      (config.amounts service).amount := by
  rcases overall_of_exec service executed with ⟨same, refused, -⟩ |
    ⟨own, checked, passed⟩
  · rw [same, if_neg refused, Nat.zero_add]
    exact ⟨Nat.le_refl _, few⟩
  · rcases pass_eq_some passed with ⟨off, -⟩ | ⟨-, late, -⟩ | ⟨-, -, room, same⟩
    · rw [off] at on
      cases on
    · exact (goes ⟨own, checked, on, late⟩).elim
    · rw [same]
      dsimp only
      split
      · omega
      · omega

theorem successes_le (on : (config.amounts service).limited = true)
    {calls : List RegisterCall}
    (few : (s.limits.overall service).lastCount ≤
      (config.amounts service).amount)
    (meets : Meets (step config)
      (fun s call => ¬Resets config service s call) s calls) :
    successes config service s calls +
        (s.limits.overall service).lastCount ≤
      (config.amounts service).amount := by
  induction calls generalizing s with
  | nil =>
      unfold successes
      omega
  | cons call rest ih =>
      unfold successes
      cases executed : s.exec config call with
      | error stop =>
          dsimp only
          omega
      | ok result =>
          obtain ⟨t, refusal⟩ := result
          have stepped : step config s call = .ok t := by
            unfold step
            rw [executed]
            rfl
          obtain ⟨counted, few'⟩ :=
            counted_of_exec on executed meets.1 few
          have later := ih few' (meets.2 t stepped)
          dsimp only
          omega

theorem successes_le_of_resets {calls : List RegisterCall}
    (resets : Resets config service s call)
    (stepped : step config s call = .ok t)
    (meets : Meets (step config)
      (fun s call => ¬Resets config service s call) t calls) :
    successes config service s (call :: calls) ≤
      (config.amounts service).amount := by
  obtain ⟨own, checked, on, late⟩ := id resets
  have some_ : 0 < (config.amounts service).amount :=
    (of_decide_eq_true on).2
  unfold successes
  unfold step at stepped
  cases executed : s.exec config call with
  | error stop =>
      rw [executed] at stepped
      cases stepped
  | ok result =>
      obtain ⟨after, refusal⟩ := result
      rw [executed] at stepped
      cases stepped
      dsimp only at meets ⊢
      rcases overall_of_exec service executed with ⟨-, -, goes⟩ |
        ⟨-, -, passed⟩
      · exact (goes resets).elim
      · rcases pass_eq_some passed with ⟨off, -⟩ | ⟨-, -, same⟩ |
          ⟨-, early, -, -⟩
        · rw [off] at on
          cases on
        · have count : (after.limits.overall service).lastCount = 1 := by
            rw [same]
          have later := successes_le on (by omega) meets
          split
          · omega
          · omega
        · omega

end Resets

/-- Refused commands are not counted if and only if none is refused after the
overall limit has let it through; and between two resets no more than the amount
is registered in any case. -/
theorem fair_iff (config : RegisterConfig) (s : RegisterState)
    (calls : List RegisterCall) :
    Fair config s calls ↔ Meets (step config) (Spared config) s calls := by
  constructor
  · exact fun fair => fair.harmless.mono fun s call =>
      (harmless_iff config s call).mp
  · intro spared
    refine ⟨spared.mono fun s call => (harmless_iff config s call).mpr, ?_⟩
    intro service before first piece after t u _ _ resets stepped meets
    exact successes_le_of_resets resets stepped meets

/-- `set_default_conf`. -/
def defaults : RegisterConfig where
  serv := setDefaultConf "services.".toList
  disableCregister := false
  ctimeLock := 0
  cregister := ⟨60, 5, 86400, 4⟩
  disableUregister := false
  uregisterEmail := false
  uregister := ⟨60, 5, 86400, 2⟩
  disableEmail := true
  emailNumber := 15
  emailDuration := 60
  emailProgram := []

def registers (now : Int) (client : ClientId) (name : Token) : RegisterCall :=
  .user
    { now, client, name
      host := "host".toList
      password := "secret".toList
      email := []
      bannedDomains := []
      piped := false
      channels := [] }

def threeUsers : RegisterState where
  regs := ((Regs.empty.setLogin 0 none).setLogin 1 none).setLogin 2 none
  limits := .start

/-- The third registration from a host is refused, and it is counted for
everybody. -/
theorem not_fair_third :
    ¬Fair defaults threeUsers
      [registers 1000 0 ⟨"one".toList, by decide⟩,
        registers 1001 1 ⟨"two".toList, by decide⟩,
        registers 1002 2 ⟨"three".toList, by decide⟩] := by
  intro fair
  have third := ((fair.harmless.2 _ rfl).2 _ rfl).1 _ .rateLimitedHost rfl
  have count := congrArg OverallLimit.lastCount
    (congrFun third.overall .userserv)
  revert count
  decide +kernel

end RegisterState

end RatboxServices
