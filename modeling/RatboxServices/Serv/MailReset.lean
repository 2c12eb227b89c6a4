import RatboxServices.Db.Format
import RatboxServices.Serv.RegSettle
import RatboxServices.Serv.Token

namespace RatboxServices

open CString

/-! `email.c`, and the three commands that first mail a token: `RESETPASS`,
`RESETEMAIL` and `DELOWNER`. What is modelled of them is the first request. -/

structure MailConfig where
  disableEmail : Bool
  emailDuration : Int
  emailNumber : Int
  /-- `email_program[0]`. -/
  emailProgram : CString

/-- Which of the calls of `send_email` succeed. -/
structure MailCalls where
  pipe : Bool
  fdopen : Bool
  fork : Bool

/-- `email_last` and `email_count`. -/
structure Mailer where
  last : Int
  count : Int

namespace Mailer

/-- `can_send_email`. -/
def canSendEmail (conf : MailConfig) (now : Int) (mailer : Mailer) :
    Bool × Mailer :=
  if mailer.last + conf.emailDuration < now then
    (true, { last := now, count := 0 })
  else if mailer.count < conf.emailNumber then (true, mailer)
  else (false, mailer)

/-- `send_email`. The texts go to the program, whose end is not waited for. -/
def sendEmail (conf : MailConfig) (now : Int) (calls : MailCalls)
    (mailer : Mailer) : Bool × Mailer :=
  if conf.disableEmail then (false, mailer)
  else
    let (can, mailer) := mailer.canSendEmail conf now
    if !can then (false, mailer)
    else
      let mailer := { mailer with count := mailer.count + 1 }
      if conf.emailProgram.isEmpty then (false, mailer)
      else if !calls.pipe then (false, mailer)
      else if !calls.fdopen then (false, mailer)
      else if !calls.fork then (false, mailer)
      else (true, mailer)

end Mailer

/-- A row of table `channels_dropowner`. -/
structure DropownerRow where
  chname : CString
  token : CString
  time : Int
  deriving DecidableEq, Repr

inductive MailReply where
  | isDisabled
  | loggedIn
  | notLoggedIn
  | notReg
  | durationTooShort
  | suspended
  | noAccess
  | noEmail
  | requestPending
  | tempUnavailable
  | sendFailed
  | requestIssued
  | userRemoved
  deriving DecidableEq, Repr

structure TokenTable (Row : Type) where
  duration : Int
  subject : Row → CString
  time : Row → Int
  row : CString → CString → Int → Row
  subject_row : ∀ name token now, subject (row name token now) = name
  time_row : ∀ name token now, time (row name token now) = now

/-- What comes from outside in one request: the time, `get_password` and the
calls. `rb_time` is a `long` and counts from 1970. -/
structure MailEvent where
  now : Int
  clock : 0 ≤ now ∧ now ≤ longMax
  token : CString
  calls : MailCalls

structure Issued (Row : Type) where
  rows : List Row
  mailer : Mailer
  reply : MailReply

inductive MailStop where
  | reg (reason : RegStop)
  | format (reason : FormatStop)
  deriving DecidableEq, Repr

/-- `rb_time() - duration` goes through `%lu`. A number of more than eighteen
digits overruns `TempBuffer`. -/
def printedSince (now duration : Int) : Except MailStop Int :=
  if timeSince now duration < 10 ^ 18 then .ok (timeSince now duration)
  else .error (.format .undefined)

namespace TokenTable

variable {Row : Type} (table : TokenTable Row)

/-- The row is for this account or channel, and is from later than `since`. -/
def isPending (since : Int) (name : CString) (row : Row) : Bool :=
  table.subject row == name && decide (since < table.time row)

def issue (conf : MailConfig) (event : MailEvent) (name address : CString)
    (rows : List Row) (mailer : Mailer) : Except MailStop (Issued Row) :=
  if address.isEmpty then .ok ⟨rows, mailer, .noEmail⟩
  else do
    let since ← printedSince event.now table.duration
    if rows.countP (table.isPending since name) ≠ 0 then
      .ok ⟨rows, mailer, .requestPending⟩
    else
      let (can, mailer) := mailer.canSendEmail conf event.now
      if !can then .ok ⟨rows, mailer, .tempUnavailable⟩
      else
        let rows := (rows.filter fun row => table.subject row != name) ++
          [table.row name event.token event.now]
        let (sent, mailer) := mailer.sendEmail conf event.now event.calls
        -- The row stays in the table also if the mail was not sent.
        if !sent then .ok ⟨rows, mailer, .sendFailed⟩
        else .ok ⟨rows, mailer, .requestIssued⟩

end TokenTable

/-- What the commands read of the configuration. The durations are `int`. -/
structure MailResetConfig where
  mail : MailConfig
  allowResetpass : Bool
  allowResetemail : Bool
  emailDelowner : Bool
  uresetRegtimeDuration : Int
  uresetpassDuration : Int
  uresetemailDuration : Int
  cdelownerDuration : Int
  resetpassInt : -2147483648 ≤ uresetpassDuration ∧
    uresetpassDuration < 2147483648
  resetemailInt : -2147483648 ≤ uresetemailDuration ∧
    uresetemailDuration < 2147483648
  delownerInt : -2147483648 ≤ cdelownerDuration ∧
    cdelownerDuration < 2147483648

namespace MailResetConfig

def resetpassTable (conf : MailResetConfig) : TokenTable ResetpassRow where
  duration := conf.uresetpassDuration
  subject := ResetpassRow.username
  time := ResetpassRow.time
  row := fun name token now => { username := name, token := token, time := now }
  subject_row := fun _ _ _ => rfl
  time_row := fun _ _ _ => rfl

def resetemailTable (conf : MailResetConfig) : TokenTable ResetemailRow where
  duration := conf.uresetemailDuration
  subject := ResetemailRow.username
  time := ResetemailRow.time
  row := fun name token now =>
    { username := name, token := token, email := none, time := now }
  subject_row := fun _ _ _ => rfl
  time_row := fun _ _ _ => rfl

def dropownerTable (conf : MailResetConfig) : TokenTable DropownerRow where
  duration := conf.cdelownerDuration
  subject := DropownerRow.chname
  time := DropownerRow.time
  row := fun name token now => { chname := name, token := token, time := now }
  subject_row := fun _ _ _ => rfl
  time_row := fun _ _ _ => rfl

end MailResetConfig

structure MailState where
  regs : Regs
  /-- `email` of the accounts, empty where there is none. -/
  email : UserRegId → CString
  resetpass : List ResetpassRow
  resetemail : List ResetemailRow
  dropowner : List DropownerRow
  mailer : Mailer

inductive MailRequest where
  | resetpass (client : ClientId) (name : CString)
  | resetemail (client : ClientId)
  | delowner (client : ClientId) (chname : CString)
  deriving DecidableEq, Repr

namespace MailState

variable (conf : MailResetConfig) (event : MailEvent)

/-- `s_user_resetpass` without a token. -/
def sUserResetpass (client : ClientId) (name : CString) (s : MailState) :
    Except MailStop (MailReply × MailState) :=
  if conf.mail.disableEmail || !conf.allowResetpass then .ok (.isDisabled, s)
  else if s.regs.login client ≠ some none then .ok (.loggedIn, s)
  else
    match s.regs.findUserReg name with
    | none => .ok (.notReg, s)
    | some account => do
        let reg ← (s.regs.derefUser account).mapError .reg
        if event.now - reg.regTime < conf.uresetRegtimeDuration then
          .ok (.durationTooShort, s)
        else if TokenState.isBarred event.now reg then .ok (.suspended, s)
        else
          let regs :=
            if reg.flags.has usFlagsSuspended then
              s.regs.expireUserSuspend event.now account
            else s.regs
          let issued ← conf.resetpassTable.issue conf.mail event
            (regs.userName account) (s.email account) s.resetpass s.mailer
          .ok (issued.reply, { s with
            regs := regs, resetpass := issued.rows, mailer := issued.mailer })

/-- `s_user_resetemail` without parameters. -/
def sUserResetemail (client : ClientId) (s : MailState) :
    Except MailStop (MailReply × MailState) :=
  match s.regs.loginOf client with
  | none => .ok (.notLoggedIn, s)
  | some account => do
      let reg ← (s.regs.derefUser account).mapError .reg
      let s := { s with regs := s.regs.touchUser event.now account }
      if conf.mail.disableEmail || !conf.allowResetemail then
        .ok (.isDisabled, s)
      else if event.now - reg.regTime < conf.uresetRegtimeDuration then
        .ok (.durationTooShort, s)
      else
        let issued ← conf.resetemailTable.issue conf.mail event
          (s.regs.userName account) (s.email account) s.resetemail s.mailer
        .ok (issued.reply, { s with
          resetemail := issued.rows, mailer := issued.mailer })

/-- `s_chan_delowner` without a token. -/
def sChanDelowner (serv : ServConfig) (client : ClientId) (chname : CString)
    (s : MailState) : Except MailStop (MailReply × MailState) :=
  match s.regs.loginOf client with
  | none => .ok (.notLoggedIn, s)
  | some account => do
      let _ ← (s.regs.derefUser account).mapError .reg
      let s := { s with regs := s.regs.touchUser event.now account }
      match s.regs.findChannelReg chname with
      | none => .ok (.notReg, s)
      | some target =>
          let (found, regs) ←
            (s.regs.verifyMemberReg event.now client target sCOwner).mapError
              .reg
          let s := { s with regs := regs }
          match found.bind fun entry =>
              (regs.member.cell entry).map fun own => (entry, own) with
          | none => .ok (.noAccess, s)
          | some (entry, own) =>
              if !conf.emailDelowner then
                .ok (.userRemoved,
                  { s with regs := regs.removeMember serv entry own })
              else
                let issued ← conf.dropownerTable.issue conf.mail event
                  (regs.chanName target) (s.email account) s.dropowner
                  s.mailer
                .ok (issued.reply, { s with
                  dropowner := issued.rows, mailer := issued.mailer })

def request (serv : ServConfig) (s : MailState) : MailRequest →
    Except MailStop (MailReply × MailState)
  | .resetpass client name => s.sUserResetpass conf event client name
  | .resetemail client => s.sUserResetemail conf event client
  | .delowner client chname => s.sChanDelowner conf event serv client chname

def subject (s : MailState) : MailRequest → Option CString
  | .resetpass _ name => (s.regs.findUserReg name).map s.regs.userName
  | .resetemail client => (s.regs.loginOf client).map s.regs.userName
  | .delowner _ chname => (s.regs.findChannelReg chname).map s.regs.chanName

def isPending (now : Int) (name : CString) (s : MailState) :
    MailRequest → Bool
  | .resetpass .. => s.resetpass.any
      (conf.resetpassTable.isPending (now - conf.uresetpassDuration) name)
  | .resetemail .. => s.resetemail.any
      (conf.resetemailTable.isPending (now - conf.uresetemailDuration) name)
  | .delowner .. => s.dropowner.any
      (conf.dropownerTable.isPending (now - conf.cdelownerDuration) name)

def duration : MailRequest → Int
  | .resetpass .. => conf.uresetpassDuration
  | .resetemail .. => conf.uresetemailDuration
  | .delowner .. => conf.cdelownerDuration

end MailState

theorem Except.mapError_eq_ok {ε δ α : Type} {result : Except ε α}
    {change : ε → δ} {value : α} (ok : result.mapError change = .ok value) :
    result = .ok value := by
  cases result with
  | error reason => cases ok
  | ok other =>
      cases ok
      rfl

theorem printedSince_eq {now duration since : Int}
    (clock : 0 ≤ now ∧ now ≤ longMax)
    (int : -2147483648 ≤ duration ∧ duration < 2147483648)
    (printed : printedSince now duration = .ok since) :
    since = now - duration := by
  unfold printedSince at printed
  split at printed
  · cases printed
    unfold timeSince at *
    unfold longMax at clock
    omega
  · cases printed

namespace TokenTable

variable {Row : Type} {table : TokenTable Row} {conf : MailConfig}
  {event : MailEvent} {name address : CString} {rows : List Row}
  {mailer : Mailer} {issued : Issued Row}

structure Ends (table : TokenTable Row) (now : Int) (name : CString)
    (rows : List Row) (issued : Issued Row) : Prop where
  failed : issued.reply = .sendFailed →
    issued.rows.any (table.isPending (now - table.duration) name) =
      decide (0 < table.duration)
  pending : issued.reply = .requestPending →
    rows.any (table.isPending (now - table.duration) name) = true

theorem ends_of_issue
    (int : -2147483648 ≤ table.duration ∧ table.duration < 2147483648)
    (ended : table.issue conf event name address rows mailer = .ok issued) :
    Ends table event.now name rows issued := by
  have another {rows after : List Row} {mailer : Mailer} {reply : MailReply}
      (sent : reply ≠ .sendFailed) (free : reply ≠ .requestPending) :
      Ends table event.now name rows ⟨after, mailer, reply⟩ :=
    ⟨fun same => absurd same sent, fun same => absurd same free⟩
  unfold issue at ended
  split at ended
  · cases ended
    exact another (by decide) (by decide)
  obtain ⟨since, printed, ended⟩ := Except.bind_eq_ok.mp ended
  obtain rfl := printedSince_eq event.clock int printed
  split at ended
  · rename_i some_
    cases ended
    refine ⟨fun same => (by cases same), fun _ => ?_⟩
    rw [← Nat.pos_iff_ne_zero, List.countP_pos_iff] at some_
    simpa using some_
  dsimp only at ended
  split at ended
  · cases ended
    exact another (by decide) (by decide)
  split at ended
  · cases ended
    refine ⟨fun _ => ?_, fun same => (by cases same)⟩
    have others : (rows.filter fun row => table.subject row != name).any
        (table.isPending (event.now - table.duration) name) = false := by
      rw [List.any_eq_false]
      intro row kept
      have other := (List.mem_filter.mp kept).2
      simp_all [isPending]
    rw [List.any_append, others]
    simp [isPending, table.subject_row, table.time_row]
  · cases ended
    exact another (by decide) (by decide)

end TokenTable

namespace MailState

variable {conf : MailResetConfig} {event : MailEvent} {serv : ServConfig}
  {s t : MailState} {request : MailRequest} {client : ClientId}
  {name chname : CString} {reply : MailReply}

/-- What a request that came to its end has done: the end is `issue`, for the
account or channel that the request is about. -/
structure Reached (conf : MailResetConfig) (event : MailEvent) (s : MailState)
    (request : MailRequest) (name : CString) (reply : MailReply)
    (t : MailState) : Prop where
  before : s.subject request = some name
  after : t.subject request = some name
  failed : reply = .sendFailed → t.isPending conf event.now name request =
    decide (0 < duration conf request)
  pending : reply = .requestPending →
    s.isPending conf event.now name request = true

theorem reached_resetpass
    (asked : s.sUserResetpass conf event client name = .ok (reply, t)) :
    (reply ≠ .sendFailed ∧ reply ≠ .requestPending) ∨
      ∃ subject, Reached conf event s (.resetpass client name) subject reply
        t := by
  unfold sUserResetpass at asked
  split at asked
  · cases asked
    simp
  split at asked
  · cases asked
    simp
  split at asked
  · cases asked
    simp
  rename_i account found
  obtain ⟨reg, there, asked⟩ := Except.bind_eq_ok.mp asked
  split at asked
  · cases asked
    simp
  split at asked
  · cases asked
    simp
  dsimp only at asked
  have settled : Regs.Settled s.regs
      (if reg.flags.has usFlagsSuspended then
        s.regs.expireUserSuspend event.now account else s.regs) := by
    split
    · exact .expireUserSuspend _ _ _
    · exact .refl _
  generalize (if reg.flags.has usFlagsSuspended then
    s.regs.expireUserSuspend event.now account else s.regs) = regs
    at asked settled
  obtain ⟨issued, ended, asked⟩ := Except.bind_eq_ok.mp asked
  have ends := TokenTable.ends_of_issue conf.resetpassInt ended
  cases asked
  refine Or.inr ⟨regs.userName account, ?_, ?_, ends.failed, ends.pending⟩
  · rw [subject, found, Option.map_some, settled.access.userName]
  · rw [subject, settled.access.findUserReg, found, Option.map_some]

theorem reached_resetemail
    (asked : s.sUserResetemail conf event client = .ok (reply, t)) :
    (reply ≠ .sendFailed ∧ reply ≠ .requestPending) ∨
      ∃ subject, Reached conf event s (.resetemail client) subject reply
        t := by
  unfold sUserResetemail at asked
  split at asked
  · cases asked
    simp
  rename_i account login
  obtain ⟨reg, there, asked⟩ := Except.bind_eq_ok.mp asked
  have settled := Regs.Settled.touchUser event.now account s.regs
  dsimp only at asked
  split at asked
  · cases asked
    simp
  split at asked
  · cases asked
    simp
  obtain ⟨issued, ended, asked⟩ := Except.bind_eq_ok.mp asked
  have ends := TokenTable.ends_of_issue conf.resetemailInt ended
  cases asked
  refine Or.inr ⟨(s.regs.touchUser event.now account).userName account,
    ?_, ?_, ends.failed, ends.pending⟩
  · rw [subject, login, Option.map_some, settled.access.userName]
  · rw [subject, settled.loginOf, login, Option.map_some]

theorem reached_delowner
    (asked : s.sChanDelowner conf event serv client chname =
      .ok (reply, t)) :
    (reply ≠ .sendFailed ∧ reply ≠ .requestPending) ∨
      ∃ subject, Reached conf event s (.delowner client chname) subject reply
        t := by
  unfold sChanDelowner at asked
  split at asked
  · cases asked
    simp
  rename_i account login
  obtain ⟨reg, there, asked⟩ := Except.bind_eq_ok.mp asked
  have touched := Regs.Settled.touchUser event.now account s.regs
  dsimp only at asked
  split at asked
  · cases asked
    simp
  rename_i target found
  obtain ⟨⟨entry, regs⟩, verified, asked⟩ := Except.bind_eq_ok.mp asked
  have settled := touched.trans (Regs.verifyMemberReg_eq_ok
    (Except.mapError_eq_ok verified)).1
  rw [touched.access.findChannelReg] at found
  dsimp only at asked
  split at asked
  · cases asked
    simp
  split at asked
  · cases asked
    simp
  obtain ⟨issued, ended, asked⟩ := Except.bind_eq_ok.mp asked
  have ends := TokenTable.ends_of_issue conf.delownerInt ended
  cases asked
  refine Or.inr ⟨regs.chanName target, ?_, ?_, ends.failed, ends.pending⟩
  · rw [subject, found, Option.map_some, settled.access.chanName]
  · rw [subject, settled.access.findChannelReg, found, Option.map_some]

theorem reached_request
    (asked : s.request conf event serv request = .ok (reply, t)) :
    (reply ≠ .sendFailed ∧ reply ≠ .requestPending) ∨
      ∃ subject, Reached conf event s request subject reply t := by
  cases request with
  | resetpass client name => exact reached_resetpass asked
  | resetemail client => exact reached_resetemail asked
  | delowner client chname => exact reached_delowner asked

/-- Nothing is left of a request: no row that has not expired is in the table
for the account or channel, and a retry at once is not refused as pending. -/
structure Undone (conf : MailResetConfig) (serv : ServConfig)
    (event : MailEvent) (request : MailRequest) (s t : MailState) : Prop where
  noRow : ∀ name, s.subject request = some name →
    t.isPending conf event.now name request = false
  retry : ∀ again : MailEvent, again.now = event.now → ∀ reply u,
    t.request conf again serv request = .ok (reply, u) →
    reply ≠ .requestPending

/-- A request whose mail is not sent is undone if and only if the requests are
good for no time. -/
theorem undone_iff
    (failed : s.request conf event serv request = .ok (.sendFailed, t)) :
    Undone conf serv event request s t ↔
      duration conf request ≤ 0 := by
  obtain other | ⟨name, reached⟩ := reached_request failed
  · exact absurd rfl other.1
  have row := reached.failed rfl
  constructor
  · intro undone
    rw [undone.noRow name reached.before] at row
    exact Int.not_lt.mp (of_decide_eq_false row.symm)
  · intro passed
    have none : t.isPending conf event.now name request = false := by
      rw [row]
      exact decide_eq_false (Int.not_lt.mpr passed)
    constructor
    · intro other before
      rw [reached.before, Option.some.injEq] at before
      rwa [← before]
    · intro again same reply u asked pending
      obtain other | ⟨subject, refused⟩ := reached_request asked
      · exact other.2 pending
      have still := refused.pending pending
      have before := refused.before
      rw [reached.after, Option.some.injEq] at before
      rw [same, ← before, none] at still
      cases still

theorem oneDay_int : -2147483648 ≤ (86400 : Int) ∧
    (86400 : Int) < 2147483648 := by
  decide

theorem noTime_int : -2147483648 ≤ (0 : Int) ∧ (0 : Int) < 2147483648 := by
  decide

theorem clock_forkFails : 0 ≤ (2000000 : Int) ∧ (2000000 : Int) ≤ longMax := by
  decide

/-- `set_default_conf`, but with mail and with the requests allowed. -/
def mailing (uresetemailDuration : Int)
    (resetemailInt : -2147483648 ≤ uresetemailDuration ∧
      uresetemailDuration < 2147483648) : MailResetConfig where
  mail :=
    { disableEmail := false
      emailDuration := 60
      emailNumber := 15
      emailProgram := "/usr/sbin/sendmail".toList }
  allowResetpass := true
  allowResetemail := true
  emailDelowner := true
  uresetRegtimeDuration := 1209600
  uresetpassDuration := 86400
  uresetemailDuration := uresetemailDuration
  cdelownerDuration := 86400
  resetpassInt := oneDay_int
  resetemailInt := resetemailInt
  delownerInt := oneDay_int

def aliceIn : MailState where
  regs :=
    { Regs.empty with
      user := Heap.empty.alloc
        { name := "alice".toList, given := "alice".toList }
      userTable := [0]
      login := fun client => if client = 1 then some (some 0) else none }
  email := fun _ => "alice@host".toList
  resetpass := []
  resetemail := []
  dropowner := []
  mailer := { last := 0, count := 0 }

def forkFails : MailEvent where
  now := 2000000
  clock := clock_forkFails
  token := "token".toList
  calls := { pipe := true, fdopen := true, fork := false }

/-- The request is good for a day although its mail was not sent. -/
theorem not_undone_fork : ∃ t,
    aliceIn.request (mailing 86400 oneDay_int) forkFails
        (setDefaultConf "services.".toList) (.resetemail 1) =
      .ok (.sendFailed, t) ∧
    ¬Undone (mailing 86400 oneDay_int) (setDefaultConf "services.".toList)
      forkFails (.resetemail 1) aliceIn t := by
  have observed : (aliceIn.request (mailing 86400 oneDay_int) forkFails
      (setDefaultConf "services.".toList) (.resetemail 1)).toOption.map
        (fun result => (result.1, result.2.isPending (mailing 86400 oneDay_int)
          2000000 "alice".toList (.resetemail 1))) =
      some (.sendFailed, true) := by
    decide +kernel
  obtain ⟨⟨reply, t⟩, asked, seen⟩ := Except.exists_of_observed observed
  simp only [Prod.mk.injEq] at seen
  obtain ⟨rfl, pending⟩ := seen
  refine ⟨t, asked, fun undone => ?_⟩
  have before : aliceIn.subject (.resetemail 1) = some "alice".toList := by
    decide +kernel
  have none := undone.noRow _ before
  rw [show forkFails.now = 2000000 from rfl, pending] at none
  cases none

theorem undone_iff_zero : ∃ t,
    aliceIn.request (mailing 0 noTime_int) forkFails
        (setDefaultConf "services.".toList) (.resetemail 1) =
      .ok (.sendFailed, t) ∧
    Undone (mailing 0 noTime_int) (setDefaultConf "services.".toList)
      forkFails (.resetemail 1) aliceIn t := by
  have observed : (aliceIn.request (mailing 0 noTime_int) forkFails
      (setDefaultConf "services.".toList) (.resetemail 1)).toOption.map
        Prod.fst = some .sendFailed := by
    decide +kernel
  obtain ⟨⟨reply, t⟩, asked, rfl⟩ := Except.exists_of_observed observed
  exact ⟨t, asked, (undone_iff asked).mpr (by decide)⟩

end MailState

end RatboxServices
