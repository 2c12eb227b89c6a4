import RatboxServices.Irc.Match
import RatboxServices.Lib.Keyed
import RatboxServices.Lib.Run
import RatboxServices.Serv.Ignore
import RatboxServices.Serv.RegCommand

namespace RatboxServices

open CString

/-! The jupes of `s_jupeserv.c`. An oper sets and takes off a jupe at once; other
opers call for it, and it happens when the scores of the servers they are on
come to what is asked for. -/

/-- A server that called, and what its call counted. The source keeps the name
alone, and the scores are only in `points`. -/
structure JupeRequest where
  server : CString
  score : Nat
  deriving DecidableEq, Repr

/-- `struct server_jupe`. -/
structure ServerJupe where
  name : CString
  reason : CString
  points : Int
  add : Bool
  expire : Int
  servers : List JupeRequest
  deriving DecidableEq, Repr

/-- Both lists, and table `jupes`. -/
structure JupeServ where
  pending : List ServerJupe
  active : List ServerJupe
  jupes : List (CString × CString)
  deriving DecidableEq, Repr

/-- How many values an `int` has that are not negative. -/
abbrev JupeConf.limit : Nat := 2147483648

/-- What JupeServ reads of the configuration, where every number is an `int`
that is not negative. -/
structure JupeConf where
  myName : CString
  jupeScore : Fin JupeConf.limit
  unjupeScore : Fin JupeConf.limit
  operScore : Fin JupeConf.limit
  adminScore : Fin JupeConf.limit
  pendingTime : Fin JupeConf.limit

/-- `set_default_conf`. -/
def JupeConf.default : JupeConf where
  myName := "services.int".toList
  jupeScore := 15
  unjupeScore := 15
  operScore := 3
  adminScore := 3
  pendingTime := 1800

structure JupeCall where
  now : Int
  server : CString
  isAdmin : Bool
  uplink : Option CString
  isLinked : CString → Bool
  finishedBursting : Bool
  parv : List CString

inductive JupeRefusal
  | needMoreParams (command : CString)
  | serverNameInvalid (name : CString)
  | isDisabled (command : CString)
  | alreadyJuped (name : CString)
  | notJuped (name : CString)
  | alreadyRequested (command name : CString)
  deriving DecidableEq, Repr

inductive JupeLine
  | jupeSet (name reason : CString)
  | jupeTriggered (name reason : CString)
  | jupeRequested (name reason : CString)
  | unjupeSet (name : CString)
  | unjupeTriggered (name : CString)
  | unjupeRequested (name : CString)
  | squit (name reason : CString)
  | server (name reason : CString)
  deriving DecidableEq, Repr

structure JupeResult where
  jupes : JupeServ
  refusal : Option JupeRefusal
  sent : List JupeLine
  deriving DecidableEq, Repr

/-- Names that `irccmp` takes for the same have the same key. -/
def ServerJupe.key (jupe : ServerJupe) : CString :=
  jupe.name.map toUpper

def ServerJupe.row (jupe : ServerJupe) : CString × CString :=
  (jupe.name, jupe.reason)

namespace JupeServ

def hostLen : Nat := 63

def realLen : Nat := 50

def reasonLen : Nat := 50

/-- `IsServChar`. -/
def isServChar (c : Char) : Bool :=
  Regs.isNickChar c || c == '*' || c == '.'

/-- `valid_servername`. -/
def validServername (name : CString) : Bool :=
  !firstIs isDigit name && name.all isServChar && name.contains '.'

/-- `valid_jupe`. -/
def validJupe (conf : JupeConf) (call : JupeCall) (name : CString) : Bool :=
  validServername name && !name.contains '*' && !irccmp name conf.myName &&
    decide (name.length ≤ hostLen) &&
    !match call.uplink with
      | none => false
      | some uplink => irccmp name uplink

/-- `find_jupe`. -/
def findJupe (name : CString) (list : List ServerJupe) : Option ServerJupe :=
  list.find? fun jupe => irccmp jupe.name name

def deleteJupe (name : CString) (list : List ServerJupe) : List ServerJupe :=
  list.eraseP fun jupe => irccmp jupe.name name

/-- The entry that `make_jupe` allocates. -/
def makeJupe (name : CString) : ServerJupe where
  name := name
  reason := []
  points := 0
  add := false
  expire := 0
  servers := []

def jupeReason (length : Nat) (parv : List CString) : CString :=
  let reason := (rebuildParams parv 1).take length
  if reason = [] then "No Reason".toList else reason

/-- The lines of `add_jupe`. -/
def addJupeLines (call : JupeCall) (jupe : ServerJupe) : List JupeLine :=
  (if call.isLinked jupe.name then [.squit jupe.name jupe.reason] else []) ++
    if call.finishedBursting then [.server jupe.name jupe.reason] else []

/-- `INSERT` and `add_jupe`, which moves the entry from one list to the
other. -/
def addJupe (jupe : ServerJupe) (s : JupeServ) : JupeServ where
  pending := deleteJupe jupe.name s.pending
  active := jupe :: s.active
  jupes := s.jupes ++ [jupe.row]

/-- `DELETE`, and the entries of the name off both lists. -/
def removeJupe (jupe : ServerJupe) (s : JupeServ) : JupeServ where
  pending := deleteJupe jupe.name s.pending
  active := deleteJupe jupe.name s.active
  jupes := s.jupes.filter fun row => row.1 ≠ jupe.name

def setPending (jupe : ServerJupe) (s : JupeServ) : JupeServ :=
  { s with pending := putKey ServerJupe.key jupe s.pending }

def nameOf (call : JupeCall) : CString :=
  call.parv.getD 0 []

/-- What `o_jupeserv_jupe` answers if it does nothing. -/
def jupeRefusal (conf : JupeConf) (call : JupeCall) (s : JupeServ) :
    Option JupeRefusal :=
  if call.parv.length < 2 then some (.needMoreParams "JUPE".toList)
  else if !validJupe conf call (nameOf call) then
    some (.serverNameInvalid (nameOf call))
  else (findJupe (nameOf call) s.active).map fun jupe =>
    .alreadyJuped jupe.name

/-- `o_jupeserv_jupe`. What is pending for the name is dropped. -/
def oJupeservJupe (conf : JupeConf) (call : JupeCall) (s : JupeServ) :
    JupeResult :=
  match jupeRefusal conf call s with
  | some refusal => ⟨s, some refusal, []⟩
  | none =>
      let jupe : ServerJupe :=
        { makeJupe (nameOf call) with reason := jupeReason realLen call.parv }
      { jupes := s.addJupe jupe
        refusal := none
        sent := .jupeSet jupe.name jupe.reason :: addJupeLines call jupe }

/-- `o_jupeserv_unjupe`. -/
def oJupeservUnjupe (call : JupeCall) (s : JupeServ) : JupeResult :=
  if call.parv.length < 1 then
    ⟨s, some (.needMoreParams "UNJUPE".toList), []⟩
  else
    match findJupe (nameOf call) s.active with
    | none => ⟨s, some (.notJuped (nameOf call)), []⟩
    | some jupe =>
        { jupes := s.removeJupe jupe
          refusal := none
          sent := [.unjupeSet jupe.name, .squit jupe.name "Unjuped".toList] }

/-- The value of an `int`. -/
def int (value : Int) : Int :=
  value.bmod 4294967296

def scoreOf (conf : JupeConf) (call : JupeCall) : Nat :=
  if call.isAdmin then conf.adminScore else conf.operScore

def hasRequested (server : CString) (jupe : ServerJupe) : Bool :=
  jupe.servers.any fun request => irccmp request.server server

def calledJupe (call : JupeCall) (s : JupeServ) : ServerJupe :=
  match findJupe (nameOf call) s.pending with
  | some jupe => jupe
  | none =>
      { makeJupe (nameOf call) with
        add := true
        reason := jupeReason reasonLen call.parv }

def countCall (conf : JupeConf) (call : JupeCall) (points : Int)
    (jupe : ServerJupe) : ServerJupe :=
  { jupe with
    expire := call.now + conf.pendingTime
    points := points
    servers := ⟨call.server, scoreOf conf call⟩ :: jupe.servers }

/-- What `s_jupeserv_calljupe` answers if it does not count the call. -/
def calljupeRefusal (conf : JupeConf) (call : JupeCall) (s : JupeServ) :
    Option JupeRefusal :=
  if call.parv.length < 1 then some (.needMoreParams "CALLJUPE".toList)
  else if !validJupe conf call (nameOf call) then
    some (.serverNameInvalid (nameOf call))
  else if conf.jupeScore = 0 ∨ conf.operScore = 0 ∨ conf.adminScore = 0 then
    some (.isDisabled "CALLJUPE".toList)
  else
    match findJupe (nameOf call) s.active with
    | some jupe => some (.alreadyJuped jupe.name)
    | none =>
        if hasRequested call.server (calledJupe call s) then
          some (.alreadyRequested "CALLJUPE".toList (calledJupe call s).name)
        else none

/-- `s_jupeserv_calljupe`. -/
def sJupeservCalljupe (conf : JupeConf) (call : JupeCall) (s : JupeServ) :
    JupeResult :=
  match calljupeRefusal conf call s with
  | some refusal => ⟨s, some refusal, []⟩
  | none =>
      let before := calledJupe call s
      let jupe :=
        countCall conf call (int (before.points + scoreOf conf call)) before
      if conf.jupeScore ≤ jupe.points then
        { jupes := s.addJupe jupe
          refusal := none
          sent :=
            .jupeTriggered jupe.name jupe.reason :: addJupeLines call jupe }
      else
        { jupes := s.setPending jupe
          refusal := none
          sent := [.jupeRequested jupe.name jupe.reason] }

def calledUnjupe (conf : JupeConf) (call : JupeCall) (active : ServerJupe)
    (s : JupeServ) : ServerJupe :=
  match findJupe (nameOf call) s.pending with
  | some jupe => jupe
  | none => { makeJupe active.name with points := conf.unjupeScore }

/-- The jupe a call of `s_jupeserv_callunjupe` counts against, or what it
answers. -/
def callunjupeTarget (conf : JupeConf) (call : JupeCall) (s : JupeServ) :
    Except JupeRefusal ServerJupe :=
  if call.parv.length < 1 then
    .error (.needMoreParams "CALLUNJUPE".toList)
  else if conf.unjupeScore = 0 ∨ conf.operScore = 0 ∨ conf.adminScore = 0 then
    .error (.isDisabled "CALLUNJUPE".toList)
  else
    match findJupe (nameOf call) s.active with
    | none => .error (.notJuped (nameOf call))
    | some active =>
        let jupe := calledUnjupe conf call active s
        if hasRequested call.server jupe then
          .error (.alreadyRequested "CALLUNJUPE".toList jupe.name)
        else .ok active

/-- `s_jupeserv_callunjupe`, whose points go down. -/
def sJupeservCallunjupe (conf : JupeConf) (call : JupeCall) (s : JupeServ) :
    JupeResult :=
  match callunjupeTarget conf call s with
  | .error refusal => ⟨s, some refusal, []⟩
  | .ok active =>
      let before := calledUnjupe conf call active s
      let jupe :=
        countCall conf call (int (before.points - scoreOf conf call)) before
      if jupe.points ≤ 0 then
        { jupes := s.removeJupe jupe
          refusal := none
          sent :=
            [.unjupeTriggered jupe.name,
              .squit jupe.name "Unjuped".toList] }
      else
        { jupes := s.setPending jupe
          refusal := none
          sent := [.unjupeRequested jupe.name] }

/-- `e_jupeserv_expire`. -/
def eJupeservExpire (now : Int) (s : JupeServ) : JupeServ :=
  { s with pending := s.pending.filter fun jupe => decide (now < jupe.expire) }

/-- `jupe_db_callback` on every row. -/
def loadJupes (rows : List (CString × CString)) : List ServerJupe :=
  rows.foldl (fun active row =>
    { makeJupe row.1 with reason := row.2 } :: active) []

def restart (s : JupeServ) : JupeServ where
  pending := []
  active := loadJupes s.jupes
  jupes := s.jupes

inductive JupeEvent
  | jupe (call : JupeCall)
  | unjupe (call : JupeCall)
  | calljupe (call : JupeCall)
  | callunjupe (call : JupeCall)
  | expire (now : Int)
  | restart

def empty : JupeServ := ⟨[], [], []⟩

def step (conf : JupeConf) (s : JupeServ) : JupeEvent → Except Empty JupeServ
  | .jupe call => .ok (oJupeservJupe conf call s).jupes
  | .unjupe call => .ok (oJupeservUnjupe call s).jupes
  | .calljupe call => .ok (sJupeservCalljupe conf call s).jupes
  | .callunjupe call => .ok (sJupeservCallunjupe conf call s).jupes
  | .expire now => .ok (eJupeservExpire now s)
  | .restart => .ok s.restart

end JupeServ

end RatboxServices
