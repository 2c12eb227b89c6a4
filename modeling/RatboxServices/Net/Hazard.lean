import RatboxServices.Net.Link

namespace RatboxServices

/-! What a line from the uplink does beyond its ordinary work, decided from the
line and the state before it. Each of these is where an invariant of the daemon
may depend on the state the line is read in. -/

namespace State

open CString

inductive Hazard where
  /-- A channel is created and left in the tables without users. -/
  | strand
  /-- `signoff_server` is called. -/
  | signoff
  /-- The uplink is introduced, and our services to it. -/
  | accept
  /-- A `SQUIT` without a server name takes our uplink. -/
  | exitUplink
  /-- A killed service is introduced again. -/
  | revive
  deriving DecidableEq, Repr

def endsEarly : Option (Chmode × List CString) → Bool
  | none => true
  | some (_, args) => emptyHead args

/-- The `SJOIN` creates its channel and then returns early: its modes are
invalid or no nick list follows them. -/
def sjoinStrands (parv : List CString) (s : State) : Bool :=
  !lacks parv 4 3 && Chans.validChname (parv.getD 1 []) &&
    (s.chans.findChannel (parv.getD 1 [])).isNone &&
    endsEarly (sjoinParse (parv.getD 2 []) parv)

/-- The `JOIN` creates its channel and then finds its modes invalid. -/
def joinStrands (clientP : ClientId) (parv : List CString) (s : State) :
    Bool :=
  s.clients.isUser clientP && decide (3 ≤ parv.length) &&
    !(parv.getD 0 []).isEmpty && Chans.validChname (parv.getD 1 []) &&
    (s.chans.findChannel (parv.getD 1 [])).isNone &&
    (parseSimpleMode {} (parv.drop 2) true).isNone

/-- The `PASS` has the right password but not what else is asked for, or not
even that. -/
def passRejects (conn : Lconn) (parv : List CString) : Bool :=
  decide (2 ≤ parv.length) &&
    (decide (conn.pass ≠ parv.getD 0 []) ||
      !strcasecmp (parv.getD 1 []) ['T', 'S'] ||
      (passSid parv).isNone)

/-- The `SERVER` of our uplink comes without a `PASS` or under a name we did
not connect to. -/
def serverRejects (conn : Lconn) (parv : List CString) : Bool :=
  !conn.flags.has connTs || !irccmp conn.name (parv.getD 0 [])

def killsService (parv : List CString) (s : State) : Bool :=
  !lacks parv 1 0 &&
    match s.clients.findClient (parv.getD 0 []) with
    | none => false
    | some target => s.clients.isService target

def hazard (conn : Lconn) (clientP : Option ClientId) (command : Command)
    (parv : List CString) (s : State) : Option Hazard :=
  match command, clientP with
  | .sjoin, some _ => if s.sjoinStrands parv then some .strand else none
  | .join, some source =>
      if s.joinStrands source parv then some .strand else none
  | .squit, some _ => if lacks parv 1 0 then some .exitUplink else none
  | .kill, some _ => if s.killsService parv then some .revive else none
  | .error, _ => if lacks parv 1 0 then none else some .signoff
  | .pass, none => if passRejects conn parv then some .signoff else none
  | .server, none =>
      if parv.length < 3 then none
      else if serverRejects conn parv then some .signoff
      else some .accept
  | _, _ => none

def heard (conn : Lconn) (clientP : Option ClientId) : Bool :=
  clientP.isSome || conn.clientP.isNone

def lineHazard (env : Env) (s : State) (buf : CString) : Option Hazard :=
  match s.serverP with
  | none => none
  | some conn =>
      if conn.isDead then none
      else
        match parseLine env conn.name buf with
        | none => none
        | some line =>
            match Command.find line.command with
            | none => none
            | some command =>
                let clientP := s.clients.findClient line.source
                if heard conn clientP then s.hazard conn clientP command line.parv
                else none

def lineCall (env : Env) (s : State) (buf : CString) :
    Option (Command × ClientId × List CString) :=
  match s.serverP with
  | none => none
  | some conn =>
      if conn.isDead then none
      else
        match parseLine env conn.name buf with
        | none => none
        | some line =>
            match Command.find line.command,
              s.clients.findClient line.source with
            | some command, some clientP => some (command, clientP, line.parv)
            | _, _ => none

def serviceCall (env : Env) (parv : List CString) (s : State) :
    Command → Option (ClientId × CString × List CString)
  | .privmsg =>
      match s.messageTarget (parv.getD 0 []) with
      | none => none
      | some serviceP =>
          match cut ' ' (parv.getD 1 []) with
          | (command, none) => some (serviceP, command, [])
          | (command, some rest) =>
              some (serviceP, command, env.stringToArray rest)
  | .encap =>
      match s.clients.findService (parv.getD 2 []) with
      | none => none
      | some serviceP => some (serviceP, parv.getD 3 [], parv.drop 4)
  | _ => none

end State

end RatboxServices
