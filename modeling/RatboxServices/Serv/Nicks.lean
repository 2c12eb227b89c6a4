import RatboxServices.Serv.RegCommand

namespace RatboxServices

open CString

/-! `s_nickserv.c`: registered nicks. Each belongs to an account, which lists
its nicks, and has a row of table `nicks`. -/

abbrev NickRegId := Nat

-- s_nickserv.h: by bit index
def nsFlagsWarn : Nat := 0

structure NickReg where
  userReg : UserRegId
  name : CString
  regTime : Int
  lastTime : Int
  flags : Word
  deriving DecidableEq, Repr

/-- A row of table `nicks`. -/
structure NickRow where
  nickname : CString
  username : CString
  regTime : Int
  lastTime : Int
  flags : Int
  deriving DecidableEq, Repr

/-- `config_file`, as far as it is about nicks. -/
structure NickConfig where
  nmaxNicks : Int
  nallowSetWarn : Bool
  nwarnString : CString

/-- `set_default_conf`. -/
def NickConfig.default : NickConfig where
  nmaxNicks := 2
  nallowSetWarn := true
  nwarnString := ("This nickname is registered, you may be disconnected if a " ++
    "user regains this nickname.").toList

/-- `(unsigned long)` of the limit, with which the length is compared. -/
def NickConfig.maxNicks (conf : NickConfig) : Nat :=
  (conf.nmaxNicks % 18446744073709551616).toNat

structure NickState where
  regs : Regs
  nick : Heap NickReg
  /-- `nick_reg_table`, the newest nick of each bucket first. -/
  nickTable : List NickRegId
  /-- `nicks` of the accounts. -/
  nicksOf : UserRegId → List NickRegId
  nicks : List NickRow
  online : List (ClientId × CString)

inductive NickLine where
  | warn (client : ClientId)
  | kill (client target : ClientId)
  | rsfnc (client : ClientId) (nick : CString) (ts : Int)
  | info (client : ClientId) (nick owner : CString) (age : Int)
  deriving DecidableEq, Repr

namespace NickState

def start : NickState where
  regs := .empty
  nick := .empty
  nickTable := []
  nicksOf := fun _ => []
  nicks := []
  online := []

def named (s : NickState) (name : CString) (target : NickRegId) : Bool :=
  match s.nick.cell target with
  | some reg => hashName reg.name == hashName name && irccmp reg.name name
  | none => false

/-- `find_nick_reg`. -/
def findNickReg (s : NickState) (name : CString) : Option NickRegId :=
  s.nickTable.find? (s.named name)

/-- `add_nick_reg`, and the entry in the list of the account. -/
def addNickReg (reg : NickReg) (s : NickState) : NickState :=
  { s with
    nick := s.nick.alloc reg
    nickTable := Dlink.add s.nick.next s.nickTable
    nicksOf := Function.update s.nicksOf reg.userReg
      (Dlink.add s.nick.next (s.nicksOf reg.userReg)) }

/-- `free_nick_reg`. -/
def freeNickReg (target : NickRegId) (s : NickState) : NickState :=
  match s.nick.cell target with
  | none => s
  | some reg =>
      { s with
        nick := s.nick.free target
        nickTable := Dlink.delete target s.nickTable
        nicksOf := Function.update s.nicksOf reg.userReg
          (Dlink.delete target (s.nicksOf reg.userReg))
        nicks := s.nicks.filter fun row => row.nickname != reg.name }

def rowOf (s : NickState) (reg : NickReg) : NickRow where
  nickname := reg.name
  username := s.regs.userName reg.userReg
  regTime := reg.regTime
  lastTime := reg.lastTime
  flags := reg.flags.toNat

/-- `INSERT INTO nicks`, which needs a new primary key. -/
def insertNick (row : NickRow) (s : NickState) : Except RegStop NickState :=
  if row.nickname ∈ s.nicks.map NickRow.nickname then .error .die
  else .ok { s with nicks := s.nicks ++ [row] }

/-- `nick_db_callback`. -/
def nickDbCallback (conf : ServConfig) (s : NickState) (row : NickRow) :
    NickState :=
  if row.nickname.isEmpty || row.username.isEmpty then s
  else
    match s.regs.findUserReg row.username with
    | none => s
    | some account =>
        s.addNickReg
          { userReg := account
            name := strlcpy (conf.nickLen + 1) row.nickname
            regTime := row.regTime
            lastTime := row.lastTime
            flags := BitVec.ofInt 32 row.flags }

/-- `init_s_nickserv`: the nicks that the table has. -/
def initNickserv (conf : ServConfig) (s : NickState) : NickState :=
  s.nicks.foldl (nickDbCallback conf)
    { s with nick := .empty, nickTable := [], nicksOf := fun _ => [] }

/-- The loop of `free_user_reg` over the nicks of an account. -/
def freeUserNicks (s : NickState) (account : UserRegId) : NickState :=
  (s.nicksOf account).foldl (fun s target => s.freeNickReg target) s

def follow (s : NickState) (regs : Regs) : NickState :=
  let gone := s.regs.userTable.filter fun account =>
    (regs.user.cell account).isNone
  { gone.foldl freeUserNicks s with regs := regs }

/-- `find_user` without its search for ids. -/
def findUser (s : NickState) (name : CString) : Option ClientId :=
  (s.online.find? fun entry => irccmp entry.2 name).map Prod.fst

/-- The test of `h_nick_warn_client` and `h_nick_server_eob`. -/
def warns (nickConf : NickConfig) (s : NickState) (client : ClientId) :
    Bool :=
  nickConf.nallowSetWarn && !nickConf.nwarnString.isEmpty &&
    match s.online.lookup client with
    | none => false
    | some name =>
        match (s.findNickReg name).bind s.nick.cell with
        | none => false
        | some reg =>
            reg.flags.has nsFlagsWarn &&
              s.regs.loginOf client != some reg.userReg

/-- `h_nick_warn_client`. -/
def hNickWarnClient (nickConf : NickConfig) (s : NickState)
    (client : ClientId) : List NickLine :=
  if s.warns nickConf client then [.warn client] else []

def setNick (conf : ServConfig) (client : ClientId) (nick : CString)
    (s : NickState) : Except RegStop NickState :=
  if conf.nickLen < nick.length then .error .die
  else
    .ok { s with
      online := (client, nick) :: s.online.filter fun entry =>
        entry.1 != client }

/-- `exit_client` of a user. -/
def exitClient (client : ClientId) (s : NickState) :
    Except RegStop NickState := do
  let regs ← s.regs.exitUser client
  .ok { s with
    regs := regs
    online := s.online.filter fun entry => entry.1 != client }

/-- What `handle_service` does for a command that asks for a login. -/
def asUser (now : Int) (client : ClientId)
    (body : UserRegId → NickState → Except RegStop (NickState × List NickLine))
    (s : NickState) : Except RegStop (NickState × List NickLine) :=
  match s.regs.loginOf client with
  | none => .ok (s, [])
  | some account => do
      let _ ← s.regs.derefUser account
      body account { s with regs := s.regs.touchUser now account }

def asOwner (now : Int) (client : ClientId) (name : CString)
    (body : NickRegId → NickReg → NickState →
      Except RegStop (NickState × List NickLine)) :
    NickState → Except RegStop (NickState × List NickLine) :=
  asUser now client fun account s =>
    match s.findNickReg name with
    | none => .ok (s, [])
    | some target =>
        match s.nick.cell target with
        | none => .ok (s, [])
        | some reg =>
            if reg.userReg ≠ account then .ok (s, []) else body target reg s

/-- `o_nick_nickdrop`. -/
def oNickNickdrop (name : CString) (s : NickState) : NickState :=
  match s.findNickReg name with
  | none => s
  | some target => s.freeNickReg target

/-- `s_nick_register` behind its test for a login. -/
def registerNick (conf : ServConfig) (nickConf : NickConfig) (now : Int)
    (account : UserRegId) (nick : CString) (s : NickState) :
    Except RegStop NickState :=
  if nickConf.maxNicks ≤ (s.nicksOf account).length then .ok s
  else if firstIs isDigit nick then .ok s
  else if (s.findNickReg nick).isSome then .ok s
  else
    let reg : NickReg :=
      { userReg := account
        name := strlcpy (conf.nickLen + 1) nick
        regTime := now
        lastTime := now
        flags :=
          if nickConf.nallowSetWarn then Word.ofBits [nsFlagsWarn]
          else 0#32 }
    (s.addNickReg reg).insertNick (s.rowOf reg)

/-- `s_nick_register`, which looks for the login itself. -/
def sNickRegister (conf : ServConfig) (nickConf : NickConfig) (now : Int)
    (client : ClientId) (s : NickState) : Except RegStop NickState :=
  match s.regs.loginOf client, s.online.lookup client with
  | some account, some nick => do
      let _ ← s.regs.derefUser account
      registerNick conf nickConf now account nick
        { s with
          regs := s.regs.modifyUser account fun reg =>
            { reg with lastTime := now } }
  | _, _ => .ok s

/-- `s_nick_drop`. -/
def sNickDrop (now : Int) (client : ClientId) (name : CString) :
    NickState → Except RegStop (NickState × List NickLine) :=
  asOwner now client name fun target _ s => .ok (s.freeNickReg target, [])

/-- `s_nick_release`. -/
def sNickRelease (now : Int) (client : ClientId) (name : CString) :
    NickState → Except RegStop (NickState × List NickLine) :=
  asOwner now client name fun _ _ s =>
    match s.findUser name with
    | none => .ok (s, [])
    | some target =>
        if target = client then .ok (s, [])
        else do
          let after ← s.exitClient target
          .ok (after, [.kill client target])

/-- `s_nick_regain`, which needs an uplink that can force a nick. -/
def sNickRegain (now : Int) (client : ClientId) (name : CString)
    (rsfnc : Bool) : NickState → Except RegStop (NickState × List NickLine) :=
  asOwner now client name fun _ reg s =>
    match s.findUser name with
    | none => .ok (s, [])
    | some target =>
        if target = client then .ok (s, [])
        else if !rsfnc then .ok (s, [])
        else do
          let after ← s.exitClient target
          .ok (after,
            [.kill client target, .rsfnc client reg.name (now - 60)])

/-- `s_nick_set_flag`. -/
def sNickSetFlag (target : NickRegId) (reg : NickReg) (arg : CString)
    (flag : Nat) (s : NickState) : NickState :=
  let write (flags : Word) : NickState :=
    { s with
      nick := s.nick.modify target fun reg => { reg with flags := flags }
      nicks := s.nicks.map fun row =>
        if row.nickname == reg.name then { row with flags := flags.toInt }
        else row }
  if strcasecmp arg "ON".toList then
    if reg.flags.has flag then s else write (reg.flags.set flag)
  else if strcasecmp arg "OFF".toList then
    if !reg.flags.has flag then s else write (reg.flags.clear flag)
  else s

/-- `s_nick_set`. -/
def sNickSet (nickConf : NickConfig) (now : Int) (client : ClientId)
    (name option arg : CString) :
    NickState → Except RegStop (NickState × List NickLine) :=
  asOwner now client name fun target reg s =>
    if strcasecmp option "WARN".toList && nickConf.nallowSetWarn then
      .ok (s.sNickSetFlag target reg arg nsFlagsWarn, [])
    else .ok (s, [])

/-- `s_nick_info`. -/
def sNickInfo (now : Int) (client : ClientId) (name : CString) :
    NickState → Except RegStop (NickState × List NickLine) :=
  asUser now client fun _ s =>
    match (s.findNickReg name).bind s.nick.cell with
    | none => .ok (s, [])
    | some reg => do
        let owner ← s.regs.derefUser reg.userReg
        .ok (s, [.info client reg.name owner.name (now - reg.regTime)])

end NickState

def RegAct.isPresence : RegAct → Bool
  | .connect _ => true
  | .exit _ => true
  | _ => false

inductive NickAct where
  | introduce (client : ClientId) (nick : Token) (hooked : Bool)
  | nickChange (client : ClientId) (nick : Token) (hooked : Bool)
  | quit (client : ClientId)
  | serverEob (users : List ClientId)
  | account (act : RegAct) (plain : act.isPresence = false)
  | nickdrop (name : CString)
  | register (client : ClientId)
  | drop (client : ClientId) (name : CString)
  | release (client : ClientId) (name : CString)
  | regain (client : ClientId) (name : CString) (rsfnc : Bool)
  | set (client : ClientId) (name option arg : CString)
  | info (client : ClientId) (name : CString)

structure NickEvent where
  now : Int
  act : NickAct

namespace NickState

def answer (conf : ServConfig) (nickConf : NickConfig) (s : NickState)
    (event : NickEvent) : Except RegStop (NickState × List NickLine) :=
  let now := event.now
  match event.act with
  | .introduce client nick hooked => do
      let after ← s.setNick conf client nick.text
      let regs ← s.regs.step conf { now := now, act := .connect client }
      let after := { after with regs := regs }
      .ok (after, if hooked then after.hNickWarnClient nickConf client else [])
  | .nickChange client nick hooked => do
      let after ← s.setNick conf client nick.text
      .ok (after, if hooked then after.hNickWarnClient nickConf client else [])
  | .quit client => do
      let after ← s.exitClient client
      .ok (after, [])
  | .serverEob users =>
      .ok (s, users.flatMap (s.hNickWarnClient nickConf))
  | .account act _ => do
      let regs ← s.regs.step conf { now := now, act := act }
      .ok (s.follow regs, [])
  | .nickdrop name => .ok (s.oNickNickdrop name, [])
  | .register client => do
      let after ← s.sNickRegister conf nickConf now client
      .ok (after, [])
  | .drop client name => s.sNickDrop now client name
  | .release client name => s.sNickRelease now client name
  | .regain client name rsfnc => s.sNickRegain now client name rsfnc
  | .set client name option arg => s.sNickSet nickConf now client name option arg
  | .info client name => s.sNickInfo now client name

def step (conf : ServConfig) (nickConf : NickConfig) (s : NickState)
    (event : NickEvent) : Except RegStop NickState := do
  let (after, _) ← s.answer conf nickConf event
  .ok after

end NickState

end RatboxServices
