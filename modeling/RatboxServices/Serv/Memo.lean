import RatboxServices.Lib.Ids
import RatboxServices.Serv.RegCommand

namespace RatboxServices

open CString

/-! `s_memoserv.c`: memos, which the database keeps. A memo says whom it is for
by the id that the account has in table `users`. -/

-- s_userserv.h, s_memoserv.c: by bit index
def usFlagsNomemos : Nat := 4
def msFlagsRead : Nat := 0

/-- A row of table `memos`, without its id. -/
structure Memo where
  userId : Word
  source : CString
  sourceId : Word
  timestamp : Int
  flags : Word := 0#32
  text : CString
  /-- The account it was sent to, which the table does not keep. -/
  sentTo : UserRegId
  deriving DecidableEq, Repr

/-- `config_file`, as far as it is about memos. -/
structure MemoConfig where
  msMaxMemos : Int
  msMemoRegtimeDuration : Int
  isInt : msMaxMemos < 2147483648

/-- `set_default_conf`. -/
def MemoConfig.default : MemoConfig where
  msMaxMemos := 50
  msMemoRegtimeDuration := 604800
  isInt := by decide

structure MemoState where
  regs : Regs
  /-- Columns `id` and `username` of table `users`. -/
  users : List (Nat × CString)
  /-- `id` of the accounts. -/
  idOf : UserRegId → Word
  memos : List (Nat × Memo)

inductive MemoLine where
  | counts (client : ClientId) (unread read : Nat)
  | entry (client : ClientId) (unread : Bool) (id : Int) (timestamp : Int)
      (source : CString)
  | text (client : ClientId) (row : Nat × Memo)
  | received (client : ClientId) (id : Nat)
  deriving DecidableEq, Repr

def Memo.isRead (memo : Memo) : Bool :=
  memo.flags.has msFlagsRead

namespace MemoState

def start : MemoState where
  regs := .empty
  users := []
  idOf := fun _ => 0#32
  memos := []

/-- The id that SQLite gives the next row of table `users`. -/
def nextId (s : MemoState) : Nat :=
  Ids.highest s.users + 1

/-- The accounts are changed: rows that are deleted are gone, and an account
that is new has the id of its row, as far as that fits `unsigned int`. -/
def follow (s : MemoState) (regs : Regs) : MemoState :=
  let kept := s.users.filter fun row => decide (row.2 ∈ regs.users)
  let account := s.regs.user.next
  match regs.user.cell account with
  | none => { s with regs := regs, users := kept }
  | some reg =>
      let id := Ids.highest kept + 1
      { s with
        regs := regs
        users := kept ++ [(id, reg.name)]
        idOf := Function.update s.idOf account (BitVec.ofNat 32 id) }

/-- What `handle_service` does for a command that asks for a login. -/
def asUser (now : Int) (client : ClientId)
    (body : UserRegId → UserReg → MemoState →
      Except RegStop (MemoState × List MemoLine))
    (s : MemoState) : Except RegStop (MemoState × List MemoLine) :=
  match s.regs.loginOf client with
  | none => .ok (s, [])
  | some account => do
      let reg ← s.regs.derefUser account
      body account reg { s with regs := s.regs.touchUser now account }

/-- `SET NOMEMOS` of `s_user_set`. -/
def sUserSetNomemos (now : Int) (client : ClientId) (on : Bool) :
    MemoState → Except RegStop (MemoState × List MemoLine) :=
  asUser now client fun account _ s =>
    let regs := s.regs.modifyUser account fun reg =>
      { reg with
        flags :=
          if on then reg.flags.set usFlagsNomemos
          else reg.flags.clear usFlagsNomemos }
    .ok ({ s with regs := regs }, [])

/-- `WHERE user_id='%u'`. -/
def isFor (id : Word) (row : Nat × Memo) : Bool :=
  row.2.userId == id

/-- `UPDATE memos SET flags = (flags|1)` of the rows that pass a test. -/
def markRead (test : Nat × Memo → Bool) (memos : List (Nat × Memo)) :
    List (Nat × Memo) :=
  memos.map fun row =>
    if test row then
      (row.1, { row.2 with flags := row.2.flags.set msFlagsRead })
    else row

/-- `s_memo_list`, which asks for `user_id='%d'`. -/
def sMemoList (now : Int) (client : ClientId) :
    MemoState → Except RegStop (MemoState × List MemoLine) :=
  asUser now client fun account _ s =>
    let listed := s.memos.filter fun row =>
      decide ((row.2.userId.toNat : Int) = (s.idOf account).toInt)
    let unread := listed.countP fun row => !row.2.isRead
    .ok (s, .counts client unread (listed.length - unread) ::
      listed.map fun row =>
        .entry client (!row.2.isRead) ((row.1 : Int).bmod 4294967296)
          (row.2.timestamp.bmod 4294967296) row.2.source)

/-- `s_memo_read`. -/
def sMemoRead (now : Int) (client : ClientId) (which : CString) :
    MemoState → Except RegStop (MemoState × List MemoLine) :=
  asUser now client fun account _ s =>
    let (value, rest) := strtol which
    let id := (value % 4294967296).toNat
    let own := isFor (s.idOf account)
    if strcasecmp which "ALL".toList then
      .ok ({ s with memos := markRead own s.memos },
        (s.memos.filter own).map (.text client))
    else if rest.isEmpty && decide (0 < id) then
      match s.memos.find? fun row => own row && row.1 == id with
      | none => .ok (s, [])
      | some row =>
          .ok ({ s with memos := markRead (fun row => row.1 == id) s.memos },
            [.text client row])
    else .ok (s, [])

/-- `s_memo_send`. -/
def sMemoSend (conf : MemoConfig) (now : Int) (client : ClientId)
    (target : AccountArg) (text : CString) :
    MemoState → Except RegStop (MemoState × List MemoLine) :=
  asUser now client fun account reg s =>
    if conf.msMemoRegtimeDuration ≠ 0 ∧
        now - reg.regTime < conf.msMemoRegtimeDuration then .ok (s, [])
    else
      match s.regs.findUserRegNick target with
      | none => .ok (s, [])
      | some receiver => do
          let other ← s.regs.derefUser receiver
          let count : Int := s.memos.countP (isFor (s.idOf receiver))
          if other.flags.has usFlagsNomemos then .ok (s, [])
          else if conf.msMaxMemos ≤ count.bmod 4294967296 then .ok (s, [])
          else
            let id := Ids.highest s.memos + 1
            let memo :=
              { userId := s.idOf receiver
                source := reg.name
                sourceId := s.idOf account
                timestamp := now
                text := text
                sentTo := receiver }
            .ok ({ s with memos := s.memos ++ [(id, memo)] },
              other.users.map fun client => .received client id)

/-- `s_memo_delete`. -/
def sMemoDelete (now : Int) (client : ClientId) (which : CString) :
    MemoState → Except RegStop (MemoState × List MemoLine) :=
  asUser now client fun account _ s =>
    let idStr := if firstIs (· == '#') which then which.drop 1 else which
    let (value, rest) := strtol idStr
    let id := (value % 4294967296).toNat
    let own := isFor (s.idOf account)
    if strcasecmp idStr "ALL".toList then
      .ok ({ s with memos := s.memos.filter fun row => !own row }, [])
    else if rest.isEmpty && decide (0 < id) then
      match s.memos.find? fun row => row.1 == id with
      | none => .ok (s, [])
      | some row =>
          if own row then
            .ok ({ s with memos := s.memos.filter fun row => row.1 != id }, [])
          else .ok (s, [])
    else .ok (s, [])

end MemoState

inductive MemoAct where
  | account (act : RegAct)
  | setNomemos (client : ClientId) (on : Bool)
  | list (client : ClientId)
  | read (client : ClientId) (which : CString)
  | send (client : ClientId) (target : AccountArg) (text : CString)
  | delete (client : ClientId) (which : CString)

structure MemoEvent where
  now : Int
  act : MemoAct

def MemoAct.client : MemoAct → Option ClientId
  | .account _ => none
  | .setNomemos _ _ => none
  | .list client => some client
  | .read client _ => some client
  | .send client _ _ => some client
  | .delete client _ => some client

namespace MemoState

def answer (conf : ServConfig) (memoConf : MemoConfig) (s : MemoState)
    (event : MemoEvent) : Except RegStop (MemoState × List MemoLine) :=
  let now := event.now
  match event.act with
  | .account act => do
      let regs ← s.regs.step conf { now := now, act := act }
      .ok (s.follow regs, [])
  | .setNomemos client on => s.sUserSetNomemos now client on
  | .list client => s.sMemoList now client
  | .read client which => s.sMemoRead now client which
  | .send client target text => s.sMemoSend memoConf now client target text
  | .delete client which => s.sMemoDelete now client which

def step (conf : ServConfig) (memoConf : MemoConfig) (s : MemoState)
    (event : MemoEvent) : Except RegStop MemoState := do
  let (after, _) ← s.answer conf memoConf event
  .ok after

end MemoState

end RatboxServices
