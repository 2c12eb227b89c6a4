import RatboxServices.Lib.Run
import RatboxServices.Serv.OperBans

namespace RatboxServices

open CString

/-! The regexp bans of `s_banserv.c`, in memory and in tables `operbans_regexp`
and `operbans_regexp_neg`. -/

structure Pcre where
  Code : Type
  /-- `pcre_compile`, where `none` is the null pointer. -/
  compile : CString → Option Code
  /-- `pcre_exec(…) >= 0` -/
  exec : Code → CString → Bool

/-- A row of `operbans_regexp`. -/
structure RegexpRow where
  id : Nat
  regex : CString
  reason : CString
  hold : Int
  createTime : Int
  oper : CString
  deriving DecidableEq, Repr

/-- A row of `operbans_regexp_neg`. -/
structure RegexpNegRow where
  id : Nat
  parentId : Nat
  regex : CString
  oper : CString
  deriving DecidableEq, Repr

/-- A `struct regexp_ban` on the list of another one. Its pattern may be the
null pointer. -/
structure RegexpNeg (pcre : Pcre) where
  id : Nat
  regexpStr : CString
  oper : CString
  createTime : Int
  regexp : Option pcre.Code

/-- A `struct regexp_ban` of `regexp_list`. -/
structure RegexpBan (pcre : Pcre) where
  id : Nat
  regexpStr : CString
  reason : CString
  oper : CString
  hold : Int
  createTime : Int
  regexp : pcre.Code
  negations : List (RegexpNeg pcre)
  compiled : pcre.compile regexpStr = some regexp

structure RegexpTables where
  regexps : List RegexpRow := []
  negs : List RegexpNegRow := []
  deriving DecidableEq, Repr

structure BanRegexps (pcre : Pcre) where
  list : List (RegexpBan pcre) := []
  tables : RegexpTables := {}

structure RegexpConf where
  regexpTime : Nat
  maxRegexpMatches : Nat

/-- A user of `user_list`, or one that connects. -/
structure RegexpUser where
  mask : CString
  info : CString
  host : CString
  servername : CString

structure RegexpCall where
  now : Int
  oper : BanServOper
  userList : List RegexpUser
  parv : List CString
  /-- The id that the database gives to a row that is put in. -/
  newId : Nat

/-- `ENCAP … KLINE` for the host of a user. -/
structure RegexpLine where
  servername : CString
  time : Nat
  host : CString
  reason : CString
  deriving DecidableEq, Repr

inductive RegexpReply
  | needMoreParams (command : CString)
  | alreadyPlaced (command mask : CString)
  | noPermAccess (command : CString)
  | invalid (command mask : CString)
  | tooManyRegexpMatches (mask : CString) (matched limit : Nat)
  | regexpSuccess (mask : CString) (matched : Nat)
  | successfulOn (command mask : CString)
  | notPlaced (command mask : CString)
  | noAccess (command : CString)
  deriving DecidableEq, Repr

inductive RegexpStop
  | die
  | nullParam
  deriving DecidableEq, Repr

structure RegexpResult (pcre : Pcre) where
  after : BanRegexps pcre
  reply : RegexpReply
  sent : List RegexpLine := []

/-- What `regexp_free` deletes. -/
def RegexpTables.free (id : Nat) (tables : RegexpTables) : RegexpTables where
  regexps := tables.regexps.filter fun row => row.id ≠ id
  negs := tables.negs.filter fun row => row.parentId ≠ id

namespace BanRegexps

variable {pcre : Pcre}

/-- `hold && hold <= rb_time()` -/
def isExpired (now : Int) (ban : RegexpBan pcre) : Bool :=
  ban.hold != 0 && decide (ban.hold ≤ now)

/-- `"%s#%s"` in a buffer. -/
def clientText (user : RegexpUser) : CString :=
  strlcpy State.bufSize (user.mask ++ '#' :: user.info)

def lineFor (conf : RegexpConf) (reason : CString) (user : RegexpUser) :
    RegexpLine :=
  ⟨user.servername, conf.regexpTime, user.host, reason⟩

/-- An `unsigned int` that is read with `atoi`. -/
def unsignedOf (text : CString) : Nat :=
  (atoi text % 4294967296).toNat

/-- The loop of `h_banserv_new_client`: the list and the tables that it leaves,
and the ban the client is under. -/
def clientLoop (now : Int) (text : CString) : List (RegexpBan pcre) →
    RegexpTables → List (RegexpBan pcre) × RegexpTables × Option (RegexpBan pcre)
  | [], tables => ([], tables, none)
  | ban :: rest, tables =>
      if isExpired now ban then clientLoop now text rest (tables.free ban.id)
      else if pcre.exec ban.regexp text then
        -- every negation is tried with the pattern of the ban
        if ban.negations.any fun _ => pcre.exec ban.regexp text then
          (ban :: rest, tables, none)
        else (ban :: rest, tables, some ban)
      else
        let (kept, tables, found) := clientLoop now text rest tables
        (ban :: kept, tables, found)

/-- `h_banserv_new_client`. -/
def hBanservNewClient (conf : RegexpConf) (now : Int) (user : RegexpUser)
    (s : BanRegexps pcre) : BanRegexps pcre × List RegexpLine :=
  let (list, tables, found) := clientLoop now (clientText user) s.list s.tables
  (⟨list, tables⟩,
    match found with
    | none => []
    | some ban => [lineFor conf ban.reason user])

/-- The loop of `e_banserv_expire`. -/
def expireLoop (now : Int) : List (RegexpBan pcre) → RegexpTables →
    List (RegexpBan pcre) × RegexpTables
  | [], tables => ([], tables)
  | ban :: rest, tables =>
      if isExpired now ban then expireLoop now rest (tables.free ban.id)
      else
        let (kept, tables) := expireLoop now rest tables
        (ban :: kept, tables)

/-- `e_banserv_expire`. -/
def eBanservExpire (now : Int) (s : BanRegexps pcre) : BanRegexps pcre :=
  let (list, tables) := expireLoop now s.list s.tables
  ⟨list, tables⟩

def addNegation (parentId : Nat) (neg : RegexpNeg pcre) :
    List (RegexpBan pcre) → List (RegexpBan pcre)
  | [] => []
  | ban :: rest =>
      if ban.id = parentId then
        { ban with negations := ban.negations ++ [neg] } :: rest
      else ban :: addNegation parentId neg rest

/-- `regexp_callback`. -/
def regexpCallback (row : RegexpRow) : Option (RegexpBan pcre) :=
  if row.regex = [] ∨ row.reason = [] ∨ row.oper = [] then none
  else
    match compiled : pcre.compile row.regex with
    | none => none
    | some regexp =>
        some
          { id := row.id
            regexpStr := row.regex
            reason := row.reason
            oper := row.oper
            hold := row.hold
            createTime := row.createTime
            regexp := regexp
            negations := []
            compiled := compiled }

/-- `regexp_neg_callback`. The pattern that was compiled is not put into the
record. -/
def regexpNegCallback (list : List (RegexpBan pcre)) (row : RegexpNegRow) :
    List (RegexpBan pcre) :=
  if row.regex = [] ∨ row.oper = [] then list
  else if row.parentId < 1 then list
  else if (list.find? fun ban => ban.id = row.parentId).isNone then list
  else if (pcre.compile row.regex).isNone then list
  else
    addNegation row.parentId
      { id := row.id
        regexpStr := row.regex
        oper := row.oper
        createTime := 0
        regexp := none } list

def load (tables : RegexpTables) : List (RegexpBan pcre) :=
  tables.negs.foldl regexpNegCallback
    (tables.regexps.filterMap regexpCallback)

/-- Services are started again: `init_s_banserv` loads the list. -/
def restarted (s : BanRegexps pcre) : BanRegexps pcre :=
  ⟨load s.tables, s.tables⟩

def regexpValidity : CString :=
  "^\\^.+!.+@.+#.+\\$$".toList

def isInvalid (validity : pcre.Code) (mask : CString) : Bool :=
  decide (255 ≤ mask.length) || !pcre.exec validity mask

/-- `temptime` -/
def regexpTempTime (call : RegexpCall) : Int :=
  OperBan.getTempTime (call.parv.getD 0 [])

/-- `para` behind the time. -/
def regexpPara (call : RegexpCall) : Nat :=
  if regexpTempTime call ≠ 0 then 1 else 0

def regexpReason (call : RegexpCall) : CString :=
  strlcpy (OperBan.reasonLen + 1)
    (rebuildParams call.parv (regexpPara call + 1))

def regexpHold (call : RegexpCall) : Int :=
  if regexpTempTime call ≠ 0 then call.now + regexpTempTime call else 0

/-- The record and the row of `o_banserv_addregexp`. -/
def addRegexp (call : RegexpCall) (mask : CString) (regexp : pcre.Code)
    (compiled : pcre.compile mask = some regexp) (s : BanRegexps pcre) :
    BanRegexps pcre where
  list := s.list ++
    [{  id := call.newId
        regexpStr := mask
        reason := regexpReason call
        oper := call.oper.name
        hold := regexpHold call
        createTime := call.now
        regexp := regexp
        negations := []
        compiled := compiled }]
  tables :=
    { s.tables with
      regexps := s.tables.regexps ++
        [⟨call.newId, mask, regexpReason call, regexpHold call, call.now,
          call.oper.name⟩] }

/-- `o_banserv_addregexp`. -/
def oBanservAddregexp (conf : RegexpConf) (call : RegexpCall)
    (s : BanRegexps pcre) : Except RegexpStop (RegexpResult pcre) :=
  if call.parv.length < 2 then
    .ok { after := s, reply := .needMoreParams "ADDREGEXP".toList }
  else
    match pcre.compile regexpValidity with
    | none => .error .die
    | some validity =>
        let mask := call.parv.getD (regexpPara call) []
        let refuse (reply : RegexpReply) :
            Except RegexpStop (RegexpResult pcre) :=
          .ok { after := s, reply := reply }
        if s.list.any (·.regexpStr == mask) then
          refuse (.alreadyPlaced "REGEXP".toList mask)
        else if regexpTempTime call = 0 ∧ !call.oper.banPerm then
          refuse (.noPermAccess "REGEXP".toList)
        else if isInvalid validity mask then
          refuse (.invalid "REGEXP".toList mask)
        else if regexpReason call = [] then
          refuse (.needMoreParams "ADDREGEXP".toList)
        else
          match compiled : pcre.compile mask with
          | none => refuse (.invalid "REGEXP".toList mask)
          | some regexp =>
              let matched := call.userList.filter fun user =>
                pcre.exec regexp (clientText user)
              if conf.maxRegexpMatches ≠ 0 ∧
                  conf.maxRegexpMatches < matched.length then
                refuse (.tooManyRegexpMatches mask matched.length
                  conf.maxRegexpMatches)
              else
                .ok
                  { after := addRegexp call mask regexp compiled s
                    reply := .regexpSuccess mask matched.length
                    sent := matched.map (lineFor conf (regexpReason call)) }

/-- The record and the row of `o_banserv_addregexpneg`. -/
def addRegexpNeg (call : RegexpCall) (parentId : Nat) (mask : CString)
    (regexp : pcre.Code) (s : BanRegexps pcre) : BanRegexps pcre where
  list :=
    addNegation parentId
      { id := call.newId
        regexpStr := mask
        oper := call.oper.name
        createTime := call.now
        regexp := some regexp } s.list
  tables :=
    { s.tables with
      negs := s.tables.negs ++
        [⟨call.newId, parentId, mask, call.oper.name⟩] }

/-- `o_banserv_addregexpneg`. What is compared with the new negation is the
ban. -/
def oBanservAddregexpneg (call : RegexpCall) (s : BanRegexps pcre) :
    Except RegexpStop (RegexpResult pcre) :=
  match call.parv with
  | id :: mask :: _ =>
      match pcre.compile regexpValidity with
      | none => .error .die
      | some validity =>
          let refuse (reply : RegexpReply) :
              Except RegexpStop (RegexpResult pcre) :=
            .ok { after := s, reply := reply }
          match s.list.find? fun ban => ban.id = unsignedOf id with
          | none => refuse (.invalid "REGEXP".toList id)
          | some parent =>
              if parent.negations.any fun _ => parent.regexpStr == mask then
                refuse (.alreadyPlaced "REGEXPNEG".toList mask)
              else if isInvalid validity mask then
                refuse (.invalid "REGEXPNEG".toList mask)
              else
                match pcre.compile mask with
                | none => refuse (.invalid "REGEXPNEG".toList mask)
                | some regexp =>
                    .ok
                      { after := addRegexpNeg call parent.id mask regexp s
                        reply :=
                          .successfulOn "ADDREGEXPNEG".toList mask }
  | _ => .ok { after := s, reply := .needMoreParams "ADDREGEXPNEG".toList }

def mayRemove (oper : BanServOper) (owner : CString) : Bool :=
  irccmp owner oper.name || oper.banRemove

/-- `o_banserv_delregexp`. -/
def oBanservDelregexp (call : RegexpCall) (s : BanRegexps pcre) :
    Except RegexpStop (RegexpResult pcre) :=
  match call.parv with
  | [] => .ok { after := s, reply := .needMoreParams "DELREGEXP".toList }
  | mask :: _ =>
      match s.list.find? (·.regexpStr == mask) with
      | none =>
          .ok { after := s, reply := .notPlaced "REGEXP".toList mask }
      | some ban =>
          if !mayRemove call.oper ban.oper then
            .ok { after := s, reply := .noAccess "DELREGEXP".toList }
          else
            .ok
              { after :=
                  ⟨s.list.eraseP (·.regexpStr == mask), s.tables.free ban.id⟩
                reply := .successfulOn "DELREGEXP".toList mask }

def dropNegation (parentId : Nat) (mask : CString) :
    List (RegexpBan pcre) → List (RegexpBan pcre)
  | [] => []
  | ban :: rest =>
      if ban.id = parentId then
        { ban with
          negations := ban.negations.eraseP (·.regexpStr == mask) } :: rest
      else ban :: dropNegation parentId mask rest

/-- `o_banserv_delregexpneg`, which is called with one parameter too. -/
def oBanservDelregexpneg (call : RegexpCall) (s : BanRegexps pcre) :
    Except RegexpStop (RegexpResult pcre) :=
  match call.parv with
  | [] => .ok { after := s, reply := .needMoreParams "DELREGEXPNEG".toList }
  | id :: more =>
      match s.list.find? fun ban => ban.id = unsignedOf id with
      | none => .ok { after := s, reply := .notPlaced "REGEXP".toList id }
      | some parent =>
          match more with
          | [] => .error .nullParam
          | mask :: _ =>
              match parent.negations.find? (·.regexpStr == mask) with
              | none =>
                  .ok
                    { after := s
                      reply := .notPlaced "REGEXPNEG".toList mask }
              | some neg =>
                  if !mayRemove call.oper neg.oper then
                    .ok
                      { after := s
                        reply := .noAccess "DELREGEXPNEG".toList }
                  else
                    .ok
                      { after :=
                          { list := dropNegation parent.id mask s.list
                            tables :=
                              { s.tables with
                                negs := s.tables.negs.filter fun row =>
                                  row.id ≠ neg.id } }
                        reply :=
                          .successfulOn "DELREGEXPNEG".toList mask }

inductive RegexpEvent
  | addregexp (call : RegexpCall)
  | addregexpneg (call : RegexpCall)
  | delregexp (call : RegexpCall)
  | delregexpneg (call : RegexpCall)
  | expire (now : Int)
  | newClient (now : Int) (user : RegexpUser)
  | restart

def step (conf : RegexpConf) (s : BanRegexps pcre) :
    RegexpEvent → Except RegexpStop (BanRegexps pcre)
  | .addregexp call => (oBanservAddregexp conf call s).map (·.after)
  | .addregexpneg call => (oBanservAddregexpneg call s).map (·.after)
  | .delregexp call => (oBanservDelregexp call s).map (·.after)
  | .delregexpneg call => (oBanservDelregexpneg call s).map (·.after)
  | .expire now => .ok (eBanservExpire now s)
  | .newClient now user => .ok (hBanservNewClient conf now user s).1
  | .restart => .ok s.restarted

end BanRegexps

end RatboxServices
