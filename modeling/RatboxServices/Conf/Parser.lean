import RatboxServices.Conf.Lexer
import RatboxServices.Serv.ModeTable

namespace RatboxServices

open CString

/-! The grammar of the configuration file with its actions (`parser.y`), and
the setting of an item (`newconf.c`). The actions of a parse tree are run in the
order of the reductions. -/

namespace Parser

open Newconf (confReportError)

/-- A value that fits an `int`. -/
structure CInt where
  val : Int
  low : -2147483648 ≤ val
  high : val ≤ 2147483647
  deriving DecidableEq, Repr

/-- The value an `int` gets. -/
def wrap (n : Int) : Int :=
  n.bmod 4294967296

inductive ParmType where
  | qstring
  | int
  | string
  | time
  | yesno
  deriving DecidableEq, Repr

/-- `conf_parm_t`. -/
inductive Parm where
  | qstring (text : CString)
  | int (number : Int)
  | string (text : CString)
  | time (number : Int)
  | yesno (number : Int)
  deriving DecidableEq, Repr

def Parm.type : Parm → ParmType
  | qstring _ => .qstring
  | int _ => .int
  | string _ => .string
  | time _ => .time
  | yesno _ => .yesno

def Parm.text : Parm → CString
  | qstring text => text
  | string text => text
  | _ => []

def Parm.number : Parm → Int
  | int number => number
  | time number => number
  | yesno number => number
  | _ => 0

/-- The head of `cur_list`: whether it has `CF_FLIST`, and its values. -/
structure CurList where
  flist : Bool
  first : Parm
  rest : List Parm
  deriving DecidableEq, Repr

def CurList.values (list : CurList) : List Parm :=
  list.first :: list.rest

def valuesOf : Option CurList → List Parm
  | none => []
  | some list => list.values

/-- `add_cur_list_cpt`. -/
def addCurListCpt (new : Parm) : Option CurList → CurList
  | none => ⟨false, new, []⟩
  | some list => ⟨true, list.first, list.rest ++ [new]⟩

inductive Timespec where
  | unit (number : CInt) (word : CString)
  | join (left right : Timespec)
  | plus (left : Timespec) (number : CInt)
  deriving DecidableEq, Repr

inductive Oneitem where
  | qstring (text : CString)
  | timespec (time : Timespec)
  | number (number : CInt)
  | string (text : CString)
  deriving DecidableEq, Repr

inductive Single where
  | one (item : Oneitem)
  | range (low high : Oneitem)
  deriving DecidableEq, Repr

/-- A `block_item`, with its `itemlist` in order. -/
structure BlockItem where
  name : CString
  first : Single
  rest : List Single
  deriving DecidableEq, Repr

def BlockItem.singles (item : BlockItem) : List Single :=
  item.first :: item.rest

/-- A `block`, with its `block_items` in order. -/
structure Block where
  name : CString
  label : Option CString
  first : BlockItem
  rest : List BlockItem
  deriving DecidableEq, Repr

def Block.items (block : Block) : List BlockItem :=
  block.first :: block.rest

/-- A `conf` without an error. -/
abbrev Conf := List Block

def Conf.items (conf : Conf) : List BlockItem :=
  conf.flatMap Block.items

open Lexer (Token)

def Timespec.tokens : Timespec → List Token
  | unit number word => [.number number.val, .string word]
  | join left right => left.tokens ++ right.tokens
  | plus left number => left.tokens ++ [.number number.val]

/-- `struct ConfEntry`; a generic entry has a `cf_arg`. -/
structure ConfEntry where
  name : CString
  type : ParmType
  flist : Bool
  len : Nat
  generic : Bool
  deriving DecidableEq, Repr

structure ConfExtension where
  name : CString
  items : List ConfEntry
  deriving DecidableEq, Repr

/-- `struct TopConf`. -/
structure TopConf where
  name : CString
  entries : List ConfEntry
  items : List ConfEntry
  extensions : List ConfExtension
  deriving DecidableEq, Repr

inductive Event where
  | start (tc : TopConf)
  | callSet (item : CString) (values : List Parm)
  | setList (entry : ConfEntry) (values : List Parm)
  | setNumber (entry : ConfEntry) (number : Int)
  | setString (entry : ConfEntry) (text : CString)
  | finish (tc : TopConf)
  | report (text : CString)
  deriving DecidableEq, Repr

/-- A call of `conf_call_set`, with its values. -/
def Event.call : Event → Option (CString × List Parm)
  | callSet item values => some (item, values)
  | _ => none

/-- Why the parser does not come to an end: a null pointer is read, or a loop
runs on. -/
inductive Stop where
  | nullList
  | running
  deriving DecidableEq, Repr

structure ParseState where
  block : Option TopConf := none
  blockName : Option CString := none
  curList : Option CurList := none
  events : List Event := []
  deriving DecidableEq, Repr

namespace ParseState

def emit (event : Event) (st : ParseState) : ParseState :=
  { st with events := st.events ++ [event] }

/-- `conf_report_error`. -/
def report (text : CString) (st : ParseState) : ParseState :=
  st.emit (.report (confReportError text))

/-- The calls of `conf_call_set`. -/
def calls (st : ParseState) : List (CString × List Parm) :=
  st.events.filterMap Event.call

end ParseState

def findEntry (name : CString) (entries : List ConfEntry) :
    Option ConfEntry :=
  entries.find? fun entry => strcasecmp entry.name name

/-- `find_top_conf`. -/
def findTopConf (blocks : List TopConf) (name : CString) : Option TopConf :=
  blocks.find? fun tc => strcasecmp tc.name name

/-- `find_conf_item`. -/
def findConfItem (tc : TopConf) (blockName : Option CString)
    (name : CString) : Option ConfEntry :=
  (findEntry name tc.entries).or <| (findEntry name tc.items).or <|
    match blockName with
    | none => none
    | some blockName =>
        if blockName.isEmpty then none
        else
          tc.extensions.findSome? fun ext =>
            if strcasecmp ext.name blockName then findEntry name ext.items
            else none

/-- `conf_strtype`. -/
def confStrtype : ParmType → CString
  | .int => "integer value".toList
  | .string => "unquoted string".toList
  | .yesno => "yes/no value".toList
  | .qstring => "quoted string".toList
  | .time => "time/size value".toList

/-- `conf_start_block`. -/
def confStartBlock (blocks : List TopConf) (name : CString)
    (label : Option CString) (st : ParseState) : ParseState :=
  match findTopConf blocks name with
  | none =>
      { st with block := none }.report
        ("Configuration block '".toList ++ name ++ "' is not defined.".toList)
  | some tc =>
      { st with block := some tc, blockName := label }.emit (.start tc)

/-- `conf_end_block`, where there is a block. -/
def confEndBlock (st : ParseState) : ParseState :=
  match st.block with
  | none => st
  | some tc => st.emit (.finish tc)

/-- The first value as the entry expects it; `none` for a wrong type. -/
def convert (entry : ConfEntry) (value : Parm) : Option Parm :=
  if value.type = entry.type then some value
  else if value.type = .yesno ∧ entry.type = .string then
    some (.string (if value.number = 1 then "yes".toList else "no".toList))
  else if value.type = .int ∧ entry.type = .time then some value
  else none

def settingName (tc : TopConf) (item : CString) : CString :=
  tc.name ++ "::".toList ++ item

def setEntry (tc : TopConf) (item : CString) (entry : ConfEntry)
    (list : CurList) (st : ParseState) : ParseState :=
  if entry.flist then st.emit (.setList entry list.values)
  else if entry.type = .string ∨ entry.type = .qstring then
    let text := list.first.text
    if text.isEmpty then
      st.report ("Ignoring ".toList ++ settingName tc item ++
        " -- empty string".toList)
    else if entry.generic ∧ 0 < entry.len then
      st.emit (.setString entry (text.take entry.len))
    else st.emit (.setString entry text)
  else if entry.generic ∧ list.first.number < 0 then st
  else st.emit (.setNumber entry list.first.number)

/-- `conf_call_set`, which reads the list of values once it has an entry. -/
def confCallSet (item : CString) (value : Option CurList) (st : ParseState) :
    Except Stop ParseState :=
  let st := st.emit (.callSet item (valuesOf value))
  match st.block with
  | none => .ok st
  | some tc =>
      match findConfItem tc st.blockName item with
      | none =>
          .ok (st.report ("Non-existant configuration setting ".toList ++
            settingName tc item ++ ".".toList))
      | some entry =>
          match value with
          | none => .error .nullList
          | some list =>
              if list.flist && !entry.flist then
                .ok (st.report ("Option ".toList ++ settingName tc item ++
                  " does not take a list of values.".toList))
              else
                match convert entry list.first with
                | none =>
                    .ok (st.report ("Wrong type for ".toList ++
                      settingName tc item ++ " (expected ".toList ++
                      confStrtype entry.type ++ ", got ".toList ++
                      confStrtype list.first.type ++ ")".toList))
                | some first =>
                    .ok (setEntry tc item entry { list with first := first }
                      st)

/-- `times`: name, plural and seconds or bytes. -/
def times : List (CString × Option CString × Int) :=
  [ ("second".toList, some "seconds".toList, 1),
    ("minute".toList, some "minutes".toList, 60),
    ("hour".toList, some "hours".toList, 60 * 60),
    ("day".toList, some "days".toList, 60 * 60 * 24),
    ("week".toList, some "weeks".toList, 60 * 60 * 24 * 7),
    ("fortnight".toList, some "fortnights".toList, 60 * 60 * 24 * 14),
    ("month".toList, some "months".toList, 60 * 60 * 24 * 7 * 4),
    ("year".toList, some "years".toList, 60 * 60 * 24 * 365),
    ("byte".toList, some "bytes".toList, 1),
    ("kb".toList, none, 1024),
    ("kbyte".toList, some "kbytes".toList, 1024),
    ("kilobyte".toList, some "kilobytes".toList, 1024),
    ("mb".toList, none, 1024 * 1024),
    ("mbyte".toList, some "mbytes".toList, 1024 * 1024),
    ("megabyte".toList, some "megabytes".toList, 1024 * 1024) ]

/-- `conf_find_time`. -/
def confFindTime (name : CString) : Int :=
  match times.find? fun entry => strcasecmp entry.1 name ||
      entry.2.1.any fun plural => strcasecmp plural name with
  | none => 0
  | some entry => entry.2.2

def yesno : List (CString × Int) :=
  [ ("yes".toList, 1), ("no".toList, 0), ("true".toList, 1),
    ("false".toList, 0), ("on".toList, 1), ("off".toList, 0) ]

/-- `conf_get_yesno_value`. -/
def confGetYesnoValue (text : CString) : Int :=
  match yesno.find? fun entry => strcasecmp text entry.1 with
  | none => -1
  | some entry => entry.2

def Timespec.eval : Timespec → Int
  | unit number word =>
      wrap (number.val *
        if confFindTime word = 0 then 1 else confFindTime word)
  | join left right => wrap (left.eval + right.eval)
  | plus left number => wrap (left.eval + number.val)

def Timespec.run : Timespec → ParseState → ParseState
  | unit _ word, st =>
      if confFindTime word = 0 then
        st.report ("Unrecognised time type/size '".toList ++ word ++
          "'".toList)
      else st
  | join left right, st => right.run (left.run st)
  | plus left _, st => left.run st

def Oneitem.parm : Oneitem → Parm
  | qstring text => .qstring text
  | timespec time => .time time.eval
  | number value => .int value.val
  | string text =>
      if confGetYesnoValue text ≠ -1 then .yesno (confGetYesnoValue text)
      else .string text

def Oneitem.run : Oneitem → ParseState → ParseState
  | timespec time, st => time.run st
  | _, st => st

def rangeLoop : Nat → Int → Int → Option CurList →
    Except Stop (Option CurList)
  | 0, _, _, _ => .error .running
  | turns + 1, i, high, list =>
      if i ≤ high then
        rangeLoop turns (wrap (i + 1)) high
          (some (addCurListCpt (.int i) list))
      else .ok list

/-- `single`. -/
def Single.run (turns : Nat) (single : Single) (st : ParseState) :
    Except Stop ParseState :=
  match single with
  | one item =>
      let st := item.run st
      .ok { st with curList := some (addCurListCpt item.parm st.curList) }
  | range low high =>
      let st := high.run (low.run st)
      match low.parm, high.parm with
      | .int a, .int b =>
          match rangeLoop turns a b st.curList with
          | .error stop => .error stop
          | .ok list => .ok { st with curList := list }
      | _, _ =>
          .ok (st.report
            "Both arguments in '..' notation must be integers.".toList)

/-- `block_item`. The list is read to free it. -/
def BlockItem.run (turns : Nat) (item : BlockItem) (st : ParseState) :
    Except Stop ParseState := do
  let st ← item.singles.foldlM (fun st single => single.run turns st) st
  let st ← confCallSet item.name st.curList st
  match st.curList with
  | none => .error .nullList
  | some _ => .ok { st with curList := none }

/-- `block`. -/
def Block.run (blocks : List TopConf) (turns : Nat) (block : Block)
    (st : ParseState) : Except Stop ParseState := do
  let st := confStartBlock blocks block.name block.label st
  let st ← block.items.foldlM (fun st item => item.run turns st) st
  .ok (confEndBlock st)

/-- `yyparse`. -/
def Conf.run (blocks : List TopConf) (turns : Nat) (conf : Conf)
    (st : ParseState) : Except Stop ParseState :=
  conf.foldlM (fun st block => block.run blocks turns st) st

end Parser

end RatboxServices
