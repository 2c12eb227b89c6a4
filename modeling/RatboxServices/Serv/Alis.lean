import RatboxServices.Net.ChannelList
import RatboxServices.Net.SentModes

namespace RatboxServices

open CString

/-! The list of channels of ALIS (`s_alis.c`). -/

namespace Alis

/-- `DIR_UNSET`, `DIR_SET` and `DIR_EQUAL`. -/
inductive Dir where
  | unset
  | set
  | equal
  deriving DecidableEq, Repr

/-- `struct alis_query`. -/
structure Query where
  mask : CString
  topic : Option CString := none
  min : Int := 0
  max : Int := 0
  showMode : Bool := false
  showTopicwho : Bool := false
  mode : Word := 0#32
  modeDir : Dir := .unset
  modeKey : Bool := false
  modeLimit : Bool := false
  skip : Int := 0
  deriving DecidableEq, Repr

/-- What a client is sent. A channel has its modes and the setter of its topic
where they were asked for. -/
inductive Line where
  | needMoreParams (command : CString)
  | optionInvalid (option : CString)
  | listStart (maxMatches : Int) (mask : CString)
  | channel (name : CString) (modes : Option CString) (users : Nat)
      (topic : CString) (topicwho : Option CString)
  | endOfListLimit
  | endOfList
  deriving DecidableEq, Repr

/-- The letters of `alis_parse_mode` that stand for a bit. -/
def letterBit (c : Char) : Option Nat :=
  if c = 'i' then some modeInviteonly
  else if c = 'm' then some modeModerated
  else if c = 'n' then some modeNoexternal
  else if c = 't' then some modeTopic
  else if c = 'r' then some modeRegonly
  else if c = 'S' then some modeSslonly
  else none

/-- The loop of `alis_parse_mode`, which sets the mode, the key and the
limit. -/
def parseModeLoop : CString → Query → Option Query
  | [], query => some query
  | c :: text, query =>
      match letterBit c with
      | some bit => parseModeLoop text { query with mode := query.mode.set bit }
      | none =>
          if c = 'l' then parseModeLoop text { query with modeLimit := true }
          else if c = 'k' then parseModeLoop text { query with modeKey := true }
          else none

/-- `alis_parse_mode`. -/
def parseMode (text : CString) (query : Query) : Option Query :=
  if text.isEmpty then none
  else parseModeLoop text { query with mode := 0#32 }

def parseNumber (option value : CString) (set : Int → Query) :
    Except Line Query :=
  if atoi value < 1 then .error (.optionInvalid option)
  else .ok (set (atoi value))

def parseShow (value : CString) (query : Query) : Query :=
  if at_ value 0 = 'm' then
    { query with
      showMode := true
      showTopicwho := query.showTopicwho || at_ value 1 == 't' }
  else if at_ value 0 = 't' then
    { query with
      showTopicwho := true
      showMode := query.showMode || at_ value 1 == 'm' }
  else query

def parseDir (c : Char) : Option Dir :=
  if c = '+' then some .set
  else if c = '-' then some .unset
  else if c = '=' then some .equal
  else none

def parseModeOption (value : CString) (query : Query) : Except Line Query :=
  match parseDir (at_ value 0) with
  | none => .error (.optionInvalid "LIST -mode".toList)
  | some dir =>
      match parseMode (value.drop 1) { query with modeDir := dir } with
      | none => .error (.optionInvalid "LIST -mode".toList)
      | some query => .ok query

def parseOption (option value : CString) (query : Query) :
    Except Line Query :=
  if strcasecmp option "-min".toList then
    parseNumber "LIST -min".toList value fun n => { query with min := n }
  else if strcasecmp option "-max".toList then
    parseNumber "LIST -max".toList value fun n => { query with max := n }
  else if strcasecmp option "-skip".toList then
    parseNumber "LIST -skip".toList value fun n => { query with skip := n }
  else if strcasecmp option "-topic".toList then
    .ok { query with topic := some value }
  else if strcasecmp option "-show".toList then .ok (parseShow value query)
  else if strcasecmp option "-mode".toList then parseModeOption value query
  else .error (.optionInvalid "LIST".toList)

/-- `parse_alis`. -/
def parse : List CString → Query → Except Line Query
  | [], query => .ok query
  | [_], _ => .error (.needMoreParams "LIST".toList)
  | option :: value :: rest, query =>
      if value.isEmpty then .error (.needMoreParams "LIST".toList)
      else
        match parseOption option value query with
        | .error line => .error line
        | .ok query => parse rest query

/-- `print_channel`. -/
def printChannel (ch : Channel) (query : Query) : Line :=
  let showTopicwho := query.showTopicwho && !ch.topic.isEmpty
  .channel ch.name (if query.showMode then some ch.mode.sentLetters else none)
    ch.users.length ch.topic (if showTopicwho then some ch.topicwho else none)

/-- The test of the modes in `show_channel`, where it is made. -/
def showMode (mode : Chmode) (query : Query) : Bool :=
  if query.mode = 0#32 then true
  else
    match query.modeDir with
    | .set =>
        !(mode.mode &&& query.mode == 0#32 ||
          (query.modeKey && mode.key.isEmpty) ||
          (query.modeLimit && mode.limit == 0))
    | .unset =>
        !(mode.mode &&& query.mode != 0#32 ||
          (query.modeKey && !mode.key.isEmpty) ||
          (query.modeLimit && mode.limit != 0))
    | .equal =>
        !(mode.mode != query.mode ||
          (query.modeKey && mode.key.isEmpty) ||
          (query.modeLimit && mode.limit == 0))

/-- `show_channel`, with what it leaves to skip. -/
def showChannel (ch : Channel) (query : Query) : Bool × Query :=
  if ch.mode.mode.has modeSecret then (false, query)
  else if (ch.users.length : Int) < query.min ∨
      (query.max ≠ 0 ∧ query.max < ch.users.length) then (false, query)
  else if !showMode ch.mode query then (false, query)
  else if !match_ query.mask ch.name then (false, query)
  else if query.topic.any fun topic => !match_ topic ch.topic then
    (false, query)
  else if query.skip ≠ 0 then (false, { query with skip := query.skip - 1 })
  else (true, query)

/-- The walk over `channel_list`. -/
def listLoop : List Channel → Query → Int → List Line
  | [], _, _ => []
  | ch :: rest, query, maxmatch =>
      match showChannel ch query with
      | (false, query) => listLoop rest query maxmatch
      | (true, query) =>
          printChannel ch query ::
            if maxmatch - 1 = 0 then [.endOfListLimit]
            else listLoop rest query (maxmatch - 1)

/-- What the configuration allows of `max_matches`. -/
def checkMaxMatches (maxMatches : Int) : Int :=
  if 250 ≤ maxMatches then 250
  else if maxMatches ≤ 0 then 250
  else maxMatches

/-- `s_alis_list`: the cost of the command and what the client is sent. -/
def sAlisList (maxMatches : Int) (mask : CString) (options : List CString)
    (s : Chans) : Nat × List Line :=
  match parse options { mask := mask } with
  | .error line => (1, [line])
  | .ok query =>
      let start := Line.listStart maxMatches mask
      -- hunting for one channel
      if '*' ∉ mask then
        match (s.findChannel mask).bind s.channel.cell with
        | some ch =>
            if ch.mode.mode.has modeSecret then (1, [start, .endOfList])
            else (1, [start, printChannel ch query, .endOfList])
        | none => (1, [start, .endOfList])
      else
        (3, start :: listLoop s.channels query maxMatches ++ [.endOfList])

def printed (lines : List Line) : List CString :=
  lines.filterMap fun line =>
    match line with
    | .channel name _ _ _ _ => some name
    | _ => none

def lastOption (name : CString) : List CString → Option CString
  | option :: value :: rest =>
      (lastOption name rest).or
        (if strcasecmp option name then some value else none)
  | _ => none

structure Asked where
  min : Int
  max : Int
  skip : Int
  topic : Option CString
  mode : Option (Dir × CString)
  deriving DecidableEq, Repr

def Asked.of (options : List CString) : Asked where
  min := ((lastOption "-min".toList options).map atoi).getD 0
  max := ((lastOption "-max".toList options).map atoi).getD 0
  skip := ((lastOption "-skip".toList options).map atoi).getD 0
  topic := lastOption "-topic".toList options
  mode := (lastOption "-mode".toList options).bind fun value =>
    (parseDir (at_ value 0)).map fun dir => (dir, value.drop 1)

/-- The letters of the modes of a channel, with `k` for the key and `l` for the
limit. -/
def lettersOf (mode : Chmode) : CString :=
  mode.entries.map Prod.snd ++
    ((if mode.limit ≠ 0 then ['l'] else []) ++
      if mode.key ≠ [] then ['k'] else [])

def Asked.wantsMode (asked : Asked) (mode : Chmode) : Bool :=
  match asked.mode with
  | none => true
  | some (.set, letters) =>
      letters.all fun c => (lettersOf mode).contains c
  | some (.unset, letters) =>
      letters.all fun c => !(lettersOf mode).contains c
  | some (.equal, letters) =>
      (letters.all fun c => (lettersOf mode).contains c) &&
        (lettersOf mode).all fun c => letters.contains c

def Asked.wantsRest (asked : Asked) (mask : CString) (ch : Channel) : Bool :=
  match_ mask ch.name &&
    decide (asked.min ≤ ch.users.length ∧
      (asked.max = 0 ∨ ch.users.length ≤ asked.max)) &&
    asked.topic.all fun topic => match_ topic ch.topic

def Asked.wants (asked : Asked) (mask : CString) (ch : Channel) : Bool :=
  !ch.mode.mode.has modeSecret && asked.wantsRest mask ch &&
    asked.wantsMode ch.mode

/-- The first `max_matches` of the channels that are asked for, after those
to skip. -/
def Asked.answer (asked : Asked) (maxMatches : Int) (mask : CString)
    (table : List Channel) : List CString :=
  (((table.filter (asked.wants mask)).drop asked.skip.toNat).take
    maxMatches.toNat).map Channel.name

end Alis

end RatboxServices
