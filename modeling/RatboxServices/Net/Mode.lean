import RatboxServices.Net.Channel

namespace RatboxServices

open CString

/-! The mode parsers of `c_mode.c`. A parameter vector from some index on is
the list of the parameters left; the `NULL` after the last one is its end. -/

/-- `EmptyString(parv[start])`. -/
def emptyHead : List CString → Bool
  | [] => true
  | param :: _ => param.isEmpty

/-- `valid_key`: the key cut to its buffer and to seven bits, if valid. -/
def validKey (data : CString) : Option CString :=
  let fixed := (strlcpy (keyLen + 1) data).map fun c =>
    Char.ofNat (c.toNat % 128)
  if fixed.any fun c => c == ':' || decide (c ≤ ' ') then none else some fixed

/-- The modes both parsers treat alike, as bits of `chmode.mode`. -/
def simpleModeBit : Char → Option Nat
  | 'i' => some modeInviteonly
  | 'm' => some modeModerated
  | 'n' => some modeNoexternal
  | 'p' => some modePrivate
  | 's' => some modeSecret
  | 't' => some modeTopic
  | 'r' => some modeRegonly
  | _ => none

def Chmode.put (dir : Bool) (bit : Nat) (mode : Chmode) : Chmode :=
  { mode with mode := if dir then mode.mode.set bit else mode.mode.clear bit }

def parseSimpleModeLoop (allowSslonly : Bool) :
    List Char → Bool → Chmode → List CString →
      Option (Chmode × List CString)
  | [], _, mode, args => some (mode, args)
  | '+' :: rest, _, mode, args =>
      parseSimpleModeLoop allowSslonly rest true mode args
  | '-' :: rest, _, mode, args =>
      parseSimpleModeLoop allowSslonly rest false mode args
  | 'S' :: rest, dir, mode, args =>
      if allowSslonly then
        parseSimpleModeLoop allowSslonly rest dir (mode.put dir modeSslonly)
          args
      else none
  | 'k' :: rest, dir, mode, args =>
      if emptyHead args then none
      else if dir then
        match validKey (args.headD []) with
        | none => none
        | some fixed =>
            parseSimpleModeLoop allowSslonly rest dir
              { mode.put true modeKey with key := fixed } args.tail
      else
        parseSimpleModeLoop allowSslonly rest dir
          { mode.put false modeKey with key := [] } args.tail
  | 'l' :: rest, dir, mode, args =>
      if dir then
        if emptyHead args then none
        else
          parseSimpleModeLoop allowSslonly rest dir
            { mode.put true modeLimit with limit := atoi (args.headD []) }
            args.tail
      else
        parseSimpleModeLoop allowSslonly rest dir
          { mode.put false modeLimit with limit := 0 } args
  | p :: rest, dir, mode, args =>
      match simpleModeBit p with
      | some bit =>
          parseSimpleModeLoop allowSslonly rest dir (mode.put dir bit) args
      | none => none

/-- `parse_simple_mode` from the parameter `start` on: the mode and the
parameters left, or `none` where the source returns 0. -/
def parseSimpleMode (mode : Chmode) (parv : List CString)
    (allowSslonly : Bool) : Option (Chmode × List CString) :=
  match parv with
  | [] => none
  | modes :: args => parseSimpleModeLoop allowSslonly modes true mode args

/-- `add_ban`: whether the mask was added, and the list. -/
def addBan (mask : CString) (list : List CString) : Option (List CString) :=
  if list.any fun ban => irccmp ban mask then none
  else some (Dlink.add mask list)

/-- `del_ban`: the entry taken out, and the list. -/
def delBan (mask : CString) (list : List CString) :
    Option (CString × List CString) :=
  match list.find? fun ban => irccmp mask ban with
  | none => none
  | some ban => some (ban, Dlink.delete ban list)

/-- One `modebuild_add` call. -/
structure ModeChange where
  dir : Bool
  letter : Char
  arg : Option CString
  deriving DecidableEq, Repr

/-- What `parse_full_mode` is called with. A source is the service that issues
the modes; `NULL` means that they were received. -/
structure FullModeCall where
  chptr : ChannelId
  sourceP : Option ClientId
  allowSslonly : Bool
  findService : CString → Option ClientId
  findUser : CString → Option ClientId

structure FullMode where
  chans : Chans
  args : List CString
  dir : Bool
  built : List ModeChange

namespace FullMode

def modebuildAdd (call : FullModeCall) (letter : Char)
    (arg : Option CString) (st : FullMode) : FullMode :=
  if call.sourceP.isSome then
    { st with built := st.built ++ [⟨st.dir, letter, arg⟩] }
  else st

def onChannel (call : FullModeCall) (change : Channel → Channel)
    (st : FullMode) : FullMode :=
  { st with chans := st.chans.modifyChannel call.chptr change }

def onMode (call : FullModeCall) (change : Chmode → Chmode)
    (st : FullMode) : FullMode :=
  st.onChannel call fun ch => { ch with mode := change ch.mode }

def nextArg (st : FullMode) : FullMode :=
  { st with args := st.args.tail }

/-- `+o` and `-o` on a service: only a service that was deopped matters. -/
def serviceOp (call : FullModeCall) (target : ClientId) (letter : Char)
    (st : FullMode) : FullMode :=
  if call.sourceP.isSome || letter != 'o' then st
  else if st.dir then
    { st with chans := { st.chans with
        deoppedList := Dlink.findDestroy target st.chans.deoppedList } }
  else if Dlink.find target st.chans.deoppedList then st
  else
    { st with chans := { st.chans with
        deoppedList := Dlink.add target st.chans.deoppedList } }

/-- `+o` and `-o` on a member. -/
def memberOp (call : FullModeCall) (mptr : MemberId) (member : Chmember)
    (nick : CString) (st : FullMode) : FullMode :=
  if st.dir then
    let chans := st.chans.modifyMember mptr fun m =>
      { m with flags := m.flags.clear modeDeopped }
    if member.isOpped then { st with chans := chans }
    else
      let chans := chans.opChmember mptr
      { st with chans := { chans with
          oppedList := Dlink.add mptr chans.oppedList } }
        |>.modebuildAdd call 'o' (some nick)
  else if member.isOpped then
    { st with chans :=
        { st.chans with
          oppedList := Dlink.findDestroy mptr st.chans.oppedList }
        |>.deopChmember mptr }
      |>.modebuildAdd call 'o' (some nick)
  else st.modebuildAdd call 'o' (some nick)

/-- `+v` and `-v` on a member. -/
def memberVoice (call : FullModeCall) (mptr : MemberId)
    (member : Chmember) (nick : CString) (st : FullMode) : FullMode :=
  if st.dir then
    if member.isVoiced then st
    else
      let chans := st.chans.voiceChmember mptr
      { st with chans := { chans with
          voicedList := Dlink.add mptr chans.voicedList } }
        |>.modebuildAdd call 'v' (some nick)
  else if member.isVoiced then
    { st with chans :=
        { st.chans with
          voicedList := Dlink.findDestroy mptr st.chans.voicedList }
        |>.devoiceChmember mptr }
      |>.modebuildAdd call 'v' (some nick)
  else st.modebuildAdd call 'v' (some nick)

/-- The `o` and `v` letters, once their parameter was taken. -/
def prefixMode (call : FullModeCall) (letter : Char) (nick : CString)
    (st : FullMode) : FullMode :=
  match call.findService nick with
  | some target => st.serviceOp call target letter
  | none =>
      match call.findUser nick with
      | none => st
      | some target =>
          match st.chans.findChmember call.chptr target with
          | none => st
          | some mptr =>
              match st.chans.member.cell mptr with
              | none => st
              | some member =>
                  if letter == 'o' then st.memberOp call mptr member nick
                  else st.memberVoice call mptr member nick

def bansOf (call : FullModeCall) (st : FullMode) : List CString :=
  match st.chans.channel.cell call.chptr with
  | some ch => ch.bans
  | none => []

/-- The `b` letter. -/
def banMode (call : FullModeCall) (mask : CString) (st : FullMode) :
    FullMode :=
  let changed :=
    if st.dir then
      match addBan mask (st.bansOf call) with
      | none => st
      | some bans =>
          let st := st.onChannel call fun ch => { ch with bans := bans }
          { st with chans := { st.chans with
              banList := Dlink.add mask st.chans.banList } }
    else
      match delBan mask (st.bansOf call) with
      | none => st
      | some (ban, bans) =>
          let st := st.onChannel call fun ch => { ch with bans := bans }
          { st with chans := { st.chans with
              banList := Dlink.findDestroy ban st.chans.banList } }
  changed.modebuildAdd call 'b' (some mask)

/-- The new list of the `e` and `I` letters. -/
def listMode (dir : Bool) (mask : CString) (list : List CString) :
    List CString :=
  if dir then (addBan mask list).getD list
  else ((delBan mask list).map Prod.snd).getD list

/-- One letter of the mode string; `none` where the source returns. -/
def letter (call : FullModeCall) (p : Char) (st : FullMode) :
    Option FullMode :=
  match p with
  | '+' => some { st with dir := true }
  | '-' => some { st with dir := false }
  | 'S' =>
      if call.allowSslonly then
        some (st.onMode call (Chmode.put st.dir modeSslonly)
          |>.modebuildAdd call 'S' none)
      else none
  | 'k' =>
      if emptyHead st.args then none
      else if st.dir then
        let key := strlcpy (keyLen + 1) (st.args.headD [])
        some (st.onMode call (fun mode =>
            { mode.put true modeKey with key := key })
          |>.modebuildAdd call 'k' (some key) |>.nextArg)
      else
        some (st.onMode call (fun mode =>
            { mode.put false modeKey with key := [] })
          |>.modebuildAdd call 'k' (some ['*']) |>.nextArg)
  | 'l' =>
      if st.dir then
        if emptyHead st.args then none
        else
          let limitS := st.args.headD []
          let limit := (strtol limitS).1.bmod 4294967296
          if limit ≤ 0 then none
          else if call.sourceP.isSome && !(strtol limitS).2.isEmpty then none
          else
            some (st.modebuildAdd call 'l' (some limitS)
              |>.onMode call (fun mode =>
                { mode.put true modeLimit with limit := limit }) |>.nextArg)
      else
        some (st.onMode call (fun mode =>
            { mode.put false modeLimit with limit := 0 })
          |>.modebuildAdd call 'l' none)
  | 'b' =>
      if emptyHead st.args then none
      else some (st.banMode call (st.args.headD []) |>.nextArg)
  | 'e' =>
      if emptyHead st.args then none
      else
        let mask := st.args.headD []
        some (st.onChannel call (fun ch =>
            { ch with excepts := listMode st.dir mask ch.excepts })
          |>.modebuildAdd call 'e' (some mask) |>.nextArg)
  | 'I' =>
      if emptyHead st.args then none
      else
        let mask := st.args.headD []
        some (st.onChannel call (fun ch =>
            { ch with invites := listMode st.dir mask ch.invites })
          |>.modebuildAdd call 'I' (some mask) |>.nextArg)
  | p =>
      if p == 'o' || p == 'v' then
        if emptyHead st.args then none
        else some (st.nextArg.prefixMode call p (st.args.headD []))
      else
        match simpleModeBit p with
        | some bit =>
            some (st.onMode call (Chmode.put st.dir bit)
              |>.modebuildAdd call p none)
        -- an unknown letter is skipped
        | none => some st

def loop (call : FullModeCall) : List Char → FullMode → FullMode × Bool
  | [], st => (st, true)
  | p :: rest, st =>
      match st.letter call p with
      | none => (st, false)
      | some st => loop call rest st

end FullMode

/-- `parse_full_mode` from the parameter `start` on: the channels, the mode
changes handed to `modebuild_add`, and whether `modebuild_finish` was
reached. -/
def parseFullMode (call : FullModeCall) (parv : List CString)
    (chans : Chans) : Chans × List ModeChange × Bool :=
  match parv with
  | [] => (chans, [], false)
  | modes :: args =>
      let (st, finished) := FullMode.loop call modes ⟨chans, args, true, []⟩
      (st.chans, st.built, finished)

end RatboxServices
