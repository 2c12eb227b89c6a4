import RatboxServices.Lib.Walk
import RatboxServices.Net.ChannelCommand
import RatboxServices.Serv.ChanfixScore

namespace RatboxServices

open CString

/-! The channels that ChanFix is fixing: the entries of `chanfix_list` and the
pointer `cfptr` of a channel to its own. -/

abbrev EntryId := Nat

-- s_chanfix.h: flags of an entry, by bit index
def cfStatusClearedmodes : Nat := 0
def cfStatusClearedbans : Nat := 1
def cfStatusManfix : Nat := 2
def cfStatusAutofix : Nat := 3

-- s_chanfix.h: flags of a channel in `cf_channel`
def cfChanBlock : Nat := 0
def cfChanAlert : Nat := 1

def cfMinFixOps : Nat := 5
def cfFixTime : Int := 3600
def cfFixCycles : Nat := 6
def cfAutofixFreq : Int := 600
def cfChanfixFreq : Int := 300
def cfRemoveModesTime : Int := 1200
def cfRemoveBansTime : Int := 2400
def cfOplessIgnoreTime : Int := 180

/-- `CF_MIN_ABS_CHAN_SCORE_END * CF_MAX_CHANFIX_SCORE`, which is 161.28: a score
is above it when it is above this. -/
def cfMinAbsChanScoreEnd : Nat := 161

structure ChanfixItem where
  msptr : Option MemberId := none
  userhostId : Nat
  score : Nat
  opped : Bool := false
  deriving DecidableEq, Repr

structure ChanfixScores where
  items : List ChanfixItem
  matched : Nat := 0
  clones : List ChanfixItem := []
  deriving DecidableEq, Repr

structure ChanfixChannel where
  chptr : ChannelId
  fixStarted : Int
  prevAttempt : Int := 0
  cycle : Nat := 1
  scores : Option ChanfixScores
  highestScore : Nat
  flags : Word
  deriving DecidableEq, Repr

/-- What an event reads and does not change: the time, the configuration, the
registrations of ChanServ and the tables of the scores. The lowest score that
is opped is computed in floating point from the time since the start of the
fix and the highest score. -/
structure ChanfixView where
  now : Int
  networkSplit : Bool
  enableAutofix : Bool
  enableChanfix : Bool
  confMinClients : Nat
  findChannelReg : CString → Bool
  channelId : CString → Nat
  channelFlags : CString → Option Word
  channelScores : Nat → List (Nat × Nat)
  userhostId : ClientId → Nat
  minScore : Int → Nat → Int

/-- `cf_min_clients` after `validate_conf`. -/
def ChanfixView.minClients (view : ChanfixView) : Nat :=
  if view.confMinClients < 2 then 2 else view.confMinClients

/-- An entry, a channel or a member is used that was freed, a pointer that is
`NULL` is followed, or callbacks nest deeper than the model goes. -/
inductive ChanfixStop where
  | freed
  | null
  | deep
  deriving DecidableEq, Repr

structure Chanfix where
  chans : Chans
  entry : Heap ChanfixChannel
  chanfixList : List EntryId
  cfptr : ChannelId → Option EntryId
  netsplitWarnTs : Int

/-- `fetch_cf_scores` without a limit on the number of scores; a score is kept
in an `unsigned short`. -/
def ChanfixView.fetchCfScores (view : ChanfixView) (chname : CString)
    (minScore : Nat) : Option ChanfixScores :=
  let id := view.channelId (lcase chname)
  if id = 0 then none
  else
    let rows := (view.channelScores id).filter fun row =>
      decide (minScore < row.2)
    if rows.isEmpty then none
    else
      some
        { items := rows.map fun row =>
            { userhostId := row.1, score := row.2 % 65536 } }

/-- `has_prevent_join_mode`. -/
def Chmode.preventsJoin (mode : Chmode) : Bool :=
  mode.mode.has modeInviteonly || mode.mode.has modeRegonly ||
    mode.mode.has modeSslonly || !mode.key.isEmpty || decide (mode.limit ≠ 0)

/-- `match_chmembers` at work, with its counters of users and clones. -/
structure Matching where
  items : List ChanfixItem
  clones : List ChanfixItem
  uCount : Nat
  cCount : Nat

def changeFirst (test : ChanfixItem → Bool)
    (change : ChanfixItem → ChanfixItem) :
    List ChanfixItem → List ChanfixItem
  | [] => []
  | item :: rest =>
      if test item then change item :: rest
      else item :: changeFirst test change rest

namespace Matching

/-- Another member with the same `user@host`: clones that are left over from
the last time are used again. -/
def addClone (mptr : MemberId) (score userhostId : Nat) (m : Matching) :
    Matching :=
  let cCount := m.cCount + 1
  let clones :=
    if m.clones.length < cCount then
      Dlink.add
        { msptr := some mptr, userhostId := userhostId, score := score }
        m.clones
    else
      changeFirst (·.msptr.isNone) (fun clone =>
        { clone with
          msptr := some mptr
          userhostId := userhostId
          score := score }) m.clones
  { m with clones := clones, cCount := cCount }

def matchMember (userhostId : Nat) (mptr : MemberId) (m : Matching) :
    Matching :=
  match m.items.find? (·.userhostId == userhostId) with
  | none => m
  | some item =>
      if item.msptr.isNone then
        { m with
          items := changeFirst (·.userhostId == userhostId)
            (fun item => { item with msptr := some mptr }) m.items
          uCount := m.uCount + 1 }
      else m.addClone mptr item.score userhostId

def matchAll (userhostId : ClientId → Nat) (chans : Chans) :
    List MemberId → Matching → Except ChanfixStop Matching
  | [], m => .ok m
  | mptr :: rest, m =>
      match chans.member.cell mptr with
      | none => .error .freed
      | some member =>
          let m := m.matchMember (userhostId member.clientP) mptr
          if m.items.length ≤ m.uCount then .ok m
          else matchAll userhostId chans rest m

end Matching

/-- `match_chmembers`, not ignoring clones. -/
def matchChmembers (userhostId : ClientId → Nat) (chans : Chans)
    (scores : Option ChanfixScores) (members : List MemberId) :
    Except ChanfixStop (Option ChanfixScores) :=
  match scores with
  | none => .ok none
  | some scores =>
      if members.isEmpty then .ok none
      else do
        let m ← Matching.matchAll userhostId chans members
          { items := scores.items.map fun item => { item with msptr := none }
            clones := scores.clones.map fun item => { item with msptr := none }
            uCount := 0
            cCount := 0 }
        .ok (some { items := m.items, matched := m.uCount, clones := m.clones })

def ChanfixItem.target (minScore : Int) (item : ChanfixItem) :
    Option MemberId :=
  if minScore ≤ item.score then item.msptr else none

def ChanfixItem.mark (minScore : Int) (item : ChanfixItem) : ChanfixItem :=
  if (item.target minScore).isSome then { item with opped := true } else item

namespace Chanfix

def start : Chanfix where
  chans := .empty
  entry := .empty
  chanfixList := []
  cfptr := fun _ => none
  netsplitWarnTs := 0

def liveChannel (target : ChannelId) (s : Chanfix) :
    Except ChanfixStop Channel :=
  match s.chans.channel.cell target with
  | none => .error .freed
  | some ch => .ok ch

def liveEntry (target : EntryId) (s : Chanfix) :
    Except ChanfixStop ChanfixChannel :=
  match s.entry.cell target with
  | none => .error .freed
  | some cf => .ok cf

def updateEntry (target : EntryId)
    (change : ChanfixChannel → ChanfixChannel) (s : Chanfix) :
    Except ChanfixStop Chanfix := do
  let _ ← s.liveEntry target
  .ok { s with entry := s.entry.modify target change }

def onChans (change : Chans → Chans) (s : Chanfix) : Chanfix :=
  { s with chans := change s.chans }

section Free

variable (chanfixP : ClientId)
  (free : ChannelId → Chanfix → Except ChanfixStop Chanfix)

def freeIfEmpty (target : ChannelId) (s : Chanfix) :
    Except ChanfixStop Chanfix := do
  let ch ← s.liveChannel target
  if ch.users.isEmpty && ch.services.isEmpty then free target s else .ok s

/-- `part_service`. -/
def partService (serviceP : ClientId) (chname : CString) (s : Chanfix) :
    Except ChanfixStop Chanfix :=
  match s.chans.findChannel chname with
  | none => .ok s
  | some chptr => do
      let ch ← s.liveChannel chptr
      if Dlink.find serviceP ch.services then
        let s := s.onChans (·.modifyChannel chptr fun ch =>
          { ch with services := Dlink.findDestroy serviceP ch.services })
        let s := s.onChans
          (·.onServiceChannels serviceP (Dlink.findDestroy chptr))
        freeIfEmpty free chptr s
      else .ok s

def unlinkEntry (chptr : ChannelId) (cfptr : EntryId) (s : Chanfix) :
    Chanfix :=
  { s with
    chanfixList := Dlink.delete cfptr s.chanfixList
    entry := s.entry.free cfptr
    cfptr := Function.update s.cfptr chptr none }

/-- `del_chanfix`. -/
def delChanfix (chptr : ChannelId) (s : Chanfix) :
    Except ChanfixStop Chanfix := do
  let ch ← s.liveChannel chptr
  match s.cfptr chptr with
  | none => .ok s
  | some cfptr =>
      let _ ← s.liveEntry cfptr
      partService free chanfixP ch.name (s.unlinkEntry chptr cfptr)

/-- `h_chanfix_channel_destroy`. -/
def channelDestroy (chptr : ChannelId) (s : Chanfix) :
    Except ChanfixStop Chanfix :=
  if (s.cfptr chptr).isSome then delChanfix chanfixP free chptr s else .ok s

/-- `free_channel`. Its callback may part a service from a channel, which may
free that channel in turn. -/
def freeChannel : Nat → ChannelId → Chanfix → Except ChanfixStop Chanfix
  | 0, _, _ => .error .deep
  | depth + 1, target, s => do
      let s ← channelDestroy chanfixP (freeChannel depth) target s
      let _ ← s.liveChannel target
      .ok (s.onChans (·.freeChannel target))

end Free

def callbackDepth : Nat := 2

/-- `free_channel` as it is called from outside of its callback. -/
abbrev free (chanfixP : ClientId) :
    ChannelId → Chanfix → Except ChanfixStop Chanfix :=
  freeChannel chanfixP callbackDepth

/-- `add_chanfix`, which says whether the channel was added. -/
def addChanfix (view : ChanfixView) (chptr : ChannelId) (type : Nat)
    (s : Chanfix) : Except ChanfixStop (Chanfix × Bool) := do
  let ch ← s.liveChannel chptr
  if view.findChannelReg ch.name then .ok (s, false)
  else
    let flags := (view.channelFlags (lcase ch.name)).getD 0#32
    if flags.has cfChanBlock then .ok (s, false)
    else if type = cfStatusManfix ∧ flags.has cfChanAlert = true then
      .ok (s, false)
    else if (s.cfptr chptr).isSome then .ok (s, false)
    else
      match view.fetchCfScores ch.name cfMinAbsChanScoreEnd with
      | none => .ok (s, false)
      | some scores =>
          let highest := (scores.items.head?.map (·.score)).getD 0
          if highest ≤ cfMinAbsChanScoreEnd then .ok (s, false)
          else
            let cfptr := s.entry.next
            .ok ({ s with
              entry := s.entry.alloc
                { chptr := chptr
                  fixStarted := view.now
                  scores := some scores
                  highestScore := highest
                  flags := Word.ofBits [type] }
              chanfixList := Dlink.add cfptr s.chanfixList
              cfptr := Function.update s.cfptr chptr (some cfptr) }, true)

/-- `h_chanfix_channel_opless`. -/
def channelOpless (view : ChanfixView) (chptr : ChannelId) (s : Chanfix) :
    Except ChanfixStop Chanfix := do
  let ch ← s.liveChannel chptr
  if (s.cfptr chptr).isSome then .ok s
  else if view.now < s.netsplitWarnTs then .ok s
  else if view.minClients ≤ ch.users.length then
    let (s, _) ← s.addChanfix view chptr cfStatusAutofix
    .ok s
  else .ok s

def callOpless (view : ChanfixView) (chptr : ChannelId) (s : Chanfix) :
    Except ChanfixStop Chanfix := do
  let ch ← s.liveChannel chptr
  if ch.usersOpped.isEmpty then s.channelOpless view chptr else .ok s

section Members

variable (chanfixP : ClientId) (view : ChanfixView)

def noteLeft (member : Chmember) (s : Chanfix) :
    Except ChanfixStop Chanfix :=
  if member.isOpped then s.callOpless view member.chptr else .ok s

/-- `del_chmember`. -/
def delChmember (mptr : MemberId) (s : Chanfix) :
    Except ChanfixStop Chanfix :=
  match s.chans.member.cell mptr with
  | none => .ok s
  | some member => do
      let s := s.onChans (·.modifyChannel member.chptr fun ch =>
        { ch with users := Dlink.delete mptr ch.users })
      let s := s.onChans
        (·.onUserChannels member.clientP (Dlink.delete mptr))
      let s := s.onChans (·.modifyChannel member.chptr fun ch =>
        if member.isOpped then
          { ch with usersOpped := Dlink.delete mptr ch.usersOpped }
        else { ch with usersUnopped := Dlink.delete mptr ch.usersUnopped })
      let s ← s.noteLeft view member
      let s ← freeIfEmpty (free chanfixP) member.chptr s
      .ok (s.onChans fun chans =>
        { chans with member := chans.member.free mptr })

/-- `deop_chmember`. -/
def deopChmember (mptr : MemberId) (s : Chanfix) :
    Except ChanfixStop Chanfix :=
  match s.chans.member.cell mptr with
  | none => .ok s
  | some member =>
      if !member.isOpped then .ok s
      else (s.onChans (·.deopChmember mptr)).callOpless view member.chptr

/-- `takeover_channel` and `otakeover` of a channel with a TS of at least two
and a user in it. -/
def takeover (serviceP : ClientId) (chptr : ChannelId)
    (invite removeExceptions removeInvex : Bool) (s : Chanfix) :
    Except ChanfixStop Chanfix :=
  match s.chans.channel.cell chptr with
  | none => .ok s
  | some ch =>
      if decide (ch.tsinfo < 2) || ch.users.isEmpty then .ok s
      else do
        let s ← partService (free chanfixP) serviceP ch.name s
        let ch ← s.liveChannel chptr
        let bits :=
          if invite then [modeTopic, modeNoexternal, modeInviteonly]
          else [modeTopic, modeNoexternal]
        .ok (s.onChans fun chans =>
          let chans := chans.removeOurSimpleModes chptr
          let chans := chans.removeOurOvModes chptr
          let chans := chans.removeOurBans chptr true removeExceptions
            removeInvex
          let chans := chans.modifyChannel chptr fun ch =>
            { ch with
              mode := { ch.mode with mode := Word.ofBits bits }
              tsinfo := ch.tsinfo - 1 }
          chans.joinService serviceP ch.name (ch.tsinfo - 1) none false
            view.now)

def exec (act : ChanAct) (s : Chanfix) : Except ChanfixStop Chanfix :=
  match act with
  | .deop mptr => s.deopChmember view mptr
  | .kick mptr => s.delChmember chanfixP view mptr
  | .part serviceP chname => partService (free chanfixP) serviceP chname s
  | .takeover serviceP chptr invite exceptions invex =>
      s.takeover chanfixP view serviceP chptr invite exceptions invex
  | act => .ok (s.onChans fun chans => act.exec view.now chans)

end Members

end Chanfix

end RatboxServices
