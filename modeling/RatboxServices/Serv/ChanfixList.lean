import RatboxServices.Net.ChannelName
import RatboxServices.Serv.Chanfix

namespace RatboxServices

open CString

/-! Fixing the channels of `chanfix_list`, and what adds them to it. -/

namespace Chanfix

variable (chanfixP : ClientId) (view : ChanfixView)

def entryChannel (target : EntryId) (s : Chanfix) :
    Except ChanfixStop (ChanfixChannel × Channel) := do
  let cf ← s.liveEntry target
  let ch ← s.liveChannel cf.chptr
  .ok (cf, ch)

def delFix (chptr : ChannelId) (s : Chanfix) : Except ChanfixStop Chanfix :=
  delChanfix chanfixP (free chanfixP) chptr s

def endWindow (target : EntryId) (s : Chanfix) :
    Except ChanfixStop Chanfix := do
  let (cf, ch) ← s.entryChannel target
  let again (cf : ChanfixChannel) : ChanfixChannel :=
    { cf with
      fixStarted := view.now
      cycle := (cf.cycle + 1) % 4294967296 }
  if cf.cycle % cfFixCycles = 0 then
    if ch.users.length < view.minClients then s.delFix chanfixP cf.chptr
    else if !ch.usersOpped.isEmpty then s.delFix chanfixP cf.chptr
    else do
      let s ← partService (free chanfixP) chanfixP ch.name s
      s.updateEntry target fun cf => { again cf with scores := none }
  else s.updateEntry target again

def refreshScores (target : EntryId) (s : Chanfix) :
    Except ChanfixStop (Chanfix × Bool) := do
  let (cf, ch) ← s.entryChannel target
  if cf.scores.isSome then .ok (s, true)
  else
    match view.fetchCfScores ch.name cfMinAbsChanScoreEnd with
    | none => .ok (s, false)
    | some scores =>
        let s ← s.updateEntry target fun cf => { cf with scores := some scores }
        .ok (s, true)

def joinFix (target : EntryId) (s : Chanfix) :
    Except ChanfixStop Chanfix := do
  let (_, ch) ← s.entryChannel target
  .ok (s.onChans
    (·.joinService chanfixP ch.name ch.tsinfo none false view.now))

def clearNow (clear : ChannelId → Chans → Chans) (target : EntryId)
    (cf : ChanfixChannel) (s : Chanfix) : Except ChanfixStop Chanfix := do
  let s ← s.joinFix chanfixP view target
  .ok (s.onChans (clear cf.chptr))

def clearAfter (flag : Nat) (time : Int) (blocks : Channel → Bool)
    (clear : ChannelId → Chans → Chans) (target : EntryId) (s : Chanfix) :
    Except ChanfixStop Chanfix := do
  let (cf, ch) ← s.entryChannel target
  let done (cf : ChanfixChannel) : ChanfixChannel :=
    { cf with flags := cf.flags.set flag }
  if !cf.flags.has flag && decide (time < view.now - cf.fixStarted) then
    if blocks ch then
      let s ← s.clearNow chanfixP view clear target cf
      s.updateEntry target done
    else s.updateEntry target done
  else .ok s

def clearModes (target : EntryId) (s : Chanfix) :
    Except ChanfixStop Chanfix :=
  s.clearAfter chanfixP view cfStatusClearedmodes cfRemoveModesTime
    (·.mode.preventsJoin) (fun chptr => (·.removeOurSimpleModes chptr)) target

def clearBans (target : EntryId) (s : Chanfix) :
    Except ChanfixStop Chanfix :=
  s.clearAfter chanfixP view cfStatusClearedbans cfRemoveBansTime
    (!·.bans.isEmpty)
    (fun chptr => (·.removeOurBans chptr true false false)) target

def allOpped (found : List MemberId) (items : List ChanfixItem)
    (ch : Channel) : Bool :=
  !found.isEmpty && items.all (·.opped) &&
    decide (items.length ≤ ch.usersOpped.length)

/-- `fix_opless_channel`, which says whether the fix is complete. -/
def fixOplessChannel (target : EntryId) (s : Chanfix) :
    Except ChanfixStop (Chanfix × Bool) := do
  let cf ← s.liveEntry target
  match cf.scores with
  | none => .error .null
  | some scores =>
      let minScore :=
        view.minScore (view.now - cf.fixStarted) cf.highestScore
      let found := scores.items.filterMap (·.target minScore)
      let clones := scores.clones.filterMap (·.target minScore)
      let s := s.onChans fun chans =>
        (found ++ clones).foldl (fun chans mptr => chans.opChmember mptr) chans
      let items := scores.items.map (·.mark minScore)
      let s ← s.updateEntry target fun cf =>
        { cf with scores := some { scores with items := items } }
      let ch ← s.liveChannel cf.chptr
      .ok (s, allOpped found items ch)

def opUsers (target : EntryId) (s : Chanfix) :
    Except ChanfixStop Chanfix := do
  let (cf, ch) ← s.entryChannel target
  match ← matchChmembers view.userhostId s.chans cf.scores ch.usersUnopped with
  | none => .ok s
  | some scores =>
      let s ← s.updateEntry target fun cf => { cf with scores := some scores }
      if scores.matched = 0 then .ok s
      else
        let s ← s.joinFix chanfixP view target
        let (s, fixed) ← s.fixOplessChannel view target
        if fixed then s.delFix chanfixP cf.chptr else .ok s

/-- A turn of `process_chanfix_list` for an entry that is due. -/
def attemptFix (target : EntryId) (s : Chanfix) :
    Except ChanfixStop Chanfix := do
  let (cf, ch) ← s.entryChannel target
  if cfMinFixOps ≤ ch.usersOpped.length then s.delFix chanfixP cf.chptr
  else if cfFixTime < view.now - cf.fixStarted then
    s.endWindow chanfixP view target
  else
    let (s, ready) ← s.refreshScores view target
    if !ready then s.delFix chanfixP cf.chptr
    else
      let s ← s.clearModes chanfixP view target
      let s ← s.clearBans chanfixP view target
      s.opUsers chanfixP view target

def fixFreq (fixType : Nat) : Int :=
  if fixType = cfStatusAutofix then cfAutofixFreq else cfChanfixFreq

/-- A turn of `process_chanfix_list`. -/
def processEntry (fixType : Nat) (target : EntryId) (s : Chanfix) :
    Except ChanfixStop Chanfix := do
  let cf ← s.liveEntry target
  if !cf.flags.has fixType then .ok s
  else if view.now - cf.prevAttempt < fixFreq fixType then .ok s
  else
    let s ← s.updateEntry target fun cf => { cf with prevAttempt := view.now }
    s.attemptFix chanfixP view target

def nextEntry (s : Chanfix) (target : EntryId) :
    Except ChanfixStop (Option EntryId) := do
  let _ ← s.liveEntry target
  .ok (Dlink.next target s.chanfixList)

/-- `process_chanfix_list`. -/
def processChanfixList (fixType : Nat) (s : Chanfix) :
    Except ChanfixStop Chanfix :=
  foreachSafe .deep nextEntry (processEntry chanfixP view fixType)
    s.chanfixList.length s.chanfixList.head? s

/-- `e_chanfix_autofix_channels` and `e_chanfix_manfix_channels`. -/
def eChanfixAutofixChannels (s : Chanfix) : Except ChanfixStop Chanfix :=
  if !view.networkSplit && view.enableAutofix then
    s.processChanfixList chanfixP view cfStatusAutofix
  else .ok s

def eChanfixManfixChannels (s : Chanfix) : Except ChanfixStop Chanfix :=
  if !view.networkSplit && view.enableChanfix then
    s.processChanfixList chanfixP view cfStatusManfix
  else .ok s

/-- What `e_chanfix_score_channels` does about one channel; the scores it
collects go to tables. -/
def scoreChannel (s : Chanfix) (chptr : ChannelId) :
    Except ChanfixStop Chanfix := do
  let ch ← s.liveChannel chptr
  if view.minClients ≤ ch.users.length then
    if !ch.usersOpped.isEmpty then .ok s
    else if (s.cfptr chptr).isSome then .ok s
    else
      let (s, _) ← s.addChanfix view chptr cfStatusAutofix
      .ok s
  else .ok s

def eChanfixScoreChannels (s : Chanfix) : Except ChanfixStop Chanfix :=
  if view.networkSplit then .ok s
  else s.chans.channelList.foldlM (scoreChannel view) s

/-- `h_chanfix_server_squit_warn`. -/
def serverSquitWarn (s : Chanfix) : Chanfix :=
  { s with netsplitWarnTs := cfOplessIgnoreTime + view.now }

/-- `o_chanfix_chanfix`. -/
def oChanfixChanfix (chname : CString) (s : Chanfix) :
    Except ChanfixStop Chanfix :=
  if !Chans.validChname chname then .ok s
  else
    match s.chans.findChannel chname with
    | none => .ok s
    | some chptr => do
        let ch ← s.liveChannel chptr
        if !view.enableChanfix || view.networkSplit then .ok s
        else if ch.users.length < view.minClients then .ok s
        else if !ch.usersOpped.isEmpty then .ok s
        else
          let (s, added) ← s.addChanfix view chptr cfStatusManfix
          if !added then .ok s
          else
            .ok (s.onChans fun chans =>
              let chans := chans.joinService chanfixP chname ch.tsinfo none
                false view.now
              let chans := chans.removeOurSimpleModes chptr
              chans.removeOurBans chptr true false false)

/-- `o_chanfix_revert`. -/
def oChanfixRevert (chname : CString) (s : Chanfix) :
    Except ChanfixStop Chanfix :=
  if !Chans.validChname chname then .ok s
  else
    match s.chans.findChannel chname with
    | none => .ok s
    | some chptr => do
        let ch ← s.liveChannel chptr
        if ch.users.length < view.minClients then .ok s
        else if ch.tsinfo < 2 then .ok s
        else
          let (s, added) ← s.addChanfix view chptr cfStatusManfix
          if !added then .ok s
          else s.takeover chanfixP view chanfixP chptr false false false

/-- The fix that `o_chanfix_info` reports: its flags and its cycle. -/
def oChanfixInfo (chname : CString) (s : Chanfix) :
    Except ChanfixStop (Option (Word × Nat)) :=
  if !Chans.validChname chname || view.findChannelReg chname ||
      (view.channelFlags (lcase chname)).isNone then .ok none
  else
    match s.chans.findChannel chname with
    | none => .ok none
    | some chptr => do
        let _ ← s.liveChannel chptr
        match s.cfptr chptr with
        | none => .ok none
        | some cfptr =>
            let cf ← s.liveEntry cfptr
            .ok (some (cf.flags, cf.cycle))

end Chanfix

/-- What protocol handlers and other services do to channels, one piece after
another, and the events of ChanFix. -/
inductive ChanfixAct where
  | chan (act : ChanAct)
  | joinChannel (chname : CString) (newts : Int)
  | dropOldModes (chname : CString) (newts : Int) (removeBans : Bool)
  | sjoinNick (chname : CString) (target : ClientId)
      (keepNewModes opped voiced : Bool)
  | sjoinEnd (chname : CString)
  | serverSquitWarn
  | scoreChannels
  | chanfix (chname : CString)
  | revert (chname : CString)
  | info (chname : CString)
  | autofix
  | manfix

structure ChanfixEvent where
  view : ChanfixView
  act : ChanfixAct

namespace Chanfix

def onChannel (chname : CString) (s : Chanfix)
    (handle : ChannelId → Except ChanfixStop Chanfix) :
    Except ChanfixStop Chanfix :=
  match s.chans.findChannel chname with
  | none => .ok s
  | some chptr => handle chptr

def enter (target : ClientId) (flags : Word) (s : Chanfix)
    (chptr : ChannelId) : Chanfix :=
  match s.chans.findChmember chptr target with
  | some _ => s
  | none => s.onChans fun chans => (chans.addChmember chptr target flags).1

def step (chanfixP : ClientId) (s : Chanfix) (event : ChanfixEvent) :
    Except ChanfixStop Chanfix :=
  match event.act with
  | .chan act =>
      if act.validName then s.exec chanfixP event.view act else .ok s
  | .joinChannel chname newts =>
      if Chans.validChname chname then
        .ok (s.onChans fun chans => (State.joinChannel chname newts chans).1)
      else .ok s
  | .dropOldModes chname newts removeBans =>
      s.onChannel chname fun chptr =>
        .ok (s.onChans (State.dropOldModes chptr newts removeBans))
  | .sjoinNick chname target keepNewModes opped voiced =>
      s.onChannel chname fun chptr =>
        .ok (s.enter target (State.memberFlags keepNewModes opped voiced) chptr)
  | .sjoinEnd chname =>
      s.onChannel chname fun chptr => freeIfEmpty (free chanfixP) chptr s
  | .serverSquitWarn => .ok (s.serverSquitWarn event.view)
  | .scoreChannels => s.eChanfixScoreChannels event.view
  | .chanfix chname => s.oChanfixChanfix chanfixP event.view chname
  | .revert chname => s.oChanfixRevert chanfixP event.view chname
  | .info chname => do
      let _ ← s.oChanfixInfo event.view chname
      .ok s
  | .autofix => s.eChanfixAutofixChannels chanfixP event.view
  | .manfix => s.eChanfixManfixChannels chanfixP event.view

end Chanfix

end RatboxServices
