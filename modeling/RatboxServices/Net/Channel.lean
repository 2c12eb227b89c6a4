import RatboxServices.Net.Data

namespace RatboxServices

open CString

/-! The channel store of `channel.c`: channels, their members, the hash and the
list of all channels, and the static lists of `c_mode.c`. The list
`user->channels` of a user and `service->channels` of a service are kept here
under the client's address. -/

structure Chans where
  channel : Heap Channel
  member : Heap Chmember
  userChannels : ClientId → List MemberId
  serviceChannels : ClientId → List ChannelId
  channelTable : Nat → List ChannelId
  channelList : List ChannelId
  deoppedList : List ClientId
  oppedList : List MemberId
  voicedList : List MemberId
  banList : List CString

namespace Chans

def empty : Chans where
  channel := .empty
  member := .empty
  userChannels := fun _ => []
  serviceChannels := fun _ => []
  channelTable := fun _ => []
  channelList := []
  deoppedList := []
  oppedList := []
  voicedList := []
  banList := []

def modifyChannel (target : ChannelId) (change : Channel → Channel)
    (s : Chans) : Chans :=
  { s with channel := s.channel.modify target change }

def modifyMember (target : MemberId) (change : Chmember → Chmember)
    (s : Chans) : Chans :=
  { s with member := s.member.modify target change }

def onUserChannels (client : ClientId)
    (change : List MemberId → List MemberId) (s : Chans) : Chans :=
  { s with
    userChannels :=
      Function.update s.userChannels client (change (s.userChannels client)) }

def onServiceChannels (service : ClientId)
    (change : List ChannelId → List ChannelId) (s : Chans) : Chans :=
  { s with
    serviceChannels :=
      Function.update s.serviceChannels service
        (change (s.serviceChannels service)) }

def onBucket (hashv : Nat) (change : List ChannelId → List ChannelId)
    (s : Chans) : Chans :=
  { s with
    channelTable :=
      Function.update s.channelTable hashv (change (s.channelTable hashv)) }

/-- `valid_chname`. -/
def validChname (name : CString) : Bool :=
  decide (name.length ≤ channelLen) && firstIs (· == '#') name

def isNamed (s : Chans) (name : CString) (target : ChannelId) : Bool :=
  match s.channel.cell target with
  | some chptr => irccmp chptr.name name
  | none => false

/-- `find_channel`. -/
def findChannel (s : Chans) (name : CString) : Option ChannelId :=
  (s.channelTable (hashChannel name)).find? (s.isNamed name)

/-- `add_channel`. -/
def addChannel (target : ChannelId) (name : CString) (s : Chans) : Chans :=
  let s := s.onBucket (hashChannel name) (Dlink.add target)
  { s with channelList := Dlink.add target s.channelList }

/-- `del_channel`. -/
def delChannel (target : ChannelId) (name : CString) (s : Chans) : Chans :=
  let s := s.onBucket (hashChannel name) (Dlink.delete target)
  { s with channelList := Dlink.delete target s.channelList }

/-- The allocation of a channel with its name and TS, linked by
`add_channel`. -/
def createChannel (name : CString) (tsinfo : Int) (mode : Chmode)
    (s : Chans) : Chans × ChannelId :=
  let stored := strlcpy (channelLen + 1) name
  let target := s.channel.next
  let s := { s with
    channel :=
      s.channel.alloc { name := stored, tsinfo := tsinfo, mode := mode } }
  (s.addChannel target stored, target)

/-- `free_channel`. The destroy callbacks keep no state of this store: ChanFix
drops its own entry and then parts a channel it is not in. -/
def freeChannel (target : ChannelId) (s : Chans) : Chans :=
  match s.channel.cell target with
  | none => s
  | some chptr =>
      let s := s.delChannel target chptr.name
      { s with channel := s.channel.free target }

def freeIfEmpty (target : ChannelId) (s : Chans) : Chans :=
  match s.channel.cell target with
  | none => s
  | some chptr =>
      if chptr.users.isEmpty && chptr.services.isEmpty then
        s.freeChannel target
      else s

/-- `add_chmember`. -/
def addChmember (chptr : ChannelId) (targetP : ClientId) (flags : Word)
    (s : Chans) : Chans × MemberId :=
  let mptr := s.member.next
  let s := { s with member := s.member.alloc ⟨chptr, targetP, flags⟩ }
  let s := s.modifyChannel chptr fun ch =>
    { ch with users := Dlink.add mptr ch.users }
  let s := s.onUserChannels targetP (Dlink.add mptr)
  let s := s.modifyChannel chptr fun ch =>
    if flags.has modeOpped then
      { ch with usersOpped := Dlink.add mptr ch.usersOpped }
    else { ch with usersUnopped := Dlink.add mptr ch.usersUnopped }
  (s, mptr)

/-- `del_chmember`. The opless callback only starts ChanFix's own entry. -/
def delChmember (mptr : MemberId) (s : Chans) : Chans :=
  match s.member.cell mptr with
  | none => s
  | some member =>
      let s := s.modifyChannel member.chptr fun ch =>
        { ch with users := Dlink.delete mptr ch.users }
      let s := s.onUserChannels member.clientP (Dlink.delete mptr)
      let s := s.modifyChannel member.chptr fun ch =>
        if member.isOpped then
          { ch with usersOpped := Dlink.delete mptr ch.usersOpped }
        else { ch with usersUnopped := Dlink.delete mptr ch.usersUnopped }
      let s := s.freeIfEmpty member.chptr
      { s with member := s.member.free mptr }

def usersOf (s : Chans) (chptr : ChannelId) : List MemberId :=
  match s.channel.cell chptr with
  | some ch => ch.users
  | none => []

def isMemberOfClient (s : Chans) (targetP : ClientId) (mptr : MemberId) :
    Bool :=
  match s.member.cell mptr with
  | some member => member.clientP == targetP
  | none => false

def isMemberOfChannel (s : Chans) (chptr : ChannelId) (mptr : MemberId) :
    Bool :=
  match s.member.cell mptr with
  | some member => member.chptr == chptr
  | none => false

/-- `find_chmember`, which scans the shorter of the two lists. -/
def findChmember (s : Chans) (chptr : ChannelId) (targetP : ClientId) :
    Option MemberId :=
  if (s.usersOf chptr).length < (s.userChannels targetP).length then
    (s.usersOf chptr).find? (s.isMemberOfClient targetP)
  else (s.userChannels targetP).find? (s.isMemberOfChannel chptr)

/-- `op_chmember`. -/
def opChmember (mptr : MemberId) (s : Chans) : Chans :=
  match s.member.cell mptr with
  | none => s
  | some member =>
      if member.isOpped then s
      else
        let s := s.modifyMember mptr fun m =>
          { m with flags := (m.flags.clear modeDeopped).set modeOpped }
        s.modifyChannel member.chptr fun ch =>
          { ch with
            usersUnopped := Dlink.delete mptr ch.usersUnopped
            usersOpped := Dlink.add mptr ch.usersOpped }

/-- `deop_chmember`. -/
def deopChmember (mptr : MemberId) (s : Chans) : Chans :=
  match s.member.cell mptr with
  | none => s
  | some member =>
      if !member.isOpped then s
      else
        let s := s.modifyMember mptr fun m =>
          { m with flags := m.flags.clear modeOpped }
        s.modifyChannel member.chptr fun ch =>
          { ch with
            usersOpped := Dlink.delete mptr ch.usersOpped
            usersUnopped := Dlink.add mptr ch.usersUnopped }

/-- `member_p->flags |= MODE_VOICED`. -/
def voiceChmember (mptr : MemberId) (s : Chans) : Chans :=
  s.modifyMember mptr fun m => { m with flags := m.flags.set modeVoiced }

/-- `member_p->flags &= ~MODE_VOICED`. -/
def devoiceChmember (mptr : MemberId) (s : Chans) : Chans :=
  s.modifyMember mptr fun m => { m with flags := m.flags.clear modeVoiced }

/-- The local part of `remove_our_simple_modes`; it clears every simple mode,
whether or not only those preventing joins were to go. -/
def removeOurSimpleModes (chptr : ChannelId) (s : Chans) : Chans :=
  s.modifyChannel chptr fun ch => { ch with mode := {} }

/-- `remove_our_ov_modes`. -/
def removeOurOvModes (chptr : ChannelId) (s : Chans) : Chans :=
  let s := (s.usersOf chptr).foldl (fun s msptr =>
    s.modifyMember msptr fun m =>
      { m with flags := (m.flags.clear modeOpped).clear modeVoiced }) s
  s.modifyChannel chptr fun ch =>
    { ch with
      usersUnopped := Dlink.moveList ch.usersOpped ch.usersUnopped
      usersOpped := [] }

/-- `remove_our_bans`. -/
def removeOurBans (chptr : ChannelId)
    (removeBans removeExceptions removeInvex : Bool) (s : Chans) : Chans :=
  s.modifyChannel chptr fun ch =>
    { ch with
      bans := if removeBans then [] else ch.bans
      excepts := if removeExceptions then [] else ch.excepts
      invites := if removeInvex then [] else ch.invites }

def serviceMode (old : Chmode) : Option Chmode → Chmode
  | some mode =>
      { mode := mode.mode
        limit := mode.limit
        key := if mode.key.isEmpty then old.key
          else strlcpy (keyLen + 1) mode.key }
  | none => { old with mode := Word.ofBits [modeNoexternal, modeTopic] }

/-- `rb_dlinkAddAlloc(service_p, &chptr->services)` and its counterpart in the
service. -/
def linkService (serviceP : ClientId) (chptr : ChannelId) (s : Chans) :
    Chans :=
  let s := s.modifyChannel chptr fun ch =>
    { ch with services := Dlink.add serviceP ch.services }
  s.onServiceChannels serviceP (Dlink.add chptr)

/-- `join_service`. -/
def joinService (serviceP : ClientId) (chname : CString) (tsinfo : Int)
    (mode : Option Chmode) (override : Bool) (now : Int) (s : Chans) :
    Chans :=
  match s.findChannel chname with
  | none =>
      let (s, chptr) := s.createChannel chname
        (if tsinfo = 0 then now else tsinfo) (serviceMode {} mode)
      s.linkService serviceP chptr
  | some chptr =>
      match s.channel.cell chptr with
      | none => s
      | some ch =>
          if Dlink.find serviceP ch.services then s
          else
            let s :=
              if override && decide (tsinfo < ch.tsinfo) then
                s.modifyChannel chptr fun ch =>
                  { ch with tsinfo := tsinfo, mode := serviceMode ch.mode mode }
              else s
            s.linkService serviceP chptr

/-- `part_service`. -/
def partService (serviceP : ClientId) (chname : CString) (s : Chans) :
    Chans × Bool :=
  match s.findChannel chname with
  | none => (s, false)
  | some chptr =>
      match s.channel.cell chptr with
      | none => (s, false)
      | some ch =>
          if Dlink.find serviceP ch.services then
            let s := s.modifyChannel chptr fun ch =>
              { ch with services := Dlink.findDestroy serviceP ch.services }
            let s := s.onServiceChannels serviceP (Dlink.findDestroy chptr)
            (s.freeIfEmpty chptr, true)
          else (s, false)

end Chans

end RatboxServices
