import RatboxServices.Net.JoinAgree

namespace RatboxServices

open CString

/-! The takeovers of OperServ and ChanFix, beside what the `SJOIN` that they
send does to the channel elsewhere. -/

namespace Chans

/-- `otakeover`. -/
def otakeover (operservP : ClientId) (chptr : ChannelId) (invite : Bool)
    (now : Int) (s : Chans) : Chans :=
  s.takeover operservP chptr invite true true now

/-- `takeover_channel`. -/
def takeoverChannel (chanfixP : ClientId) (chptr : ChannelId) (now : Int)
    (s : Chans) : Chans :=
  s.takeover chanfixP chptr false false false now

section Takeover

variable {s : Chans} {chptr : ChannelId} {ch : Channel} {serviceP : ClientId}
  {now : Int}

theorem partService_stays (linked : s.findChannel ch.name = some chptr)
    (used : s.channel.cell chptr = some ch) (users : ch.users ≠ []) :
    (s.partService serviceP ch.name).1.member = s.member ∧
      (∀ name, (s.partService serviceP ch.name).1.findChannel name =
        s.findChannel name) ∧
      (s.partService serviceP ch.name).1.channel.cell chptr =
        some { ch with services := Dlink.findDestroy serviceP ch.services } := by
  by_cases inside : serviceP ∈ ch.services
  · have found : Dlink.find serviceP ch.services = true := by
      simpa [Dlink.find] using inside
    have same : (s.partService serviceP ch.name).1 =
        (s.modifyChannel chptr fun ch =>
          { ch with
            services := Dlink.findDestroy serviceP
              ch.services }).onServiceChannels serviceP
          (Dlink.findDestroy chptr) := by
      simp [partService, linked, used, found, freeIfEmpty, onServiceChannels,
        modifyChannel, users]
    have channel : (s.partService serviceP ch.name).1.channel =
        s.channel.modify chptr fun ch =>
          { ch with
            services := Dlink.findDestroy serviceP ch.services } := by
      rw [same]
      rfl
    have named := isNamed_modify channel fun _ => rfl
    rw [same] at named ⊢
    refine ⟨rfl, findChannel_congr rfl named, ?_⟩
    simp [onServiceChannels, modifyChannel, used]
  · have absent : Dlink.find serviceP ch.services = false := by
      simpa [Dlink.find] using inside
    have same : (s.partService serviceP ch.name).1 = s := by
      simp [partService, linked, used, absent]
    rw [same, Dlink.findDestroy_of_not_mem inside]
    exact ⟨rfl, fun _ => rfl, used⟩

def takeoverMode (invite : Bool) : Chmode :=
  { mode := Word.ofBits
      (if invite then [modeTopic, modeNoexternal, modeInviteonly]
        else [modeTopic, modeNoexternal]) }

def emptied (invite removeExceptions removeInvex : Bool) (ch : Channel) :
    Channel :=
  { ch with
    tsinfo := ch.tsinfo - 1
    mode := takeoverMode invite
    usersUnopped := Dlink.moveList ch.usersOpped ch.usersUnopped
    usersOpped := []
    bans := []
    excepts := if removeExceptions then [] else ch.excepts
    invites := if removeInvex then [] else ch.invites }

def takenOver (serviceP : ClientId) (invite removeExceptions removeInvex : Bool)
    (ch : Channel) : Channel :=
  { emptied invite removeExceptions removeInvex ch with
    services := Dlink.add serviceP
      (Dlink.findDestroy serviceP ch.services) }

def emptyChannel (chptr : ChannelId)
    (invite removeExceptions removeInvex : Bool) (s : Chans) : Chans :=
  ((s.removeOurSimpleModes chptr).removeOurOvModes chptr).removeOurBans chptr
      true removeExceptions removeInvex
    |>.modifyChannel chptr fun ch =>
      { ch with
        mode := { ch.mode with mode := (takeoverMode invite).mode }
        tsinfo := ch.tsinfo - 1 }

theorem emptyChannel_eq (chptr : ChannelId)
    (invite removeExceptions removeInvex : Bool) (s : Chans) :
    emptyChannel chptr invite removeExceptions removeInvex s =
      { s with
        member := s.clearedMembers chptr
        channel := s.channel.modify chptr
          (emptied invite removeExceptions removeInvex) } := by
  have users : (s.removeOurSimpleModes chptr).usersOf chptr =
      s.usersOf chptr := by
    unfold removeOurSimpleModes
    rw [State.usersOf_modifyChannel]
    exact fun _ => rfl
  unfold emptyChannel
  rw [Inv.removeOurOvModes_eq, users]
  simp only [removeOurSimpleModes, removeOurBans, modifyChannel,
    Heap.modify_modify]
  rfl

theorem emptyChannel_cell {invite removeExceptions removeInvex : Bool}
    (linked : s.findChannel ch.name = some chptr)
    (used : s.channel.cell chptr = some ch) (users : ch.users ≠ []) :
    (emptyChannel chptr invite removeExceptions removeInvex
      (s.partService serviceP ch.name).1).channel.cell chptr =
        some (emptied invite removeExceptions removeInvex
          { ch with
            services := Dlink.findDestroy serviceP ch.services }) := by
  rw [emptyChannel_eq]
  simp [(partService_stays linked used users).2.2]

/-- A takeover behind its guards: the service parts, empties the channel and
joins it again. -/
theorem takeover_steps {invite removeExceptions removeInvex : Bool}
    (linked : s.findChannel ch.name = some chptr)
    (used : s.channel.cell chptr = some ch) (users : ch.users ≠ [])
    (stamp : 2 ≤ ch.tsinfo) :
    s.takeover serviceP chptr invite removeExceptions removeInvex now =
      (emptyChannel chptr invite removeExceptions removeInvex
        (s.partService serviceP ch.name).1).joinService serviceP ch.name
          (ch.tsinfo - 1) none false now := by
  have open_ : (decide (ch.tsinfo < 2) || ch.users.isEmpty) = false := by
    have late : ¬ch.tsinfo < 2 := by omega
    simp [users, late]
  unfold takeover
  rw [used]
  dsimp only
  rw [open_, if_neg Bool.false_ne_true]
  have emptied : (emptyChannel chptr invite removeExceptions removeInvex
      (s.partService serviceP ch.name).1).channel.cell chptr = some _ :=
    emptyChannel_cell linked used users
  split
  · rename_i gone
    cases emptied.symm.trans gone
  · rename_i here
    cases emptied.symm.trans here
    rfl

theorem takeover_eq {invite removeExceptions removeInvex : Bool}
    (linked : s.findChannel ch.name = some chptr)
    (used : s.channel.cell chptr = some ch) (users : ch.users ≠ [])
    (nodup : ch.services.Nodup) (stamp : 2 ≤ ch.tsinfo) :
    (s.takeover serviceP chptr invite removeExceptions removeInvex now).member =
        s.clearedMembers chptr ∧
      (s.takeover serviceP chptr invite removeExceptions removeInvex
        now).channel.cell chptr =
        some (takenOver serviceP invite removeExceptions removeInvex ch) := by
  obtain ⟨members, names, cell⟩ :
      (s.partService serviceP ch.name).1.member = s.member ∧ _ :=
    partService_stays linked used users
  have absent : Dlink.find serviceP
      (Dlink.findDestroy serviceP ch.services) = false := by
    simp [Dlink.find, Dlink.findDestroy, nodup.mem_erase_iff]
  rw [takeover_steps linked used users stamp]
  have emptied_ : (emptyChannel chptr invite removeExceptions removeInvex
      (s.partService serviceP ch.name).1).channel.cell chptr = _ :=
    emptyChannel_cell linked used users
  generalize (s.partService serviceP ch.name).1 = p at *
  have users' : p.usersOf chptr = s.usersOf chptr := by
    rw [usersOf_eq cell, usersOf_eq used]
  have cleared : p.clearedMembers chptr = s.clearedMembers chptr := by
    rw [clearedMembers, users', members]
    rfl
  have named : (emptyChannel chptr invite removeExceptions removeInvex
      p).findChannel ch.name = some chptr := by
    have table : (emptyChannel chptr invite removeExceptions removeInvex
        p).channelTable = p.channelTable := by rw [emptyChannel_eq]
    have channel : (emptyChannel chptr invite removeExceptions removeInvex
        p).channel = p.channel.modify chptr
          (emptied invite removeExceptions removeInvex) := by
      rw [emptyChannel_eq]
    rw [findChannel_congr table (isNamed_modify channel fun _ => rfl), names]
    exact linked
  have joined : (emptyChannel chptr invite removeExceptions removeInvex
      p).joinService serviceP ch.name (ch.tsinfo - 1) none false now =
        (emptyChannel chptr invite removeExceptions removeInvex
          p).linkService serviceP chptr := by
    simp [joinService, named, emptied_, emptied, absent]
  rw [joined]
  refine ⟨?_, ?_⟩
  · rw [emptyChannel_eq, ← cleared]
    rfl
  · simp [linkService, modifyChannel, onServiceChannels, emptied_, emptied,
      takenOver]

end Takeover

end Chans

namespace State

open Chans (Wired SameState takenOver takeoverMode emptied)

section Agree

variable {env : Env} {s : State} {chptr : ChannelId} {ch : Channel}
  {clientP serviceP operservP chanfixP : ClientId} {client : Client}
  {uid operservUid chanfixUid : CString} {clock : Int}

theorem readBack_takeoverMode (invite : Bool) :
    (takeoverMode invite).readBack = some (takeoverMode invite) := by
  revert invite
  decide

/-- A takeover makes of the channel what its line makes of it elsewhere, up to
the lists that it leaves. -/
theorem takeover_agrees_iff (splits : SplitsParams env.stringToArray)
    (unhooked : Unhooked env) (service : ServiceName s uid)
    (known : s.clients.client.cell clientP = some client)
    (ts6 : client.uid ≠ []) (wired : Wired chptr ch s.chans)
    (users : ch.users ≠ []) (nodup : ch.services.Nodup)
    (stamp : 2 ≤ ch.tsinfo) (invite removeExceptions removeInvex : Bool) :
    AgreesWithSjoin (SameState chptr) env s clientP uid chptr
        (s.chans.takeover serviceP chptr invite removeExceptions removeInvex
          clock) ↔
      (removeExceptions = false → ch.excepts = []) ∧
        (removeInvex = false → ch.invites = []) := by
  obtain ⟨members, cell⟩ : (s.chans.takeover serviceP chptr invite
      removeExceptions removeInvex clock).member =
        s.chans.clearedMembers chptr ∧ _ :=
    Chans.takeover_eq wired.linked wired.used users nodup stamp
  have heard : ∀ now, ∃ t, s.cSjoin env now clientP (env.stringToArray
      (sjoinText (takenOver serviceP invite removeExceptions removeInvex ch)
        uid)) = .ok t ∧ _ := fun now =>
    cSjoin_lower splits unhooked service known wired rfl
      (show 0 < ch.tsinfo - 1 by omega) (show ch.tsinfo - 1 < ch.tsinfo by omega)
      (Or.inl rfl) (show (-2147483648 : Int) ≤ 0 by decide)
      (show (0 : Int) < 2147483648 by decide) (readBack_takeoverMode invite)
  have removed : (!client.uid.isEmpty) = true := by simpa using ts6
  unfold AgreesWithSjoin
  rw [Heap.get_eq cell]
  constructor
  · intro agrees
    obtain ⟨t, received, same⟩ := agrees 0
    obtain ⟨other, again, chans⟩ := heard 0
    rw [received, Except.ok.injEq] at again
    subst again
    have excepts := same.excepts
    have invites := same.invites
    simp only [cell, chans, wired.used, Heap.modify_cell, if_true,
      Option.map_some, Option.some.injEq, takenOver, emptied, stripped,
      removed] at excepts invites
    refine ⟨fun kept => ?_, fun kept => ?_⟩
    · simpa [kept] using excepts
    · simpa [kept] using invites
  · rintro ⟨noExcepts, noInvites⟩ now
    obtain ⟨t, received, chans⟩ := heard now
    have excepts : (if removeExceptions then [] else ch.excepts) = [] := by
      split
      · rfl
      · rename_i kept
        exact noExcepts (by simpa using kept)
    have invites : (if removeInvex then [] else ch.invites) = [] := by
      split
      · rfl
      · rename_i kept
        exact noInvites (by simpa using kept)
    refine ⟨t, received, ⟨⟨?_, ?_⟩, ?_, ?_, ?_⟩⟩
    · simp [cell, chans, wired.used, takenOver, emptied]
    · rw [members, chans]
      exact fun _ => rfl
    · simp [cell, chans, wired.used, takenOver, emptied, stripped, removed]
    · simp [cell, chans, wired.used, takenOver, emptied, stripped, removed,
        excepts]
    · simp [cell, chans, wired.used, takenOver, emptied, stripped, removed,
        invites]

/-- The takeover of OperServ agrees with its line on every channel. That of
ChanFix does where there are no exceptions and no invites. -/
theorem takeovers_agree_iff (splits : SplitsParams env.stringToArray)
    (unhooked : Unhooked env) (operserv : ServiceName s operservUid)
    (chanfix : ServiceName s chanfixUid)
    (known : s.clients.client.cell clientP = some client)
    (ts6 : client.uid ≠ []) (wired : Wired chptr ch s.chans)
    (users : ch.users ≠ []) (nodup : ch.services.Nodup)
    (stamp : 2 ≤ ch.tsinfo) :
    (∀ invite, AgreesWithSjoin (SameState chptr) env s clientP operservUid
      chptr (s.chans.otakeover operservP chptr invite clock)) ∧
    (AgreesWithSjoin (SameState chptr) env s clientP chanfixUid chptr
        (s.chans.takeoverChannel chanfixP chptr clock) ↔
      ch.excepts = [] ∧ ch.invites = []) := by
  refine ⟨fun invite => ?_, ?_⟩
  · refine (takeover_agrees_iff splits unhooked operserv known ts6 wired users
      nodup stamp invite true true).mpr ⟨?_, ?_⟩
    · intro kept
      cases kept
    · intro kept
      cases kept
  · refine (takeover_agrees_iff splits unhooked chanfix known ts6 wired users
      nodup stamp false false false).trans ?_
    simp

end Agree

def takeoverServices : List ServiceBlock :=
  [{ name := "OPERSERV".toList, uid := "1SVAAAAAA".toList },
    { name := "CHANFIX".toList, uid := "1SVAAAAAB".toList }]

def oppedChannel : Channel :=
  { secretChannel with
    usersOpped := [0]
    usersUnopped := [] }

theorem takeovers_agree_opped :
    ∃ s, run (step .quiet) (start takeoverServices 300) (channelWith "@") =
        .ok s ∧
      s.chans.channel.cell 0 = some oppedChannel ∧
      AgreesWithSjoin (SameState 0) .quiet s 2 "1SVAAAAAA".toList 0
        (s.chans.otakeover 0 0 true 2) ∧
      AgreesWithSjoin (SameState 0) .quiet s 2 "1SVAAAAAB".toList 0
        (s.chans.takeoverChannel 1 0 2) := by
  have observed : (run (step .quiet) (start takeoverServices 300)
      (channelWith "@")).toOption.map (fun s =>
        (s.chans.channel.cell 0, s.chans.findChannel "#a".toList)) =
      some (some oppedChannel, some 0) := by
    decide +kernel
  have clients : (run (step .quiet) (start takeoverServices 300)
      (channelWith "@")).toOption.map (fun s =>
        (s.clients.findUser "1SVAAAAAA".toList true,
          s.clients.findUser "1SVAAAAAB".toList true,
          (s.clients.client.cell 2).map Client.uid)) =
      some (none, none, some "0AB".toList) := by
    decide +kernel
  obtain ⟨s, reached, seen⟩ := Except.exists_of_observed observed
  rw [reached] at clients
  obtain ⟨used, linked⟩ := Prod.mk.inj seen
  have seen := Option.some.inj clients
  simp only [Prod.mk.injEq] at seen
  obtain ⟨operserv, chanfix, uplink⟩ := seen
  obtain ⟨client, known, sid⟩ := Option.map_eq_some_iff.mp uplink
  have wired : Wired 0 oppedChannel s.chans :=
    ⟨used, linked, by decide, ⟨by decide, by decide, by decide⟩, by decide,
      Or.inl (by decide)⟩
  obtain ⟨always, whenEmpty⟩ := takeovers_agree_iff splitParams_splits
    quiet_unhooked ⟨by decide, by decide, operserv⟩
    ⟨by decide, by decide, chanfix⟩ known (by rw [sid]; decide) wired
    (by decide) (by decide) (by decide)
  exact ⟨s, reached, used, always true, whenEmpty.mpr ⟨rfl, rfl⟩⟩

/-- The exception stays here, and goes elsewhere. -/
theorem not_takeovers_agree_excepted :
    ∃ s, run (step .quiet) (start takeoverServices 300)
        (channelWith "@" ++ [.read 2 false .again
          [⟨":0AB TMODE 100 #a +e a!b@c".toList, false⟩]]) = .ok s ∧
      ¬AgreesWithSjoin (SameState 0) .quiet s 2 "1SVAAAAAB".toList 0
        (s.chans.takeoverChannel 1 0 2) := by
  have observed : (run (step .quiet) (start takeoverServices 300)
      (channelWith "@" ++ [.read 2 false .again
        [⟨":0AB TMODE 100 #a +e a!b@c".toList, false⟩]])).toOption.map
      (fun s => (((s.chans.takeoverChannel 1 0 2).channel.cell 0).map
          Channel.excepts,
        (s.cSjoin .quiet 0 2 (Env.quiet.stringToArray (sjoinText
          ((s.chans.takeoverChannel 1 0 2).channel.get 0)
          "1SVAAAAAB".toList))).toOption.map
          fun t => (t.chans.channel.cell 0).map Channel.excepts)) =
      some (some ["a!b@c".toList], some (some [])) := by
    decide +kernel
  obtain ⟨s, reached, seen⟩ := Except.exists_of_observed observed
  obtain ⟨here, elsewhere⟩ := Prod.mk.inj seen
  refine ⟨s, reached, fun agrees => ?_⟩
  obtain ⟨t, heard, same⟩ := agrees 0
  have excepts := same.excepts
  rw [heard] at elsewhere
  have gone : (t.chans.channel.cell 0).map Channel.excepts = some [] :=
    Option.some.inj elsewhere
  rw [here, gone] at excepts
  cases excepts

end State

end RatboxServices
