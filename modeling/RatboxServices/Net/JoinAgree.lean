import RatboxServices.Net.SentJoin
import RatboxServices.Net.System

namespace RatboxServices

open CString
open Chans (Inv)
open State (mergeMode)

/-! What a service does to a channel by itself, beside what the `SJOIN` that it
sends does to the same channel elsewhere. -/

def Chmember.status (member : Chmember) : Bool × Bool :=
  (member.isOpped, member.isVoiced)

namespace Chans

/-- A channel that is linked under its name, with a name and a TS that can be
sent and somebody in it. -/
structure Wired (chptr : ChannelId) (ch : Channel) (s : Chans) : Prop where
  used : s.channel.cell chptr = some ch
  linked : s.findChannel ch.name = some chptr
  valid : validChname ch.name = true
  word : IsWord ch.name
  stamp : ch.tsinfo ≤ longMax
  occupied : ch.users ≠ [] ∨ ch.services ≠ []

structure SameStatus (chptr : ChannelId) (left right : Chans) : Prop where
  mode : (left.channel.cell chptr).map Channel.mode =
    (right.channel.cell chptr).map Channel.mode
  members : ∀ m, (left.member.cell m).map Chmember.status =
    (right.member.cell m).map Chmember.status

structure SameState (chptr : ChannelId) (left right : Chans) : Prop
    extends SameStatus chptr left right where
  bans : (left.channel.cell chptr).map Channel.bans =
    (right.channel.cell chptr).map Channel.bans
  excepts : (left.channel.cell chptr).map Channel.excepts =
    (right.channel.cell chptr).map Channel.excepts
  invites : (left.channel.cell chptr).map Channel.invites =
    (right.channel.cell chptr).map Channel.invites

def clearedMembers (chptr : ChannelId) (s : Chans) : Heap Chmember :=
  (s.usersOf chptr).foldl (fun heap target => heap.modify target Inv.clearOv)
    s.member

theorem usersOf_eq {s : Chans} {chptr : ChannelId} {ch : Channel}
    (used : s.channel.cell chptr = some ch) : s.usersOf chptr = ch.users := by
  simp [usersOf, used]

theorem clearedMembers_status_iff {s : Chans} {chptr : ChannelId} :
    (∀ m, (s.member.cell m).map Chmember.status =
      ((s.clearedMembers chptr).cell m).map Chmember.status) ↔
    ∀ m ∈ s.usersOf chptr, ∀ member, s.member.cell m = some member →
      member.isOpped = false ∧ member.isVoiced = false := by
  have cleared : ∀ member, (Inv.clearOv member).status = (false, false) := by
    intro member
    simp [Chmember.status, Inv.clearOv, Chmember.isOpped, Chmember.isVoiced]
  unfold clearedMembers
  constructor
  · intro same m listed member used
    have equal := same m
    rw [Heap.foldl_modify_cell Inv.clearOv_stable, if_pos listed, used,
      Option.map_some, Option.map_some, Option.map_some, cleared] at equal
    exact Prod.mk.inj (Option.some.inj equal)
  · intro plain m
    rw [Heap.foldl_modify_cell Inv.clearOv_stable]
    split
    · rename_i listed
      cases used : s.member.cell m with
      | none => rfl
      | some member =>
          obtain ⟨unopped, unvoiced⟩ := plain m listed member used
          rw [Option.map_some, Option.map_some, Option.map_some, cleared,
            Chmember.status, unopped, unvoiced]
    · rfl

end Chans

namespace State

open Chans (Wired SameStatus SameState)

theorem mergeMode_empty (newmode : Chmode) : mergeMode newmode {} = newmode := by
  simp [mergeMode]

section Received

variable {s : State} {chptr : ChannelId} {ch : Channel} {call : SjoinCall}

theorem merged_lower (found : s.chans.findChannel call.target.chname = some chptr)
    (used : s.chans.channel.cell chptr = some ch)
    (positive : 0 < call.target.newts)
    (lower : call.target.newts < ch.tsinfo) :
    call.target.chptr s = chptr ∧
      (call.merged s).chans =
        { s.chans with
          member := s.chans.clearedMembers chptr
          channel := s.chans.channel.modify chptr fun ch =>
            { stripped call.target.newts call.removeBans ch with
              mode := call.newmode } } := by
  have nonzero : call.target.newts ≠ 0 := by omega
  have zero : ch.tsinfo ≠ 0 := by omega
  have joined : joinChannel call.target.chname call.target.newts s.chans =
      (s.chans, chptr, false) := by
    simp [joinChannel, found, Heap.get_eq used, nonzero, zero, lower]
  have new : call.target.keepNew s = true := by
    simp [JoinTarget.keepNew, keepNewModes, found, Heap.get_eq used, lower]
  have here : call.target.chptr s = chptr := by
    rw [JoinTarget.chptr, joined]
  have old : call.target.keepOld s = false := by
    rw [JoinTarget.keepOld, joined]
  have unmoved : call.target.found s = s := by
    rw [JoinTarget.found, joined]
  have merged : (call.merged s).chans =
      (dropOldModes chptr call.target.newts call.removeBans
        s.chans).modifyChannel chptr fun ch =>
          { ch with mode := mergeMode call.newmode ch.mode } := by
    rw [SjoinCall.merged, JoinTarget.settled, new, old, here, unmoved]
    rfl
  refine ⟨here, ?_⟩
  rw [merged, dropOldModes_eq]
  unfold Chans.modifyChannel
  dsimp only
  rw [Heap.modify_modify]
  congr 2
  funext before
  rw [show (stripped call.target.newts call.removeBans before).mode = {} from
    rfl, mergeMode_empty]

variable {env : Env} {now : Int} {clientP : ClientId} {client : Client}
  {uid : CString} {sent : Channel} {newmode : Chmode}

theorem cSjoin_lower (splits : SplitsParams env.stringToArray)
    (unhooked : Unhooked env) (service : ServiceName s uid)
    (known : s.clients.client.cell clientP = some client)
    (wired : Wired chptr ch s.chans) (name : sent.name = ch.name)
    (positive : 0 < sent.tsinfo) (lower : sent.tsinfo < ch.tsinfo)
    (key : sent.mode.key = [] ∨ IsWord sent.mode.key)
    (low : -2147483648 ≤ sent.mode.limit) (high : sent.mode.limit < 2147483648)
    (read : sent.mode.readBack = some newmode) :
    ∃ t, s.cSjoin env now clientP (env.stringToArray (sjoinText sent uid)) =
        .ok t ∧
      t.chans =
        { s.chans with
          member := s.chans.clearedMembers chptr
          channel := s.chans.channel.modify chptr fun ch =>
            { stripped sent.tsinfo (!client.uid.isEmpty) ch with
              mode := newmode } } := by
  have stamp : atol (formatUlong sent.tsinfo) = sent.tsinfo :=
    atol_formatUlong (by omega) (by have := wired.stamp; omega)
  have call : s.sjoinCall clientP (sjoinParv sent uid) =
      some (sentCall client sent uid newmode) := by
    rw [sjoinCall_sent known (name ▸ wired.valid) low high, read]
    rfl
  have target : (sentCall client sent uid newmode).target =
      ⟨ch.name, sent.tsinfo⟩ := by
    simp only [sentCall, stamp, name]
  obtain ⟨here, merged⟩ : (sentCall client sent uid newmode).target.chptr s =
      chptr ∧ _ := merged_lower (by rw [target]; exact wired.linked) wired.used
    (by rw [target]; exact positive) (by rw [target]; exact lower)
  rw [target] at merged
  have occupied : isFree ((sentCall client sent uid newmode).merged s).chans
      ((sentCall client sent uid newmode).target.chptr s) = false := by
    rw [here, merged]
    simp only [isFree, Heap.modify_cell, if_true, wired.used, Option.map_some,
      stripped]
    rcases wired.occupied with users | services
    · simp [users]
    · simp [services]
  rw [stringToArray_sjoinText splits uid (name ▸ wired.word) key]
  exact ⟨_, cSjoin_sent unhooked service call occupied, merged⟩

end Received

/-- Elsewhere, the line that the service sends makes the same of the channel as
the service did here. -/
def AgreesWithSjoin (Same : Chans → Chans → Prop) (env : Env) (s : State)
    (clientP : ClientId) (uid : CString) (chptr : ChannelId)
    (after : Chans) : Prop :=
  ∀ now, ∃ t, s.cSjoin env now clientP (env.stringToArray
      (sjoinText (after.channel.get chptr) uid)) = .ok t ∧ Same after t.chans

/-- The modes that a service brings, and those that it finds, are such that a
lower TS makes the same of them here and elsewhere. -/
def Overridable (old : Chmode) : Option Chmode → Prop
  | none => old.limit = 0 ∧ old.key = []
  | some mode =>
      (∀ bit, mode.mode.has bit = true →
        bit ∈ chmodeTable.map Prod.fst ∨ bit = modeLimit ∨ bit = modeKey) ∧
      (mode.mode.has modeLimit = true ↔ mode.limit ≠ 0) ∧
      (mode.mode.has modeKey = true ↔ mode.key ≠ [] ∨ old.key ≠ []) ∧
      (mode.key ≠ [] → validKey mode.key = some (strlcpy (keyLen + 1) mode.key)) ∧
      (mode.key = [] → old.key ≠ [] → validKey old.key = some old.key)

/-- A key that `valid_key` does not refuse, in its buffer. -/
def AcceptedKey (key : CString) : Prop :=
  key = [] ∨ (validKey key).isSome = true ∧ key.length ≤ keyLen

theorem isWord_of_validKey {key : CString} (given : key ≠ [])
    (valid : (validKey key).isSome = true) (short : key.length ≤ keyLen) :
    IsWord key := by
  have whole : strlcpy (keyLen + 1) key = key := by
    simp [strlcpy, List.take_of_length_le short]
  have clean : ∀ c ∈ key, ¬(Char.ofNat (c.toNat % 128) = ':' ∨
      Char.ofNat (c.toNat % 128) ≤ ' ') := by
    unfold validKey at valid
    rw [whole] at valid
    dsimp only at valid
    split at valid
    · cases valid
    · rename_i none_
      intro c listed either
      refine none_ (List.any_eq_true.mpr ⟨_, List.mem_map.mpr
        ⟨c, listed, rfl⟩, ?_⟩)
      simpa using either
  refine ⟨given, fun listed => ?_, fun first => ?_⟩
  · exact clean ' ' listed (Or.inr (by decide))
  · exact clean ':' (List.mem_of_mem_head? first) (Or.inl (by decide))

theorem validKey_strlcpy (key : CString) :
    validKey (strlcpy (keyLen + 1) key) = validKey key := by
  simp [validKey, strlcpy, List.take_take]

theorem length_of_validKey {key fixed : CString}
    (valid : validKey key = some fixed) : fixed.length ≤ keyLen := by
  unfold validKey at valid
  dsimp only at valid
  split at valid
  · cases valid
  · cases valid
    simp [strlcpy]

theorem overridable_iff (old : Chmode) (mode : Option Chmode) :
    Overridable old mode ↔ (Chans.serviceMode old mode).Sendable ∧
      ((Chans.serviceMode old mode).key = [] ∨
        validKey (Chans.serviceMode old mode).key =
          some (Chans.serviceMode old mode).key) := by
  have plain : ∀ bit, (Word.ofBits [modeNoexternal, modeTopic]).has bit =
      true → bit ∈ chmodeTable.map Prod.fst := by
    intro bit given
    simp [Word.ofBits, modeNoexternal, modeTopic] at given
    rcases given with rfl | rfl <;> decide
  have limit : (Word.ofBits [modeNoexternal, modeTopic]).has modeLimit =
      false := by decide
  have key : (Word.ofBits [modeNoexternal, modeTopic]).has modeKey =
      false := by decide
  cases mode with
  | none =>
      constructor
      · rintro ⟨noLimit, noKey⟩
        refine ⟨⟨fun bit given => Or.inl (plain bit given), ?_, ?_⟩,
          Or.inl noKey⟩
        · simp [Chans.serviceMode, limit, noLimit]
        · simp [Chans.serviceMode, key, noKey]
      · rintro ⟨sendable, _⟩
        have noLimit := sendable.limit
        have noKey := sendable.key
        simp only [Chans.serviceMode, limit, key, Bool.false_eq_true, false_iff,
          not_not, ne_eq] at noLimit noKey
        exact ⟨noLimit, noKey⟩
  | some mode =>
      have cut : strlcpy (keyLen + 1) mode.key = [] ↔ mode.key = [] := by
        constructor
        · intro none_
          by_contra given
          exact FullMode.strlcpy_ne_nil (by decide) given none_
        · intro none_
          simp [none_, strlcpy]
      by_cases given : mode.key = []
      · have same : (Chans.serviceMode old (some mode)).key = old.key := by
          simp [Chans.serviceMode, given]
        constructor
        · rintro ⟨known, limit, key, _, valid⟩
          refine ⟨⟨known, limit, ?_⟩, ?_⟩
          · rw [same]
            exact key.trans (by simp [given])
          · rw [same]
            exact or_iff_not_imp_left.mpr (valid given)
        · rintro ⟨sendable, valid⟩
          rw [same] at valid
          have key := sendable.key
          rw [same] at key
          exact ⟨sendable.known, sendable.limit,
            key.trans (by simp [given]), fun some_ => absurd given some_,
            fun _ some_ => valid.resolve_left some_⟩
      · have same : (Chans.serviceMode old (some mode)).key =
            strlcpy (keyLen + 1) mode.key := by
          simp [Chans.serviceMode, given]
        constructor
        · rintro ⟨known, limit, key, valid, _⟩
          refine ⟨⟨known, limit, ?_⟩, Or.inr ?_⟩
          · rw [same]
            exact key.trans (by simp [given, cut])
          · rw [same, validKey_strlcpy]
            exact valid given
        · rintro ⟨sendable, valid⟩
          rw [same, validKey_strlcpy] at valid
          have key := sendable.key
          rw [same] at key
          exact ⟨sendable.known, sendable.limit,
            key.trans (by simp [given, cut]),
            fun _ => valid.resolve_left (by simpa [cut] using given),
            fun none_ => absurd none_ given⟩

theorem AcceptedKey.isWord {key : CString} (accepted : AcceptedKey key) :
    key = [] ∨ IsWord key := by
  by_cases given : key = []
  · exact Or.inl given
  · obtain ⟨valid, short⟩ := accepted.resolve_left given
    exact Or.inr (isWord_of_validKey given valid short)

theorem acceptedKey_serviceMode {old : Chmode} {mode : Option Chmode}
    (oldKey : AcceptedKey old.key)
    (newKey : ∀ given ∈ mode, AcceptedKey given.key) :
    AcceptedKey (Chans.serviceMode old mode).key := by
  cases mode with
  | none => exact oldKey
  | some mode =>
      unfold Chans.serviceMode
      dsimp only
      split
      · exact oldKey
      · rename_i given
        obtain ⟨valid, short⟩ := (newKey mode rfl).resolve_left
          (by simpa using given)
        refine Or.inr ⟨by rw [validKey_strlcpy]; exact valid, ?_⟩
        simp [strlcpy]

theorem readBack_eq {mode : Chmode} (sendable : mode.Sendable)
    (key : mode.key = [] ∨ validKey mode.key = some mode.key) :
    mode.readBack = some mode := by
  have bits : mode.told = mode.mode := (Chmode.told_eq_iff mode).mpr sendable
  unfold Chmode.readBack
  split
  · rename_i none_
    rw [bits, ← none_]
  · rename_i given
    rw [key.resolve_left given, Option.map_some, bits]

theorem readBack_of_accepted {mode : Chmode} (accepted : AcceptedKey mode.key) :
    ∃ newmode, mode.readBack = some newmode ∧
      (newmode.key = [] ∨ validKey mode.key = some newmode.key) := by
  unfold Chmode.readBack
  split
  · exact ⟨_, rfl, Or.inl rfl⟩
  · rename_i given
    obtain ⟨fixed, valid⟩ :=
      Option.isSome_iff_exists.mp (accepted.resolve_left given).1
    exact ⟨⟨mode.told, fixed, mode.limit⟩, by rw [valid]; rfl, Or.inr valid⟩

theorem readBack_told {mode newmode : Chmode}
    (read : mode.readBack = some newmode) : mode.told = newmode.mode := by
  unfold Chmode.readBack at read
  split at read
  · cases read
    rfl
  · obtain ⟨fixed, _, rfl⟩ := Option.map_eq_some_iff.mp read
    rfl

def overridden (serviceP : ClientId) (tsinfo : Int) (mode : Option Chmode)
    (ch : Channel) : Channel :=
  { ch with
    tsinfo := tsinfo
    mode := Chans.serviceMode ch.mode mode
    services := Dlink.add serviceP ch.services }

theorem joinService_override {s : Chans} {chptr : ChannelId} {ch : Channel}
    {serviceP : ClientId} {chname : CString} {tsinfo now : Int}
    {mode : Option Chmode} (named : s.findChannel chname = some chptr)
    (used : s.channel.cell chptr = some ch)
    (absent : Dlink.find serviceP ch.services = false)
    (lower : tsinfo < ch.tsinfo) :
    (s.joinService serviceP chname tsinfo mode true now).member = s.member ∧
      (s.joinService serviceP chname tsinfo mode true now).channel.cell chptr =
        some (overridden serviceP tsinfo mode ch) := by
  have same : s.joinService serviceP chname tsinfo mode true now =
      (s.modifyChannel chptr fun ch =>
        { ch with
          tsinfo := tsinfo
          mode := Chans.serviceMode ch.mode mode }).linkService serviceP
        chptr := by
    simp [Chans.joinService, named, used, absent, lower]
  rw [same]
  refine ⟨rfl, ?_⟩
  simp [Chans.linkService, Chans.modifyChannel, Chans.onServiceChannels, used,
    overridden]

section Override

variable {env : Env} {s : State} {chptr : ChannelId} {ch : Channel}
  {clientP serviceP : ClientId} {client : Client} {uid chname : CString}
  {tsinfo clock : Int} {mode : Option Chmode}

/-- Where a service joins with a lower TS that overrides the one of a channel,
its own copy of the channel has the modes, key, limit and status of members
that its `SJOIN` makes of it elsewhere if the TS is not zero, the modes can be
overridden and nobody is opped or voiced. With a TS that is not zero and keys
that `valid_key` takes, it has them only then. -/
theorem override_agrees (splits : SplitsParams env.stringToArray)
    (unhooked : Unhooked env) (service : ServiceName s uid)
    (known : s.clients.client.cell clientP = some client)
    (wired : Wired chptr ch s.chans)
    (named : s.chans.findChannel chname = some chptr)
    (absent : Dlink.find serviceP ch.services = false)
    (lower : tsinfo < ch.tsinfo)
    (low : -2147483648 ≤ (Chans.serviceMode ch.mode mode).limit)
    (high : (Chans.serviceMode ch.mode mode).limit < 2147483648) :
    (0 < tsinfo ∧ Overridable ch.mode mode ∧
        (∀ m ∈ ch.users, ∀ member, s.chans.member.cell m = some member →
          member.isOpped = false ∧ member.isVoiced = false) →
      AgreesWithSjoin (SameStatus chptr) env s clientP uid chptr
        (s.chans.joinService serviceP chname tsinfo mode true clock)) ∧
    (0 < tsinfo → AcceptedKey ch.mode.key →
      (∀ given ∈ mode, AcceptedKey given.key) →
      AgreesWithSjoin (SameStatus chptr) env s clientP uid chptr
        (s.chans.joinService serviceP chname tsinfo mode true clock) →
      Overridable ch.mode mode ∧
        ∀ m ∈ ch.users, ∀ member, s.chans.member.cell m = some member →
          member.isOpped = false ∧ member.isVoiced = false) := by
  obtain ⟨members, cell⟩ :
      (s.chans.joinService serviceP chname tsinfo mode true clock).member =
        s.chans.member ∧ _ := joinService_override named wired.used absent lower
  rw [← Chans.usersOf_eq wired.used, ← Chans.clearedMembers_status_iff,
    overridable_iff]
  unfold AgreesWithSjoin
  rw [Heap.get_eq cell]
  have heard : 0 < tsinfo → AcceptedKey (Chans.serviceMode ch.mode mode).key →
      ∀ now newmode, (Chans.serviceMode ch.mode mode).readBack =
        some newmode → ∃ t, s.cSjoin env now clientP (env.stringToArray
          (sjoinText (overridden serviceP tsinfo mode ch) uid)) = .ok t ∧ _ :=
    fun positive accepted now newmode read => cSjoin_lower splits unhooked
      service known wired rfl positive lower accepted.isWord low high read
  refine ⟨?_, ?_⟩
  · rintro ⟨positive, ⟨sendable, key⟩, plain⟩ now
    have accepted : AcceptedKey (Chans.serviceMode ch.mode mode).key :=
      key.imp_right fun valid =>
        ⟨by rw [valid]; rfl, length_of_validKey valid⟩
    obtain ⟨t, heard, chans⟩ := heard positive accepted now _
      (readBack_eq sendable key)
    refine ⟨t, heard, ?_, ?_⟩
    · simp [cell, chans, wired.used, overridden]
    · rw [members, chans]
      exact plain
  · intro positive oldKey newKey agrees
    have accepted := acceptedKey_serviceMode oldKey newKey
    obtain ⟨newmode, read, fixed⟩ := readBack_of_accepted accepted
    obtain ⟨t, received, same⟩ := agrees 0
    obtain ⟨other, again, chans⟩ := heard positive accepted 0 _ read
    rw [received, Except.ok.injEq] at again
    subst again
    have modes := same.mode
    have flags := same.members
    rw [members, chans] at flags
    simp only [cell, chans, wired.used, Heap.modify_cell, if_true,
      Option.map_some, Option.some.injEq, overridden] at modes
    rw [← modes] at read fixed
    refine ⟨⟨(Chmode.told_eq_iff _).mp ?_, fixed⟩, flags⟩
    exact readBack_told read

end Override

/-- A word is cut off at the next space. -/
theorem splitParams_cut {word : CString} (isWord : IsWord word) (limit : Nat)
    (rest : CString) :
    splitParams (limit + 1) (word ++ rest) =
      match CString.cut ' ' (word ++ rest) with
      | (word, none) => [word]
      | (word, some rest) => word :: splitParams limit rest := by
  obtain ⟨given, noSpace, noColon⟩ := isWord
  cases word with
  | nil => exact absurd rfl given
  | cons c tail =>
      have first : c ≠ ' ' := by
        rintro rfl
        exact noSpace (by simp)
      have colon : c ≠ ':' := by
        rintro rfl
        exact noColon rfl
      have skipped : (c :: tail ++ rest).dropWhile (· == ' ') =
          c :: tail ++ rest := by
        simp [first]
      rw [splitParams, skipped]
      split
      · rename_i none_
        cases none_
      · rename_i last same
        exact absurd (List.cons.inj same).1 colon
      · rfl

theorem splitParams_word {word : CString} (isWord : IsWord word) (limit : Nat)
    (rest : CString) :
    splitParams (limit + 1) (word ++ ' ' :: rest) =
      word :: splitParams limit rest := by
  have whole : CString.cut ' ' (word ++ ' ' :: rest) = (word, some rest) :=
    cut_append isWord.noSpace rest
  rw [splitParams_cut isWord, whole]

theorem splitParams_spaced {words : List CString}
    (all : ∀ word ∈ words, IsWord word) (limit : Nat) (rest : CString) :
    splitParams (words.length + limit) (spaced words ++ rest) =
      words ++ splitParams limit rest := by
  induction words with
  | nil => simp [spaced]
  | cons word others ih =>
      have text : spaced (word :: others) ++ rest =
          word ++ ' ' :: (spaced others ++ rest) := by
        simp [spaced]
      rw [text, List.length_cons, Nat.add_right_comm,
        splitParams_word (all word (by simp)),
        ih fun other listed => all other (List.mem_cons_of_mem _ listed)]
      rfl

theorem splitParams_splits : SplitsParams (splitParams 15) where
  words := by
    intro words all few
    obtain ⟨limit, same⟩ := Nat.exists_eq_add_of_lt few
    have read := splitParams_spaced all (limit + 1) []
    rw [List.append_nil] at read
    rw [same, Nat.add_assoc, read]
    simp [splitParams]
  trailing := by
    intro words last all few
    obtain ⟨limit, same⟩ := Nat.exists_eq_add_of_lt few
    rw [same, Nat.add_assoc, splitParams_spaced all (limit + 1)]
    simp [splitParams]

theorem quiet_unhooked : Unhooked .quiet :=
  ⟨fun _ _ => rfl, fun _ _ _ => rfl⟩

def chanserv : ServiceBlock :=
  { name := "CHANSERV".toList, uid := "1SVAAAAAA".toList }

def channelWith (status : String) : List Event :=
  linkUp
    [⟨":0AB UID one 1 5 +i u h 0 0ABAAAAAA :g".toList, false⟩,
      ⟨(":0AB SJOIN 100 #a +sk key :" ++ status ++ "0ABAAAAAA").toList, false⟩]

def guardMode : Chmode :=
  ⟨.ofBits [modeNoexternal, modeTopic, modeLimit, modeKey], "other".toList, 7⟩

def secretChannel : Channel where
  name := "#a".toList
  tsinfo := 100
  users := [0]
  usersUnopped := [0]
  mode := ⟨.ofBits [modeSecret, modeKey], "key".toList, 0⟩

theorem wired_secretChannel {s : State}
    (used : s.chans.channel.cell 0 = some secretChannel)
    (linked : s.chans.findChannel "#a".toList = some 0) :
    Wired 0 secretChannel s.chans where
  used := used
  linked := linked
  valid := by decide
  word := ⟨by decide, by decide, by decide⟩
  stamp := by decide
  occupied := Or.inl (by decide)

theorem override_agrees_plain :
    ∃ s, run (step .quiet) (start [chanserv] 300) (channelWith "") = .ok s ∧
      s.chans.channel.cell 0 = some secretChannel ∧
      AgreesWithSjoin (SameStatus 0) .quiet s 1 "1SVAAAAAA".toList 0
        (s.chans.joinService 0 "#a".toList 50 (some guardMode) true 2) := by
  have observed : (run (step .quiet) (start [chanserv] 300)
      (channelWith "")).toOption.map (fun s =>
        (s.chans.channel.cell 0, s.chans.findChannel "#a".toList,
          s.clients.findUser "1SVAAAAAA".toList true,
          (s.clients.client.cell 1).isSome, s.chans.member.cell 0)) =
      some (some secretChannel, some 0, none, true, some ⟨0, 2, 0#32⟩) := by
    decide +kernel
  obtain ⟨s, reached, seen⟩ := Except.exists_of_observed observed
  simp only [Prod.mk.injEq] at seen
  obtain ⟨used, linked, stranger, uplink, unopped⟩ := seen
  obtain ⟨client, known⟩ := Option.isSome_iff_exists.mp uplink
  refine ⟨s, reached, used, (override_agrees splitParams_splits quiet_unhooked
    ⟨by decide, by decide, stranger⟩ known (wired_secretChannel used linked)
    linked (by decide) (by decide) (by decide) (by decide)).1 ⟨by decide, ?_, ?_⟩⟩
  · have same : Chans.serviceMode secretChannel.mode (some guardMode) =
        guardMode := by decide
    rw [overridable_iff, same]
    exact ⟨(Chmode.told_eq_iff guardMode).mp (by decide), Or.inr (by decide)⟩
  · intro m listed member there
    rw [List.mem_singleton.mp listed, unopped, Option.some.injEq] at there
    subst there
    exact ⟨by decide, by decide⟩

/-- The user stays opped here, and is deopped by the line elsewhere. -/
theorem not_override_agrees_opped :
    ∃ s, run (step .quiet) (start [chanserv] 300) (channelWith "@") = .ok s ∧
      ¬AgreesWithSjoin (SameStatus 0) .quiet s 1 "1SVAAAAAA".toList 0
        (s.chans.joinService 0 "#a".toList 50 (some guardMode) true 2) := by
  have observed : (run (step .quiet) (start [chanserv] 300)
      (channelWith "@")).toOption.map (fun s =>
        (((s.chans.joinService 0 "#a".toList 50 (some guardMode) true
            2).member.cell 0).map Chmember.status,
          (s.cSjoin .quiet 0 1 (Env.quiet.stringToArray (sjoinText
            ((s.chans.joinService 0 "#a".toList 50 (some guardMode) true
              2).channel.get 0) "1SVAAAAAA".toList))).toOption.map
            fun t => (t.chans.member.cell 0).map Chmember.status)) =
      some (some (true, false), some (some (false, false))) := by
    decide +kernel
  obtain ⟨s, reached, seen⟩ := Except.exists_of_observed observed
  obtain ⟨here, elsewhere⟩ := Prod.mk.inj seen
  refine ⟨s, reached, fun agrees => ?_⟩
  obtain ⟨t, heard, same⟩ := agrees 0
  have flags := same.members 0
  rw [heard] at elsewhere
  have deopped : (t.chans.member.cell 0).map Chmember.status =
      some (false, false) := Option.some.inj elsewhere
  rw [here, deopped] at flags
  cases flags

end State

end RatboxServices
