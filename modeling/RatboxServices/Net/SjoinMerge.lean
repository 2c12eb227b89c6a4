import RatboxServices.Lib.Choice
import RatboxServices.Net.ChannelName
import RatboxServices.Net.ModeRun
import Mathlib.Data.Char
import Mathlib.Data.List.Lex

namespace RatboxServices

open CString
open State (mergeMode)

/-! Merging the modes of two `SJOIN`s with the TS of the channel, in either
order. -/

namespace Chmode

theorem mergeMode_key (newmode old : Chmode) :
    (mergeMode newmode old).key = choose [] old.key newmode.key := by
  unfold mergeMode choose
  simp only [Bool.or_eq_true, List.isEmpty_iff, decide_eq_true_eq]
  by_cases taken : old.key = [] ∨ newmode.key < old.key
  · exact (if_pos taken).trans (if_pos taken).symm
  · exact (if_neg taken).trans (if_neg taken).symm

theorem mergeMode_limit (newmode old : Chmode) :
    OrderDual.toDual (mergeMode newmode old).limit =
      choose (OrderDual.toDual 0) (OrderDual.toDual old.limit)
        (OrderDual.toDual newmode.limit) := by
  unfold mergeMode choose
  simp only [Bool.or_eq_true, decide_eq_true_eq, EmbeddingLike.apply_eq_iff_eq,
    OrderDual.toDual_lt_toDual]
  split <;> rfl

/-- What merging two messages into the modes of a channel should do: the order
does not count, neither does a repetition, and a message without a key or a
limit takes none away. -/
structure MergesWell (old first second : Chmode) : Prop where
  commutes : mergeMode second (mergeMode first old) =
    mergeMode first (mergeMode second old)
  repeats : ∀ new ∈ [first, second],
    mergeMode new (mergeMode new old) = mergeMode new old
  key : ∀ new ∈ [first, second], new.mode.has modeKey = false →
    old.key ≠ [] → (mergeMode new old).key ≠ []
  limit : ∀ new ∈ [first, second], new.mode.has modeLimit = false →
    old.limit ≠ 0 → (mergeMode new old).limit ≠ 0

/-- Either both messages have a key or none, and they have one if the channel
does. Where the channel has no positive limit, a message that brings none does
not meet one that brings a negative limit; and where the channel has a negative
limit, both messages bring a limit. -/
structure Compatible (old first second : Chmode) : Prop where
  key : first.key = [] ↔ second.key = []
  keyed : old.key ≠ [] → first.key ≠ []
  limit : old.limit ≤ 0 → (first.limit = 0 → 0 ≤ second.limit) ∧
    (second.limit = 0 → 0 ≤ first.limit)
  limited : old.limit < 0 → first.mode.has modeLimit = true ∧
    second.mode.has modeLimit = true

theorem eq_of_fields {left right : Chmode} (mode : left.mode = right.mode)
    (key : left.key = right.key) (limit : left.limit = right.limit) :
    left = right := by
  cases left
  cases right
  simp_all

section Merge

variable {old first second : Chmode}

theorem merge_key_comm_iff :
    (mergeMode second (mergeMode first old)).key =
      (mergeMode first (mergeMode second old)).key ↔
    (first.key = [] ↔ second.key = []) := by
  have least : ∀ key : CString, [] ≤ key :=
    fun key => le_of_not_gt (List.not_lt_nil key)
  have none_ : ∀ key : CString, key ≤ [] ↔ key = [] :=
    fun key => ⟨fun le => le_antisymm le (least key), fun same => same.le⟩
  rw [mergeMode_key, mergeMode_key, mergeMode_key, mergeMode_key,
    choose_comm_iff]
  simp only [least, none_, true_implies]
  exact iff_iff_implies_and_implies.symm

theorem merge_limit_comm_iff :
    (mergeMode second (mergeMode first old)).limit =
      (mergeMode first (mergeMode second old)).limit ↔
    (old.limit ≤ 0 → (first.limit = 0 → 0 ≤ second.limit) ∧
      (second.limit = 0 → 0 ≤ first.limit)) := by
  rw [← OrderDual.toDual_inj, mergeMode_limit, mergeMode_limit,
    mergeMode_limit, mergeMode_limit, choose_comm_iff]
  simp only [OrderDual.toDual_le_toDual, OrderDual.toDual_inj]

theorem merge_bits_comm :
    (mergeMode second (mergeMode first old)).mode =
      (mergeMode first (mergeMode second old)).mode := by
  show old.mode ||| first.mode ||| second.mode =
    old.mode ||| second.mode ||| first.mode
  rw [BitVec.or_assoc, BitVec.or_comm first.mode, BitVec.or_assoc]

theorem merge_twice (new old : Chmode) :
    mergeMode new (mergeMode new old) = mergeMode new old := by
  have bits : (mergeMode new (mergeMode new old)).mode =
      (mergeMode new old).mode := by
    show old.mode ||| new.mode ||| new.mode = old.mode ||| new.mode
    rw [BitVec.or_assoc, BitVec.or_self]
  have key : (mergeMode new (mergeMode new old)).key =
      (mergeMode new old).key := by
    rw [mergeMode_key, mergeMode_key, choose_idem]
  have limit : (mergeMode new (mergeMode new old)).limit =
      (mergeMode new old).limit := by
    rw [← OrderDual.toDual_inj, mergeMode_limit, mergeMode_limit, choose_idem]
  exact eq_of_fields bits key limit

theorem merge_key_kept {new : Chmode} (parsed : new.Parsed) :
    (new.mode.has modeKey = false → old.key ≠ [] →
      (mergeMode new old).key ≠ []) ↔ (old.key ≠ [] → new.key ≠ []) := by
  have bit : new.mode.has modeKey = false ↔ new.key = [] := by
    rw [← Bool.not_eq_true, parsed.key, not_not]
  rw [bit]
  constructor
  · intro kept had given
    refine kept given had ?_
    rw [mergeMode_key, given, choose_nothing had]
    cases same : old.key with
    | nil => exact absurd same had
    | cons p rest => exact List.nil_lt_cons p rest
  · intro keyed given had
    exact absurd given (keyed had)

theorem merge_limit_kept {new : Chmode} (parsed : new.Parsed) :
    (new.mode.has modeLimit = false → old.limit ≠ 0 →
      (mergeMode new old).limit ≠ 0) ↔
        (old.limit < 0 → new.mode.has modeLimit = true) := by
  have removed : new.mode.has modeLimit = false → old.limit ≠ 0 →
      ((mergeMode new old).limit = 0 ↔ old.limit < 0) := by
    intro unset had
    rw [← OrderDual.toDual_inj, mergeMode_limit, parsed.limit unset,
      choose_nothing (by simpa using had), OrderDual.toDual_lt_toDual]
  constructor
  · intro kept negative
    by_contra unset
    have without : new.mode.has modeLimit = false := by simpa using unset
    exact kept without (by omega) ((removed without (by omega)).mpr negative)
  · intro limited unset had none_
    rw [limited ((removed unset had).mp none_)] at unset
    cases unset

theorem mergesWell_iff (parsedFirst : first.Parsed)
    (parsedSecond : second.Parsed) :
    MergesWell old first second ↔ Compatible old first second := by
  constructor
  · intro well
    have key := merge_key_comm_iff.mp (congrArg Chmode.key well.commutes)
    have keyed := (merge_key_kept parsedFirst).mp
      (well.key first (by simp))
    have limit := merge_limit_comm_iff.mp
      (congrArg Chmode.limit well.commutes)
    have limitedFirst := (merge_limit_kept parsedFirst).mp
      (well.limit first (by simp))
    have limitedSecond := (merge_limit_kept parsedSecond).mp
      (well.limit second (by simp))
    exact ⟨key, keyed, limit,
      fun negative => ⟨limitedFirst negative, limitedSecond negative⟩⟩
  · intro compatible
    have keyed : old.key ≠ [] → second.key ≠ [] :=
      fun had given => compatible.keyed had (compatible.key.mpr given)
    refine ⟨?_, fun new _ => merge_twice new old, ?_, ?_⟩
    · exact eq_of_fields merge_bits_comm (merge_key_comm_iff.mpr compatible.key)
        (merge_limit_comm_iff.mpr compatible.limit)
    · intro new given
      rcases List.mem_pair.mp given with rfl | rfl
      · exact (merge_key_kept parsedFirst).mpr compatible.keyed
      · exact (merge_key_kept parsedSecond).mpr keyed
    · intro new given
      rcases List.mem_pair.mp given with rfl | rfl
      · exact (merge_limit_kept parsedFirst).mpr
          fun negative => (compatible.limited negative).1
      · exact (merge_limit_kept parsedSecond).mpr
          fun negative => (compatible.limited negative).2

end Merge

end Chmode

namespace Chans

variable {s t : Chans} {chptr : ChannelId} {old : Channel} {mode : Chmode}

/-- The channel is found under its old name, with its TS and its services and
with somebody in it. -/
structure Standing (chptr : ChannelId) (old : Channel) (mode : Chmode)
    (s : Chans) : Prop where
  found : ∀ name, irccmp old.name name = true → s.findChannel name = some chptr
  there : ∃ ch, s.channel.cell chptr = some ch ∧ ch.name = old.name ∧
    ch.tsinfo = old.tsinfo ∧ ch.mode = mode ∧
    (∀ service ∈ old.services, service ∈ ch.services) ∧
    (ch.users ≠ [] ∨ ch.services ≠ [])

theorem Standing.not_isFree (standing : Standing chptr old mode s) :
    State.isFree s chptr = false := by
  obtain ⟨ch, used, _, _, _, _, occupied⟩ := standing.there
  rcases occupied with users | services
  · simp [State.isFree, used, users]
  · simp [State.isFree, used, services]

theorem Standing.of_cell {after : Chmode} {ch next : Channel}
    (standing : Standing chptr old mode s) (names : SameNames s t)
    (used : s.channel.cell chptr = some ch)
    (changed : t.channel.cell chptr = some next)
    (stamp : next.tsinfo = ch.tsinfo) (modes : next.mode = after)
    (services : ∀ service ∈ ch.services, service ∈ next.services)
    (occupied : ch.users ≠ [] ∨ ch.services ≠ [] →
      next.users ≠ [] ∨ next.services ≠ []) :
    Standing chptr old after t where
  found := fun name same =>
    (names.findChannel name).trans (standing.found name same)
  there := by
    obtain ⟨face, there, named, stamped, -, inside, full⟩ := standing.there
    rw [used, Option.some.injEq] at there
    subst there
    obtain ⟨face, had, same⟩ := names.cell changed
    rw [used, Option.some.injEq] at had
    subst had
    exact ⟨next, changed, same.symm.trans named, stamp.trans stamped, modes,
      fun service listed => services service (inside service listed),
      occupied full⟩

/-- A change to some channel that leaves its name, its TS and its modes, and
takes no service out. -/
theorem Standing.modify {target : ChannelId} {change : Channel → Channel}
    (standing : Standing chptr old mode s)
    (table : t.channelTable = s.channelTable)
    (channel : t.channel = s.channel.modify target change)
    (kept : ∀ ch, (change ch).name = ch.name ∧
      (change ch).tsinfo = ch.tsinfo ∧ (change ch).mode = ch.mode)
    (services : ∀ ch, ∀ service ∈ ch.services, service ∈ (change ch).services)
    (users : ∀ ch, ch.users ≠ [] → (change ch).users ≠ []) :
    Standing chptr old mode t := by
  obtain ⟨ch, used, -, -, modes, -⟩ := standing.there
  have names : SameNames s t :=
    SameNames.of_modify table channel fun ch => (kept ch).1
  by_cases here : chptr = target
  · have cell : t.channel.cell chptr = some (change ch) := by
      rw [channel, Heap.modify_of_cell used, if_pos here]
    refine standing.of_cell names used cell (kept ch).2.1
      ((kept ch).2.2.trans modes) (services ch) ?_
    rintro (some_ | inside)
    · exact Or.inl (users ch some_)
    · obtain ⟨service, listed⟩ := List.exists_mem_of_ne_nil _ inside
      exact Or.inr (List.ne_nil_of_mem (services ch service listed))
  · have cell : t.channel.cell chptr = some ch := by
      rw [channel, Heap.modify_of_cell used, if_neg here]
    exact standing.of_cell names used cell rfl modes (fun _ => id) id

theorem Standing.addChmember (standing : Standing chptr old mode s)
    (target : ChannelId) (targetP : ClientId) (flags : Word) :
    Standing chptr old mode (s.addChmember target targetP flags).1 := by
  rw [Inv.addChmember_eq]
  refine standing.modify rfl rfl ?_ ?_ ?_
  · intro ch
    unfold Inv.enlist
    split <;> exact ⟨rfl, rfl, rfl⟩
  · intro ch service listed
    unfold Inv.enlist
    split <;> exact listed
  · intro ch _
    unfold Inv.enlist
    split <;> simp [Dlink.add]

theorem Standing.sjoinNick {findUser : CString → Option ClientId}
    {keepNew : Bool} {state : Chans × List MemberId}
    (standing : Standing chptr old mode state.1) (token : CString) :
    Standing chptr old mode
      (State.sjoinNick findUser chptr keepNew state token).1 := by
  unfold State.sjoinNick
  obtain ⟨opped, voiced, nick⟩ := State.nickPrefix token
  dsimp only
  split
  · exact standing
  · split
    · exact standing
    · exact standing.addChmember _ _ _

theorem Standing.sjoinNicks {findUser : CString → Option ClientId}
    {keepNew : Bool} (tokens : List CString)
    {state : Chans × List MemberId}
    (standing : Standing chptr old mode state.1) :
    Standing chptr old mode
      (tokens.foldl (State.sjoinNick findUser chptr keepNew) state).1 := by
  induction tokens generalizing state with
  | nil => exact standing
  | cons token rest ih => exact ih (standing.sjoinNick token)

end Chans

namespace State

open Chans (Standing SameNames)

variable {s : State} {chptr : ChannelId} {old : Channel} {mode : Chmode}

/-- The message is an `SJOIN` for the channel with its own TS. -/
structure SjoinFor (s : State) (chptr : ChannelId) (tsinfo : Int)
    (clientP : ClientId) (parv : List CString) (call : SjoinCall) : Prop where
  read : s.sjoinCall clientP parv = some call
  named : s.chans.findChannel call.target.chname = some chptr
  stamp : call.target.newts = tsinfo

/-- Up to the callbacks on the join, the modes are merged. -/
theorem SjoinCall.entered_standing {call : SjoinCall}
    (nonzero : old.tsinfo ≠ 0) (standing : Standing chptr old mode s.chans)
    (named : irccmp old.name call.target.chname = true)
    (stamp : call.target.newts = old.tsinfo) (env : Env) :
    call.target.chptr s = chptr ∧ (call.lowered s env).clients = s.clients ∧
      Standing chptr old (mergeMode call.newmode mode)
        (call.lowered s env).chans ∧
      Standing chptr old (mergeMode call.newmode mode)
        (call.entered s env).1 := by
  obtain ⟨ch, used, _, channelTs, modes, _, _⟩ := standing.there
  have found := standing.found _ named
  have joined : joinChannel call.target.chname call.target.newts s.chans =
      (s.chans, chptr, true) := by
    simp [joinChannel, found, Heap.get_eq used, stamp, channelTs, nonzero]
  have new : call.target.keepNew s = true := by
    simp [JoinTarget.keepNew, keepNewModes, found, Heap.get_eq used, stamp,
      channelTs]
  have kept : call.target.keepOld s = true := by
    rw [JoinTarget.keepOld, joined]
  have here : call.target.chptr s = chptr := by
    rw [JoinTarget.chptr, joined]
  have unmoved : call.target.found s = s := by
    rw [JoinTarget.found, joined]
  have lowered : call.lowered s env =
      s.onChans (·.modifyChannel chptr fun ch =>
        { ch with mode := mergeMode call.newmode ch.mode }) := by
    rw [SjoinCall.lowered, SjoinCall.merged, JoinTarget.settled, kept, new,
      unmoved, here]
    rfl
  have merged : Standing chptr old (mergeMode call.newmode mode)
      (call.lowered s env).chans := by
    have cell : (call.lowered s env).chans.channel.cell chptr =
        some { ch with mode := mergeMode call.newmode ch.mode } := by
      rw [lowered]
      exact (Heap.modify_of_cell used).trans (congrArg some (if_pos rfl))
    refine standing.of_cell ?_ used cell rfl (by rw [modes]) (fun _ => id) id
    rw [lowered]
    exact SameNames.modifyChannel chptr fun _ => rfl
  refine ⟨here, by rw [lowered]; rfl, merged, ?_⟩
  rw [SjoinCall.entered, here]
  exact Standing.sjoinNicks _ merged

/-- An `SJOIN` as it is received. -/
structure SjoinMessage where
  now : Int
  clientP : ClientId
  parv : List CString

def modesAfter (env : Int → Env) (chptr : ChannelId) (s : State)
    (messages : List SjoinMessage) : Option Chmode :=
  match run (fun s message => s.cSjoin (env message.now) message.now
      message.clientP message.parv) s messages with
  | .ok t => (t.chans.channel.cell chptr).map Channel.mode
  | .error _ => none

/-- The messages make the same of the modes in either order and when one is
repeated, and none takes away a key or a limit that it does not have. -/
structure Converges (env : Int → Env) (chptr : ChannelId) (s : State)
    (old : Chmode) (first second : SjoinMessage) : Prop where
  commutes : modesAfter env chptr s [first, second] =
    modesAfter env chptr s [second, first]
  repeats : ∀ message ∈ [first, second],
    modesAfter env chptr s [message, message] =
      modesAfter env chptr s [message]
  key : ∀ message ∈ [first, second], ∀ call ∈
      s.sjoinCall message.clientP message.parv,
    call.newmode.mode.has modeKey = false → old.key ≠ [] →
      ∀ mode ∈ modesAfter env chptr s [message], mode.key ≠ []
  limit : ∀ message ∈ [first, second], ∀ call ∈
      s.sjoinCall message.clientP message.parv,
    call.newmode.mode.has modeLimit = false → old.limit ≠ 0 →
      ∀ mode ∈ modesAfter env chptr s [message], mode.limit ≠ 0

theorem sjoinCall_congr {t : State} (clients : t.clients = s.clients)
    (clientP : ClientId) (parv : List CString) :
    t.sjoinCall clientP parv = s.sjoinCall clientP parv := by
  unfold sjoinCall
  rw [clients]

end State

end RatboxServices
