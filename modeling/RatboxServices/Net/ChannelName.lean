import RatboxServices.Irc.Match
import RatboxServices.Net.HookCall

namespace RatboxServices

open CString

/-! A channel is found under its name, and no other channel has it. -/

def ChanAct.validName : ChanAct → Bool
  | .join _ chname _ _ _ => Chans.validChname chname
  | _ => true

namespace Chans

/-- Every channel is linked in the bucket of its name, and no two channels have
the same name. -/
structure Named (s : Chans) : Prop where
  table : ∀ hashv, Exactly (s.channelTable hashv)
    (s.channel.Has (Channel.InBucket hashv))
  distinct : ∀ c d ch other, s.channel.cell c = some ch →
    s.channel.cell d = some other → irccmp ch.name other.name = true → c = d

structure SameNames (s t : Chans) : Prop where
  table : t.channelTable = s.channelTable
  names : ∀ c, (t.channel.cell c).map Channel.name =
    (s.channel.cell c).map Channel.name

namespace SameNames

variable {s t u : Chans}

theorem refl (s : Chans) : SameNames s s where
  table := rfl
  names := fun _ => rfl

theorem trans (first : SameNames s t) (second : SameNames t u) :
    SameNames s u where
  table := second.table.trans first.table
  names := fun c => (second.names c).trans (first.names c)

theorem symm (same : SameNames s t) : SameNames t s where
  table := same.table.symm
  names := fun c => (same.names c).symm

theorem cell (same : SameNames s t) {c : ChannelId} {ch : Channel}
    (used : t.channel.cell c = some ch) :
    ∃ old, s.channel.cell c = some old ∧ old.name = ch.name := by
  have names := same.names c
  rw [used, Option.map_some] at names
  exact Option.map_eq_some_iff.mp names.symm

theorem of_modify {target : ChannelId} {change : Channel → Channel}
    (table : t.channelTable = s.channelTable)
    (channel : t.channel = s.channel.modify target change)
    (kept : ∀ ch, (change ch).name = ch.name) : SameNames s t where
  table := table
  names := fun c => by rw [channel, Heap.modify_cell_map kept]

theorem modifyChannel (target : ChannelId) {change : Channel → Channel}
    (kept : ∀ ch, (change ch).name = ch.name) :
    SameNames s (s.modifyChannel target change) :=
  of_modify rfl rfl kept

theorem findChannel (same : SameNames s t) (name : CString) :
    t.findChannel name = s.findChannel name := by
  refine findChannel_congr same.table (fun name => ?_) name
  funext c
  have names := same.names c
  unfold isNamed
  cases there : t.channel.cell c with
  | none =>
      rw [there, Option.map_none] at names
      rw [Option.map_eq_none_iff.mp names.symm]
  | some ch =>
      obtain ⟨old, used, equal⟩ := same.cell there
      rw [used]
      exact congrArg (irccmp · name) equal.symm

theorem addChmember (c : ChannelId) (u : ClientId) (flags : Word) :
    SameNames s (s.addChmember c u flags).1 := by
  rw [Inv.addChmember_eq]
  refine of_modify rfl rfl fun ch => ?_
  unfold Inv.enlist
  split <;> rfl

theorem restatus {t : Chans} {mptr : MemberId} (step : Restatus s mptr t) :
    SameNames s t := by
  cases step with
  | same => exact refl s
  | other => exact of_modify rfl rfl fun _ => rfl

theorem foldl_opChmember (members : List MemberId) :
    SameNames s (members.foldl (fun s mptr => s.opChmember mptr) s) := by
  induction members generalizing s with
  | nil => exact refl s
  | cons mptr rest ih => exact (restatus (.op mptr)).trans ih

theorem removeOurOvModes (chptr : ChannelId) :
    SameNames s (s.removeOurOvModes chptr) := by
  rw [Inv.removeOurOvModes_eq]
  exact of_modify rfl rfl fun _ => rfl

theorem removeOurSimpleModes (chptr : ChannelId) :
    SameNames s (s.removeOurSimpleModes chptr) :=
  modifyChannel chptr fun _ => rfl

theorem removeOurBans (chptr : ChannelId) (bans exceptions invex : Bool) :
    SameNames s (s.removeOurBans chptr bans exceptions invex) :=
  modifyChannel chptr fun _ => rfl

theorem linkService (serviceP : ClientId) (chptr : ChannelId) :
    SameNames s (s.linkService serviceP chptr) :=
  of_modify rfl rfl fun _ => rfl

theorem joinService {serviceP : ClientId} {chname : CString} {tsinfo : Int}
    {mode : Option Chmode} {override : Bool} {now : Int} {chptr : ChannelId}
    (found : s.findChannel chname = some chptr) :
    SameNames s (s.joinService serviceP chname tsinfo mode override now) := by
  unfold Chans.joinService
  rw [found]
  dsimp only
  split
  · exact refl s
  · split
    · exact refl s
    · split
      · refine SameNames.trans ?_ (linkService serviceP chptr)
        exact modifyChannel chptr fun _ => rfl
      · exact linkService serviceP chptr

theorem dropOldModes (chptr : ChannelId) (newts : Int) (removeBans : Bool) :
    SameNames s (State.dropOldModes chptr newts removeBans s) := by
  have lowered : SameNames s (((s.modifyChannel chptr fun ch =>
      { ch with tsinfo := newts }).removeOurSimpleModes chptr
        ).removeOurOvModes chptr) := by
    refine SameNames.trans ?_ (removeOurOvModes chptr)
    refine SameNames.trans (modifyChannel chptr ?_) (modifyChannel chptr ?_)
    · exact fun _ => rfl
    · exact fun _ => rfl
  unfold State.dropOldModes
  dsimp only
  split
  · exact lowered.trans (removeOurBans chptr true true true)
  · exact lowered

theorem lowered (chptr : ChannelId) (exceptions invex invite : Bool) :
    SameNames s ((((s.removeOurSimpleModes chptr).removeOurOvModes chptr
      ).removeOurBans chptr true exceptions invex).modifyChannel chptr
        fun ch =>
          { ch with
            mode := { ch.mode with
              mode := Word.ofBits
                (if invite then [modeTopic, modeNoexternal, modeInviteonly]
                else [modeTopic, modeNoexternal]) }
            tsinfo := ch.tsinfo - 1 }) := by
  exact (((removeOurSimpleModes chptr).trans (removeOurOvModes chptr)).trans
    (removeOurBans chptr true exceptions invex)).trans
      (modifyChannel chptr fun _ => rfl)

end SameNames

def Stays (s t : Chans) : Prop :=
  ∀ c ch, s.channel.cell c = some ch →
    ∃ later, t.channel.cell c = some later ∧ later.name = ch.name

namespace Stays

variable {s t : Chans}

theorem of_same (same : SameNames s t) : Stays s t :=
  fun _ _ used => same.symm.cell used

theorem trans {u : Chans} (first : Stays s t) (second : Stays t u) :
    Stays s u := by
  intro c ch used
  obtain ⟨middle, there, same⟩ := first c ch used
  obtain ⟨later, here, again⟩ := second c middle there
  exact ⟨later, here, again.trans same⟩

theorem createChannel (name : CString) (tsinfo : Int) (mode : Chmode) :
    Stays s (s.createChannel name tsinfo mode).1 :=
  fun _ ch used => ⟨ch, Heap.alloc_cell_of_used used, rfl⟩

theorem joinService (serviceP : ClientId) (chname : CString) (tsinfo : Int)
    (mode : Option Chmode) (override : Bool) (now : Int) :
    Stays s (s.joinService serviceP chname tsinfo mode override now) := by
  cases found : s.findChannel chname with
  | some chptr => exact of_same (SameNames.joinService found)
  | none =>
      intro c ch used
      obtain ⟨new, there, same⟩ := createChannel chname
        (if tsinfo = 0 then now else tsinfo) (serviceMode {} mode) c ch used
      obtain ⟨later, linked, equal⟩ := of_same
        (SameNames.linkService serviceP s.channel.next) c new there
      refine ⟨later, ?_, equal.trans same⟩
      unfold Chans.joinService
      rw [found]
      exact linked

theorem joinChannel (chname : CString) (newts : Int) :
    Stays s (State.joinChannel chname newts s).1 := by
  unfold State.joinChannel
  split
  · exact createChannel chname newts {}
  · dsimp only
    split
    · exact of_same (SameNames.of_modify rfl rfl fun _ => rfl)
    · exact of_same (SameNames.refl s)

end Stays

theorem exists_of_findChannel {s : Chans} {name : CString} {c : ChannelId}
    (found : s.findChannel name = some c) :
    ∃ ch, s.channel.cell c = some ch ∧ irccmp ch.name name = true := by
  have named := List.find?_some found
  unfold isNamed at named
  split at named
  · rename_i ch used
    exact ⟨ch, used, named⟩
  · cases named

namespace Named

variable {s t : Chans} {c : ChannelId} {ch : Channel}

theorem empty : Named Chans.empty where
  table := fun _ => .nil (by simp [Heap.Has, Chans.empty])
  distinct := by simp [Chans.empty]

theorem congr (named : Named s) (same : SameNames s t) : Named t where
  table := by
    intro hashv
    rw [same.table]
    refine (named.table hashv).congr fun c => ?_
    constructor
    · rintro ⟨ch, used, inside⟩
      obtain ⟨new, there, equal⟩ := same.symm.cell used
      exact ⟨new, there, (congrArg hashChannel equal).trans inside⟩
    · rintro ⟨ch, used, inside⟩
      obtain ⟨old, there, equal⟩ := same.cell used
      exact ⟨old, there, (congrArg hashChannel equal).trans inside⟩
  distinct := by
    intro c d ch other first second equal
    obtain ⟨left, usedLeft, nameLeft⟩ := same.cell first
    obtain ⟨right, usedRight, nameRight⟩ := same.cell second
    rw [← nameLeft, ← nameRight] at equal
    exact named.distinct c d left right usedLeft usedRight equal

theorem findChannel (named : Named s) (used : s.channel.cell c = some ch) :
    s.findChannel ch.name = some c := by
  have linked : c ∈ s.channelTable (hashChannel ch.name) :=
    ((named.table _).mem_iff c).mpr ⟨ch, used, rfl⟩
  have isNamed : s.isNamed ch.name c = true := by
    simp [Chans.isNamed, used, irccmp]
  have some : (s.findChannel ch.name).isSome = true :=
    List.find?_isSome.mpr ⟨c, linked, isNamed⟩
  obtain ⟨d, found⟩ := Option.isSome_iff_exists.mp some
  obtain ⟨other, there, equal⟩ := exists_of_findChannel found
  rw [found, named.distinct d c other ch there used equal]

theorem irccmp_eq_false (named : Named s) {name : CString}
    (absent : s.findChannel name = none) (used : s.channel.cell c = some ch) :
    irccmp ch.name name = false := by
  by_contra same
  rw [Bool.not_eq_false] at same
  have linked : c ∈ s.channelTable (hashChannel name) := by
    rw [← hashChannel_cased same]
    exact ((named.table _).mem_iff c).mpr ⟨ch, used, rfl⟩
  refine List.find?_eq_none.mp absent c linked ?_
  simp [Chans.isNamed, used, same]

theorem freeChannel (named : Named s) (target : ChannelId) :
    Named (s.freeChannel target) := by
  unfold Chans.freeChannel
  cases there : s.channel.cell target with
  | none => exact named
  | some gone =>
      have cells : ∀ c ch, (s.channel.free target).cell c = some ch →
          s.channel.cell c = some ch := by
        intro c ch used
        rw [Heap.free_cell] at used
        split at used
        · cases used
        · exact used
      exact {
        table := by
          intro hashv
          simp only [Chans.delChannel, Chans.onBucket, Function.update_apply]
          split
          · rename_i equal
            rw [equal]
            exact (named.table _).free_in
          · rename_i other
            refine (named.table hashv).free_out ?_
            rw [Heap.has_iff there]
            exact Ne.symm other
        distinct := fun c d ch other first second =>
          named.distinct c d ch other (cells c ch first)
            (cells d other second) }

theorem freeIfEmpty (named : Named s) (target : ChannelId) :
    Named (s.freeIfEmpty target) := by
  unfold Chans.freeIfEmpty
  split
  · exact named
  · split
    · exact named.freeChannel target
    · exact named

theorem createChannel (named : Named s) {name : CString} {tsinfo : Int}
    {mode : Chmode} (absent : s.findChannel name = none)
    (fits : name.length ≤ channelLen) :
    Named (s.createChannel name tsinfo mode).1 := by
  have stored : strlcpy (channelLen + 1) name = name := by
    simp [strlcpy, List.take_of_length_le fits]
  have cells : ∀ c ch,
      (s.createChannel name tsinfo mode).1.channel.cell c = some ch →
      (c = s.channel.next ∧ ch.name = name) ∨
        s.channel.cell c = some ch := by
    intro c ch used
    change (Heap.alloc _ _).cell c = some ch at used
    rw [Heap.alloc_cell] at used
    split at used
    · rename_i new
      cases used
      exact Or.inl ⟨new, stored⟩
    · exact Or.inr used
  exact {
    table := by
      intro hashv
      simp only [Chans.createChannel, Chans.addChannel, Chans.onBucket,
        Function.update_apply]
      split
      · rename_i equal
        rw [equal]
        exact (named.table _).alloc_in rfl
      · rename_i different
        exact (named.table hashv).alloc_out (Ne.symm different)
    distinct := by
      intro c d ch other first second equal
      obtain ⟨newLeft, nameLeft⟩ | oldLeft := cells c ch first
      · obtain ⟨newRight, _⟩ | oldRight := cells d other second
        · rw [newLeft, newRight]
        · rw [nameLeft] at equal
          have differs := named.irccmp_eq_false absent oldRight
          rw [irccmp_comm equal] at differs
          cases differs
      · obtain ⟨_, nameRight⟩ | oldRight := cells d other second
        · rw [nameRight, named.irccmp_eq_false absent oldLeft] at equal
          cases equal
        · exact named.distinct c d ch other oldLeft oldRight equal }

theorem fits_of_validChname {name : CString}
    (valid : Chans.validChname name = true) : name.length ≤ channelLen := by
  unfold Chans.validChname at valid
  rw [Bool.and_eq_true, decide_eq_true_eq] at valid
  exact valid.1

theorem joinService (named : Named s) {serviceP : ClientId} {chname : CString}
    {tsinfo : Int} {mode : Option Chmode} {override : Bool} {now : Int}
    (fits : chname.length ≤ channelLen) :
    Named (s.joinService serviceP chname tsinfo mode override now) := by
  cases found : s.findChannel chname with
  | some chptr => exact named.congr (SameNames.joinService found)
  | none =>
      unfold Chans.joinService
      rw [found]
      exact (named.createChannel found fits).congr
        (SameNames.linkService serviceP _)

theorem partService (named : Named s) (serviceP : ClientId)
    (chname : CString) : Named (s.partService serviceP chname).1 := by
  unfold Chans.partService
  split
  · exact named
  · rename_i chptr found
    split
    · exact named
    · split
      · refine Named.freeIfEmpty ?_ chptr
        exact named.congr (SameNames.of_modify rfl rfl fun _ => rfl)
      · exact named

theorem delChmember (named : Named s) (mptr : MemberId) :
    Named (s.delChmember mptr) := by
  cases found : s.member.cell mptr with
  | none => simpa [Chans.delChmember, found] using named
  | some member =>
      rw [Inv.delChmember_eq found]
      refine Named.freeIfEmpty (named.congr ?_) _
      refine SameNames.of_modify rfl rfl fun ch => ?_
      unfold Inv.delist
      split <;> rfl

theorem joinChannel (named : Named s) {chname : CString} {newts : Int}
    (fits : chname.length ≤ channelLen) :
    Named (State.joinChannel chname newts s).1 := by
  unfold State.joinChannel
  split
  · rename_i absent
    exact named.createChannel absent fits
  · rename_i chptr found
    dsimp only
    split
    · exact named.congr (SameNames.of_modify rfl rfl fun _ => rfl)
    · exact named

theorem takeover (named : Named s) (serviceP : ClientId)
    (chptr : ChannelId) (invite exceptions invex : Bool) (now : Int) :
    Named (s.takeover serviceP chptr invite exceptions invex now) := by
  unfold Chans.takeover
  split
  · exact named
  · rename_i ch _
    split
    · exact named
    · have cleared := (named.partService serviceP ch.name).congr
        (SameNames.lowered chptr exceptions invex invite)
      dsimp only
      split
      · exact cleared
      · rename_i later used
        exact cleared.congr (SameNames.joinService (cleared.findChannel used))

theorem exec (named : Named s) (now : Int) {act : ChanAct}
    (fits : act.validName = true) : Named (act.exec now s) := by
  cases act with
  | op mptr => exact named.congr (.restatus (.op mptr))
  | deop mptr => exact named.congr (.restatus (.deop mptr))
  | voice mptr => exact named.congr ⟨rfl, fun _ => rfl⟩
  | devoice mptr => exact named.congr ⟨rfl, fun _ => rfl⟩
  | kick mptr => exact named.delChmember mptr
  | enforce chptr emode =>
      exact named.congr (SameNames.of_modify rfl rfl fun _ => rfl)
  | setTopic chptr topic topicwho tsinfo =>
      exact named.congr (SameNames.of_modify rfl rfl fun _ => rfl)
  | addBan chptr mask =>
      exact named.congr (SameNames.of_modify rfl rfl fun _ => rfl)
  | delBan chptr mask =>
      exact named.congr (SameNames.of_modify rfl rfl fun _ => rfl)
  | removeModes chptr =>
      exact named.congr (SameNames.removeOurSimpleModes chptr)
  | removeOv chptr => exact named.congr (SameNames.removeOurOvModes chptr)
  | removeBans chptr bans exceptions invex =>
      exact named.congr (SameNames.removeOurBans chptr bans exceptions invex)
  | join serviceP chname tsinfo mode override =>
      exact named.joinService (fits_of_validChname fits)
  | part serviceP chname => exact named.partService serviceP chname
  | takeover serviceP chptr invite exceptions invex =>
      exact named.takeover serviceP chptr invite exceptions invex now

end Named

end Chans

end RatboxServices
