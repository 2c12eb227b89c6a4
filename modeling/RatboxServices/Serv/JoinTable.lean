import Mathlib.Tactic.IntervalCases
import RatboxServices.Net.Station
import RatboxServices.Serv.ChanNotes

namespace RatboxServices

open CString

/-! The table `operbot`: the channels that OperBot was sent to and joins again
after a restart. -/

structure JoinRow where
  chname : CString
  tsinfo : Int
  oper : CString
  deriving DecidableEq, Repr

structure OperBot where
  net : State
  rows : List JoinRow

/-- `rb_dlinkFind` on the services of the channel of a name. -/
def Chans.hasService (service : ClientId) (chname : CString) (s : Chans) :
    Bool :=
  match s.findChannel chname with
  | none => false
  | some chptr => Dlink.find service (s.channel.get chptr).services

namespace OperBot

variable (operbotP : ClientId)

/-- `operbot_db_callback`. -/
def operbotDbCallback (now : Int) (s : Chans) (row : JoinRow) : Chans :=
  s.joinService operbotP row.chname row.tsinfo none false now

/-- `init_s_operbot`, behind the start of the daemon. -/
def initSOperbot (now : Int) (net : State) (rows : List JoinRow) :
    OperBot where
  net := net.onChans fun chans =>
    rows.foldl (operbotDbCallback operbotP now) chans
  rows := rows

/-- `h_operbot_sjoin_lowerts`. -/
def hOperbotSjoinLowerts (chptr : ChannelId) (s : OperBot) : OperBot :=
  let ch := s.net.chans.channel.get chptr
  if Dlink.find operbotP ch.services then
    { s with
      rows := s.rows.map fun row =>
        if row.chname == lcase ch.name then { row with tsinfo := ch.tsinfo }
        else row }
  else s

/-- `o_operbot_objoin`. -/
def oOperbotObjoin (now : Int) (chname oper : CString) (s : OperBot) :
    OperBot :=
  if !Chans.validChname chname then s
  else if s.net.chans.hasService operbotP chname then s
  else
    let tsinfo :=
      match s.net.chans.findChannel chname with
      | some chptr => (s.net.chans.channel.get chptr).tsinfo
      | none => now
    { net := s.net.onChans
        (·.joinService operbotP chname tsinfo none false now)
      rows := s.rows ++ [⟨lcase chname, tsinfo, oper⟩] }

/-- `o_operbot_obpart`. -/
def oOperbotObpart (chname : CString) (s : OperBot) : OperBot :=
  let (chans, parted) := s.net.chans.partService operbotP chname
  if parted then
    { net := s.net.onChans fun _ => chans
      rows := s.rows.filter fun row => row.chname != lcase chname }
  else s

end OperBot

inductive OperBotEvent where
  /-- What the daemon does otherwise. -/
  | daemon (event : Event)
  | objoin (now : Int) (chname oper : CString)
  | obpart (chname : CString)
  | lowerts (chptr : ChannelId)
  | restart (now : Int) (blocks : List ServiceBlock) (pingTime : Int)

namespace OperBot

def step (env : Env) (operbotP : ClientId) (s : OperBot) :
    OperBotEvent → Except Stop OperBot
  | .daemon event => do
      let net ← s.net.step env event
      .ok { s with net := net }
  | .objoin now chname oper => .ok (s.oOperbotObjoin operbotP now chname oper)
  | .obpart chname => .ok (s.oOperbotObpart operbotP chname)
  | .lowerts chptr => .ok (s.hOperbotSjoinLowerts operbotP chptr)
  | .restart now blocks pingTime =>
      .ok (initSOperbot operbotP now (State.start blocks pingTime) s.rows)

end OperBot

theorem toUpper_toLower (c : Char) : toUpper (toLower c) = toUpper c := by
  unfold toLower
  split
  · rename_i bounds
    have low : 65 ≤ c.toNat := bounds.1
    have high : c.toNat ≤ 94 := bounds.2
    rw [← Char.ofNat_toNat c]
    generalize c.toNat = n at low high
    interval_cases n <;> decide
  · rfl

theorem lcase_eq {name : CString} (short : name.length ≤ channelLen) :
    lcase name = name.map toLower := by
  unfold lcase strlcpy
  rw [List.take_of_length_le]
  exact Nat.le_trans short (by decide)

theorem lcase_eq_iff {left right : CString} (short : left.length ≤ channelLen)
    (short' : right.length ≤ channelLen) :
    lcase left = lcase right ↔ irccmp left right = true := by
  rw [lcase_eq short, lcase_eq short', irccmp_iff]
  constructor
  · intro same
    have upper := congrArg (List.map toUpper) same
    simpa [List.map_map, Function.comp_def, toUpper_toLower] using upper
  · intro same
    have lower := congrArg (List.map toLower) same
    simpa [List.map_map, Function.comp_def, toLower_toUpper] using lower

namespace Chans

variable {service : ClientId} {s t : Chans} {c : ChannelId} {chname : CString}
  {names : List CString}

structure Records (service : ClientId) (s : Chans) (names : List CString) :
    Prop where
  named : s.Named
  nodup : names.Nodup
  proper : ∀ name ∈ names, validChname name = true ∧ lcase name = name
  single : ∀ c name k, s.station service c = some (name, k) →
    k = 1 ∧ name.length ≤ channelLen ∧ lcase name ∈ names
  there : ∀ row ∈ names, ∃ c name,
    s.station service c = some (name, 1) ∧ lcase name = row

theorem Moors.records (moors : Moors service s t)
    (records : Records service s names) : Records service t names := by
  obtain ⟨named, same⟩ := moors records.named
  refine ⟨named, records.nodup, records.proper, ?_, ?_⟩
  · rw [same]
    exact records.single
  · rw [same]
    exact records.there

theorem exists_of_station {k : Nat} {name : CString}
    (here : s.station service c = some (name, k)) :
    ∃ ch, s.channel.cell c = some ch ∧ ch.name = name ∧
      service ∈ ch.services := by
  obtain ⟨ch, used, berth⟩ := Option.bind_eq_some_iff.mp here
  unfold Channel.berth at berth
  split at berth
  · cases berth
  · rename_i listed
    cases berth
    exact ⟨ch, used, rfl, List.count_pos_iff.mp (Nat.pos_of_ne_zero listed)⟩

theorem linkService_station {ch : Channel}
    (used : s.channel.cell c = some ch)
    (out : ch.services.count service = 0) (d : ChannelId) :
    (s.linkService service c).station service d =
      if d = c then some (ch.name, 1) else s.station service d := by
  split
  · rename_i same
    subst same
    rw [station_of_cell ((Heap.modify_of_cell used).trans
      (congrArg some (if_pos rfl)))]
    simp [Channel.berth, Dlink.add, out]
  · rename_i other
    show (((s.channel.modify c _).cell d).bind _) = _
    rw [Heap.modify_cell_of_ne _ _ other]
    rfl

theorem joinService_station (named : s.Named)
    (fits : chname.length ≤ channelLen) {tsinfo now : Int}
    (absent : s.hasService service chname = false) :
    (s.joinService service chname tsinfo none false now).Named ∧
      ∃ c name, irccmp name chname = true ∧ s.station service c = none ∧ ∀ d,
        (s.joinService service chname tsinfo none false now).station service
          d = if d = c then some (name, 1) else s.station service d := by
  refine ⟨named.joinService fits, ?_⟩
  unfold hasService at absent
  unfold joinService
  cases found : s.findChannel chname with
  | none =>
      refine ⟨s.channel.next, chname, irccmp_iff.mpr rfl, ?_, fun d => ?_⟩
      · rw [station, Heap.cell_next]
        rfl
      have created : Moors service s (s.createChannel chname
          (if tsinfo = 0 then now else tsinfo) (serviceMode {} none)).1 :=
        .createChannel found fits
      rw [← (created named).2]
      have stored : strlcpy (channelLen + 1) chname = chname := by
        simp [strlcpy, List.take_of_length_le fits]
      refine (linkService_station (s.channel.alloc_cell_next _) rfl d).trans ?_
      exact congrArg (fun name =>
        if d = s.channel.next then some (name, 1) else _) stored
  | some c =>
      obtain ⟨ch, used, same⟩ := exists_of_findChannel found
      have out : service ∉ ch.services := by
        simpa [found, Heap.get, used, Dlink.find] using absent
      have none_ := List.count_eq_zero.mpr out
      refine ⟨c, ch.name, same, ?_, fun d => ?_⟩
      · rw [station_of_cell used, Channel.berth, if_pos none_]
      dsimp only
      rw [used]
      dsimp only
      rw [if_neg (by simpa [Dlink.find] using out), Bool.false_and,
        if_neg Bool.false_ne_true]
      exact linkService_station used none_ d

theorem partService_station (records : Records service s names)
    (parted : (s.partService service chname).2 = true) :
    (s.partService service chname).1.Named ∧
      ∃ c name, irccmp name chname = true ∧
        s.station service c = some (name, 1) ∧ ∀ d,
          (s.partService service chname).1.station service d =
            if d = c then none else s.station service d := by
  refine ⟨records.named.partService service chname, ?_⟩
  unfold partService at parted ⊢
  cases found : s.findChannel chname with
  | none =>
      rw [found] at parted
      cases parted
  | some c =>
      obtain ⟨ch, used, same⟩ := exists_of_findChannel found
      rw [found] at parted
      dsimp only at parted ⊢
      rw [used] at parted ⊢
      dsimp only at parted ⊢
      split at parted
      · rename_i inside
        rw [if_pos inside]
        have listed : service ∈ ch.services := of_decide_eq_true inside
        have here : s.station service c =
            some (ch.name, ch.services.count service) := by
          rw [station_of_cell used, Channel.berth, if_neg]
          exact (List.count_pos_iff.mpr listed).ne'
        obtain ⟨once, -⟩ := records.single c _ _ here
        refine ⟨c, ch.name, same, once ▸ here, fun d => ?_⟩
        have left : Chans.Named (onServiceChannels service
            (Dlink.findDestroy c) (s.modifyChannel c fun ch => { ch with
              services := Dlink.findDestroy service ch.services })) :=
          records.named.congr (SameNames.of_modify rfl rfl fun _ => rfl)
        rw [((Moors.freeIfEmpty c) left).2]
        split
        · rename_i same
          subst same
          rw [station_of_cell ((Heap.modify_of_cell used).trans
            (congrArg some (if_pos rfl)))]
          simp [Channel.berth, Dlink.findDestroy, once]
        · rename_i other
          show (((s.channel.modify c _).cell d).bind _) = _
          rw [Heap.modify_cell_of_ne _ _ other]
          rfl
      · cases parted

theorem hasService_iff (named : s.Named) :
    s.hasService service chname = true ↔
      ∃ c name k, s.station service c = some (name, k) ∧
        irccmp name chname = true := by
  unfold hasService
  constructor
  · intro inside
    split at inside
    · cases inside
    · rename_i c found
      obtain ⟨ch, used, same⟩ := exists_of_findChannel found
      have listed : service ∈ ch.services := by
        simpa [Heap.get, used, Dlink.find] using inside
      refine ⟨c, ch.name, ch.services.count service, ?_, same⟩
      rw [station_of_cell used, Channel.berth,
        if_neg (List.count_pos_iff.mpr listed).ne']
  · rintro ⟨c, name, k, here, same⟩
    obtain ⟨ch, used, rfl, listed⟩ := exists_of_station here
    cases found : s.findChannel chname with
    | none =>
        rw [named.irccmp_eq_false found used] at same
        cases same
    | some d =>
        obtain ⟨other, there, also⟩ := exists_of_findChannel found
        have equal := irccmp_iff.mpr
          ((irccmp_iff.mp same).trans (irccmp_iff.mp also).symm)
        obtain rfl := named.distinct c d ch other used there equal
        simpa [Heap.get, used, Dlink.find] using listed

namespace Records

theorem mem_iff (records : Records service s names)
    (short : chname.length ≤ channelLen) :
    lcase chname ∈ names ↔ s.hasService service chname = true := by
  rw [hasService_iff records.named]
  constructor
  · intro listed
    obtain ⟨c, name, here, same⟩ := records.there _ listed
    obtain ⟨-, fits, -⟩ := records.single c name 1 here
    exact ⟨c, name, 1, here, (lcase_eq_iff fits short).mp same⟩
  · rintro ⟨c, name, k, here, same⟩
    obtain ⟨-, fits, listed⟩ := records.single c name k here
    rw [← (lcase_eq_iff fits short).mpr same]
    exact listed

theorem join (records : Records service s names) {tsinfo now : Int}
    (valid : validChname chname = true) (absent : lcase chname ∉ names) :
    Records service (s.joinService service chname tsinfo none false now)
      (names ++ [lcase chname]) := by
  have short := Named.fits_of_validChname valid
  have outside : s.hasService service chname = false := by
    rw [records.mem_iff short] at absent
    simpa using absent
  obtain ⟨named, c, name, same, free, stations⟩ :=
    joinService_station records.named short outside
  have length : name.length = chname.length := by
    simpa using congrArg List.length (irccmp_iff.mp same)
  have lower : lcase name = lcase chname :=
    (lcase_eq_iff (length ▸ short) short).mpr same
  refine ⟨named, ?_, ?_, ?_, ?_⟩
  · exact List.nodup_append.mpr ⟨records.nodup, List.nodup_singleton _,
      fun row listed new last => by
        rw [List.mem_singleton.mp last]
        exact fun same => absent (same ▸ listed)⟩
  · intro row listed
    obtain old | new := List.mem_append.mp listed
    · exact records.proper row old
    · rw [List.mem_singleton.mp new]
      exact ⟨NoteState.validChname_lcase valid, lcase_lcase chname⟩
  · intro d other k here
    rw [stations] at here
    split at here
    · cases here
      exact ⟨rfl, length ▸ short, by simp [lower]⟩
    · obtain ⟨once, fits, listed⟩ := records.single d other k here
      exact ⟨once, fits, List.mem_append_left _ listed⟩
  · intro row listed
    obtain old | new := List.mem_append.mp listed
    · obtain ⟨d, other, here, called⟩ := records.there row old
      refine ⟨d, other, ?_, called⟩
      rw [stations, if_neg]
      · exact here
      · rintro rfl
        rw [free] at here
        cases here
    · rw [List.mem_singleton.mp new]
      exact ⟨c, name, by rw [stations, if_pos rfl], lower⟩

theorem part (records : Records service s names)
    (parted : (s.partService service chname).2 = true) :
    Records service (s.partService service chname).1
      (names.filter (· != lcase chname)) := by
  obtain ⟨named, c, name, same, here, stations⟩ :=
    partService_station records parted
  obtain ⟨-, fits, listed⟩ := records.single c name 1 here
  have length : name.length = chname.length := by
    simpa using congrArg List.length (irccmp_iff.mp same)
  have lower : lcase name = lcase chname :=
    (lcase_eq_iff fits (length ▸ fits)).mpr same
  -- no other channel is recorded under the name
  have apart : ∀ d other k, s.station service d = some (other, k) → d ≠ c →
      lcase other ≠ lcase chname := by
    intro d other k there different equal
    obtain ⟨-, short, -⟩ := records.single d other k there
    obtain ⟨left, used, rfl, -⟩ := exists_of_station there
    obtain ⟨right, used', rfl, -⟩ := exists_of_station here
    exact different (records.named.distinct d c left right used used'
      ((lcase_eq_iff short fits).mp (equal.trans lower.symm)))
  refine ⟨named, records.nodup.filter _, ?_, ?_, ?_⟩
  · exact fun row kept => records.proper row (List.mem_filter.mp kept).1
  · intro d other k there
    rw [stations] at there
    split at there
    · cases there
    · rename_i different
      obtain ⟨once, short, old⟩ := records.single d other k there
      refine ⟨once, short, List.mem_filter.mpr ⟨old, ?_⟩⟩
      exact bne_iff_ne.mpr (apart d other k there different)
  · intro row kept
    obtain ⟨old, other⟩ := List.mem_filter.mp kept
    obtain ⟨d, called, there, same⟩ := records.there row old
    refine ⟨d, called, ?_, same⟩
    rw [stations, if_neg]
    · exact there
    · rintro rfl
      rw [here, Option.some.injEq, Prod.mk.injEq] at there
      rw [← same, ← there.1, lower] at other
      simp at other

theorem empty : Records service Chans.empty [] where
  named := .empty
  nodup := List.nodup_nil
  proper := fun _ listed => nomatch listed
  single := fun _ _ _ here => nomatch here
  there := fun _ listed => nomatch listed

theorem rejoin (records : Records service s names) (now : Int)
    {rows : List JoinRow}
    (nodup : (names ++ rows.map JoinRow.chname).Nodup)
    (proper : ∀ name ∈ rows.map JoinRow.chname,
      validChname name = true ∧ lcase name = name) :
    Records service (rows.foldl (OperBot.operbotDbCallback service now) s)
      (names ++ rows.map JoinRow.chname) := by
  induction rows generalizing s names with
  | nil => simpa using records
  | cons row rest ih =>
      obtain ⟨valid, lower⟩ := proper row.chname (by simp)
      rw [List.map_cons, List.append_cons] at nodup ⊢
      have fresh : lcase row.chname ∉ names := by
        rw [lower]
        have parts := (List.nodup_append.mp nodup).1
        exact fun listed => (List.nodup_append.mp parts).2.2 _ listed _
          (List.mem_singleton_self _) rfl
      have joined : Records service
          (OperBot.operbotDbCallback service now s row)
          (names ++ [lcase row.chname]) := records.join valid fresh
      rw [lower] at joined
      exact ih joined nodup fun name later =>
        proper name (List.mem_cons_of_mem _ later)

end Records

end Chans

namespace OperBot

variable {env : Env} {operbotP : ClientId} {s : OperBot}

def Kept (operbotP : ClientId) (s : OperBot) : Prop :=
  Chans.Records operbotP s.net.chans (s.rows.map JoinRow.chname)

theorem Kept.restart (kept : Kept operbotP s) (now : Int)
    (blocks : List ServiceBlock) (pingTime : Int) :
    Kept operbotP
      (initSOperbot operbotP now (State.start blocks pingTime) s.rows) := by
  have empty : Chans.Records operbotP Chans.empty [] := .empty
  exact empty.rejoin now kept.nodup kept.proper

theorem Kept.objoin (kept : Kept operbotP s) (now : Int)
    (chname oper : CString) :
    Kept operbotP (s.oOperbotObjoin operbotP now chname oper) := by
  unfold oOperbotObjoin
  split
  · exact kept
  · rename_i valid
    rw [Bool.not_eq_true, Bool.not_eq_false'] at valid
    split
    · exact kept
    · rename_i outside
      have fresh := mt (kept.mem_iff (Chans.Named.fits_of_validChname valid)).mp
        outside
      show Chans.Records _ _ ((s.rows ++ [_]).map JoinRow.chname)
      rw [List.map_append]
      exact kept.join valid fresh

theorem Kept.obpart (kept : Kept operbotP s) (chname : CString) :
    Kept operbotP (s.oOperbotObpart operbotP chname) := by
  unfold oOperbotObpart
  dsimp only
  split
  · rename_i parted
    have left := kept.part parted
    rw [List.filter_map] at left
    exact left
  · exact kept

theorem hOperbotSjoinLowerts_rows (chptr : ChannelId) :
    (s.hOperbotSjoinLowerts operbotP chptr).rows.map JoinRow.chname =
      s.rows.map JoinRow.chname := by
  unfold hOperbotSjoinLowerts
  dsimp only
  split
  · rw [List.map_map]
    refine List.map_congr_left fun row _ => ?_
    dsimp only [Function.comp_apply]
    split <;> rfl
  · rfl

theorem Kept.lowerts (kept : Kept operbotP s) (chptr : ChannelId) :
    Kept operbotP (s.hOperbotSjoinLowerts operbotP chptr) := by
  have net : (s.hOperbotSjoinLowerts operbotP chptr).net = s.net := by
    unfold hOperbotSjoinLowerts
    dsimp only
    split <;> rfl
  rw [Kept, net, hOperbotSjoinLowerts_rows]
  exact kept

def EventSpares (operbotP : ClientId) : OperBotEvent → Prop
  | .daemon event => State.EventSpares operbotP event
  | _ => True

theorem step_kept (spares : env.Spares operbotP) {event : OperBotEvent}
    (foreign : EventSpares operbotP event) (kept : Kept operbotP s) :
    Ensures (Kept operbotP) (s.step env operbotP event) := by
  cases event with
  | daemon event =>
      exact Outcome.bind (State.step_moors spares foreign) fun net moors =>
        moors.records kept
  | objoin now chname oper => exact kept.objoin now chname oper
  | obpart chname => exact kept.obpart chname
  | lowerts chptr => exact kept.lowerts chptr
  | restart now blocks pingTime => exact kept.restart now blocks pingTime

/-- In every run, the table has one row for each channel that OperBot is in and
no other, and a restart brings it back to the same channels. -/
theorem table_of_run {blocks : List ServiceBlock} {pingTime : Int}
    {events : List OperBotEvent} (spares : env.Spares operbotP)
    (foreign : ∀ event ∈ events, EventSpares operbotP event)
    (reached : run (step env operbotP)
      ⟨.start blocks pingTime, []⟩ events = .ok s) :
    (s.rows.map JoinRow.chname).Nodup ∧
      ∀ chname, Chans.validChname chname = true →
        (lcase chname ∈ s.rows.map JoinRow.chname ↔
          s.net.chans.hasService operbotP chname = true) ∧
        ∀ now blocks pingTime,
          (initSOperbot operbotP now (.start blocks pingTime)
            s.rows).net.chans.hasService operbotP chname =
            s.net.chans.hasService operbotP chname := by
  have start : Kept operbotP ⟨.start blocks pingTime, []⟩ :=
    Chans.Records.empty
  have kept : Kept operbotP s :=
    run_preserves_of_meets (Kept operbotP)
      (fun _ _ _ foreign kept stepped =>
        (step_kept spares foreign kept).of_ok stepped)
      (meets_of_mem (fun event listed _ => foreign event listed) _)
      start reached
  refine ⟨kept.nodup, fun chname valid => ?_⟩
  have short := Chans.Named.fits_of_validChname valid
  refine ⟨kept.mem_iff short, fun now blocks pingTime => ?_⟩
  rw [Bool.eq_iff_iff, ← kept.mem_iff short]
  exact ((kept.restart now blocks pingTime).mem_iff short).symm

def sent : List OperBotEvent :=
  (linkUp
    [⟨":0AB UID one 1 5 +i u h 0 0ABAAAAAA :g".toList, false⟩,
      ⟨":0AB SJOIN 100 #a +nt :@0ABAAAAAA".toList, false⟩]).map .daemon ++
  [.objoin 2 "#A".toList "oper".toList, .objoin 3 "#B".toList "oper".toList,
    .daemon (.read 4 false .again
      [⟨":0AB SJOIN 50 #a +s :0ABAAAAAA".toList, false⟩,
        ⟨":0ABAAAAAA PART #a".toList, false⟩]), .lowerts 0,
    .restart 5 [{ name := "OPERBOT".toList, uid := "1SVAAAAAA".toList }] 300,
    .objoin 6 "#a".toList "other".toList, .obpart "#b".toList]

theorem table_of_sent :
    ∃ s, run (step .quiet 0)
        ⟨.start [{ name := "OPERBOT".toList, uid := "1SVAAAAAA".toList }] 300,
          []⟩ sent = .ok s ∧
      s.rows = [⟨"#a".toList, 50, "oper".toList⟩] ∧
      s.net.chans.hasService 0 "#A".toList = true ∧
      s.net.chans.hasService 0 "#b".toList = false := by
  have observed : (run (step .quiet 0)
      ⟨.start [{ name := "OPERBOT".toList, uid := "1SVAAAAAA".toList }] 300,
        []⟩ sent).toOption.map OperBot.rows =
      some [⟨"#a".toList, 50, "oper".toList⟩] := by
    decide +kernel
  obtain ⟨s, reached, rows⟩ := Except.exists_of_observed observed
  have foreign : ∀ event ∈ sent, EventSpares 0 event := by
    simp [sent, linkUp, EventSpares, State.EventSpares]
  obtain ⟨-, table⟩ := table_of_run (State.quiet_spares 0) foreign reached
  refine ⟨s, reached, rows, ?_, ?_⟩
  · rw [← (table "#A".toList (by decide)).1, rows]
    decide
  · rw [← Bool.not_eq_true, ← (table "#b".toList (by decide)).1, rows]
    decide

end OperBot

end RatboxServices
