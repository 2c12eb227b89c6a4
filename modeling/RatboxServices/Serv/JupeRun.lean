import RatboxServices.Serv.Jupes

namespace RatboxServices

open CString

namespace ServerJupe

def total (jupe : ServerJupe) : Nat :=
  (jupe.servers.map JupeRequest.score).sum

/-- A vote on a name, for a jupe if it is not active and against it if it is:
the servers that called are distinct, and the points say what they counted. -/
structure IsVote (conf : JupeConf) (active : List ServerJupe)
    (jupe : ServerJupe) : Prop where
  distinct : (jupe.servers.map fun request => request.server.map toUpper).Nodup
  add_iff : jupe.add = true ↔ ∀ other ∈ active, other.key ≠ jupe.key
  named : jupe.add = false → ∃ other ∈ active, other.name = jupe.name
  points : jupe.points =
    if jupe.add then (jupe.total : Int) else conf.unjupeScore - jupe.total

structure IsOpen (conf : JupeConf) (active : List ServerJupe)
    (jupe : ServerJupe) : Prop extends jupe.IsVote conf active where
  below : jupe.total < if jupe.add then conf.jupeScore else conf.unjupeScore

variable {conf : JupeConf} {jupe : ServerJupe} {active : List ServerJupe}

theorem IsOpen.congr {other : List ServerJupe}
    (isOpen : jupe.IsOpen conf active)
    (same : ∀ entry : ServerJupe, entry.key = jupe.key →
      (entry ∈ active ↔ entry ∈ other)) : jupe.IsOpen conf other where
  distinct := isOpen.distinct
  add_iff := by
    rw [isOpen.add_iff]
    constructor
    · intro absent entry listed key
      exact absent entry ((same entry key).mpr listed) key
    · intro absent entry listed key
      exact absent entry ((same entry key).mp listed) key
  named := by
    intro removal
    obtain ⟨entry, listed, name⟩ := isOpen.named removal
    exact ⟨entry, (same entry (congrArg (List.map toUpper) name)).mp listed,
      name⟩
  points := isOpen.points
  below := isOpen.below

end ServerJupe

namespace JupeServ

structure Consistent (conf : JupeConf) (s : JupeServ) : Prop where
  active : UniqueKeys ServerJupe.key s.active
  pending : UniqueKeys ServerJupe.key s.pending
  isOpen : ∀ jupe ∈ s.pending, jupe.IsOpen conf s.active
  rows : s.jupes.Perm (s.active.map ServerJupe.row)

variable {conf : JupeConf} {s : JupeServ} {jupe : ServerJupe} {name : CString}

theorem irccmp_eq (jupe : ServerJupe) (name : CString) :
    irccmp jupe.name name = decide (jupe.key = name.map toUpper) := by
  rw [Bool.eq_iff_iff, irccmp_iff, decide_eq_true_iff]
  rfl

theorem findJupe_eq (name : CString) (list : List ServerJupe) :
    findJupe name list = findKey ServerJupe.key (name.map toUpper) list := by
  simp only [findJupe, findKey, irccmp_eq]

theorem deleteJupe_eq (name : CString) (list : List ServerJupe) :
    deleteJupe name list = eraseKey ServerJupe.key (name.map toUpper) list := by
  simp only [deleteJupe, eraseKey, irccmp_eq]

theorem findJupe_eq_none_iff {list : List ServerJupe} :
    findJupe name list = none ↔
      ∀ jupe ∈ list, jupe.key ≠ name.map toUpper := by
  rw [findJupe_eq, findKey_eq_none_iff]

theorem isSome_findJupe {list : List ServerJupe} :
    (findJupe name list).isSome = true ↔
      ∃ jupe ∈ list, jupe.key = name.map toUpper := by
  rw [Option.isSome_iff_ne_none, ne_eq, findJupe_eq_none_iff]
  simp

theorem key_of_findJupe {list : List ServerJupe}
    (found : findJupe name list = some jupe) : jupe.key = name.map toUpper := by
  rw [findJupe_eq] at found
  exact key_of_findKey found

theorem mem_of_findJupe {list : List ServerJupe}
    (found : findJupe name list = some jupe) : jupe ∈ list :=
  List.mem_of_find?_eq_some found

theorem mem_deleteJupe {list : List ServerJupe}
    (unique : UniqueKeys ServerJupe.key list) :
    jupe ∈ deleteJupe name list ↔
      jupe ∈ list ∧ jupe.key ≠ name.map toUpper := by
  rw [deleteJupe_eq, unique.mem_eraseKey]

theorem deleteJupe_sublist (name : CString) (list : List ServerJupe) :
    (deleteJupe name list).Sublist list :=
  List.eraseP_sublist

namespace Consistent

theorem empty : JupeServ.empty.Consistent conf where
  active := .nil
  pending := .nil
  isOpen _ listed := nomatch listed
  rows := .nil

theorem drop (consistent : s.Consistent conf) {pending : List ServerJupe}
    (part : pending.Sublist s.pending) :
    Consistent conf { s with pending := pending } where
  active := consistent.active
  pending := consistent.pending.sublist part
  isOpen jupe listed := consistent.isOpen jupe (part.subset listed)
  rows := consistent.rows

theorem addJupe (consistent : s.Consistent conf)
    (absent : ∀ other ∈ s.active, other.key ≠ jupe.key) :
    (s.addJupe jupe).Consistent conf where
  active := UniqueKeys.cons_iff.mpr ⟨absent, consistent.active⟩
  pending := consistent.pending.sublist (deleteJupe_sublist ..)
  isOpen := by
    intro entry listed
    obtain ⟨before, different⟩ := (mem_deleteJupe consistent.pending).mp listed
    refine (consistent.isOpen entry before).congr fun other key => ?_
    have distinct : other ≠ jupe := by
      rintro rfl
      exact different key.symm
    show other ∈ s.active ↔ other ∈ jupe :: s.active
    rw [List.mem_cons]
    exact ⟨.inr, fun listed => listed.resolve_left distinct⟩
  rows := List.perm_append_singleton .. |>.trans (consistent.rows.cons jupe.row)

theorem filter_rows (consistent : s.Consistent conf) {active : ServerJupe}
    (listed : active ∈ s.active) :
    (s.jupes.filter fun row => row.1 ≠ active.name).Perm
      ((deleteJupe active.name s.active).map ServerJupe.row) := by
  have same : s.active.filter (fun jupe => decide (jupe.name ≠ active.name)) =
      deleteJupe active.name s.active := by
    rw [deleteJupe_eq, consistent.active.eraseKey_eq_filter]
    refine List.filter_congr fun jupe member => ?_
    rw [decide_eq_decide, not_iff_not]
    constructor
    · exact congrArg (List.map toUpper)
    · intro key
      rw [consistent.active.eq_of_key member listed key]
  refine (consistent.rows.filter _).trans ?_
  rw [List.filter_map]
  exact List.Perm.of_eq (congrArg (List.map ServerJupe.row) same)

theorem removeJupe (consistent : s.Consistent conf) {active : ServerJupe}
    (listed : active ∈ s.active) (name : jupe.name = active.name) :
    (s.removeJupe jupe).Consistent conf where
  active := consistent.active.sublist (deleteJupe_sublist ..)
  pending := consistent.pending.sublist (deleteJupe_sublist ..)
  isOpen := by
    intro entry member
    obtain ⟨before, different⟩ := (mem_deleteJupe consistent.pending).mp member
    refine (consistent.isOpen entry before).congr fun other key => ?_
    show other ∈ s.active ↔ other ∈ deleteJupe jupe.name s.active
    rw [mem_deleteJupe consistent.active]
    exact ⟨fun there => ⟨there, key.trans_ne different⟩, And.left⟩
  rows := by
    show (s.jupes.filter fun row => row.1 ≠ jupe.name).Perm
      ((deleteJupe jupe.name s.active).map ServerJupe.row)
    rw [name]
    exact consistent.filter_rows listed

theorem setPending (consistent : s.Consistent conf)
    (isOpen : jupe.IsOpen conf s.active) :
    (s.setPending jupe).Consistent conf where
  active := consistent.active
  pending := consistent.pending.put jupe
  isOpen := by
    intro entry listed
    obtain rfl | ⟨before, -⟩ := consistent.pending.mem_putKey.mp listed
    · exact isOpen
    · exact consistent.isOpen entry before
  rows := consistent.rows

theorem loadJupes_perm (rows : List (CString × CString)) :
    ((loadJupes rows).map ServerJupe.row).Perm rows := by
  have loaded (before : List ServerJupe) :
      ((rows.foldl (fun active row =>
          { makeJupe row.1 with reason := row.2 } :: active) before).map
        ServerJupe.row).Perm (before.map ServerJupe.row ++ rows) := by
    induction rows generalizing before with
    | nil => simp
    | cons row rows ih =>
        refine (ih _).trans ?_
        exact List.perm_middle.symm
  exact loaded []

theorem restart (consistent : s.Consistent conf) :
    s.restart.Consistent conf where
  active := by
    have keys (list : List ServerJupe) : list.map ServerJupe.key =
        (list.map ServerJupe.row).map fun row => row.1.map toUpper := by
      rw [List.map_map]
      rfl
    have same : ((loadJupes s.jupes).map ServerJupe.row).Perm
        (s.active.map ServerJupe.row) :=
      (loadJupes_perm s.jupes).trans consistent.rows
    show ((loadJupes s.jupes).map ServerJupe.key).Nodup
    rw [keys, (same.map _).nodup_iff, ← keys]
    exact consistent.active
  pending := .nil
  isOpen _ listed := nomatch listed
  rows := (loadJupes_perm s.jupes).symm

end Consistent

theorem hasRequested_eq_false_iff {server : CString} :
    hasRequested server jupe = false ↔
      server.map toUpper ∉
        jupe.servers.map fun request => request.server.map toUpper := by
  simp [hasRequested, irccmp]

theorem int_eq_self {value : Int} (least : -2147483648 ≤ value)
    (most : value < 2147483648) : int value = value := by
  unfold int
  rw [Int.bmod_eq_iff (by decide)]
  omega

theorem scoreOf_lt (conf : JupeConf) (call : JupeCall) :
    scoreOf conf call < 2147483648 := by
  unfold scoreOf
  split
  · exact conf.adminScore.isLt
  · exact conf.operScore.isLt

@[simp] theorem countCall_add (conf : JupeConf) (call : JupeCall)
    (points : Int) (jupe : ServerJupe) :
    (countCall conf call points jupe).add = jupe.add := rfl

@[simp] theorem countCall_total (conf : JupeConf) (call : JupeCall)
    (points : Int) (jupe : ServerJupe) :
    (countCall conf call points jupe).total =
      jupe.total + scoreOf conf call := by
  simp [countCall, ServerJupe.total, Nat.add_comm]

end JupeServ

namespace ServerJupe

open JupeServ

variable {conf : JupeConf} {jupe : ServerJupe} {active : List ServerJupe}

theorem IsVote.countCall {points : Int} {call : JupeCall}
    (vote : jupe.IsVote conf active)
    (unheard : hasRequested call.server jupe = false)
    (counted : points =
      if jupe.add then ((jupe.total + scoreOf conf call : Nat) : Int)
      else conf.unjupeScore - (jupe.total + scoreOf conf call : Nat)) :
    (countCall conf call points jupe).IsVote conf active where
  distinct := by
    show (List.map _ (_ :: jupe.servers)).Nodup
    rw [List.map_cons, List.nodup_cons]
    exact ⟨hasRequested_eq_false_iff.mp unheard, vote.distinct⟩
  add_iff := vote.add_iff
  named := vote.named
  points := by
    rw [countCall_total]
    exact counted

end ServerJupe

namespace JupeServ

variable {conf : JupeConf} {s : JupeServ} {jupe : ServerJupe} {name : CString}

namespace Consistent

variable {call : JupeCall}

theorem calledJupe (consistent : s.Consistent conf)
    (absent : findJupe (nameOf call) s.active = none) :
    (calledJupe call s).IsVote conf s.active ∧
      (calledJupe call s).add = true ∧
      (calledJupe call s).key = (nameOf call).map toUpper := by
  have free := findJupe_eq_none_iff.mp absent
  unfold JupeServ.calledJupe
  split
  · rename_i jupe found
    have key := key_of_findJupe found
    have vote := (consistent.isOpen jupe (mem_of_findJupe found)).toIsVote
    refine ⟨vote, vote.add_iff.mpr fun other listed => ?_, key⟩
    rw [key]
    exact free other listed
  · refine ⟨?_, rfl, rfl⟩
    exact
      { distinct := List.nodup_nil
        add_iff := ⟨fun _ => free, fun _ => rfl⟩
        named := fun removal => nomatch removal
        points := rfl }

theorem calledUnjupe (consistent : s.Consistent conf) {active : ServerJupe}
    (found : findJupe (nameOf call) s.active = some active) :
    (calledUnjupe conf call active s).IsVote conf s.active ∧
      (calledUnjupe conf call active s).add = false ∧
      (calledUnjupe conf call active s).name = active.name ∧
      (calledUnjupe conf call active s).total ≤ conf.unjupeScore := by
  have listed := mem_of_findJupe found
  have activeKey := key_of_findJupe found
  unfold JupeServ.calledUnjupe
  split
  · rename_i jupe pending
    have isOpen := consistent.isOpen jupe (mem_of_findJupe pending)
    have vote := isOpen.toIsVote
    have key : active.key = jupe.key :=
      activeKey.trans (key_of_findJupe pending).symm
    have removal : jupe.add = false := by
      rw [← Bool.not_eq_true, vote.add_iff]
      exact fun absent => absent active listed key
    obtain ⟨other, member, name⟩ := vote.named removal
    have same : other = active := by
      refine consistent.active.eq_of_key member listed ?_
      exact (congrArg (List.map toUpper) name).trans key.symm
    have below := isOpen.below
    rw [if_neg (by simp [removal])] at below
    exact ⟨vote, removal, by rw [← name, same], below.le⟩
  · refine ⟨?_, rfl, rfl, Nat.zero_le _⟩
    exact
      { distinct := List.nodup_nil
        add_iff :=
          ⟨fun addition => (nomatch addition),
            fun absent => absurd rfl (absent active listed)⟩
        named := fun _ => ⟨active, listed, rfl⟩
        points := (Int.sub_zero _).symm }

end Consistent

/-- A call is counted without the points leaving the range of an `int`. -/
def NoWrap (conf : JupeConf) (s : JupeServ) : JupeEvent → Prop
  | .calljupe call =>
      calljupeRefusal conf call s = none →
        (calledJupe call s).points + scoreOf conf call < 2147483648
  | _ => True

instance NoWrap.decidable (conf : JupeConf) (s : JupeServ) :
    ∀ event, Decidable (NoWrap conf s event)
  | .calljupe _ => inferInstanceAs (Decidable (_ → _))
  | .jupe _ | .unjupe _ | .callunjupe _ | .expire _ | .restart =>
      inferInstanceAs (Decidable True)

theorem calljupeRefusal_eq_none {call : JupeCall}
    (counted : calljupeRefusal conf call s = none) :
    findJupe (nameOf call) s.active = none ∧
      hasRequested call.server (calledJupe call s) = false := by
  unfold calljupeRefusal at counted
  split at counted
  · cases counted
  · split at counted
    · cases counted
    · split at counted
      · cases counted
      · split at counted
        · cases counted
        · rename_i absent
          split at counted
          · cases counted
          · rename_i unheard
            exact ⟨absent, by simpa using unheard⟩

theorem callunjupeTarget_eq_ok {call : JupeCall} {active : ServerJupe}
    (counted : callunjupeTarget conf call s = .ok active) :
    findJupe (nameOf call) s.active = some active ∧
      hasRequested call.server (calledUnjupe conf call active s) = false := by
  unfold callunjupeTarget at counted
  split at counted
  · cases counted
  · split at counted
    · cases counted
    · split at counted
      · cases counted
      · rename_i found
        dsimp only at counted
        split at counted
        · cases counted
        · rename_i unheard
          cases counted
          exact ⟨found, by simpa using unheard⟩

theorem jupes_of_calljupe {call : JupeCall} {points : Int}
    (counted : calljupeRefusal conf call s = none)
    (sum : int ((calledJupe call s).points + scoreOf conf call) = points) :
    (sJupeservCalljupe conf call s).jupes =
      if conf.jupeScore ≤ points then
        s.addJupe (countCall conf call points (calledJupe call s))
      else s.setPending (countCall conf call points (calledJupe call s)) := by
  unfold sJupeservCalljupe
  rw [counted]
  dsimp only
  rw [sum, apply_ite JupeResult.jupes]
  rfl

theorem jupes_of_callunjupe {call : JupeCall} {active : ServerJupe}
    {points : Int} (counted : callunjupeTarget conf call s = .ok active)
    (sum : int ((calledUnjupe conf call active s).points -
      scoreOf conf call) = points) :
    (sJupeservCallunjupe conf call s).jupes =
      if points ≤ 0 then
        s.removeJupe
          (countCall conf call points (calledUnjupe conf call active s))
      else
        s.setPending
          (countCall conf call points (calledUnjupe conf call active s)) := by
  unfold sJupeservCallunjupe
  rw [counted]
  dsimp only
  rw [sum, apply_ite JupeResult.jupes]
  rfl

namespace Consistent

variable {call : JupeCall}

theorem afterJupe (consistent : s.Consistent conf) :
    (oJupeservJupe conf call s).jupes.Consistent conf := by
  unfold oJupeservJupe
  split
  · exact consistent
  · rename_i accepted
    unfold jupeRefusal at accepted
    split at accepted
    · cases accepted
    · split at accepted
      · cases accepted
      · refine consistent.addJupe ?_
        exact findJupe_eq_none_iff.mp (Option.map_eq_none_iff.mp accepted)

theorem afterUnjupe (consistent : s.Consistent conf) :
    (oJupeservUnjupe call s).jupes.Consistent conf := by
  unfold oJupeservUnjupe
  split
  · exact consistent
  · split
    · exact consistent
    · rename_i found
      exact consistent.removeJupe (mem_of_findJupe found) rfl

theorem countedCalljupe (consistent : s.Consistent conf)
    (noWrap : NoWrap conf s (.calljupe call))
    (counted : calljupeRefusal conf call s = none) :
    (sJupeservCalljupe conf call s).jupes.Consistent conf ∧
      ((findJupe (nameOf call)
          (sJupeservCalljupe conf call s).jupes.active).isSome = true ↔
        conf.jupeScore ≤ (JupeServ.calledJupe call s).total +
          scoreOf conf call) := by
  obtain ⟨absent, unheard⟩ := calljupeRefusal_eq_none counted
  obtain ⟨vote, addition, key⟩ := consistent.calledJupe absent
  have points := vote.points
  rw [if_pos addition] at points
  have sum : int ((JupeServ.calledJupe call s).points + scoreOf conf call) =
      ((JupeServ.calledJupe call s).total + scoreOf conf call : Nat) := by
    have small := noWrap counted
    rw [int_eq_self (by omega) small, points]
    rfl
  have next := vote.countCall unheard (if_pos addition).symm
  rw [jupes_of_calljupe counted sum]
  split
  · rename_i reached
    refine ⟨consistent.addJupe (next.add_iff.mp addition), ?_⟩
    refine iff_of_true (isSome_findJupe.mpr ?_) (by omega)
    exact ⟨_, List.mem_cons_self, key⟩
  · rename_i short
    refine ⟨consistent.setPending ⟨next, ?_⟩, iff_of_false ?_ (by omega)⟩
    · rw [countCall_total, countCall_add, if_pos addition]
      omega
    · show ¬(findJupe (nameOf call) s.active).isSome = true
      rw [absent]
      exact Bool.false_ne_true

theorem countedCallunjupe (consistent : s.Consistent conf)
    {active : ServerJupe}
    (counted : callunjupeTarget conf call s = .ok active) :
    (sJupeservCallunjupe conf call s).jupes.Consistent conf ∧
      (findJupe (nameOf call)
          (sJupeservCallunjupe conf call s).jupes.active = none ↔
        conf.unjupeScore ≤ (JupeServ.calledUnjupe conf call active s).total +
          scoreOf conf call) := by
  obtain ⟨found, unheard⟩ := callunjupeTarget_eq_ok counted
  obtain ⟨vote, removal, name, most⟩ := consistent.calledUnjupe found
  have listed := mem_of_findJupe found
  have points := vote.points
  have against : ¬(JupeServ.calledUnjupe conf call active s).add = true := by
    simp [removal]
  rw [if_neg against] at points
  have sum : int ((JupeServ.calledUnjupe conf call active s).points -
      scoreOf conf call) = conf.unjupeScore -
        ((JupeServ.calledUnjupe conf call active s).total +
          scoreOf conf call : Nat) := by
    have small := scoreOf_lt conf call
    have fits : (conf.unjupeScore : Nat) < 2147483648 := conf.unjupeScore.isLt
    rw [points, int_eq_self (by omega) (by omega)]
    omega
  have next := vote.countCall unheard (if_neg against).symm
  rw [jupes_of_callunjupe counted sum]
  split
  · rename_i reached
    refine ⟨consistent.removeJupe listed name, iff_of_true ?_ (by omega)⟩
    refine findJupe_eq_none_iff.mpr fun jupe member => ?_
    have gone := ((mem_deleteJupe consistent.active).mp member).2
    rw [show (countCall ..).name = active.name from name] at gone
    rwa [← key_of_findJupe found]
  · rename_i short
    refine ⟨consistent.setPending ⟨next, ?_⟩, iff_of_false ?_ (by omega)⟩
    · rw [countCall_total, countCall_add, if_neg against]
      omega
    · show ¬findJupe (nameOf call) s.active = none
      rw [found]
      exact Option.some_ne_none active

theorem refusedCalljupe {refusal : JupeRefusal}
    (refused : calljupeRefusal conf call s = some refusal) :
    (sJupeservCalljupe conf call s).jupes = s := by
  unfold sJupeservCalljupe
  rw [refused]

theorem refusedCallunjupe {refusal : JupeRefusal}
    (refused : callunjupeTarget conf call s = .error refusal) :
    (sJupeservCallunjupe conf call s).jupes = s := by
  unfold sJupeservCallunjupe
  rw [refused]

theorem step (consistent : s.Consistent conf) {event : JupeEvent}
    {after : JupeServ} (noWrap : NoWrap conf s event)
    (stepped : JupeServ.step conf s event = .ok after) :
    after.Consistent conf := by
  cases event with
  | jupe call =>
      cases stepped
      exact consistent.afterJupe
  | unjupe call =>
      cases stepped
      exact consistent.afterUnjupe
  | calljupe call =>
      cases stepped
      cases refused : calljupeRefusal conf call s with
      | none => exact (consistent.countedCalljupe noWrap refused).1
      | some refusal => rwa [refusedCalljupe refused]
  | callunjupe call =>
      cases stepped
      cases target : callunjupeTarget conf call s with
      | ok active => exact (consistent.countedCallunjupe target).1
      | error refusal => rwa [refusedCallunjupe target]
  | expire now =>
      cases stepped
      exact consistent.drop List.filter_sublist
  | restart =>
      cases stepped
      exact consistent.restart

end Consistent

/-- While the points stay in range, in every run both lists have a name at most
once, what is pending is for a jupe just if the name is not active, every server
is counted once, and the table has the active jupes. A call that is counted
makes its jupe active just when the scores come to `jupe_score`, and takes it
off just when they come to `unjupe_score`. -/
theorem jupes_of_run {conf : JupeConf} {events : List JupeEvent}
    {s : JupeServ} (meets : Meets (step conf) (NoWrap conf) empty events)
    (reached : run (step conf) empty events = .ok s) :
    s.Consistent conf ∧
      (∀ call,
        (∀ refusal, calljupeRefusal conf call s = some refusal →
          (sJupeservCalljupe conf call s).jupes = s) ∧
        (calljupeRefusal conf call s = none →
          NoWrap conf s (.calljupe call) →
          ((findJupe (nameOf call)
              (sJupeservCalljupe conf call s).jupes.active).isSome = true ↔
            conf.jupeScore ≤
              (calledJupe call s).total + scoreOf conf call))) ∧
      ∀ call,
        (∀ refusal, callunjupeTarget conf call s = .error refusal →
          (sJupeservCallunjupe conf call s).jupes = s) ∧
        ∀ active, callunjupeTarget conf call s = .ok active →
          (findJupe (nameOf call)
              (sJupeservCallunjupe conf call s).jupes.active = none ↔
            conf.unjupeScore ≤
              (calledUnjupe conf call active s).total +
                scoreOf conf call) := by
  have consistent : s.Consistent conf :=
    run_preserves_of_meets (Consistent conf)
      (fun _ _ _ noWrap before stepped => before.step noWrap stepped)
      meets .empty reached
  refine ⟨consistent, fun call => ⟨fun _ => Consistent.refusedCalljupe, ?_⟩,
    fun call => ⟨fun _ => Consistent.refusedCallunjupe, ?_⟩⟩
  · exact fun counted noWrap => (consistent.countedCalljupe noWrap counted).2
  · exact fun active counted => (consistent.countedCallunjupe counted).2

def callFrom (server : CString) : JupeCall where
  now := 100
  server := server
  isAdmin := false
  uplink := none
  isLinked := fun _ => false
  finishedBursting := true
  parv := ["bad.server".toList]

def jupeConf (jupeScore operScore : Fin JupeConf.limit) : JupeConf :=
  { JupeConf.default with jupeScore := jupeScore, operScore := operScore }

theorem jupes_of_run_called :
    ∃ s, run (step (jupeConf 6 3)) empty
        [.calljupe (callFrom "a.int".toList),
          .calljupe (callFrom "b.int".toList),
          .callunjupe (callFrom "a.int".toList)] = .ok s ∧
      s.Consistent (jupeConf 6 3) ∧ s.jupes ≠ [] ∧ s.pending ≠ [] := by
  have observed : (run (step (jupeConf 6 3)) empty
      [.calljupe (callFrom "a.int".toList),
        .calljupe (callFrom "b.int".toList),
        .callunjupe (callFrom "a.int".toList)]).toOption.map
      (fun s => decide (s.jupes ≠ [] ∧ s.pending ≠ [])) = some true := by
    decide +kernel
  obtain ⟨s, reached, seen⟩ := Except.exists_of_observed observed
  exact ⟨s, reached, (jupes_of_run (by decide +kernel) reached).1,
    of_decide_eq_true seen⟩

/-- The call of the second server takes the points out of the range of an `int`,
and the jupe is not set. -/
theorem not_active_of_wrap :
    ∃ s, run (step (jupeConf 2147483647 2147483646)) empty
        [.calljupe (callFrom "a.int".toList),
          .calljupe (callFrom "b.int".toList)] = .ok s ∧
      s.active = [] ∧
      ∃ jupe ∈ s.pending, jupe.add = true ∧
        jupe.servers.map JupeRequest.server =
          ["b.int".toList, "a.int".toList] ∧
        2147483647 ≤ jupe.total ∧ jupe.points = -4 := by
  have observed : (run (step (jupeConf 2147483647 2147483646)) empty
      [.calljupe (callFrom "a.int".toList),
        .calljupe (callFrom "b.int".toList)]).toOption.map
      (fun s => decide (s.active = [] ∧
        ∃ jupe ∈ s.pending, jupe.add = true ∧
          jupe.servers.map JupeRequest.server =
            ["b.int".toList, "a.int".toList] ∧
          2147483647 ≤ jupe.total ∧ jupe.points = -4)) = some true := by
    decide +kernel
  obtain ⟨s, reached, seen⟩ := Except.exists_of_observed observed
  exact ⟨s, reached, of_decide_eq_true seen⟩

end JupeServ

end RatboxServices
