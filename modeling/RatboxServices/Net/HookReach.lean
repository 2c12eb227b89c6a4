import RatboxServices.Net.HookCall
import RatboxServices.Net.ModeTrack
import RatboxServices.Net.Reseat

namespace RatboxServices

/-! How far the acts of the services reach: which members they touch, and what
they leave of a channel. -/

namespace Chmember

structure SameSeat (before after : Chmember) : Prop where
  chptr : after.chptr = before.chptr
  clientP : after.clientP = before.clientP

structure Demoted (before after : Chmember) : Prop extends
    SameSeat before after where
  opped : after.isOpped = true → before.isOpped = true
  voiced : after.isVoiced = true → before.isVoiced = true

theorem SameSeat.refl (member : Chmember) : SameSeat member member :=
  ⟨rfl, rfl⟩

theorem SameSeat.trans {first second third : Chmember}
    (earlier : SameSeat first second) (later : SameSeat second third) :
    SameSeat first third :=
  ⟨later.chptr.trans earlier.chptr, later.clientP.trans earlier.clientP⟩

theorem Demoted.refl (member : Chmember) : Demoted member member :=
  ⟨.refl member, id, id⟩

theorem Demoted.trans {first second third : Chmember}
    (earlier : Demoted first second) (later : Demoted second third) :
    Demoted first third :=
  ⟨earlier.toSameSeat.trans later.toSameSeat,
    fun opped => earlier.opped (later.opped opped),
    fun voiced => earlier.voiced (later.voiced voiced)⟩

theorem clearOv_demoted (member : Chmember) :
    Demoted member (Chans.Inv.clearOv member) := by
  refine ⟨⟨rfl, rfl⟩, fun opped => ?_, fun voiced => ?_⟩
  · rw [Chans.Inv.clearOv_isOpped] at opped
    cases opped
  · simp [Chans.Inv.clearOv, isVoiced] at voiced

end Chmember

namespace Channel

structure SameFace (before after : Channel) : Prop where
  name : after.name = before.name
  excepts : after.excepts = before.excepts

theorem sameFace_lawful : Heap.Lawful SameFace fun _ => True where
  refl := fun _ => ⟨rfl, rfl⟩
  trans := fun first second =>
    ⟨second.name.trans first.name, second.excepts.trans first.excepts⟩
  born := fun _ _ => trivial

end Channel

open Chmember (SameSeat Demoted)
open Channel (SameFace sameFace_lawful)

namespace Chans

variable {r s t : Chans} {mptr m : MemberId} {after : Chmember} {now : Int}

def NoneRaised (s t : Chans) : Prop :=
  ∀ m after, t.member.cell m = some after →
    ∃ before, s.member.cell m = some before ∧ Demoted before after

namespace NoneRaised

theorem of_member (same : t.member = s.member) : NoneRaised s t := by
  intro m after used
  rw [same] at used
  exact ⟨after, used, .refl after⟩

theorem refl (s : Chans) : NoneRaised s s :=
  of_member rfl

theorem trans (first : NoneRaised r s) (second : NoneRaised s t) :
    NoneRaised r t := by
  intro m after used
  obtain ⟨middle, there, later⟩ := second m after used
  obtain ⟨before, here, earlier⟩ := first m middle there
  exact ⟨before, here, earlier.trans later⟩

theorem of_own
    (others : ∀ m, m ≠ mptr → t.member.cell m = s.member.cell m)
    (own : ∀ after, t.member.cell mptr = some after →
      ∃ before, s.member.cell mptr = some before ∧ Demoted before after) :
    NoneRaised s t := by
  intro m after used
  by_cases same : m = mptr
  · subst same
    exact own after used
  · rw [others m same] at used
    exact ⟨after, used, .refl after⟩

theorem foldl_clearOv (targets : List MemberId) (heap : Heap Chmember)
    (used : (targets.foldl (fun heap target =>
      heap.modify target Inv.clearOv) heap).cell m = some after) :
    ∃ before, heap.cell m = some before ∧ Demoted before after := by
  rw [Heap.foldl_modify_cell Inv.clearOv_stable] at used
  split at used
  · obtain ⟨before, there, rfl⟩ := Option.map_eq_some_iff.mp used
    exact ⟨before, there, Chmember.clearOv_demoted before⟩
  · exact ⟨after, used, .refl after⟩

end NoneRaised

theorem freeIfEmpty_member (target : ChannelId) (s : Chans) :
    (s.freeIfEmpty target).member = s.member := by
  unfold freeIfEmpty
  split
  · rfl
  · split
    · rename_i ch used _
      simp only [freeChannel, used]
      rfl
    · rfl

theorem delChmember_cell (mptr m : MemberId) (s : Chans) :
    (s.delChmember mptr).member.cell m =
      if m = mptr then none else s.member.cell m := by
  cases used : s.member.cell mptr with
  | none =>
      simp only [delChmember, used]
      split
      · rename_i same
        rw [same, used]
      · rfl
  | some member =>
      rw [Inv.delChmember_eq used, freeIfEmpty_member]
      exact Heap.free_cell _ _ _

theorem Restatus.cell_of_ne {t : Chans} (step : Restatus s mptr t)
    (other : m ≠ mptr) : t.member.cell m = s.member.cell m := by
  cases step with
  | same => rfl
  | other => exact Heap.modify_cell_of_ne _ _ other

theorem joinService_member (serviceP : ClientId) (chname : CString)
    (tsinfo : Int) (mode : Option Chmode) (override : Bool) :
    (s.joinService serviceP chname tsinfo mode override now).member =
      s.member := by
  unfold joinService
  split
  · rfl
  · split
    · rfl
    · split
      · rfl
      · dsimp only
        split
        · rfl
        · rfl

theorem opChmember_own
    (used : (s.opChmember mptr).member.cell mptr = some after) :
    ∃ before, s.member.cell mptr = some before ∧ SameSeat before after ∧
      after.isOpped = true ∧ after.isVoiced = before.isVoiced := by
  unfold opChmember at used
  split at used
  · rename_i missing
    rw [missing] at used
    cases used
  · rename_i before there
    refine ⟨before, there, ?_⟩
    split at used
    · rename_i opped
      rw [there, Option.some.injEq] at used
      subst used
      exact ⟨.refl _, opped, rfl⟩
    · replace used : (s.member.modify mptr _).cell mptr = some after := used
      rw [Heap.modify_cell_self, there, Option.map_some,
        Option.some.injEq] at used
      subst used
      refine ⟨⟨rfl, rfl⟩, ?_, ?_⟩
      · simp [Chmember.isOpped, modeOpped]
      · simp [Chmember.isVoiced, modeVoiced, modeDeopped, modeOpped]

theorem deopChmember_own
    (used : (s.deopChmember mptr).member.cell mptr = some after) :
    ∃ before, s.member.cell mptr = some before ∧ SameSeat before after ∧
      after.isOpped = false ∧ after.isVoiced = before.isVoiced := by
  unfold deopChmember at used
  split at used
  · rename_i missing
    rw [missing] at used
    cases used
  · rename_i before there
    refine ⟨before, there, ?_⟩
    split at used
    · rename_i unopped
      rw [there, Option.some.injEq] at used
      subst used
      exact ⟨.refl _, by simpa using unopped, rfl⟩
    · replace used : (s.member.modify mptr _).cell mptr = some after := used
      rw [Heap.modify_cell_self, there, Option.map_some,
        Option.some.injEq] at used
      subst used
      refine ⟨⟨rfl, rfl⟩, ?_, ?_⟩
      · simp [Chmember.isOpped]
      · simp [Chmember.isVoiced, modeVoiced, modeOpped]

theorem voiceChmember_own
    (used : (s.voiceChmember mptr).member.cell mptr = some after) :
    ∃ before, s.member.cell mptr = some before ∧ SameSeat before after ∧
      after.isOpped = before.isOpped ∧ after.isVoiced = true := by
  replace used : (s.member.modify mptr _).cell mptr = some after := used
  rw [Heap.modify_cell_self] at used
  obtain ⟨before, there, rfl⟩ := Option.map_eq_some_iff.mp used
  refine ⟨before, there, ⟨rfl, rfl⟩, ?_, ?_⟩
  · simp [Chmember.isOpped, modeVoiced, modeOpped]
  · simp [Chmember.isVoiced, modeVoiced]

theorem devoiceChmember_own
    (used : (s.devoiceChmember mptr).member.cell mptr = some after) :
    ∃ before, s.member.cell mptr = some before ∧ SameSeat before after ∧
      after.isOpped = before.isOpped ∧ after.isVoiced = false := by
  replace used : (s.member.modify mptr _).cell mptr = some after := used
  rw [Heap.modify_cell_self] at used
  obtain ⟨before, there, rfl⟩ := Option.map_eq_some_iff.mp used
  refine ⟨before, there, ⟨rfl, rfl⟩, ?_, ?_⟩
  · simp [Chmember.isOpped, modeVoiced, modeOpped]
  · simp [Chmember.isVoiced]

def Faces (s t : Chans) : Prop :=
  s.channel.Evolves SameFace (fun _ => True) t.channel

namespace Faces

theorem refl (s : Chans) : Faces s s :=
  Heap.Evolves.refl sameFace_lawful.refl s.channel

theorem trans (first : Faces r s) (second : Faces s t) : Faces r t :=
  Heap.Evolves.trans sameFace_lawful first second

theorem modifyChannel (target : ChannelId) {change : Channel → Channel}
    (kept : ∀ ch, SameFace ch (change ch)) :
    Faces s (s.modifyChannel target change) :=
  Heap.Evolves.modify sameFace_lawful.refl fun ch _ => kept ch

theorem of_reseats (step : Reseats s t) : Faces s t :=
  step.mono fun _ _ seats => by
    obtain ⟨_, _, _, _, rfl⟩ := seats
    exact ⟨rfl, rfl⟩

theorem joinService (serviceP : ClientId) (chname : CString) (tsinfo : Int)
    (mode : Option Chmode) (override : Bool) :
    Faces s (s.joinService serviceP chname tsinfo mode override now) := by
  unfold Chans.joinService
  split
  · refine Faces.trans ?_ (of_reseats (.linkService _ _))
    exact Heap.Evolves.alloc sameFace_lawful.refl trivial
  · split
    · exact refl s
    · split
      · exact refl s
      · refine Faces.trans ?_ (of_reseats (.linkService _ _))
        split
        · exact modifyChannel _ fun _ => ⟨rfl, rfl⟩
        · exact refl s

end Faces

end Chans

namespace ChanAct

open Chans (Faces NoneRaised)

def mptr : ChanAct → Option MemberId
  | .op mptr => some mptr
  | .deop mptr => some mptr
  | .voice mptr => some mptr
  | .devoice mptr => some mptr
  | .kick mptr => some mptr
  | _ => none

def isNarrow : ChanAct → Bool
  | .removeModes _ => false
  | .removeOv _ => false
  | .removeBans _ _ _ _ => false
  | .part _ _ => false
  | .takeover _ _ _ _ _ => false
  | _ => true

variable {now : Int} {act : ChanAct} {acts : List ChanAct} {s : Chans}
  {m : MemberId} {after : Chmember}

theorem exec_faces (narrow : act.isNarrow = true) :
    Faces s (act.exec now s) := by
  cases act with
  | op mptr => exact .of_reseats (.restatus (.op mptr))
  | deop mptr => exact .of_reseats (.restatus (.deop mptr))
  | voice mptr => exact .refl s
  | devoice mptr => exact .refl s
  | kick mptr => exact .of_reseats (.delChmember mptr)
  | enforce chptr emode => exact .modifyChannel chptr fun _ => ⟨rfl, rfl⟩
  | setTopic chptr topic topicwho tsinfo =>
      exact .modifyChannel chptr fun _ => ⟨rfl, rfl⟩
  | addBan chptr mask => exact .modifyChannel chptr fun _ => ⟨rfl, rfl⟩
  | delBan chptr mask => exact .modifyChannel chptr fun _ => ⟨rfl, rfl⟩
  | join serviceP chname tsinfo mode override =>
      exact .joinService serviceP chname tsinfo mode override
  | _ => cases narrow

theorem exec_cell_of_ne (narrow : act.isNarrow = true)
    (other : act.mptr ≠ some m) :
    (act.exec now s).member.cell m = s.member.cell m := by
  have different : ∀ mptr, act.mptr = some mptr → m ≠ mptr :=
    fun mptr about same => other (same ▸ about)
  cases act with
  | op mptr => exact (Chans.Restatus.op mptr).cell_of_ne (different mptr rfl)
  | deop mptr =>
      exact (Chans.Restatus.deop mptr).cell_of_ne (different mptr rfl)
  | voice mptr => exact Heap.modify_cell_of_ne _ _ (different mptr rfl)
  | devoice mptr => exact Heap.modify_cell_of_ne _ _ (different mptr rfl)
  | kick mptr =>
      exact (Chans.delChmember_cell mptr m s).trans
        (if_neg (different mptr rfl))
  | join serviceP chname tsinfo mode override =>
      exact congrArg (fun heap => Heap.cell heap m)
        (Chans.joinService_member serviceP chname tsinfo mode override)
  | enforce chptr emode => rfl
  | setTopic chptr topic topicwho tsinfo => rfl
  | addBan chptr mask => rfl
  | delBan chptr mask => rfl
  | _ => cases narrow

theorem execAll_append (first second : List ChanAct) :
    execAll now (first ++ second) s =
      execAll now second (execAll now first s) :=
  List.foldl_append

theorem execAll_faces (narrow : ∀ act ∈ acts, act.isNarrow = true) :
    Faces s (execAll now acts s) := by
  induction acts generalizing s with
  | nil => exact .refl s
  | cons act rest ih =>
      refine (exec_faces (narrow act (by simp))).trans (ih ?_)
      exact fun act later => narrow act (List.mem_cons_of_mem _ later)

theorem execAll_cell_of_ne (narrow : ∀ act ∈ acts, act.isNarrow = true)
    (others : ∀ act ∈ acts, act.mptr ≠ some m) :
    (execAll now acts s).member.cell m = s.member.cell m := by
  induction acts generalizing s with
  | nil => rfl
  | cons act rest ih =>
      refine (ih (fun act later => ?_) fun act later => ?_).trans
        (exec_cell_of_ne (narrow act (by simp)) (others act (by simp)))
      · exact narrow act (List.mem_cons_of_mem _ later)
      · exact others act (List.mem_cons_of_mem _ later)

def lowers : ChanAct → Bool
  | .deop _ => true
  | .devoice _ => true
  | .enforce _ _ => true
  | .delBan _ _ => true
  | _ => false

theorem exec_lowers (lowers : act.lowers = true) :
    NoneRaised s (act.exec now s) := by
  cases act with
  | deop mptr =>
      refine .of_own (fun m => (Chans.Restatus.deop mptr).cell_of_ne) ?_
      intro after used
      obtain ⟨before, there, seat, unopped, voice⟩ :=
        Chans.deopChmember_own used
      refine ⟨before, there, seat, fun opped => ?_, fun voiced => ?_⟩
      · rw [unopped] at opped
        cases opped
      · exact voice ▸ voiced
  | devoice mptr =>
      refine .of_own (fun m => Heap.modify_cell_of_ne _ _) ?_
      intro after used
      obtain ⟨before, there, seat, op, unvoiced⟩ :=
        Chans.devoiceChmember_own used
      refine ⟨before, there, seat, fun opped => ?_, fun voiced => ?_⟩
      · exact op ▸ opped
      · rw [unvoiced] at voiced
        cases voiced
  | enforce chptr emode => exact .of_member rfl
  | delBan chptr mask => exact .of_member rfl
  | _ => cases lowers

theorem execAll_lowers (lowers : ∀ act ∈ acts, act.lowers = true) :
    NoneRaised s (execAll now acts s) := by
  induction acts generalizing s with
  | nil => exact .refl s
  | cons act rest ih =>
      refine (exec_lowers (lowers act (by simp))).trans (ih ?_)
      exact fun act later => lowers act (List.mem_cons_of_mem _ later)

theorem execAll_takes (lower : MemberId → ChanAct) (Lacks : Chmember → Prop)
    (lowers : ∀ mptr, (lower mptr).lowers = true)
    (own : ∀ s mptr after,
      ((lower mptr).exec now s).member.cell mptr = some after → Lacks after)
    (kept : ∀ before after, Demoted before after → Lacks before → Lacks after)
    {members : List MemberId} (listed : m ∈ members)
    (used : (execAll now (members.map lower) s).member.cell m = some after) :
    Lacks after := by
  induction members generalizing s with
  | nil => cases listed
  | cons first rest ih =>
      by_cases later : m ∈ rest
      · exact ih later used
      · obtain rfl | later_ := List.mem_cons.mp listed
        · have tail : NoneRaised ((lower m).exec now s)
              (execAll now (rest.map lower) ((lower m).exec now s)) := by
            refine execAll_lowers fun act among => ?_
            obtain ⟨mptr, -, rfl⟩ := List.mem_map.mp among
            exact lowers mptr
          obtain ⟨before, there, demoted⟩ := tail m after used
          exact kept before after demoted (own s m before there)
        · exact absurd later_ later

theorem execAll_deop {members : List MemberId} (listed : m ∈ members)
    (used : (execAll now (members.map .deop) s).member.cell m = some after) :
    after.isOpped = false := by
  refine execAll_takes .deop (fun member => member.isOpped = false)
    (fun _ => rfl) (fun s mptr after used => ?_)
    (fun before after demoted lacks => ?_) listed used
  · obtain ⟨before, -, -, unopped, -⟩ := Chans.deopChmember_own used
    exact unopped
  · by_contra has
    rw [demoted.opped (by simpa using has)] at lacks
    cases lacks

theorem execAll_devoice {members : List MemberId} (listed : m ∈ members)
    (used : (execAll now (members.map .devoice) s).member.cell m =
      some after) : after.isVoiced = false := by
  refine execAll_takes .devoice (fun member => member.isVoiced = false)
    (fun _ => rfl) (fun s mptr after used => ?_)
    (fun before after demoted lacks => ?_) listed used
  · obtain ⟨before, -, -, -, unvoiced⟩ := Chans.devoiceChmember_own used
    exact unvoiced
  · by_contra has
    rw [demoted.voiced (by simpa using has)] at lacks
    cases lacks

end ChanAct

end RatboxServices
