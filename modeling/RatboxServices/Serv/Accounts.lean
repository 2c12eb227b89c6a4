import RatboxServices.Serv.AccessRun

namespace RatboxServices

open CString

/-! Which accounts are there after a step: those that were, less those that are
freed, and one more where the step registers one. -/

def RegAct.registers (conf : ServConfig) (s : Regs) : RegAct → Bool
  | .userRegister client name permitted _ =>
      decide (s.login client = some none) &&
        (s.findUserReg name.text).isNone &&
        (Regs.validUsername conf name.text && permitted)
  | .operUserRegister name permitted =>
      (s.findUserReg name.text).isNone &&
        (Regs.validUsername conf name.text && permitted)
  | .hookRegister name password =>
      (!name.isEmpty && !password.isEmpty) && (s.findUserReg name).isNone
  | _ => false

namespace Regs

variable {conf : ServConfig} {s t : Regs} {event : RegEvent}

structure OnlyLeave (s t : Regs) : Prop where
  stays : ∀ u new, t.user.cell u = some new →
    ∃ old, s.user.cell u = some old ∧ old.name = new.name

theorem OnlyLeave.refl (s : Regs) : OnlyLeave s s :=
  ⟨fun _ new found => ⟨new, found, rfl⟩⟩

theorem OnlyLeave.trans {r s t : Regs} (first : OnlyLeave r s)
    (second : OnlyLeave s t) : OnlyLeave r t := by
  refine ⟨fun u new found => ?_⟩
  obtain ⟨middle, there, name⟩ := second.stays u new found
  obtain ⟨old, before, name'⟩ := first.stays u middle there
  exact ⟨old, before, name'.trans name⟩

theorem OnlyLeave.next_none (leave : OnlyLeave s t) :
    t.user.cell s.user.next = none := by
  cases found : t.user.cell s.user.next with
  | none => rfl
  | some new =>
      obtain ⟨old, before, -⟩ := leave.stays _ new found
      exact absurd (Heap.lt_next before) (Nat.lt_irrefl _)

theorem SameNames.onlyLeave (same : SameNames s t) : OnlyLeave s t := by
  refine ⟨fun u new found => ?_⟩
  obtain ⟨old, before, name, -⟩ := same.cell found
  exact ⟨old, before, name⟩

theorem OnlyLeave.freeUserReg (conf : ServConfig) (s : Regs)
    (account : UserRegId) : OnlyLeave s (s.freeUserReg conf account) := by
  cases found : s.user.cell account with
  | none =>
      unfold Regs.freeUserReg
      rw [found]
      exact .refl s
  | some reg =>
      refine OnlyLeave.trans ⟨fun u new there => ?_⟩
        (freeUserReg_names conf s account found).onlyLeave
      dsimp only at there
      rw [Heap.free_cell] at there
      split at there
      · cases there
      · exact ⟨new, there, rfl⟩

theorem Moves.onlyLeave {Broken : Prop}
    (moves : Moves conf (fun _ => False) Broken s t) : OnlyLeave s t := by
  induction moves with
  | refl => exact .refl s
  | tail _ last ih =>
      obtain same | ⟨reg, impossible, -⟩ | ⟨account, rfl⟩ := last.names
      · exact ih.trans same.onlyLeave
      · exact impossible.elim
      · exact ih.trans (.freeUserReg conf _ account)

theorem step_of_refused (asked : event.act.isRegister = true)
    (refused : event.act.registers conf s = false)
    (returned : step conf s event = .ok t) : t = s := by
  obtain ⟨now, act⟩ := event
  cases act with
  | userRegister client name permitted channels =>
      simp only [step, sUserRegister] at returned
      split at returned
      · exact (Except.ok.inj returned).symm
      rename_i out
      rw [not_not] at out
      split at returned
      · exact (Except.ok.inj returned).symm
      rename_i new
      split at returned
      · exact (Except.ok.inj returned).symm
      rename_i fits
      have free : s.findUserReg name.text = none := by simpa using new
      have good : validUsername conf name.text = true ∧ permitted = true := by
        simpa using fits
      simp [RegAct.registers, out, free, good] at refused
  | operUserRegister name permitted =>
      simp only [step, oUserUserregister] at returned
      split at returned
      · exact (Except.ok.inj returned).symm
      rename_i new
      split at returned
      · exact (Except.ok.inj returned).symm
      rename_i fits
      have free : s.findUserReg name.text = none := by simpa using new
      have good : validUsername conf name.text = true ∧ permitted = true := by
        simpa using fits
      simp [RegAct.registers, free, good] at refused
  | hookRegister name password =>
      simp only [step, dbhUserRegister] at returned
      split at returned
      · exact (Except.ok.inj returned).symm
      rename_i some_
      split at returned
      · exact (Except.ok.inj returned).symm
      rename_i new
      have free : s.findUserReg name = none := by simpa using new
      simp only [Bool.not_eq_true, Bool.or_eq_false_iff] at some_
      simp [RegAct.registers, free, some_.1, some_.2] at refused
  | _ => cases asked

theorem OnlyLeave.step (inv : AccessInv (fun _ => False) s)
    (refused : event.act.registers conf s = false)
    (returned : step conf s event = .ok t) : OnlyLeave s t := by
  cases asked : event.act.isRegister with
  | false =>
      have moves : Moves conf (fun _ => False) True s t :=
        step_moves_of_plain asked inv (Or.inl trivial) returned
      exact moves.onlyLeave
  | true =>
      rw [step_of_refused asked refused returned]
      exact .refl s

def withUser (s : Regs) (reg : UserReg) : Regs :=
  { s.addUserReg reg with users := s.users ++ [reg.name] }

theorem registers_eq_ok (registers : event.act.registers conf s = true)
    (returned : step conf s event = .ok t) :
    ∃ reg, reg.name ∉ s.users ∧ (t = s.withUser reg ∨ ∃ client channels,
      ((s.withUser reg).linkUser client s.user.next).hChanservUserLogin
        event.now s.user.next channels = .ok t) := by
  obtain ⟨now, act⟩ := event
  cases act with
  | userRegister client name permitted channels =>
      simp only [RegAct.registers, Bool.and_eq_true, decide_eq_true_eq,
        Option.isNone_iff_eq_none] at registers
      obtain ⟨⟨out, free⟩, valid, allowed⟩ := registers
      simp only [step, sUserRegister, out, free, valid, allowed, ne_eq,
        not_true, if_false, Option.isSome_none, Bool.false_eq_true,
        Bool.not_true, Bool.or_self] at returned
      generalize (if conf.uregisterVerify = true then
        Word.ofBits [usFlagsNeverloggedin] else 0#32) = flags at returned
      obtain ⟨middle, inserted, rest⟩ := Except.bind_eq_ok.mp returned
      obtain ⟨unique, rfl⟩ := insertUser_eq_ok inserted
      refine ⟨
        { name := name.text
          given := name.text
          flags := flags
          regTime := now
          lastTime := now }, unique, ?_⟩
      split at rest
      · exact Or.inl (Except.ok.inj rest).symm
      · exact Or.inr ⟨client, channels, rest⟩
  | operUserRegister name permitted =>
      simp only [RegAct.registers, Bool.and_eq_true,
        Option.isNone_iff_eq_none] at registers
      obtain ⟨free, valid, allowed⟩ := registers
      simp only [step, oUserUserregister, free, valid, allowed, if_false,
        Option.isSome_none, Bool.false_eq_true, Bool.not_true,
        Bool.or_self] at returned
      obtain ⟨unique, rfl⟩ := insertUser_eq_ok returned
      exact ⟨_, unique, Or.inl rfl⟩
  | hookRegister name password =>
      simp only [RegAct.registers, Bool.and_eq_true, Bool.not_eq_true',
        Option.isNone_iff_eq_none] at registers
      obtain ⟨⟨given, secret⟩, free⟩ := registers
      simp only [step, dbhUserRegister, free, given, secret, if_false,
        Option.isSome_none, Bool.false_eq_true, Bool.or_self] at returned
      obtain ⟨unique, rfl⟩ := insertUser_eq_ok returned
      exact ⟨_, unique, Or.inl rfl⟩
  | _ => cases registers

theorem step_of_registers (registers : event.act.registers conf s = true)
    (returned : step conf s event = .ok t) :
    ∃ reg, reg.name ∉ s.users ∧ SameNames (s.withUser reg) t := by
  obtain ⟨reg, unique, rfl | ⟨client, channels, rest⟩⟩ :=
    registers_eq_ok registers returned
  · exact ⟨reg, unique, rfl, rfl, fun _ => rfl⟩
  · have linked := SameAccess.linkUser (s.withUser reg) client s.user.next
    have settled := hChanservUserLogin_settled rest
    exact ⟨reg, unique, (linked.trans settled.access).sameNames⟩

/-- The names in table `users` are those of accounts. -/
def Listed (s : Regs) : Prop :=
  ∀ name ∈ s.users, ∃ u reg, s.user.cell u = some reg ∧ reg.name = name

theorem Listed.same (listed : Listed s) (same : SameNames s t) : Listed t := by
  intro name there
  rw [same.users] at there
  obtain ⟨u, old, before, rfl⟩ := listed name there
  obtain ⟨new, found, equal, -⟩ := same.symm.cell before
  exact ⟨u, new, found, equal⟩

theorem Listed.freeUserReg (listed : Listed s) (account : UserRegId) :
    Listed (s.freeUserReg conf account) := by
  cases found : s.user.cell account with
  | none =>
      unfold Regs.freeUserReg
      rw [found]
      exact listed
  | some reg =>
      refine Listed.same ?_ (freeUserReg_names conf s account found)
      intro name there
      rw [List.mem_filter, bne_iff_ne] at there
      obtain ⟨u, other, before, rfl⟩ := listed name there.1
      refine ⟨u, other, ?_, rfl⟩
      dsimp only
      rw [Heap.free_cell, if_neg]
      · exact before
      · rintro rfl
        rw [found, Option.some.injEq] at before
        exact there.2 (congrArg UserReg.name before.symm)

theorem Listed.register (listed : Listed s) (reg : UserReg) :
    Listed (s.withUser reg) := by
  intro name there
  rw [withUser, List.mem_append, List.mem_singleton] at there
  obtain before | rfl := there
  · obtain ⟨u, old, found, equal⟩ := listed name before
    exact ⟨u, old, Heap.alloc_cell_of_used found, equal⟩
  · exact ⟨s.user.next, reg, Heap.alloc_cell_next _ _, rfl⟩

theorem Listed.step (listed : Listed s) (sound : Sound s)
    (returned : step conf s event = .ok t) : Listed t := by
  have naming : Naming conf (fun _ => True) event :=
    ⟨fun _ _ => trivial, fun _ _ _ _ _ => trivial⟩
  have moves : Moves conf (fun _ => True) True s t :=
    step_moves naming sound.access (Or.inl trivial) returned
  clear returned
  induction moves with
  | refl => exact listed
  | tail _ last ih =>
      obtain same | ⟨reg, -, -, -, -, -, rfl⟩ | ⟨account, rfl⟩ := last.names
      · exact ih.same same
      · exact ih.register reg
      · exact ih.freeUserReg account

end Regs

end RatboxServices
