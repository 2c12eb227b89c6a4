import RatboxServices.Serv.NickStep

namespace RatboxServices

open CString

/-! Whose nick it is in every run, and who is killed for it. -/

namespace NickState

variable {conf : ServConfig} {nickConf : NickConfig} {s t : NickState}
  {event : NickEvent} {lines : List NickLine}

/-- How a registration ends: its owner drops it, an operator does, or the
account is gone. -/
inductive Ends (s : NickState) (event : NickEvent) (t : NickState)
    (reg : NickReg) : Prop where
  | owner (client : ClientId) (name : CString)
      (asked : event.act = .drop client name)
      (named : irccmp reg.name name = true)
      (login : s.regs.login client = some (some reg.userReg))
  | operator (name : CString) (asked : event.act = .nickdrop name)
      (named : irccmp reg.name name = true)
  | account (gone : t.regs.user.cell reg.userReg = none)

def Same (old new : NickReg) : Prop :=
  new.userReg = old.userReg ∧ new.name = old.name ∧
    new.regTime = old.regTime

theorem stays_or_ends (inv : Inv conf nickConf s)
    (answered : Answered conf nickConf s event t lines) {n : NickRegId}
    {reg : NickReg} (cell : s.nick.cell n = some reg) :
    (∃ new, t.nick.cell n = some new ∧ Same reg new) ∨
      Ends s event t reg := by
  have self {new : NickReg} (same : new = reg) : Same reg new := by
    subst same
    exact ⟨rfl, rfl, rfl⟩
  cases answered with
  | idle nicks =>
      rw [nicks.nick]
      exact Or.inl ⟨reg, cell, self rfl⟩
  | accounts act plain regs asked returned =>
      obtain ⟨-, -, cells⟩ := freeUsers inv
        (s.regs.userTable.filter fun account =>
          (regs.user.cell account).isNone)
      cases owner : regs.user.cell reg.userReg with
      | none => exact Or.inr (.account owner)
      | some user =>
          refine Or.inl ⟨reg, (cells n reg).mpr ⟨cell, ?_⟩, self rfl⟩
          intro listed
          simp [owner] at listed
  | register regs access other =>
      refine Or.inl ⟨reg, ?_, self rfl⟩
      show (addNickReg other _).nick.cell n = _
      rw [addNickReg_cell, if_neg (Nat.ne_of_lt (Heap.lt_next cell))]
      exact cell
  | drop regs access client name m other asked cell' named login =>
      rw [freeNickReg_cell]
      by_cases same : n = m
      · subst same
        rw [cell, Option.some.injEq] at cell'
        subst cell'
        exact Or.inr (.owner client name asked named login)
      · rw [if_neg same]
        exact Or.inl ⟨reg, cell, self rfl⟩
  | nickdrop name m other asked cell' named =>
      rw [freeNickReg_cell]
      by_cases same : n = m
      · subst same
        rw [cell, Option.some.injEq] at cell'
        subst cell'
        exact Or.inr (.operator name asked named)
      · rw [if_neg same]
        exact Or.inl ⟨reg, cell, self rfl⟩
  | setFlags regs access m other cell' flags =>
      refine Or.inl ⟨_, Heap.modify_of_cell cell, ?_⟩
      split
      · exact ⟨rfl, rfl, rfl⟩
      · exact self rfl
  | kill nicks =>
      rw [nicks.nick]
      exact Or.inl ⟨reg, cell, self rfl⟩

/-- From any state of a run on, a nick that is registered stays with its
account until the owner drops it, an operator does, or the account is
gone. -/
theorem owner_of_run {events later : List NickEvent}
    (reached : run (step conf nickConf) start events = .ok s)
    (further : run (step conf nickConf) s later = .ok t) {name : CString}
    {reg : NickReg} (found : s.lookup name = some reg) :
    (∃ new, t.lookup name = some new ∧ Same reg new) ∨
      ∃ first event rest before after, later = first ++ event :: rest ∧
        run (step conf nickConf) s first = .ok before ∧
        before.step conf nickConf event = .ok after ∧
        Ends before event after reg := by
  have inv := inv_of_run reached
  clear reached
  induction later generalizing s reg with
  | nil =>
      cases further
      exact Or.inl ⟨reg, found, rfl, rfl, rfl⟩
  | cons event later ih =>
      obtain ⟨middle, stepped, rest⟩ := run_cons_eq_ok.mp further
      obtain ⟨lines, answered⟩ := step_answered inv stepped
      obtain ⟨n, cell, named⟩ := (lookup_eq_some_iff inv).mp found
      obtain ⟨new, stays, owner, same, time⟩ | ends :=
        stays_or_ends inv answered cell
      · have again : middle.lookup name = some new :=
          (lookup_eq_some_iff (inv.answered answered)).mpr
            ⟨n, stays, same ▸ named⟩
        obtain ⟨last, kept, owner', same', time'⟩ |
          ⟨first, last, tail, before, after, rfl, ran, next, ends⟩ :=
            ih rest again (inv.answered answered)
        · exact Or.inl ⟨last, kept, owner'.trans owner, same'.trans same,
            time'.trans time⟩
        · refine Or.inr ⟨event :: first, last, tail, before, after, rfl,
            run_cons_eq_ok.mpr ⟨middle, stepped, ran⟩, next, ?_⟩
          cases ends with
          | owner client name' asked named' login =>
              exact .owner client name' asked (same ▸ named') (owner ▸ login)
          | operator name' asked named' =>
              exact .operator name' asked (same ▸ named')
          | account gone => exact .account (owner ▸ gone)
      · exact Or.inr ⟨[], event, later, s, middle, rfl, rfl, stepped, ends⟩

/-- A user who is not logged in cannot drop it. -/
theorem owner_of_takenNick :
    ∃ s t reg, run (step (setDefaultConf "services.".toList) .default) start
        takenNick = .ok s ∧
      run (step (setDefaultConf "services.".toList) .default) s
        [⟨105, .drop 2 "Ally".toList⟩] = .ok t ∧
      s.lookup "Ally".toList = some reg ∧
      ∃ new, t.lookup "Ally".toList = some new ∧ Same reg new := by
  have observed : (run (step (setDefaultConf "services.".toList) .default)
      start takenNick).toOption.map (fun s =>
        ((s.lookup "Ally".toList).map NickReg.userReg, s.regs.loginOf 2)) =
      some (some 0, none) := by
    decide +kernel
  obtain ⟨s, reached, seen⟩ := Except.exists_of_observed observed
  rw [Prod.mk.injEq, Option.map_eq_some_iff] at seen
  obtain ⟨⟨reg, found, -⟩, out⟩ := seen
  have further : run (step (setDefaultConf "services.".toList) .default) s
      [⟨105, .drop 2 "Ally".toList⟩] = .ok s := by
    refine run_cons_eq_ok.mpr ⟨s, ?_, rfl⟩
    simp [step, answer, sNickDrop, asOwner, asUser, out]
    rfl
  refine ⟨s, s, reg, reached, further, found, ?_⟩
  obtain stays | ⟨first, event, rest, before, after, -, -, -, -⟩ :=
    owner_of_run reached further found
  · exact stays
  · exact ⟨reg, found, rfl, rfl, rfl⟩

/-- In every run, who is killed uses a nick that is registered to the account
of the one who asks for it, and is not that one. -/
theorem kill_of_run {events : List NickEvent}
    (reached : run (step conf nickConf) start events = .ok s)
    (returned : s.answer conf nickConf event = .ok (t, lines))
    {client target : ClientId} (killed : .kill client target ∈ lines) :
    target ≠ client ∧ ∃ nick reg account, (target, nick) ∈ s.online ∧
      s.lookup nick = some reg ∧ reg.userReg = account ∧
      s.regs.login client = some (some account) := by
  have inv := inv_of_run reached
  cases answer_answered inv returned with
  | idle nicks access online peaceful => exact absurd killed (peaceful _ _)
  | accounts => cases killed
  | register => cases killed
  | drop => cases killed
  | nickdrop => cases killed
  | setFlags => cases killed
  | kill nicks access online killer used reg nick found login there other only =>
      obtain ⟨rfl, rfl⟩ := only client target killed
      exact ⟨other, nick, reg, reg.userReg, there, found, rfl, login⟩

/-- The user of the registered nick is killed for its owner. -/
theorem kill_of_takenNick :
    ∃ s t lines, run (step (setDefaultConf "services.".toList) .default) start
        takenNick = .ok s ∧
      s.answer (setDefaultConf "services.".toList) .default
        ⟨105, .release 1 "ally".toList⟩ = .ok (t, lines) ∧
      .kill 1 2 ∈ lines ∧ (2 : ClientId) ≠ 1 ∧
      ∃ nick reg, (2, nick) ∈ s.online ∧ s.lookup nick = some reg := by
  have observed : ((run (step (setDefaultConf "services.".toList) .default)
      start takenNick).bind fun s =>
        (s.answer (setDefaultConf "services.".toList) .default
          ⟨105, .release 1 "ally".toList⟩).map fun answer => (s, answer)
      ).toOption.map (fun found => found.2.2) = some [.kill 1 2] := by
    decide +kernel
  obtain ⟨⟨s, t, lines⟩, found, seen⟩ := Except.exists_of_observed observed
  obtain ⟨s', reached, rest⟩ := Except.bind_eq_ok.mp found
  cases answered : s'.answer (setDefaultConf "services.".toList) .default
      ⟨105, .release 1 "ally".toList⟩ with
  | error stop =>
      rw [answered] at rest
      cases rest
  | ok answer =>
      rw [answered] at rest
      cases rest
      have killed : .kill 1 2 ∈ lines := by
        rw [show lines = [.kill 1 2] from seen]
        exact List.mem_cons_self
      obtain ⟨other, nick, reg, account, there, registered, -⟩ :=
        kill_of_run reached answered killed
      exact ⟨s, t, lines, reached, answered, killed, other, nick, reg, there,
        registered⟩

end NickState

end RatboxServices
