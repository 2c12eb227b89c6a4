import RatboxServices.Serv.ChanfixLink

namespace RatboxServices

open CString

/-! Whatever happens to channels while ChanFix is fixing them, no entry is used
that is no longer there. -/

namespace Chanfix

variable {chanfixP : ClientId} {view : ChanfixView} {s t u : Chanfix}
  {c : ChannelId} {ch : Channel} {e : EntryId} {cf : ChanfixChannel}

theorem Moves.sound {chans : Chans} (moves : Moves view chans s t)
    (named : chans.Named) (inv : chans.Inv fun _ => True) : Sound t where
  linked := moves.linked
  named := by rw [moves.chans]; exact named
  inv := by rw [moves.chans]; exact inv

structure Keeps (view : ChanfixView) (s t : Chanfix) : Prop where
  sound : Sound t
  adds : Adds view s t
  list : t.chanfixList = s.chanfixList
  owner : ∀ e, (t.entry.cell e).map ChanfixChannel.chptr =
    (s.entry.cell e).map ChanfixChannel.chptr

structure Ends (view : ChanfixView) (e : EntryId) (s t : Chanfix) :
    Prop where
  sound : Sound t
  adds : Adds view s t
  list : t.chanfixList = s.chanfixList ∨
    t.chanfixList = Dlink.delete e s.chanfixList

namespace Keeps

theorem refl (view : ChanfixView) (sound : Sound s) : Keeps view s s where
  sound := sound
  adds := Adds.refl view s
  list := rfl
  owner := fun _ => rfl

theorem trans (first : Keeps view s t) (second : Keeps view t u) :
    Keeps view s u where
  sound := second.sound
  adds := first.adds.trans second.adds
  list := second.list.trans first.list
  owner := fun e => (second.owner e).trans (first.owner e)

theorem ends (keeps : Keeps view s t) : Ends view e s t where
  sound := keeps.sound
  adds := keeps.adds
  list := Or.inl keeps.list

theorem then_ends (keeps : Keeps view s t) (ends : Ends view e t u) :
    Ends view e s u where
  sound := ends.sound
  adds := keeps.adds.trans ends.adds
  list := keeps.list ▸ ends.list

theorem cell (keeps : Keeps view s t) (used : s.entry.cell e = some cf) :
    ∃ later, t.entry.cell e = some later ∧ later.chptr = cf.chptr := by
  have owner := keeps.owner e
  rw [used, Option.map_some] at owner
  exact Option.map_eq_some_iff.mp owner

theorem onChans (sound : Sound s) {change : Chans → Chans}
    (same : s.chans.SameNames (change s.chans))
    (inv : (change s.chans).Inv fun _ => True) :
    Keeps view s (s.onChans change) := by
  have moves : Moves view (change s.chans) s (s.onChans change) :=
    Moves.onChans sound.linked (Chans.Stays.of_same same)
  exact {
    sound := moves.sound (sound.named.congr same) inv
    adds := moves.adds
    list := rfl
    owner := fun _ => rfl }

end Keeps

theorem Linked.updateEntry (linked : Linked s)
    {change : ChanfixChannel → ChanfixChannel}
    (kept : ∀ cf, (change cf).chptr = cf.chptr) :
    Linked { s with entry := s.entry.modify e change } := by
  have owner := Heap.modify_cell_map kept s.entry e
  exact {
    link := by
      intro c d
      rw [linked.link]
      have same := owner d
      constructor
      · rintro ⟨cf, used, isIts⟩
        rw [used, Option.map_some] at same
        obtain ⟨new, there, equal⟩ := Option.map_eq_some_iff.mp same
        exact ⟨new, there, equal.trans isIts⟩
      · rintro ⟨new, there, isIts⟩
        rw [there, Option.map_some] at same
        obtain ⟨cf, used, equal⟩ := Option.map_eq_some_iff.mp same.symm
        exact ⟨cf, used, equal.trans isIts⟩
    list := linked.list.modify_same fun _ _ => Iff.rfl
    live := by
      intro d new there
      have same := owner d
      rw [there, Option.map_some] at same
      obtain ⟨cf, used, equal⟩ := Option.map_eq_some_iff.mp same.symm
      rw [← equal]
      exact linked.live d cf used }

theorem updateEntry_ok (view : ChanfixView) (sound : Sound s)
    (used : s.entry.cell e = some cf)
    (change : ChanfixChannel → ChanfixChannel)
    (kept : ∀ cf, (change cf).chptr = cf.chptr) :
    ∃ t, s.updateEntry e change = .ok t ∧ Keeps view s t ∧
      t.chans = s.chans ∧ t.entry.cell e = some (change cf) := by
  have owner := Heap.modify_cell_map kept s.entry e
  refine ⟨{ s with entry := s.entry.modify e change },
    Except.bind_eq_ok.mpr ⟨cf, liveEntry_ok used, rfl⟩, ?_, rfl, ?_⟩
  · exact {
      sound := ⟨sound.linked.updateEntry kept, sound.named, sound.inv⟩
      adds := by
        rintro d name ⟨new, ch, there, live⟩
        have same := owner d
        rw [there, Option.map_some] at same
        obtain ⟨old, before, equal⟩ := Option.map_eq_some_iff.mp same.symm
        exact Or.inl ⟨old, ch, before, equal ▸ live⟩
      list := rfl
      owner := owner }
  · simp [used]

theorem entryChannel_ok (sound : Sound s) (used : s.entry.cell e = some cf) :
    ∃ ch, s.entryChannel e = .ok (cf, ch) ∧
      s.chans.channel.cell cf.chptr = some ch := by
  obtain ⟨ch, there⟩ := sound.linked.live e cf used
  refine ⟨ch, Except.bind_eq_ok.mpr ⟨cf, liveEntry_ok used, ?_⟩, there⟩
  exact Except.bind_eq_ok.mpr ⟨ch, liveChannel_ok there, rfl⟩

section Turn

variable (chanfixP view)

theorem delFix_ok (sound : Sound s) (used : s.entry.cell e = some cf) :
    ∃ t, s.delFix chanfixP cf.chptr = .ok t ∧ Ends view e s t := by
  obtain ⟨ch, there⟩ := sound.linked.live e cf used
  obtain ⟨t, deleted, moves, list⟩ := delChanfix_ok chanfixP view sound.linked
    sound.named (sound.linked.cfptr_of_cell used) there 1
  exact ⟨t, deleted,
    { sound := moves.sound (sound.named.partService chanfixP ch.name)
        (sound.inv.partService chanfixP ch.name)
      adds := moves.adds
      list := Or.inr list }⟩

theorem partUsed_ok (sound : Sound s)
    (used : s.chans.channel.cell c = some ch) (users : ch.users ≠ []) :
    ∃ t, partService (free chanfixP) chanfixP ch.name s = .ok t ∧
      Keeps view s t ∧ t.entry = s.entry := by
  have found := sound.named.findChannel used
  by_cases inside : chanfixP ∈ ch.services
  · have linked : Dlink.find chanfixP ch.services = true := by
      simpa [Dlink.find] using inside
    let left (chans : Chans) : Chans :=
      (chans.modifyChannel c fun ch =>
        { ch with services := Dlink.findDestroy chanfixP ch.services
          }).onServiceChannels chanfixP (Dlink.findDestroy c)
    have there : (left s.chans).channel.cell c = some
        { ch with services := Dlink.findDestroy chanfixP ch.services } := by
      show (Heap.modify _ _ _).cell c = _
      rw [Heap.modify_cell_self, used]
      rfl
    have stays : (left s.chans).freeIfEmpty c = left s.chans := by
      simp [Chans.freeIfEmpty, there, users]
    have same : s.chans.SameNames (left s.chans) :=
      Chans.SameNames.of_modify rfl rfl fun _ => rfl
    have inv : (left s.chans).Inv fun _ => True := by
      rw [← stays]
      refine Chans.Inv.freeIfEmpty (Chans.Inv.onServiceChannels ?_ _ _)
      exact sound.inv.modifyServices c fun _ => ⟨rfl, rfl, rfl, rfl⟩
    refine ⟨s.onChans left, ?_, Keeps.onChans sound same inv, rfl⟩
    unfold partService
    rw [found]
    refine Except.bind_eq_ok.mpr ⟨ch, liveChannel_ok used, ?_⟩
    rw [linked]
    refine Except.bind_eq_ok.mpr ⟨_, liveChannel_ok there, ?_⟩
    simp [users]
    rfl
  · exact ⟨s, partService_absent _ found used inside, Keeps.refl view sound,
      rfl⟩

theorem minClients_pos : 0 < view.minClients := by
  unfold ChanfixView.minClients
  split
  · exact Nat.succ_pos 1
  · omega

theorem endWindow_ok (sound : Sound s) (used : s.entry.cell e = some cf) :
    ∃ t, s.endWindow chanfixP view e = .ok t ∧ Ends view e s t := by
  obtain ⟨ch, read, there⟩ := entryChannel_ok sound used
  unfold endWindow
  rw [read]
  show ∃ t, (if cf.cycle % cfFixCycles = 0 then _ else _) = _ ∧ _
  split
  · split
    · exact delFix_ok chanfixP view sound used
    · rename_i enough
      split
      · exact delFix_ok chanfixP view sound used
      · have users : ch.users ≠ [] := by
          have positive := minClients_pos view
          intro none
          rw [none] at enough
          exact enough positive
        obtain ⟨t, parted, keeps, same⟩ :=
          partUsed_ok chanfixP view sound there users
        obtain ⟨u, updated, again, _⟩ := updateEntry_ok view keeps.sound
          (same ▸ used)
          (fun cf =>
            { cf with
              fixStarted := view.now
              cycle := (cf.cycle + 1) % 4294967296
              scores := none }) fun _ => rfl
        exact ⟨u, Except.bind_eq_ok.mpr ⟨t, parted, updated⟩,
          (keeps.trans again).ends⟩
  · obtain ⟨t, updated, keeps, _⟩ := updateEntry_ok view sound used
      (fun cf =>
        { cf with
          fixStarted := view.now
          cycle := (cf.cycle + 1) % 4294967296 }) fun _ => rfl
    exact ⟨t, updated, keeps.ends⟩

theorem refreshScores_ok (sound : Sound s)
    (used : s.entry.cell e = some cf) :
    ∃ t ready, s.refreshScores view e = .ok (t, ready) ∧ Keeps view s t := by
  obtain ⟨ch, read, there⟩ := entryChannel_ok sound used
  unfold refreshScores
  rw [read]
  show ∃ t ready, (if cf.scores.isSome = true then _ else _) = _ ∧ _
  split
  · exact ⟨s, true, rfl, Keeps.refl view sound⟩
  · split
    · exact ⟨s, false, rfl, Keeps.refl view sound⟩
    · rename_i scores fetched
      obtain ⟨t, updated, keeps, _⟩ := updateEntry_ok view sound used
        (fun cf => { cf with scores := some scores }) fun _ => rfl
      exact ⟨t, true, Except.bind_eq_ok.mpr ⟨t, updated, rfl⟩, keeps⟩

theorem joinFix_ok (sound : Sound s) (used : s.entry.cell e = some cf) :
    ∃ t, s.joinFix chanfixP view e = .ok t ∧ Keeps view s t ∧
      t.entry = s.entry := by
  obtain ⟨ch, read, there⟩ := entryChannel_ok sound used
  let join (chans : Chans) : Chans :=
    chans.joinService chanfixP ch.name ch.tsinfo none false view.now
  refine ⟨s.onChans join, Except.bind_eq_ok.mpr ⟨(cf, ch), read, rfl⟩,
    Keeps.onChans sound ?_ ?_, rfl⟩
  · exact Chans.SameNames.joinService (sound.named.findChannel there)
  · exact sound.inv.joinService chanfixP ch.name ch.tsinfo none false view.now

theorem clearAfter_ok {flag : Nat} {time : Int} {blocks : Channel → Bool}
    {clear : ChannelId → Chans → Chans}
    (same : ∀ c (chans : Chans), chans.SameNames (clear c chans))
    (inv : ∀ c (chans : Chans), (chans.Inv fun _ => True) →
      (clear c chans).Inv fun _ => True)
    (sound : Sound s) (used : s.entry.cell e = some cf) :
    ∃ t, s.clearAfter chanfixP view flag time blocks clear e = .ok t ∧
      Keeps view s t := by
  obtain ⟨ch, read, there⟩ := entryChannel_ok sound used
  unfold clearAfter
  rw [read]
  show ∃ t, (if (!cf.flags.has flag &&
    decide (time < view.now - cf.fixStarted)) = true then _ else _) = _ ∧ _
  split
  · split
    · obtain ⟨t, joined, keeps, entry⟩ := joinFix_ok chanfixP view sound used
      have cleared : Keeps view t (t.onChans (clear cf.chptr)) :=
        Keeps.onChans keeps.sound (same _ _) (inv _ _ keeps.sound.inv)
      obtain ⟨u, updated, again, _⟩ := updateEntry_ok view cleared.sound
        (show (t.onChans (clear cf.chptr)).entry.cell e = some cf from
          entry ▸ used)
        (fun cf => { cf with flags := cf.flags.set flag })
        fun _ => rfl
      refine ⟨u, Except.bind_eq_ok.mpr ⟨t.onChans (clear cf.chptr), ?_,
        updated⟩, (keeps.trans cleared).trans again⟩
      exact Except.bind_eq_ok.mpr ⟨t, joined, rfl⟩
    · obtain ⟨t, updated, keeps, _⟩ := updateEntry_ok view sound used
        (fun cf => { cf with flags := cf.flags.set flag })
        fun _ => rfl
      exact ⟨t, updated, keeps⟩
  · exact ⟨s, rfl, Keeps.refl view sound⟩

theorem clearModes_ok (sound : Sound s) (used : s.entry.cell e = some cf) :
    ∃ t, s.clearModes chanfixP view e = .ok t ∧ Keeps view s t :=
  clearAfter_ok chanfixP view
    (fun _ _ => Chans.SameNames.of_modify rfl rfl fun _ => rfl)
    (fun c _ inv => inv.removeOurSimpleModes c) sound used

theorem clearBans_ok (sound : Sound s) (used : s.entry.cell e = some cf) :
    ∃ t, s.clearBans chanfixP view e = .ok t ∧ Keeps view s t :=
  clearAfter_ok chanfixP view
    (fun c _ => Chans.SameNames.removeOurBans c true false false)
    (fun c _ inv => inv.removeOurBans c true false false) sound used

theorem matchAll_ok {userhostId : ClientId → Nat} {chans : Chans}
    {members : List MemberId}
    (live : ∀ mptr ∈ members, ∃ member, chans.member.cell mptr = some member)
    (m : Matching) :
    ∃ result, Matching.matchAll userhostId chans members m = .ok result := by
  induction members generalizing m with
  | nil => exact ⟨m, rfl⟩
  | cons mptr rest ih =>
      obtain ⟨member, found⟩ := live mptr (by simp)
      unfold Matching.matchAll
      rw [found]
      dsimp only
      split
      · exact ⟨_, rfl⟩
      · exact ih (fun other later => live other (List.mem_cons_of_mem _ later)) _

theorem matchChmembers_ok (sound : Sound s)
    (used : s.chans.channel.cell c = some ch)
    (scores : Option ChanfixScores) :
    ∃ result, matchChmembers view.userhostId s.chans scores ch.usersUnopped =
      .ok result := by
  unfold matchChmembers
  split
  · exact ⟨none, rfl⟩
  · split
    · exact ⟨none, rfl⟩
    · have live : ∀ mptr ∈ ch.usersUnopped,
          ∃ member, s.chans.member.cell mptr = some member := by
        intro mptr listed
        obtain ⟨member, found, _⟩ :=
          ((sound.inv.unopped c ch used).mem_iff mptr).mp listed
        exact ⟨member, found⟩
      obtain ⟨m, matched⟩ := matchAll_ok live _
      exact ⟨_, Except.bind_eq_ok.mpr ⟨m, matched, rfl⟩⟩

theorem inv_foldl_opChmember (members : List MemberId) {chans : Chans}
    (inv : chans.Inv fun _ => True) :
    (members.foldl (fun chans mptr => chans.opChmember mptr) chans).Inv
      fun _ => True := by
  induction members generalizing chans with
  | nil => exact inv
  | cons mptr rest ih => exact ih (inv.opChmember mptr)

theorem fixOplessChannel_ok (sound : Sound s)
    (used : s.entry.cell e = some cf) (known : cf.scores.isSome = true) :
    ∃ t fixed, s.fixOplessChannel view e = .ok (t, fixed) ∧
      Keeps view s t := by
  obtain ⟨scores, same⟩ := Option.isSome_iff_exists.mp known
  let minScore := view.minScore (view.now - cf.fixStarted) cf.highestScore
  let op (chans : Chans) : Chans :=
    (scores.items.filterMap (·.target minScore) ++
      scores.clones.filterMap (·.target minScore)).foldl
        (fun chans mptr => chans.opChmember mptr) chans
  have opped : Keeps view s (s.onChans op) :=
    Keeps.onChans sound (Chans.SameNames.foldl_opChmember _)
      (inv_foldl_opChmember _ sound.inv)
  obtain ⟨t, updated, keeps, chans, _⟩ := updateEntry_ok view opped.sound
    (show (s.onChans op).entry.cell e = some cf from used)
    (fun cf => { cf with
      scores := some { scores with
        items := scores.items.map (·.mark minScore) } }) fun _ => rfl
  obtain ⟨later, still, owner⟩ := (opped.trans keeps).cell used
  obtain ⟨ch, there⟩ := keeps.sound.linked.live e later still
  rw [owner] at there
  refine ⟨t, allOpped (scores.items.filterMap (·.target minScore))
    (scores.items.map (·.mark minScore)) ch, ?_, opped.trans keeps⟩
  refine Except.bind_eq_ok.mpr ⟨cf, liveEntry_ok used, ?_⟩
  rw [same]
  exact Except.bind_eq_ok.mpr ⟨t, updated,
    Except.bind_eq_ok.mpr ⟨ch, liveChannel_ok there, rfl⟩⟩

theorem opUsers_ok (sound : Sound s) (used : s.entry.cell e = some cf) :
    ∃ t, s.opUsers chanfixP view e = .ok t ∧ Ends view e s t := by
  obtain ⟨ch, read, there⟩ := entryChannel_ok sound used
  obtain ⟨result, matched⟩ := matchChmembers_ok view sound there cf.scores
  unfold opUsers
  rw [read, Except.ok_bind]
  dsimp only
  rw [matched, Except.ok_bind]
  cases result with
  | none => exact ⟨s, rfl, (Keeps.refl view sound).ends⟩
  | some scores =>
      obtain ⟨t, updated, keeps, _, cell⟩ := updateEntry_ok view sound used
        (fun cf => { cf with scores := some scores }) fun _ => rfl
      dsimp only
      rw [updated]
      show ∃ t, (if scores.matched = 0 then _ else _) = _ ∧ _
      split
      · exact ⟨t, rfl, keeps.ends⟩
      · obtain ⟨u, joined, again, entry⟩ :=
          joinFix_ok chanfixP view keeps.sound cell
        obtain ⟨v, fixed, opped, marks⟩ :=
          fixOplessChannel_ok view again.sound (entry ▸ cell) rfl
        have whole := (keeps.trans again).trans marks
        rw [joined]
        show ∃ t, (u.fixOplessChannel view e >>= fun _ => _) = _ ∧ _
        rw [opped]
        show ∃ t, (if fixed = true then _ else _) = _ ∧ _
        split
        · obtain ⟨later, still, owner⟩ := whole.cell used
          obtain ⟨w, deleted, ends⟩ := delFix_ok chanfixP view whole.sound still
          rw [owner] at deleted
          exact ⟨w, deleted, whole.then_ends ends⟩
        · exact ⟨v, rfl, whole.ends⟩

theorem attemptFix_ok (sound : Sound s) (used : s.entry.cell e = some cf) :
    ∃ t, s.attemptFix chanfixP view e = .ok t ∧ Ends view e s t := by
  obtain ⟨ch, read, there⟩ := entryChannel_ok sound used
  unfold attemptFix
  rw [read]
  show ∃ t, (if cfMinFixOps ≤ ch.usersOpped.length then _ else _) = _ ∧ _
  split
  · exact delFix_ok chanfixP view sound used
  · split
    · exact endWindow_ok chanfixP view sound used
    · obtain ⟨t, ready, refreshed, fetched⟩ :=
        refreshScores_ok view sound used
      obtain ⟨first, usedFirst, owner⟩ := fetched.cell used
      rw [refreshed]
      show ∃ t, (if (!ready) = true then _ else _) = _ ∧ _
      split
      · obtain ⟨u, deleted, ends⟩ :=
          delFix_ok chanfixP view fetched.sound usedFirst
        rw [owner] at deleted
        exact ⟨u, deleted, fetched.then_ends ends⟩
      · obtain ⟨u, modes, keepsModes⟩ :=
          clearModes_ok chanfixP view fetched.sound usedFirst
        obtain ⟨second, usedSecond, _⟩ := keepsModes.cell usedFirst
        obtain ⟨v, bans, keepsBans⟩ :=
          clearBans_ok chanfixP view keepsModes.sound usedSecond
        obtain ⟨third, usedThird, _⟩ := keepsBans.cell usedSecond
        obtain ⟨w, opped, ends⟩ :=
          opUsers_ok chanfixP view keepsBans.sound usedThird
        refine ⟨w, ?_,
          ((fetched.trans keepsModes).trans keepsBans).then_ends ends⟩
        exact Except.bind_eq_ok.mpr ⟨u, modes,
          Except.bind_eq_ok.mpr ⟨v, bans, opped⟩⟩

theorem processEntry_ok (fixType : Nat) (sound : Sound s)
    (listed : e ∈ s.chanfixList) :
    ∃ t, s.processEntry chanfixP view fixType e = .ok t ∧
      Ends view e s t := by
  obtain ⟨cf, used, _⟩ := (sound.linked.list.mem_iff e).mp listed
  unfold processEntry
  rw [liveEntry_ok used]
  show ∃ t, (if (!cf.flags.has fixType) = true then _ else _) = _ ∧ _
  split
  · exact ⟨s, rfl, (Keeps.refl view sound).ends⟩
  · split
    · exact ⟨s, rfl, (Keeps.refl view sound).ends⟩
    · obtain ⟨t, updated, keeps, _, cell⟩ := updateEntry_ok view sound used
        (fun cf => { cf with prevAttempt := view.now }) fun _ => rfl
      obtain ⟨u, attempted, ends⟩ :=
        attemptFix_ok chanfixP view keeps.sound cell
      exact ⟨u, Except.bind_eq_ok.mpr ⟨t, updated, attempted⟩,
        keeps.then_ends ends⟩

theorem processChanfixList_ok (fixType : Nat) (sound : Sound s) :
    ∃ t, s.processChanfixList chanfixP view fixType = .ok t ∧ Sound t ∧
      Adds view s t := by
  refine foreachSafe_ok chanfixList (fun t => Sound t ∧ Adds view s t) ?_ ?_
    ?_ ⟨sound, Adds.refl view s⟩
  · exact fun t inv => inv.1.linked.list.nodup
  · intro t e inv listed
    obtain ⟨cf, used, _⟩ := (inv.1.linked.list.mem_iff e).mp listed
    exact Except.bind_eq_ok.mpr ⟨cf, liveEntry_ok used, rfl⟩
  · intro t e inv listed
    obtain ⟨u, processed, ends⟩ :=
      processEntry_ok chanfixP view fixType inv.1 listed
    exact ⟨u, processed, ⟨ends.sound, inv.2.trans ends.adds⟩, ends.list⟩

end Turn

section Step

variable (chanfixP view)

theorem scoreChannels_ok (sound : Sound s) :
    ∃ t, s.eChanfixScoreChannels view = .ok t ∧
      Moves view s.chans s t := by
  unfold eChanfixScoreChannels
  split
  · exact ⟨s, rfl, Moves.refl view sound.linked⟩
  · refine Outcome.exists_ok (Outcome.foldlM (Moves view s.chans s)
      (Moves.refl view sound.linked) fun t moves c listed => ?_)
    obtain ⟨ch, used, _⟩ := (sound.inv.list.mem_iff c).mp listed
    have there : t.chans.channel.cell c = some ch := by
      rw [moves.chans, used]
    refine Outcome.of_exists_ok ?_
    unfold scoreChannel
    rw [liveChannel_ok there]
    show ∃ u, (if view.minClients ≤ ch.users.length then _ else _) = _ ∧ _
    split
    · split
      · exact ⟨t, rfl, moves⟩
      · split
        · exact ⟨t, rfl, moves⟩
        · obtain ⟨u, added, returned, more⟩ :=
            addChanfix_ok view moves.linked there cfStatusAutofix
          rw [returned]
          refine ⟨u, rfl, moves.trans ?_⟩
          exact moves.chans ▸ more
    · exact ⟨t, rfl, moves⟩

theorem oChanfixChanfix_ok (sound : Sound s) (chname : CString) :
    ∃ t, s.oChanfixChanfix chanfixP view chname = .ok t ∧ Sound t ∧
      Adds view s t := by
  have same : Sound s ∧ Adds view s s := ⟨sound, Adds.refl view s⟩
  unfold oChanfixChanfix
  split
  · exact ⟨s, rfl, same⟩
  · split
    · exact ⟨s, rfl, same⟩
    · rename_i c found
      obtain ⟨ch, used, _⟩ := Chans.exists_of_findChannel found
      rw [liveChannel_ok used]
      show ∃ t, (if (!view.enableChanfix || view.networkSplit) = true then _
        else _) = _ ∧ _
      split
      · exact ⟨s, rfl, same⟩
      · split
        · exact ⟨s, rfl, same⟩
        · split
          · exact ⟨s, rfl, same⟩
          · obtain ⟨t, added, returned, moves⟩ :=
              addChanfix_ok view sound.linked used cfStatusManfix
            have grown : Sound t := moves.sound sound.named sound.inv
            rw [returned]
            show ∃ u, (if (!added) = true then _ else _) = _ ∧ _
            split
            · exact ⟨t, rfl, grown, moves.adds⟩
            · let open_ (chans : Chans) : Chans :=
                ((chans.joinService chanfixP chname ch.tsinfo none false
                  view.now).removeOurSimpleModes c).removeOurBans c true false
                    false
              have keeps : Keeps view t (t.onChans open_) := by
                refine Keeps.onChans grown ?_ ?_
                · rw [moves.chans]
                  have joined : s.chans.SameNames (s.chans.joinService
                      chanfixP chname ch.tsinfo none false view.now) :=
                    Chans.SameNames.joinService found
                  exact (joined.trans
                    (Chans.SameNames.removeOurSimpleModes c)).trans
                      (Chans.SameNames.removeOurBans c true false false)
                · exact ((grown.inv.joinService chanfixP chname ch.tsinfo none
                    false view.now).removeOurSimpleModes c).removeOurBans c
                      true false false
              exact ⟨_, rfl, keeps.sound, moves.adds.trans keeps.adds⟩

theorem oChanfixRevert_ok (sound : Sound s) (chname : CString) :
    ∃ t, s.oChanfixRevert chanfixP view chname = .ok t ∧ Sound t ∧
      Adds view s t := by
  have same : Sound s ∧ Adds view s s := ⟨sound, Adds.refl view s⟩
  unfold oChanfixRevert
  split
  · exact ⟨s, rfl, same⟩
  · split
    · exact ⟨s, rfl, same⟩
    · rename_i c found
      obtain ⟨ch, used, _⟩ := Chans.exists_of_findChannel found
      rw [liveChannel_ok used]
      show ∃ t, (if ch.users.length < view.minClients then _ else _) = _ ∧ _
      split
      · exact ⟨s, rfl, same⟩
      · split
        · exact ⟨s, rfl, same⟩
        · obtain ⟨t, added, returned, moves⟩ :=
            addChanfix_ok view sound.linked used cfStatusManfix
          have grown : Sound t := moves.sound sound.named sound.inv
          rw [returned]
          show ∃ u, (if (!added) = true then _ else _) = _ ∧ _
          split
          · exact ⟨t, rfl, grown, moves.adds⟩
          · obtain ⟨u, taken, more⟩ := takeover_ok chanfixP view grown chanfixP
              c false false false
            refine ⟨u, taken, more.sound ?_ ?_, moves.adds.trans more.adds⟩
            · exact grown.named.takeover chanfixP c false false false view.now
            · exact grown.inv.takeover chanfixP c false false false view.now

theorem oChanfixInfo_ok (sound : Sound s) (chname : CString) :
    ∃ reported, s.oChanfixInfo view chname = .ok reported := by
  unfold oChanfixInfo
  split
  · exact ⟨none, rfl⟩
  · split
    · exact ⟨none, rfl⟩
    · rename_i c found
      obtain ⟨ch, used, _⟩ := Chans.exists_of_findChannel found
      rw [liveChannel_ok used]
      cases pointed : s.cfptr c with
      | none => exact ⟨none, rfl⟩
      | some e =>
          obtain ⟨cf, there, _⟩ := sound.linked.cell_of_cfptr pointed
          refine ⟨some (cf.flags, cf.cycle), ?_⟩
          exact Except.bind_eq_ok.mpr ⟨ch, rfl,
            Except.bind_eq_ok.mpr ⟨cf, liveEntry_ok there, rfl⟩⟩

theorem onChans_ok (sound : Sound s) {change : Chans → Chans}
    (stays : s.chans.Stays (change s.chans))
    (named : (change s.chans).Named)
    (inv : (change s.chans).Inv fun _ => True) :
    Sound (s.onChans change) ∧ Adds view s (s.onChans change) := by
  have moves : Moves view (change s.chans) s (s.onChans change) :=
    Moves.onChans sound.linked stays
  exact ⟨moves.sound named inv, moves.adds⟩

theorem onSameNames_ok (sound : Sound s) {change : Chans → Chans}
    (same : s.chans.SameNames (change s.chans))
    (inv : (change s.chans).Inv fun _ => True) :
    Sound (s.onChans change) ∧ Adds view s (s.onChans change) :=
  onChans_ok view sound (Chans.Stays.of_same same) (sound.named.congr same) inv

theorem enter_ok (sound : Sound s) (target : ClientId)
    (keepNewModes opped voiced : Bool)
    (used : s.chans.channel.cell c = some ch) :
    Sound (s.enter target (State.memberFlags keepNewModes opped voiced) c) ∧
      Adds view s
        (s.enter target (State.memberFlags keepNewModes opped voiced) c) := by
  unfold enter
  cases absent : s.chans.findChmember c target with
  | some _ => exact ⟨sound, Adds.refl view s⟩
  | none =>
      have inv := sound.inv.addChmember ⟨ch, used⟩
        (sound.inv.no_chmember absent)
        (State.memberFlags_clean keepNewModes opped voiced)
      exact onSameNames_ok view sound (Chans.SameNames.addChmember c target _)
        (inv.weaken fun _ _ => trivial)

theorem dropOldModes_ok (sound : Sound s) (newts : Int) (removeBans : Bool)
    (used : s.chans.channel.cell c = some ch) :
    Sound (s.onChans (State.dropOldModes c newts removeBans)) ∧
      Adds view s (s.onChans (State.dropOldModes c newts removeBans)) := by
  have pending : State.Pending (fun _ => True) c s.chans :=
    ⟨sound.inv, by simp [used]⟩
  exact onSameNames_ok view sound
    (Chans.SameNames.dropOldModes c newts removeBans)
    (pending.dropOldModes newts removeBans).1

theorem step_ok (sound : Sound s) (event : ChanfixEvent) :
    ∃ t, s.step chanfixP event = .ok t ∧ Sound t ∧ Adds event.view s t := by
  obtain ⟨view, act⟩ := event
  have same : Sound s ∧ Adds view s s := ⟨sound, Adds.refl view s⟩
  have onChannel (chname : CString)
      (handle : ChannelId → Except ChanfixStop Chanfix)
      (each : ∀ c ch, s.chans.channel.cell c = some ch →
        ∃ t, handle c = .ok t ∧ Sound t ∧ Adds view s t) :
      ∃ t, s.onChannel chname handle = .ok t ∧ Sound t ∧ Adds view s t := by
    unfold onChannel
    split
    · exact ⟨s, rfl, same⟩
    · rename_i c found
      obtain ⟨ch, used, _⟩ := Chans.exists_of_findChannel found
      exact each c ch used
  unfold step
  cases act with
  | chan act =>
      dsimp only
      split
      · rename_i fits
        obtain ⟨t, done, moves⟩ := exec_ok chanfixP view sound act
        exact ⟨t, done, moves.sound (sound.named.exec view.now fits)
          (sound.inv.exec view.now act), moves.adds⟩
      · exact ⟨s, rfl, same⟩
  | joinChannel chname newts =>
      dsimp only
      split
      · rename_i valid
        refine ⟨_, rfl, onChans_ok view sound
          (Chans.Stays.joinChannel chname newts)
          (sound.named.joinChannel (Chans.Named.fits_of_validChname valid)) ?_⟩
        exact (State.joinChannel_pending chname newts sound.inv).1.weaken
          fun _ _ => trivial
      · exact ⟨s, rfl, same⟩
  | dropOldModes chname newts removeBans =>
      exact onChannel chname _ fun c ch used =>
        ⟨_, rfl, dropOldModes_ok view sound newts removeBans used⟩
  | sjoinNick chname target keepNewModes opped voiced =>
      exact onChannel chname _ fun c ch used =>
        ⟨_, rfl, enter_ok view sound target keepNewModes opped voiced used⟩
  | sjoinEnd chname =>
      refine onChannel chname _ fun c ch used => ?_
      obtain ⟨t, freed, chans, trims⟩ :=
        freeIfEmpty_ok chanfixP view sound.linked sound.named used 1
      have moves : Moves view (s.chans.freeIfEmpty c) s t :=
        ⟨chans, trims.linked, trims.adds⟩
      refine ⟨t, freed, moves.sound (sound.named.freeIfEmpty c) ?_, moves.adds⟩
      exact (sound.inv.weaken fun _ => Or.inl).freeIfEmpty
  | serverSquitWarn =>
      exact ⟨_, rfl, ⟨⟨sound.linked.link, sound.linked.list, sound.linked.live⟩,
        sound.named, sound.inv⟩, fun _ _ there => Or.inl there⟩
  | scoreChannels =>
      obtain ⟨t, scored, moves⟩ := scoreChannels_ok view sound
      exact ⟨t, scored, moves.sound sound.named sound.inv, moves.adds⟩
  | chanfix chname => exact oChanfixChanfix_ok chanfixP view sound chname
  | revert chname => exact oChanfixRevert_ok chanfixP view sound chname
  | info chname =>
      obtain ⟨reported, returned⟩ := oChanfixInfo_ok view sound chname
      exact ⟨s, Except.bind_eq_ok.mpr ⟨reported, returned, rfl⟩, same⟩
  | autofix =>
      dsimp only
      unfold eChanfixAutofixChannels
      split
      · exact processChanfixList_ok chanfixP view cfStatusAutofix sound
      · exact ⟨s, rfl, same⟩
  | manfix =>
      dsimp only
      unfold eChanfixManfixChannels
      split
      · exact processChanfixList_ok chanfixP view cfStatusManfix sound
      · exact ⟨s, rfl, same⟩

end Step

def refersTo (s : Chanfix) (c : ChannelId) (e : EntryId) : Bool :=
  match s.entry.cell e with
  | some cf => cf.chptr == c
  | none => false

/-- A channel points to an entry if and only if exactly one entry of the list
is for it, and then it is that one. Every entry of the list is there, and so is
its channel. -/
structure Consistent (s : Chanfix) : Prop where
  cfptr : ∀ c ch, s.chans.channel.cell c = some ch →
    ((s.cfptr c).isSome = true ↔ s.chanfixList.countP (s.refersTo c) = 1)
  own : ∀ c e, s.cfptr c = some e →
    e ∈ s.chanfixList ∧ s.refersTo c e = true
  live : ∀ e ∈ s.chanfixList, ∃ cf ch, s.entry.cell e = some cf ∧
    s.chans.channel.cell cf.chptr = some ch

theorem Linked.refersTo_iff (linked : Linked s) :
    s.refersTo c e = true ↔ s.cfptr c = some e := by
  rw [linked.link, refersTo]
  cases s.entry.cell e with
  | none => simp
  | some cf => simp

theorem Linked.mem (linked : Linked s) (pointed : s.cfptr c = some e) :
    e ∈ s.chanfixList := by
  obtain ⟨cf, used, _⟩ := linked.cell_of_cfptr pointed
  exact (linked.list.mem_iff e).mpr ⟨cf, used, trivial⟩

theorem Linked.countP_refersTo (linked : Linked s)
    (pointed : s.cfptr c = some e) :
    s.chanfixList.countP (s.refersTo c) = 1 := by
  have only : ∀ d ∈ s.chanfixList, s.refersTo c d = (d == e) := by
    intro d _
    rw [Bool.eq_iff_iff, linked.refersTo_iff, pointed, beq_iff_eq,
      Option.some.injEq]
    exact eq_comm
  rw [List.countP_congr fun d listed => by rw [only d listed]]
  exact List.count_eq_one_of_mem linked.list.nodup (linked.mem pointed)

theorem Sound.consistent (sound : Sound s) : Consistent s where
  cfptr := by
    intro c ch used
    constructor
    · intro some
      obtain ⟨e, pointed⟩ := Option.isSome_iff_exists.mp some
      exact sound.linked.countP_refersTo pointed
    · intro one
      obtain ⟨e, _, refers⟩ : ∃ e ∈ s.chanfixList, s.refersTo c e = true :=
        List.countP_pos_iff.mp (by omega)
      rw [sound.linked.refersTo_iff.mp refers]
      rfl
  own := fun c e pointed =>
    ⟨sound.linked.mem pointed, sound.linked.refersTo_iff.mpr pointed⟩
  live := by
    intro e listed
    obtain ⟨cf, used, _⟩ := (sound.linked.list.mem_iff e).mp listed
    obtain ⟨ch, there⟩ := sound.linked.live e cf used
    exact ⟨cf, ch, used, there⟩

theorem run_sound (chanfixP : ClientId) (events : List ChanfixEvent) :
    ∃ s, run (step chanfixP) start events = .ok s ∧ Sound s :=
  run_of_meets Sound
    (fun _ event (_ : True) sound =>
      have ⟨t, stepped, kept, _⟩ := step_ok chanfixP sound event
      ⟨t, stepped, kept⟩)
    (meets_of_forall (fun _ _ => trivial) start events) Sound.start

/-- Whatever happens, and in whatever order: no entry and no channel is used
that was freed, channels and entries point to each other, and the channels that
an event adds are not registered then. -/
theorem chanfix_of_run (chanfixP : ClientId) (events : List ChanfixEvent) :
    ∃ s, run (step chanfixP) start events = .ok s ∧ s.Consistent ∧
      ∀ event : ChanfixEvent, ∃ t, s.step chanfixP event = .ok t ∧
        ∀ e ∈ t.chanfixList, e ∉ s.chanfixList →
          ∃ name, t.Target e name ∧
            event.view.findChannelReg name = false := by
  obtain ⟨s, reached, sound⟩ := run_sound chanfixP events
  refine ⟨s, reached, sound.consistent, fun event => ?_⟩
  obtain ⟨t, stepped, kept, adds⟩ := step_ok chanfixP sound event
  refine ⟨t, stepped, fun e listed new => ?_⟩
  obtain ⟨cf, used, _⟩ := (kept.linked.list.mem_iff e).mp listed
  obtain ⟨ch, there⟩ := kept.linked.live e cf used
  have target : t.Target e ch.name := ⟨cf, ch, used, there, rfl⟩
  obtain ⟨old, _, before, _⟩ | unregistered := adds e ch.name target
  · exact absurd ((sound.linked.list.mem_iff e).mpr ⟨old, before, trivial⟩) new
  · exact ⟨ch.name, target, unregistered⟩

end Chanfix

end RatboxServices
