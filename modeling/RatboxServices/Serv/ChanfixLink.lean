import RatboxServices.Net.TakeoverAgree
import RatboxServices.Serv.ChanfixList

namespace RatboxServices

open CString

/-! A channel points to its entry and the entry to its channel, whatever is
freed on the way; and to the channel store the callbacks of ChanFix are as if
they were not there. -/

namespace Chanfix

structure Linked (s : Chanfix) : Prop where
  link : ∀ c e, s.cfptr c = some e ↔
    ∃ cf, s.entry.cell e = some cf ∧ cf.chptr = c
  list : Exactly s.chanfixList (s.entry.Has fun _ => True)
  live : ∀ e cf, s.entry.cell e = some cf →
    ∃ ch, s.chans.channel.cell cf.chptr = some ch

def Target (s : Chanfix) (e : EntryId) (name : CString) : Prop :=
  ∃ cf ch, s.entry.cell e = some cf ∧
    s.chans.channel.cell cf.chptr = some ch ∧ ch.name = name

def Adds (view : ChanfixView) (s t : Chanfix) : Prop :=
  ∀ e name, t.Target e name →
    s.Target e name ∨ view.findChannelReg name = false

variable {chanfixP : ClientId} {view : ChanfixView} {s t u : Chanfix}
  {c : ChannelId} {ch : Channel} {e : EntryId} {cf : ChanfixChannel}

theorem Adds.refl (view : ChanfixView) (s : Chanfix) : Adds view s s :=
  fun _ _ there => Or.inl there

theorem Adds.trans (first : Adds view s t) (second : Adds view t u) :
    Adds view s u := by
  intro e name there
  obtain earlier | new := second e name there
  · exact first e name earlier
  · exact Or.inr new

theorem liveChannel_ok (used : s.chans.channel.cell c = some ch) :
    s.liveChannel c = .ok ch := by
  simp [liveChannel, used]

theorem liveEntry_ok (used : s.entry.cell e = some cf) :
    s.liveEntry e = .ok cf := by
  simp [liveEntry, used]

namespace Linked

theorem start : Linked start where
  link := by simp [Chanfix.start]
  list := .nil (by simp [Heap.Has, Chanfix.start])
  live := by simp [Chanfix.start]

theorem cell_of_cfptr (linked : Linked s) (pointed : s.cfptr c = some e) :
    ∃ cf, s.entry.cell e = some cf ∧ cf.chptr = c :=
  (linked.link c e).mp pointed

theorem cfptr_of_cell (linked : Linked s) (used : s.entry.cell e = some cf) :
    s.cfptr cf.chptr = some e :=
  (linked.link _ e).mpr ⟨cf, used, rfl⟩

theorem onChans (linked : Linked s) {change : Chans → Chans}
    (stays : ∀ c ch, s.chans.channel.cell c = some ch →
      (s.cfptr c).isSome = true →
      ∃ later, (change s.chans).channel.cell c = some later) :
    Linked (s.onChans change) where
  link := linked.link
  list := linked.list
  live := by
    intro e cf used
    obtain ⟨ch, there⟩ := linked.live e cf used
    exact stays cf.chptr ch there (by simp [linked.cfptr_of_cell used])

theorem unlinkEntry (linked : Linked s) (pointed : s.cfptr c = some e) :
    Linked (s.unlinkEntry c e) := by
  obtain ⟨gone, found, mine⟩ := linked.cell_of_cfptr pointed
  have cells : ∀ d cf, (s.entry.free e).cell d = some cf ↔
      d ≠ e ∧ s.entry.cell d = some cf := by
    intro d cf
    rw [Heap.free_cell]
    split
    · simp_all
    · simp_all
  exact {
    link := by
      intro d other
      simp only [Chanfix.unlinkEntry, Function.update_apply, cells]
      split
      · rename_i equal
        refine iff_of_false (fun impossible => nomatch impossible) ?_
        rintro ⟨cf, ⟨different, used⟩, isIts⟩
        have again := linked.cfptr_of_cell used
        rw [isIts, equal, pointed] at again
        exact different (Option.some.inj again).symm
      · rename_i different
        rw [linked.link]
        refine exists_congr fun cf => ?_
        constructor
        · rintro ⟨used, isIts⟩
          refine ⟨⟨?_, used⟩, isIts⟩
          rintro rfl
          rw [found, Option.some.injEq] at used
          rw [← used, mine] at isIts
          exact different isIts.symm
        · exact fun there => ⟨there.1.2, there.2⟩
    list := linked.list.free_in
    live := fun d cf used => linked.live d cf ((cells d cf).mp used).2 }

end Linked

theorem Adds.onChans (linked : Linked s) {change : Chans → Chans}
    (kept : ∀ c ch later, s.chans.channel.cell c = some ch →
      (change s.chans).channel.cell c = some later → later.name = ch.name) :
    Adds view s (s.onChans change) := by
  rintro e name ⟨cf, later, used, there, rfl⟩
  obtain ⟨ch, before⟩ := linked.live e cf used
  exact Or.inl ⟨cf, ch, used, before, (kept _ _ _ before there).symm⟩

theorem Adds.unlinkEntry : Adds view s (s.unlinkEntry c e) := by
  rintro d name ⟨cf, ch, used, there⟩
  refine Or.inl ⟨cf, ch, ?_, there⟩
  simp only [Chanfix.unlinkEntry, Heap.free_cell] at used
  split at used
  · cases used
  · exact used

structure Moves (view : ChanfixView) (chans : Chans) (s t : Chanfix) :
    Prop where
  chans : t.chans = chans
  linked : Linked t
  adds : Adds view s t

theorem Moves.refl (view : ChanfixView) (linked : Linked s) :
    Moves view s.chans s s where
  chans := rfl
  linked := linked
  adds := Adds.refl view s

theorem Moves.trans {middle after : Chans} (first : Moves view middle s t)
    (second : Moves view after t u) : Moves view after s u where
  chans := second.chans
  linked := second.linked
  adds := first.adds.trans second.adds

theorem Moves.onChans (linked : Linked s) {change : Chans → Chans}
    (stays : s.chans.Stays (change s.chans)) :
    Moves view (change s.chans) s (s.onChans change) where
  chans := rfl
  linked := by
    refine linked.onChans fun c ch used _ => ?_
    obtain ⟨later, there, _⟩ := stays c ch used
    exact ⟨later, there⟩
  adds := by
    refine Adds.onChans linked fun c ch later used there => ?_
    obtain ⟨other, again, same⟩ := stays c ch used
    rw [there, Option.some.injEq] at again
    rw [again, same]

/-- The entries after a channel was perhaps freed: they are as before, but for
the channel's own. -/
structure Trims (view : ChanfixView) (c : ChannelId) (s t : Chanfix) :
    Prop where
  linked : Linked t
  adds : Adds view s t
  same : s.cfptr c = none → t.entry = s.entry ∧
    t.chanfixList = s.chanfixList ∧ t.cfptr = s.cfptr

theorem Trims.refl (view : ChanfixView) (c : ChannelId) (linked : Linked s) :
    Trims view c s s where
  linked := linked
  adds := Adds.refl view s
  same := fun _ => ⟨rfl, rfl, rfl⟩

variable (chanfixP view)

section Free

variable (free : ChannelId → Chanfix → Except ChanfixStop Chanfix)
  {serviceP : ClientId} {chname : CString}

theorem partService_absent (found : s.chans.findChannel chname = some c)
    (used : s.chans.channel.cell c = some ch)
    (outside : serviceP ∉ ch.services) :
    partService free serviceP chname s = .ok s := by
  have absent : Dlink.find serviceP ch.services = false := by
    simpa [Dlink.find] using outside
  unfold partService
  rw [found]
  refine Except.bind_eq_ok.mpr ⟨ch, liveChannel_ok used, ?_⟩
  rw [absent]
  rfl

theorem channelDestroy_ok (linked : Linked s) (named : s.chans.Named)
    (used : s.chans.channel.cell c = some ch) (deserted : ch.services = []) :
    ∃ t, channelDestroy chanfixP free c s = .ok t ∧ t.chans = s.chans ∧
      t.cfptr c = none ∧ Trims view c s t := by
  unfold channelDestroy
  cases pointed : s.cfptr c with
  | none => exact ⟨s, rfl, rfl, pointed, Trims.refl view c linked⟩
  | some e =>
      obtain ⟨cf, found, _⟩ := linked.cell_of_cfptr pointed
      refine ⟨s.unlinkEntry c e, ?_, rfl, by simp [unlinkEntry], ?_⟩
      · have absent : partService free chanfixP ch.name (s.unlinkEntry c e) =
            .ok (s.unlinkEntry c e) :=
          partService_absent (s := s.unlinkEntry c e) free
            (named.findChannel used) used (by simp [deserted])
        simp only [Option.isSome_some, if_true, delChanfix]
        refine Except.bind_eq_ok.mpr ⟨ch, liveChannel_ok used, ?_⟩
        simp only [pointed]
        exact Except.bind_eq_ok.mpr ⟨cf, liveEntry_ok found, absent⟩
      · exact {
          linked := linked.unlinkEntry pointed
          adds := Adds.unlinkEntry
          same := fun none => by
            rw [pointed] at none
            cases none }

theorem freeChannel_ok (linked : Linked s) (named : s.chans.Named)
    (used : s.chans.channel.cell c = some ch) (deserted : ch.services = [])
    (depth : Nat) :
    ∃ t, freeChannel chanfixP (depth + 1) c s = .ok t ∧
      t.chans = s.chans.freeChannel c ∧ Trims view c s t := by
  obtain ⟨t, called, chans, dropped, trims⟩ :=
    channelDestroy_ok chanfixP view (freeChannel chanfixP depth) linked named
      used deserted
  have there : t.chans.channel.cell c = some ch := by rw [chans, used]
  have cells : ∀ d, (t.chans.freeChannel c).channel.cell d =
      if d = c then none else t.chans.channel.cell d := by
    intro d
    simp only [Chans.freeChannel, there, Chans.delChannel, Chans.onBucket,
      Heap.free_cell]
  refine ⟨t.onChans (·.freeChannel c), ?_, ?_, ?_, ?_, trims.same⟩
  · rw [freeChannel]
    refine Except.bind_eq_ok.mpr ⟨t, called, ?_⟩
    exact Except.bind_eq_ok.mpr ⟨ch, liveChannel_ok there, rfl⟩
  · simp only [onChans, chans]
  · refine trims.linked.onChans fun d other here pointed => ?_
    have different : d ≠ c := by
      rintro rfl
      rw [dropped] at pointed
      cases pointed
    exact ⟨other, by rw [cells, if_neg different, here]⟩
  · refine trims.adds.trans (Adds.onChans trims.linked ?_)
    intro d other later here after
    rw [cells] at after
    split at after
    · cases after
    · rw [here, Option.some.injEq] at after
      rw [after]

theorem freeIfEmpty_ok (linked : Linked s) (named : s.chans.Named)
    (used : s.chans.channel.cell c = some ch) (depth : Nat) :
    ∃ t, freeIfEmpty (freeChannel chanfixP (depth + 1)) c s = .ok t ∧
      t.chans = s.chans.freeIfEmpty c ∧ Trims view c s t := by
  unfold freeIfEmpty Chans.freeIfEmpty
  simp only [used]
  by_cases deserted : (ch.users.isEmpty && ch.services.isEmpty) = true
  · have services : ch.services = [] := by
      rw [Bool.and_eq_true, List.isEmpty_iff, List.isEmpty_iff] at deserted
      exact deserted.2
    obtain ⟨t, freed, chans, trims⟩ := freeChannel_ok chanfixP
      view linked named used services depth
    refine ⟨t, Except.bind_eq_ok.mpr ⟨ch, liveChannel_ok used, ?_⟩, ?_, trims⟩
    · rw [if_pos deserted, freed]
    · rw [if_pos deserted, chans]
  · refine ⟨s, Except.bind_eq_ok.mpr ⟨ch, liveChannel_ok used, ?_⟩, ?_,
      Trims.refl view c linked⟩
    · rw [if_neg deserted]
    · rw [if_neg deserted]

theorem partService_ok (linked : Linked s) (named : s.chans.Named)
    (found : s.chans.findChannel chname = some c) (depth : Nat) :
    ∃ t, partService (freeChannel chanfixP (depth + 1)) serviceP chname s =
        .ok t ∧
      t.chans = (s.chans.partService serviceP chname).1 ∧
      Trims view c s t := by
  obtain ⟨ch, used, _⟩ := Chans.exists_of_findChannel found
  unfold partService Chans.partService
  simp only [found, used]
  by_cases inside : Dlink.find serviceP ch.services = true
  · let left (chans : Chans) : Chans :=
      (chans.modifyChannel c fun ch =>
        { ch with services := Dlink.findDestroy serviceP ch.services
          }).onServiceChannels serviceP (Dlink.findDestroy c)
    have same : s.chans.SameNames (left s.chans) :=
      Chans.SameNames.of_modify rfl rfl fun _ => rfl
    have there : (left s.chans).channel.cell c = some
        { ch with services := Dlink.findDestroy serviceP ch.services } := by
      show (Heap.modify _ _ _).cell c = _
      rw [Heap.modify_cell_self, used]
      rfl
    have moves : Moves view (left s.chans) s (s.onChans left) :=
      Moves.onChans linked (Chans.Stays.of_same same)
    obtain ⟨t, freed, chans, trims⟩ := freeIfEmpty_ok (s := s.onChans left)
      chanfixP view moves.linked (named.congr same) there depth
    refine ⟨t, Except.bind_eq_ok.mpr ⟨ch, liveChannel_ok used, ?_⟩, ?_,
      trims.linked, moves.adds.trans trims.adds, trims.same⟩
    · rw [if_pos inside]
      exact freed
    · rw [if_pos inside, chans]
      rfl
  · refine ⟨s, Except.bind_eq_ok.mpr ⟨ch, liveChannel_ok used, ?_⟩, ?_,
      Trims.refl view c linked⟩
    · rw [if_neg inside]
    · rw [if_neg inside]

theorem partService_any (linked : Linked s) (named : s.chans.Named)
    (serviceP : ClientId) (chname : CString) (depth : Nat) :
    ∃ t, partService (freeChannel chanfixP (depth + 1)) serviceP chname s =
        .ok t ∧
      Moves view (s.chans.partService serviceP chname).1 s t := by
  cases found : s.chans.findChannel chname with
  | none =>
      refine ⟨s, ?_, ?_, linked, Adds.refl view s⟩
      · simp [partService, found]
      · simp [Chans.partService, found]
  | some c =>
      obtain ⟨t, parted, chans, trims⟩ :=
        partService_ok chanfixP view linked named found depth
      exact ⟨t, parted, chans, trims.linked, trims.adds⟩

theorem delChanfix_ok (linked : Linked s) (named : s.chans.Named)
    (pointed : s.cfptr c = some e)
    (used : s.chans.channel.cell c = some ch) (depth : Nat) :
    ∃ t, delChanfix chanfixP (freeChannel chanfixP (depth + 1)) c s = .ok t ∧
      Moves view (s.chans.partService chanfixP ch.name).1 s t ∧
      t.chanfixList = Dlink.delete e s.chanfixList := by
  obtain ⟨cf, found, _⟩ := linked.cell_of_cfptr pointed
  obtain ⟨t, parted, chans, trims⟩ := partService_ok
    (s := s.unlinkEntry c e) chanfixP view (linked.unlinkEntry pointed) named
    (named.findChannel used) depth
  refine ⟨t, ?_, ⟨chans, trims.linked, Adds.unlinkEntry.trans trims.adds⟩,
    (trims.same (by simp [unlinkEntry])).2.1⟩
  unfold delChanfix
  refine Except.bind_eq_ok.mpr ⟨ch, liveChannel_ok used, ?_⟩
  rw [pointed]
  exact Except.bind_eq_ok.mpr ⟨cf, liveEntry_ok found, parted⟩

end Free

theorem Moves.alloc (linked : Linked s)
    (used : s.chans.channel.cell c = some ch)
    (unregistered : view.findChannelReg ch.name = false)
    (free : s.cfptr c = none) (isIts : cf.chptr = c) :
    Moves view s.chans s { s with
      entry := s.entry.alloc cf
      chanfixList := Dlink.add s.entry.next s.chanfixList
      cfptr := Function.update s.cfptr c (some s.entry.next) } where
  chans := rfl
  linked :=
    { link := by
        intro d e
        simp only [Function.update_apply, Heap.alloc_cell]
        split
        · rename_i equal
          subst equal
          split
          · rename_i new
            simp [new, isIts]
          · rename_i old
            rw [← linked.link, free]
            exact iff_of_false (fun same => old (Option.some.inj same).symm)
              (fun impossible => nomatch impossible)
        · rename_i different
          split
          · rename_i new
            refine iff_of_false (fun there => ?_) ?_
            · obtain ⟨old, used, _⟩ := linked.cell_of_cfptr there
              rw [new, Heap.cell_next] at used
              cases used
            · rintro ⟨other, same, itsOwn⟩
              cases same
              exact different (itsOwn.symm.trans isIts)
          · exact linked.link d e
      list := linked.list.alloc_in trivial
      live := by
        intro e other there
        rw [Heap.alloc_cell] at there
        split at there
        · cases there
          exact ⟨ch, by rw [isIts, used]⟩
        · exact linked.live e other there }
  adds := by
    rintro e name ⟨other, later, there, live, rfl⟩
    rw [Heap.alloc_cell] at there
    split at there
    · cases there
      rw [isIts, used, Option.some.injEq] at live
      exact Or.inr (live ▸ unregistered)
    · exact Or.inl ⟨other, later, there, live, rfl⟩

theorem addChanfix_ok (linked : Linked s)
    (used : s.chans.channel.cell c = some ch) (type : Nat) :
    ∃ t added, addChanfix view c type s = .ok (t, added) ∧
      Moves view s.chans s t := by
  have same : Moves view s.chans s s := Moves.refl view linked
  suffices added : ∃ result, addChanfix view c type s = .ok result ∧
      Moves view s.chans s result.1 by
    obtain ⟨result, returned, moves⟩ := added
    exact ⟨result.1, result.2, returned, moves⟩
  unfold addChanfix
  rw [liveChannel_ok used]
  show ∃ result, (if view.findChannelReg ch.name = true then _ else _) = _ ∧ _
  split
  · exact ⟨_, rfl, same⟩
  · rename_i unregistered
    dsimp only
    split
    · exact ⟨_, rfl, same⟩
    · split
      · exact ⟨_, rfl, same⟩
      · split
        · exact ⟨_, rfl, same⟩
        · rename_i absent
          split
          · exact ⟨_, rfl, same⟩
          · split
            · exact ⟨_, rfl, same⟩
            · refine ⟨_, rfl, Moves.alloc view linked used ?_ ?_ rfl⟩
              · simpa using unregistered
              · simpa using absent

theorem channelOpless_ok (linked : Linked s)
    (used : s.chans.channel.cell c = some ch) :
    ∃ t, s.channelOpless view c = .ok t ∧ Moves view s.chans s t := by
  have same : Moves view s.chans s s := Moves.refl view linked
  unfold channelOpless
  rw [liveChannel_ok used]
  show ∃ t, (if (s.cfptr c).isSome = true then _ else _) = _ ∧ _
  split
  · exact ⟨s, rfl, same⟩
  · split
    · exact ⟨s, rfl, same⟩
    · split
      · obtain ⟨t, added, returned, moves⟩ :=
          addChanfix_ok view linked used cfStatusAutofix
        rw [returned]
        exact ⟨t, rfl, moves⟩
      · exact ⟨s, rfl, same⟩

theorem callOpless_ok (linked : Linked s)
    (used : s.chans.channel.cell c = some ch) :
    ∃ t, s.callOpless view c = .ok t ∧ Moves view s.chans s t := by
  unfold callOpless
  rw [liveChannel_ok used]
  show ∃ t, (if ch.usersOpped.isEmpty = true then _ else _) = _ ∧ _
  split
  · exact channelOpless_ok view linked used
  · exact ⟨s, rfl, Moves.refl view linked⟩

structure Sound (s : Chanfix) : Prop where
  linked : Linked s
  named : s.chans.Named
  inv : s.chans.Inv fun _ => True

theorem Sound.start : Sound start where
  linked := .start
  named := .empty
  inv := .empty

theorem delChmember_ok (sound : Sound s) (mptr : MemberId) :
    ∃ t, s.delChmember chanfixP view mptr = .ok t ∧
      Moves view (s.chans.delChmember mptr) s t := by
  unfold delChmember Chans.delChmember
  cases found : s.chans.member.cell mptr with
  | none => exact ⟨s, rfl, Moves.refl view sound.linked⟩
  | some member =>
      obtain ⟨ch, used⟩ := sound.inv.owner mptr member found
      let left (chans : Chans) : Chans :=
        ((chans.modifyChannel member.chptr fun ch =>
          { ch with users := Dlink.delete mptr ch.users }).onUserChannels
            member.clientP (Dlink.delete mptr)).modifyChannel member.chptr
              fun ch =>
                if member.isOpped then
                  { ch with usersOpped := Dlink.delete mptr ch.usersOpped }
                else
                  { ch with
                    usersUnopped := Dlink.delete mptr ch.usersUnopped }
      have same : s.chans.SameNames (left s.chans) := by
        refine Chans.SameNames.of_modify rfl
          (Heap.modify_modify s.chans.channel member.chptr _ _) fun ch => ?_
        dsimp only
        split <;> rfl
      have gone : Moves view (left s.chans) s (s.onChans left) :=
        Moves.onChans sound.linked (Chans.Stays.of_same same)
      obtain ⟨before, there, _⟩ := same.symm.cell used
      obtain ⟨t, called, opless⟩ : ∃ t,
          (s.onChans left).noteLeft view member = .ok t ∧
            Moves view (left s.chans) (s.onChans left) t := by
        unfold noteLeft
        split
        · exact callOpless_ok view gone.linked there
        · exact ⟨_, rfl, Moves.refl view gone.linked⟩
      have still : t.chans.channel.cell member.chptr = some before := by
        rw [opless.chans, there]
      obtain ⟨u, freed, chans, trims⟩ := freeIfEmpty_ok chanfixP
        view opless.linked
        (by rw [opless.chans]; exact sound.named.congr same) still 1
      refine ⟨u.onChans fun chans =>
        { chans with member := chans.member.free mptr }, ?_, ?_⟩
      · refine Except.bind_eq_ok.mpr ⟨t, called, ?_⟩
        exact Except.bind_eq_ok.mpr ⟨u, freed, rfl⟩
      · refine (gone.trans opless).trans ⟨?_, ?_, trims.adds⟩
        · simp only [onChans, chans, opless.chans]
          rfl
        · exact ⟨trims.linked.link, trims.linked.list, trims.linked.live⟩

theorem deopChmember_ok (sound : Sound s) (mptr : MemberId) :
    ∃ t, s.deopChmember view mptr = .ok t ∧
      Moves view (s.chans.deopChmember mptr) s t := by
  unfold deopChmember
  cases found : s.chans.member.cell mptr with
  | none =>
      refine ⟨s, rfl, ?_⟩
      simpa [Chans.deopChmember, found] using Moves.refl view sound.linked
  | some member =>
      obtain ⟨ch, used⟩ := sound.inv.owner mptr member found
      dsimp only
      split
      · rename_i unopped
        refine ⟨s, rfl, ?_⟩
        simpa [Chans.deopChmember, found, unopped] using
          Moves.refl view sound.linked
      · have same := Chans.SameNames.restatus (.deop (s := s.chans) mptr)
        have moves : Moves view (s.chans.deopChmember mptr) s
            (s.onChans (·.deopChmember mptr)) :=
          Moves.onChans sound.linked (Chans.Stays.of_same same)
        obtain ⟨later, there, _⟩ := same.symm.cell used
        obtain ⟨t, called, opless⟩ :=
          callOpless_ok view moves.linked there
        exact ⟨t, called, moves.trans opless⟩

theorem takeover_ok (sound : Sound s) (serviceP : ClientId)
    (c : ChannelId) (invite exceptions invex : Bool) :
    ∃ t, s.takeover chanfixP view serviceP c invite exceptions invex =
        .ok t ∧
      Moves view (s.chans.takeover serviceP c invite exceptions invex
        view.now) s t := by
  have refused (same : s.chans.takeover serviceP c invite exceptions invex
      view.now = s.chans) :
      Moves view (s.chans.takeover serviceP c invite exceptions invex
        view.now) s s := by
    rw [same]
    exact Moves.refl view sound.linked
  unfold takeover
  cases used : s.chans.channel.cell c with
  | none => exact ⟨s, rfl, refused (by simp [Chans.takeover, used])⟩
  | some ch =>
      dsimp only
      split
      · rename_i taken
        refine ⟨s, rfl, refused ?_⟩
        simp only [Chans.takeover, used]
        rw [if_pos taken]
      · rename_i taken
        have users : ch.users ≠ [] := by
          rintro empty
          simp [empty] at taken
        have found := sound.named.findChannel used
        have stamp : 2 ≤ ch.tsinfo := by
          simp only [Bool.or_eq_true, decide_eq_true_eq, not_or] at taken
          omega
        obtain ⟨_, _, there⟩ :
            (s.chans.partService serviceP ch.name).1.member = _ ∧ _ :=
          Chans.partService_stays found used users
        obtain ⟨t, parted, left⟩ := partService_any chanfixP view sound.linked
          sound.named serviceP ch.name 1
        have still := there
        rw [← left.chans] at still
        let finish (chans : Chans) : Chans :=
          (Chans.emptyChannel c invite exceptions invex chans).joinService
            serviceP ch.name (ch.tsinfo - 1) none false view.now
        have stays : t.chans.Stays (finish t.chans) :=
          (Chans.Stays.of_same
            (Chans.SameNames.lowered c exceptions invex invite)).trans
            (Chans.Stays.joinService serviceP ch.name (ch.tsinfo - 1) none
              false view.now)
        have joined : Moves view (finish t.chans) t (t.onChans finish) :=
          Moves.onChans left.linked stays
        rw [left.chans] at joined
        refine ⟨t.onChans finish, Except.bind_eq_ok.mpr ⟨t, parted,
          Except.bind_eq_ok.mpr ⟨_, liveChannel_ok still, rfl⟩⟩, ?_⟩
        rw [Chans.takeover_steps found used users stamp]
        exact left.trans joined

theorem exec_ok (sound : Sound s) (act : ChanAct) :
    ∃ t, s.exec chanfixP view act = .ok t ∧
      Moves view (act.exec view.now s.chans) s t := by
  have stays (change : Chans → Chans)
      (same : s.chans.SameNames (change s.chans)) :
      ∃ t, (.ok (s.onChans change) : Except ChanfixStop Chanfix) = .ok t ∧
        Moves view (change s.chans) s t :=
    ⟨_, rfl, Moves.onChans sound.linked (Chans.Stays.of_same same)⟩
  cases act with
  | deop mptr => exact deopChmember_ok view sound mptr
  | kick mptr => exact delChmember_ok chanfixP view sound mptr
  | part serviceP chname =>
      exact partService_any chanfixP view sound.linked sound.named serviceP
        chname 1
  | takeover serviceP chptr invite exceptions invex =>
      exact takeover_ok chanfixP view sound serviceP chptr invite exceptions invex
  | join serviceP chname tsinfo mode override =>
      exact ⟨_, rfl, Moves.onChans sound.linked
        (Chans.Stays.joinService serviceP chname tsinfo mode override view.now)⟩
  | op mptr => exact stays _ (.restatus (.op mptr))
  | voice mptr => exact stays _ ⟨rfl, fun _ => rfl⟩
  | devoice mptr => exact stays _ ⟨rfl, fun _ => rfl⟩
  | removeOv chptr => exact stays _ (Chans.SameNames.removeOurOvModes chptr)
  | enforce chptr emode =>
      exact stays _ (Chans.SameNames.of_modify rfl rfl fun _ => rfl)
  | setTopic chptr topic topicwho tsinfo =>
      exact stays _ (Chans.SameNames.of_modify rfl rfl fun _ => rfl)
  | addBan chptr mask =>
      exact stays _ (Chans.SameNames.of_modify rfl rfl fun _ => rfl)
  | delBan chptr mask =>
      exact stays _ (Chans.SameNames.of_modify rfl rfl fun _ => rfl)
  | removeModes chptr =>
      exact stays _ (Chans.SameNames.of_modify rfl rfl fun _ => rfl)
  | removeBans chptr bans exceptions invex =>
      exact stays _
        (Chans.SameNames.removeOurBans chptr bans exceptions invex)

end Chanfix

end RatboxServices
