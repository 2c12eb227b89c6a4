import RatboxServices.Serv.ChanfixRun

namespace RatboxServices

open CString

/-! Who is matched with the scores of a channel, and so who is opped. -/

def HasUserhost (userhostId : ClientId → Nat) (chans : Chans)
    (mptr : MemberId) (id : Nat) : Prop :=
  ∃ member, chans.member.cell mptr = some member ∧
    userhostId member.clientP = id

def membersOf (items : List ChanfixItem) : List MemberId :=
  items.filterMap ChanfixItem.msptr

def ChanfixItem.row (item : ChanfixItem) : Nat × Nat :=
  (item.userhostId, item.score)

/-- What `match_chmembers` makes of a table of scores: an item has no member or
a listed one with its id; a clone that has one has the score of its item, and
the item has another; nobody is in two places. -/
structure Matched (userhostId : ClientId → Nat) (chans : Chans)
    (members : List MemberId) (before after : ChanfixScores) : Prop where
  table : after.items.map ChanfixItem.row = before.items.map ChanfixItem.row
  item : ∀ item ∈ after.items, ∀ mptr, item.msptr = some mptr →
    mptr ∈ members ∧ HasUserhost userhostId chans mptr item.userhostId
  clone : ∀ clone ∈ after.clones, ∀ mptr, clone.msptr = some mptr →
    mptr ∈ members ∧ HasUserhost userhostId chans mptr clone.userhostId ∧
      ∃ item ∈ after.items, item.row = clone.row ∧ item.msptr.isSome = true
  once : (membersOf (after.items ++ after.clones)).Nodup
  matched : after.matched = after.items.countP (·.msptr.isSome)

section ChangeFirst

variable {test : ChanfixItem → Bool} {change : ChanfixItem → ChanfixItem}
  {items : List ChanfixItem}

theorem changeFirst_of_none (absent : items.find? test = none) :
    changeFirst test change items = items := by
  induction items with
  | nil => rfl
  | cons item rest ih =>
      unfold changeFirst
      rw [List.find?_cons] at absent
      split at absent
      · cases absent
      · rename_i fails
        rw [fails, if_neg Bool.false_ne_true, ih absent]

theorem changeFirst_of_some {found : ChanfixItem}
    (present : items.find? test = some found) :
    ∃ left right, items = left ++ found :: right ∧
      changeFirst test change items = left ++ change found :: right := by
  induction items with
  | nil => cases present
  | cons item rest ih =>
      unfold changeFirst
      rw [List.find?_cons] at present
      split at present
      · rename_i passes
        cases present
        rw [if_pos passes]
        exact ⟨[], rest, rfl, rfl⟩
      · rename_i fails
        obtain ⟨left, right, same, changed⟩ := ih present
        rw [fails, if_neg Bool.false_ne_true, changed]
        exact ⟨item :: left, right, by rw [same]; rfl, rfl⟩

end ChangeFirst

theorem membersOf_append (first second : List ChanfixItem) :
    membersOf (first ++ second) = membersOf first ++ membersOf second :=
  List.filterMap_append

theorem membersOf_changed {left right : List ChanfixItem}
    {old new : ChanfixItem} {mptr : MemberId} (free : old.msptr = none)
    (given : new.msptr = some mptr) :
    (membersOf (left ++ new :: right)).Perm
      (mptr :: membersOf (left ++ old :: right)) := by
  unfold membersOf
  rw [List.filterMap_append, List.filterMap_append,
    List.filterMap_cons_none free, List.filterMap_cons_some given]
  exact List.perm_middle

namespace Matching

/-- What `match_chmembers` would leave now. -/
def scores (m : Matching) : ChanfixScores where
  items := m.items
  matched := m.uCount
  clones := m.clones

theorem addClone_clones (mptr : MemberId) (score id : Nat) (m : Matching) :
    (∀ clone ∈ (m.addClone mptr score id).clones, clone ∈ m.clones ∨
      clone.msptr = some mptr ∧ clone.row = (id, score)) ∧
    (membersOf (m.addClone mptr score id).clones = membersOf m.clones ∨
      (membersOf (m.addClone mptr score id).clones).Perm
        (mptr :: membersOf m.clones)) := by
  unfold addClone
  dsimp only
  split
  · refine ⟨fun clone listed => ?_, Or.inr (List.Perm.refl _)⟩
    rcases List.mem_cons.mp listed with rfl | old
    · exact Or.inr ⟨rfl, rfl⟩
    · exact Or.inl old
  · cases free : m.clones.find? (·.msptr.isNone) with
    | none =>
        rw [changeFirst_of_none free]
        exact ⟨fun clone listed => Or.inl listed, Or.inl rfl⟩
    | some found =>
        obtain ⟨left, right, same, changed⟩ :=
          @changeFirst_of_some (·.msptr.isNone) (fun clone => { clone with
            msptr := some mptr, userhostId := id, score := score }) _ _ free
        rw [changed, same]
        refine ⟨fun clone listed => ?_, Or.inr ?_⟩
        · rcases List.mem_append.mp listed with there | there
          · exact Or.inl (List.mem_append_left _ there)
          · rcases List.mem_cons.mp there with rfl | there
            · exact Or.inr ⟨rfl, rfl⟩
            · exact Or.inl
                (List.mem_append_right _ (List.mem_cons_of_mem _ there))
        · have passes : found.msptr.isNone = true :=
            @List.find?_some _ (fun item : ChanfixItem => item.msptr.isNone) _ _
              free
          have empty := Option.isNone_iff_eq_none.mp passes
          exact membersOf_changed empty rfl

end Matching

namespace Matched

variable {userhostId : ClientId → Nat} {chans : Chans}
  {members seen : List MemberId} {before : ChanfixScores} {m : Matching}
  {mptr : MemberId} {id : Nat}

theorem mem_of_membersOf
    (matched : Matched userhostId chans seen before m.scores)
    (listed : mptr ∈ membersOf (m.items ++ m.clones)) : mptr ∈ seen := by
  obtain ⟨item, inside, has⟩ := List.mem_filterMap.mp listed
  rcases List.mem_append.mp inside with there | there
  · exact (matched.item item there mptr has).1
  · exact (matched.clone item there mptr has).1

theorem assign (matched : Matched userhostId chans seen before m.scores)
    (fresh : mptr ∉ seen) (has : HasUserhost userhostId chans mptr id)
    {left right : List ChanfixItem} {found : ChanfixItem}
    (split : m.items = left ++ found :: right) (same : found.userhostId = id)
    (free : found.msptr = none) :
    Matched userhostId chans (mptr :: seen) before
      { m.scores with
        items := left ++ { found with msptr := some mptr } :: right
        matched := m.uCount + 1 } := by
  have unused : mptr ∉ membersOf (m.items ++ m.clones) :=
    fun listed => fresh (matched.mem_of_membersOf listed)
  have old : ∀ item ∈ left ++ right, item ∈ m.items := by
    intro item listed
    rw [split]
    rcases List.mem_append.mp listed with there | there
    · exact List.mem_append_left _ there
    · exact List.mem_append_right _ (List.mem_cons_of_mem _ there)
  have new : ∀ item ∈ left ++ { found with msptr := some mptr } :: right,
      item ∈ left ++ right ∨ item = { found with msptr := some mptr } := by
    intro item listed
    rcases List.mem_append.mp listed with there | there
    · exact Or.inl (List.mem_append_left _ there)
    · rcases List.mem_cons.mp there with is | there
      · exact Or.inr is
      · exact Or.inl (List.mem_append_right _ there)
  refine ⟨?_, ?_, ?_, ?_, ?_⟩
  · refine Eq.trans ?_ matched.table
    dsimp only [Matching.scores]
    rw [split, List.map_append, List.map_append]
    rfl
  · intro item listed other given
    rcases new item listed with there | rfl
    · obtain ⟨inside, known⟩ := matched.item item (old item there) other given
      exact ⟨List.mem_cons_of_mem _ inside, known⟩
    · cases given
      exact ⟨List.mem_cons_self, same ▸ has⟩
  · intro clone listed other given
    obtain ⟨inside, known, item, there, row, taken⟩ :=
      matched.clone clone listed other given
    refine ⟨List.mem_cons_of_mem _ inside, known, item, ?_, row, taken⟩
    have kept : item ∈ left ++ found :: right := split ▸ there
    rcases List.mem_append.mp kept with before | after
    · exact List.mem_append_left _ before
    · rcases List.mem_cons.mp after with rfl | after
      · rw [free] at taken
        cases taken
      · exact List.mem_append_right _ (List.mem_cons_of_mem _ after)
  · have moved : (membersOf
        ((left ++ { found with msptr := some mptr } :: right) ++ m.clones)).Perm
          (mptr :: membersOf (m.items ++ m.clones)) := by
      rw [split, List.append_assoc, List.append_assoc, List.cons_append,
        List.cons_append]
      exact membersOf_changed free rfl
    exact moved.nodup_iff.mpr (List.nodup_cons.mpr ⟨unused, matched.once⟩)
  · have count := matched.matched
    dsimp only [Matching.scores] at count ⊢
    rw [split] at count
    simp only [List.countP_append, List.countP_cons, free, Option.isSome_none,
      Option.isSome_some, Bool.false_eq_true, if_false, if_true] at count ⊢
    omega

theorem addClone (matched : Matched userhostId chans seen before m.scores)
    (fresh : mptr ∉ seen) (has : HasUserhost userhostId chans mptr id)
    {item : ChanfixItem} (listed : item ∈ m.items) (same : item.userhostId = id)
    (taken : item.msptr.isSome = true) :
    Matched userhostId chans (mptr :: seen) before
      (m.addClone mptr item.score id).scores := by
  have unused : mptr ∉ membersOf (m.items ++ m.clones) :=
    fun listed => fresh (matched.mem_of_membersOf listed)
  obtain ⟨clones, once⟩ := Matching.addClone_clones mptr item.score id m
  refine ⟨matched.table, ?_, ?_, ?_, matched.matched⟩
  · intro other there mptr' given
    obtain ⟨inside, known⟩ := matched.item other there mptr' given
    exact ⟨List.mem_cons_of_mem _ inside, known⟩
  · intro clone there mptr' given
    rcases clones clone there with old | ⟨new, row⟩
    · obtain ⟨inside, known⟩ := matched.clone clone old mptr' given
      exact ⟨List.mem_cons_of_mem _ inside, known⟩
    · rw [new] at given
      cases given
      obtain ⟨own, score⟩ := Prod.mk.inj row
      refine ⟨List.mem_cons_self, own ▸ has, item, listed, ?_, taken⟩
      rw [row, ChanfixItem.row, same]
  · show (membersOf (m.items ++ (m.addClone mptr item.score id).clones)).Nodup
    have free := matched.once
    dsimp only [Matching.scores] at free
    rw [membersOf_append] at free unused ⊢
    rcases once with still | moved
    · rw [still]
      exact free
    · refine ((moved.append_left _).trans List.perm_middle).nodup_iff.mpr ?_
      exact List.nodup_cons.mpr ⟨unused, free⟩

theorem mono {more : List MemberId} {after : ChanfixScores}
    (matched : Matched userhostId chans seen before after)
    (sub : ∀ mptr ∈ seen, mptr ∈ more) :
    Matched userhostId chans more before after where
  table := matched.table
  item := fun item listed mptr given =>
    (matched.item item listed mptr given).imp_left (sub mptr)
  clone := fun clone listed mptr given =>
    (matched.clone clone listed mptr given).imp_left (sub mptr)
  once := matched.once
  matched := matched.matched

theorem matchMember (matched : Matched userhostId chans seen before m.scores)
    (fresh : mptr ∉ seen) (has : HasUserhost userhostId chans mptr id) :
    Matched userhostId chans (mptr :: seen) before
      (m.matchMember id mptr).scores := by
  unfold Matching.matchMember
  cases found : m.items.find? (·.userhostId == id) with
  | none => exact matched.mono fun _ => List.mem_cons_of_mem _
  | some item =>
      have own : item.userhostId = id :=
        eq_of_beq (@List.find?_some _
          (fun item : ChanfixItem => item.userhostId == id) _ _ found)
      dsimp only
      split
      · rename_i free
        obtain ⟨left, right, same, changed⟩ :=
          @changeFirst_of_some (·.userhostId == id)
            (fun item => { item with msptr := some mptr }) _ _ found
        unfold Matching.scores
        dsimp only
        rw [changed]
        exact matched.assign fresh has same own
          (Option.isNone_iff_eq_none.mp free)
      · rename_i taken
        refine matched.addClone fresh has (List.mem_of_find?_eq_some found)
          own ?_
        rw [← Option.not_isNone, Bool.not_eq_true']
        exact Bool.eq_false_of_not_eq_true taken

theorem matchAll {rest : List MemberId}
    (matched : Matched userhostId chans seen before m.scores)
    (apart : ∀ mptr ∈ rest, mptr ∉ seen) (nodup : rest.Nodup)
    {result : Matching}
    (done : Matching.matchAll userhostId chans rest m = .ok result) :
    ∃ more, (∀ mptr ∈ more, mptr ∈ seen ∨ mptr ∈ rest) ∧
      Matched userhostId chans more before result.scores := by
  induction rest generalizing m seen with
  | nil =>
      cases done
      exact ⟨seen, fun _ => Or.inl, matched⟩
  | cons mptr rest ih =>
      unfold Matching.matchAll at done
      cases found : chans.member.cell mptr with
      | none =>
          rw [found] at done
          cases done
      | some member =>
          rw [found] at done
          obtain ⟨new, nodup⟩ := List.nodup_cons.mp nodup
          have next := matched.matchMember (apart mptr List.mem_cons_self)
            ⟨member, found, rfl⟩
          dsimp only at done
          split at done
          · cases done
            refine ⟨_, fun other listed => ?_, next⟩
            rcases List.mem_cons.mp listed with rfl | old
            · exact Or.inr List.mem_cons_self
            · exact Or.inl old
          · have still : ∀ other ∈ rest, other ∉ mptr :: seen := by
              intro other later there
              rcases List.mem_cons.mp there with rfl | old
              · exact new later
              · exact apart other (List.mem_cons_of_mem _ later) old
            obtain ⟨more, sub, final⟩ := ih next still nodup done
            refine ⟨more, fun other listed => ?_, final⟩
            rcases sub other listed with there | later
            · rcases List.mem_cons.mp there with rfl | old
              · exact Or.inr List.mem_cons_self
              · exact Or.inl old
            · exact Or.inr (List.mem_cons_of_mem _ later)

theorem reset (before : ChanfixScores) :
    Matched userhostId chans [] before
      { items := before.items.map fun item => { item with msptr := none }
        clones := before.clones.map fun item =>
          { item with msptr := none } } := by
  have free (items : List ChanfixItem) : ∀ item ∈ items.map fun item =>
      { item with msptr := none }, item.msptr = none := by
    intro item listed
    obtain ⟨old, -, rfl⟩ := List.mem_map.mp listed
    rfl
  refine ⟨?_, ?_, ?_, ?_, ?_⟩
  · rw [List.map_map]
    rfl
  · intro item listed mptr given
    rw [free _ item listed] at given
    cases given
  · intro clone listed mptr given
    rw [free _ clone listed] at given
    cases given
  · rw [membersOf, List.filterMap_eq_nil_iff.mpr]
    · exact List.nodup_nil
    · intro item listed
      rcases List.mem_append.mp listed with there | there
      · exact free _ item there
      · exact free _ item there
  · refine (List.countP_eq_zero.mpr fun item listed => ?_).symm
    rw [free _ item listed]
    exact Bool.false_ne_true

end Matched

theorem matchChmembers_matched {userhostId : ClientId → Nat} {chans : Chans}
    {members : List MemberId} (scores : ChanfixScores) (given : members ≠ [])
    (nodup : members.Nodup)
    (live : ∀ mptr ∈ members, ∃ member, chans.member.cell mptr = some member) :
    ∃ after, matchChmembers userhostId chans (some scores) members =
        .ok (some after) ∧
      Matched userhostId chans members scores after := by
  obtain ⟨m, done⟩ := @Chanfix.matchAll_ok userhostId chans members live
    { items := scores.items.map fun item => { item with msptr := none }
      clones := scores.clones.map fun item => { item with msptr := none }
      uCount := 0
      cCount := 0 }
  refine ⟨m.scores, ?_, ?_⟩
  · unfold matchChmembers
    dsimp only
    rw [if_neg (by simpa using given)]
    exact Except.bind_eq_ok.mpr ⟨m, done, rfl⟩
  · obtain ⟨more, sub, matched⟩ := Matched.matchAll
      (Matched.reset scores) (fun _ _ => List.not_mem_nil) nodup done
    refine matched.mono fun mptr listed => ?_
    rcases sub mptr listed with impossible | there
    · cases impossible
    · exact there

namespace Chanfix

variable {chanfixP : ClientId} {view : ChanfixView} {s t u : Chanfix}
  {e : EntryId} {cf : ChanfixChannel} {ch : Channel}

/-- The members that `fix_opless_channel` ops, and names in its mode
changes. -/
def opTargets (view : ChanfixView) (cf : ChanfixChannel) : List MemberId :=
  match cf.scores with
  | none => []
  | some scores =>
      let minScore := view.minScore (view.now - cf.fixStarted) cf.highestScore
      scores.items.filterMap (·.target minScore) ++
        scores.clones.filterMap (·.target minScore)

theorem mem_of_target {minScore : Int} {items : List ChanfixItem}
    {mptr : MemberId} (listed : mptr ∈ items.filterMap (·.target minScore)) :
    ∃ item ∈ items, item.msptr = some mptr := by
  obtain ⟨item, inside, given⟩ := List.mem_filterMap.mp listed
  unfold ChanfixItem.target at given
  split at given
  · exact ⟨item, inside, given⟩
  · cases given

theorem mem_of_opTargets {userhostId : ClientId → Nat} {chans : Chans}
    {members : List MemberId} {before after : ChanfixScores}
    (matched : Matched userhostId chans members before after)
    (known : cf.scores = some after) {mptr : MemberId}
    (listed : mptr ∈ opTargets view cf) : mptr ∈ members := by
  unfold opTargets at listed
  rw [known] at listed
  rcases List.mem_append.mp listed with there | there
  · obtain ⟨item, inside, given⟩ := mem_of_target there
    exact (matched.item item inside mptr given).1
  · obtain ⟨clone, inside, given⟩ := mem_of_target there
    exact (matched.clone clone inside mptr given).1

theorem cells_of_entryChannel (read : s.entryChannel e = .ok (cf, ch)) :
    s.entry.cell e = some cf ∧ s.chans.channel.cell cf.chptr = some ch := by
  obtain ⟨_, entry, read⟩ := Except.bind_eq_ok.mp read
  obtain ⟨_, channel, read⟩ := Except.bind_eq_ok.mp read
  cases read
  unfold liveEntry at entry
  unfold liveChannel at channel
  constructor
  · split at entry
    · cases entry
    · cases entry
      assumption
  · split at channel
    · cases channel
    · cases channel
      assumption

theorem joinService_unopped {chans : Chans} (named : chans.Named)
    {c : ChannelId} (there : chans.channel.cell c = some ch) (tsinfo : Int)
    (now : Int) :
    ∃ later, (chans.joinService chanfixP ch.name tsinfo none false
        now).channel.cell c = some later ∧
      later.usersUnopped = ch.usersUnopped := by
  unfold Chans.joinService
  rw [named.findChannel there]
  dsimp only
  rw [there]
  dsimp only
  split
  · exact ⟨ch, there, rfl⟩
  · rw [Bool.false_and, if_neg Bool.false_ne_true]
    refine ⟨{ ch with services := Dlink.add chanfixP ch.services }, ?_, rfl⟩
    exact (Heap.modify_cell _ c _ c).trans (by rw [if_pos rfl, there]; rfl)

/-- In the turn of an entry, only members that are in its channel at that time,
and not opped, are opped. -/
def OpsUnopped (chanfixP : ClientId) (view : ChanfixView) (s : Chanfix)
    (e : EntryId) : Prop :=
  ∀ cf ch after t u, s.entryChannel e = .ok (cf, ch) →
    matchChmembers view.userhostId s.chans cf.scores ch.usersUnopped =
      .ok (some after) →
    s.updateEntry e (fun cf => { cf with scores := some after }) = .ok t →
    t.joinFix chanfixP view e = .ok u →
    ∃ cf' ch', u.entry.cell e = some cf' ∧
      u.chans.channel.cell cf'.chptr = some ch' ∧
      ∀ mptr ∈ opTargets view cf', mptr ∈ ch'.usersUnopped ∧
        ∃ member, u.chans.member.cell mptr = some member ∧
          member.chptr = cf'.chptr ∧ member.isOpped = false

theorem matched_of_matchChmembers (sound : Sound s)
    (there : s.chans.channel.cell cf.chptr = some ch) {after : ChanfixScores}
    (returned : matchChmembers view.userhostId s.chans cf.scores
      ch.usersUnopped = .ok (some after)) :
    ∃ before, Matched view.userhostId s.chans ch.usersUnopped before after := by
  have unopped := sound.inv.unopped cf.chptr ch there
  cases known : cf.scores with
  | none =>
      rw [known] at returned
      cases returned
  | some scores =>
      rw [known] at returned
      by_cases empty : ch.usersUnopped = []
      · rw [empty] at returned
        cases returned
      · obtain ⟨found, same, matched⟩ := matchChmembers_matched scores empty
          unopped.nodup fun mptr listed =>
            have ⟨member, inside, _⟩ := (unopped.mem_iff mptr).mp listed
            ⟨member, inside⟩
        rw [returned] at same
        cases same
        exact ⟨scores, matched⟩

theorem Sound.opsUnopped (sound : Sound s) (chanfixP : ClientId)
    (view : ChanfixView) (e : EntryId) : OpsUnopped chanfixP view s e := by
  intro cf ch after t u read returned updated joined
  obtain ⟨used, there⟩ := cells_of_entryChannel read
  obtain ⟨before, matched⟩ := matched_of_matchChmembers sound there returned
  obtain ⟨t', updated', keeps, chans, entry⟩ := updateEntry_ok view sound used
    (fun cf => { cf with scores := some after }) fun _ => rfl
  rw [updated] at updated'
  cases updated'
  obtain ⟨u', joined', again, entries⟩ :=
    joinFix_ok chanfixP view keeps.sound entry
  rw [joined] at joined'
  cases joined'
  rw [← chans] at there
  obtain ⟨later, present, same⟩ : ∃ later,
      u.chans.channel.cell cf.chptr = some later ∧
        later.usersUnopped = ch.usersUnopped := by
    obtain ⟨⟨cf', ch'⟩, read, joined⟩ := Except.bind_eq_ok.mp joined
    cases joined
    obtain ⟨used', there'⟩ := cells_of_entryChannel read
    rw [entry] at used'
    cases used'
    rw [there] at there'
    cases there'
    exact joinService_unopped keeps.sound.named there ch.tsinfo view.now
  refine ⟨{ cf with scores := some after }, later, ?_, present, ?_⟩
  · rw [entries]
    exact entry
  · intro mptr listed
    have inside : mptr ∈ later.usersUnopped :=
      same ▸ mem_of_opTargets matched rfl listed
    obtain ⟨member, found, owner, opped⟩ :=
      ((again.sound.inv.unopped cf.chptr later present).mem_iff mptr).mp inside
    exact ⟨inside, member, found, owner, opped⟩

theorem matchChmembers_nil (userhostId : ClientId → Nat) (chans : Chans)
    (scores : Option ChanfixScores) :
    matchChmembers userhostId chans scores [] = .ok none := by
  cases scores <;> rfl

theorem opUsers_nil (chanfixP : ClientId)
    (read : s.entryChannel e = .ok (cf, ch)) (nobody : ch.usersUnopped = []) :
    s.opUsers chanfixP view e = .ok s := by
  unfold opUsers
  rw [read, Except.ok_bind]
  simp only
  rw [nobody, matchChmembers_nil, Except.ok_bind]

def threeMembers : Chans :=
  { Chans.empty with
    member := ((Chans.empty.member.alloc ⟨0, 7, 0#32⟩).alloc
      ⟨0, 7, 0#32⟩).alloc ⟨0, 8, 0#32⟩ }

end Chanfix

end RatboxServices
