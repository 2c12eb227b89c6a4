import RatboxServices.Net.HookReach

namespace RatboxServices

/-! Who is opped, voiced or joined by a message before its hooks are called:
those that the lists given to the hooks hold, and nobody else. -/

open Chmember (SameSeat Demoted)

namespace Chans

/-- A member that has a flag had it, and stayed in the list if he was there, or
he is in the list now and in the channel. -/
def Told (c : ChannelId) (flag : Chmember → Bool)
    (list : Chans → List MemberId) (m : MemberId) (before after : Chmember)
    (s t : Chans) : Prop :=
  flag after = true →
    (flag before = true ∧ (m ∈ list s → m ∈ list t)) ∨
      (m ∈ list t ∧ after.chptr = c)

def Marks (c : ChannelId) (s t : Chans) : Prop :=
  ∀ m after, t.member.cell m = some after →
    ∃ before, s.member.cell m = some before ∧ SameSeat before after ∧
      Told c Chmember.isOpped oppedList m before after s t ∧
      Told c Chmember.isVoiced voicedList m before after s t

variable {c : ChannelId} {r s t : Chans} {mptr m : MemberId}

theorem Told.same {flag : Chmember → Bool} {list : Chans → List MemberId}
    {before after : Chmember} (kept : flag after = flag before)
    (lists : m ∈ list s → m ∈ list t) :
    Told c flag list m before after s t :=
  fun has => Or.inl ⟨kept ▸ has, lists⟩

theorem Told.trans {flag : Chmember → Bool} {list : Chans → List MemberId}
    {first second third : Chmember} (seat : SameSeat second third)
    (earlier : Told c flag list m first second r s)
    (later : Told c flag list m second third s t) :
    Told c flag list m first third r t := by
  intro has
  obtain ⟨had, listed⟩ | new := later has
  · obtain ⟨start, before⟩ | ⟨among, inside⟩ := earlier had
    · exact Or.inl ⟨start, fun old => listed (before old)⟩
    · exact Or.inr ⟨listed among, seat.chptr.trans inside⟩
  · exact Or.inr new

namespace Marks

theorem of_same (member : t.member = s.member)
    (opped : t.oppedList = s.oppedList)
    (voiced : t.voicedList = s.voicedList) : Marks c s t := by
  intro m after used
  rw [member] at used
  refine ⟨after, used, .refl after, .same rfl ?_, .same rfl ?_⟩
  · rw [opped]
    exact id
  · rw [voiced]
    exact id

theorem refl (s : Chans) : Marks c s s :=
  of_same rfl rfl rfl

theorem trans (first : Marks c r s) (second : Marks c s t) : Marks c r t := by
  intro m after used
  obtain ⟨middle, there, later, opped, voiced⟩ := second m after used
  obtain ⟨before, here, earlier, op, voice⟩ := first m middle there
  exact ⟨before, here, earlier.trans later, op.trans later opped,
    voice.trans later voiced⟩

theorem of_own
    (others : ∀ m, m ≠ mptr → t.member.cell m = s.member.cell m)
    (opped : ∀ m, m ≠ mptr → m ∈ s.oppedList → m ∈ t.oppedList)
    (voiced : ∀ m, m ≠ mptr → m ∈ s.voicedList → m ∈ t.voicedList)
    (own : ∀ after, t.member.cell mptr = some after →
      ∃ before, s.member.cell mptr = some before ∧ SameSeat before after ∧
        Told c Chmember.isOpped oppedList mptr before after s t ∧
        Told c Chmember.isVoiced voicedList mptr before after s t) :
    Marks c s t := by
  intro m after used
  by_cases same : m = mptr
  · subst same
    exact own after used
  · rw [others m same] at used
    exact ⟨after, used, .refl after, .same rfl (opped m same),
      .same rfl (voiced m same)⟩

end Marks

end Chans

namespace FullMode

open Chans (Inv Marks Told)

variable {Empty : ChannelId → Prop} {call : FullModeCall} {st : FullMode}
  {mptr : MemberId} {member : Chmember} {nick : CString}

theorem memberOp_marks (used : st.chans.member.cell mptr = some member)
    (inside : member.chptr = call.chptr) :
    Marks call.chptr st.chans (st.memberOp call mptr member nick).chans := by
  have cleared : Marks call.chptr st.chans (unmarked mptr st.chans) := by
    refine .of_own (fun m => Heap.modify_cell_of_ne _ _) (fun _ _ => id)
      (fun _ _ => id) fun after changed => ?_
    replace changed : (st.chans.member.modify mptr _).cell mptr =
      some after := changed
    rw [Heap.modify_cell_self, used, Option.map_some,
      Option.some.injEq] at changed
    subst changed
    refine ⟨member, used, ⟨rfl, rfl⟩, .same ?_ id, .same ?_ id⟩
    · simp [Chmember.isOpped, modeOpped, modeDeopped]
    · simp [Chmember.isVoiced, modeVoiced, modeDeopped]
  obtain same | same | ⟨-, same⟩ | ⟨-, same⟩ :=
    memberOp_cases call st mptr member nick
  · rw [same]
    exact .refl _
  · rw [same]
    exact cleared
  · rw [same]
    have lists := (Chans.Restatus.op (s := unmarked mptr st.chans) mptr).lists
    refine cleared.trans (.of_own (fun m => (Chans.Restatus.op mptr).cell_of_ne)
      (fun m _ listed => ?_) (fun m _ listed => ?_) fun after changed => ?_)
    · rw [← lists.opped] at listed
      exact Dlink.mem_add.mpr (Or.inr listed)
    · rw [← lists.voiced] at listed
      exact listed
    · obtain ⟨before, there, seat, opped, voice⟩ :=
        Chans.opChmember_own changed
      refine ⟨before, there, seat, fun _ => Or.inr ⟨?_, ?_⟩, .same voice ?_⟩
      · exact Dlink.mem_add.mpr (Or.inl rfl)
      · obtain ⟨old, was, earlier, -⟩ := cleared mptr before there
        rw [used, Option.some.injEq] at was
        subst was
        exact seat.chptr.trans (earlier.chptr.trans inside)
      · intro listed
        rw [← lists.voiced] at listed
        exact listed
  · rw [same]
    have lists := (Chans.Restatus.deop (s := unlisted mptr st.chans) mptr).lists
    refine .of_own (fun m => (Chans.Restatus.deop mptr).cell_of_ne)
      (fun m other listed => ?_) (fun m _ listed => ?_) fun after changed => ?_
    · rw [lists.opped]
      exact (Dlink.mem_delete_of_ne other).mpr listed
    · rw [lists.voiced]
      exact listed
    · obtain ⟨before, there, seat, unopped, voice⟩ :=
        Chans.deopChmember_own changed
      refine ⟨before, there, seat, fun opped => ?_, .same voice ?_⟩
      · rw [unopped] at opped
        cases opped
      · rw [lists.voiced]
        exact id

theorem memberVoice_marks (used : st.chans.member.cell mptr = some member)
    (inside : member.chptr = call.chptr) :
    Marks call.chptr st.chans
      (st.memberVoice call mptr member nick).chans := by
  unfold memberVoice
  split
  · split
    · exact .refl _
    · rw [modebuildAdd_chans]
      refine .of_own (fun m => Heap.modify_cell_of_ne _ _) (fun _ _ => id)
        (fun m _ listed => Dlink.mem_add.mpr (Or.inr listed))
        fun after changed => ?_
      obtain ⟨before, there, seat, op, voiced⟩ :=
        Chans.voiceChmember_own changed
      rw [used, Option.some.injEq] at there
      subst there
      exact ⟨member, used, seat, .same op id, fun _ => Or.inr
        ⟨Dlink.mem_add.mpr (Or.inl rfl), seat.chptr.trans inside⟩⟩
  · split
    · rw [modebuildAdd_chans]
      refine .of_own (fun m => Heap.modify_cell_of_ne _ _) (fun _ _ => id)
        (fun m other listed => (Dlink.mem_delete_of_ne other).mpr listed)
        fun after changed => ?_
      obtain ⟨before, there, seat, op, unvoiced⟩ :=
        Chans.devoiceChmember_own changed
      refine ⟨before, there, seat, .same op id, fun voiced => ?_⟩
      rw [unvoiced] at voiced
      cases voiced
    · rw [modebuildAdd_chans]
      exact .refl _

theorem prefixMode_marks (inv : Inv Empty st.chans) (letter : Char)
    (nick : CString) :
    Marks call.chptr st.chans (st.prefixMode call letter nick).chans := by
  unfold prefixMode
  split
  · unfold serviceOp
    split
    · exact .refl _
    · split
      · exact .of_same rfl rfl rfl
      · split
        · exact .refl _
        · exact .of_same rfl rfl rfl
  · split
    · exact .refl _
    · split
      · exact .refl _
      · rename_i mptr found
        split
        · exact .refl _
        · rename_i member used
          have inside := inv.inside_of_findChmember found used
          split
          · exact memberOp_marks used inside
          · exact memberVoice_marks used inside

theorem effect_marks {chans : Chans} (inv : Inv Empty st.chans)
    (effect : LetterEffect call st chans) :
    Marks call.chptr st.chans chans := by
  cases effect with
  | none => exact .refl _
  | mode letter => exact .of_same rfl rfl rfl
  | lists lists => exact .of_same rfl rfl rfl
  | ban mask =>
      obtain same | ⟨-, same⟩ | ⟨_, -, same⟩ := banMode_cases call mask st
      all_goals
        rw [same]
        exact .of_same rfl rfl rfl
  | status letter nick =>
      have inv_ : Inv Empty st.nextArg.chans := inv
      exact prefixMode_marks inv_ letter nick

end FullMode

theorem Chans.parseFullMode_marks {Empty : ChannelId → Prop} {s : Chans}
    (inv : Chans.Inv Empty s) (call : FullModeCall) (parv : List CString) :
    Chans.Marks call.chptr s (parseFullMode call parv s).1 := by
  cases parv with
  | nil => exact .refl s
  | cons modes args =>
      have both := @FullMode.loop_related call ⟨s, args, true, []⟩
        (fun s t => Chans.Inv Empty s →
          Chans.Inv Empty t ∧ Chans.Marks call.chptr s t)
        (fun _ inv => ⟨inv, .refl _⟩)
        (fun first second inv =>
          ⟨(second (first inv).1).1,
            (first inv).2.trans (second (first inv).1).2⟩)
        (fun _ _ effect inv =>
          ⟨FullMode.inv_effect inv effect, FullMode.effect_marks inv effect⟩)
        modes
      exact (both inv).2

namespace State

open Chans (Inv NoneRaised)

variable {env : Env} {chptr : ChannelId} {s : Chans} {joined : List MemberId}

theorem found_raises (target : JoinTarget) (s : State) :
    NoneRaised s.chans (target.found s).chans := by
  refine .of_member ?_
  unfold JoinTarget.found joinChannel
  split
  · rfl
  · dsimp only
    split
    · rfl
    · rfl

theorem settled_raises (target : JoinTarget) (s : State) (removeBans : Bool) :
    NoneRaised s.chans (target.settled s removeBans).chans := by
  refine (found_raises target s).trans ?_
  unfold JoinTarget.settled applyOldModes
  split
  · exact .refl _
  · intro m after used
    rw [onChans_chans, dropOldModes_eq] at used
    exact NoneRaised.foldl_clearOv _ _ used

theorem lowertsHook_member (chptr : ChannelId) (keepOld : Bool) (s : State) :
    (s.lowertsHook env chptr keepOld).chans.member = s.chans.member := by
  unfold lowertsHook
  split
  · rfl
  · split
    · rfl
    · rfl

theorem applyNewModes_member (chptr : ChannelId) (keepNew : Bool)
    (newmode : Chmode) (s : State) :
    (s.applyNewModes chptr keepNew newmode).chans.member = s.chans.member := by
  unfold applyNewModes
  split
  · rfl
  · rfl

/-- Of the members there are now, some were there and gained nothing, and the
others joined the channel. -/
structure Entered (chptr : ChannelId) (s : Chans) (joined : List MemberId)
    (t : Chans) : Prop where
  pending : Pending (fun _ => True) chptr t
  cells : ∀ m after, t.member.cell m = some after →
    (m ∉ joined ∧
      ∃ before, s.member.cell m = some before ∧ Demoted before after) ∨
    (m ∈ joined ∧ after.chptr = chptr)
  nodup : joined.Nodup
  below : ∀ m ∈ joined, m < t.member.next

namespace Entered

variable {t : Chans}

theorem start (pending : Pending (fun _ => True) chptr t)
    (raised : NoneRaised s t) : Entered chptr s [] t where
  pending := pending
  cells := fun m after used => Or.inl ⟨by simp, raised m after used⟩
  nodup := List.nodup_nil
  below := by simp

theorem add (entered : Entered chptr s joined t) {target : ClientId}
    {flags : Word} (absent : t.findChmember chptr target = none)
    (clean : flags.has modeOpped = true → flags.has modeDeopped = false) :
    Entered chptr s (t.member.next :: joined)
      (t.addChmember chptr target flags).1 := by
  obtain ⟨inv, there⟩ := entered.pending.addChmember absent clean
  refine ⟨⟨inv.weaken fun _ _ => trivial, there⟩, ?_, ?_, ?_⟩
  · intro m after used
    rw [Inv.addChmember_eq] at used
    replace used : (t.member.alloc ⟨chptr, target, flags⟩).cell m =
      some after := used
    rw [Heap.alloc_cell] at used
    split at used
    · rename_i new
      cases used
      exact Or.inr ⟨by simp [new], rfl⟩
    · rename_i old
      obtain ⟨outside, was⟩ | ⟨among, inside⟩ := entered.cells m after used
      · exact Or.inl ⟨by simp [old, outside], was⟩
      · exact Or.inr ⟨List.mem_cons_of_mem _ among, inside⟩
  · refine List.nodup_cons.mpr ⟨fun among => ?_, entered.nodup⟩
    exact Nat.lt_irrefl _ (entered.below _ among)
  · intro m among
    rw [Inv.addChmember_eq]
    show m < t.member.next + 1
    obtain rfl | old := List.mem_cons.mp among
    · exact Nat.lt_succ_self _
    · exact Nat.lt_succ_of_lt (entered.below m old)

theorem sjoinNick {findUser : CString → Option ClientId} {keepNew : Bool}
    {token : CString} {state : Chans × List MemberId}
    (entered : Entered chptr s state.2 state.1) :
    Entered chptr s
      (sjoinNick findUser chptr keepNew state token).2
      (sjoinNick findUser chptr keepNew state token).1 := by
  unfold State.sjoinNick
  obtain ⟨opped, voiced, nick⟩ := nickPrefix token
  dsimp only
  split
  · exact entered
  · split
    · exact entered
    · rename_i absent
      exact entered.add absent (memberFlags_clean keepNew opped voiced)

theorem sjoinNicks {findUser : CString → Option ClientId} {keepNew : Bool}
    (tokens : List CString) {state : Chans × List MemberId}
    (entered : Entered chptr s state.2 state.1) :
    Entered chptr s
      (tokens.foldl (State.sjoinNick findUser chptr keepNew) state).2
      (tokens.foldl (State.sjoinNick findUser chptr keepNew) state).1 := by
  induction tokens generalizing state with
  | nil => exact entered
  | cons token rest ih => exact ih entered.sjoinNick

end Entered

theorem settled_pending {s : State} (inv : Inv (fun _ => True) s.chans)
    (target : JoinTarget) (removeBans : Bool) :
    Pending (fun _ => True) (target.chptr s)
      (target.settled s removeBans).chans := by
  obtain ⟨found, there⟩ :=
    joinChannel_pending target.chname target.newts inv
  have start : Pending (fun _ => True) (target.chptr s)
      (target.found s).chans := ⟨found.weaken fun _ _ => trivial, there⟩
  obtain ⟨chans, same, kept⟩ := applyOldModes_moves
    (s := target.found s) (target.keepOld s) removeBans target.newts
  unfold JoinTarget.settled
  rw [same]
  exact kept start

theorem JoinTarget.entered_spec {s : State}
    (inv : Inv (fun _ => True) s.chans) (target : JoinTarget) (env : Env)
    (clientP : ClientId) :
    Entered (target.chptr s) s.chans (target.entered s env clientP).2
      (target.entered s env clientP).1 := by
  have lowered : Pending (fun _ => True) (target.chptr s)
      (target.lowered s env).chans := by
    obtain ⟨chans, same, kept⟩ := lowertsHook_moves env
      (s := target.settled s false) (target.keepOld s)
    unfold JoinTarget.lowered
    rw [same]
    exact kept (settled_pending inv target false)
  have raised : NoneRaised s.chans (target.lowered s env).chans :=
    (settled_raises target s false).trans
      (.of_member (lowertsHook_member _ _ _))
  unfold JoinTarget.entered
  split
  · exact .start lowered raised
  · rename_i absent
    exact (Entered.start lowered raised).add absent (by decide)

theorem SjoinCall.lowered_raises (call : SjoinCall) (s : State) (env : Env) :
    NoneRaised s.chans (call.lowered s env).chans :=
  (settled_raises call.target s call.removeBans).trans
    (.of_member ((lowertsHook_member _ _ _).trans
      (applyNewModes_member _ _ _ _)))

theorem SjoinCall.entered_spec {s : State}
    (inv : Inv (fun _ => True) s.chans) (call : SjoinCall) (env : Env) :
    Entered (call.target.chptr s) s.chans (call.entered s env).2
      (call.entered s env).1 := by
  have merged : Pending (fun _ => True) (call.target.chptr s)
      (call.merged s).chans := by
    obtain ⟨chans, same, kept⟩ := applyNewModes_moves
      (s := call.target.settled s call.removeBans) (call.target.keepNew s)
      call.newmode
    unfold SjoinCall.merged
    rw [same]
    exact kept (settled_pending inv call.target call.removeBans)
  have lowered : Pending (fun _ => True) (call.target.chptr s)
      (call.lowered s env).chans := by
    obtain ⟨chans, same, kept⟩ := lowertsHook_moves env
      (s := call.merged s) (call.target.keepOld s)
    unfold SjoinCall.lowered
    rw [same]
    exact kept merged
  exact (Entered.start lowered (call.lowered_raises s env)).sjoinNicks _

end State

end RatboxServices
