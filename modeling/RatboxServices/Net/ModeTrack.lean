import RatboxServices.Lib.Track
import RatboxServices.Net.ModeInv

namespace RatboxServices

/-! What the static lists of `c_mode.c` hold after a mode string: the members
opped and voiced and the masks banned by it. -/

namespace Chmember

def VoicedIn (c : ChannelId) (member : Chmember) : Prop :=
  member.chptr = c ∧ member.isVoiced = true

end Chmember

namespace Chans

open Chmember

def Opped (c : ChannelId) (s : Chans) (m : MemberId) : Prop :=
  s.member.Has (OppedIn c) m

def Voiced (c : ChannelId) (s : Chans) (m : MemberId) : Prop :=
  s.member.Has (VoicedIn c) m

def bansOf (s : Chans) (c : ChannelId) : List CString :=
  match s.channel.cell c with
  | some ch => ch.bans
  | none => []

def Banned (c : ChannelId) (s : Chans) (mask : CString) : Prop :=
  mask ∈ s.bansOf c

section Members

variable {s : Chans} {c : ChannelId} {mptr : MemberId} {member : Chmember}

theorem opChmember_member (used : s.member.cell mptr = some member)
    (unopped : member.isOpped = false) :
    (s.opChmember mptr).member = s.member.modify mptr fun m =>
      { m with flags := (m.flags.clear modeDeopped).set modeOpped } := by
  simp only [opChmember, used, unopped, Bool.false_eq_true, if_false]
  rfl

theorem deopChmember_member (used : s.member.cell mptr = some member)
    (opped : member.isOpped = true) :
    (s.deopChmember mptr).member = s.member.modify mptr fun m =>
      { m with flags := m.flags.clear modeOpped } := by
  simp only [deopChmember, used, opped, Bool.not_true, Bool.false_eq_true,
    if_false]
  rfl

structure SameLists (s t : Chans) : Prop where
  opped : t.oppedList = s.oppedList
  voiced : t.voicedList = s.voicedList
  ban : t.banList = s.banList

theorem SameLists.refl (s : Chans) : SameLists s s :=
  ⟨rfl, rfl, rfl⟩

theorem SameLists.trans {s t u : Chans} (first : SameLists s t)
    (second : SameLists t u) : SameLists s u :=
  ⟨second.opped.trans first.opped, second.voiced.trans first.voiced,
    second.ban.trans first.ban⟩

theorem bansOf_modifyChannel {target : ChannelId} {change : Channel → Channel}
    (kept : ∀ ch, (change ch).bans = ch.bans) :
    (s.modifyChannel target change).bansOf = s.bansOf := by
  funext c
  unfold bansOf modifyChannel
  rw [Heap.modify_cell]
  by_cases here : c = target
  · subst here
    rw [if_pos rfl]
    cases s.channel.cell c with
    | none => rfl
    | some ch => exact kept ch
  · rw [if_neg here]

theorem Restatus.lists {t : Chans} (step : Restatus s mptr t) :
    SameLists s t := by
  cases step with
  | same => exact .refl s
  | other => exact ⟨rfl, rfl, rfl⟩

theorem Restatus.bansOf {t : Chans} (step : Restatus s mptr t) :
    t.bansOf = s.bansOf := by
  cases step with
  | same => rfl
  | other =>
      rw [bansOf_modifyChannel]
      · rfl
      · exact fun _ => rfl

theorem Restatus.there {t : Chans} (step : Restatus s mptr t) :
    (t.channel.cell c).isSome = (s.channel.cell c).isSome := by
  cases step with
  | same => rfl
  | other => exact Heap.modify_isSome _ _ _ _

theorem Inv.inside_of_findChmember {Empty : ChannelId → Prop}
    (inv : Inv Empty s) {u : ClientId} (found : s.findChmember c u = some mptr)
    (used : s.member.cell mptr = some member) : member.chptr = c := by
  obtain ⟨other, there, inside, _⟩ := inv.links_of_findChmember found
  rw [used, Option.some.injEq] at there
  subst there
  exact inside

end Members

end Chans

namespace FullMode

open Chmember
open Chans (Inv Opped Voiced Banned)

variable {Empty : ChannelId → Prop} {call : FullModeCall} {st : FullMode}
  {c : ChannelId} {mptr : MemberId} {member : Chmember} {nick : CString}

theorem oppedIn_of_flags {change : Chmember → Chmember}
    (kept : ∀ m, (change m).chptr = m.chptr ∧
      (change m).isOpped = m.isOpped) (m : Chmember) :
    OppedIn c (change m) ↔ OppedIn c m := by
  rw [OppedIn, OppedIn, (kept m).1, (kept m).2]

theorem voicedIn_of_flags {change : Chmember → Chmember}
    (kept : ∀ m, (change m).chptr = m.chptr ∧
      (change m).isVoiced = m.isVoiced) (m : Chmember) :
    VoicedIn c (change m) ↔ VoicedIn c m := by
  rw [VoicedIn, VoicedIn, (kept m).1, (kept m).2]

theorem has_gain {heap : Heap Chmember} {P : Chmember → Prop}
    {change : Chmember → Chmember} (used : heap.cell mptr = some member)
    (after : P (change member)) (other : MemberId) :
    (heap.modify mptr change).Has P other ↔ other = mptr ∨ heap.Has P other := by
  by_cases equal : other = mptr
  · subst equal
    simp [Heap.has_modify_self used, after]
  · rw [Heap.has_modify_of_ne equal]
    simp [equal]

theorem has_lose {heap : Heap Chmember} {P : Chmember → Prop}
    {change : Chmember → Chmember} (used : heap.cell mptr = some member)
    (after : ¬P (change member)) (other : MemberId) :
    (heap.modify mptr change).Has P other ↔ other ≠ mptr ∧ heap.Has P other := by
  by_cases equal : other = mptr
  · subst equal
    simp [Heap.has_modify_self used, after]
  · rw [Heap.has_modify_of_ne equal]
    simp [equal]

/-- The mark of a rejected op goes with `+o`. -/
def unmarked (mptr : MemberId) (chans : Chans) : Chans :=
  chans.modifyMember mptr fun m => { m with flags := m.flags.clear modeDeopped }

theorem unmarked_opped (chans : Chans) (m : MemberId) :
    Opped c (unmarked mptr chans) m ↔ Opped c chans m := by
  refine Heap.has_modify_of_same (oppedIn_of_flags fun m => ⟨rfl, ?_⟩)
  simp [Chmember.isOpped, modeOpped, modeDeopped]

theorem unmarked_voiced (chans : Chans) (m : MemberId) :
    Voiced c (unmarked mptr chans) m ↔ Voiced c chans m := by
  refine Heap.has_modify_of_same (voicedIn_of_flags fun m => ⟨rfl, ?_⟩)
  simp [Chmember.isVoiced, modeVoiced, modeDeopped]

def unlisted (mptr : MemberId) (chans : Chans) : Chans :=
  { chans with oppedList := Dlink.findDestroy mptr chans.oppedList }

theorem memberOp_cases (call : FullModeCall) (st : FullMode)
    (mptr : MemberId) (member : Chmember) (nick : CString) :
    (st.memberOp call mptr member nick).chans = st.chans ∨
    (st.memberOp call mptr member nick).chans = unmarked mptr st.chans ∨
    (member.isOpped = false ∧ (st.memberOp call mptr member nick).chans =
      { (unmarked mptr st.chans).opChmember mptr with
        oppedList := Dlink.add mptr
          ((unmarked mptr st.chans).opChmember mptr).oppedList }) ∨
    (member.isOpped = true ∧ (st.memberOp call mptr member nick).chans =
      (unlisted mptr st.chans).deopChmember mptr) := by
  unfold memberOp
  split
  · dsimp only
    split
    · exact Or.inr (Or.inl rfl)
    · rename_i lacks
      refine Or.inr (Or.inr (Or.inl ⟨by simpa using lacks, ?_⟩))
      rw [modebuildAdd_chans]
      rfl
  · split
    · rename_i opped
      refine Or.inr (Or.inr (Or.inr ⟨opped, ?_⟩))
      rw [modebuildAdd_chans]
      rfl
    · rw [modebuildAdd_chans]
      exact Or.inl rfl

theorem unmarked_cell (used : st.chans.member.cell mptr = some member)
    (lacks : member.isOpped = false) :
    ∃ after, (unmarked mptr st.chans).member.cell mptr = some after ∧
      after.chptr = member.chptr ∧ after.isOpped = false := by
  refine ⟨{ member with flags := member.flags.clear modeDeopped }, ?_, rfl, ?_⟩
  · simp [unmarked, Chans.modifyMember, used]
  · simpa [Chmember.isOpped, modeOpped, modeDeopped] using lacks

theorem memberOp_opped (used : st.chans.member.cell mptr = some member)
    (inside : member.chptr = c) :
    Turn (Opped c) Chans.oppedList st.chans
      (st.memberOp call mptr member nick).chans := by
  obtain same | same | ⟨lacks, same⟩ | ⟨opped, same⟩ :=
    memberOp_cases call st mptr member nick
  · rw [same]
    exact .same (fun _ => Iff.rfl) rfl
  · rw [same]
    exact .same (unmarked_opped st.chans) rfl
  · rw [same]
    obtain ⟨after, marked, still, lacked⟩ := unmarked_cell used lacks
    refine .gain mptr ?_ ?_ ?_
    · rw [Opped, Heap.has_iff used]
      simp [OppedIn, lacks]
    · intro other
      rw [← unmarked_opped st.chans other]
      show Heap.Has (Chans.opChmember mptr _).member _ other ↔ _
      rw [Chans.opChmember_member marked lacked]
      refine has_gain marked ⟨still.trans inside, ?_⟩ other
      simp [Chmember.isOpped, modeOpped]
    · exact congrArg (Dlink.add mptr)
        (Chans.Restatus.op (s := unmarked mptr st.chans) mptr).lists.opped
  · rw [same]
    have here : (unlisted mptr st.chans).member.cell mptr = some member := used
    refine .lose mptr ?_ ?_
    · intro other
      show Heap.Has (Chans.deopChmember mptr _).member _ other ↔ _
      rw [Chans.deopChmember_member here opped]
      refine has_lose here ?_ other
      simp [OppedIn, Chmember.isOpped]
    · exact (Chans.Restatus.deop (s := unlisted mptr st.chans) mptr).lists.opped

theorem memberOp_others (call : FullModeCall) (c : ChannelId)
    (nick : CString) (used : st.chans.member.cell mptr = some member) :
    (∀ m, Voiced c (st.memberOp call mptr member nick).chans m ↔
      Voiced c st.chans m) ∧
    (st.memberOp call mptr member nick).chans.voicedList =
      st.chans.voicedList ∧
    (st.memberOp call mptr member nick).chans.banList = st.chans.banList ∧
    (st.memberOp call mptr member nick).chans.bansOf = st.chans.bansOf := by
  obtain same | same | ⟨lacks, same⟩ | ⟨opped, same⟩ :=
    memberOp_cases call st mptr member nick
  · rw [same]
    exact ⟨fun _ => Iff.rfl, rfl, rfl, rfl⟩
  · rw [same]
    exact ⟨unmarked_voiced st.chans, rfl, rfl, rfl⟩
  · rw [same]
    obtain ⟨after, marked, still, lacked⟩ := unmarked_cell used lacks
    have step := Chans.Restatus.op (s := unmarked mptr st.chans) mptr
    have lists := step.lists
    refine ⟨?_, lists.voiced, lists.ban,
      step.bansOf⟩
    intro m
    rw [← unmarked_voiced st.chans m]
    show Heap.Has (Chans.opChmember mptr _).member _ m ↔ _
    rw [Chans.opChmember_member marked lacked]
    refine Heap.has_modify_of_same (voicedIn_of_flags fun m => ⟨rfl, ?_⟩)
    simp [Chmember.isVoiced, modeVoiced, modeDeopped, modeOpped]
  · rw [same]
    have here : (unlisted mptr st.chans).member.cell mptr = some member := used
    have step := Chans.Restatus.deop (s := unlisted mptr st.chans) mptr
    have lists := step.lists
    refine ⟨?_, lists.voiced, lists.ban, step.bansOf⟩
    intro m
    show Heap.Has (Chans.deopChmember mptr _).member _ m ↔ _
    rw [Chans.deopChmember_member here opped]
    refine Heap.has_modify_of_same (voicedIn_of_flags fun m => ⟨rfl, ?_⟩)
    simp [Chmember.isVoiced, modeVoiced, modeOpped]

theorem memberVoice_voiced (used : st.chans.member.cell mptr = some member)
    (inside : member.chptr = c) :
    Turn (Voiced c) Chans.voicedList st.chans
      (st.memberVoice call mptr member nick).chans := by
  unfold memberVoice
  split
  · split
    · exact .same (fun _ => Iff.rfl) rfl
    · rename_i lacks
      rw [modebuildAdd_chans]
      refine .gain mptr ?_ ?_ rfl
      · rw [Voiced, Heap.has_iff used]
        simp [VoicedIn, lacks]
      · refine has_gain used ⟨inside, ?_⟩
        simp [Chmember.isVoiced, modeVoiced]
  · split
    · rw [modebuildAdd_chans]
      refine .lose mptr ?_ rfl
      refine has_lose used ?_
      simp [VoicedIn, Chmember.isVoiced]
    · rw [modebuildAdd_chans]
      exact .same (fun _ => Iff.rfl) rfl

theorem memberVoice_others (call : FullModeCall) (c : ChannelId)
    (st : FullMode) (mptr : MemberId) (member : Chmember) (nick : CString) :
    (∀ m, Opped c (st.memberVoice call mptr member nick).chans m ↔
      Opped c st.chans m) ∧
    (st.memberVoice call mptr member nick).chans.oppedList =
      st.chans.oppedList ∧
    (st.memberVoice call mptr member nick).chans.banList =
      st.chans.banList ∧
    (st.memberVoice call mptr member nick).chans.bansOf =
      st.chans.bansOf := by
  unfold memberVoice
  split
  · split
    · exact ⟨fun _ => Iff.rfl, rfl, rfl, rfl⟩
    · rw [modebuildAdd_chans]
      refine ⟨fun m => ?_, rfl, rfl, rfl⟩
      refine Heap.has_modify_of_same (oppedIn_of_flags fun m => ⟨rfl, ?_⟩)
      simp [Chmember.isOpped, modeVoiced, modeOpped]
  · split
    · rw [modebuildAdd_chans]
      refine ⟨fun m => ?_, rfl, rfl, rfl⟩
      refine Heap.has_modify_of_same (oppedIn_of_flags fun m => ⟨rfl, ?_⟩)
      simp [Chmember.isOpped, modeVoiced, modeOpped]
    · rw [modebuildAdd_chans]
      exact ⟨fun _ => Iff.rfl, rfl, rfl, rfl⟩

structure SingleBans (c : ChannelId) (s : Chans) : Prop where
  nodup : s.banList.Nodup
  single : ∀ mask ∈ s.banList, Dlink.Single mask (s.bansOf c)

theorem irccmp_refl (mask : CString) : CString.irccmp mask mask = true := by
  simp [CString.irccmp]

theorem addBan_eq_some {mask : CString} {list after : List CString}
    (added : addBan mask list = some after) :
    mask ∉ list ∧ after = Dlink.add mask list := by
  unfold addBan at added
  split at added
  · cases added
  · rename_i fresh
    cases added
    refine ⟨fun listed => fresh ?_, rfl⟩
    exact List.any_eq_true.mpr ⟨mask, listed, irccmp_refl mask⟩

theorem delBan_eq_some {mask ban : CString} {list after : List CString}
    (removed : delBan mask list = some (ban, after)) :
    ban ∈ list ∧ after = Dlink.delete ban list := by
  unfold delBan at removed
  split at removed
  · cases removed
  · rename_i found
    cases removed
    exact ⟨List.mem_of_find?_eq_some found, rfl⟩

theorem bansOf_set {s : Chans} {bans : List CString}
    (there : (s.channel.cell c).isSome = true) :
    (s.modifyChannel c fun ch => { ch with bans := bans }).bansOf c = bans := by
  obtain ⟨ch, used⟩ := Option.isSome_iff_exists.mp there
  simp [Chans.bansOf, Chans.modifyChannel, used]

theorem banMode_cases (call : FullModeCall) (mask : CString) (st : FullMode) :
    (st.banMode call mask).chans = st.chans ∨
    (mask ∉ st.chans.bansOf call.chptr ∧ (st.banMode call mask).chans =
      { st.chans.modifyChannel call.chptr fun ch =>
          { ch with
            bans := Dlink.add mask (st.chans.bansOf call.chptr) } with
        banList := Dlink.add mask st.chans.banList }) ∨
    (∃ ban ∈ st.chans.bansOf call.chptr, (st.banMode call mask).chans =
      { st.chans.modifyChannel call.chptr fun ch =>
          { ch with
            bans := Dlink.delete ban (st.chans.bansOf call.chptr) } with
        banList := Dlink.findDestroy ban st.chans.banList }) := by
  unfold banMode
  rw [modebuildAdd_chans]
  split
  · split
    · exact Or.inl rfl
    · rename_i bans added
      obtain ⟨fresh, rfl⟩ := addBan_eq_some added
      exact Or.inr (Or.inl ⟨fresh, rfl⟩)
  · split
    · exact Or.inl rfl
    · rename_i ban bans removed
      obtain ⟨listed, rfl⟩ := delBan_eq_some removed
      exact Or.inr (Or.inr ⟨ban, listed, rfl⟩)

theorem banMode_banned (mask : CString)
    (there : (st.chans.channel.cell call.chptr).isSome = true)
    (bans : SingleBans call.chptr st.chans) :
    Turn (Banned call.chptr) Chans.banList st.chans
      (st.banMode call mask).chans ∧
    SingleBans call.chptr (st.banMode call mask).chans := by
  have written : ∀ list new, Chans.bansOf { st.chans.modifyChannel call.chptr
      fun ch => { ch with bans := new } with banList := list } call.chptr =
        new := fun _ _ => bansOf_set there
  obtain same | ⟨fresh, same⟩ | ⟨ban, listed, same⟩ :=
    banMode_cases call mask st
  · rw [same]
    exact ⟨.same (fun _ => Iff.rfl) rfl, bans⟩
  · rw [same]
    have unknown : mask ∉ st.chans.banList := fun known =>
      fresh (bans.single mask known).1
    refine ⟨.gain mask fresh ?_ rfl, ?_, ?_⟩
    · intro other
      rw [Banned, written, Dlink.mem_add]
      exact Iff.rfl
    · exact Dlink.nodup_add.mpr ⟨unknown, bans.nodup⟩
    · intro other known
      rw [written]
      obtain rfl | old := Dlink.mem_add.mp known
      · exact .add fresh
      · refine (bans.single other old).add_of_ne ?_
        rintro rfl
        exact unknown old
  · rw [same]
    refine ⟨?_, ?_, ?_⟩
    · by_cases last : ban ∈ Dlink.delete ban (st.chans.bansOf call.chptr)
      · -- another copy of the mask stays, and none of them is new
        have unknown : ban ∉ st.chans.banList := fun known =>
          (bans.single ban known).2 last
        refine .same (fun other => ?_) (Dlink.findDestroy_of_not_mem unknown)
        rw [Banned, written]
        by_cases equal : other = ban
        · subst equal
          simp [last, Banned, listed]
        · exact Dlink.mem_delete_of_ne equal
      · refine .lose ban (fun other => ?_) rfl
        rw [Banned, written]
        by_cases equal : other = ban
        · subst equal
          simp [last]
        · rw [Dlink.mem_delete_of_ne equal]
          simp [equal, Banned]
    · exact Dlink.nodup_delete bans.nodup
    · intro other known
      have old := (Dlink.mem_delete bans.nodup).mp known
      rw [written]
      exact (bans.single other old.2).delete_of_ne old.1

structure Turns (c : ChannelId) (s t : Chans) : Prop where
  opped : Turn (Opped c) Chans.oppedList s t
  voiced : Turn (Voiced c) Chans.voicedList s t
  banned : Turn (Banned c) Chans.banList s t

theorem Turns.of_same {s t : Chans} (members : t.member = s.member)
    (lists : Chans.SameLists s t) (bans : t.bansOf c = s.bansOf c) :
    Turns c s t where
  opped := .same (fun m => by rw [Opped, members]; exact Iff.rfl) lists.opped
  voiced := .same (fun m => by rw [Voiced, members]; exact Iff.rfl) lists.voiced
  banned := .same (fun mask => by rw [Banned, bans]; exact Iff.rfl) lists.ban

structure Ready (c : ChannelId) (s : Chans) : Prop where
  inv : Inv (fun _ => True) s
  there : (s.channel.cell c).isSome = true
  bans : SingleBans c s

theorem prefixMode_turns (ready : Ready call.chptr st.chans) (letter : Char)
    (nick : CString) :
    Turns call.chptr st.chans (st.prefixMode call letter nick).chans ∧
    SingleBans call.chptr (st.prefixMode call letter nick).chans := by
  have bans := ready.bans
  unfold prefixMode
  split
  · unfold serviceOp
    split
    · exact ⟨.of_same rfl (.refl _) rfl, bans⟩
    · split
      · exact ⟨.of_same rfl ⟨rfl, rfl, rfl⟩ rfl, ⟨bans.nodup, bans.single⟩⟩
      · split
        · exact ⟨.of_same rfl (.refl _) rfl, bans⟩
        · exact ⟨.of_same rfl ⟨rfl, rfl, rfl⟩ rfl, ⟨bans.nodup, bans.single⟩⟩
  · split
    · exact ⟨.of_same rfl (.refl _) rfl, bans⟩
    · split
      · exact ⟨.of_same rfl (.refl _) rfl, bans⟩
      · rename_i mptr found
        split
        · exact ⟨.of_same rfl (.refl _) rfl, bans⟩
        · rename_i member used
          have inside := ready.inv.inside_of_findChmember found used
          split
          · obtain ⟨voices, voicedList, banList, masks⟩ :=
              memberOp_others call call.chptr nick used
            refine ⟨⟨memberOp_opped used inside, .same voices voicedList, ?_⟩, ?_⟩
            · exact .same (fun _ => by rw [Banned, masks]; exact Iff.rfl) banList
            · exact ⟨banList ▸ bans.nodup, by rw [banList, masks]; exact bans.single⟩
          · obtain ⟨ops, oppedList, banList, masks⟩ :=
              memberVoice_others call call.chptr st mptr member nick
            refine ⟨⟨.same ops oppedList, memberVoice_voiced used inside, ?_⟩, ?_⟩
            · exact .same (fun _ => by rw [Banned, masks]; exact Iff.rfl) banList
            · exact ⟨banList ▸ bans.nodup, by rw [banList, masks]; exact bans.single⟩

theorem prefixMode_there (letter : Char) (nick : CString) :
    ((st.prefixMode call letter nick).chans.channel.cell c).isSome =
      (st.chans.channel.cell c).isSome := by
  unfold prefixMode
  split
  · unfold serviceOp
    split
    · rfl
    · split
      · rfl
      · split
        · rfl
        · rfl
  · split
    · rfl
    · split
      · rfl
      · rename_i mptr found
        split
        · rfl
        · rename_i member used
          split
          · obtain same | same | ⟨_, same⟩ | ⟨_, same⟩ :=
              memberOp_cases call st mptr member nick
            · rw [same]
            · rw [same]
              rfl
            · have step := Chans.Restatus.op (s := unmarked mptr st.chans) mptr
              rw [same]
              exact step.there
            · have step := Chans.Restatus.deop (s := unlisted mptr st.chans) mptr
              rw [same]
              exact step.there
          · unfold memberVoice
            split
            · split
              · rfl
              · rw [modebuildAdd_chans]
                rfl
            · split
              · rw [modebuildAdd_chans]
                rfl
              · rw [modebuildAdd_chans]

theorem effect_turns {chans : Chans} (ready : Ready call.chptr st.chans)
    (effect : LetterEffect call st chans) :
    Turns call.chptr st.chans chans ∧ Ready call.chptr chans := by
  have inv := inv_effect ready.inv effect
  have there := ready.there
  have bans := ready.bans
  cases effect with
  | none => exact ⟨.of_same rfl (.refl _) rfl, ready⟩
  | @mode change letter =>
      have masks : (st.onMode call change).chans.bansOf = st.chans.bansOf :=
        Chans.bansOf_modifyChannel fun _ => rfl
      refine ⟨.of_same rfl ⟨rfl, rfl, rfl⟩ (by rw [masks]), inv, ?_, bans.nodup, ?_⟩
      · exact (Heap.modify_isSome _ _ _ _).trans there
      · rw [masks]
        exact bans.single
  | @lists change lists =>
      have masks : (st.onChannel call change).chans.bansOf = st.chans.bansOf := by
        refine Chans.bansOf_modifyChannel fun ch => ?_
        obtain ⟨excepts, invites, same⟩ := lists ch
        rw [same]
      refine ⟨.of_same rfl ⟨rfl, rfl, rfl⟩ (by rw [masks]), inv, ?_, bans.nodup, ?_⟩
      · exact (Heap.modify_isSome _ _ _ _).trans there
      · rw [masks]
        exact bans.single
  | ban mask =>
      obtain ⟨turn, single⟩ := banMode_banned mask there bans
      refine ⟨⟨?_, ?_, turn⟩, inv, ?_, single⟩
      all_goals
        obtain same | ⟨_, same⟩ | ⟨_, _, same⟩ := banMode_cases call mask st
      all_goals rw [same]
      · exact .same (fun _ => Iff.rfl) rfl
      · exact .same (fun _ => Iff.rfl) rfl
      · exact .same (fun _ => Iff.rfl) rfl
      · exact .same (fun _ => Iff.rfl) rfl
      · exact .same (fun _ => Iff.rfl) rfl
      · exact .same (fun _ => Iff.rfl) rfl
      · exact there
      · exact (Heap.modify_isSome _ _ _ _).trans there
      · exact (Heap.modify_isSome _ _ _ _).trans there
  | status letter nick =>
      have ready_ : Ready call.chptr st.nextArg.chans := ready
      obtain ⟨turns, single⟩ := prefixMode_turns ready_ letter nick
      refine ⟨turns, inv, ?_, single⟩
      rw [prefixMode_there]
      exact there

def states (call : FullModeCall) : List Char → FullMode → List Chans
  | [], st => [st.chans]
  | p :: rest, st =>
      match st.letter call p with
      | none => [st.chans]
      | some after => st.chans :: states call rest after

theorem mem_states (modes : List Char) : st.chans ∈ states call modes st := by
  cases modes with
  | nil => simp [states]
  | cons p rest =>
      unfold states
      split <;> simp

theorem loop_tracks {α : Type} [DecidableEq α] {Has : Chans → α → Prop}
    {list : Chans → List α} {Lacked : α → Prop}
    (turn : ∀ {st : FullMode} {chans}, Ready call.chptr st.chans →
      LetterEffect call st chans → Turn Has list st.chans chans)
    (ready : Ready call.chptr st.chans)
    (tracks : Tracks Has list Lacked st.chans) (modes : List Char) :
    Tracks Has list (fun item => Lacked item ∨
        ∃ u ∈ states call modes st, ¬Has u item)
      (FullMode.loop call modes st).1.chans := by
  have known : ∀ item, Lacked item ↔ Lacked item ∨
      ∃ u ∈ [st.chans], ¬Has u item := by
    intro item
    simp only [List.mem_singleton, exists_eq_left]
    exact ⟨Or.inl, fun either => either.elim id (tracks.here item)⟩
  induction modes generalizing st Lacked with
  | nil => exact tracks.congr known
  | cons p rest ih =>
      unfold loop states
      cases taken : st.letter call p with
      | none => exact tracks.congr known
      | some after =>
          have effect := letter_effect taken
          have next := tracks.turn (turn ready effect)
          refine (ih (effect_turns ready effect).2 next ?_).congr fun item => ?_
          · intro item
            simp only [List.mem_singleton, exists_eq_left]
            exact ⟨Or.inl, fun either => either.elim id (next.here item)⟩
          · constructor
            · rintro ((before | lacks) | ⟨u, passed, lacks⟩)
              · exact Or.inl before
              · exact Or.inr ⟨after.chans,
                  List.mem_cons_of_mem _ (mem_states rest), lacks⟩
              · exact Or.inr ⟨u, List.mem_cons_of_mem _ passed, lacks⟩
            · rintro (before | ⟨u, passed, lacks⟩)
              · exact Or.inl (Or.inl before)
              · obtain rfl | later := List.mem_cons.mp passed
                · exact Or.inl (Or.inl (tracks.here item lacks))
                · exact Or.inr ⟨u, later, lacks⟩

end FullMode

def messageStates (call : FullModeCall) (parv : List CString)
    (chans : Chans) : List Chans :=
  match parv with
  | [] => [chans]
  | modes :: args => FullMode.states call modes ⟨chans, args, true, []⟩

namespace Chans

/-- No list of `c_mode.c` holds anything. -/
structure ListsEmpty (s : Chans) : Prop where
  opped : s.oppedList = []
  voiced : s.voicedList = []
  ban : s.banList = []

/-- The lists hold exactly what the message made of the channel: the members
that it opped and voiced and the masks that it banned, and that are still so. -/
structure ListsTell (c : ChannelId) (states : List Chans) (s : Chans) :
    Prop where
  opped : Exactly s.oppedList fun m =>
    s.Opped c m ∧ ∃ u ∈ states, ¬u.Opped c m
  voiced : Exactly s.voicedList fun m =>
    s.Voiced c m ∧ ∃ u ∈ states, ¬u.Voiced c m
  ban : Exactly s.banList fun mask =>
    s.Banned c mask ∧ ∃ u ∈ states, ¬u.Banned c mask

end Chans

open Chans (Inv ListsEmpty ListsTell) in
theorem parseFullMode_lists {call : FullModeCall} {parv : List CString}
    {chans : Chans} (inv : Inv (fun _ => True) chans)
    (there : (chans.channel.cell call.chptr).isSome = true)
    (empty : ListsEmpty chans) :
    ListsTell call.chptr (messageStates call parv chans)
      (parseFullMode call parv chans).1 := by
  have ready : FullMode.Ready call.chptr chans :=
    ⟨inv, there, by simp [empty.ban], by simp [empty.ban]⟩
  cases parv with
  | nil =>
      have none_ : ∀ {α : Type} {Has : Chans → α → Prop} {item : α},
          ¬(Has chans item ∧ ∃ u ∈ [chans], ¬Has u item) := by
        intro α Has item both
        simp at both
      refine ⟨?_, ?_, ?_⟩
      · rw [show (parseFullMode call [] chans).1.oppedList = [] from empty.opped]
        exact .nil fun _ => none_
      · rw [show (parseFullMode call [] chans).1.voicedList = [] from empty.voiced]
        exact .nil fun _ => none_
      · rw [show (parseFullMode call [] chans).1.banList = [] from empty.ban]
        exact .nil fun _ => none_
  | cons modes args =>
      have begun : FullMode.Ready call.chptr
          (⟨chans, args, true, []⟩ : FullMode).chans := ready
      have whole : ∀ {α : Type} [DecidableEq α] {Has : Chans → α → Prop}
          {list : Chans → List α}, list chans = [] →
          (∀ {st : FullMode} {t}, FullMode.Ready call.chptr st.chans →
            FullMode.LetterEffect call st t → Turn Has list st.chans t) →
          Exactly (list (parseFullMode call (modes :: args) chans).1)
            fun item => Has (parseFullMode call (modes :: args) chans).1 item ∧
              ∃ u ∈ messageStates call (modes :: args) chans, ¬Has u item := by
        intro α _ Has list none_ turn
        refine (FullMode.loop_tracks turn begun (Tracks.start none_)
          modes).exactly.congr fun item => ?_
        refine and_congr Iff.rfl ⟨?_, Or.inr⟩
        rintro (lacked | passed)
        · exact ⟨_, FullMode.mem_states modes, lacked⟩
        · exact passed
      refine ⟨whole empty.opped ?_, whole empty.voiced ?_, whole empty.ban ?_⟩
      · exact fun ready effect => (FullMode.effect_turns ready effect).1.opped
      · exact fun ready effect => (FullMode.effect_turns ready effect).1.voiced
      · exact fun ready effect => (FullMode.effect_turns ready effect).1.banned

end RatboxServices
