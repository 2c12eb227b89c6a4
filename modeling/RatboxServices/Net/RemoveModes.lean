import RatboxServices.Net.ModeBuffer
import RatboxServices.Net.ModeLines
import RatboxServices.Net.SentModes

namespace RatboxServices

open CString
open Chans (SameState)
open FullMode (applyAll)

/-! `remove_our_simple_modes` for a service: what it sends, beside what it does
to the channel here. -/

/-- `prevent_join` of `chmode_table`. -/
def preventsJoin (bit : Nat) : Bool :=
  bit == modeInviteonly || bit == modeRegonly || bit == modeSslonly

def clearEntries (entries : List (Nat × Char)) (bits : Word) : Word :=
  entries.foldl (fun (bits : Word) entry => bits.clear entry.1) bits

theorem clearEntries_has (entries : List (Nat × Char)) (bits : Word)
    (bit : Nat) :
    (clearEntries entries bits).has bit =
      (bits.has bit && !decide (bit ∈ entries.map Prod.fst)) := by
  unfold clearEntries
  induction entries generalizing bits with
  | nil => simp
  | cons entry rest ih =>
      rw [List.foldl_cons, ih, Word.has_clear]
      by_cases same : entry.1 = bit
      · simp [same]
      · have other : bit ≠ entry.1 := fun equal => same equal.symm
        simp only [same, decide_false, Bool.not_false, Bool.and_true,
          List.map_cons, List.mem_cons, other, false_or]

namespace Chmode

def removedEntries (preventJoin : Bool) (mode : Chmode) : List (Nat × Char) :=
  chmodeTable.filter fun entry =>
    !(preventJoin && !preventsJoin entry.1) && mode.mode.has entry.1

/-- The calls of `modebuild_add`. -/
def removals (preventJoin : Bool) (mode : Chmode) : List ModeChange :=
  (mode.removedEntries preventJoin).map (fun entry => ⟨false, entry.2, none⟩) ++
    (if mode.key = [] then [] else [⟨false, 'k', some ['*']⟩]) ++
      if mode.limit = 0 then [] else [⟨false, 'l', none⟩]

def Covered (preventJoin : Bool) (mode : Chmode) : Prop :=
  ∀ bit, mode.mode.has bit = true →
    (bit ∈ chmodeTable.map Prod.fst ∧
      (preventJoin = true → preventsJoin bit = true)) ∨
    (bit = modeKey ∧ mode.key ≠ []) ∨ (bit = modeLimit ∧ mode.limit ≠ 0)

instance (preventJoin : Bool) (mode : Chmode) :
    Decidable (mode.Covered preventJoin) :=
  decidable_of_iff (∀ bit < 32, mode.mode.has bit = true →
      (bit ∈ chmodeTable.map Prod.fst ∧
        (preventJoin = true → preventsJoin bit = true)) ∨
      (bit = modeKey ∧ mode.key ≠ []) ∨ (bit = modeLimit ∧ mode.limit ≠ 0))
    ⟨fun small bit set => small bit (BitVec.lt_of_getLsbD set) set,
      fun covered bit _ set => covered bit set⟩

def leftOver (preventJoin : Bool) (mode : Chmode) : Chmode :=
  let bits := clearEntries (mode.removedEntries preventJoin) mode.mode
  let bits : Word := if mode.key = [] then bits else bits.clear modeKey
  { mode := if mode.limit = 0 then bits else bits.clear modeLimit
    key := []
    limit := 0 }

theorem mem_removedEntries {preventJoin : Bool} {mode : Chmode} {bit : Nat}
    (set : mode.mode.has bit = true) :
    bit ∈ (mode.removedEntries preventJoin).map Prod.fst ↔
      bit ∈ chmodeTable.map Prod.fst ∧
        (preventJoin = true → preventsJoin bit = true) := by
  simp only [removedEntries, List.mem_map, List.mem_filter]
  constructor
  · rintro ⟨entry, ⟨listed, kept⟩, rfl⟩
    refine ⟨⟨entry, listed, rfl⟩, fun prevent => ?_⟩
    simpa [prevent, set] using kept
  · rintro ⟨⟨entry, listed, rfl⟩, prevents⟩
    refine ⟨entry, ⟨listed, ?_⟩, rfl⟩
    cases preventJoin with
    | false => simp [set]
    | true => simp [set, prevents rfl]

theorem leftOver_has (preventJoin : Bool) (mode : Chmode) (bit : Nat) :
    (mode.leftOver preventJoin).mode.has bit =
      (mode.mode.has bit &&
        !decide (bit ∈ (mode.removedEntries preventJoin).map Prod.fst) &&
        !(decide (bit = modeKey) && !decide (mode.key = [])) &&
        !(decide (bit = modeLimit) && !decide (mode.limit = 0))) := by
  have flip (other : Nat) : decide (other = bit) = decide (bit = other) :=
    decide_eq_decide.mpr eq_comm
  unfold leftOver
  by_cases key : mode.key = []
  · by_cases limit : mode.limit = 0
    · simp [key, limit, clearEntries_has]
    · simp [key, limit, clearEntries_has, flip]
  · by_cases limit : mode.limit = 0
    · simp [key, limit, clearEntries_has, flip]
    · simp [key, limit, clearEntries_has, flip]

theorem leftOver_eq_iff (preventJoin : Bool) (mode : Chmode) :
    mode.leftOver preventJoin = {} ↔ mode.Covered preventJoin := by
  have none_iff : mode.leftOver preventJoin = {} ↔
      ∀ bit, (mode.leftOver preventJoin).mode.has bit = false := by
    constructor
    · intro empty bit
      rw [empty]
      exact Word.has_zero bit
    · intro none_
      have bits : (mode.leftOver preventJoin).mode = 0#32 :=
        Word.ext fun bit _ => (none_ bit).trans (Word.has_zero bit).symm
      have whole : mode.leftOver preventJoin =
          ⟨(mode.leftOver preventJoin).mode, [], 0⟩ := rfl
      rw [whole, bits]
  rw [none_iff]
  unfold Covered
  refine forall_congr' fun bit => ?_
  rw [leftOver_has]
  cases set : mode.mode.has bit with
  | false => simp
  | true =>
      rw [← mem_removedEntries set]
      by_cases removed : bit ∈ (mode.removedEntries preventJoin).map Prod.fst
      · simp only [removed, decide_true, Bool.not_true, Bool.and_false,
          Bool.false_and, true_or, imp_self]
      · simp only [removed, decide_false, Bool.not_false, Bool.true_and,
          false_or, forall_const]
        have apart : ¬modeKey = modeLimit := by decide
        by_cases key : bit = modeKey
        · subst key
          simp [apart]
        · by_cases limit : bit = modeLimit
          · subst limit
            simp [key]
          · simp [key, limit]

end Chmode

def onMode (chptr : ChannelId) (change : Chmode → Chmode) (chans : Chans) :
    Chans :=
  chans.modifyChannel chptr fun ch => { ch with mode := change ch.mode }

theorem onMode_onMode (chptr : ChannelId) (first second : Chmode → Chmode)
    (chans : Chans) :
    onMode chptr second (onMode chptr first chans) =
      onMode chptr (fun mode => second (first mode)) chans := by
  simp [onMode, Chans.modifyChannel, Heap.modify_modify]

theorem onMode_self (chptr : ChannelId) (chans : Chans) :
    onMode chptr (fun mode => mode) chans = chans := by
  show chans.modifyChannel chptr id = chans
  rw [Chans.modifyChannel, Heap.modify_self]

namespace ModeChange

variable {call : FullModeCall}

theorem sound_entry {entry : Nat × Char} (listed : entry ∈ chmodeTable) :
    ModeChange.Sound call.received ⟨false, entry.2, none⟩ ∧
      ∀ chans, ModeChange.apply call.received ⟨false, entry.2, none⟩ chans =
        onMode call.chptr (Chmode.put false entry.1) chans := by
  refine sound_of fun chans more => ?_
  fin_cases listed <;> rfl

theorem sound_key :
    ModeChange.Sound call.received ⟨false, 'k', some ['*']⟩ ∧
      ∀ chans, ModeChange.apply call.received ⟨false, 'k', some ['*']⟩ chans =
        onMode call.chptr
          (fun mode => { mode.put false modeKey with key := [] }) chans :=
  sound_of fun _ _ => rfl

theorem sound_limit :
    ModeChange.Sound call.received ⟨false, 'l', none⟩ ∧
      ∀ chans, ModeChange.apply call.received ⟨false, 'l', none⟩ chans =
        onMode call.chptr
          (fun mode => { mode.put false modeLimit with limit := 0 }) chans :=
  sound_of fun _ _ => rfl

end ModeChange

section Apply

variable {call : FullModeCall}

theorem applyAll_entries {entries : List (Nat × Char)}
    (known : ∀ entry ∈ entries, entry ∈ chmodeTable) (chans : Chans) :
    applyAll call (entries.map fun entry => ⟨false, entry.2, none⟩) chans =
      onMode call.chptr (fun mode =>
        { mode with mode := clearEntries entries mode.mode }) chans := by
  induction entries generalizing chans with
  | nil => exact (onMode_self call.chptr chans).symm
  | cons entry rest ih =>
      obtain ⟨-, first⟩ := ModeChange.sound_entry (known entry (by simp))
      rw [List.map_cons, applyAll, List.foldl_cons, first]
      refine (ih (fun other listed =>
        known other (List.mem_cons_of_mem _ listed)) _).trans ?_
      rw [onMode_onMode]
      rfl

theorem applyAll_removals (preventJoin : Bool) (mode : Chmode)
    (chans : Chans) :
    applyAll call (mode.removals preventJoin) chans =
      onMode call.chptr (fun now =>
        let bits := clearEntries (mode.removedEntries preventJoin) now.mode
        let now := { now with mode := bits }
        let now := if mode.key = [] then now
          else { now.put false modeKey with key := [] }
        if mode.limit = 0 then now
        else { now.put false modeLimit with limit := 0 }) chans := by
  have known : ∀ entry ∈ mode.removedEntries preventJoin,
      entry ∈ chmodeTable := fun entry listed => (List.mem_filter.mp listed).1
  have nothing (chans : Chans) : applyAll call [] chans = chans := rfl
  unfold Chmode.removals
  rw [FullMode.applyAll_append, FullMode.applyAll_append,
    applyAll_entries known]
  have key (chans : Chans) : applyAll call [⟨false, 'k', some ['*']⟩] chans =
      _ := ModeChange.sound_key.2 chans
  have limit (chans : Chans) : applyAll call [⟨false, 'l', none⟩] chans =
      _ := ModeChange.sound_limit.2 chans
  by_cases keyed : mode.key = []
  · by_cases limited : mode.limit = 0
    · simp only [keyed, limited, if_true]
      rfl
    · simp only [keyed, limited, if_true, if_false, limit, nothing]
      exact onMode_onMode call.chptr _ _ chans
  · by_cases limited : mode.limit = 0
    · simp only [keyed, limited, if_true, if_false, key, nothing]
      exact onMode_onMode call.chptr _ _ chans
    · simp only [keyed, limited, if_false, key, limit]
      rw [onMode_onMode, onMode_onMode]

end Apply

namespace State

/-- The lines that `remove_our_simple_modes` sends for a service. -/
def removeModeLines (s : State) (serviceP : ClientId) (chptr : ChannelId)
    (preventJoin : Bool) : List CString :=
  if s.linked then
    ModeBuffer.linesOf (s.modeHead serviceP chptr)
      ((s.chans.channel.get chptr).mode.removals preventJoin)
  else []

/-- What is done here is what the lines do to the channel as it was, and where
only the modes that prevent joining go the others stay. -/
def RemovalReplays (env : Env) (uplinkName : CString) (s : State)
    (serviceP : ClientId) (chptr : ChannelId) (preventJoin : Bool) : Prop :=
  SameState chptr (s.chans.removeOurSimpleModes chptr)
      ((s.removeModeLines serviceP chptr preventJoin).foldl
        (replayLine env uplinkName s chptr) s.chans) ∧
    (preventJoin = true → ∀ bit ∈ chmodeTable.map Prod.fst,
      preventsJoin bit = false →
      (s.chans.channel.get chptr).mode.mode.has bit = true →
        ((s.chans.removeOurSimpleModes chptr).channel.get chptr).mode.mode.has
          bit = true)

variable {env : Env} {uplinkName : CString} {s : State} {serviceP : ClientId}
  {chptr : ChannelId} {ch : Channel} {preventJoin : Bool}

theorem removal_carried {mode : Chmode} {change : ModeChange}
    (listed : change ∈ mode.removals preventJoin) :
    change.letter ∈ modeLetters ∧
      (∀ arg, change.arg = some arg → arg = ['*']) ∧
      ∀ call : FullModeCall, change.Sound call.received := by
  unfold Chmode.removals at listed
  rw [List.mem_append, List.mem_append] at listed
  obtain (entry | key) | limit := listed
  · obtain ⟨removed, inside, rfl⟩ := List.mem_map.mp entry
    have known : removed ∈ chmodeTable := (List.mem_filter.mp inside).1
    refine ⟨?_, by simp, fun call => (ModeChange.sound_entry known).1⟩
    fin_cases known <;> decide
  · split at key
    · cases key
    · obtain rfl := List.mem_singleton.mp key
      refine ⟨by decide, fun arg given => ?_,
        fun call => ModeChange.sound_key.1⟩
      cases given
      rfl
  · split at limit
    · cases limit
    · obtain rfl := List.mem_singleton.mp limit
      exact ⟨by decide, by simp, fun call => ModeChange.sound_limit.1⟩

theorem removeModeLines_replay (splits : SplitsParams env.stringToArray)
    (named : Named s serviceP chptr)
    (star : Sendable s serviceP chptr ['*']) (linked : s.linked = true) :
    (s.removeModeLines serviceP chptr preventJoin).foldl
        (replayLine env uplinkName s chptr) s.chans =
      applyAll (s.issuedCall serviceP chptr true)
        ((s.chans.channel.get chptr).mode.removals preventJoin) s.chans := by
  have fits : ∀ change ∈
      (s.chans.channel.get chptr).mode.removals preventJoin,
      Modebuild.Fits (s.modeHead serviceP chptr) change := by
    intro change listed
    unfold Modebuild.Fits ModeChange.argLength
    cases given : change.arg with
    | none => exact named.short
    | some arg =>
        rw [(removal_carried listed).2.1 arg given]
        exact star.short
  obtain ⟨groups, all, built, full⟩ : ∃ groups : List (List ModeChange),
      (s.chans.channel.get chptr).mode.removals preventJoin =
          groups.flatten ++ Modebuild.unsent (s.modeHead serviceP chptr)
            ((s.chans.channel.get chptr).mode.removals preventJoin) true ∧
        Modebuild.build (s.modeHead serviceP chptr)
            ((s.chans.channel.get chptr).mode.removals preventJoin) true =
            groups.map (Modebuild.lineOf (s.modeHead serviceP chptr)) ∧
          ∀ group ∈ groups,
            Modebuild.Group (s.modeHead serviceP chptr) group :=
    Modebuild.build_eq fits
  have whole : (s.chans.channel.get chptr).mode.removals preventJoin =
      groups.flatten := by
    simpa [Modebuild.unsent] using all
  have small : (s.modeHead serviceP chptr).length < bufSize := by
    have short := named.short
    unfold bufSize at *
    omega
  unfold removeModeLines
  rw [if_pos linked, ModeBuffer.linesOf_eq small, built, whole]
  refine foldl_replayLine splits named full (fun change listed => ?_) _
  rw [← whole] at listed
  obtain ⟨known, args, sound⟩ := removal_carried listed
  refine ⟨known, fun arg given => ?_, sound _⟩
  rw [args arg given]
  exact star.toCarried

theorem sameState_onMode_iff {chans : Chans} {first second : Chmode → Chmode}
    (there : chans.channel.cell chptr = some ch) :
    SameState chptr (onMode chptr first chans) (onMode chptr second chans) ↔
      first ch.mode = second ch.mode := by
  constructor
  · intro same
    simpa [onMode, Chans.modifyChannel, there] using same.mode
  · intro same
    refine ⟨⟨?_, fun m => rfl⟩, ?_, ?_, ?_⟩
    · simpa [onMode, Chans.modifyChannel, there] using same
    · simp [onMode, Chans.modifyChannel, there]
    · simp [onMode, Chans.modifyChannel, there]
    · simp [onMode, Chans.modifyChannel, there]

theorem removeModes_same_iff (splits : SplitsParams env.stringToArray)
    (named : Named s serviceP chptr)
    (star : Sendable s serviceP chptr ['*'])
    (there : s.chans.channel.cell chptr = some ch) :
    SameState chptr (s.chans.removeOurSimpleModes chptr)
        ((s.removeModeLines serviceP chptr preventJoin).foldl
          (replayLine env uplinkName s chptr) s.chans) ↔
      if s.linked then ch.mode.Covered preventJoin else ch.mode = {} := by
  have here : s.chans.removeOurSimpleModes chptr =
      onMode chptr (fun _ => {}) s.chans := rfl
  have got : s.chans.channel.get chptr = ch := by
    simp [Heap.get, there]
  rw [here]
  cases linked : s.linked with
  | false =>
      have none_ : s.removeModeLines serviceP chptr preventJoin = [] := by
        rw [removeModeLines, linked]
        rfl
      rw [none_, List.foldl_nil]
      have same : SameState chptr (onMode chptr (fun _ => {}) s.chans)
          (onMode chptr (fun mode => mode) s.chans) ↔ {} = ch.mode :=
        sameState_onMode_iff there
      rw [onMode_self] at same
      rw [same]
      exact eq_comm
  | true =>
      rw [removeModeLines_replay splits named star linked, got,
        applyAll_removals]
      refine (sameState_onMode_iff there).trans (Iff.trans ?_
        (ch.mode.leftOver_eq_iff preventJoin))
      rw [eq_comm]
      have left : ∀ mode : Chmode, (
          let bits := clearEntries (mode.removedEntries preventJoin) mode.mode
          let now : Chmode := { mode with mode := bits }
          let now := if mode.key = [] then now
            else { now.put false modeKey with key := [] }
          if mode.limit = 0 then now
          else { now.put false modeLimit with limit := 0 }) =
            mode.leftOver preventJoin := by
        intro mode
        unfold Chmode.leftOver Chmode.put
        by_cases key : mode.key = []
        · by_cases limit : mode.limit = 0
          · simp [key, limit]
          · simp [key, limit]
        · by_cases limit : mode.limit = 0
          · simp [key, limit]
          · simp [key, limit]
      rw [left]

end State

end RatboxServices
