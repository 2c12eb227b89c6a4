import RatboxServices.Net.ChannelInv
import RatboxServices.Net.Mode

namespace RatboxServices

/-! What the letters of a mode string do to the channels, and that
`parse_full_mode` keeps the invariant of the channel store. -/

namespace Chmode

inductive Letter (mode : Chmode) : Chmode → Prop where
  | put (dir : Bool) (bit : Nat) (noLimit : bit ≠ modeLimit)
      (noKey : bit ≠ modeKey) : Letter mode (mode.put dir bit)
  | setKey {key : CString} (given : key ≠ []) :
      Letter mode { mode.put true modeKey with key := key }
  | dropKey : Letter mode { mode.put false modeKey with key := [] }
  | setLimit {limit : Int} (positive : 0 < limit) :
      Letter mode { mode.put true modeLimit with limit := limit }
  | dropLimit : Letter mode { mode.put false modeLimit with limit := 0 }

end Chmode

namespace FullMode

open Chans (Inv)

variable {Empty : ChannelId → Prop} {call : FullModeCall} {st : FullMode}

@[simp] theorem modebuildAdd_chans (letter : Char) (arg : Option CString) :
    (st.modebuildAdd call letter arg).chans = st.chans := by
  unfold modebuildAdd
  split <;> rfl

@[simp] theorem nextArg_chans : st.nextArg.chans = st.chans := rfl

theorem inv_onChannel (inv : Inv Empty st.chans)
    {change : Channel → Channel} (plain : Inv.Plain change) :
    Inv Empty (st.onChannel call change).chans :=
  inv.modifyChannel call.chptr plain

theorem inv_onMode (inv : Inv Empty st.chans) (change : Chmode → Chmode) :
    Inv Empty (st.onMode call change).chans :=
  inv_onChannel inv fun _ => ⟨rfl, rfl, rfl, rfl, rfl⟩

/-- The static lists of `c_mode.c` are no part of the invariant. -/
theorem inv_lists {chans : Chans} (inv : Inv Empty chans)
    (opped voiced : List MemberId) (bans : List CString)
    (deopped : List ClientId) :
    Inv Empty { chans with
      oppedList := opped
      voicedList := voiced
      banList := bans
      deoppedList := deopped } :=
  { inv with }

theorem inv_serviceOp (inv : Inv Empty st.chans) (target : ClientId)
    (letter : Char) : Inv Empty (st.serviceOp call target letter).chans := by
  unfold serviceOp
  split
  · exact inv
  · split
    · exact inv_lists inv _ _ _ _
    · split
      · exact inv
      · exact inv_lists inv _ _ _ _

theorem inv_memberOp (inv : Inv Empty st.chans) (mptr : MemberId)
    (member : Chmember) (nick : CString) :
    Inv Empty (st.memberOp call mptr member nick).chans := by
  unfold memberOp
  split
  · have unmarked := inv.clearDeopped mptr
    dsimp only
    split
    · exact unmarked
    · rw [modebuildAdd_chans]
      exact inv_lists (unmarked.opChmember mptr) _ _ _ _
  · split
    · rw [modebuildAdd_chans]
      exact Inv.deopChmember (inv_lists inv _ _ _ _) mptr
    · rw [modebuildAdd_chans]
      exact inv

theorem inv_memberVoice (inv : Inv Empty st.chans) (mptr : MemberId)
    (member : Chmember) (nick : CString) :
    Inv Empty (st.memberVoice call mptr member nick).chans := by
  unfold memberVoice
  split
  · split
    · exact inv
    · rw [modebuildAdd_chans]
      exact inv_lists (inv.voiceChmember mptr) _ _ _ _
  · split
    · rw [modebuildAdd_chans]
      exact Inv.devoiceChmember (inv_lists inv _ _ _ _) mptr
    · rw [modebuildAdd_chans]
      exact inv

theorem inv_prefixMode (inv : Inv Empty st.chans) (letter : Char)
    (nick : CString) : Inv Empty (st.prefixMode call letter nick).chans := by
  unfold prefixMode
  split
  · exact inv_serviceOp inv _ letter
  · split
    · exact inv
    · split
      · exact inv
      · split
        · exact inv
        · split
          · exact inv_memberOp inv _ _ nick
          · exact inv_memberVoice inv _ _ nick

theorem inv_banMode (inv : Inv Empty st.chans) (mask : CString) :
    Inv Empty (st.banMode call mask).chans := by
  unfold banMode
  rw [modebuildAdd_chans]
  split
  · split
    · exact inv
    · refine inv_lists ?_ _ _ _ _
      exact inv_onChannel inv fun _ => ⟨rfl, rfl, rfl, rfl, rfl⟩
  · split
    · exact inv
    · refine inv_lists ?_ _ _ _ _
      exact inv_onChannel inv fun _ => ⟨rfl, rfl, rfl, rfl, rfl⟩

def Lists (change : Channel → Channel) : Prop :=
  ∀ ch, ∃ excepts invites,
    change ch = { ch with excepts := excepts, invites := invites }

inductive LetterEffect (call : FullModeCall) (st : FullMode) :
    Chans → Prop where
  | none : LetterEffect call st st.chans
  | mode {change : Chmode → Chmode}
      (letter : ∀ mode, Chmode.Letter mode (change mode)) :
      LetterEffect call st (st.onMode call change).chans
  | lists {change : Channel → Channel} (lists : Lists change) :
      LetterEffect call st (st.onChannel call change).chans
  | ban (mask : CString) : LetterEffect call st (st.banMode call mask).chans
  | status (letter : Char) (nick : CString) :
      LetterEffect call st (st.nextArg.prefixMode call letter nick).chans

theorem simpleModeBit_ne {p : Char} {bit : Nat}
    (simple : simpleModeBit p = some bit) :
    bit ≠ modeLimit ∧ bit ≠ modeKey := by
  unfold simpleModeBit at simple
  split at simple <;> cases simple <;> decide

theorem strlcpy_ne_nil {size : Nat} {source : CString}
    (room : 2 ≤ size) (given : source ≠ []) :
    CString.strlcpy size source ≠ [] := by
  unfold CString.strlcpy
  cases source with
  | nil => exact absurd rfl given
  | cons c rest =>
      obtain ⟨rest_, same⟩ : ∃ n, size - 1 = n + 1 := ⟨size - 2, by omega⟩
      simp [same]

theorem headD_ne_nil {args : List CString}
    (given : ¬emptyHead args = true) : args.headD [] ≠ [] := by
  cases args with
  | nil => exact absurd rfl given
  | cons param rest => simpa [emptyHead] using given

theorem letter_effect {p : Char} {after : FullMode}
    (taken : st.letter call p = some after) :
    LetterEffect call st after.chans := by
  unfold letter at taken
  split at taken
  case h_1 => cases taken; exact .none
  case h_2 => cases taken; exact .none
  case h_3 =>
    split at taken
    · cases taken
      rw [modebuildAdd_chans]
      exact .mode fun mode => .put _ _ (by decide) (by decide)
    · cases taken
  case h_4 =>
    split at taken
    · cases taken
    · rename_i given
      split at taken
      · cases taken
        rw [nextArg_chans, modebuildAdd_chans]
        exact .mode fun mode =>
          .setKey (strlcpy_ne_nil (by decide) (headD_ne_nil given))
      · cases taken
        rw [nextArg_chans, modebuildAdd_chans]
        exact .mode fun mode => .dropKey
  case h_5 =>
    split at taken
    · split at taken
      · cases taken
      · dsimp only at taken
        split at taken
        · cases taken
        · rename_i positive
          split at taken
          · cases taken
          · cases taken
            rw [nextArg_chans]
            show LetterEffect call st (Chans.modifyChannel _ _ (modebuildAdd
              call 'l' (some (st.args.headD [])) st).chans)
            rw [modebuildAdd_chans]
            exact .mode fun mode => .setLimit (by omega)
    · cases taken
      rw [modebuildAdd_chans]
      exact .mode fun mode => .dropLimit
  case h_6 =>
    split at taken
    · cases taken
    · cases taken
      rw [nextArg_chans]
      exact .ban _
  case h_7 =>
    split at taken
    · cases taken
    · cases taken
      rw [nextArg_chans, modebuildAdd_chans]
      exact .lists fun ch => ⟨_, ch.invites, rfl⟩
  case h_8 =>
    split at taken
    · cases taken
    · cases taken
      rw [nextArg_chans, modebuildAdd_chans]
      exact .lists fun ch => ⟨ch.excepts, _, rfl⟩
  case h_9 =>
    split at taken
    · split at taken
      · cases taken
      · cases taken
        exact .status _ _
    · split at taken
      · rename_i bit simple
        cases taken
        rw [modebuildAdd_chans]
        obtain ⟨noLimit, noKey⟩ := simpleModeBit_ne simple
        exact .mode fun mode => .put _ _ noLimit noKey
      · cases taken
        exact .none

theorem loop_related {Chan : Chans → Chans → Prop} (refl : ∀ s, Chan s s)
    (trans : ∀ {r s t}, Chan r s → Chan s t → Chan r t)
    (each : ∀ st chans, LetterEffect call st chans → Chan st.chans chans)
    (modes : List Char) :
    Chan st.chans (FullMode.loop call modes st).1.chans := by
  induction modes generalizing st with
  | nil => exact refl _
  | cons p rest ih =>
      unfold loop
      cases taken : st.letter call p with
      | none => exact refl _
      | some after => exact trans (each _ _ (letter_effect taken)) ih

theorem inv_effect {chans : Chans} (inv : Inv Empty st.chans)
    (effect : LetterEffect call st chans) : Inv Empty chans := by
  cases effect with
  | none => exact inv
  | mode letter => exact inv_onMode inv _
  | lists lists =>
      refine inv_onChannel inv fun ch => ?_
      obtain ⟨excepts, invites, same⟩ := lists ch
      rw [same]
      exact ⟨rfl, rfl, rfl, rfl, rfl⟩
  | ban mask => exact inv_banMode inv mask
  | status letter nick =>
      rw [← nextArg_chans] at inv
      exact inv_prefixMode inv letter nick

theorem inv_loop (inv : Inv Empty st.chans) (modes : List Char) :
    Inv Empty (FullMode.loop call modes st).1.chans :=
  @loop_related call st (fun s t => Inv Empty s → Inv Empty t)
    (fun _ inv => inv) (fun first second inv => second (first inv))
    (fun _ _ effect inv => inv_effect inv effect) modes inv

end FullMode

theorem Chans.Inv.parseFullMode {Empty : ChannelId → Prop} {s : Chans}
    (inv : Chans.Inv Empty s) (call : FullModeCall) (parv : List CString) :
    Chans.Inv Empty (RatboxServices.parseFullMode call parv s).1 := by
  cases parv with
  | nil => exact inv
  | cons modes args =>
      have start : Chans.Inv Empty (⟨s, args, true, []⟩ : FullMode).chans := inv
      exact FullMode.inv_loop start modes

end RatboxServices
