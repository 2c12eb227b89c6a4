import RatboxServices.Net.ModeHeard
import RatboxServices.Serv.ChanHook

namespace RatboxServices

open CString
open Chans (SameState)

/-! The modes that a registration enforces: what `h_chanserv_mode_simple` does
here, and what it tells the network. -/

namespace Chmode

def limitDiffers (emode mode : Chmode) : Bool :=
  emode.limit != 0 && mode.limit != emode.limit

def keyDiffers (emode mode : Chmode) : Bool :=
  !emode.key.isEmpty && !strcasecmp mode.key emode.key

def enforced (emode mode : Chmode) : Chmode :=
  if emode.mode = 0#32 then {}
  else
    let bits := missing emode mode
    let bits := if limitDiffers emode mode then bits.set modeLimit else bits
    { mode := if keyDiffers emode mode then bits.set modeKey else bits
      limit := if limitDiffers emode mode then emode.limit else 0
      key :=
        if keyDiffers emode mode then strlcpy (keyLen + 1) emode.key
        else [] }

/-- The modes of a registration as `parse_simple_mode` reads them, with a limit
that is positive where there is one. -/
structure Registered (emode : Chmode) : Prop extends Enforceable emode where
  known : ∀ bit, emode.mode.has bit = true →
    bit ∈ chmodeTable.map Prod.fst ∨ bit = modeLimit ∨ bit = modeKey
  valid : validKey emode.key = some emode.key
  high : emode.limit < 2147483648

theorem registered_of_read {allowSslonly : Bool} {parv rest : List CString}
    {mode emode : Chmode}
    (read : parseSimpleMode {} parv allowSslonly = some (mode, rest))
    (stored : emode = mode ∨ emode = mode.put false modeSslonly)
    (agrees : Agrees emode) : Registered emode := by
  have told := parseSimpleMode_told read
  have same : emode.limit = mode.limit ∧ emode.key = mode.key ∧
      (emode.mode.has modeLimit = mode.mode.has modeLimit) ∧
      ∀ bit, emode.mode.has bit = true → mode.mode.has bit = true := by
    obtain rfl | rfl := stored
    · exact ⟨rfl, rfl, rfl, fun _ set => set⟩
    · refine ⟨rfl, rfl, has_put_of_ne _ _ (by decide), fun bit set => ?_⟩
      rw [has_put _ _ _ _ (by decide)] at set
      split at set
      · cases set
      · exact set
  obtain ⟨limit, key, limitBit, fewer⟩ := same
  have bounds : -2147483648 ≤ mode.limit ∧ mode.limit < 2147483648 := by
    rw [told.value]
    cases limitInForce parv with
    | none => decide
    | some param => exact atoi_bounds param
  refine ⟨⟨agrees, ?_⟩, fun bit set => told.known bit (fewer bit set), ?_, ?_⟩
  · by_cases given : emode.mode.has modeLimit = true
    · have positive := agrees.limit.mp given
      omega
    · rw [limitBit, told.limit] at given
      have none_ : limitInForce parv = none := by simpa using given
      rw [limit, told.value, none_]
      decide
  · rw [key]
    exact told.valid
  · omega

structure Enforces (emode before after : Chmode) : Prop where
  bits : ∀ bit, emode.mode.has bit = true → after.mode.has bit = true
  limit : 0 < emode.limit → after.limit = emode.limit
  key : emode.key ≠ [] → strcasecmp after.key emode.key = true
  others : ∀ bit, emode.mode.has bit = false →
    after.mode.has bit = before.mode.has bit
  otherLimit : emode.limit = 0 → after.limit = before.limit
  otherKey : emode.key = [] → after.key = before.key

variable {emode mode : Chmode}

theorem Registered.cut (registered : Registered emode) :
    strlcpy (keyLen + 1) emode.key = emode.key :=
  List.take_of_length_le (by
    have short := State.length_of_validKey registered.valid
    omega)

theorem Registered.empty (registered : Registered emode)
    (none_ : emode.mode = 0#32) : emode.limit = 0 ∧ emode.key = [] := by
  have unset : ∀ bit, emode.mode.has bit = false := by
    intro bit
    rw [none_]
    exact Word.has_zero bit
  constructor
  · have nonneg := registered.limit_nonneg
    by_contra given
    have set := registered.limit.mpr (by omega)
    rw [unset] at set
    cases set
  · by_contra given
    have set := registered.key.mpr given
    rw [unset] at set
    cases set

theorem limitDiffers_iff : limitDiffers emode mode = true ↔
    emode.limit ≠ 0 ∧ mode.limit ≠ emode.limit := by
  simp [limitDiffers]

theorem keyDiffers_iff : keyDiffers emode mode = true ↔
    emode.key ≠ [] ∧ strcasecmp mode.key emode.key = false := by
  simp [keyDiffers]

theorem enforce_eq (given : emode.mode ≠ 0#32) (mode : Chmode) :
    enforce emode mode =
      { mode := mode.mode ||| missing emode mode
        limit := if limitDiffers emode mode then emode.limit else mode.limit
        key :=
          if keyDiffers emode mode then strlcpy (keyLen + 1) emode.key
          else mode.key } := by
  simp only [enforce, if_neg given, limitDiffers_iff]
  rfl

theorem enforced_eq (given : emode.mode ≠ 0#32) (mode : Chmode) :
    enforced emode mode =
      let bits := missing emode mode
      let bits := if limitDiffers emode mode then bits.set modeLimit else bits
      { mode := if keyDiffers emode mode then bits.set modeKey else bits
        limit := if limitDiffers emode mode then emode.limit else 0
        key :=
          if keyDiffers emode mode then strlcpy (keyLen + 1) emode.key
          else [] } :=
  if_neg given

theorem enforced_has (given : emode.mode ≠ 0#32) (mode : Chmode) (bit : Nat) :
    (enforced emode mode).mode.has bit = true ↔
      (emode.mode.has bit = true ∧ mode.mode.has bit = false) ∨
        (bit = modeLimit ∧ limitDiffers emode mode = true) ∨
          (bit = modeKey ∧ keyDiffers emode mode = true) := by
  have lacks : (missing emode mode).has bit = true ↔
      emode.mode.has bit = true ∧ mode.mode.has bit = false := by
    rw [has_missing, Bool.and_eq_true, Bool.not_eq_true']
  have word : (enforced emode mode).mode =
      let bits := missing emode mode
      let bits := if limitDiffers emode mode then bits.set modeLimit else bits
      if keyDiffers emode mode then bits.set modeKey else bits := by
    rw [enforced_eq given]
  rw [word, has_set_if _ _ (by decide : modeKey < 32),
    has_set_if _ _ (by decide : modeLimit < 32), lacks, or_assoc]

namespace Registered

theorem differs (registered : Registered emode) (agrees : Agrees mode) :
    (emode.mode.has modeLimit = true → mode.mode.has modeLimit = false →
        limitDiffers emode mode = true) ∧
      (emode.mode.has modeKey = true → mode.mode.has modeKey = false →
        keyDiffers emode mode = true) := by
  constructor
  · intro set unset
    have positive := registered.limit.mp set
    have none_ : ¬0 < mode.limit := by
      rw [← agrees.limit, unset]
      exact Bool.false_ne_true
    rw [limitDiffers_iff]
    omega
  · intro set unset
    have given := registered.key.mp set
    have none_ : mode.key = [] := by
      by_contra keyed
      rw [agrees.key.mpr keyed] at unset
      cases unset
    rw [keyDiffers_iff, none_]
    refine ⟨given, Bool.eq_false_iff.mpr fun same => ?_⟩
    exact strcasecmp_ne_nil same given rfl

theorem sendable (registered : Registered emode) (agrees : Agrees mode) :
    (enforced emode mode).Sendable := by
  by_cases given : emode.mode = 0#32
  · have none_ : enforced emode mode = {} := if_pos given
    rw [none_]
    refine ⟨fun bit set => ?_, by decide, by decide⟩
    rw [Word.has_zero] at set
    cases set
  · obtain ⟨limit, key⟩ := registered.differs agrees
    have apart : modeLimit ≠ modeKey := by decide
    refine ⟨fun bit set => ?_, ?_, ?_⟩
    · obtain ⟨set, -⟩ | ⟨rfl, -⟩ | ⟨rfl, -⟩ :=
        (enforced_has given mode bit).mp set
      · exact registered.known bit set
      · exact Or.inr (Or.inl rfl)
      · exact Or.inr (Or.inr rfl)
    · have value : (enforced emode mode).limit ≠ 0 ↔
          limitDiffers emode mode = true := by
        have some_ : limitDiffers emode mode = true → emode.limit ≠ 0 :=
          fun differs => (limitDiffers_iff.mp differs).1
        rw [enforced_eq given]
        simpa using some_
      rw [enforced_has given, value]
      constructor
      · rintro (⟨set, unset⟩ | ⟨-, differs⟩ | ⟨same, -⟩)
        · exact limit set unset
        · exact differs
        · exact absurd same apart
      · exact fun differs => Or.inr (Or.inl ⟨rfl, differs⟩)
    · have value : (enforced emode mode).key ≠ [] ↔
          keyDiffers emode mode = true := by
        rw [enforced_eq given, registered.cut]
        have some_ : keyDiffers emode mode = true → emode.key ≠ [] :=
          fun differs => (keyDiffers_iff.mp differs).1
        simpa using some_
      rw [enforced_has given, value]
      constructor
      · rintro (⟨set, unset⟩ | ⟨same, -⟩ | ⟨-, differs⟩)
        · exact key set unset
        · exact absurd same.symm apart
        · exact differs
      · exact fun differs => Or.inr (Or.inr ⟨rfl, differs⟩)

theorem tellable (registered : Registered emode) (mode : Chmode) :
    State.Tellable (enforced emode mode) := by
  have limit : (enforced emode mode).limit = 0 ∨
      (enforced emode mode).limit = emode.limit := by
    by_cases given : emode.mode = 0#32
    · exact Or.inl (congrArg Chmode.limit (if_pos given))
    · rw [enforced_eq given]
      cases limitDiffers emode mode <;> simp
  have key : (enforced emode mode).key = [] ∨
      (enforced emode mode).key = emode.key := by
    by_cases given : emode.mode = 0#32
    · exact Or.inl (congrArg Chmode.key (if_pos given))
    · rw [enforced_eq given, registered.cut]
      cases keyDiffers emode mode <;> simp
  have nonneg := registered.limit_nonneg
  have high := registered.high
  refine ⟨by omega, by omega, ?_⟩
  obtain none_ | same := key
  · rw [none_]
    exact validKey_nil
  · rw [same]
    exact registered.valid

end Registered

theorem hear_enforced (registered : Registered emode) (agrees : Agrees mode) :
    hear (enforced emode mode) mode = enforce emode mode := by
  by_cases given : emode.mode = 0#32
  · have none_ : enforced emode mode = {} := if_pos given
    have kept : enforce emode mode = mode := if_pos given
    rw [none_, kept]
    rfl
  · have bits : (hear (enforced emode mode) mode).mode =
        (enforce emode mode).mode := by
      refine Word.ext fun bit _ => ?_
      rw [hear_has (registered.sendable agrees), enforce_eq given,
        has_or_missing]
      have said := enforced_has given mode bit
      have limited : limitDiffers emode mode = true →
          emode.mode.has modeLimit = true := by
        intro differs
        have some_ := (limitDiffers_iff.mp differs).1
        have nonneg := registered.limit_nonneg
        exact registered.limit.mpr (by omega)
      have keyed : keyDiffers emode mode = true →
          emode.mode.has modeKey = true :=
        fun differs => registered.key.mpr (keyDiffers_iff.mp differs).1
      have sub : (enforced emode mode).mode.has bit = true →
          emode.mode.has bit = true := by
        intro set
        obtain ⟨set, -⟩ | ⟨rfl, differs⟩ | ⟨rfl, differs⟩ := said.mp set
        · exact set
        · exact limited differs
        · exact keyed differs
      cases had : mode.mode.has bit with
      | true => rfl
      | false =>
          rw [Bool.false_or, Bool.false_or, Bool.eq_iff_iff]
          exact ⟨sub, fun set => said.mpr (Or.inl ⟨set, had⟩)⟩
    have limit : (hear (enforced emode mode) mode).limit =
        (enforce emode mode).limit := by
      rw [hear_limit, enforced_eq given, enforce_eq given]
      by_cases differs : limitDiffers emode mode = true
      · simp [differs, (limitDiffers_iff.mp differs).1]
      · simp [differs]
    have key : (hear (enforced emode mode) mode).key =
        (enforce emode mode).key := by
      rw [hear_key, enforced_eq given, enforce_eq given, registered.cut]
      by_cases differs : keyDiffers emode mode = true
      · simp [differs, (keyDiffers_iff.mp differs).1, registered.cut]
      · simp [differs]
    calc hear (enforced emode mode) mode
        = ⟨(hear (enforced emode mode) mode).mode,
            (hear (enforced emode mode) mode).key,
            (hear (enforced emode mode) mode).limit⟩ := rfl
      _ = enforce emode mode := by rw [bits, limit, key]

theorem enforces_enforce (registered : Registered emode) (mode : Chmode) :
    Enforces emode mode (enforce emode mode) := by
  by_cases given : emode.mode = 0#32
  · obtain ⟨limit, key⟩ := registered.empty given
    have kept : enforce emode mode = mode := if_pos given
    rw [kept]
    refine ⟨fun bit set => ?_, fun positive => ?_, fun some_ => absurd key some_,
      fun _ _ => rfl, fun _ => rfl, fun _ => rfl⟩
    · rw [given, Word.has_zero] at set
      cases set
    · omega
  · rw [enforce_eq given]
    refine ⟨fun bit set => ?_, fun positive => ?_, fun some_ => ?_,
      fun bit unset => ?_, fun none_ => ?_, fun none_ => ?_⟩
    · rw [has_or_missing, set, Bool.or_true]
    · dsimp only
      split
      · rfl
      · rename_i same
        rw [limitDiffers_iff] at same
        by_contra other
        exact same ⟨by omega, other⟩
    · dsimp only
      split
      · rw [registered.cut]
        simp [strcasecmp]
      · rename_i same
        rw [keyDiffers_iff] at same
        by_contra other
        exact same ⟨some_, Bool.eq_false_iff.mpr other⟩
    · rw [has_or_missing, unset, Bool.or_false]
    · simp [limitDiffers, none_]
    · simp [keyDiffers, none_]

theorem enforced_enforce (registered : Registered emode) (mode : Chmode) :
    (enforced emode (enforce emode mode)).mode = 0#32 := by
  by_cases given : emode.mode = 0#32
  · exact congrArg Chmode.mode (if_pos given)
  · have enforces := enforces_enforce registered mode
    refine Word.ext fun bit _ => (Bool.eq_false_iff.mpr fun set => ?_).trans
      (Word.has_zero bit).symm
    obtain ⟨set, unset⟩ | ⟨-, differs⟩ | ⟨-, differs⟩ :=
      (enforced_has given _ bit).mp set
    · rw [enforces.bits bit set] at unset
      cases unset
    · obtain ⟨some_, other⟩ := limitDiffers_iff.mp differs
      have nonneg := registered.limit_nonneg
      exact other (enforces.limit (by omega))
    · obtain ⟨some_, other⟩ := keyDiffers_iff.mp differs
      rw [enforces.key some_] at other
      cases other

end Chmode

namespace ChanServ

variable (serv : ChanServ)

/-- The lines that `h_chanserv_mode_simple` sends. -/
def modeSimpleLines (now : Int) (s : State) (chptr : ChannelId) :
    List CString :=
  match serv.openReg now s.chans chptr with
  | none => []
  | some (target, _) =>
      let ch := s.chans.channel.get chptr
      let mode := Chmode.enforced (serv.settings target).emode ch.mode
      if mode.mode = 0#32 then []
      else [State.modeLine (s.modeSource serv.self) ch.name mode]

/-- The state after `h_chanserv_mode_simple`. -/
def enforcedState (now : Int) (s : State) (chptr : ChannelId) : State :=
  s.onChans (ChanAct.execAll now (serv.hChanservModeSimple now s.chans chptr))

section Callback

variable {serv} {env : Env} {uplinkName : CString} {now : Int} {s : State}
  {chptr : ChannelId} {ch : Channel} {target : ChanRegId} {reg : ChanReg}

theorem enforcedState_chans
    (opened : serv.openReg now s.chans chptr = some (target, reg)) :
    (serv.enforcedState now s chptr).chans =
      onMode chptr (Chmode.enforce (serv.settings target).emode) s.chans := by
  unfold enforcedState hChanservModeSimple
  rw [opened]
  rfl

/-- The modes are enforced here, the line that is sent does the same elsewhere,
and the next call sends nothing. -/
theorem modeSimple_enforces (splits : SplitsWords env.stringToArray)
    (there : s.chans.channel.cell chptr = some ch)
    (opened : serv.openReg now s.chans chptr = some (target, reg))
    (agrees : ch.mode.Agrees)
    (registered : (serv.settings target).emode.Registered)
    (addressed : State.Addressed s serv.self chptr) :
    Chmode.Enforces (serv.settings target).emode ch.mode
        ((serv.enforcedState now s chptr).chans.channel.get chptr).mode ∧
      SameState chptr (serv.enforcedState now s chptr).chans
        ((serv.modeSimpleLines now s chptr).foldl
          (State.replayLine env uplinkName s chptr) s.chans) ∧
      ∀ later, serv.modeSimpleLines later (serv.enforcedState now s chptr)
        chptr = [] := by
  have got : s.chans.channel.get chptr = ch := by
    simp [Heap.get, there]
  have after : (serv.enforcedState now s chptr).chans.channel.cell chptr =
      some { ch with
        mode := .enforce (serv.settings target).emode ch.mode } := by
    rw [enforcedState_chans opened]
    simp [onMode, Chans.modifyChannel, there]
  have gotAfter : (serv.enforcedState now s chptr).chans.channel.get chptr =
      { ch with mode := .enforce (serv.settings target).emode ch.mode } := by
    simp [Heap.get, after]
  refine ⟨?_, ?_, fun later => ?_⟩
  · rw [gotAfter]
    exact Chmode.enforces_enforce registered ch.mode
  · have heard := Chmode.hear_enforced registered agrees
    rw [enforcedState_chans opened]
    unfold modeSimpleLines
    rw [opened, got]
    dsimp only
    split
    · rename_i none_
      have quiet : (serv.settings target).emode.enforce ch.mode = ch.mode := by
        rw [← heard]
        exact Chmode.hear_of_zero (registered.sendable agrees) none_ ch.mode
      have same : SameState chptr
          (onMode chptr (Chmode.enforce (serv.settings target).emode) s.chans)
          (onMode chptr (fun mode => mode) s.chans) :=
        (State.sameState_onMode_iff there).mpr quiet
      rwa [onMode_self] at same
    · rw [List.foldl_cons, List.foldl_nil, ← got,
        State.replayLine_modeLine splits addressed (registered.tellable _), got]
      exact (State.sameState_onMode_iff there).mpr heard.symm
  · unfold modeSimpleLines
    cases again : serv.openReg later (serv.enforcedState now s chptr).chans
        chptr with
    | none => rfl
    | some found =>
        obtain ⟨other, _⟩ := found
        have same : other = target := by
          have first := serv.openReg_target there opened
          have second := serv.openReg_target after again
          exact Option.some.inj (second.symm.trans first)
        subst same
        dsimp only
        rw [gotAfter]
        exact if_pos (Chmode.enforced_enforce registered ch.mode)

end Callback

/-- The topic is locked for `#a`, and it has a limit and a key. -/
def lockedChannel : ChanServ where
  regs := { Regs.empty with
    chan := Heap.empty.alloc { name := "#a".toList }
    chanTable := [0] }
  settings := fun _ => ⟨5, [], {}, Chmode.keyed⟩
  self := 0

def limited : Chmode :=
  ⟨(Word.set 0#32 modeInviteonly).set modeLimit, [], 7⟩

/-- Another limit and no key: the limit, the key and the topic lock are told. -/
theorem modeSimple_enforces_lockedChannel :
    ∃ s, run (State.step .quiet) (State.start [State.chanserv] 300) (linkUp
        [⟨":0AB UID one 1 5 +i u h 0 0ABAAAAAA :g".toList, false⟩,
          ⟨":0AB SJOIN 100 #a +il 7 :0ABAAAAAA".toList, false⟩]) = .ok s ∧
      lockedChannel.modeSimpleLines 9 s 0 =
        [":1SVAAAAAA MODE #a +tlk 5 key".toList] ∧
      SameState 0 (lockedChannel.enforcedState 9 s 0).chans
        ((lockedChannel.modeSimpleLines 9 s 0).foldl
          (State.replayLine .quiet "one".toList s 0) s.chans) := by
  have observed : (run (State.step .quiet) (State.start [State.chanserv] 300)
      (linkUp
        [⟨":0AB UID one 1 5 +i u h 0 0ABAAAAAA :g".toList, false⟩,
          ⟨":0AB SJOIN 100 #a +il 7 :0ABAAAAAA".toList, false⟩]
        )).toOption.map (fun s =>
      ((s.modeSource 0, lockedChannel.modeSimpleLines 9 s 0),
        (lockedChannel.openReg 9 s.chans 0).map Prod.fst,
        (s.chans.channel.cell 0).map fun ch => (ch.name, ch.mode))) =
      some (("1SVAAAAAA".toList, [":1SVAAAAAA MODE #a +tlk 5 key".toList]),
        some 0, some ("#a".toList, limited)) := by
    decide +kernel
  obtain ⟨s, reached, seen⟩ := Except.exists_of_observed observed
  simp only [Prod.mk.injEq, Option.map_eq_some_iff] at seen
  obtain ⟨⟨source, lines⟩, ⟨⟨target, reg⟩, opened, rfl⟩, ch, there, name,
    mode⟩ := seen
  have got : s.chans.channel.get 0 = ch := by
    simp [Heap.get, there]
  have agrees : ch.mode.Agrees := by
    rw [mode]
    exact ⟨by decide, by decide⟩
  have read : parseSimpleMode {} ["+tlk".toList, "5".toList, "key".toList]
      true = some (Chmode.keyed, []) := by
    decide
  have registered : Chmode.keyed.Registered :=
    Chmode.registered_of_read read (Or.inl rfl) ⟨by decide, by decide⟩
  have addressed : State.Addressed s 0 0 := by
    refine ⟨?_, ?_, ?_⟩
    · rw [source]
      exact ⟨⟨by decide, by decide, by decide⟩, by decide, by decide⟩
    · rw [got, name]
      exact ⟨⟨by decide, by decide, by decide⟩, by decide, by decide⟩
    · rw [got, name, source]
      decide
  exact ⟨s, reached, lines, (modeSimple_enforces splitParams_splitsWords there
    opened agrees registered addressed).2.1⟩

end ChanServ

end RatboxServices
