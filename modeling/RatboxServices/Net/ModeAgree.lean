import RatboxServices.Net.Act
import RatboxServices.Net.ChannelCommand
import RatboxServices.Net.ModeInv

namespace RatboxServices

open CString

/-! The bits of the limit and the key beside their values: what the parsers,
the merge of an `SJOIN` and the enforcement of a registration make of them. -/

namespace Chmode

structure Agrees (mode : Chmode) : Prop where
  limit : mode.mode.has modeLimit = true ↔ 0 < mode.limit
  key : mode.mode.has modeKey = true ↔ mode.key ≠ []

theorem agrees_empty : Agrees {} := by
  refine ⟨?_, ?_⟩ <;> decide

/-- What `parse_simple_mode` makes of a mode string: a limit may have any
value once its bit is set. -/
structure Parsed (mode : Chmode) : Prop where
  limit : mode.mode.has modeLimit = false → mode.limit = 0
  key : mode.mode.has modeKey = true ↔ mode.key ≠ []

theorem has_put (mode : Chmode) (dir : Bool) (bit other : Nat)
    (bound : bit < 32) :
    (mode.put dir bit).mode.has other =
      if bit = other then dir else mode.mode.has other := by
  unfold put
  by_cases equal : bit = other
  · subst equal
    cases dir <;> simp [bound]
  · cases dir <;> simp [equal]

theorem has_put_of_ne (mode : Chmode) (dir : Bool) {bit other : Nat}
    (different : bit ≠ other) :
    (mode.put dir bit).mode.has other = mode.mode.has other := by
  unfold put
  cases dir with
  | true => simp [different]
  | false => simp [different]

theorem Parsed.put {mode : Chmode} (parsed : Parsed mode) (dir : Bool)
    {bit : Nat} (noLimit : bit ≠ modeLimit) (noKey : bit ≠ modeKey) :
    Parsed (mode.put dir bit) := by
  refine ⟨?_, ?_⟩
  · rw [has_put_of_ne mode dir noLimit]
    exact parsed.limit
  · rw [has_put_of_ne mode dir noKey]
    exact parsed.key

theorem validKey_ne_nil {data fixed : CString} (given : data ≠ [])
    (valid : validKey data = some fixed) : fixed ≠ [] := by
  unfold validKey at valid
  dsimp only at valid
  split at valid
  · cases valid
  · cases valid
    have cut : strlcpy (keyLen + 1) data ≠ [] :=
      FullMode.strlcpy_ne_nil (by decide) given
    simpa using cut

theorem parseSimpleModeLoop_parsed {allowSslonly : Bool}
    (letters : List Char) {dir : Bool} {mode after : Chmode}
    {args rest : List CString} (parsed : Parsed mode)
    (read : parseSimpleModeLoop allowSslonly letters dir mode args =
      some (after, rest)) : Parsed after := by
  induction letters generalizing dir mode args with
  | nil =>
      cases read
      exact parsed
  | cons p letters ih =>
      unfold parseSimpleModeLoop at read
      split at read
      case h_1 impossible => cases impossible
      case h_2 same =>
        cases same
        exact ih parsed read
      case h_3 same =>
        cases same
        exact ih parsed read
      case h_4 same =>
        cases same
        split at read
        · exact ih (parsed.put _ (by decide) (by decide)) read
        · cases read
      case h_5 same =>
        cases same
        split at read
        · cases read
        · rename_i given
          have some_ := FullMode.headD_ne_nil given
          split at read
          · split at read
            · cases read
            · rename_i fixed valid
              refine ih ⟨?_, ?_⟩ read
              · rw [has_put_of_ne _ _ (by decide)]
                exact parsed.limit
              · rw [has_put _ _ _ _ (by decide)]
                simp [validKey_ne_nil some_ valid]
          · refine ih ⟨?_, ?_⟩ read
            · rw [has_put_of_ne _ _ (by decide)]
              exact parsed.limit
            · rw [has_put _ _ _ _ (by decide)]
              simp
      case h_6 same =>
        cases same
        split at read
        · split at read
          · cases read
          · refine ih ⟨?_, ?_⟩ read
            · rw [has_put _ _ _ _ (by decide)]
              simp
            · rw [has_put_of_ne _ _ (by decide)]
              exact parsed.key
        · refine ih ⟨?_, ?_⟩ read
          · exact fun _ => rfl
          · rw [has_put_of_ne _ _ (by decide)]
            exact parsed.key
      case h_7 same =>
        cases same
        split at read
        · rename_i bit simple
          obtain ⟨noLimit, noKey⟩ := FullMode.simpleModeBit_ne simple
          exact ih (parsed.put _ noLimit noKey) read
        · cases read

theorem parsed_empty : Parsed {} := by
  refine ⟨?_, ?_⟩ <;> decide

theorem parseSimpleMode_parsed {parv rest : List CString}
    {allowSslonly : Bool} {mode : Chmode}
    (read : parseSimpleMode {} parv allowSslonly = some (mode, rest)) :
    Parsed mode := by
  cases parv with
  | nil => cases read
  | cons modes args =>
      exact parseSimpleModeLoop_parsed modes parsed_empty read

theorem sjoinParse_parsed {modes : CString} {parv rest : List CString}
    {mode : Chmode} (read : State.sjoinParse modes parv = some (mode, rest)) :
    Parsed mode := by
  unfold State.sjoinParse at read
  split at read
  · cases read
    exact parsed_empty
  · exact parseSimpleMode_parsed read

theorem Agrees.letter {mode after : Chmode} (agrees : Agrees mode)
    (letter : Letter mode after) : Agrees after := by
  cases letter with
  | put dir bit noLimit noKey =>
      refine ⟨?_, ?_⟩
      · rw [has_put_of_ne mode dir noLimit]
        exact agrees.limit
      · rw [has_put_of_ne mode dir noKey]
        exact agrees.key
  | setKey given =>
      refine ⟨?_, ?_⟩
      · rw [has_put_of_ne _ _ (by decide)]
        exact agrees.limit
      · rw [has_put _ _ _ _ (by decide)]
        simp [given]
  | dropKey =>
      refine ⟨?_, ?_⟩
      · rw [has_put_of_ne _ _ (by decide)]
        exact agrees.limit
      · rw [has_put _ _ _ _ (by decide)]
        simp
  | setLimit positive =>
      refine ⟨?_, ?_⟩
      · rw [has_put _ _ _ _ (by decide)]
        simp [positive]
      · rw [has_put_of_ne _ _ (by decide)]
        exact agrees.key
  | dropLimit =>
      refine ⟨?_, ?_⟩
      · rw [has_put _ _ _ _ (by decide)]
        simp
      · rw [has_put_of_ne _ _ (by decide)]
        exact agrees.key

/-- The modes of an `SJOIN` can be merged into the old ones: a limit that is
set is positive, and a message without a key finds none. -/
structure Mergeable (newmode old : Chmode) : Prop where
  limit : newmode.mode.has modeLimit = true →
    0 < newmode.limit ∨ 0 < old.limit
  key : newmode.key = [] → old.key = []

instance (newmode old : Chmode) : Decidable (Mergeable newmode old) :=
  decidable_of_iff
    ((newmode.mode.has modeLimit = true →
        0 < newmode.limit ∨ 0 < old.limit) ∧
      (newmode.key = [] → old.key = []))
    ⟨fun ⟨limit, key⟩ => ⟨limit, key⟩, fun fits => ⟨fits.limit, fits.key⟩⟩

theorem mergeMode_limit_pos (newmode old : Chmode) :
    0 < (State.mergeMode newmode old).limit ↔
      0 < old.limit ∨ 0 < newmode.limit := by
  unfold State.mergeMode
  dsimp only
  split
  · rename_i taken
    simp only [Bool.or_eq_true, decide_eq_true_eq] at taken
    omega
  · rename_i kept
    simp only [Bool.or_eq_true, decide_eq_true_eq] at kept
    omega

theorem mergeMode_key_ne_nil {newmode old : Chmode}
    (fits : newmode.key = [] → old.key = []) :
    (State.mergeMode newmode old).key ≠ [] ↔
      old.key ≠ [] ∨ newmode.key ≠ [] := by
  unfold State.mergeMode
  dsimp only
  by_cases given : newmode.key = []
  · rw [given, fits given]
    simp
  · split
    · simp [given]
    · rename_i kept
      simp only [Bool.or_eq_true, List.isEmpty_iff, not_or] at kept
      simp [kept.1]

theorem Agrees.merge {newmode old : Chmode} (agrees : Agrees old)
    (parsed : Parsed newmode) (fits : Mergeable newmode old) :
    Agrees (State.mergeMode newmode old) := by
  have bit : ∀ bit, (State.mergeMode newmode old).mode.has bit = true ↔
      old.mode.has bit = true ∨ newmode.mode.has bit = true := by
    intro bit
    rw [← Bool.or_eq_true]
    exact Eq.congr_left (Word.has_or _ _ _)
  refine ⟨?_, ?_⟩
  · rw [bit, mergeMode_limit_pos, agrees.limit]
    constructor
    · rintro (had | set)
      · exact Or.inl had
      · exact (fits.limit set).symm
    · rintro (had | given)
      · exact Or.inl had
      · refine Or.inr ?_
        by_contra unset
        have none_ := parsed.limit (by simpa using unset)
        omega
  · rw [bit, mergeMode_key_ne_nil fits.key, agrees.key, parsed.key]

structure Enforceable (emode : Chmode) : Prop extends Agrees emode where
  limit_nonneg : 0 ≤ emode.limit

theorem has_missing (emode mode : Chmode) (bit : Nat) :
    (missing emode mode).has bit =
      (emode.mode.has bit && !mode.mode.has bit) := by
  unfold missing Word.has
  simp only [BitVec.getLsbD_and, BitVec.getLsbD_not]
  by_cases bound : bit < 32
  · cases emode.mode.getLsbD bit <;> simp [bound]
  · have none_ : emode.mode.getLsbD bit = false :=
      BitVec.getLsbD_of_ge emode.mode bit (by omega)
    simp [none_]

theorem has_or_missing (emode mode : Chmode) (bit : Nat) :
    (mode.mode ||| missing emode mode).has bit =
      (mode.mode.has bit || emode.mode.has bit) := by
  rw [Word.has_or, has_missing]
  cases mode.mode.has bit <;> simp

theorem strcasecmp_ne_nil {left right : CString} (same : strcasecmp left right = true)
    (given : right ≠ []) : left ≠ [] := by
  rintro rfl
  cases right with
  | nil => exact given rfl
  | cons c rest => cases same

theorem Agrees.enforce {emode mode : Chmode} (agrees : Agrees mode)
    (fits : Enforceable emode) : Agrees (Chmode.enforce emode mode) := by
  unfold Chmode.enforce
  split
  · exact agrees
  · refine ⟨?_, ?_⟩
    · rw [has_or_missing, Bool.or_eq_true, agrees.limit, fits.limit]
      have nonneg := fits.limit_nonneg
      show _ ↔ 0 < if emode.limit ≠ 0 ∧ mode.limit ≠ emode.limit then
        emode.limit else mode.limit
      split
      · omega
      · omega
    · rw [has_or_missing, Bool.or_eq_true, agrees.key, fits.key]
      show _ ↔ (if (!emode.key.isEmpty && !strcasecmp mode.key emode.key) = true
        then strlcpy (keyLen + 1) emode.key else mode.key) ≠ []
      split
      · rename_i replaced
        have given : emode.key ≠ [] := by
          rintro empty
          rw [empty] at replaced
          cases replaced
        have cut : strlcpy (keyLen + 1) emode.key ≠ [] :=
          FullMode.strlcpy_ne_nil (by decide) given
        simp [given, cut]
      · rename_i kept
        constructor
        · rintro (had | given)
          · exact had
          · have same : strcasecmp mode.key emode.key = true := by
              by_contra differs
              simp_all
            exact strcasecmp_ne_nil same given
        · exact Or.inl

theorem Agrees.enforceLowerts {emode mode : Chmode} (agrees : Agrees mode)
    (fits : Enforceable emode) (bursting : Bool) :
    Agrees (Chmode.enforceLowerts bursting emode mode) := by
  unfold Chmode.enforceLowerts
  split
  · exact agrees
  · split
    · have lacks := has_missing emode mode
      refine ⟨?_, ?_⟩
      · rw [has_or_missing]
        show _ ↔ 0 < if (missing emode mode).has modeLimit = true then
          emode.limit else mode.limit
        rw [lacks]
        have old := agrees.limit
        have new := fits.limit
        cases asked : emode.mode.has modeLimit with
        | false => simpa using old
        | true =>
            cases had : mode.mode.has modeLimit with
            | false => simpa using new.mp asked
            | true => simpa using old.mp had
      · rw [has_or_missing]
        show _ ↔ (if (missing emode mode).has modeKey = true then
          strlcpy (keyLen + 1) emode.key else mode.key) ≠ []
        rw [lacks]
        have old := agrees.key
        have new := fits.key
        have cut : emode.key ≠ [] → strlcpy (keyLen + 1) emode.key ≠ [] :=
          fun given => FullMode.strlcpy_ne_nil (by decide) given
        cases asked : emode.mode.has modeKey with
        | false => simpa using old
        | true =>
            cases had : mode.mode.has modeKey with
            | false => simpa using cut (new.mp asked)
            | true => simpa using old.mp had
    · exact agrees.enforce fits

/-- A service may set its modes: they agree, and they have a key if the channel
has one that would stay. -/
structure Settable (mode : Option Chmode) (old : Chmode) : Prop where
  given : ∀ m, mode = some m → Agrees m ∧ (m.key = [] → old.key = [])
  none : mode = none → old.key = [] ∧ old.limit ≤ 0

theorem Settable.agrees {mode : Option Chmode} {old : Chmode}
    (fits : Settable mode old) : Agrees (Chans.serviceMode old mode) := by
  cases mode with
  | none =>
      obtain ⟨noKey, noLimit⟩ := fits.none rfl
      refine ⟨?_, ?_⟩
      · have unset : (Word.ofBits [modeNoexternal, modeTopic]).has
            modeLimit = false := by decide
        show Word.has (Word.ofBits [modeNoexternal, modeTopic]) modeLimit =
          true ↔ 0 < old.limit
        rw [unset]
        simp [noLimit]
      · have unset : (Word.ofBits [modeNoexternal, modeTopic]).has
            modeKey = false := by decide
        show Word.has (Word.ofBits [modeNoexternal, modeTopic]) modeKey =
          true ↔ old.key ≠ []
        rw [unset]
        simp [noKey]
  | some m =>
      obtain ⟨agrees, key⟩ := fits.given m rfl
      refine ⟨agrees.limit, ?_⟩
      show m.mode.has modeKey = true ↔ (if m.key.isEmpty = true then old.key
        else strlcpy (keyLen + 1) m.key) ≠ []
      rw [agrees.key]
      by_cases given : m.key = []
      · simp [given, key given]
      · have cut : strlcpy (keyLen + 1) m.key ≠ [] :=
          FullMode.strlcpy_ne_nil (by decide) given
        simp [given, cut]

end Chmode

end RatboxServices
