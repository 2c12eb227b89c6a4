import RatboxServices.Net.SentModes
import RatboxServices.Net.JoinAgree

namespace RatboxServices

open CString

/-! A chmode written by `chmode_to_string` and read by `parse_simple_mode`, and
a mode string read, written and read again. -/

theorem toNat_ofNat_seven (c : Char) :
    (Char.ofNat (c.toNat % 128)).toNat = c.toNat % 128 := by
  have small : (c.toNat % 128).isValidChar := Or.inl (by omega)
  rw [Char.ofNat, dif_pos small]
  rfl

theorem validKey_fixed {data fixed : CString}
    (valid : validKey data = some fixed) : validKey fixed = some fixed := by
  unfold validKey at valid
  dsimp only at valid
  split at valid
  · cases valid
  · rename_i clean
    cases valid
    have short : strlcpy (keyLen + 1) ((strlcpy (keyLen + 1) data).map fun c =>
        Char.ofNat (c.toNat % 128)) =
          (strlcpy (keyLen + 1) data).map fun c =>
            Char.ofNat (c.toNat % 128) := by
      refine List.take_of_length_le ?_
      rw [List.length_map, strlcpy]
      exact (List.length_take_le _ _)
    have seven : ((strlcpy (keyLen + 1) data).map fun c =>
        Char.ofNat (c.toNat % 128)).map (fun c =>
          Char.ofNat (c.toNat % 128)) =
            (strlcpy (keyLen + 1) data).map fun c =>
              Char.ofNat (c.toNat % 128) := by
      rw [List.map_map]
      refine List.map_congr_left fun c _ => ?_
      simp only [Function.comp_apply, toNat_ofNat_seven, Nat.mod_mod]
    unfold validKey
    dsimp only
    rw [short, seven, if_neg clean]

theorem validKey_nil : validKey [] = some [] := by
  decide

theorem noSpace_of_validKey {key : CString}
    (valid : validKey key = some key) : ' ' ∉ key := by
  by_cases given : key = []
  · simp [given]
  · exact (State.isWord_of_validKey given (Option.isSome_of_eq_some valid)
      (State.length_of_validKey valid)).noSpace

namespace Chmode

variable {mode : Chmode} {given : Option CString}

theorem chmodeToString_eq_intercalate (mode : Chmode) :
    mode.chmodeToString = [' '].intercalate mode.sentWords := by
  unfold chmodeToString sentWords sentLetters sentParams
  by_cases limit : mode.limit = 0
  · by_cases key : mode.key = []
    · simp [limit, key]
    · simp [limit, key]
  · by_cases key : mode.key = []
    · simp [limit, key]
    · simp [limit, key]

theorem noSpace_sentLetters (mode : Chmode) : ' ' ∉ mode.sentLetters := by
  have table : ∀ entry ∈ chmodeTable, entry.2 ≠ ' ' := by decide
  unfold sentLetters
  simp only [List.cons_append, List.mem_cons, List.mem_append, List.mem_map,
    not_or]
  refine ⟨by decide, ?_, ?_, ?_⟩
  · rintro ⟨entry, listed, same⟩
    exact table entry (mode.entries_known entry listed) same
  · split <;> decide
  · split <;> decide

theorem noSpace_sentWords (valid : ' ' ∉ mode.key) :
    ∀ word ∈ mode.sentWords, ' ' ∉ word := by
  intro word listed
  obtain rfl | listed := List.mem_cons.mp listed
  · exact mode.noSpace_sentLetters
  · obtain listed | listed := List.mem_append.mp listed
    · split at listed
      · rw [List.mem_singleton.mp listed]
        exact (isWord_formatInt _).noSpace
      · cases listed
    · split at listed
      · rw [List.mem_singleton.mp listed]
        exact valid
      · cases listed

def reread (mode : Chmode) : Option (Chmode × List CString) :=
  parseSimpleMode {} (mode.chmodeToString.splitOn ' ') true

theorem reread_eq (low : -2147483648 ≤ mode.limit)
    (high : mode.limit < 2147483648) (noSpace : ' ' ∉ mode.key) :
    mode.reread = mode.readBack.map fun read => (read, []) := by
  have split : mode.chmodeToString.splitOn ' ' = mode.sentWords := by
    rw [chmodeToString_eq_intercalate]
    exact List.splitOn_intercalate ' ' (noSpace_sentWords noSpace)
      (List.cons_ne_nil _ _)
  have read := parseSimpleMode_sent low high []
  rw [List.append_nil] at read
  rw [reread, split, read]

/-- The chmode that is read back, with all the parameters consumed, is the one
that was written. -/
def RoundTrips (mode : Chmode) : Prop :=
  mode.reread = some (mode, [])

instance (mode : Chmode) : Decidable mode.RoundTrips :=
  inferInstanceAs (Decidable (mode.reread = some (mode, [])))

theorem roundTrips_iff (low : -2147483648 ≤ mode.limit)
    (high : mode.limit < 2147483648) (valid : validKey mode.key = some mode.key)
    :
    mode.RoundTrips ↔ mode.Sendable := by
  have read : mode.readBack = some ⟨mode.told, mode.key, mode.limit⟩ := by
    unfold readBack
    by_cases given : mode.key = []
    · simp [given]
    · simp [given, valid]
  rw [RoundTrips, reread_eq low high (noSpace_of_validKey valid), read,
    ← told_eq_iff]
  constructor
  · intro same
    have first : (⟨mode.told, mode.key, mode.limit⟩ : Chmode) = mode :=
      congrArg Prod.fst (Option.some.inj same)
    exact congrArg Chmode.mode first
  · intro same
    rw [same]
    rfl

/-- The bits are of the table, a limit and a key have theirs, and the key is
one that `valid_key` leaves as it is. -/
structure Encodable (mode : Chmode) : Prop where
  known : ∀ bit, mode.mode.has bit = true →
    bit ∈ chmodeTable.map Prod.fst ∨ bit = modeLimit ∨ bit = modeKey
  limit : mode.mode.has modeLimit = true ↔ 0 < mode.limit
  key : mode.mode.has modeKey = true ↔ mode.key ≠ []
  short : mode.key.length ≤ keyLen
  valid : validKey mode.key = some mode.key
  low : -2147483648 ≤ mode.limit
  high : mode.limit < 2147483648

/-- A negative limit without its bit is written, and comes back with it. -/
theorem Encodable.roundTrips_iff (encodable : mode.Encodable) :
    mode.RoundTrips ↔ 0 ≤ mode.limit := by
  rw [Chmode.roundTrips_iff encodable.low encodable.high encodable.valid]
  constructor
  · intro sendable
    by_contra negative
    have bit := sendable.limit.mpr (by omega)
    have positive := encodable.limit.mp bit
    omega
  · intro nonneg
    refine ⟨encodable.known, ?_, encodable.key⟩
    rw [encodable.limit]
    omega

def limitGiven : List Char → Bool → List CString → Option CString →
    Option CString
  | [], _, _, given => given
  | '+' :: rest, _, args, given => limitGiven rest true args given
  | '-' :: rest, _, args, given => limitGiven rest false args given
  | 'k' :: rest, dir, args, given => limitGiven rest dir args.tail given
  | 'l' :: rest, dir, args, _ =>
      if dir then limitGiven rest dir args.tail (some (args.headD []))
      else limitGiven rest dir args none
  | _ :: rest, dir, args, given => limitGiven rest dir args given

def limitInForce : List CString → Option CString
  | [] => none
  | modes :: args => limitGiven modes true args none

structure Told (mode : Chmode) (given : Option CString) : Prop where
  known : ∀ bit, mode.mode.has bit = true →
    bit ∈ chmodeTable.map Prod.fst ∨ bit = modeLimit ∨ bit = modeKey
  limit : mode.mode.has modeLimit = true ↔ given.isSome = true
  value : mode.limit = (given.map atoi).getD 0
  key : mode.mode.has modeKey = true ↔ mode.key ≠ []
  valid : validKey mode.key = some mode.key

theorem told_empty : Told {} none := by
  refine ⟨?_, ?_, rfl, ?_, validKey_nil⟩
  · intro bit set
    rw [Word.has_zero] at set
    cases set
  · decide
  · decide

theorem known_put {dir : Bool} {bit : Nat} (small : bit < 32)
    (listed : bit ∈ chmodeTable.map Prod.fst ∨ bit = modeLimit ∨ bit = modeKey)
    (known : ∀ other, mode.mode.has other = true →
      other ∈ chmodeTable.map Prod.fst ∨ other = modeLimit ∨ other = modeKey) :
    ∀ other, (mode.put dir bit).mode.has other = true →
      other ∈ chmodeTable.map Prod.fst ∨ other = modeLimit ∨
        other = modeKey := by
  intro other set
  rw [has_put _ _ _ _ small] at set
  split at set
  · rename_i same
    exact same ▸ listed
  · exact known other set

theorem Told.put (told : Told mode given) (dir : Bool) {bit : Nat}
    (listed : bit ∈ chmodeTable.map Prod.fst) :
    Told (mode.put dir bit) given := by
  have apart : ∀ bit ∈ chmodeTable.map Prod.fst,
      bit < 32 ∧ bit ≠ modeLimit ∧ bit ≠ modeKey := by
    decide
  obtain ⟨small, noLimit, noKey⟩ := apart bit listed
  refine ⟨known_put small (Or.inl listed) told.known, ?_, told.value, ?_,
    told.valid⟩
  · rw [has_put_of_ne mode dir noLimit]
    exact told.limit
  · rw [has_put_of_ne mode dir noKey]
    exact told.key

theorem Told.setKey (told : Told mode given) {data fixed : CString}
    (some_ : data ≠ []) (valid : validKey data = some fixed) :
    Told { mode.put true modeKey with key := fixed } given := by
  refine ⟨known_put (by decide) (Or.inr (Or.inr rfl)) told.known, ?_,
    told.value, ?_, validKey_fixed valid⟩
  · rw [has_put_of_ne _ _ (by decide)]
    exact told.limit
  · rw [has_put _ _ _ _ (by decide)]
    simp [validKey_ne_nil some_ valid]

theorem Told.clearKey (told : Told mode given) :
    Told { mode.put false modeKey with key := [] } given := by
  refine ⟨known_put (by decide) (Or.inr (Or.inr rfl)) told.known, ?_,
    told.value, ?_, validKey_nil⟩
  · rw [has_put_of_ne _ _ (by decide)]
    exact told.limit
  · rw [has_put _ _ _ _ (by decide)]
    simp

theorem Told.setLimit (told : Told mode given) (param : CString) :
    Told { mode.put true modeLimit with limit := atoi param } (some param) := by
  refine ⟨known_put (by decide) (Or.inr (Or.inl rfl)) told.known, ?_, rfl, ?_,
    told.valid⟩
  · rw [has_put _ _ _ _ (by decide)]
    simp
  · rw [has_put_of_ne _ _ (by decide)]
    exact told.key

theorem Told.clearLimit (told : Told mode given) :
    Told { mode.put false modeLimit with limit := 0 } none := by
  refine ⟨known_put (by decide) (Or.inr (Or.inl rfl)) told.known, ?_, rfl, ?_,
    told.valid⟩
  · rw [has_put _ _ _ _ (by decide)]
    simp
  · rw [has_put_of_ne _ _ (by decide)]
    exact told.key

theorem simpleModeBit_listed {p : Char} {bit : Nat}
    (simple : simpleModeBit p = some bit) :
    bit ∈ chmodeTable.map Prod.fst := by
  unfold simpleModeBit at simple
  split at simple
  all_goals first
    | cases simple; decide
    | cases simple

theorem parseSimpleModeLoop_told {allowSslonly : Bool} (letters : List Char)
    {dir : Bool} {mode after : Chmode} {args rest : List CString}
    (told : Told mode given)
    (read : parseSimpleModeLoop allowSslonly letters dir mode args =
      some (after, rest)) : Told after (limitGiven letters dir args given) := by
  induction letters generalizing dir mode args given with
  | nil =>
      cases read
      exact told
  | cons p letters ih =>
      unfold parseSimpleModeLoop at read
      split at read
      case h_1 impossible => cases impossible
      case h_2 same =>
        cases same
        exact ih told read
      case h_3 same =>
        cases same
        exact ih told read
      case h_4 same =>
        cases same
        split at read
        · exact ih (told.put _ (by decide)) read
        · cases read
      case h_5 same =>
        cases same
        split at read
        · cases read
        · rename_i param
          split at read
          · split at read
            · cases read
            · rename_i fixed valid
              exact ih (told.setKey (FullMode.headD_ne_nil param) valid) read
          · exact ih told.clearKey read
      case h_6 same =>
        cases same
        split at read
        · rename_i up
          subst up
          split at read
          · cases read
          · exact ih (told.setLimit _) read
        · rename_i down
          rw [Bool.not_eq_true] at down
          subst down
          exact ih told.clearLimit read
      case h_7 noPlus noMinus noSsl noKey noLimit same =>
        cases same
        split at read
        · rename_i bit simple
          have walked := ih (told.put _ (simpleModeBit_listed simple)) read
          simpa [limitGiven] using walked
        · cases read

theorem parseSimpleMode_told {allowSslonly : Bool} {parv rest : List CString}
    (read : parseSimpleMode {} parv allowSslonly = some (mode, rest)) :
    Told mode (limitInForce parv) := by
  cases parv with
  | nil => cases read
  | cons modes args => exact parseSimpleModeLoop_told modes told_empty read

/-- A chmode that was read comes back exactly if its limit, where one is in
force, was not read as 0. -/
theorem Told.roundTrips_iff (told : Told mode given) :
    mode.RoundTrips ↔ ∀ param, given = some param → atoi param ≠ 0 := by
  have bounds : -2147483648 ≤ mode.limit ∧ mode.limit < 2147483648 := by
    rw [told.value]
    cases given with
    | none => decide
    | some param => exact atoi_bounds param
  rw [Chmode.roundTrips_iff bounds.1 bounds.2 told.valid]
  constructor
  · rintro sendable param rfl
    have nonzero := sendable.limit.mp (told.limit.mpr rfl)
    rwa [told.value] at nonzero
  · intro positive
    refine ⟨told.known, ?_, told.key⟩
    rw [told.limit, told.value]
    cases given with
    | none => simp
    | some param => simpa using positive param rfl

/-- Chmodes written and read, and vectors read, written and read again. -/
theorem reread_iff (allowSslonly : Bool) (mode : Chmode) :
    (mode.Encodable → (mode.RoundTrips ↔ 0 ≤ mode.limit)) ∧
    ∀ parv rest, parseSimpleMode {} parv allowSslonly = some (mode, rest) →
      (mode.key ≠ [] → validKey mode.key = some mode.key) ∧
      (mode.RoundTrips ↔
        ∀ param, limitInForce parv = some param → atoi param ≠ 0) := by
  refine ⟨fun encodable => encodable.roundTrips_iff, ?_⟩
  intro parv rest read
  have told := parseSimpleMode_told read
  exact ⟨fun _ => told.valid, told.roundTrips_iff⟩

def keyed : Chmode :=
  ⟨((Word.set 0#32 modeTopic).set modeLimit).set modeKey, "key".toList, 5⟩

theorem reread_iff_keyed :
    keyed.RoundTrips ∧ (keyed.key ≠ [] → validKey keyed.key = some keyed.key) ∧
      (keyed.RoundTrips ↔ ∀ param,
        limitInForce ["+t-s+lk".toList, "5".toList, "key".toList] =
          some param → atoi param ≠ 0) := by
  have sendable : keyed.Sendable := (told_eq_iff keyed).mp (by decide)
  have encodable : keyed.Encodable :=
    ⟨sendable.known, by decide, by decide, by decide, by decide, by decide,
      by decide⟩
  exact ⟨((reread_iff true keyed).1 encodable).mpr (by decide),
    (reread_iff true keyed).2 ["+t-s+lk".toList, "5".toList, "key".toList] []
      (by decide)⟩

/-- A limit of 0 is accepted, and lost. -/
theorem limit_zero_lost : ¬∀ (parv rest : List CString) (mode : Chmode),
    parseSimpleMode {} parv true = some (mode, rest) → mode.RoundTrips := by
  intro all
  have kept := all ["+l".toList, "0".toList] [] ⟨Word.set 0#32 modeLimit, [], 0⟩
    (by decide)
  exact absurd kept (by decide)

end Chmode

end RatboxServices
