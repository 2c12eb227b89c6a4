import Mathlib.Data.List.GetD
import RatboxServices.Irc.CString
import RatboxServices.Lib.Odometer

namespace RatboxServices

open CString

/-! The UIDs that `generate_uid` hands out. -/

namespace Uid

/-- The static variables of `generate_uid`. -/
structure UidState where
  doneInit : Bool := false
  currentUid : CString := []

/-- `current_uid[i]`. -/
def charAt (currentUid : CString) (i : Nat) : Char :=
  currentUid.getD i '\x00'

/-- `current_uid[i]++`. -/
def increment (currentUid : CString) (i : Nat) : CString :=
  currentUid.set i (Char.ofNat ((charAt currentUid i).toNat + 1))

/-- The loop of `generate_uid` from `i = left + 3` down to 4, and what follows
it where `i` is 3. -/
def advanceUid (currentUid : CString) : Nat → CString
  | 0 =>
      -- `s_assert(0)` only reports that the letter starts again.
      if charAt currentUid 3 = 'Z' then currentUid.set 3 'A'
      else increment currentUid 3
  | left + 1 =>
      let i := left + 4
      if charAt currentUid i = 'Z' then currentUid.set i '0'
      else if charAt currentUid i ≠ '9' then increment currentUid i
      else advanceUid (currentUid.set i 'A') left

/-- `generate_uid`: the static variables it leaves and the text it returns. -/
def generateUid (sid : CString) (s : UidState) : UidState × CString :=
  if s.doneInit then
    let currentUid := advanceUid s.currentUid 5
    ({ s with currentUid := currentUid }, currentUid)
  else
    let currentUid := sid.take 3 ++ List.replicate 6 'A'
    ({ doneInit := true, currentUid := currentUid }, currentUid)

def afterCalls (sid : CString) : Nat → UidState
  | 0 => {}
  | calls + 1 => (generateUid sid (afterCalls sid calls)).1

def uidOf (sid : CString) (calls : Nat) : CString :=
  (generateUid sid (afterCalls sid calls)).2

def symbol (digit : Nat) : Char :=
  if digit < 26 then Char.ofNat (65 + digit) else Char.ofNat (22 + digit)

def ofSymbol (c : Char) : Nat :=
  if 'A' ≤ c ∧ c ≤ 'Z' then c.toNat - 65 else c.toNat - 22

def IsUpper (c : Char) : Prop := 'A' ≤ c ∧ c ≤ 'Z'

instance (c : Char) : Decidable (IsUpper c) :=
  inferInstanceAs (Decidable (_ ∧ _))

theorem ofSymbol_symbol : ∀ digit < 36, ofSymbol (symbol digit) = digit := by
  decide

theorem isUpper_symbol : ∀ digit < 26, IsUpper (symbol digit) := by
  decide

theorem symbol_class : ∀ digit < 36,
    IsUpper (symbol digit) ∨ isDigit (symbol digit) = true := by
  decide

theorem symbol_eq_Z : ∀ digit < 36, symbol digit = 'Z' ↔ digit = 25 := by
  decide

theorem symbol_eq_nine : ∀ digit < 36, symbol digit = '9' ↔ digit = 35 := by
  decide

theorem next_symbol : ∀ digit < 35, digit ≠ 25 →
    Char.ofNat ((symbol digit).toNat + 1) = symbol (digit + 1) := by
  decide

section Text

variable (front tail : CString) (c new : Char)

theorem charAt_length : charAt (front ++ c :: tail) front.length = c := by
  simp [charAt]

theorem set_length :
    (front ++ c :: tail).set front.length new = front ++ new :: tail := by
  simp

theorem increment_length :
    increment (front ++ c :: tail) front.length =
      front ++ Char.ofNat (c.toNat + 1) :: tail := by
  rw [increment, charAt_length, set_length]

end Text

def spell (digits : List Nat) : CString :=
  (digits.map symbol).reverse

theorem spell_cons (digit : Nat) (digits : List Nat) :
    spell (digit :: digits) = spell digits ++ [symbol digit] := by
  simp [spell]

theorem length_spell (digits : List Nat) :
    (spell digits).length = digits.length := by
  simp [spell]

def bases (left : Nat) : List Nat :=
  List.replicate left 36 ++ [26]

theorem bases_pos (left : Nat) : ∀ base ∈ bases left, 0 < base := by
  intro base listed
  simp only [bases, List.mem_append, List.mem_replicate,
    List.mem_singleton] at listed
  omega

theorem bases_le (left : Nat) : ∀ base ∈ bases left, base ≤ 36 := by
  intro base listed
  simp only [bases, List.mem_append, List.mem_replicate,
    List.mem_singleton] at listed
  omega

theorem bases_zero : bases 0 = [26] := rfl

theorem bases_succ (left : Nat) : bases (left + 1) = 36 :: bases left := rfl

section Step

variable {front : CString} {left : Nat} {digits : List Nat}

theorem advanceUid_spell (three : front.length = 3)
    (proper : Odometer.Proper (bases left) digits) (tail : CString) :
    advanceUid (front ++ spell digits ++ tail) left =
      front ++ spell (Odometer.advance (bases left) digits) ++ tail := by
  induction left generalizing digits tail with
  | zero =>
      rw [bases_zero] at proper ⊢
      cases proper with
      | @cons _ digit _ _ below rest =>
          cases rest
          have text : front ++ spell [digit] ++ tail =
              front ++ symbol digit :: tail := by
            simp [spell]
          have final := symbol_eq_Z digit (by omega)
          rw [text, advanceUid, ← three, charAt_length, set_length,
            increment_length]
          split
          · rename_i isZ
            cases final.mp isZ
            simp [Odometer.advance, spell, symbol]
          · rename_i notZ
            have inside := mt final.mpr notZ
            rw [next_symbol digit (by omega) inside, Odometer.advance,
              if_pos (by omega)]
            simp [spell]
  | succ left ih =>
      rw [bases_succ] at proper ⊢
      cases proper with
      | @cons _ digit _ digits below rest =>
          have place : (front ++ spell digits).length = left + 4 := by
            have long := rest.length_eq
            simp only [bases, List.length_append, List.length_replicate,
              List.length_singleton] at long
            rw [List.length_append, length_spell]
            omega
          have text : front ++ spell (digit :: digits) ++ tail =
              front ++ spell digits ++ symbol digit :: tail := by
            simp [spell_cons]
          have atZ := symbol_eq_Z digit below
          have atNine := symbol_eq_nine digit below
          rw [text, advanceUid, ← place, charAt_length, set_length,
            increment_length, set_length]
          split
          · rename_i isZ
            cases atZ.mp isZ
            simp [Odometer.advance, spell_cons, symbol]
          · rename_i notZ
            have letter := mt atZ.mpr notZ
            split
            · rename_i notNine
              have inside := mt atNine.mpr notNine
              rw [next_symbol digit (by omega) letter, Odometer.advance,
                if_pos (by omega)]
              simp [spell_cons]
            · rename_i isNine
              have last := atNine.mp (not_not.mp isNine)
              rw [ih rest, Odometer.advance, if_neg (by omega)]
              simp [spell_cons, symbol]

end Step

def IsTail (left : Nat) (text : CString) : Prop :=
  ∃ letter rest, text = letter :: rest ∧ IsUpper letter ∧
    rest.length = left ∧ ∀ c ∈ rest, IsUpper c ∨ isDigit c = true

section Spell

variable {left : Nat} {digits others : List Nat}

theorem isTail_spell (proper : Odometer.Proper (bases left) digits) :
    IsTail left (spell digits) := by
  induction left generalizing digits with
  | zero =>
      rw [bases_zero] at proper
      cases proper with
      | @cons _ digit _ _ below rest =>
          cases rest
          refine ⟨symbol digit, [], rfl, isUpper_symbol digit below, rfl, ?_⟩
          intro c listed
          cases listed
  | succ left ih =>
      rw [bases_succ] at proper
      cases proper with
      | @cons _ digit _ digits below rest =>
          obtain ⟨letter, text, spelled, upper, long, all⟩ := ih rest
          refine ⟨letter, text ++ [symbol digit], ?_, upper, ?_, ?_⟩
          · rw [spell_cons, spelled, List.cons_append]
          · rw [List.length_append, long, List.length_singleton]
          · intro c listed
            obtain before | here := List.mem_append.mp listed
            · exact all c before
            · rw [List.mem_singleton.mp here]
              exact symbol_class digit below

theorem unspell (proper : Odometer.Proper (bases left) digits) :
    (spell digits).reverse.map ofSymbol = digits := by
  have below := proper.lt_of_le (bases_le left)
  rw [spell, List.reverse_reverse, List.map_map]
  calc digits.map (ofSymbol ∘ symbol)
      = digits.map id := List.map_congr_left fun digit listed =>
        ofSymbol_symbol digit (below digit listed)
    _ = digits := List.map_id _

theorem spell_injective (proper : Odometer.Proper (bases left) digits)
    (also : Odometer.Proper (bases left) others)
    (same : spell digits = spell others) : digits = others := by
  rw [← unspell proper, same, unspell also]

end Spell

section Calls

variable {sid : CString}

theorem length_of_validSid (valid : validSid sid = true) : sid.length = 3 := by
  unfold validSid at valid
  split at valid
  · rfl
  · cases valid

theorem afterCalls_succ (valid : validSid sid = true) (calls : Nat) :
    afterCalls sid (calls + 1) =
      { doneInit := true
        currentUid := sid ++ spell (Odometer.reading (bases 5) calls) } := by
  have three := length_of_validSid valid
  induction calls with
  | zero =>
      have whole : sid.take 3 = sid := List.take_of_length_le (by omega)
      simp only [afterCalls, generateUid, whole]
      rfl
  | succ calls ih =>
      have proper := Odometer.proper_reading (bases_pos 5) calls
      have moved := advanceUid_spell three proper []
      rw [List.append_nil, List.append_nil] at moved
      rw [afterCalls, ih, Odometer.reading_succ, ← moved]
      rfl

theorem uidOf_eq (valid : validSid sid = true) (calls : Nat) :
    uidOf sid calls = sid ++ spell (Odometer.reading (bases 5) calls) := by
  have returned :
      uidOf sid calls = (afterCalls sid (calls + 1)).currentUid := by
    rw [uidOf, afterCalls, generateUid]
    split
    · rfl
    · rfl
  rw [returned, afterCalls_succ valid]

theorem prod_bases (left : Nat) : (bases left).prod = 26 * 36 ^ left := by
  rw [bases, List.prod_append, List.prod_replicate, List.prod_singleton,
    Nat.mul_comm]

/-- Until the letter starts again no UID comes twice, and each is the SID with
a letter and five letters or digits behind it. -/
theorem uids_distinct (sid : CString) (valid : validSid sid = true) :
    (∀ m n, m < 26 * 36 ^ 5 → n < 26 * 36 ^ 5 →
      uidOf sid m = uidOf sid n → m = n) ∧
    ∀ n, n < 26 * 36 ^ 5 →
      ∃ text, uidOf sid n = sid ++ text ∧ IsTail 5 text := by
  constructor
  · intro m n first second same
    rw [uidOf_eq valid, uidOf_eq valid] at same
    rw [← prod_bases] at first second
    apply Odometer.reading_injective (bases_pos 5) first second
    apply spell_injective
    · exact Odometer.proper_reading (bases_pos 5) m
    · exact Odometer.proper_reading (bases_pos 5) n
    · exact List.append_cancel_left same
  · intro n _
    refine ⟨_, uidOf_eq valid n, ?_⟩
    exact isTail_spell (Odometer.proper_reading (bases_pos 5) n)

theorem uids_distinct_carry :
    uidOf "0AB".toList 35 = "0ABAAAAA9".toList ∧
      uidOf "0AB".toList 36 = "0ABAAAABA".toList ∧
      uidOf "0AB".toList 35 ≠ uidOf "0AB".toList 36 ∧
      ∃ text, uidOf "0AB".toList 36 = "0AB".toList ++ text ∧
        IsTail 5 text := by
  obtain ⟨distinct, shaped⟩ := uids_distinct "0AB".toList (by decide)
  refine ⟨by decide +kernel, by decide +kernel, ?_, shaped 36 (by decide)⟩
  intro same
  have equal := distinct 35 36 (by decide) (by decide) same
  omega

end Calls

end Uid

end RatboxServices
