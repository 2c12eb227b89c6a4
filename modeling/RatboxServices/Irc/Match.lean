import RatboxServices.Irc.CString
import Mathlib.Tactic.IntervalCases

namespace RatboxServices

namespace CString

/-! `match.c`. The pointers of `match` are indices into the two strings, which
read as zero from their ends on. -/

def at_ (source : CString) (i : Nat) : Char :=
  source.getD i '\x00'

def matchMaxCalls : Nat := 512

/-- The pointers of `match`. -/
structure MatchState where
  m : Nat := 0
  n : Nat := 0
  ma : Nat := 0
  na : Nat := 0
  wild : Bool := false

/-- `while (*m == '*') m++`. -/
def skipStars (mask : CString) (m : Nat) : Nat :=
  m + ((mask.drop m).takeWhile (· == '*')).length

/-- `for (m--; m > mask && *m == '?'; m--)`. -/
def skipBack (mask : CString) : Nat → Nat
  | 0 => 0
  | m + 1 =>
      if 0 < m ∧ at_ mask m = '?' then skipBack mask m else m

namespace MatchState

def star (mask : CString) (st : MatchState) : MatchState :=
  if at_ mask st.m = '*' then
    { m := skipStars mask st.m, n := st.n, ma := skipStars mask st.m,
      na := st.n, wild := true }
  else st

def retry (st : MatchState) : MatchState :=
  { st with m := st.ma, n := st.na + 1, na := st.na + 1 }

/-- One character against another; `none` where the source returns 0. -/
def compare (mask name : CString) (st : MatchState) : Option MatchState :=
  if toLower (at_ mask st.m) ≠ toLower (at_ name st.n) ∧
      at_ mask st.m ≠ '?' then
    if st.wild then some st.retry else none
  else
    some { st with
      m := if at_ mask st.m = '\x00' then st.m else st.m + 1
      n := if at_ name st.n = '\x00' then st.n else st.n + 1 }

def turn (mask name : CString) (st : MatchState) : Except Bool MatchState :=
  let st := st.star mask
  let next (st : MatchState) : Except Bool MatchState :=
    match st.compare mask name with
    | some st => .ok st
    | none => .error false
  if at_ mask st.m = '\x00' then
    if at_ name st.n = '\x00' then .error true
    else
      let m := skipBack mask st.m
      if at_ mask m = '*' ∧ 0 < m then .error true
      else if !st.wild then .error false
      else next st.retry
  else if at_ name st.n = '\x00' then
    .error (at_ mask (skipStars mask st.m) = '\x00')
  else next st

end MatchState

def matchLoop (mask name : CString) : Nat → MatchState → Bool
  | 0, _ => false
  | calls + 1, st =>
      match st.turn mask name with
      | .error result => result
      | .ok st => matchLoop mask name calls st

/-- `match`. -/
def match_ (mask name : CString) : Bool :=
  if mask.isEmpty || name.isEmpty then false
  else matchLoop mask name matchMaxCalls {}

example : match_ "*!*@host".toList "Nick!user@HOST".toList = true := by
  decide +kernel

/-- `collapse`, after a star or not. -/
def collapseFrom (star : Bool) : CString → CString
  | [] => []
  | c :: rest =>
      if c = '*' then
        if star then collapseFrom true rest else c :: collapseFrom true rest
      else c :: collapseFrom false rest

/-- `collapse`. -/
def collapse (pattern : CString) : CString :=
  collapseFrom false pattern

theorem collapseFrom_collapseFrom (star : Bool) (pattern : CString) :
    collapseFrom star (collapseFrom star pattern) =
      collapseFrom star pattern := by
  induction pattern generalizing star with
  | nil => rfl
  | cons c rest ih =>
      by_cases wild : c = '*'
      · cases star with
        | true => simp [collapseFrom, wild, ih]
        | false => simp [collapseFrom, wild, ih]
      · simp [collapseFrom, wild, ih]

theorem collapse_collapse (pattern : CString) :
    collapse (collapse pattern) = collapse pattern :=
  collapseFrom_collapseFrom false pattern

theorem collapse_ne_nil {pattern : CString} (some_ : pattern ≠ []) :
    collapse pattern ≠ [] := by
  cases pattern with
  | nil => exact absurd rfl some_
  | cons c rest =>
      unfold collapse collapseFrom
      split <;> simp

theorem toLower_toUpper (c : Char) : toLower (toUpper c) = toLower c := by
  unfold toUpper
  split
  · rename_i bounds
    have low : 97 ≤ c.toNat := bounds.1
    have high : c.toNat ≤ 126 := bounds.2
    rw [← Char.ofNat_toNat c]
    generalize c.toNat = n at low high
    interval_cases n <;> decide
  · rfl

theorem toUpper_eq_iff {c d : Char} (plain : d.toNat < 65) :
    toUpper c = d ↔ c = d := by
  unfold toUpper
  split
  · rename_i bounds
    have low : 97 ≤ c.toNat := bounds.1
    have high : c.toNat ≤ 126 := bounds.2
    have other : 65 ≤ (Char.ofNat (c.toNat - 32)).toNat := by
      generalize c.toNat = n at low high
      interval_cases n <;> decide
    constructor
    · rintro rfl
      omega
    · rintro rfl
      omega
  · rfl

section Cased

variable {left right : CString}

theorem at_upper (same : left.map toUpper = right.map toUpper) (i : Nat) :
    toUpper (at_ left i) = toUpper (at_ right i) := by
  have upper : ∀ text : CString,
      toUpper (at_ text i) = at_ (text.map toUpper) i := by
    intro text
    unfold at_
    rw [List.getD_eq_getElem?_getD, List.getD_eq_getElem?_getD,
      List.getElem?_map]
    cases text[i]? <;> rfl
  rw [upper, upper, same]

theorem at_lower (same : left.map toUpper = right.map toUpper) (i : Nat) :
    toLower (at_ left i) = toLower (at_ right i) := by
  rw [← toLower_toUpper, at_upper same, toLower_toUpper]

theorem at_eq_iff (same : left.map toUpper = right.map toUpper) {d : Char}
    (plain : d.toNat < 65) (i : Nat) : at_ left i = d ↔ at_ right i = d := by
  rw [← toUpper_eq_iff plain, at_upper same, toUpper_eq_iff plain]

theorem skipStars_cased (same : left.map toUpper = right.map toUpper)
    (m : Nat) : skipStars left m = skipStars right m := by
  have upper : ∀ text : CString, (text.takeWhile (· == '*')).length =
      ((text.map toUpper).takeWhile (· == '*')).length := by
    intro text
    have star : ((· == '*') ∘ toUpper) = (· == '*') := by
      funext c
      have iff : toUpper c = '*' ↔ c = '*' := toUpper_eq_iff (by decide)
      simp [iff]
    rw [List.takeWhile_map, List.length_map, star]
  unfold skipStars
  rw [upper, upper (right.drop m), List.map_drop, List.map_drop, same]

theorem skipBack_cased (same : left.map toUpper = right.map toUpper)
    (m : Nat) : skipBack left m = skipBack right m := by
  induction m with
  | zero => rfl
  | succ m ih => simp only [skipBack, at_eq_iff same (by decide : '?'.toNat < 65), ih]

theorem star_cased (same : left.map toUpper = right.map toUpper)
    (st : MatchState) : st.star left = st.star right := by
  simp only [MatchState.star, at_eq_iff same (by decide : '*'.toNat < 65),
    skipStars_cased same]

theorem compare_cased (same : left.map toUpper = right.map toUpper)
    (name : CString) (st : MatchState) :
    st.compare left name = st.compare right name := by
  have one := fun i => at_eq_iff same (by decide : '?'.toNat < 65) i
  have zero := fun i => at_eq_iff same (by decide : '\x00'.toNat < 65) i
  simp only [MatchState.compare, at_lower same, ne_eq, one, zero]

theorem turn_cased (same : left.map toUpper = right.map toUpper)
    (name : CString) (st : MatchState) :
    st.turn left name = st.turn right name := by
  have star := fun i => at_eq_iff same (by decide : '*'.toNat < 65) i
  have zero := fun i => at_eq_iff same (by decide : '\x00'.toNat < 65) i
  unfold MatchState.turn
  rw [star_cased same]
  generalize st.star right = st
  simp only [star, zero, compare_cased same, skipStars_cased same,
    skipBack_cased same]

theorem matchLoop_cased (same : left.map toUpper = right.map toUpper)
    (name : CString) (calls : Nat) (st : MatchState) :
    matchLoop left name calls st = matchLoop right name calls st := by
  induction calls generalizing st with
  | zero => rfl
  | succ calls ih =>
      unfold matchLoop
      rw [turn_cased same]
      cases st.turn right name with
      | error result => rfl
      | ok next => exact ih next

theorem irccmp_iff : irccmp left right = true ↔
    left.map toUpper = right.map toUpper := by
  simp [irccmp]

theorem isEmpty_cased (same : irccmp left right = true) :
    left.isEmpty = right.isEmpty := by
  have length := congrArg List.length (irccmp_iff.mp same)
  rw [List.length_map, List.length_map] at length
  cases left <;> cases right <;> simp_all

theorem match_cased (same : irccmp left right = true) (name : CString) :
    match_ left name = match_ right name := by
  unfold match_
  rw [isEmpty_cased same, matchLoop_cased (irccmp_iff.mp same)]

theorem irccmp_comm (same : irccmp left right = true) :
    irccmp right left = true :=
  irccmp_iff.mpr (irccmp_iff.mp same).symm

end Cased

theorem toLower_asciiLower (c : Char) : toLower (asciiLower c) = toLower c := by
  unfold asciiLower
  split
  · rename_i bounds
    have low : 65 ≤ c.toNat := bounds.1
    have high : c.toNat ≤ 90 := bounds.2
    rw [← Char.ofNat_toNat c]
    generalize c.toNat = n at low high
    interval_cases n <;> decide
  · rfl

theorem foldl_hashStep (text : CString) :
    text.foldl hashStep 0 = (text.map toLower).foldl
      (fun (h : UInt32) c => (h <<< 4) - (h + UInt32.ofNat c.toNat)) 0 := by
  rw [List.foldl_map]
  rfl

theorem hashName_cased {left right : CString}
    (same : strcasecmp left right = true) : hashName left = hashName right := by
  have lower : left.map toLower = right.map toLower := by
    have equal : left.map asciiLower = right.map asciiLower := by
      simpa [strcasecmp] using same
    have again := congrArg (List.map toLower) equal
    simpa [List.map_map, Function.comp_def, toLower_asciiLower] using again
  unfold hashName
  rw [foldl_hashStep, foldl_hashStep, lower]

theorem hashChannel_cased {left right : CString}
    (same : irccmp left right = true) :
    hashChannel left = hashChannel right := by
  have lower : left.map toLower = right.map toLower := by
    have again := congrArg (List.map toLower) (irccmp_iff.mp same)
    simpa [List.map_map, Function.comp_def, toLower_toUpper] using again
  unfold hashChannel
  rw [foldl_hashStep, foldl_hashStep, List.map_take, List.map_take, lower]

end CString

end RatboxServices
