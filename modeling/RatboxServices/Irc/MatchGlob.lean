import RatboxServices.Irc.Match
import RatboxServices.Lib.Glob
import Mathlib.Data.List.GetD

namespace RatboxServices

namespace CString

/-! What `match` decides. Its pointers stand for a goal: the part of the mask
from the last star on, and the part of the name that is left to it. -/

def Fits (m c : Char) : Prop :=
  m = '?' ∨ toLower m = toLower c

/-- The name matches the mask: a star any text, a question mark any character,
another letter itself in either case. -/
def GlobMatches : CString → CString → Prop :=
  Glob (· = '*') Fits

theorem globMatches_cons_iff {m : Char} {mask name : CString}
    (letter : m ≠ '*') :
    GlobMatches (m :: mask) name ↔
      ∃ c rest, name = c :: rest ∧ Fits m c ∧ GlobMatches mask rest :=
  Glob.cons_iff letter

theorem globMatches_star_iff {mask name : CString} :
    GlobMatches ('*' :: mask) name ↔
      ∃ taken rest, name = taken ++ rest ∧ GlobMatches mask rest :=
  Glob.star_iff rfl

theorem drop_eq_at {source : CString} {i : Nat} (inside : i < source.length) :
    source.drop i = at_ source i :: source.drop (i + 1) := by
  rw [List.drop_eq_getElem_cons inside, at_, List.getD_eq_getElem _ _ inside]

theorem at_eq_zero_iff {source : CString} (proper : '\x00' ∉ source) {i : Nat}
    (within : i ≤ source.length) :
    at_ source i = '\x00' ↔ i = source.length := by
  constructor
  · intro zero
    by_contra other
    have inside : i < source.length := by omega
    have listed : at_ source i ∈ source := by
      rw [at_, List.getD_eq_getElem _ _ inside]
      exact List.getElem_mem inside
    exact proper (zero ▸ listed)
  · rintro rfl
    exact List.getD_eq_default _ _ (Nat.le_refl _)

theorem drop_skipStars (mask : CString) (m : Nat) :
    mask.drop (skipStars mask m) = (mask.drop m).dropWhile (· == '*') := by
  have split := List.takeWhile_append_dropWhile (p := (· == '*')) (l := mask.drop m)
  rw [skipStars, ← List.drop_drop]
  calc (mask.drop m).drop ((mask.drop m).takeWhile (· == '*')).length
      = ((mask.drop m).takeWhile (· == '*') ++
          (mask.drop m).dropWhile (· == '*')).drop
            ((mask.drop m).takeWhile (· == '*')).length := by rw [split]
    _ = (mask.drop m).dropWhile (· == '*') := List.drop_left

theorem skipStars_le {mask : CString} {m : Nat} (within : m ≤ mask.length) :
    skipStars mask m ≤ mask.length := by
  have short := (List.takeWhile_sublist (p := (· == '*'))
    (l := mask.drop m)).length_le
  rw [List.length_drop] at short
  unfold skipStars
  omega

theorem at_skipStars (mask : CString) (m : Nat) :
    at_ mask (skipStars mask m) ≠ '*' := by
  by_cases inside : skipStars mask m < mask.length
  · have shape := (drop_skipStars mask m).symm.trans (drop_eq_at inside)
    intro star
    have head : ((mask.drop m).dropWhile (· == '*')).head? = some '*' := by
      rw [shape, star]
      rfl
    have stops := List.head?_dropWhile_not (· == '*') (mask.drop m)
    rw [head] at stops
    cases stops
  · rw [at_, List.getD_eq_default _ _ (by omega)]
    decide

theorem skipBack_spec (mask : CString) (m : Nat) (given : 0 < m) :
    skipBack mask m < m ∧
      ∀ i, skipBack mask m < i → i < m → at_ mask i = '?' := by
  induction m with
  | zero => cases given
  | succ m ih =>
      unfold skipBack
      split
      · rename_i mark
        obtain ⟨below, marks⟩ := ih mark.1
        refine ⟨by omega, ?_⟩
        intro i after before
        obtain rfl | earlier := (by omega : i = m ∨ i < m)
        · exact mark.2
        · exact marks i after earlier
      · exact ⟨by omega, fun i after before => by omega⟩

namespace MatchState

def goal (mask : CString) (st : MatchState) : CString :=
  if st.wild then '*' :: mask.drop st.ma else mask.drop st.ma

/-- The letters between `ma` and `m` fit the characters between `na` and `n`,
and the name matches the mask if the rest of the name matches the goal. -/
structure Sound (mask name : CString) (st : MatchState) : Prop where
  within : st.m ≤ mask.length ∧ st.n ≤ name.length
  plain : st.wild = false → st.ma = 0
  glob : GlobMatches mask name ↔
    GlobMatches (st.goal mask) (name.drop st.na)
  settled : ∃ front taken : CString,
    mask.drop st.ma = front ++ mask.drop st.m ∧
    name.drop st.na = taken ++ name.drop st.n ∧
    st.m = st.ma + front.length ∧ st.n = st.na + taken.length ∧
    (∀ c ∈ front, c ≠ '*') ∧ List.Forall₂ Fits front taken

def progress (mask : CString) (st : MatchState) : Nat :=
  st.na * (mask.length + 1) + st.m

section Turn

variable {mask name : CString} {st : MatchState}

theorem Sound.ma_le (sound : st.Sound mask name) :
    st.ma ≤ st.m ∧ st.na ≤ st.n := by
  obtain ⟨front, taken, _, _, atM, atN, _⟩ := sound.settled
  omega

theorem sound_start (mask name : CString) :
    MatchState.Sound mask name {} := by
  refine ⟨⟨Nat.zero_le _, Nat.zero_le _⟩, fun _ => rfl, Iff.rfl, ?_⟩
  exact ⟨[], [], rfl, rfl, rfl, rfl, by simp, .nil⟩

theorem Sound.progress_lt (sound : st.Sound mask name) :
    st.progress mask < (name.length + 1) * (mask.length + 1) := by
  have bounds := sound.within
  have starts := sound.ma_le
  have rows : st.na * (mask.length + 1) ≤ name.length * (mask.length + 1) :=
    Nat.mul_le_mul_right _ (by omega)
  have whole : (name.length + 1) * (mask.length + 1) =
      name.length * (mask.length + 1) + (mask.length + 1) := Nat.succ_mul _ _
  unfold progress
  omega

/-- What is settled decides nothing: the rest of the goal has to match the rest
of the name. -/
theorem Sound.here_iff (sound : st.Sound mask name) :
    GlobMatches (mask.drop st.ma) (name.drop st.na) ↔
      GlobMatches (mask.drop st.m) (name.drop st.n) := by
  obtain ⟨front, taken, maskSplit, nameSplit, _, _, letters, fit⟩ :=
    sound.settled
  rw [maskSplit, nameSplit]
  exact Glob.append_iff_of_fit letters fit

theorem Sound.plain_iff (sound : st.Sound mask name) (plain : st.wild = false) :
    GlobMatches mask name ↔
      GlobMatches (mask.drop st.m) (name.drop st.n) := by
  rw [sound.glob, ← sound.here_iff, goal, plain]
  rfl

theorem Sound.star (sound : st.Sound mask name) :
    (st.star mask).Sound mask name ∧ at_ mask (st.star mask).m ≠ '*' ∧
      st.progress mask ≤ (st.star mask).progress mask := by
  unfold MatchState.star
  split
  case isFalse other => exact ⟨sound, other, Nat.le_refl _⟩
  case isTrue star =>
    have inside : st.m < mask.length := by
      by_contra beyond
      rw [at_, List.getD_eq_default _ _ (by omega)] at star
      exact absurd star (by decide)
    have more : st.m ≤ skipStars mask st.m := Nat.le_add_right _ _
    refine ⟨⟨⟨skipStars_le sound.within.1, sound.within.2⟩, ?_, ?_, ?_⟩,
      at_skipStars mask st.m, ?_⟩
    · exact fun plain => by cases plain
    · obtain ⟨front, taken, maskSplit, nameSplit, _, _, letters, fit⟩ :=
        sound.settled
      -- The stars at `m`, and what follows them.
      have first := drop_eq_at inside
      rw [star] at first
      obtain ⟨stars, all, split⟩ : ∃ stars : CString, (∀ c ∈ stars, c = '*') ∧
          mask.drop st.m = '*' :: (stars ++
            mask.drop (skipStars mask st.m)) := by
        refine ⟨(mask.drop (st.m + 1)).takeWhile (· == '*'), ?_, ?_⟩
        · intro c listed
          simpa using List.mem_takeWhile_imp listed
        · rw [drop_skipStars, first]
          simp [List.takeWhile_append_dropWhile]
      have after : GlobMatches (mask.drop st.m) (name.drop st.n) ↔
          GlobMatches ('*' :: mask.drop (skipStars mask st.m))
            (name.drop st.n) := by
        rw [split]
        exact Glob.stars_iff rfl all
      show GlobMatches mask name ↔
        GlobMatches ('*' :: mask.drop (skipStars mask st.m)) (name.drop st.n)
      rw [← after]
      cases wild : st.wild with
      | false => exact sound.plain_iff wild
      | true =>
          rw [sound.glob, goal, wild, if_pos rfl, maskSplit, nameSplit, first]
          exact Glob.star_append_star_iff rfl rfl letters fit
    · exact ⟨[], [], rfl, rfl, rfl, rfl, by simp, .nil⟩
    · have starts := sound.ma_le
      have rows : st.na * (mask.length + 1) ≤ st.n * (mask.length + 1) :=
        Nat.mul_le_mul_right _ starts.2
      unfold progress
      dsimp only
      omega

theorem Sound.retry (sound : st.Sound mask name) (wild : st.wild = true)
    (inside : st.n < name.length)
    (fails : ¬GlobMatches (mask.drop st.m) (name.drop st.n)) :
    st.retry.Sound mask name ∧ st.progress mask < st.retry.progress mask := by
  have starts := sound.ma_le
  have bounds := sound.within
  have first : name.drop st.na = at_ name st.na :: name.drop (st.na + 1) :=
    drop_eq_at (by omega)
  have whole := sound.glob
  rw [goal, wild, if_pos rfl, first] at whole
  rw [← sound.here_iff, first] at fails
  refine ⟨⟨⟨?_, ?_⟩, ?_, ?_, ?_⟩, ?_⟩
  · exact Nat.le_trans starts.1 bounds.1
  · show st.na + 1 ≤ name.length
    omega
  · intro plain
    exact absurd (wild.symm.trans plain) (by decide)
  · show GlobMatches mask name ↔ GlobMatches (st.retry.goal mask)
      (name.drop (st.na + 1))
    rw [goal, show st.retry.wild = true from wild, if_pos rfl]
    exact whole.trans (Glob.star_cons_iff rfl fails)
  · exact ⟨[], [], rfl, rfl, rfl, rfl, by simp, .nil⟩
  · show st.na * (mask.length + 1) + st.m <
      (st.na + 1) * (mask.length + 1) + st.ma
    rw [Nat.succ_mul]
    omega

def Compared (mask name : CString) (st : MatchState) :
    Option MatchState → Prop
  | none => ¬GlobMatches mask name
  | some next =>
      next.Sound mask name ∧ st.progress mask < next.progress mask

theorem Sound.compare (sound : st.Sound mask name)
    (properMask : '\x00' ∉ mask) (properName : '\x00' ∉ name)
    (letter : at_ mask st.m ≠ '*') (insideMask : st.m < mask.length)
    (insideName : st.n < name.length) :
    Compared mask name st (st.compare mask name) := by
  have first := drop_eq_at insideMask
  have char := drop_eq_at insideName
  unfold MatchState.compare
  split
  case isTrue other =>
    have fails : ¬GlobMatches (mask.drop st.m) (name.drop st.n) := by
      rw [first, char]
      intro glob
      obtain ⟨c, rest, same, fit, _⟩ := (globMatches_cons_iff letter).mp glob
      rw [(List.cons.inj same).1] at other
      exact fit.elim other.2 other.1
    cases wild : st.wild with
    | false => exact fun glob => fails ((sound.plain_iff wild).mp glob)
    | true => exact sound.retry wild insideName fails
  case isFalse same =>
    have fit : Fits (at_ mask st.m) (at_ name st.n) := by
      unfold Fits
      tauto
    have noEnd : at_ mask st.m ≠ '\x00' ∧ at_ name st.n ≠ '\x00' := by
      rw [ne_eq, ne_eq, at_eq_zero_iff properMask sound.within.1,
        at_eq_zero_iff properName sound.within.2]
      omega
    rw [if_neg noEnd.1, if_neg noEnd.2]
    obtain ⟨front, taken, maskSplit, nameSplit, atM, atN, letters, fits⟩ :=
      sound.settled
    refine ⟨⟨⟨insideMask, insideName⟩, sound.plain, sound.glob,
      front ++ [at_ mask st.m], taken ++ [at_ name st.n], ?_, ?_, ?_, ?_, ?_,
      ?_⟩, ?_⟩
    · rw [maskSplit, first, List.append_assoc]
      rfl
    · rw [nameSplit, char, List.append_assoc]
      rfl
    · show st.m + 1 = st.ma + _
      rw [List.length_append, List.length_singleton]
      omega
    · show st.n + 1 = st.na + _
      rw [List.length_append, List.length_singleton]
      omega
    · intro c listed
      obtain listed | listed := List.mem_append.mp listed
      · exact letters c listed
      · rw [List.mem_singleton.mp listed]
        exact letter
    · exact List.rel_append fits (.cons fit .nil)
    · show st.na * (mask.length + 1) + st.m <
        st.na * (mask.length + 1) + (st.m + 1)
      omega

theorem mem_drop_iff {source : CString} {k : Nat} {c : Char} :
    c ∈ source.drop k ↔ ∃ i, k ≤ i ∧ i < source.length ∧ at_ source i = c := by
  rw [List.mem_drop_iff_getElem]
  constructor
  · rintro ⟨i, inside, rfl⟩
    refine ⟨k + i, by omega, by omega, ?_⟩
    rw [at_, List.getD_eq_getElem _ _ (by omega)]
  · rintro ⟨i, after, inside, rfl⟩
    refine ⟨i - k, by omega, ?_⟩
    rw [at_, List.getD_eq_getElem _ _ inside]
    congr 1
    omega

theorem not_globMatches_nil {c : Char} {name : CString} :
    ¬GlobMatches [] (c :: name) := by
  intro glob
  cases Glob.nil_iff.mp glob

theorem Sound.both (sound : st.Sound mask name) (endMask : st.m = mask.length)
    (endName : st.n = name.length) : GlobMatches mask name := by
  have here : GlobMatches (mask.drop st.ma) (name.drop st.na) := by
    rw [sound.here_iff, endMask, endName, List.drop_length, List.drop_length]
    exact .nil
  rw [sound.glob, goal]
  split
  · exact .skip rfl here
  · exact here

theorem Sound.trailing (sound : st.Sound mask name)
    (endMask : st.m = mask.length)
    (star : at_ mask (skipBack mask st.m) = '*')
    (inside : 0 < skipBack mask st.m) : GlobMatches mask name := by
  obtain ⟨front, taken, maskSplit, nameSplit, atM, atN, letters, fit⟩ :=
    sound.settled
  rw [endMask, List.drop_length, List.append_nil] at maskSplit
  have given : 0 < st.m := by
    by_contra empty
    rw [show st.m = 0 by omega, skipBack] at inside
    exact absurd inside (by decide)
  obtain ⟨below, marks⟩ := skipBack_spec mask st.m given
  -- The star is before `ma`, since none is behind it.
  have before : skipBack mask st.m < st.ma := by
    by_contra after
    have listed : at_ mask (skipBack mask st.m) ∈ mask.drop st.ma :=
      mem_drop_iff.mpr ⟨_, by omega, by omega, rfl⟩
    rw [maskSplit] at listed
    exact letters _ listed star
  have wild : st.wild = true := by
    by_contra plain
    have start := sound.plain (Bool.not_eq_true _ ▸ plain)
    omega
  rw [sound.glob, goal, if_pos wild, maskSplit]
  refine Glob.star_of_length_le rfl letters ?_ ?_
  · intro c listed d
    rw [← maskSplit] at listed
    obtain ⟨i, after, last, rfl⟩ := mem_drop_iff.mp listed
    exact Or.inl (marks i (by omega) (by omega))
  · rw [nameSplit, List.length_append, fit.length_eq]
    exact Nat.le_add_right _ _

theorem Sound.short (sound : st.Sound mask name)
    (letter : at_ mask st.m ≠ '*') (insideMask : st.m < mask.length)
    (endName : st.n = name.length) : ¬GlobMatches mask name := by
  obtain ⟨front, taken, maskSplit, nameSplit, _, _, letters, fit⟩ :=
    sound.settled
  rw [endName, List.drop_length, List.append_nil] at nameSplit
  have letters' : ∀ c ∈ front ++ [at_ mask st.m], c ≠ '*' := by
    intro c listed
    obtain listed | listed := List.mem_append.mp listed
    · exact letters c listed
    · rw [List.mem_singleton.mp listed]
      exact letter
  have long : ∀ text, GlobMatches (mask.drop st.ma) text →
      taken.length < text.length := by
    intro text glob
    rw [maskSplit, drop_eq_at insideMask, List.append_cons] at glob
    have least := Glob.length_le letters' glob
    rw [List.length_append, List.length_singleton, fit.length_eq] at least
    omega
  rw [sound.glob, goal, nameSplit]
  intro glob
  split at glob
  · obtain ⟨skipped, text, same, inner⟩ := globMatches_star_iff.mp glob
    have more := long text inner
    rw [same, List.length_append] at more
    omega
  · exact absurd (long _ glob) (Nat.lt_irrefl _)

theorem toLower_eq_zero {c : Char} (zero : toLower c = toLower '\x00') :
    c = '\x00' := by
  have plain : toLower '\x00' = '\x00' := by decide
  rw [plain] at zero
  unfold toLower at zero
  split at zero
  · rename_i bounds
    have low : 65 ≤ c.toNat := bounds.1
    have high : c.toNat ≤ 94 := bounds.2
    generalize c.toNat = n at zero low high
    interval_cases n <;> exact absurd zero (by decide)
  · exact zero

theorem Sound.again (sound : st.Sound mask name)
    (properMask : '\x00' ∉ mask) (properName : '\x00' ∉ name)
    (wild : st.wild = true) (endMask : st.m = mask.length)
    (insideName : st.n < name.length) :
    Compared mask name st (st.retry.compare mask name) := by
  have fails : ∀ i, i < name.length →
      ¬GlobMatches (mask.drop mask.length) (name.drop i) := by
    intro i inside
    rw [List.drop_length, drop_eq_at inside]
    exact not_globMatches_nil
  obtain ⟨retried, more⟩ := sound.retry wild insideName
    (endMask ▸ fails st.n insideName)
  by_cases insideMask : st.ma < mask.length
  · -- The letters behind the star are tried on the next characters.
    obtain ⟨front, taken, maskSplit, _, atM, atN, letters, fit⟩ :=
      sound.settled
    rw [endMask, List.drop_length, List.append_nil] at maskSplit
    have letter : at_ mask st.ma ≠ '*' := by
      refine letters _ ?_
      rw [← maskSplit]
      exact mem_drop_iff.mpr ⟨st.ma, Nat.le_refl _, insideMask, rfl⟩
    have length := fit.length_eq
    have compared := retried.compare properMask properName letter insideMask
      (show st.na + 1 < name.length by omega)
    cases result : st.retry.compare mask name with
    | none => exact (result ▸ compared : Compared mask name st.retry none)
    | some next =>
        rw [result] at compared
        exact ⟨compared.1, Nat.lt_trans more compared.2⟩
  · -- The mask ends with its last star, which takes what is left.
    have last : st.retry.m = mask.length := by
      have starts := sound.ma_le
      show st.ma = mask.length
      omega
    have zero : at_ mask st.retry.m = '\x00' :=
      (at_eq_zero_iff properMask retried.within.1).mpr last
    unfold MatchState.compare
    split
    case isTrue other =>
      have insideRetry : st.retry.n < name.length := by
        by_contra beyond
        have ended := (at_eq_zero_iff properName retried.within.2).mpr
          (by have bound := retried.within.2; omega)
        rw [zero, ended] at other
        exact other.1 rfl
      rw [if_pos (show st.retry.wild = true from wild)]
      obtain ⟨twice, further⟩ := retried.retry wild insideRetry
        (last ▸ fails _ insideRetry)
      exact ⟨twice, Nat.lt_trans more further⟩
    case isFalse same =>
      have ended : at_ name st.retry.n = '\x00' := by
        refine toLower_eq_zero ?_
        rw [zero] at same
        by_contra other
        exact same ⟨fun equal => other equal.symm, by decide⟩
      rw [if_pos ended]
      exact ⟨retried, more⟩

def Turned (mask name : CString) (st : MatchState) :
    Except Bool MatchState → Prop
  | .error result => result = true ↔ GlobMatches mask name
  | .ok next => next.Sound mask name ∧ st.progress mask < next.progress mask

theorem turned_of_compared {before : MatchState}
    (more : before.progress mask ≤ st.progress mask)
    (result : Option MatchState) :
    Compared mask name st result →
      Turned mask name before (match result with
        | some next => .ok next
        | none => .error false) := by
  intro compared
  cases result with
  | none =>
      exact ⟨fun impossible => (Bool.false_ne_true impossible).elim,
        fun glob => absurd glob compared⟩
  | some next => exact ⟨compared.1, Nat.lt_of_le_of_lt more compared.2⟩

theorem Sound.turn (sound : st.Sound mask name) (properMask : '\x00' ∉ mask)
    (properName : '\x00' ∉ name) :
    Turned mask name st (st.turn mask name) := by
  obtain ⟨starred, letter, more⟩ := sound.star
  unfold MatchState.turn
  generalize st.star mask = star at starred letter more
  have never : ¬GlobMatches mask name → (false = true ↔ GlobMatches mask name) :=
    fun fails => ⟨fun impossible => (Bool.false_ne_true impossible).elim,
      fun glob => absurd glob fails⟩
  have maskEnd := at_eq_zero_iff properMask starred.within.1
  have nameEnd := at_eq_zero_iff properName starred.within.2
  dsimp only
  by_cases endMask : at_ mask star.m = '\x00'
  · rw [if_pos endMask]
    by_cases endName : at_ name star.n = '\x00'
    · rw [if_pos endName]
      exact ⟨fun _ => starred.both (maskEnd.mp endMask) (nameEnd.mp endName),
        fun _ => rfl⟩
    · rw [if_neg endName]
      have insideName : star.n < name.length := by
        have bound := starred.within.2
        have other := mt nameEnd.mpr endName
        omega
      by_cases trailing : at_ mask (skipBack mask star.m) = '*' ∧
          0 < skipBack mask star.m
      · rw [if_pos trailing]
        exact ⟨fun _ => starred.trailing (maskEnd.mp endMask) trailing.1
          trailing.2, fun _ => rfl⟩
      · rw [if_neg trailing]
        cases wild : star.wild with
        | false =>
            refine never ?_
            rw [starred.plain_iff wild, maskEnd.mp endMask, List.drop_length,
              drop_eq_at insideName]
            exact not_globMatches_nil
        | true =>
            exact turned_of_compared more _ (starred.again properMask
              properName wild (maskEnd.mp endMask) insideName)
  · rw [if_neg endMask]
    have insideMask : star.m < mask.length := by
      have bound := starred.within.1
      have other := mt maskEnd.mpr endMask
      omega
    by_cases endName : at_ name star.n = '\x00'
    · rw [if_pos endName]
      have none_ : skipStars mask star.m = star.m := by
        rw [skipStars, drop_eq_at insideMask]
        simp [letter]
      rw [none_, decide_eq_false endMask]
      exact never (starred.short letter insideMask (nameEnd.mp endName))
    · rw [if_neg endName]
      have insideName : star.n < name.length := by
        have bound := starred.within.2
        have other := mt nameEnd.mpr endName
        omega
      exact turned_of_compared more _ (starred.compare properMask properName
        letter insideMask insideName)

end Turn

end MatchState

section Match

variable {mask name : CString}

theorem matchLoop_sound (properMask : '\x00' ∉ mask)
    (properName : '\x00' ∉ name) (calls : Nat) {st : MatchState}
    (sound : st.Sound mask name) (matched : matchLoop mask name calls st = true) :
    GlobMatches mask name := by
  induction calls generalizing st with
  | zero => cases matched
  | succ calls ih =>
      have turned := sound.turn properMask properName
      unfold matchLoop at matched
      cases result : st.turn mask name with
      | error found =>
          rw [result] at turned matched
          exact turned.mp matched
      | ok next =>
          rw [result] at turned matched
          exact ih turned.1 matched

theorem matchLoop_iff (properMask : '\x00' ∉ mask) (properName : '\x00' ∉ name)
    (calls : Nat) {st : MatchState} (sound : st.Sound mask name)
    (enough : (name.length + 1) * (mask.length + 1) ≤
      calls + st.progress mask) :
    matchLoop mask name calls st = true ↔ GlobMatches mask name := by
  induction calls generalizing st with
  | zero =>
      have most := sound.progress_lt
      omega
  | succ calls ih =>
      have turned := sound.turn properMask properName
      unfold matchLoop
      cases result : st.turn mask name with
      | error found =>
          rw [result] at turned
          exact turned
      | ok next =>
          rw [result] at turned
          refine ih turned.1 ?_
          have more := turned.2
          omega

end Match

/-- `*p`: nothing is read before a string or behind its terminator. -/
def deref (source : CString) (i : Nat) : Option Char :=
  if i ≤ source.length then some (at_ source i) else none

/-- `while (*m == '*') m++`, for at most so many turns. -/
def skipStarsRead (mask : CString) : Nat → Nat → Option Nat
  | 0, _ => none
  | turns + 1, m => do
      let c ← deref mask m
      if c = '*' then skipStarsRead mask turns (m + 1) else some m

/-- `for (m--; m > mask && *m == '?'; m--)`. -/
def skipBackRead (mask : CString) : Nat → Option Nat
  | 0 => none
  | m + 1 =>
      if 0 < m then do
        let c ← deref mask m
        if c = '?' then skipBackRead mask m else some m
      else some m

namespace MatchState

def starRead (mask : CString) (st : MatchState) : Option MatchState := do
  let c ← deref mask st.m
  if c = '*' then
    let m ← skipStarsRead mask (mask.length + 1) st.m
    some { m := m, n := st.n, ma := m, na := st.n, wild := true }
  else some st

def compareRead (mask name : CString) (st : MatchState) :
    Option (Except Bool MatchState) := do
  let c ← deref mask st.m
  let d ← deref name st.n
  if toLower c ≠ toLower d ∧ c ≠ '?' then
    some (if st.wild then .ok st.retry else .error false)
  else
    some (.ok { st with
      m := if c = '\x00' then st.m else st.m + 1
      n := if d = '\x00' then st.n else st.n + 1 })

def turnRead (mask name : CString) (st : MatchState) :
    Option (Except Bool MatchState) := do
  let st ← st.starRead mask
  let c ← deref mask st.m
  let d ← deref name st.n
  if c = '\x00' then
    if d = '\x00' then some (.error true)
    else
      let m ← skipBackRead mask st.m
      let e ← deref mask m
      if e = '*' ∧ 0 < m then some (.error true)
      else if !st.wild then some (.error false)
      else st.retry.compareRead mask name
  else if d = '\x00' then
    let m ← skipStarsRead mask (mask.length + 1) st.m
    let e ← deref mask m
    some (.error (e = '\x00'))
  else st.compareRead mask name

end MatchState

def matchLoopRead (mask name : CString) : Nat → MatchState → Option Bool
  | 0, _ => some false
  | calls + 1, st => do
      match ← st.turnRead mask name with
      | .error result => some result
      | .ok st => matchLoopRead mask name calls st

/-- `match`, with nothing where it reads outside of its strings. -/
def matchRead (mask name : CString) : Option Bool :=
  if mask.isEmpty || name.isEmpty then some false
  else matchLoopRead mask name matchMaxCalls {}

theorem deref_of_le {source : CString} {i : Nat} (within : i ≤ source.length) :
    deref source i = some (at_ source i) :=
  if_pos within

theorem skipStarsRead_eq {mask : CString} {turns m : Nat}
    (within : m ≤ mask.length) (enough : mask.length < turns + m) :
    skipStarsRead mask turns m = some (skipStars mask m) := by
  induction turns generalizing m with
  | zero => omega
  | succ turns ih =>
      rw [skipStarsRead, deref_of_le within]
      show (if at_ mask m = '*' then _ else _) = _
      split
      case isTrue star =>
        have inside : m < mask.length := by
          by_contra beyond
          rw [at_, List.getD_eq_default _ _ (by omega)] at star
          exact absurd star (by decide)
        rw [ih inside (by omega)]
        have stars : (mask.drop m).takeWhile (· == '*') =
            '*' :: (mask.drop (m + 1)).takeWhile (· == '*') := by
          rw [drop_eq_at inside, star, List.takeWhile_cons_of_pos rfl]
        rw [skipStars, skipStars, stars, List.length_cons, Nat.succ_eq_add_one]
        congr 1
        omega
      case isFalse other =>
        unfold skipStars
        cases rest : mask.drop m with
        | nil => rfl
        | cons c others =>
            have inside : m < mask.length := by
              have length := congrArg List.length rest
              rw [List.length_drop, List.length_cons] at length
              omega
            rw [drop_eq_at inside] at rest
            obtain ⟨rfl, _⟩ := List.cons.inj rest
            rw [List.takeWhile_cons_of_neg (by simpa using other)]
            rfl

theorem skipBackRead_eq {mask : CString} {m : Nat} (given : 0 < m)
    (within : m ≤ mask.length) :
    skipBackRead mask m = some (skipBack mask m) := by
  induction m with
  | zero => cases given
  | succ m ih =>
      unfold skipBackRead skipBack
      by_cases inside : 0 < m
      · rw [if_pos inside, deref_of_le (by omega)]
        show (if at_ mask m = '?' then _ else _) = _
        by_cases mark : at_ mask m = '?'
        · rw [if_pos mark, if_pos ⟨inside, mark⟩]
          exact ih inside (by omega)
        · rw [if_neg mark, if_neg fun both => mark both.2]
      · rw [if_neg inside, if_neg fun both => inside both.1]

namespace MatchState

variable {mask name : CString} {st : MatchState}

theorem starRead_eq (within : st.m ≤ mask.length) :
    st.starRead mask = some (st.star mask) := by
  unfold starRead star
  rw [deref_of_le within]
  show (if at_ mask st.m = '*' then _ else _) = _
  split
  · rw [skipStarsRead_eq within (by omega)]
    rfl
  · rfl

theorem compareRead_eq (inMask : st.m ≤ mask.length)
    (inName : st.n ≤ name.length) :
    st.compareRead mask name = some (match st.compare mask name with
      | some st => .ok st
      | none => .error false) := by
  unfold compareRead compare
  rw [deref_of_le inMask, deref_of_le inName]
  show (if _ then _ else _) = _
  split
  · cases st.wild with
    | false => rfl
    | true => rfl
  · rfl

theorem Sound.turnRead (sound : st.Sound mask name)
    (properMask : '\x00' ∉ mask) (properName : '\x00' ∉ name)
    (given : mask ≠ []) :
    st.turnRead mask name = some (st.turn mask name) := by
  unfold MatchState.turnRead MatchState.turn
  obtain ⟨starred, _⟩ := sound.star
  rw [starRead_eq sound.within.1]
  generalize st.star mask = st at starred
  obtain ⟨inMask, inName⟩ := starred.within
  have endOfMask : 0 < mask.length := List.length_pos_iff.mpr given
  simp only [Option.bind_eq_bind, Option.bind_some, deref_of_le inMask,
    deref_of_le inName]
  by_cases endMask : at_ mask st.m = '\x00'
  · rw [if_pos endMask, if_pos endMask]
    by_cases endName : at_ name st.n = '\x00'
    · rw [if_pos endName, if_pos endName]
    · rw [if_neg endName, if_neg endName]
      have last : st.m = mask.length :=
        (at_eq_zero_iff properMask inMask).mp endMask
      have insideName : st.n < name.length := by
        have other := mt (at_eq_zero_iff properName inName).mpr endName
        omega
      have starts := starred.ma_le
      have back := (skipBack_spec mask st.m (by omega)).1
      rw [skipBackRead_eq (by omega) inMask]
      simp only [Option.bind_some, deref_of_le (show skipBack mask st.m ≤
        mask.length by omega)]
      by_cases trailing : at_ mask (skipBack mask st.m) = '*' ∧
          0 < skipBack mask st.m
      · rw [if_pos trailing, if_pos trailing]
      · rw [if_neg trailing, if_neg trailing]
        cases st.wild with
        | false => rfl
        | true =>
            exact compareRead_eq (show st.ma ≤ mask.length by omega)
              (show st.na + 1 ≤ name.length by omega)
  · rw [if_neg endMask, if_neg endMask]
    by_cases endName : at_ name st.n = '\x00'
    · rw [if_pos endName, if_pos endName, skipStarsRead_eq inMask (by omega)]
      simp only [Option.bind_some, deref_of_le (skipStars_le inMask)]
    · rw [if_neg endName, if_neg endName]
      exact compareRead_eq inMask inName

end MatchState

section Match

variable {mask name : CString}

theorem matchLoopRead_eq (properMask : '\x00' ∉ mask)
    (properName : '\x00' ∉ name) (given : mask ≠ []) (calls : Nat)
    {st : MatchState} (sound : st.Sound mask name) :
    matchLoopRead mask name calls st = some (matchLoop mask name calls st) := by
  induction calls generalizing st with
  | zero => rfl
  | succ calls ih =>
      have turned := sound.turn properMask properName
      unfold matchLoopRead matchLoop
      rw [sound.turnRead properMask properName given, Option.bind_eq_bind,
        Option.bind_some]
      cases result : st.turn mask name with
      | error found => rfl
      | ok next =>
          rw [result] at turned
          exact ih turned.1

/-- What is matched is so by the mask, and is found if the mask and the name are
short enough for the loop. No character outside of the two is read. -/
theorem match_iff_glob (maskGiven : mask ≠ []) (nameGiven : name ≠ [])
    (properMask : '\x00' ∉ mask) (properName : '\x00' ∉ name) :
    (match_ mask name = true → GlobMatches mask name) ∧
    ((mask.length + 1) * (mask.length + name.length + 1) ≤ matchMaxCalls →
      (match_ mask name = true ↔ GlobMatches mask name)) ∧
    matchRead mask name = some (match_ mask name) := by
  have start := MatchState.sound_start mask name
  have entered : ¬(mask.isEmpty || name.isEmpty) = true := by
    simp [maskGiven, nameGiven]
  unfold match_ matchRead
  rw [if_neg entered, if_neg entered]
  refine ⟨matchLoop_sound properMask properName _ start, ?_,
    matchLoopRead_eq properMask properName maskGiven _ start⟩
  intro short
  refine matchLoop_iff properMask properName _ start ?_
  have less : (name.length + 1) * (mask.length + 1) ≤
      (mask.length + 1) * (mask.length + name.length + 1) := by
    rw [Nat.mul_comm]
    exact Nat.mul_le_mul_left _ (by omega)
  exact Nat.le_trans (Nat.le_trans less short) (Nat.le_add_right _ _)

theorem match_iff_glob_host :
    (match_ "*!*@h?st".toList "Nick!user@HOST".toList = true ↔
      GlobMatches "*!*@h?st".toList "Nick!user@HOST".toList) ∧
    matchRead "*!*@h?st".toList "Nick!user@HOST".toList = some true := by
  have maskGiven : "*!*@h?st".toList ≠ [] := by decide
  have nameGiven : "Nick!user@HOST".toList ≠ [] := by decide
  obtain ⟨_, found, read⟩ :=
    match_iff_glob maskGiven nameGiven (by decide) (by decide)
  exact ⟨found (by decide), read.trans (by decide +kernel)⟩

end Match

end CString

end RatboxServices
