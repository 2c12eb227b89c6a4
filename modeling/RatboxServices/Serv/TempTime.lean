import RatboxServices.Lib.Numeral
import RatboxServices.Serv.ChanBan

namespace RatboxServices

open CString

/-! What `get_temp_time` makes of a duration: the number of its digits times the
unit, a year at most. -/

namespace TempTime

def unitMinutes : CString → Option Nat
  | [] => some 1
  | ['h'] | ['H'] => some 60
  | ['d'] | ['D'] => some 1440
  | ['w'] | ['W'] => some 10080
  | _ => none

def yearMinutes : Nat := 60 * 24 * 7 * 52

def number (digits : CString) : Nat :=
  numeral 10 0 (digits.map fun c => c.toNat - 48)

inductive IsDuration : CString → Nat → Prop
  | intro {digits unit : CString} {scale : Nat}
      (all : ∀ c ∈ digits, isDigit c = true)
      (known : unitMinutes unit = some scale) (nonzero : number digits ≠ 0) :
      IsDuration (digits ++ unit) (number digits * scale)

/-- The result is zero if and only if the text is no duration, and else the
seconds of the duration, up to those of a year. -/
structure Exact (text : CString) : Prop where
  zero : getTempTime text = 0 ↔ ¬∃ minutes, IsDuration text minutes
  seconds : ∀ minutes, IsDuration text minutes →
    getTempTime text = 60 * (min minutes yearMinutes : Nat)

/-- A signed 64-bit `time_t`. -/
def wrap (value : Nat) : Int :=
  (value : Int).bmod 18446744073709551616

theorem wrap_add_mul (value factor term : Nat) :
    (wrap value * factor + term).bmod 18446744073709551616 =
      wrap (value * factor + term) := by
  unfold wrap
  rw [← Int.bmod_add_bmod, Int.bmod_mul_bmod, Int.bmod_add_bmod]
  norm_cast

theorem wrap_mul (value factor : Nat) :
    (wrap value * factor).bmod 18446744073709551616 =
      wrap (value * factor) := by
  unfold wrap
  rw [Int.bmod_mul_bmod]
  norm_cast

theorem digit_value {c : Char} (digit : isDigit c = true) :
    c.toNat % 16 = c.toNat - 48 := by
  have bounds : 48 ≤ c.toNat ∧ c.toNat ≤ 57 := of_decide_eq_true digit
  omega

theorem tempTimeLoop_digits {digits : CString}
    (all : ∀ c ∈ digits, isDigit c = true) (value : Nat) (rest : CString) :
    tempTimeLoop (wrap value) (digits ++ rest) =
      tempTimeLoop (wrap (numeral 10 value (digits.map fun c => c.toNat - 48)))
        rest := by
  induction digits generalizing value with
  | nil => rfl
  | cons c digits ih =>
      have digit : isDigit c = true := all c (by simp)
      rw [List.cons_append, tempTimeLoop, if_pos digit, digit_value digit,
        List.map_cons, numeral_cons]
      rw [show (10 : Int) = (10 : Nat) from rfl, wrap_add_mul]
      exact ih (fun other listed => all other (List.mem_cons_of_mem _ listed)) _

def capped (minutes : Int) : Int :=
  (if 524160 < minutes ∨ minutes < 0 then 524160 else minutes) * 60

theorem getTempTime_eq {digits rest : CString}
    (all : ∀ c ∈ digits, isDigit c = true) :
    getTempTime (digits ++ rest) =
      match tempTimeLoop (wrap (number digits)) rest with
      | none => 0
      | some minutes => capped minutes := by
  have start : (0 : Int) = wrap 0 := by decide
  unfold getTempTime
  rw [start, tempTimeLoop_digits all 0 rest]
  rfl

theorem tempTimeLoop_letter {c : Char} (letter : isDigit c = false)
    (value : Nat) (rest : CString) :
    tempTimeLoop (wrap value) (c :: rest) =
      if wrap value = 0 then none
      else (unitMinutes (c :: rest)).map fun scale => wrap (value * scale) := by
  rw [tempTimeLoop, if_neg (by simp [letter])]
  by_cases zero : wrap value = 0
  · rw [if_pos (Or.inl zero), if_pos zero]
  · rw [if_neg zero]
    cases rest with
    | cons d others =>
        rw [if_pos (Or.inr (List.cons_ne_nil d others))]
        simp [unitMinutes]
    | nil =>
        rw [if_neg (by simp [zero])]
        rw [show (60 : Int) = (60 : Nat) from rfl,
          show (1440 : Int) = (1440 : Nat) from rfl,
          show (10080 : Int) = (10080 : Nat) from rfl, wrap_mul, wrap_mul,
          wrap_mul]
        split
        · rename_i hours
          obtain rfl | rfl := hours <;> rfl
        · split
          · rename_i days
            obtain rfl | rfl := days <;> rfl
          · split
            · rename_i weeks
              obtain rfl | rfl := weeks <;> rfl
            · rename_i noHours noDays noWeeks
              have unknown : unitMinutes [c] = none := by
                unfold unitMinutes
                split <;> simp_all
              rw [unknown, Option.map_none]

theorem wrap_mul_eq_zero {value : Nat} (zero : wrap value = 0) (scale : Nat) :
    wrap (value * scale) = 0 := by
  rw [← wrap_mul, zero, Int.zero_mul]
  rfl

theorem getTempTime_of_unit {digits rest : CString}
    (all : ∀ c ∈ digits, isDigit c = true)
    (stops : ∀ c ∈ rest.head?, isDigit c = false) :
    getTempTime (digits ++ rest) =
      match unitMinutes rest with
      | none => 0
      | some scale => capped (wrap (number digits * scale)) := by
  rw [getTempTime_eq all]
  cases rest with
  | nil => simp [tempTimeLoop, unitMinutes]
  | cons c others =>
      rw [tempTimeLoop_letter (stops c (by simp))]
      cases known : unitMinutes (c :: others) with
      | none => simp
      | some scale =>
          by_cases zero : wrap (number digits) = 0
          · rw [if_pos zero]
            dsimp only
            rw [wrap_mul_eq_zero zero]
            decide
          · rw [if_neg zero]
            rfl

theorem unit_stops {unit : CString} {scale : Nat}
    (known : unitMinutes unit = some scale) :
    ∀ c ∈ unit.head?, isDigit c = false := by
  unfold unitMinutes at known
  split at known <;> simp_all <;> decide

theorem takeWhile_digits {digits rest : CString}
    (all : ∀ c ∈ digits, isDigit c = true)
    (stops : ∀ c ∈ rest.head?, isDigit c = false) :
    (digits ++ rest).takeWhile isDigit = digits := by
  rw [List.takeWhile_append_of_pos all]
  cases rest with
  | nil => simp
  | cons c others =>
      rw [List.takeWhile_cons_of_neg (by simp [stops c (by simp)]),
        List.append_nil]

theorem isDuration_iff {digits rest : CString} {minutes : Nat}
    (all : ∀ c ∈ digits, isDigit c = true)
    (stops : ∀ c ∈ rest.head?, isDigit c = false) :
    IsDuration (digits ++ rest) minutes ↔
      number digits ≠ 0 ∧ ∃ scale, unitMinutes rest = some scale ∧
        minutes = number digits * scale := by
  constructor
  · intro duration
    generalize same : digits ++ rest = text at duration
    obtain ⟨others, known, nonzero⟩ := duration
    have first := congrArg (List.takeWhile isDigit) same
    rw [takeWhile_digits all stops,
      takeWhile_digits others (unit_stops known)] at first
    subst first
    rw [List.append_cancel_left same]
    exact ⟨nonzero, _, known, rfl⟩
  · rintro ⟨nonzero, scale, known, rfl⟩
    exact .intro all known nonzero

theorem exists_digits (text : CString) :
    ∃ digits rest, text = digits ++ rest ∧
      (∀ c ∈ digits, isDigit c = true) ∧
        ∀ c ∈ rest.head?, isDigit c = false := by
  refine ⟨text.takeWhile isDigit, text.dropWhile isDigit,
    List.takeWhile_append_dropWhile.symm,
    fun c listed => List.mem_takeWhile_imp listed, fun c first => ?_⟩
  have stopped := List.head?_dropWhile_not isDigit text
  rw [Option.mem_def.mp first] at stopped
  simpa using stopped

theorem capped_wrap_iff {minutes : Nat} :
    capped (wrap minutes) = 60 * (min minutes yearMinutes : Nat) ↔
      minutes ≤ yearMinutes ∨
        yearMinutes ≤ minutes % 18446744073709551616 := by
  unfold capped wrap yearMinutes
  rw [Int.bmod_def]
  omega

/-- A text is read right if and only if its minutes are not more than a year, or
leave at least a year when they are reduced to 64 bits. -/
theorem getTempTime_iff (text : CString) :
    Exact text ↔ ∀ minutes, IsDuration text minutes →
      minutes ≤ yearMinutes ∨
        yearMinutes ≤ minutes % 18446744073709551616 := by
  obtain ⟨digits, rest, rfl, all, stops⟩ := exists_digits text
  have returned := getTempTime_of_unit all stops
  constructor
  · intro exact_ minutes duration
    obtain ⟨-, scale, known, rfl⟩ := (isDuration_iff all stops).mp duration
    have seconds := exact_.seconds _ duration
    rw [returned, known] at seconds
    exact capped_wrap_iff.mp seconds
  · intro small
    have seconds : ∀ minutes, IsDuration (digits ++ rest) minutes →
        getTempTime (digits ++ rest) =
          60 * (min minutes yearMinutes : Nat) := by
      intro minutes duration
      obtain ⟨-, scale, known, rfl⟩ := (isDuration_iff all stops).mp duration
      rw [returned, known]
      exact capped_wrap_iff.mpr (small _ duration)
    refine ⟨⟨?_, ?_⟩, seconds⟩
    · rintro zero ⟨minutes, duration⟩
      have positive : minutes ≠ 0 := by
        obtain ⟨nonzero, scale, known, rfl⟩ :=
          (isDuration_iff all stops).mp duration
        have scaled : scale ≠ 0 := by
          rintro rfl
          unfold unitMinutes at known
          split at known <;> cases known
        exact Nat.mul_ne_zero nonzero scaled
      rw [seconds minutes duration] at zero
      unfold yearMinutes at zero
      omega
    · intro none_
      rw [returned]
      cases known : unitMinutes rest with
      | none => rfl
      | some scale =>
          have zero : number digits = 0 := by
            by_contra nonzero
            exact none_ ⟨_, (isDuration_iff all stops).mpr
              ⟨nonzero, scale, known, rfl⟩⟩
          dsimp only
          rw [zero, Nat.zero_mul]
          decide

/-- The digits of 2 to the power of 64 are read as zero. -/
theorem not_exact_pow : ¬Exact "18446744073709551616".toList := by
  intro exact_
  have read : getTempTime "18446744073709551616".toList = 0 := by
    decide +kernel
  have duration : IsDuration "18446744073709551616".toList _ :=
    @IsDuration.intro "18446744073709551616".toList [] 1
      (List.all_eq_true.mp (by decide)) rfl (by decide +kernel)
  exact exact_.zero.mp read ⟨_, duration⟩

end TempTime

end RatboxServices
