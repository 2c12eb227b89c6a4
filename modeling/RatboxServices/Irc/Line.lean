import RatboxServices.Irc.CString
import Mathlib.Data.List.TakeWhile

namespace RatboxServices

/-! Numbers and words as they are written into a line, and how they are read
back from it. -/

namespace CString

def decimal (value : Nat) : CString :=
  Nat.toDigits 10 value

/-- `%lu` of a `long`. -/
def formatUlong (value : Int) : CString :=
  decimal (value % 18446744073709551616).toNat

/-- `%d`. -/
def formatInt (value : Int) : CString :=
  if value < 0 then '-' :: decimal value.natAbs else decimal value.natAbs

theorem isDigit_of_mem_decimal {value : Nat} {c : Char}
    (listed : c ∈ decimal value) : isDigit c = true := by
  have digit : c.isDigit = true :=
    Nat.isDigit_of_mem_toDigits (by decide) (by decide) listed
  simpa [Char.isDigit, isDigit, Char.le_def] using digit

theorem decimal_ne_nil (value : Nat) : decimal value ≠ [] :=
  Nat.toDigits_ne_nil

theorem digits_of_all (text rest : CString) (value : Nat)
    (all : ∀ c ∈ text, isDigit c = true) (stops : firstIs isDigit rest = false) :
    digits value (text ++ rest) = (Nat.ofDigitChars 10 text value, rest) := by
  induction text generalizing value with
  | nil =>
      cases rest with
      | nil => rfl
      | cons c others =>
          have other : isDigit c = false := stops
          simp [digits, other]
  | cons c others ih =>
      have digit : isDigit c = true := all c (by simp)
      rw [List.cons_append, digits, if_pos digit,
        ih _ fun c listed => all c (List.mem_cons_of_mem _ listed)]
      simp [Nat.ofDigitChars, Nat.mul_comm]

theorem digits_decimal (value : Nat) (rest : CString)
    (stops : firstIs isDigit rest = false) :
    digits 0 (decimal value ++ rest) = (value, rest) := by
  rw [digits_of_all _ _ _ (fun c => isDigit_of_mem_decimal) stops, decimal,
    Nat.ofDigitChars_ten_toDigits]

theorem not_isSpace_of_isDigit {c : Char} (digit : isDigit c = true) :
    isSpace c = false ∧ c ≠ '-' ∧ c ≠ '+' ∧ c ≠ ' ' ∧ c ≠ ':' := by
  have bounds : '0' ≤ c ∧ c ≤ '9' := by simpa [isDigit] using digit
  have low : 48 ≤ c.toNat := bounds.1
  have other : ∀ d : Char, d.toNat < 48 ∨ 57 < d.toNat → c ≠ d := by
    have high : c.toNat ≤ 57 := bounds.2
    rintro d apart rfl
    omega
  refine ⟨?_, other '-' (by decide), other '+' (by decide),
    other ' ' (by decide), other ':' (by decide)⟩
  have blank : c ≠ ' ' := other ' ' (by decide)
  have above : ¬c ≤ '\r' := by
    intro le
    have small : c.toNat ≤ 13 := le
    omega
  simp [isSpace, blank, above]

theorem strtol_digit {c : Char} {others : CString}
    (digit : isDigit c = true) :
    strtol (c :: others) =
      (max longMin (min longMax ((digits 0 (c :: others)).1 : Int)),
        (digits 0 (c :: others)).2) := by
  obtain ⟨noSpace, noMinus, noPlus, _⟩ := not_isSpace_of_isDigit digit
  simp [strtol, noSpace, noMinus, noPlus, firstIs, digit]

theorem strtol_minus {c : Char} {others : CString}
    (digit : isDigit c = true) :
    strtol ('-' :: c :: others) =
      (max longMin (min longMax (-((digits 0 (c :: others)).1 : Int))),
        (digits 0 (c :: others)).2) := by
  have noSpace : isSpace '-' = false := by decide
  simp [strtol, noSpace, firstIs, digit]

theorem strtol_formatInt {value : Int} {rest : CString}
    (stops : firstIs isDigit rest = false) (low : longMin ≤ value)
    (high : value ≤ longMax) : strtol (formatInt value ++ rest) = (value, rest) := by
  have read := digits_decimal value.natAbs rest stops
  unfold formatInt
  cases shape : decimal value.natAbs with
  | nil => exact absurd shape (decimal_ne_nil _)
  | cons c others =>
      have digit : isDigit c = true :=
        isDigit_of_mem_decimal (shape ▸ List.mem_cons_self)
      rw [shape, List.cons_append] at read
      split
      · rw [List.cons_append, List.cons_append, strtol_minus digit, read]
        have same : -(value.natAbs : Int) = value := by omega
        rw [same, Int.min_eq_right high, Int.max_eq_right low]
      · rw [List.cons_append, strtol_digit digit, read]
        have same : (value.natAbs : Int) = value := by omega
        rw [same, Int.min_eq_right high, Int.max_eq_right low]

theorem atol_formatUlong {value : Int} (low : 0 ≤ value)
    (high : value ≤ longMax) : atol (formatUlong value) = value := by
  have same : formatUlong value = formatInt value := by
    unfold longMax at high
    have small : value % 18446744073709551616 = value := by omega
    have abs : value.toNat = value.natAbs := by omega
    rw [formatUlong, formatInt, if_neg (by omega), small, abs]
  have read : strtol (formatInt value ++ []) = (value, []) :=
    strtol_formatInt rfl (by unfold longMin; omega) high
  rw [List.append_nil] at read
  rw [atol, same, read]

theorem atoi_formatInt {value : Int} (low : -2147483648 ≤ value)
    (high : value < 2147483648) : atoi (formatInt value) = value := by
  have read : strtol (formatInt value ++ []) = (value, []) :=
    strtol_formatInt rfl (by unfold longMin; omega) (by unfold longMax; omega)
  rw [List.append_nil] at read
  rw [atoi, atol, read]
  exact Int.bmod_eq_of_le (by omega) (by omega)

theorem atoi_bounds (source : CString) :
    -2147483648 ≤ atoi source ∧ atoi source < 2147483648 := by
  unfold atoi
  have low : -((4294967296 : Nat) : Int) / 2 ≤
      (atol source).bmod 4294967296 := Int.le_bmod (by decide)
  have high : (atol source).bmod 4294967296 <
      (((4294967296 : Nat) : Int) + 1) / 2 := Int.bmod_lt (by decide)
  omega

structure IsWord (word : CString) : Prop where
  given : word ≠ []
  noSpace : ' ' ∉ word
  noColon : word.head? ≠ some ':'

theorem isWord_decimal (value : Nat) : IsWord (decimal value) := by
  have digit : ∀ c ∈ decimal value, isDigit c = true :=
    fun c => isDigit_of_mem_decimal
  refine ⟨decimal_ne_nil value, ?_, ?_⟩
  · intro listed
    exact (not_isSpace_of_isDigit (digit _ listed)).2.2.2.1 rfl
  · intro first
    have listed := List.mem_of_mem_head? first
    exact (not_isSpace_of_isDigit (digit _ listed)).2.2.2.2 rfl

theorem isWord_formatInt (value : Int) : IsWord (formatInt value) := by
  unfold formatInt
  split
  · refine ⟨by simp, ?_, by simp⟩
    have word := isWord_decimal value.natAbs
    simp [word.noSpace]
  · exact isWord_decimal _

theorem cut_append {c : Char} {word : CString} (inside : c ∉ word)
    (rest : CString) : cut c (word ++ c :: rest) = (word, some rest) := by
  have other : ∀ d ∈ word, (d != c) = true := by
    intro d listed
    have different : d ≠ c := by
      rintro rfl
      exact inside listed
    simpa using different
  simp [cut, List.dropWhile_append_of_pos other,
    List.takeWhile_append_of_pos other]

theorem cut_of_not_mem {c : Char} {source : CString} (inside : c ∉ source) :
    cut c source = (source, none) := by
  have other : source.dropWhile (· != c) = [] := by
    rw [List.dropWhile_eq_nil_iff]
    intro d listed
    have different : d ≠ c := by
      rintro rfl
      exact inside listed
    simpa using different
  rw [cut, other]

def spaced (words : List CString) : CString :=
  words.flatMap fun word => word ++ [' ']

/-- What is documented of `rb_string_to_array`: it splits a line at its spaces,
and a parameter that begins with a colon is the last one and goes to the end of
the line. No more than fourteen words are looked at so. -/
structure SplitsParams (split : CString → List CString) : Prop where
  words : ∀ words, (∀ word ∈ words, IsWord word) → words.length < 15 →
    split (spaced words) = words
  trailing : ∀ words last, (∀ word ∈ words, IsWord word) →
    words.length < 15 → split (spaced words ++ ':' :: last) = words ++ [last]

end CString

end RatboxServices
