import Mathlib.Data.List.Basic

namespace RatboxServices

/-! Flag words: a C `unsigned int` used as a set of single-bit flags. A flag is
named by its bit index. -/

abbrev Word := BitVec 32

namespace Word

def has (word : Word) (bit : Nat) : Bool :=
  word.getLsbD bit

def set (word : Word) (bit : Nat) : Word :=
  word ||| BitVec.twoPow 32 bit

def clear (word : Word) (bit : Nat) : Word :=
  word &&& ~~~(BitVec.twoPow 32 bit)

def ofBits : List Nat → Word
  | [] => 0#32
  | bit :: rest => (ofBits rest).set bit

@[simp] theorem has_zero (bit : Nat) : has 0#32 bit = false := by
  simp [has]

@[simp] theorem has_set (word : Word) (bit other : Nat) :
    (word.set bit).has other =
      (word.has other || (decide (bit < 32) && decide (bit = other))) := by
  simp only [has, set, BitVec.getLsbD_or, BitVec.getLsbD_twoPow]

@[simp] theorem has_clear (word : Word) (bit other : Nat) :
    (word.clear bit).has other =
      (word.has other && !decide (bit = other)) := by
  simp only [has, clear, BitVec.getLsbD_and, BitVec.getLsbD_not,
    BitVec.getLsbD_twoPow]
  by_cases bound : other < 32
  · by_cases equal : bit = other
    · subst equal
      simp [bound]
    · simp [bound, equal]
  · have absent : word.getLsbD other = false :=
      BitVec.getLsbD_of_ge word other (by omega)
    simp [absent]

@[simp] theorem has_or (left right : Word) (bit : Nat) :
    has (left ||| right) bit = (left.has bit || right.has bit) := by
  simp [has]

theorem ext {left right : Word}
    (agree : ∀ bit, bit < 32 → left.has bit = right.has bit) : left = right :=
  BitVec.eq_of_getLsbD_eq fun bit bound => agree bit bound

end Word

end RatboxServices
