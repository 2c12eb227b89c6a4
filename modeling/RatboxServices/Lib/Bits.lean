import Mathlib.Data.List.GetD

namespace RatboxServices

/-! The bits of bytes, counted from the front: the highest bit of the first
byte is bit 0. -/

namespace Bits

def ofByte (byte : UInt8) (i : Nat) : Bool :=
  byte.toNat.testBit (7 - i)

def get (bytes : List UInt8) (i : Nat) : Bool :=
  ofByte (bytes.getD (i / 8) 0) (i % 8)

def Agree (left right : List UInt8) (count : Nat) : Prop :=
  ∀ i < count, get left i = get right i

instance (left right : List UInt8) (count : Nat) :
    Decidable (Agree left right count) :=
  inferInstanceAs (Decidable (∀ i < count, get left i = get right i))

theorem testBit_byte {i : Nat} (above : 8 ≤ i) (byte : UInt8) :
    byte.toNat.testBit i = false :=
  Nat.testBit_lt_two_pow (Nat.lt_of_lt_of_le byte.toNat_lt
    (Nat.pow_le_pow_right (by decide) above))

theorem byte_ext {left right : UInt8}
    (agree : ∀ i < 8, ofByte left i = ofByte right i) : left = right := by
  refine UInt8.toNat_inj.mp (Nat.eq_of_testBit_eq fun i => ?_)
  by_cases inside : i < 8
  · have same := agree (7 - i) (by omega)
    have back : 7 - (7 - i) = i := by omega
    rwa [ofByte, ofByte, back] at same
  · have above : 8 ≤ i := Nat.le_of_not_lt inside
    rw [testBit_byte above, testBit_byte above]

theorem masked_eq_iff {left right : UInt8} {count : Nat} (atMost : count ≤ 8) :
    (BitVec.ofNat 32 left.toNat &&& ((-1#32) <<< (8 - count)) =
      BitVec.ofNat 32 right.toNat &&& ((-1#32) <<< (8 - count))) ↔
      ∀ i < count, ofByte left i = ofByte right i := by
  have bits : ∀ byte : UInt8, ∀ i < 32,
      (BitVec.ofNat 32 byte.toNat &&& ((-1#32) <<< (8 - count))).getLsbD i =
        (byte.toNat.testBit i && decide (8 - count ≤ i)) := by
    intro byte i inside
    have ones : (-1#32).getLsbD (i - (8 - count)) = true := by
      rw [show (-1#32) = BitVec.allOnes 32 from rfl, BitVec.getLsbD_allOnes]
      exact decide_eq_true (by omega)
    rw [BitVec.getLsbD_and, BitVec.getLsbD_shiftLeft, ones,
      BitVec.getLsbD_ofNat]
    by_cases low : i < 8 - count
    · have cleared : ¬8 - count ≤ i := Nat.not_le_of_lt low
      rw [decide_eq_true low, decide_eq_false cleared]
      simp
    · simp [low, inside, Nat.le_of_not_lt low]
  constructor
  · intro same i inside
    have bit := congrArg (fun word => word.getLsbD (7 - i)) same
    rw [bits left _ (by omega), bits right _ (by omega)] at bit
    have high : decide (8 - count ≤ 7 - i) = true :=
      decide_eq_true (by omega)
    rwa [high, Bool.and_true, Bool.and_true] at bit
  · intro agree
    refine BitVec.eq_of_getLsbD_eq fun i inside => ?_
    rw [bits left i inside, bits right i inside]
    by_cases low : i < 8 - count
    · simp [Nat.not_le_of_lt low]
    · by_cases byte : i < 8
      · have same := agree (7 - i) (by omega)
        have back : 7 - (7 - i) = i := by omega
        rw [ofByte, ofByte, back] at same
        rw [same]
      · have above : 8 ≤ i := Nat.le_of_not_lt byte
        rw [testBit_byte above, testBit_byte above]

section Agree

variable {left right : List UInt8} {count : Nat}

theorem get_of_lt {i : Nat} (inside : i < 8) (bytes : List UInt8) (k : Nat) :
    get bytes (8 * k + i) = ofByte (bytes.getD k 0) i := by
  have byte : (8 * k + i) / 8 = k := by omega
  have bit : (8 * k + i) % 8 = i := by omega
  rw [get, byte, bit]

theorem agree_add_iff {k : Nat} (atMost : count ≤ 8) :
    Agree left right (8 * k + count) ↔
      Agree left right (8 * k) ∧
        ∀ i < count, ofByte (left.getD k 0) i = ofByte (right.getD k 0) i := by
  constructor
  · intro agree
    refine ⟨fun i inside => agree i (by omega), fun i inside => ?_⟩
    have same := agree (8 * k + i) (by omega)
    rwa [get_of_lt (by omega), get_of_lt (by omega)] at same
  · rintro ⟨before, last⟩ i inside
    by_cases earlier : i < 8 * k
    · exact before i earlier
    · have split : i = 8 * k + (i - 8 * k) := by omega
      rw [split, get_of_lt (by omega), get_of_lt (by omega)]
      exact last _ (by omega)

theorem agree_bytes_iff {k : Nat} (inLeft : k ≤ left.length)
    (inRight : k ≤ right.length) :
    Agree left right (8 * k) ↔ left.take k = right.take k := by
  induction k with
  | zero => simp [Agree]
  | succ k ih =>
      rw [Nat.mul_succ, agree_add_iff (Nat.le_refl 8), ih (by omega) (by omega),
        List.take_succ_eq_append_getElem (by omega),
        List.take_succ_eq_append_getElem (by omega),
        List.getD_eq_getElem _ _ (by omega), List.getD_eq_getElem _ _ (by omega)]
      constructor
      · rintro ⟨before, last⟩
        rw [before, byte_ext last]
      · intro same
        obtain ⟨before, last⟩ := List.append_inj same (by simp; omega)
        rw [(List.cons.inj last).1]
        exact ⟨before, fun _ _ => rfl⟩

end Agree

end Bits

end RatboxServices
