import RatboxServices.Db.Format

namespace RatboxServices

open CString

namespace Format

open Expansion

/-! The conversions of numbers: which entries of `IntTable` are read, how much
of `TempBuffer` is written, and for which numbers the decimal text comes out. -/

/-- The indices at which the loop over the quotients reads `IntTable`. -/
def tableIndices (num : Nat) : List Nat :=
  (num - num / tableMax * tableMax) ::
    if num / tableMax = 0 then [] else tableIndices (num / tableMax)
termination_by num
decreasing_by
  rename_i more
  simp only [tableMax] at more ⊢
  omega

/-- The bytes of `TempBuffer` that are written: the entries one behind another,
and the terminator of the last one. -/
def tempBytes (num : Nat) : Nat :=
  ((tableIndices num).map fun index => (intTable index).length).sum + 1

theorem tempBuffer_eq_flatMap (num : Nat) :
    tempBuffer num = (tableIndices num).flatMap intTable := by
  induction num using Nat.strongRecOn with
  | _ num ih =>
      rw [tempBuffer, tableIndices, List.flatMap_cons]
      split
      · rfl
      · rename_i more
        rw [ih (num / tableMax)]
        unfold tableMax at more ⊢
        omega

theorem tempBytes_eq (num : Nat) :
    tempBytes num = (tempBuffer num).length + 1 := by
  rw [tempBytes, tempBuffer_eq_flatMap, List.length_flatMap]

theorem tableIndices_lt (num : Nat) :
    ∀ index ∈ tableIndices num, index < tableMax := by
  induction num using Nat.strongRecOn with
  | _ num ih =>
      intro index listed
      rw [tableIndices] at listed
      obtain rfl | listed := List.mem_cons.mp listed
      · unfold tableMax
        omega
      · split at listed
        · cases listed
        · rename_i more
          refine ih (num / tableMax) ?_ index listed
          unfold tableMax at more ⊢
          omega

/-- Six entries and a terminator fit, and seven do not. -/
theorem tempBytes_le_iff (num : Nat) :
    tempBytes num ≤ tempBufMax ↔ num < 10 ^ 18 := by
  have groups := tempBuffer_length num 5
  have power : (1000 : Nat) ^ (5 + 1) = 10 ^ 18 := by decide
  rw [power] at groups
  rw [← groups, tempBytes_eq, tempBufMax]
  omega

def Converts (maxbytes : Nat) (dest : CString) (piece : Expansion)
    (num : Int) : Prop :=
  write maxbytes dest piece = .ok ((dest ++ formatInt num).take maxbytes)

section Turn

variable {maxbytes : Nat} {dest : CString} (room : dest.length < maxbytes)

include room

theorem converts_unsigned_iff (num : Nat) :
    Converts maxbytes dest (expandUnsigned num) num ↔ num < 10 ^ 18 := by
  have text : formatInt num = decimal num := by
    rw [formatInt, if_neg (by omega), Int.natAbs_natCast]
  unfold Converts expandUnsigned
  split
  case isTrue small =>
    rw [text]
    exact ⟨fun _ => small, fun _ => rfl⟩
  case isFalse large =>
    have stopped : write maxbytes dest (fail .undefined) = .error .undefined :=
      if_pos (by simpa [fail] using room)
    rw [stopped]
    constructor
    · intro impossible
      cases impossible
    · exact fun small => absurd small large

/-- A sign that fills the buffer hides what comes behind it. -/
theorem converts_signed_iff {least : Int} (num : Int) :
    Converts maxbytes dest (expandSigned least num) num ↔
      (num.natAbs < 10 ^ 18 ∧ num ≠ least) ∨
        num < 0 ∧ maxbytes ≤ dest.length + 1 := by
  unfold Converts expandSigned
  split
  case isTrue small => exact ⟨fun _ => Or.inl small, fun _ => rfl⟩
  case isFalse large =>
    split
    case isFalse nonneg =>
      have stopped : write maxbytes dest (fail .undefined) =
          .error .undefined := if_pos (by simpa [fail] using room)
      rw [stopped]
      constructor
      · intro impossible
        cases impossible
      · rintro (small | ⟨negative, _⟩)
        · exact absurd small large
        · exact absurd negative nonneg
    case isTrue negative =>
      have length : (dest ++ ['-']).length = dest.length + 1 := by simp
      by_cases full : maxbytes ≤ dest.length + 1
      · have cut : (dest ++ formatInt num).take maxbytes = dest ++ ['-'] := by
          rw [formatInt, if_pos negative, ← List.singleton_append,
            ← List.append_assoc, List.take_append_of_le_length (by omega),
            List.take_of_length_le (by omega)]
        have whole : (dest ++ ['-']).take maxbytes = dest ++ ['-'] :=
          List.take_of_length_le (by omega)
        have kept : write maxbytes dest ⟨['-'], some .undefined⟩ =
            .ok (dest ++ ['-']) := by
          have beyond : ¬(dest ++ ['-']).length < maxbytes := by omega
          exact (if_neg beyond).trans (congrArg Except.ok whole)
        rw [cut, kept]
        exact ⟨fun _ => Or.inr ⟨negative, full⟩, fun _ => rfl⟩
      · have left : (dest ++ ['-']).length < maxbytes := by omega
        have stopped : write maxbytes dest ⟨['-'], some .undefined⟩ =
            .error .undefined := if_pos left
        rw [stopped]
        constructor
        · intro impossible
          cases impossible
        · rintro (small | ⟨_, last⟩)
          · exact absurd small large
          · exact absurd last full

theorem converts_d_iff (value : Int32) (args : List FormatArg) :
    Converts maxbytes dest (convert 'd' (.int value :: args)) value.toInt ↔
      value.toInt ≠ -2147483648 ∨ maxbytes ≤ dest.length + 1 := by
  have low := Int32.le_toInt value
  have high := Int32.toInt_lt value
  rw [convert_eq]
  refine (converts_signed_iff room value.toInt).trans ?_
  omega

theorem converts_u (value : UInt32) (args : List FormatArg) :
    Converts maxbytes dest (convert 'u' (.uint value :: args)) value.toNat := by
  have small := UInt32.toNat_lt value
  rw [convert_eq]
  exact (converts_unsigned_iff room value.toNat).mpr (by omega)

theorem converts_ld_iff (value : Int64) (args : List FormatArg) :
    Converts maxbytes dest (convertLong 'd' (.long value :: args))
        value.toInt ↔
      value.toInt.natAbs < 10 ^ 18 ∨
        value.toInt < 0 ∧ maxbytes ≤ dest.length + 1 := by
  rw [convertLong_eq]
  refine (converts_signed_iff room value.toInt).trans ?_
  omega

theorem converts_lu_iff (value : UInt64) (args : List FormatArg) :
    Converts maxbytes dest (convertLong 'u' (.ulong value :: args))
      value.toNat ↔ value.toNat < 10 ^ 18 := by
  rw [convertLong_eq]
  exact converts_unsigned_iff room value.toNat

end Turn

/-- `int maxbytes = bytes - 1` of a `size_t`. -/
def maxBytes (bytes : Nat) : Int :=
  ((bytes : Int) - 1).bmod 4294967296

/-- `rs_vsnprintf` for a destination of any size: the loop runs while fewer
than `maxbytes` characters are written, and the terminator comes behind. -/
def rsVsnprintfInto (bytes : Nat) (format : CString)
    (args : List FormatArg) : Except FormatStop CString :=
  if 0 < maxBytes bytes then writeAll (maxBytes bytes).toNat format args []
  else .ok []

theorem maxBytes_le {bytes : Nat} (some_ : 0 < bytes) :
    maxBytes bytes ≤ (bytes : Int) - 1 := by
  have least : ((bytes : Int) - 1) % 4294967296 ≤ (bytes : Int) - 1 := by
    omega
  rw [maxBytes, Int.bmod_def]
  split
  · exact least
  · omega

theorem rsVsnprintfInto_bound (bytes : Nat) :
    (∀ format args buf, rsVsnprintfInto bytes format args = .ok buf →
      buf.length + 1 ≤ bytes) ↔ 0 < bytes := by
  constructor
  · intro all
    refine all [] [] [] ?_
    unfold rsVsnprintfInto
    split
    · rfl
    · rfl
  · intro some_ format args buf printed
    unfold rsVsnprintfInto at printed
    split at printed
    · rw [writeAll_eq format args (Nat.zero_le _)] at printed
      have short := write_length printed
      have most := maxBytes_le some_
      omega
    · cases printed
      exact some_

/-- What the conversions read and write, and when they print their number. -/
theorem conversions_iff (num bytes maxbytes : Nat) (dest : CString)
    (args : List FormatArg) (room : dest.length < maxbytes) :
    (∀ index ∈ tableIndices num, index < tableMax) ∧
      (tempBytes num ≤ tempBufMax ↔ num < 10 ^ 18) ∧
      (∀ value : Int32,
        Converts maxbytes dest (convert 'd' (.int value :: args))
            value.toInt ↔
          value.toInt ≠ -2147483648 ∨ maxbytes ≤ dest.length + 1) ∧
      (∀ value : UInt32,
        Converts maxbytes dest (convert 'u' (.uint value :: args))
          value.toNat) ∧
      (∀ value : Int64,
        Converts maxbytes dest (convertLong 'd' (.long value :: args))
            value.toInt ↔
          value.toInt.natAbs < 10 ^ 18 ∨
            value.toInt < 0 ∧ maxbytes ≤ dest.length + 1) ∧
      (∀ value : UInt64,
        Converts maxbytes dest (convertLong 'u' (.ulong value :: args))
          value.toNat ↔ value.toNat < 10 ^ 18) ∧
      ((∀ format args buf, rsVsnprintfInto bytes format args = .ok buf →
        buf.length + 1 ≤ bytes) ↔ 0 < bytes) := by
  refine ⟨tableIndices_lt num, tempBytes_le_iff num, ?_, ?_, ?_, ?_,
    rsVsnprintfInto_bound bytes⟩
  · exact fun value => converts_d_iff room value args
  · exact fun value => converts_u room value args
  · exact fun value => converts_ld_iff room value args
  · exact fun value => converts_lu_iff room value args

theorem conversions_iff_statement :
    Converts 2047 "hold='".toList
      (convertLong 'd' [.long (-1330000000)]) (-1330000000) := by
  obtain ⟨-, -, -, -, long, -⟩ :=
    conversions_iff 1330000000 2048 2047 "hold='".toList [] (by decide)
  exact (long (-1330000000)).mpr (by decide)

/-- Seven entries of the table are put into the twenty bytes, for which C has
no meaning. -/
theorem not_converts_large : tempBytes 1000000000000000000 = 22 ∧
    ¬∀ value : UInt64,
      Converts 2047 [] (convertLong 'u' [.ulong value]) value.toNat := by
  refine ⟨by simp [tempBytes, tableIndices, tableMax, intTable], ?_⟩
  intro all
  have small := (converts_lu_iff (by decide) _ []).mp
    (all 1000000000000000000)
  exact absurd small (by decide)

end Format

end RatboxServices
