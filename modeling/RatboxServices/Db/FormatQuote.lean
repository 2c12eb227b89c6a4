import RatboxServices.Db.Format

namespace RatboxServices

open CString

/-! String literals of SQL, and what `%Q` between two quotes prints. -/

namespace Sql

def closeLiteral : CString → Option (CString × CString)
  | [] => none
  | '\'' :: '\'' :: rest =>
      (closeLiteral rest).map fun read => ('\'' :: read.1, read.2)
  | '\'' :: rest => some ([], rest)
  | c :: rest => (closeLiteral rest).map fun read => (c :: read.1, read.2)

def readLiteral : CString → Option (CString × CString)
  | '\'' :: rest => closeLiteral rest
  | _ => none

example : readLiteral "'it''s', 1".toList =
    some ("it's".toList, ", 1".toList) := by
  decide

end Sql

namespace Format

open Expansion

def literal (text : CString) : CString :=
  '\'' :: doubleQuotes text ++ ['\'']

theorem closeLiteral_cons {c : Char} (other : c ≠ '\'') (rest : CString) :
    Sql.closeLiteral (c :: rest) =
      (Sql.closeLiteral rest).map fun read => (c :: read.1, read.2) := by
  rw [Sql.closeLiteral.eq_def]
  split
  · contradiction
  · rename_i same
    exact absurd (List.cons.inj same).1 other
  · rename_i same
    exact absurd (List.cons.inj same).1 other
  · rename_i same
    obtain ⟨rfl, rfl⟩ := List.cons.inj same
    rfl

theorem closeLiteral_end {rest : CString} (stops : rest.head? ≠ some '\'') :
    Sql.closeLiteral ('\'' :: rest) = some ([], rest) := by
  cases rest with
  | nil => rfl
  | cons c others =>
      have other : c ≠ '\'' := by
        rintro rfl
        exact stops rfl
      rw [Sql.closeLiteral.eq_def]
      split
      · contradiction
      · rename_i same
        obtain ⟨_, same⟩ := List.cons.inj same
        exact absurd (List.cons.inj same).1 other
      · rename_i same
        obtain ⟨_, rfl⟩ := List.cons.inj same
        rfl
      · rename_i different same
        exact absurd (List.cons.inj same).1.symm (fun equal => different equal)

theorem closeLiteral_doubleQuotes (text : CString) {rest : CString}
    (stops : rest.head? ≠ some '\'') :
    Sql.closeLiteral (doubleQuotes text ++ '\'' :: rest) = some (text, rest) := by
  induction text with
  | nil => exact closeLiteral_end stops
  | cons c text ih =>
      rw [doubleQuotes]
      split
      case isTrue quote =>
        subst quote
        show (Sql.closeLiteral (doubleQuotes text ++ '\'' :: rest)).map _ = _
        rw [ih]
        rfl
      case isFalse other =>
        rw [List.cons_append, closeLiteral_cons other, ih]
        rfl

theorem readLiteral_literal (text : CString) {rest : CString}
    (stops : rest.head? ≠ some '\'') :
    Sql.readLiteral (literal text ++ rest) = some (text, rest) := by
  have shape : literal text ++ rest =
      '\'' :: (doubleQuotes text ++ '\'' :: rest) := by
    simp [literal]
  rw [shape]
  exact closeLiteral_doubleQuotes text stops

theorem writeAll_char {maxbytes : Nat} {dest : CString} {ch : Char}
    (room : dest.length < maxbytes) (plain : ch ≠ '%') (format : CString)
    (args : List FormatArg) :
    writeAll maxbytes (ch :: format) args dest =
      writeAll maxbytes format args (dest ++ [ch]) := by
  rw [writeAll.eq_def]
  exact (if_neg (by omega)).trans (if_neg plain)

section Turn

variable {maxbytes : Nat} {dest : CString} (room : dest.length + 1 < maxbytes)
  (format : CString) (args : List FormatArg) (text : CString)

include room

theorem writeAll_quoted :
    writeAll maxbytes ("'%Q'".toList ++ format) (.str (some text) :: args)
        dest =
      (write maxbytes (dest ++ ['\'']) (expandQuoted text)).bind
        (writeAll maxbytes ('\'' :: format) args) := by
  show writeAll maxbytes ('\'' :: '%' :: 'Q' :: '\'' :: format) _ dest = _
  have started : (dest ++ ['\'']).length = dest.length + 1 := by simp
  rw [writeAll_char (by omega) (by decide), writeAll, if_neg (by omega),
    if_pos rfl, convert_eq]
  · rfl
  · intro same _
    exact absurd same (by decide)
  · intro _ _ same _
    exact absurd same (by decide)

theorem writeAll_literal (short : text.length < 1024)
    (fits : (dest ++ literal text).length ≤ maxbytes) :
    writeAll maxbytes ("'%Q'".toList ++ format) (.str (some text) :: args)
        dest =
      writeAll maxbytes format args (dest ++ literal text) := by
  have expanded : expandQuoted text = print (doubleQuotes text) := by
    rw [expandQuoted, if_pos short, doubleQuotes_eq]
  have length : (dest ++ literal text).length =
      (dest ++ ['\''] ++ doubleQuotes text).length + 1 := by
    simp [literal]
    omega
  have kept : write maxbytes (dest ++ ['\'']) (print (doubleQuotes text)) =
      .ok (dest ++ ['\''] ++ doubleQuotes text) :=
    congrArg Except.ok (List.take_of_length_le (by
      show (dest ++ ['\''] ++ doubleQuotes text).length ≤ maxbytes
      omega))
  rw [writeAll_quoted room, expanded, kept]
  show writeAll maxbytes ('\'' :: format) args _ = _
  rw [writeAll_char (by omega) (by decide)]
  simp [literal]

theorem writeAll_long (long : 1024 ≤ text.length) :
    writeAll maxbytes ("'%Q'".toList ++ format) (.str (some text) :: args)
        dest = .error .undefined := by
  have expanded : expandQuoted text = fail .undefined := by
    rw [expandQuoted, if_neg (by omega)]
  have stopped : write maxbytes (dest ++ ['\'']) (fail .undefined) =
      .error .undefined := by
    refine if_pos ?_
    simpa [fail] using room
  rw [writeAll_quoted room, expanded, stopped]
  rfl

end Turn

/-- A string that `%Q` prints between quotes, with the rest of the format behind
it: if it fits, the text is one literal that has the string as its value, and a
string of 1024 bytes or more is refused without reading a null pointer. -/
def QuotesSafely (maxbytes : Nat) (dest format : CString)
    (args : List FormatArg) (text : CString) : Prop :=
  ((dest ++ literal text).length ≤ maxbytes → ∃ quoted : CString,
    writeAll maxbytes ("'%Q'".toList ++ format) (.str (some text) :: args)
        dest = writeAll maxbytes format args (dest ++ quoted) ∧
    ∀ rest : CString, rest.head? ≠ some '\'' →
      Sql.readLiteral (quoted ++ rest) = some (text, rest)) ∧
  (1024 ≤ text.length →
    writeAll maxbytes ("'%Q'".toList ++ format) (.str (some text) :: args)
      dest ≠ .error .undefined)

/-- At any place of any format where the conversion is come to, that is so for
the strings of less than 1024 bytes. -/
theorem quotesSafely_iff {maxbytes : Nat} {dest : CString}
    (room : dest.length + 1 < maxbytes) (format : CString)
    (args : List FormatArg) (text : CString) :
    QuotesSafely maxbytes dest format args text ↔ text.length < 1024 := by
  constructor
  · intro safe
    by_contra long
    have atLeast : 1024 ≤ text.length := by omega
    exact safe.2 atLeast (writeAll_long room format args text atLeast)
  · intro short
    refine ⟨fun fits => ?_, fun long => by omega⟩
    exact ⟨literal text, writeAll_literal room format args text short fits,
      fun rest stops => readLiteral_literal text stops⟩

theorem quotesSafely_iff_name :
    QuotesSafely 2047 "SELECT id FROM cf_channel WHERE chname=".toList
      " LIMIT %u".toList [.uint 1] "#it's''".toList :=
  (quotesSafely_iff (by decide) _ _ _).mpr (by decide)

/-- 1024 letters have no quoted form, and are printed all the same. -/
theorem not_quotesSafely_long : ¬∀ text : CString, '\x00' ∉ text →
    QuotesSafely 2047 [] [] [] text := by
  intro all
  have proper : '\x00' ∉ List.replicate 1024 'a' := by
    intro listed
    exact absurd (List.eq_of_mem_replicate listed) (by decide)
  have short := (quotesSafely_iff (by decide) [] [] _).mp
    (all (List.replicate 1024 'a') proper)
  rw [List.length_replicate] at short
  exact absurd short (by decide)

end Format

end RatboxServices
