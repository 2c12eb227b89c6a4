import Mathlib.Data.List.Basic

namespace RatboxServices

/-! C strings as lists of characters without the terminator. A character
stands for the unsigned byte with its code. -/

abbrev CString := List Char

instance : LawfulBEq CString := inferInstance

namespace CString

/-- `ToLower`: the RFC1459 table, where `[\]^` are the capitals of `{|}~`. -/
def toLower (c : Char) : Char :=
  if 'A' ≤ c ∧ c ≤ '^' then Char.ofNat (c.toNat + 32) else c

/-- `ToUpper`. -/
def toUpper (c : Char) : Char :=
  if 'a' ≤ c ∧ c ≤ '~' then Char.ofNat (c.toNat - 32) else c

/-- The C library's `tolower` in the C locale. -/
def asciiLower (c : Char) : Char :=
  if 'A' ≤ c ∧ c ≤ 'Z' then Char.ofNat (c.toNat + 32) else c

/-- `irccmp(left, right) == 0`. -/
def irccmp (left right : CString) : Bool :=
  left.map toUpper == right.map toUpper

/-- `strcasecmp(left, right) == 0`. -/
def strcasecmp (left right : CString) : Bool :=
  left.map asciiLower == right.map asciiLower

def isDigit (c : Char) : Bool :=
  decide ('0' ≤ c ∧ c ≤ '9')

def isLetter (c : Char) : Bool :=
  decide (('A' ≤ c ∧ c ≤ 'Z') ∨ ('a' ≤ c ∧ c ≤ 'z'))

/-- `IsChanPrefix`. -/
def isChanPrefix (c : Char) : Bool :=
  c == '#' || c == '&'

/-- `IsBanChar`. -/
def isBanChar (c : Char) : Bool :=
  c == '!' || c == '*' || decide ('-' ≤ c ∧ c ≤ ':') ||
    decide ('?' ≤ c ∧ c ≤ '~')

/-- The test `f(*p)` on a string's first byte; the terminator fails it. -/
def firstIs (test : Char → Bool) : CString → Bool
  | [] => false
  | c :: _ => test c

/-- `rb_strlcpy` into a buffer of `size` bytes. -/
def strlcpy (size : Nat) (source : CString) : CString :=
  source.take (size - 1)

/-- The string cut at the first occurrence of a character, with what follows
it: `strchr` with the terminator written over the hit. -/
def cut (c : Char) (source : CString) : CString × Option CString :=
  match source.dropWhile (· != c) with
  | [] => (source, none)
  | _ :: rest => (source.takeWhile (· != c), some rest)

/-- `strstr`: the string from the first occurrence on. -/
def strstr (needle : CString) : CString → Option CString
  | [] => if needle.isEmpty then some [] else none
  | c :: rest =>
      if needle.isPrefixOf (c :: rest) then some (c :: rest)
      else strstr needle rest

/-- `valid_sid`. -/
def validSid : CString → Bool
  | [first, second, third] =>
      isDigit first && (isDigit second || isLetter second) &&
        (isDigit third || isLetter third)
  | _ => false

def isSpace (c : Char) : Bool :=
  c == ' ' || (decide ('\t' ≤ c ∧ c ≤ '\r'))

/-- The digits `strtol` reads, as the number read so far. -/
def digits (value : Nat) : CString → Nat × CString
  | [] => (value, [])
  | c :: rest =>
      if isDigit c then digits (value * 10 + (c.toNat - 48)) rest
      else (value, c :: rest)

def longMax : Int := 9223372036854775807

def longMin : Int := -9223372036854775808

/-- `strtol` in base ten with the rest of the string, saturating as the C
library does. Without digits it returns 0 and the whole string. -/
def strtol (source : CString) : Int × CString :=
  let body := source.dropWhile isSpace
  let negative := body.head? == some '-'
  let unsigned :=
    if negative || body.head? == some '+' then body.drop 1 else body
  if firstIs isDigit unsigned then
    let (value, rest) := digits 0 unsigned
    let signed : Int := if negative then -value else value
    (max longMin (min longMax signed), rest)
  else (0, source)

/-- `atol`. -/
def atol (source : CString) : Int :=
  (strtol source).1

/-- `atoi`: the C library converts through `long` to a 32-bit `int`. -/
def atoi (source : CString) : Int :=
  (atol source).bmod 4294967296

def hashStep (h : UInt32) (c : Char) : UInt32 :=
  (h <<< 4) - (h + UInt32.ofNat (toLower c).toNat)

/-- `hash_name`. -/
def hashName (name : CString) : Nat :=
  (name.foldl hashStep 0).toNat % 65536

/-- `hash_channel`, which reads at most 29 characters. -/
def hashChannel (name : CString) : Nat :=
  ((name.take 29).foldl hashStep 0).toNat % 16384

end CString

end RatboxServices
