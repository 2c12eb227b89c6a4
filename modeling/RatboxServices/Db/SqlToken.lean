import Mathlib.Algebra.GroupWithZero.Nat
import RatboxServices.Irc.InetText
import RatboxServices.Irc.Line

namespace RatboxServices

open CString

/-! The tokens that SQLite reads in a statement (`sqlite3/src/tokenize.c`), and
which texts can be cut into tokens before what follows is known. -/

inductive SqlKind
  | space | comment | minus | lp | rp | semi | plus | star | slash | rem
  | eq | le | ne | lshift | lt | ge | rshift | gt | illegal | bitor | concat
  | comma | bitand | bitnot | string | dot | integer | float | id | variable
  | register | blob
  /-- A keyword or a name, which `keywordCode` tells from the text. -/
  | word
  deriving DecidableEq, Repr

namespace Sql

/-- `z[i]`, where the terminator is read behind the text. -/
def charAt (z : CString) (i : Nat) : Char :=
  z.getD i '\x00'

/-- `IdChar`. -/
def isIdChar (c : Char) : Bool :=
  decide (128 ≤ c.toNat) || c == '$' || isDigit c ||
    decide ('A' ≤ c ∧ c ≤ 'Z') || c == '_' || decide ('a' ≤ c ∧ c ≤ 'z')

def span (test : Char → Bool) (z : CString) : Nat :=
  (z.takeWhile test).length

def closingQuote (delim : Char) : CString → Option Nat
  | [] => none
  | c :: z =>
      if c = delim then
        match z with
        | d :: rest =>
            if d = delim then (closingQuote delim rest).map (· + 2)
            else some 1
        | [] => some 1
      else (closingQuote delim z).map (· + 1)

/-- `e`, `E` and a number at `z[i]`. -/
def hasExponent (z : CString) (i : Nat) : Bool :=
  (charAt z i == 'e' || charAt z i == 'E') &&
    (isDigit (charAt z (i + 1)) ||
      (charAt z (i + 1) == '+' || charAt z (i + 1) == '-') &&
        isDigit (charAt z (i + 2)))

def number (z : CString) : SqlKind × Nat :=
  let i := span isDigit z
  let (kind, i) :=
    if charAt z i = '.' then
      (.float, i + 1 + span isDigit (z.drop (i + 1)))
    else (SqlKind.integer, i)
  if hasExponent z i then (.float, i + 2 + span isDigit (z.drop (i + 2)))
  else (kind, i)

/-- The loop of a `/*` comment from its third character on. -/
def commentEnd : CString → Nat
  | [] => 0
  | '*' :: '/' :: _ => 2
  | _ :: z => commentEnd z + 1

def variableEnd : Bool → CString → Bool × Nat
  | named, [] => (!named, 0)
  | named, c :: z =>
      if isIdChar c then
        let (bad, n) := variableEnd true z
        (bad, n + 1)
      else if c = '(' ∧ named then
        let n := span (fun c => !isSpace c && c != ')') z
        if charAt z n = ')' then (false, n + 2) else (true, n + 1)
      else if c = ':' then
        match z with
        | ':' :: rest =>
            let (bad, n) := variableEnd named rest
            (bad, n + 2)
        | _ => (!named, 0)
      else (!named, 0)

/-- The case of `x'…'`, from the quote on. -/
def blob (delim : Char) (z : CString) : SqlKind × Nat :=
  let n := span Inet.isHexDigit z
  if charAt z n = delim then
    (if n % 2 = 1 then .illegal else .blob, n + 3)
  else if n < z.length then (.illegal, n + 2)
  else (.blob, n + 2)

/-- The branches of `getToken` on the first character. -/
def tokenAt (c : Char) (z : CString) : SqlKind × Nat :=
  let next := charAt z 0
  match c with
  | ' ' | '\t' | '\n' | '\x0c' | '\r' => (.space, 1 + span isSpace z)
  | '-' =>
      if next = '-' then (.comment, 1 + span (· != '\n') z)
      else (.minus, 1)
  | '(' => (.lp, 1)
  | ')' => (.rp, 1)
  | ';' => (.semi, 1)
  | '+' => (.plus, 1)
  | '*' => (.star, 1)
  | '/' =>
      if next ≠ '*' ∨ z.length < 2 then (.slash, 1)
      else (.comment, 2 + commentEnd (z.drop 1))
  | '%' => (.rem, 1)
  | '=' => (.eq, if next = '=' then 2 else 1)
  | '<' =>
      if next = '=' then (.le, 2)
      else if next = '>' then (.ne, 2)
      else if next = '<' then (.lshift, 2)
      else (.lt, 1)
  | '>' =>
      if next = '=' then (.ge, 2)
      else if next = '>' then (.rshift, 2)
      else (.gt, 1)
  | '!' => if next = '=' then (.ne, 2) else (.illegal, 2)
  | '|' => if next = '|' then (.concat, 2) else (.bitor, 1)
  | ',' => (.comma, 1)
  | '&' => (.bitand, 1)
  | '~' => (.bitnot, 1)
  | '`' | '\'' | '"' =>
      match closingQuote c z with
      | some n => (.string, 1 + n)
      | none => (.illegal, 1 + z.length)
  | '.' => if isDigit next then number (c :: z) else (.dot, 1)
  | '[' =>
      let n := span (· != ']') z
      (.id, if n < z.length then n + 2 else n + 1)
  | '?' => (.variable, 1 + span isDigit z)
  | '#' =>
      if isDigit next then (.register, 1 + span isDigit z)
      else
        let (bad, n) := variableEnd false z
        (if bad then .illegal else .variable, 1 + n)
  | '$' | '@' | ':' =>
      let (bad, n) := variableEnd false z
      (if bad then .illegal else .variable, 1 + n)
  | _ =>
      if isDigit c then number (c :: z)
      else if (c = 'x' ∨ c = 'X') ∧ (next = '\'' ∨ next = '"') then
        blob next (z.drop 1)
      else if isIdChar c then (.word, 1 + span isIdChar z)
      else (.illegal, 1)

/-- `getToken`: the kind of the first token and its length. -/
def getToken : CString → SqlKind × Nat
  | [] => (.illegal, 1)
  | c :: z => tokenAt c z

structure Token where
  kind : SqlKind
  text : CString
  deriving DecidableEq, Repr

def passOn (kind : SqlKind) (text : CString) : Option (List Token) :=
  match kind with
  | .illegal => none
  | .space => some []
  | .comment => some []
  | _ => some [⟨kind, text⟩]

/-- The loop of `sqlite3RunParser`, with steps to spare. -/
def readTokens : Nat → CString → Option (List Token)
  | _, [] => some []
  | 0, _ :: _ => none
  | fuel + 1, c :: z => do
      let (kind, n) := getToken (c :: z)
      let first ← passOn kind ((c :: z).take n)
      let rest ← readTokens fuel ((c :: z).drop n)
      some (first ++ rest)

def tokens (sql : CString) : Option (List Token) :=
  readTokens sql.length sql

example : tokens "x='it''s' AND y<=1.5e3".toList =
    some [⟨.word, "x".toList⟩, ⟨.eq, "=".toList⟩,
      ⟨.string, "'it''s'".toList⟩, ⟨.word, "AND".toList⟩,
      ⟨.word, "y".toList⟩, ⟨.le, "<=".toList⟩,
      ⟨.float, "1.5e3".toList⟩] := by
  decide +kernel

end Sql

end RatboxServices
