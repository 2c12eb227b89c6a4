import Mathlib.Data.List.Basic

namespace RatboxServices

/-! The format strings of the C library's `printf`, and the arguments they
take. -/

namespace Printf

inductive Size
  | char
  | short
  | plain
  | long
  | longLong
  | intmax
  | sizeT
  | ptrdiff
  | longDouble
  deriving DecidableEq, Repr

def Size.text : Size → List Char
  | .char => ['h', 'h']
  | .short => ['h']
  | .plain => []
  | .long => ['l']
  | .longLong => ['l', 'l']
  | .intmax => ['j']
  | .sizeT => ['z']
  | .ptrdiff => ['t']
  | .longDouble => ['L']

inductive ArgType
  | integer (signed : Bool) (size : Size)
  | char (size : Size)
  | string (size : Size)
  | float (size : Size)
  | pointer
  | count (size : Size)
  deriving DecidableEq, Repr

inductive Amount
  | number (digits : List Char)
  | star
  deriving DecidableEq, Repr

def Amount.text : Amount → List Char
  | .number digits => digits
  | .star => ['*']

def Amount.args : Amount → List ArgType
  | .number _ => []
  | .star => [.integer true .plain]

structure Directive where
  flags : List Char
  width : Amount
  /-- With a dot before it. -/
  precision : Option Amount
  size : Size
  conv : Char
  deriving DecidableEq, Repr

namespace Directive

def precisionText (directive : Directive) : List Char :=
  match directive.precision with
  | none => []
  | some amount => '.' :: amount.text

def precisionArgs (directive : Directive) : List ArgType :=
  match directive.precision with
  | none => []
  | some amount => amount.args

def modifiers (directive : Directive) : List Char :=
  directive.flags ++ (directive.width.text ++
    (directive.precisionText ++ directive.size.text))

def text (directive : Directive) : List Char :=
  directive.modifiers ++ [directive.conv]

end Directive

def flagChars : List Char := ['-', '+', ' ', '#', '0']

def digitChars : List Char :=
  ['0', '1', '2', '3', '4', '5', '6', '7', '8', '9']

def floats : List Char := ['f', 'F', 'e', 'E', 'g', 'G', 'a', 'A']

def argType (conv : Char) (size : Size) : Option ArgType :=
  if conv ∈ ['d', 'i'] then
    if size = .longDouble then none else some (.integer true size)
  else if conv ∈ ['o', 'u', 'x', 'X'] then
    if size = .longDouble then none else some (.integer false size)
  else if conv ∈ floats then
    if size ∈ [.plain, .long, .longDouble] then some (.float size) else none
  else if conv = 'c' then
    if size ∈ [.plain, .long] then some (.char size) else none
  else if conv = 's' then
    if size ∈ [.plain, .long] then some (.string size) else none
  else if conv = 'p' then
    if size = .plain then some .pointer else none
  else if conv = 'n' then
    if size = .longDouble then none else some (.count size)
  else none

def Amount.Proper (first : List Char) : Amount → Prop
  | .number digits =>
      (∀ c ∈ digits, c ∈ digitChars) ∧ ∀ c ∈ digits.head?, c ∈ first
  | .star => True

structure Directive.Valid (directive : Directive) (type : ArgType) :
    Prop where
  flags : ∀ c ∈ directive.flags, c ∈ flagChars
  alternate : '#' ∈ directive.flags →
    directive.conv ∈ ['o', 'x', 'X'] ++ floats
  zero : '0' ∈ directive.flags →
    directive.conv ∈ ['d', 'i', 'o', 'u', 'x', 'X'] ++ floats
  width : directive.width.Proper
    ['1', '2', '3', '4', '5', '6', '7', '8', '9']
  precision : ∀ amount, directive.precision = some amount →
    amount.Proper digitChars ∧
      directive.conv ∈ ['d', 'i', 'o', 'u', 'x', 'X', 's'] ++ floats
  reads : argType directive.conv directive.size = some type

inductive Reads : List Char → List ArgType → Prop
  | nil : Reads [] []
  | literal {c : Char} {format : List Char} {types : List ArgType} :
      c ≠ '%' → Reads format types → Reads (c :: format) types
  | percent {format : List Char} {types : List ArgType} :
      Reads format types → Reads ('%' :: '%' :: format) types
  | directive {directive : Directive} {type : ArgType} {format : List Char}
      {types : List ArgType} :
      directive.Valid type → Reads format types →
      Reads ('%' :: (directive.text ++ format))
        (directive.width.args ++
          (directive.precisionArgs ++ type :: types))

end Printf

end RatboxServices
