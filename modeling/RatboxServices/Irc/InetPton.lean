import RatboxServices.Irc.CString

namespace RatboxServices

open CString

/-! The address parsers of `cidr.c`. They write bytes into buffers of a fixed
size, through pointers that are indices here. -/

inductive OutOfBuffer
  | outside
  deriving DecidableEq, Repr

namespace Inet

def inaddrsz : Nat := 4

def in6addrsz : Nat := 16

def int16sz : Nat := 2

def peek (buf : List UInt8) (i : Nat) : Except OutOfBuffer UInt8 :=
  match buf[i]? with
  | some byte => .ok byte
  | none => .error .outside

def poke (buf : List UInt8) (i : Nat) (byte : UInt8) :
    Except OutOfBuffer (List UInt8) :=
  if i < buf.length then .ok (buf.set i byte) else .error .outside

/-- `memcpy` to an index. -/
def pokeAll (buf : List UInt8) (i : Nat) :
    List UInt8 → Except OutOfBuffer (List UInt8)
  | [] => .ok buf
  | byte :: bytes => do
      let buf ← poke buf i byte
      pokeAll buf (i + 1) bytes

/-- The locals of `inet_pton4`. What was in `tmp` before does not matter: a byte
is set to zero when `tp` comes to it. -/
structure Pton4 where
  tmp : List UInt8 := List.replicate inaddrsz 0
  tp : Nat := 0
  octets : Nat := 0
  sawDigit : Bool := false

/-- The loop of `inet_pton4`; `none` where it returns 0. -/
def pton4Loop : CString → Pton4 → Except OutOfBuffer (Option Pton4)
  | [], st => .ok (some st)
  | ch :: src, st =>
      if isDigit ch then do
        let new := (← peek st.tmp st.tp).toNat * 10 + (ch.toNat - 48)
        if 255 < new then .ok none
        else
          let tmp ← poke st.tmp st.tp (UInt8.ofNat new)
          if st.sawDigit then pton4Loop src { st with tmp := tmp }
          else if 4 < st.octets + 1 then .ok none
          else
            pton4Loop src { st with
              tmp := tmp, octets := st.octets + 1, sawDigit := true }
      else if ch = '.' ∧ st.sawDigit = true then
        if st.octets = 4 then .ok none
        else do
          let tmp ← poke st.tmp (st.tp + 1) 0
          pton4Loop src { st with
            tmp := tmp, tp := st.tp + 1, sawDigit := false }
      else .ok none

def pton4End (st : Option Pton4) : Option (List UInt8) :=
  match st with
  | none => none
  | some st => if st.octets < 4 then none else some st.tmp

/-- `inet_pton4`: the bytes put into `dst`, or `none` where it returns 0. -/
def inetPton4 (src : CString) : Except OutOfBuffer (Option (List UInt8)) := do
  let st ← pton4Loop src {}
  .ok (pton4End st)

/-- `strchr(xdigits, ch)`, as an index. -/
def xdigit (ch : Char) : Option Nat :=
  "0123456789abcdef".toList.idxOf? ch

/-- The locals of `inet_pton6`. -/
structure Pton6 where
  tmp : List UInt8 := List.replicate in6addrsz 0
  tp : Nat := 0
  colonp : Option Nat := none
  curtok : CString
  sawXdigit : Bool := false
  val : Nat := 0

/-- `*tp++ = val >> 8; *tp++ = val`. -/
def putGroup (st : Pton6) : Except OutOfBuffer Pton6 := do
  let tmp ← poke st.tmp st.tp (UInt8.ofNat (st.val >>> 8))
  let tmp ← poke tmp (st.tp + 1) (UInt8.ofNat st.val)
  .ok { st with tmp := tmp, tp := st.tp + 2 }

/-- The loop of `inet_pton6`; `none` where it returns 0. -/
def pton6Loop : CString → Pton6 → Except OutOfBuffer (Option Pton6)
  | [], st => .ok (some st)
  | c :: src, st =>
      let ch := asciiLower c
      match xdigit ch with
      | some digit =>
          let val := (st.val <<< 4) ||| digit
          if 0xffff < val then .ok none
          else pton6Loop src { st with val := val, sawXdigit := true }
      | none =>
          if ch = ':' then
            let st := { st with curtok := src }
            if !st.sawXdigit then
              if st.colonp.isSome then .ok none
              else pton6Loop src { st with colonp := some st.tp }
            else if src.isEmpty then .ok none
            else if in6addrsz < st.tp + int16sz then .ok none
            else do
              let st ← putGroup st
              pton6Loop src { st with sawXdigit := false, val := 0 }
          else if !src.isEmpty && ch == '.' then
            if st.tp + inaddrsz ≤ in6addrsz then do
              match ← inetPton4 st.curtok with
              | some quad =>
                  let tmp ← pokeAll st.tmp st.tp quad
                  .ok (some { st with
                    tmp := tmp, tp := st.tp + inaddrsz, sawXdigit := false })
              | none => .ok none
            else .ok none
          -- any other character is passed over
          else pton6Loop src st

/-- `for (i = 1; i <= n; i++)`, from some `i` on for so many turns. -/
def shiftLoop (colonp n : Nat) : Nat → Nat → List UInt8 →
    Except OutOfBuffer (List UInt8)
  | 0, _, tmp => .ok tmp
  | turns + 1, i, tmp => do
      let byte ← peek tmp (colonp + (n - i))
      let tmp ← poke tmp (in6addrsz - i) byte
      let tmp ← poke tmp (colonp + (n - i)) 0
      shiftLoop colonp n turns (i + 1) tmp

def pton6Group (st : Pton6) : Except OutOfBuffer (Option Pton6) :=
  if st.sawXdigit then
    if in6addrsz < st.tp + int16sz then .ok none
    else do
      let st ← putGroup st
      .ok (some st)
  else .ok (some st)

/-- The zeros of the `::`. -/
def pton6Shift (st : Pton6) : Except OutOfBuffer (Option (List UInt8)) :=
  match st.colonp with
  | some colonp =>
      if st.tp = in6addrsz then .ok none
      else do
        let n := st.tp - colonp
        let tmp ← shiftLoop colonp n n 1 st.tmp
        .ok (some tmp)
  | none =>
      if st.tp ≠ in6addrsz then .ok none else .ok (some st.tmp)

def pton6Run (src : CString) : Except OutOfBuffer (Option (List UInt8)) := do
  match ← pton6Loop src { curtok := src } with
  | none => .ok none
  | some st =>
      match ← pton6Group st with
      | none => .ok none
      | some st => pton6Shift st

/-- `inet_pton6`: the bytes put into `dst`, or `none` where it returns 0. -/
def inetPton6 (src : CString) : Except OutOfBuffer (Option (List UInt8)) :=
  match src with
  | ':' :: ':' :: rest => pton6Run (':' :: rest)
  | ':' :: _ => .ok none
  | _ => pton6Run src

end Inet

end RatboxServices
