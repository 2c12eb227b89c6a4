import RatboxServices.Irc.InetPton
import RatboxServices.Lib.Numeral
import RatboxServices.Lib.Split

namespace RatboxServices

open CString

namespace Inet

/-! Dotted quads, and that `inet_pton4` reads these and no other strings. -/

theorem peek_append {before after : List UInt8} (byte : UInt8) :
    peek (before ++ byte :: after) before.length = .ok byte := by
  simp [peek]

theorem poke_append {before after : List UInt8} (old byte : UInt8) :
    poke (before ++ old :: after) before.length byte =
      .ok (before ++ byte :: after) := by
  rw [poke, if_pos (by simp)]
  simp

theorem pokeAll_append {before old after bytes : List UInt8}
    (room : old.length = bytes.length) :
    pokeAll (before ++ (old ++ after)) before.length bytes =
      .ok (before ++ (bytes ++ after)) := by
  induction bytes generalizing before old with
  | nil => rw [List.length_eq_zero_iff.mp room, pokeAll]
  | cons byte bytes ih =>
      cases old with
      | nil => cases room
      | cons first old =>
          have next := @ih (before ++ [byte]) old (Nat.succ.inj room)
          rw [List.length_append, List.length_singleton] at next
          rw [pokeAll, List.cons_append, poke_append]
          show pokeAll (before ++ byte :: (old ++ after)) _ bytes = _
          simpa using next

def digitValue (c : Char) : Nat :=
  c.toNat - 48

structure IsOctet (text : CString) (byte : UInt8) : Prop where
  given : text ≠ []
  digits : ∀ c ∈ text, isDigit c = true
  value : numeral 10 0 (text.map digitValue) = byte.toNat

structure IsDottedQuad (source : CString) (bytes : List UInt8) : Prop where
  four : bytes.length = 4
  octets : List.Forall₂ IsOctet (source.splitOn '.') bytes

def readOctet (cur : Option Nat) : CString → Option Nat
  | [] => cur
  | c :: text =>
      if isDigit c then
        let new := cur.getD 0 * 10 + digitValue c
        if 255 < new then none else readOctet (some new) text
      else none

def readOctets : List CString → List UInt8 → Option Nat → Option (List UInt8)
  | [], _, _ => none
  | text :: more, out, cur =>
      match readOctet cur text with
      | none => none
      | some value =>
          if more = [] then
            if out.length = 3 then some (out ++ [UInt8.ofNat value]) else none
          else if out.length = 3 then none
          else readOctets more (out ++ [UInt8.ofNat value]) none

def Pton4.of (out : List UInt8) (cur : Option Nat) : Pton4 where
  tmp := out ++ UInt8.ofNat (cur.getD 0) :: List.replicate (3 - out.length) 0
  tp := out.length
  octets := out.length + if cur.isSome then 1 else 0
  sawDigit := cur.isSome

theorem pton4Loop_digit {c : Char} (digit : isDigit c = true) (src : CString)
    {out : List UInt8} {cur : Option Nat} (few : out.length ≤ 3)
    (small : cur.getD 0 ≤ 255) :
    pton4Loop (c :: src) (.of out cur) =
      if 255 < cur.getD 0 * 10 + digitValue c then .ok none
      else pton4Loop src (.of out (some (cur.getD 0 * 10 + digitValue c))) := by
  have read : peek (Pton4.of out cur).tmp (Pton4.of out cur).tp =
      .ok (UInt8.ofNat (cur.getD 0)) := peek_append _
  have byte : (UInt8.ofNat (cur.getD 0)).toNat = cur.getD 0 :=
    UInt8.toNat_ofNat_of_lt' (Nat.lt_succ_of_le small)
  have wrote : poke (Pton4.of out cur).tmp (Pton4.of out cur).tp
      (UInt8.ofNat (cur.getD 0 * 10 + digitValue c)) =
        .ok (Pton4.of out (some (cur.getD 0 * 10 + digitValue c))).tmp :=
    poke_append _ _
  rw [pton4Loop, if_pos digit, read]
  show (if 255 < (UInt8.ofNat (cur.getD 0)).toNat * 10 + digitValue c
    then _ else _) = _
  rw [byte]
  split
  case isTrue large => rfl
  case isFalse fits =>
    rw [show (c.toNat - 48) = digitValue c from rfl, wrote]
    show (if (Pton4.of out cur).sawDigit = true then _ else _) = _
    cases cur with
    | some value => rfl
    | none =>
        have room : ¬4 < (Pton4.of out none).octets + 1 := by
          show ¬4 < out.length + 0 + 1
          omega
        exact (if_neg room)

theorem pton4Loop_dot (src : CString) {out : List UInt8} (value : Nat)
    (few : out.length ≤ 3) :
    pton4Loop ('.' :: src) (.of out (some value)) =
      if out.length = 3 then .ok none
      else pton4Loop src (.of (out ++ [UInt8.ofNat value]) none) := by
  have octets : (Pton4.of out (some value)).octets = out.length + 1 := rfl
  rw [pton4Loop, if_neg (by decide), if_pos ⟨rfl, rfl⟩, octets]
  by_cases last : out.length = 3
  · rw [if_pos last, if_pos (by omega)]
  · have left : 3 - out.length = 3 - (out.length + 1) + 1 := by omega
    have wrote : poke (Pton4.of out (some value)).tmp
        ((Pton4.of out (some value)).tp + 1) 0 =
          .ok (Pton4.of (out ++ [UInt8.ofNat value]) none).tmp := by
      have next := @poke_append (out ++ [UInt8.ofNat value])
        (List.replicate (3 - (out.length + 1)) 0) 0 0
      simp only [List.length_append, List.length_singleton,
        List.append_assoc, List.singleton_append] at next
      unfold Pton4.of
      simp only [left, List.replicate_succ, List.length_append,
        List.length_singleton, List.append_assoc, List.singleton_append]
      exact next
    rw [if_neg last, if_neg (by omega), wrote]
    show pton4Loop src _ = pton4Loop src _
    unfold Pton4.of
    simp

theorem pton4Loop_other {c : Char} (noDigit : isDigit c = false)
    (src : CString) {st : Pton4} (noDot : ¬(c = '.' ∧ st.sawDigit = true)) :
    pton4Loop (c :: src) st = .ok none := by
  rw [pton4Loop, noDigit, if_neg Bool.false_ne_true, if_neg noDot]

theorem pton4Loop_eq (source : CString) {out : List UInt8} {cur : Option Nat}
    (few : out.length ≤ 3) (small : cur.getD 0 ≤ 255) :
    (pton4Loop source (.of out cur)).map pton4End =
      .ok (readOctets (source.splitOn '.') out cur) := by
  induction source generalizing out cur with
  | nil =>
      cases cur with
      | none =>
          have short : (Pton4.of out none).octets < 4 := by
            show out.length + 0 < 4
            omega
          have ended : pton4End (some (Pton4.of out none)) = none :=
            if_pos short
          exact congrArg Except.ok ended
      | some value =>
          have octets : (Pton4.of out (some value)).octets = out.length + 1 :=
            rfl
          show Except.ok (if _ then _ else _) = _
          rw [List.splitOn_nil, readOctets, octets]
          simp only [readOctet, if_true]
          by_cases last : out.length = 3
          · rw [if_pos last, if_neg (by omega)]
            simp [Pton4.of, last]
          · rw [if_neg last, if_pos (by omega)]
  | cons c src ih =>
      obtain ⟨text, more, split⟩ :=
        List.exists_cons_of_ne_nil (List.splitOn_ne_nil '.' src)
      cases digit : isDigit c with
      | true =>
          have other : c ≠ '.' := by
            rintro rfl
            exact absurd digit (by decide)
          have parts : (c :: src).splitOn '.' = (c :: text) :: more :=
            Split.splitOn_cons_of_ne other split
          rw [pton4Loop_digit digit src few small, parts, readOctets, readOctet,
            if_pos digit]
          dsimp only
          by_cases large : 255 < cur.getD 0 * 10 + digitValue c
          · rw [if_pos large, if_pos large]
            rfl
          · rw [if_neg large, if_neg large, ih few (by simpa using large),
              split, readOctets]
      | false =>
          by_cases dot : c = '.'
          · subst dot
            have parts : ('.' :: src).splitOn '.' = [] :: text :: more := by
              rw [Split.splitOn_cons_self, split]
            rw [parts, readOctets, readOctet]
            cases cur with
            | none => rw [pton4Loop_other digit src (by simp [Pton4.of])]; rfl
            | some value =>
                rw [pton4Loop_dot src value few]
                dsimp only
                rw [if_neg (List.cons_ne_nil text more)]
                by_cases last : out.length = 3
                · rw [if_pos last, if_pos last]
                  rfl
                · rw [if_neg last, if_neg last, ← split]
                  exact ih (by simp; omega) (by simp)
          · have parts : (c :: src).splitOn '.' = (c :: text) :: more := by
              rw [List.splitOn_cons_eq_if_modifyHead]
              simp [dot, split]
            rw [pton4Loop_other digit src (by simp [dot]), parts, readOctets,
              readOctet, digit, if_neg Bool.false_ne_true]
            rfl

theorem inetPton4_eq (source : CString) :
    inetPton4 source = .ok (readOctets (source.splitOn '.') [] none) := by
  have read := @pton4Loop_eq source [] none (by decide) (by decide)
  unfold inetPton4
  show (pton4Loop source (.of [] none)).bind (fun st => .ok (pton4End st)) = _
  rw [← read]
  cases pton4Loop source (.of [] none) with
  | error stop => rfl
  | ok st => rfl

theorem readOctet_some (text : CString) (init value : Nat) (small : init ≤ 255) :
    readOctet (some init) text = some value ↔
      (∀ c ∈ text, isDigit c = true) ∧
        numeral 10 init (text.map digitValue) = value ∧ value ≤ 255 := by
  induction text generalizing init with
  | nil =>
      simp only [readOctet, Option.some.injEq, List.not_mem_nil,
        List.map_nil, numeral_nil]
      constructor
      · rintro rfl
        exact ⟨nofun, rfl, small⟩
      · exact fun both => both.2.1
  | cons c text ih =>
      rw [readOctet, List.map_cons, numeral_cons, List.forall_mem_cons]
      cases digit : isDigit c with
      | false => simp
      | true =>
          dsimp only [Option.getD_some]
          rw [if_pos rfl]
          by_cases large : 255 < init * 10 + digitValue c
          · rw [if_pos large]
            constructor
            · nofun
            · rintro ⟨_, same, bound⟩
              have grows := @le_numeral 10 (init * 10 + digitValue c)
                (by decide) (text.map digitValue)
              omega
          · rw [if_neg large, ih _ (by omega)]
            simp

theorem readOctet_iff (text : CString) (value : Nat) :
    readOctet none text = some value ↔
      text ≠ [] ∧ (∀ c ∈ text, isDigit c = true) ∧
        numeral 10 0 (text.map digitValue) = value ∧ value ≤ 255 := by
  cases text with
  | nil => simp [readOctet]
  | cons c text =>
      have same : readOctet none (c :: text) = readOctet (some 0) (c :: text) :=
        rfl
      rw [same, readOctet_some _ _ _ (by decide)]
      simp

theorem isOctet_iff (text : CString) (byte : UInt8) :
    IsOctet text byte ↔ readOctet none text = some byte.toNat := by
  have small := byte.toNat_lt
  rw [readOctet_iff]
  constructor
  · rintro ⟨given, digits, value⟩
    exact ⟨given, digits, value, by omega⟩
  · rintro ⟨given, digits, value, _⟩
    exact ⟨given, digits, value⟩

theorem readOctets_iff (parts : List CString) (out bytes : List UInt8)
    (few : out.length ≤ 3) :
    readOctets parts out none = some bytes ↔
      ∃ read, List.Forall₂ IsOctet parts read ∧ bytes = out ++ read ∧
        bytes.length = 4 := by
  induction parts generalizing out with
  | nil =>
      constructor
      · nofun
      · rintro ⟨read, octets, rfl, four⟩
        cases octets
        rw [List.append_nil] at four
        omega
  | cons text more ih =>
      rw [readOctets]
      cases value : readOctet none text with
      | none =>
          constructor
          · nofun
          · rintro ⟨read, octets, _, _⟩
            cases octets with
            | cons octet _ =>
                rw [(isOctet_iff _ _).mp octet] at value
                cases value
      | some v =>
          dsimp only
          have small : v ≤ 255 := ((readOctet_iff _ _).mp value).2.2.2
          have byte : (UInt8.ofNat v).toNat = v :=
            UInt8.toNat_ofNat_of_lt' (Nat.lt_succ_of_le small)
          have only : ∀ b, IsOctet text b ↔ b = UInt8.ofNat v := by
            intro b
            rw [isOctet_iff, value, Option.some.injEq]
            constructor
            · intro same
              rw [same, UInt8.ofNat_toNat]
            · rintro rfl
              exact byte.symm
          by_cases end_ : more = []
          · subst end_
            rw [if_pos rfl]
            constructor
            · intro read
              split at read
              · rename_i three
                cases read
                exact ⟨[UInt8.ofNat v], .cons ((only _).mpr rfl) .nil, rfl,
                  by simp [three]⟩
              · cases read
            · rintro ⟨read, octets, rfl, four⟩
              cases octets with
              | cons octet rest =>
                  cases rest
                  rw [(only _).mp octet] at four ⊢
                  rw [if_pos (by simpa using four)]
          · rw [if_neg end_]
            by_cases three : out.length = 3
            · rw [if_pos three]
              constructor
              · nofun
              · rintro ⟨read, octets, rfl, four⟩
                cases octets with
                | cons octet rest =>
                    cases rest with
                    | nil => exact absurd rfl end_
                    | cons _ _ =>
                        simp at four
                        omega
            · rw [if_neg three, ih _ (by simp; omega)]
              constructor
              · rintro ⟨read, octets, rfl, four⟩
                exact ⟨UInt8.ofNat v :: read, .cons ((only _).mpr rfl) octets,
                  by simp, four⟩
              · rintro ⟨read, octets, rfl, four⟩
                cases octets with
                | cons octet rest =>
                    rw [(only _).mp octet] at four ⊢
                    exact ⟨_, rest, by simp, four⟩

/-- `inet_pton4` accepts the dotted quads, and gives their bytes. -/
theorem inetPton4_iff (source : CString) :
    ∃ result, inetPton4 source = .ok result ∧
      ∀ bytes, result = some bytes ↔ IsDottedQuad source bytes := by
  refine ⟨_, inetPton4_eq source, fun bytes => ?_⟩
  rw [readOctets_iff _ _ _ (by decide)]
  constructor
  · rintro ⟨read, octets, rfl, four⟩
    exact ⟨four, octets⟩
  · rintro ⟨four, octets⟩
    exact ⟨bytes, octets, rfl, four⟩

end Inet

end RatboxServices
