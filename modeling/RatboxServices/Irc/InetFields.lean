import RatboxServices.Irc.InetQuad
import Mathlib.Tactic.IntervalCases

namespace RatboxServices

open CString

namespace Inet

/-! `inet_pton6` field by field: what it makes of the texts between the colons,
and that its loop over the characters and its buffer come to the same. -/

/-- What a text between two colons is read as: some digits make a group, and
none leave a gap. -/
inductive Field
  | refused
  | quad (bytes : List UInt8)
  | group (value : Option Nat)

def readField (last : Bool) : CString → Option Nat → CString → Field
  | [], cur, _ => .group cur
  | c :: text, cur, before =>
      match xdigit (asciiLower c) with
      | some digit =>
          if 0xffff < cur.getD 0 * 16 + digit then .refused
          else
            readField last text (some (cur.getD 0 * 16 + digit))
              (before ++ [c])
      | none =>
          if c = '.' ∧ ¬(last = true ∧ text = []) then
            if last then
              match readOctets ((before ++ c :: text).splitOn '.') [] none with
              | some bytes => .quad bytes
              | none => .refused
            else .refused
          else readField last text cur (before ++ [c])

def groupBytes (value : Nat) : List UInt8 :=
  [UInt8.ofNat (value >>> 8), UInt8.ofNat value]

def readFields : List CString → List UInt8 → Option Nat → Option Nat →
    CString → Option (List UInt8 × Option Nat)
  | [], _, _, _, _ => none
  | text :: more, out, gap, cur, before =>
      match readField more.isEmpty text cur before with
      | .refused => none
      | .quad bytes =>
          if out.length + 4 ≤ 16 then some (out ++ bytes, gap) else none
      | .group none =>
          if more = [] then some (out, gap)
          else if gap.isSome then none
          else readFields more out (some out.length) none []
      | .group (some value) =>
          if more = [[]] then none
          else if 16 < out.length + 2 then none
          else if more = [] then some (out ++ groupBytes value, gap)
          else readFields more (out ++ groupBytes value) gap none []

def fill : Option (List UInt8 × Option Nat) → Option (List UInt8)
  | none => none
  | some (out, some gap) =>
      if out.length = 16 then none
      else
        some (out.take gap ++
          (List.replicate (16 - out.length) 0 ++ out.drop gap))
  | some (out, none) => if out.length = 16 then some out else none

def Pton6.of (out : List UInt8) (gap cur : Option Nat) (curtok : CString) :
    Pton6 where
  tmp := out ++ List.replicate (16 - out.length) 0
  tp := out.length
  colonp := gap
  curtok := curtok
  sawXdigit := cur.isSome
  val := cur.getD 0

section Buffer

variable {out : List UInt8} {gap : Option Nat} {curtok : CString}

theorem putGroup_of (value : Nat) (room : out.length + 2 ≤ 16) :
    putGroup (.of out gap (some value) curtok) =
      .ok { Pton6.of (out ++ groupBytes value) gap none curtok with
        sawXdigit := true, val := value } := by
  have left : 16 - out.length = 16 - (out.length + 2) + 1 + 1 := by omega
  have first := @poke_append out
    (0 :: List.replicate (16 - (out.length + 2)) 0) 0
    (UInt8.ofNat (value >>> 8))
  have second := @poke_append (out ++ [UInt8.ofNat (value >>> 8)])
    (List.replicate (16 - (out.length + 2)) 0) 0 (UInt8.ofNat value)
  rw [List.length_append, List.length_singleton] at second
  simp only [List.append_assoc, List.singleton_append] at second
  unfold putGroup
  have tmp : (Pton6.of out gap (some value) curtok).tmp =
      out ++ 0 :: 0 :: List.replicate (16 - (out.length + 2)) 0 := by
    show out ++ List.replicate (16 - out.length) 0 = _
    rw [left, List.replicate_succ, List.replicate_succ]
  rw [tmp]
  show (poke _ out.length _).bind _ = _
  rw [show (Pton6.of out gap (some value) curtok).val = value from rfl, first]
  show (poke _ (out.length + 1) _).bind _ = _
  rw [second]
  show Except.ok _ = Except.ok _
  simp [Pton6.of, groupBytes]

theorem pokeAll_of {bytes : List UInt8} (four : bytes.length = 4)
    (room : out.length + 4 ≤ 16) :
    pokeAll (Pton6.of out gap none curtok).tmp out.length bytes =
      .ok (Pton6.of (out ++ bytes) gap none curtok).tmp := by
  have left : 16 - out.length = 4 + (16 - (out.length + 4)) := by omega
  have wrote := @pokeAll_append out (List.replicate 4 0)
    (List.replicate (16 - (out.length + 4)) 0) bytes (by simp [four])
  rw [List.replicate_append_replicate, ← left] at wrote
  simpa [Pton6.of, four] using wrote

theorem shiftLoop_eq {colonp : Nat} (after : colonp ≤ out.length)
    (short : out.length < 16) {turns : Nat}
    (left : turns ≤ out.length - colonp) :
    shiftLoop colonp (out.length - colonp) turns
        (out.length - colonp + 1 - turns)
        (out.take (colonp + turns) ++ (List.replicate (16 - out.length) 0 ++
          out.drop (colonp + turns))) =
      .ok (out.take colonp ++ (List.replicate (16 - out.length) 0 ++
        out.drop colonp)) := by
  induction turns with
  | zero => rfl
  | succ turns ih =>
      have inside : colonp + turns < out.length := by omega
      have front : out.take (colonp + (turns + 1)) =
          out.take (colonp + turns) ++ [out[colonp + turns]] := by
        rw [← Nat.add_assoc, List.take_succ_eq_append_getElem inside]
      have back : out.drop (colonp + turns) =
          out[colonp + turns] :: out.drop (colonp + (turns + 1)) := by
        rw [← Nat.add_assoc, List.drop_eq_getElem_cons inside]
      have zeros : List.replicate (16 - out.length) (0 : UInt8) =
          0 :: List.replicate (15 - out.length) 0 := by
        rw [← List.replicate_succ]
        congr 1
        omega
      have zeros' : List.replicate (16 - out.length) (0 : UInt8) =
          List.replicate (15 - out.length) 0 ++ [0] := by
        rw [← List.replicate_succ']
        congr 1
        omega
      have length : (out.take (colonp + turns)).length = colonp + turns :=
        List.length_take_of_le (by omega)
      generalize out[colonp + turns] = byte at front back
      have source : colonp + (out.length - colonp -
          (out.length - colonp + 1 - (turns + 1))) =
            (out.take (colonp + turns)).length := by
        omega
      have target : 16 - (out.length - colonp + 1 - (turns + 1)) =
          (out.take (colonp + turns) ++
            (byte :: List.replicate (15 - out.length) 0)).length := by
        rw [List.length_append, List.length_cons, List.length_replicate]
        omega
      have next : out.length - colonp + 1 - (turns + 1) + 1 =
          out.length - colonp + 1 - turns := by
        omega
      rw [shiftLoop, source, in6addrsz, target, front, next, List.append_assoc,
        List.singleton_append, peek_append]
      have moved := @poke_append (out.take (colonp + turns) ++
        (byte :: List.replicate (15 - out.length) 0))
        (out.drop (colonp + (turns + 1))) 0 byte
      have shape : out.take (colonp + turns) ++
          (byte :: List.replicate (15 - out.length) 0) ++
            (0 :: out.drop (colonp + (turns + 1))) =
          out.take (colonp + turns) ++ byte ::
            (List.replicate (16 - out.length) 0 ++
              out.drop (colonp + (turns + 1))) := by
        rw [zeros']
        simp
      rw [shape] at moved
      show (poke _ _ byte).bind _ = _
      rw [moved]
      show (poke _ _ 0).bind _ = _
      have cleared := @poke_append (out.take (colonp + turns))
        (List.replicate (15 - out.length) 0 ++
          byte :: out.drop (colonp + (turns + 1))) byte 0
      rw [List.append_assoc, List.cons_append, cleared]
      have again := ih (by omega)
      rw [zeros, back] at again
      rw [zeros]
      exact again

theorem pton6Shift_of (cur : Option Nat) (few : out.length ≤ 16)
    (inside : ∀ at_ ∈ gap, at_ ≤ out.length) :
    pton6Shift (.of out gap cur curtok) = .ok (fill (some (out, gap))) := by
  cases gap with
  | none =>
      show (if out.length ≠ 16 then _ else _) = _
      by_cases full : out.length = 16
      · rw [if_neg (not_not.mpr full), fill, if_pos full]
        simp [Pton6.of, full]
      · rw [if_pos full, fill, if_neg full]
  | some colonp =>
      show (if out.length = 16 then _ else _) = _
      by_cases full : out.length = 16
      · rw [if_pos full, fill, if_pos full]
      · rw [if_neg full, fill, if_neg full]
        have bound : colonp ≤ out.length := inside colonp rfl
        have shifted := shiftLoop_eq bound (by omega)
          (Nat.le_refl (out.length - colonp))
        have whole : colonp + (out.length - colonp) = out.length := by omega
        rw [whole, List.take_length, List.drop_length, List.append_nil,
          Nat.add_sub_cancel_left] at shifted
        show (shiftLoop colonp (out.length - colonp) (out.length - colonp) 1
          (out ++ List.replicate (16 - out.length) 0)).bind _ = _
        rw [shifted]
        rfl

end Buffer

def pton6Tail (st : Option Pton6) :
    Except OutOfBuffer (Option (List UInt8)) := do
  match st with
  | none => .ok none
  | some st =>
      match ← pton6Group st with
      | none => .ok none
      | some st => pton6Shift st

theorem pton6Run_eq (src : CString) :
    pton6Run src = (pton6Loop src (.of [] none none src)).bind pton6Tail := rfl

theorem asciiLower_eq_iff {c d : Char} (plain : d.toNat < 65) :
    asciiLower c = d ↔ c = d := by
  unfold asciiLower
  split
  · rename_i bounds
    have low : 65 ≤ c.toNat := bounds.1
    have high : c.toNat ≤ 90 := bounds.2
    have other : 65 ≤ (Char.ofNat (c.toNat + 32)).toNat := by
      generalize c.toNat = n at low high
      interval_cases n <;> decide
    constructor
    · rintro rfl
      omega
    · rintro rfl
      omega
  · rfl

theorem xdigit_lt {c : Char} {digit : Nat} (read : xdigit c = some digit) :
    digit < 16 := by
  obtain ⟨inside, _⟩ := List.idxOf?_eq_some_iff.mp read
  exact inside

section Tail

variable {out : List UInt8} {gap : Option Nat} {curtok : CString}
  (few : out.length ≤ 16) (inside : ∀ at_ ∈ gap, at_ ≤ out.length)

include few inside

theorem pton6Tail_none :
    pton6Tail (some (.of out gap none curtok)) = .ok (fill (some (out, gap))) :=
  pton6Shift_of none few inside

theorem pton6Tail_some (value : Nat) :
    pton6Tail (some (.of out gap (some value) curtok)) =
      .ok (fill (if 16 < out.length + 2 then none
        else some (out ++ groupBytes value, gap))) := by
  have group : pton6Group (.of out gap (some value) curtok) =
      if 16 < out.length + 2 then .ok none
      else (putGroup (.of out gap (some value) curtok)).bind
        fun st => .ok (some st) := rfl
  show (pton6Group _).bind _ = _
  rw [group]
  split
  · rfl
  · rename_i room
    rw [putGroup_of value (by omega)]
    have longer : ∀ at_ ∈ gap, at_ ≤ (out ++ groupBytes value).length := by
      intro at_ given
      rw [List.length_append]
      exact Nat.le_trans (inside at_ given) (Nat.le_add_right _ _)
    have short : (out ++ groupBytes value).length ≤ 16 := by
      show (out ++ [_, _]).length ≤ 16
      rw [List.length_append]
      simp
      omega
    exact @pton6Shift_of _ gap curtok none short longer

end Tail

theorem shiftLeft_or {value digit : Nat} (small : digit < 16) :
    (value <<< 4) ||| digit = value * 16 + digit := by
  rw [← Nat.shiftLeft_add_eq_or_of_lt (i := 4) small, Nat.shiftLeft_eq]

theorem isDigit_of_octets {parts : List CString} {bytes : List UInt8}
    (octets : List.Forall₂ IsOctet parts bytes) :
    ∀ part ∈ parts, ∀ c ∈ part, isDigit c = true := by
  induction octets with
  | nil => nofun
  | cons octet _ ih =>
      intro part listed
      obtain rfl | listed := List.mem_cons.mp listed
      · exact octet.digits
      · exact ih part listed

theorem readOctets_colon {source : CString} (colon : ':' ∈ source) :
    readOctets (source.splitOn '.') [] none = none := by
  cases result : readOctets (source.splitOn '.') [] none with
  | none => rfl
  | some bytes =>
      obtain ⟨read, octets, _, _⟩ :=
        (readOctets_iff _ _ _ (by decide)).mp result
      obtain ⟨part, listed, inside⟩ :=
        Split.exists_of_mem colon (by decide : ':' ≠ '.')
      exact absurd (isDigit_of_octets octets part listed ':' inside)
        (by decide)

theorem readOctets_length {parts : List CString} {bytes : List UInt8}
    (read : readOctets parts [] none = some bytes) : bytes.length = 4 :=
  ((readOctets_iff _ _ _ (by decide)).mp read).choose_spec.2.2

section Loop

variable {c : Char} {src : CString} {out : List UInt8} {gap cur : Option Nat}
  {curtok : CString}

theorem pton6Loop_digit {digit : Nat}
    (read : xdigit (asciiLower c) = some digit) :
    pton6Loop (c :: src) (.of out gap cur curtok) =
      if 0xffff < cur.getD 0 * 16 + digit then .ok none
      else
        pton6Loop src
          (.of out gap (some (cur.getD 0 * 16 + digit)) curtok) := by
  rw [pton6Loop]
  simp only [read]
  have val : (Pton6.of out gap cur curtok).val <<< 4 ||| digit =
      cur.getD 0 * 16 + digit := shiftLeft_or (xdigit_lt read)
  rw [val]
  rfl

theorem pton6Loop_colon :
    pton6Loop (':' :: src) (.of out gap cur curtok) =
      match cur with
      | none =>
          if gap.isSome then .ok none
          else pton6Loop src (.of out (some out.length) none src)
      | some value =>
          if src = [] then .ok none
          else if 16 < out.length + 2 then .ok none
          else pton6Loop src (.of (out ++ groupBytes value) gap none src) := by
  rw [pton6Loop]
  cases cur with
  | none => rfl
  | some value =>
      cases src with
      | nil => rfl
      | cons next rest =>
          show (if 16 < out.length + 2 then _ else _) =
            (if next :: rest = [] then _ else _)
          rw [if_neg (List.cons_ne_nil next rest)]
          split
          · rfl
          · rename_i room
            show (putGroup (.of out gap (some value) (next :: rest))).bind _ = _
            rw [putGroup_of value (by omega)]
            rfl

theorem pton6Loop_dot (more : src ≠ []) :
    pton6Loop ('.' :: src) (.of out gap cur curtok) =
      if out.length + 4 ≤ 16 then
        match readOctets (curtok.splitOn '.') [] none with
        | none => .ok none
        | some bytes =>
            .ok (some { Pton6.of (out ++ bytes) gap none curtok with
              val := cur.getD 0 })
      else .ok none := by
  rw [pton6Loop]
  have dot : asciiLower '.' = '.' := by decide
  have other : ¬('.' = ':') := by decide
  have left : src.isEmpty = false := by simpa using more
  simp only [dot, other, if_false, left, Bool.not_false, Bool.true_and,
    beq_self_eq_true, if_true]
  show (if out.length + 4 ≤ 16 then _ else _) = _
  split
  · rename_i room
    show (inetPton4 curtok).bind _ = _
    rw [inetPton4_eq]
    cases read : readOctets (curtok.splitOn '.') [] none with
    | none => rfl
    | some bytes =>
        have wrote := @pokeAll_of out gap curtok bytes (readOctets_length read)
          room
        show (pokeAll (Pton6.of out gap none curtok).tmp out.length
          bytes).bind _ = _
        rw [wrote]
        show Except.ok (some _) = Except.ok (some _)
        simp [Pton6.of, readOctets_length read, inaddrsz]
  · rfl

theorem pton6Loop_other (noDigit : xdigit (asciiLower c) = none)
    (noColon : c ≠ ':') (noDot : ¬(c = '.' ∧ src ≠ [])) :
    pton6Loop (c :: src) (.of out gap cur curtok) =
      pton6Loop src (.of out gap cur curtok) := by
  have colon : asciiLower c ≠ ':' := by
    rwa [ne_eq, asciiLower_eq_iff (by decide)]
  have dot : (!src.isEmpty && asciiLower c == '.') = false := by
    by_cases end_ : src = []
    · simp [end_]
    · have other : asciiLower c ≠ '.' := by
        rw [ne_eq, asciiLower_eq_iff (by decide)]
        exact fun same => noDot ⟨same, end_⟩
      simp [other]
  rw [pton6Loop]
  simp only [noDigit, colon, if_false, dot, Bool.false_eq_true]

end Loop

theorem pton6Tail_val {st : Pton6} (done : st.sawXdigit = false) (val : Nat) :
    pton6Tail (some { st with val := val }) = pton6Tail (some st) := by
  unfold pton6Tail pton6Group
  simp only [done, Bool.false_eq_true, if_false]
  rfl

/-- From every state of the loop, what is left of the source is read as the
fields of it say. -/
def ReadsFields (source : CString) : Prop :=
  ∀ (out : List UInt8) (gap cur : Option Nat) (before : CString),
    out.length ≤ 16 → (∀ at_ ∈ gap, at_ ≤ out.length) →
    (pton6Loop source (.of out gap cur (before ++ source))).bind pton6Tail =
      .ok (fill (readFields (source.splitOn ':') out gap cur before))

namespace ReadsFields

variable {src : CString} {c : Char}

theorem nil : ReadsFields [] := by
  intro out gap cur before few inside
  rw [List.splitOn_nil, readFields]
  show pton6Tail (some _) = _
  simp only [readField, if_true, List.nil_eq, List.cons_ne_nil, if_false]
  cases cur with
  | none => exact pton6Tail_none few inside
  | some value => exact pton6Tail_some few inside value

theorem append_cons (before : CString) (c : Char) (src : CString) :
    before ++ c :: src = before ++ [c] ++ src := by
  simp

theorem digit {digit : Nat} (read : xdigit (asciiLower c) = some digit)
    (rest : ReadsFields src) : ReadsFields (c :: src) := by
  intro out gap cur before few inside
  obtain ⟨text, more, split⟩ :=
    List.exists_cons_of_ne_nil (List.splitOn_ne_nil ':' src)
  have other : c ≠ ':' := by
    rintro rfl
    have noDigit : xdigit (asciiLower ':') = none := by decide
    rw [noDigit] at read
    cases read
  rw [Split.splitOn_cons_of_ne other split, readFields, readField, read,
    pton6Loop_digit read]
  dsimp only
  by_cases large : 0xffff < cur.getD 0 * 16 + digit
  · rw [if_pos large, if_pos large]
    rfl
  · rw [if_neg large, if_neg large, append_cons, rest _ _ _ _ few inside,
      split, readFields]

theorem colon (rest : ReadsFields src) : ReadsFields (':' :: src) := by
  intro out gap cur before few inside
  obtain ⟨text, more, split⟩ :=
    List.exists_cons_of_ne_nil (List.splitOn_ne_nil ':' src)
  have next : text :: more ≠ [] := List.cons_ne_nil _ _
  rw [Split.splitOn_cons_self, split, readFields, readField, pton6Loop_colon]
  cases cur with
  | none =>
      dsimp only
      rw [if_neg next]
      split
      · rfl
      · rw [← split]
        exact rest _ _ _ [] few (by simp)
  | some value =>
      dsimp only
      rw [if_neg next]
      by_cases end_ : src = []
      · rw [if_pos end_, if_pos]
        · rfl
        · rw [← split, end_, List.splitOn_nil]
      · have given : text :: more ≠ [[]] := by
          intro same
          have one : src.splitOn ':' = [[]] := by rw [split, same]
          exact end_ (Split.eq_of_splitOn_singleton one)
        rw [if_neg end_, if_neg given]
        split
        · rfl
        · rename_i room
          have longer : (out ++ groupBytes value).length = out.length + 2 := by
            simp [groupBytes]
          rw [← split]
          refine rest _ _ _ [] (by omega) fun at_ found => ?_
          have bound := inside at_ found
          omega

/-- What stands around a dot is read as four numbers, and ends the address. -/
theorem dot (given : src ≠ []) : ReadsFields ('.' :: src) := by
  intro out gap cur before few inside
  obtain ⟨text, more, split⟩ :=
    List.exists_cons_of_ne_nil (List.splitOn_ne_nil ':' src)
  have noColon : '.' ≠ ':' := by decide
  have noDigit : xdigit (asciiLower '.') = none := by decide
  rw [Split.splitOn_cons_of_ne noColon split, readFields, readField, noDigit,
    pton6Loop_dot given]
  dsimp only
  cases more with
  | nil =>
      have whole := Split.eq_of_splitOn_singleton split
      subst whole
      have entered : '.' = '.' ∧
          ¬(([] : List CString).isEmpty = true ∧ src = []) :=
        ⟨rfl, fun both => given both.2⟩
      rw [if_pos entered, List.isEmpty_nil, if_pos rfl]
      generalize octets :
        readOctets ((before ++ '.' :: src).splitOn '.') [] none = read
      cases read with
      | none =>
          split
          · rfl
          · rfl
      | some bytes =>
          dsimp only
          split
          · rename_i room
            have longer : (out ++ bytes).length = out.length + 4 := by
              rw [List.length_append, readOctets_length octets]
            show pton6Tail (some _) = _
            rw [pton6Tail_val rfl]
            refine pton6Tail_none (by omega) fun at_ found => ?_
            have bound := inside at_ found
            omega
          · rfl
  | cons next others =>
      have inSource : ':' ∈ before ++ '.' :: src := by
        have inSrc := Split.mem_of_splitOn_cons_cons split
        simp [inSrc]
      have entered : '.' = '.' ∧
          ¬((next :: others).isEmpty = true ∧ text = []) :=
        ⟨rfl, fun both => by cases both.1⟩
      rw [readOctets_colon inSource, if_pos entered, List.isEmpty_cons,
        if_neg Bool.false_ne_true]
      split
      · rfl
      · rfl

theorem other (noDigit : xdigit (asciiLower c) = none) (noColon : c ≠ ':')
    (noDot : ¬(c = '.' ∧ src ≠ [])) (rest : ReadsFields src) :
    ReadsFields (c :: src) := by
  intro out gap cur before few inside
  obtain ⟨text, more, split⟩ :=
    List.exists_cons_of_ne_nil (List.splitOn_ne_nil ':' src)
  have last : ¬(c = '.' ∧ ¬(more.isEmpty = true ∧ text = [])) := by
    rintro ⟨isDot, notLast⟩
    have end_ : src = [] := by
      by_contra given
      exact noDot ⟨isDot, given⟩
    rw [end_, List.splitOn_nil] at split
    obtain ⟨rfl, rfl⟩ := List.cons.inj split
    exact notLast ⟨rfl, rfl⟩
  rw [Split.splitOn_cons_of_ne noColon split, readFields, readField, noDigit]
  dsimp only
  rw [if_neg last, pton6Loop_other noDigit noColon noDot, append_cons,
    rest _ _ _ _ few inside, split, readFields]

end ReadsFields

theorem pton6Loop_eq (source : CString) : ReadsFields source := by
  induction source with
  | nil => exact .nil
  | cons c src ih =>
      cases read : xdigit (asciiLower c) with
      | some digit => exact ih.digit read
      | none =>
          by_cases colon : c = ':'
          · exact colon ▸ ih.colon
          · by_cases dot : c = '.' ∧ src ≠ []
            · obtain ⟨rfl, given⟩ := dot
              exact .dot given
            · exact ih.other read colon dot

end Inet

end RatboxServices
