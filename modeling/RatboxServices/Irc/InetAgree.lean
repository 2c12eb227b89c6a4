import RatboxServices.Irc.InetText

namespace RatboxServices

open CString

namespace Inet

/-! That `inet_pton6` reads the fields as an address has them, once the
characters it passes over are taken out. -/

variable {text : CString} {fields : List CString} {more : List CString}

theorem xdigit_of_isDigit {c : Char} (digit : isDigit c = true) :
    xdigit (asciiLower c) = some (digitValue c) := by
  have bounds : '0' ≤ c ∧ c ≤ '9' := by simpa [isDigit] using digit
  have low : 48 ≤ c.toNat := bounds.1
  have high : c.toNat ≤ 57 := bounds.2
  rw [← Char.ofNat_toNat c]
  generalize c.toNat = n at low high
  interval_cases n <;> decide

theorem hexes_cons_none {c : Char} (read : xdigit (asciiLower c) = none)
    (text : CString) : hexes (c :: text) = hexes text :=
  List.filterMap_cons_none read

theorem hexes_cons_some {c : Char} {digit : Nat}
    (read : xdigit (asciiLower c) = some digit) (text : CString) :
    hexes (c :: text) = digit :: hexes text :=
  List.filterMap_cons_some read

theorem hexes_of_digits (digits : ∀ c ∈ text, isDigit c = true) :
    hexes text = text.map digitValue := by
  induction text with
  | nil => rfl
  | cons c text ih =>
      rw [hexes_cons_some (xdigit_of_isDigit (digits c List.mem_cons_self)),
        List.map_cons,
        ih fun d listed => digits d (List.mem_cons_of_mem _ listed)]

theorem hexes_filter (text : CString) :
    hexes (text.filter isHexDigit) = hexes text := by
  induction text with
  | nil => rfl
  | cons c text ih =>
      cases digit : xdigit (asciiLower c) with
      | none =>
          have other : isHexDigit c = false := by simp [isHexDigit, digit]
          rw [List.filter_cons_of_neg (by simp [other]), ih,
            hexes_cons_none digit]
      | some value =>
          have hex : isHexDigit c = true := by simp [isHexDigit, digit]
          rw [List.filter_cons_of_pos hex, hexes_cons_some digit,
            hexes_cons_some digit, ih]

theorem hexes_eq_nil_iff (text : CString) :
    hexes text = [] ↔ text.filter isHexDigit = [] := by
  unfold hexes
  rw [List.filterMap_eq_nil_iff, List.filter_eq_nil_iff]
  simp [isHexDigit]

theorem readField_digits {last : Bool} (plain : ¬dotInside last text)
    (cur : Option Nat) (before : CString) :
    readField last text cur before =
      if hexes text = [] then .group cur
      else if 0xffff < numeral 16 (cur.getD 0) (hexes text) then .refused
      else .group (some (numeral 16 (cur.getD 0) (hexes text))) := by
  induction text generalizing cur before with
  | nil => rfl
  | cons c text ih =>
      have later : ¬dotInside last text := by
        unfold dotInside at plain ⊢
        intro inside
        refine plain ?_
        cases last with
        | false => exact List.mem_cons_of_mem _ inside
        | true =>
            cases text with
            | nil => cases inside
            | cons d text => exact List.mem_cons_of_mem _ inside
      have noDot : ¬(c = '.' ∧ ¬(last = true ∧ text = [])) := by
        rintro ⟨rfl, notLast⟩
        refine plain ?_
        unfold dotInside
        cases last with
        | false => exact List.mem_cons_self
        | true =>
            cases text with
            | nil => exact absurd ⟨rfl, rfl⟩ notLast
            | cons d text => exact List.mem_cons_self
      rw [readField]
      cases read : xdigit (asciiLower c) with
      | none =>
          dsimp only
          rw [if_neg noDot, ih later, hexes_cons_none read]
      | some digit =>
          dsimp only
          rw [hexes_cons_some read, if_neg (List.cons_ne_nil _ _), numeral_cons]
          have grows := @le_numeral 16 (cur.getD 0 * 16 + digit) (by decide)
            (hexes text)
          by_cases large : 0xffff < cur.getD 0 * 16 + digit
          · rw [if_pos large, if_pos (by omega)]
          · rw [if_neg large, ih later]
            by_cases none_ : hexes text = []
            · rw [if_pos none_, none_, numeral_nil, if_neg large]
            · rw [if_neg none_]
              rfl

theorem readField_dot (dot : dotInside false text) (cur : Option Nat)
    (before : CString) : readField false text cur before = .refused := by
  induction text generalizing cur before with
  | nil => cases dot
  | cons c text ih =>
      rw [readField]
      cases read : xdigit (asciiLower c) with
      | none =>
          dsimp only
          by_cases isDot : c = '.'
          · rw [if_pos ⟨isDot, fun both => by cases both.1⟩,
              if_neg Bool.false_ne_true]
          · rw [if_neg fun both => isDot both.1]
            refine ih ?_ _ _
            exact (List.mem_cons.mp dot).resolve_left (Ne.symm isDot)
      | some digit =>
          dsimp only
          split
          · rfl
          · refine ih ((List.mem_cons.mp dot).resolve_left ?_) _ _
            rintro rfl
            have noDigit : xdigit (asciiLower '.') = none := by decide
            rw [noDigit] at read
            cases read

/-- A last field with a dot is a dotted quad or nothing, if the digits before
its first dot are no larger than the quad allows. -/
theorem readField_last_dot (dot : dotInside true text) (cur : Option Nat)
    (before : CString)
    (small : ∀ bytes, readOctets ((before ++ text).splitOn '.') [] none =
      some bytes → numeral 16 (cur.getD 0)
        (hexes (text.takeWhile (· != '.'))) ≤ 0xffff) :
    readField true text cur before =
      match readOctets ((before ++ text).splitOn '.') [] none with
      | some bytes => .quad bytes
      | none => .refused := by
  induction text generalizing cur before with
  | nil => cases dot
  | cons c text ih =>
      have given : text ≠ [] := by
        rintro rfl
        cases dot
      have shifted : before ++ c :: text = before ++ [c] ++ text := by simp
      have later : c ≠ '.' → dotInside true text := by
        intro other
        unfold dotInside at dot ⊢
        rw [if_pos rfl] at dot ⊢
        rw [List.dropLast_cons_of_ne_nil given] at dot
        exact (List.mem_cons.mp dot).resolve_left (Ne.symm other)
      rw [readField]
      cases read : xdigit (asciiLower c) with
      | none =>
          dsimp only
          by_cases isDot : c = '.'
          · refine (if_pos ⟨isDot, fun both => given both.2⟩).trans ?_
            exact if_pos rfl
          · rw [if_neg fun both => isDot both.1, shifted]
            refine ih (later isDot) _ _ ?_
            intro bytes octets
            have bound := small bytes (shifted ▸ octets)
            rwa [List.takeWhile_cons_of_pos (by simpa using isDot),
              hexes_cons_none read] at bound
      | some digit =>
          have isDot : c ≠ '.' := by
            rintro rfl
            have noDigit : xdigit (asciiLower '.') = none := by decide
            rw [noDigit] at read
            cases read
          have bound : ∀ bytes,
              readOctets ((before ++ c :: text).splitOn '.') [] none =
                some bytes → numeral 16 (cur.getD 0 * 16 + digit)
                  (hexes (text.takeWhile (· != '.'))) ≤ 0xffff := by
            intro bytes octets
            have all := small bytes octets
            rwa [List.takeWhile_cons_of_pos (by simpa using isDot),
              hexes_cons_some read, numeral_cons] at all
          dsimp only
          split
          · rename_i large
            cases octets : readOctets ((before ++ c :: text).splitOn '.') []
                none with
            | none => rfl
            | some bytes =>
                have most := bound bytes octets
                have grows := @le_numeral 16 (cur.getD 0 * 16 + digit)
                  (by decide) (hexes (text.takeWhile (· != '.')))
                omega
          · rw [shifted] at bound ⊢
            exact ih (later isDot) _ _ bound

theorem isDottedQuad_iff (text : CString) (bytes : List UInt8) :
    readOctets (text.splitOn '.') [] none = some bytes ↔
      IsDottedQuad text bytes := by
  rw [readOctets_iff _ _ _ (by decide)]
  constructor
  · rintro ⟨read, octets, rfl, four⟩
    exact ⟨four, octets⟩
  · rintro ⟨four, octets⟩
    exact ⟨bytes, octets, rfl, four⟩

theorem takeWhile_of_splitOn {text first : CString}
    (split : text.splitOn '.' = first :: more) :
    text.takeWhile (· != '.') = first := by
  induction text generalizing first more with
  | nil =>
      rw [List.splitOn_nil] at split
      exact (List.cons.inj split).1
  | cons c text ih =>
      by_cases dot : c = '.'
      · subst dot
        rw [Split.splitOn_cons_self] at split
        rw [List.takeWhile_cons_of_neg (by simp)]
        exact (List.cons.inj split).1
      · obtain ⟨part, parts, rest⟩ :=
          List.exists_cons_of_ne_nil (List.splitOn_ne_nil '.' text)
        rw [Split.splitOn_cons_of_ne dot rest] at split
        rw [List.takeWhile_cons_of_pos (by simpa using dot), ih rest]
        exact (List.cons.inj split).1

/-- The first number of a dotted quad has at most three digits that count, so
that it is no large number in hexadecimal. -/
theorem readField_quad (dot : dotInside true text) :
    readField true text none [] =
      match readOctets (text.splitOn '.') [] none with
      | some bytes => .quad bytes
      | none => .refused := by
  refine readField_last_dot dot none [] fun bytes octets => ?_
  obtain ⟨four, parts⟩ := (isDottedQuad_iff _ _).mp octets
  cases split : text.splitOn '.' with
  | nil => exact absurd split (List.splitOn_ne_nil _ _)
  | cons first more =>
      rw [List.nil_append, split] at parts
      cases parts with
      | cons octet _ =>
          rw [takeWhile_of_splitOn split, hexes_of_digits octet.digits]
          have few : numeral 10 0 (first.map digitValue) < 10 ^ 3 := by
            have byte := UInt8.toNat_lt ‹UInt8›
            rw [octet.value]
            omega
          have proper : ∀ d ∈ first.map digitValue, d < 10 := by
            intro d listed
            obtain ⟨c, inside, rfl⟩ := List.mem_map.mp listed
            have digit := octet.digits c inside
            have bounds : '0' ≤ c ∧ c ≤ '9' := by simpa [isDigit] using digit
            have high : c.toNat ≤ 57 := bounds.2
            unfold digitValue
            omega
          have hex := numeral_lt_pow (by decide : 10 ≤ 16) (by decide) proper
            few
          exact Nat.le_trans (Nat.le_of_lt hex) (by decide)

def Skims : List CString → Prop
  | [] => True
  | [text] => skimText true text = text
  | text :: more => skimText false text = text ∧ Skims more

theorem IsDottedQuad.unique {bytes others : List UInt8}
    (quad : IsDottedQuad text bytes) (again : IsDottedQuad text others) :
    bytes = others := by
  have first := (isDottedQuad_iff _ _).mpr quad
  have second := (isDottedQuad_iff _ _).mpr again
  exact Option.some.inj (first.symm.trans second)

theorem IsDottedQuad.dot {bytes : List UInt8} (quad : IsDottedQuad text bytes) :
    dotInside true text := by
  have length := quad.octets.length_eq
  rw [quad.four] at length
  rw [dotInside, if_pos rfl]
  by_contra absent
  have whole := List.dropLast_append_getLast quad.ne_nil
  have front : text.dropLast.splitOn '.' = [text.dropLast] :=
    Split.splitOn_of_not_mem absent
  generalize text.getLast quad.ne_nil = c at whole
  by_cases dot : c = '.'
  · have parts : text.splitOn '.' = [text.dropLast, []] := by
      rw [← whole, dot, List.splitOn_eq_splitOnP,
        List.splitOnP_append_cons _ _ (by decide), ← List.splitOn_eq_splitOnP,
        ← List.splitOn_eq_splitOnP, List.dropLast_concat, front]
      rfl
    rw [parts] at length
    cases length
  · have parts : text.splitOn '.' = [text] := by
      refine Split.splitOn_of_not_mem ?_
      rw [← whole, List.mem_append, List.mem_singleton, not_or]
      exact ⟨absent, Ne.symm dot⟩
    rw [parts] at length
    cases length

theorem IsGroup.not_quad {bytes others : List UInt8}
    (group : IsGroup text bytes) : ¬IsDottedQuad text others := by
  intro quad
  have inside := quad.dot
  rw [dotInside, if_pos rfl] at inside
  exact group.dotFree (List.dropLast_subset text inside)

inductive FieldIs (last : Bool) (text : CString) : Field → Prop
  | gap (empty : text = []) : FieldIs last text (.group none)
  | group {value : Nat} (group : IsGroup text (groupBytes value)) :
      FieldIs last text (.group (some value))
  | quad {bytes : List UInt8} (isLast : last = true)
      (quad : IsDottedQuad text bytes) : FieldIs last text (.quad bytes)
  | refused (given : text ≠ []) (noGroup : ∀ bytes, ¬IsGroup text bytes)
      (noQuad : last = true → ∀ bytes, ¬IsDottedQuad text bytes) :
      FieldIs last text .refused

theorem readField_spec {last : Bool} (skimmed : skimText last text = text) :
    FieldIs last text (readField last text none []) := by
  by_cases dot : dotInside last text
  · have inside : '.' ∈ text := by
      cases last with
      | false => exact dot
      | true => exact List.dropLast_subset text dot
    have given : text ≠ [] := List.ne_nil_of_mem inside
    have noGroup : ∀ bytes, ¬IsGroup text bytes :=
      fun bytes group => group.dotFree inside
    cases last with
    | false =>
        rw [readField_dot dot]
        exact .refused given noGroup fun impossible => by cases impossible
    | true =>
        rw [readField_quad dot]
        cases octets : readOctets (text.splitOn '.') [] none with
        | none =>
            refine .refused given noGroup fun _ bytes quad => ?_
            rw [(isDottedQuad_iff _ _).mpr quad] at octets
            cases octets
        | some bytes => exact .quad rfl ((isDottedQuad_iff _ _).mp octets)
  · rw [skimText, if_neg dot] at skimmed
    have digits : ∀ c ∈ text, isHexDigit c = true :=
      List.filter_eq_self.mp skimmed
    rw [readField_digits dot]
    split
    · rename_i empty
      refine .gap ?_
      rw [← skimmed, (hexes_eq_nil_iff text).mp empty]
    · rename_i some_
      have given : text ≠ [] := by
        rintro rfl
        exact some_ rfl
      split
      · rename_i large
        refine .refused given (fun bytes group => ?_) fun _ bytes quad => ?_
        · have small := group.small
          have same : (none : Option Nat).getD 0 = 0 := rfl
          rw [same] at large
          omega
        · have inside := quad.dot
          rw [dotInside, if_pos rfl] at inside
          have digit := digits '.' (List.dropLast_subset text inside)
          rw [not_isHexDigit_dot] at digit
          cases digit
      · rename_i small
        exact .group ⟨given, digits, Nat.le_of_not_lt small, rfl⟩

def Behind (fields : List CString) (bytes : List UInt8) : Prop :=
  ∃ right, fields = closing right ∧ Pieces right bytes

theorem pieces_cons_iff {bytes : List UInt8} (others : more ≠ []) :
    Pieces (text :: more) bytes ↔
      ∃ first rest, IsGroup text first ∧ Pieces more rest ∧
        bytes = first ++ rest := by
  constructor
  · intro pieces
    cases pieces with
    | quad _ => exact absurd rfl others
    | cons group rest => exact ⟨_, _, group, rest, rfl⟩
  · rintro ⟨first, rest, group, pieces, rfl⟩
    exact .cons group pieces

theorem pieces_singleton_iff {bytes : List UInt8} :
    Pieces [text] bytes ↔ IsGroup text bytes ∨ IsDottedQuad text bytes := by
  constructor
  · intro pieces
    cases pieces with
    | quad last => exact Or.inr last
    | cons group rest =>
        cases rest
        rw [List.append_nil]
        exact Or.inl group
  · rintro (group | quad)
    · have one := Pieces.cons group .nil
      rwa [List.append_nil] at one
    · exact .quad quad

theorem not_pieces_empty {bytes : List UInt8} : ¬Pieces ([] :: more) bytes :=
  fun pieces => (pieces.spec [] List.mem_cons_self).1 rfl

theorem behind_empty_iff {bytes : List UInt8} :
    Behind [[]] bytes ↔ bytes = [] := by
  constructor
  · rintro ⟨right, same, pieces⟩
    unfold closing at same
    split at same
    · rename_i none_
      rw [none_] at pieces
      cases pieces
      rfl
    · rw [← same] at pieces
      exact absurd pieces not_pieces_empty
  · rintro rfl
    exact ⟨[], rfl, .nil⟩

theorem behind_iff {bytes : List UInt8} (given : fields ≠ [[]])
    (some_ : fields ≠ []) : Behind fields bytes ↔ Pieces fields bytes := by
  constructor
  · rintro ⟨right, rfl, pieces⟩
    unfold closing at given ⊢
    split
    · rename_i none_
      rw [if_pos none_] at given
      exact absurd rfl given
    · exact pieces
  · intro pieces
    exact ⟨fields, (if_neg some_).symm, pieces⟩

theorem behind_cons_iff {bytes : List UInt8} (others : more ≠ []) :
    Behind (text :: more) bytes ↔
      ∃ first rest, IsGroup text first ∧ more ≠ [[]] ∧ Behind more rest ∧
        bytes = first ++ rest := by
  rw [behind_iff (by simp [others]) (List.cons_ne_nil _ _),
    pieces_cons_iff others]
  constructor
  · rintro ⟨first, rest, group, pieces, same⟩
    have given : more ≠ [[]] := by
      rintro rfl
      exact not_pieces_empty pieces
    exact ⟨first, rest, group, given, (behind_iff given others).mpr pieces, same⟩
  · rintro ⟨first, rest, group, given, behind, same⟩
    exact ⟨first, rest, group, (behind_iff given others).mp behind, same⟩

theorem groupBytes_length (value : Nat) : (groupBytes value).length = 2 := rfl

theorem IsGroup.two {bytes : List UInt8} (group : IsGroup text bytes) :
    bytes.length = 2 := by
  rw [group.value, groupBytes_length]

def Field.bytes : Field → Option (List UInt8)
  | .refused => none
  | .quad bytes => some bytes
  | .group none => some []
  | .group (some value) => some (groupBytes value)

theorem FieldIs.behind_iff {field : Field} (fieldIs : FieldIs true text field)
    {bytes : List UInt8} : Behind [text] bytes ↔ field.bytes = some bytes := by
  cases fieldIs with
  | gap empty =>
      rw [empty, behind_empty_iff, Field.bytes, Option.some.injEq, eq_comm]
  | @group value group =>
      rw [Inet.behind_iff (by simpa using group.given) (List.cons_ne_nil _ _),
        pieces_singleton_iff, Field.bytes, Option.some.injEq]
      constructor
      · rintro (again | quad)
        · exact group.value.trans again.value.symm
        · exact absurd quad group.not_quad
      · rintro rfl
        exact Or.inl group
  | @quad bytes' _ quad =>
      rw [Inet.behind_iff (by simpa using quad.ne_nil) (List.cons_ne_nil _ _),
        pieces_singleton_iff, Field.bytes, Option.some.injEq]
      constructor
      · rintro (group | again)
        · exact absurd quad group.not_quad
        · exact quad.unique again
      · rintro rfl
        exact Or.inr quad
  | refused given noGroup noQuad =>
      rw [Inet.behind_iff (by simpa using given) (List.cons_ne_nil _ _),
        pieces_singleton_iff]
      constructor
      · rintro (group | quad)
        · exact absurd group (noGroup bytes)
        · exact absurd quad (noQuad rfl bytes)
      · nofun

theorem readFields_last (skimmed : skimText true text = text) {out : List UInt8}
    (few : out.length ≤ 16) (gap : Option Nat) (result : List UInt8)
    (after : Option Nat) :
    readFields [text] out gap none [] = some (result, after) ↔
      after = gap ∧ ∃ bytes, Behind [text] bytes ∧ result = out ++ bytes ∧
        result.length ≤ 16 := by
  have spec := readField_spec skimmed
  simp only [spec.behind_iff]
  rw [readFields, List.isEmpty_nil]
  generalize readField true text none [] = field at spec
  have one : ∀ bytes : List UInt8, (out ++ bytes).length ≤ 16 →
      (some (out ++ bytes, gap) = some (result, after) ↔
        after = gap ∧ ∃ others, some bytes = some others ∧
          result = out ++ others ∧ result.length ≤ 16) := by
    intro bytes room
    constructor
    · intro same
      cases same
      exact ⟨rfl, bytes, rfl, rfl, room⟩
    · rintro ⟨rfl, others, same, rfl, _⟩
      cases same
      rfl
  have full : ∀ bytes : List UInt8, ¬(out ++ bytes).length ≤ 16 →
      (none = some (result, after) ↔
        after = gap ∧ ∃ others, some bytes = some others ∧
          result = out ++ others ∧ result.length ≤ 16) := by
    intro bytes large
    constructor
    · intro same
      cases same
    · rintro ⟨rfl, others, same, rfl, room⟩
      cases same
      exact absurd room large
  cases spec with
  | gap _ =>
      have whole := one [] (by simpa using few)
      rw [List.append_nil] at whole
      exact whole
  | @group value _ =>
      have length : (out ++ groupBytes value).length = out.length + 2 := by
        rw [List.length_append, groupBytes_length]
      dsimp only [Field.bytes]
      rw [if_neg (List.cons_ne_nil _ _ ∘ Eq.symm)]
      by_cases room : out.length + 2 ≤ 16
      · rw [if_neg (by omega), if_pos rfl]
        exact one _ (by omega)
      · rw [if_pos (by omega)]
        exact full _ (by omega)
  | @quad bytes _ quad =>
      have length : (out ++ bytes).length = out.length + 4 := by
        rw [List.length_append, quad.four]
      dsimp only [Field.bytes]
      by_cases room : out.length + 4 ≤ 16
      · rw [if_pos room]
        exact one _ (by omega)
      · rw [if_neg room]
        exact full _ (by omega)
  | refused _ _ _ =>
      constructor
      · intro same
        cases same
      · rintro ⟨_, others, impossible, _⟩
        cases impossible

theorem readFields_more (skimmed : skimText false text = text)
    (others : more ≠ []) (out : List UInt8) (gap : Option Nat) :
    (text = [] ∧ readFields (text :: more) out gap none [] =
      if gap.isSome then none
      else readFields more out (some out.length) none []) ∨
    (∃ bytes, IsGroup text bytes ∧
      readFields (text :: more) out gap none [] =
        if more = [[]] then none
        else if 16 < out.length + 2 then none
        else readFields more (out ++ bytes) gap none []) ∨
    (text ≠ [] ∧ (∀ bytes, ¬IsGroup text bytes) ∧
      readFields (text :: more) out gap none [] = none) := by
  have spec := readField_spec skimmed
  have notLast : more.isEmpty = false := by simpa using others
  rw [readFields, notLast]
  generalize readField false text none [] = field at spec
  cases spec with
  | gap empty => exact Or.inl ⟨empty, if_neg others⟩
  | group group =>
      refine Or.inr (Or.inl ⟨_, group, ?_⟩)
      dsimp only
      rw [if_neg others]
  | quad impossible _ => cases impossible
  | refused given noGroup _ => exact Or.inr (Or.inr ⟨given, noGroup, rfl⟩)

theorem readFields_gap (skims : Skims fields) (given : fields ≠ [])
    {out : List UInt8} (few : out.length ≤ 16) {gap : Nat} {result : List UInt8}
    {after : Option Nat} :
    readFields fields out (some gap) none [] = some (result, after) ↔
      after = some gap ∧ ∃ bytes, Behind fields bytes ∧
        result = out ++ bytes ∧ result.length ≤ 16 := by
  induction fields generalizing out with
  | nil => exact absurd rfl given
  | cons text more ih =>
      cases more with
      | nil => exact readFields_last skims few _ _ _
      | cons next others =>
          obtain ⟨skimmed, later⟩ := skims
          have more : next :: others ≠ [] := List.cons_ne_nil _ _
          simp only [behind_cons_iff more]
          obtain ⟨empty, read⟩ | ⟨bytes, group, read⟩ | ⟨_, noGroup, read⟩ :=
            readFields_more skimmed more out (some gap)
          · rw [read, Option.isSome_some, if_pos rfl]
            constructor
            · nofun
            · rintro ⟨_, _, ⟨first, _, group, _⟩, _⟩
              exact absurd empty group.given
          · rw [read]
            have length : (out ++ bytes).length = out.length + 2 := by
              rw [List.length_append, group.two]
            constructor
            · intro found
              split at found
              · cases found
              · rename_i nonempty
                split at found
                · cases found
                · obtain ⟨same, rest, behind, rfl, short⟩ :=
                    (ih later more (by omega)).mp found
                  exact ⟨same, bytes ++ rest,
                    ⟨bytes, rest, group, nonempty, behind, rfl⟩,
                    List.append_assoc _ _ _, short⟩
            · rintro ⟨same, _, ⟨first, rest, again, nonempty, behind, rfl⟩,
                rfl, short⟩
              obtain rfl : first = bytes := again.value.trans group.value.symm
              have room : ¬16 < out.length + 2 := by
                simp only [List.length_append, group.two] at short
                omega
              rw [if_neg nonempty, if_neg room]
              refine (ih later more (by omega)).mpr
                ⟨same, rest, behind, ?_, short⟩
              rw [List.append_assoc]
          · rw [read]
            constructor
            · nofun
            · rintro ⟨_, _, ⟨first, _, group, _⟩, _⟩
              exact absurd group (noGroup first)

def Rest (out : List UInt8) (fields : List CString) (result : List UInt8) :
    Prop :=
  (∃ bytes, Pieces fields bytes ∧ result = out ++ bytes ∧
    result.length = 16) ∨
  ∃ left behind first last, fields = left ++ [] :: behind ∧ Groups left first ∧
    Behind behind last ∧ (out ++ first).length + last.length < 16 ∧
    result = out ++ first ++
      (List.replicate (16 - ((out ++ first).length + last.length)) 0 ++ last)

theorem behind_ne_nil {bytes : List UInt8} (behind : Behind fields bytes) :
    fields ≠ [] := by
  obtain ⟨right, rfl, _⟩ := behind
  exact closing_ne_nil right

theorem Rest.length_le {out : List UInt8} {result : List UInt8}
    (rest : Rest out fields result) : out.length ≤ 16 := by
  obtain ⟨bytes, _, rfl, whole⟩ | ⟨_, _, first, last, _, _, _, room, _⟩ := rest
  · rw [List.length_append] at whole
    omega
  · rw [List.length_append] at room
    omega

theorem rest_nil_iff (fields : List CString) (result : List UInt8) :
    Rest [] fields result ↔ IsFields fields result := by
  constructor
  · rintro (⟨bytes, pieces, rfl, whole⟩ |
      ⟨left, _, first, last, rfl, before, ⟨right, rfl, after⟩, room, rfl⟩)
    · exact .full pieces whole
    · exact .short before after room
  · intro isFields
    cases isFields with
    | full pieces whole => exact Or.inl ⟨_, pieces, rfl, whole⟩
    | short before after room =>
        exact Or.inr ⟨_, _, _, _, rfl, before, ⟨_, rfl, after⟩, room, rfl⟩

theorem rest_last_iff {out result : List UInt8} :
    Rest out [text] result ↔
      ∃ bytes, Pieces [text] bytes ∧ result = out ++ bytes ∧
        result.length = 16 := by
  constructor
  · rintro (found | ⟨left, behind, _, _, same, _, after, _⟩)
    · exact found
    · have length := congrArg List.length same
      have some_ := List.length_pos_iff.mpr (behind_ne_nil after)
      simp at length
      omega
  · exact Or.inl

theorem rest_gap_iff {out result : List UInt8} :
    Rest out ([] :: more) result ↔
      ∃ last, Behind more last ∧ out.length + last.length < 16 ∧
        result = out ++
          (List.replicate (16 - (out.length + last.length)) 0 ++ last) := by
  constructor
  · rintro (⟨_, pieces, _⟩ | ⟨left, _, first, last, same, before, after, room,
      rfl⟩)
    · exact absurd pieces not_pieces_empty
    · cases before with
      | nil =>
          rw [List.nil_append, List.cons.injEq] at same
          rw [List.append_nil] at room ⊢
          exact ⟨last, same.2 ▸ after, room, rfl⟩
      | cons group _ =>
          rw [List.cons_append, List.cons.injEq] at same
          exact absurd same.1.symm group.given
  · rintro ⟨last, after, room, rfl⟩
    refine Or.inr ⟨[], more, [], last, rfl, .nil, after, ?_, ?_⟩
    · rwa [List.append_nil]
    · rw [List.append_nil]

theorem rest_cons_iff {out result : List UInt8} (given : text ≠ [])
    (others : more ≠ []) :
    Rest out (text :: more) result ↔
      ∃ bytes, IsGroup text bytes ∧ more ≠ [[]] ∧
        Rest (out ++ bytes) more result := by
  constructor
  · rintro (⟨bytes, pieces, rfl, whole⟩ | ⟨left, behind, first, last, same,
      before, after, room, rfl⟩)
    · obtain ⟨first, rest, group, later, rfl⟩ :=
        (pieces_cons_iff others).mp pieces
      have nonempty : more ≠ [[]] := by
        rintro rfl
        exact not_pieces_empty later
      rw [← List.append_assoc] at whole ⊢
      exact ⟨first, group, nonempty, Or.inl ⟨rest, later, rfl, whole⟩⟩
    · cases before with
      | nil =>
          rw [List.nil_append, List.cons.injEq] at same
          exact absurd same.1 given
      | @cons _ texts bytes more' group later =>
          rw [List.cons_append, List.cons.injEq] at same
          obtain ⟨rfl, rfl⟩ := same
          have nonempty : texts ++ [] :: behind ≠ [[]] := by
            intro one
            have length := congrArg List.length one
            have some_ := List.length_pos_iff.mpr (behind_ne_nil after)
            simp at length
            omega
          have assoc : out ++ (bytes ++ more') = out ++ bytes ++ more' :=
            (List.append_assoc _ _ _).symm
          rw [assoc] at room ⊢
          exact ⟨bytes, group, nonempty,
            Or.inr ⟨texts, behind, more', last, rfl, later, after, room, rfl⟩⟩
  · rintro ⟨bytes, group, nonempty, ⟨rest, pieces, rfl, whole⟩ |
      ⟨left, behind, first, last, rfl, before, after, room, rfl⟩⟩
    · rw [List.append_assoc] at whole ⊢
      exact Or.inl ⟨bytes ++ rest, .cons group pieces, rfl, whole⟩
    · rw [List.append_assoc out] at room ⊢
      exact Or.inr ⟨text :: left, behind, bytes ++ first, last, rfl,
        .cons group before, after, room, rfl⟩

theorem fill_gap {out bytes : List UInt8} (short : (out ++ bytes).length < 16) :
    fill (some (out ++ bytes, some out.length)) =
      some (out ++
        (List.replicate (16 - (out.length + bytes.length)) 0 ++ bytes)) := by
  rw [fill, if_neg (by omega), List.take_left, List.drop_left,
    List.length_append]

theorem fill_last (skimmed : skimText true text = text) {out : List UInt8}
    (few : out.length ≤ 16) (given : text = [] → out.length ≠ 16)
    (result : List UInt8) :
    fill (readFields [text] out none none []) = some result ↔
      ∃ bytes, Pieces [text] bytes ∧ result = out ++ bytes ∧
        result.length = 16 := by
  have last := readFields_last skimmed few none
  constructor
  · intro filled
    cases read : readFields [text] out none none [] with
    | none =>
        rw [read] at filled
        cases filled
    | some found =>
        obtain ⟨bytes, gap⟩ := found
        obtain ⟨rfl, more, behind, same, _⟩ := (last bytes gap).mp read
        rw [read, fill] at filled
        split at filled
        · rename_i whole
          cases filled
          refine ⟨more, (behind_iff ?_ (List.cons_ne_nil _ _)).mp behind, same,
            whole⟩
          intro empty
          rw [empty, behind_empty_iff] at behind
          rw [behind, List.append_nil] at same
          exact given (List.cons.inj empty).1 (same ▸ whole)
        · cases filled
  · rintro ⟨bytes, pieces, same, whole⟩
    have behind : Behind [text] bytes := by
      refine (behind_iff ?_ (List.cons_ne_nil _ _)).mpr pieces
      rintro empty
      rw [empty] at pieces
      exact not_pieces_empty pieces
    rw [(last result none).mpr
      ⟨rfl, bytes, behind, same, Nat.le_of_eq whole⟩, fill, if_pos whole]

theorem fill_behind (skims : Skims fields) (given : fields ≠ [])
    {out : List UInt8} (few : out.length ≤ 16) (result : List UInt8) :
    fill (readFields fields out (some out.length) none []) = some result ↔
      ∃ last, Behind fields last ∧ out.length + last.length < 16 ∧
        result = out ++
          (List.replicate (16 - (out.length + last.length)) 0 ++ last) := by
  constructor
  · intro filled
    cases read : readFields fields out (some out.length) none [] with
    | none =>
        rw [read] at filled
        cases filled
    | some found =>
        obtain ⟨bytes, gap⟩ := found
        obtain ⟨rfl, last, behind, rfl, short⟩ :=
          (readFields_gap skims given few).mp read
        rw [List.length_append] at short
        have room : (out ++ last).length < 16 := by
          by_contra full
          rw [read, fill, if_pos (by rw [List.length_append] at full ⊢; omega)]
            at filled
          cases filled
        rw [read, fill_gap room] at filled
        cases filled
        rw [List.length_append] at room
        exact ⟨last, behind, room, rfl⟩
  · rintro ⟨last, behind, room, rfl⟩
    have short : (out ++ last).length < 16 := by rwa [List.length_append]
    rw [(readFields_gap skims given few).mpr
      ⟨rfl, last, behind, rfl, Nat.le_of_lt short⟩, fill_gap short]

theorem fill_readFields (skims : Skims fields) (given : fields ≠ [])
    {out : List UInt8} (few : out.length ≤ 16)
    (nonempty : fields = [[]] → out.length ≠ 16) (result : List UInt8) :
    fill (readFields fields out none none []) = some result ↔
      Rest out fields result := by
  induction fields generalizing out with
  | nil => exact absurd rfl given
  | cons text more ih =>
      cases more with
      | nil =>
          rw [rest_last_iff]
          refine fill_last skims few (fun empty => nonempty ?_) result
          rw [empty]
      | cons next others =>
          obtain ⟨skimmed, later⟩ := skims
          have more : next :: others ≠ [] := List.cons_ne_nil _ _
          obtain ⟨empty, read⟩ | ⟨bytes, group, read⟩ |
              ⟨nonnil, noGroup, read⟩ :=
            readFields_more skimmed more out none
          · rw [read, empty, rest_gap_iff, Option.isSome_none,
              if_neg Bool.false_ne_true]
            exact fill_behind later more few result
          · rw [read, rest_cons_iff group.given more]
            have length : (out ++ bytes).length = out.length + 2 := by
              rw [List.length_append, group.two]
            have only : ∀ others, IsGroup text others → others = bytes :=
              fun _ again => again.value.trans group.value.symm
            by_cases last : next :: others = [[]]
            · rw [if_pos last]
              constructor
              · nofun
              · rintro ⟨_, _, others, _⟩
                exact absurd last others
            · rw [if_neg last]
              by_cases room : 16 < out.length + 2
              · rw [if_pos room]
                constructor
                · nofun
                · rintro ⟨found, again, _, rest⟩
                  rw [only found again] at rest
                  have long := rest.length_le
                  omega
              · rw [if_neg room, ih later more (by omega) fun empty =>
                  absurd empty last]
                constructor
                · exact fun rest => ⟨bytes, group, last, rest⟩
                · rintro ⟨found, again, _, rest⟩
                  rwa [only found again] at rest
          · rw [read, rest_cons_iff nonnil more]
            constructor
            · nofun
            · rintro ⟨bytes, group, _⟩
              exact absurd group (noGroup bytes)

end Inet

end RatboxServices
