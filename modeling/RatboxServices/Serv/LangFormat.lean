import Mathlib.Data.List.TakeWhile
import RatboxServices.Irc.CString
import RatboxServices.Lib.Printf
import RatboxServices.Lib.Word

namespace RatboxServices

/-! `langs_format.c`: the check that a translation takes the arguments of the
message it translates. -/

/-- `type` of a slot, where `none` is 0. -/
inductive LangFmtType
  | none
  | string
  | char
  | integer
  | hex
  deriving DecidableEq, Repr

structure LangFmt where
  type : LangFmtType
  flags : Word
  deriving DecidableEq, Repr

namespace LangFmt

/-- `LANG_FMT_UNSIGNED`, `LANG_FMT_INTLONG` and `LANG_FMT_INTLONGLONG`, by the
numbers of their bits. -/
def fmtUnsigned : Nat := 0

def fmtIntlong : Nat := 1

def fmtIntlonglong : Nat := 2

def maxFmtArgs : Nat := 64

/-- What `memset` leaves. -/
def blank : LangFmt := ⟨.none, 0⟩

/-- The variables of `lang_fmt_parse`. -/
structure Parse where
  pos : Nat
  parsing : Bool
  fmt : Nat → LangFmt

def Parse.modify (change : LangFmt → LangFmt) (p : Parse) : Parse :=
  { p with fmt := Function.update p.fmt p.pos (change (p.fmt p.pos)) }

def Parse.finish (type : LangFmtType) (isUnsigned : Bool) (p : Parse) :
    Parse :=
  let p := p.modify fun slot =>
    { type := type
      flags :=
        if isUnsigned then slot.flags.set fmtUnsigned else slot.flags }
  { p with pos := p.pos + 1, parsing := false }

/-- The cases of the `switch` that only look at the flags. -/
def markChars : List Char := ['.', '+', '-', '#']

def numberChars : List Char :=
  ['1', '2', '3', '4', '5', '6', '7', '8', '9', '0']

/-- The `switch`, with what is returned. -/
def Parse.directive (c : Char) (p : Parse) : Except Int Parse :=
  if c = '%' then .ok { p with parsing := false }
  else if c = 's' then .ok (p.finish .string false)
  else if c = 'l' then
    .ok (p.modify fun slot =>
      { slot with
        flags :=
          if slot.flags.has fmtIntlong then slot.flags.set fmtIntlonglong
          else slot.flags.set fmtIntlong })
  else if c = 'd' ∨ c = 'i' then .ok (p.finish .integer false)
  else if c = 'u' then .ok (p.finish .integer true)
  else if c = 'c' then .ok (p.finish .char true)
  else if c = 'x' ∨ c = 'X' then .ok (p.finish .hex true)
  else if c ∈ markChars then
    if (p.fmt p.pos).flags ≠ 0 then .error (-1) else .ok p
  else if c ∈ numberChars then
    if (p.fmt p.pos).flags ≠ 0 then .error (-1) else .ok p
  else .error (-2)

def Parse.next (c : Char) (p : Parse) : Except Int Parse :=
  if p.parsing then p.directive c
  else .ok (if c = '%' then { p with parsing := true } else p)

def Parse.char (c : Char) (p : Parse) : Except Int Parse := do
  let p ← p.next c
  if maxFmtArgs ≤ p.pos + 1 then .error 0 else .ok p

/-- The loop of `lang_fmt_parse`. An error is what it returns instead of 1. -/
def parseAll : CString → Parse → Except Int Parse
  | [], p => .ok p
  | c :: data, p => (p.char c).bind (parseAll data)

/-- `lang_fmt_parse`: the slots if it returns 1, and what it returns else. -/
def langFmtParse (data : CString) : Except Int (Nat → LangFmt) :=
  (parseAll data ⟨0, false, fun _ => blank⟩).map Parse.fmt

/-- `lang_fmt_check`, which returns 1. -/
def langFmtCheck (original translation : CString) : Bool :=
  match langFmtParse original, langFmtParse translation with
  | .ok originalFmt, .ok translationFmt =>
      (List.range maxFmtArgs).all fun i =>
        originalFmt i == translationFmt i
  | _, _ => false

/-- What `lang_fmt_parse` reads between a percent sign and a letter. -/
def isModifier (c : Char) : Bool :=
  decide (c = 'l' ∨ c ∈ markChars ∨ c ∈ numberChars)

def scan : Option CString → CString → List (CString × Option Char)
  | none, [] => []
  | some modifiers, [] => [(modifiers, none)]
  | none, c :: data => scan (if c = '%' then some [] else none) data
  | some modifiers, c :: data =>
      if isModifier c then scan (some (modifiers ++ [c])) data
      else (modifiers, some c) :: scan none data

def splitPrecision : CString → Option Printf.Amount × CString
  | '.' :: rest =>
      (some (.number (rest.takeWhile (· ∈ Printf.digitChars))),
        rest.dropWhile (· ∈ Printf.digitChars))
  | rest => (none, rest)

def behindWidth (modifiers : CString) : CString :=
  (modifiers.dropWhile (· ∈ Printf.flagChars)).dropWhile
    (· ∈ Printf.digitChars)

def behindPrecision (modifiers : CString) : CString :=
  (splitPrecision (behindWidth modifiers)).2

/-- The most `l` a letter can have. -/
def maxLongs (c : Char) : Nat :=
  if c = 'c' ∨ c = 's' then 1 else 2

/-- What is wanted of a conversion beyond what the check looks at: it does not
end with the format, a percent sign stands for itself only directly behind the
other one, the modifiers stand in their order, there are no more `l` than the
letter can have, and no `#`, `0` or precision it cannot have. -/
def Orderly : CString × Option Char → Bool
  | (_, none) => false
  | (modifiers, some c) =>
      if c = '%' then modifiers.isEmpty
      else
        let longs := behindPrecision modifiers
        let flags := modifiers.takeWhile (· ∈ Printf.flagChars)
        longs.all (· == 'l') &&
          decide (longs.length ≤ maxLongs c) &&
          (c == 'x' || c == 'X' || !decide ('#' ∈ flags)) &&
          !((c == 'c' || c == 's') && decide ('0' ∈ flags)) &&
          !(c == 'c' && decide ('.' ∈ modifiers))

def AllOrderly (format : CString) : Prop :=
  ∀ conversion ∈ scan none format, Orderly conversion = true

instance (format : CString) : Decidable (AllOrderly format) :=
  inferInstanceAs (Decidable (∀ conversion ∈ scan none format, _))

variable {p after : Parse} {data format modifiers : CString} {c : Char}

theorem scan_some (read data : CString) :
    scan (some read) data =
      match data.dropWhile isModifier with
      | [] => [(read ++ data.takeWhile isModifier, none)]
      | c :: rest =>
          (read ++ data.takeWhile isModifier, some c) :: scan none rest := by
  induction data generalizing read with
  | nil => simp [scan]
  | cons c data ih =>
      by_cases modifier : isModifier c = true
      · rw [scan, if_pos modifier, ih, List.dropWhile_cons_of_pos modifier,
          List.takeWhile_cons_of_pos modifier]
        simp
      · rw [scan, if_neg modifier, List.dropWhile_cons_of_neg modifier,
          List.takeWhile_cons_of_neg modifier, List.append_nil]

theorem scan_literal (literal : c ≠ '%') :
    scan none (c :: data) = scan none data := by
  rw [scan, if_neg literal]

theorem scan_conversion (all : ∀ d ∈ modifiers, isModifier d = true)
    (letter : isModifier c = false) :
    scan none ('%' :: (modifiers ++ c :: data)) =
      (modifiers, some c) :: scan none data := by
  have stops : ¬isModifier c = true := by simp [letter]
  rw [scan, if_pos rfl, scan_some, List.dropWhile_append_of_pos all,
    List.dropWhile_cons_of_neg stops, List.takeWhile_append_of_pos all,
    List.takeWhile_cons_of_neg stops, List.append_nil, List.nil_append]

theorem split_modifiers (text : CString) :
    (∀ d ∈ text, isModifier d = true) ∨
      ∃ front c back, text = front ++ c :: back ∧
        (∀ d ∈ front, isModifier d = true) ∧ isModifier c = false := by
  have whole : text.takeWhile isModifier ++ text.dropWhile isModifier =
      text := List.takeWhile_append_dropWhile
  have front : ∀ d ∈ text.takeWhile isModifier, isModifier d = true :=
    fun d listed => List.mem_takeWhile_imp listed
  cases stopped : text.dropWhile isModifier with
  | nil =>
      rw [stopped, List.append_nil] at whole
      exact Or.inl (whole ▸ front)
  | cons c back =>
      have letter := List.head?_dropWhile_not isModifier text
      rw [stopped] at whole letter
      exact Or.inr ⟨_, c, back, whole.symm, front, by simpa using letter⟩

theorem scan_percent (data : CString) :
    scan none ('%' :: data) = [(data, none)] ∨
      ∃ modifiers c rest, data = modifiers ++ c :: rest ∧
        (∀ d ∈ modifiers, isModifier d = true) ∧ isModifier c = false ∧
        scan none ('%' :: data) = (modifiers, some c) :: scan none rest := by
  obtain all | ⟨modifiers, c, rest, rfl, all, letter⟩ := split_modifiers data
  · refine Or.inl ?_
    rw [scan, if_pos rfl, scan_some, List.dropWhile_eq_nil_iff.mpr all,
      List.takeWhile_eq_self_iff.mpr all, List.nil_append]
  · exact Or.inr ⟨modifiers, c, rest, rfl, all, letter,
      scan_conversion all letter⟩

/-- The letters of the `switch` that end a conversion. -/
def known : List Char := ['%', 's', 'd', 'i', 'u', 'c', 'x', 'X']

theorem parseAll_cons (parsed : parseAll (c :: data) p = .ok after) :
    ∃ middle, p.char c = .ok middle ∧ parseAll data middle = .ok after := by
  rw [parseAll] at parsed
  cases first : p.char c with
  | error returned =>
      rw [first] at parsed
      cases parsed
  | ok middle =>
      rw [first] at parsed
      exact ⟨middle, rfl, parsed⟩

theorem char_ok (read : p.char c = .ok after) :
    p.next c = .ok after ∧ after.pos + 1 < maxFmtArgs := by
  unfold Parse.char at read
  cases first : p.next c with
  | error returned =>
      rw [first] at read
      cases read
  | ok middle =>
      rw [first] at read
      have last : (if maxFmtArgs ≤ middle.pos + 1 then .error 0
          else .ok middle : Except Int Parse) = .ok after := read
      split at last
      · cases last
      · rename_i room
        cases last
        exact ⟨rfl, by omega⟩

theorem char_of_text (text : p.parsing = false)
    (read : p.char c = .ok after) :
    after = if c = '%' then { p with parsing := true } else p := by
  have first := (char_ok read).1
  rw [Parse.next, if_neg (by simp [text]), Except.ok.injEq] at first
  exact first.symm

theorem char_of_parsing (parsing : p.parsing = true)
    (read : p.char c = .ok after) : p.directive c = .ok after := by
  have first := (char_ok read).1
  rwa [Parse.next, if_pos parsing] at first

/-- `l` read so many times. -/
def addLongs : Nat → Word → Word
  | 0, flags => flags
  | n + 1, flags =>
      addLongs n (if flags.has fmtIntlong then flags.set fmtIntlonglong
        else flags.set fmtIntlong)

theorem Parse.modify_self (p : Parse) :
    p.modify (fun slot => { slot with flags := slot.flags }) = p := by
  unfold Parse.modify
  rw [Function.update_eq_self]

theorem Parse.modify_modify (first second : LangFmt → LangFmt) (p : Parse) :
    (p.modify first).modify second =
      p.modify fun slot => second (first slot) := by
  simp only [Parse.modify, Function.update_self, Function.update_idem]

theorem directive_mark (mark : c ∈ markChars ∨ c ∈ numberChars) :
    p.directive c =
      if (p.fmt p.pos).flags ≠ 0 then .error (-1) else .ok p := by
  simp only [markChars, numberChars, List.mem_cons, List.not_mem_nil,
    or_false] at mark
  rcases mark with (rfl | rfl | rfl | rfl) | (rfl | rfl | rfl | rfl | rfl |
    rfl | rfl | rfl | rfl | rfl) <;> rfl

theorem directive_modifier (modifier : isModifier c = true)
    (read : p.directive c = .ok after) :
    after = p.modify fun slot =>
      { slot with flags := addLongs ([c].count 'l') slot.flags } := by
  obtain rfl | mark := of_decide_eq_true modifier
  · exact (Except.ok.inj read).symm
  · have noLong : [c].count 'l' = 0 := by
      rw [List.count_eq_zero]
      intro listed
      rw [← List.mem_singleton.mp listed] at mark
      revert mark
      decide
    rw [directive_mark mark] at read
    split at read
    · cases read
    · rw [noLong, ← Except.ok.inj read]
      exact (Parse.modify_self p).symm

theorem addLongs_add (n m : Nat) (flags : Word) :
    addLongs (n + m) flags = addLongs m (addLongs n flags) := by
  induction n generalizing flags with
  | zero => rw [Nat.zero_add, addLongs]
  | succ n ih => rw [Nat.add_right_comm, addLongs, ih, addLongs]

theorem parseAll_modifiers (parsing : p.parsing = true)
    (all : ∀ d ∈ modifiers, isModifier d = true)
    (parsed : parseAll (modifiers ++ data) p = .ok after) :
    parseAll data (p.modify fun slot =>
      { slot with
        flags := addLongs (modifiers.count 'l') slot.flags }) = .ok after := by
  induction modifiers generalizing p with
  | nil =>
      rw [List.count_nil]
      exact (Parse.modify_self p).symm ▸ parsed
  | cons d modifiers ih =>
      obtain ⟨middle, first, rest⟩ := parseAll_cons parsed
      have one := directive_modifier (all d (by simp))
        (char_of_parsing parsing first)
      subst one
      have still : (p.modify fun slot =>
          { slot with
            flags := addLongs ([d].count 'l') slot.flags }).parsing = true :=
        parsing
      have others := ih still
        (fun e listed => all e (List.mem_cons_of_mem _ listed)) rest
      rw [Parse.modify_modify] at others
      have counted : (d :: modifiers).count 'l' =
          [d].count 'l' + modifiers.count 'l' := by
        rw [← List.count_append, List.singleton_append]
      simp only [counted, addLongs_add]
      exact others

theorem directive_known (letter : isModifier c = false)
    (read : p.directive c = .ok after) : c ∈ known := by
  by_contra other
  have different : ∀ d ∈ known, c ≠ d := by
    rintro d listed rfl
    exact other listed
  have noModifier : ∀ d, isModifier d = true → c ≠ d := by
    rintro d modifier rfl
    rw [letter] at modifier
    cases modifier
  have noLong : c ≠ 'l' := noModifier 'l' rfl
  have noMark : c ∉ markChars := fun listed =>
    noModifier c (decide_eq_true (Or.inr (Or.inl listed))) rfl
  have noNumber : c ∉ numberChars := fun listed =>
    noModifier c (decide_eq_true (Or.inr (Or.inr listed))) rfl
  unfold Parse.directive at read
  simp [different '%' (by decide), different 's' (by decide),
    different 'd' (by decide), different 'i' (by decide),
    different 'u' (by decide), different 'c' (by decide),
    different 'x' (by decide), different 'X' (by decide), noLong, noMark,
    noNumber] at read

open Printf (ArgType Size Directive Reads argType flagChars digitChars)

def typeOf (slot : LangFmt) : Option ArgType :=
  let length : Size :=
    if slot.flags.has fmtIntlonglong then .longLong
    else if slot.flags.has fmtIntlong then .long
    else .plain
  match slot.type with
  | .none => none
  | .string => some (.string length)
  | .char => some (.char length)
  | .integer => some (.integer (!slot.flags.has fmtUnsigned) length)
  | .hex => some (.integer false length)

structure AtText (types : List ArgType) (p : Parse) : Prop where
  parsing : p.parsing = false
  pos : p.pos = types.length
  filled : ∀ i, typeOf (p.fmt i) = types[i]?
  unused : ∀ i, p.pos ≤ i → p.fmt i = blank

/-- The length modifier of so many `l`. -/
def sizeOf : Nat → Size
  | 0 => .plain
  | 1 => .long
  | _ => .longLong

def finished (type : LangFmtType) (isUnsigned : Bool) (longs : Nat) :
    LangFmt :=
  let flags := addLongs longs 0
  ⟨type, if isUnsigned then flags.set fmtUnsigned else flags⟩

theorem directive_letter (letter : c ∈ known) (notPercent : c ≠ '%')
    {longs : Nat} (few : longs ≤ maxLongs c) :
    ∃ arg type isUnsigned, argType c (sizeOf longs) = some arg ∧
      (∀ p : Parse, p.directive c = .ok (p.finish type isUnsigned)) ∧
      typeOf (finished type isUnsigned longs) = some arg := by
  have small : longs = 0 ∨ longs = 1 ∨ (longs = 2 ∧ c ≠ 's' ∧ c ≠ 'c') := by
    unfold maxLongs at few
    split at few
    · omega
    · rename_i other
      have apart : c ≠ 's' ∧ c ≠ 'c' :=
        ⟨fun same => other (Or.inr same), fun same => other (Or.inl same)⟩
      rcases Nat.lt_or_ge longs 2 with less | two
      · omega
      · exact Or.inr (Or.inr ⟨by omega, apart⟩)
  simp only [known, List.mem_cons, List.not_mem_nil, or_false] at letter
  rcases small with rfl | rfl | ⟨rfl, notString, notChar⟩ <;>
    rcases letter with rfl | rfl | rfl | rfl | rfl | rfl | rfl | rfl <;>
    first
    | contradiction
    | exact ⟨_, _, _, rfl, fun _ => rfl, by decide⟩

theorem AtText.finish {types : List ArgType} {type : LangFmtType}
    {isUnsigned : Bool} {longs : Nat} {arg : ArgType}
    (atText : AtText types p)
    (reads : typeOf (finished type isUnsigned longs) = some arg) :
    AtText (types ++ [arg])
      (({ p with parsing := true }.modify fun slot =>
        { slot with flags := addLongs longs slot.flags }).finish type
          isUnsigned) := by
  have here : p.fmt p.pos = blank := atText.unused p.pos (Nat.le_refl _)
  have slot : (({ p with parsing := true }.modify fun slot =>
        { slot with flags := addLongs longs slot.flags }).finish type
          isUnsigned).fmt =
      Function.update p.fmt p.pos (finished type isUnsigned longs) := by
    simp only [Parse.finish, Parse.modify, Function.update_self,
      Function.update_idem, here]
    rfl
  refine ⟨rfl, ?_, ?_, ?_⟩
  · show p.pos + 1 = (types ++ [arg]).length
    simp [atText.pos]
  · intro i
    rw [slot]
    by_cases last : i = p.pos
    · subst last
      rw [Function.update_self, reads, atText.pos]
      simp
    · rw [Function.update_of_ne last, atText.filled]
      have other : i ≠ types.length := atText.pos ▸ last
      rcases Nat.lt_or_ge i types.length with inside | behind
      · rw [List.getElem?_append_left inside]
      · rw [List.getElem?_eq_none behind, List.getElem?_eq_none]
        simp
        omega
  · intro i behind
    have beyond : p.pos + 1 ≤ i := behind
    rw [slot, Function.update_of_ne (by omega)]
    exact atText.unused i (by omega)

/-- The parts of the modifiers, as a directive of which the size is told by the
number of `l`. -/
def directiveOf (modifiers : CString) (c : Char) : Directive where
  flags := modifiers.takeWhile (· ∈ flagChars)
  width := .number ((modifiers.dropWhile (· ∈ flagChars)).takeWhile
    (· ∈ digitChars))
  precision := (splitPrecision (behindWidth modifiers)).1
  size := sizeOf (behindPrecision modifiers).length
  conv := c

theorem splitPrecision_other {rest : CString}
    (noDot : rest.head? ≠ some '.') : splitPrecision rest = (none, rest) := by
  unfold splitPrecision
  split
  · exact absurd rfl noDot
  · rfl

theorem directiveOf_precision (modifiers : CString) :
    (directiveOf modifiers c).precisionText ++ behindPrecision modifiers =
      behindWidth modifiers := by
  unfold Directive.precisionText directiveOf behindPrecision
  generalize behindWidth modifiers = rest
  by_cases dot : rest.head? = some '.'
  · obtain ⟨digits, rfl⟩ := List.head?_eq_some_iff.mp dot
    show '.' :: (digits.takeWhile _ ++ digits.dropWhile _) = _
    rw [List.takeWhile_append_dropWhile]
  · rw [splitPrecision_other dot]
    rfl

theorem directiveOf_modifiers
    (longs : behindPrecision modifiers =
      (sizeOf (behindPrecision modifiers).length).text) :
    (directiveOf modifiers c).modifiers = modifiers := by
  have size : (directiveOf modifiers c).size.text =
      behindPrecision modifiers := longs.symm
  rw [Directive.modifiers, size, directiveOf_precision]
  show modifiers.takeWhile _ ++ ((modifiers.dropWhile _).takeWhile _ ++
    (modifiers.dropWhile _).dropWhile _) = _
  rw [List.takeWhile_append_dropWhile, List.takeWhile_append_dropWhile]

theorem longs_eq_text {longs : CString} (all : longs.all (· == 'l') = true)
    (few : longs.length ≤ 2) : longs = (sizeOf longs.length).text := by
  have repeated : longs = List.replicate longs.length 'l' := by
    rw [List.eq_replicate_iff]
    exact ⟨rfl, fun c listed => by
      simpa using List.all_eq_true.mp all c listed⟩
  generalize longs.length = n at repeated few
  subst repeated
  have small : n = 0 ∨ n = 1 ∨ n = 2 := by omega
  obtain rfl | rfl | rfl := small <;> rfl

theorem maxLongs_le (c : Char) : maxLongs c ≤ 2 := by
  unfold maxLongs
  split <;> omega

theorem orderly_iff (notPercent : c ≠ '%') :
    Orderly (modifiers, some c) = true ↔
      (behindPrecision modifiers).all (· == 'l') = true ∧
        (behindPrecision modifiers).length ≤ maxLongs c ∧
        ('#' ∈ modifiers.takeWhile (· ∈ flagChars) → c = 'x' ∨ c = 'X') ∧
        ('0' ∈ modifiers.takeWhile (· ∈ flagChars) → c ≠ 'c' ∧ c ≠ 's') ∧
        ('.' ∈ modifiers → c ≠ 'c') := by
  simp only [Orderly, if_neg notPercent, Bool.and_eq_true, Bool.or_eq_true,
    Bool.not_eq_true', Bool.and_eq_false_imp, beq_iff_eq, decide_eq_true_eq,
    decide_eq_false_iff_not]
  constructor
  · intro ⟨⟨⟨⟨all, few⟩, alternate⟩, zero⟩, dot⟩
    refine ⟨all, few, ?_, ?_, fun dotted isChar => dot isChar dotted⟩
    · intro flag
      exact alternate.resolve_right (not_not_intro flag)
    · intro flag
      exact ⟨fun isChar => zero (Or.inl isChar) flag,
        fun isString => zero (Or.inr isString) flag⟩
  · intro ⟨all, few, alternate, zero, dot⟩
    refine ⟨⟨⟨⟨all, few⟩, ?_⟩, ?_⟩, fun isChar dotted => dot dotted isChar⟩
    · apply or_iff_not_imp_right.mpr
      intro flag
      exact alternate (not_not.mp flag)
    · intro kind flag
      obtain ⟨notChar, notString⟩ := zero flag
      exact kind.elim notChar notString

theorem directiveOf_valid (letter : c ∈ known) (notPercent : c ≠ '%')
    {arg : ArgType} (orderly : Orderly (modifiers, some c) = true)
    (reads : argType c (sizeOf (behindPrecision modifiers).length) =
      some arg) :
    (directiveOf modifiers c).Valid arg := by
  obtain ⟨-, -, alternate, zero, dot⟩ := (orderly_iff notPercent).mp orderly
  have kinds : c = 's' ∨ c = 'c' ∨
      c ∈ ['d', 'i', 'o', 'u', 'x', 'X'] ++ Printf.floats := by
    simp only [known, List.mem_cons, List.not_mem_nil, or_false] at letter
    rcases letter with rfl | rfl | rfl | rfl | rfl | rfl | rfl | rfl <;>
      first
      | exact absurd rfl notPercent
      | decide
  refine ⟨?_, ?_, ?_, ?_, ?_, reads⟩
  · intro d listed
    simpa using List.mem_takeWhile_imp listed
  · intro listed
    have hex : c ∈ ['o', 'x', 'X'] := by
      obtain rfl | rfl := alternate listed <;> decide
    exact List.mem_append_left _ hex
  · intro listed
    obtain ⟨notChar, notString⟩ := zero listed
    exact (kinds.resolve_left notString).resolve_left notChar
  · refine ⟨fun d listed => by simpa using List.mem_takeWhile_imp listed,
      fun d first => ?_⟩
    have digit : d ∈ digitChars := by
      simpa using List.mem_takeWhile_imp (List.mem_of_mem_head? first)
    have noFlag : d ∉ flagChars := by
      have head := List.head?_dropWhile_not (· ∈ flagChars) modifiers
      cases rest : modifiers.dropWhile (· ∈ flagChars) with
      | nil => simp [rest] at first
      | cons e others =>
          have same : e = d := by
            rw [rest, List.takeWhile_cons] at first
            split at first
            · simpa using first
            · cases first
          rw [rest] at head
          simpa [same] using head
    revert digit noFlag
    simp only [digitChars, flagChars, List.mem_cons, List.not_mem_nil,
      or_false]
    rintro (rfl | others) noFlag
    · simp at noFlag
    · exact others
  · intro amount given
    have dotted : ∃ digits, behindWidth modifiers = '.' :: digits ∧
        amount = .number (digits.takeWhile (· ∈ digitChars)) := by
      by_cases dot : (behindWidth modifiers).head? = some '.'
      · obtain ⟨digits, shape⟩ := List.head?_eq_some_iff.mp dot
        refine ⟨digits, shape, ?_⟩
        have taken : (splitPrecision ('.' :: digits)).1 = some amount := by
          rw [← shape]
          exact given
        exact (Option.some.inj taken).symm
      · have nothing : (splitPrecision (behindWidth modifiers)).1 =
            some amount := given
        rw [splitPrecision_other dot] at nothing
        cases nothing
    obtain ⟨digits, shape, rfl⟩ := dotted
    have inside : '.' ∈ modifiers := by
      have listed : '.' ∈ behindWidth modifiers := by
        rw [shape]
        exact List.mem_cons_self
      exact (List.dropWhile_sublist _).mem ((List.dropWhile_sublist _).mem
        listed)
    refine ⟨⟨fun d listed => by simpa using List.mem_takeWhile_imp listed,
      fun d first => by
        simpa using List.mem_takeWhile_imp (List.mem_of_mem_head? first)⟩, ?_⟩
    show c ∈ _
    obtain rfl | isChar | number := kinds
    · decide
    · exact absurd isChar (dot inside)
    · obtain integer | float := List.mem_append.mp number
      · exact List.mem_append_left _ (List.mem_append_left ['s'] integer)
      · exact List.mem_append_right _ float

theorem count_longs (all : (behindPrecision modifiers).all (· == 'l') = true) :
    modifiers.count 'l' = (behindPrecision modifiers).length := by
  have apart {test : List Char} (without : 'l' ∉ test) (text : CString) :
      (text.takeWhile (· ∈ test)).count 'l' = 0 := by
    rw [List.count_eq_zero]
    intro listed
    exact without (by simpa using List.mem_takeWhile_imp listed)
  have last : (behindPrecision modifiers).count 'l' =
      (behindPrecision modifiers).length := by
    rw [List.count_eq_length]
    intro d listed
    exact (by simpa using List.all_eq_true.mp all d listed : d = 'l').symm
  have behind : (behindWidth modifiers).count 'l' =
      (behindPrecision modifiers).count 'l' := by
    unfold behindPrecision
    by_cases dot : (behindWidth modifiers).head? = some '.'
    · obtain ⟨digits, shape⟩ := List.head?_eq_some_iff.mp dot
      have whole : digits.takeWhile (· ∈ digitChars) ++
          digits.dropWhile (· ∈ digitChars) = digits :=
        List.takeWhile_append_dropWhile
      rw [shape]
      show ('.' :: digits).count 'l' =
        (digits.dropWhile (· ∈ digitChars)).count 'l'
      conv_lhs => rw [← whole]
      rw [List.count_cons_of_ne (by decide), List.count_append,
        apart (by decide), Nat.zero_add]
    · rw [splitPrecision_other dot]
  have front : modifiers.takeWhile (· ∈ flagChars) ++
      ((modifiers.dropWhile (· ∈ flagChars)).takeWhile (· ∈ digitChars) ++
        behindWidth modifiers) = modifiers := by
    rw [behindWidth, List.takeWhile_append_dropWhile,
      List.takeWhile_append_dropWhile]
  calc modifiers.count 'l'
    _ = (behindWidth modifiers).count 'l' := by
        conv_lhs => rw [← front]
        rw [List.count_append, List.count_append, apart (by decide),
          apart (by decide), Nat.zero_add, Nat.zero_add]
    _ = (behindPrecision modifiers).length := by rw [behind, last]

theorem parseAll_conversion (text : p.parsing = false)
    (all : ∀ d ∈ modifiers, isModifier d = true)
    (letter : isModifier c = false)
    (parsed : parseAll ('%' :: (modifiers ++ c :: data)) p = .ok after) :
    ∃ last, ({ p with parsing := true }.modify fun slot =>
        { slot with
          flags := addLongs (modifiers.count 'l') slot.flags }).directive c =
        .ok last ∧ c ∈ known ∧ parseAll data last = .ok after := by
  obtain ⟨middle, first, rest⟩ := parseAll_cons parsed
  have begun := char_of_text text first
  rw [if_pos rfl] at begun
  subst begun
  obtain ⟨last, read, rest⟩ := parseAll_cons (parseAll_modifiers rfl all rest)
  have letterRead := char_of_parsing rfl read
  exact ⟨last, letterRead, directive_known letter letterRead, rest⟩

theorem AtText.percent {types : List ArgType} (atText : AtText types p)
    (parsed : parseAll ('%' :: '%' :: data) p = .ok after) :
    parseAll data p = .ok after := by
  have parsed : parseAll ('%' :: ([] ++ '%' :: data)) p = .ok after := parsed
  obtain ⟨last, read, -, rest⟩ :=
    parseAll_conversion atText.parsing (by simp) rfl parsed
  rw [List.count_nil] at read
  have lastIs : { p with parsing := false } = last := by
    rw [← Except.ok.inj read]
    exact congrArg (fun q : Parse => { q with parsing := false })
      (Parse.modify_self { p with parsing := true }).symm
  rw [← lastIs, ← atText.parsing] at rest
  exact rest

theorem AtText.conversion {types : List ArgType} (atText : AtText types p)
    (all : ∀ d ∈ modifiers, isModifier d = true)
    (letter : isModifier c = false) (notPercent : c ≠ '%')
    (orderly : Orderly (modifiers, some c) = true)
    (parsed : parseAll ('%' :: (modifiers ++ c :: data)) p = .ok after) :
    ∃ arg last, (directiveOf modifiers c).Valid arg ∧
      AtText (types ++ [arg]) last ∧ parseAll data last = .ok after := by
  obtain ⟨last, read, inSwitch, rest⟩ :=
    parseAll_conversion atText.parsing all letter parsed
  obtain ⟨longs, few, -⟩ := (orderly_iff notPercent).mp orderly
  rw [count_longs longs] at read
  obtain ⟨arg, type, isUnsigned, reads, finish, slot⟩ :=
    directive_letter inSwitch notPercent few
  rw [finish, Except.ok.injEq] at read
  exact ⟨arg, last, directiveOf_valid inSwitch notPercent orderly reads,
    read ▸ atText.finish slot, rest⟩

theorem directiveOf_text (notPercent : c ≠ '%')
    (orderly : Orderly (modifiers, some c) = true) :
    (directiveOf modifiers c).text = modifiers ++ [c] := by
  obtain ⟨longs, few, -⟩ := (orderly_iff notPercent).mp orderly
  rw [Directive.text, directiveOf_modifiers
    (longs_eq_text longs (few.trans (maxLongs_le c)))]
  rfl

theorem directiveOf_precisionArgs (modifiers : CString) :
    (directiveOf modifiers c).precisionArgs = [] := by
  unfold Directive.precisionArgs directiveOf
  by_cases dot : (behindWidth modifiers).head? = some '.'
  · obtain ⟨digits, shape⟩ := List.head?_eq_some_iff.mp dot
    rw [shape]
    rfl
  · rw [splitPrecision_other dot]

theorem reads_of_orderly (data : CString) (types : List ArgType)
    (atText : AtText types p) (parsed : parseAll data p = .ok after)
    (orderly : ∀ conversion ∈ scan none data, Orderly conversion = true) :
    ∃ more, Reads data more ∧ AtText (types ++ more) after := by
  induction length : data.length using Nat.strongRecOn
    generalizing data types p with
  | _ n ih =>
      cases data with
      | nil =>
          rw [parseAll, Except.ok.injEq] at parsed
          subst parsed
          exact ⟨[], .nil, by rwa [List.append_nil]⟩
      | cons c data =>
          rw [List.length_cons] at length
          by_cases literal : c ≠ '%'
          · obtain ⟨middle, first, rest⟩ := parseAll_cons parsed
            have middleIs := char_of_text atText.parsing first
            rw [if_neg literal] at middleIs
            subst middleIs
            rw [scan_literal literal] at orderly
            obtain ⟨more, reads, final⟩ :=
              ih _ (by omega) data types atText rest orderly rfl
            exact ⟨more, .literal literal reads, final⟩
          rw [not_ne_iff] at literal
          subst literal
          obtain unfinished | ⟨modifiers, c, others, rfl, all, letter,
            scanned⟩ := scan_percent data
          · have ends := orderly (data, none) (by simp [unfinished])
            cases ends
          have here : Orderly (modifiers, some c) = true :=
            orderly _ (by simp [scanned])
          have behind : ∀ conversion ∈ scan none others,
              Orderly conversion = true := fun conversion listed =>
            orderly conversion (by simp [scanned, listed])
          have fewer : others.length < n := by
            simp only [List.length_append, List.length_cons] at length
            omega
          by_cases twice : c = '%'
          · subst twice
            have bare : modifiers = [] := by simpa [Orderly] using here
            subst bare
            obtain ⟨more, reads, final⟩ :=
              ih _ fewer others types atText (atText.percent parsed) behind rfl
            exact ⟨more, .percent reads, final⟩
          · obtain ⟨arg, last, valid, filled, rest⟩ :=
              atText.conversion all letter twice here parsed
            obtain ⟨more, reads, final⟩ :=
              ih _ fewer others _ filled rest behind rfl
            have whole := Reads.directive valid reads
            rw [directiveOf_text twice here, directiveOf_precisionArgs,
              List.append_assoc] at whole
            exact ⟨arg :: more, whole, by simpa using final⟩

end LangFmt

end RatboxServices
