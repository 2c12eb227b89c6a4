import RatboxServices.Db.Exec
import RatboxServices.Db.FormatQuote
import RatboxServices.Db.SqlJoin

namespace RatboxServices

open CString
open Format Expansion

/-! Statements with places that are filled in, and what SQLite makes of them. -/

namespace Sql

/-- The loop of `sqlite3Dequote`: what is copied, and whether it comes to a
closing quote. -/
def copyQuoted (quote : Char) : CString → CString × Bool
  | [] => ([], false)
  | c :: z =>
      if c = quote then
        match z with
        | d :: rest =>
            if d = quote then
              let (copied, closed) := copyQuoted quote rest
              (quote :: copied, closed)
            else ([], true)
        | [] => ([], true)
      else
        let (copied, closed) := copyQuoted quote z
        (c :: copied, closed)

/-- `sqlite3Dequote`, which leaves the end of the text where there is no closing
quote. -/
def dequote : CString → CString
  | [] => []
  | c :: z =>
      let copy (quote : Char) : CString :=
        let (copied, closed) := copyQuoted quote z
        if closed then copied else copied ++ (c :: z).drop copied.length
      match c with
      | '\'' | '"' | '`' => copy c
      | '[' => copy ']'
      | _ => c :: z

def Token.read (token : Token) : SqlKind × CString :=
  (token.kind, dequote token.text)

def read (sql : CString) : Option (List (SqlKind × CString)) :=
  (tokens sql).map (·.map Token.read)

example : read "SELECT 'it''s'".toList =
    some [(.word, "SELECT".toList), (.string, "it's".toList)] := by
  decide +kernel

inductive Conv
  | quoted | char | int | uint | long | ulong
  deriving DecidableEq, Repr

namespace Conv

def letters : Conv → CString
  | .quoted => ['%', 'Q']
  | .char => ['%', 'c']
  | .int => ['%', 'd']
  | .uint => ['%', 'u']
  | .long => ['%', 'l', 'd']
  | .ulong => ['%', 'l', 'u']

def isNumber : Conv → Bool
  | .quoted | .char => false
  | _ => true

def text : Conv → FormatArg → Option CString
  | .quoted, .str none => some []
  | .quoted, .str (some text) =>
      if text.length < 1024 ∧ '\x00' ∉ text then some text else none
  | .char, .int value =>
      let c := Char.ofNat (value.toInt % 256).toNat
      if c = '\'' ∨ c = '\x00' then none else some [c]
  | .int, .int value =>
      if value.toInt = -2147483648 then none
      else some (formatInt value.toInt)
  | .uint, .uint value => some (decimal value.toNat)
  | .long, .long value =>
      if value.toInt.natAbs < 10 ^ 18 then some (formatInt value.toInt)
      else none
  | .ulong, .ulong value =>
      if value.toNat < 10 ^ 18 then some (decimal value.toNat) else none
  | _, _ => none

end Conv

structure Slot where
  conv : Conv
  inQuotes : Bool
  deriving DecidableEq, Repr

namespace Slot

def format (slot : Slot) : CString :=
  if slot.inQuotes then '\'' :: slot.conv.letters ++ ['\'']
  else slot.conv.letters

def sql (slot : Slot) (value : CString) : CString :=
  if slot.inQuotes then literal value else value

def reading (slot : Slot) (value : CString) : List (SqlKind × CString) :=
  if slot.inQuotes then [(.string, value)]
  else
    match value with
    | '-' :: digits => [(.minus, ['-']), (.integer, digits)]
    | digits => [(.integer, digits)]

def followedBy (slot : Slot) (code : CString) : Bool :=
  match code.head? with
  | some c => if slot.inQuotes then c != '\'' else !isIdChar c && c != '.'
  | none => true

end Slot

/-- A format: its text up to the first place, and the places with the text
behind each. -/
structure Template where
  start : CString
  slots : List (Slot × CString)
  deriving DecidableEq, Repr

namespace Template

def addChar (c : Char) : Template → Template
  | ⟨start, slots⟩ => ⟨c :: start, slots⟩

def addSlot (conv : Conv) (inQuotes : Bool) : Template → Template
  | ⟨start, slots⟩ => ⟨[], (⟨conv, inQuotes⟩, start) :: slots⟩

def ofFormat : CString → Template
  | '\'' :: '%' :: 'Q' :: '\'' :: z => addSlot .quoted true (ofFormat z)
  | '\'' :: '%' :: 'c' :: '\'' :: z => addSlot .char true (ofFormat z)
  | '\'' :: '%' :: 'd' :: '\'' :: z => addSlot .int true (ofFormat z)
  | '\'' :: '%' :: 'u' :: '\'' :: z => addSlot .uint true (ofFormat z)
  | '\'' :: '%' :: 'l' :: 'd' :: '\'' :: z => addSlot .long true (ofFormat z)
  | '\'' :: '%' :: 'l' :: 'u' :: '\'' :: z => addSlot .ulong true (ofFormat z)
  | '%' :: 'd' :: z => addSlot .int false (ofFormat z)
  | '%' :: 'u' :: z => addSlot .uint false (ofFormat z)
  | '%' :: 'l' :: 'd' :: z => addSlot .long false (ofFormat z)
  | '%' :: 'l' :: 'u' :: z => addSlot .ulong false (ofFormat z)
  | c :: z => addChar c (ofFormat z)
  | [] => ⟨[], []⟩

def slotsFormat : List (Slot × CString) → CString
  | [] => []
  | (slot, code) :: slots => slot.format ++ code ++ slotsFormat slots

def format (t : Template) : CString :=
  t.start ++ slotsFormat t.slots

def values : List (Slot × CString) → List FormatArg → Option (List CString)
  | [], [] => some []
  | (slot, _) :: slots, arg :: args => do
      let value ← slot.conv.text arg
      let others ← values slots args
      some (value :: others)
  | _, _ => none

def slotsSql : List (Slot × CString) → List CString → CString
  | (slot, code) :: slots, value :: others =>
      slot.sql value ++ code ++ slotsSql slots others
  | _, _ => []

def sql (t : Template) (texts : List CString) : CString :=
  t.start ++ slotsSql t.slots texts

def slotsReading : List (Slot × CString) → List CString →
    Option (List (SqlKind × CString))
  | (slot, code) :: slots, value :: others => do
      let behind ← read code
      let rest ← slotsReading slots others
      some (slot.reading value ++ behind ++ rest)
  | _, _ => some []

def reading (t : Template) (texts : List CString) :
    Option (List (SqlKind × CString)) := do
  let start ← read t.start
  let rest ← slotsReading t.slots texts
  some (start ++ rest)

def codeSound (code : CString) : Bool :=
  code.all isPlain &&
    match tokens code with
    | some ts => ts.all (isSettled ·.kind)
    | none => false

def closes (code : CString) : Bool :=
  match code.getLast? with
  | some c => isClosing c
  | none => false

def slotsSound : List (Slot × CString) → Bool
  | [] => true
  | (slot, code) :: slots =>
      codeSound code && slot.followedBy code &&
        (slot.inQuotes || slot.conv.isNumber) &&
        (slots.isEmpty || closes code) && slotsSound slots

def sound (t : Template) : Bool :=
  codeSound t.start && (t.slots.isEmpty || closes t.start) &&
    slotsSound t.slots

end Template

theorem copyQuoted_doubleQuotes (value : CString) :
    copyQuoted '\'' (doubleQuotes value ++ ['\'']) = (value, true) := by
  induction value with
  | nil => rfl
  | cons c value ih =>
      rw [doubleQuotes]
      split
      · rename_i quote
        subst quote
        simp [copyQuoted, ih]
      · rename_i other
        rw [List.cons_append]
        cases shape : doubleQuotes value ++ ['\''] with
        | nil => simp at shape
        | cons d rest => simp [copyQuoted, other, ← shape, ih]

theorem dequote_literal (value : CString) :
    dequote (literal value) = value := by
  show (match copyQuoted '\'' (doubleQuotes value ++ ['\'']) with
    | (copied, closed) => if closed then copied else _) = value
  rw [copyQuoted_doubleQuotes]
  rfl

theorem closingQuote_literal (value : CString) {rest : CString}
    (stops : rest.head? ≠ some '\'') :
    closingQuote '\'' (doubleQuotes value ++ '\'' :: rest) =
      some ((doubleQuotes value).length + 1) := by
  induction value with
  | nil =>
      cases rest with
      | nil => rfl
      | cons c rest =>
          have other : c ≠ '\'' := by simpa using stops
          simp [closingQuote, doubleQuotes, other]
  | cons c value ih =>
      rw [doubleQuotes]
      split
      · rename_i quote
        subst quote
        simp [closingQuote, ih]
      · rename_i other
        rw [List.cons_append, closingQuote_cons other, ih]
        rfl

theorem tokens_literal (value : CString) {rest : CString} {ts : List Token}
    (stops : rest.head? ≠ some '\'') (read : tokens rest = some ts) :
    tokens (literal value ++ rest) =
      some (⟨.string, literal value⟩ :: ts) := by
  have shape : doubleQuotes value ++ ['\''] ++ rest =
      doubleQuotes value ++ '\'' :: rest := by simp
  have whole : tokenAt '\'' (doubleQuotes value ++ ['\''] ++ rest) =
      (.string, (doubleQuotes value ++ ['\'']).length + 1) := by
    simp only [tokenAt]
    rw [shape, closingQuote_literal value stops]
    simp
    omega
  exact tokens_cons whole rfl read

theorem span_all {test : Char → Bool} {z w : CString}
    (all : ∀ c ∈ z, test c = true) (stops : ∀ c ∈ w.head?, test c = false) :
    span test (z ++ w) = z.length := by
  rw [span_append z stops, span,
    List.takeWhile_eq_self_iff.mpr (fun c listed => all c listed)]

theorem charAt_length (z w : CString) :
    charAt (z ++ w) z.length = charAt w 0 := by
  simp [charAt, List.getD, List.getElem?_append_right]

theorem tokens_digits {value rest : CString} {ts : List Token}
    (digits : ∀ c ∈ value, isDigit c = true) (some_ : value ≠ [])
    (stops : ∀ c ∈ rest.head?, isIdChar c = false ∧ c ≠ '.')
    (read : tokens rest = some ts) :
    tokens (value ++ rest) = some (⟨.integer, value⟩ :: ts) := by
  obtain ⟨c, value, rfl⟩ := List.exists_cons_of_ne_nil some_
  have first : isDigit c = true := digits c List.mem_cons_self
  have word : isWordChar c = true := by simp [isWordChar, first]
  have ended : ∀ d ∈ rest.head?, isDigit d = false := by
    intro d head
    cases digit : isDigit d with
    | false => rfl
    | true =>
        have inside : isIdChar d = true := by simp [isIdChar, digit]
        rw [(stops d head).1] at inside
        cases inside
  have length : span isDigit (c :: value ++ rest) = (c :: value).length :=
    span_all digits ended
  have next : charAt (c :: value ++ rest) (c :: value).length =
      charAt rest 0 := charAt_length _ _
  have different : charAt rest 0 ≠ '.' ∧ charAt rest 0 ≠ 'e' ∧
      charAt rest 0 ≠ 'E' := by
    cases rest with
    | nil => decide
    | cons d rest =>
        obtain ⟨outside, noPoint⟩ := stops d rfl
        refine ⟨noPoint, ?_, ?_⟩
        · rintro rfl
          exact absurd outside (by decide)
        · rintro rfl
          exact absurd outside (by decide)
  obtain ⟨noPoint, lower, upper⟩ := different
  refine tokens_cons ?_ rfl read
  rw [tokenAt_word word, if_pos first, ← List.cons_append, number_integer]
  · rw [length]
    rfl
  · rw [length, next]
    exact noPoint
  · rw [length, hasExponent, next]
    simp [lower, upper]

theorem dequote_of_digit {c : Char} (digit : isDigit c = true) (z : CString) :
    dequote (c :: z) = c :: z := by
  unfold dequote
  simp only
  split
  all_goals first
    | exact absurd digit (by decide)
    | rfl

theorem doubleQuotes_of_not_mem {value : CString} (none_ : '\'' ∉ value) :
    doubleQuotes value = value := by
  induction value with
  | nil => rfl
  | cons c value ih =>
      have other : c ≠ '\'' := by
        rintro rfl
        exact none_ List.mem_cons_self
      rw [doubleQuotes, if_neg other,
        ih fun listed => none_ (List.mem_cons_of_mem c listed)]

theorem not_mem_doubleQuotes {c : Char} (other : c ≠ '\'')
    {value : CString} (none_ : c ∉ value) : c ∉ doubleQuotes value := by
  intro listed
  rw [doubleQuotes_eq] at listed
  obtain ⟨d, inside, shown⟩ := List.mem_flatMap.mp listed
  split at shown
  · simp [other] at shown
  · obtain rfl : c = d := by simpa using shown
    exact none_ inside

/-- A number as `%d` and the others print it. -/
inductive IsNumber : CString → Prop
  | unsigned (value : Nat) : IsNumber (decimal value)
  | negative (value : Nat) : IsNumber ('-' :: decimal value)

theorem decimal_cons (value : Nat) :
    ∃ c rest, decimal value = c :: rest ∧ isDigit c = true := by
  obtain ⟨c, rest, shape⟩ :=
    List.exists_cons_of_ne_nil (decimal_ne_nil value)
  have listed : c ∈ decimal value := by
    rw [shape]
    exact List.mem_cons_self
  exact ⟨c, rest, shape, isDigit_of_mem_decimal listed⟩

theorem isNumber_formatInt (value : Int) : IsNumber (formatInt value) := by
  unfold formatInt
  split
  · exact .negative _
  · exact .unsigned _

theorem not_mem_decimal {c : Char} (other : isDigit c = false) (value : Nat) :
    c ∉ decimal value := by
  intro listed
  rw [isDigit_of_mem_decimal listed] at other
  cases other

theorem IsNumber.not_mem {value : CString} (number : IsNumber value) {c : Char}
    (other : isDigit c = false) (unsigned : c ≠ '-') : c ∉ value := by
  cases number with
  | unsigned value => exact not_mem_decimal other value
  | negative value =>
      intro listed
      obtain rfl | listed := List.mem_cons.mp listed
      · exact unsigned rfl
      · exact not_mem_decimal other value listed

structure Prints (conv : Conv) (arg : FormatArg) (value : CString) : Prop where
  expand : ∀ format args, Format.expand (conv.letters ++ format) (arg :: args) =
    (print (doubleQuotes value)).append (Format.expand format args)
  proper : '\x00' ∉ value
  number : conv.isNumber = true → IsNumber value

theorem prints_number {conv : Conv} {arg : FormatArg} {value : CString}
    (number : IsNumber value)
    (expand : ∀ format args, Format.expand (conv.letters ++ format)
      (arg :: args) = (print value).append (Format.expand format args)) :
    Prints conv arg value where
  expand := by
    intro format args
    rw [expand, doubleQuotes_of_not_mem (number.not_mem rfl (by decide))]
  proper := number.not_mem rfl (by decide)
  number := fun _ => number

theorem prints_of_text {conv : Conv} {arg : FormatArg} {value : CString}
    (given : conv.text arg = some value) : Prints conv arg value := by
  unfold Conv.text at given
  split at given
  · cases given
    exact ⟨fun _ _ => rfl, List.not_mem_nil, fun number => by cases number⟩
  · obtain ⟨suits, given⟩ := Option.ite_none_right_eq_some.mp given
    cases given
    refine ⟨fun format args => ?_, suits.2, fun number => by cases number⟩
    show (expandQuoted _).append _ = _
    rw [expandQuoted, if_pos suits.1, doubleQuotes_eq]
    rfl
  · obtain ⟨suits, given⟩ := Option.ite_none_left_eq_some.mp given
    cases given
    obtain ⟨noQuote, noEnd⟩ := not_or.mp suits
    refine ⟨fun format args => ?_, ?_, fun number => by cases number⟩
    · rw [doubleQuotes_of_not_mem (by simpa using Ne.symm noQuote)]
      rfl
    · simpa using Ne.symm noEnd
  · obtain ⟨suits, given⟩ := Option.ite_none_left_eq_some.mp given
    cases given
    refine prints_number (isNumber_formatInt _) fun format args => ?_
    show (expandSigned _ _).append _ = _
    rename_i value
    have low := Int32.le_toInt value
    have high := Int32.toInt_lt value
    rw [expandSigned, if_pos (by omega)]
    rfl
  · cases given
    refine prints_number (.unsigned _) fun format args => ?_
    show (expandUnsigned _).append _ = _
    rename_i value
    have high := UInt32.toNat_lt value
    rw [expandUnsigned, if_pos (by omega)]
    rfl
  · obtain ⟨suits, given⟩ := Option.ite_none_right_eq_some.mp given
    cases given
    refine prints_number (isNumber_formatInt _) fun format args => ?_
    show (expandSigned _ _).append _ = _
    rw [expandSigned, if_pos ⟨suits, by omega⟩]
    rfl
  · obtain ⟨suits, given⟩ := Option.ite_none_right_eq_some.mp given
    cases given
    refine prints_number (.unsigned _) fun format args => ?_
    show (expandUnsigned _).append _ = _
    rw [expandUnsigned, if_pos suits]
    rfl
  · cases given

theorem print_append (first second : CString) :
    (print first).append (print second) = print (first ++ second) :=
  rfl

theorem expand_code {code : CString} (plain : '%' ∉ code) (format : CString)
    (args : List FormatArg) :
    expand (code ++ format) args = (print code).append (expand format args) := by
  induction code with
  | nil => rfl
  | cons c code ih =>
      have other : c ≠ '%' := by
        rintro rfl
        exact plain List.mem_cons_self
      have later := ih fun listed => plain (List.mem_cons_of_mem c listed)
      rw [List.cons_append, expand.eq_def]
      simp only [if_neg other]
      rw [later]
      cases expand format args with
      | mk text stop => rfl

theorem not_mem_of_isPlain {code : CString} (plain : code.all isPlain = true)
    {c : Char} (other : isPlain c = false) : c ∉ code := by
  intro listed
  rw [List.all_eq_true.mp plain c listed] at other
  cases other

namespace Template

variable {args : List FormatArg} {texts : List CString}
  {slots : List (Slot × CString)} {value : CString}

theorem codeSound_plain {code : CString} (sound : codeSound code = true) :
    code.all isPlain = true :=
  (Bool.and_eq_true_iff.mp sound).1

theorem expand_slot {slot : Slot} {arg : FormatArg}
    (given : slot.conv.text arg = some value)
    (quoted : (slot.inQuotes || slot.conv.isNumber) = true) (format : CString)
    (args : List FormatArg) :
    expand (slot.format ++ format) (arg :: args) =
      (print (slot.sql value)).append (expand format args) := by
  have prints := prints_of_text given
  unfold Slot.format Slot.sql
  cases inQuotes : slot.inQuotes with
  | true =>
      have shape : '\'' :: slot.conv.letters ++ ['\''] ++ format =
          ['\''] ++ (slot.conv.letters ++ (['\''] ++ format)) := by simp
      simp only [if_true]
      rw [shape, expand_code (by decide), prints.expand,
        expand_code (by decide)]
      cases expand format args with
      | mk text stop => simp [append, print, literal]
  | false =>
      rw [inQuotes, Bool.false_or] at quoted
      have same : doubleQuotes value = value :=
        doubleQuotes_of_not_mem
          ((prints.number quoted).not_mem rfl (by decide))
      simp only [Bool.false_eq_true, if_false]
      rw [prints.expand, same]

theorem exists_of_values {slot : Slot} {code : CString}
    (given : values ((slot, code) :: slots) args = some texts) :
    ∃ arg more value others, args = arg :: more ∧
      slot.conv.text arg = some value ∧ values slots more = some others ∧
      texts = value :: others := by
  cases args with
  | nil => cases given
  | cons arg more =>
      simp only [values, Option.bind_eq_bind, Option.bind_eq_some_iff,
        Option.some.injEq] at given
      obtain ⟨value, fits, others, rest, rfl⟩ := given
      exact ⟨arg, more, value, others, rfl, fits, rest, rfl⟩

theorem expand_slots (sound : slotsSound slots = true)
    (given : values slots args = some texts) :
    expand (slotsFormat slots) args = print (slotsSql slots texts) := by
  induction slots generalizing args texts with
  | nil =>
      cases args with
      | nil =>
          cases given
          rfl
      | cons => cases given
  | cons place slots ih =>
      obtain ⟨slot, code⟩ := place
      obtain ⟨arg, args, value, others, rfl, fits, rest, rfl⟩ :=
        exists_of_values given
      simp only [slotsSound, Bool.and_eq_true] at sound
      obtain ⟨⟨⟨⟨own, _⟩, quoted⟩, _⟩, later⟩ := sound
      have plain : '%' ∉ code :=
        not_mem_of_isPlain (codeSound_plain own) rfl
      rw [slotsFormat, List.append_assoc, expand_slot fits quoted,
        expand_code plain, ih later rest, print_append, print_append,
        slotsSql, List.append_assoc]

theorem expand_format {t : Template} (sound : t.sound = true)
    (given : values t.slots args = some texts) :
    expand t.format args = print (t.sql texts) := by
  simp only [Template.sound, Bool.and_eq_true] at sound
  obtain ⟨⟨own, _⟩, later⟩ := sound
  have plain : '%' ∉ t.start := not_mem_of_isPlain (codeSound_plain own) rfl
  rw [format, expand_code plain, expand_slots later given, print_append, sql]

theorem isOpening_slot {slot : Slot} {arg : FormatArg}
    (given : slot.conv.text arg = some value)
    (quoted : (slot.inQuotes || slot.conv.isNumber) = true) (rest : CString) :
    ∃ c others, slot.sql value ++ rest = c :: others ∧ isOpening c = true := by
  unfold Slot.sql
  cases inQuotes : slot.inQuotes with
  | true => exact ⟨'\'', _, rfl, rfl⟩
  | false =>
      rw [inQuotes, Bool.false_or] at quoted
      cases (prints_of_text given).number quoted with
      | unsigned value =>
          obtain ⟨c, others, shape, digit⟩ := decimal_cons value
          exact ⟨c, others ++ rest, by simp [shape], by simp [isOpening, digit]⟩
      | negative value => exact ⟨'-', _, rfl, rfl⟩

theorem tokens_slot {slot : Slot} {arg : FormatArg} {value rest : CString}
    {ts : List Token} (given : slot.conv.text arg = some value)
    (quoted : (slot.inQuotes || slot.conv.isNumber) = true)
    (followed : slot.followedBy rest = true) (read : tokens rest = some ts) :
    ∃ own, tokens (slot.sql value ++ rest) = some (own ++ ts) ∧
      own.map Token.read = slot.reading value := by
  unfold Slot.sql Slot.reading
  cases inQuotes : slot.inQuotes with
  | true =>
      have stops : rest.head? ≠ some '\'' := by
        intro head
        simp [Slot.followedBy, head, inQuotes] at followed
      refine ⟨[⟨.string, literal value⟩], tokens_literal value stops read, ?_⟩
      simp [Token.read, dequote_literal]
  | false =>
      rw [inQuotes, Bool.false_or] at quoted
      have stops : ∀ c ∈ rest.head?, isIdChar c = false ∧ c ≠ '.' := by
        intro c head
        rw [Option.mem_def] at head
        simpa [Slot.followedBy, head, inQuotes] using followed
      have digits : ∀ value : Nat, tokens (decimal value ++ rest) =
          some (⟨.integer, decimal value⟩ :: ts) := fun value =>
        tokens_digits (fun c listed => isDigit_of_mem_decimal listed)
          (decimal_ne_nil value) stops read
      cases (prints_of_text given).number quoted with
      | unsigned value =>
          refine ⟨[⟨.integer, decimal value⟩], digits value, ?_⟩
          obtain ⟨c, others, shape, digit⟩ := decimal_cons value
          have unsigned : c ≠ '-' := by
            rintro rfl
            exact absurd digit (by decide)
          simp [Token.read, shape, dequote_of_digit digit, unsigned]
      | negative value =>
          refine ⟨[⟨.minus, ['-']⟩, ⟨.integer, decimal value⟩], ?_, ?_⟩
          · refine tokens_cons (z := []) ?_ rfl (digits value)
            obtain ⟨c, others, shape, digit⟩ := decimal_cons value
            have unsigned : c ≠ '-' := by
              rintro rfl
              exact absurd digit (by decide)
            rw [shape]
            exact if_neg unsigned
          · obtain ⟨c, others, shape, digit⟩ := decimal_cons value
            have dash : dequote ['-'] = ['-'] := rfl
            simp [Token.read, shape, dequote_of_digit digit, dash]

theorem tokens_code {code rest : CString} {ts : List Token}
    (sound : codeSound code = true)
    (joined : rest = [] ∨ closes code = true ∧
      ∃ c others, rest = c :: others ∧ isOpening c = true)
    (read : tokens rest = some ts) :
    ∃ own, tokens (code ++ rest) = some (own ++ ts) ∧
      tokens code = some own := by
  simp only [codeSound, Bool.and_eq_true] at sound
  obtain ⟨plain, settled⟩ := sound
  cases own : tokens code with
  | none =>
      rw [own] at settled
      cases settled
  | some own_ =>
      rw [own] at settled
      obtain rfl | ⟨ends, c, others, rfl, opens⟩ := joined
      · cases read
        exact ⟨own_, by simpa using own, rfl⟩
      · refine ⟨own_, tokens_append ⟨?_, ?_, ?_⟩ own ?_ read, rfl⟩
        · exact List.all_eq_true.mp plain
        · intro d last
          rw [Option.mem_def] at last
          simpa [closes, last] using ends
        · intro d head
          cases head
          exact opens
        · exact List.all_eq_true.mp settled

theorem followedBy_append {slot : Slot} {code rest : CString}
    (followed : slot.followedBy code = true)
    (joined : code ≠ [] ∨ rest = []) :
    slot.followedBy (code ++ rest) = true := by
  cases code with
  | cons c code => exact followed
  | nil =>
      obtain none_ | rfl := joined
      · exact absurd rfl none_
      · rfl

theorem joined_slots {code : CString}
    (ends : (slots.isEmpty || closes code) = true)
    (sound : slotsSound slots = true) (given : values slots args = some texts) :
    slotsSql slots texts = [] ∨ closes code = true ∧
      ∃ c others, slotsSql slots texts = c :: others ∧
        isOpening c = true := by
  cases slots with
  | nil =>
      cases args with
      | nil =>
          cases given
          exact Or.inl rfl
      | cons => cases given
  | cons place slots =>
      obtain ⟨slot, after⟩ := place
      obtain ⟨arg, args, value, others, rfl, fits, _, rfl⟩ :=
        exists_of_values given
      simp only [slotsSound, Bool.and_eq_true] at sound
      obtain ⟨⟨⟨⟨_, _⟩, quoted⟩, _⟩, _⟩ := sound
      refine Or.inr ⟨by simpa using ends, ?_⟩
      rw [slotsSql, List.append_assoc]
      exact isOpening_slot fits quoted _

theorem tokens_slots (sound : slotsSound slots = true)
    (given : values slots args = some texts) :
    ∃ ts, tokens (slotsSql slots texts) = some ts ∧
      slotsReading slots texts = some (ts.map Token.read) := by
  induction slots generalizing args texts with
  | nil => exact ⟨[], rfl, rfl⟩
  | cons place slots ih =>
      obtain ⟨slot, code⟩ := place
      obtain ⟨arg, args, value, others, rfl, fits, rest, rfl⟩ :=
        exists_of_values given
      simp only [slotsSound, Bool.and_eq_true] at sound
      obtain ⟨⟨⟨⟨own, followed⟩, quoted⟩, ends⟩, later⟩ := sound
      obtain ⟨ts, behind, reading⟩ := ih later rest
      have joined := joined_slots ends later rest
      obtain ⟨cs, both, alone⟩ := tokens_code own joined behind
      have next : code ≠ [] ∨ slotsSql slots others = [] := by
        obtain none_ | ⟨closed, _⟩ := joined
        · exact Or.inr none_
        · refine Or.inl ?_
          rintro rfl
          cases closed
      obtain ⟨vs, whole, same⟩ := tokens_slot fits quoted
        (followedBy_append followed next) both
      refine ⟨vs ++ (cs ++ ts), ?_, ?_⟩
      · rw [slotsSql, List.append_assoc, whole]
      · simp [slotsReading, read, alone, reading, same]

theorem read_sql {t : Template} (sound : t.sound = true)
    (given : values t.slots args = some texts) :
    ∃ ts, read (t.sql texts) = some ts ∧ t.reading texts = some ts := by
  simp only [Template.sound, Bool.and_eq_true] at sound
  obtain ⟨⟨own, ends⟩, later⟩ := sound
  obtain ⟨ts, behind, reading⟩ := tokens_slots later given
  obtain ⟨cs, both, alone⟩ :=
    tokens_code own (joined_slots ends later given) behind
  refine ⟨(cs ++ ts).map Token.read, ?_, ?_⟩
  · rw [read, sql, both]
    rfl
  · simp [Template.reading, read, alone, reading]

theorem not_mem_slot {slot : Slot} {arg : FormatArg}
    (given : slot.conv.text arg = some value) : '\x00' ∉ slot.sql value := by
  have proper := (prints_of_text given).proper
  unfold Slot.sql
  split
  · simpa [literal] using not_mem_doubleQuotes (by decide) proper
  · exact proper

theorem not_mem_slotsSql (sound : slotsSound slots = true)
    (given : values slots args = some texts) :
    '\x00' ∉ slotsSql slots texts := by
  induction slots generalizing args texts with
  | nil => simp [slotsSql]
  | cons place slots ih =>
      obtain ⟨slot, code⟩ := place
      obtain ⟨arg, args, value, others, rfl, fits, rest, rfl⟩ :=
        exists_of_values given
      simp only [slotsSound, Bool.and_eq_true] at sound
      obtain ⟨⟨⟨⟨own, _⟩, _⟩, _⟩, later⟩ := sound
      have plain : '\x00' ∉ code :=
        not_mem_of_isPlain (codeSound_plain own) rfl
      simp [slotsSql, not_mem_slot fits, plain, ih later rest]

theorem statement_read {t : Template} (sound : t.sound = true) (call : Call)
    (given : values t.slots args = some texts)
    (short : (t.sql texts).length < sqlBufSize) :
    call.statement t.format args = .ok (t.sql texts) ∧
      ∃ ts, read (t.sql texts) = some ts ∧ t.reading texts = some ts := by
  refine ⟨?_, read_sql sound given⟩
  rw [call.statement_eq, compile_eq, expand_format sound given]
  have kept : (t.sql texts).take (sqlBufSize - 1) = t.sql texts :=
    List.take_of_length_le (by omega)
  simp only [Template.sound, Bool.and_eq_true] at sound
  obtain ⟨⟨own, _⟩, later⟩ := sound
  have inside : '\x00' ∉ t.sql texts := by
    have plain : '\x00' ∉ t.start :=
      not_mem_of_isPlain (codeSound_plain own) rfl
    simp [sql, plain, not_mem_slotsSql later given]
  show Except.ok (cString ((t.sql texts).take (sqlBufSize - 1))) = _
  rw [kept, cString_eq_self.mpr inside]

end Template

end Sql

end RatboxServices
