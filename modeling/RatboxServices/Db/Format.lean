import Mathlib.Algebra.GroupWithZero.Nat
import RatboxServices.Irc.Line

namespace RatboxServices

open CString

/-! `rs_vsnprintf`, which prints the statements for the database. -/

inductive FormatArg
  | str (value : Option CString)
  | int (value : Int32)
  | uint (value : UInt32)
  | long (value : Int64)
  | ulong (value : UInt64)
  deriving DecidableEq, Repr

/-- Why there is no result: the process ends in `die`, or C does not say what
happens. -/
inductive FormatStop
  | die
  | undefined
  deriving DecidableEq, Repr

structure Expansion where
  text : CString
  stop : Option FormatStop
  deriving DecidableEq, Repr

namespace Expansion

def print (text : CString) : Expansion :=
  ⟨text, none⟩

def fail (stop : FormatStop) : Expansion :=
  ⟨[], some stop⟩

def append (first second : Expansion) : Expansion :=
  match first.stop with
  | none => ⟨first.text ++ second.text, second.stop⟩
  | some stop => ⟨first.text, some stop⟩

end Expansion

namespace Format

open Expansion

def tableMax : Nat := 1000

def tempBufMax : Nat := 20

def digit (value : Nat) : Char :=
  Char.ofNat (48 + value % 10)

/-- `IntTable`: three digits, the last one first. -/
def intTable (num : Nat) : CString :=
  [digit num, digit (num / 10), digit (num / 100)]

/-- What the loop over the quotients puts into `TempBuffer`. -/
def tempBuffer (num : Nat) : CString :=
  intTable (num - num / tableMax * tableMax) ++
    if num / tableMax = 0 then [] else tempBuffer (num / tableMax)
termination_by num
decreasing_by
  rename_i more
  simp only [tableMax] at more ⊢
  omega

def printDigits (num : Nat) : Expansion :=
  if tempBufMax < (tempBuffer num).length + 1 then fail .undefined
  else print (((tempBuffer num).reverse).dropWhile (· == '0'))

/-- `%u` and `%lu`. -/
def printUnsigned (num : Nat) : Expansion :=
  if num = 0 then print ['0'] else printDigits num

/-- `%d` and `%ld`, where the least number of the type has no negative. -/
def printSigned (least num : Int) : Expansion :=
  if num = 0 then print ['0']
  else if num < 0 then
    (print ['-']).append
      (if num = least then fail .undefined else printDigits (-num).toNat)
  else printDigits num.toNat

/-- The copying loop of `rsdb_quote`. -/
def doubleQuotes : CString → CString
  | [] => []
  | c :: rest =>
      if c = '\'' then '\'' :: c :: doubleQuotes rest
      else c :: doubleQuotes rest

/-- `BUFSIZE*4`. -/
def sqlBufSize : Nat := 2048

/-- `rsdb_quote`. -/
def rsdbQuote (src : CString) : Option CString :=
  if sqlBufSize / 2 ≤ src.length then none else some (doubleQuotes src)

def printString : Option CString → Expansion
  | none => fail .undefined
  | some str => print str

/-- The branches on the character behind the percent sign but for `l`. -/
def convert (ch : Char) (args : List FormatArg) : Expansion :=
  if ch = 's' then
    match args with
    | .str value :: _ => printString value
    | _ => fail .undefined
  else if ch = 'd' then
    match args with
    | .int value :: _ => printSigned (-2147483648) value.toInt
    | _ => fail .undefined
  else if ch = 'c' then
    match args with
    | .int value :: _ => print [Char.ofNat (value.toInt % 256).toNat]
    | _ => fail .undefined
  else if ch = 'u' then
    match args with
    | .uint value :: _ => printUnsigned value.toNat
    | _ => fail .undefined
  else if ch = 'Q' then
    match args with
    | .str none :: _ => print []
    | .str (some arg) :: _ => printString (rsdbQuote arg)
    | _ => fail .undefined
  else if ch = '%' then print ['%']
  else fail .die

/-- The branches on the character behind `%l`. -/
def convertLong (ch : Char) (args : List FormatArg) : Expansion :=
  if ch = 'u' then
    match args with
    | .ulong value :: _ => printUnsigned value.toNat
    | _ => fail .undefined
  else if ch = 'd' then
    match args with
    | .long value :: _ =>
        printSigned (-9223372036854775808) value.toInt
    | _ => fail .undefined
  else fail .die

/-- The arguments left, where `%%` takes none. -/
def argsAfter (ch : Char) (args : List FormatArg) : List FormatArg :=
  if ch = '%' then args else args.drop 1

def write (maxbytes : Nat) (dest : CString) (piece : Expansion) :
    Except FormatStop CString :=
  match piece.stop with
  | none => .ok ((dest ++ piece.text).take maxbytes)
  | some stop =>
      if (dest ++ piece.text).length < maxbytes then .error stop
      else .ok ((dest ++ piece.text).take maxbytes)

/-- The loop of `rs_vsnprintf`, where `written` is the length of `dest`. -/
def writeAll (maxbytes : Nat) :
    CString → List FormatArg → CString → Except FormatStop CString
  | [], _, dest => .ok dest
  | ch :: format, args, dest =>
      if maxbytes ≤ dest.length then .ok dest
      else if ch = '%' then
        match format with
        | [] => .error .die
        | 'l' :: [] => .error .die
        | 'l' :: ch :: format =>
            (write maxbytes dest (convertLong ch args)).bind
              (writeAll maxbytes format (args.drop 1))
        | ch :: format =>
            (write maxbytes dest (convert ch args)).bind
              (writeAll maxbytes format (argsAfter ch args))
      else writeAll maxbytes format args (dest ++ [ch])

/-- `rs_vsnprintf`: what is in the buffer, whose length is what is returned. -/
def rsVsnprintf (bytes : Nat) (format : CString) (args : List FormatArg) :
    Except FormatStop CString :=
  writeAll (bytes - 1) format args []

/-- A number in decimal, as far as `TempBuffer` holds its digits. -/
def expandUnsigned (num : Nat) : Expansion :=
  if num < 10 ^ 18 then print (decimal num) else fail .undefined

def expandSigned (least num : Int) : Expansion :=
  if num.natAbs < 10 ^ 18 ∧ num ≠ least then print (formatInt num)
  else if num < 0 then ⟨['-'], some .undefined⟩
  else fail .undefined

def expandQuoted (text : CString) : Expansion :=
  if text.length < 1024 then
    print (text.flatMap fun c => if c = '\'' then ['\'', '\''] else [c])
  else fail .undefined

def meaning : Char → List FormatArg → Expansion
  | 's', .str (some text) :: _ => print text
  | 'd', .int value :: _ => expandSigned (-2147483648) value.toInt
  | 'c', .int value :: _ => print [Char.ofNat (value.toInt % 256).toNat]
  | 'u', .uint value :: _ => expandUnsigned value.toNat
  | 'Q', .str none :: _ => print []
  | 'Q', .str (some text) :: _ => expandQuoted text
  | '%', _ => print ['%']
  | ch, _ => fail (if ch ∈ "sdcuQ".toList then .undefined else .die)

def meaningLong : Char → List FormatArg → Expansion
  | 'u', .ulong value :: _ => expandUnsigned value.toNat
  | 'd', .long value :: _ =>
      expandSigned (-9223372036854775808) value.toInt
  | ch, _ => fail (if ch ∈ "ud".toList then .undefined else .die)

def expand : CString → List FormatArg → Expansion
  | [], _ => print []
  | ch :: format, args =>
      if ch = '%' then
        match format with
        | [] => fail .die
        | 'l' :: [] => fail .die
        | 'l' :: ch :: format =>
            (meaningLong ch args).append (expand format (args.drop 1))
        | ch :: format =>
            (meaning ch args).append (expand format (argsAfter ch args))
      else (print [ch]).append (expand format args)

theorem digit_eq_digitChar (value : Nat) :
    digit value = (value % 10).digitChar := by
  have each : ∀ last < 10, Char.ofNat (48 + last) = last.digitChar := by
    decide
  exact each _ (Nat.mod_lt _ (by decide))

def lastDigits (num : Nat) : CString :=
  [(num % 10).digitChar, (num / 10 % 10).digitChar,
    (num / 100 % 10).digitChar]

theorem intTable_eq_lastDigits (num : Nat) :
    intTable (num - num / tableMax * tableMax) = lastDigits num := by
  simp only [intTable, digit_eq_digitChar, tableMax]
  have last : (num - num / 1000 * 1000) % 10 = num % 10 := by omega
  have middle : (num - num / 1000 * 1000) / 10 % 10 = num / 10 % 10 := by
    omega
  have first : (num - num / 1000 * 1000) / 100 % 10 = num / 100 % 10 := by
    omega
  rw [last, middle, first, lastDigits]

theorem tempBuffer_eq (num : Nat) :
    tempBuffer num =
      lastDigits num ++
        if num / 1000 = 0 then [] else tempBuffer (num / 1000) := by
  rw [tempBuffer, intTable_eq_lastDigits, tableMax]

theorem decimal_of_lt {num : Nat} (small : num < 10) :
    decimal num = [num.digitChar] :=
  Nat.toDigits_of_lt_base small

theorem decimal_split {num : Nat} (large : 10 ≤ num) :
    decimal num = decimal (num / 10) ++ [(num % 10).digitChar] :=
  Nat.toDigits_of_base_le (by decide) large

theorem decimal_lastDigits {num : Nat} (large : 1000 ≤ num) :
    decimal num = decimal (num / 1000) ++ (lastDigits num).reverse := by
  rw [decimal_split (by omega : 10 ≤ num),
    decimal_split (by omega : 10 ≤ num / 10),
    decimal_split (by omega : 10 ≤ num / 10 / 10)]
  simp [lastDigits, Nat.div_div_eq_div_mul]

theorem lastDigits_padded {num : Nat} (small : num < 1000) :
    ∃ zeros, (lastDigits num).reverse =
      List.replicate zeros '0' ++ decimal num := by
  have hundreds : num / 100 % 10 = num / 100 := by omega
  by_cases one : num < 10
  · refine ⟨2, ?_⟩
    have noTens : num / 10 % 10 = 0 := by omega
    have noHundreds : num / 100 % 10 = 0 := by omega
    have itself : num % 10 = num := by omega
    simp [lastDigits, noTens, noHundreds, itself, decimal_of_lt one,
      List.replicate]
  · by_cases two : num < 100
    · refine ⟨1, ?_⟩
      have tens : num / 10 % 10 = num / 10 := by omega
      have noHundreds : num / 100 % 10 = 0 := by omega
      rw [decimal_split (by omega), decimal_of_lt (by omega : num / 10 < 10)]
      simp [lastDigits, tens, noHundreds, List.replicate]
    · refine ⟨0, ?_⟩
      rw [decimal_split (by omega), decimal_split (by omega : 10 ≤ num / 10),
        decimal_of_lt (by omega : num / 10 / 10 < 10),
        Nat.div_div_eq_div_mul]
      simp [lastDigits, hundreds]

theorem tempBuffer_padded (num : Nat) :
    ∃ zeros, (tempBuffer num).reverse =
      List.replicate zeros '0' ++ decimal num := by
  induction num using Nat.strongRecOn with
  | _ num ih =>
      rw [tempBuffer_eq]
      by_cases small : num < 1000
      · have noMore : num / 1000 = 0 := by omega
        rw [if_pos noMore, List.append_nil]
        exact lastDigits_padded small
      · have more : num / 1000 ≠ 0 := by omega
        obtain ⟨zeros, padded⟩ := ih (num / 1000) (by omega)
        refine ⟨zeros, ?_⟩
        rw [if_neg more, List.reverse_append, padded,
          decimal_lastDigits (by omega : 1000 ≤ num), List.append_assoc]

theorem decimal_head {num : Nat} (positive : 0 < num) :
    ∃ c rest, decimal num = c :: rest ∧ c ≠ '0' := by
  induction num using Nat.strongRecOn with
  | _ num ih =>
      by_cases small : num < 10
      · refine ⟨num.digitChar, [], decimal_of_lt small, ?_⟩
        have each : ∀ d < 10, 0 < d → d.digitChar ≠ '0' := by decide
        exact each num small positive
      · obtain ⟨c, rest, shape, nonzero⟩ :=
          ih (num / 10) (by omega) (by omega)
        refine ⟨c, rest ++ [(num % 10).digitChar], ?_, nonzero⟩
        rw [decimal_split (by omega), shape, List.cons_append]

theorem tempBuffer_stripped {num : Nat} (positive : 0 < num) :
    (tempBuffer num).reverse.dropWhile (· == '0') = decimal num := by
  obtain ⟨zeros, padded⟩ := tempBuffer_padded num
  obtain ⟨c, rest, shape, nonzero⟩ := decimal_head positive
  rw [padded, List.dropWhile_append_of_pos (by simp), shape,
    List.dropWhile_cons_of_neg (by simpa using nonzero)]

theorem tempBuffer_length (num groups : Nat) :
    (tempBuffer num).length ≤ 3 * (groups + 1) + 1 ↔
      num < 1000 ^ (groups + 1) := by
  induction groups generalizing num with
  | zero =>
      rw [tempBuffer_eq]
      split
      · rename_i small
        have less : num < 1000 := by omega
        simp [lastDigits, less]
      · rename_i large
        rw [tempBuffer_eq]
        simp [lastDigits]
        omega
  | succ groups ih =>
      have power : num < 1000 ^ (groups + 1 + 1) ↔
          num / 1000 < 1000 ^ (groups + 1) := by
        rw [Nat.div_lt_iff_lt_mul (by decide), ← Nat.pow_succ]
      rw [power, ← ih (num / 1000), tempBuffer_eq]
      split
      · rename_i small
        have short : (tempBuffer (num / 1000)).length ≤ 3 := by
          rw [small, tempBuffer_eq]
          simp [lastDigits]
        simp [lastDigits]
        omega
      · simp [lastDigits]
        omega

theorem printDigits_eq {num : Nat} (positive : 0 < num) :
    printDigits num = expandUnsigned num := by
  have fits := tempBuffer_length num 5
  have power : (1000 : Nat) ^ (5 + 1) = 10 ^ 18 := by decide
  rw [power] at fits
  unfold printDigits expandUnsigned tempBufMax
  by_cases small : num < 10 ^ 18
  · have short := fits.mpr small
    rw [if_neg (by omega), if_pos small, tempBuffer_stripped positive]
  · have long : ¬(tempBuffer num).length ≤ 3 * (5 + 1) + 1 :=
      fun short => small (fits.mp short)
    rw [if_pos (by omega), if_neg small]

theorem printUnsigned_eq (num : Nat) :
    printUnsigned num = expandUnsigned num := by
  unfold printUnsigned
  split
  · rename_i zero
    rw [zero]
    rfl
  · exact printDigits_eq (by omega)

theorem printSigned_eq {least num : Int} (negative : least < 0) :
    printSigned least num = expandSigned least num := by
  unfold printSigned expandSigned
  by_cases zero : num = 0
  · subst zero
    rw [if_pos rfl, if_pos ⟨by decide, by omega⟩]
    rfl
  · rw [if_neg zero]
    by_cases below : num < 0
    · have abs : (-num).toNat = num.natAbs := by omega
      rw [if_pos below, if_pos below, abs,
        printDigits_eq (by omega : 0 < num.natAbs)]
      by_cases isLeast : num = least
      · rw [if_pos isLeast, if_neg (fun both => both.2 isLeast)]
        rfl
      · rw [if_neg isLeast, expandUnsigned]
        by_cases small : num.natAbs < 10 ^ 18
        · rw [if_pos small, if_pos ⟨small, isLeast⟩, formatInt,
            if_pos below]
          rfl
        · rw [if_neg small, if_neg (fun both => small both.1)]
          rfl
    · have abs : num.toNat = num.natAbs := by omega
      have isNot : num ≠ least := by omega
      rw [if_neg below, if_neg below, abs,
        printDigits_eq (by omega : 0 < num.natAbs), expandUnsigned]
      by_cases small : num.natAbs < 10 ^ 18
      · rw [if_pos small, if_pos ⟨small, isNot⟩, formatInt, if_neg below]
      · rw [if_neg small, if_neg (fun both => small both.1)]

theorem doubleQuotes_eq (src : CString) :
    doubleQuotes src =
      src.flatMap fun c => if c = '\'' then ['\'', '\''] else [c] := by
  induction src with
  | nil => rfl
  | cons c rest ih =>
      rw [doubleQuotes, List.flatMap_cons, ih]
      split
      · rename_i isQuote
        rw [isQuote]
        rfl
      · rfl

theorem printString_rsdbQuote (src : CString) :
    printString (rsdbQuote src) = expandQuoted src := by
  unfold rsdbQuote expandQuoted sqlBufSize
  by_cases short : src.length < 1024
  · rw [if_neg (by omega), if_pos short, printString, doubleQuotes_eq]
  · rw [if_pos (by omega), if_neg short, printString]

theorem convert_eq (ch : Char) (args : List FormatArg) :
    convert ch args = meaning ch args := by
  unfold convert
  split
  · rename_i isString
    subst isString
    rcases args with _ | ⟨⟨_ | _⟩ | _ | _ | _ | _, _⟩ <;> rfl
  split
  · rename_i isInt
    subst isInt
    rcases args with _ | ⟨_ | value | _ | _ | _, _⟩
    case cons.int => exact printSigned_eq (by decide)
    all_goals rfl
  split
  · rename_i isChar
    subst isChar
    rcases args with _ | ⟨_ | _ | _ | _ | _, _⟩ <;> rfl
  split
  · rename_i isUnsigned
    subst isUnsigned
    rcases args with _ | ⟨_ | _ | value | _ | _, _⟩
    case cons.uint => exact printUnsigned_eq _
    all_goals rfl
  split
  · rename_i isQuoted
    subst isQuoted
    rcases args with _ | ⟨⟨_ | text⟩ | _ | _ | _ | _, _⟩
    case cons.str.some => exact printString_rsdbQuote text
    all_goals rfl
  split
  · rename_i isPercent
    subst isPercent
    rfl
  · rename_i noS noD noC noU noQ noPercent
    have unknown : ch ∉ "sdcuQ".toList := by
      simp [noS, noD, noC, noU, noQ]
    unfold meaning
    split <;> first | contradiction | rw [if_neg unknown]

theorem convertLong_eq (ch : Char) (args : List FormatArg) :
    convertLong ch args = meaningLong ch args := by
  unfold convertLong
  split
  · rename_i isUnsigned
    subst isUnsigned
    rcases args with _ | ⟨_ | _ | _ | _ | value, _⟩
    case cons.ulong => exact printUnsigned_eq _
    all_goals rfl
  split
  · rename_i isInt
    subst isInt
    rcases args with _ | ⟨_ | _ | _ | value | _, _⟩
    case cons.long => exact printSigned_eq (by decide)
    all_goals rfl
  · rename_i noU noD
    have unknown : ch ∉ "ud".toList := by simp [noU, noD]
    unfold meaningLong
    split <;> first | contradiction | rw [if_neg unknown]

variable {maxbytes : Nat} {dest : CString}

theorem write_print_nil (room : dest.length ≤ maxbytes) :
    write maxbytes dest (print []) = .ok dest := by
  rw [write, print, List.append_nil, List.take_of_length_le room]

theorem write_of_full (full : dest.length = maxbytes) (piece : Expansion) :
    write maxbytes dest piece = .ok dest := by
  have kept : (dest ++ piece.text).take maxbytes = dest := by
    rw [← full, List.take_left]
  unfold write
  split
  · rw [kept]
  · rw [if_neg (by rw [List.length_append]; omega), kept]

theorem write_length {piece : Expansion} {result : CString}
    (written : write maxbytes dest piece = .ok result) :
    result.length ≤ maxbytes := by
  unfold write at written
  split at written
  · cases written
    exact List.length_take_le _ _
  · split at written
    · cases written
    · cases written
      exact List.length_take_le _ _

theorem write_append (first second : Expansion) :
    write maxbytes dest (first.append second) =
      (write maxbytes dest first).bind
        fun dest => write maxbytes dest second := by
  obtain ⟨text, stop⟩ := first
  by_cases room : (dest ++ text).length < maxbytes
  · have whole : (dest ++ text).take maxbytes = dest ++ text :=
      List.take_of_length_le (by omega)
    cases stop with
    | none =>
        show write maxbytes dest ⟨text ++ second.text, second.stop⟩ =
          write maxbytes ((dest ++ text).take maxbytes) second
        rw [whole, write, write, List.append_assoc]
    | some stop =>
        have stopped : write maxbytes dest ⟨text, some stop⟩ = .error stop :=
          if_pos room
        rw [stopped]
        exact stopped
  · have full : ((dest ++ text).take maxbytes).length = maxbytes := by
      rw [List.length_take]
      omega
    have first : write maxbytes dest ⟨text, stop⟩ =
        .ok ((dest ++ text).take maxbytes) := by
      cases stop with
      | none => rfl
      | some stop => exact if_neg room
    have cut : (dest ++ (text ++ second.text)).take maxbytes =
        (dest ++ text).take maxbytes := by
      rw [← List.append_assoc, List.take_append_of_le_length (by omega)]
    rw [first]
    show _ = write maxbytes ((dest ++ text).take maxbytes) second
    rw [write_of_full full]
    cases stop with
    | none =>
        show write maxbytes dest ⟨text ++ second.text, second.stop⟩ = _
        cases behind : second.stop with
        | none => exact congrArg Except.ok cut
        | some stop =>
            have long :
                ¬(dest ++ (text ++ second.text)).length < maxbytes := by
              rw [← List.append_assoc, List.length_append]
              omega
            exact (if_neg long).trans (congrArg Except.ok cut)
    | some stop => exact if_neg room

theorem write_bind {piece rest : Expansion}
    {more : CString → Except FormatStop CString}
    (continues : ∀ dest, dest.length ≤ maxbytes →
      more dest = write maxbytes dest rest) :
    (write maxbytes dest piece).bind more =
      write maxbytes dest (piece.append rest) := by
  rw [write_append]
  cases written : write maxbytes dest piece with
  | error stop => rfl
  | ok result => exact continues result (write_length written)

theorem writeAll_eq_of_room {format : CString} {args : List FormatArg}
    {whole : Expansion} (room : dest.length ≤ maxbytes)
    (before : ¬maxbytes ≤ dest.length →
      writeAll maxbytes format args dest = write maxbytes dest whole) :
    writeAll maxbytes format args dest = write maxbytes dest whole := by
  by_cases full : maxbytes ≤ dest.length
  · rw [write_of_full (by omega)]
    cases format with
    | nil => rw [writeAll]
    | cons ch format => rw [writeAll.eq_def]; exact if_pos full
  · exact before full

theorem writeAll_eq (format : CString) (args : List FormatArg)
    (room : dest.length ≤ maxbytes) :
    writeAll maxbytes format args dest =
      write maxbytes dest (expand format args) := by
  fun_induction expand format args generalizing dest with
  | case1 args => rw [writeAll, write_print_nil room]
  | case2 args =>
      refine writeAll_eq_of_room room fun left => ?_
      have stopped : write maxbytes dest (fail .die) = .error .die :=
        if_pos (by simpa [fail] using left)
      rw [stopped, writeAll, if_neg left, if_pos rfl]
  | case3 args =>
      refine writeAll_eq_of_room room fun left => ?_
      have stopped : write maxbytes dest (fail .die) = .error .die :=
        if_pos (by simpa [fail] using left)
      rw [stopped, writeAll, if_neg left, if_pos rfl]
  | case4 args ch format ih =>
      refine writeAll_eq_of_room room fun left => ?_
      rw [writeAll, if_neg left, if_pos rfl, convertLong_eq]
      exact write_bind fun dest room => ih room
  | case5 args ch format notLast notLong ih =>
      refine writeAll_eq_of_room room fun left => ?_
      rw [writeAll, if_neg left, if_pos rfl, convert_eq]
      · exact write_bind fun dest room => ih room
      · exact notLast
      · exact notLong
  | case6 ch format args literal ih =>
      refine writeAll_eq_of_room room fun left => ?_
      have printed : write maxbytes dest (print [ch]) = .ok (dest ++ [ch]) := by
        rw [write, print, List.take_of_length_le (by simp; omega)]
      rw [writeAll.eq_def]
      simp only [if_neg left, if_neg literal]
      rw [write_append, printed]
      exact ih (by simp; omega)

/-- `rs_vsnprintf` puts the expansion into the buffer as far as it fits, and
stops only for what it comes to before the buffer is full. -/
theorem rsVsnprintf_eq (bytes : Nat) (format : CString)
    (args : List FormatArg) :
    rsVsnprintf bytes format args =
      write (bytes - 1) [] (expand format args) :=
  writeAll_eq format args (Nat.zero_le _)

theorem rsVsnprintf_length {bytes : Nat} {format : CString}
    {args : List FormatArg} {buf : CString} (sized : 0 < bytes)
    (printed : rsVsnprintf bytes format args = .ok buf) :
    buf.length < bytes := by
  rw [rsVsnprintf_eq] at printed
  have short := write_length printed
  omega

end Format

end RatboxServices
