import RatboxServices.Db.SqlToken

namespace RatboxServices

open CString

/-! Which texts can stand one behind the other without a change of the tokens
that SQLite reads in each of them. -/

namespace Sql

variable {c : Char} {z : CString}

theorem span_append {test : Char → Bool} (z : CString) {w : CString}
    (stops : ∀ c ∈ w.head?, test c = false) :
    span test (z ++ w) = span test z := by
  induction z with
  | nil =>
      cases w with
      | nil => rfl
      | cons c w =>
          have fails : test c = false := stops c rfl
          simp [span, fails]
  | cons c z ih =>
      by_cases passes : test c = true
      · simpa [span, passes] using ih
      · simp [span, passes]

theorem span_append_of_mem {test : Char → Bool} (listed : c ∈ z)
    (fails : test c = false) (w : CString) :
    span test (z ++ w) = span test z ∧ span test z < z.length := by
  induction z with
  | nil => cases listed
  | cons d z ih =>
      by_cases passes : test d = true
      · have other : c ≠ d := by
          rintro rfl
          rw [fails] at passes
          cases passes
        have deeper := ih ((List.mem_cons.mp listed).resolve_left other)
        simp only [span, List.cons_append, List.takeWhile_cons, passes,
          if_true, List.length_cons] at deeper ⊢
        omega
      · simp [span, passes]

theorem charAt_append {i : Nat} (inside : i < z.length) (w : CString) :
    charAt (z ++ w) i = charAt z i := by
  simp [charAt, List.getD, List.getElem?_append_left inside]

theorem closingQuote_cons {delim c : Char} (other : c ≠ delim)
    (z : CString) :
    closingQuote delim (c :: z) = (closingQuote delim z).map (· + 1) := by
  cases z with
  | nil => simp [closingQuote, other]
  | cons d z => simp [closingQuote, other]

theorem closingQuote_append {delim : Char} {z w : CString} {n : Nat}
    (closed : closingQuote delim z = some n)
    (stops : z.getLast? ≠ some delim ∨ w.head? ≠ some delim) :
    closingQuote delim (z ++ w) = some n := by
  induction z using closingQuote.induct delim generalizing n with
  | case1 => cases closed
  | case2 rest ih =>
      simp only [closingQuote, if_true, Option.map_eq_some_iff] at closed
      obtain ⟨m, closed, rfl⟩ := closed
      have later : rest.getLast? ≠ some delim ∨ w.head? ≠ some delim := by
        cases rest with
        | nil => cases closed
        | cons d rest => simpa using stops
      simp [closingQuote, ih closed later]
  | case3 d rest other =>
      simp only [closingQuote, if_true, if_neg other] at closed
      simp [closingQuote, other, closed]
  | case4 =>
      cases w with
      | nil => exact closed
      | cons c w =>
          have other : c ≠ delim := by simpa using stops
          simp only [closingQuote, if_true] at closed
          simp [closingQuote, other, closed]
  | case5 c z other ih =>
      rw [closingQuote_cons other, Option.map_eq_some_iff] at closed
      obtain ⟨m, closed, rfl⟩ := closed
      have later : z.getLast? ≠ some delim ∨ w.head? ≠ some delim := by
        cases z with
        | nil => cases closed
        | cons d z => simpa using stops
      rw [List.cons_append, closingQuote_cons other, ih closed later]
      rfl

theorem closingQuote_le {delim : Char} {n : Nat}
    (closed : closingQuote delim z = some n) : n ≤ z.length := by
  induction z using closingQuote.induct delim generalizing n with
  | case1 => cases closed
  | case2 rest ih =>
      simp only [closingQuote, if_true, Option.map_eq_some_iff] at closed
      obtain ⟨m, closed, rfl⟩ := closed
      have short := ih closed
      simp only [List.length_cons]
      omega
  | case3 d rest other =>
      simp only [closingQuote, if_true, if_neg other,
        Option.some.injEq] at closed
      simp [← closed]
  | case4 =>
      simp only [closingQuote, if_true, Option.some.injEq] at closed
      simp [← closed]
  | case5 c z other ih =>
      rw [closingQuote_cons other, Option.map_eq_some_iff] at closed
      obtain ⟨m, closed, rfl⟩ := closed
      have short := ih closed
      simp only [List.length_cons]
      omega

def isWordChar (c : Char) : Bool :=
  isDigit c || isLetter c || c == '_'

def plainMarks : List Char :=
  [' ', '.', '(', ')', ',', '=', '<', '>', '!', '*', '&', '|', '\'']

def isPlain (c : Char) : Bool :=
  isWordChar c || plainMarks.contains c

def closingMarks : List Char :=
  [' ', '=', '(', ')', ',', '&', '|', '<', '>']

def isClosing (c : Char) : Bool :=
  closingMarks.contains c

def isOpening (c : Char) : Bool :=
  isDigit c || c == '\'' || c == '-'

structure Joins (z w : CString) : Prop where
  plain : ∀ c ∈ z, isPlain c = true
  closes : ∀ c ∈ z.getLast?, isClosing c = true
  opens : ∀ c ∈ w.head?, isOpening c = true

def isSettled (kind : SqlKind) : Bool :=
  kind != .illegal && kind != .blob && kind != .float

theorem tokenAt_word (inside : isWordChar c = true) (z : CString) :
    tokenAt c z =
      if isDigit c then number (c :: z)
      else if (c = 'x' ∨ c = 'X') ∧
          (charAt z 0 = '\'' ∨ charAt z 0 = '"') then
        blob (charAt z 0) (z.drop 1)
      else if isIdChar c then (.word, 1 + span isIdChar z)
      else (.illegal, 1) := by
  unfold tokenAt
  split
  all_goals first
    | exact absurd inside (by decide)
    | rfl

theorem isPlain_cases (plain : isPlain c = true) :
    isWordChar c = true ∨ c ∈ plainMarks := by
  simpa [isPlain, Bool.or_eq_true] using plain

namespace Joins

variable {c : Char} {z w : CString}

theorem tail (joins : Joins (c :: z) w) : Joins z w where
  plain := fun d listed => joins.plain d (List.mem_cons_of_mem c listed)
  closes := by
    intro d last
    refine joins.closes d ?_
    cases z with
    | nil => cases last
    | cons e z => simpa using last
  opens := joins.opens

theorem drop (joins : Joins z w) (n : Nat) : Joins (z.drop n) w := by
  induction n generalizing z with
  | zero => exact joins
  | succ n ih =>
      cases z with
      | nil => exact joins
      | cons c z => exact ih joins.tail

theorem exists_closing (joins : Joins (c :: z) w)
    (within : isClosing c = false) : ∃ d ∈ z, isClosing d = true := by
  cases z with
  | nil =>
      have closes := joins.closes c rfl
      rw [within] at closes
      cases closes
  | cons d z =>
      refine ⟨(d :: z).getLast (List.cons_ne_nil _ _),
        List.getLast_mem _, joins.closes _ ?_⟩
      simp [List.getLast?_eq_some_getLast]

theorem plain_charAt (joins : Joins z w) {i : Nat} (inside : i < z.length) :
    isPlain (charAt z i) = true := by
  refine joins.plain _ ?_
  simp [charAt, List.getD, List.getElem?_eq_getElem inside]

theorem closes_charAt (joins : Joins z w) {i : Nat}
    (last : i + 1 = z.length) : isClosing (charAt z i) = true := by
  refine joins.closes _ ?_
  have inside : i < z.length := by omega
  have index : z.length - 1 = i := by omega
  simp [charAt, List.getD, List.getLast?_eq_getElem?, index,
    List.getElem?_eq_getElem inside]

end Joins

theorem isIdChar_of_isClosing (closes : isClosing c = true) :
    isIdChar c = false := by
  have each : closingMarks.all (!isIdChar ·) = true := by decide
  simpa using List.all_eq_true.mp each c (by simpa [isClosing] using closes)

theorem isDigit_of_isClosing (closes : isClosing c = true) :
    isDigit c = false := by
  have each : closingMarks.all (!isDigit ·) = true := by decide
  simpa using List.all_eq_true.mp each c (by simpa [isClosing] using closes)

theorem isClosing_of_isWordChar (inside : isWordChar c = true) :
    isClosing c = false := by
  cases closes : isClosing c with
  | false => rfl
  | true =>
      have each : closingMarks.all (!isWordChar ·) = true := by decide
      have outside :=
        List.all_eq_true.mp each c (by simpa [isClosing] using closes)
      rw [inside] at outside
      cases outside

section Behind

variable {c : Char} {z w : CString}

theorem hasExponent_append (joins : Joins z w) {i : Nat}
    (inside : i < z.length) :
    hasExponent (z ++ w) i = hasExponent z i := by
  unfold hasExponent
  rw [charAt_append inside]
  cases mark : charAt z i == 'e' || charAt z i == 'E' with
  | false => rfl
  | true =>
      have further : i + 1 < z.length := by
        by_contra beyond
        have closes := joins.closes_charAt (by omega : i + 1 = z.length)
        obtain same | same : charAt z i = 'e' ∨ charAt z i = 'E' := by
          simpa using mark
        all_goals
          rw [same] at closes
          exact absurd closes (by decide)
      have plain := joins.plain_charAt further
      rw [charAt_append further]
      have unsigned : (charAt z (i + 1) == '+' || charAt z (i + 1) == '-') =
          false := by
        cases sign : charAt z (i + 1) == '+' || charAt z (i + 1) == '-' with
        | false => rfl
        | true =>
            obtain same | same : charAt z (i + 1) = '+' ∨
                charAt z (i + 1) = '-' := by simpa using sign
            all_goals
              rw [same] at plain
              exact absurd plain (by decide)
      rw [unsigned, Bool.false_and, Bool.false_and]

theorem number_integer (noPoint : charAt z (span isDigit z) ≠ '.')
    (noExponent : hasExponent z (span isDigit z) = false) :
    number z = (.integer, span isDigit z) := by
  simp [number, noPoint, noExponent]

theorem number_settled (settled : isSettled (number z).1 = true) :
    charAt z (span isDigit z) ≠ '.' ∧
      hasExponent z (span isDigit z) = false := by
  by_cases point : charAt z (span isDigit z) = '.'
  · exfalso
    simp only [number, point, if_true] at settled
    split at settled
    · exact Bool.noConfusion settled
    · exact Bool.noConfusion settled
  · refine ⟨point, ?_⟩
    simp only [number, if_neg point] at settled
    split at settled
    · exact Bool.noConfusion settled
    · rename_i noExponent
      simpa using noExponent

theorem number_append (joins : Joins (c :: z) w)
    (inside : isWordChar c = true)
    (settled : isSettled (number (c :: z)).1 = true) :
    number (c :: z ++ w) = number (c :: z) ∧
      (number (c :: z)).2 ≤ z.length + 1 := by
  obtain ⟨d, listed, closes⟩ :=
    joins.exists_closing (isClosing_of_isWordChar inside)
  obtain ⟨same, short⟩ := span_append_of_mem
    (List.mem_cons_of_mem c listed) (isDigit_of_isClosing closes) w
  obtain ⟨noPoint, noExponent⟩ := number_settled settled
  rw [number_integer noPoint noExponent, number_integer, same]
  · exact ⟨rfl, Nat.le_of_lt short⟩
  · rw [same, charAt_append short]
    exact noPoint
  · rw [same, hasExponent_append joins short]
    exact noExponent

theorem charAt_zero_append (joins : Joins z w) {d : Char}
    (other : isOpening d = false) (notEnd : d ≠ '\x00') :
    charAt (z ++ w) 0 = d ↔ charAt z 0 = d := by
  cases z with
  | cons e z => exact Iff.rfl
  | nil =>
      have behind : charAt [] 0 ≠ d := fun same => notEnd same.symm
      refine iff_of_false ?_ behind
      cases w with
      | nil => exact behind
      | cons e w =>
          intro same
          have opens : isOpening e = true := joins.opens e rfl
          rw [show e = d from same, other] at opens
          cases opens

theorem length_pos_of_charAt {d : Char} (same : charAt z 0 = d)
    (notEnd : d ≠ '\x00') : 0 < z.length := by
  cases z with
  | nil => exact absurd same.symm notEnd
  | cons => exact Nat.succ_pos _

theorem blob_not_settled (delim : Char) (z : CString) :
    isSettled (blob delim z).1 = false := by
  simp only [blob]
  split
  · split
    · rfl
    · rfl
  · split
    · rfl
    · rfl

theorem tokenAt_word_append (joins : Joins (c :: z) w)
    (inside : isWordChar c = true)
    (settled : isSettled (tokenAt c z).1 = true) :
    tokenAt c (z ++ w) = tokenAt c z ∧ (tokenAt c z).2 ≤ z.length + 1 := by
  obtain ⟨d, listed, closes⟩ :=
    joins.exists_closing (isClosing_of_isWordChar inside)
  have next : charAt (z ++ w) 0 = charAt z 0 :=
    charAt_append (List.length_pos_of_mem listed) w
  rw [tokenAt_word inside] at settled
  rw [tokenAt_word inside, tokenAt_word inside, next]
  split at settled
  case isTrue digit =>
    rw [if_pos digit, if_pos digit]
    exact number_append joins inside settled
  case isFalse noDigit =>
    rw [if_neg noDigit, if_neg noDigit]
    split at settled
    case isTrue =>
      rw [blob_not_settled] at settled
      cases settled
    case isFalse noBlob =>
      obtain ⟨same, short⟩ :=
        span_append_of_mem listed (isIdChar_of_isClosing closes) w
      rw [if_neg noBlob, if_neg noBlob, same]
      split
      · exact ⟨rfl, by simp only; omega⟩
      · exact ⟨rfl, by simp⟩

theorem tokenAt_operator_append (joins : Joins (c :: z) w)
    (operator : c ∈ ['=', '<', '>', '!', '|'])
    (settled : isSettled (tokenAt c z).1 = true) :
    tokenAt c (z ++ w) = tokenAt c z ∧ (tokenAt c z).2 ≤ z.length + 1 := by
  have equals := charAt_zero_append joins.tail (d := '=') rfl (by decide)
  have less := charAt_zero_append joins.tail (d := '<') rfl (by decide)
  have greater := charAt_zero_append joins.tail (d := '>') rfl (by decide)
  have bar := charAt_zero_append joins.tail (d := '|') rfl (by decide)
  have two : ∀ d ∈ ['=', '<', '>', '|'], charAt z 0 = d → 0 < z.length := by
    intro d listed same
    refine length_pos_of_charAt same ?_
    rintro rfl
    exact absurd listed (by decide)
  simp only [List.mem_cons, List.not_mem_nil, or_false, forall_eq_or_imp,
    forall_eq] at operator two
  obtain ⟨twoEquals, twoLess, twoGreater, twoBar⟩ := two
  rcases operator with rfl | rfl | rfl | rfl | rfl
  all_goals
    simp only [tokenAt, equals, less, greater, bar] at settled ⊢
    refine ⟨trivial, ?_⟩
  · split
    · exact Nat.succ_le_succ (twoEquals ‹_›)
    · exact Nat.le_add_left _ _
  · split
    · exact Nat.succ_le_succ (twoEquals ‹_›)
    · split
      · exact Nat.succ_le_succ (twoGreater ‹_›)
      · split
        · exact Nat.succ_le_succ (twoLess ‹_›)
        · exact Nat.le_add_left _ _
  · split
    · exact Nat.succ_le_succ (twoEquals ‹_›)
    · split
      · exact Nat.succ_le_succ (twoGreater ‹_›)
      · exact Nat.le_add_left _ _
  · split
    · exact Nat.succ_le_succ (twoEquals ‹_›)
    · rename_i alone
      rw [if_neg alone] at settled
      cases settled
  · split
    · exact Nat.succ_le_succ (twoBar ‹_›)
    · exact Nat.le_add_left _ _

theorem isSpace_of_isDigit (digit : isDigit c = true) : isSpace c = false := by
  obtain ⟨low, _⟩ : '0' ≤ c ∧ c ≤ '9' := by simpa [isDigit] using digit
  have above : ¬c ≤ '\r' := fun most =>
    absurd (Char.le_trans low most) (by decide)
  have blank : c ≠ ' ' := by
    rintro rfl
    exact absurd low (by decide)
  simp [isSpace, above, blank]

theorem isSpace_of_isOpening (opens : isOpening c = true) :
    isSpace c = false := by
  obtain (digit | rfl) | rfl : (isDigit c = true ∨ c = '\'') ∨ c = '-' := by
    simpa [isOpening] using opens
  · exact isSpace_of_isDigit digit
  · rfl
  · rfl

theorem tokenAt_space_append (joins : Joins (' ' :: z) w) :
    tokenAt ' ' (z ++ w) = tokenAt ' ' z ∧
      (tokenAt ' ' z).2 ≤ z.length + 1 := by
  have same : span isSpace (z ++ w) = span isSpace z :=
    span_append z fun d head => isSpace_of_isOpening (joins.opens d head)
  have short : span isSpace z ≤ z.length := (List.takeWhile_prefix _).length_le
  show (SqlKind.space, 1 + span isSpace (z ++ w)) = _ ∧ 1 + span isSpace z ≤ _
  rw [same]
  exact ⟨rfl, by omega⟩

theorem tokenAt_point_append (joins : Joins ('.' :: z) w)
    (settled : isSettled (tokenAt '.' z).1 = true) :
    tokenAt '.' (z ++ w) = tokenAt '.' z ∧
      (tokenAt '.' z).2 ≤ z.length + 1 := by
  obtain ⟨d, listed, -⟩ := joins.exists_closing rfl
  have next : charAt (z ++ w) 0 = charAt z 0 :=
    charAt_append (List.length_pos_of_mem listed) w
  simp only [tokenAt] at settled ⊢
  rw [next]
  split
  · rename_i digit
    rw [if_pos digit] at settled
    exact absurd rfl (number_settled settled).1
  · exact ⟨rfl, Nat.le_add_left _ _⟩

theorem tokenAt_quote_append (joins : Joins ('\'' :: z) w)
    (settled : isSettled (tokenAt '\'' z).1 = true) :
    tokenAt '\'' (z ++ w) = tokenAt '\'' z ∧
      (tokenAt '\'' z).2 ≤ z.length + 1 := by
  have stops : z.getLast? ≠ some '\'' := fun last =>
    absurd (joins.tail.closes '\'' last) (by decide)
  simp only [tokenAt] at settled ⊢
  cases closed : closingQuote '\'' z with
  | none =>
      rw [closed] at settled
      cases settled
  | some n =>
      rw [closingQuote_append closed (Or.inl stops)]
      have short := closingQuote_le closed
      exact ⟨rfl, by simp only; omega⟩

theorem tokenAt_append (joins : Joins (c :: z) w)
    (settled : isSettled (tokenAt c z).1 = true) :
    tokenAt c (z ++ w) = tokenAt c z ∧ (tokenAt c z).2 ≤ z.length + 1 := by
  obtain word | listed := isPlain_cases (joins.plain c List.mem_cons_self)
  · exact tokenAt_word_append joins word settled
  · have cases_ : c ∈ ['=', '<', '>', '!', '|'] ∨
        c ∈ ['(', ')', ',', '*', '&'] ∨ c ∈ [' ', '.', '\''] := by
      have each : plainMarks.all (fun c =>
          decide (c ∈ ['=', '<', '>', '!', '|'] ∨
            c ∈ ['(', ')', ',', '*', '&'] ∨ c ∈ [' ', '.', '\''])) = true := by
        decide
      exact of_decide_eq_true (List.all_eq_true.mp each c listed)
    obtain operator | single | other := cases_
    · exact tokenAt_operator_append joins operator settled
    · simp only [List.mem_cons, List.not_mem_nil, or_false] at single
      rcases single with rfl | rfl | rfl | rfl | rfl
      all_goals exact ⟨rfl, Nat.le_add_left _ _⟩
    · simp only [List.mem_cons, List.not_mem_nil, or_false] at other
      rcases other with rfl | rfl | rfl
      · exact tokenAt_space_append joins
      · exact tokenAt_point_append joins settled
      · exact tokenAt_quote_append joins settled

end Behind

theorem number_pos (c : Char) (z : CString)
    (starts : isDigit c = true ∨ c = '.') : 1 ≤ (number (c :: z)).2 := by
  by_cases point : charAt (c :: z) (span isDigit (c :: z)) = '.'
  · simp only [number, if_pos point]
    split
    · simp only
      omega
    · simp only
      omega
  · simp only [number, if_neg point]
    split
    · simp only
      omega
    · obtain digit | rfl := starts
      · simp [span, digit]
      · exact absurd rfl point

theorem blob_pos (delim : Char) (z : CString) : 1 ≤ (blob delim z).2 := by
  simp only [blob]
  split
  · exact Nat.le_add_left _ _
  · split
    · exact Nat.le_add_left _ _
    · exact Nat.le_add_left _ _

theorem tokenAt_pos (c : Char) (z : CString) : 1 ≤ (tokenAt c z).2 := by
  unfold tokenAt
  split
  all_goals
    simp only
    repeat' split
  all_goals try omega
  · exact number_pos _ _ (Or.inr rfl)
  · exact number_pos _ _ (Or.inl ‹_›)
  · exact blob_pos _ _

theorem readTokens_cons {fuel : Nat} {ts : List Token} :
    readTokens (fuel + 1) (c :: z) = some ts ↔
      ∃ first rest,
        passOn (tokenAt c z).1 ((c :: z).take (tokenAt c z).2) = some first ∧
        readTokens fuel ((c :: z).drop (tokenAt c z).2) = some rest ∧
        first ++ rest = ts := by
  simp [readTokens, getToken, Option.bind_eq_some_iff]

theorem tokens_of_readTokens {fuel : Nat} {ts : List Token}
    (read : readTokens fuel z = some ts) {enough : Nat}
    (long : z.length ≤ enough) : readTokens enough z = some ts := by
  induction fuel generalizing z ts enough with
  | zero =>
      cases z with
      | nil =>
          rw [← read]
          simp [readTokens]
      | cons => cases read
  | succ fuel ih =>
      cases z with
      | nil =>
          rw [← read]
          simp [readTokens]
      | cons c z =>
          obtain ⟨enough, rfl⟩ : ∃ more, enough = more + 1 :=
            ⟨enough - 1, by simp at long; omega⟩
          obtain ⟨first, rest, passed, later, rfl⟩ := readTokens_cons.mp read
          refine readTokens_cons.mpr ⟨first, rest, passed, ih later ?_, rfl⟩
          have one := tokenAt_pos c z
          simp only [List.length_cons] at long
          simp only [List.length_drop, List.length_cons]
          omega

theorem tokens_cons {z w : CString} {kind : SqlKind} {ts : List Token}
    (first : tokenAt c (z ++ w) = (kind, z.length + 1))
    (passed : passOn kind (c :: z) = some [⟨kind, c :: z⟩])
    (read : tokens w = some ts) :
    tokens (c :: z ++ w) = some (⟨kind, c :: z⟩ :: ts) := by
  have head : (c :: (z ++ w)).take (z.length + 1) = c :: z := by simp
  have behind : (c :: (z ++ w)).drop (z.length + 1) = w := by simp
  have step : readTokens (w.length + 1) (c :: (z ++ w)) =
      some ([⟨kind, c :: z⟩] ++ ts) := by
    refine readTokens_cons.mpr ⟨_, ts, ?_, ?_, rfl⟩
    · rw [first, head, passed]
    · rw [first, behind]
      exact read
  exact tokens_of_readTokens step (Nat.le_refl _)

theorem isSettled_of_passOn {kind : SqlKind} {text : CString}
    {first : List Token} (passed : passOn kind text = some first)
    (settled : ∀ t ∈ first, isSettled t.kind = true) :
    isSettled kind = true := by
  unfold passOn at passed
  split at passed
  · cases passed
  · rfl
  · rfl
  · cases passed
    exact settled ⟨kind, text⟩ List.mem_cons_self

theorem readTokens_append {fuel : Nat} {z w : CString} {ts us : List Token}
    (joins : Joins z w) (read : readTokens fuel z = some ts)
    (settled : ∀ t ∈ ts, isSettled t.kind = true)
    (behind : readTokens w.length w = some us) :
    readTokens (fuel + w.length) (z ++ w) = some (ts ++ us) := by
  induction fuel generalizing z ts with
  | zero =>
      cases z with
      | nil =>
          cases read
          exact tokens_of_readTokens behind (Nat.le_add_left _ _)
      | cons => cases read
  | succ fuel ih =>
      cases z with
      | nil =>
          cases read
          exact tokens_of_readTokens behind (Nat.le_add_left _ _)
      | cons c z =>
          obtain ⟨first, rest, passed, later, rfl⟩ := readTokens_cons.mp read
          obtain ⟨same, short⟩ := tokenAt_append joins
            (isSettled_of_passOn passed fun t listed =>
              settled t (List.mem_append_left rest listed))
          have cut : (c :: (z ++ w)).drop (tokenAt c z).2 =
              (c :: z).drop (tokenAt c z).2 ++ w := by
            rw [← List.cons_append, List.drop_append_of_le_length short]
          have kept : (c :: (z ++ w)).take (tokenAt c z).2 =
              (c :: z).take (tokenAt c z).2 := by
            rw [← List.cons_append, List.take_append_of_le_length short]
          rw [Nat.succ_add, List.cons_append, List.append_assoc]
          refine readTokens_cons.mpr ⟨first, rest ++ us, ?_, ?_, rfl⟩
          · rw [same, kept, passed]
          · rw [same, cut]
            exact ih (joins.drop _) later fun t listed =>
              settled t (List.mem_append_right first listed)

theorem tokens_append {z w : CString} {ts us : List Token}
    (joins : Joins z w) (read : tokens z = some ts)
    (settled : ∀ t ∈ ts, isSettled t.kind = true)
    (behind : tokens w = some us) : tokens (z ++ w) = some (ts ++ us) :=
  tokens_of_readTokens (readTokens_append joins read settled behind)
    (by simp)

end Sql

end RatboxServices
