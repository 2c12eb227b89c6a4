import Mathlib.Tactic.Ring
import RatboxServices.Conf.Lexer
import RatboxServices.Irc.MatchGlob

namespace RatboxServices

open CString

/-! Which quoted strings of a configuration file are read back. -/

namespace Lexer

variable {st : LexState} {body rest s : CString} {c : Char}

def escape : CString → CString
  | [] => []
  | c :: rest =>
      if c = '\\' ∨ c = '"' then '\\' :: c :: escape rest else c :: escape rest

def quoted (s : CString) : CString :=
  '"' :: escape s ++ ['"']

theorem unescape_cons (plain : c ≠ '\\') (rest : CString) :
    unescape (c :: rest) = (c :: (unescape rest).1, (unescape rest).2) := by
  cases rest with
  | nil => simp [unescape, plain]
  | cons d rest => simp [unescape, plain]

theorem unescape_escape (s : CString) : unescape (escape s) = (s, true) := by
  induction s with
  | nil => rfl
  | cons c s ih =>
      unfold escape
      split
      · rw [unescape, if_pos rfl, ih]
      · rename_i plain
        rw [unescape_cons fun backslash => plain (Or.inl backslash), ih]

theorem escape_append (left right : CString) :
    escape (left ++ right) = escape left ++ escape right := by
  induction left with
  | nil => rfl
  | cons c left ih =>
      rw [List.cons_append, escape, escape, ih]
      split
      · rfl
      · rfl

theorem longest_of_quote {rule : Pattern Char × Rule} (listed : rule ∈ rules)
    (notString : rule.2 ≠ .qstring) {tail : CString} {m : Nat}
    (found : rule.1.longest ('"' :: tail) = some m) : m ≤ 1 := by
  have stops : rule.2 ≠ .other → rule.1.mayStart '"' = false := by
    simp only [rules, List.mem_cons, List.not_mem_nil, or_false] at listed
    obtain rfl | rfl | rfl | rfl | rfl | rfl | rfl | rfl | rfl | rfl := listed
    all_goals first | exact fun _ => rfl | exact absurd rfl notString |
      exact fun other => absurd rfl other
  by_cases other : rule.2 = .other
  · have single : rule.1 = .one notNewline := by
      simp only [rules, List.mem_cons, List.not_mem_nil, or_false] at listed
      obtain rfl | rfl | rfl | rfl | rfl | rfl | rfl | rfl | rfl | rfl :=
        listed
      all_goals first | rfl | cases other
    obtain ⟨short, there⟩ := (Pattern.longest_spec _ _).1 m found
    rw [single] at there
    obtain ⟨a, same, _⟩ := there
    have length := congrArg List.length same
    rw [List.length_take, Nat.min_eq_left short] at length
    exact Nat.le_of_eq length
  · rw [Pattern.longest_of_mayStart (stops other) found]
    exact Nat.zero_le 1

theorem mem_qstring {text : CString} : text ∈ qstring.language ↔
    ∃ body c, text = '"' :: body ++ [c] ∧ (∀ d ∈ body, isEnd d = false) ∧
      isEnd c = true := by
  unfold qstring
  rw [Pattern.mem_seq]
  constructor
  · rintro ⟨_, ⟨quote, rfl, isQuote⟩, _, more, rfl⟩
    obtain ⟨body, inside, _, ⟨c, rfl, ends⟩, rfl⟩ := Pattern.mem_seq.mp more
    rw [beq_iff_eq] at isQuote
    subst isQuote
    refine ⟨body, c, rfl, fun d there => ?_, ends⟩
    simpa using Pattern.mem_many.mp inside d there
  · rintro ⟨body, c, rfl, clean, ends⟩
    refine ⟨['"'], ⟨'"', rfl, rfl⟩, body ++ [c], ?_, rfl⟩
    refine Pattern.mem_seq.mpr ⟨body, ?_, [c], ⟨c, rfl, ends⟩, rfl⟩
    exact Pattern.mem_many.mpr fun d there => by rw [clean d there]; rfl

theorem longest_qstring (clean : ∀ d ∈ body, isEnd d = false)
    (ends : isEnd c = true) (rest : CString) :
    qstring.longest ('"' :: body ++ c :: rest) = some (body.length + 2) := by
  apply Pattern.longest_eq
  · simp
  · refine mem_qstring.mpr ⟨body, c, ?_, clean, ends⟩
    rw [List.cons_append, List.take_succ_cons, List.take_append]
    simp
  · intro m long within there
    obtain ⟨other, last, same, clean', _⟩ := mem_qstring.mp there
    -- the closing character would be inside of the longer match
    have length := congrArg List.length same
    rw [List.length_take, Nat.min_eq_left within] at length
    have inner : ('"' :: body ++ c :: rest)[body.length + 1]? = some c := by
      simp
    have again : (('"' :: body ++ c :: rest).take m)[body.length + 1]? =
        some c := by
      rw [List.getElem?_take_of_lt (by omega)]
      exact inner
    rw [same, List.cons_append, List.getElem?_cons_succ] at again
    have inside : body.length < other.length := by
      simp at length
      omega
    rw [List.getElem?_append_left inside] at again
    rw [clean' c (List.mem_of_getElem? again)] at ends
    cases ends

theorem choose_qstring (clean : ∀ d ∈ body, isEnd d = false)
    (ends : isEnd c = true) (rest : CString) :
    Pattern.choose rules ('"' :: body ++ c :: rest) =
      some (body.length + 2, .qstring) := by
  have others : ∀ rule ∈ rules, rule.2 ≠ .qstring → ∀ m,
      rule.1.longest ('"' :: (body ++ c :: rest)) = some m → m ≤ 1 :=
    fun rule listed notString m found =>
      longest_of_quote listed notString found
  have split : rules = rules.take 6 ++ (qstring, .qstring) :: rules.drop 7 :=
    rfl
  rw [split]
  apply Pattern.choose_eq (longest_qstring clean ends rest)
  · intro rule listed m found
    have small := others rule (List.mem_of_mem_take listed) (by
      simp only [rules, List.take_succ_cons, List.take_zero, List.mem_cons,
        List.not_mem_nil, or_false] at listed
      obtain rfl | rfl | rfl | rfl | rfl | rfl := listed
      all_goals simp) m found
    omega
  · intro rule listed m found
    have small := others rule (List.mem_of_mem_drop listed) (by
      simp only [rules, List.drop_succ_cons, List.drop_zero, List.mem_cons,
        List.not_mem_nil, or_false] at listed
      obtain rfl | rfl | rfl := listed
      all_goals simp) m found
    omega

theorem choose_some (c : Char) (tail : CString) :
    ∃ n rule, Pattern.choose rules (c :: tail) = some (n, rule) ∧ 1 ≤ n ∧
      n ≤ (c :: tail).length := by
  have one : ∃ rule ∈ rules, ∃ m, rule.1.longest (c :: tail) = some m ∧
      1 ≤ m := by
    by_cases newline : c = '\n'
    · refine ⟨rules[2], by simp [rules], ?_⟩
      apply (Pattern.longest_spec _ _).2 1 (by simp)
      subst newline
      exact Pattern.mem_seq.mpr ⟨['\n'], ⟨'\n', rfl, rfl⟩, [],
        Pattern.mem_many.mpr (by simp), rfl⟩
    · refine ⟨rules[9], by simp [rules], ?_⟩
      apply (Pattern.longest_spec _ _).2 1 (by simp)
      exact ⟨c, rfl, by simp [notNewline, newline]⟩
  obtain ⟨rule, listed, m, found, some_⟩ := one
  obtain ⟨⟨n, chosen⟩, same, le⟩ := Pattern.choose_complete listed found
  obtain ⟨other, _, _, matched⟩ := Pattern.choose_sound same
  exact ⟨n, chosen, same, Nat.le_trans some_ le,
    ((Pattern.longest_spec _ _).1 n matched).1⟩

theorem skipComment_suffix {star : Bool} {lineno line : Nat}
    {text left : CString} (found : skipComment star lineno text =
      some (left, line)) : left <:+ text := by
  induction text generalizing star lineno with
  | nil => cases found
  | cons c text ih =>
      unfold skipComment at found
      split at found
      · exact (ih found).trans (List.suffix_cons _ _)
      · split at found
        · split at found
          · cases found
            exact List.suffix_cons _ _
          · exact (ih found).trans (List.suffix_cons _ _)
        · exact (ih found).trans (List.suffix_cons _ _)

/-- What a match of `yylex` leaves: the kept text and the input are the end of
what they were, and less; a string ends at a quote without a backslash. -/
def Leaves (st : LexState) : Step → Prop
  | .next after => (after.more ++ after.input <:+ st.more ++ st.input) ∧
      after.bound < st.bound
  | .done (.token (.qstring _) after) => ∃ front x,
      st.more ++ st.input = front ++ [x, '"'] ++ after.input ∧ x ≠ '\\'
  | .done _ => True

theorem bound_lt {before after : LexState}
    (less : after.more.length + after.input.length <
        before.more.length + before.input.length ∨
      (after.more.length + after.input.length =
        before.more.length + before.input.length ∧
        after.input.length < before.input.length)) :
    after.bound < before.bound := by
  unfold LexState.bound
  dsimp only
  obtain less | ⟨same, less⟩ := less
  · generalize total : after.more.length + after.input.length = small at less
    generalize before.more.length + before.input.length = large at less
    have square : (small + 1) * (small + 2) ≤ large * (large + 1) :=
      Nat.mul_le_mul less (Nat.succ_le_succ less)
    have open_ : (small + 1) * (small + 2) =
        small * (small + 1) + 2 * small + 2 := by ring
    have before_ : small * (small + 1) + after.input.length <
        (small + 1) * (small + 2) := by
      omega
    omega
  · rw [same]
    exact Nat.add_lt_add_left less _

theorem leaves_next {after : LexState} {n : Nat} (some_ : 1 ≤ n)
    (short : n ≤ st.input.length) (kept : after.more = [])
    (left : after.input <:+ st.input.drop n) : Leaves st (.next after) := by
  have fewer := left.length_le
  rw [List.length_drop] at fewer
  refine ⟨?_, bound_lt (Or.inl ?_)⟩
  · rw [kept, List.nil_append]
    exact (left.trans (List.drop_suffix n _)).trans (List.suffix_append _ _)
  · rw [kept, List.length_nil]
    omega

theorem split_last_two {text : CString} (long : 2 ≤ text.length) :
    text = text.take (text.length - 2) ++
      [at_ text (text.length - 2), at_ text (text.length - 1)] := by
  have next : text.length - 2 + 1 = text.length - 1 := by omega
  have last : text.length - 1 + 1 = text.length := by omega
  have tail : text.drop (text.length - 2) =
      [at_ text (text.length - 2), at_ text (text.length - 1)] := by
    rw [drop_eq_at (by omega), next, drop_eq_at (by omega), last,
      List.drop_length]
  rw [← tail, List.take_append_drop]

theorem qstringAct_leaves {n : Nat} (short : n ≤ st.input.length)
    (matched : st.input.take n ∈ qstring.language) :
    Leaves st (qstringAct (st.more ++ st.input.take n)
      { st with input := st.input.drop n, more := [] }) := by
  obtain ⟨body, c, same, _, _⟩ := mem_qstring.mp matched
  have length := congrArg List.length same
  rw [List.length_take, Nat.min_eq_left short] at length
  have two : n = body.length + 2 := by simpa using length
  generalize whole : st.more ++ st.input.take n = yytext
  have long : yytext.length = st.more.length + n := by
    rw [← whole, List.length_append, List.length_take, Nat.min_eq_left short]
  have all : yytext ++ st.input.drop n = st.more ++ st.input := by
    rw [← whole, List.append_assoc, List.take_append_drop]
  unfold qstringAct
  dsimp only
  split
  · refine ⟨?_, bound_lt (Or.inr ⟨?_, ?_⟩)⟩
    · rw [← List.append_assoc, List.take_append_drop, all]
    · simp
      omega
    · simp
      omega
  · rename_i free
    split
    · exact trivial
    · split
      · exact leaves_next (by omega) short rfl (List.suffix_refl _)
      · rename_i ends
        rw [ne_eq, not_not] at ends
        have last : at_ yytext (yytext.length - 1) = '"' := by
          rw [← ends]
          unfold at_
          rw [List.getD_eq_getElem?_getD, List.getD_eq_getElem?_getD,
            List.getElem?_drop]
          congr 2
          omega
        have long : 2 ≤ yytext.length := by omega
        have parts := split_last_two long
        rw [last] at parts
        refine ⟨yytext.take (yytext.length - 2), _, ?_, free⟩
        rw [← parts, ← all]
        split
        · rfl
        · rfl

theorem step_leaves (st : LexState) : Leaves st (step st) := by
  unfold step
  split
  · exact trivial
  · rename_i none_
    obtain ⟨c, tail, same⟩ := List.exists_cons_of_ne_nil none_
    obtain ⟨n, rule, chosen, some_, short⟩ := choose_some c tail
    rw [← same] at chosen short
    rw [chosen]
    dsimp only
    have plain : ∀ after : LexState, after.more = [] →
        after.input <:+ st.input.drop n → Leaves st (.next after) :=
      fun after kept left => leaves_next some_ short kept left
    cases rule with
    | include_ => exact trivial
    | ccomment =>
        unfold act
        dsimp only
        split
        · exact trivial
        · rename_i rest line found
          exact plain _ rfl (skipComment_suffix found)
    | newline =>
        unfold act
        dsimp only
        split
        · exact trivial
        · have all : (st.more ++ st.input.take n) ++ st.input.drop n =
              st.more ++ st.input := by
            rw [List.append_assoc, List.take_append_drop]
          have length := congrArg List.length all
          rw [List.length_append, List.length_append] at length
          have given : 1 ≤ (st.more ++ st.input.take n).length := by
            simp
            omega
          refine ⟨?_, bound_lt (Or.inl ?_)⟩
          · rw [← all, List.nil_append,
              ← List.drop_append_of_le_length given]
            exact List.drop_suffix 1 _
          · simp at length given ⊢
            omega
    | ws => exact plain _ rfl (List.suffix_refl _)
    | comment =>
        unfold act hashcomment
        dsimp only
        split
        · exact plain _ rfl (List.suffix_refl _)
        · exact plain _ rfl (List.suffix_refl _)
    | number => exact trivial
    | qstring =>
        obtain ⟨found, listed, isString, matched⟩ :=
          Pattern.choose_sound chosen
        have isQstring : found.1 = qstring := by
          simp only [rules, List.mem_cons, List.not_mem_nil, or_false]
            at listed
          obtain rfl | rfl | rfl | rfl | rfl | rfl | rfl | rfl | rfl | rfl :=
            listed
          all_goals first | rfl | cases isString
        rw [isQstring] at matched
        exact qstringAct_leaves short
          ((Pattern.longest_spec _ _).1 n matched).2
    | string =>
        unfold act
        dsimp only
        split
        · exact trivial
        · exact trivial
    | twodots => exact trivial
    | other => exact trivial

theorem lex_total {matches_ : Nat} {st : LexState}
    (enough : st.bound < matches_) : ∃ lexed, lex matches_ st = some lexed := by
  induction matches_ generalizing st with
  | zero => cases enough
  | succ matches_ ih =>
      have leaves := step_leaves st
      unfold lex
      cases stepped : step st with
      | done lexed => exact ⟨lexed, rfl⟩
      | next after =>
          rw [stepped] at leaves
          exact ih (Nat.lt_of_lt_of_le leaves.2 (Nat.le_of_lt_succ enough))

theorem yylex_total (st : LexState) : ∃ lexed, yylex st = some lexed :=
  lex_total (Nat.lt_succ_self _)

theorem lex_mono {less more : Nat} {st : LexState} {lexed : Lexed}
    (found : lex less st = some lexed) (le : less ≤ more) :
    lex more st = some lexed := by
  induction less generalizing st more with
  | zero => cases found
  | succ less ih =>
      obtain ⟨more, rfl⟩ : ∃ n, more = n + 1 := ⟨more - 1, by omega⟩
      unfold lex at found ⊢
      cases stepped : step st with
      | done result =>
          rw [stepped] at found
          exact found
      | next after =>
          rw [stepped] at found
          exact ih found (Nat.le_of_succ_le_succ le)

theorem yylex_eq_some {st : LexState} {lexed : Lexed} :
    yylex st = some lexed ↔ ∃ matches_, lex matches_ st = some lexed := by
  constructor
  · exact fun found => ⟨_, found⟩
  · rintro ⟨matches_, found⟩
    obtain ⟨other, total⟩ := yylex_total st
    have both := lex_mono total (Nat.le_max_left _ matches_)
    rw [lex_mono found (Nat.le_max_right _ matches_)] at both
    rw [total, both]

theorem yylex_next {before after : LexState}
    (stepped : step before = .next after) : yylex before = yylex after := by
  obtain ⟨lexed, found⟩ := yylex_total after
  rw [found]
  obtain ⟨matches_, run⟩ := yylex_eq_some.mp found
  refine yylex_eq_some.mpr ⟨matches_ + 1, ?_⟩
  rw [lex, stepped]
  exact run

theorem yylex_done {before : LexState} {lexed : Lexed}
    (stepped : step before = .done lexed) : yylex before = some lexed := by
  refine yylex_eq_some.mpr ⟨1, ?_⟩
  rw [lex, stepped]

theorem qstring_ends {st after : LexState} {value : CString}
    (found : yylex st = some (.token (.qstring value) after)) :
    ∃ front x, st.more ++ st.input = front ++ [x, '"'] ++ after.input ∧
      x ≠ '\\' := by
  obtain ⟨matches_, run⟩ := yylex_eq_some.mp found
  induction matches_ generalizing st with
  | zero => cases run
  | succ matches_ ih =>
      have leaves := step_leaves st
      unfold lex at run
      cases stepped : step st with
      | done lexed =>
          rw [stepped] at run leaves
          cases run
          exact leaves
      | next middle =>
          rw [stepped] at run leaves
          obtain ⟨⟨front, whole⟩, _⟩ := leaves
          obtain ⟨inner, x, same, free⟩ :=
            ih (yylex_eq_some.mpr ⟨matches_, run⟩) run
          refine ⟨front ++ inner, x, ?_, free⟩
          rw [← whole, same]
          simp only [List.append_assoc]

def atQuote (kept input : CString) (st : LexState) : LexState :=
  { st with input := '"' :: input, more := kept }

theorem isEnd_escape (clean : ∀ c ∈ s, isEnd c = false) :
    ∀ c ∈ escape s, isEnd c = false := by
  induction s with
  | nil => exact clean
  | cons c s ih =>
      obtain ⟨head, rest⟩ := List.forall_mem_cons.mp clean
      unfold escape
      split
      · exact List.forall_mem_cons.mpr
          ⟨rfl, List.forall_mem_cons.mpr ⟨head, ih rest⟩⟩
      · exact List.forall_mem_cons.mpr ⟨head, ih rest⟩

theorem step_atQuote (clean : ∀ d ∈ body, isEnd d = false)
    (kept rest : CString) (st : LexState) :
    step (atQuote kept (body ++ '"' :: rest) st) =
      qstringAct (kept ++ '"' :: body ++ ['"'])
        { st with input := rest, more := [] } := by
  unfold step atQuote
  dsimp only
  have chosen := choose_qstring clean (show isEnd '"' = true from rfl) rest
  rw [List.cons_append] at chosen
  rw [chosen]
  have taken : ('"' :: (body ++ '"' :: rest)).take (body.length + 2) =
      '"' :: body ++ ['"'] := by
    simp [List.take_append]
  have left : ('"' :: (body ++ '"' :: rest)).drop (body.length + 2) =
      rest := by
    simp [List.drop_append]
  dsimp only [act]
  rw [taken, left, ← List.append_assoc]

def ended (front : CString) (st : LexState) : Lexed :=
  if bufSize < front.length then .overflow
  else
    .token (.qstring (unescape (front.drop 1)).1)
      (if (unescape (front.drop 1)).2 then st else st.yyerror unterminated)

section

variable {front : CString} {x : Char} (last : front.getLast? = some x)
include last

theorem at_before_last (c : Char) :
    at_ (front ++ [c]) ((front ++ [c]).length - 2) = x := by
  have given : front ≠ [] := by
    rintro rfl
    cases last
  rw [List.getLast?_eq_getElem?] at last
  have some_ := List.length_pos_of_ne_nil given
  have index : (front ++ [c]).length - 2 = front.length - 1 := by
    rw [List.length_append, List.length_singleton]
    omega
  rw [index, at_, List.getD_eq_getElem?_getD,
    List.getElem?_append_left (by omega), last, Option.getD_some]

theorem qstringAct_escaped (backslash : x = '\\') (rest : CString)
    (st : LexState) :
    qstringAct (front ++ ['"']) { st with input := rest, more := [] } =
      .next { st with input := '"' :: rest, more := front } := by
  unfold qstringAct
  dsimp only
  rw [if_pos ((at_before_last last '"').trans backslash)]
  have length : (front ++ ['"']).length - 1 = front.length := by simp
  rw [length, List.drop_left, List.take_left]
  rfl

theorem qstringAct_end (plain : x ≠ '\\') (st : LexState) :
    qstringAct (front ++ ['"']) st = .done (ended front st) := by
  have given : front ≠ [] := by
    rintro rfl
    cases last
  obtain ⟨c, tail, rfl⟩ := List.exists_cons_of_ne_nil given
  unfold qstringAct ended
  dsimp only
  rw [if_neg (by rw [at_before_last last]; exact plain)]
  have length : (c :: tail ++ ['"']).length = tail.length + 2 := by simp
  have size : bufSize + 1 < tail.length + 2 ↔
      bufSize < (c :: tail).length := by
    rw [List.length_cons]
    omega
  have ends : at_ (tail ++ ['"']) tail.length = '"' := by
    simp [at_]
  rw [length]
  simp only [size, List.cons_append, List.drop_succ_cons, List.drop_zero,
    Nat.add_sub_cancel, ends, ne_eq, not_true_eq_false, if_false,
    List.take_left]
  split
  · rfl
  · rfl

end

theorem yylex_escaped (clean : ∀ d ∈ body, isEnd d = false)
    (kept rest : CString) (st : LexState)
    (backslash : ('"' :: body).getLast? = some '\\') :
    yylex (atQuote kept (body ++ '"' :: rest) st) =
      yylex (atQuote (kept ++ '"' :: body) rest st) := by
  have last : (kept ++ '"' :: body).getLast? = some '\\' := by
    rw [List.getLast?_append, backslash]
    rfl
  apply yylex_next
  rw [step_atQuote clean]
  exact qstringAct_escaped last rfl rest st

theorem getLast?_escape (s : CString) : (escape s).getLast? = s.getLast? := by
  obtain rfl | ⟨front, c, rfl⟩ := List.eq_nil_or_concat s
  · rfl
  · rw [List.concat_eq_append, escape_append, List.getLast?_concat,
      List.getLast?_append]
    unfold escape
    split
    · rfl
    · rfl

theorem yylex_escape (clean : '\n' ∉ s) (kept rest : CString)
    (st : LexState) :
    yylex (atQuote kept (escape s ++ '"' :: rest) st) =
      if s.getLast? = some '\\' then
        yylex (atQuote (kept ++ '"' :: escape s) rest st)
      else
        some (ended (kept ++ '"' :: escape s)
          { st with input := rest, more := [] }) := by
  induction length : s.length using Nat.strong_induction_on
    generalizing s kept with
  | _ n ih =>
      by_cases inner : '"' ∈ s
      · -- the string goes on after its first quote
        obtain ⟨before, after, same, free⟩ := List.eq_append_cons_of_mem inner
        have clean' : ∀ d ∈ before, isEnd d = false := by
          intro d there
          have noNewline : d ≠ '\n' := by
            rintro rfl
            exact clean (by rw [same]; exact List.mem_append_left _ there)
          have noQuote : d ≠ '"' := by
            rintro rfl
            exact free there
          simp [isEnd, noNewline, noQuote]
        have escaped : escape s =
            (escape before ++ ['\\']) ++ '"' :: escape after := by
          rw [same, escape_append, escape]
          simp
        have inside : ∀ d ∈ escape before ++ ['\\'], isEnd d = false := by
          intro d there
          obtain there | there := List.mem_append.mp there
          · exact isEnd_escape clean' d there
          · rw [List.mem_singleton.mp there]
            rfl
        have last : ('"' :: (escape before ++ ['\\'])).getLast? =
            some '\\' := by
          rw [← List.cons_append, List.getLast?_concat]
        have tail : s.getLast? = some '\\' ↔ after.getLast? = some '\\' := by
          rw [same, List.getLast?_append]
          cases after with
          | nil => simp
          | cons c after => simp [List.getLast?_cons]
        have shorter : after.length < n := by
          rw [← length, same, List.length_append, List.length_cons]
          omega
        have rested : '\n' ∉ after := fun there => clean (by
          rw [same]
          exact List.mem_append_right _ (List.mem_cons_of_mem _ there))
        have joined : kept ++ '"' :: (escape before ++ ['\\']) ++
            '"' :: escape after = kept ++ '"' :: escape s := by
          rw [escaped]
          simp
        have whole : escape s ++ '"' :: rest =
            (escape before ++ ['\\']) ++ '"' ::
              (escape after ++ '"' :: rest) := by
          rw [escaped]
          simp
        rw [whole, yylex_escaped inside kept _ st last,
          ih _ shorter rested _ rfl, joined]
        simp only [tail]
      · have clean' : ∀ d ∈ escape s, isEnd d = false := by
          apply isEnd_escape
          intro d there
          have noNewline : d ≠ '\n' := by
            rintro rfl
            exact clean there
          have noQuote : d ≠ '"' := by
            rintro rfl
            exact inner there
          simp [isEnd, noNewline, noQuote]
        have lastOf : ('"' :: escape s).getLast? =
            some (s.getLast?.getD '"') := by
          rw [List.getLast?_cons, getLast?_escape]
        split
        · rename_i backslash
          rw [backslash] at lastOf
          exact yylex_escaped clean' kept rest st lastOf
        · rename_i plain
          have last : (kept ++ '"' :: escape s).getLast? =
              some (s.getLast?.getD '"') := by
            rw [List.getLast?_append, lastOf]
            rfl
          have free : s.getLast?.getD '"' ≠ '\\' := by
            cases is : s.getLast? with
            | none => decide
            | some c =>
                rintro rfl
                exact plain is
          apply yylex_done
          rw [step_atQuote clean']
          exact qstringAct_end last free _

/-- A quoted string is the next token, its value is the string, and what follows
it is unread. -/
def ReadsBack (s rest : CString) (st : LexState) : Prop :=
  yylex { st with input := quoted s ++ ';' :: rest, more := [] } =
    some (.token (.qstring s) { st with input := ';' :: rest, more := [] })

structure OneLine (s : CString) : Prop where
  noNewline : '\n' ∉ s
  noNul : '\x00' ∉ s

/-- A quoted string is read back if and only if it does not end with a backslash
and its text fits into the buffer. -/
theorem readsBack_iff (line : OneLine s) (rest : CString) (st : LexState) :
    ReadsBack s rest st ↔
      s.getLast? ≠ some '\\' ∧ (escape s).length < bufSize := by
  have start : { st with input := quoted s ++ ';' :: rest, more := [] } =
      atQuote [] (escape s ++ '"' :: ';' :: rest) st := by
    simp [quoted, atQuote]
  constructor
  · intro reads
    have plain : s.getLast? ≠ some '\\' := by
      intro backslash
      obtain ⟨front, x, same, free⟩ := qstring_ends reads
      dsimp only at same
      rw [List.nil_append] at same
      have ends : ('"' :: escape s) ++ ['"'] = (front ++ [x]) ++ ['"'] := by
        simpa [quoted] using List.append_cancel_right same
      have last := congrArg List.getLast? (List.append_cancel_right ends)
      rw [List.getLast?_cons, getLast?_escape, backslash,
        List.getLast?_concat] at last
      exact free (Option.some.inj last).symm
    refine ⟨plain, ?_⟩
    unfold ReadsBack at reads
    rw [start, yylex_escape line.noNewline, if_neg plain, ended] at reads
    split at reads
    · cases reads
    · rename_i fits
      rw [List.nil_append, List.length_cons] at fits
      exact Nat.lt_of_succ_le (Nat.not_lt.mp fits)
  · rintro ⟨plain, fits⟩
    unfold ReadsBack
    rw [start, yylex_escape line.noNewline, if_neg plain, ended, if_neg]
    · rw [List.nil_append, List.drop_one, List.tail_cons, unescape_escape]
      rfl
    · rw [List.nil_append, List.length_cons]
      exact Nat.not_lt.mpr fits

/-- A mask with a quote and backslashes in it. -/
theorem readsBack_mask : ReadsBack "a\\b\"c".toList [] { input := [] } :=
  (readsBack_iff ⟨by decide, by decide⟩ [] { input := [] }).mpr
    ⟨by decide, by decide⟩

/-- The string `a\` is scanned as a single quote character. -/
theorem not_readsBack_backslash : OneLine "a\\".toList ∧
    yylex { input := quoted "a\\".toList ++ [';'] } =
      some (.token (.char '"') { input := [';'] }) ∧
    ¬ReadsBack "a\\".toList [] { input := [] } := by
  have scanned : yylex { input := quoted "a\\".toList ++ [';'] } =
      some (.token (.char '"') { input := [';'] }) := by
    decide +kernel
  refine ⟨⟨by decide, by decide⟩, scanned, fun reads => ?_⟩
  rw [ReadsBack, scanned] at reads
  cases reads

end Lexer

end RatboxServices
