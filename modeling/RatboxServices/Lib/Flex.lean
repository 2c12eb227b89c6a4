import Mathlib.Computability.Language

namespace RatboxServices

open scoped Computability

/-! Scanners: regular patterns over classes of letters, the longest match of a
pattern, and the choice of a rule by the longest match, of equal ones the first
rule. -/

inductive Pattern (α : Type) where
  | fail
  | empty
  | one (test : α → Bool)
  | seq (first second : Pattern α)
  | alt (left right : Pattern α)
  | star (pattern : Pattern α)

namespace Pattern

variable {α β : Type}

def language : Pattern α → Language α
  | fail => 0
  | empty => 1
  | one test => Set.ofPred fun word => ∃ a, word = [a] ∧ test a = true
  | seq first second => first.language * second.language
  | alt left right => left.language + right.language
  | star pattern => pattern.language∗

def word : List (α → Bool) → Pattern α
  | [] => empty
  | test :: rest => seq (one test) (word rest)

def many (test : α → Bool) : Pattern α :=
  star (one test)

def nullable : Pattern α → Bool
  | fail => false
  | empty => true
  | one _ => false
  | seq first second => first.nullable && second.nullable
  | alt left right => left.nullable || right.nullable
  | star _ => true

def derive (a : α) : Pattern α → Pattern α
  | fail => fail
  | empty => fail
  | one test => if test a then empty else fail
  | seq first second =>
      if first.nullable then
        alt (seq (first.derive a) second) (second.derive a)
      else seq (first.derive a) second
  | alt left right => alt (left.derive a) (right.derive a)
  | star pattern => seq (pattern.derive a) (star pattern)

def longest : Pattern α → List α → Option Nat
  | pattern, [] => if pattern.nullable then some 0 else none
  | pattern, a :: rest =>
      match (pattern.derive a).longest rest with
      | some n => some (n + 1)
      | none => if pattern.nullable then some 0 else none

def mayStart (a : α) : Pattern α → Bool
  | fail => false
  | empty => false
  | one test => test a
  | seq first second =>
      first.mayStart a || (first.nullable && second.mayStart a)
  | alt left right => left.mayStart a || right.mayStart a
  | star pattern => pattern.mayStart a

variable {pattern first second : Pattern α} {test : α → Bool} {a : α}
  {text : List α} {n : Nat}

theorem mem_one : text ∈ (one test).language ↔
    ∃ a, text = [a] ∧ test a = true := Iff.rfl

theorem mem_seq : text ∈ (seq first second).language ↔
    ∃ left ∈ first.language, ∃ right ∈ second.language,
      left ++ right = text := Language.mem_mul

theorem cons_mem_seq : a :: text ∈ (seq first second).language ↔
    (∃ left right, text = left ++ right ∧ a :: left ∈ first.language ∧
      right ∈ second.language) ∨
    ([] ∈ first.language ∧ a :: text ∈ second.language) := by
  rw [mem_seq]
  constructor
  · rintro ⟨left, inFirst, right, inSecond, same⟩
    cases left with
    | nil =>
        rw [List.nil_append] at same
        exact Or.inr ⟨inFirst, same ▸ inSecond⟩
    | cons b left =>
        obtain ⟨rfl, rest⟩ := List.cons.inj same
        exact Or.inl ⟨left, right, rest.symm, inFirst, inSecond⟩
  · rintro (⟨left, right, rfl, inFirst, inSecond⟩ | ⟨inFirst, inSecond⟩)
    · exact ⟨a :: left, inFirst, right, inSecond, rfl⟩
    · exact ⟨[], inFirst, a :: text, inSecond, rfl⟩

theorem cons_mem_star : a :: text ∈ (star pattern).language ↔
    ∃ left right, text = left ++ right ∧ a :: left ∈ pattern.language ∧
      right ∈ (star pattern).language := by
  constructor
  · intro there
    obtain ⟨parts, same, inside⟩ :=
      Language.mem_kstar_iff_exists_nonempty.mp there
    cases parts with
    | nil => cases same
    | cons part parts =>
        obtain ⟨inPattern, given⟩ := inside part List.mem_cons_self
        cases part with
        | nil => exact absurd rfl given
        | cons b left =>
            rw [List.flatten_cons, List.cons_append] at same
            obtain ⟨rfl, rest⟩ := List.cons.inj same
            refine ⟨left, parts.flatten, rest, inPattern,
              Language.mem_kstar.mpr ⟨parts, rfl, fun other there => ?_⟩⟩
            exact (inside other (List.mem_cons_of_mem _ there)).1
  · rintro ⟨left, right, rfl, inPattern, more⟩
    obtain ⟨parts, rfl, inside⟩ := Language.mem_kstar.mp more
    refine Language.mem_kstar.mpr ⟨(a :: left) :: parts, rfl, ?_⟩
    rintro part (_ | ⟨_, there⟩)
    · exact inPattern
    · exact inside part there

theorem mem_many : text ∈ (many test).language ↔
    ∀ a ∈ text, test a = true := by
  induction text with
  | nil => exact ⟨fun _ => by simp, fun _ => Language.nil_mem_kstar _⟩
  | cons a text ih =>
      unfold many at ih ⊢
      rw [cons_mem_star, List.forall_mem_cons, ← ih]
      constructor
      · rintro ⟨left, right, rfl, ⟨b, single, passed⟩, more⟩
        obtain ⟨rfl, rfl⟩ := List.cons.inj single
        exact ⟨passed, more⟩
      · rintro ⟨passed, more⟩
        exact ⟨[], text, rfl, ⟨a, rfl, passed⟩, more⟩

theorem nullable_iff : pattern.nullable = true ↔ [] ∈ pattern.language := by
  induction pattern with
  | fail => simp [nullable, language]
  | empty => simp [nullable, language]
  | one test => simp [nullable, mem_one]
  | seq first second left right =>
      rw [nullable, Bool.and_eq_true, left, right, mem_seq]
      constructor
      · exact fun both => ⟨[], both.1, [], both.2, rfl⟩
      · rintro ⟨head, inFirst, tail, inSecond, same⟩
        obtain ⟨rfl, rfl⟩ := List.append_eq_nil_iff.mp same
        exact ⟨inFirst, inSecond⟩
  | alt left right first second =>
      rw [nullable, Bool.or_eq_true, first, second, language,
        Language.mem_add]
  | star pattern _ => simp [nullable, language, Language.nil_mem_kstar]

theorem mem_derive :
    text ∈ (pattern.derive a).language ↔ a :: text ∈ pattern.language := by
  induction pattern generalizing text with
  | fail => simp [derive, language]
  | empty => simp [derive, language]
  | one test =>
      rw [derive, mem_one]
      by_cases passed : test a = true
      · rw [if_pos passed]
        constructor
        · rintro rfl
          exact ⟨a, rfl, passed⟩
        · rintro ⟨b, single, _⟩
          exact (List.cons.inj single).2
      · rw [if_neg passed]
        constructor
        · intro there
          cases there
        · rintro ⟨b, single, other⟩
          obtain ⟨rfl, _⟩ := List.cons.inj single
          exact absurd other passed
  | seq first second left right =>
      have head : text ∈ (seq (first.derive a) second).language ↔
          ∃ front back, text = front ++ back ∧
            a :: front ∈ first.language ∧ back ∈ second.language := by
        rw [mem_seq]
        constructor
        · rintro ⟨front, inFirst, back, inSecond, rfl⟩
          exact ⟨front, back, rfl, left.mp inFirst, inSecond⟩
        · rintro ⟨front, back, rfl, inFirst, inSecond⟩
          exact ⟨front, left.mpr inFirst, back, inSecond, rfl⟩
      rw [derive, cons_mem_seq, ← nullable_iff]
      by_cases null : first.nullable = true
      · rw [if_pos null, language, Language.mem_add, head, right]
        simp [null]
      · rw [if_neg null, head]
        simp [null]
  | alt left right first second =>
      rw [derive, language, Language.mem_add, first, second, language,
        Language.mem_add]
  | star pattern ih =>
      rw [derive, mem_seq, cons_mem_star]
      constructor
      · rintro ⟨left, inPattern, right, more, rfl⟩
        exact ⟨left, right, rfl, ih.mp inPattern, more⟩
      · rintro ⟨left, right, rfl, inPattern, more⟩
        exact ⟨left, ih.mpr inPattern, right, more, rfl⟩

/-- What `longest` finds of a text. -/
def Longest (pattern : Pattern α) (text : List α) (found : Option Nat) :
    Prop :=
  (∀ n, found = some n → n ≤ text.length ∧ text.take n ∈ pattern.language) ∧
    ∀ m, m ≤ text.length → text.take m ∈ pattern.language →
      ∃ n, found = some n ∧ m ≤ n

theorem longest_nil (pattern : Pattern α) :
    Longest pattern [] (if pattern.nullable then some 0 else none) := by
  constructor
  · intro n found
    split at found
    · rename_i null
      cases found
      exact ⟨Nat.le_refl 0, nullable_iff.mp null⟩
    · cases found
  · intro m short there
    rw [Nat.le_zero.mp short, List.take_zero] at there
    rw [if_pos (nullable_iff.mpr there)]
    exact ⟨0, rfl, short⟩

theorem longest_spec (pattern : Pattern α) (text : List α) :
    Longest pattern text (pattern.longest text) := by
  induction text generalizing pattern with
  | nil => exact longest_nil pattern
  | cons a rest ih =>
      obtain ⟨sound, complete⟩ := ih (pattern.derive a)
      unfold longest
      cases found : (pattern.derive a).longest rest with
      | some n =>
          obtain ⟨short, there⟩ := sound n found
          constructor
          · rintro _ ⟨⟩
            refine ⟨Nat.succ_le_succ short, ?_⟩
            rw [List.take_succ_cons]
            exact mem_derive.mp there
          · intro m within inside
            cases m with
            | zero => exact ⟨n + 1, rfl, Nat.zero_le _⟩
            | succ m =>
                rw [List.take_succ_cons] at inside
                obtain ⟨k, same, le⟩ := complete m (Nat.le_of_succ_le_succ
                  within) (mem_derive.mpr inside)
                rw [found] at same
                cases same
                exact ⟨n + 1, rfl, Nat.succ_le_succ le⟩
      | none =>
          have empty : ∀ m, m ≤ (a :: rest).length →
              (a :: rest).take m ∈ pattern.language → m = 0 := by
            intro m within inside
            cases m with
            | zero => rfl
            | succ m =>
                rw [List.take_succ_cons] at inside
                obtain ⟨k, same, _⟩ := complete m (Nat.le_of_succ_le_succ
                  within) (mem_derive.mpr inside)
                rw [found] at same
                cases same
          obtain ⟨nilSound, nilComplete⟩ := longest_nil pattern
          constructor
          · intro n same
            obtain ⟨short, there⟩ := nilSound n same
            have zero : n = 0 := Nat.le_zero.mp short
            subst zero
            exact ⟨Nat.zero_le _, there⟩
          · intro m within inside
            have zero := empty m within inside
            subst zero
            exact nilComplete 0 (Nat.le_refl 0) inside

theorem longest_eq (short : n ≤ text.length)
    (there : text.take n ∈ pattern.language)
    (last : ∀ m, n < m → m ≤ text.length →
      text.take m ∉ pattern.language) : pattern.longest text = some n := by
  obtain ⟨sound, complete⟩ := longest_spec pattern text
  obtain ⟨k, found, le⟩ := complete n short there
  obtain ⟨within, inside⟩ := sound k found
  have same : n = k := by
    by_contra different
    exact last k (by omega) within inside
  rw [found, same]

theorem mayStart_of_mem (there : a :: text ∈ pattern.language) :
    pattern.mayStart a = true := by
  induction pattern generalizing text with
  | fail => cases there
  | empty => cases there
  | one test =>
      obtain ⟨b, single, passed⟩ := there
      obtain ⟨rfl, _⟩ := List.cons.inj single
      exact passed
  | seq first second left right =>
      rw [mayStart, Bool.or_eq_true, Bool.and_eq_true]
      obtain ⟨head, _, _, inFirst, _⟩ | ⟨null, inSecond⟩ :=
        cons_mem_seq.mp there
      · exact Or.inl (left inFirst)
      · exact Or.inr ⟨nullable_iff.mpr null, right inSecond⟩
  | alt left right first second =>
      rw [mayStart, Bool.or_eq_true]
      obtain here | here := (Language.mem_add _ _ _).mp there
      · exact Or.inl (first here)
      · exact Or.inr (second here)
  | star pattern ih =>
      obtain ⟨head, _, _, inPattern, _⟩ := cons_mem_star.mp there
      exact ih inPattern

theorem longest_of_mayStart (stops : pattern.mayStart a = false)
    (found : pattern.longest (a :: text) = some n) : n = 0 := by
  obtain ⟨_, there⟩ := (longest_spec pattern (a :: text)).1 n found
  cases n with
  | zero => rfl
  | succ n =>
      rw [List.take_succ_cons] at there
      rw [mayStart_of_mem there] at stops
      cases stops

def choose : List (Pattern α × β) → List α → Option (Nat × β)
  | [], _ => none
  | (pattern, act) :: rest, text =>
      match pattern.longest text, choose rest text with
      | some n, some (m, other) =>
          if m ≤ n then some (n, act) else some (m, other)
      | some n, none => some (n, act)
      | none, other => other

variable {rules before after : List (Pattern α × β)} {act : β}

theorem choose_sound {chosen : β}
    (found : choose rules text = some (n, chosen)) :
    ∃ rule ∈ rules, rule.2 = chosen ∧ rule.1.longest text = some n := by
  induction rules generalizing n chosen with
  | nil => cases found
  | cons rule rest ih =>
      obtain ⟨pattern, act⟩ := rule
      have later : ∀ {m other}, choose rest text = some (m, other) →
          ∃ rule ∈ (pattern, act) :: rest, rule.2 = other ∧
            rule.1.longest text = some m := by
        intro m other chosen
        obtain ⟨rule, listed, same, matched⟩ := ih chosen
        exact ⟨rule, List.mem_cons_of_mem _ listed, same, matched⟩
      unfold choose at found
      cases first : pattern.longest text with
      | none =>
          rw [first] at found
          exact later found
      | some k =>
          rw [first] at found
          cases rested : choose rest text with
          | none =>
              rw [rested] at found
              cases found
              exact ⟨_, List.mem_cons_self, rfl, first⟩
          | some pair =>
              obtain ⟨m, other⟩ := pair
              rw [rested] at found
              dsimp only at found
              split at found
              · cases found
                exact ⟨_, List.mem_cons_self, rfl, first⟩
              · cases found
                exact later rested

theorem choose_complete {rule : Pattern α × β} (listed : rule ∈ rules)
    (found : rule.1.longest text = some n) :
    ∃ pair, choose rules text = some pair ∧ n ≤ pair.1 := by
  induction rules with
  | nil => cases listed
  | cons head rest ih =>
      obtain ⟨pattern, act⟩ := head
      unfold choose
      obtain rfl | later := List.mem_cons.mp listed
      · rw [show pattern.longest text = some n from found]
        cases choose rest text with
        | none => exact ⟨_, rfl, Nat.le_refl n⟩
        | some pair =>
            dsimp only
            split
            · exact ⟨_, rfl, Nat.le_refl n⟩
            · rename_i more
              exact ⟨_, rfl, Nat.le_of_lt (Nat.not_le.mp more)⟩
      · obtain ⟨pair, rested, le⟩ := ih later
        rw [rested]
        cases pattern.longest text with
        | none => exact ⟨pair, rfl, le⟩
        | some k =>
            dsimp only
            split
            · rename_i more
              exact ⟨_, rfl, Nat.le_trans le more⟩
            · exact ⟨_, rfl, le⟩

theorem le_of_choose (bound : ∀ rule ∈ rules, ∀ m,
      rule.1.longest text = some m → m ≤ n) :
    ∀ pair, choose rules text = some pair → pair.1 ≤ n := by
  rintro ⟨m, act⟩ found
  obtain ⟨rule, listed, _, matched⟩ := choose_sound found
  exact bound rule listed m matched

theorem choose_eq (found : pattern.longest text = some n)
    (earlier : ∀ rule ∈ before, ∀ m, rule.1.longest text = some m → m < n)
    (later : ∀ rule ∈ after, ∀ m, rule.1.longest text = some m → m ≤ n) :
    choose (before ++ (pattern, act) :: after) text = some (n, act) := by
  induction before with
  | nil =>
      have bound := le_of_choose later
      rw [List.nil_append, choose, found]
      cases rested : choose after text with
      | none => rfl
      | some pair =>
          dsimp only
          rw [if_pos (bound pair rested)]
  | cons rule rest ih =>
      have tail := ih fun other listed =>
        earlier other (List.mem_cons_of_mem _ listed)
      rw [List.cons_append, choose, tail]
      cases first : rule.1.longest text with
      | none => rfl
      | some m =>
          have less := earlier rule List.mem_cons_self m first
          dsimp only
          rw [if_neg (Nat.not_le.mpr less)]

end Pattern

end RatboxServices
