import RatboxServices.Serv.LangFormat

namespace RatboxServices

/-! Formats that take arguments are orderly, and what the check of a translation
is worth. -/

namespace LangFmt

open Printf (ArgType Size Directive Reads flagChars digitChars)

variable {p after : Parse} {data format modifiers : CString} {c : Char}

theorem directive_off (letter : c ∈ known)
    (read : p.directive c = .ok after) : after.parsing = false := by
  by_cases percent : c = '%'
  · subst percent
    rw [← Except.ok.inj read]
  · obtain ⟨arg, type, isUnsigned, -, finish, -⟩ :=
      directive_letter letter percent (Nat.zero_le _)
    rw [finish, Except.ok.injEq] at read
    rw [← read]
    rfl

theorem known_of_parsed {read : Option CString} (data : CString)
    (parsing : p.parsing = read.isSome)
    (parsed : parseAll data p = .ok after) :
    ∀ modifiers c, (modifiers, some c) ∈ scan read data → c ∈ known := by
  induction data generalizing read p with
  | nil =>
      intro modifiers c listed
      cases read <;> simp [scan] at listed
  | cons d data ih =>
      obtain ⟨middle, first, rest⟩ := parseAll_cons parsed
      cases read with
      | none =>
          have middleIs := char_of_text parsing first
          rw [scan]
          refine ih ?_ rest
          rw [middleIs]
          by_cases percent : d = '%'
          · rw [if_pos percent, if_pos percent]
            rfl
          · rw [if_neg percent, if_neg percent]
            exact parsing
      | some modifiers =>
          have letterRead := char_of_parsing parsing first
          rw [scan]
          by_cases modifier : isModifier d = true
          · rw [if_pos modifier]
            refine ih ?_ rest
            rw [directive_modifier modifier letterRead]
            exact parsing
          · have inSwitch : d ∈ known :=
              directive_known (by simpa using modifier) letterRead
            rw [if_neg modifier]
            intro others c listed
            obtain here | behind := List.mem_cons.mp listed
            · cases here
              exact inSwitch
            · exact ih (directive_off inSwitch letterRead) rest others c behind

theorem span_append {test : Char → Bool} {front back : CString}
    (all : ∀ d ∈ front, test d = true)
    (stops : ∀ d ∈ back.head?, test d = false) :
    (front ++ back).takeWhile test = front ∧
      (front ++ back).dropWhile test = back := by
  rw [List.takeWhile_append_of_pos all, List.dropWhile_append_of_pos all]
  cases back with
  | nil => simp
  | cons d back =>
      have stop : ¬test d = true := by simp [stops d rfl]
      rw [List.takeWhile_cons_of_neg stop, List.dropWhile_cons_of_neg stop,
        List.append_nil]
      exact ⟨rfl, rfl⟩

theorem mem_head?_append {front back : CString} {d : Char}
    (first : d ∈ (front ++ back).head?) : d ∈ front.head? ∨ d ∈ back.head? := by
  cases front with
  | nil => exact Or.inr first
  | cons e front => exact Or.inl first

theorem size_longs {length : Size}
    (all : ∀ d ∈ length.text, isModifier d = true) :
    length = .plain ∨ length = .long ∨ length = .longLong := by
  have only : length.text.all isModifier = true := List.all_eq_true.mpr all
  cases length <;> revert only <;> decide

structure Plain (directive : Directive) (number dots : CString) : Prop where
  whole : directive.modifiers =
    directive.flags ++ (number ++ (dots ++ directive.size.text))
  flags : ∀ d ∈ directive.flags, d ∈ flagChars
  digits : ∀ d ∈ number, d ∈ digitChars
  first : ∀ d ∈ number.head?, d ∉ flagChars
  precision : dots = [] ∨ ∃ more, dots = '.' :: more ∧
    (∀ d ∈ more, d ∈ digitChars) ∧ directive.precision.isSome
  size : directive.size = .plain ∨ directive.size = .long ∨
    directive.size = .longLong

theorem plain_of_valid {directive : Directive} {arg : ArgType}
    (valid : directive.Valid arg)
    (all : ∀ d ∈ directive.modifiers, isModifier d = true) :
    ∃ number dots, Plain directive number dots := by
  have noStar : '*' ∉ directive.modifiers := by
    intro listed
    have star := all '*' listed
    revert star
    decide
  have sized : directive.size = .plain ∨ directive.size = .long ∨
      directive.size = .longLong := size_longs fun d listed => all d (by
    simp [Directive.modifiers, listed])
  obtain ⟨flags, width, precision, length, conv⟩ := directive
  cases width with
  | star => simp [Directive.modifiers, Printf.Amount.text] at noStar
  | number digits =>
      have first : ∀ d ∈ digits.head?, d ∉ flagChars := by
        intro d head
        have nonzero := valid.width.2 d head
        simp only [List.mem_cons, List.not_mem_nil, or_false] at nonzero
        rcases nonzero with rfl | rfl | rfl | rfl | rfl | rfl | rfl | rfl |
          rfl <;> decide
      cases precision with
      | none =>
          exact ⟨digits, [], rfl, valid.flags, valid.width.1, first,
            Or.inl rfl, sized⟩
      | some amount =>
          cases amount with
          | star =>
              simp [Directive.modifiers, Directive.precisionText,
                Printf.Amount.text] at noStar
          | number more =>
              exact ⟨digits, '.' :: more, rfl, valid.flags, valid.width.1,
                first, Or.inr ⟨more, rfl, (valid.precision _ rfl).1.1, rfl⟩,
                sized⟩

variable {directive : Directive} {number dots : CString}

theorem Plain.behind (plain : Plain directive number dots) :
    directive.modifiers.takeWhile (· ∈ flagChars) = directive.flags ∧
      behindWidth directive.modifiers = dots ++ directive.size.text ∧
      behindPrecision directive.modifiers = directive.size.text := by
  have sizeHead : ∀ d ∈ directive.size.text.head?, d = 'l' := by
    obtain length | length | length := plain.size <;>
      simp [length, Size.text]
  have dotsHead : ∀ d ∈ dots.head?, d = '.' := by
    obtain none_ | ⟨more, some_, -⟩ := plain.precision
    · simp [none_]
    · simp [some_]
  have restHead : ∀ d ∈ (dots ++ directive.size.text).head?,
      d = '.' ∨ d = 'l' := fun d first =>
    (mem_head?_append first).imp (dotsHead d) (sizeHead d)
  have afterFlags : ∀ d ∈ (number ++ (dots ++ directive.size.text)).head?,
      decide (d ∈ flagChars) = false := by
    intro d first
    obtain digit | rest := mem_head?_append first
    · simpa using plain.first d digit
    · obtain rfl | rfl := restHead d rest <;> decide
  have afterWidth : ∀ d ∈ (dots ++ directive.size.text).head?,
      decide (d ∈ digitChars) = false := by
    intro d first
    obtain rfl | rfl := restHead d first <;> decide
  have afterDots : ∀ d ∈ directive.size.text.head?,
      decide (d ∈ digitChars) = false := by
    intro d first
    rw [sizeHead d first]
    decide
  obtain ⟨flags, behindFlags⟩ :=
    span_append (fun d listed => by simpa using plain.flags d listed)
      afterFlags
  obtain ⟨-, behind⟩ :=
    span_append (fun d listed => by simpa using plain.digits d listed)
      afterWidth
  have width : behindWidth directive.modifiers =
      dots ++ directive.size.text := by
    rw [behindWidth, plain.whole, behindFlags, behind]
  refine ⟨by rw [plain.whole, flags], width, ?_⟩
  rw [behindPrecision, width]
  obtain rfl | ⟨more, rfl, digits, -⟩ := plain.precision
  · rw [List.nil_append, splitPrecision_other]
    intro dot
    have isLong := sizeHead '.' dot
    revert isLong
    decide
  · exact (span_append (fun d listed => by simpa using digits d listed)
      afterDots).2

theorem Plain.dotted (plain : Plain directive number dots)
    (dot : '.' ∈ directive.modifiers) : directive.precision.isSome := by
  have noFlag : '.' ∉ directive.flags := by
    intro listed
    have flag := plain.flags '.' listed
    revert flag
    decide
  have noDigit : '.' ∉ number := by
    intro listed
    have digit := plain.digits '.' listed
    revert digit
    decide
  have noSize : '.' ∉ directive.size.text := by
    obtain length | length | length := plain.size <;> rw [length] <;> decide
  rw [plain.whole] at dot
  simp only [List.mem_append, noFlag, noDigit, noSize, or_false, false_or]
    at dot
  obtain rfl | ⟨more, -, -, given⟩ := plain.precision
  · cases dot
  · exact given

theorem orderly_of_valid {arg : ArgType} (valid : directive.Valid arg)
    (letter : directive.conv ∈ known)
    (all : ∀ d ∈ directive.modifiers, isModifier d = true) :
    Orderly (directive.modifiers, some directive.conv) = true := by
  obtain ⟨number, dots, plain⟩ := plain_of_valid valid all
  obtain ⟨flags, -, longs⟩ := plain.behind
  have reads := valid.reads
  have notPercent : directive.conv ≠ '%' := by
    intro percent
    rw [percent] at reads
    cases reads
  rw [orderly_iff notPercent, flags, longs]
  have longLetters : directive.size.text.all (· == 'l') = true := by
    obtain length | length | length := plain.size <;> rw [length] <;> rfl
  have few : directive.size.text.length ≤ maxLongs directive.conv := by
    unfold maxLongs
    split
    · rename_i narrow
      obtain length | length | length := plain.size
      · rw [length]
        decide
      · rw [length]
        decide
      · rw [length] at reads
        obtain isChar | isString := narrow
        · rw [isChar] at reads
          cases reads
        · rw [isString] at reads
          cases reads
    · obtain length | length | length := plain.size <;> rw [length] <;> decide
  refine ⟨longLetters, few, ?_, ?_, ?_⟩
  · intro listed
    have hex := valid.alternate listed
    revert hex
    simp only [known, List.mem_cons, List.not_mem_nil, or_false] at letter
    rcases letter with same | same | same | same | same | same | same |
      same <;> rw [same] <;> decide
  · intro listed
    have numeric := valid.zero listed
    exact ⟨fun same => by rw [same] at numeric; revert numeric; decide,
      fun same => by rw [same] at numeric; revert numeric; decide⟩
  · intro dot same
    obtain ⟨amount, given⟩ := Option.isSome_iff_exists.mp (plain.dotted dot)
    have allowed := (valid.precision amount given).2
    rw [same] at allowed
    revert allowed
    decide

theorem mem_modifiers {arg : ArgType} (valid : directive.Valid arg) {d : Char}
    (listed : d ∈ directive.modifiers) :
    d ∈ flagChars ++ digitChars ++
      ['*', '.', 'h', 'l', 'j', 'z', 't', 'L'] := by
  have amount {a : Printf.Amount} {first : List Char} (proper : a.Proper first)
      (inside : d ∈ a.text) : d ∈ digitChars ∨ d = '*' := by
    cases a with
    | number digits => exact Or.inl (proper.1 d inside)
    | star => exact Or.inr (List.mem_singleton.mp inside)
  have starred (inside : d ∈ digitChars ∨ d = '*') :
      d ∈ flagChars ++ digitChars ++
        ['*', '.', 'h', 'l', 'j', 'z', 't', 'L'] := by
    obtain digit | rfl := inside
    · exact List.mem_append_left _ (List.mem_append_right _ digit)
    · decide
  simp only [Directive.modifiers, List.mem_append] at listed
  obtain flag | width | precision | length := listed
  · exact List.mem_append_left _ (List.mem_append_left _ (valid.flags d flag))
  · exact starred (amount valid.width width)
  · unfold Directive.precisionText at precision
    split at precision
    · cases precision
    · rename_i given
      obtain rfl | inside := List.mem_cons.mp precision
      · decide
      · exact starred (amount (valid.precision _ given).1 inside)
  · refine List.mem_append_right _ ?_
    generalize directive.size = modifier at length
    cases modifier <;> revert length <;>
      simp only [Printf.Size.text, List.mem_cons, List.not_mem_nil, or_false,
        or_self] <;> tauto

theorem orderly_of_reads {types : List ArgType} (reads : Reads format types)
    (letters : ∀ modifiers c, (modifiers, some c) ∈ scan none format →
      c ∈ known) :
    AllOrderly format := by
  unfold AllOrderly
  induction reads with
  | nil => simp [scan]
  | literal notPercent _ ih =>
      rw [scan_literal notPercent] at letters ⊢
      exact ih letters
  | @percent format types _ ih =>
      have bare : ∀ d ∈ ([] : CString), isModifier d = true := by simp
      have scanned : scan none ('%' :: '%' :: format) =
          ([], some '%') :: scan none format := scan_conversion bare rfl
      rw [scanned] at letters ⊢
      intro conversion listed
      obtain rfl | behind := List.mem_cons.mp listed
      · rfl
      · exact ih (fun modifiers c inside =>
          letters modifiers c (List.mem_cons_of_mem _ inside)) _ behind
  | @directive directive arg format types valid _ ih =>
      have letter : isModifier directive.conv = false := by
        by_contra modifier
        have kinds := of_decide_eq_true (by simpa using modifier :
          isModifier directive.conv = true)
        have reads := valid.reads
        simp only [markChars, numberChars, List.mem_cons, List.not_mem_nil,
          or_false] at kinds
        rcases kinds with same | (same | same | same | same) | (same | same |
          same | same | same | same | same | same | same | same) <;>
          · rw [same] at reads
            cases reads
      rw [Directive.text, List.append_assoc, List.singleton_append]
        at letters ⊢
      obtain all | ⟨front, c, back, split, all, noModifier⟩ :=
        split_modifiers directive.modifiers
      · rw [scan_conversion all letter] at letters ⊢
        intro conversion listed
        obtain rfl | behind := List.mem_cons.mp listed
        · exact orderly_of_valid valid (letters _ _ List.mem_cons_self) all
        · exact ih (fun modifiers c inside =>
            letters modifiers c (List.mem_cons_of_mem _ inside)) _ behind
      · have inSwitch : c ∈ known := by
          refine letters front c ?_
          rw [split, List.append_assoc, List.cons_append,
            scan_conversion all noModifier]
          exact List.mem_cons_self
        have inside := mem_modifiers valid (by rw [split]; simp :
          c ∈ directive.modifiers)
        have apart : ((flagChars ++ digitChars ++
            ['*', '.', 'h', 'l', 'j', 'z', 't', 'L']).all fun d =>
              !known.contains d) = true := by
          decide
        have other := List.all_eq_true.mp apart c inside
        simp [inSwitch] at other

def SafePair (original translation : CString) : Prop :=
  ∃ types, Reads original types ∧ Reads translation types

theorem langFmtCheck_tables {original translation : CString}
    (checked : langFmtCheck original translation = true) :
    ∃ p q, parseAll original ⟨0, false, fun _ => blank⟩ = .ok p ∧
      parseAll translation ⟨0, false, fun _ => blank⟩ = .ok q ∧
      ∀ i < maxFmtArgs, p.fmt i = q.fmt i := by
  unfold langFmtCheck langFmtParse at checked
  cases first : parseAll original ⟨0, false, fun _ => blank⟩ with
  | error returned => simp [first, Except.map] at checked
  | ok p =>
      cases second : parseAll translation ⟨0, false, fun _ => blank⟩ with
      | error returned => simp [first, second, Except.map] at checked
      | ok q =>
          refine ⟨p, q, rfl, rfl, fun i small => ?_⟩
          simp only [first, second, Except.map, List.all_eq_true,
            List.mem_range, beq_iff_eq] at checked
          exact checked i small

theorem start_atText : AtText [] ⟨0, false, fun _ => blank⟩ :=
  ⟨rfl, rfl, fun _ => rfl, fun _ _ => rfl⟩

theorem pos_of_parsed (room : p.pos + 1 < maxFmtArgs)
    (parsed : parseAll data p = .ok after) : after.pos + 1 < maxFmtArgs := by
  induction data generalizing p with
  | nil =>
      rw [parseAll, Except.ok.injEq] at parsed
      exact parsed ▸ room
  | cons c data ih =>
      obtain ⟨middle, first, rest⟩ := parseAll_cons parsed
      exact ih (char_ok first).2 rest

/-- A translation that passes the check can be given the arguments of the
original if and only if both are orderly. -/
theorem safePair_iff {original translation : CString}
    (checked : langFmtCheck original translation = true) :
    SafePair original translation ↔
      AllOrderly original ∧ AllOrderly translation := by
  obtain ⟨p, q, first, second, same⟩ := langFmtCheck_tables checked
  constructor
  · rintro ⟨types, reads, translated⟩
    exact ⟨orderly_of_reads reads (known_of_parsed original rfl first),
      orderly_of_reads translated (known_of_parsed translation rfl second)⟩
  · rintro ⟨orderly, translated⟩
    obtain ⟨types, reads, slots⟩ :=
      reads_of_orderly original [] start_atText first orderly
    obtain ⟨others, readsOthers, otherSlots⟩ :=
      reads_of_orderly translation [] start_atText second translated
    rw [List.nil_append] at slots otherSlots
    have few : types.length < maxFmtArgs := by
      have inside := pos_of_parsed (by decide) first
      rw [slots.pos] at inside
      omega
    have fewOthers : others.length < maxFmtArgs := by
      have inside := pos_of_parsed (by decide) second
      rw [otherSlots.pos] at inside
      omega
    have equal : types = others := by
      refine List.ext_getElem? fun i => ?_
      by_cases small : i < maxFmtArgs
      · rw [← slots.filled, ← otherSlots.filled, same i small]
      · rw [List.getElem?_eq_none (by omega), List.getElem?_eq_none (by omega)]
    exact ⟨types, reads, equal ▸ readsOthers⟩

/-- Two orderly formats with the same arguments, in other words. -/
theorem safePair_translated :
    SafePair "%s: %-5ld of %%%lu".toList "(%%) %.3s, %ld/%lu".toList :=
  (safePair_iff (by decide)).mpr (by decide)

/-- The `l` before the second percent sign is kept for the next conversion,
which is taken for `%ld`. -/
theorem not_safePair_leftover :
    langFmtCheck "%ld".toList "%l%%d".toList = true ∧
      ¬SafePair "%ld".toList "%l%%d".toList := by
  refine ⟨by decide, ?_⟩
  rintro ⟨types, -, reads⟩
  have scanned : scan none "%l%%d".toList =
      [("l".toList, some '%'), ([], some 'd')] := by decide
  have orderly : AllOrderly "%l%%d".toList := by
    refine orderly_of_reads reads fun modifiers c listed => ?_
    rw [scanned] at listed
    simp only [List.mem_cons, Prod.mk.injEq, Option.some.injEq,
      List.not_mem_nil, or_false] at listed
    obtain ⟨-, rfl⟩ | ⟨-, rfl⟩ := listed <;> decide
  revert orderly
  decide

end LangFmt

end RatboxServices
