import RatboxServices.Serv.Alis

namespace RatboxServices

open CString

/-! What ALIS reads of the options of a query. -/

namespace Alis

variable {query before after : Query} {options : List CString}
  {name value option letters : CString}

/-- Some `-mode` has the letter. -/
def everNamed (c : Char) : List CString → Bool
  | option :: value :: rest =>
      (strcasecmp option "-mode".toList && (value.drop 1).contains c) ||
        everNamed c rest
  | _ => false

structure HasLetters (letters : CString) (query : Query) : Prop where
  given : letters ≠ []
  known : ∀ c ∈ letters, (letterBit c).isSome = true ∨ c = 'l' ∨ c = 'k'
  bits : ∀ bit, query.mode.has bit =
    letters.any fun c => letterBit c == some bit

/-- The mode of a query, of its `-mode` if it has one. -/
def ReadsMode (value : Option CString) (before after : Query) : Prop :=
  match value with
  | none => after.mode = before.mode ∧ after.modeDir = before.modeDir
  | some value => parseDir (at_ value 0) = some after.modeDir ∧
      HasLetters (value.drop 1) after

structure Reads (options : List CString) (before after : Query) : Prop where
  mask : after.mask = before.mask
  min : after.min =
    ((lastOption "-min".toList options).map atoi).getD before.min
  max : after.max =
    ((lastOption "-max".toList options).map atoi).getD before.max
  skip : after.skip =
    ((lastOption "-skip".toList options).map atoi).getD before.skip
  topic : after.topic =
    (lastOption "-topic".toList options).or before.topic
  mode : ReadsMode (lastOption "-mode".toList options) before after
  key : after.modeKey = (before.modeKey || everNamed 'k' options)
  limit : after.modeLimit = (before.modeLimit || everNamed 'l' options)
  numbers : ∀ name ∈ ["-min".toList, "-max".toList, "-skip".toList],
    ∀ value, lastOption name options = some value → 1 ≤ atoi value

theorem Reads.nil (query : Query) : Reads [] query query where
  mask := rfl
  min := rfl
  max := rfl
  skip := rfl
  topic := rfl
  mode := ⟨rfl, rfl⟩
  key := (Bool.or_false _).symm
  limit := (Bool.or_false _).symm
  numbers := by simp [lastOption]

theorem lastOption_cons (name option value : CString)
    (rest : List CString) :
    lastOption name (option :: value :: rest) =
      (lastOption name rest).or (lastOption name [option, value]) := by
  simp [lastOption]

theorem everNamed_cons (c : Char) (option value : CString)
    (rest : List CString) :
    everNamed c (option :: value :: rest) =
      (everNamed c [option, value] || everNamed c rest) := by
  simp [everNamed]

theorem getD_or {left right : Option Int} (start : Int) :
    (left.or right).getD start = left.getD (right.getD start) := by
  cases left <;> rfl

theorem Reads.cons {middle : Query} {rest : List CString}
    (first : Reads [option, value] before middle)
    (later : Reads rest middle after) :
    Reads (option :: value :: rest) before after where
  mask := later.mask.trans first.mask
  min := by
    rw [lastOption_cons, Option.map_or, getD_or, ← first.min]
    exact later.min
  max := by
    rw [lastOption_cons, Option.map_or, getD_or, ← first.max]
    exact later.max
  skip := by
    rw [lastOption_cons, Option.map_or, getD_or, ← first.skip]
    exact later.skip
  topic := by
    rw [lastOption_cons, Option.or_assoc, ← first.topic]
    exact later.topic
  mode := by
    rw [lastOption_cons]
    have mode := later.mode
    cases last : lastOption "-mode".toList rest with
    | some text =>
        rw [last] at mode
        exact mode
    | none =>
        rw [last] at mode
        rw [Option.none_or]
        have earlier := first.mode
        obtain ⟨same, dir⟩ := mode
        cases only : lastOption "-mode".toList [option, value] with
        | none =>
            rw [only] at earlier
            exact ⟨same.trans earlier.1, dir.trans earlier.2⟩
        | some text =>
            rw [only] at earlier
            obtain ⟨read, given, known, bits⟩ := earlier
            exact ⟨dir ▸ read, given, known, same ▸ bits⟩
  key := by
    rw [everNamed_cons, ← Bool.or_assoc, ← first.key]
    exact later.key
  limit := by
    rw [everNamed_cons, ← Bool.or_assoc, ← first.limit]
    exact later.limit
  numbers := by
    intro name listed text found
    rw [lastOption_cons, Option.or_eq_some_iff] at found
    obtain here | ⟨_, earlier⟩ := found
    · exact later.numbers name listed text here
    · exact first.numbers name listed text earlier

/-- What the letters of a `-mode` make of a query. -/
structure ReadsLetters (text : CString) (before after : Query) : Prop where
  known : ∀ c ∈ text, (letterBit c).isSome = true ∨ c = 'l' ∨ c = 'k'
  bits : ∀ bit, after.mode.has bit = (before.mode.has bit ||
    text.any fun c => letterBit c == some bit)
  rest : after = { before with
    mode := after.mode
    modeKey := before.modeKey || text.contains 'k'
    modeLimit := before.modeLimit || text.contains 'l' }

namespace ReadsLetters

variable {c : Char} {text : CString}

theorem nil (query : Query) : ReadsLetters [] query query where
  known := by simp
  bits := by simp
  rest := by simp

theorem cons {middle : Query} (first : ReadsLetters [c] before middle)
    (later : ReadsLetters text middle after) :
    ReadsLetters (c :: text) before after where
  known := by
    intro d listed
    obtain rfl | there := List.mem_cons.mp listed
    · exact first.known d (by simp)
    · exact later.known d there
  bits := by
    intro bit
    have one := first.bits bit
    rw [List.any_cons, List.any_nil, Bool.or_false] at one
    rw [later.bits, one, List.any_cons, Bool.or_assoc]
  rest := by
    rw [later.rest, first.rest]
    simp [Bool.or_assoc]

theorem of_letter {bit : Nat} (found : letterBit c = some bit)
    (query : Query) :
    ReadsLetters [c] query { query with mode := query.mode.set bit } := by
  have apart : c ≠ 'k' ∧ c ≠ 'l' := by
    constructor <;> (rintro rfl; cases found)
  have small : bit < 32 := by
    unfold letterBit at found
    repeat' split at found
    all_goals cases found
    all_goals decide
  constructor
  · intro d listed
    rw [List.mem_singleton.mp listed, found]
    exact Or.inl rfl
  · intro other
    rw [List.any_cons, found, Option.some_beq_some, beq_eq_decide]
    simp [small]
  · simp [Ne.symm apart.1, Ne.symm apart.2]

theorem of_limit (query : Query) :
    ReadsLetters ['l'] query { query with modeLimit := true } where
  known := by simp
  bits := by simp [letterBit]
  rest := by simp

theorem of_key (query : Query) :
    ReadsLetters ['k'] query { query with modeKey := true } where
  known := by simp
  bits := by simp [letterBit]
  rest := by simp

theorem of_parseModeLoop (read : parseModeLoop text before = some after) :
    ReadsLetters text before after := by
  induction text generalizing before with
  | nil =>
      cases read
      exact .nil _
  | cons c text ih =>
      unfold parseModeLoop at read
      cases found : letterBit c with
      | some bit =>
          rw [found] at read
          exact (of_letter found before).cons (ih read)
      | none =>
          rw [found] at read
          dsimp only at read
          split at read
          · rename_i isLimit
            subst isLimit
            exact (of_limit before).cons (ih read)
          · split at read
            · rename_i isKey
              subst isKey
              exact (of_key before).cons (ih read)
            · cases read

end ReadsLetters

theorem Reads.of_same {known : CString}
    (same : strcasecmp option known = true)
    (reads : Reads [known, value] before after) :
    Reads [option, value] before after := by
  have cased : ∀ name, strcasecmp option name = strcasecmp known name := by
    intro name
    unfold strcasecmp at same ⊢
    rw [eq_of_beq same]
  have last : ∀ name,
      lastOption name [option, value] = lastOption name [known, value] := by
    intro name
    simp only [lastOption, cased]
  have named : ∀ c, everNamed c [option, value] =
      everNamed c [known, value] := by
    intro c
    simp only [everNamed, cased]
  exact {
    mask := reads.mask
    min := by rw [last]; exact reads.min
    max := by rw [last]; exact reads.max
    skip := by rw [last]; exact reads.skip
    topic := by rw [last]; exact reads.topic
    mode := by rw [last]; exact reads.mode
    key := by rw [named]; exact reads.key
    limit := by rw [named]; exact reads.limit
    numbers := by
      intro name listed text found
      rw [last] at found
      exact reads.numbers name listed text found }

theorem parseNumber_eq {set : Int → Query}
    (read : parseNumber name value set = .ok after) :
    1 ≤ atoi value ∧ after = set (atoi value) := by
  unfold parseNumber at read
  split at read
  · cases read
  · rename_i large
    cases read
    exact ⟨Int.not_lt.mp large, rfl⟩

theorem Reads.of_parseNumber
    (known : option ∈ ["-min".toList, "-max".toList, "-skip".toList])
    (large : 1 ≤ atoi value) (mask : after.mask = before.mask)
    (min : after.min = ((lastOption "-min".toList [option, value]).map
      atoi).getD before.min)
    (max : after.max = ((lastOption "-max".toList [option, value]).map
      atoi).getD before.max)
    (skip : after.skip = ((lastOption "-skip".toList [option, value]).map
      atoi).getD before.skip)
    (rest : after.topic = before.topic ∧ after.mode = before.mode ∧
      after.modeDir = before.modeDir ∧ after.modeKey = before.modeKey ∧
      after.modeLimit = before.modeLimit) :
    Reads [option, value] before after := by
  obtain ⟨topic, mode, dir, key, limit⟩ := rest
  have others : lastOption "-topic".toList [option, value] = none ∧
      lastOption "-mode".toList [option, value] = none ∧
      ∀ c, everNamed c [option, value] = false := by
    simp only [List.mem_cons, List.not_mem_nil, or_false] at known
    obtain rfl | rfl | rfl := known
    all_goals exact ⟨rfl, rfl, fun _ => rfl⟩
  obtain ⟨noTopic, noMode, unnamed⟩ := others
  exact {
    mask := mask
    min := min
    max := max
    skip := skip
    topic := by rw [noTopic, topic]; rfl
    mode := by rw [noMode]; exact ⟨mode, dir⟩
    key := by rw [unnamed, key, Bool.or_false]
    limit := by rw [unnamed, limit, Bool.or_false]
    numbers := by
      intro name listed text found
      simp only [lastOption, Option.none_or] at found
      split at found
      · cases found
        exact large
      · cases found }

theorem no_number {known : CString}
    (other : known ∈ ["-show".toList, "-topic".toList, "-mode".toList]) :
    ∀ name ∈ ["-min".toList, "-max".toList, "-skip".toList], ∀ text,
      lastOption name [known, value] = some text → 1 ≤ atoi text := by
  intro name listed text found
  simp only [List.mem_cons, List.not_mem_nil, or_false] at other listed
  obtain rfl | rfl | rfl := other
  all_goals
    obtain rfl | rfl | rfl := listed
    all_goals cases found

theorem Reads.of_number {set : Int → Query} {known : CString}
    (same : strcasecmp option known = true)
    (read : parseNumber name value set = .ok after)
    (reads : 1 ≤ atoi value → Reads [known, value] before (set (atoi value))) :
    Reads [option, value] before after := by
  obtain ⟨large, rfl⟩ := parseNumber_eq read
  exact .of_same same (reads large)

theorem Reads.of_parseShow (value : CString) (query : Query) :
    Reads ["-show".toList, value] query (parseShow value query) := by
  have same : parseShow value query = { query with
      showMode := (parseShow value query).showMode
      showTopicwho := (parseShow value query).showTopicwho } := by
    unfold parseShow
    split
    · rfl
    · split
      · rfl
      · rfl
  rw [same]
  exact {
    mask := rfl
    min := rfl
    max := rfl
    skip := rfl
    topic := rfl
    mode := ⟨rfl, rfl⟩
    key := (Bool.or_false _).symm
    limit := (Bool.or_false _).symm
    numbers := no_number (by decide) }

theorem Reads.of_topic (value : CString) (query : Query) :
    Reads ["-topic".toList, value] query
      { query with topic := some value } where
  mask := rfl
  min := rfl
  max := rfl
  skip := rfl
  topic := rfl
  mode := ⟨rfl, rfl⟩
  key := (Bool.or_false _).symm
  limit := (Bool.or_false _).symm
  numbers := no_number (by decide)

theorem Reads.of_parseMode (read : parseModeOption value before = .ok after) :
    Reads ["-mode".toList, value] before after := by
  unfold parseModeOption at read
  split at read
  · cases read
  rename_i dir found
  split at read
  · cases read
  rename_i query parsed
  cases read
  unfold parseMode at parsed
  split at parsed
  · cases parsed
  rename_i given
  obtain ⟨known, bits, same⟩ := ReadsLetters.of_parseModeLoop parsed
  have named : ∀ c, everNamed c ["-mode".toList, value] =
      (value.drop 1).contains c := by
    intro c
    exact Bool.or_false _
  exact {
    mask := by rw [same]
    min := by rw [same]; rfl
    max := by rw [same]; rfl
    skip := by rw [same]; rfl
    topic := by rw [same]; rfl
    mode := by
      refine ⟨?_, ?_, known, ?_⟩
      · rw [same]
        exact found
      · simpa using given
      · intro bit
        rw [bits, Word.has_zero, Bool.false_or]
    key := by rw [named, same]
    limit := by rw [named, same]
    numbers := no_number (by decide) }

theorem Reads.of_parseOption
    (read : parseOption option value before = .ok after) :
    Reads [option, value] before after := by
  unfold parseOption at read
  split at read
  · rename_i same
    refine .of_number same read fun large => ?_
    exact .of_parseNumber (by decide) large rfl rfl rfl rfl
      ⟨rfl, rfl, rfl, rfl, rfl⟩
  split at read
  · rename_i same
    refine .of_number same read fun large => ?_
    exact .of_parseNumber (by decide) large rfl rfl rfl rfl
      ⟨rfl, rfl, rfl, rfl, rfl⟩
  split at read
  · rename_i same
    refine .of_number same read fun large => ?_
    exact .of_parseNumber (by decide) large rfl rfl rfl rfl
      ⟨rfl, rfl, rfl, rfl, rfl⟩
  split at read
  · rename_i same
    cases read
    apply Reads.of_same same
    exact .of_topic value before
  split at read
  · rename_i same
    cases read
    apply Reads.of_same same
    exact .of_parseShow value before
  split at read
  · rename_i same
    apply Reads.of_same same
    exact .of_parseMode read
  · cases read

theorem Reads.of_parse (read : parse options before = .ok after) :
    Reads options before after := by
  induction options, before using parse.induct with
  | case1 =>
      cases read
      exact .nil _
  | case2 query option => cases read
  | case3 query option value rest empty =>
      rw [parse, if_pos empty] at read
      cases read
  | case4 query option value rest given line failed =>
      rw [parse, if_neg given, failed] at read
      cases read
  | case5 query option value rest given middle first ih =>
      rw [parse, if_neg given, first] at read
      exact (of_parseOption first).cons (ih read)

end Alis

end RatboxServices
