import RatboxServices.Serv.AlisQuery

namespace RatboxServices

open CString

/-! The queries whose `-mode` is tested as it was asked for. -/

theorem Word.and_eq_zero_iff {left right : Word} :
    left &&& right = 0#32 ↔
      ∀ bit, right.has bit = true → left.has bit = false := by
  constructor
  · intro zero bit there
    have both : has (left &&& right) bit = (left.has bit && right.has bit) := by
      simp [has]
    rw [zero, has_zero, there, Bool.and_true] at both
    exact both.symm
  · intro apart
    apply ext
    intro bit _
    have both : has (left &&& right) bit = (left.has bit && right.has bit) := by
      simp [has]
    rw [both, has_zero]
    cases there : right.has bit with
    | false => exact Bool.and_false _
    | true => rw [apart bit there, Bool.false_and]

namespace Alis

variable {query : Query} {options : List CString} {letters : CString}
  {mode : Chmode} {asked : Asked} {c : Char} {bit : Nat} {inStep : Bool}

/-- The bits of a mode are known, and those of the key and of the limit say
whether there is one. -/
structure InStep (mode : Chmode) : Prop where
  known : ∀ bit, mode.mode.has bit = true →
    bit ∈ chmodeTable.map Prod.fst ∨ bit = modeLimit ∨ bit = modeKey
  key : mode.mode.has modeKey = true ↔ mode.key ≠ []
  limit : mode.mode.has modeLimit = true ↔ mode.limit ≠ 0

/-- The last `-mode` names a bit, an earlier one no key or limit that it does
not, `+` one bit only, and `=`, of modes that are in step, neither the key nor
the limit. -/
def ModeExact (inStep : Bool) (options : List CString) : Prop :=
  ∀ dir letters, (Asked.of options).mode = some (dir, letters) →
    (∃ c ∈ letters, (letterBit c).isSome = true) ∧
    (everNamed 'k' options = true → 'k' ∈ letters) ∧
    (everNamed 'l' options = true → 'l' ∈ letters) ∧
    (dir = .set → ∀ c ∈ letters, ∀ d ∈ letters, (letterBit c).isSome = true →
      (letterBit d).isSome = true → c = d) ∧
    (dir = .equal → inStep = true ∧ 'k' ∉ letters ∧ 'l' ∉ letters)

theorem letterBit_mem (found : letterBit c = some bit) :
    (bit, c) ∈ chmodeTable ∧ bit ≠ modeSecret ∧ bit ≠ modeKey ∧
      bit ≠ modeLimit ∧ bit < 32 := by
  unfold letterBit at found
  repeat' split at found
  all_goals cases found
  all_goals subst_vars
  all_goals decide

theorem bit_eq_iff {d : Char} {other : Nat} (first : (bit, c) ∈ chmodeTable)
    (second : (other, d) ∈ chmodeTable) : bit = other ↔ c = d := by
  have table : ∀ left ∈ chmodeTable, ∀ right ∈ chmodeTable,
      left.1 = right.1 ↔ left.2 = right.2 := by decide
  exact table _ first _ second

theorem letter_ne (listed : (bit, c) ∈ chmodeTable) : c ≠ 'l' ∧ c ≠ 'k' := by
  have table : ∀ entry ∈ chmodeTable, entry.2 ≠ 'l' ∧ entry.2 ≠ 'k' := by
    decide
  exact table _ listed

theorem mem_entries : c ∈ mode.entries.map Prod.snd ↔
    ∃ bit, (bit, c) ∈ chmodeTable ∧ mode.mode.has bit = true := by
  unfold Chmode.entries
  rw [List.mem_map]
  constructor
  · rintro ⟨⟨bit, d⟩, listed, rfl⟩
    exact ⟨bit, (List.mem_filter.mp listed).1, (List.mem_filter.mp listed).2⟩
  · rintro ⟨bit, there, has⟩
    exact ⟨(bit, c), List.mem_filter.mpr ⟨there, has⟩, rfl⟩

theorem mem_lettersOf : c ∈ lettersOf mode ↔
    (∃ bit, (bit, c) ∈ chmodeTable ∧ mode.mode.has bit = true) ∨
      (c = 'l' ∧ mode.limit ≠ 0) ∨ (c = 'k' ∧ mode.key ≠ []) := by
  unfold lettersOf
  rw [List.mem_append, List.mem_append, mem_entries]
  refine or_congr Iff.rfl (or_congr ?_ ?_)
  · split
    · rename_i given
      simp [given]
    · rename_i none_
      simp only [ne_eq, not_not] at none_
      simp [none_]
  · split
    · rename_i given
      simp [given]
    · rename_i none_
      simp only [ne_eq, not_not] at none_
      simp [none_]

theorem mem_lettersOf_bit (found : letterBit c = some bit) :
    c ∈ lettersOf mode ↔ mode.mode.has bit = true := by
  have listed := (letterBit_mem found).1
  obtain ⟨noLimit, noKey⟩ := letter_ne listed
  rw [mem_lettersOf]
  constructor
  · rintro (⟨other, there, has⟩ | ⟨isLimit, _⟩ | ⟨isKey, _⟩)
    · rw [(bit_eq_iff listed there).mpr rfl]
      exact has
    · exact absurd isLimit noLimit
    · exact absurd isKey noKey
  · exact fun has => Or.inl ⟨bit, listed, has⟩

theorem mem_lettersOf_key : 'k' ∈ lettersOf mode ↔ mode.key ≠ [] := by
  rw [mem_lettersOf]
  constructor
  · rintro (⟨bit, there, _⟩ | ⟨isLimit, _⟩ | ⟨_, key⟩)
    · exact absurd rfl (letter_ne there).2
    · exact absurd isLimit (by decide)
    · exact key
  · exact fun key => Or.inr (Or.inr ⟨rfl, key⟩)

theorem mem_lettersOf_limit : 'l' ∈ lettersOf mode ↔ mode.limit ≠ 0 := by
  rw [mem_lettersOf]
  constructor
  · rintro (⟨bit, there, _⟩ | ⟨_, limit⟩ | ⟨isKey, _⟩)
    · exact absurd rfl (letter_ne there).1
    · exact limit
    · exact absurd isKey (by decide)
  · exact fun limit => Or.inr (Or.inl ⟨rfl, limit⟩)

namespace HasLetters

variable (has : HasLetters letters query)
include has

theorem has_iff : query.mode.has bit = true ↔
    ∃ c ∈ letters, letterBit c = some bit := by
  rw [has.bits, List.any_eq_true]
  simp only [beq_iff_eq]

theorem forall_iff {P : Char → Prop} : (∀ c ∈ letters, P c) ↔
    (∀ c ∈ letters, ∀ bit, letterBit c = some bit → P c) ∧
      ('k' ∈ letters → P 'k') ∧ ('l' ∈ letters → P 'l') := by
  constructor
  · exact fun all =>
      ⟨fun c there _ _ => all c there, fun there => all _ there,
        fun there => all _ there⟩
  · rintro ⟨bits, key, limit⟩ c there
    obtain some_ | rfl | rfl := has.known c there
    · obtain ⟨bit, found⟩ := Option.isSome_iff_exists.mp some_
      exact bits c there bit found
    · exact limit there
    · exact key there

theorem wants_set (is : asked.mode = some (.set, letters)) :
    asked.wantsMode mode = true ↔
      (∀ bit, query.mode.has bit = true → mode.mode.has bit = true) ∧
        ('k' ∈ letters → mode.key ≠ []) ∧
        ('l' ∈ letters → mode.limit ≠ 0) := by
  unfold Asked.wantsMode
  rw [is]
  dsimp only
  rw [List.all_eq_true]
  simp only [List.contains_iff_mem]
  rw [has.forall_iff, mem_lettersOf_key, mem_lettersOf_limit]
  refine and_congr ?_ Iff.rfl
  constructor
  · intro all bit asked
    obtain ⟨c, there, found⟩ := has.has_iff.mp asked
    exact (mem_lettersOf_bit found).mp (all c there bit found)
  · intro all c there bit found
    exact (mem_lettersOf_bit found).mpr
      (all bit (has.has_iff.mpr ⟨c, there, found⟩))

theorem wants_unset (is : asked.mode = some (.unset, letters)) :
    asked.wantsMode mode = true ↔
      (∀ bit, query.mode.has bit = true → mode.mode.has bit = false) ∧
        ('k' ∈ letters → mode.key = []) ∧
        ('l' ∈ letters → mode.limit = 0) := by
  unfold Asked.wantsMode
  rw [is]
  dsimp only
  rw [List.all_eq_true]
  simp only [Bool.not_eq_true', ← Bool.not_eq_true, List.contains_iff_mem]
  rw [has.forall_iff, mem_lettersOf_key, mem_lettersOf_limit, not_not, not_not]
  refine and_congr ?_ Iff.rfl
  constructor
  · intro all bit asked
    obtain ⟨c, there, found⟩ := has.has_iff.mp asked
    rw [← mem_lettersOf_bit found]
    exact all c there bit found
  · intro all c there bit found
    rw [mem_lettersOf_bit found]
    exact all bit (has.has_iff.mpr ⟨c, there, found⟩)

theorem wants_equal (is : asked.mode = some (.equal, letters)) :
    asked.wantsMode mode = true ↔
      (∀ entry ∈ chmodeTable, mode.mode.has entry.1 =
        query.mode.has entry.1) ∧
        ('k' ∈ letters ↔ mode.key ≠ []) ∧
        ('l' ∈ letters ↔ mode.limit ≠ 0) := by
  have same : asked.wantsMode mode = true ↔
      ∀ c, c ∈ letters ↔ c ∈ lettersOf mode := by
    unfold Asked.wantsMode
    rw [is]
    dsimp only
    rw [Bool.and_eq_true, List.all_eq_true, List.all_eq_true]
    simp only [List.contains_iff_mem]
    exact ⟨fun both c => ⟨both.1 c, both.2 c⟩,
      fun all => ⟨fun c => (all c).mp, fun c => (all c).mpr⟩⟩
  rw [same]
  constructor
  · intro all
    refine ⟨?_, (all 'k').trans mem_lettersOf_key,
      (all 'l').trans mem_lettersOf_limit⟩
    rintro ⟨bit, c⟩ listed
    apply Bool.eq_iff_iff.mpr
    rw [has.has_iff]
    constructor
    · intro set
      have there := (all c).mpr (mem_lettersOf.mpr
        (Or.inl ⟨bit, listed, set⟩))
      obtain some_ | isLimit | isKey := has.known c there
      · obtain ⟨other, found⟩ := Option.isSome_iff_exists.mp some_
        refine ⟨c, there, ?_⟩
        rw [found, (bit_eq_iff listed (letterBit_mem found).1).mpr rfl]
      · exact absurd isLimit (letter_ne listed).1
      · exact absurd isKey (letter_ne listed).2
    · rintro ⟨d, there, found⟩
      exact (mem_lettersOf_bit found).mp ((all d).mp there)
  · rintro ⟨bits, key, limit⟩ c
    constructor
    · intro there
      obtain some_ | rfl | rfl := has.known c there
      · obtain ⟨bit, found⟩ := Option.isSome_iff_exists.mp some_
        rw [mem_lettersOf_bit found, bits _ (letterBit_mem found).1]
        exact has.has_iff.mpr ⟨c, there, found⟩
      · exact mem_lettersOf_limit.mpr (limit.mp there)
      · exact mem_lettersOf_key.mpr (key.mp there)
    · intro there
      obtain ⟨bit, listed, set⟩ | ⟨rfl, given⟩ | ⟨rfl, given⟩ :=
        mem_lettersOf.mp there
      · rw [bits _ listed] at set
        obtain ⟨d, inside, found⟩ := has.has_iff.mp set
        rw [(bit_eq_iff listed (letterBit_mem found).1).mp rfl]
        exact inside
      · exact limit.mpr given
      · exact key.mpr given

end HasLetters

section

variable (some_ : query.mode ≠ 0#32)
include some_

theorem showMode_set (dir : query.modeDir = .set) :
    showMode mode query = true ↔
      (∃ bit, query.mode.has bit = true ∧ mode.mode.has bit = true) ∧
        (query.modeKey = true → mode.key ≠ []) ∧
        (query.modeLimit = true → mode.limit ≠ 0) := by
  have none_ : mode.mode &&& query.mode = 0#32 ↔
      ¬∃ bit, query.mode.has bit = true ∧ mode.mode.has bit = true := by
    rw [Word.and_eq_zero_iff]
    simp
  unfold showMode
  rw [if_neg some_, dir]
  dsimp only
  rw [Bool.not_eq_true', Bool.or_eq_false_iff, Bool.or_eq_false_iff,
    beq_eq_false_iff_ne, ne_eq, none_, not_not, and_assoc]
  simp

theorem showMode_unset (dir : query.modeDir = .unset) :
    showMode mode query = true ↔
      (∀ bit, query.mode.has bit = true → mode.mode.has bit = false) ∧
        (query.modeKey = true → mode.key = []) ∧
        (query.modeLimit = true → mode.limit = 0) := by
  unfold showMode
  rw [if_neg some_, dir]
  dsimp only
  rw [Bool.not_eq_true', Bool.or_eq_false_iff, Bool.or_eq_false_iff,
    bne_eq_false_iff_eq, Word.and_eq_zero_iff, and_assoc]
  simp

theorem showMode_equal (dir : query.modeDir = .equal) :
    showMode mode query = true ↔ mode.mode = query.mode ∧
        (query.modeKey = true → mode.key ≠ []) ∧
        (query.modeLimit = true → mode.limit ≠ 0) := by
  unfold showMode
  rw [if_neg some_, dir]
  dsimp only
  rw [Bool.not_eq_true', Bool.or_eq_false_iff, Bool.or_eq_false_iff,
    bne_eq_false_iff_eq, and_assoc]
  simp

theorem showMode_needs (other : query.modeDir ≠ .unset)
    (shown : showMode mode query = true) :
    (query.modeKey = true → mode.key ≠ []) ∧
      (query.modeLimit = true → mode.limit ≠ 0) := by
  cases dir : query.modeDir with
  | unset => exact absurd dir other
  | set => exact ((showMode_set some_ dir).mp shown).2
  | equal => exact ((showMode_equal some_ dir).mp shown).2

end

def made (bits : Word) (key limit : Bool) : Chmode where
  mode :=
    let keyed : Word := if key then bits.set modeKey else bits
    if limit then keyed.set modeLimit else keyed
  key := if key then ['k'] else []
  limit := if limit then 1 else 0

theorem has_made (bits : Word) (key limit : Bool) (bit : Nat) :
    (made bits key limit).mode.has bit = (bits.has bit ||
      (key && decide (modeKey = bit)) ||
      (limit && decide (modeLimit = bit))) := by
  have small : modeKey < 32 ∧ modeLimit < 32 := by decide
  unfold made
  cases key <;> cases limit <;> simp [small]

@[simp] theorem made_key (bits : Word) (key limit : Bool) :
    (made bits key limit).key = [] ↔ key = false := by
  cases key <;> simp [made]

@[simp] theorem made_limit (bits : Word) (key limit : Bool) :
    (made bits key limit).limit = 0 ↔ limit = false := by
  cases limit <;> simp [made]

def Askable (bits : Word) : Prop :=
  ∀ bit, bits.has bit = true → ∃ c, letterBit c = some bit

theorem HasLetters.askable (has : HasLetters letters query) :
    Askable query.mode := by
  intro bit set
  obtain ⟨c, _, found⟩ := has.has_iff.mp set
  exact ⟨c, found⟩

theorem askable_zero : Askable 0#32 := by
  intro bit set
  rw [Word.has_zero] at set
  cases set

theorem Askable.has_eq_false {bits : Word} (askable : Askable bits) :
    bits.has modeSecret = false ∧ bits.has modeKey = false ∧
      bits.has modeLimit = false := by
  have apart : ∀ bit, (∀ c, letterBit c ≠ some bit) →
      bits.has bit = false := by
    intro bit none_
    by_contra set
    obtain ⟨c, found⟩ := askable bit (by simpa using set)
    exact none_ c found
  refine ⟨apart _ ?_, apart _ ?_, apart _ ?_⟩
  · exact fun c found => (letterBit_mem found).2.1 rfl
  · exact fun c found => (letterBit_mem found).2.2.1 rfl
  · exact fun c found => (letterBit_mem found).2.2.2.1 rfl

theorem Askable.made {bits : Word} (askable : Askable bits)
    (key limit : Bool) : InStep (made bits key limit) ∧
      (made bits key limit).mode.has modeSecret = false := by
  obtain ⟨secret, noKey, noLimit⟩ := askable.has_eq_false
  refine ⟨⟨?_, ?_, ?_⟩, ?_⟩
  · intro bit set
    rw [has_made, Bool.or_eq_true, Bool.or_eq_true] at set
    obtain (given | isKey) | isLimit := set
    · obtain ⟨c, found⟩ := askable bit given
      exact Or.inl (List.mem_map_of_mem (letterBit_mem found).1)
    · simp only [Bool.and_eq_true, decide_eq_true_eq] at isKey
      exact Or.inr (Or.inr isKey.2.symm)
    · simp only [Bool.and_eq_true, decide_eq_true_eq] at isLimit
      exact Or.inr (Or.inl isLimit.2.symm)
  · rw [has_made, noKey, ne_eq, made_key]
    simp [modeKey, modeLimit]
  · rw [has_made, noLimit, ne_eq, made_limit]
    simp [modeKey, modeLimit]
  · rw [has_made, secret]
    simp [modeKey, modeLimit, modeSecret]

theorem has_made_of_entry {entry : Nat × Char} (listed : entry ∈ chmodeTable)
    (bits : Word) (key limit : Bool) :
    (made bits key limit).mode.has entry.1 = bits.has entry.1 := by
  have table : ∀ entry ∈ chmodeTable, modeKey ≠ entry.1 ∧
      modeLimit ≠ entry.1 := by decide
  obtain ⟨noKey, noLimit⟩ := table entry listed
  rw [has_made]
  simp [noKey, noLimit]

theorem has_made_of_has {bits : Word} (set : bits.has bit = true)
    (key limit : Bool) : (made bits key limit).mode.has bit = true := by
  rw [has_made, set, Bool.true_or, Bool.true_or]

namespace HasLetters

variable {dir : Dir} (has : HasLetters letters query)
include has

theorem wants_made (is : asked.mode = some (dir, letters))
    (other : dir ≠ .unset) :
    asked.wantsMode (made query.mode (letters.contains 'k')
      (letters.contains 'l')) = true := by
  cases dir with
  | unset => exact absurd rfl other
  | set =>
      refine (has.wants_set is).mpr ⟨?_, by simp, by simp⟩
      exact fun bit set => has_made_of_has set _ _
  | equal =>
      refine (has.wants_equal is).mpr ⟨?_, by simp, by simp⟩
      exact fun entry listed => has_made_of_entry listed _ _ _

theorem wants_bare (is : asked.mode = some (.unset, letters))
    {key limit : Bool} (noKey : 'k' ∈ letters → key = false)
    (noLimit : 'l' ∈ letters → limit = false) :
    asked.wantsMode (made 0#32 key limit) = true := by
  refine (has.wants_unset is).mpr ⟨?_, by simpa using noKey,
    by simpa using noLimit⟩
  intro bit set
  obtain ⟨c, _, found⟩ := has.has_iff.mp set
  rw [has_made]
  simp [(letterBit_mem found).2.2.1.symm, (letterBit_mem found).2.2.2.1.symm]

end HasLetters

theorem everNamed_of_last {value : CString}
    (last : lastOption "-mode".toList options = some value)
    (there : c ∈ value.drop 1) : everNamed c options = true := by
  induction options using lastOption.induct with
  | case1 option text rest ih =>
      rw [lastOption, Option.or_eq_some_iff] at last
      rw [everNamed, Bool.or_eq_true]
      obtain later | ⟨_, here⟩ := last
      · exact Or.inr (ih later)
      · split at here
        · rename_i named
          cases here
          left
          rw [named, Bool.true_and]
          exact List.contains_iff_mem.mpr there
        · cases here
  | case2 options other =>
      rw [lastOption.eq_2 _ _ other] at last
      cases last

section

variable {mask : CString} {dir : Dir}
  (reads : Reads options { mask := mask } query)
include reads

theorem modeKey_eq : query.modeKey = everNamed 'k' options := by
  rw [reads.key, Bool.false_or]

theorem modeLimit_eq : query.modeLimit = everNamed 'l' options := by
  rw [reads.limit, Bool.false_or]

theorem hasLetters (is : (Asked.of options).mode = some (dir, letters)) :
    query.modeDir = dir ∧ HasLetters letters query ∧
      (∀ c ∈ letters, everNamed c options = true) := by
  obtain ⟨value, last, read⟩ := Option.bind_eq_some_iff.mp is
  obtain ⟨found, parsed, same⟩ := Option.map_eq_some_iff.mp read
  cases same
  have mode := reads.mode
  rw [last] at mode
  obtain ⟨asked, has⟩ := mode
  refine ⟨?_, has, fun c there => everNamed_of_last last there⟩
  rw [parsed] at asked
  exact (Option.some.inj asked).symm

theorem mode_eq_zero (none_ : (Asked.of options).mode = none) :
    query.mode = 0#32 := by
  have mode := reads.mode
  cases last : lastOption "-mode".toList options with
  | none =>
      rw [last] at mode
      exact mode.1
  | some value =>
      rw [last] at mode
      have read : (Asked.of options).mode =
          some (query.modeDir, value.drop 1) := by
        unfold Asked.of
        rw [last, Option.bind_some, mode.1]
        rfl
      rw [read] at none_
      cases none_

theorem exists_wanted : ∃ mode, InStep mode ∧
    mode.mode.has modeSecret = false ∧
    (Asked.of options).wantsMode mode = true := by
  obtain ⟨zeroStep, zeroOpen⟩ := askable_zero.made false false
  cases is : (Asked.of options).mode with
  | none =>
      refine ⟨made 0#32 false false, zeroStep, zeroOpen, ?_⟩
      rw [Asked.wantsMode, is]
  | some pair =>
      obtain ⟨dir, letters⟩ := pair
      obtain ⟨_, has, _⟩ := hasLetters reads is
      obtain ⟨step, open_⟩ :=
        has.askable.made (letters.contains 'k') (letters.contains 'l')
      by_cases unset : dir = .unset
      · subst unset
        exact ⟨made 0#32 false false, zeroStep, zeroOpen,
          has.wants_bare is (fun _ => rfl) fun _ => rfl⟩
      · exact ⟨_, step, open_, has.wants_made is unset⟩

theorem exists_unwanted
    (is : (Asked.of options).mode = some (dir, letters)) : ∃ mode,
    InStep mode ∧ mode.mode.has modeSecret = false ∧
    (Asked.of options).wantsMode mode = false := by
  obtain ⟨_, has, _⟩ := hasLetters reads is
  have some_ : (∃ bit, query.mode.has bit = true) ∨ 'k' ∈ letters ∨
      'l' ∈ letters := by
    obtain ⟨c, there⟩ := List.exists_mem_of_ne_nil _ has.given
    obtain given | rfl | rfl := has.known c there
    · obtain ⟨bit, found⟩ := Option.isSome_iff_exists.mp given
      exact Or.inl ⟨bit, has.has_iff.mpr ⟨c, there, found⟩⟩
    · exact Or.inr (Or.inr there)
    · exact Or.inr (Or.inl there)
  obtain ⟨zeroStep, zeroOpen⟩ := askable_zero.made false false
  cases dir with
  | set =>
      refine ⟨made 0#32 false false, zeroStep, zeroOpen, ?_⟩
      rw [← Bool.not_eq_true, has.wants_set is]
      rintro ⟨bits, key, limit⟩
      obtain ⟨bit, set⟩ | given | given := some_
      · have there := bits bit set
        rw [has_made] at there
        simp at there
      · exact key given ((made_key _ _ _).mpr rfl)
      · exact limit given ((made_limit _ _ _).mpr rfl)
  | unset =>
      obtain ⟨step, open_⟩ := has.askable.made true true
      refine ⟨_, step, open_, ?_⟩
      rw [← Bool.not_eq_true, has.wants_unset is]
      rintro ⟨bits, key, limit⟩
      obtain ⟨bit, set⟩ | given | given := some_
      · have there := bits bit set
        rw [has_made_of_has set] at there
        cases there
      · exact absurd ((made_key _ _ _).mp (key given)) (by simp)
      · exact absurd ((made_limit _ _ _).mp (limit given)) (by simp)
  | equal =>
      refine ⟨made 0#32 false false, zeroStep, zeroOpen, ?_⟩
      rw [← Bool.not_eq_true, has.wants_equal is]
      rintro ⟨bits, key, limit⟩
      obtain ⟨bit, set⟩ | given | given := some_
      · obtain ⟨c, _, found⟩ := has.has_iff.mp set
        have same := bits _ (letterBit_mem found).1
        rw [has_made, set] at same
        simp [(letterBit_mem found).2.2.1.symm,
          (letterBit_mem found).2.2.2.1.symm] at same
      · exact key.mp given ((made_key _ _ _).mpr rfl)
      · exact limit.mp given ((made_limit _ _ _).mpr rfl)

theorem ModeExact.showMode_eq (exact_ : ModeExact inStep options)
    (step : inStep = true → InStep mode) :
    showMode mode query = (Asked.of options).wantsMode mode := by
  cases is : (Asked.of options).mode with
  | none => rw [showMode, if_pos (mode_eq_zero reads is), Asked.wantsMode, is]
  | some pair =>
      obtain ⟨dir, letters⟩ := pair
      obtain ⟨isDir, has, named⟩ := hasLetters reads is
      obtain ⟨⟨c, there, given⟩, key, limit, single, equal⟩ :=
        exact_ dir letters is
      obtain ⟨bit, found⟩ := Option.isSome_iff_exists.mp given
      have set : query.mode.has bit = true :=
        has.has_iff.mpr ⟨c, there, found⟩
      have some_ : query.mode ≠ 0#32 := by
        intro zero
        rw [zero, Word.has_zero] at set
        cases set
      have isKey : query.modeKey = true ↔ 'k' ∈ letters := by
        rw [modeKey_eq reads]
        exact ⟨key, named 'k'⟩
      have isLimit : query.modeLimit = true ↔ 'l' ∈ letters := by
        rw [modeLimit_eq reads]
        exact ⟨limit, named 'l'⟩
      apply Bool.eq_iff_iff.mpr
      cases dir with
      | set =>
          rw [showMode_set some_ isDir, has.wants_set is, isKey, isLimit]
          refine and_congr ?_ Iff.rfl
          have only : ∀ other, query.mode.has other = true → other = bit := by
            intro other asked
            obtain ⟨d, inside, second⟩ := has.has_iff.mp asked
            have same := single rfl c there d inside given
              (by rw [second]; rfl)
            rw [← same, found] at second
            exact (Option.some.inj second).symm
          constructor
          · rintro ⟨other, asked, held⟩ another again
            rw [only another again, ← only other asked]
            exact held
          · exact fun all => ⟨bit, set, all bit set⟩
      | unset =>
          rw [showMode_unset some_ isDir, has.wants_unset is, isKey, isLimit]
      | equal =>
          obtain ⟨strict, noKey, noLimit⟩ := equal rfl
          have good := step strict
          rw [showMode_equal some_ isDir, has.wants_equal is, isKey, isLimit]
          constructor
          · rintro ⟨same, _, _⟩
            obtain ⟨_, keyBit, limitBit⟩ := has.askable.has_eq_false
            refine ⟨fun _ _ => by rw [same], ?_, ?_⟩
            · rw [← good.key, same, keyBit]
              simp [noKey]
            · rw [← good.limit, same, limitBit]
              simp [noLimit]
          · rintro ⟨bits, keyed, limited⟩
            refine ⟨?_, fun there => absurd there noKey,
              fun there => absurd there noLimit⟩
            apply Word.ext
            intro bit _
            by_cases listed : bit ∈ chmodeTable.map Prod.fst
            · obtain ⟨entry, inside, rfl⟩ := List.mem_map.mp listed
              exact bits entry inside
            · have off : mode.mode.has bit = false := by
                by_contra on
                rw [Bool.not_eq_false] at on
                obtain inside | rfl | rfl := good.known bit on
                · exact listed inside
                · exact noLimit (limited.mpr (good.limit.mp on))
                · exact noKey (keyed.mpr (good.key.mp on))
              have unasked : query.mode.has bit = false := by
                by_contra on
                rw [Bool.not_eq_false] at on
                obtain ⟨c, found⟩ := has.askable bit on
                exact listed (List.mem_map_of_mem (letterBit_mem found).1)
              rw [off, unasked]

section Agrees

variable (agrees : ∀ mode, (inStep = true → InStep mode) →
  mode.mode.has modeSecret = false →
  showMode mode query = (Asked.of options).wantsMode mode)
include agrees

omit reads in
theorem showMode_made {bits : Word} (askable : Askable bits)
    (key limit : Bool) : showMode (made bits key limit) query =
      (Asked.of options).wantsMode (made bits key limit) := by
  obtain ⟨step, open_⟩ := askable.made key limit
  exact agrees _ (fun _ => step) open_

theorem mode_ne_zero (is : (Asked.of options).mode = some (dir, letters)) :
    query.mode ≠ 0#32 := by
  intro zero
  obtain ⟨mode, step, open_, refused⟩ := exists_unwanted reads is
  have shown := agrees mode (fun _ => step) open_
  rw [showMode, if_pos zero, refused] at shown
  cases shown

theorem showMode_full (is : (Asked.of options).mode = some (dir, letters))
    (other : dir ≠ .unset) :
    showMode (made query.mode (letters.contains 'k')
      (letters.contains 'l')) query = true := by
  obtain ⟨_, has, _⟩ := hasLetters reads is
  rw [showMode_made agrees has.askable]
  exact has.wants_made is other

theorem showMode_bare
    (is : (Asked.of options).mode = some (.unset, letters))
    (key limit : Bool) (noKey : 'k' ∈ letters → key = false)
    (noLimit : 'l' ∈ letters → limit = false) :
    showMode (made 0#32 key limit) query = true := by
  obtain ⟨_, has, _⟩ := hasLetters reads is
  rw [showMode_made agrees askable_zero]
  exact has.wants_bare is noKey noLimit

theorem key_asked (is : (Asked.of options).mode = some (dir, letters))
    (key : query.modeKey = true) : 'k' ∈ letters := by
  obtain ⟨isDir, _, _⟩ := hasLetters reads is
  have some_ := mode_ne_zero reads agrees is
  by_contra absent
  by_cases unset : dir = .unset
  · subst unset
    have shown := showMode_bare reads agrees is true false
      (fun there => absurd there absent) fun _ => rfl
    have keyless := ((showMode_unset some_ isDir).mp shown).2.1 key
    exact absurd ((made_key _ _ _).mp keyless) (by simp)
  · have shown := showMode_full reads agrees is unset
    have keyed := (showMode_needs some_ (isDir ▸ unset) shown).1 key
    exact keyed ((made_key _ _ _).mpr (by simpa using absent))

theorem limit_asked (is : (Asked.of options).mode = some (dir, letters))
    (limit : query.modeLimit = true) : 'l' ∈ letters := by
  obtain ⟨isDir, _, _⟩ := hasLetters reads is
  have some_ := mode_ne_zero reads agrees is
  by_contra absent
  by_cases unset : dir = .unset
  · subst unset
    have shown := showMode_bare reads agrees is false true
      (fun _ => rfl) fun there => absurd there absent
    have without := ((showMode_unset some_ isDir).mp shown).2.2 limit
    exact absurd ((made_limit _ _ _).mp without) (by simp)
  · have shown := showMode_full reads agrees is unset
    have limited := (showMode_needs some_ (isDir ▸ unset) shown).2 limit
    exact limited ((made_limit _ _ _).mpr (by simpa using absent))

theorem bit_asked (is : (Asked.of options).mode = some (dir, letters)) :
    ∃ c ∈ letters, (letterBit c).isSome = true := by
  obtain ⟨_, has, _⟩ := hasLetters reads is
  by_contra none_
  apply mode_ne_zero reads agrees is
  apply Word.ext
  intro bit _
  by_contra set
  rw [Word.has_zero, Bool.not_eq_false] at set
  obtain ⟨c, there, found⟩ := has.has_iff.mp set
  exact none_ ⟨c, there, by rw [found]; rfl⟩

theorem single_asked (is : (Asked.of options).mode = some (.set, letters))
    {c d : Char} (there : c ∈ letters) (inside : d ∈ letters)
    (first : (letterBit c).isSome = true)
    (second : (letterBit d).isSome = true) : c = d := by
  obtain ⟨isDir, has, _⟩ := hasLetters reads is
  have some_ := mode_ne_zero reads agrees is
  obtain ⟨bit, found⟩ := Option.isSome_iff_exists.mp first
  obtain ⟨other, again⟩ := Option.isSome_iff_exists.mp second
  have small := (letterBit_mem found).2.2.2.2
  have askable : Askable (Word.set 0#32 bit) := by
    intro set on
    have same : bit = set := by simpa [small] using on
    exact ⟨c, by rw [found, same]⟩
  have shown :
      showMode (made (Word.set 0#32 bit) true true) query = true := by
    apply (showMode_set some_ isDir).mpr
    refine ⟨⟨bit, has.has_iff.mpr ⟨c, there, found⟩, ?_⟩, by simp, by simp⟩
    exact has_made_of_has (by simp [small]) _ _
  rw [showMode_made agrees askable, has.wants_set is] at shown
  have both := shown.1 other (has.has_iff.mpr ⟨d, inside, again⟩)
  rw [has_made] at both
  obtain ⟨_, _, noKey, noLimit, _⟩ := letterBit_mem again
  have same : bit = other := by
    simpa [small, noKey.symm, noLimit.symm] using both
  exact (bit_eq_iff (letterBit_mem found).1 (letterBit_mem again).1).mp same

theorem equal_asked (is : (Asked.of options).mode = some (.equal, letters)) :
    inStep = true ∧ 'k' ∉ letters ∧ 'l' ∉ letters := by
  obtain ⟨isDir, has, _⟩ := hasLetters reads is
  have some_ := mode_ne_zero reads agrees is
  have full := showMode_full reads agrees is (by simp)
  obtain ⟨same, _, _⟩ := (showMode_equal some_ isDir).mp full
  obtain ⟨_, keyBit, limitBit⟩ := has.askable.has_eq_false
  have noKey : 'k' ∉ letters := by
    intro there
    have set := congrArg (fun word : Word => word.has modeKey) same
    simp [has_made, keyBit, there] at set
  have noLimit : 'l' ∉ letters := by
    intro there
    have set := congrArg (fun word : Word => word.has modeLimit) same
    simp [has_made, limitBit, there] at set
  refine ⟨?_, noKey, noLimit⟩
  by_contra loose
  -- the bit of the key without a key
  have shown : showMode ⟨query.mode.set modeKey, [], 0⟩ query = true := by
    rw [agrees _ (fun strict => absurd strict loose) ?_, has.wants_equal is]
    · refine ⟨?_, by simp [noKey], by simp [noLimit]⟩
      intro entry listed
      have table : ∀ entry ∈ chmodeTable, modeKey ≠ entry.1 := by decide
      simp [table entry listed]
    · rw [Word.has_set, has.askable.has_eq_false.1]
      decide
  have equal := ((showMode_equal some_ isDir).mp shown).1
  rw [← equal] at keyBit
  simp [modeKey] at keyBit

theorem modeExact_of_agrees : ModeExact inStep options := by
  intro dir letters is
  refine ⟨bit_asked reads agrees is, ?_, ?_, ?_, ?_⟩
  · rw [← modeKey_eq reads]
    exact key_asked reads agrees is
  · rw [← modeLimit_eq reads]
    exact limit_asked reads agrees is
  · rintro rfl c there d inside first second
    exact single_asked reads agrees is there inside first second
  · rintro rfl
    exact equal_asked reads agrees is

end Agrees

end

end Alis

end RatboxServices
