import RatboxServices.Irc.Line
import RatboxServices.Net.ModeAgree
import Mathlib.Tactic.FinCases

namespace RatboxServices

open CString

/-! The simple modes of a channel as a string, and what `parse_simple_mode`
reads back from it. -/

/-- `chmode_table`. -/
def chmodeTable : List (Nat × Char) :=
  [(modeInviteonly, 'i'), (modeModerated, 'm'), (modeNoexternal, 'n'),
    (modePrivate, 'p'), (modeSecret, 's'), (modeTopic, 't'),
    (modeRegonly, 'r'), (modeSslonly, 'S')]

def setEntries (entries : List (Nat × Char)) (bits : Word) : Word :=
  entries.foldl (fun (bits : Word) entry => bits.set entry.1) bits

namespace Chmode

def entries (mode : Chmode) : List (Nat × Char) :=
  chmodeTable.filter fun entry => mode.mode.has entry.1

/-- `chmode_to_string`. -/
def chmodeToString (mode : Chmode) : CString :=
  '+' :: mode.entries.map Prod.snd ++
    if mode.limit ≠ 0 ∧ mode.key ≠ [] then
      "lk ".toList ++ formatInt mode.limit ++ " ".toList ++ mode.key
    else if mode.limit ≠ 0 then "l ".toList ++ formatInt mode.limit
    else if mode.key ≠ [] then "k ".toList ++ mode.key
    else []

def sentLetters (mode : Chmode) : CString :=
  '+' :: mode.entries.map Prod.snd ++
    ((if mode.limit ≠ 0 then ['l'] else []) ++
      if mode.key ≠ [] then ['k'] else [])

def sentParams (mode : Chmode) : List CString :=
  (if mode.limit ≠ 0 then [formatInt mode.limit] else []) ++
    if mode.key ≠ [] then [mode.key] else []

def sentWords (mode : Chmode) : List CString :=
  mode.sentLetters :: mode.sentParams

theorem chmodeToString_eq (mode : Chmode) :
    mode.chmodeToString ++ [' '] = spaced mode.sentWords := by
  unfold chmodeToString sentWords sentLetters sentParams spaced
  by_cases limit : mode.limit = 0
  · by_cases key : mode.key = []
    · simp [limit, key]
    · simp [limit, key]
  · by_cases key : mode.key = []
    · simp [limit, key]
    · simp [limit, key]

def told (mode : Chmode) : Word :=
  let bits : Word := setEntries mode.entries 0#32
  let bits : Word := if mode.limit ≠ 0 then bits.set modeLimit else bits
  if mode.key ≠ [] then bits.set modeKey else bits

def readBack (mode : Chmode) : Option Chmode :=
  if mode.key = [] then some ⟨mode.told, [], mode.limit⟩
  else (validKey mode.key).map fun fixed => ⟨mode.told, fixed, mode.limit⟩

theorem parseSimpleModeLoop_entries {entries : List (Nat × Char)}
    (known : ∀ entry ∈ entries, entry ∈ chmodeTable) (rest : List Char)
    (mode : Chmode) (args : List CString) :
    parseSimpleModeLoop true (entries.map Prod.snd ++ rest) true mode args =
      parseSimpleModeLoop true rest true
        { mode with mode := setEntries entries mode.mode } args := by
  have one : ∀ entry ∈ chmodeTable, ∀ rest mode,
      parseSimpleModeLoop true (entry.2 :: rest) true mode args =
        parseSimpleModeLoop true rest true (mode.put true entry.1) args := by
    intro entry listed rest mode
    fin_cases listed <;> rfl
  induction entries generalizing mode with
  | nil => rfl
  | cons entry others ih =>
      rw [List.map_cons, List.cons_append, one entry (known entry (by simp)),
        ih fun other listed => known other (List.mem_cons_of_mem _ listed)]
      rfl

theorem entries_known (mode : Chmode) :
    ∀ entry ∈ mode.entries, entry ∈ chmodeTable :=
  fun _ listed => (List.mem_filter.mp listed).1

theorem parseSimpleMode_sent {mode : Chmode}
    (low : -2147483648 ≤ mode.limit) (high : mode.limit < 2147483648)
    (rest : List CString) :
    parseSimpleMode {} (mode.sentWords ++ rest) true =
      mode.readBack.map fun read => (read, rest) := by
  have number : atoi (formatInt mode.limit) = mode.limit :=
    atoi_formatInt low high
  have some_ : (formatInt mode.limit).isEmpty = false := by
    simpa using (isWord_formatInt mode.limit).given
  have walked : ∀ tail args, parseSimpleModeLoop true
      ('+' :: mode.entries.map Prod.snd ++ tail) true {} args =
        parseSimpleModeLoop true tail true
          { mode := setEntries mode.entries 0#32 } args :=
    fun tail args => parseSimpleModeLoop_entries mode.entries_known tail {} args
  show parseSimpleModeLoop true mode.sentLetters true {}
    (mode.sentParams ++ rest) = _
  unfold sentLetters
  rw [walked]
  unfold readBack told sentParams
  by_cases limit : mode.limit = 0
  · by_cases key : mode.key = []
    · simp [limit, key, parseSimpleModeLoop]
    · cases valid : validKey mode.key with
      | none => simp [limit, key, parseSimpleModeLoop, emptyHead, valid]
      | some fixed =>
          simp [limit, key, parseSimpleModeLoop, emptyHead, valid, put]
  · by_cases key : mode.key = []
    · simp [limit, key, parseSimpleModeLoop, emptyHead, number, some_, put]
    · cases valid : validKey mode.key with
      | none =>
          simp [limit, key, parseSimpleModeLoop, emptyHead, number, some_, put,
            valid]
      | some fixed =>
          simp [limit, key, parseSimpleModeLoop, emptyHead, number, some_, put,
            valid]

/-- The bits say what the string can say: the modes of the table, and a limit
and a key where there is one. -/
structure Sendable (mode : Chmode) : Prop where
  known : ∀ bit, mode.mode.has bit = true →
    bit ∈ chmodeTable.map Prod.fst ∨ bit = modeLimit ∨ bit = modeKey
  limit : mode.mode.has modeLimit = true ↔ mode.limit ≠ 0
  key : mode.mode.has modeKey = true ↔ mode.key ≠ []

theorem has_setEntries (entries : List (Nat × Char)) (bits : Word) (bit : Nat)
    (known : ∀ entry ∈ entries, entry ∈ chmodeTable) :
    (setEntries entries bits).has bit = true ↔
      bits.has bit = true ∨ bit ∈ entries.map Prod.fst := by
  unfold setEntries
  induction entries generalizing bits with
  | nil => simp
  | cons entry others ih =>
      have small : entry.1 < 32 := by
        have listed := known entry (by simp)
        fin_cases listed <;> decide
      rw [List.foldl_cons,
        ih _ fun other listed => known other (List.mem_cons_of_mem _ listed)]
      simp only [Word.has_set, small, decide_true, Bool.true_and,
        Bool.or_eq_true, decide_eq_true_eq, List.map_cons, List.mem_cons]
      tauto

theorem has_set_iff (word : Word) (bit : Nat) {other : Nat}
    (small : other < 32) :
    (word.set other).has bit = true ↔ word.has bit = true ∨ bit = other := by
  rw [Word.has_set, Bool.or_eq_true, Bool.and_eq_true, decide_eq_true_eq,
    decide_eq_true_eq, eq_comm (a := other)]
  simp [small]

theorem has_set_if (word : Word) (bit : Nat) {other : Nat}
    (small : other < 32) (asked : Prop) [Decidable asked] :
    (if asked then word.set other else word).has bit = true ↔
      word.has bit = true ∨ (bit = other ∧ asked) := by
  by_cases holds : asked
  · rw [if_pos holds, has_set_iff word bit small, and_iff_left holds]
  · rw [if_neg holds, or_iff_left fun both => holds both.2]

theorem has_setEntries_entries (mode : Chmode) (start : Word) (bit : Nat) :
    (setEntries mode.entries start).has bit = true ↔
      start.has bit = true ∨
        (bit ∈ chmodeTable.map Prod.fst ∧ mode.mode.has bit = true) := by
  rw [has_setEntries _ _ _ mode.entries_known]
  simp only [entries, List.mem_map, List.mem_filter]
  apply or_congr_right
  constructor
  · rintro ⟨entry, ⟨listed, given⟩, rfl⟩
    exact ⟨⟨entry, listed, rfl⟩, given⟩
  · rintro ⟨⟨entry, listed, rfl⟩, given⟩
    exact ⟨entry, ⟨listed, given⟩, rfl⟩

theorem told_has (mode : Chmode) (bit : Nat) :
    mode.told.has bit = true ↔
      (bit ∈ chmodeTable.map Prod.fst ∧ mode.mode.has bit = true) ∨
        (bit = modeLimit ∧ mode.limit ≠ 0) ∨
        (bit = modeKey ∧ mode.key ≠ []) := by
  have table := has_setEntries_entries mode 0#32 bit
  rw [Word.has_zero, or_iff_right Bool.false_ne_true] at table
  unfold told
  rw [has_set_if _ _ (by decide : modeKey < 32),
    has_set_if _ _ (by decide : modeLimit < 32), table, or_assoc]

theorem told_eq_iff (mode : Chmode) : mode.told = mode.mode ↔ mode.Sendable := by
  have apart : modeLimit ∉ chmodeTable.map Prod.fst ∧
      modeKey ∉ chmodeTable.map Prod.fst ∧ modeLimit ≠ modeKey := by
    decide
  constructor
  · intro same
    refine ⟨?_, ?_, ?_⟩
    · intro bit given
      rw [← same, told_has] at given
      tauto
    · rw [← same, told_has]
      tauto
    · rw [← same, told_has]
      have other := apart.2.2.symm
      tauto
  · intro sendable
    refine Word.ext fun bit _ => ?_
    rw [Bool.eq_iff_iff, told_has]
    constructor
    · rintro (⟨_, given⟩ | ⟨rfl, given⟩ | ⟨rfl, given⟩)
      · exact given
      · exact sendable.limit.mpr given
      · exact sendable.key.mpr given
    · intro given
      obtain listed | rfl | rfl := sendable.known bit given
      · exact Or.inl ⟨listed, given⟩
      · exact Or.inr (Or.inl ⟨rfl, sendable.limit.mp given⟩)
      · exact Or.inr (Or.inr ⟨rfl, sendable.key.mp given⟩)

end Chmode

end RatboxServices
