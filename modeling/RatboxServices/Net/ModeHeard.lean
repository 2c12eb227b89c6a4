import RatboxServices.Net.ModeRound
import RatboxServices.Net.RemoveModes

namespace RatboxServices

open CString

/-! What `parse_full_mode` makes of the string of `chmode_to_string`, and of a
`MODE` line that ends with it. -/

namespace Chmode

def hear (sent mode : Chmode) : Chmode :=
  let mode := { mode with mode := setEntries sent.entries mode.mode }
  let mode :=
    if sent.limit = 0 then mode
    else { mode.put true modeLimit with limit := sent.limit }
  if sent.key = [] then mode
  else
    { mode.put true modeKey with key := strlcpy (keyLen + 1) sent.key }

theorem hear_eq (sent mode : Chmode) :
    hear sent mode =
      { mode :=
          let bits := setEntries sent.entries mode.mode
          let bits := if sent.limit ≠ 0 then bits.set modeLimit else bits
          if sent.key ≠ [] then bits.set modeKey else bits
        limit := if sent.limit = 0 then mode.limit else sent.limit
        key :=
          if sent.key = [] then mode.key
          else strlcpy (keyLen + 1) sent.key } := by
  unfold hear put
  by_cases limit : sent.limit = 0
  · by_cases key : sent.key = []
    · simp [limit, key]
    · simp [limit, key]
  · by_cases key : sent.key = []
    · simp [limit, key]
    · simp [limit, key]

theorem hear_limit (sent mode : Chmode) :
    (hear sent mode).limit =
      if sent.limit = 0 then mode.limit else sent.limit := by
  rw [hear_eq]

theorem hear_key (sent mode : Chmode) :
    (hear sent mode).key =
      if sent.key = [] then mode.key
      else strlcpy (keyLen + 1) sent.key := by
  rw [hear_eq]

theorem hear_has {sent : Chmode} (sendable : sent.Sendable) (mode : Chmode)
    (bit : Nat) :
    (hear sent mode).mode.has bit =
      (mode.mode.has bit || sent.mode.has bit) := by
  have said : (hear sent mode).mode.has bit = true ↔
      (mode.mode.has bit = true ∨
        bit ∈ chmodeTable.map Prod.fst ∧ sent.mode.has bit = true) ∨
        (bit = modeLimit ∧ sent.limit ≠ 0) ∨
          (bit = modeKey ∧ sent.key ≠ []) := by
    rw [hear_eq, has_set_if _ _ (by decide : modeKey < 32),
      has_set_if _ _ (by decide : modeLimit < 32), or_assoc,
      has_setEntries_entries]
  rw [Bool.eq_iff_iff, said, Bool.or_eq_true]
  constructor
  · rintro ((had | ⟨_, given⟩) | ⟨rfl, given⟩ | ⟨rfl, given⟩)
    · exact Or.inl had
    · exact Or.inr given
    · exact Or.inr (sendable.limit.mpr given)
    · exact Or.inr (sendable.key.mpr given)
  · rintro (had | given)
    · exact Or.inl (Or.inl had)
    · obtain listed | rfl | rfl := sendable.known bit given
      · exact Or.inl (Or.inr ⟨listed, given⟩)
      · exact Or.inr (Or.inl ⟨rfl, sendable.limit.mp given⟩)
      · exact Or.inr (Or.inr ⟨rfl, sendable.key.mp given⟩)

theorem hear_of_zero {sent : Chmode} (sendable : sent.Sendable)
    (none_ : sent.mode = 0#32) (mode : Chmode) : hear sent mode = mode := by
  have unset : ∀ bit, sent.mode.has bit = false := by
    intro bit
    rw [none_]
    exact Word.has_zero bit
  have limit : sent.limit = 0 := by
    by_contra given
    have set := sendable.limit.mpr given
    rw [unset] at set
    cases set
  have key : sent.key = [] := by
    by_contra given
    have set := sendable.key.mpr given
    rw [unset] at set
    cases set
  have entries : sent.entries = [] :=
    List.filter_eq_nil_iff.mpr fun entry _ => by simp [unset]
  simp [hear, limit, key, entries, setEntries]

end Chmode

namespace FullMode

variable {call : FullModeCall}

theorem loop_entries (received : call.sourceP = none)
    (sslonly : call.allowSslonly = true) {entries : List (Nat × Char)}
    (known : ∀ entry ∈ entries, entry ∈ chmodeTable) (rest : List Char)
    (chans : Chans) (args : List CString) :
    loop call (entries.map Prod.snd ++ rest) ⟨chans, args, true, []⟩ =
      loop call rest ⟨RatboxServices.onMode call.chptr (fun mode =>
        { mode with mode := setEntries entries mode.mode }) chans, args, true,
          []⟩ := by
  have one : ∀ entry ∈ chmodeTable, ∀ chans,
      letter call entry.2 ⟨chans, args, true, []⟩ =
        some ⟨RatboxServices.onMode call.chptr (Chmode.put true entry.1) chans,
          args, true, []⟩ := by
    intro entry listed chans
    fin_cases listed <;>
      simp [letter, sslonly, modebuildAdd, received, simpleModeBit, onMode,
        onChannel, RatboxServices.onMode]
  induction entries generalizing chans with
  | nil =>
      exact congrArg (fun chans => loop call rest ⟨chans, args, true, []⟩)
        (onMode_self call.chptr chans).symm
  | cons entry others ih =>
      have next := one entry (known entry (by simp)) chans
      rw [List.map_cons, List.cons_append, loop, next]
      dsimp only
      rw [ih (fun other listed => known other (List.mem_cons_of_mem _ listed)),
        onMode_onMode]
      rfl

theorem loop_limit (received : call.sourceP = none) {limit : Int}
    (positive : 0 < limit) (high : limit < 2147483648) (rest : List Char)
    (chans : Chans) (args : List CString) :
    loop call ('l' :: rest) ⟨chans, formatInt limit :: args, true, []⟩ =
      loop call rest ⟨RatboxServices.onMode call.chptr (fun mode =>
        { mode.put true modeLimit with limit := limit }) chans, args, true,
          []⟩ := by
  have read : (strtol (formatInt limit)).1.bmod 4294967296 = limit :=
    atoi_formatInt (by omega) high
  have some_ : (formatInt limit).isEmpty = false := by
    simpa using (isWord_formatInt limit).given
  have above : ¬limit ≤ 0 := by omega
  simp [loop, letter, emptyHead, some_, read, above, received, modebuildAdd,
    onMode, onChannel, RatboxServices.onMode, nextArg]

theorem loop_key (received : call.sourceP = none) {key : CString}
    (given : key ≠ []) (rest : List Char) (chans : Chans)
    (args : List CString) :
    loop call ('k' :: rest) ⟨chans, key :: args, true, []⟩ =
      loop call rest ⟨RatboxServices.onMode call.chptr (fun mode =>
        { mode.put true modeKey with key := strlcpy (keyLen + 1) key }) chans,
          args, true, []⟩ := by
  simp [loop, letter, emptyHead, given, received, modebuildAdd, onMode,
    onChannel, RatboxServices.onMode, nextArg]

theorem parseFullMode_sent (received : call.sourceP = none)
    (sslonly : call.allowSslonly = true) {sent : Chmode}
    (nonneg : 0 ≤ sent.limit) (high : sent.limit < 2147483648)
    (chans : Chans) :
    (parseFullMode call sent.sentWords chans).1 =
      RatboxServices.onMode call.chptr sent.hear chans := by
  have walked : ∀ rest args,
      loop call ('+' :: sent.entries.map Prod.snd ++ rest)
        ⟨chans, args, true, []⟩ = _ := fun rest args =>
    loop_entries received sslonly sent.entries_known rest chans args
  have ended : ∀ chans, (loop call [] ⟨chans, [], true, []⟩).1.chans = chans :=
    fun _ => rfl
  show (loop call sent.sentLetters ⟨chans, sent.sentParams, true, []⟩).1.chans =
    _
  unfold Chmode.sentLetters Chmode.sentParams
  rw [walked]
  by_cases limit : sent.limit = 0
  · by_cases key : sent.key = []
    · simp only [limit, key, ne_eq, not_true_eq_false, if_false,
        List.append_nil, ended]
      congr 1
      funext mode
      simp [Chmode.hear, limit, key]
    · simp only [limit, key, ne_eq, not_true_eq_false, not_false_eq_true,
        if_false, if_true, List.nil_append, loop_key received key, ended,
        onMode_onMode]
      congr 1
      funext mode
      simp [Chmode.hear, limit, key]
  · have positive : 0 < sent.limit := by omega
    by_cases key : sent.key = []
    · simp only [limit, key, ne_eq, not_true_eq_false, not_false_eq_true,
        if_false, if_true, List.append_nil,
        loop_limit received positive high, ended, onMode_onMode]
      congr 1
      funext mode
      simp [Chmode.hear, limit, key]
    · simp only [limit, key, ne_eq, not_false_eq_true, if_true,
        List.cons_append, List.nil_append,
        loop_limit received positive high, loop_key received key, ended,
        onMode_onMode]
      congr 1
      funext mode
      simp [Chmode.hear, limit, key]

end FullMode

structure SplitsWords (split : CString → List CString) : Prop
    extends SplitsParams split where
  ended : ∀ words last, (∀ word ∈ words, IsWord word) → IsWord last →
    words.length < 14 → split (spaced words ++ last) = words ++ [last]

theorem splitParams_last {word : CString} (isWord : IsWord word) (limit : Nat) :
    splitParams (limit + 1) word = [word] := by
  have cut := State.splitParams_cut isWord limit []
  rwa [List.append_nil, cut_of_not_mem isWord.noSpace] at cut

theorem splitParams_splitsWords : SplitsWords (splitParams 15) where
  toSplitsParams := State.splitParams_splits
  ended := by
    intro words last all isWord few
    obtain ⟨limit, same⟩ := Nat.exists_eq_add_of_lt few
    have room : 15 = words.length + (limit + 1 + 1) := by omega
    rw [room, State.splitParams_spaced all, splitParams_last isWord]

namespace Chmode

theorem split_chmodeToString {split : CString → List CString}
    (splits : SplitsWords split) {mode : Chmode}
    (key : mode.key = [] ∨ IsWord mode.key) {name : CString}
    (named : IsWord name) :
    split (name ++ " ".toList ++ mode.chmodeToString) =
      name :: mode.sentWords := by
  obtain none_ | ⟨words, last, same⟩ := mode.sentWords.eq_nil_or_concat'
  · cases none_
  · have all := isWord_sentWords key
    rw [same] at all
    have text : mode.chmodeToString = spaced words ++ last := by
      have spacedOut := mode.chmodeToString_eq
      rw [same] at spacedOut
      refine List.append_cancel_right (spacedOut.trans ?_)
      simp [spaced]
    have few : (name :: words).length < 14 := by
      have short := mode.length_sentWords
      rw [same, List.length_append, List.length_singleton] at short
      rw [List.length_cons]
      omega
    have read := splits.ended (name :: words) last
      (by
        intro word listed
        obtain rfl | listed := List.mem_cons.mp listed
        · exact named
        · exact all word (by simp [listed]))
      (all last (by simp)) few
    rw [same, text]
    refine Eq.trans ?_ read
    simp [spaced]

theorem length_chmodeToString {mode : Chmode} (nonneg : 0 ≤ mode.limit)
    (high : mode.limit < 2147483648) (short : mode.key.length ≤ keyLen) :
    mode.chmodeToString.length ≤ 47 := by
  have letters : mode.entries.length ≤ 8 :=
    (List.length_filter_le _ _).trans (by decide)
  have digits : (formatInt mode.limit).length ≤ 10 := by
    have positive : ¬mode.limit < 0 := by omega
    rw [formatInt, if_neg positive, decimal,
      Nat.length_toDigits_le_iff (by decide) (by decide)]
    omega
  unfold keyLen at short
  unfold chmodeToString
  split
  · simp
    omega
  · split
    · simp
      omega
    · split
      · simp
        omega
      · simp
        omega

end Chmode

namespace State

/-- A `MODE` line that tells a chmode. -/
def modeLine (source name : CString) (sent : Chmode) : CString :=
  ":".toList ++ source ++ " ".toList ++ "MODE".toList ++ " ".toList ++
    (name ++ " ".toList ++ sent.chmodeToString)

/-- The names in a `MODE` line are words, and leave room for the modes. -/
structure Addressed (s : State) (serviceP : ClientId) (chptr : ChannelId) :
    Prop where
  source : Carried (s.modeSource serviceP)
  channel : Carried (s.chans.channel.get chptr).name
  short : (s.modeSource serviceP).length +
    (s.chans.channel.get chptr).name.length + 56 ≤ bufSize

/-- What can be told in a line: a limit that is none or positive, and a key
that `valid_key` accepted. -/
structure Tellable (sent : Chmode) : Prop where
  nonneg : 0 ≤ sent.limit
  high : sent.limit < 2147483648
  valid : validKey sent.key = some sent.key

namespace Tellable

variable {sent : Chmode}

theorem key (tellable : Tellable sent) : sent.key = [] ∨ IsWord sent.key := by
  by_cases given : sent.key = []
  · exact Or.inl given
  · exact Or.inr (isWord_of_validKey given
      (Option.isSome_of_eq_some tellable.valid)
      (length_of_validKey tellable.valid))

theorem letters_above_space (mode : Chmode) :
    ∀ c ∈ mode.sentLetters, ¬c ≤ ' ' := by
  have table : ∀ entry ∈ chmodeTable, ¬entry.2 ≤ ' ' := by decide
  intro c listed
  unfold Chmode.sentLetters at listed
  simp only [List.cons_append, List.mem_cons, List.mem_append,
    List.mem_map] at listed
  obtain rfl | ⟨entry, given, rfl⟩ | limit | key := listed
  · decide
  · exact table entry (mode.entries_known entry given)
  · split at limit
    · rw [List.mem_singleton.mp limit]
      decide
    · cases limit
  · split at key
    · rw [List.mem_singleton.mp key]
      decide
    · cases key

theorem above_space (tellable : Tellable sent) :
    ∀ c ∈ sent.key, ¬c ≤ ' ' := by
  have valid := tellable.valid
  unfold validKey at valid
  dsimp only at valid
  split at valid
  · cases valid
  · rename_i clean
    have same := Option.some.inj valid
    rw [same] at clean
    intro c listed low
    refine clean (List.any_eq_true.mpr ⟨c, listed, ?_⟩)
    simp [low]

theorem sentWords (tellable : Tellable sent) :
    ∀ word ∈ sent.sentWords, ∀ c ∈ word, ¬c ≤ ' ' := by
  intro word given c inside
  obtain rfl | param := List.mem_cons.mp given
  · exact letters_above_space sent c inside
  · obtain limit | key := List.mem_append.mp param
    · split at limit
      · rw [List.mem_singleton.mp limit, formatInt,
          if_neg (by have nonneg := tellable.nonneg; omega)] at inside
        have digit := isDigit_of_mem_decimal inside
        intro low
        have digit : '0' ≤ c ∧ c ≤ '9' := by simpa [isDigit] using digit
        exact absurd (Char.le_trans digit.1 low) (by decide)
      · cases limit
    · split at key
      · rw [List.mem_singleton.mp key] at inside
        exact tellable.above_space c inside
      · cases key

theorem oneLine (tellable : Tellable sent) : oneLine sent.chmodeToString := by
  have other : ∀ c : Char, c ≤ ' ' → c ≠ ' ' → c ∉ sent.chmodeToString := by
    intro c low noSpace listed
    have said : c ∈ sent.chmodeToString ++ [' '] :=
      List.mem_append_left _ listed
    rw [sent.chmodeToString_eq] at said
    obtain ⟨word, given, inside⟩ := List.mem_flatMap.mp said
    obtain inside | space := List.mem_append.mp inside
    · exact tellable.sentWords word given c inside low
    · exact noSpace (List.mem_singleton.mp space)
  exact ⟨other _ (by decide) (by decide), other _ (by decide) (by decide)⟩

end Tellable

section Line

variable {env : Env} {uplinkName : CString} {s : State} {serviceP : ClientId}
  {chptr : ChannelId} {sent : Chmode}

theorem parseLine_modeLine (splits : SplitsWords env.stringToArray)
    (addressed : Addressed s serviceP chptr) (tellable : Tellable sent) :
    parseLine env uplinkName (modeLine (s.modeSource serviceP)
        (s.chans.channel.get chptr).name sent) =
      some ⟨s.modeSource serviceP, "MODE".toList,
        (s.chans.channel.get chptr).name :: sent.sentWords⟩ := by
  obtain ⟨sourced, named, short⟩ := addressed
  generalize s.modeSource serviceP = source at sourced short ⊢
  generalize (s.chans.channel.get chptr).name = name at named short ⊢
  have opens : (name ++ " ".toList ++ sent.chmodeToString).head? ≠
      some ' ' := by
    have given := named.given
    have noSpace := named.noSpace
    cases name with
    | nil => exact absurd rfl given
    | cons c tail =>
        intro space
        have space : c = ' ' := Option.some.inj space
        exact noSpace (by simp [space])
  have one : oneLine (modeLine source name sent) := by
    obtain ⟨newline, return_⟩ := tellable.oneLine
    constructor
    · simp [modeLine, sourced.newline, named.newline, newline]
    · simp [modeLine, sourced.return_, named.return_, return_]
  have bound := sent.length_chmodeToString tellable.nonneg tellable.high
    (length_of_validKey tellable.valid)
  have fits : (modeLine source name sent).length ≤ bufSize := by
    simp [modeLine]
    omega
  rw [modeLine, parseLine_text sourced.noSpace ⟨by decide, by decide⟩ opens one
    fits, Chmode.split_chmodeToString splits tellable.key named.toIsWord]

theorem replayLine_modeLine (splits : SplitsWords env.stringToArray)
    (addressed : Addressed s serviceP chptr) (tellable : Tellable sent)
    (chans : Chans) :
    replayLine env uplinkName s chptr chans (modeLine (s.modeSource serviceP)
        (s.chans.channel.get chptr).name sent) =
      onMode chptr sent.hear chans := by
  have heard : (parseFullMode (s.receivedCall chptr) sent.sentWords chans).1 =
      onMode chptr sent.hear chans :=
    FullMode.parseFullMode_sent rfl rfl tellable.nonneg tellable.high chans
  unfold replayLine
  rw [parseLine_modeLine splits addressed tellable]
  exact heard

end Line

end State

end RatboxServices
