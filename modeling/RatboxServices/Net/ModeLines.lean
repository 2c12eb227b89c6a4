import RatboxServices.Net.ModeReplay

namespace RatboxServices

open CString
open Chans (Alike SameState)
open Modebuild (Group lineOf)

/-! The lines in which a service sends its modes, and whether they say what it
did. -/

namespace Chans.SameState

variable {chptr : ChannelId} {first second third : Chans}

theorem refl (chptr : ChannelId) (s : Chans) : SameState chptr s s :=
  ⟨⟨rfl, fun _ => rfl⟩, rfl, rfl, rfl⟩

end Chans.SameState

namespace FullMode

variable {call : FullModeCall} {st : FullMode}

def idleLetter (call : FullModeCall) (chans : Chans) (p : Char)
    (args : List CString) : Bool :=
  !modeLetters.contains p || ((p == 'o' || p == 'v') &&
    ((call.findUser (args.headD [])).bind
      (chans.findChmember call.chptr)).isNone)

def silent (call : FullModeCall) (chans : Chans) :
    List Char → Bool → List CString → Bool
  | [], _, _ => true
  | p :: rest, dir, args =>
      !readableLetter call.allowSslonly dir p args ||
        (idleLetter call chans p args && silent call chans rest (turn dir p)
          (if takesParam dir p then args.tail else args))

theorem prefixMode_idle {p : Char} {nick : CString}
    (issued : call.sourceP.isSome = true)
    (absent : (call.findUser nick).bind (st.chans.findChmember call.chptr) =
      none) : st.prefixMode call p nick = st := by
  cases user : call.findUser nick with
  | none => exact prefixMode_unknown issued user
  | some target =>
      rw [user, Option.bind_some] at absent
      unfold prefixMode
      cases call.findService nick with
      | some service => simp [serviceOp, issued]
      | none => simp [user, absent]

theorem letter_idle {p : Char} {after : FullMode}
    (issued : call.sourceP.isSome = true)
    (idle : idleLetter call st.chans p st.args = true)
    (taken : st.letter call p = some after) :
    after.chans = st.chans ∧ after.built = st.built := by
  unfold letter at taken
  split at taken
  case h_1 | h_2 => cases taken; exact ⟨rfl, rfl⟩
  case h_9 =>
    split at taken
    · rename_i status
      have letter : p = 'o' ∨ p = 'v' := by simpa using status
      have known : modeLetters.contains p = true := by
        obtain rfl | rfl := letter <;> decide
      have absent : (call.findUser (st.args.headD [])).bind
          (st.chans.findChmember call.chptr) = none := by
        rw [idleLetter, known, status] at idle
        exact Option.isNone_iff_eq_none.mp idle
      split at taken
      · cases taken
      · cases taken
        have same : st.nextArg.prefixMode call p (st.args.headD []) =
          st.nextArg := prefixMode_idle issued absent
        rw [same]
        exact ⟨rfl, rfl⟩
    · rename_i other
      split at taken
      · rename_i bit simple
        have known := List.contains_iff_mem.mpr
          (mem_modeLetters_of_simple simple)
        rw [idleLetter, known, Bool.not_true, Bool.false_or,
          Bool.and_eq_true] at idle
        exact absurd idle.1 other
      · cases taken
        exact ⟨rfl, rfl⟩
  all_goals cases (show false = true from idle)

theorem loop_silent (issued : call.sourceP.isSome = true) {modes : List Char}
    (quiet : silent call st.chans modes st.dir st.args = true) :
    (loop call modes st).1.chans = st.chans ∧
      (loop call modes st).1.built = st.built := by
  induction modes generalizing st with
  | nil => exact ⟨rfl, rfl⟩
  | cons p rest ih =>
      unfold loop
      have goes : Goes call.allowSslonly st p _ := letter_goes issued
      cases taken : st.letter call p with
      | none => exact ⟨rfl, rfl⟩
      | some after =>
          rw [taken] at goes
          obtain ⟨heard, dir, args⟩ := goes
          rw [silent, heard, Bool.not_true, Bool.false_or, Bool.and_eq_true,
            ← dir, ← args] at quiet
          obtain ⟨chans, built⟩ := letter_idle issued quiet.1 taken
          rw [← chans, ← built]
          exact ih (chans ▸ quiet.2)

end FullMode

namespace State

/-- `sendto_server` sends. -/
def linked (s : State) : Bool :=
  match s.serverP with
  | some conn => !conn.isDead
  | none => false

/-- `!EmptyString(server_p->sid)`. -/
def uplinkSid (s : State) : Bool :=
  match s.serverP with
  | some conn => !(conn.sid.getD []).isEmpty
  | none => false

def modeSource (s : State) (serviceP : ClientId) : CString :=
  match s.clients.client.cell serviceP with
  | some service => if s.uplinkSid then service.uid else service.name
  | none => []

def modeCommand (s : State) : CString :=
  if s.uplinkSid then "TMODE".toList else "MODE".toList

def modeWords (s : State) (chptr : ChannelId) : List CString :=
  if s.uplinkSid then
    [formatUlong (s.chans.channel.get chptr).tsinfo,
      (s.chans.channel.get chptr).name]
  else [(s.chans.channel.get chptr).name]

/-- `modebuild_start`. -/
def modeHead (s : State) (serviceP : ClientId) (chptr : ChannelId) :
    CString :=
  ":".toList ++ s.modeSource serviceP ++ " ".toList ++ s.modeCommand ++
    " ".toList ++ spaced (s.modeWords chptr)

/-- The lines that `parse_full_mode` sends for a service. -/
def modeLines (s : State) (serviceP : ClientId) (chptr : ChannelId)
    (allowSslonly : Bool) (parv : List CString) : List CString :=
  let (_, changes, finished) :=
    parseFullMode (s.issuedCall serviceP chptr allowSslonly) parv s.chans
  if s.linked then
    Modebuild.build (s.modeHead serviceP chptr) changes finished
  else []

/-- What a `MODE` or `TMODE` line makes of the channel. -/
def replayLine (env : Env) (uplinkName : CString) (s : State)
    (chptr : ChannelId) (chans : Chans) (line : CString) : Chans :=
  match parseLine env uplinkName line with
  | none => chans
  | some line =>
      let start := if line.command == "TMODE".toList then 2 else 1
      (parseFullMode (s.receivedCall chptr) (line.parv.drop start) chans).1

def modesReadable (allowSslonly : Bool) : List CString → Bool
  | [] => true
  | modes :: args => FullMode.readable allowSslonly modes true args

def toldParams (s : State) (serviceP : ClientId) (chptr : ChannelId)
    (allowSslonly : Bool) : List CString → List CString
  | [] => []
  | modes :: args =>
      FullMode.toldParams (s.issuedCall serviceP chptr allowSslonly) modes true
        args

def modesSilent (s : State) (serviceP : ClientId) (chptr : ChannelId)
    (allowSslonly : Bool) : List CString → Bool
  | [] => true
  | modes :: args =>
      FullMode.silent (s.issuedCall serviceP chptr allowSslonly) s.chans modes
        true args

/-- What the lines of the service make of the channel as it was before is what
it made of it. -/
def Replays (env : Env) (uplinkName : CString) (s : State)
    (serviceP : ClientId) (chptr : ChannelId) (allowSslonly : Bool)
    (parv : List CString) : Prop :=
  SameState chptr
    (parseFullMode (s.issuedCall serviceP chptr allowSslonly) parv s.chans).1
    ((s.modeLines serviceP chptr allowSslonly parv).foldl
      (replayLine env uplinkName s chptr) s.chans)

def oneLine (text : CString) : Prop :=
  '\n' ∉ text ∧ '\r' ∉ text

theorem parseLine_text {env : Env} {uplinkName source command text : CString}
    (sourced : ' ' ∉ source) (commanded : command ≠ [] ∧ ' ' ∉ command)
    (opens : text.head? ≠ some ' ')
    (one : oneLine (":".toList ++ source ++ " ".toList ++ command ++
      " ".toList ++ text))
    (short : (":".toList ++ source ++ " ".toList ++ command ++ " ".toList ++
      text).length ≤ bufSize) :
    parseLine env uplinkName (":".toList ++ source ++ " ".toList ++ command ++
      " ".toList ++ text) =
      some ⟨source, command, env.stringToArray text⟩ := by
  have unspaced : ∀ text : CString, text.head? ≠ some ' ' →
      text.dropWhile (· == ' ') = text := by
    intro text opens
    cases text with
    | nil => rfl
    | cons c tail =>
        have other : c ≠ ' ' := by
          rintro rfl
          exact opens rfl
        simp [other]
  have first : ∀ rest : CString, (command ++ rest).head? ≠ some ' ' := by
    intro rest
    cases command with
    | nil => exact absurd rfl commanded.1
    | cons c tail =>
        intro space
        have space : c = ' ' := Option.some.inj space
        exact commanded.2 (by simp [space])
  have read : lineText (":".toList ++ source ++ " ".toList ++ command ++
      " ".toList ++ text) = ':' :: (source ++ ' ' ::
        (command ++ ' ' :: text)) := by
    unfold lineText
    rw [if_neg (by omega)]
    dsimp only
    rw [cut_of_not_mem one.1, cut_of_not_mem one.2]
    simp
  simp only [parseLine, read, cut_append sourced, cut_append commanded.2,
    unspaced _ (first _), unspaced _ opens]
  simp [commanded.1]

theorem parseLine_spaced {env : Env} (splits : SplitsParams env.stringToArray)
    {uplinkName source command : CString} {words : List CString}
    (sourced : ' ' ∉ source) (commanded : command ≠ [] ∧ ' ' ∉ command)
    (given : words ≠ []) (all : ∀ word ∈ words, IsWord word)
    (few : words.length < 15)
    (one : oneLine (":".toList ++ source ++ " ".toList ++ command ++
      " ".toList ++ spaced words))
    (short : (":".toList ++ source ++ " ".toList ++ command ++ " ".toList ++
      spaced words).length ≤ bufSize) :
    parseLine env uplinkName (":".toList ++ source ++ " ".toList ++ command ++
      " ".toList ++ spaced words) = some ⟨source, command, words⟩ := by
  have opens : (spaced words).head? ≠ some ' ' := by
    cases words with
    | nil => exact absurd rfl given
    | cons word rest =>
        obtain ⟨some_, noSpace, -⟩ := all word (by simp)
        cases word with
        | nil => exact absurd rfl some_
        | cons c tail =>
            intro space
            have space : c = ' ' := by simpa [spaced] using space
            exact noSpace (by simp [space])
  rw [parseLine_text sourced commanded opens one short,
    splits.words words all few]

structure Carried (text : CString) : Prop extends IsWord text where
  newline : '\n' ∉ text
  return_ : '\r' ∉ text

theorem oneLine_spaced {words : List CString}
    (all : ∀ word ∈ words, Carried word) : oneLine (spaced words) := by
  constructor
  · intro listed
    obtain ⟨word, given, inside⟩ := List.mem_flatMap.mp listed
    obtain inside | space := List.mem_append.mp inside
    · exact (all word given).newline inside
    · exact absurd (List.mem_singleton.mp space) (by decide)
  · intro listed
    obtain ⟨word, given, inside⟩ := List.mem_flatMap.mp listed
    obtain inside | space := List.mem_append.mp inside
    · exact (all word given).return_ inside
    · exact absurd (List.mem_singleton.mp space) (by decide)

structure Named (s : State) (serviceP : ClientId) (chptr : ChannelId) :
    Prop where
  source : Carried (s.modeSource serviceP)
  channel : Carried (s.chans.channel.get chptr).name
  short : (s.modeHead serviceP chptr).length + 4 ≤ bufSize - 3

structure Sendable (s : State) (serviceP : ClientId) (chptr : ChannelId)
    (param : CString) : Prop extends Carried param where
  short : (s.modeHead serviceP chptr).length + param.length + 4 ≤ bufSize - 3

theorem carried_decimal (value : Nat) : Carried (decimal value) := by
  have digit : ∀ c ∈ decimal value, isDigit c = true :=
    fun c => isDigit_of_mem_decimal
  refine ⟨isWord_decimal value, fun listed => ?_, fun listed => ?_⟩
  · exact absurd (digit _ listed) (by decide)
  · exact absurd (digit _ listed) (by decide)

theorem carried_letters {changes : List ModeChange} (given : changes ≠ [])
    (known : ∀ change ∈ changes, change.letter ∈ modeLetters) :
    Carried (ModeChange.letters changes) := by
  have listed : ∀ c ∈ ModeChange.letters changes,
      c ∈ '+' :: '-' :: modeLetters := by
    intro c inside
    obtain ⟨change, here, inside⟩ := List.mem_flatMap.mp inside
    obtain sign | letter : c = change.sign ∨ c = change.letter := by
      simpa using inside
    · rw [sign, ModeChange.sign]
      split <;> decide
    · rw [letter]
      exact List.mem_cons_of_mem _ (List.mem_cons_of_mem _ (known change here))
  refine ⟨⟨?_, ?_, ?_⟩, ?_, ?_⟩
  · cases changes with
    | nil => exact absurd rfl given
    | cons change rest => simp [ModeChange.letters]
  · exact fun inside => absurd (listed _ inside) (by decide)
  · intro first
    exact absurd (listed _ (List.mem_of_mem_head? first)) (by decide)
  · exact fun inside => absurd (listed _ inside) (by decide)
  · exact fun inside => absurd (listed _ inside) (by decide)

section Sent

variable {env : Env} {uplinkName : CString} {s : State} {serviceP : ClientId}
  {chptr : ChannelId} {allowSslonly : Bool}

theorem replayLine_lineOf (splits : SplitsParams env.stringToArray)
    (named : Named s serviceP chptr) {changes : List ModeChange}
    (group : Group (s.modeHead serviceP chptr) changes)
    (known : ∀ change ∈ changes, change.letter ∈ modeLetters)
    (carried : ∀ arg ∈ ModeChange.args changes, Carried arg)
    (sound : ∀ change ∈ changes, change.Sound
      (s.issuedCall serviceP chptr allowSslonly).received)
    (chans : Chans) :
    replayLine env uplinkName s chptr chans
        (lineOf (s.modeHead serviceP chptr) changes) =
      FullMode.applyAll (s.issuedCall serviceP chptr allowSslonly) changes
        chans := by
  have letters : Carried (ModeChange.letters changes) :=
    carried_letters group.some known
  have line : lineOf (s.modeHead serviceP chptr) changes =
      ":".toList ++ s.modeSource serviceP ++ " ".toList ++ s.modeCommand ++
        " ".toList ++ spaced (s.modeWords chptr ++
          ModeChange.letters changes :: ModeChange.args changes) := by
    simp [lineOf, modeHead, spaced]
  have first : ∀ word ∈ s.modeWords chptr, Carried word := by
    intro word listed
    unfold modeWords at listed
    split at listed
    · obtain rfl | rfl : word = _ ∨ word = _ := by simpa using listed
      · exact carried_decimal _
      · exact named.channel
    · rw [List.mem_singleton.mp listed]
      exact named.channel
  have all : ∀ word ∈ s.modeWords chptr ++
      ModeChange.letters changes :: ModeChange.args changes, Carried word := by
    intro word listed
    obtain listed | listed := List.mem_append.mp listed
    · exact first word listed
    · obtain rfl | listed := List.mem_cons.mp listed
      · exact letters
      · exact carried word listed
  have command : s.modeCommand ≠ [] ∧ ' ' ∉ s.modeCommand ∧
      oneLine s.modeCommand := by
    unfold modeCommand oneLine
    split <;> decide
  have few : (s.modeWords chptr ++
      ModeChange.letters changes :: ModeChange.args changes).length < 15 := by
    have count : (s.modeWords chptr).length ≤ 2 := by
      unfold modeWords
      split <;> simp
    have limit : (ModeChange.args changes).length ≤ maxModes := group.count
    unfold maxModes at limit
    simp only [List.length_append, List.length_cons]
    omega
  have one := oneLine_spaced all
  have parsed : parseLine env uplinkName
      (lineOf (s.modeHead serviceP chptr) changes) =
      some ⟨s.modeSource serviceP, s.modeCommand, s.modeWords chptr ++
        ModeChange.letters changes :: ModeChange.args changes⟩ := by
    have short := group.length
    rw [line] at short ⊢
    refine parseLine_spaced splits named.source.noSpace
      ⟨command.1, command.2.1⟩ (by simp)
      (fun word listed => (all word listed).toIsWord) few ?_ (by omega)
    constructor
    · simp [named.source.newline, command.2.2.1, one.1]
    · simp [named.source.return_, command.2.2.2, one.2]
  have start : (s.modeWords chptr ++ ModeChange.letters changes ::
      ModeChange.args changes).drop
        (if s.modeCommand == "TMODE".toList then 2 else 1) =
      ModeChange.letters changes :: ModeChange.args changes := by
    unfold modeWords modeCommand
    split <;> rfl
  unfold replayLine
  rw [parsed]
  dsimp only
  rw [start]
  exact FullMode.loop_letters sound chans true

theorem foldl_replayLine (splits : SplitsParams env.stringToArray)
    (named : Named s serviceP chptr) {groups : List (List ModeChange)}
    (each : ∀ group ∈ groups, Group (s.modeHead serviceP chptr) group)
    (carried : ∀ change ∈ groups.flatten, change.letter ∈ modeLetters ∧
      (∀ arg, change.arg = some arg → Carried arg) ∧
      change.Sound (s.issuedCall serviceP chptr allowSslonly).received)
    (chans : Chans) :
    (groups.map (lineOf (s.modeHead serviceP chptr))).foldl
        (replayLine env uplinkName s chptr) chans =
      FullMode.applyAll (s.issuedCall serviceP chptr allowSslonly)
        groups.flatten chans := by
  induction groups generalizing chans with
  | nil => rfl
  | cons group rest ih =>
      rw [List.flatten_cons] at carried
      have here := fun change (listed : change ∈ group) =>
        carried change (List.mem_append_left _ listed)
      have args : ∀ arg ∈ ModeChange.args group, Carried arg := by
        intro arg listed
        obtain ⟨change, inside, given⟩ := List.mem_filterMap.mp listed
        exact (here change inside).2.1 arg given
      rw [List.map_cons, List.foldl_cons, List.flatten_cons,
        FullMode.applyAll_append, replayLine_lineOf splits named
          (each group (by simp)) (fun change listed => (here change listed).1)
          args fun change listed => (here change listed).2.2]
      exact ih (fun group listed => each group (List.mem_cons_of_mem _ listed))
        (fun change listed =>
          carried change (List.mem_append_right _ listed)) _

variable {parv : List CString}

/-- The service has an uplink, the string is read to its end, and what the
letters put into lines can stand there. -/
structure Telling (s : State) (serviceP : ClientId) (chptr : ChannelId)
    (allowSslonly : Bool) (parv : List CString) : Prop where
  linked : s.linked = true
  readable : modesReadable allowSslonly parv = true
  sendable : ∀ param ∈ s.toldParams serviceP chptr allowSslonly parv,
    Sendable s serviceP chptr param

theorem lines_told (splits : SplitsParams env.stringToArray)
    (named : Named s serviceP chptr) {changes : List ModeChange}
    (tellable : ∀ change ∈ changes, change.letter ∈ modeLetters ∧
      (∀ arg, change.arg = some arg → Sendable s serviceP chptr arg) ∧
      change.Sound (s.issuedCall serviceP chptr allowSslonly).received) :
    (Modebuild.build (s.modeHead serviceP chptr) changes true).foldl
        (replayLine env uplinkName s chptr) s.chans =
      FullMode.applyAll (s.issuedCall serviceP chptr allowSslonly) changes
        s.chans := by
  have fits : ∀ change ∈ changes,
      Modebuild.Fits (s.modeHead serviceP chptr) change := by
    intro change listed
    unfold Modebuild.Fits ModeChange.argLength
    cases given : change.arg with
    | none => exact named.short
    | some arg => exact ((tellable change listed).2.1 arg given).short
  obtain ⟨groups, split, lines, each⟩ :
      ∃ groups : List (List ModeChange), changes = groups.flatten ++
        Modebuild.unsent (s.modeHead serviceP chptr) changes true ∧ _ :=
    Modebuild.build_eq fits
  have whole : changes = groups.flatten := by
    simpa [Modebuild.unsent] using split
  rw [lines, whole]
  refine foldl_replayLine splits named each (fun change listed => ?_) _
  obtain ⟨known, carried, sound⟩ := tellable change (whole ▸ listed)
  exact ⟨known, fun arg given => (carried arg given).toCarried, sound⟩

theorem Telling.replays (splits : SplitsParams env.stringToArray)
    (named : Named s serviceP chptr)
    (tells : Telling s serviceP chptr allowSslonly parv) :
    Replays env uplinkName s serviceP chptr allowSslonly parv := by
  obtain ⟨linked, readable, sendable⟩ := tells
  unfold Replays modeLines
  cases parv with
  | nil =>
      rw [parseFullMode]
      dsimp only
      rw [if_pos linked]
      exact SameState.refl chptr _
  | cons modes args =>
      obtain ⟨changes, built, told, alike⟩ :=
        FullMode.loop_told (rfl :
          (s.issuedCall serviceP chptr allowSslonly).sourceP.isSome = true)
          (Alike.refl (⟨s.chans, args, true, []⟩ : FullMode).chans) modes
      have finished : (FullMode.loop (s.issuedCall serviceP chptr allowSslonly)
          modes ⟨s.chans, args, true, []⟩).2 = true :=
        (FullMode.loop_finished rfl modes).trans readable
      rw [List.nil_append] at built
      rw [parseFullMode]
      dsimp only
      rw [if_pos linked, finished, built, lines_told splits named]
      · exact alike.sameState chptr
      · intro change listed
        have tellable := told change listed
        exact ⟨tellable.known, fun arg given =>
          sendable arg (tellable.given arg given), tellable.sound⟩

theorem replays_of_silent
    (quiet : s.modesSilent serviceP chptr allowSslonly parv = true) :
    Replays env uplinkName s serviceP chptr allowSslonly parv := by
  have empty (finished : Bool) :
      Modebuild.build (s.modeHead serviceP chptr) [] finished = [] := by
    cases finished <;> rfl
  unfold Replays modeLines
  cases parv with
  | nil =>
      rw [parseFullMode]
      dsimp only
      rw [empty, ite_self]
      exact SameState.refl chptr _
  | cons modes args =>
      obtain ⟨chans, built⟩ : (FullMode.loop
          (s.issuedCall serviceP chptr allowSslonly) modes
            ⟨s.chans, args, true, []⟩).1.chans = s.chans ∧ _ :=
        FullMode.loop_silent rfl quiet
      rw [parseFullMode]
      dsimp only
      rw [chans, built, empty, ite_self]
      exact SameState.refl chptr _

end Sent

end State

end RatboxServices
