import Mathlib.Data.List.MinMax
import Mathlib.Tactic.IntervalCases
import RatboxServices.Lib.Keyed
import RatboxServices.Lib.Run
import RatboxServices.Serv.Chanfix

namespace RatboxServices

open CString

/-! The flags of a channel in the table `cf_channel`, and the commands of
ChanFix that change them. Strings are compared exactly by the database; the
notes in `chan_note` are left out. -/

theorem toLower_toLower (c : Char) : toLower (toLower c) = toLower c := by
  unfold toLower
  split
  · rename_i bounds
    have low : 65 ≤ c.toNat := bounds.1
    have high : c.toNat ≤ 94 := bounds.2
    rw [← Char.ofNat_toNat c]
    generalize c.toNat = n at low high
    interval_cases n <;> decide
  · rfl

theorem lcase_lcase (text : CString) : lcase (lcase text) = lcase text := by
  unfold lcase strlcpy
  rw [← List.map_take, List.take_take, Nat.min_self, List.map_map]
  exact List.map_congr_left fun c _ => toLower_toLower c

/-- A row of `cf_channel`. -/
structure CfChannelRow where
  id : Nat
  chname : CString
  flags : Word
  deriving DecidableEq, Repr

structure CfChannels where
  rows : List CfChannelRow
  lowered : ∀ row ∈ rows, lcase row.chname = row.chname
  names : UniqueKeys CfChannelRow.chname rows
  ids : UniqueKeys CfChannelRow.id rows

inductive CfReply
  | channelInvalid
  | isBlocked
  | notBlocked
  | hasAlert
  | noAlert
  | noDataFor
  /-- `SVC_SUCCESSFULON` -/
  | successfulOn
  deriving DecidableEq, Repr

namespace CfChannels

def empty : CfChannels where
  rows := []
  lowered := fun _ impossible => nomatch impossible
  names := UniqueKeys.nil
  ids := UniqueKeys.nil

def rowOf (t : CfChannels) (name : CString) : Option CfChannelRow :=
  findKey CfChannelRow.chname name t.rows

def flagsOf (t : CfChannels) (name : CString) : Option Word :=
  (t.rowOf name).map CfChannelRow.flags

/-- `get_cf_chan_flags`. -/
def getCfChanFlags (t : CfChannels) (chan : CString) : Option Word :=
  t.flagsOf (lcase chan)

/-- `UPDATE cf_channel SET flags` for the rows that pass a test. -/
def updateFlags (test : CfChannelRow → Bool) (flags : Word) (t : CfChannels) :
    CfChannels where
  rows := t.rows.map fun row => if test row then { row with flags } else row
  lowered := by
    intro row listed
    obtain ⟨old, inside, rfl⟩ := List.mem_map.mp listed
    split
    · exact t.lowered old inside
    · exact t.lowered old inside
  names := by
    have same : (t.rows.map fun row =>
        if test row then { row with flags } else row).map
          CfChannelRow.chname = t.rows.map CfChannelRow.chname := by
      rw [List.map_map]
      refine List.map_congr_left fun row _ => ?_
      dsimp only [Function.comp_apply]
      split
      · rfl
      · rfl
    unfold UniqueKeys
    rw [same]
    exact t.names
  ids := by
    have same : (t.rows.map fun row =>
        if test row then { row with flags } else row).map
          CfChannelRow.id = t.rows.map CfChannelRow.id := by
      rw [List.map_map]
      refine List.map_congr_left fun row _ => ?_
      dsimp only [Function.comp_apply]
      split
      · rfl
      · rfl
    unfold UniqueKeys
    rw [same]
    exact t.ids

def nextId (t : CfChannels) : Nat :=
  (t.rows.map CfChannelRow.id).foldr max 0 + 1

theorem lt_nextId {t : CfChannels} {row : CfChannelRow}
    (listed : row ∈ t.rows) : row.id < t.nextId :=
  Nat.lt_succ_of_le
    (List.le_max_of_le (List.mem_map_of_mem listed) (Nat.le_refl row.id))

/-- `INSERT INTO cf_channel` of a name in lower case, which fails if the name is
there. -/
def insert (chan : CString) (flags : Word) (t : CfChannels) : CfChannels :=
  if new : t.rowOf (lcase chan) = none then
    { rows := ⟨t.nextId, lcase chan, flags⟩ :: t.rows
      lowered := by
        intro row listed
        rcases List.mem_cons.mp listed with rfl | old
        · exact lcase_lcase chan
        · exact t.lowered row old
      names := UniqueKeys.cons_iff.mpr ⟨findKey_eq_none_iff.mp new, t.names⟩
      ids := UniqueKeys.cons_iff.mpr
        ⟨fun _ listed => Nat.ne_of_lt (lt_nextId listed), t.ids⟩ }
  else t

/-- `o_chanfix_block`. The row is looked for under the lower-case name, and
changed under the one that was given. -/
def oChanfixBlock (chan : CString) (t : CfChannels) :
    CfChannels × List CfReply :=
  if !Chans.validChname chan then (t, [.channelInvalid])
  else
    match t.getCfChanFlags chan with
    | some flags =>
        if flags.has cfChanBlock then (t, [.isBlocked])
        else
          (t.updateFlags (·.chname == chan) (flags.set cfChanBlock),
            [.successfulOn])
    | none =>
        (t.insert chan (Word.set 0#32 cfChanBlock),
          [.noDataFor, .successfulOn])

/-- `o_chanfix_unblock`. -/
def oChanfixUnblock (chan : CString) (t : CfChannels) :
    CfChannels × List CfReply :=
  if !Chans.validChname chan then (t, [.channelInvalid])
  else
    match t.getCfChanFlags chan with
    | some flags =>
        if !flags.has cfChanBlock then (t, [.notBlocked])
        else
          (t.updateFlags (·.chname == chan) (flags.clear cfChanBlock),
            [.successfulOn])
    | none => (t, [.noDataFor])

/-- `o_chanfix_alert`. -/
def oChanfixAlert (chan : CString) (t : CfChannels) :
    CfChannels × List CfReply :=
  if !Chans.validChname chan then (t, [.channelInvalid])
  else
    match t.getCfChanFlags chan with
    | some flags =>
        if flags.has cfChanAlert then (t, [.hasAlert])
        else
          (t.updateFlags (·.chname == chan) (flags.set cfChanAlert),
            [.successfulOn])
    | none => (t, [.noDataFor])

/-- `o_chanfix_unalert`, which changes the row by its id. -/
def oChanfixUnalert (chan : CString) (t : CfChannels) :
    CfChannels × List CfReply :=
  if !Chans.validChname chan then (t, [.channelInvalid])
  else
    match t.rowOf (lcase chan) with
    | some row =>
        if !row.flags.has cfChanAlert then (t, [.noAlert])
        else
          (t.updateFlags (·.id == row.id) (row.flags.clear cfChanAlert),
            [.successfulOn])
    | none => (t, [.noDataFor])

end CfChannels

inductive CfVerb
  | block
  | unblock
  | alert
  | unalert
  deriving DecidableEq, Repr

structure CfCommand where
  verb : CfVerb
  chan : CString
  deriving DecidableEq, Repr

namespace CfCommand

open CfChannels

def exec (command : CfCommand) (t : CfChannels) : CfChannels × List CfReply :=
  match command.verb with
  | .block => t.oChanfixBlock command.chan
  | .unblock => t.oChanfixUnblock command.chan
  | .alert => t.oChanfixAlert command.chan
  | .unalert => t.oChanfixUnalert command.chan

def step (t : CfChannels) (command : CfCommand) : Except Empty CfChannels :=
  .ok (command.exec t).1

def succeeds (command : CfCommand) (t : CfChannels) : Prop :=
  .successfulOn ∈ (command.exec t).2

def Marked (t : CfChannels) (chan : CString) (bit : Nat) : Prop :=
  ∀ spelling, lcase spelling = lcase chan →
    ∃ flags, t.getCfChanFlags spelling = some flags ∧ flags.has bit = true

def Unmarked (t : CfChannels) (chan : CString) (bit : Nat) : Prop :=
  ∀ spelling, lcase spelling = lcase chan →
    ∀ flags, t.getCfChanFlags spelling = some flags → flags.has bit = false

/-- `add_chanfix` adds no channel with a spelling of the name. -/
def Refused (t : CfChannels) (chan : CString) (type : Nat) : Prop :=
  ∀ (view : ChanfixView) (s : Chanfix) (chptr : ChannelId) (ch : Channel),
    view.channelFlags = t.flagsOf → s.chans.channel.cell chptr = some ch →
      lcase ch.name = lcase chan →
        s.addChanfix view chptr type = .ok (s, false)

def Effective (command : CfCommand) (after : CfChannels) : Prop :=
  match command.verb with
  | .block => Marked after command.chan cfChanBlock ∧
      ∀ type, Refused after command.chan type
  | .unblock => Unmarked after command.chan cfChanBlock
  | .alert => Marked after command.chan cfChanAlert ∧
      Refused after command.chan cfStatusManfix
  | .unalert => Unmarked after command.chan cfChanAlert

def Truthful (t : CfChannels) (command : CfCommand) : Prop :=
  command.succeeds t → command.Effective (command.exec t).1

def UpdatesByName (t : CfChannels) (command : CfCommand) : Prop :=
  Chans.validChname command.chan = true ∧
    ∃ flags, t.getCfChanFlags command.chan = some flags ∧
      match command.verb with
      | .block => flags.has cfChanBlock = false
      | .unblock => flags.has cfChanBlock = true
      | .alert => flags.has cfChanAlert = false
      | .unalert => False

def Lowered (t : CfChannels) (command : CfCommand) : Prop :=
  UpdatesByName t command → lcase command.chan = command.chan

end CfCommand

namespace CfChannels

variable {t : CfChannels} {chan : CString} {flags : Word}

theorem rowOf_eq_some {name : CString} {row : CfChannelRow} :
    t.rowOf name = some row ↔ row ∈ t.rows ∧ row.chname = name :=
  t.names.findKey_eq_some_iff

theorem flagsOf_updateFlags {test : CfChannelRow → Bool} {row : CfChannelRow}
    (only : ∀ other ∈ t.rows, test other = true ↔ other = row)
    (listed : row ∈ t.rows) (name : CString) :
    (t.updateFlags test flags).flagsOf name =
      if name = row.chname then some flags else t.flagsOf name := by
  have changed : ∀ old ∈ t.rows, old.chname = name →
      (t.updateFlags test flags).rowOf name =
        some (if test old then { old with flags } else old) := by
    intro old inside named
    refine rowOf_eq_some.mpr ⟨List.mem_map_of_mem inside, ?_⟩
    split
    · exact named
    · exact named
  unfold flagsOf
  cases found : t.rowOf name with
  | some old =>
      obtain ⟨inside, named⟩ := rowOf_eq_some.mp found
      rw [changed old inside named]
      by_cases same : old = row
      · subst same
        rw [if_pos ((only old inside).mpr rfl), if_pos named.symm]
        rfl
      · have apart : name ≠ row.chname := by
          intro equal
          exact same (t.names.eq_of_key inside listed (named.trans equal))
        rw [if_neg (fun hit => same ((only old inside).mp hit)), if_neg apart]
  | none =>
      have apart : name ≠ row.chname := by
        intro equal
        have there := rowOf_eq_some.mpr ⟨listed, equal.symm⟩
        rw [found] at there
        cases there
      have still : (t.updateFlags test flags).rowOf name = none := by
        refine findKey_eq_none_iff.mpr fun after member named => ?_
        obtain ⟨old, inside, rfl⟩ := List.mem_map.mp member
        refine findKey_eq_none_iff.mp found old inside ?_
        split at named
        · exact named
        · exact named
      rw [still, if_neg apart]

theorem exists_of_getCfChanFlags (found : t.getCfChanFlags chan = some flags) :
    ∃ row ∈ t.rows, row.chname = lcase chan ∧ row.flags = flags := by
  obtain ⟨row, here, same⟩ := Option.map_eq_some_iff.mp found
  obtain ⟨listed, named⟩ := rowOf_eq_some.mp here
  exact ⟨row, listed, named, same⟩

theorem flagsOf_update_lowered {old : Word}
    (found : t.getCfChanFlags chan = some old) (lowered : lcase chan = chan)
    (name : CString) :
    (t.updateFlags (·.chname == chan) flags).flagsOf name =
      if name = lcase chan then some flags else t.flagsOf name := by
  obtain ⟨row, listed, named, -⟩ := exists_of_getCfChanFlags found
  have only : ∀ other ∈ t.rows,
      (other.chname == chan) = true ↔ other = row := by
    intro other inside
    rw [beq_iff_eq]
    constructor
    · intro same
      exact t.names.eq_of_key inside listed
        (same.trans (lowered.symm.trans named.symm))
    · rintro rfl
      exact named.trans lowered
  rw [flagsOf_updateFlags only listed, named]

theorem flagsOf_update_raw (raw : lcase chan ≠ chan) (name : CString) :
    (t.updateFlags (·.chname == chan) flags).flagsOf name = t.flagsOf name := by
  have same : (t.updateFlags (·.chname == chan) flags).rows = t.rows := by
    refine (List.map_congr_left fun row listed => ?_).trans (List.map_id _)
    refine if_neg fun equal => raw ?_
    rw [← beq_iff_eq.mp equal]
    exact t.lowered row listed
  unfold flagsOf rowOf
  rw [same]

theorem flagsOf_update_id {row : CfChannelRow}
    (found : t.rowOf (lcase chan) = some row) (name : CString) :
    (t.updateFlags (·.id == row.id) flags).flagsOf name =
      if name = lcase chan then some flags else t.flagsOf name := by
  obtain ⟨listed, named⟩ := rowOf_eq_some.mp found
  have only : ∀ other ∈ t.rows, (other.id == row.id) = true ↔ other = row := by
    intro other inside
    rw [beq_iff_eq]
    constructor
    · exact t.ids.eq_of_key inside listed
    · rintro rfl
      rfl
  rw [flagsOf_updateFlags only listed, named]

theorem flagsOf_insert (new : t.getCfChanFlags chan = none) (name : CString) :
    (t.insert chan flags).flagsOf name =
      if name = lcase chan then some flags else t.flagsOf name := by
  have missing : t.rowOf (lcase chan) = none := Option.map_eq_none_iff.mp new
  unfold insert
  rw [dif_pos missing]
  unfold flagsOf rowOf findKey
  rw [List.find?_cons]
  by_cases same : name = lcase chan
  · simp [same]
  · simp [same, Ne.symm same]

end CfChannels

namespace CfCommand

open CfChannels

variable {t after : CfChannels} {chan : CString} {flags : Word} {bit : Nat}

theorem marked_of (changed : after.flagsOf (lcase chan) = some flags)
    (has : flags.has bit = true) : Marked after chan bit := by
  intro spelling same
  refine ⟨flags, ?_, has⟩
  rw [getCfChanFlags, same, changed]

theorem Marked.refused_block (marked : Marked t chan cfChanBlock)
    (type : Nat) : Refused t chan type := by
  intro view s chptr ch reads used spelt
  obtain ⟨flags, found, has⟩ := marked ch.name spelt
  unfold Chanfix.addChanfix Chanfix.liveChannel
  rw [used, reads]
  rw [getCfChanFlags] at found
  simp only [bind, Except.bind, found, Option.getD_some, has, if_true]
  split
  · rfl
  · rfl

theorem Marked.refused_alert (marked : Marked t chan cfChanAlert) :
    Refused t chan cfStatusManfix := by
  intro view s chptr ch reads used spelt
  obtain ⟨flags, found, has⟩ := marked ch.name spelt
  unfold Chanfix.addChanfix Chanfix.liveChannel
  rw [used, reads]
  rw [getCfChanFlags] at found
  simp only [bind, Except.bind, found, Option.getD_some, has, and_self, if_true]
  split
  · rfl
  · split
    · rfl
    · rfl

theorem not_marked (found : t.getCfChanFlags chan = some flags)
    (lacks : flags.has bit = false) : ¬Marked t chan bit := by
  intro marked
  obtain ⟨other, here, has⟩ := marked chan rfl
  rw [found] at here
  cases here
  rw [lacks] at has
  cases has

theorem not_unmarked (found : t.getCfChanFlags chan = some flags)
    (has : flags.has bit = true) : ¬Unmarked t chan bit := by
  intro unmarked
  have lacks := unmarked chan rfl flags found
  rw [has] at lacks
  cases lacks

def given (verb : CfVerb) (old : Word) : Word :=
  match verb with
  | .block => old.set cfChanBlock
  | .unblock => old.clear cfChanBlock
  | .alert => old.set cfChanAlert
  | .unalert => old.clear cfChanAlert

def Shows (verb : CfVerb) (found : Option Word) : Prop :=
  match verb with
  | .block => ∃ flags ∈ found, flags.has cfChanBlock = true
  | .unblock => ∀ flags ∈ found, flags.has cfChanBlock = false
  | .alert => ∃ flags ∈ found, flags.has cfChanAlert = true
  | .unalert => ∀ flags ∈ found, flags.has cfChanAlert = false

theorem effective_iff {command : CfCommand} :
    command.Effective t ↔
      Shows command.verb (t.flagsOf (lcase command.chan)) := by
  obtain ⟨verb, chan⟩ := command
  cases verb with
  | block =>
      refine ⟨fun effective => effective.1 chan rfl, fun shows_ => ?_⟩
      obtain ⟨flags, found, has⟩ := shows_
      have marked := marked_of found has
      exact ⟨marked, marked.refused_block⟩
  | unblock =>
      refine ⟨fun effective => effective chan rfl, fun shows_ => ?_⟩
      intro spelling same flags found
      exact shows_ flags (same ▸ found)
  | alert =>
      refine ⟨fun effective => effective.1 chan rfl, fun shows_ => ?_⟩
      obtain ⟨flags, found, has⟩ := shows_
      have marked := marked_of found has
      exact ⟨marked, marked.refused_alert⟩
  | unalert =>
      refine ⟨fun effective => effective chan rfl, fun shows_ => ?_⟩
      intro spelling same flags found
      exact shows_ flags (same ▸ found)

theorem effective_of {command : CfCommand} {old : Word}
    (changed : after.flagsOf (lcase command.chan) =
      some (given command.verb old)) : command.Effective after := by
  obtain ⟨verb, chan⟩ := command
  refine effective_iff.mpr ?_
  rw [changed]
  cases verb <;> simp [Shows, given, cfChanBlock, cfChanAlert]

inductive Did (t : CfChannels) (command : CfCommand) :
    CfChannels × List CfReply → Prop
  /-- Nothing is changed, and no success is reported. -/
  | silent {replies : List CfReply} (other : ¬UpdatesByName t command)
      (quiet : .successfulOn ∉ replies) : Did t command (t, replies)
  /-- The rows with the name as it was given are changed. -/
  | byName {flags : Word} (named : UpdatesByName t command)
      (found : t.getCfChanFlags command.chan = some flags) :
      Did t command
        (t.updateFlags (·.chname == command.chan) (given command.verb flags),
          [.successfulOn])
  /-- The row with the lower-case name is made or changed. -/
  | byRow {after : CfChannels} {replies : List CfReply}
      (other : ¬UpdatesByName t command) (told : .successfulOn ∈ replies)
      (changed : ∀ name, after.flagsOf name =
        if name = lcase command.chan then
          some (given command.verb ((t.flagsOf name).getD 0#32))
        else t.flagsOf name) : Did t command (after, replies)

theorem not_updatesByName {command : CfCommand}
    (missing : t.getCfChanFlags command.chan = none) :
    ¬UpdatesByName t command := by
  rintro ⟨_, flags, found, _⟩
  rw [missing] at found
  cases found

theorem UpdatesByName.tested {command : CfCommand}
    (named : UpdatesByName t command)
    (found : t.getCfChanFlags command.chan = some flags) :
    match command.verb with
    | .block => flags.has cfChanBlock = false
    | .unblock => flags.has cfChanBlock = true
    | .alert => flags.has cfChanAlert = false
    | .unalert => False := by
  obtain ⟨_, other, here, test⟩ := named
  rw [found] at here
  cases here
  exact test

theorem Did.invalid {command : CfCommand}
    (invalid : Chans.validChname command.chan = false) :
    Did t command (t, [.channelInvalid]) := by
  refine .silent ?_ (by decide)
  rintro ⟨valid, _⟩
  rw [invalid] at valid
  cases valid

theorem did_block (t : CfChannels) (chan : CString) :
    Did t ⟨.block, chan⟩ (t.oChanfixBlock chan) := by
  unfold oChanfixBlock
  cases valid : Chans.validChname chan with
  | false => exact .invalid valid
  | true =>
      rw [Bool.not_true, if_neg Bool.false_ne_true]
      cases found : t.getCfChanFlags chan with
      | none =>
          refine .byRow (not_updatesByName found) (by decide) fun name => ?_
          rw [flagsOf_insert found]
          split
          · rename_i same
            rw [same, show t.flagsOf (lcase chan) = none from found]
            rfl
          · rfl
      | some flags =>
          dsimp only
          split
          · rename_i has
            refine .silent (fun named => ?_) (by decide)
            have lacks := named.tested found
            rw [has] at lacks
            cases lacks
          · rename_i lacks
            exact .byName ⟨valid, flags, found,
              Bool.eq_false_of_not_eq_true lacks⟩ found

theorem did_unblock (t : CfChannels) (chan : CString) :
    Did t ⟨.unblock, chan⟩ (t.oChanfixUnblock chan) := by
  unfold oChanfixUnblock
  cases valid : Chans.validChname chan with
  | false => exact .invalid valid
  | true =>
      rw [Bool.not_true, if_neg Bool.false_ne_true]
      cases found : t.getCfChanFlags chan with
      | none => exact .silent (not_updatesByName found) (by decide)
      | some flags =>
          dsimp only
          cases has : flags.has cfChanBlock with
          | true => exact .byName ⟨valid, flags, found, has⟩ found
          | false =>
              refine .silent (fun named => ?_) (by decide)
              have blocked := named.tested found
              rw [has] at blocked
              cases blocked

theorem did_alert (t : CfChannels) (chan : CString) :
    Did t ⟨.alert, chan⟩ (t.oChanfixAlert chan) := by
  unfold oChanfixAlert
  cases valid : Chans.validChname chan with
  | false => exact .invalid valid
  | true =>
      rw [Bool.not_true, if_neg Bool.false_ne_true]
      cases found : t.getCfChanFlags chan with
      | none => exact .silent (not_updatesByName found) (by decide)
      | some flags =>
          dsimp only
          split
          · rename_i has
            refine .silent (fun named => ?_) (by decide)
            have lacks := named.tested found
            rw [has] at lacks
            cases lacks
          · rename_i lacks
            exact .byName ⟨valid, flags, found,
              Bool.eq_false_of_not_eq_true lacks⟩ found

theorem did_unalert (t : CfChannels) (chan : CString) :
    Did t ⟨.unalert, chan⟩ (t.oChanfixUnalert chan) := by
  have never : ¬UpdatesByName t ⟨.unalert, chan⟩ := by
    rintro ⟨_, _, _, impossible⟩
    exact impossible
  unfold oChanfixUnalert
  cases valid : Chans.validChname chan with
  | false => exact .invalid valid
  | true =>
      rw [Bool.not_true, if_neg Bool.false_ne_true]
      cases found : t.rowOf (lcase chan) with
      | none => exact .silent never (by decide)
      | some row =>
          dsimp only
          cases has : row.flags.has cfChanAlert with
          | false => exact .silent never (by decide)
          | true =>
              refine .byRow never (by decide) fun name => ?_
              rw [flagsOf_update_id found]
              split
              · rename_i same
                rw [same, flagsOf, found]
                rfl
              · rfl

theorem did (t : CfChannels) (command : CfCommand) :
    Did t command (command.exec t) := by
  obtain ⟨verb, chan⟩ := command
  cases verb with
  | block => exact did_block t chan
  | unblock => exact did_unblock t chan
  | alert => exact did_alert t chan
  | unalert => exact did_unalert t chan

theorem not_effective_raw {command : CfCommand} {flags : Word}
    (named : UpdatesByName t command)
    (raw : lcase command.chan ≠ command.chan) :
    ¬command.Effective
      (t.updateFlags (·.chname == command.chan) flags) := by
  obtain ⟨verb, chan⟩ := command
  obtain ⟨_, old, found, lacks⟩ := named
  have still : (t.updateFlags (·.chname == chan) flags).getCfChanFlags chan =
      some old := (flagsOf_update_raw raw _).trans found
  cases verb with
  | block => exact fun effective => not_marked still lacks effective.1
  | unblock => exact not_unmarked still lacks
  | alert => exact fun effective => not_marked still lacks effective.1
  | unalert => exact lacks.elim

/-- A success stands for its effect if and only if no row is changed under a
name that is not in lower case. -/
theorem truthful_iff (t : CfChannels) (command : CfCommand) :
    Truthful t command ↔ Lowered t command := by
  unfold Truthful Lowered succeeds
  generalize done : command.exec t = result
  have did := did t command
  rw [done] at did
  cases did with
  | silent other quiet =>
      exact ⟨fun _ named => (other named).elim, fun _ told => (quiet told).elim⟩
  | byName named found =>
      constructor
      · intro truthful _
        by_contra raw
        exact not_effective_raw named raw
          (truthful (List.mem_singleton_self _))
      · intro lowered _
        exact effective_of
          ((flagsOf_update_lowered found (lowered named) _).trans (if_pos rfl))
  | byRow other told changed =>
      exact ⟨fun _ named => (other named).elim,
        fun _ _ => effective_of ((changed _).trans (if_pos rfl))⟩

/-- In any sequence of commands, all successes stand for their effects if and
only if no command changes a row under a name that is not in lower case. -/
theorem truthful_run_iff (t : CfChannels) (commands : List CfCommand) :
    Meets step Truthful t commands ↔ Meets step Lowered t commands :=
  ⟨Meets.mono fun t command => (truthful_iff t command).mp,
    Meets.mono fun t command => (truthful_iff t command).mpr⟩

/-- A channel that was blocked as `#abc` is unblocked as `#Abc`: this has no
effect, and its success is reported. -/
theorem not_truthful_unblock :
    ¬Meets step Truthful CfChannels.empty
      [⟨.block, "#abc".toList⟩, ⟨.unblock, "#Abc".toList⟩] := by
  intro truthful
  have second := (truthful.2 _ rfl).1
  have named : UpdatesByName (exec ⟨.block, "#abc".toList⟩ .empty).1
      ⟨.unblock, "#Abc".toList⟩ :=
    ⟨by decide, Word.set 0#32 cfChanBlock, by decide, by decide⟩
  have raw : lcase "#Abc".toList ≠ "#Abc".toList := by decide
  exact raw ((truthful_iff _ _).mp second named)

end CfCommand

end RatboxServices
