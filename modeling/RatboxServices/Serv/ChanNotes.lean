import Mathlib.Data.List.Sort
import RatboxServices.Serv.ChanfixFlags
import RatboxServices.Serv.Ignore

namespace RatboxServices

open CString

/-! The notes on channels (`notes.c`), and the commands of ChanFix that make,
show and delete them. -/

-- notes.h, by bit index
def noteCfAlert : Nat := 0
def noteCfBlock : Nat := 1

/-- A row of `chan_note`. -/
structure ChanNote where
  id : Nat
  chname : CString
  timestamp : Int
  author : CString
  flags : Word
  text : CString
  deriving DecidableEq, Repr

/-- A note that was given with `ADDNOTE` or `ALERT`, which the source does not
keep apart: the name in lower case, and the text that was given. -/
structure GivenNote where
  id : Nat
  name : CString
  text : CString
  alert : Bool
  deriving DecidableEq, Repr

inductive NoteStop where
  | undefined
  deriving DecidableEq, Repr

structure NoteState where
  channels : CfChannels
  notes : List ChanNote
  given : List GivenNote

/-- `vsnprintf` of a format without arguments. -/
def vsnprintfText : CString → Option CString
  | [] => some []
  | [c] => if c = '%' then none else some [c]
  | c :: d :: rest =>
      if c = '%' then
        if d = '%' then (vsnprintfText rest).map ('%' :: ·) else none
      else (vsnprintfText (d :: rest)).map (c :: ·)

theorem vsnprintfText_plain {text : CString} (plain : '%' ∉ text) :
    vsnprintfText text = some text := by
  induction text with
  | nil => rfl
  | cons c rest ih =>
      obtain ⟨first, later⟩ := not_or.mp (mt List.mem_cons.mpr plain)
      cases rest with
      | nil => rw [vsnprintfText, if_neg (Ne.symm first)]
      | cons d rest =>
          rw [vsnprintfText, if_neg (Ne.symm first), ih later,
            Option.map_some]

/-- What `DELETE` leaves of the channels when those without flags and scores are
dropped. -/
def CfChannels.dropIdle (idle : CfChannelRow → Bool) (t : CfChannels) :
    CfChannels where
  rows := t.rows.filter fun row => !(row.flags == 0#32 && idle row)
  lowered := fun row there => t.lowered row (List.mem_of_mem_filter there)
  names := t.names.filter _
  ids := t.ids.filter _

namespace NoteState

def start : NoteState where
  channels := .empty
  notes := []
  given := []

def nextNoteId (s : NoteState) : Nat :=
  (s.notes.map ChanNote.id).foldr max 0 + 1

/-- `INSERT INTO chan_note`. -/
def insertNote (chan author : CString) (flags : Word) (text : CString)
    (now : Int) (s : NoteState) : NoteState :=
  { s with
    notes := s.notes ++
      [{ id := s.nextNoteId
         chname := lcase chan
         timestamp := now
         author := author
         flags := flags
         text := strlcpy State.bufSize text }] }

/-- `add_channote` with a format and no arguments. -/
def addChannote (chan author : CString) (flags : Word) (format : CString)
    (now : Int) (s : NoteState) : Except NoteStop NoteState :=
  match vsnprintfText format with
  | none => .error .undefined
  | some text => .ok (s.insertNote chan author flags text now)

/-- `delete_channote`, whose `%d` takes a `long` for an `int`. -/
def deleteChannote (noteId : Int) (s : NoteState) : NoteState :=
  if noteId < 1 then s
  else
    let kept (id : Nat) : Bool := (id : Int) != noteId.bmod 4294967296
    { s with
      notes := s.notes.filter fun note => kept note.id
      given := s.given.filter fun note => kept note.id }

/-- What an operator is shown by `INFO`. -/
inductive InfoLine where
  | channelInvalid
  | chanservChannel
  | noDataFor
  | infoOn
  | noteShow (note : ChanNote)
  | noteNone
  | autoFixed
  | chanFixed
  | fixCycle (cycle : Nat)
  | isBlocked
  | hasAlert
  | endOfInfo
  deriving DecidableEq, Repr

/-- `ORDER BY timestamp DESC`. -/
def newestFirst (left right : ChanNote) : Bool :=
  decide (right.timestamp ≤ left.timestamp)

def isOrdinary (chan : CString) (note : ChanNote) : Bool :=
  note.chname == chan && !note.flags.has noteCfAlert &&
    !note.flags.has noteCfBlock

/-- `list_channotes` from the start, which shows the oldest note first. -/
def listChannotes (maxNotes : Nat) (chan : CString) (s : NoteState) :
    List InfoLine :=
  let rows :=
    ((s.notes.filter (isOrdinary chan)).insertionSort
      (newestFirst · ·)).take maxNotes
  if rows.isEmpty then [.noteNone] else rows.reverse.map .noteShow

/-- `show_alert_note`. -/
def showAlertNote (chan : CString) (s : NoteState) : List InfoLine :=
  match s.notes.filter fun note =>
      note.chname == chan && note.flags.has noteCfAlert with
  | [note] => [.noteShow note]
  | _ => []

def textOf (params : List CString) : CString :=
  List.intercalate [' '] params

def give (chan text : CString) (alert : Bool) (s : NoteState) : NoteState :=
  { s with given := ⟨s.nextNoteId, lcase chan, text, alert⟩ :: s.given }

/-- `o_chanfix_addnote`. -/
def oChanfixAddnote (now : Int) (author chan : CString)
    (params : List CString) (s : NoteState) : Except NoteStop NoteState :=
  if !Chans.validChname chan then .ok s
  else
    (s.give chan (textOf params) false).addChannote chan author 0#32
      (rebuildParams (chan :: params) 1) now

/-- `o_chanfix_alert`. -/
def oChanfixAlert (now : Int) (author chan : CString) (params : List CString)
    (s : NoteState) : Except NoteStop NoteState :=
  let (channels, replies) := s.channels.oChanfixAlert chan
  let s := { s with channels := channels }
  if .successfulOn ∈ replies then
    (s.give chan (textOf params) true).addChannote chan author
      (Word.set 0#32 noteCfAlert) (rebuildParams (chan :: params) 1) now
  else .ok s

/-- `o_chanfix_unalert`. -/
def oChanfixUnalert (chan : CString) (s : NoteState) : NoteState :=
  let (channels, replies) := s.channels.oChanfixUnalert chan
  if .successfulOn ∈ replies then
    { channels := channels
      notes := s.notes.map fun note =>
        if note.chname == lcase chan then
          { note with flags := note.flags.clear noteCfAlert }
        else note
      given := s.given.filter fun note =>
        !(note.alert && note.name == lcase chan) }
  else { s with channels := channels }

/-- `o_chanfix_delnote`. The number is an `unsigned long` for the test. -/
def oChanfixDelnote (param : CString) (s : NoteState) : NoteState :=
  let (noteId, rest) := strtol param
  if rest.isEmpty ∧ noteId ≠ 0 then s.deleteChannote noteId else s

/-- `o_chanfix_info`. The channel may be registered with ChanServ, and ChanFix
may be fixing it, by itself or not. -/
def oChanfixInfo (registered : Bool) (maxNotes : Nat)
    (cfptr : Option (Bool × Nat)) (chan : CString) (s : NoteState) :
    List InfoLine :=
  if !Chans.validChname chan then [.channelInvalid]
  else if registered then [.chanservChannel]
  else
    match s.channels.getCfChanFlags chan with
    | none => [.noDataFor]
    | some flags =>
        [.infoOn] ++ s.listChannotes maxNotes chan ++
          (match cfptr with
            | none => []
            | some (autofix, cycle) =>
                [if autofix then .autoFixed else .chanFixed,
                  .fixCycle cycle]) ++
          (if flags.has cfChanBlock then [.isBlocked] else []) ++
          (if flags.has cfChanAlert then
            .hasAlert :: s.showAlertNote chan
          else []) ++
          [.endOfInfo]

end NoteState

/-- What happens to the tables. A note of another command or of a fix is
formatted from its own text. -/
inductive NoteAct where
  | addnote (author chan : CString) (params : List CString)
  | alert (author chan : CString) (params : List CString)
  | unalert (chan : CString)
  | block (chan : CString)
  | unblock (chan : CString)
  | delnote (param : CString)
  | other (author chan text : CString)
  | scored (chan : CString)
  | collated (idle : CfChannelRow → Bool)

structure NoteEvent where
  now : Int
  act : NoteAct

namespace NoteState

def step (s : NoteState) (event : NoteEvent) : Except NoteStop NoteState :=
  match event.act with
  | .addnote author chan params =>
      s.oChanfixAddnote event.now author chan params
  | .alert author chan params => s.oChanfixAlert event.now author chan params
  | .unalert chan => .ok (s.oChanfixUnalert chan)
  | .block chan =>
      .ok { s with channels := (s.channels.oChanfixBlock chan).1 }
  | .unblock chan =>
      .ok { s with channels := (s.channels.oChanfixUnblock chan).1 }
  | .delnote param => .ok (s.oChanfixDelnote param)
  | .other author chan text =>
      .ok (s.insertNote chan author 0#32 text event.now)
  | .scored chan => .ok { s with channels := s.channels.insert chan 0#32 }
  | .collated idle => .ok { s with channels := s.channels.dropIdle idle }

variable {s t : NoteState} {chan author text : CString} {flags : Word}
  {now : Int} {note : ChanNote} {g : GivenNote}

structure Stored (g : GivenNote) (note : ChanNote) : Prop where
  id : note.id = g.id
  chname : note.chname = g.name
  text : note.text = g.text
  alert : note.flags.has noteCfAlert = g.alert

structure Inv (s : NoteState) : Prop where
  ids : UniqueKeys ChanNote.id s.notes
  noBlock : ∀ note ∈ s.notes, note.flags.has noteCfBlock = false
  /-- A channel with an alert note has the alert flag. -/
  flagged : ∀ note ∈ s.notes, note.flags.has noteCfAlert = true →
    ∃ flags, s.channels.flagsOf note.chname = some flags ∧
      flags.has cfChanAlert = true
  /-- It has one such note. -/
  single : ∀ first ∈ s.notes, ∀ second ∈ s.notes,
    first.flags.has noteCfAlert = true → second.flags.has noteCfAlert = true →
    first.chname = second.chname → first = second
  stored : ∀ g ∈ s.given, ∃ note ∈ s.notes, Stored g note
  names : ∀ g ∈ s.given, Chans.validChname g.name = true ∧
    lcase g.name = g.name

theorem Inv.start : Inv start where
  ids := UniqueKeys.nil
  noBlock := by simp [NoteState.start]
  flagged := by simp [NoteState.start]
  single := by simp [NoteState.start]
  stored := by simp [NoteState.start]
  names := by simp [NoteState.start]

theorem lt_nextNoteId (listed : note ∈ s.notes) : note.id < s.nextNoteId :=
  Nat.lt_succ_of_le
    (List.le_max_of_le (List.mem_map_of_mem listed) (Nat.le_refl note.id))

theorem validChname_lcase (valid : Chans.validChname chan = true) :
    Chans.validChname (lcase chan) = true := by
  unfold Chans.validChname at valid ⊢
  simp only [Bool.and_eq_true, decide_eq_true_eq] at valid ⊢
  obtain ⟨short, first⟩ := valid
  constructor
  · unfold lcase strlcpy
    rw [List.length_map, List.length_take]
    omega
  · cases chan with
    | nil => exact first
    | cons c rest =>
        have hash : c = '#' := by simpa [firstIs] using first
        subst hash
        rfl

theorem Inv.of_channels (inv : Inv s) {channels : CfChannels}
    (kept : ∀ name flags, s.channels.flagsOf name = some flags →
      flags.has cfChanAlert = true →
      ∃ new, channels.flagsOf name = some new ∧ new.has cfChanAlert = true) :
    Inv { s with channels := channels } where
  ids := inv.ids
  noBlock := inv.noBlock
  flagged := by
    intro note listed alert
    obtain ⟨flags, found, has⟩ := inv.flagged note listed alert
    exact kept _ flags found has
  single := inv.single
  stored := inv.stored
  names := inv.names

theorem Inv.insertNote (inv : Inv s)
    (noBlock : flags.has noteCfBlock = false)
    (flagged : flags.has noteCfAlert = true →
      ∃ set, s.channels.flagsOf (lcase chan) = some set ∧
        set.has cfChanAlert = true)
    (single : flags.has noteCfAlert = true → ∀ note ∈ s.notes,
      note.chname = lcase chan → note.flags.has noteCfAlert = false)
    (author text : CString) (now : Int) :
    Inv (s.insertNote chan author flags text now) where
  ids := by
    have more : UniqueKeys ChanNote.id
        ({ id := s.nextNoteId, chname := lcase chan, timestamp := now,
           author := author, flags := flags,
           text := strlcpy State.bufSize text } :: s.notes) :=
      UniqueKeys.cons_iff.mpr
        ⟨fun old listed => Nat.ne_of_lt (lt_nextNoteId listed), inv.ids⟩
    exact more.perm (List.perm_append_singleton _ _).symm
  noBlock := by
    intro note listed
    obtain old | new := List.mem_append.mp listed
    · exact inv.noBlock note old
    · rw [List.mem_singleton.mp new]
      exact noBlock
  flagged := by
    intro note listed alert
    obtain old | new := List.mem_append.mp listed
    · exact inv.flagged note old alert
    · rw [List.mem_singleton.mp new] at alert ⊢
      exact flagged alert
  single := by
    intro first one second two alert again same
    obtain old | new := List.mem_append.mp one
    · obtain old' | new' := List.mem_append.mp two
      · exact inv.single first old second old' alert again same
      · rw [List.mem_singleton.mp new'] at again same
        rw [single again first old same] at alert
        cases alert
    · obtain old' | new' := List.mem_append.mp two
      · rw [List.mem_singleton.mp new] at alert same
        rw [single alert second old' same.symm] at again
        cases again
      · rw [List.mem_singleton.mp new, List.mem_singleton.mp new']
  stored := by
    intro g there
    obtain ⟨note, listed, stored⟩ := inv.stored g there
    exact ⟨note, List.mem_append_left _ listed, stored⟩
  names := inv.names

theorem Inv.give_insertNote
    (inv : Inv (s.insertNote chan author flags text now))
    (valid : Chans.validChname chan = true)
    (fits : text.length < State.bufSize) :
    Inv ((s.give chan text (flags.has noteCfAlert)).insertNote chan author
      flags text now) where
  ids := inv.ids
  noBlock := inv.noBlock
  flagged := inv.flagged
  single := inv.single
  stored := by
    intro g there
    obtain new | old := List.mem_cons.mp there
    · refine ⟨_, List.mem_append_right _ (List.mem_singleton_self _), ?_⟩
      rw [new]
      exact ⟨rfl, rfl, List.take_of_length_le (Nat.le_sub_one_of_lt fits), rfl⟩
    · exact inv.stored g old
  names := by
    intro g there
    obtain new | old := List.mem_cons.mp there
    · rw [new]
      exact ⟨validChname_lcase valid, lcase_lcase chan⟩
    · exact inv.names g old

def PlainText (params : List CString) : Prop :=
  '%' ∉ textOf params ∧ (textOf params).length < State.bufSize

/-- What is asked of a command: a plain text, and for an alert the channel in
lower case. -/
def Plain (event : NoteEvent) : Prop :=
  match event.act with
  | .addnote _ _ params => PlainText params
  | .alert _ chan params => PlainText params ∧ lcase chan = chan
  | _ => True

theorem addChannote_plain {params : List CString} (plain : PlainText params) :
    s.addChannote chan author flags (rebuildParams (chan :: params) 1) now =
      .ok (s.insertNote chan author flags (textOf params) now) := by
  have whole : rebuildParams (chan :: params) 1 = textOf params := by
    have fits := plain.2
    rw [rebuildParams, List.drop_one, List.tail_cons]
    exact List.take_of_length_le (Nat.le_sub_one_of_lt fits)
  rw [addChannote, whole, vsnprintfText_plain plain.1]

theorem Inv.addnote (inv : Inv s) {params : List CString}
    (plain : PlainText params) (now : Int) (author chan : CString) :
    ∃ t, s.oChanfixAddnote now author chan params = .ok t ∧ Inv t := by
  unfold oChanfixAddnote
  split
  · exact ⟨s, rfl, inv⟩
  · rename_i valid
    rw [Bool.not_eq_true, Bool.not_eq_false'] at valid
    rw [addChannote_plain plain]
    refine ⟨_, rfl, ?_⟩
    have inserted : Inv (s.insertNote chan author 0#32 (textOf params) now) :=
      inv.insertNote (Word.has_zero _) (by simp) (by simp) _ _ _
    have given := inserted.give_insertNote valid plain.2
    rwa [Word.has_zero] at given

theorem oChanfixAlert_cases (channels : CfChannels) (chan : CString) :
    (CfReply.successfulOn ∉ (channels.oChanfixAlert chan).2 ∧
      (channels.oChanfixAlert chan).1 = channels) ∨
    (Chans.validChname chan = true ∧ ∃ flags,
      channels.getCfChanFlags chan = some flags ∧
      flags.has cfChanAlert = false ∧
      channels.oChanfixAlert chan =
        (channels.updateFlags (·.chname == chan) (flags.set cfChanAlert),
          [.successfulOn])) := by
  unfold CfChannels.oChanfixAlert
  split
  · simp
  rename_i valid
  rw [Bool.not_eq_true, Bool.not_eq_false'] at valid
  cases found : channels.getCfChanFlags chan with
  | none => simp
  | some flags =>
      dsimp only
      split
      · simp
      · rename_i lacks
        exact Or.inr ⟨valid, flags, rfl, by simpa using lacks, rfl⟩

theorem Inv.alert (inv : Inv s) {params : List CString}
    (plain : PlainText params) (lowered : lcase chan = chan) (now : Int)
    (author : CString) :
    ∃ t, s.oChanfixAlert now author chan params = .ok t ∧ Inv t := by
  unfold oChanfixAlert
  obtain ⟨quiet, same⟩ | ⟨valid, flags, found, lacks, done⟩ :=
    oChanfixAlert_cases s.channels chan
  · dsimp only
    rw [if_neg quiet, same]
    exact ⟨s, rfl, inv⟩
  · rw [done]
    dsimp only
    rw [if_pos (List.mem_singleton_self _), addChannote_plain plain]
    refine ⟨_, rfl, ?_⟩
    let channels :=
      s.channels.updateFlags (·.chname == chan) (flags.set cfChanAlert)
    have changed : ∀ name, channels.flagsOf name =
        if name = lcase chan then some (flags.set cfChanAlert)
        else s.channels.flagsOf name :=
      CfChannels.flagsOf_update_lowered found lowered
    have kept : Inv { s with channels := channels } := by
      apply inv.of_channels
      intro name old there has
      rw [changed]
      split
      · exact ⟨_, rfl, by simp [cfChanAlert]⟩
      · exact ⟨old, there, has⟩
    have first : ∀ note ∈ s.notes, note.chname = lcase chan →
        note.flags.has noteCfAlert = false := by
      intro note listed named
      by_contra alert
      obtain ⟨set, there, has⟩ :=
        inv.flagged note listed (by simpa using alert)
      rw [named, show s.channels.flagsOf (lcase chan) = some flags from found]
        at there
      cases there
      rw [lacks] at has
      cases has
    have bit : (Word.set 0#32 noteCfAlert).has noteCfAlert = true := by
      decide
    have inserted : Inv (NoteState.insertNote chan author
        (Word.set 0#32 noteCfAlert) (textOf params) now
        { s with channels := channels }) := by
      apply kept.insertNote
      · decide
      · exact fun _ =>
          ⟨_, (changed _).trans (if_pos rfl), by simp [cfChanAlert]⟩
      · exact fun _ => first
    have given := inserted.give_insertNote valid plain.2
    rwa [bit] at given

theorem oChanfixUnalert_cases (channels : CfChannels) (chan : CString) :
    (CfReply.successfulOn ∉ (channels.oChanfixUnalert chan).2 ∧
      (channels.oChanfixUnalert chan).1 = channels) ∨
    ∃ row, channels.rowOf (lcase chan) = some row ∧
      channels.oChanfixUnalert chan =
        (channels.updateFlags (·.id == row.id) (row.flags.clear cfChanAlert),
          [.successfulOn]) := by
  unfold CfChannels.oChanfixUnalert
  split
  · simp
  cases found : channels.rowOf (lcase chan) with
  | none => simp
  | some row =>
      dsimp only
      split
      · simp
      · exact Or.inr ⟨row, rfl, rfl⟩

/-- What `UNALERT` makes of a note. -/
def unalerted (chan : CString) (note : ChanNote) : ChanNote :=
  if note.chname == lcase chan then
    { note with flags := note.flags.clear noteCfAlert }
  else note

theorem unalerted_frame (chan : CString) (note : ChanNote) :
    (unalerted chan note).id = note.id ∧
      (unalerted chan note).chname = note.chname ∧
      (unalerted chan note).text = note.text ∧
      (unalerted chan note).flags.has noteCfBlock =
        note.flags.has noteCfBlock := by
  unfold unalerted
  split
  · exact ⟨rfl, rfl, rfl, by simp [noteCfAlert, noteCfBlock]⟩
  · exact ⟨rfl, rfl, rfl, rfl⟩

theorem alert_unalerted (chan : CString) (note : ChanNote) :
    (unalerted chan note).flags.has noteCfAlert =
      (note.flags.has noteCfAlert && !(note.chname == lcase chan)) := by
  unfold unalerted
  split
  · rename_i here
    simp [here]
  · rename_i elsewhere
    simp [elsewhere]

theorem unalerted_of_alert
    (alert : (unalerted chan note).flags.has noteCfAlert = true) :
    unalerted chan note = note ∧ note.flags.has noteCfAlert = true ∧
      note.chname ≠ lcase chan := by
  rw [alert_unalerted, Bool.and_eq_true, Bool.not_eq_true'] at alert
  obtain ⟨has, elsewhere⟩ := alert
  refine ⟨?_, has, by simpa using elsewhere⟩
  rw [unalerted, elsewhere, if_neg Bool.false_ne_true]

theorem Inv.unalert (inv : Inv s) (chan : CString) :
    Inv (s.oChanfixUnalert chan) := by
  unfold oChanfixUnalert
  obtain ⟨quiet, same⟩ | ⟨row, found, done⟩ :=
    oChanfixUnalert_cases s.channels chan
  · dsimp only
    rw [if_neg quiet, same]
    exact inv
  rw [done]
  dsimp only
  rw [if_pos (List.mem_singleton_self _)]
  change Inv { s with
    channels := _, notes := s.notes.map (unalerted chan), given := _ }
  exact {
    ids := by
      have same : (s.notes.map (unalerted chan)).map ChanNote.id =
          s.notes.map ChanNote.id := by
        rw [List.map_map]
        exact List.map_congr_left fun note _ => (unalerted_frame chan note).1
      unfold UniqueKeys
      rw [same]
      exact inv.ids
    noBlock := by
      intro note listed
      obtain ⟨old, before, rfl⟩ := List.mem_map.mp listed
      rw [(unalerted_frame chan old).2.2.2]
      exact inv.noBlock old before
    flagged := by
      intro note listed alert
      obtain ⟨old, before, rfl⟩ := List.mem_map.mp listed
      obtain ⟨same, has, elsewhere⟩ := unalerted_of_alert alert
      obtain ⟨flags, there, set⟩ := inv.flagged old before has
      rw [same]
      refine ⟨flags, ?_, set⟩
      rw [CfChannels.flagsOf_update_id found, if_neg elsewhere, there]
    single := by
      intro first one second two alert again same
      obtain ⟨old, before, rfl⟩ := List.mem_map.mp one
      obtain ⟨old', before', rfl⟩ := List.mem_map.mp two
      obtain ⟨kept, has, _⟩ := unalerted_of_alert alert
      obtain ⟨kept', has', _⟩ := unalerted_of_alert again
      rw [kept, kept'] at same ⊢
      exact inv.single old before old' before' has has' same
    stored := by
      intro g there
      obtain ⟨before, live⟩ := List.mem_filter.mp there
      obtain ⟨note, listed, stored⟩ := inv.stored g before
      obtain ⟨id, chname, text, _⟩ := unalerted_frame chan note
      refine ⟨_, List.mem_map_of_mem listed, id.trans stored.id,
        chname.trans stored.chname, text.trans stored.text, ?_⟩
      rw [alert_unalerted, stored.alert, stored.chname]
      cases alert : g.alert with
      | false => rfl
      | true => simpa [alert] using live
    names := fun g there => inv.names g (List.mem_of_mem_filter there) }

theorem Inv.deleteChannote (inv : Inv s) (noteId : Int) :
    Inv (s.deleteChannote noteId) := by
  unfold NoteState.deleteChannote
  split
  · exact inv
  · dsimp only
    exact {
      ids := inv.ids.filter _
      noBlock := fun note there =>
        inv.noBlock note (List.mem_of_mem_filter there)
      flagged := fun note there =>
        inv.flagged note (List.mem_of_mem_filter there)
      single := fun first one second two =>
        inv.single first (List.mem_of_mem_filter one) second
          (List.mem_of_mem_filter two)
      stored := by
        intro g there
        obtain ⟨before, kept⟩ := List.mem_filter.mp there
        obtain ⟨note, listed, stored⟩ := inv.stored g before
        refine ⟨note, List.mem_filter.mpr ⟨listed, ?_⟩, stored⟩
        rw [stored.id]
        exact kept
      names := fun g there => inv.names g (List.mem_of_mem_filter there) }

theorem alert_of_exec (command : CfCommand)
    (verb : command.verb = .block ∨ command.verb = .unblock)
    {channels : CfChannels} {name : CString}
    (there : channels.flagsOf name = some flags)
    (has : flags.has cfChanAlert = true) :
    ∃ new, (command.exec channels).1.flagsOf name = some new ∧
      new.has cfChanAlert = true := by
  have given : ∀ old : Word, old.has cfChanAlert = true →
      (CfCommand.given command.verb old).has cfChanAlert = true := by
    intro old set
    obtain block | unblock := verb
    · rw [block]
      simp [CfCommand.given, set]
    · rw [unblock]
      change (old.clear cfChanBlock).has cfChanAlert = true
      rw [Word.has_clear, set]
      decide
  generalize done : command.exec channels = result
  have did := CfCommand.did channels command
  rw [done] at did
  cases did with
  | silent => exact ⟨flags, there, has⟩
  | byName named found =>
      by_cases lowered : lcase command.chan = command.chan
      · dsimp only
        rw [CfChannels.flagsOf_update_lowered found lowered]
        split
        · rename_i same
          rw [same, show channels.flagsOf (lcase command.chan) = _ from found,
            Option.some.injEq] at there
          exact ⟨_, rfl, given _ (there ▸ has)⟩
        · exact ⟨flags, there, has⟩
      · dsimp only
        rw [CfChannels.flagsOf_update_raw lowered]
        exact ⟨flags, there, has⟩
  | byRow other told changed =>
      dsimp only
      rw [changed]
      split
      · rw [there]
        exact ⟨_, rfl, given flags has⟩
      · exact ⟨flags, there, has⟩

theorem flagsOf_dropIdle {idle : CfChannelRow → Bool} {channels : CfChannels}
    {name : CString} (there : channels.flagsOf name = some flags)
    (has : flags.has cfChanAlert = true) :
    (channels.dropIdle idle).flagsOf name = some flags := by
  obtain ⟨row, found, same⟩ := Option.map_eq_some_iff.mp there
  obtain ⟨listed, named⟩ := CfChannels.rowOf_eq_some.mp found
  have kept : (channels.dropIdle idle).rowOf name = some row := by
    apply CfChannels.rowOf_eq_some.mpr
    refine ⟨List.mem_filter.mpr ⟨listed, ?_⟩, named⟩
    have some_ : (row.flags == 0#32) = false := by
      rw [beq_eq_false_iff_ne]
      intro zero
      rw [← same, zero] at has
      simp at has
    rw [some_]
    rfl
  rw [CfChannels.flagsOf, kept, Option.map_some, same]

theorem Inv.step (inv : Inv s) {event : NoteEvent} (plain : Plain event) :
    ∃ t, s.step event = .ok t ∧ Inv t := by
  obtain ⟨now, act⟩ := event
  cases act with
  | addnote author chan params => exact inv.addnote plain now author chan
  | alert author chan params => exact inv.alert plain.1 plain.2 now author
  | unalert chan => exact ⟨_, rfl, inv.unalert chan⟩
  | block chan =>
      exact ⟨_, rfl, inv.of_channels fun name flags there has =>
        alert_of_exec ⟨.block, chan⟩ (Or.inl rfl) there has⟩
  | unblock chan =>
      exact ⟨_, rfl, inv.of_channels fun name flags there has =>
        alert_of_exec ⟨.unblock, chan⟩ (Or.inr rfl) there has⟩
  | delnote param =>
      refine ⟨_, rfl, ?_⟩
      unfold oChanfixDelnote
      dsimp only
      split
      · exact inv.deleteChannote _
      · exact inv
  | other author chan text =>
      exact ⟨_, rfl, inv.insertNote (Word.has_zero _) (by simp) (by simp) _ _
        _⟩
  | scored chan =>
      refine ⟨_, rfl, inv.of_channels fun name flags there has => ?_⟩
      cases found : s.channels.getCfChanFlags chan with
      | none =>
          rw [CfChannels.flagsOf_insert found]
          split
          · rename_i same
            rw [same, show s.channels.flagsOf (lcase chan) = _ from found]
              at there
            cases there
          · exact ⟨flags, there, has⟩
      | some old =>
          have present : s.channels.rowOf (lcase chan) ≠ none := by
            intro missing
            rw [CfChannels.getCfChanFlags, CfChannels.flagsOf, missing]
              at found
            cases found
          rw [CfChannels.insert, dif_neg present]
          exact ⟨flags, there, has⟩
  | collated idle =>
      exact ⟨_, rfl, inv.of_channels fun name flags there has =>
        ⟨flags, flagsOf_dropIdle there has, has⟩⟩

theorem mem_take_of_few {list : List ChanNote} (nodup : list.Nodup)
    (sorted : list.Pairwise fun left right => newestFirst left right = true)
    (listed : note ∈ list) {count : Nat}
    (few : (list.filter fun other =>
      decide (other ≠ note) && newestFirst other note).length < count) :
    note ∈ list.take count := by
  obtain ⟨before, after, rfl⟩ := List.append_of_mem listed
  have first : ∀ other ∈ before,
      (decide (other ≠ note) && newestFirst other note) = true := by
    intro other there
    have apart := (List.nodup_append.mp nodup).2.2 other there note
      List.mem_cons_self
    have newer := (List.pairwise_append.mp sorted).2.2 other there note
      List.mem_cons_self
    rw [newer, Bool.and_true, decide_eq_true apart]
  rw [List.filter_append, List.length_append, List.filter_eq_self.mpr first]
    at few
  rw [List.take_append]
  apply List.mem_append_right
  have room : count - before.length = count - before.length - 1 + 1 := by
    omega
  rw [room, List.take_succ_cons]
  exact List.mem_cons_self

instance : IsTrans ChanNote (newestFirst · ·) where
  trans := by
    intro a b c first second
    simp only [newestFirst, decide_eq_true_eq] at first second ⊢
    omega

instance : Std.Total fun left right : ChanNote =>
    newestFirst left right = true where
  total := by
    intro a b
    simp only [newestFirst, decide_eq_true_eq]
    omega

def asNew (s : NoteState) (note : ChanNote) : List ChanNote :=
  (s.notes.filter (isOrdinary note.chname)).filter fun other =>
    decide (other ≠ note) && newestFirst other note

theorem noteShow_of_ordinary (nodup : s.notes.Nodup) (listed : note ∈ s.notes)
    (ordinary : isOrdinary note.chname note = true) {maxNotes : Nat}
    (few : (s.asNew note).length < maxNotes) :
    .noteShow note ∈ s.listChannotes maxNotes note.chname := by
  have inside : note ∈ s.notes.filter (isOrdinary note.chname) :=
    List.mem_filter.mpr ⟨listed, ordinary⟩
  have perm := List.perm_insertionSort (newestFirst · ·)
    (s.notes.filter (isOrdinary note.chname))
  have shown : note ∈ ((s.notes.filter
      (isOrdinary note.chname)).insertionSort
        (newestFirst · ·)).take maxNotes := by
    apply mem_take_of_few
    · exact perm.nodup_iff.mpr (nodup.filter _)
    · exact List.pairwise_insertionSort _ _
    · exact perm.mem_iff.mpr inside
    · rw [(perm.filter _).length_eq]
      exact few
  unfold listChannotes
  dsimp only
  rw [if_neg (by simpa using List.ne_nil_of_mem shown)]
  exact List.mem_map.mpr ⟨note, List.mem_reverse.mpr shown, rfl⟩

theorem noteShow_of_alert (nodup : s.notes.Nodup)
    (single : ∀ other ∈ s.notes, other.chname = note.chname →
      other.flags.has noteCfAlert = true → other = note)
    (listed : note ∈ s.notes) (alert : note.flags.has noteCfAlert = true) :
    .noteShow note ∈ s.showAlertNote note.chname := by
  have one : (s.notes.filter fun other =>
      other.chname == note.chname && other.flags.has noteCfAlert) =
      [note] := by
    have perm : (s.notes.filter fun other =>
        other.chname == note.chname && other.flags.has noteCfAlert).Perm
        [note] := by
      apply (List.perm_ext_iff_of_nodup (nodup.filter _)
        (List.nodup_singleton note)).mpr
      intro other
      rw [List.mem_filter, List.mem_singleton]
      constructor
      · rintro ⟨there, test⟩
        simp only [Bool.and_eq_true, beq_iff_eq] at test
        exact single other there test.1 test.2
      · rintro rfl
        exact ⟨listed, by simp [alert]⟩
    exact List.perm_singleton.mp perm
  unfold showAlertNote
  rw [one]
  exact List.mem_singleton_self _

/-- The note is as it was given, and `INFO` shows it under the name in lower
case: an alert note, and an ordinary one unless too many are as new. -/
structure Shown (s : NoteState) (g : GivenNote) (note : ChanNote) : Prop where
  stored : Stored g note
  alert : g.alert = true → ∀ maxNotes cfptr,
    .noteShow note ∈ s.oChanfixInfo false maxNotes cfptr g.name
  ordinary : g.alert = false → s.channels.getCfChanFlags g.name ≠ none →
    ∀ maxNotes cfptr, (s.asNew note).length < maxNotes →
      .noteShow note ∈ s.oChanfixInfo false maxNotes cfptr g.name

theorem oChanfixInfo_eq {set : Word} (valid : Chans.validChname chan = true)
    (found : s.channels.getCfChanFlags chan = some set) (maxNotes : Nat)
    (cfptr : Option (Bool × Nat)) : ∃ status,
    s.oChanfixInfo false maxNotes cfptr chan =
      [.infoOn] ++ s.listChannotes maxNotes chan ++ status ++
        (if set.has cfChanAlert then .hasAlert :: s.showAlertNote chan
        else []) ++ [.endOfInfo] := by
  unfold oChanfixInfo
  rw [valid, found, Bool.not_true, if_neg Bool.false_ne_true,
    if_neg Bool.false_ne_true]
  dsimp only
  rw [List.append_assoc ([InfoLine.infoOn] ++ s.listChannotes maxNotes chan)]
  exact ⟨_, rfl⟩

theorem Inv.shown (inv : Inv s) (there : g ∈ s.given) :
    ∃ note ∈ s.notes, Shown s g note := by
  obtain ⟨note, listed, stored⟩ := inv.stored g there
  obtain ⟨valid, lowered⟩ := inv.names g there
  have nodup : s.notes.Nodup := inv.ids.of_map
  refine ⟨note, listed, stored, ?_, ?_⟩
  · intro alert maxNotes cfptr
    rw [← stored.alert] at alert
    obtain ⟨set, found, has⟩ := inv.flagged note listed alert
    have shown := noteShow_of_alert nodup (fun other inside same has =>
      inv.single other inside note listed has alert same) listed alert
    rw [stored.chname] at found shown
    have flags : s.channels.getCfChanFlags g.name = some set := by
      rw [CfChannels.getCfChanFlags, lowered, found]
    obtain ⟨status, lines⟩ := oChanfixInfo_eq valid flags maxNotes cfptr
    rw [lines, if_pos has]
    simp [shown]
  · intro ordinary data maxNotes cfptr few
    obtain ⟨set, flags⟩ := Option.ne_none_iff_exists'.mp data
    obtain ⟨status, lines⟩ := oChanfixInfo_eq valid flags maxNotes cfptr
    have test : isOrdinary note.chname note = true := by
      simp [isOrdinary, stored.alert, ordinary, inv.noBlock note listed]
    have shown := noteShow_of_ordinary nodup listed test few
    rw [stored.chname] at shown
    rw [lines]
    simp [shown]

/-- In every run of plain commands, a note that was given is stored and shown
until it is deleted or its alert is taken back. -/
theorem given_shown {events : List NoteEvent}
    (plain : ∀ event ∈ events, Plain event) :
    ∃ s, run step start events = .ok s ∧
      ∀ g ∈ s.given, ∃ note ∈ s.notes, Shown s g note := by
  have meets : Meets step (fun _ => Plain) start events :=
    meets_of_mem (fun event there _ => plain event there) start
  obtain ⟨s, reached, inv⟩ := run_of_meets Inv
    (fun _ _ plain inv => inv.step plain) meets .start
  exact ⟨s, reached, fun g there => inv.shown there⟩

def threeNotes : List NoteEvent :=
  [ ⟨100, .scored "#chan".toList⟩,
    ⟨200, .alert "oper".toList "#chan".toList ["look".toList]⟩,
    ⟨300, .addnote "oper".toList "#Chan".toList ["first".toList]⟩,
    ⟨400, .addnote "oper".toList "#chan".toList ["second".toList]⟩ ]

theorem given_shown_three : ∃ s, run step start threeNotes = .ok s ∧
    s.given.map GivenNote.text =
      ["second".toList, "first".toList, "look".toList] ∧
    ∀ g ∈ s.given, ∃ note ∈ s.notes, Shown s g note := by
  have plain : ∀ event ∈ threeNotes, Plain event := by
    simp only [threeNotes, List.forall_mem_cons]
    exact ⟨trivial, ⟨⟨by decide, by decide⟩, by decide⟩,
      ⟨by decide, by decide⟩, ⟨by decide, by decide⟩, by simp⟩
  obtain ⟨s, reached, shown⟩ := given_shown plain
  have observed : (run step start threeNotes).toOption.map
      (fun s => s.given.map GivenNote.text) =
        some ["second".toList, "first".toList, "look".toList] := by
    decide +kernel
  rw [reached] at observed
  exact ⟨s, reached, Option.some.inj observed, shown⟩

/-- With `max_notes = 1` only the newest note is shown. -/
theorem not_shown_first : ∃ s, run step start threeNotes = .ok s ∧
    ∃ g ∈ s.given, g.text = "first".toList ∧ ∀ note, Stored g note →
      InfoLine.noteShow note ∉ s.oChanfixInfo false 1 none "#chan".toList := by
  have observed : (run step start threeNotes).toOption.map (fun s =>
      (s.given.any fun g => g.text == "first".toList,
        s.oChanfixInfo false 1 none "#chan".toList)) =
      some (true, [.infoOn,
        .noteShow ⟨3, "#chan".toList, 400, "oper".toList, 0#32,
          "second".toList⟩, .hasAlert,
        .noteShow ⟨1, "#chan".toList, 200, "oper".toList,
          Word.set 0#32 noteCfAlert, "look".toList⟩, .endOfInfo]) := by
    decide +kernel
  obtain ⟨s, reached, seen⟩ := Except.exists_of_observed observed
  simp only [Prod.mk.injEq] at seen
  obtain ⟨given, lines⟩ := seen
  obtain ⟨g, there, text⟩ := List.any_eq_true.mp given
  rw [beq_iff_eq] at text
  refine ⟨s, reached, g, there, text, fun note stored shown => ?_⟩
  have same := stored.text
  rw [text] at same
  rw [lines] at shown
  simp only [List.mem_cons, InfoLine.noteShow.injEq, List.not_mem_nil,
    reduceCtorEq, false_or, or_false] at shown
  obtain rfl | rfl := shown
  · exact absurd same (by decide)
  · exact absurd same (by decide)

end NoteState

end RatboxServices
