import RatboxServices.Irc.Line
import RatboxServices.Lib.Ids
import RatboxServices.Net.JoinAgree
import Mathlib.Data.Finset.Card

namespace RatboxServices

open CString

/-! The scores of ChanFix: samples of opped users go into `cf_temp_score` and
from there, one timestamp at a time, into `cf_score`. -/

structure ChanfixConfig where
  minClients : Nat
  clientNeedsIdent : Bool
  clientNeedsDns : Bool
  minServers : Nat
  minUsers : Nat
  deriving DecidableEq, Repr

/-- A row of `cf_temp_score`, without its id. -/
structure TempScore where
  chname : CString
  userhost : CString
  timestamp : Int
  dayts : Int
  deriving DecidableEq, Repr

/-- A row of `cf_score`, without its id. -/
structure Score where
  channelId : Nat
  userhostId : Nat
  timestamp : Int
  dayts : Int
  deriving DecidableEq, Repr

structure ScoreDb where
  tempScore : List TempScore
  channel : Ids CString
  userhost : Ids CString
  score : List Score

/-- How an event ends the program: on a `NULL` that is read as a number, or on
a statement that fails. -/
inductive ScoreStop where
  | nullValue
  | problem
  deriving DecidableEq, Repr

/-- The value that `%lu` prints. -/
def ulong (value : Int) : Int :=
  value % 18446744073709551616

/-- `lcase`. -/
def lcase (text : CString) : CString :=
  (strlcpy State.bufSize text).map toLower

namespace State

/-- `is_network_split`. -/
def isNetworkSplit (config : ChanfixConfig) (s : State) : Bool :=
  (decide (0 < config.minServers) &&
    decide (s.clients.serverList.countP (fun server =>
      match s.clients.client.cell server with
      | some client => client.isEob
      | none => false) < config.minServers)) ||
  (decide (0 < config.minUsers) &&
    decide (s.clients.userList.length < config.minUsers))

def userhostLen : Nat := userLen + hostLen + 1

def isScored (config : ChanfixConfig) (client : Client) (user : User) : Bool :=
  !(config.clientNeedsIdent && firstIs (· == '~') user.username) &&
    !(config.clientNeedsDns && client.flags.has flagsNodns)

/-- `user@host` in its buffer, in lower case. -/
def scoredUserhost (user : User) : CString :=
  (strlcpy (userhostLen + 1) (user.username ++ "@".toList ++ user.host)).map
    toLower

/-- The row that `collect_channel_scores` inserts for a member. -/
def memberScore (config : ChanfixConfig) (s : State) (chname : CString)
    (timestamp dayts : Int) (msptr : MemberId) : Option TempScore := do
  let member ← s.chans.member.cell msptr
  let client ← s.clients.client.cell member.clientP
  match client.part with
  | .user user =>
      if isScored config client user then
        some ⟨lcase chname, scoredUserhost user, ulong timestamp, dayts⟩
      else none
  | _ => none

/-- `collect_channel_scores`. -/
def collectChannelScores (config : ChanfixConfig) (s : State) (ch : Channel)
    (timestamp dayts : Int) : List TempScore :=
  ch.usersOpped.filterMap (s.memberScore config ch.name timestamp dayts)

/-- `DAYS_SINCE_EPOCH`, as an `unsigned int`. -/
def daysSinceEpoch (now : Int) : Int :=
  now.tdiv 86400 % 4294967296

def collectScores (config : ChanfixConfig) (s : State) (timestamp : Int) :
    List TempScore :=
  s.chans.channelList.flatMap fun chptr =>
    match s.chans.channel.cell chptr with
    | some ch =>
        if config.minClients ≤ ch.users.length && !ch.usersOpped.isEmpty then
          s.collectChannelScores config ch timestamp (daysSinceEpoch timestamp)
        else []
    | none => []

end State

namespace ScoreDb

def empty : ScoreDb := ⟨[], .empty, .empty, []⟩

def intern (db : ScoreDb) : ScoreDb :=
  { db with
    channel := db.channel.addAll (db.tempScore.map TempScore.chname)
    userhost := db.userhost.addAll (db.tempScore.map TempScore.userhost) }

/-- A row with the ids of its names, which both may be `NULL`. -/
def joined (db : ScoreDb) (row : TempScore) :
    Option Nat × Option Nat × Int × Int :=
  (db.channel.find row.chname, db.userhost.find row.userhost, row.timestamp,
    row.dayts)

/-- The columns of `cf_score` are not `NULL`. -/
def scoreRow : Option Nat × Option Nat × Int × Int → Except ScoreStop Score
  | (some channel, some userhost, timestamp, dayts) =>
      .ok ⟨channel, userhost, timestamp, dayts⟩
  | _ => .error .problem

def selected (minTs : Int) (db : ScoreDb) :
    List (Option Nat × Option Nat × Int × Int) :=
  ((db.tempScore.filter fun row => row.timestamp == ulong minTs).map
    db.joined).dedup

def move (minTs : Int) (db : ScoreDb) : Except ScoreStop ScoreDb := do
  let db := db.intern
  let rows ← (db.selected minTs).mapM scoreRow
  .ok { db with
    score := db.score ++ rows
    tempScore := db.tempScore.filter fun row =>
      !(row.timestamp == ulong minTs) }

/-- The turns that are left; `SELECT MIN, MAX` gives `NULL` for an empty
table. -/
def collate : Nat → ScoreDb → Except ScoreStop ScoreDb
  | 0, db => .ok db
  | turns + 1, db =>
      match (db.tempScore.map TempScore.timestamp).min?,
          (db.tempScore.map TempScore.timestamp).max? with
      | some low, some high =>
          if atoi (formatInt low) = atoi (formatInt high) then .ok db
          else db.move (atoi (formatInt low)) >>= collate turns
      | _, _ => .error .nullValue

structure Event where
  config : ChanfixConfig
  network : State
  now : Int

/-- What the event inserts into `cf_temp_score`. -/
def Event.collected (event : Event) : List TempScore :=
  if event.network.isNetworkSplit event.config then []
  else event.network.collectScores event.config event.now

def collect (db : ScoreDb) (event : Event) : ScoreDb :=
  { db with tempScore := db.tempScore ++ event.collected }

/-- `e_chanfix_score_channels`. -/
def eChanfixScoreChannels (db : ScoreDb) (event : Event) :
    Except ScoreStop ScoreDb :=
  if event.network.isNetworkSplit event.config then .ok db
  else (db.collect event).collate 5

abbrev Sample := CString × CString × Int

def sampleOf (row : TempScore) : Sample :=
  (row.chname, row.userhost, row.timestamp)

/-- The row of `cf_score` says that there was this sample. -/
def represents (db : ScoreDb) (sample : Sample) (row : Score) : Bool :=
  db.channel.find sample.1 == some row.channelId &&
    db.userhost.find sample.2.1 == some row.userhostId &&
      row.timestamp == sample.2.2

def scoresOf (db : ScoreDb) (sample : Sample) : List Score :=
  db.score.filter (db.represents sample)

/-- The sample is in one row of `cf_score` or in `cf_temp_score`, and not in
both. -/
def Represented (db : ScoreDb) (sample : Sample) : Prop :=
  ((db.scoresOf sample).length = 1 ∧
    ∀ row ∈ db.tempScore, sampleOf row ≠ sample) ∨
  (db.scoresOf sample = [] ∧ ∃ row ∈ db.tempScore, sampleOf row = sample)

def stamps (db : ScoreDb) : Finset Int :=
  (db.tempScore.map TempScore.timestamp).toFinset

/-- The oldest timestamps were moved: as many as there were turns, and never
the newest. -/
def Moved (turns : Nat) (db after : ScoreDb) : Prop :=
  ∃ moved ⊆ db.stamps,
    moved.card = min turns (db.stamps.card - 1) ∧
    (∀ old ∈ moved, ∀ young ∈ db.stamps, young ∉ moved → old < young) ∧
    after.tempScore = db.tempScore.filter fun row =>
      decide (row.timestamp ∉ moved)

structure Inv (samples : Sample → Prop) (db : ScoreDb) : Prop where
  stamped : ∀ row ∈ db.tempScore, 0 ≤ row.timestamp ∧
    row.timestamp < 2147483648 ∧
    row.dayts = State.daysSinceEpoch row.timestamp
  days : ∀ row ∈ db.score, row.dayts = State.daysSinceEpoch row.timestamp
  nodup : db.score.Nodup
  apart : ∀ row ∈ db.score, ∀ temp ∈ db.tempScore,
    row.timestamp ≠ temp.timestamp
  kept : ∀ sample, samples sample →
    (∃ row ∈ db.tempScore, sampleOf row = sample) ∨
      ∃ row ∈ db.score, db.represents sample row = true

theorem represents_iff {db : ScoreDb} {sample : Sample} {row : Score} :
    db.represents sample row = true ↔
      db.channel.find sample.1 = some row.channelId ∧
        db.userhost.find sample.2.1 = some row.userhostId ∧
          row.timestamp = sample.2.2 := by
  simp [represents, and_assoc]

namespace Inv

variable {samples : Sample → Prop} {db : ScoreDb} {sample : Sample}

theorem score_eq (inv : Inv samples db) {first second : Score}
    (here : first ∈ db.score) (there : second ∈ db.score)
    (one : db.represents sample first = true)
    (two : db.represents sample second = true) : first = second := by
  obtain ⟨channel, userhost, stamp⟩ := represents_iff.mp one
  obtain ⟨channel', userhost', stamp'⟩ := represents_iff.mp two
  have day := inv.days first here
  have day' := inv.days second there
  obtain ⟨c, u, t, d⟩ := first
  obtain ⟨c', u', t', d'⟩ := second
  rw [channel, Option.some.injEq] at channel'
  rw [userhost, Option.some.injEq] at userhost'
  simp only at channel' userhost' stamp stamp' day day'
  subst channel' userhost' stamp stamp' day day'
  rfl

theorem represented (inv : Inv samples db) (collected : samples sample) :
    db.Represented sample := by
  have never : ∀ row ∈ db.score, db.represents sample row = true →
      ∀ temp ∈ db.tempScore, sampleOf temp ≠ sample := by
    intro row listed same temp there equal
    obtain ⟨-, -, stamp⟩ := represents_iff.mp same
    exact inv.apart row listed temp there (stamp.trans (by rw [← equal]; rfl))
  obtain ⟨temp, there, equal⟩ | ⟨row, listed, same⟩ := inv.kept sample collected
  · refine Or.inr ⟨?_, temp, there, equal⟩
    unfold scoresOf
    rw [List.filter_eq_nil_iff]
    intro row listed same
    exact never row listed same temp there equal
  · refine Or.inl ⟨?_, never row listed same⟩
    have inside : row ∈ db.scoresOf sample := List.mem_filter.mpr ⟨listed, same⟩
    have nodup : (db.scoresOf sample).Nodup := inv.nodup.filter _
    have all : ∀ other ∈ db.scoresOf sample, other = row := by
      intro other member
      obtain ⟨there, also⟩ := List.mem_filter.mp member
      exact inv.score_eq there listed also same
    have few : (db.scoresOf sample).length ≤ [row].length :=
      (List.subperm_of_subset nodup fun other member =>
        List.mem_singleton.mpr (all other member)).length_le
    rw [List.length_singleton] at few
    have some_ : 0 < (db.scoresOf sample).length :=
      List.length_pos_of_mem inside
    omega

end Inv

/-- A row of `cf_score` as it was selected. -/
def selectedRow (row : Score) : Option Nat × Option Nat × Int × Int :=
  (some row.channelId, some row.userhostId, row.timestamp, row.dayts)

theorem mapM_selectedRow (rows : List Score) :
    (rows.map selectedRow).mapM scoreRow = .ok rows := by
  induction rows with
  | nil => rfl
  | cons row rest ih =>
      rw [List.map_cons, List.mapM_cons, ih]
      rfl

theorem exists_joined (db : ScoreDb) {row : TempScore}
    (listed : row ∈ db.tempScore) :
    ∃ score, selectedRow score = db.intern.joined row ∧
      db.intern.represents (sampleOf row) score = true := by
  obtain ⟨channel, named⟩ : ∃ id, db.intern.channel.find row.chname = some id :=
    Ids.exists_find_addAll (List.mem_map_of_mem listed)
  obtain ⟨userhost, hosted⟩ :
      ∃ id, db.intern.userhost.find row.userhost = some id :=
    Ids.exists_find_addAll (List.mem_map_of_mem listed)
  refine ⟨⟨channel, userhost, row.timestamp, row.dayts⟩, ?_, ?_⟩
  · simp [selectedRow, joined, named, hosted]
  · exact represents_iff.mpr ⟨named, hosted, rfl⟩

theorem represents_intern {db : ScoreDb} {sample : Sample} {row : Score}
    (same : db.represents sample row = true) :
    db.intern.represents sample row = true := by
  obtain ⟨channel, userhost, stamp⟩ := represents_iff.mp same
  exact represents_iff.mpr
    ⟨Ids.find_addAll channel, Ids.find_addAll userhost, stamp⟩

theorem exists_selected (db : ScoreDb) (minTs : Int) :
    ∃ rows : List Score, db.intern.selected minTs = rows.map selectedRow := by
  have all : ∀ row ∈ db.intern.selected minTs, row ∈ Set.range selectedRow := by
    intro row listed
    obtain ⟨temp, inside, rfl⟩ := List.mem_map.mp (List.mem_dedup.mp listed)
    obtain ⟨score, same, -⟩ := db.exists_joined (List.mem_of_mem_filter inside)
    exact ⟨score, same⟩
  obtain ⟨rows, same⟩ : db.intern.selected minTs ∈
      Set.range (List.map selectedRow) := by
    rw [Set.range_list_map]
    exact all
  exact ⟨rows, same.symm⟩

theorem ulong_of_range {value : Int} (low : 0 ≤ value)
    (high : value < 2147483648) : ulong value = value := by
  unfold ulong
  omega

section Turn

variable {samples : Sample → Prop} {db : ScoreDb} {minTs : Int}
  {rows : List Score}

def movedDb (db : ScoreDb) (minTs : Int) (rows : List Score) : ScoreDb :=
  { db.intern with
    score := db.score ++ rows
    tempScore := db.tempScore.filter fun row => !(row.timestamp == minTs) }

theorem move_eq (low : 0 ≤ minTs) (high : minTs < 2147483648)
    (selected : db.intern.selected minTs = rows.map selectedRow) :
    db.move minTs = .ok (db.movedDb minTs rows) := by
  unfold ScoreDb.move
  dsimp only
  rw [selected, mapM_selectedRow, ulong_of_range low high]
  rfl

theorem mem_selected_iff (low : 0 ≤ minTs) (high : minTs < 2147483648)
    (selected : db.intern.selected minTs = rows.map selectedRow)
    (row : Score) :
    row ∈ rows ↔ ∃ temp ∈ db.tempScore, temp.timestamp = minTs ∧
      selectedRow row = db.intern.joined temp := by
  have there : row ∈ rows ↔ selectedRow row ∈ db.intern.selected minTs := by
    rw [selected]
    refine ⟨List.mem_map_of_mem, fun listed => ?_⟩
    obtain ⟨other, inside, same⟩ := List.mem_map.mp listed
    obtain ⟨c, u, t, d⟩ := row
    obtain ⟨c', u', t', d'⟩ := other
    simp only [selectedRow, Prod.mk.injEq, Option.some.injEq] at same
    obtain ⟨rfl, rfl, rfl, rfl⟩ := same
    exact inside
  rw [there, ScoreDb.selected, List.mem_dedup, List.mem_map,
    ulong_of_range low high]
  constructor
  · rintro ⟨temp, inside, same⟩
    obtain ⟨listed, stamp⟩ := List.mem_filter.mp inside
    exact ⟨temp, listed, by simpa using stamp, same.symm⟩
  · rintro ⟨temp, listed, stamp, same⟩
    exact ⟨temp, List.mem_filter.mpr ⟨listed, by simpa using stamp⟩, same.symm⟩

theorem Inv.stamp_selected (inv : Inv samples db) (low : 0 ≤ minTs)
    (high : minTs < 2147483648)
    (selected : db.intern.selected minTs = rows.map selectedRow) {row : Score}
    (listed : row ∈ rows) : row.timestamp = minTs ∧
      row.dayts = State.daysSinceEpoch row.timestamp := by
  obtain ⟨temp, inside, here, same⟩ :=
    (mem_selected_iff low high selected row).mp listed
  obtain ⟨c, u, t, d⟩ := row
  simp only [selectedRow, joined, Prod.mk.injEq] at same
  obtain ⟨-, -, rfl, rfl⟩ := same
  exact ⟨here, (inv.stamped temp inside).2.2⟩

theorem Inv.move (inv : Inv samples db) (low : 0 ≤ minTs)
    (high : minTs < 2147483648)
    (pending : ∃ row ∈ db.tempScore, row.timestamp = minTs) :
    ∃ rows, db.move minTs = .ok (db.movedDb minTs rows) ∧
      Inv samples (db.movedDb minTs rows) := by
  obtain ⟨rows, selected⟩ := db.exists_selected minTs
  have stamp := fun row (listed : row ∈ rows) =>
    inv.stamp_selected low high selected listed
  obtain ⟨waiting, there, stamped⟩ := pending
  refine ⟨rows, move_eq low high selected, ?_, ?_, ?_, ?_, ?_⟩
  · intro row listed
    exact inv.stamped row (List.mem_of_mem_filter listed)
  · intro row listed
    obtain old | new := List.mem_append.mp listed
    · exact inv.days row old
    · exact (stamp row new).2
  · refine List.nodup_append.mpr ⟨inv.nodup, ?_, ?_⟩
    · have distinct : (rows.map selectedRow).Nodup := by
        rw [← selected]
        exact List.nodup_dedup _
      exact distinct.of_map
    · rintro row old _ new rfl
      exact inv.apart row old waiting there
        ((stamp row new).1.trans stamped.symm)
  · intro row listed temp left
    obtain ⟨inside, other⟩ := List.mem_filter.mp left
    obtain old | new := List.mem_append.mp listed
    · exact inv.apart row old temp inside
    · intro same
      have equal : temp.timestamp = minTs := same.symm.trans (stamp row new).1
      simp [equal] at other
  · intro sample collected
    obtain ⟨temp, listed, same⟩ | ⟨row, listed, same⟩ :=
      inv.kept sample collected
    · by_cases here : temp.timestamp = minTs
      · obtain ⟨score, joined, also⟩ := db.exists_joined listed
        refine Or.inr ⟨score, List.mem_append_right _ ?_, same ▸ also⟩
        exact (mem_selected_iff low high selected score).mpr
          ⟨temp, listed, here, joined⟩
      · exact Or.inl ⟨temp, List.mem_filter.mpr ⟨listed, by simpa using here⟩,
          same⟩
    · exact Or.inr ⟨row, List.mem_append_left _ listed, represents_intern same⟩

theorem mem_stamps {stamp : Int} :
    stamp ∈ db.stamps ↔ ∃ row ∈ db.tempScore, row.timestamp = stamp := by
  simp [stamps]

theorem stamps_movedDb : (db.movedDb minTs rows).stamps = db.stamps.erase minTs := by
  ext stamp
  rw [mem_stamps, Finset.mem_erase, mem_stamps]
  constructor
  · rintro ⟨row, listed, rfl⟩
    obtain ⟨inside, other⟩ := List.mem_filter.mp listed
    exact ⟨by simpa using other, row, inside, rfl⟩
  · rintro ⟨other, row, inside, rfl⟩
    exact ⟨row, List.mem_filter.mpr ⟨inside, by simpa using other⟩, rfl⟩

end Turn

section Turns

variable {samples : Sample → Prop}

theorem Moved.none {turns : Nat} {db : ScoreDb} (few : turns = 0 ∨ db.stamps.card ≤ 1) :
    Moved turns db db := by
  refine ⟨∅, by simp, ?_, by simp, by simp⟩
  rw [Finset.card_empty]
  omega

theorem exists_bounds {db : ScoreDb} (given : db.tempScore ≠ []) :
    ∃ low high, (db.tempScore.map TempScore.timestamp).min? = some low ∧
      (db.tempScore.map TempScore.timestamp).max? = some high ∧
      low ∈ db.stamps ∧ high ∈ db.stamps ∧
      ∀ stamp ∈ db.stamps, low ≤ stamp ∧ stamp ≤ high := by
  obtain ⟨low, least⟩ : ∃ low, (db.tempScore.map
      TempScore.timestamp).min? = some low := by
    rw [← Option.isSome_iff_exists, List.isSome_min?_iff]
    simpa using given
  obtain ⟨high, greatest⟩ : ∃ high, (db.tempScore.map
      TempScore.timestamp).max? = some high := by
    rw [← Option.isSome_iff_exists, List.isSome_max?_iff]
    simpa using given
  obtain ⟨lowest, below⟩ := List.min?_eq_some_iff.mp least
  obtain ⟨highest, above⟩ := List.max?_eq_some_iff.mp greatest
  refine ⟨low, high, least, greatest, List.mem_toFinset.mpr lowest,
    List.mem_toFinset.mpr highest, fun stamp listed => ?_⟩
  have inside := List.mem_toFinset.mp listed
  exact ⟨below stamp inside, above stamp inside⟩

theorem Moved.cons {turns : Nat} {low : Int} {rows : List Score}
    {db after : ScoreDb} (oldest : low ∈ db.stamps)
    (more : ∃ high ∈ db.stamps, high ≠ low)
    (least : ∀ stamp ∈ db.stamps, low ≤ stamp)
    (rest : Moved turns (db.movedDb low rows) after) :
    Moved (turns + 1) db after := by
  obtain ⟨moved, subset, count, order, left⟩ := rest
  rw [stamps_movedDb] at subset count order
  have new : low ∉ moved := fun inside => by
    simpa using subset inside
  obtain ⟨high, inside, other⟩ := more
  refine ⟨insert low moved, ?_, ?_, ?_, ?_⟩
  · rw [Finset.insert_subset_iff]
    exact ⟨oldest, subset.trans (Finset.erase_subset _ _)⟩
  · have size : (db.stamps.erase low).card = db.stamps.card - 1 :=
      Finset.card_erase_of_mem oldest
    have nonempty : 0 < (db.stamps.erase low).card :=
      Finset.card_pos.mpr ⟨high, Finset.mem_erase.mpr ⟨other, inside⟩⟩
    rw [Finset.card_insert_of_notMem new, count]
    omega
  · intro old listed young waiting absent
    rw [Finset.mem_insert, not_or] at absent
    obtain rfl | listed := Finset.mem_insert.mp listed
    · exact lt_of_le_of_ne (least young waiting) (Ne.symm absent.1)
    · exact order old listed young
        (Finset.mem_erase.mpr ⟨absent.1, waiting⟩) absent.2
  · rw [left]
    unfold movedDb
    rw [List.filter_filter]
    congr 1
    funext row
    by_cases same : row.timestamp = low <;> simp [same]

theorem Inv.collate {db : ScoreDb} (inv : Inv samples db)
    (given : db.tempScore ≠ []) (turns : Nat) :
    ∃ after, db.collate turns = .ok after ∧ Inv samples after ∧
      Moved turns db after := by
  induction turns generalizing db with
  | zero => exact ⟨db, rfl, inv, .none (Or.inl rfl)⟩
  | succ turns ih =>
      obtain ⟨low, high, least, greatest, lowest, highest, within⟩ :=
        exists_bounds given
      have read : ∀ stamp ∈ db.stamps, 0 ≤ stamp ∧ stamp < 2147483648 ∧
          atoi (formatInt stamp) = stamp := by
        intro stamp listed
        obtain ⟨row, inside, rfl⟩ := mem_stamps.mp listed
        obtain ⟨positive, small, -⟩ := inv.stamped row inside
        exact ⟨positive, small, atoi_formatInt (by omega) small⟩
      obtain ⟨positive, small, readLow⟩ := read low lowest
      have readHigh := (read high highest).2.2
      unfold ScoreDb.collate
      rw [least, greatest]
      dsimp only
      rw [readLow, readHigh]
      by_cases last : low = high
      · rw [if_pos last]
        refine ⟨db, rfl, inv, .none (Or.inr ?_)⟩
        rw [Finset.card_le_one]
        intro one here two there
        have first := within one here
        have second := within two there
        omega
      · rw [if_neg last]
        obtain ⟨rows, moved, kept⟩ :=
          inv.move positive small (mem_stamps.mp lowest)
        have again : (db.movedDb low rows).tempScore ≠ [] := by
          obtain ⟨row, inside, same⟩ := mem_stamps.mp highest
          have other : row.timestamp ≠ low := fun equal =>
            last (equal.symm.trans same)
          exact List.ne_nil_of_mem
            (List.mem_filter.mpr ⟨inside, by simpa using other⟩)
        obtain ⟨after, rest, final, done⟩ := ih kept again
        rw [moved]
        refine ⟨after, rest, final, done.cons lowest ?_ ?_⟩
        · exact ⟨high, highest, fun equal => last equal.symm⟩
        · exact fun stamp listed => (within stamp listed).1

end Turns

/-- What makes an event work as meant: the clock is within 31 bits and not at a
time that was moved already, and there is something in `cf_temp_score`. -/
def Steady (db : ScoreDb) (event : Event) : Prop :=
  event.network.isNetworkSplit event.config = false →
    0 ≤ event.now ∧ event.now < 2147483648 ∧
    (∀ row ∈ db.score, row.timestamp ≠ event.now) ∧
    (db.collect event).tempScore ≠ []

instance (db : ScoreDb) (event : Event) : Decidable (Steady db event) :=
  inferInstanceAs (Decidable (_ → _))

def Collected (events : List Event) (sample : Sample) : Prop :=
  ∃ event ∈ events, ∃ row ∈ event.collected, sampleOf row = sample

theorem collected_stamped {event : Event} {row : TempScore}
    (listed : row ∈ event.collected) :
    row.timestamp = ulong event.now ∧
      row.dayts = State.daysSinceEpoch event.now := by
  unfold Event.collected at listed
  split at listed
  · cases listed
  · obtain ⟨chptr, -, inside⟩ := List.mem_flatMap.mp listed
    split at inside
    · split at inside
      · obtain ⟨msptr, -, given⟩ := List.mem_filterMap.mp inside
        unfold State.memberScore at given
        obtain ⟨member, -, given⟩ := Option.bind_eq_some_iff.mp given
        obtain ⟨client, -, given⟩ := Option.bind_eq_some_iff.mp given
        split at given
        · split at given
          · cases given
            exact ⟨rfl, rfl⟩
          · cases given
        · cases given
      · cases inside
    · cases inside

section Events

variable {db : ScoreDb} {event : Event} {events : List Event}

theorem Inv.mono {samples fewer : Sample → Prop} (inv : Inv samples db)
    (sub : ∀ sample, fewer sample → samples sample) : Inv fewer db :=
  ⟨inv.stamped, inv.days, inv.nodup, inv.apart,
    fun sample given => inv.kept sample (sub sample given)⟩

theorem Inv.collect (inv : Inv (Collected events) db)
    (steady : Steady db event)
    (whole : event.network.isNetworkSplit event.config = false) :
    Inv (Collected (events ++ [event])) (db.collect event) := by
  obtain ⟨low, high, new, -⟩ := steady whole
  have stamped : ∀ row ∈ event.collected, row.timestamp = event.now ∧
      row.dayts = State.daysSinceEpoch row.timestamp := by
    intro row listed
    obtain ⟨stamp, day⟩ := collected_stamped listed
    rw [ulong_of_range low high] at stamp
    exact ⟨stamp, day.trans (by rw [stamp])⟩
  refine ⟨?_, inv.days, inv.nodup, ?_, ?_⟩
  · intro row listed
    obtain old | fresh := List.mem_append.mp listed
    · exact inv.stamped row old
    · obtain ⟨stamp, day⟩ := stamped row fresh
      exact ⟨stamp ▸ low, stamp ▸ high, day⟩
  · intro row listed temp there
    obtain old | fresh := List.mem_append.mp there
    · exact inv.apart row listed temp old
    · rw [(stamped temp fresh).1]
      exact new row listed
  · rintro sample ⟨source, here, row, listed, same⟩
    obtain earlier | last := List.mem_append.mp here
    · obtain ⟨temp, there, equal⟩ | stored :=
        inv.kept sample ⟨source, earlier, row, listed, same⟩
      · exact Or.inl ⟨temp, List.mem_append_left _ there, equal⟩
      · exact Or.inr stored
    · rw [List.mem_singleton.mp last] at listed
      exact Or.inl ⟨row, List.mem_append_right _ listed, same⟩

theorem Inv.turns (inv : Inv (Collected events) db) (steady : Steady db event)
    (whole : event.network.isNetworkSplit event.config = false)
    (turns : Nat) :
    ∃ after, (db.collect event).collate turns = .ok after ∧
      Inv (Collected (events ++ [event])) after ∧
      Moved turns (db.collect event) after :=
  (inv.collect steady whole).collate (steady whole).2.2.2 turns

theorem Inv.step (inv : Inv (Collected events) db)
    (steady : Steady db event) :
    ∃ after, db.eChanfixScoreChannels event = .ok after ∧
      Inv (Collected (events ++ [event])) after := by
  unfold eChanfixScoreChannels
  cases whole : event.network.isNetworkSplit event.config with
  | true =>
      refine ⟨db, rfl, inv.mono ?_⟩
      rintro sample ⟨source, here, row, listed, same⟩
      obtain earlier | last := List.mem_append.mp here
      · exact ⟨source, earlier, row, listed, same⟩
      · rw [List.mem_singleton.mp last, Event.collected, whole] at listed
        cases listed
  | false =>
      obtain ⟨after, moved, kept, -⟩ := inv.turns steady whole 5
      exact ⟨after, moved, kept⟩

theorem Inv.run {more : List Event} (inv : Inv (Collected events) db)
    (meets : Meets eChanfixScoreChannels Steady db more) :
    ∃ after, run eChanfixScoreChannels db more = .ok after ∧
      Inv (Collected (events ++ more)) after := by
  induction more generalizing db events with
  | nil => exact ⟨db, rfl, by simpa using inv⟩
  | cons event rest ih =>
      obtain ⟨next, stepped, kept⟩ := inv.step meets.1
      obtain ⟨after, reached, final⟩ := ih kept (meets.2 next stepped)
      refine ⟨after, run_cons_eq_ok.mpr ⟨next, stepped, reached⟩, ?_⟩
      simpa using final

theorem inv_empty : Inv (Collected []) empty := by
  refine ⟨?_, ?_, List.nodup_nil, ?_, ?_⟩
  · intro row listed
    cases listed
  · intro row listed
    cases listed
  · intro row listed
    cases listed
  · rintro sample ⟨event, listed, -⟩
    cases listed

/-- No sample is lost or duplicated, after any event and after any turn in
it; the turns move the oldest timestamps one by one, never the newest. -/
theorem scores_of_run
    (meets : Meets eChanfixScoreChannels Steady empty events) :
    ∃ db, run eChanfixScoreChannels empty events = .ok db ∧
      (∀ sample, Collected events sample → db.Represented sample) ∧
      ∀ before event after t, events = before ++ event :: after →
        run eChanfixScoreChannels empty before = .ok t →
        event.network.isNetworkSplit event.config = false →
        ∀ turns ≤ 5, ∃ u, (t.collect event).collate turns = .ok u ∧
          Moved turns (t.collect event) u ∧
          ∀ sample, Collected (before ++ [event]) sample →
            u.Represented sample := by
  obtain ⟨db, reached, inv⟩ := inv_empty.run meets
  refine ⟨db, reached, fun sample given => inv.represented given, ?_⟩
  rintro before event after t rfl there whole turns -
  obtain ⟨t', again, kept⟩ := inv_empty.run meets.left
  rw [there] at again
  cases again
  obtain ⟨u, moved, final, oldest⟩ :=
    kept.turns (meets.after there).1 whole turns
  exact ⟨u, moved, oldest, fun sample given => final.represented given⟩

end Events

def plainConfig : ChanfixConfig := ⟨1, true, false, 0, 0⟩

/-- Two events with an opped user: the first of them is moved by the second. -/
theorem scores_of_run_opped :
    ∃ s, run (State.step .quiet) (State.start [State.chanserv] 300)
        (State.channelWith "@") = .ok s ∧
      Meets eChanfixScoreChannels Steady empty
        [⟨plainConfig, s, 1000⟩, ⟨plainConfig, s, 1300⟩] ∧
      ∃ db, run eChanfixScoreChannels empty
          [⟨plainConfig, s, 1000⟩, ⟨plainConfig, s, 1300⟩] = .ok db ∧
        db.Represented ("#a".toList, "u@h".toList, 1000) := by
  have observed : (run (State.step .quiet)
      (State.start [State.chanserv] 300) (State.channelWith "@")).toOption.map
      (fun s => (decide (Meets eChanfixScoreChannels Steady empty
        [⟨plainConfig, s, 1000⟩, ⟨plainConfig, s, 1300⟩]),
        Event.collected ⟨plainConfig, s, 1000⟩)) =
      some (true, [⟨"#a".toList, "u@h".toList, 1000, 0⟩]) := by
    decide +kernel
  obtain ⟨s, reached, seen⟩ := Except.exists_of_observed observed
  obtain ⟨steady, collected⟩ := Prod.mk.inj seen
  have meets := of_decide_eq_true steady
  obtain ⟨db, ran, represented, -⟩ := scores_of_run meets
  refine ⟨s, reached, meets, db, ran, represented _ ?_⟩
  exact ⟨_, List.mem_cons_self, _, collected ▸ List.mem_cons_self, rfl⟩

/-- Where nobody is opped yet, `NULL` is read as a number. -/
theorem not_scores_of_run_opless :
    ∃ s, run (State.step .quiet) (State.start [State.chanserv] 300)
        (State.channelWith "") = .ok s ∧
      run eChanfixScoreChannels empty
        [⟨plainConfig, s, 1000⟩] = .error .nullValue := by
  have observed : (run (State.step .quiet)
      (State.start [State.chanserv] 300) (State.channelWith "")).toOption.map
      (fun s => match run eChanfixScoreChannels empty
          [⟨plainConfig, s, 1000⟩] with
        | .error reason => some reason
        | .ok _ => none) = some (some .nullValue) := by
    decide +kernel
  obtain ⟨s, reached, seen⟩ := Except.exists_of_observed observed
  refine ⟨s, reached, ?_⟩
  split at seen
  · rename_i reason stopped
    rw [stopped, Option.some.inj seen]
  · cases seen

end ScoreDb

end RatboxServices
