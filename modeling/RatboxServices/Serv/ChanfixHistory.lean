import Mathlib.Algebra.BigOperators.Group.List.Basic
import RatboxServices.Db.Format
import RatboxServices.Serv.ChanfixFlags
import RatboxServices.Serv.ChanfixScore

namespace RatboxServices

open CString

/-! Once a day, `cf_score` is collated into `cf_score_history`: the samples of a
day become one row for each user of a channel. -/

/-- A row of `cf_score_history`, without its id. -/
structure HistoryRow where
  channelId : Nat
  userhostId : Nat
  dayts : Int
  score : Int
  deriving DecidableEq, Repr

structure HistoryDb where
  score : List Score
  history : List HistoryRow
  userhosts : List Nat
  channels : List CfChannelRow
  deriving DecidableEq, Repr

def Score.ids (row : Score) : Nat × Nat :=
  (row.channelId, row.userhostId)

def HistoryRow.ids (row : HistoryRow) : Nat × Nat :=
  (row.channelId, row.userhostId)

namespace HistoryDb

/-- `CF_DAYSAMPLES` -/
def cfDaysamples : Int := 14

/-- `DAYS_SINCE_EPOCH`, which is a `long`. -/
def today (now : Int) : Int :=
  now.tdiv 86400

/-- `min_dayts`: `MIN` of an empty table is printed as an empty string. -/
def minDayts (now : Int) (score : List Score) : Int :=
  match (score.map Score.dayts).min? with
  | some low => atoi (formatInt low) % 4294967296
  | none => State.daysSinceEpoch now

/-- `SELECT .. count(*) .. WHERE dayts = .. GROUP BY`. -/
def grouped (day : Int) (score : List Score) : List HistoryRow :=
  let ids := (score.filter fun row => row.dayts == day).map Score.ids
  ids.dedup.map fun pair => ⟨pair.1, pair.2, day, ids.count pair⟩

def collateDay (day : Int) (db : HistoryDb) : HistoryDb :=
  { db with
    history := db.history ++ grouped day db.score
    score := db.score.filter fun row => !(row.dayts == day) }

def collate (now : Int) : Nat → HistoryDb → HistoryDb
  | 0, db => db
  | turns + 1, db =>
      let day := minDayts now db.score
      if day = today now ∨ day = 0 then db
      else collate now turns (db.collateDay day)

/-- The oldest day that is kept, which is printed with `%lu`. A number of more
than eighteen digits overruns `TempBuffer`. -/
def cutOff (now : Int) : Except FormatStop Int :=
  let day := ulong (today now - cfDaysamples + 1)
  if day < 10 ^ 18 then .ok day else .error .undefined

/-- `DELETE FROM cf_score_history`. -/
def dropOld (day : Int) (db : HistoryDb) : HistoryDb :=
  { db with
    history := db.history.filter fun row => !decide (row.dayts < day) }

def unused (id : Nat × Nat → Nat) (db : HistoryDb) (given : Nat) : Bool :=
  !((db.score.map fun row => id row.ids).contains given ||
    (db.history.map fun row => id row.ids).contains given)

def cascade (id : Nat × Nat → Nat) (gone : List Nat) (db : HistoryDb) :
    HistoryDb :=
  { db with
    score := db.score.filter fun row => !gone.contains (id row.ids)
    history := db.history.filter fun row => !gone.contains (id row.ids) }

/-- `DELETE FROM cf_userhost`. -/
def dropUserhosts (db : HistoryDb) : HistoryDb :=
  let gone := db.userhosts.filter (db.unused Prod.snd)
  { db.cascade Prod.snd gone with
    userhosts := db.userhosts.filter fun id => !db.unused Prod.snd id }

def idleChannel (db : HistoryDb) (row : CfChannelRow) : Bool :=
  decide (row.flags = 0) && db.unused Prod.fst row.id

/-- `DELETE FROM cf_channel`. -/
def dropChannels (db : HistoryDb) : HistoryDb :=
  let gone := (db.channels.filter db.idleChannel).map CfChannelRow.id
  { db.cascade Prod.fst gone with
    channels := db.channels.filter fun row => !db.idleChannel row }

/-- `e_chanfix_collate_history`. -/
def eChanfixCollateHistory (now : Int) (db : HistoryDb) :
    Except FormatStop HistoryDb := do
  let day ← cutOff now
  let db := (db.collate now 10).dropOld day
  .ok (if (today now).tmod 28 = 0 then db.dropUserhosts.dropChannels else db)

def samples (days : Int → Bool) (ids : Nat × Nat) (score : List Score) : Nat :=
  score.countP fun row => days row.dayts && row.ids == ids

def collated (days : Int → Bool) (ids : Nat × Nat)
    (history : List HistoryRow) : Int :=
  ((history.filter fun row => days row.dayts && row.ids == ids).map
    HistoryRow.score).sum

def total (days : Int → Bool) (ids : Nat × Nat) (db : HistoryDb) : Int :=
  samples days ids db.score + collated days ids db.history

/-- The days that count: today and the `CF_DAYSAMPLES - 1` before it. -/
def recent (now : Int) (day : Int) : Bool :=
  decide (today now - (cfDaysamples - 1) ≤ day)

/-- What is to be left by the event: the totals are the same, and some days
other than today are moved. -/
structure Collated (now : Int) (before after : HistoryDb) : Prop where
  totals : ∀ ids, after.total (recent now) ids = before.total (recent now) ids
  moved : ∃ days : List Int, today now ∉ days ∧
    after.score = before.score.filter (fun row => decide (row.dayts ∉ days)) ∧
    ∀ row ∈ after.history, row ∈ before.history ∨
      row.dayts ∈ days ∧
        row.score = samples (· == row.dayts) row.ids before.score

def turns (now : Int) : Nat → List Score → List Int
  | 0, _ => []
  | more + 1, score =>
      let day := minDayts now score
      if day = today now ∨ day = 0 then []
      else day :: turns now more (score.filter fun row => !(row.dayts == day))

section Totals

variable {days : Int → Bool} {ids : Nat × Nat} {db : HistoryDb} {day now : Int}

theorem samples_split (only : Int → Bool) (score : List Score) :
    samples days ids score =
      samples (fun day => days day && only day) ids score +
        samples days ids (score.filter fun row => !only row.dayts) := by
  unfold samples
  rw [List.countP_filter, List.countP_eq_countP_filter_add score _
    fun row => only row.dayts, List.countP_filter, List.countP_filter]
  congr 1
  refine List.countP_congr fun row _ => ?_
  simp only [Bool.and_eq_true]
  tauto

theorem collated_append (first second : List HistoryRow) :
    collated days ids (first ++ second) =
      collated days ids first + collated days ids second := by
  unfold collated
  rw [List.filter_append, List.map_append, List.sum_append]

theorem sum_count_dedup {Key : Type} [DecidableEq Key] [BEq Key] [LawfulBEq Key]
    (keys : List Key) (key : Key) :
    ((keys.dedup.filter fun other => other == key).map fun other =>
      (keys.count other : Int)).sum = keys.count key := by
  have one : keys.dedup.count key = if key ∈ keys then 1 else 0 := by
    split
    · rename_i listed
      exact List.count_eq_one_of_mem (List.nodup_dedup keys)
        (List.mem_dedup.mpr listed)
    · rename_i absent
      exact List.count_eq_zero_of_not_mem fun listed =>
        absent (List.mem_dedup.mp listed)
  rw [List.filter_beq, List.map_replicate, List.sum_replicate, one]
  split
  · exact one_nsmul _
  · rename_i absent
    rw [List.count_eq_zero_of_not_mem absent]
    rfl

theorem collated_grouped (score : List Score) :
    collated days ids (grouped day score) =
      samples (fun other => days other && other == day) ids score := by
  unfold collated grouped
  dsimp only
  rw [List.filter_map, List.map_map]
  cases counted : days day with
  | true =>
      have same : ((fun row : HistoryRow => days row.dayts && row.ids == ids) ∘
          fun pair : Nat × Nat => (⟨pair.1, pair.2, day,
            ((score.filter fun row => row.dayts == day).map Score.ids).count
              pair⟩ : HistoryRow)) = fun pair => pair == ids := by
        funext pair
        simp [counted, HistoryRow.ids]
      have group := sum_count_dedup
        ((score.filter fun row : Score => row.dayts == day).map Score.ids) ids
      rw [same]
      refine group.trans ?_
      unfold samples
      rw [List.count, List.countP_map, List.countP_filter]
      refine congrArg _ (List.countP_congr fun row _ => ?_)
      simp only [Function.comp_apply, Bool.and_eq_true, beq_iff_eq]
      constructor
      · rintro ⟨own, rfl⟩
        exact ⟨⟨counted, rfl⟩, own⟩
      · rintro ⟨⟨-, rfl⟩, own⟩
        exact ⟨own, rfl⟩
  | false =>
      have none_ : ∀ row : Score,
          ((days row.dayts && row.dayts == day) && row.ids == ids) = false := by
        intro row
        by_cases same : row.dayts = day
        · simp [same, counted]
        · simp [same]
      unfold samples
      simp [counted, none_, Function.comp_def]

theorem total_collateDay (db : HistoryDb) :
    (db.collateDay day).total days ids = db.total days ids := by
  have split : samples days ids db.score =
      samples (fun other => days other && other == day) ids db.score +
        samples days ids (db.score.filter fun row => !(row.dayts == day)) :=
    samples_split (fun other => other == day) db.score
  unfold total collateDay
  dsimp only
  rw [collated_append, collated_grouped]
  omega

theorem total_collate (more : Nat) (db : HistoryDb) :
    (db.collate now more).total days ids = db.total days ids := by
  induction more generalizing db with
  | zero => rfl
  | succ more ih =>
      unfold collate
      dsimp only
      split
      · rfl
      · rw [ih, total_collateDay]

end Totals

section Turns

variable {now : Int} {db : HistoryDb}

theorem today_notMem_turns (more : Nat) (score : List Score) :
    today now ∉ turns now more score := by
  induction more generalizing score with
  | zero => exact List.not_mem_nil
  | succ more ih =>
      unfold turns
      dsimp only
      split
      · exact List.not_mem_nil
      · rename_i goes
        rw [List.mem_cons, not_or]
        exact ⟨fun same => goes (Or.inl same.symm), ih _⟩

theorem score_collate (more : Nat) (db : HistoryDb) :
    (db.collate now more).score = db.score.filter fun row =>
      !(turns now more db.score).contains row.dayts := by
  induction more generalizing db with
  | zero => simp [collate, turns]
  | succ more ih =>
      unfold collate turns
      dsimp only
      split
      · simp
      · rw [ih]
        unfold collateDay
        dsimp only
        rw [List.filter_filter]
        refine List.filter_congr fun row _ => ?_
        rw [List.contains_cons, Bool.not_or, Bool.and_comm]

theorem grouped_row {day : Int} {score : List Score} {row : HistoryRow}
    (listed : row ∈ grouped day score) :
    row.dayts = day ∧ row.score = samples (· == day) row.ids score ∧
      0 < row.score := by
  obtain ⟨pair, inside, rfl⟩ := List.mem_map.mp listed
  refine ⟨rfl, ?_, ?_⟩
  · unfold samples
    rw [List.count, List.countP_map, List.countP_filter]
    refine congrArg _ (List.countP_congr fun row _ => ?_)
    simp only [Function.comp_apply, Bool.and_eq_true, beq_iff_eq,
      HistoryRow.ids]
    exact And.comm
  · exact Int.natCast_pos.mpr
      (List.count_pos_iff.mpr (List.mem_dedup.mp inside))

theorem samples_filter {ids : Nat × Nat} {day other : Int}
    (differs : other ≠ day) (score : List Score) :
    samples (· == other) ids (score.filter fun row => !(row.dayts == day)) =
      samples (· == other) ids score := by
  unfold samples
  rw [List.countP_filter]
  refine List.countP_congr fun row _ => ?_
  simp only [Bool.and_eq_true, beq_iff_eq, Bool.not_eq_true',
    beq_eq_false_iff_ne]
  constructor
  · exact fun given => given.1
  · rintro ⟨rfl, same⟩
    exact ⟨⟨rfl, same⟩, differs⟩

theorem history_collate (more : Nat) (db : HistoryDb) {row : HistoryRow}
    (listed : row ∈ (db.collate now more).history) :
    row ∈ db.history ∨ row.dayts ∈ turns now more db.score ∧
      row.score = samples (· == row.dayts) row.ids db.score ∧
        0 < row.score := by
  induction more generalizing db with
  | zero => exact Or.inl listed
  | succ more ih =>
      unfold collate at listed
      unfold turns
      dsimp only at listed ⊢
      split at listed
      · exact Or.inl listed
      · rename_i goes
        rw [if_neg goes]
        rcases ih _ listed with there | ⟨later, counted, positive⟩
        · rcases List.mem_append.mp there with old | new
          · exact Or.inl old
          · obtain ⟨same, counted, positive⟩ := grouped_row new
            rw [same]
            exact Or.inr ⟨List.mem_cons_self, counted, positive⟩
        · refine Or.inr ⟨List.mem_cons_of_mem _ later, ?_, positive⟩
          by_cases differs : row.dayts = minDayts now db.score
          · have nothing : samples (· == row.dayts) row.ids
                (db.collateDay (minDayts now db.score)).score = 0 := by
              unfold samples collateDay
              rw [List.countP_filter, List.countP_eq_zero]
              intro other _
              rw [differs]
              simp only [Bool.and_eq_true, beq_iff_eq, Bool.not_eq_true',
                beq_eq_false_iff_ne]
              exact fun given => given.2 given.1.1
            omega
          · rw [counted]
            exact congrArg _ (samples_filter differs db.score)

end Turns

section Deleted

variable {now : Int} {db : HistoryDb}

theorem unused_iff {id : Nat × Nat → Nat} {given : Nat} :
    db.unused id given = true ↔ (∀ row ∈ db.score, id row.ids ≠ given) ∧
      ∀ row ∈ db.history, id row.ids ≠ given := by
  unfold unused
  simp [List.contains_eq_mem]

theorem cascade_eq {id : Nat × Nat → Nat} {gone : List Nat}
    (free : ∀ given ∈ gone, db.unused id given = true) :
    db.cascade id gone = db := by
  have scored : ∀ row ∈ db.score, (!gone.contains (id row.ids)) = true := by
    intro row listed
    rw [Bool.not_eq_true', Bool.eq_false_iff]
    intro inside
    exact (unused_iff.mp (free _ (List.contains_iff_mem.mp inside))).1
      row listed rfl
  have kept : ∀ row ∈ db.history, (!gone.contains (id row.ids)) = true := by
    intro row listed
    rw [Bool.not_eq_true', Bool.eq_false_iff]
    intro inside
    exact (unused_iff.mp (free _ (List.contains_iff_mem.mp inside))).2
      row listed rfl
  unfold cascade
  rw [List.filter_eq_self.mpr scored, List.filter_eq_self.mpr kept]

theorem cascade_userhosts (db : HistoryDb) :
    db.cascade Prod.snd (db.userhosts.filter (db.unused Prod.snd)) = db :=
  cascade_eq fun _ listed => (List.mem_filter.mp listed).2

theorem cascade_channels (db : HistoryDb) :
    db.cascade Prod.fst
      ((db.channels.filter db.idleChannel).map CfChannelRow.id) = db := by
  apply cascade_eq
  intro given listed
  obtain ⟨row, inside, rfl⟩ := List.mem_map.mp listed
  have idle := (List.mem_filter.mp inside).2
  unfold idleChannel at idle
  exact (Bool.and_eq_true_iff.mp idle).2

theorem after_dropOld {day : Int} (kept : cutOff now = .ok day) :
    ∃ after, db.eChanfixCollateHistory now = .ok after ∧
      after.score = (db.collate now 10).score ∧
      after.history = ((db.collate now 10).dropOld day).history := by
  unfold eChanfixCollateHistory
  rw [kept]
  refine ⟨_, rfl, ?_⟩
  split
  · unfold dropChannels dropUserhosts
    dsimp only
    rw [cascade_channels, cascade_userhosts]
    exact ⟨rfl, rfl⟩
  · exact ⟨rfl, rfl⟩

theorem collated_dropOld (now : Int) (ids : Nat × Nat) (db : HistoryDb) :
    collated (recent now) ids
        (db.dropOld (today now - cfDaysamples + 1)).history =
      collated (recent now) ids db.history := by
  unfold collated dropOld
  dsimp only
  rw [List.filter_filter]
  congr 2
  refine List.filter_congr fun row _ => ?_
  unfold recent
  by_cases late : today now - (cfDaysamples - 1) ≤ row.dayts
  · have kept : ¬row.dayts < today now - cfDaysamples + 1 := by omega
    simp [late, kept]
  · simp [late]

end Deleted

theorem natAbs_today_lt {now : Int} (low : longMin ≤ now)
    (high : now ≤ longMax) : (today now).natAbs < 10 ^ 15 := by
  have size : (today now).natAbs = now.natAbs / 86400 :=
    Int.natAbs_tdiv now 86400
  unfold longMin longMax at *
  omega

theorem cutOff_eq {now : Int} (small : (today now).natAbs < 10 ^ 15) :
    cutOff now = if cfDaysamples - 1 ≤ today now then
      .ok (today now - cfDaysamples + 1) else .error .undefined := by
  unfold cutOff ulong
  by_cases late : cfDaysamples - 1 ≤ today now
  · rw [if_pos late]
    unfold cfDaysamples at *
    have day : (today now - 14 + 1) % 18446744073709551616 =
        today now - 14 + 1 := by omega
    simp only [day]
    exact if_pos (by omega)
  · rw [if_neg late]
    unfold cfDaysamples at *
    exact if_neg (by omega)

/-- The totals are kept, today is not moved, and what is moved is in one table
only, from the fourteenth day of the epoch on. Before that day the cut-off is
negative, and cannot be printed as an unsigned number. -/
theorem collated_iff {now : Int} (low : longMin ≤ now) (high : now ≤ longMax)
    (db : HistoryDb) :
    (∃ after, db.eChanfixCollateHistory now = .ok after ∧
      Collated now db after) ↔ cfDaysamples - 1 ≤ today now := by
  have day := cutOff_eq (natAbs_today_lt low high)
  constructor
  · rintro ⟨after, ended, -⟩
    by_contra early
    rw [if_neg early] at day
    unfold eChanfixCollateHistory at ended
    rw [day] at ended
    cases ended
  · intro late
    rw [if_pos late] at day
    obtain ⟨after, ended, scores, histories⟩ := @after_dropOld _ db _ day
    refine ⟨after, ended, fun ids => ?_, turns now 10 db.score,
      today_notMem_turns 10 _, ?_, ?_⟩
    · rw [← total_collate 10 db]
      unfold total
      rw [scores, histories, collated_dropOld]
    · rw [scores]
      refine (score_collate 10 db).trans (List.filter_congr fun row _ => ?_)
      rw [List.contains_eq_mem, decide_not]
    · intro row listed
      rw [histories] at listed
      rcases history_collate 10 db (List.mem_filter.mp listed).1 with
        old | ⟨moved, counted, -⟩
      · exact Or.inl old
      · exact Or.inr ⟨moved, counted⟩

def dayTwenty : HistoryDb where
  score := [⟨1, 1, 100, 19⟩, ⟨1, 1, 200, 19⟩, ⟨1, 1, 300, 20⟩]
  history := [⟨1, 1, 7, 5⟩]
  userhosts := [1]
  channels := [⟨1, "#a".toList, 0⟩]

/-- On day 20 the samples of day 19 are moved. -/
theorem collated_iff_twenty :
    ∃ after, dayTwenty.eChanfixCollateHistory 1728000 = .ok after ∧
      Collated 1728000 dayTwenty after :=
  (collated_iff (by decide) (by decide) _).mpr (by decide)

/-- On the second day of the epoch the event does not come to an end. -/
theorem not_collated_january :
    ¬∃ after, eChanfixCollateHistory 86400
        ⟨[], [⟨1, 1, 0, 5⟩], [1], [⟨1, "#a".toList, 0⟩]⟩ = .ok after ∧
      Collated 86400 ⟨[], [⟨1, 1, 0, 5⟩], [1], [⟨1, "#a".toList, 0⟩]⟩
        after := by
  rintro ⟨after, ended, -⟩
  have stopped : eChanfixCollateHistory 86400
      ⟨[], [⟨1, 1, 0, 5⟩], [1], [⟨1, "#a".toList, 0⟩]⟩ =
        .error .undefined := rfl
  rw [stopped] at ended
  cases ended

end HistoryDb

end RatboxServices
