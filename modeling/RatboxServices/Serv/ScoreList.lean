import RatboxServices.Serv.Chanfix
import RatboxServices.Serv.ChanfixHistory

namespace RatboxServices

open CString

/-! The two lists of the scores in a channel: `USERLIST`, which takes the totals
of one query (`fetch_cf_scores`), and `USERLIST2`, which makes two queries for
each member (`build_channel_scores`). -/

/-- How a list ends the program: on a row or a column that the query did not
return, on a `NULL` that is read as a number, or in `rb_realloc`. -/
inductive ListStop where
  | noRow
  | noColumn
  | nullValue
  | noMemory
  deriving DecidableEq, Repr

/-- The rows that `rsdb_exec_fetch` returns. -/
abbrev SqlRows := List (List (Option CString))

namespace SqlRows

/-- `data.row[i][j]`. -/
def value (rows : SqlRows) (i j : Nat) : Except ListStop (Option CString) :=
  match rows[i]? with
  | none => .error .noRow
  | some row =>
      match row[j]? with
      | none => .error .noColumn
      | some value => .ok value

def number (column : Nat) (rows : SqlRows) : Except ListStop Int :=
  if rows.isEmpty then .ok 0
  else do
    match ← rows.value 0 0 with
    | none => .ok 0
    | some _ =>
        match ← rows.value 0 column with
        | none => .error .nullValue
        | some text => .ok (atoi text)

theorem number_text (text : CString) :
    number 0 [[some text]] = .ok (atoi text) :=
  rfl

/-- `GROUP BY` the first column, with the sum of the second. -/
def groupSum (rows : List (Nat × Int)) : List (Nat × Int) :=
  (rows.map Prod.fst).dedup.map fun key =>
    (key, ((rows.filter fun row => row.1 == key).map Prod.snd).sum)

def sumOf (key : Nat) (rows : List (Nat × Int)) : Int :=
  ((rows.filter fun row => row.1 == key).map Prod.snd).sum

theorem sumOf_append (key : Nat) (first second : List (Nat × Int)) :
    sumOf key (first ++ second) = sumOf key first + sumOf key second := by
  rw [sumOf, List.filter_append, List.map_append, List.sum_append]
  rfl

theorem mem_groupSum {key : Nat} {total : Int} {rows : List (Nat × Int)} :
    (key, total) ∈ groupSum rows ↔
      key ∈ rows.map Prod.fst ∧ total = sumOf key rows := by
  unfold groupSum
  rw [List.mem_map]
  constructor
  · rintro ⟨other, listed, equal⟩
    cases equal
    exact ⟨List.mem_dedup.mp listed, rfl⟩
  · rintro ⟨listed, rfl⟩
    exact ⟨key, List.mem_dedup.mpr listed, rfl⟩

theorem sumOf_groupSum (key : Nat) (rows : List (Nat × Int)) :
    sumOf key (groupSum rows) = sumOf key rows := by
  have one : (groupSum rows).filter (fun row => row.1 == key) =
      (List.replicate ((rows.map Prod.fst).dedup.count key) key).map
        fun key => (key, sumOf key rows) := by
    unfold groupSum
    rw [List.filter_map, ← List.filter_beq]
    rfl
  rw [sumOf, one]
  by_cases listed : key ∈ rows.map Prod.fst
  · rw [List.count_eq_one_of_mem (List.nodup_dedup _)
      (List.mem_dedup.mpr listed)]
    simp
  · rw [List.count_eq_zero_of_not_mem fun there =>
      listed (List.mem_dedup.mp there)]
    have none_ : rows.filter (fun row => row.1 == key) = [] := by
      rw [List.filter_eq_nil_iff]
      intro row there same
      exact listed (List.mem_map.mpr ⟨row, there, by simpa using same⟩)
    rw [sumOf, none_]
    rfl

end SqlRows

structure CfScores where
  channel : Ids CString
  userhost : Ids CString
  score : List Score
  history : List HistoryRow

structure ScoredMember where
  msptr : MemberId
  username : CString
  host : CString
  deriving DecidableEq, Repr

namespace CfScores

/-- `get_channel_id`. -/
def getChannelId (db : CfScores) (channel : CString) : Nat :=
  (db.channel.find (lcase channel)).getD 0

/-- `get_userhost_id`. -/
def getUserhostId (db : CfScores) (userhost : CString) : Nat :=
  (db.userhost.find (lcase userhost)).getD 0

def totalTable (db : CfScores) (channelId : Nat) : List (Nat × Int) :=
  SqlRows.groupSum ((db.score.filter fun row => row.channelId == channelId).map
      fun row => (row.userhostId, 1)) ++
    SqlRows.groupSum
      ((db.history.filter fun row => row.channelId == channelId).map
        fun row => (row.userhostId, row.score))

/-- `ORDER BY SUM(t) DESC`. -/
def totals (db : CfScores) (channelId : Nat) : List (Nat × Int) :=
  (SqlRows.groupSum (db.totalTable channelId)).mergeSort fun left right =>
    decide (right.2 ≤ left.2)

/-- `fetch_cf_scores`; a score is an `unsigned short`. -/
def fetchCfScores (maxNum minScore : Int) (chname : CString) (db : CfScores) :
    Option ChanfixScores :=
  let channelId := db.getChannelId chname
  if channelId = 0 then none
  else
    let rows :=
      if 0 < minScore then
        (db.totals channelId).filter fun row => decide (minScore < row.2)
      else db.totals channelId
    if rows.isEmpty then none
    else
      let length :=
        if maxNum < 1 ∨ (rows.length : Int) < maxNum then rows.length
        else maxNum.toNat
      some
        { items := (rows.take length).map fun row =>
            { userhostId := row.1, score := (row.2 % 65536).toNat } }

/-- `SELECT COUNT(*) FROM cf_score`. -/
def dayQuery (db : CfScores) (ids : Nat × Nat) : SqlRows :=
  [[some (formatInt (db.score.countP fun row => row.ids == ids))]]

/-- `SELECT SUM(score) FROM cf_score_history`, which is `NULL` without rows. -/
def histQuery (db : CfScores) (ids : Nat × Nat) : SqlRows :=
  let rows := db.history.filter fun row => row.ids == ids
  [[if rows.isEmpty then none
    else some (formatInt (rows.map HistoryRow.score).sum)]]

def memberId (db : CfScores) (member : ScoredMember) : Nat :=
  db.getUserhostId (strlcpy (State.userhostLen + 1)
    (member.username ++ "@".toList ++ member.host))

/-- One turn of the loop of `build_channel_scores`. -/
def memberItem (db : CfScores) (channelId : Nat) (member : ScoredMember) :
    Except ListStop (Option ChanfixItem) :=
  let userhostId := db.memberId member
  if userhostId = 0 then .ok none
  else do
    -- `data.row[0][1]`, of rows that have one column
    let dayScore ← SqlRows.number 1 (db.dayQuery (channelId, userhostId))
    let histScore ← SqlRows.number 1 (db.histQuery (channelId, userhostId))
    if dayScore = 0 ∧ histScore = 0 then .ok none
    else
      .ok (some
        { msptr := some member.msptr
          userhostId := userhostId
          score := ((dayScore + histScore) % 65536).toNat })

/-- `build_channel_scores`. What `rb_realloc` does when no member is left is
not under the program's control: with `empty` it returns a block of no
bytes. -/
def buildChannelScores (empty : Bool) (maxNum : Int) (chname : CString)
    (users : List ScoredMember) (db : CfScores) :
    Except ListStop (Option ChanfixScores) :=
  let channelId := db.getChannelId chname
  if channelId = 0 then .ok none
  else if users.isEmpty then .ok none
  else do
    let found ← users.mapM (db.memberItem channelId)
    let items := found.filterMap id
    if items.isEmpty && !empty then .error .noMemory
    else
      let items := items.mergeSort fun left right =>
        decide (right.score ≤ left.score)
      let items := if 0 < maxNum then items.take maxNum.toNat else items
      .ok (some { items := items, matched := items.length })

/-- The score that `o_chanfix_uscore` shows, from the same queries: the sum of
two `int`s. -/
def uscore (db : CfScores) (channelId userhostId : Nat) :
    Except ListStop Int := do
  let dayScore ← SqlRows.number 0 (db.dayQuery (channelId, userhostId))
  let histScore ← SqlRows.number 0 (db.histQuery (channelId, userhostId))
  .ok ((dayScore + histScore).bmod 4294967296)

/-- The score of a userhost in the list of `fetch_cf_scores`. -/
def fetchedScore (db : CfScores) (chname : CString) (userhostId : Nat) : Nat :=
  match db.fetchCfScores 0 0 chname with
  | none => 0
  | some scores =>
      ((scores.items.find? (·.userhostId == userhostId)).map
        ChanfixItem.score).getD 0

def listed (db : CfScores) (chname : CString) (member : ScoredMember) :
    Option ChanfixItem :=
  let userhostId := db.memberId member
  let score := db.fetchedScore chname userhostId
  if userhostId = 0 ∨ score = 0 then none
  else
    some
      { msptr := some member.msptr, userhostId := userhostId, score := score }

/-- The list has these members with the highest scores first, and no more than
`max_num` of them. -/
def Lists (db : CfScores) (maxNum : Int) (chname : CString)
    (users : List ScoredMember) (result : Option ChanfixScores) : Prop :=
  ∃ all : List ChanfixItem, all.Perm (users.filterMap (db.listed chname)) ∧
    all.Pairwise (fun above below => below.score ≤ above.score) ∧
    (result.map ChanfixScores.items).getD [] =
      if 0 < maxNum then all.take maxNum.toNat else all

variable {db : CfScores} {empty : Bool} {maxNum : Int} {chname : CString}
  {users : List ScoredMember} {member : ScoredMember}
  {channelId userhostId : Nat}

def total (db : CfScores) (ids : Nat × Nat) : Int :=
  (db.score.countP fun row => row.ids == ids) +
    ((db.history.filter fun row => row.ids == ids).map HistoryRow.score).sum

theorem sumOf_totalTable (db : CfScores) (channelId userhostId : Nat) :
    SqlRows.sumOf userhostId (db.totalTable channelId) =
      db.total (channelId, userhostId) := by
  unfold totalTable total
  rw [SqlRows.sumOf_append, SqlRows.sumOf_groupSum, SqlRows.sumOf_groupSum]
  congr 1
  · rw [SqlRows.sumOf, List.filter_map, List.map_map, List.filter_filter,
      List.countP_eq_length_filter]
    have same : (fun row : Score =>
        ((fun row : Nat × Int => row.1 == userhostId) ∘
          fun row : Score => (row.userhostId, (1 : Int))) row &&
            row.channelId == channelId) =
        fun row => row.ids == (channelId, userhostId) := by
      funext row
      rw [Bool.and_comm]
      rfl
    rw [same]
    simp [Function.comp_def]
  · rw [SqlRows.sumOf, List.filter_map, List.map_map, List.filter_filter]
    have same : (fun row : HistoryRow =>
        ((fun row : Nat × Int => row.1 == userhostId) ∘
          fun row : HistoryRow => (row.userhostId, row.score)) row &&
            row.channelId == channelId) =
        fun row => row.ids == (channelId, userhostId) := by
      funext row
      rw [Bool.and_comm]
      rfl
    rw [same]
    rfl

def sampleCount (db : CfScores) (ids : Nat × Nat) : Nat :=
  db.score.countP fun row => row.ids == ids

def historySum (db : CfScores) (ids : Nat × Nat) : Int :=
  ((db.history.filter fun row => row.ids == ids).map HistoryRow.score).sum

/-- `USCORE` shows the total of the nested query, if the two numbers that it
reads and their sum fit. -/
theorem uscore_of_totals {score : Int}
    (samples : db.sampleCount (channelId, userhostId) < 2147483648)
    (past : -2147483648 ≤ db.historySum (channelId, userhostId) ∧
      db.historySum (channelId, userhostId) < 2147483648)
    (fits : -2147483648 ≤ score ∧ score < 2147483648)
    (there : (userhostId, score) ∈ db.totals channelId) :
    db.uscore channelId userhostId = .ok score := by
  have mem := (List.mergeSort_perm _ _).mem_iff.mp there
  have score_eq := (SqlRows.mem_groupSum.mp mem).2
  rw [sumOf_totalTable] at score_eq
  have day : SqlRows.number 0 (db.dayQuery (channelId, userhostId)) =
      .ok (db.sampleCount (channelId, userhostId)) := by
    have read : atoi (formatInt
        (db.sampleCount (channelId, userhostId) : Int)) =
        db.sampleCount (channelId, userhostId) :=
      atoi_formatInt (by omega) (by omega)
    rw [dayQuery, SqlRows.number_text]
    exact congrArg _ read
  have hist : SqlRows.number 0 (db.histQuery (channelId, userhostId)) =
      .ok (db.historySum (channelId, userhostId)) := by
    have read := atoi_formatInt past.1 past.2
    unfold historySum at read ⊢
    unfold histQuery
    dsimp only
    generalize (db.history.filter fun row =>
      row.ids == (channelId, userhostId)) = rows at read
    cases rows with
    | nil => rfl
    | cons row rest =>
        rw [List.isEmpty_cons, if_neg Bool.false_ne_true,
          SqlRows.number_text, read]
  have sum : (db.sampleCount (channelId, userhostId) : Int) +
      db.historySum (channelId, userhostId) = score := score_eq.symm
  unfold uscore
  rw [day, Except.ok_bind, hist, Except.ok_bind, sum,
    Int.bmod_eq_of_le_mul_two (by omega) (by omega)]

def twoTables : CfScores where
  channel := Ids.empty.add "#chan".toList
  userhost := Ids.empty.add "user@host".toList
  score := [⟨1, 1, 60, 20⟩, ⟨1, 1, 120, 20⟩]
  history := [⟨1, 1, 18, 4⟩, ⟨1, 1, 19, 5⟩]

theorem uscore_twoTables : twoTables.uscore 1 1 = .ok 11 :=
  uscore_of_totals (by decide) (by decide) (by decide) (by decide +kernel)

/-- A member with a userhost that the tables know ends the program: the count
has one column, and the second one is read. -/
theorem memberItem_of_known (known : db.memberId member ≠ 0) :
    db.memberItem channelId member = .error .noColumn := by
  unfold memberItem
  dsimp only
  rw [if_neg known]
  rfl

theorem memberItem_of_unknown (unknown : db.memberId member = 0) :
    db.memberItem channelId member = .ok none := by
  unfold memberItem
  dsimp only
  rw [if_pos unknown]

theorem mapM_memberItem (unknown : ∀ member ∈ users, db.memberId member = 0) :
    users.mapM (db.memberItem channelId) =
      .ok (users.map fun _ => none) := by
  induction users with
  | nil => rfl
  | cons member rest ih =>
      rw [List.mapM_cons, memberItem_of_unknown (unknown member (by simp)),
        ih fun other later => unknown other (List.mem_cons_of_mem _ later)]
      rfl

theorem unknown_of_mapM {found : List (Option ChanfixItem)}
    (returned : users.mapM (db.memberItem channelId) = .ok found) :
    ∀ member ∈ users, db.memberId member = 0 := by
  induction users generalizing found with
  | nil => simp
  | cons member rest ih =>
      rw [List.mapM_cons] at returned
      obtain ⟨item, first, returned⟩ := Except.bind_eq_ok.mp returned
      obtain ⟨items, later, _⟩ := Except.bind_eq_ok.mp returned
      refine List.forall_mem_cons.mpr ⟨?_, ?_⟩
      · by_contra known
        rw [memberItem_of_known known] at first
        cases first
      · exact ih later

theorem filterMap_none (users : List ScoredMember) :
    (users.map fun _ => (none : Option ChanfixItem)).filterMap id = [] := by
  simp

theorem listed_of_unknown (unknown : db.memberId member = 0) :
    db.listed chname member = none := by
  unfold listed
  dsimp only
  rw [if_pos (Or.inl unknown)]

theorem listed_of_no_channel (none_ : db.getChannelId chname = 0) :
    db.listed chname member = none := by
  have fetched : db.fetchedScore chname (db.memberId member) = 0 := by
    unfold fetchedScore fetchCfScores
    rw [none_]
    rfl
  unfold listed
  dsimp only
  rw [if_pos (Or.inr fetched)]

theorem lists_of_none {result : Option ChanfixScores}
    (none_ : ∀ member ∈ users, db.listed chname member = none)
    (empty : (result.map ChanfixScores.items).getD [] = []) :
    db.Lists maxNum chname users result := by
  refine ⟨[], ?_, List.Pairwise.nil, ?_⟩
  · rw [List.filterMap_eq_nil_iff.mpr none_]
  · rw [empty]
    split
    · rw [List.take_nil]
    · rfl

/-- `USERLIST2` returns the list it should if and only if it has nothing to look
up. -/
theorem build_lists_iff :
    (∃ result, db.buildChannelScores empty maxNum chname users = .ok result ∧
      db.Lists maxNum chname users result) ↔
      db.getChannelId chname = 0 ∨ users = [] ∨
        (∀ member ∈ users, db.memberId member = 0) ∧ empty = true := by
  unfold buildChannelScores
  dsimp only
  constructor
  · rintro ⟨result, returned, _⟩
    split at returned
    · exact Or.inl ‹_›
    split at returned
    · exact Or.inr (Or.inl (List.isEmpty_iff.mp ‹_›))
    obtain ⟨found, looked, returned⟩ := Except.bind_eq_ok.mp returned
    have unknown := unknown_of_mapM looked
    rw [mapM_memberItem unknown, Except.ok.injEq] at looked
    subst looked
    refine Or.inr (Or.inr ⟨unknown, ?_⟩)
    rw [filterMap_none] at returned
    cases empty with
    | true => rfl
    | false => cases returned
  · intro nothing
    split
    · rename_i none_
      refine ⟨none, rfl, lists_of_none ?_ rfl⟩
      exact fun member _ => listed_of_no_channel none_
    split
    · rename_i nobody
      rw [List.isEmpty_iff] at nobody
      refine ⟨none, rfl, lists_of_none ?_ rfl⟩
      simp [nobody]
    rename_i channel some_
    obtain none_ | nobody | ⟨unknown, rfl⟩ := nothing
    · exact absurd none_ channel
    · rw [nobody] at some_
      exact absurd rfl some_
    · rw [mapM_memberItem unknown, Except.ok_bind, filterMap_none]
      refine ⟨_, rfl, lists_of_none ?_ ?_⟩
      · exact fun member there => listed_of_unknown (unknown member there)
      · rw [List.mergeSort_nil, Option.map_some, Option.getD_some]
        split
        · rw [List.take_nil]
        · rfl

def oneSample : CfScores where
  channel := Ids.empty.add "#chan".toList
  userhost := Ids.empty.add "user@host".toList
  score := [⟨1, 1, 0, 0⟩]
  history := []

theorem not_build_lists_one :
    ¬∃ result, oneSample.buildChannelScores true 0 "#chan".toList
        [⟨0, "user".toList, "host".toList⟩] = .ok result ∧
      oneSample.Lists 0 "#chan".toList [⟨0, "user".toList, "host".toList⟩]
        result := by
  rintro ⟨result, returned, _⟩
  have stopped : oneSample.buildChannelScores true 0 "#chan".toList
      [⟨0, "user".toList, "host".toList⟩] = .error .noColumn := by
    decide +kernel
  rw [stopped] at returned
  cases returned

end CfScores

end RatboxServices
