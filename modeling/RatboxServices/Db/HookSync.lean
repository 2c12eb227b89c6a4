import Mathlib.Data.List.Count
import RatboxServices.Db.Statement
import RatboxServices.Lib.Assign
import RatboxServices.Net.System
import RatboxServices.Serv.AccessRun

namespace RatboxServices

open CString

/-! The database hooks of `dbhook.c` that set the password or the address of an
account. -/

inductive UserField
  | password
  | email
  deriving DecidableEq, Repr

/-- A row of table `users_sync`, whose key is a 64-bit number. -/
structure SyncRow where
  id : Int64
  hook : CString
  data : CString
  deriving DecidableEq, Repr

/-- A row of table `users`, as far as the hooks change it. -/
structure UserRow where
  username : CString
  password : CString
  email : CString
  deriving DecidableEq, Repr

inductive SyncStatement
  /-- `DELETE FROM users_sync WHERE id='%u'` -/
  | delete (id : Int)
  /-- A text from `dbh_schedule_list`. -/
  | scheduled (sql : CString)
  deriving DecidableEq, Repr

/-- The accounts and what the database has of them. An account without an
address has an empty one. -/
structure SyncState where
  regs : Regs
  value : UserField → UserRegId → CString
  users : List UserRow
  sync : List SyncRow

def UserRow.get (row : UserRow) : UserField → CString
  | .password => row.password
  | .email => row.email

def UserRow.set (row : UserRow) (value : CString) : UserField → UserRow
  | .password => { row with password := value }
  | .email => { row with email := value }

/-- `UPDATE` of one row after the other. -/
def updateUsers (field : UserField) (users : List UserRow)
    (change : CString × CString) : List UserRow :=
  users.map fun row =>
    if row.username = change.1 then row.set change.2 field else row

def UserField.word : UserField → CString
  | .password => "password".toList
  | .email => "email".toList

/-- What the parser gets of `UPDATE users SET field='value' WHERE
username='name'`. -/
def updateWords (field : UserField) (value name : CString) :
    List (SqlKind × CString) :=
  [(.word, "UPDATE".toList), (.word, "users".toList), (.word, "SET".toList),
    (.word, field.word), (.eq, ['=']), (.string, value),
    (.word, "WHERE".toList), (.word, "username".toList), (.eq, ['=']),
    (.string, name)]

/-- The database behind table `users`. Nothing is said of a statement that is
cut. -/
structure UsersDb where
  exec : CString → List UserRow → Except FormatStop (List UserRow)
  exec_update : ∀ (field : UserField) (value name sql : CString)
      (users : List UserRow),
    Sql.read sql = some (updateWords field value name) →
      exec sql users = .ok (updateUsers field users (name, value))

def updateOf (words : List (SqlKind × CString)) :
    Option (UserField × CString × CString) :=
  match words.drop 5 with
  | (_, value) :: _ :: _ :: _ :: (_, name) :: _ =>
      if words = updateWords .password value name then
        some (.password, value, name)
      else if words = updateWords .email value name then
        some (.email, value, name)
      else none
  | _ => none

theorem updateOf_updateWords (field : UserField) (value name : CString) :
    updateOf (updateWords field value name) = some (field, value, name) := by
  have dropped : (updateWords field value name).drop 5 =
      [(.string, value), (.word, "WHERE".toList), (.word, "username".toList),
        (.eq, ['=']), (.string, name)] := rfl
  rw [updateOf, dropped]
  simp only
  cases field with
  | password => rw [if_pos rfl]
  | email =>
      have other : updateWords .email value name ≠
          updateWords .password value name := by
        intro same
        have fourth : (SqlKind.word, UserField.email.word) =
            (.word, UserField.password.word) :=
          Option.some.inj (congrArg (fun words => words[3]?) same)
        revert fourth
        decide
      rw [if_neg other, if_pos rfl]

def UsersDb.plain : UsersDb where
  exec sql users :=
    match (Sql.read sql).bind updateOf with
    | some (field, value, name) =>
        .ok (updateUsers field users (name, value))
    | none => .error .die
  exec_update field value name sql users read := by
    rw [read, Option.bind_some, updateOf_updateWords]

/-- `UPDATE users SET field='%Q' WHERE username='%Q'`, as the callbacks have
it. -/
def setFormat : UserField → CString
  | .password => "UPDATE users SET password='%Q' WHERE username='%Q'".toList
  | .email => "UPDATE users SET email='%Q' WHERE username='%Q'".toList

theorem UserRow.set_username (row : UserRow) (value : CString)
    (field : UserField) : (row.set value field).username = row.username := by
  cases field <;> rfl

theorem UserRow.get_set (row : UserRow) (value : CString)
    (field : UserField) : (row.set value field).get field = value := by
  cases field <;> rfl

/-- The ids that `delid` can hold. -/
def SyncRow.Countable (row : SyncRow) : Prop :=
  0 < row.id.toInt ∧ row.id.toInt < 4294967296

namespace SyncState

def rsdbExec (db : UsersDb) (s : SyncState) :
    SyncStatement → Except FormatStop SyncState
  | .delete id =>
      .ok { s with sync := s.sync.filter fun row => row.id.toInt != id }
  | .scheduled sql => do
      let text ← Sql.executeScheduled sql
      let users ← db.exec text s.users
      .ok { s with users := users }

/-- The callbacks, with `dbh_schedule_list`. They always return 1. -/
def dbhUserSet (field : UserField) (split : CString → List CString)
    (data : CString) (s : SyncState × List CString) :
    Except FormatStop ((SyncState × List CString) × Bool) :=
  match split data with
  | name :: value :: _ =>
      if name = [] ∨ value = [] then .ok (s, true)
      else
        match s.1.regs.findUserReg name with
        | none => .ok (s, true)
        | some account => do
            let sql ← Sql.rsdbHookSchedule (setFormat field)
              [.str (some value), .str (some (s.1.regs.userName account))]
            .ok (({ s.1 with
                value := fun other =>
                  if other = field then
                    Function.update (s.1.value other) account value
                  else s.1.value other },
              Dlink.add sql s.2), true)
  | _ => .ok (s, true)

/-- `dbh_user_setpass`. -/
def dbhUserSetpass := dbhUserSet .password

/-- `dbh_user_setemail`. -/
def dbhUserSetemail := dbhUserSet .email

/-- The hooks `init_s_userserv` adds for them. -/
def hookValue : UserField → CString
  | .password => "SETPASS".toList
  | .email => "SETEMAIL".toList

def callback : UserField → (CString → List CString) → CString →
    SyncState × List CString →
    Except FormatStop ((SyncState × List CString) × Bool)
  | .password => dbhUserSetpass
  | .email => dbhUserSetemail

/-- `SELECT COUNT(id)`, read as an `unsigned int`. -/
def count (field : UserField) (s : SyncState) : Nat :=
  (atoi (decimal (s.sync.filter fun row =>
    row.hook == hookValue field).length) % 4294967296).toNat

def fetched (field : UserField) (s : SyncState) : List SyncRow :=
  (s.sync.filter fun row => row.hook == hookValue field).take (s.count field)

/-- What goes into `delid`. -/
def deleteId (row : SyncRow) (retval : Bool) : Int :=
  if retval then atoi (formatInt row.id.toInt) % 4294967296 else 0

def processRows (field : UserField) (split : CString → List CString) :
    List SyncRow → SyncState × List CString →
    Except FormatStop ((SyncState × List CString) × List Int)
  | [], s => .ok (s, [])
  | row :: rows, s => do
      let (s, retval) ← callback field split row.data s
      let (s, delid) ← processRows field split rows s
      .ok (s, deleteId row retval :: delid)

def transaction (delid : List Int) (scheduled : List CString) :
    List SyncStatement :=
  (delid.filter (· != 0)).map .delete ++ scheduled.map .scheduled

/-- `rsdb_hook_call`, with the statements it executes. -/
def rsdbHookCall (db : UsersDb) (field : UserField)
    (split : CString → List CString) (s : SyncState) :
    Except FormatStop (SyncState × List SyncStatement) :=
  if s.count field = 0 then .ok (s, [])
  else do
    let ((s', scheduled), delid) ←
      processRows field split (s.fetched field) (s, [])
    let statements := transaction delid scheduled
    let after ← statements.foldlM (rsdbExec db) s'
    .ok (after, statements)

def column (field : UserField) (name : CString) (users : List UserRow) :
    Option CString :=
  (users.find? fun row => row.username = name).map fun row => row.get field

def InStep (field : UserField) (s : SyncState) : Prop :=
  ∀ account reg, s.regs.user.cell account = some reg →
    column field reg.name s.users = some (s.value field account)

def DeletedOnce (rows : List SyncRow) (statements : List SyncStatement)
    (s : SyncState) : Prop :=
  ∀ row ∈ rows, statements.count (.delete row.id.toInt) = 1 ∧ row ∉ s.sync

def assignment (split : CString → List CString) (regs : Regs)
    (row : SyncRow) : Option (UserRegId × CString) :=
  match split row.data with
  | name :: value :: _ =>
      if name = [] ∨ value = [] then none
      else (regs.findUserReg name).map fun account => (account, value)
  | _ => none

def assignments (field : UserField) (split : CString → List CString)
    (s : SyncState) : List (UserRegId × CString) :=
  (s.fetched field).filterMap (assignment split s.regs)

def FirstIsLast (assignments : List (UserRegId × CString)) : Prop :=
  ∀ account, firstFor account assignments = lastFor account assignments

def setText (field : UserField) (value name : CString) : CString :=
  (Sql.Template.ofFormat (setFormat field)).sql [value, name]

/-- `%Q` prints the two texts, and the statement fits into the buffer of
`rsdb_hook_schedule`. -/
structure Schedulable (field : UserField) (value name : CString) : Prop where
  given : value.length < 1024 ∧ '\x00' ∉ value
  named : name.length < 1024 ∧ '\x00' ∉ name
  whole : (setText field value name).length < Format.sqlBufSize

variable {db : UsersDb} {field : UserField}
  {split : CString → List CString} {s : SyncState}
  {scheduled : List CString} {value name : CString}

theorem format_setFormat :
    (Sql.Template.ofFormat (setFormat field)).format = setFormat field := by
  cases field <;> decide

theorem sound_setFormat :
    (Sql.Template.ofFormat (setFormat field)).sound = true := by
  cases field <;> decide +kernel

theorem Schedulable.values (fits : Schedulable field value name) :
    Sql.Template.values (Sql.Template.ofFormat (setFormat field)).slots
      [.str (some value), .str (some name)] = some [value, name] := by
  have first : Sql.Conv.quoted.text (.str (some value)) = some value :=
    if_pos fits.given
  have second : Sql.Conv.quoted.text (.str (some name)) = some name :=
    if_pos fits.named
  have slots : ∃ code rest, (Sql.Template.ofFormat (setFormat field)).slots =
      [(⟨.quoted, true⟩, code), (⟨.quoted, true⟩, rest)] := by
    cases field <;> exact ⟨_, _, rfl⟩
  obtain ⟨code, rest, slots⟩ := slots
  rw [slots, Sql.Template.values, first, Sql.Template.values, second]
  rfl

theorem Schedulable.schedule (fits : Schedulable field value name) :
    Sql.rsdbHookSchedule (setFormat field)
      [.str (some value), .str (some name)] =
      .ok (setText field value name) := by
  have printed := (Sql.Template.statement_read sound_setFormat .schedule
    fits.values fits.whole).1
  rw [format_setFormat] at printed
  exact printed

theorem reading_setFormat :
    (Sql.Template.ofFormat (setFormat field)).reading [value, name] =
      some (updateWords field value name) := by
  cases field <;> rfl

theorem Schedulable.read (fits : Schedulable field value name) :
    Sql.read (setText field value name) =
      some (updateWords field value name) := by
  obtain ⟨words, read, same⟩ :=
    Sql.Template.read_sql sound_setFormat fits.values
  rw [reading_setFormat] at same
  rw [setText, read, same]

theorem Schedulable.exec (fits : Schedulable field value name) :
    rsdbExec db s (.scheduled (setText field value name)) =
      .ok { s with users := updateUsers field s.users (name, value) } := by
  obtain ⟨short, inside⟩ := Sql.compile_ok fits.schedule
  rw [rsdbExec, Sql.executeScheduled_eq short inside, Except.ok_bind,
    db.exec_update field value name _ _ fits.read]
  rfl

def assignValue (value : UserRegId → CString)
    (change : UserRegId × CString) : UserRegId → CString :=
  Function.update value change.1 change.2

def setValues (field : UserField) (changes : List (UserRegId × CString))
    (s : SyncState) : SyncState :=
  { s with
    value := Function.update s.value field
      (changes.foldl assignValue (s.value field)) }

theorem setValues_nil : setValues field [] s = s := by
  unfold setValues
  rw [List.foldl_nil, Function.update_eq_self]

def textOf (field : UserField) (regs : Regs)
    (change : UserRegId × CString) : CString :=
  setText field change.2 (regs.userName change.1)

def AllSchedulable (field : UserField) (regs : Regs)
    (changes : List (UserRegId × CString)) : Prop :=
  ∀ change ∈ changes, Schedulable field change.2 (regs.userName change.1)

theorem callback_eq (data : CString) (s : SyncState × List CString) :
    callback field split data s = dbhUserSet field split data s := by
  cases field <;> rfl

theorem callback_spec (row : SyncRow)
    (fits : AllSchedulable field s.regs (assignment split s.regs row).toList) :
    callback field split row.data (s, scheduled) =
      .ok ((setValues field (assignment split s.regs row).toList s,
        (assignment split s.regs row).toList.map (textOf field s.regs) ++
          scheduled), true) := by
  rw [callback_eq]
  unfold dbhUserSet
  unfold assignment at fits ⊢
  split
  · rename_i name value rest parts
    simp only [parts] at fits
    by_cases blank : name = [] ∨ value = []
    · rw [if_pos blank, if_pos blank, Option.toList_none, setValues_nil]
      rfl
    · rw [if_neg blank] at fits ⊢
      rw [if_neg blank]
      cases found : s.regs.findUserReg name with
      | none =>
          rw [Option.map_none, Option.toList_none, setValues_nil]
          rfl
      | some account =>
          have changed : (fun other =>
              if other = field then
                Function.update (s.value other) account value
              else s.value other) =
              Function.update s.value field
                (Function.update (s.value field) account value) := by
            funext other
            by_cases same : other = field
            · subst same
              rw [if_pos rfl, Function.update_self]
            · rw [if_neg same, Function.update_of_ne same]
          have printed : Schedulable field value (s.regs.userName account) :=
            fits (account, value)
              (by rw [found]; exact List.mem_singleton_self _)
          simp only [changed, printed.schedule, Except.ok_bind]
          rfl
  · rw [Option.toList_none, setValues_nil]
    rfl

theorem setValues_append (first second : List (UserRegId × CString)) :
    setValues field second (setValues field first s) =
      setValues field (first ++ second) s := by
  simp only [setValues, List.foldl_append, Function.update_self,
    Function.update_idem]

theorem processRows_eq (rows : List SyncRow)
    (fits : AllSchedulable field s.regs
      (rows.filterMap (assignment split s.regs))) :
    processRows field split rows (s, scheduled) =
      .ok ((setValues field (rows.filterMap (assignment split s.regs)) s,
        ((rows.filterMap (assignment split s.regs)).map
          (textOf field s.regs)).reverse ++ scheduled),
        rows.map fun row => deleteId row true) := by
  induction rows generalizing s scheduled with
  | nil =>
      rw [List.filterMap_nil, setValues_nil]
      rfl
  | cons row rows ih =>
      have regs : (setValues field (assignment split s.regs row).toList
          s).regs = s.regs := rfl
      have split_ : (row :: rows).filterMap (assignment split s.regs) =
          (assignment split s.regs row).toList ++
            rows.filterMap (assignment split s.regs) := by
        rw [List.filterMap_cons]
        cases assignment split s.regs row <;> rfl
      rw [split_] at fits ⊢
      have first : AllSchedulable field s.regs
          (assignment split s.regs row).toList := fun change listed =>
        fits change (List.mem_append_left _ listed)
      have later : AllSchedulable field s.regs
          (rows.filterMap (assignment split s.regs)) := fun change listed =>
        fits change (List.mem_append_right _ listed)
      rw [processRows, callback_spec row first, Except.ok_bind]
      simp only
      rw [ih (by rw [regs]; exact later), Except.ok_bind, regs,
        setValues_append, List.map_append, List.reverse_append,
        List.append_assoc]
      cases assignment split s.regs row <;> rfl

theorem column_updateUsers (users : List UserRow) (name value key : CString) :
    column field key (updateUsers field users (name, value)) =
      if name = key then (column field key users).map fun _ => value
      else column field key users := by
  unfold column updateUsers
  have named : ∀ row : UserRow,
      (if row.username = name then row.set value field else row).username =
        row.username := by
    intro row
    split
    · exact UserRow.set_username row value field
    · rfl
  induction users with
  | nil => simp
  | cons row users ih =>
      rw [List.map_cons, List.find?_cons, List.find?_cons, named]
      by_cases here : row.username = key
      · simp only [here, decide_true, Option.map_some]
        by_cases same : name = key
        · rw [if_pos same.symm, if_pos same, UserRow.get_set]
        · rw [if_neg fun other => same other.symm, if_neg same]
      · simp only [here, decide_false]
        exact ih

theorem assigns_column :
    Assigns (column field) (updateUsers field) where
  self users name value := by rw [column_updateUsers, if_pos rfl]
  other users name value key different := by
    rw [column_updateUsers, if_neg different]

theorem assigns_value :
    Assigns (fun (account : UserRegId) value => some (value account))
      assignValue where
  self value account new := by simp [assignValue]
  other value account new other different := by
    simp [assignValue, Function.update_of_ne different.symm]

theorem foldlM_delete (ids : List Int) (s : SyncState) :
    (ids.map SyncStatement.delete).foldlM (rsdbExec db) s =
      .ok { s with
        sync := s.sync.filter fun row => !decide (row.id.toInt ∈ ids) } := by
  induction ids generalizing s with
  | nil => simp [pure, Except.pure]
  | cons id ids ih =>
      rw [List.map_cons, List.foldlM_cons, rsdbExec, Except.ok_bind, ih]
      simp only [List.filter_filter]
      congr 3
      funext row
      by_cases same : row.id.toInt = id
      · simp [same]
      · simp [same]

theorem foldlM_update (changes : List (UserRegId × CString)) (regs : Regs)
    (s : SyncState) (fits : AllSchedulable field regs changes) :
    ((changes.map (textOf field regs)).map SyncStatement.scheduled).foldlM
        (rsdbExec db) s =
      .ok { s with
        users := (changes.map fun change =>
          (regs.userName change.1, change.2)).foldl (updateUsers field)
            s.users } := by
  induction changes generalizing s with
  | nil => rfl
  | cons change changes ih =>
      have first := fits change List.mem_cons_self
      have later : AllSchedulable field regs changes := fun other listed =>
        fits other (List.mem_cons_of_mem _ listed)
      rw [List.map_cons, List.map_cons, List.foldlM_cons, textOf, first.exec,
        Except.ok_bind, ih _ later]
      rfl

structure Called (field : UserField) (split : CString → List CString)
    (before after : SyncState) (statements : List SyncStatement) : Prop where
  regs : after.regs = before.regs
  value : after.value field =
    (before.assignments field split).foldl assignValue (before.value field)
  users : after.users =
    ((before.assignments field split).map fun change =>
      (before.regs.userName change.1, change.2)).reverse.foldl
        (updateUsers field) before.users
  deleted : ∀ id, statements.count (.delete id) =
    (((before.fetched field).map fun row => deleteId row true).filter
      (· != 0)).count id
  sync : after.sync = before.sync.filter fun row =>
    !decide (row.id.toInt ∈ ((before.fetched field).map
      fun row => deleteId row true).filter (· != 0))

theorem count_transaction (delid : List Int) (texts : List CString)
    (id : Int) :
    (transaction delid texts).count (.delete id) =
      (delid.filter (· != 0)).count id := by
  have noText : (texts.map SyncStatement.scheduled).count (.delete id) = 0 := by
    rw [List.count_eq_zero]
    intro listed
    obtain ⟨text, -, same⟩ := List.mem_map.mp listed
    cases same
  rw [transaction, List.count_append, noText, Nat.add_zero,
    List.count_map_of_injective _ _ fun _ _ same => by cases same; rfl]

theorem rsdbHookCall_called (db : UsersDb) (s : SyncState)
    (fits : AllSchedulable field s.regs (s.assignments field split)) :
    ∃ after statements,
      s.rsdbHookCall db field split = .ok (after, statements) ∧
        Called field split s after statements := by
  unfold rsdbHookCall
  by_cases none_ : s.count field = 0
  · have noRows : s.fetched field = [] := by
      rw [fetched, none_, List.take_zero]
    rw [if_pos none_]
    refine ⟨s, [], rfl, rfl, ?_, ?_, ?_, ?_⟩ <;> simp [assignments, noRows]
  · have turned : AllSchedulable field s.regs
        (s.assignments field split).reverse := fun change listed =>
      fits change (List.mem_reverse.mp listed)
    have rows : processRows field split (s.fetched field) (s, []) = .ok _ :=
      processRows_eq (s.fetched field) fits
    have listed : ((s.fetched field).filterMap
        (assignment split s.regs)).reverse =
        (s.assignments field split).reverse := rfl
    rw [List.append_nil, ← List.map_reverse, listed] at rows
    rw [if_neg none_, rows, Except.ok_bind]
    simp only [transaction, List.foldlM_append, foldlM_delete, Except.ok_bind]
    rw [foldlM_update _ _ _ turned, Except.ok_bind]
    refine ⟨_, _, rfl, rfl, ?_, ?_, fun id => count_transaction _ _ id, rfl⟩
    · simp only [setValues, Function.update_self]
      rfl
    · rw [← List.map_reverse]
      rfl

theorem deleteId_eq (row : SyncRow) :
    deleteId row true = row.id.toInt % 4294967296 := by
  have low : longMin ≤ row.id.toInt := row.id.le_toInt
  have high : row.id.toInt ≤ longMax := by
    have below := row.id.toInt_lt
    unfold longMax
    omega
  have read : strtol (formatInt row.id.toInt ++ []) =
      (row.id.toInt, []) := strtol_formatInt rfl low high
  rw [List.append_nil] at read
  show atoi (formatInt row.id.toInt) % 4294967296 = _
  rw [atoi, atol, read]
  exact Int.bmod_emod

variable {rows : List SyncRow}

theorem deleteId_of_countable {row : SyncRow} (countable : row.Countable) :
    deleteId row true = row.id.toInt := by
  obtain ⟨low, high⟩ := countable
  rw [deleteId_eq]
  omega

theorem deleteIds_of_countable (all : ∀ row ∈ rows, row.Countable) :
    (rows.map fun row => deleteId row true).filter (· != 0) =
      rows.map fun row => row.id.toInt := by
  have same : (rows.map fun row => deleteId row true) =
      rows.map fun row => row.id.toInt :=
    List.map_congr_left fun row listed => deleteId_of_countable (all row listed)
  rw [same, List.filter_eq_self]
  intro id listed
  obtain ⟨row, inside, rfl⟩ := List.mem_map.mp listed
  have low : 0 < row.id.toInt := (all row inside).1
  simp
  omega

theorem countable_of_deleted {row : SyncRow}
    (deleted : row.id.toInt ∈
      (rows.map fun row => deleteId row true).filter (· != 0)) :
    row.Countable := by
  obtain ⟨listed, nonzero⟩ := List.mem_filter.mp deleted
  obtain ⟨other, -, same⟩ := List.mem_map.mp listed
  rw [deleteId_eq] at same
  have some_ : row.id.toInt ≠ 0 := by simpa using nonzero
  unfold SyncRow.Countable
  omega

theorem deletedOnce_iff {before after : SyncState}
    {statements : List SyncStatement}
    (called : Called field split before after statements)
    (keyed : (before.sync.map fun row => row.id).Nodup) :
    DeletedOnce (before.fetched field) statements after ↔
      ∀ row ∈ before.fetched field, row.Countable := by
  have inTable : (before.fetched field).Sublist before.sync :=
    (List.take_sublist _ _).trans List.filter_sublist
  constructor
  · intro deleted row listed
    have once := (deleted row listed).1
    rw [called.deleted] at once
    have positive := Nat.one_pos
    rw [← once] at positive
    exact countable_of_deleted (List.count_pos_iff.mp positive)
  · intro all row listed
    have ids := deleteIds_of_countable all
    have nodup :
        ((before.fetched field).map fun row => row.id.toInt).Nodup := by
      have distinct : ((before.fetched field).map fun row => row.id).Nodup :=
        keyed.sublist (inTable.map _)
      have composed : ((before.fetched field).map fun row => row.id.toInt) =
          ((before.fetched field).map fun row => row.id).map Int64.toInt := by
        rw [List.map_map]
        rfl
      rw [composed]
      exact distinct.map fun _ _ same => Int64.toInt_inj.mp same
    have inside : row.id.toInt ∈
        (before.fetched field).map fun row => row.id.toInt :=
      List.mem_map_of_mem listed
    constructor
    · rw [called.deleted, ids]
      exact List.count_eq_one_of_mem nodup inside
    · rw [called.sync, ids, List.mem_filter]
      rintro ⟨-, kept⟩
      simp only [inside, decide_true, Bool.not_true] at kept
      cases kept

theorem assignment_live (accounts : s.regs.AccountInv)
    {change : UserRegId × CString} {row : SyncRow}
    (given : assignment split s.regs row = some change) :
    ∃ reg, s.regs.user.cell change.1 = some reg := by
  unfold assignment at given
  split at given
  · split at given
    · cases given
    · obtain ⟨account, found, rfl⟩ := Option.map_eq_some_iff.mp given
      have listed := List.mem_of_find?_eq_some found
      obtain ⟨reg, live, -⟩ := (accounts.table.mem_iff account).mp listed
      exact ⟨reg, live⟩
  · cases given

theorem firstFor_named (accounts : s.regs.AccountInv) {account : UserRegId}
    {reg : UserReg} (found : s.regs.user.cell account = some reg) :
    firstFor reg.name ((s.assignments field split).map fun change =>
        (s.regs.userName change.1, change.2)) =
      firstFor account (s.assignments field split) := by
  have named {other : UserRegId} {there : UserReg}
      (live : s.regs.user.cell other = some there) :
      s.regs.userName other = there.name := by
    unfold Regs.userName
    rw [live]
  rw [← named found]
  refine firstFor_map ?_
  intro change listed same
  obtain ⟨row, -, given⟩ := List.mem_filterMap.mp listed
  obtain ⟨other, live⟩ := assignment_live accounts given
  rw [named found, named live] at same
  exact accounts.unique change.1 account other reg live found same

theorem firstFor_of_freed (accounts : s.regs.AccountInv)
    {account : UserRegId} (freed : s.regs.user.cell account = none) :
    firstFor account (s.assignments field split) = none := by
  unfold firstFor
  rw [Option.map_eq_none_iff, List.find?_eq_none]
  intro change listed same
  obtain ⟨row, -, given⟩ := List.mem_filterMap.mp listed
  obtain ⟨reg, live⟩ := assignment_live accounts given
  have here : change.1 = account := by simpa using same
  rw [here, freed] at live
  cases live

/-- The database ends with the first value given to an account, and memory with
the last one. -/
theorem inStep_iff {after : SyncState} {statements : List SyncStatement}
    (called : Called field split s after statements)
    (accounts : s.regs.AccountInv) (inStep : s.InStep field) :
    after.InStep field ↔ FirstIsLast (s.assignments field split) := by
  have database {account : UserRegId} {reg : UserReg}
      (found : s.regs.user.cell account = some reg) :
      column field reg.name after.users =
        some ((firstFor account (s.assignments field split)).getD
          (s.value field account)) := by
    rw [called.users, assigns_column.foldl, lastFor_reverse,
      firstFor_named accounts found, inStep account reg found]
    rfl
  have memory (account : UserRegId) : after.value field account =
      (lastFor account (s.assignments field split)).getD
        (s.value field account) := by
    have read : some ((s.assignments field split).foldl assignValue
        (s.value field) account) =
        (some (s.value field account)).map fun old =>
          (lastFor account (s.assignments field split)).getD old :=
      assigns_value.foldl (s.value field)
    rw [called.value]
    exact Option.some.inj read
  constructor
  · intro same account
    cases found : s.regs.user.cell account with
    | none =>
        rw [firstFor_of_freed accounts found, eq_comm,
          ← firstFor_eq_none_iff]
        exact firstFor_of_freed accounts found
    | some reg =>
        have agrees := same account reg (by rw [called.regs]; exact found)
        rw [database found, memory] at agrees
        cases first : firstFor account (s.assignments field split) with
        | none => exact (firstFor_eq_none_iff.mp first).symm
        | some value =>
            cases last : lastFor account (s.assignments field split) with
            | none =>
                rw [firstFor_eq_none_iff.mpr last] at first
                cases first
            | some other =>
                rw [first, last] at agrees
                exact agrees
  · intro same account reg found
    rw [called.regs] at found
    rw [database found, memory, same account]

/-- Where every statement can be scheduled, the database has what is in memory
after a call, and the rows are deleted, if and only if no account is given
another value by the first of its rows than by the last one, and the rows have
ids that an `unsigned int` can hold. -/
theorem rsdbHookCall_iff {conf : ServConfig} {events : List RegEvent}
    (reached : run (Regs.step conf) Regs.empty events = .ok s.regs)
    (keyed : (s.sync.map fun row => row.id).Nodup)
    (inStep : s.InStep field)
    (fits : AllSchedulable field s.regs (s.assignments field split)) :
    (∃ after statements,
      s.rsdbHookCall db field split = .ok (after, statements) ∧
        after.InStep field ∧
        DeletedOnce (s.fetched field) statements after) ↔
      FirstIsLast (s.assignments field split) ∧
        ∀ row ∈ s.fetched field, row.Countable := by
  obtain ⟨after, statements, ended, called⟩ := rsdbHookCall_called db s fits
  have accounts : s.regs.AccountInv := (Regs.sound_of_run reached).accounts
  rw [← inStep_iff called accounts inStep, ← deletedOnce_iff called keyed]
  constructor
  · rintro ⟨other, others, same, result⟩
    rw [ended] at same
    cases same
    exact result
  · intro result
    exact ⟨after, statements, ended, result⟩

def oneUser (regs : Regs) (rows : List (Int64 × CString)) : SyncState where
  regs := regs
  value := fun _ _ => "old".toList
  users := [⟨"lyra".toList, "old".toList, "old".toList⟩]
  sync := rows.map fun row => ⟨row.1, "SETPASS".toList, row.2⟩

theorem oneUser_inStep {regs : Regs} {rows : List (Int64 × CString)}
    (one : regs.user.next = 1)
    (named : (regs.user.cell 0).map UserReg.name = some "lyra".toList) :
    (oneUser regs rows).InStep field := by
  intro account reg found
  have first : account = 0 := by
    have below := Heap.lt_next found
    rw [show (oneUser regs rows).regs = regs from rfl, one] at below
    omega
  subst first
  have live : regs.user.cell 0 = some reg := found
  rw [live] at named
  have name : reg.name = "lyra".toList := Option.some.inj named
  rw [name]
  cases field <;> rfl

def registered : List RegEvent :=
  [⟨100, .hookRegister "lyra".toList "old".toList⟩]

def repeatedRows : List (Int64 × CString) :=
  [(1, "lyra new".toList), (2, "lyra new".toList), (7, "nobody new".toList)]

def differingRows : List (Int64 × CString) :=
  [(1, "lyra one".toList), (2, "lyra two".toList)]

/-- Two rows give the same password, and a third one is for nobody. -/
theorem rsdbHookCall_sameTwice :
    ∃ regs, run (Regs.step (setDefaultConf "services.".toList)) Regs.empty
        registered = .ok regs ∧
      ∃ after statements,
        (oneUser regs repeatedRows).rsdbHookCall .plain .password
            (splitParams 15) = .ok (after, statements) ∧
          after.InStep .password ∧
          DeletedOnce ((oneUser regs repeatedRows).fetched .password)
            statements after := by
  have observed : (run (Regs.step (setDefaultConf "services.".toList))
      Regs.empty registered).toOption.map (fun regs =>
        (regs.user.next, (regs.user.cell 0).map UserReg.name,
          (oneUser regs repeatedRows).assignments .password
            (splitParams 15))) =
      some (1, some "lyra".toList,
        [(0, "new".toList), (0, "new".toList)]) := by
    decide +kernel
  obtain ⟨regs, reached, seen⟩ := Except.exists_of_observed observed
  simp only [Prod.mk.injEq] at seen
  obtain ⟨one, named, changes⟩ := seen
  have name : regs.userName 0 = "lyra".toList := by
    obtain ⟨reg, found, name⟩ := Option.map_eq_some_iff.mp named
    unfold Regs.userName
    rw [found]
    exact name
  have keyed : ((oneUser regs repeatedRows).sync.map
      fun row => row.id).Nodup := by
    show ([1, 2, 7] : List Int64).Nodup
    decide
  have fits : AllSchedulable .password (oneUser regs repeatedRows).regs
      ((oneUser regs repeatedRows).assignments .password (splitParams 15)) := by
    intro change listed
    rw [changes] at listed
    have same : change = (0, "new".toList) := by simpa using listed
    rw [same, show (oneUser regs repeatedRows).regs.userName 0 =
      "lyra".toList from name]
    exact ⟨by decide, by decide, by decide⟩
  refine ⟨regs, reached, (rsdbHookCall_iff reached keyed
    (oneUser_inStep one named) fits).mpr ⟨?_, ?_⟩⟩
  · intro account
    rw [changes]
    rfl
  · intro row listed
    have inTable : row ∈ (oneUser regs repeatedRows).sync :=
      (List.mem_filter.mp (List.mem_of_mem_take listed)).1
    simp only [oneUser, repeatedRows, List.map_cons, List.map_nil,
      List.mem_cons, List.not_mem_nil, or_false] at inTable
    obtain rfl | rfl | rfl := inTable <;> exact ⟨by decide, by decide⟩

/-- Of two passwords in one batch the second is the one in memory and the first
the one in the database. -/
theorem not_inStep_twice :
    ∃ regs, run (Regs.step (setDefaultConf "services.".toList)) Regs.empty
        registered = .ok regs ∧
      (oneUser regs differingRows).InStep .password ∧
      ∃ after statements,
        (oneUser regs differingRows).rsdbHookCall .plain .password
            (splitParams 15) = .ok (after, statements) ∧
          ¬after.InStep .password := by
  have observed : (run (Regs.step (setDefaultConf "services.".toList))
      Regs.empty registered).toOption.map (fun regs =>
        (regs.user.next, (regs.user.cell 0).map UserReg.name,
          ((oneUser regs differingRows).rsdbHookCall .plain .password
            (splitParams 15)).toOption.map fun ended =>
              [some (ended.1.value .password 0),
                (ended.1.regs.user.cell 0).map UserReg.name,
                column .password "lyra".toList ended.1.users])) =
      some (1, some "lyra".toList,
        some [some "two".toList, some "lyra".toList, some "one".toList]) := by
    decide +kernel
  obtain ⟨regs, reached, seen⟩ := Except.exists_of_observed observed
  simp only [Prod.mk.injEq] at seen
  obtain ⟨one, named, call⟩ := seen
  obtain ⟨⟨after, statements⟩, ended, result⟩ :=
    Except.exists_of_observed call
  simp only [List.cons.injEq, Option.some.injEq, and_true] at result
  obtain ⟨memory, still, database⟩ := result
  refine ⟨regs, reached, oneUser_inStep one named, after, statements, ended,
    fun same => ?_⟩
  obtain ⟨reg, found, name⟩ := Option.map_eq_some_iff.mp still
  have agrees := same 0 reg found
  rw [name, database, memory] at agrees
  revert agrees
  decide

end SyncState

end RatboxServices
