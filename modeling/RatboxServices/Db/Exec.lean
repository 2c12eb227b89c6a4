import RatboxServices.Db.Format

namespace RatboxServices

open CString
open Format Expansion

/-! The functions that print a statement and hand it to the database. -/

namespace Sql

def cString (buf : CString) : CString :=
  buf.takeWhile (· != '\x00')

def compile (format : CString) (args : List FormatArg) :
    Except FormatStop CString := do
  let buf ← rsVsnprintf sqlBufSize format args
  if sqlBufSize ≤ buf.length then .error .die
  else .ok (cString buf)

/-- `rsdb_exec`: the statement handed to the database. -/
def rsdbExec (format : CString) (args : List FormatArg) :
    Except FormatStop CString :=
  compile format args

/-- `rsdb_exec_insert`. -/
def rsdbExecInsert (format : CString) (args : List FormatArg) :
    Except FormatStop CString := do
  let buf ← compile format args
  rsdbExec "%s".toList [.str (some buf)]

/-- `rsdb_exec_fetch`. -/
def rsdbExecFetch (format : CString) (args : List FormatArg) :
    Except FormatStop CString :=
  compile format args

/-- `rsdb_hook_schedule`: the statement put into the list. -/
def rsdbHookSchedule (format : CString) (args : List FormatArg) :
    Except FormatStop CString :=
  compile format args

/-- What `rsdb_hook_schedule_execute` does with one entry of the list. -/
def executeScheduled (sql : CString) : Except FormatStop CString :=
  rsdbExec "%s".toList [.str (some sql)]

/-- The calls, where a scheduled statement is looked at when it is put into the
list and when it is taken from there. -/
inductive Call
  | exec
  | insert
  | fetch
  | schedule
  | scheduled
  deriving DecidableEq, Repr

def Call.statement (call : Call) (format : CString) (args : List FormatArg) :
    Except FormatStop CString :=
  match call with
  | .exec => rsdbExec format args
  | .insert => rsdbExecInsert format args
  | .fetch => rsdbExecFetch format args
  | .schedule => rsdbHookSchedule format args
  | .scheduled => (rsdbHookSchedule format args).bind executeScheduled

def Faithful (result : Except FormatStop CString) (whole : Expansion) : Prop :=
  match result with
  | .ok statement => whole = print statement
  | .error .die => True
  | .error .undefined => False

instance (result : Except FormatStop CString) (whole : Expansion) :
    Decidable (Faithful result whole) :=
  match result with
  | .ok statement => inferInstanceAs (Decidable (whole = print statement))
  | .error .die => .isTrue trivial
  | .error .undefined => .isFalse id

/-- The expansion fits into the buffer, or what makes the process end comes
before the buffer is full. -/
def Fits (whole : Expansion) : Prop :=
  match whole.stop with
  | none => whole.text.length < sqlBufSize ∧ '\x00' ∉ whole.text
  | some .die => whole.text.length + 1 < sqlBufSize
  | some .undefined => False

theorem cString_eq_self {buf : CString} :
    cString buf = buf ↔ '\x00' ∉ buf := by
  unfold cString
  rw [List.takeWhile_eq_self_iff]
  constructor
  · intro all listed
    simpa using all _ listed
  · intro inside c listed
    have other : c ≠ '\x00' := by
      rintro rfl
      exact inside listed
    simpa using other

theorem cString_length_le (buf : CString) :
    (cString buf).length ≤ buf.length :=
  (List.takeWhile_prefix _).length_le

theorem not_mem_cString (buf : CString) : '\x00' ∉ cString buf := by
  intro listed
  simpa using List.mem_takeWhile_imp listed

theorem compile_eq (format : CString) (args : List FormatArg) :
    compile format args =
      (write (sqlBufSize - 1) [] (expand format args)).map cString := by
  unfold compile
  rw [← rsVsnprintf_eq]
  cases printed : rsVsnprintf sqlBufSize format args with
  | error stop => rfl
  | ok buf =>
      have short : buf.length < sqlBufSize :=
        rsVsnprintf_length (by decide) printed
      exact if_neg (by omega)

theorem compile_ok {format : CString} {args : List FormatArg}
    {sql : CString} (compiled : compile format args = .ok sql) :
    sql.length < sqlBufSize ∧ '\x00' ∉ sql := by
  rw [compile_eq] at compiled
  cases written : write (sqlBufSize - 1) [] (expand format args) with
  | error stop =>
      rw [written] at compiled
      cases compiled
  | ok buf =>
      rw [written] at compiled
      cases compiled
      have short := write_length written
      have cut := cString_length_le buf
      have sized : 0 < sqlBufSize := by decide
      exact ⟨by omega, not_mem_cString buf⟩

theorem executeScheduled_eq {sql : CString}
    (short : sql.length < sqlBufSize) (inside : '\x00' ∉ sql) :
    executeScheduled sql = .ok sql := by
  have whole : expand "%s".toList [.str (some sql)] = print sql := by
    show Expansion.mk (sql ++ []) none = _
    rw [List.append_nil, print]
  have kept : sql.take (sqlBufSize - 1) = sql :=
    List.take_of_length_le (by omega)
  rw [executeScheduled, rsdbExec, compile_eq, whole]
  show Except.ok (cString (sql.take (sqlBufSize - 1))) = _
  rw [kept, cString_eq_self.mpr inside]

theorem compile_bind_executeScheduled (format : CString)
    (args : List FormatArg) :
    (compile format args).bind executeScheduled = compile format args := by
  cases compiled : compile format args with
  | error stop => rfl
  | ok sql =>
      obtain ⟨short, inside⟩ := compile_ok compiled
      exact executeScheduled_eq short inside

theorem Call.statement_eq (call : Call) (format : CString)
    (args : List FormatArg) :
    call.statement format args = compile format args := by
  cases call with
  | exec => rfl
  | insert => exact compile_bind_executeScheduled format args
  | fetch => rfl
  | schedule => rfl
  | scheduled => exact compile_bind_executeScheduled format args

theorem take_eq_self_of_cString {text : CString} {size : Nat}
    (whole : cString (text.take size) = text) : text.length ≤ size := by
  have short := cString_length_le (text.take size)
  rw [whole, List.length_take] at short
  omega

theorem faithful_write (whole : Expansion) :
    Faithful ((write (sqlBufSize - 1) [] whole).map cString) whole ↔
      Fits whole := by
  obtain ⟨text, stop⟩ := whole
  cases stop with
  | none =>
      show Expansion.mk text none = print (cString (text.take 2047)) ↔
        text.length < 2048 ∧ '\x00' ∉ text
      constructor
      · intro same
        have whole : cString (text.take 2047) = text :=
          (congrArg Expansion.text same).symm
        have short : text.length ≤ 2047 := take_eq_self_of_cString whole
        rw [List.take_of_length_le short] at whole
        exact ⟨by omega, cString_eq_self.mp whole⟩
      · rintro ⟨short, inside⟩
        rw [List.take_of_length_le (by omega), cString_eq_self.mpr inside,
          print]
  | some stop =>
      have never : ∀ statement, Expansion.mk text (some stop) ≠
          print statement := by
        intro statement same
        cases same
      by_cases room : text.length < 2047
      · have stopped : write (sqlBufSize - 1) [] ⟨text, some stop⟩ =
            .error stop := if_pos room
        rw [stopped]
        cases stop with
        | die =>
            have fits : text.length + 1 < sqlBufSize := by
              unfold sqlBufSize
              omega
            exact ⟨fun _ => fits, fun _ => trivial⟩
        | undefined => exact Iff.rfl
      · have full : write (sqlBufSize - 1) [] ⟨text, some stop⟩ =
            .ok (text.take 2047) := if_neg room
        rw [full]
        refine ⟨fun same => absurd same (never _), fun fits => ?_⟩
        cases stop with
        | die =>
            have small : text.length + 1 < 2048 := fits
            omega
        | undefined => exact absurd fits id

/-- A call hands over the full expansion or ends in an error if and only if the
expansion, or what is printed before the error, fits into the buffer. -/
theorem Call.faithful_iff (call : Call) (format : CString)
    (args : List FormatArg) :
    Faithful (call.statement format args) (expand format args) ↔
      Fits (expand format args) := by
  rw [call.statement_eq, compile_eq]
  exact faithful_write _

/-- What `dbh_user_setemail` schedules. -/
def setEmailFormat : CString :=
  "UPDATE users SET email='%Q' WHERE username='%Q'".toList

/-- An address of 1011 quotes leaves no room for the condition, and the
statement is about every user. -/
theorem not_faithful_setEmail :
    Call.schedule.statement setEmailFormat
        [.str (some (List.replicate 1011 '\'')),
          .str (some "lyra".toList)] =
      .ok ("UPDATE users SET email='".toList ++
        List.replicate 2022 '\'' ++ ['\'']) ∧
    ¬Faithful
      (Call.schedule.statement setEmailFormat
        [.str (some (List.replicate 1011 '\'')),
          .str (some "lyra".toList)])
      (expand setEmailFormat
        [.str (some (List.replicate 1011 '\'')),
          .str (some "lyra".toList)]) := by
  decide +kernel

end Sql

end RatboxServices
