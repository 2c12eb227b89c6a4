import RatboxServices.Irc.Line
import RatboxServices.Lib.Run
import RatboxServices.Lib.Table
import RatboxServices.Serv.Ignore

namespace RatboxServices

open CString

/-! The welcome messages of the service GLOBAL: an array in memory, and the
table it is loaded from. -/

def welcomeMagic : Nat := 400

def welcomeMax : Nat := 6

/-- A row of `global_welcome`. -/
structure GlobalWelcome where
  id : Nat
  text : CString
  deriving DecidableEq, Repr

abbrev WelcomeTable := Table GlobalWelcome Nat GlobalWelcome.id

/-- `global_welcome_list`. -/
abbrev WelcomeList := Fin welcomeMax → Option CString

structure Welcomes where
  globalWelcomeList : WelcomeList
  globalWelcome : WelcomeTable

inductive WelcomeStop where
  /-- An index that the array does not have. -/
  | outOfBounds (id : Nat)
  /-- `rsdb_exec` ends the program when a statement fails. -/
  | problem
  deriving DecidableEq, Repr

inductive WelcomeReply where
  | welcometoolong (length most : Nat)
  | welcomeinvalid (id most : Nat)
  | welcomeset (id : Nat)
  | welcomenotset (id : Nat)
  | welcomedeleted (id : Nat)
  deriving DecidableEq, Repr

inductive WelcomeCommand where
  | addwelcome (parv : List CString)
  | delwelcome (parv : List CString)
  deriving DecidableEq, Repr

/-- `atoi` as it is stored in an `unsigned int`. -/
def welcomeId (text : CString) : Nat :=
  (atoi text % 4294967296).toNat

namespace Welcomes

variable {table : WelcomeTable}

def read (id : Nat) (list : WelcomeList) :
    Except WelcomeStop (Option CString) :=
  if inside : id < welcomeMax then .ok (list ⟨id, inside⟩)
  else .error (.outOfBounds id)

def write (id : Nat) (text : Option CString) (list : WelcomeList) :
    Except WelcomeStop WelcomeList :=
  if inside : id < welcomeMax then .ok (Function.update list ⟨id, inside⟩ text)
  else .error (.outOfBounds id)

/-- One row of `init_s_global`; the database prints its number. -/
def loadRow (list : WelcomeList) (row : GlobalWelcome) : WelcomeList :=
  let pos := welcomeId (decimal row.id)
  if inside : pos < welcomeMax then
    Function.update list ⟨pos, inside⟩ (some row.text)
  else list

def load (table : WelcomeTable) : WelcomeList :=
  table.rows.foldl loadRow fun _ => none

/-- `init_s_global`. -/
def initSGlobal (table : WelcomeTable) : Welcomes where
  globalWelcomeList := load table
  globalWelcome := table

/-- `o_global_addwelcome`. -/
def oGlobalAddwelcome (parv : List CString) (s : Welcomes) :
    Except WelcomeStop (WelcomeReply × Welcomes) := do
  let id := welcomeId (parv.getD 0 [])
  let data := rebuildParams parv 1
  if welcomeMagic < data.length then
    .ok (.welcometoolong data.length welcomeMagic, s)
  else if welcomeMax ≤ id then .ok (.welcomeinvalid id welcomeMax, s)
  else
    let old ← read id s.globalWelcomeList
    let table :=
      if old.isSome then s.globalWelcome.delete fun row => row.id == id
      else s.globalWelcome
    let list ← write id (some data) s.globalWelcomeList
    match table.insert ⟨id, data⟩ with
    | none => .error .problem
    | some table => .ok (.welcomeset id, ⟨list, table⟩)

/-- `o_global_delwelcome`. -/
def oGlobalDelwelcome (parv : List CString) (s : Welcomes) :
    Except WelcomeStop (WelcomeReply × Welcomes) := do
  let id := welcomeId (parv.getD 0 [])
  match ← read id s.globalWelcomeList with
  | none => .ok (.welcomenotset id, s)
  | some _ =>
      let table := s.globalWelcome.delete fun row => row.id == id
      let list ← write id none s.globalWelcomeList
      .ok (.welcomedeleted id, ⟨list, table⟩)

def command (s : Welcomes) :
    WelcomeCommand → Except WelcomeStop (WelcomeReply × Welcomes)
  | .addwelcome parv => s.oGlobalAddwelcome parv
  | .delwelcome parv => s.oGlobalDelwelcome parv

def step (s : Welcomes) (event : WelcomeCommand) :
    Except WelcomeStop Welcomes :=
  (s.command event).map Prod.snd

structure Mirrored (s : Welcomes) : Prop where
  rows : ∀ row, row ∈ s.globalWelcome.rows ↔
    ∃ inside : row.id < welcomeMax,
      s.globalWelcomeList ⟨row.id, inside⟩ = some row.text
  reload : load s.globalWelcome = s.globalWelcomeList

def Numbered : WelcomeCommand → Prop
  | .addwelcome _ => True
  | .delwelcome parv => welcomeId (parv.getD 0 []) < welcomeMax

variable {s t : Welcomes} {rows : List GlobalWelcome} {list : WelcomeList}
  {id : Nat} {text : CString}

theorem welcomeId_decimal (small : id < welcomeMax) :
    welcomeId (decimal id) = id := by
  have shown : formatInt id = decimal id := by
    rw [formatInt, if_neg (by omega), Int.natAbs_natCast]
  unfold welcomeMax at small
  rw [welcomeId, ← shown, atoi_formatInt (by omega) (by omega)]
  omega

theorem loadRow_eq {row : GlobalWelcome} (small : row.id < welcomeMax)
    (list : WelcomeList) :
    loadRow list row = Function.update list ⟨row.id, small⟩ (some row.text) := by
  unfold loadRow
  simp only [welcomeId_decimal small, dif_pos small]

theorem foldl_loadRow (small : ∀ row ∈ rows, row.id < welcomeMax)
    (unique : (rows.map GlobalWelcome.id).Nodup) (list : WelcomeList)
    (pos : Fin welcomeMax) :
    rows.foldl loadRow list pos = some text ↔
      ⟨pos, text⟩ ∈ rows ∨
        (∀ row ∈ rows, row.id ≠ pos) ∧ list pos = some text := by
  induction rows generalizing list with
  | nil => simp
  | cons row rest ih =>
      rw [List.map_cons, List.nodup_cons] at unique
      have first := small row List.mem_cons_self
      rw [List.foldl_cons,
        ih (fun other later => small other (List.mem_cons_of_mem row later))
          unique.2,
        loadRow_eq first]
      by_cases here : row.id = pos
      · have absent : ∀ other ∈ rest, other.id ≠ pos := by
          intro other later same
          exact unique.1 (List.mem_map.mpr ⟨other, later, same.trans here.symm⟩)
        have same : (⟨row.id, first⟩ : Fin welcomeMax) = pos := Fin.ext here
        rw [same, Function.update_self, List.mem_cons]
        constructor
        · rintro (later | ⟨_, shown⟩)
          · exact Or.inl (Or.inr later)
          · cases shown
            exact Or.inl (Or.inl (by rw [← here]))
        · rintro ((rfl | later) | ⟨others, _⟩)
          · exact Or.inr ⟨absent, rfl⟩
          · exact Or.inl later
          · exact absurd here (others row List.mem_cons_self)
      · have other : pos ≠ ⟨row.id, first⟩ := by
          rintro rfl
          exact here rfl
        rw [Function.update_of_ne other, List.mem_cons, List.forall_mem_cons]
        constructor
        · rintro (later | ⟨others, before⟩)
          · exact Or.inl (Or.inr later)
          · exact Or.inr ⟨⟨here, others⟩, before⟩
        · rintro ((rfl | later) | ⟨⟨_, others⟩, before⟩)
          · exact absurd rfl here
          · exact Or.inl later
          · exact Or.inr ⟨others, before⟩

theorem load_eq_some (small : ∀ row ∈ table.rows, row.id < welcomeMax)
    (pos : Fin welcomeMax) :
    load table pos = some text ↔ ⟨pos, text⟩ ∈ table.rows := by
  unfold load
  rw [foldl_loadRow small table.unique]
  constructor
  · rintro (listed | ⟨_, impossible⟩)
    · exact listed
    · cases impossible
  · exact Or.inl

theorem Mirrored.of_rows
    (rows : ∀ row, row ∈ s.globalWelcome.rows ↔
      ∃ inside : row.id < welcomeMax,
        s.globalWelcomeList ⟨row.id, inside⟩ = some row.text) :
    Mirrored s := by
  refine ⟨rows, ?_⟩
  have small : ∀ row ∈ s.globalWelcome.rows, row.id < welcomeMax :=
    fun row listed => ((rows row).mp listed).1
  funext pos
  apply Option.ext
  intro text
  rw [load_eq_some small, rows]
  exact ⟨fun ⟨_, set⟩ => set, fun set => ⟨pos.isLt, set⟩⟩

theorem mirrored_initSGlobal (small : ∀ row ∈ table.rows, row.id < welcomeMax) :
    Mirrored (initSGlobal table) := by
  apply Mirrored.of_rows
  intro row
  constructor
  · intro listed
    exact ⟨small row listed, (load_eq_some small _).mpr listed⟩
  · rintro ⟨inside, set⟩
    exact (load_eq_some small _).mp set

theorem mem_delete {row : GlobalWelcome} :
    row ∈ (table.delete fun row => row.id == id).rows ↔
      row ∈ table.rows ∧ row.id ≠ id := by
  simp [Table.delete]

theorem Mirrored.cleared (mirrored : Mirrored s) (inside : id < welcomeMax) :
    Mirrored
      ⟨Function.update s.globalWelcomeList ⟨id, inside⟩ none,
        s.globalWelcome.delete fun row => row.id == id⟩ := by
  apply Mirrored.of_rows
  intro row
  rw [mem_delete, mirrored.rows]
  by_cases same : row.id = id
  · subst same
    simp
  · simp [Fin.ext_iff, same]

theorem Mirrored.filled (mirrored : Mirrored ⟨list, table⟩)
    (inside : id < welcomeMax) (unset : list ⟨id, inside⟩ = none)
    (text : CString) :
    ∃ after, table.insert ⟨id, text⟩ = some after ∧
      Mirrored ⟨Function.update list ⟨id, inside⟩ (some text), after⟩ := by
  have new : ∀ there ∈ table.rows, there.id ≠ id := by
    rintro there listed rfl
    obtain ⟨_, set⟩ := (mirrored.rows there).mp listed
    have both := unset.symm.trans set
    cases both
  obtain ⟨after, inserted⟩ : ∃ after, table.insert ⟨id, text⟩ = some after :=
    Table.exists_insert new
  refine ⟨after, inserted, Mirrored.of_rows fun row => ?_⟩
  rw [Table.insert_eq_some inserted, List.mem_append, List.mem_singleton,
    mirrored.rows]
  by_cases same : row.id = id
  · subst same
    simp only [unset, Function.update_self]
    constructor
    · rintro (⟨_, impossible⟩ | equal)
      · cases impossible
      · exact ⟨inside, by rw [equal]⟩
    · rintro ⟨_, shown⟩
      cases shown
      exact Or.inr rfl
  · have apart : row ≠ ⟨id, text⟩ := by
      rintro rfl
      exact same rfl
    simp [Fin.ext_iff, same, apart]

theorem add_mirrored (mirrored : Mirrored s) (parv : List CString) :
    ∃ reply t, s.oGlobalAddwelcome parv = .ok (reply, t) ∧ Mirrored t := by
  unfold oGlobalAddwelcome
  dsimp only
  generalize welcomeId (parv.getD 0 []) = id
  generalize rebuildParams parv 1 = data
  split
  · exact ⟨_, s, rfl, mirrored⟩
  · split
    · exact ⟨_, s, rfl, mirrored⟩
    · rename_i few
      have inside : id < welcomeMax := Nat.lt_of_not_le few
      have opened : Mirrored
          ⟨Function.update s.globalWelcomeList ⟨id, inside⟩ none,
            if (s.globalWelcomeList ⟨id, inside⟩).isSome then
              s.globalWelcome.delete fun row => row.id == id
            else s.globalWelcome⟩ := by
        cases old : s.globalWelcomeList ⟨id, inside⟩ with
        | none =>
            have kept : Function.update s.globalWelcomeList ⟨id, inside⟩ none =
                s.globalWelcomeList := by
              rw [← old, Function.update_eq_self]
            rw [kept]
            exact mirrored
        | some _ => exact mirrored.cleared inside
      obtain ⟨after, inserted, filled⟩ :=
        opened.filled inside (Function.update_self ..) data
      rw [Function.update_idem] at filled
      rw [read, dif_pos inside, Except.ok_bind, write, dif_pos inside,
        Except.ok_bind, inserted]
      exact ⟨_, _, rfl, filled⟩

theorem del_mirrored (mirrored : Mirrored s) {parv : List CString}
    (inside : welcomeId (parv.getD 0 []) < welcomeMax) :
    ∃ reply t, s.oGlobalDelwelcome parv = .ok (reply, t) ∧ Mirrored t := by
  unfold oGlobalDelwelcome
  dsimp only
  rw [read, dif_pos inside, Except.ok_bind]
  split
  · exact ⟨_, s, rfl, mirrored⟩
  · rw [write, dif_pos inside, Except.ok_bind]
    exact ⟨_, _, rfl, mirrored.cleared inside⟩

theorem step_of_numbered {event : WelcomeCommand} (mirrored : Mirrored s)
    (numbered : Numbered event) : ∃ t, s.step event = .ok t ∧ Mirrored t := by
  cases event with
  | addwelcome parv =>
      obtain ⟨reply, t, added, kept⟩ := add_mirrored mirrored parv
      exact ⟨t, congrArg (Except.map Prod.snd) added, kept⟩
  | delwelcome parv =>
      obtain ⟨reply, t, deleted, kept⟩ := del_mirrored mirrored numbered
      exact ⟨t, congrArg (Except.map Prod.snd) deleted, kept⟩

theorem numbered_of_step {event : WelcomeCommand} (went : s.step event = .ok t) :
    Numbered event := by
  cases event with
  | addwelcome parv => trivial
  | delwelcome parv =>
      show welcomeId (parv.getD 0 []) < welcomeMax
      by_contra outside
      have stopped : s.step (.delwelcome parv) =
          .error (.outOfBounds (welcomeId (parv.getD 0 []))) := by
        unfold step command oGlobalDelwelcome
        dsimp only
        rw [read, dif_neg outside]
        rfl
      rw [stopped] at went
      cases went

/-- No access is out of bounds, and table and array agree, if and only if every
number to be deleted is one of the array's. -/
theorem mirrored_run_iff (small : ∀ row ∈ table.rows, row.id < welcomeMax)
    (events : List WelcomeCommand) :
    (∃ t, run step (initSGlobal table) events = .ok t ∧ Mirrored t) ↔
      ∀ event ∈ events, Numbered event := by
  have start := mirrored_initSGlobal small
  generalize initSGlobal table = s at start
  constructor
  · rintro ⟨t, ran, _⟩
    induction events generalizing s with
    | nil => simp
    | cons event rest ih =>
        obtain ⟨after, went, ran⟩ := run_cons_eq_ok.mp ran
        have numbered := numbered_of_step went
        obtain ⟨again, same, kept⟩ := step_of_numbered start numbered
        rw [went] at same
        cases same
        exact List.forall_mem_cons.mpr ⟨numbered, ih after kept ran⟩
  · intro numbered
    exact run_of_meets Mirrored
      (fun _ _ numbered kept => step_of_numbered kept numbered)
      (meets_of_mem (fun event listed _ => numbered event listed) s) start

/-- A welcome that is set, replaced and deleted. -/
theorem mirrored_run_replaced :
    ∃ t, run step (initSGlobal .empty)
        [.addwelcome ["1".toList, "hello".toList],
          .addwelcome ["1".toList, "there".toList],
          .delwelcome ["1".toList]] = .ok t ∧ Mirrored t :=
  (mirrored_run_iff (by simp [Table.empty]) _).mpr (by
    simp only [List.forall_mem_cons, List.not_mem_nil, false_implies,
      implies_true, and_true]
    have inside : welcomeId "1".toList < welcomeMax := by decide
    exact ⟨trivial, trivial, inside⟩)

/-- `DELWELCOME 6` reads behind the array. -/
theorem not_mirrored_six :
    ¬∃ t, run step (initSGlobal .empty) [.delwelcome ["6".toList]] = .ok t ∧
      Mirrored t := by
  have stopped : run step (initSGlobal .empty) [.delwelcome ["6".toList]] =
      .error (.outOfBounds 6) := rfl
  rintro ⟨t, ran, _⟩
  rw [stopped] at ran
  cases ran

end Welcomes

end RatboxServices
