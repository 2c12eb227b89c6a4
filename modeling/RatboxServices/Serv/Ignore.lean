import RatboxServices.Irc.Match
import RatboxServices.Lib.Table
import RatboxServices.Net.Link

namespace RatboxServices

open CString
open State (validBan)

/-! The ignores of OperServ: the list that `find_ignore` looks at, and the
table that it is loaded from. -/

/-- `rebuild_params`. What does not go into its buffer is left out. -/
def rebuildParams (parv : List CString) (start : Nat) : CString :=
  strlcpy State.bufSize (List.intercalate [' '] (parv.drop start))

/-- A row of `ignore_hosts`. -/
structure IgnoreHost where
  hostname : CString
  oper : CString
  reason : CString
  deriving DecidableEq, Repr

/-- `struct service_ignore`. Its first bytes are those of the pointer to the
mask; `record` is the string that is found there when it is read as one. -/
structure ServiceIgnore where
  mask : CString
  reason : CString
  oper : CString
  record : CString
  deriving DecidableEq, Repr

def ServiceIgnore.host (ignore : ServiceIgnore) : IgnoreHost :=
  ⟨ignore.mask, ignore.oper, ignore.reason⟩

structure Ignores where
  ignoreList : List ServiceIgnore
  ignoreHosts : Table IgnoreHost CString IgnoreHost.hostname

inductive IgnoreReply where
  | invalidMask (mask : CString)
  | ignoreAlready (mask shown : CString)
  | ignoreNotFound (mask : CString)
  | successful
  deriving DecidableEq, Repr

/-- `rsdb_exec` ends the program when a statement fails. -/
inductive DbStop where
  | problem
  deriving DecidableEq, Repr

inductive IgnoreCommand where
  | addignore (parv : List CString) (oper record : CString)
  | delignore (parv : List CString)
  deriving DecidableEq, Repr

namespace Ignores

/-- `ignore_db_callback`. -/
def ignoreDbCallback (list : List IgnoreHost) (row : IgnoreHost) :
    List IgnoreHost :=
  if row.hostname.isEmpty || row.oper.isEmpty || row.reason.isEmpty then list
  else row :: list

/-- The list that `init_services` loads. -/
def load (hosts : List IgnoreHost) : List IgnoreHost :=
  hosts.foldl ignoreDbCallback []

/-- `o_oper_addignore`. The masks are compared with the records themselves. -/
def oOperAddignore (nickLen : Nat) (parv : List CString)
    (oper record : CString) (s : Ignores) :
    Except DbStop (IgnoreReply × Ignores) :=
  let mask := parv.getD 0 []
  if !validBan nickLen mask then .ok (.invalidMask mask, s)
  else
    match s.ignoreList.find? fun ignore => match_ ignore.record mask with
    | some ignore => .ok (.ignoreAlready mask ignore.record, s)
    | none =>
        let ignore : ServiceIgnore :=
          ⟨collapse mask, rebuildParams parv 1, oper, record⟩
        match s.ignoreHosts.insert ignore.host with
        | none => .error .problem
        | some hosts =>
            .ok (.successful, ⟨ignore :: s.ignoreList, hosts⟩)

/-- `o_oper_delignore`. -/
def oOperDelignore (parv : List CString) (s : Ignores) :
    IgnoreReply × Ignores :=
  let mask := parv.getD 0 []
  if s.ignoreList.any fun ignore => irccmp ignore.mask mask then
    (.successful,
      { ignoreList := s.ignoreList.eraseP fun ignore => irccmp ignore.mask mask
        ignoreHosts := s.ignoreHosts.delete fun row => row.hostname == mask })
  else (.ignoreNotFound mask, s)

def command (nickLen : Nat) (s : Ignores) :
    IgnoreCommand → Except DbStop (IgnoreReply × Ignores)
  | .addignore parv oper record => s.oOperAddignore nickLen parv oper record
  | .delignore parv => .ok (s.oOperDelignore parv)

def step (nickLen : Nat) (s : Ignores) (event : IgnoreCommand) :
    Except DbStop Ignores :=
  (s.command nickLen event).map Prod.snd

/-- `init_services` on a table, with whatever the records look like. -/
def initServices (records : IgnoreHost → CString)
    (hosts : Table IgnoreHost CString IgnoreHost.hostname) : Ignores where
  ignoreList := (load hosts.rows).map fun row =>
    ⟨row.hostname, row.reason, row.oper, records row⟩
  ignoreHosts := hosts

def complete (row : IgnoreHost) : Bool :=
  !(row.hostname.isEmpty || row.oper.isEmpty || row.reason.isEmpty)

theorem load_eq (hosts : List IgnoreHost) :
    load hosts = (hosts.filter complete).reverse := by
  have from_ : ∀ list, hosts.foldl ignoreDbCallback list =
      (hosts.filter complete).reverse ++ list := by
    induction hosts with
    | nil => simp
    | cons row rest ih =>
        intro list
        rw [List.foldl_cons, ih, ignoreDbCallback]
        cases whole : row.hostname.isEmpty || row.oper.isEmpty ||
            row.reason.isEmpty with
        | true => simp [complete, whole]
        | false => simp [complete, whole]
  rw [load, from_, List.append_nil]

def Reloads (s : Ignores) : Prop :=
  load s.ignoreHosts.rows = s.ignoreList.map ServiceIgnore.host

theorem reloads_initServices (records : IgnoreHost → CString)
    (hosts : Table IgnoreHost CString IgnoreHost.hostname) :
    Reloads (initServices records hosts) := by
  show load hosts.rows = List.map _ (List.map _ _)
  rw [List.map_map]
  exact (List.map_id _).symm

theorem Reloads.nodup {s : Ignores} (reloads : Reloads s) :
    (s.ignoreList.map ServiceIgnore.mask).Nodup := by
  have masks : s.ignoreList.map ServiceIgnore.mask =
      (load s.ignoreHosts.rows).map IgnoreHost.hostname := by
    rw [reloads, List.map_map]
    rfl
  rw [masks, load_eq, List.map_reverse, List.nodup_reverse]
  exact s.ignoreHosts.unique.sublist (List.filter_sublist.map _)

theorem eraseP_eq_filter {list : List ServiceIgnore} {mask : CString}
    (nodup : (list.map ServiceIgnore.mask).Nodup)
    (exact_ : ∀ ignore, list.find? (fun ignore => irccmp ignore.mask mask) =
      some ignore → ignore.mask = mask) :
    list.eraseP (fun ignore => irccmp ignore.mask mask) =
      list.filter fun ignore => !(ignore.mask == mask) := by
  induction list with
  | nil => rfl
  | cons ignore rest ih =>
      rw [List.map_cons, List.nodup_cons] at nodup
      cases same : irccmp ignore.mask mask with
      | true =>
          have equal : ignore.mask = mask := exact_ ignore (by simp [same])
          have others : rest.filter (fun other => !(other.mask == mask)) =
              rest := by
            rw [List.filter_eq_self]
            intro other listed
            have different : other.mask ≠ mask := by
              intro again
              exact nodup.1 (List.mem_map.mpr
                ⟨other, listed, again.trans equal.symm⟩)
            simpa using different
          rw [List.eraseP_cons, same, List.filter_cons, equal,
            beq_self_eq_true, Bool.not_true, if_neg (by simp), others]
          rfl
      | false =>
          have different : ignore.mask ≠ mask := by
            intro equal
            rw [equal] at same
            simp [irccmp] at same
          rw [List.eraseP_cons, same, List.filter_cons,
            if_pos (by simpa using different), ← ih nodup.2]
          · rfl
          intro other found
          exact exact_ other (by rw [List.find?_cons, same]; exact found)

/-- What makes a command do the same to both: a mask that nothing matches and
that is new to the table, a reason and a name that are not empty; for a mask
to be deleted, its very spelling. -/
def Agreeing (nickLen : Nat) (s : Ignores) : IgnoreCommand → Prop
  | .addignore parv oper _ =>
      validBan nickLen (parv.getD 0 []) = true →
        (∀ ignore ∈ s.ignoreList,
          match_ ignore.mask (parv.getD 0 []) = false ∧
            match_ ignore.record (parv.getD 0 []) = false) ∧
        (∀ row ∈ s.ignoreHosts.rows,
          row.hostname ≠ collapse (parv.getD 0 [])) ∧
        oper ≠ [] ∧ rebuildParams parv 1 ≠ []
  | .delignore parv =>
      ∀ ignore ∈ s.ignoreList.find? fun ignore =>
        irccmp ignore.mask (parv.getD 0 []), ignore.mask = parv.getD 0 []

instance (nickLen : Nat) (s : Ignores) (event : IgnoreCommand) :
    Decidable (Agreeing nickLen s event) :=
  match event with
  | .addignore _ _ _ => inferInstanceAs (Decidable (_ → _))
  | .delignore parv =>
      match found : s.ignoreList.find? fun ignore =>
          irccmp ignore.mask (parv.getD 0 []) with
      | none => isTrue fun ignore there => by
          rw [found] at there
          cases there
      | some ignore =>
          decidable_of_iff (ignore.mask = parv.getD 0 []) <| by
            show _ ↔ ∀ other ∈ List.find? _ _, _
            rw [found]
            simp

def Refused (nickLen : Nat) (parv : List CString) (oper record : CString)
    (s : Ignores) : Prop :=
  ∃ shown after, s.oOperAddignore nickLen parv oper record =
    .ok (.ignoreAlready (parv.getD 0 []) shown, after)

section Run

variable {nickLen : Nat} {s : Ignores} {parv : List CString}
  {oper record : CString}

theorem collapse_ne_nil {pattern : CString} (given : pattern ≠ []) :
    collapse pattern ≠ [] := by
  cases pattern with
  | nil => exact absurd rfl given
  | cons c rest =>
      unfold collapse collapseFrom
      split <;> simp

theorem mask_ne_nil {mask : CString} (valid : validBan nickLen mask = true) :
    mask ≠ [] := by
  rintro rfl
  cases valid

theorem oOperAddignore_agreeing (reloads : Reloads s)
    (agreeing : Agreeing nickLen s (.addignore parv oper record)) :
    ∃ reply after, s.oOperAddignore nickLen parv oper record =
        .ok (reply, after) ∧ Reloads after ∧
      (∀ mask shown, reply ≠ .ignoreAlready mask shown) := by
  unfold Agreeing at agreeing
  unfold oOperAddignore
  dsimp only at agreeing ⊢
  generalize parv.getD 0 [] = mask at agreeing ⊢
  cases valid : validBan nickLen mask with
  | false => exact ⟨_, s, rfl, reloads, by simp⟩
  | true =>
      obtain ⟨unmatched, new, named, reasoned⟩ := agreeing valid
      have none_ : s.ignoreList.find? (fun ignore =>
          match_ ignore.record mask) = none := by
        rw [List.find?_eq_none]
        intro ignore listed
        simp [(unmatched ignore listed).2]
      obtain ⟨hosts, inserted⟩ : ∃ hosts, s.ignoreHosts.insert
          ⟨collapse mask, oper, rebuildParams parv 1⟩ = some hosts :=
        Table.exists_insert new
      have masked : collapse mask ≠ [] := collapse_ne_nil (mask_ne_nil valid)
      rw [none_]
      dsimp only [ServiceIgnore.host]
      rw [inserted]
      refine ⟨_, _, rfl, ?_, by simp⟩
      have loaded := load_eq s.ignoreHosts.rows
      unfold Reloads at reloads ⊢
      dsimp only
      rw [load_eq, Table.insert_eq_some inserted, List.filter_append,
        List.reverse_append, ← loaded, reloads]
      have whole : complete ⟨collapse mask, oper, rebuildParams parv 1⟩ =
          true := by
        simp [complete, masked, named, reasoned]
      rw [List.filter_singleton, whole]
      rfl

theorem oOperDelignore_agreeing (reloads : Reloads s)
    (agreeing : Agreeing nickLen s (.delignore parv)) :
    Reloads (s.oOperDelignore parv).2 := by
  unfold oOperDelignore
  dsimp only
  split
  · have erased := eraseP_eq_filter reloads.nodup agreeing
    have loaded := load_eq s.ignoreHosts.rows
    unfold Reloads at reloads ⊢
    dsimp only [Table.delete]
    rw [load_eq, erased, List.filter_comm, List.filter_reverse.symm, ← loaded,
      reloads, List.filter_map]
    rfl
  · exact reloads

theorem step_agreeing {event : IgnoreCommand} (reloads : Reloads s)
    (agreeing : Agreeing nickLen s event) :
    ∃ after, step nickLen s event = .ok after ∧ Reloads after := by
  cases event with
  | addignore parv oper record =>
      obtain ⟨reply, after, done, kept, -⟩ :=
        oOperAddignore_agreeing reloads agreeing
      refine ⟨after, ?_, kept⟩
      show (s.oOperAddignore nickLen parv oper record).map Prod.snd = _
      rw [done]
      rfl
  | delignore parv =>
      exact ⟨_, rfl, oOperDelignore_agreeing reloads agreeing⟩

/-- As long as the commands agree, the program goes on, the list is the one that
would be loaded again, and masks are refused as they should be. -/
theorem ignores_of_run {records : IgnoreHost → CString}
    {hosts : Table IgnoreHost CString IgnoreHost.hostname}
    {commands : List IgnoreCommand}
    (meets : Meets (step nickLen) (Agreeing nickLen)
      (initServices records hosts) commands) :
    ∃ s, run (step nickLen) (initServices records hosts) commands = .ok s ∧
      Reloads s ∧
      ∀ before parv oper record after t,
        commands = before ++ .addignore parv oper record :: after →
        run (step nickLen) (initServices records hosts) before = .ok t →
        validBan nickLen (parv.getD 0 []) = true →
        (Refused nickLen parv oper record t ↔
          ∃ ignore ∈ t.ignoreList,
            match_ ignore.mask (parv.getD 0 []) = true) := by
  have goes : ∀ s event, Agreeing nickLen s event → Reloads s →
      ∃ after, step nickLen s event = .ok after ∧ Reloads after :=
    fun s event agreeing reloads => step_agreeing reloads agreeing
  obtain ⟨s, reached, reloads⟩ := run_of_meets Reloads goes meets
    (reloads_initServices records hosts)
  refine ⟨s, reached, reloads, ?_⟩
  rintro before parv oper record after t rfl there valid
  obtain ⟨t', again, kept⟩ := run_of_meets Reloads goes meets.left
    (reloads_initServices records hosts)
  rw [there] at again
  cases again
  have agreeing := (meets.after there).1
  obtain ⟨reply, u, done, -, other⟩ := oOperAddignore_agreeing kept agreeing
  constructor
  · rintro ⟨shown, v, refused⟩
    rw [done] at refused
    cases refused
    exact absurd rfl (other _ _)
  · rintro ⟨ignore, listed, same⟩
    rw [((agreeing valid).1 ignore listed).1] at same
    cases same

end Run

def twoIgnores : List IgnoreCommand :=
  [.addignore ["*!*@host".toList, "flood".toList] "oper".toList
      "\x90\xa2\x75UUU".toList,
    .addignore ["n!u@**.net".toList, "more".toList, "flood".toList] "oper".toList
      "\xf0\xa2\x75UUU".toList,
    .delignore ["*!*@host".toList]]

theorem ignores_of_run_two :
    Meets (step 30) (Agreeing 30) (initServices (fun _ => []) .empty)
        twoIgnores ∧
      ∃ s, run (step 30) (initServices (fun _ => []) .empty) twoIgnores =
          .ok s ∧ Reloads s := by
  have meets : Meets (step 30) (Agreeing 30)
      (initServices (fun _ => []) .empty) twoIgnores := by decide +kernel
  obtain ⟨s, reached, reloads, -⟩ := ignores_of_run meets
  exact ⟨meets, s, reached, reloads⟩

/-- A mask that another one matches is not refused, and an ignore deleted in
another spelling is still in the table. -/
theorem not_ignores_of_run :
    (∃ s, run (step 30) (initServices (fun _ => []) .empty)
        [.addignore ["*!*@host".toList, "flood".toList] "oper".toList
          "\x90\xa2\x75UUU".toList] = .ok s ∧
      (∃ ignore ∈ s.ignoreList,
        match_ ignore.mask "n!u@host".toList = true) ∧
      ¬Refused 30 ["n!u@host".toList, "flood".toList] "oper".toList
        "\xf0\xa2\x75UUU".toList s) ∧
    ∃ s, run (step 30) (initServices (fun _ => []) .empty)
        [.addignore ["n!u@Host".toList, "flood".toList] "oper".toList
          "\x90\xa2\x75UUU".toList, .delignore ["n!u@host".toList]] = .ok s ∧
      ¬Reloads s := by
  constructor
  · have observed : (run (step 30) (initServices (fun _ => []) .empty)
        [.addignore ["*!*@host".toList, "flood".toList] "oper".toList
          "\x90\xa2\x75UUU".toList]).toOption.map (fun s =>
        (s.ignoreList.any fun ignore => match_ ignore.mask "n!u@host".toList,
          (s.oOperAddignore 30 ["n!u@host".toList, "flood".toList]
            "oper".toList "\xf0\xa2\x75UUU".toList).toOption.map Prod.fst)) =
        some (true, some .successful) := by
      decide +kernel
    obtain ⟨s, reached, seen⟩ := Except.exists_of_observed observed
    obtain ⟨listed, reply⟩ := Prod.mk.inj seen
    refine ⟨s, reached, ?_, ?_⟩
    · simpa using listed
    · rintro ⟨shown, after, refused⟩
      rw [refused] at reply
      cases reply
  · have observed : (run (step 30) (initServices (fun _ => []) .empty)
        [.addignore ["n!u@Host".toList, "flood".toList] "oper".toList
          "\x90\xa2\x75UUU".toList,
          .delignore ["n!u@host".toList]]).toOption.map (fun s =>
        (load s.ignoreHosts.rows == s.ignoreList.map ServiceIgnore.host)) =
        some false := by
      decide +kernel
    obtain ⟨s, reached, seen⟩ := Except.exists_of_observed observed
    refine ⟨s, reached, fun reloads => ?_⟩
    rw [reloads] at seen
    simp at seen

end Ignores

end RatboxServices
