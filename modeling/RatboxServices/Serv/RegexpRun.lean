import RatboxServices.Serv.RegexpLoad

namespace RatboxServices

open CString

theorem Except.map_eq_ok {ε α β : Type} {change : α → β} {result : Except ε α}
    {value : β} :
    result.map change = .ok value ↔ ∃ old, result = .ok old ∧ change old = value := by
  cases result with
  | error stop =>
      constructor
      · nofun
      · rintro ⟨_, impossible, _⟩
        cases impossible
  | ok old =>
      constructor
      · intro same
        exact ⟨old, rfl, Except.ok.inj same⟩
      · rintro ⟨_, same, rfl⟩
        cases same
        rfl

namespace BanRegexps

/-! Memory and database agree after every run. -/

variable {pcre : Pcre} {conf : RegexpConf} {now : Int} {text : CString}

inductive Frees : List (RegexpBan pcre) → RegexpTables →
    List (RegexpBan pcre) → RegexpTables → Prop
  | done (list : List (RegexpBan pcre)) (tables : RegexpTables) :
      Frees list tables list tables
  | free {ban : RegexpBan pcre} {rest kept : List (RegexpBan pcre)}
      {tables after : RegexpTables}
      (frees : Frees rest (tables.free ban.id) kept after) :
      Frees (ban :: rest) tables kept after
  | keep {ban : RegexpBan pcre} {rest kept : List (RegexpBan pcre)}
      {tables after : RegexpTables} (frees : Frees rest tables kept after) :
      Frees (ban :: rest) tables (ban :: kept) after

theorem clientLoop_frees (list : List (RegexpBan pcre)) (tables : RegexpTables) :
    Frees list tables (clientLoop now text list tables).1
      (clientLoop now text list tables).2.1 := by
  induction list generalizing tables with
  | nil => exact .done _ _
  | cons ban rest ih =>
      rw [clientLoop]
      split
      · exact .free (ih _)
      · split
        · split
          · exact .done _ _
          · exact .done _ _
        · exact .keep (ih _)

theorem expireLoop_frees (list : List (RegexpBan pcre)) (tables : RegexpTables) :
    Frees list tables (expireLoop now list tables).1
      (expireLoop now list tables).2 := by
  induction list generalizing tables with
  | nil => exact .done _ _
  | cons ban rest ih =>
      rw [expireLoop]
      split
      · exact .free (ih _)
      · exact .keep (ih _)

theorem eraseP_frees {list : List (RegexpBan pcre)} {tables : RegexpTables}
    {test : RegexpBan pcre → Bool} {ban : RegexpBan pcre}
    (found : list.find? test = some ban) :
    Frees list tables (list.eraseP test) (tables.free ban.id) := by
  induction list with
  | nil => cases found
  | cons other rest ih =>
      cases tested : test other with
      | true =>
          rw [List.find?_cons_of_pos tested] at found
          cases found
          rw [List.eraseP_cons_of_pos tested]
          exact .free (.done _ _)
      | false =>
          rw [List.find?_cons_of_neg (by simpa using tested)] at found
          rw [List.eraseP_cons_of_neg (by simpa using tested)]
          exact .keep (ih found)

theorem Frees.spec {list kept : List (RegexpBan pcre)}
    {tables after : RegexpTables} (frees : Frees list tables kept after)
    (ids : (list.map (·.id)).Nodup) :
    ∃ gone : List Nat, (∀ id ∈ gone, id ∈ list.map (·.id)) ∧
      kept = list.filter (fun ban => ban.id ∉ gone) ∧
        after.regexps = tables.regexps.filter (fun row => row.id ∉ gone) ∧
          after.negs = tables.negs.filter (fun row => row.parentId ∉ gone) := by
  induction frees with
  | done list tables => exact ⟨[], nofun, by simp, by simp, by simp⟩
  | @free ban rest kept tables after _ ih =>
      obtain ⟨apart, ids⟩ := List.nodup_cons.mp ids
      obtain ⟨gone, inside, list, regexps, negs⟩ := ih ids
      refine ⟨ban.id :: gone, ?_, ?_, ?_, ?_⟩
      · intro id listed
        obtain rfl | listed := List.mem_cons.mp listed
        · exact List.mem_cons_self
        · exact List.mem_cons_of_mem _ (inside id listed)
      · rw [list, List.filter_cons_of_neg (by simp)]
        refine List.filter_congr fun other listed => ?_
        have different : other.id ≠ ban.id := by
          intro same
          exact apart (List.mem_map.mpr ⟨other, listed, same⟩)
        simp [different]
      · rw [regexps, RegexpTables.free, List.filter_filter]
        refine List.filter_congr fun row _ => Bool.eq_iff_iff.mpr ?_
        simp [and_comm]
      · rw [negs, RegexpTables.free, List.filter_filter]
        refine List.filter_congr fun row _ => Bool.eq_iff_iff.mpr ?_
        simp [and_comm]
  | @keep ban rest kept tables after _ ih =>
      obtain ⟨apart, ids⟩ := List.nodup_cons.mp ids
      obtain ⟨gone, inside, list, regexps, negs⟩ := ih ids
      refine ⟨gone, fun id listed => List.mem_cons_of_mem _ (inside id listed),
        ?_, regexps, negs⟩
      have stays : ban.id ∉ gone := fun listed => apart (inside _ listed)
      rw [list, List.filter_cons_of_pos (by simpa using stays)]

theorem Synced.frees {s : BanRegexps pcre} (synced : Synced s)
    {kept : List (RegexpBan pcre)} {after : RegexpTables}
    (frees : Frees s.list s.tables kept after) : Synced ⟨kept, after⟩ := by
  obtain ⟨gone, _, rfl, regexps, negs⟩ := frees.spec synced.ids
  have part : (s.list.filter fun ban => ban.id ∉ gone).Sublist s.list :=
    List.filter_sublist
  have inKept : ∀ ban ∈ s.list.filter (fun ban => ban.id ∉ gone),
      ban ∈ s.list ∧ ban.id ∉ gone := by
    intro ban listed
    simpa using List.mem_filter.mp listed
  refine ⟨synced.ids.sublist (part.map _),
    fun ban listed => synced.positive ban (inKept ban listed).1, ?_,
    fun ban listed => synced.loads ban (inKept ban listed).1, ?_, ?_, ?_, ?_⟩
  · show after.regexps = _
    rw [regexps, synced.rows, List.filter_map]
    rfl
  · show (after.negs.map (·.id)).Nodup
    rw [negs]
    exact synced.negIds.sublist (List.filter_sublist.map _)
  · intro row listed
    rw [show (BanRegexps.mk _ after).tables.negs = after.negs from rfl, negs]
      at listed
    obtain ⟨listed, stays⟩ := List.mem_filter.mp listed
    obtain ⟨ban, inList, same⟩ := synced.parents row listed
    refine ⟨ban, List.mem_filter.mpr ⟨inList, ?_⟩, same⟩
    simpa [same] using stays
  · intro ban listed
    obtain ⟨inList, stays⟩ := inKept ban listed
    show rowsUnder ban.id after.negs = _
    rw [← synced.negRows ban inList, negs, rowsUnder, List.filter_filter]
    refine List.filter_congr fun row _ => ?_
    by_cases own : row.parentId = ban.id
    · simp [own, stays]
    · simp [own]
  · intro row listed
    rw [show (BanRegexps.mk _ after).tables.negs = after.negs from rfl, negs]
      at listed
    exact synced.negLoads row (List.mem_filter.mp listed).1

/-- What the caller and the database give: the oper has a name, and a new row
has an id of its own. -/
def Assigned (s : BanRegexps pcre) : RegexpEvent → Prop
  | .addregexp call =>
      call.oper.name ≠ [] ∧ 1 ≤ call.newId ∧ call.newId < 4294967296 ∧
        ∀ row ∈ s.tables.regexps, row.id ≠ call.newId
  | .addregexpneg call =>
      call.oper.name ≠ [] ∧ 1 ≤ call.newId ∧ call.newId < 4294967296 ∧
        ∀ row ∈ s.tables.negs, row.id ≠ call.newId
  | _ => True

def ValidityRefusesEmpty (pcre : Pcre) : Prop :=
  ∀ code, pcre.compile regexpValidity = some code → pcre.exec code [] = false

theorem ne_nil_of_valid (refuses : ValidityRefusesEmpty pcre)
    {validity : pcre.Code} (compiled : pcre.compile regexpValidity = some validity)
    {mask : CString} (valid : isInvalid validity mask ≠ true) : mask ≠ [] := by
  rintro rfl
  refine valid ?_
  simp [isInvalid, refuses validity compiled]

variable {s : BanRegexps pcre} {call : RegexpCall} {mask : CString}
  {regexp : pcre.Code}

theorem Synced.addRegexp (synced : Synced s) (assigned : Assigned s (.addregexp call))
    (compiled : pcre.compile mask = some regexp) (given : mask ≠ [])
    (reason : regexpReason call ≠ []) :
    Synced (BanRegexps.addRegexp call mask regexp compiled s) := by
  obtain ⟨named, atLeast, _, fresh⟩ := assigned
  have apart : ∀ ban ∈ s.list, ban.id ≠ call.newId := by
    intro ban listed
    refine fresh (rowOf ban) ?_
    rw [synced.rows]
    exact List.mem_map_of_mem listed
  refine ⟨?_, ?_, ?_, ?_, synced.negIds, ?_, ?_, synced.negLoads⟩
  · show (List.map RegexpBan.id (s.list ++ [_])).Nodup
    rw [List.map_append, List.nodup_append]
    refine ⟨synced.ids, by simp, ?_⟩
    intro id inIds other new
    obtain ⟨ban, listed, rfl⟩ := List.mem_map.mp inIds
    rw [List.map_singleton, List.mem_singleton] at new
    rw [new]
    exact apart ban listed
  · intro ban listed
    obtain listed | new := List.mem_append.mp listed
    · exact synced.positive ban listed
    · rw [List.mem_singleton.mp new]
      exact atLeast
  · show s.tables.regexps ++ [_] = (s.list ++ [_]).map rowOf
    rw [synced.rows, List.map_append]
    rfl
  · intro ban listed
    obtain listed | new := List.mem_append.mp listed
    · exact synced.loads ban listed
    · rw [List.mem_singleton.mp new]
      exact ⟨given, reason, named⟩
  · intro row listed
    obtain ⟨ban, inList, same⟩ := synced.parents row listed
    exact ⟨ban, List.mem_append_left _ inList, same⟩
  · intro ban listed
    obtain listed | new := List.mem_append.mp listed
    · exact synced.negRows ban listed
    · rw [List.mem_singleton.mp new]
      refine List.filter_eq_nil_iff.mpr fun row inRows => ?_
      obtain ⟨parent, inList, same⟩ := synced.parents row inRows
      simpa [← same] using apart parent inList

theorem Synced.change (synced : Synced s) {parentId : Nat}
    {change : List (RegexpNeg pcre) → List (RegexpNeg pcre)}
    {negs : List RegexpNegRow} (negIds : (negs.map (·.id)).Nodup)
    (parents : ∀ row ∈ negs, ∃ ban ∈ s.list, ban.id = row.parentId)
    (own : ∀ ban ∈ s.list, ban.id = parentId →
      rowsUnder parentId negs =
        (change ban.negations).map (negRowOf parentId))
    (others : ∀ id, id ≠ parentId →
      rowsUnder id negs = rowsUnder id s.tables.negs)
    (loads : ∀ row ∈ negs, Loads pcre row) :
    Synced ⟨changeNegations parentId change s.list,
      { s.tables with negs := negs }⟩ := by
  have ids := ids_changeNegations parentId change s.list
  have rows : (changeNegations parentId change s.list).map rowOf =
      s.list.map rowOf := by
    rw [changeNegations, List.map_map]
    refine List.map_congr_left fun ban _ => ?_
    dsimp only [Function.comp]
    split
    · rfl
    · rfl
  have fromOld : ∀ ban ∈ changeNegations parentId change s.list,
      ∃ old ∈ s.list, ban = if old.id = parentId then
        withNegations old (change old.negations) else old := by
    intro ban listed
    obtain ⟨old, inList, same⟩ := List.mem_map.mp listed
    exact ⟨old, inList, same.symm⟩
  refine ⟨ids ▸ synced.ids, ?_, synced.rows.trans rows.symm, ?_, negIds, ?_, ?_,
    loads⟩
  · intro ban listed
    obtain ⟨old, inList, rfl⟩ := fromOld ban listed
    have positive := synced.positive old inList
    split
    · exact positive
    · exact positive
  · intro ban listed
    obtain ⟨old, inList, rfl⟩ := fromOld ban listed
    have loads := synced.loads old inList
    split
    · exact loads
    · exact loads
  · intro row listed
    obtain ⟨old, inList, same⟩ := parents row listed
    have inIds : old.id ∈ (changeNegations parentId change s.list).map (·.id) := by
      rw [ids]
      exact List.mem_map_of_mem inList
    obtain ⟨ban, inNew, sameId⟩ := List.mem_map.mp inIds
    exact ⟨ban, inNew, sameId.trans same⟩
  · intro ban listed
    obtain ⟨old, inList, rfl⟩ := fromOld ban listed
    by_cases isOwn : old.id = parentId
    · rw [if_pos isOwn, withNegations_id, withNegations_negations, isOwn]
      exact own old inList isOwn
    · rw [if_neg isOwn, others _ isOwn]
      exact synced.negRows old inList

theorem Synced.addRegexpNeg (synced : Synced s)
    (assigned : Assigned s (.addregexpneg call)) {parent : RegexpBan pcre}
    (listed : parent ∈ s.list) (compiled : pcre.compile mask = some regexp)
    (given : mask ≠ []) :
    Synced (BanRegexps.addRegexpNeg call parent.id mask regexp s) := by
  obtain ⟨named, _, _, fresh⟩ := assigned
  unfold BanRegexps.addRegexpNeg
  rw [addNegation_eq synced.ids]
  refine synced.change ?_ ?_ ?_ ?_ ?_
  · rw [List.map_append, List.nodup_append]
    refine ⟨synced.negIds, by simp, ?_⟩
    intro id inIds other new
    obtain ⟨row, inRows, rfl⟩ := List.mem_map.mp inIds
    rw [List.map_singleton, List.mem_singleton] at new
    rw [new]
    exact fresh row inRows
  · intro row inRows
    obtain inRows | new := List.mem_append.mp inRows
    · exact synced.parents row inRows
    · rw [List.mem_singleton.mp new]
      exact ⟨parent, listed, rfl⟩
  · intro ban inList same
    have before := synced.negRows ban inList
    rw [same] at before
    rw [rowsUnder, List.filter_append, ← rowsUnder, before, List.map_append,
      List.filter_cons_of_pos (by simp), List.filter_nil]
    rfl
  · intro id other
    rw [rowsUnder, List.filter_append,
      List.filter_cons_of_neg (by simpa using Ne.symm other), List.filter_nil,
      List.append_nil, ← rowsUnder]
  · intro row inRows
    obtain inRows | new := List.mem_append.mp inRows
    · exact synced.negLoads row inRows
    · rw [List.mem_singleton.mp new]
      exact ⟨given, named, by simp [compiled]⟩

theorem dropNegation_eq {parentId : Nat} {list : List (RegexpBan pcre)}
    (ids : (list.map (·.id)).Nodup) :
    dropNegation parentId mask list =
      changeNegations parentId (·.eraseP (·.regexpStr == mask)) list := by
  induction list with
  | nil => rfl
  | cons ban rest ih =>
      obtain ⟨apart, ids⟩ := List.nodup_cons.mp ids
      rw [dropNegation, changeNegations, List.map_cons]
      by_cases same : ban.id = parentId
      · have unchanged := @changeNegations_of_not_mem _ rest parentId
          (·.eraseP (·.regexpStr == mask)) (same ▸ apart)
        rw [if_pos same, if_pos same]
        exact congrArg (List.cons _) unchanged.symm
      · rw [if_neg same, if_neg same, ih ids]
        rfl

theorem eraseP_eq_filter {negations : List (RegexpNeg pcre)}
    {test : RegexpNeg pcre → Bool} {neg : RegexpNeg pcre}
    (found : negations.find? test = some neg)
    (ids : (negations.map (·.id)).Nodup) :
    negations.eraseP test = negations.filter fun other => other.id ≠ neg.id := by
  induction negations with
  | nil => cases found
  | cons other rest ih =>
      obtain ⟨apart, ids⟩ := List.nodup_cons.mp ids
      cases tested : test other with
      | true =>
          rw [List.find?_cons_of_pos tested] at found
          cases found
          rw [List.eraseP_cons_of_pos tested, List.filter_cons_of_neg (by simp)]
          refine (List.filter_eq_self.mpr fun later listed => ?_).symm
          simp only [ne_eq, decide_not, Bool.not_eq_true', decide_eq_false_iff_not]
          intro same
          exact apart (List.mem_map.mpr ⟨later, listed, same⟩)
      | false =>
          rw [List.find?_cons_of_neg (by simpa using tested)] at found
          have different : other.id ≠ neg.id := by
            intro same
            exact apart (List.mem_map.mpr
              ⟨neg, List.mem_of_find?_eq_some found, same.symm⟩)
          rw [List.eraseP_cons_of_neg (by simpa using tested), ih found ids,
            List.filter_cons_of_pos (by simpa using different)]

theorem Synced.dropNegation (synced : Synced s) {parent : RegexpBan pcre}
    (listed : parent ∈ s.list) {neg : RegexpNeg pcre}
    (found : parent.negations.find? (·.regexpStr == mask) = some neg) :
    Synced ⟨BanRegexps.dropNegation parent.id mask s.list,
      { s.tables with
        negs := s.tables.negs.filter fun row => row.id ≠ neg.id }⟩ := by
  have under : ∀ ban ∈ s.list, ban.id = parent.id → ban = parent := by
    intro ban inList same
    exact List.inj_on_of_nodup_map synced.ids inList listed same
  have rows := synced.negRows parent listed
  have inRows : negRowOf parent.id neg ∈ s.tables.negs := by
    have inUnder : negRowOf parent.id neg ∈ rowsUnder parent.id s.tables.negs := by
      rw [rows]
      exact List.mem_map_of_mem (List.mem_of_find?_eq_some found)
    exact (List.mem_filter.mp inUnder).1
  rw [dropNegation_eq synced.ids]
  refine synced.change (synced.negIds.sublist (List.filter_sublist.map _))
    (fun row inRows => synced.parents row (List.mem_filter.mp inRows).1) ?_ ?_
    (fun row inRows => synced.negLoads row (List.mem_filter.mp inRows).1)
  · intro ban inList same
    rw [under ban inList same]
    have ids : (parent.negations.map (·.id)).Nodup := by
      have part : (rowsUnder parent.id s.tables.negs).Sublist s.tables.negs :=
        List.filter_sublist
      have nodup := synced.negIds.sublist (part.map (·.id))
      rw [rows, List.map_map] at nodup
      exact nodup
    rw [eraseP_eq_filter found ids, rowsUnder, List.filter_comm, ← rowsUnder,
      rows, List.filter_map]
    rfl
  · intro id other
    rw [rowsUnder, rowsUnder, List.filter_filter]
    refine List.filter_congr fun row inTable => ?_
    by_cases own : row.parentId = id
    · have different : row.id ≠ neg.id := by
        intro same
        have whole : row = negRowOf parent.id neg :=
          List.inj_on_of_nodup_map synced.negIds inTable inRows same
        rw [whole] at own
        exact other own.symm
      simp [own, different]
    · simp [own]

theorem Synced.restarted (synced : Synced s) : Synced s.restarted := by
  have ids : (s.list.map reloaded).map (·.id) = s.list.map (·.id) := by
    rw [List.map_map]
    rfl
  unfold BanRegexps.restarted
  rw [synced.load]
  refine ⟨ids ▸ synced.ids, ?_, ?_, ?_, synced.negIds, ?_, ?_, synced.negLoads⟩
  · intro ban listed
    obtain ⟨old, inList, rfl⟩ := List.mem_map.mp listed
    exact synced.positive old inList
  · show s.tables.regexps = (s.list.map reloaded).map rowOf
    rw [synced.rows, List.map_map]
    rfl
  · intro ban listed
    obtain ⟨old, inList, rfl⟩ := List.mem_map.mp listed
    exact synced.loads old inList
  · intro row listed
    obtain ⟨ban, inList, same⟩ := synced.parents row listed
    exact ⟨reloaded ban, List.mem_map_of_mem inList, same⟩
  · intro ban listed
    obtain ⟨old, inList, rfl⟩ := List.mem_map.mp listed
    refine (synced.negRows old inList).trans ?_
    rw [reloaded, withNegations_negations, List.map_map]
    rfl

variable {after : BanRegexps pcre}

theorem addregexp_cases {result : RegexpResult pcre}
    (stepped : oBanservAddregexp conf call s = .ok result) :
    result.after = s ∨
      ∃ validity mask regexp,
        ∃ compiled : pcre.compile mask = some regexp,
          pcre.compile regexpValidity = some validity ∧
            isInvalid validity mask ≠ true ∧ regexpReason call ≠ [] ∧
              result.after = addRegexp call mask regexp compiled s := by
  unfold oBanservAddregexp at stepped
  split at stepped
  · cases stepped
    exact Or.inl rfl
  · split at stepped
    · cases stepped
    · rename_i validity compiled
      dsimp only at stepped
      split at stepped
      · cases stepped
        exact Or.inl rfl
      · split at stepped
        · cases stepped
          exact Or.inl rfl
        · split at stepped
          · cases stepped
            exact Or.inl rfl
          · rename_i valid
            split at stepped
            · cases stepped
              exact Or.inl rfl
            · rename_i reason
              split at stepped
              · cases stepped
                exact Or.inl rfl
              · rename_i regexp compiledMask
                split at stepped
                · cases stepped
                  exact Or.inl rfl
                · cases stepped
                  exact Or.inr ⟨validity, _, regexp, compiledMask, compiled,
                    valid, reason, rfl⟩

theorem addregexpneg_cases {result : RegexpResult pcre}
    (stepped : oBanservAddregexpneg call s = .ok result) :
    result.after = s ∨
      ∃ validity mask regexp, ∃ parent ∈ s.list,
        pcre.compile mask = some regexp ∧
          pcre.compile regexpValidity = some validity ∧
            isInvalid validity mask ≠ true ∧
              result.after = addRegexpNeg call parent.id mask regexp s := by
  unfold oBanservAddregexpneg at stepped
  split at stepped
  · split at stepped
    · cases stepped
    · rename_i validity compiled
      dsimp only at stepped
      split at stepped
      · cases stepped
        exact Or.inl rfl
      · rename_i parent found
        split at stepped
        · cases stepped
          exact Or.inl rfl
        · split at stepped
          · cases stepped
            exact Or.inl rfl
          · rename_i valid
            split at stepped
            · cases stepped
              exact Or.inl rfl
            · rename_i regexp compiledMask
              cases stepped
              exact Or.inr ⟨validity, _, regexp, parent,
                List.mem_of_find?_eq_some found, compiledMask, compiled, valid,
                rfl⟩
  · cases stepped
    exact Or.inl rfl

theorem delregexp_cases {result : RegexpResult pcre}
    (stepped : oBanservDelregexp call s = .ok result) :
    result.after = s ∨
      ∃ mask ban, s.list.find? (·.regexpStr == mask) = some ban ∧
        result.after =
          ⟨s.list.eraseP (·.regexpStr == mask), s.tables.free ban.id⟩ := by
  unfold oBanservDelregexp at stepped
  split at stepped
  · cases stepped
    exact Or.inl rfl
  · split at stepped
    · cases stepped
      exact Or.inl rfl
    · rename_i ban found
      split at stepped
      · cases stepped
        exact Or.inl rfl
      · cases stepped
        exact Or.inr ⟨_, ban, found, rfl⟩

theorem delregexpneg_cases {result : RegexpResult pcre}
    (stepped : oBanservDelregexpneg call s = .ok result) :
    result.after = s ∨
      ∃ mask neg, ∃ parent ∈ s.list,
        parent.negations.find? (·.regexpStr == mask) = some neg ∧
          result.after = ⟨dropNegation parent.id mask s.list,
            { s.tables with
              negs := s.tables.negs.filter fun row => row.id ≠ neg.id }⟩ := by
  unfold oBanservDelregexpneg at stepped
  split at stepped
  · cases stepped
    exact Or.inl rfl
  · split at stepped
    · cases stepped
      exact Or.inl rfl
    · rename_i parent foundParent
      split at stepped
      · cases stepped
      · split at stepped
        · cases stepped
          exact Or.inl rfl
        · rename_i neg found
          split at stepped
          · cases stepped
            exact Or.inl rfl
          · cases stepped
            exact Or.inr ⟨_, neg, parent,
              List.mem_of_find?_eq_some foundParent, found, rfl⟩

theorem Synced.step (refuses : ValidityRefusesEmpty pcre) (synced : Synced s)
    {event : RegexpEvent} (assigned : Assigned s event)
    (stepped : BanRegexps.step conf s event = .ok after) : Synced after := by
  cases event with
  | addregexp call =>
      obtain ⟨result, ran, rfl⟩ := Except.map_eq_ok.mp stepped
      obtain unchanged | ⟨_, _, _, compiled, valid, given, reason, added⟩ :=
        addregexp_cases ran
      · exact unchanged ▸ synced
      · rw [added]
        exact synced.addRegexp assigned compiled
          (ne_nil_of_valid refuses valid given) reason
  | addregexpneg call =>
      obtain ⟨result, ran, rfl⟩ := Except.map_eq_ok.mp stepped
      obtain unchanged | ⟨_, _, _, parent, listed, compiled, valid, given, added⟩ :=
        addregexpneg_cases ran
      · exact unchanged ▸ synced
      · rw [added]
        exact synced.addRegexpNeg assigned listed compiled
          (ne_nil_of_valid refuses valid given)
  | delregexp call =>
      obtain ⟨result, ran, rfl⟩ := Except.map_eq_ok.mp stepped
      obtain unchanged | ⟨_, ban, found, freed⟩ := delregexp_cases ran
      · exact unchanged ▸ synced
      · rw [freed]
        exact synced.frees (eraseP_frees found)
  | delregexpneg call =>
      obtain ⟨result, ran, rfl⟩ := Except.map_eq_ok.mp stepped
      obtain unchanged | ⟨_, neg, parent, listed, found, dropped⟩ :=
        delregexpneg_cases ran
      · exact unchanged ▸ synced
      · rw [dropped]
        exact synced.dropNegation listed found
  | expire now =>
      cases stepped
      exact synced.frees (expireLoop_frees s.list s.tables)
  | newClient now user =>
      cases stepped
      exact synced.frees (clientLoop_frees s.list s.tables)
  | restart =>
      cases stepped
      exact synced.restarted

theorem synced_empty : Synced ({} : BanRegexps pcre) where
  ids := List.nodup_nil
  positive := nofun
  rows := rfl
  loads := nofun
  negIds := List.nodup_nil
  parents := nofun
  negRows := nofun
  negLoads := nofun

/-- A client is banned as the regexps and their negations say unless it is
spared, and services that are started again after any run ban the same
clients. -/
theorem regexps_iff (conf : RegexpConf) (refuses : ValidityRefusesEmpty pcre) :
    (∀ (s : BanRegexps pcre) (now : Int) (user : RegexpUser),
      ((hBanservNewClient conf now user s).2 ≠ [] ↔
          ShouldKline now (clientText user) s.list) ↔
        ¬Spared now (clientText user) s.list) ∧
    ∀ (events : List RegexpEvent) (s : BanRegexps pcre),
      Meets (BanRegexps.step conf) Assigned ({} : BanRegexps pcre) events →
        run (BanRegexps.step conf) ({} : BanRegexps pcre) events = .ok s →
          ∀ (now : Int) (user : RegexpUser),
            (hBanservNewClient conf now user s).2 =
              (hBanservNewClient conf now user s.restarted).2 := by
  refine ⟨fun s now user => sent_iff_should user s, ?_⟩
  intro events s assigned reached now user
  have synced : Synced s :=
    run_preserves_of_meets Synced
      (fun _ _ _ given synced stepped => synced.step refuses given stepped)
      assigned synced_empty reached
  exact synced.sent user

inductive PatternItem
  | char (c : Char)
  | some
  deriving DecidableEq, Repr

/-- The items of a pattern up to its `$`. -/
def patternItems : CString → Option (List PatternItem)
  | ['$'] => .some []
  | '\\' :: c :: rest => (patternItems rest).map (.char c :: ·)
  | '.' :: '+' :: rest => (patternItems rest).map (.some :: ·)
  | c :: rest =>
      if c ∈ "\\.+*?[](){}|^$".toList then none
      else (patternItems rest).map (.char c :: ·)
  | [] => none

def matchItems : List PatternItem → CString → Bool
  | [], text => text.isEmpty
  | .char _ :: _, [] => false
  | .char c :: items, d :: text => c == d && matchItems items text
  | .some :: items, text => (text.tails.drop 1).any (matchItems items)

/-- The patterns that are literals and `.+` between anchors. -/
def simplePcre : Pcre where
  Code := List PatternItem
  compile
    | '^' :: rest => patternItems rest
    | _ => none
  exec := matchItems

instance (s : BanRegexps pcre) :
    ∀ event : RegexpEvent, Decidable (Assigned s event)
  | .addregexp _ => inferInstanceAs (Decidable (_ ∧ _))
  | .addregexpneg _ => inferInstanceAs (Decidable (_ ∧ _))
  | .delregexp _ => isTrue trivial
  | .delregexpneg _ => isTrue trivial
  | .expire _ => isTrue trivial
  | .newClient _ _ => isTrue trivial
  | .restart => isTrue trivial

theorem simplePcre_refusesEmpty : ValidityRefusesEmpty simplePcre := by
  intro code compiled
  have items : patternItems "\\^.+!.+@.+#.+\\$$".toList =
      .some [.char '^', .some, .char '!', .some, .char '@', .some, .char '#',
        .some, .char '$'] := by decide
  have same : Option.some code = patternItems "\\^.+!.+@.+#.+\\$$".toList :=
    compiled.symm
  rw [items] at same
  cases same
  rfl

def goodOnly : List RegexpEvent :=
  let call (id : Nat) (parv : List CString) : RegexpCall :=
    ⟨1000, ⟨"oper".toList, true, true, true⟩, [], parv, id⟩
  [.addregexp (call 1 ["^.+!.+@.+#.+$".toList, "spam".toList]),
    .addregexpneg (call 1 ["1".toList, "^good!.+@.+#.+$".toList])]

def badUser : RegexpUser :=
  ⟨"bad!user@host".toList, "info".toList, "host".toList, "irc.int".toList⟩

theorem goodOnly_spares :
    ∃ s, run (BanRegexps.step ⟨86400, 200⟩) ({} : BanRegexps simplePcre)
        goodOnly = .ok s ∧
      (hBanservNewClient ⟨86400, 200⟩ 1000 badUser s).2 = [] ∧
        ShouldKline 1000 (clientText badUser) s.list := by
  have observed : (run (BanRegexps.step ⟨86400, 200⟩)
      ({} : BanRegexps simplePcre) goodOnly).toOption.map (fun s => decide
        ((hBanservNewClient ⟨86400, 200⟩ 1000 badUser s).2 = [] ∧
          ShouldKline 1000 (clientText badUser) s.list)) = some true := by
    decide +kernel
  obtain ⟨s, reached, seen⟩ := Except.exists_of_observed observed
  exact ⟨s, reached, of_decide_eq_true seen⟩

theorem regexps_iff_goodOnly :
    ∃ s, run (BanRegexps.step ⟨86400, 200⟩) ({} : BanRegexps simplePcre)
        goodOnly = .ok s ∧ s.list.length = 1 ∧
      ∀ (now : Int) (user : RegexpUser),
        (hBanservNewClient ⟨86400, 200⟩ now user s).2 =
          (hBanservNewClient ⟨86400, 200⟩ now user s.restarted).2 := by
  have observed : (run (BanRegexps.step ⟨86400, 200⟩)
      ({} : BanRegexps simplePcre) goodOnly).toOption.map (·.list.length) =
        some 1 := by
    decide +kernel
  obtain ⟨s, reached, one⟩ := Except.exists_of_observed observed
  exact ⟨s, reached, one,
    (regexps_iff ⟨86400, 200⟩ simplePcre_refusesEmpty).2 goodOnly s
      (by decide +kernel) reached⟩

end BanRegexps

end RatboxServices
