import RatboxServices.Serv.Regexps

namespace RatboxServices

open CString

namespace BanRegexps

/-! Which clients are banned by the regexps, and what is loaded of them when
services are started again. -/

variable {pcre : Pcre} {conf : RegexpConf} {now : Int} {text : CString}
  {list : List (RegexpBan pcre)}

def Matches (pcre : Pcre) (regex text : CString) : Prop :=
  ∃ code, pcre.compile regex = some code ∧ pcre.exec code text = true

inductive IsFirst (now : Int) (text : CString) :
    List (RegexpBan pcre) → RegexpBan pcre → Prop
  | here {ban : RegexpBan pcre} {rest : List (RegexpBan pcre)}
      (current : isExpired now ban = false)
      (matched : Matches pcre ban.regexpStr text) :
      IsFirst now text (ban :: rest) ban
  | later {ban other : RegexpBan pcre} {rest : List (RegexpBan pcre)}
      (skipped : isExpired now other = true ∨
        ¬Matches pcre other.regexpStr text)
      (first : IsFirst now text rest ban) :
      IsFirst now text (other :: rest) ban

/-- What a client has to be to be banned: no negation of the first ban that
matches does match. -/
def ShouldKline (now : Int) (text : CString) (list : List (RegexpBan pcre)) :
    Prop :=
  ∃ ban, IsFirst now text list ban ∧
    ∀ neg ∈ ban.negations, ¬Matches pcre neg.regexpStr text

def Spared (now : Int) (text : CString) (list : List (RegexpBan pcre)) : Prop :=
  ∃ ban, IsFirst now text list ban ∧ ban.negations ≠ [] ∧
    ∀ neg ∈ ban.negations, ¬Matches pcre neg.regexpStr text

theorem matches_iff (ban : RegexpBan pcre) :
    Matches pcre ban.regexpStr text ↔ pcre.exec ban.regexp text = true := by
  constructor
  · rintro ⟨code, compiled, matched⟩
    rw [ban.compiled] at compiled
    cases compiled
    exact matched
  · exact fun matched => ⟨ban.regexp, ban.compiled, matched⟩

theorem IsFirst.unique {ban other : RegexpBan pcre}
    (first : IsFirst now text list ban) (again : IsFirst now text list other) :
    ban = other := by
  induction first with
  | here current matched =>
      cases again with
      | here _ _ => rfl
      | later skipped _ =>
          obtain expired | unmatched := skipped
          · rw [current] at expired
            cases expired
          · exact absurd matched unmatched
  | later skipped _ ih =>
      cases again with
      | here current matched =>
          obtain expired | unmatched := skipped
          · rw [current] at expired
            cases expired
          · exact absurd matched unmatched
      | later _ again => exact ih again

theorem isFirst_iff {ban : RegexpBan pcre} :
    IsFirst now text list ban ↔
      list.find? (fun ban =>
        !isExpired now ban && pcre.exec ban.regexp text) = some ban := by
  induction list with
  | nil =>
      constructor
      · intro first
        cases first
      · nofun
  | cons other rest ih =>
      by_cases found : isExpired now other = false ∧
          pcre.exec other.regexp text = true
      · have here : IsFirst now text (other :: rest) other :=
          .here found.1 ((matches_iff other).mpr found.2)
        rw [List.find?_cons_of_pos (by simp [found]), Option.some.injEq]
        constructor
        · exact here.unique
        · rintro rfl
          exact here
      · rw [List.find?_cons_of_neg (by simpa using found), ← ih]
        constructor
        · intro first
          cases first with
          | here current matched =>
              exact absurd ⟨current, (matches_iff _).mp matched⟩ found
          | later _ first => exact first
        · refine IsFirst.later ?_
          rw [matches_iff]
          by_cases expired : isExpired now other = true
          · exact Or.inl expired
          · exact Or.inr fun matched => found ⟨by simpa using expired, matched⟩

instance (regex : CString) : Decidable (Matches pcre regex text) :=
  match compiled : pcre.compile regex with
  | none => isFalse fun ⟨_, some_, _⟩ => by
      rw [compiled] at some_
      cases some_
  | some code =>
      decidable_of_iff (pcre.exec code text = true)
        ⟨fun matched => ⟨code, compiled, matched⟩, fun ⟨_, again, matched⟩ => by
          rw [compiled] at again
          cases again
          exact matched⟩

instance (list : List (RegexpBan pcre)) :
    Decidable (ShouldKline now text list) :=
  match found : list.find? fun ban =>
      !isExpired now ban && pcre.exec ban.regexp text with
  | none => isFalse fun ⟨_, first, _⟩ => by
      rw [isFirst_iff, found] at first
      cases first
  | some ban =>
      decidable_of_iff (∀ neg ∈ ban.negations, ¬Matches pcre neg.regexpStr text)
        ⟨fun unmatched => ⟨ban, isFirst_iff.mpr found, unmatched⟩,
          fun ⟨other, first, unmatched⟩ => by
            rw [isFirst_iff, found] at first
            cases first
            exact unmatched⟩

theorem clientLoop_found (list : List (RegexpBan pcre)) (tables : RegexpTables)
    (ban : RegexpBan pcre) :
    (clientLoop now text list tables).2.2 = some ban ↔
      IsFirst now text list ban ∧ ban.negations = [] := by
  induction list generalizing tables with
  | nil =>
      constructor
      · nofun
      · rintro ⟨first, _⟩
        cases first
  | cons other rest ih =>
      rw [clientLoop]
      by_cases expired : isExpired now other = true
      · rw [if_pos expired, ih]
        constructor
        · exact fun both => ⟨.later (Or.inl expired) both.1, both.2⟩
        · rintro ⟨first, none_⟩
          cases first with
          | here current _ =>
              rw [expired] at current
              cases current
          | later _ first => exact ⟨first, none_⟩
      · rw [if_neg expired]
        have current : isExpired now other = false := by simpa using expired
        by_cases matched : pcre.exec other.regexp text = true
        · have here : IsFirst now text (other :: rest) other :=
            .here current ((matches_iff other).mpr matched)
          rw [if_pos matched]
          cases negations : other.negations with
          | nil =>
              simp only [List.any_nil, Bool.false_eq_true, if_false,
                Option.some.injEq]
              constructor
              · rintro rfl
                exact ⟨here, negations⟩
              · exact fun both => here.unique both.1
          | cons neg more =>
              simp only [List.any_cons, matched, Bool.true_or, if_true]
              constructor
              · nofun
              · rintro ⟨first, none_⟩
                rw [← here.unique first, negations] at none_
                cases none_
        · have unmatched := mt (matches_iff other).mp matched
          rw [if_neg matched]
          dsimp only
          rw [ih]
          constructor
          · exact fun both => ⟨.later (Or.inr unmatched) both.1, both.2⟩
          · rintro ⟨first, none_⟩
            cases first with
            | here _ matched => exact absurd matched unmatched
            | later _ first => exact ⟨first, none_⟩

theorem sent_iff (user : RegexpUser) (s : BanRegexps pcre) :
    (hBanservNewClient conf now user s).2 ≠ [] ↔
      ∃ ban, IsFirst now (clientText user) s.list ban ∧ ban.negations = [] := by
  have found := @clientLoop_found pcre now (clientText user) s.list s.tables
  unfold hBanservNewClient
  dsimp only
  simp only [← found]
  cases (clientLoop now (clientText user) s.list s.tables).2.2 with
  | none => simp
  | some ban => simp

theorem sent_iff_should (user : RegexpUser) (s : BanRegexps pcre) :
    ((hBanservNewClient conf now user s).2 ≠ [] ↔
        ShouldKline now (clientText user) s.list) ↔
      ¬Spared now (clientText user) s.list := by
  rw [sent_iff]
  constructor
  · rintro right ⟨ban, first, given, unmatched⟩
    obtain ⟨other, again, none_⟩ := right.mpr ⟨ban, first, unmatched⟩
    rw [← first.unique again] at none_
    exact given none_
  · intro proper
    constructor
    · rintro ⟨ban, first, none_⟩
      refine ⟨ban, first, fun neg listed => ?_⟩
      rw [none_] at listed
      cases listed
    · rintro ⟨ban, first, unmatched⟩
      refine ⟨ban, first, ?_⟩
      by_contra given
      exact proper ⟨ban, first, given, unmatched⟩

def rowOf (ban : RegexpBan pcre) : RegexpRow :=
  ⟨ban.id, ban.regexpStr, ban.reason, ban.hold, ban.createTime, ban.oper⟩

def negRowOf (parentId : Nat) (neg : RegexpNeg pcre) : RegexpNegRow :=
  ⟨neg.id, parentId, neg.regexpStr, neg.oper⟩

def negOf (pcre : Pcre) (row : RegexpNegRow) : RegexpNeg pcre :=
  ⟨row.id, row.regex, row.oper, 0, none⟩

def rowsUnder (parentId : Nat) (rows : List RegexpNegRow) :
    List RegexpNegRow :=
  rows.filter fun row => row.parentId = parentId

def withNegations (ban : RegexpBan pcre) (negations : List (RegexpNeg pcre)) :
    RegexpBan pcre :=
  { ban with negations := negations }

@[simp] theorem withNegations_self (ban : RegexpBan pcre) :
    withNegations ban ban.negations = ban := rfl

@[simp] theorem withNegations_again (ban : RegexpBan pcre)
    (first second : List (RegexpNeg pcre)) :
    withNegations (withNegations ban first) second =
      withNegations ban second := rfl

@[simp] theorem withNegations_id (ban : RegexpBan pcre)
    (negations : List (RegexpNeg pcre)) :
    (withNegations ban negations).id = ban.id := rfl

@[simp] theorem withNegations_negations (ban : RegexpBan pcre)
    (negations : List (RegexpNeg pcre)) :
    (withNegations ban negations).negations = negations := rfl

def reloaded (ban : RegexpBan pcre) : RegexpBan pcre :=
  withNegations ban
    (ban.negations.map fun neg => negOf pcre (negRowOf ban.id neg))

structure Loads (pcre : Pcre) (row : RegexpNegRow) : Prop where
  regex : row.regex ≠ []
  oper : row.oper ≠ []
  compiles : (pcre.compile row.regex).isSome

structure Synced (s : BanRegexps pcre) : Prop where
  ids : (s.list.map (·.id)).Nodup
  positive : ∀ ban ∈ s.list, 1 ≤ ban.id
  rows : s.tables.regexps = s.list.map rowOf
  loads : ∀ ban ∈ s.list,
    ban.regexpStr ≠ [] ∧ ban.reason ≠ [] ∧ ban.oper ≠ []
  negIds : (s.tables.negs.map (·.id)).Nodup
  parents : ∀ row ∈ s.tables.negs, ∃ ban ∈ s.list, ban.id = row.parentId
  negRows : ∀ ban ∈ s.list,
    rowsUnder ban.id s.tables.negs = ban.negations.map (negRowOf ban.id)
  negLoads : ∀ row ∈ s.tables.negs, Loads pcre row

def changeNegations (id : Nat)
    (change : List (RegexpNeg pcre) → List (RegexpNeg pcre))
    (list : List (RegexpBan pcre)) : List (RegexpBan pcre) :=
  list.map fun ban =>
    if ban.id = id then withNegations ban (change ban.negations) else ban

theorem changeNegations_of_not_mem {id : Nat}
    {change : List (RegexpNeg pcre) → List (RegexpNeg pcre)}
    (absent : id ∉ list.map (·.id)) :
    changeNegations id change list = list := by
  refine (List.map_congr_left fun ban listed => ?_).trans (List.map_id list)
  refine if_neg fun same => absent ?_
  rw [← same]
  exact List.mem_map_of_mem listed

theorem ids_changeNegations (id : Nat)
    (change : List (RegexpNeg pcre) → List (RegexpNeg pcre))
    (list : List (RegexpBan pcre)) :
    (changeNegations id change list).map (·.id) = list.map (·.id) := by
  rw [changeNegations, List.map_map]
  refine List.map_congr_left fun ban _ => ?_
  dsimp only [Function.comp]
  split
  · rfl
  · rfl

theorem addNegation_eq {parentId : Nat} {neg : RegexpNeg pcre}
    (ids : (list.map (·.id)).Nodup) :
    addNegation parentId neg list =
      changeNegations parentId (· ++ [neg]) list := by
  induction list with
  | nil => rfl
  | cons ban rest ih =>
      obtain ⟨apart, ids⟩ := List.nodup_cons.mp ids
      rw [addNegation, changeNegations, List.map_cons]
      by_cases same : ban.id = parentId
      · have unchanged := @changeNegations_of_not_mem _ rest parentId
          (· ++ [neg]) (same ▸ apart)
        rw [if_pos same, if_pos same]
        exact congrArg (List.cons _) unchanged.symm
      · rw [if_neg same, if_neg same, ih ids]
        rfl

theorem regexpNegCallback_eq {row : RegexpNegRow}
    (ids : (list.map (·.id)).Nodup) (loads : Loads pcre row)
    (positive : 1 ≤ row.parentId) (parent : ∃ ban ∈ list, ban.id = row.parentId)
    :
    regexpNegCallback list row =
      changeNegations row.parentId (· ++ [negOf pcre row]) list := by
  have given : ¬(row.regex = [] ∨ row.oper = []) := by
    rintro (none_ | none_)
    · exact loads.regex none_
    · exact loads.oper none_
  have found : ¬(list.find? fun ban => ban.id = row.parentId).isNone := by
    obtain ⟨ban, listed, same⟩ := parent
    simp only [Option.isNone_iff_eq_none, List.find?_eq_none, not_forall]
    exact ⟨ban, listed, by simpa using same⟩
  have compiles : ¬(pcre.compile row.regex).isNone := by
    have some_ := loads.compiles
    cases compiled : pcre.compile row.regex with
    | none =>
        rw [compiled] at some_
        cases some_
    | some code => simp
  rw [regexpNegCallback, if_neg given, if_neg (by omega), if_neg found,
    if_neg compiles]
  exact addNegation_eq ids

theorem foldl_regexpNegCallback (rows : List RegexpNegRow)
    (ids : (list.map (·.id)).Nodup) (positive : ∀ ban ∈ list, 1 ≤ ban.id)
    (loads : ∀ row ∈ rows, Loads pcre row)
    (parents : ∀ row ∈ rows, ∃ ban ∈ list, ban.id = row.parentId) :
    rows.foldl regexpNegCallback list =
      list.map fun ban =>
        withNegations ban (ban.negations ++
          (rowsUnder ban.id rows).map (negOf pcre)) := by
  induction rows generalizing list with
  | nil => simp [rowsUnder]
  | cons row rows ih =>
      obtain ⟨parent, listed, same⟩ := parents row List.mem_cons_self
      have atLeast : 1 ≤ row.parentId := same ▸ positive parent listed
      rw [List.foldl_cons, regexpNegCallback_eq ids
        (loads row List.mem_cons_self) atLeast ⟨parent, listed, same⟩]
      have ids' := ids_changeNegations row.parentId (· ++ [negOf pcre row]) list
      have inList : ∀ id, id ∈ (changeNegations row.parentId
          (· ++ [negOf pcre row]) list).map (·.id) ↔ id ∈ list.map (·.id) :=
        fun id => by rw [ids']
      rw [ih (ids' ▸ ids), changeNegations, List.map_map]
      · refine List.map_congr_left fun ban _ => ?_
        dsimp only [Function.comp]
        by_cases own : row.parentId = ban.id
        · have under : rowsUnder ban.id (row :: rows) =
              row :: rowsUnder ban.id rows :=
            List.filter_cons_of_pos (by simpa using own)
          rw [if_pos own.symm, under]
          simp
        · have under : rowsUnder ban.id (row :: rows) = rowsUnder ban.id rows :=
            List.filter_cons_of_neg (by simpa using own)
          rw [if_neg (Ne.symm own), under]
      · intro ban changed
        obtain ⟨old, listed, same⟩ := List.mem_map.mp
          ((inList ban.id).mp (List.mem_map_of_mem changed))
        rw [← same]
        exact positive old listed
      · exact fun row later => loads row (List.mem_cons_of_mem _ later)
      · intro other later
        obtain ⟨old, listed, same⟩ := parents other (List.mem_cons_of_mem _ later)
        rw [← same]
        exact List.mem_map.mp ((inList old.id).mpr (List.mem_map_of_mem listed))

theorem filterMap_regexpCallback (loads : ∀ ban ∈ list,
      ban.regexpStr ≠ [] ∧ ban.reason ≠ [] ∧ ban.oper ≠ []) :
    (list.map rowOf).filterMap regexpCallback =
      list.map fun ban => withNegations ban [] := by
  rw [List.filterMap_map, ← List.filterMap_eq_map]
  refine List.filterMap_congr fun ban listed => ?_
  obtain ⟨regex, reason, oper⟩ := loads ban listed
  have given : ¬((rowOf ban).regex = [] ∨ (rowOf ban).reason = [] ∨
      (rowOf ban).oper = []) := by
    rintro (none_ | none_ | none_)
    · exact regex none_
    · exact reason none_
    · exact oper none_
  have compiled : pcre.compile (rowOf ban).regex = some ban.regexp :=
    ban.compiled
  show regexpCallback (rowOf ban) = some (withNegations ban [])
  rw [regexpCallback, if_neg given]
  split
  · rename_i none_
    rw [compiled] at none_
    cases none_
  · rename_i regexp again
    rw [compiled] at again
    cases again
    rfl

theorem Synced.load {s : BanRegexps pcre} (synced : Synced s) :
    BanRegexps.load s.tables = s.list.map reloaded := by
  have ids : ((s.list.map fun ban => withNegations ban []).map (·.id)) =
      s.list.map (·.id) := by
    rw [List.map_map]
    rfl
  rw [BanRegexps.load, synced.rows, filterMap_regexpCallback synced.loads,
    foldl_regexpNegCallback _ (ids ▸ synced.ids) ?_ synced.negLoads ?_,
    List.map_map]
  · refine List.map_congr_left fun ban listed => ?_
    dsimp only [Function.comp]
    simp [synced.negRows ban listed, reloaded, Function.comp_def]
  · intro ban listed
    obtain ⟨old, inList, rfl⟩ := List.mem_map.mp listed
    exact synced.positive old inList
  · intro row listed
    obtain ⟨ban, inList, same⟩ := synced.parents row listed
    exact ⟨withNegations ban [], List.mem_map_of_mem inList, same⟩

theorem clientLoop_reloaded (list : List (RegexpBan pcre))
    (tables others : RegexpTables) :
    (clientLoop now text (list.map reloaded) others).2.2 =
      (clientLoop now text list tables).2.2.map reloaded := by
  induction list generalizing tables others with
  | nil => rfl
  | cons ban rest ih =>
      have expiry : isExpired now (reloaded ban) = isExpired now ban := rfl
      have regexp : (reloaded ban).regexp = ban.regexp := rfl
      have tried : ((reloaded ban).negations.any fun _ =>
          pcre.exec ban.regexp text) =
            ban.negations.any fun _ => pcre.exec ban.regexp text :=
        List.any_map
      rw [List.map_cons, clientLoop, clientLoop, expiry, regexp, tried]
      split
      · exact ih _ _
      · split
        · split
          · rfl
          · rfl
        · exact ih _ _

theorem Synced.sent {s : BanRegexps pcre} (synced : Synced s)
    (user : RegexpUser) :
    (hBanservNewClient conf now user s).2 =
      (hBanservNewClient conf now user s.restarted).2 := by
  have same := @clientLoop_reloaded pcre now (clientText user) s.list s.tables
    s.tables
  unfold hBanservNewClient restarted
  dsimp only
  rw [synced.load, same]
  cases (clientLoop now (clientText user) s.list s.tables).2.2 with
  | none => rfl
  | some ban => rfl

end BanRegexps

end RatboxServices
