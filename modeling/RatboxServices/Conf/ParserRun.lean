import RatboxServices.Conf.Parser
import RatboxServices.Lib.Outcome

namespace RatboxServices

open CString

/-! When the actions of a configuration file come to an end, with the values
that are written in it. -/

namespace Parser

variable {st t start : ParseState} {turns : Nat} {single : Single}
  {item : BlockItem} {block : Block} {conf : Conf} {blocks : List TopConf}

/-! The grammar has several trees for a time; they have one value. -/

open Lexer (Token)

def timeSum : List Token → Int
  | .number n :: .string word :: rest =>
      n * (if confFindTime word = 0 then 1 else confFindTime word) +
        timeSum rest
  | .number n :: rest => n + timeSum rest
  | _ => 0

def NoUnit (tokens : List Token) : Prop :=
  ∀ word rest, tokens ≠ .string word :: rest

theorem timeSum_number (n : Int) {tokens : List Token}
    (noUnit : NoUnit tokens) :
    timeSum (.number n :: tokens) = n + timeSum tokens := by
  cases tokens with
  | nil => rfl
  | cons token rest => cases token with
      | string word => exact absurd rfl (noUnit word rest)
      | number m => rfl
      | qstring text => rfl
      | char c => rfl
      | twodots => rfl

theorem Timespec.noUnit_append (time : Timespec) (rest : List Token) :
    NoUnit (time.tokens ++ rest) := by
  induction time generalizing rest with
  | unit number word => simp [tokens, NoUnit]
  | join left right leftStart rightStart =>
      rw [tokens, List.append_assoc]
      exact leftStart _
  | plus left number leftStart =>
      rw [tokens, List.append_assoc]
      exact leftStart _

theorem Timespec.timeSum_append (time : Timespec) {rest : List Token}
    (noUnit : NoUnit rest) :
    timeSum (time.tokens ++ rest) = timeSum time.tokens + timeSum rest := by
  induction time generalizing rest with
  | unit number word => simp [tokens, timeSum]
  | join left right leftSum rightSum =>
      have own := leftSum (right.noUnit_append [])
      rw [List.append_nil] at own
      rw [tokens, List.append_assoc, leftSum (right.noUnit_append rest),
        rightSum noUnit, own, Int.add_assoc]
  | plus left number leftSum =>
      have own : NoUnit [.number number.val] := by simp [NoUnit]
      have more : NoUnit ([.number number.val] ++ rest) := by simp [NoUnit]
      have last : timeSum [.number number.val] = number.val := Int.add_zero _
      rw [tokens, List.append_assoc, leftSum more, leftSum own,
        List.singleton_append, timeSum_number _ noUnit, last, Int.add_assoc]

theorem Timespec.eval_eq (time : Timespec) :
    time.eval = wrap (timeSum time.tokens) := by
  induction time with
  | unit number word => simp [eval, tokens, timeSum]
  | join left right leftEval rightEval =>
      have noUnit := right.noUnit_append []
      rw [List.append_nil] at noUnit
      rw [eval, leftEval, rightEval, tokens, left.timeSum_append noUnit]
      simp only [wrap, Int.bmod_add_bmod, Int.add_bmod_bmod]
  | plus left number leftEval =>
      have noUnit : NoUnit [.number number.val] := by simp [NoUnit]
      rw [eval, leftEval, tokens, left.timeSum_append noUnit]
      simp only [wrap, Int.bmod_add_bmod, timeSum]
      rw [Int.add_zero]

theorem Timespec.eval_of_tokens {left right : Timespec}
    (same : left.tokens = right.tokens) : left.eval = right.eval := by
  rw [left.eval_eq, right.eval_eq, same]

theorem Timespec.eval_of_day :
    (join (join (unit ⟨1, by decide, by decide⟩ "day".toList)
        (unit ⟨2, by decide, by decide⟩ "hours".toList))
        (unit ⟨3, by decide, by decide⟩ "minutes".toList)).eval =
      (join (unit ⟨1, by decide, by decide⟩ "day".toList)
        (join (unit ⟨2, by decide, by decide⟩ "hours".toList)
          (unit ⟨3, by decide, by decide⟩ "minutes".toList))).eval :=
  eval_of_tokens rfl

def intsFrom (low high : Int) : List Parm :=
  (List.range (high - low + 1).toNat).map fun (k : Nat) => .int (low + k)

def Single.values : Single → List Parm
  | one item => [item.parm]
  | range low high =>
      match low.parm, high.parm with
      | .int a, .int b => intsFrom a b
      | _, _ => []

def BlockItem.values (item : BlockItem) : List Parm :=
  item.singles.flatMap Single.values

def Single.Gives : Single → Prop
  | one _ => True
  | range low high => ∃ a b, low = .number a ∧ high = .number b ∧ a.val ≤ b.val

/-- No range up to the greatest `int`. -/
def Single.Ends : Single → Prop
  | one _ => True
  | range low high =>
      ∀ a b, low = .number a → high = .number b → b.val ≠ 2147483647

/-- What is asked of an item: something is listed, and no range goes up to the
greatest `int`. -/
structure BlockItem.Proper (item : BlockItem) : Prop where
  gives : ∃ single ∈ item.singles, single.Gives
  ends : ∀ single ∈ item.singles, single.Ends

theorem Oneitem.parm_eq_int {item : Oneitem} {n : Int} :
    item.parm = .int n ↔ ∃ value, item = .number value ∧ value.val = n := by
  cases item with
  | qstring text => simp [parm]
  | timespec time => simp [parm]
  | number value => simp [parm]
  | string text =>
      simp only [parm]
      split
      · simp
      · simp

theorem intsFrom_ne_nil {low high : Int} :
    intsFrom low high ≠ [] ↔ low ≤ high := by
  unfold intsFrom
  rw [ne_eq, List.map_eq_nil_iff, List.range_eq_nil]
  omega

theorem intsFrom_cons {low high : Int} (le : low ≤ high) :
    intsFrom low high = .int low :: intsFrom (low + 1) high := by
  unfold intsFrom
  have length : (high - low + 1).toNat = (high - (low + 1) + 1).toNat + 1 := by
    omega
  rw [length, List.range_succ_eq_map, List.map_cons, List.map_map]
  refine congr (congrArg List.cons (by simp)) ?_
  refine List.map_congr_left fun k _ => ?_
  simp only [Function.comp_apply, Parm.int.injEq, Nat.cast_succ]
  omega

theorem intsFrom_nil {low high : Int} (lt : high < low) :
    intsFrom low high = [] := by
  by_contra some_
  exact Int.not_le.mpr lt (intsFrom_ne_nil.mp some_)

theorem Single.values_range {low high : Oneitem} {a b : CInt}
    (isLow : low = .number a) (isHigh : high = .number b) :
    (range low high).values = intsFrom a.val b.val := by
  rw [isLow, isHigh]
  rfl

theorem Single.values_ne_nil : single.values ≠ [] ↔ single.Gives := by
  cases single with
  | one item => simp [values, Gives]
  | range low high =>
      constructor
      · intro some_
        simp only [values] at some_
        split at some_
        · rename_i a b isLow isHigh
          obtain ⟨x, isX, rfl⟩ := Oneitem.parm_eq_int.mp isLow
          obtain ⟨y, isY, rfl⟩ := Oneitem.parm_eq_int.mp isHigh
          exact ⟨x, y, isX, isY, intsFrom_ne_nil.mp some_⟩
        · exact absurd rfl some_
      · rintro ⟨a, b, isLow, isHigh, le⟩
        rw [values_range isLow isHigh]
        exact intsFrom_ne_nil.mpr le

theorem BlockItem.values_ne_nil :
    item.values ≠ [] ↔ ∃ single ∈ item.singles, single.Gives := by
  unfold values
  rw [ne_eq, List.flatMap_eq_nil_iff]
  push Not
  simp only [ne_eq, ← Single.values_ne_nil]

theorem valuesOf_addCurListCpt (new : Parm) (list : Option CurList) :
    valuesOf (some (addCurListCpt new list)) = valuesOf list ++ [new] := by
  cases list with
  | none => rfl
  | some list => rfl

theorem valuesOf_eq_nil {list : Option CurList} :
    valuesOf list = [] ↔ list = none := by
  cases list with
  | none => simp [valuesOf]
  | some list => simp [valuesOf, CurList.values]

theorem wrap_of_lt {n : Int} (low : -2147483648 ≤ n) (high : n ≤ 2147483647) :
    wrap n = n := by
  unfold wrap
  exact Int.bmod_eq_of_le (by omega) (by omega)

theorem wrap_bounds (n : Int) : -2147483648 ≤ wrap n ∧ wrap n ≤ 2147483647 := by
  unfold wrap
  have low := Int.le_bmod (x := n) (m := 4294967296) (by decide)
  have high := Int.bmod_lt (x := n) (m := 4294967296) (by decide)
  omega

theorem rangeLoop_eq {i high : Int} (low : -2147483648 ≤ i)
    (below : high < 2147483647) (enough : (high - i + 1).toNat < turns)
    (list : Option CurList) : ∃ after,
    rangeLoop turns i high list = .ok after ∧
      valuesOf after = valuesOf list ++ intsFrom i high := by
  induction turns generalizing i list with
  | zero => cases enough
  | succ turns ih =>
      unfold rangeLoop
      by_cases le : i ≤ high
      · rw [if_pos le, wrap_of_lt (by omega) (by omega)]
        obtain ⟨after, done, values⟩ := ih (i := i + 1) (by omega) (by omega)
          (some (addCurListCpt (.int i) list))
        refine ⟨after, done, ?_⟩
        rw [values, valuesOf_addCurListCpt, intsFrom_cons le,
          List.append_assoc]
        rfl
      · rw [if_neg le]
        refine ⟨list, rfl, ?_⟩
        rw [intsFrom_nil (Int.not_le.mp le), List.append_nil]

theorem rangeLoop_max {i : Int} (high : i ≤ 2147483647)
    (list : Option CurList) :
    rangeLoop turns i 2147483647 list = .error .running := by
  induction turns generalizing i list with
  | zero => rfl
  | succ turns ih =>
      unfold rangeLoop
      rw [if_pos high]
      exact ih (wrap_bounds _).2 _

theorem rangeLoop_of_ok {i high : Int} {list after : Option CurList}
    (low : -2147483648 ≤ i) (below : high < 2147483647)
    (done : rangeLoop turns i high list = .ok after) :
    valuesOf after = valuesOf list ++ intsFrom i high := by
  induction turns generalizing i list with
  | zero => cases done
  | succ turns ih =>
      unfold rangeLoop at done
      by_cases le : i ≤ high
      · rw [if_pos le, wrap_of_lt (by omega) (by omega)] at done
        rw [ih (by omega) done, valuesOf_addCurListCpt, intsFrom_cons le,
          List.append_assoc]
        rfl
      · rw [if_neg le] at done
        cases done
        rw [intsFrom_nil (Int.not_le.mp le), List.append_nil]

structure Appends (values : List Parm) (st t : ParseState) : Prop where
  calls : t.calls = st.calls
  list : valuesOf t.curList = valuesOf st.curList ++ values

theorem ParseState.calls_emit (event : Event) (st : ParseState) :
    (st.emit event).calls = st.calls ++ event.call.toList := by
  unfold calls emit
  rw [List.filterMap_append, List.filterMap_cons, List.filterMap_nil]
  cases event.call with
  | none => rfl
  | some call => rfl

theorem ParseState.calls_report (text : CString) (st : ParseState) :
    (st.report text).calls = st.calls := by
  rw [report, calls_emit]
  exact List.append_nil _

theorem Appends.refl (st : ParseState) : Appends [] st st where
  calls := rfl
  list := (List.append_nil _).symm

theorem Appends.trans {first second : List Parm} {middle : ParseState}
    (left : Appends first st middle) (right : Appends second middle t) :
    Appends (first ++ second) st t where
  calls := right.calls.trans left.calls
  list := by rw [right.list, left.list, List.append_assoc]

theorem Appends.report (text : CString) (st : ParseState) :
    Appends [] st (st.report text) where
  calls := st.calls_report text
  list := (List.append_nil _).symm

theorem Timespec.run_appends (time : Timespec) (st : ParseState) :
    Appends [] st (time.run st) := by
  induction time generalizing st with
  | unit number word =>
      unfold run
      split
      · exact .report _ st
      · exact .refl st
  | join left right leftRun rightRun =>
      exact (leftRun st).trans (rightRun (left.run st))
  | plus left number leftRun => exact leftRun st

theorem Oneitem.run_appends (item : Oneitem) (st : ParseState) :
    Appends [] st (item.run st) := by
  cases item with
  | timespec time => exact time.run_appends st
  | qstring text => exact .refl st
  | number value => exact .refl st
  | string text => exact .refl st

theorem Single.run_of_ok (done : single.run turns st = .ok t) :
    single.Ends ∧ Appends single.values st t := by
  cases single with
  | one item =>
      cases done
      have quiet := item.run_appends st
      refine ⟨trivial, quiet.calls, ?_⟩
      dsimp only
      rw [valuesOf_addCurListCpt, quiet.list, List.append_nil]
      rfl
  | range low high =>
      have quiet := (low.run_appends st).trans (high.run_appends (low.run st))
      unfold run at done
      dsimp only at done
      split at done
      · rename_i a b isLow isHigh
        obtain ⟨x, isX, rfl⟩ := Oneitem.parm_eq_int.mp isLow
        obtain ⟨y, isY, rfl⟩ := Oneitem.parm_eq_int.mp isHigh
        split at done
        · cases done
        · rename_i list looped
          cases done
          have ends : y.val ≠ 2147483647 := by
            intro greatest
            rw [greatest, rangeLoop_max x.high] at looped
            cases looped
          have below : y.val < 2147483647 := by
            have high := y.high
            omega
          refine ⟨?_, quiet.calls, ?_⟩
          · rintro a b _ isB
            rw [isY] at isB
            cases isB
            exact ends
          · dsimp only
            rw [rangeLoop_of_ok x.low below looped, quiet.list,
              values_range isX isY, List.append_nil, List.append_nil]
      · rename_i other
        cases done
        have none_ : (range low high).values = [] := by simp only [values]
        refine ⟨?_, ?_⟩
        · rintro a b rfl rfl
          exact absurd rfl (other a.val b.val rfl)
        · rw [none_]
          exact quiet.trans (.report _ _)

theorem Single.run_ok (ends : single.Ends) (enough : 4294967296 < turns)
    (st : ParseState) : ∃ t, single.run turns st = .ok t := by
  cases single with
  | one item => exact ⟨_, rfl⟩
  | range low high =>
      unfold run
      dsimp only
      split
      · rename_i a b isLow isHigh
        obtain ⟨x, isX, rfl⟩ := Oneitem.parm_eq_int.mp isLow
        obtain ⟨y, isY, rfl⟩ := Oneitem.parm_eq_int.mp isHigh
        have below : y.val < 2147483647 := by
          have high := y.high
          have other := ends x y isX isY
          omega
        have short : (y.val - x.val + 1).toNat < turns := by
          have least := x.low
          omega
        obtain ⟨after, looped, _⟩ := rangeLoop_eq x.low below short
          (high.run (low.run st)).curList
        rw [looped]
        exact ⟨_, rfl⟩
      · exact ⟨_, rfl⟩

theorem singles_of_ok {singles : List Single}
    (done : singles.foldlM (fun st single => single.run turns st) st =
      .ok t) :
    (∀ single ∈ singles, single.Ends) ∧
      Appends (singles.flatMap Single.values) st t := by
  induction singles generalizing st with
  | nil =>
      cases done
      exact ⟨by simp, .refl _⟩
  | cons single rest ih =>
      rw [List.foldlM_cons] at done
      obtain ⟨middle, first, later⟩ := Except.bind_eq_ok.mp done
      obtain ⟨ends, appended⟩ := Single.run_of_ok first
      obtain ⟨others, more⟩ := ih later
      refine ⟨List.forall_mem_cons.mpr ⟨ends, others⟩, ?_⟩
      rw [List.flatMap_cons]
      exact appended.trans more

theorem singles_ok {singles : List Single}
    (ends : ∀ single ∈ singles, single.Ends) (enough : 4294967296 < turns)
    (st : ParseState) : ∃ t,
    singles.foldlM (fun st single => single.run turns st) st = .ok t := by
  induction singles generalizing st with
  | nil => exact ⟨st, rfl⟩
  | cons single rest ih =>
      obtain ⟨here, others⟩ := List.forall_mem_cons.mp ends
      obtain ⟨middle, first⟩ := Single.run_ok here enough st
      obtain ⟨t, later⟩ := ih others middle
      refine ⟨t, ?_⟩
      rw [List.foldlM_cons]
      exact Except.bind_eq_ok.mpr ⟨middle, first, later⟩

theorem Appends.emit {event : Event} (other : event.call = none)
    (st : ParseState) : Appends [] st (st.emit event) where
  calls := by
    rw [st.calls_emit, other]
    exact List.append_nil _
  list := (List.append_nil _).symm

theorem setEntry_appends (tc : TopConf) (name : CString) (entry : ConfEntry)
    (list : CurList) (st : ParseState) :
    Appends [] st (setEntry tc name entry list st) := by
  unfold setEntry
  dsimp only
  split
  · exact .emit rfl st
  · split
    · split
      · exact .report _ st
      · split
        · exact .emit rfl st
        · exact .emit rfl st
    · split
      · exact .refl st
      · exact .emit rfl st

theorem confCallSet_of_ok {name : CString} {value : Option CurList}
    (done : confCallSet name value st = .ok t) :
    Appends [] (st.emit (.callSet name (valuesOf value))) t := by
  unfold confCallSet at done
  dsimp only at done
  split at done
  · cases done
    exact .refl _
  · split at done
    · cases done
      exact .report _ _
    · split at done
      · cases done
      · split at done
        · cases done
          exact .report _ _
        · split at done
          · cases done
            exact .report _ _
          · cases done
            exact setEntry_appends _ _ _ _ _

theorem confCallSet_ok (name : CString) (list : CurList) (st : ParseState) :
    ∃ t, confCallSet name (some list) st = .ok t := by
  unfold confCallSet
  dsimp only
  split
  · exact ⟨_, rfl⟩
  · split
    · exact ⟨_, rfl⟩
    · split
      · exact ⟨_, rfl⟩
      · split
        · exact ⟨_, rfl⟩
        · exact ⟨_, rfl⟩

theorem BlockItem.run_of_ok (done : item.run turns st = .ok t) :
    (∀ single ∈ item.singles, single.Ends) ∧
      valuesOf st.curList ++ item.values ≠ [] ∧
      t.calls =
        st.calls ++ [(item.name, valuesOf st.curList ++ item.values)] ∧
      t.curList = none := by
  unfold run at done
  obtain ⟨listed, singles, done⟩ := Except.bind_eq_ok.mp done
  obtain ⟨called, call, done⟩ := Except.bind_eq_ok.mp done
  obtain ⟨ends, appended⟩ := singles_of_ok singles
  have quiet := confCallSet_of_ok call
  have same : valuesOf called.curList =
      valuesOf st.curList ++ item.values := by
    rw [quiet.list, List.append_nil]
    exact appended.list
  split at done
  · cases done
  · rename_i list isSome
    cases done
    refine ⟨ends, ?_, ?_, rfl⟩
    · rw [← same, ne_eq, valuesOf_eq_nil, isSome]
      exact Option.some_ne_none list
    · have calls := quiet.calls
      rw [ParseState.calls_emit, appended.calls, appended.list] at calls
      exact calls

theorem BlockItem.run_ok (ends : ∀ single ∈ item.singles, single.Ends)
    (some_ : valuesOf st.curList ++ item.values ≠ [])
    (enough : 4294967296 < turns) : ∃ t, item.run turns st = .ok t := by
  obtain ⟨listed, singles⟩ := singles_ok ends enough st
  have appended := (singles_of_ok singles).2
  have isSome : listed.curList ≠ none := by
    intro isNone
    apply some_
    rw [BlockItem.values, ← appended.list, isNone]
    rfl
  obtain ⟨list, isList⟩ := Option.ne_none_iff_exists'.mp isSome
  obtain ⟨called, call⟩ := confCallSet_ok item.name list listed
  have kept : called.curList ≠ none := by
    have same := (confCallSet_of_ok call).list
    rw [List.append_nil] at same
    rw [ne_eq, ← valuesOf_eq_nil, same, valuesOf_eq_nil]
    exact isSome
  obtain ⟨value, isValue⟩ := Option.ne_none_iff_exists'.mp kept
  refine ⟨{ called with curList := none }, ?_⟩
  refine Except.bind_eq_ok.mpr ⟨listed, singles, ?_⟩
  refine Except.bind_eq_ok.mpr ⟨called, ?_, ?_⟩
  · rw [isList]
    exact call
  · rw [isValue]

def BlockItem.call (item : BlockItem) : CString × List Parm :=
  (item.name, item.values)

def callsOf (list : List Parm) : List BlockItem → List (CString × List Parm)
  | [] => []
  | item :: rest =>
      (item.name, list ++ item.values) :: rest.map BlockItem.call

def listAfter (list : List Parm) : List BlockItem → List Parm
  | [] => list
  | _ :: _ => []

structure Fit (list : List Parm) (items : List BlockItem) : Prop where
  ends : ∀ item ∈ items, ∀ single ∈ item.singles, single.Ends
  gives : ∀ call ∈ callsOf list items, call.2 ≠ []

structure Ran (items : List BlockItem) (st t : ParseState) : Prop where
  fit : Fit (valuesOf st.curList) items
  calls : t.calls = st.calls ++ callsOf (valuesOf st.curList) items
  list : valuesOf t.curList = listAfter (valuesOf st.curList) items

variable {items first second : List BlockItem} {list : List Parm}
  {middle : ParseState}

theorem callsOf_nil_list (items : List BlockItem) :
    callsOf [] items = items.map BlockItem.call := by
  cases items with
  | nil => rfl
  | cons item rest => rfl

theorem callsOf_append (list : List Parm) (first second : List BlockItem) :
    callsOf list (first ++ second) =
      callsOf list first ++ callsOf (listAfter list first) second := by
  cases first with
  | nil => rfl
  | cons item rest =>
      rw [listAfter, callsOf_nil_list]
      exact congrArg _ List.map_append

theorem listAfter_append (list : List Parm) (first second : List BlockItem) :
    listAfter list (first ++ second) =
      listAfter (listAfter list first) second := by
  cases first with
  | nil => rfl
  | cons item rest => cases second with
      | nil => rfl
      | cons next others => rfl

theorem fit_append : Fit list (first ++ second) ↔
    Fit list first ∧ Fit (listAfter list first) second := by
  constructor
  · intro fit
    have ends := List.forall_mem_append.mp fit.ends
    have gives := fit.gives
    rw [callsOf_append, List.forall_mem_append] at gives
    exact ⟨⟨ends.1, gives.1⟩, ⟨ends.2, gives.2⟩⟩
  · rintro ⟨left, right⟩
    refine ⟨List.forall_mem_append.mpr ⟨left.ends, right.ends⟩, ?_⟩
    rw [callsOf_append, List.forall_mem_append]
    exact ⟨left.gives, right.gives⟩

theorem Ran.trans (left : Ran first st middle) (right : Ran second middle t) :
    Ran (first ++ second) st t where
  fit := by
    rw [fit_append, ← left.list]
    exact ⟨left.fit, right.fit⟩
  calls := by
    rw [right.calls, left.calls, left.list, callsOf_append, List.append_assoc]
  list := by rw [right.list, left.list, listAfter_append]

theorem Ran.of_appends (quiet : Appends [] st t) : Ran [] st t where
  fit := ⟨by simp, by simp [callsOf]⟩
  calls := by
    rw [quiet.calls]
    exact (List.append_nil _).symm
  list := by
    rw [quiet.list]
    exact List.append_nil _

theorem Ran.of_item (done : item.run turns st = .ok t) : Ran [item] st t := by
  obtain ⟨ends, gives, calls, isNone⟩ := BlockItem.run_of_ok done
  refine ⟨⟨?_, ?_⟩, calls, ?_⟩
  · simpa using ends
  · simpa [callsOf] using gives
  · rw [isNone]
    rfl

abbrev Act := Nat → ParseState → Except Stop ParseState

structure Runs (items : List BlockItem) (act : Act) : Prop where
  ran : ∀ {turns st t}, act turns st = .ok t → Ran items st t
  ends : ∀ {turns st}, 4294967296 < turns → Fit (valuesOf st.curList) items →
    ∃ t, act turns st = .ok t

theorem Runs.bind {act next : Act} (left : Runs first act)
    (right : Runs second next) :
    Runs (first ++ second) fun turns st => act turns st >>= next turns where
  ran := by
    intro turns st t done
    obtain ⟨middle, before, after⟩ := Except.bind_eq_ok.mp done
    exact (left.ran before).trans (right.ran after)
  ends := by
    intro turns st enough fit
    obtain ⟨fits, later⟩ := fit_append.mp fit
    obtain ⟨middle, before⟩ := left.ends enough fits
    rw [← (left.ran before).list] at later
    obtain ⟨t, after⟩ := right.ends enough later
    exact ⟨t, Except.bind_eq_ok.mpr ⟨middle, before, after⟩⟩

theorem Runs.of_appends {change : ParseState → ParseState}
    (quiet : ∀ st, Appends [] st (change st)) :
    Runs [] fun _ st => .ok (change st) where
  ran := by
    intro turns st t done
    cases done
    exact .of_appends (quiet st)
  ends := fun _ _ => ⟨_, rfl⟩

theorem Runs.foldlM {α : Type} {itemsOf : α → List BlockItem} {act : α → Act}
    (runs : ∀ part, Runs (itemsOf part) (act part)) (parts : List α) :
    Runs (parts.flatMap itemsOf) fun turns st =>
      parts.foldlM (fun st part => act part turns st) st := by
  induction parts with
  | nil => exact .of_appends .refl
  | cons part rest ih =>
      simp only [List.foldlM_cons, List.flatMap_cons]
      exact (runs part).bind ih

theorem BlockItem.runs (item : BlockItem) :
    Runs [item] fun turns => item.run turns where
  ran := .of_item
  ends := by
    intro turns st enough fit
    have gives := fit.gives _ (List.mem_cons_self ..)
    exact run_ok (fit.ends item (List.mem_cons_self ..)) gives enough

theorem confStartBlock_appends (blocks : List TopConf) (name : CString)
    (label : Option CString) (st : ParseState) :
    Appends [] st (confStartBlock blocks name label st) := by
  unfold confStartBlock
  split
  · have quiet := Appends.report ("Configuration block '".toList ++ name ++
      "' is not defined.".toList) { st with block := none }
    exact ⟨quiet.calls, quiet.list⟩
  · rename_i tc _
    have other : (Event.start tc).call = none := rfl
    have quiet := Appends.emit other
      { st with block := some tc, blockName := label }
    exact ⟨quiet.calls, quiet.list⟩

theorem confEndBlock_appends (st : ParseState) :
    Appends [] st (confEndBlock st) := by
  unfold confEndBlock
  split
  · exact .refl st
  · exact .emit rfl st

theorem Block.runs (blocks : List TopConf) (block : Block) :
    Runs block.items (block.run blocks) := by
  have started :=
    Runs.of_appends (confStartBlock_appends blocks block.name block.label)
  have looped := Runs.foldlM BlockItem.runs block.items
  have ended := Runs.of_appends confEndBlock_appends
  have runs := started.bind (looped.bind ended)
  rw [List.nil_append, List.append_nil, List.flatMap_singleton'] at runs
  exact runs

theorem Conf.runs (blocks : List TopConf) (conf : Conf) :
    Runs conf.items (conf.run blocks) :=
  Runs.foldlM (Block.runs blocks) conf

/-- The actions of a file come to an end; each item calls `conf_call_set`
once, in order, with the values that are written and at least one. -/
structure Parses (blocks : List TopConf) (conf : Conf) (start : ParseState) :
    Prop where
  ends : ∃ turns t, conf.run blocks turns start = .ok t ∧
    t.calls = start.calls ++ conf.items.map BlockItem.call
  gives : ∀ item ∈ conf.items, item.values ≠ []

/-- A file is parsed so when each of its items lists a value and has no range
up to the greatest `int`, and nothing was left in the list. -/
theorem parses_iff (blocks : List TopConf) (conf : Conf)
    (start : ParseState) : Parses blocks conf start ↔
      (conf.items = [] ∨ start.curList = none) ∧
        ∀ item ∈ conf.items, item.Proper := by
  constructor
  · rintro ⟨⟨turns, t, done, calls⟩, gives⟩
    have ran := (conf.runs blocks).ran done
    have same : callsOf (valuesOf start.curList) conf.items =
        conf.items.map BlockItem.call :=
      List.append_cancel_left (ran.calls.symm.trans calls)
    constructor
    · revert same
      cases conf.items with
      | nil => exact fun _ => .inl rfl
      | cons item rest =>
          intro same
          have first :
              valuesOf start.curList ++ item.values = [] ++ item.values :=
            (Prod.mk.inj (List.cons.inj same).1).2
          exact .inr (valuesOf_eq_nil.mp (List.append_cancel_right first))
    · intro item member
      exact ⟨BlockItem.values_ne_nil.mp (gives item member),
        ran.fit.ends item member⟩
  · rintro ⟨empty, proper⟩
    have calls : callsOf (valuesOf start.curList) conf.items =
        conf.items.map BlockItem.call := by
      rcases empty with noItem | isNone
      · rw [noItem]
        rfl
      · rw [isNone]
        exact callsOf_nil_list conf.items
    have gives : ∀ item ∈ conf.items, item.values ≠ [] :=
      fun item member => BlockItem.values_ne_nil.mpr (proper item member).gives
    have fit : Fit (valuesOf start.curList) conf.items := by
      refine ⟨fun item member => (proper item member).ends, ?_⟩
      rw [calls]
      exact List.forall_mem_map.mpr gives
    obtain ⟨t, done⟩ := (conf.runs blocks).ends
      (Nat.lt_succ_self 4294967296) fit
    refine ⟨⟨_, t, done, ?_⟩, gives⟩
    rw [((conf.runs blocks).ran done).calls, calls]

def serviceBlock : TopConf where
  name := "service".toList
  entries := []
  items := []
  extensions :=
    [⟨"alis".toList, [⟨"max_matches".toList, .int, false, 0, false⟩]⟩]

/-- `service "alis" { max_matches = 5..1; };` -/
def emptyRange : Conf :=
  [ { name := "service".toList
      label := some "alis".toList
      first :=
        { name := "max_matches".toList
          first := .range (.number ⟨5, by omega, by omega⟩)
            (.number ⟨1, by omega, by omega⟩)
          rest := [] }
      rest := [] } ]

theorem emptyRange_stops (turns : Nat) :
    emptyRange.run [serviceBlock] (turns + 1) {} = .error .nullList := rfl

theorem not_parses_emptyRange : ¬ Parses [serviceBlock] emptyRange {} := by
  rintro ⟨⟨turns, t, done, _⟩, _⟩
  cases turns with
  | zero => cases done
  | succ turns =>
      rw [emptyRange_stops] at done
      cases done

end Parser

end RatboxServices
