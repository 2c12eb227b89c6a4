import RatboxServices.Serv.AlisMode

namespace RatboxServices

open CString

/-! When ALIS lists the channels that were asked for, over all tables. -/

namespace Alis

variable {query : Query} {options : List CString} {mask : CString}
  {table : List Channel} {ch : Channel} {maxMatches : Int} {inStep : Bool}

/-- The tests of `show_channel`. -/
def passes (query : Query) (ch : Channel) : Bool :=
  !ch.mode.mode.has modeSecret &&
    !decide ((ch.users.length : Int) < query.min ∨
      (query.max ≠ 0 ∧ query.max < ch.users.length)) &&
    showMode ch.mode query && match_ query.mask ch.name &&
    query.topic.all fun topic => match_ topic ch.topic

theorem showChannel_eq (ch : Channel) (query : Query) :
    showChannel ch query =
      if passes query ch = true then
        if query.skip ≠ 0 then (false, { query with skip := query.skip - 1 })
        else (true, query)
      else (false, query) := by
  have topic : (query.topic.any fun topic => !match_ topic ch.topic) =
      !query.topic.all fun topic => match_ topic ch.topic := by
    cases query.topic <;> rfl
  unfold showChannel passes
  rw [topic]
  cases ch.mode.mode.has modeSecret
  · cases showMode ch.mode query
    · simp
    · cases match_ query.mask ch.name
      · simp
      · by_cases range : (ch.users.length : Int) < query.min ∨
          (query.max ≠ 0 ∧ query.max < ch.users.length)
        · simp [range]
        · cases query.topic.all fun topic => match_ topic ch.topic
          · simp [range]
          · simp [range]
  · simp

theorem printed_listLoop (positive : 0 < maxMatches)
    (skip : 0 ≤ query.skip) :
    printed (listLoop table query maxMatches) =
      (((table.filter (passes query)).drop query.skip.toNat).take
        maxMatches.toNat).map Channel.name := by
  induction table generalizing query maxMatches with
  | nil => simp [listLoop, printed]
  | cons ch rest ih =>
      unfold listLoop
      rw [showChannel_eq]
      by_cases test : passes query ch = true
      · rw [if_pos test, List.filter_cons_of_pos test]
        by_cases later : query.skip = 0
        · rw [if_neg (not_not.mpr later), later]
          have room : maxMatches.toNat = (maxMatches - 1).toNat + 1 := by
            omega
          rw [Int.toNat_zero, List.drop_zero, room, List.take_succ_cons,
            List.map_cons]
          change ch.name :: printed _ = _
          refine congrArg (ch.name :: ·) ?_
          split
          · rename_i full
            rw [full]
            rfl
          · rename_i more
            rw [ih (by omega) skip, later]
            rfl
        · rw [if_pos later]
          have left : query.skip.toNat = (query.skip - 1).toNat + 1 := by
            omega
          dsimp only
          rw [ih positive (by dsimp only; omega), left, List.drop_succ_cons]
          rfl
      · rw [if_neg test, List.filter_cons_of_neg test]
        exact ih positive skip

theorem checkMaxMatches_pos (maxMatches : Int) :
    0 < checkMaxMatches maxMatches := by
  unfold checkMaxMatches
  split
  · decide
  · split
    · decide
    · omega

def onTable (maxMatches : Int) (query : Query) (table : List Channel) :
    List CString :=
  if '*' ∉ query.mask then
    ((table.find? fun ch => irccmp ch.name query.mask).filter
      fun ch => !ch.mode.mode.has modeSecret).toList.map Channel.name
  else
    (((table.filter (passes query)).drop query.skip.toNat).take
      maxMatches.toNat).map Channel.name

section

variable (reads : Reads options { mask := mask } query)
include reads

theorem skip_nonneg : 0 ≤ query.skip := by
  rw [reads.skip]
  cases last : lastOption "-skip".toList options with
  | none => exact Int.le_refl 0
  | some value =>
      have large := reads.numbers _ (by decide) value last
      exact Int.le_trans (by decide) large

theorem printed_sAlisList {s : Chans}
    (read : parse options { mask := mask } = .ok query)
    (listed : s.Listed) (positive : 0 < maxMatches) :
    printed (sAlisList maxMatches mask options s).2 =
      onTable maxMatches query s.channels := by
  unfold sAlisList onTable
  rw [read, reads.mask]
  dsimp only
  split
  · rw [listed.find mask]
    cases found : s.channels.find? fun ch => irccmp ch.name mask with
    | none => rfl
    | some ch =>
        dsimp only
        cases secret : ch.mode.mode.has modeSecret with
        | false => simp [Option.filter, secret, printed, printChannel]
        | true => simp [Option.filter, secret, printed]
  · rw [← printed_listLoop positive (skip_nonneg reads)]
    simp [printed]

theorem passes_eq (ch : Channel) : passes query ch =
    (!ch.mode.mode.has modeSecret && (Asked.of options).wantsRest mask ch &&
      showMode ch.mode query) := by
  have min : query.min = (Asked.of options).min := reads.min
  have max : query.max = (Asked.of options).max := reads.max
  have topic : query.topic = (Asked.of options).topic := by
    rw [reads.topic, Option.or_none]
    rfl
  have range : decide ((ch.users.length : Int) < query.min ∨
      (query.max ≠ 0 ∧ query.max < ch.users.length)) =
      !decide ((Asked.of options).min ≤ ch.users.length ∧
        ((Asked.of options).max = 0 ∨
          ch.users.length ≤ (Asked.of options).max)) := by
    rw [min, max, ← decide_not]
    apply decide_eq_decide.mpr
    omega
  unfold passes Asked.wantsRest
  rw [range, Bool.not_not, topic, reads.mask]
  simp only [Bool.and_assoc, Bool.and_comm, Bool.and_left_comm]

theorem numbers_nonneg : 0 ≤ (Asked.of options).min ∧
    0 ≤ (Asked.of options).max ∧
    0 ≤ (Asked.of options).skip := by
  have each : ∀ name ∈ ["-min".toList, "-max".toList, "-skip".toList],
      0 ≤ ((lastOption name options).map atoi).getD 0 := by
    intro name listed
    cases last : lastOption name options with
    | none => exact Int.le_refl 0
    | some value =>
        exact Int.le_trans (by decide) (reads.numbers name listed value last)
  exact ⟨each _ (by simp), each _ (by simp), each _ (by simp)⟩

end

/-- No table has more channels than are skipped that the mask, the number of
users and the topic let through. -/
def ListsNone (mask : CString) (options : List CString) : Prop :=
  ∀ table, Chans.IsTable table →
    (table.filter ((Asked.of options).wantsRest mask)).length ≤
      (Asked.of options).skip.toNat

/-- Nothing but `-show` is asked for, and the mask matches the channel of its
name and no other. -/
def IsPlain (mask : CString) (options : List CString) : Prop :=
  Asked.of options = Asked.of [] ∧
    ∀ name, Chans.validChname name = true → match_ mask name = irccmp name mask

def Unnamed (mask : CString) : Prop :=
  ∀ name, Chans.validChname name = true → irccmp name mask = false

def Exact (inStep : Bool) (mask : CString) (options : List CString) : Prop :=
  if '*' ∈ mask then ModeExact inStep options ∨ ListsNone mask options
  else IsPlain mask options ∨ (Unnamed mask ∧ ListsNone mask options)

/-- The answer agrees with what is printed of every table, of channels that
are in step or of any. -/
def Agrees (inStep : Bool) (mask : CString) (options : List CString)
    (query : Query) : Prop :=
  ∀ maxMatches table, Chans.IsTable table →
    (inStep = true → ∀ ch ∈ table, InStep ch.mode) →
    onTable (checkMaxMatches maxMatches) query table =
      (Asked.of options).answer (checkMaxMatches maxMatches) mask table

theorem Agrees.one (agrees : Agrees inStep mask options query)
    (good : Chans.IsTable table)
    (step : inStep = true → ∀ ch ∈ table, InStep ch.mode) :
    onTable 1 query table = (Asked.of options).answer 1 mask table :=
  agrees 1 table good step

theorem isTable_singleton (valid : Chans.validChname ch.name = true) :
    Chans.IsTable [ch] where
  valid := by simpa using valid
  distinct := List.pairwise_singleton _ _

def remode (mode : Chmode) (ch : Channel) : Channel :=
  { ch with mode := mode }

theorem isTable_remode (good : Chans.IsTable table) (keep : Channel → Bool)
    (mode : Chmode) :
    Chans.IsTable ((table.filter keep).map (remode mode)) where
  valid := by
    intro ch there
    obtain ⟨old, before, rfl⟩ := List.mem_map.mp there
    exact good.valid old (List.mem_of_mem_filter before)
  distinct := by
    rw [List.pairwise_map]
    exact good.distinct.sublist List.filter_sublist

theorem filter_of_all {keep : Channel → Bool} {all : Bool}
    (same : ∀ ch ∈ table, keep ch = all) :
    table.filter keep = if all = true then table else [] := by
  cases all with
  | true => exact List.filter_eq_self.mpr same
  | false =>
      refine List.filter_eq_nil_iff.mpr fun ch there => ?_
      rw [same ch there]
      exact Bool.false_ne_true

theorem filter_named (good : Chans.IsTable table) (keep : Channel → Bool)
    (name : CString) :
    table.filter (fun ch => keep ch && irccmp ch.name name) =
      ((table.find? fun ch => irccmp ch.name name).filter keep).toList := by
  induction table with
  | nil => rfl
  | cons ch rest ih =>
      obtain ⟨apart, distinct⟩ := List.pairwise_cons.mp good.distinct
      cases same : irccmp ch.name name with
      | false =>
          rw [List.filter_cons_of_neg (by simp [same]),
            List.find?_cons_of_neg (by simp [same])]
          exact ih ⟨fun other there =>
            good.valid other (List.mem_cons_of_mem _ there), distinct⟩
      | true =>
          have none_ : rest.filter
              (fun ch => keep ch && irccmp ch.name name) = [] := by
            refine List.filter_eq_nil_iff.mpr fun other there => ?_
            have differs : irccmp other.name name = false := by
              by_contra again
              rw [Bool.not_eq_false] at again
              have equal : irccmp ch.name other.name = true :=
                irccmp_iff.mpr ((irccmp_iff.mp same).trans
                  (irccmp_iff.mp again).symm)
              rw [apart other there] at equal
              cases equal
            simp [differs]
          rw [List.filter_cons, same, none_,
            List.find?_cons_of_pos (by simpa using same)]
          cases kept : keep ch with
          | false => simp [Option.filter, kept]
          | true => simp [Option.filter, kept]

theorem ListsNone.answer_eq (none_ : ListsNone mask options)
    (good : Chans.IsTable table) (maxMatches : Int) :
    (Asked.of options).answer maxMatches mask table = [] := by
  have few : (table.filter ((Asked.of options).wants mask)).length ≤
      (Asked.of options).skip.toNat := by
    refine Nat.le_trans (List.Sublist.length_le ?_) (none_ table good)
    refine List.monotone_filter_right table fun ch wanted => ?_
    simp only [Asked.wants, Bool.and_eq_true] at wanted
    exact wanted.1.2
  unfold Asked.answer
  rw [List.drop_eq_nil_of_le few, List.take_nil, List.map_nil]

section

variable (reads : Reads options { mask := mask } query)
include reads

theorem agrees_of_modeExact (star : '*' ∈ mask)
    (exact_ : ModeExact inStep options) :
    Agrees inStep mask options query := by
  intro maxMatches table _ step
  have same : table.filter (passes query) =
      table.filter ((Asked.of options).wants mask) := by
    refine List.filter_congr fun ch there => ?_
    rw [passes_eq reads, Asked.wants,
      exact_.showMode_eq reads fun strict => step strict ch there]
  unfold onTable Asked.answer
  rw [reads.mask, if_neg (not_not.mpr star), same, reads.skip]
  rfl

theorem agrees_of_listsNone (star : '*' ∈ mask)
    (none_ : ListsNone mask options) :
    Agrees inStep mask options query := by
  intro maxMatches table good _
  rw [none_.answer_eq good]
  have few : (table.filter (passes query)).length ≤ query.skip.toNat := by
    rw [reads.skip]
    refine Nat.le_trans (List.Sublist.length_le ?_) (none_ table good)
    refine List.monotone_filter_right table fun ch passed => ?_
    rw [passes_eq reads, Bool.and_eq_true, Bool.and_eq_true] at passed
    exact passed.1.2
  unfold onTable
  rw [reads.mask, if_neg (not_not.mpr star), List.drop_eq_nil_of_le few,
    List.take_nil, List.map_nil]

theorem modeExact_of_agreement (star : '*' ∈ mask)
    (agrees : Agrees inStep mask options query)
    (some_ : ¬ListsNone mask options) : ModeExact inStep options := by
  apply modeExact_of_agrees reads
  intro mode step open_
  unfold ListsNone at some_
  push Not at some_
  obtain ⟨table, good, crowd⟩ := some_
  let again := (table.filter ((Asked.of options).wantsRest mask)).map
    (remode mode)
  have rest : ∀ ch ∈ again, ch.mode = mode ∧
      (Asked.of options).wantsRest mask ch = true := by
    intro ch there
    obtain ⟨old, before, rfl⟩ := List.mem_map.mp there
    exact ⟨rfl, (List.mem_filter.mp before).2⟩
  have shown : again.filter (passes query) =
      if showMode mode query = true then again else [] := by
    apply filter_of_all
    intro ch there
    obtain ⟨isMode, let_⟩ := rest ch there
    rw [passes_eq reads, isMode, open_, let_]
    rfl
  have wanted : again.filter ((Asked.of options).wants mask) =
      if (Asked.of options).wantsMode mode = true then again else [] := by
    apply filter_of_all
    intro ch there
    obtain ⟨isMode, let_⟩ := rest ch there
    rw [Asked.wants, isMode, open_, let_]
    rfl
  have printed := agrees.one (isTable_remode good _ mode)
    fun strict ch there => by rw [(rest ch there).1]; exact step strict
  have skip : query.skip = (Asked.of options).skip := reads.skip
  have more : ((again.drop (Asked.of options).skip.toNat).take
      (1 : Int).toNat).map Channel.name ≠ [] := by
    have long : (Asked.of options).skip.toNat < again.length := by
      rw [List.length_map]
      exact crowd
    intro empty
    have length := congrArg List.length empty
    simp at length
    omega
  unfold onTable Asked.answer at printed
  rw [reads.mask, if_neg (not_not.mpr star), shown, wanted, skip] at printed
  cases show_ : showMode mode query with
  | true =>
      cases want : (Asked.of options).wantsMode mode with
      | true => rfl
      | false =>
          rw [show_, want] at printed
          exact absurd (printed.trans (by simp)) more
  | false =>
      cases want : (Asked.of options).wantsMode mode with
      | false => rfl
      | true =>
          rw [show_, want] at printed
          exact absurd (printed.symm.trans (by simp)) more

theorem agrees_of_isPlain (plainMask : '*' ∉ mask)
    (plain : IsPlain mask options) :
    Agrees inStep mask options query := by
  intro maxMatches table good _
  have positive := checkMaxMatches_pos maxMatches
  generalize checkMaxMatches maxMatches = count at positive ⊢
  obtain ⟨asked, names⟩ := plain
  have wants : table.filter ((Asked.of options).wants mask) =
      table.filter fun ch =>
        !ch.mode.mode.has modeSecret && irccmp ch.name mask := by
    refine List.filter_congr fun ch there => ?_
    rw [asked]
    unfold Asked.wants Asked.wantsRest Asked.wantsMode
    rw [names ch.name (good.valid ch there)]
    simp [Asked.of, lastOption]
  unfold onTable Asked.answer
  rw [reads.mask, if_pos plainMask, wants, filter_named good, asked]
  have room : count.toNat = count.toNat - 1 + 1 := by omega
  change _ = ((List.drop 0 _).take _).map _
  rw [List.drop_zero, room]
  cases (table.find? fun ch => irccmp ch.name mask).filter
      fun ch => !ch.mode.mode.has modeSecret with
  | none => rfl
  | some ch => rw [Option.toList_some, List.take_succ_cons, List.take_nil]

theorem agrees_of_unnamed (plainMask : '*' ∉ mask) (unnamed : Unnamed mask)
    (none_ : ListsNone mask options) :
    Agrees inStep mask options query := by
  intro maxMatches table good _
  have absent : table.find? (fun ch => irccmp ch.name mask) = none := by
    refine List.find?_eq_none.mpr fun ch there => ?_
    rw [unnamed ch.name (good.valid ch there)]
    exact Bool.false_ne_true
  rw [none_.answer_eq good]
  unfold onTable
  rw [reads.mask, if_pos plainMask, absent]
  rfl

theorem answer_singleton (plainMask : '*' ∉ mask)
    (agrees : Agrees inStep mask options query) (ch : Channel)
    (valid : Chans.validChname ch.name = true)
    (step : inStep = true → InStep ch.mode)
    (open_ : ch.mode.mode.has modeSecret = false) :
    irccmp ch.name mask = true ↔ (Asked.of options).skip = 0 ∧
      (Asked.of options).wants mask ch = true := by
  have printed := agrees.one (isTable_singleton valid) (by simpa using step)
  have nonneg := (numbers_nonneg reads).2.2
  unfold onTable Asked.answer at printed
  rw [reads.mask, if_pos plainMask] at printed
  have count : (irccmp ch.name mask = true) ↔
      (((([ch].filter ((Asked.of options).wants mask)).drop
        (Asked.of options).skip.toNat).take (1 : Int).toNat).map
          Channel.name) ≠ [] := by
    rw [← printed]
    cases same : irccmp ch.name mask with
    | false => simp [same]
    | true => simp [same, open_, Option.filter]
  rw [count]
  cases want : (Asked.of options).wants mask ch with
  | false => simp [want]
  | true =>
      by_cases zero : (Asked.of options).skip = 0
      · simp [want, zero]
      · have large : (Asked.of options).skip.toNat =
            (Asked.of options).skip.toNat - 1 + 1 := by omega
        rw [List.filter_cons_of_pos want, large]
        simp [zero]

theorem isPlain_of_agreement (plainMask : '*' ∉ mask)
    (agrees : Agrees inStep mask options query) {name : CString}
    (valid : Chans.validChname name = true)
    (named : irccmp name mask = true) : IsPlain mask options := by
  obtain ⟨zeroStep, zeroOpen⟩ := askable_zero.made false false
  -- whatever its users, its topic and its modes are, the channel is wanted
  have wanted : ∀ users topic mode, InStep mode →
      mode.mode.has modeSecret = false → (Asked.of options).skip = 0 ∧
        (Asked.of options).wants mask
          { name := name, users := users, topic := topic, mode := mode } =
            true :=
    fun users topic mode step open_ =>
      (answer_singleton reads plainMask agrees
        { name := name, users := users, topic := topic, mode := mode } valid
        (fun _ => step) open_).mp named
  have rest : ∀ users topic, (Asked.of options).wantsRest mask
      { name := name, users := users, topic := topic } = true := by
    intro users topic
    have all := (wanted users topic _ zeroStep zeroOpen).2
    simp only [Asked.wants, Bool.and_eq_true] at all
    exact all.1.2
  obtain ⟨minNonneg, maxNonneg, _⟩ := numbers_nonneg reads
  have skip := (wanted [] [] _ zeroStep zeroOpen).1
  have min : (Asked.of options).min = 0 := by
    have few := rest [] []
    simp only [Asked.wantsRest, Bool.and_eq_true, decide_eq_true_eq] at few
    have low := few.1.2.1
    simp only [List.length_nil] at low
    omega
  have max : (Asked.of options).max = 0 := by
    have many := rest
      (List.replicate ((Asked.of options).max.toNat + 1) 0) []
    simp only [Asked.wantsRest, Bool.and_eq_true, decide_eq_true_eq,
      List.length_replicate] at many
    obtain zero | high := many.1.2.2
    · exact zero
    · omega
  have topic : (Asked.of options).topic = none := by
    have bare := rest [] []
    simp only [Asked.wantsRest, Bool.and_eq_true] at bare
    cases asked : (Asked.of options).topic with
    | none => rfl
    | some topic =>
        have matched := bare.2
        rw [asked] at matched
        simp [match_] at matched
  have mode : (Asked.of options).mode = none := by
    cases is : (Asked.of options).mode with
    | none => rfl
    | some pair =>
        obtain ⟨mode, step, open_, refused⟩ := exists_unwanted reads is
        have all := (wanted [] [] mode step open_).2
        rw [Asked.wants, refused, Bool.and_false] at all
        cases all
  have asked : Asked.of options = Asked.of [] := by
    cases given : Asked.of options with
    | mk askedMin askedMax askedSkip askedTopic askedMode =>
        rw [given] at min max skip topic mode
        subst min max skip topic mode
        rfl
  refine ⟨asked, fun other good => ?_⟩
  have open_ : ({ name := other } : Channel).mode.mode.has modeSecret =
      false := zeroOpen
  have one := answer_singleton reads plainMask agrees { name := other } good
    (fun _ => zeroStep) open_
  rw [asked] at one
  apply Bool.eq_iff_iff.mpr
  rw [one]
  unfold Asked.wants Asked.wantsRest Asked.wantsMode
  rw [open_]
  simp [Asked.of, lastOption]

theorem listsNone_of_agreement (plainMask : '*' ∉ mask)
    (agrees : Agrees inStep mask options query) (unnamed : Unnamed mask) :
    ListsNone mask options := by
  intro table good
  by_contra crowd
  obtain ⟨mode, step, open_, want⟩ := exists_wanted reads
  let again := (table.filter ((Asked.of options).wantsRest mask)).map
    (remode mode)
  have tabled : Chans.IsTable again := isTable_remode good _ mode
  have wanted : again.filter ((Asked.of options).wants mask) = again := by
    refine List.filter_eq_self.mpr fun ch there => ?_
    obtain ⟨old, before, rfl⟩ := List.mem_map.mp there
    have let_ : (Asked.of options).wantsRest mask (remode mode old) = true :=
      (List.mem_filter.mp before).2
    rw [Asked.wants, let_, Bool.and_true]
    change (!mode.mode.has modeSecret && _) = true
    rw [open_]
    exact want
  have absent : again.find? (fun ch => irccmp ch.name mask) = none := by
    refine List.find?_eq_none.mpr fun ch there => ?_
    rw [unnamed ch.name (tabled.valid ch there)]
    exact Bool.false_ne_true
  have printed := agrees.one tabled fun strict ch there => by
    obtain ⟨old, _, rfl⟩ := List.mem_map.mp there
    exact step
  unfold onTable Asked.answer at printed
  rw [reads.mask, if_pos plainMask, absent, wanted] at printed
  have length := congrArg List.length printed
  have long : again.length =
      (table.filter ((Asked.of options).wantsRest mask)).length :=
    List.length_map _
  simp at length
  omega

theorem agreement_iff : Agrees inStep mask options query ↔
    Exact inStep mask options := by
  unfold Exact
  by_cases star : '*' ∈ mask
  · rw [if_pos star]
    constructor
    · intro agrees
      by_cases none_ : ListsNone mask options
      · exact Or.inr none_
      · exact Or.inl (modeExact_of_agreement reads star agrees none_)
    · rintro (exact_ | none_)
      · exact agrees_of_modeExact reads star exact_
      · exact agrees_of_listsNone reads star none_
  · rw [if_neg star]
    constructor
    · intro agrees
      by_cases named : ∃ name, Chans.validChname name = true ∧
          irccmp name mask = true
      · obtain ⟨name, valid, same⟩ := named
        exact Or.inl (isPlain_of_agreement reads star agrees valid same)
      · have unnamed : Unnamed mask := by
          intro name valid
          by_contra same
          exact named ⟨name, valid, by simpa using same⟩
        exact Or.inr
          ⟨unnamed, listsNone_of_agreement reads star agrees unnamed⟩
    · rintro (plain | ⟨unnamed, none_⟩)
      · exact agrees_of_isPlain reads star plain
      · exact agrees_of_unnamed reads star unnamed none_

end

/-- An accepted query lists of every table, whether the modes of its channels
are in step or not, the first `max_matches` of the channels that were asked
for, after those to skip, if and only if it is exact. -/
theorem list_iff
    (accepted : ∃ query, parse options { mask := mask } = .ok query)
    (inStep : Bool) :
    (∀ maxMatches (s : Chans), s.Listed →
      (inStep = true → ∀ ch ∈ s.channels, InStep ch.mode) →
      printed (sAlisList (checkMaxMatches maxMatches) mask options s).2 =
        (Asked.of options).answer (checkMaxMatches maxMatches) mask
          s.channels) ↔
      Exact inStep mask options := by
  obtain ⟨query, read⟩ := accepted
  have reads := Reads.of_parse read
  rw [← agreement_iff reads]
  constructor
  · intro all maxMatches table good step
    obtain ⟨listed, same⟩ := Chans.listed_ofTable good
    have positive := checkMaxMatches_pos maxMatches
    have printed := all maxMatches (Chans.ofTable table) listed
      (by rw [same]; exact step)
    rw [printed_sAlisList reads read listed positive, same] at printed
    exact printed
  · intro agrees maxMatches s listed step
    have positive := checkMaxMatches_pos maxMatches
    rw [printed_sAlisList reads read listed positive]
    exact agrees maxMatches _ listed.isTable step

/-- The options `-min 2` and `-mode +n`. -/
def smallOptions : List CString :=
  ["-min".toList, "2".toList, "-mode".toList, "+n".toList]

theorem list_iff_small :
    (∃ query, parse smallOptions { mask := "#a*".toList } = .ok query) ∧
    ∀ maxMatches (s : Chans), s.Listed →
      printed (sAlisList (checkMaxMatches maxMatches) "#a*".toList
        smallOptions s).2 =
        (Asked.of smallOptions).answer (checkMaxMatches maxMatches)
          "#a*".toList s.channels := by
  have accepted : ∃ query,
      parse smallOptions { mask := "#a*".toList } = .ok query := ⟨_, rfl⟩
  have asked : (Asked.of smallOptions).mode = some (.set, ['n']) := by
    decide
  have exact_ : Exact false "#a*".toList smallOptions := by
    unfold Exact
    rw [if_pos (by decide)]
    refine Or.inl fun dir letters is => ?_
    rw [asked] at is
    cases is
    have known : ∃ c ∈ ['n'], (letterBit c).isSome = true :=
      ⟨'n', List.mem_singleton_self 'n', rfl⟩
    exact ⟨known, by decide, by decide, by simp, by simp⟩
  refine ⟨accepted, fun maxMatches s listed => ?_⟩
  exact (list_iff accepted false).mpr exact_ maxMatches s listed
    fun strict => absurd strict (by simp)

def openChannel : Channel where
  name := "#open".toList

/-- `LIST * -mode +k` shows a channel that has no key. -/
theorem not_listed_key : ∃ s : Chans, s.Listed ∧
    (∃ query, parse ["-mode".toList, "+k".toList] { mask := "*".toList } =
      .ok query) ∧
    printed (sAlisList (checkMaxMatches 60) "*".toList
      ["-mode".toList, "+k".toList] s).2 = ["#open".toList] ∧
    (Asked.of ["-mode".toList, "+k".toList]).answer (checkMaxMatches 60)
      "*".toList s.channels = [] := by
  have good : Chans.IsTable [openChannel] := isTable_singleton (by decide)
  obtain ⟨listed, same⟩ := Chans.listed_ofTable good
  refine ⟨Chans.ofTable [openChannel], listed, ⟨_, rfl⟩, ?_, ?_⟩
  · decide +kernel
  · rw [same]
    decide +kernel

end Alis

end RatboxServices
