import RatboxServices.Serv.OperBans

namespace RatboxServices

/-! Table `operbans` in every run: a ban has one row, which says whether it is
there or taken off. -/

namespace OperBan

variable {conf : BanServConf} {operbans : List OperBan} {type : OperBanType}
  {mask : CString} {call : BanServCall}

def key (row : OperBan) : OperBanType × CString :=
  (row.type, row.mask)

def OneRow (operbans : List OperBan) : Prop :=
  (operbans.map key).Nodup

def rowsFor (type : OperBanType) (mask : CString) (operbans : List OperBan) :
    List OperBan :=
  operbans.filter (isFor type mask)

theorem isFor_iff {row : OperBan} :
    isFor type mask row = true ↔ row.key = (type, lcase mask) := by
  simp [isFor, key]

def update (type : OperBanType) (mask : CString) (change : OperBan → OperBan)
    (operbans : List OperBan) : List OperBan :=
  operbans.map fun row => if isFor type mask row then change row else row

theorem OneRow.eq_of_key (one : OneRow operbans) {left right : OperBan}
    (first : left ∈ operbans) (second : right ∈ operbans)
    (same : left.key = right.key) : left = right :=
  List.inj_on_of_nodup_map one first second same

theorem OneRow.expire (one : OneRow operbans) (now : Int) :
    OneRow (expireOperbans now operbans) :=
  one.sublist (List.filter_sublist.map key)

variable {change : OperBan → OperBan}

theorem key_update (keeps : ∀ row, (change row).key = row.key)
    (row : OperBan) :
    key (if isFor type mask row then change row else row) = row.key := by
  split
  · exact keeps row
  · rfl

theorem OneRow.update (one : OneRow operbans)
    (keeps : ∀ row, (change row).key = row.key) :
    OneRow (update type mask change operbans) := by
  unfold OneRow OperBan.update
  rw [List.map_map]
  have same : (operbans.map (key ∘ fun row =>
      if isFor type mask row then change row else row)) =
      operbans.map key :=
    List.map_congr_left fun row _ => key_update keeps row
  rw [same]
  exact one

theorem OneRow.insert (one : OneRow operbans) {row : OperBan}
    (new : ∀ there ∈ operbans, there.key ≠ row.key) :
    OneRow (operbans ++ [row]) := by
  unfold OneRow
  rw [List.map_append, List.map_singleton, List.nodup_append]
  refine ⟨one, by simp, ?_⟩
  rintro there listed _ last rfl
  obtain ⟨other, inside, same⟩ := List.mem_map.mp listed
  exact new other inside (same.trans (List.mem_singleton.mp last))

theorem OneRow.rowsFor_eq (one : OneRow operbans) {row : OperBan}
    (listed : row ∈ operbans) (here : isFor type mask row = true) :
    rowsFor type mask operbans = [row] := by
  have inside : row ∈ rowsFor type mask operbans :=
    List.mem_filter.mpr ⟨listed, here⟩
  have nodup : (rowsFor type mask operbans).Nodup :=
    (one.of_map key).sublist List.filter_sublist
  have all : ∀ other ∈ rowsFor type mask operbans, other = row := by
    intro other member
    obtain ⟨there, same⟩ := List.mem_filter.mp member
    exact one.eq_of_key there listed
      ((isFor_iff.mp same).trans (isFor_iff.mp here).symm)
  cases shape : rowsFor type mask operbans with
  | nil =>
      rw [shape] at inside
      cases inside
  | cons first rest =>
      rw [shape] at all nodup
      have head : first = row := all first List.mem_cons_self
      cases rest with
      | nil => rw [head]
      | cons second others =>
          have again : second = row := all second (by simp)
          have apart := (List.nodup_cons.mp nodup).1
          rw [head, again] at apart
          exact absurd List.mem_cons_self apart

theorem rowsFor_update (keeps : ∀ row, (change row).key = row.key) :
    rowsFor type mask (update type mask change operbans) =
      (rowsFor type mask operbans).map change := by
  have stays (row : OperBan) : isFor type mask
      (if isFor type mask row then change row else row) =
      isFor type mask row := by
    have same : key (if isFor type mask row then change row else row) =
        row.key := key_update keeps row
    exact Bool.eq_iff_iff.mpr
      ((isFor_iff.trans (by rw [same])).trans isFor_iff.symm)
  induction operbans with
  | nil => rfl
  | cons row rest ih =>
      unfold rowsFor update at ih ⊢
      rw [List.map_cons, List.filter_cons, List.filter_cons, stays, ih]
      by_cases here : isFor type mask row = true
      · rw [if_pos here, if_pos here, if_pos here, List.map_cons]
      · rw [if_neg here, if_neg here]

theorem OneRow.changed (one : OneRow operbans)
    (keeps : ∀ row, (change row).key = row.key) {row : OperBan}
    (listed : row ∈ operbans) (here : isFor type mask row = true) :
    rowsFor type mask (OperBan.update type mask change operbans) =
      [change row] := by
  rw [rowsFor_update keeps, one.rowsFor_eq listed here, List.map_singleton]

theorem findBan_ne_zero (found : findBan type mask operbans ≠ 0) :
    ∃ row ∈ operbans, isFor type mask row = true := by
  unfold findBan at found
  cases first : operbans.find? (isFor type mask) with
  | none =>
      rw [first] at found
      exact absurd rfl found
  | some row =>
      exact ⟨row, List.mem_of_find?_eq_some first, List.find?_some first⟩

theorem findBan_eq_zero (missing : findBan type mask operbans = 0) :
    ∀ row ∈ operbans, row.key ≠ (type, lcase mask) := by
  unfold findBan at missing
  cases first : operbans.find? (isFor type mask) with
  | none =>
      intro row listed same
      exact List.find?_eq_none.mp first row listed (isFor_iff.mpr same)
  | some row =>
      rw [first] at missing
      have one : (if row.remove then (-1 : Int) else 1) = 0 := missing
      split at one <;> cases one

theorem exists_of_findBanRemove {oper : CString}
    (found : findBanRemove type mask operbans = some oper) :
    ∃ row ∈ operbans, isFor type mask row = true := by
  unfold findBanRemove at found
  cases first : operbans.find? (isFor type mask) with
  | none =>
      rw [first] at found
      cases found
  | some row =>
      exact ⟨row, List.mem_of_find?_eq_some first, List.find?_some first⟩

def unmaskOf (call : BanServCall) : CString :=
  call.parv.headD []

def placed (reason oper : CString) (hold : Int) (row : OperBan) : OperBan :=
  { row with reason := reason, hold := hold, oper := oper, remove := false }

theorem placed_key (reason oper : CString) (hold : Int) (row : OperBan) :
    (placed reason oper hold row).key = row.key := rfl

def takenOff (hold : Int) (row : OperBan) : OperBan :=
  { row with remove := true, hold := hold }

theorem takenOff_key (hold : Int) (row : OperBan) :
    (takenOff hold row).key = row.key := rfl

inductive Placed (type : OperBanType) (mask : CString)
    (operbans : List OperBan) : Bool → List OperBan → Prop
  | refused : Placed type mask operbans false operbans
  | changed {row : OperBan} {reason oper : CString} {hold : Int} :
      row ∈ operbans → isFor type mask row = true →
      Placed type mask operbans true
        (update type mask (placed reason oper hold) operbans)
  | inserted {reason oper : CString} {hold now : Int} :
      (∀ row ∈ operbans, row.key ≠ (type, lcase mask)) →
      Placed type mask operbans true
        (operbans ++
          [⟨type, lcase mask, reason, hold, now, oper, false⟩])

theorem writeBan_placed : Placed type (maskOf call) operbans true
    (writeBan type call operbans) := by
  unfold writeBan
  split
  · rename_i found
    obtain ⟨row, listed, here⟩ := findBan_ne_zero found
    exact .changed listed here
  · rename_i missing
    exact .inserted (findBan_eq_zero (not_not.mp missing))

theorem placeFound_placed (kind : BanKind) :
    Placed kind.type (maskOf call) operbans
      (placeFound conf kind call operbans).reply.isIssued
      (placeFound conf kind call operbans).operbans := by
  unfold placeFound
  dsimp only
  split
  · exact .refused
  split
  · exact .refused
  split
  · exact .refused
  split
  · exact .refused
  split
  · exact .refused
  · exact writeBan_placed

theorem Placed.oneRow {issued : Bool} {after : List OperBan}
    (left : Placed type mask operbans issued after)
    (one : OneRow operbans) : OneRow after := by
  cases left with
  | refused => exact one
  | changed => exact one.update fun _ => rfl
  | inserted new => exact one.insert new

theorem Placed.row {after : List OperBan}
    (left : Placed type mask operbans true after) (one : OneRow operbans) :
    ∃ row, rowsFor type mask after = [row] ∧ row.remove = false := by
  cases left with
  | changed listed here =>
      exact ⟨_, one.changed (placed_key _ _ _) listed here, rfl⟩
  | @inserted reason oper hold now new =>
      have both : OneRow (operbans ++
          [⟨type, lcase mask, reason, hold, now, oper, false⟩]) :=
        one.insert new
      have last : OperBan.mk type (lcase mask) reason hold now oper false ∈
          operbans ++ [⟨type, lcase mask, reason, hold, now, oper, false⟩] :=
        List.mem_append_right _ List.mem_cons_self
      exact ⟨_, both.rowsFor_eq last (isFor_iff.mpr rfl), rfl⟩

inductive TakenOff (type : OperBanType) (mask : CString) (hold : Int)
    (operbans : List OperBan) : Bool → List OperBan → Prop
  | refused : TakenOff type mask hold operbans false operbans
  | changed {row : OperBan} :
      row ∈ operbans → isFor type mask row = true →
      TakenOff type mask hold operbans true
        (update type mask (takenOff hold) operbans)

theorem takeOffFound_takenOff (refuses : CString → Bool) :
    TakenOff type mask (call.now + conf.unbanTime) operbans
      (takeOffFound conf type refuses call mask operbans).reply.isIssued
      (takeOffFound conf type refuses call mask operbans).operbans := by
  unfold takeOffFound
  dsimp only
  cases found : findBanRemove type mask operbans with
  | none => exact .refused
  | some oper =>
      dsimp only
      split
      · exact .refused
      split
      · exact .refused
      · obtain ⟨row, listed, here⟩ := exists_of_findBanRemove found
        exact .changed listed here

theorem TakenOff.oneRow {hold : Int} {issued : Bool} {after : List OperBan}
    (left : TakenOff type mask hold operbans issued after)
    (one : OneRow operbans) : OneRow after := by
  cases left with
  | refused => exact one
  | changed => exact one.update fun _ => rfl

theorem TakenOff.row {hold : Int} {after : List OperBan}
    (left : TakenOff type mask hold operbans true after)
    (one : OneRow operbans) :
    ∃ row, rowsFor type mask after = [row] ∧ row.remove = true ∧
      row.hold = hold := by
  cases left with
  | changed listed here =>
      exact ⟨_, one.changed (takenOff_key hold) listed here, rfl, rfl⟩

theorem ban_placed (type : OperBanType) :
    ((ban conf type call operbans).reply.isIssued = false ∧
        (ban conf type call operbans).operbans = operbans) ∨
      Placed type (maskOf call) (expireOperbans call.now operbans)
        (ban conf type call operbans).reply.isIssued
        (ban conf type call operbans).operbans := by
  have each (kind : BanKind) :
      ((placeBan conf kind call operbans).reply.isIssued = false ∧
          (placeBan conf kind call operbans).operbans = operbans) ∨
        Placed kind.type (maskOf call) (expireOperbans call.now operbans)
          (placeBan conf kind call operbans).reply.isIssued
          (placeBan conf kind call operbans).operbans := by
    unfold placeBan
    split
    · exact Or.inl ⟨rfl, rfl⟩
    · exact Or.inr (placeFound_placed kind)
  cases type <;> exact each _

theorem unban_takenOff (type : OperBanType) :
    ((unban conf type call operbans).reply.isIssued = false ∧
        (unban conf type call operbans).operbans = operbans) ∨
      TakenOff type (unmaskOf call) (call.now + conf.unbanTime)
        (expireOperbans call.now operbans)
        (unban conf type call operbans).reply.isIssued
        (unban conf type call operbans).operbans := by
  have each (type : OperBanType) (refuses : CString → Bool) :
      ((takeOff conf type refuses call operbans).reply.isIssued = false ∧
          (takeOff conf type refuses call operbans).operbans = operbans) ∨
        TakenOff type (unmaskOf call) (call.now + conf.unbanTime)
          (expireOperbans call.now operbans)
          (takeOff conf type refuses call operbans).reply.isIssued
          (takeOff conf type refuses call operbans).operbans := by
    unfold takeOff unmaskOf
    cases call.parv with
    | nil => exact Or.inl ⟨rfl, rfl⟩
    | cons mask rest => exact Or.inr (takeOffFound_takenOff refuses)
  cases type <;> exact each _ _

theorem OneRow.ban (one : OneRow operbans) :
    OneRow (OperBan.ban conf type call operbans).operbans := by
  obtain ⟨-, same⟩ | left : _ ∨ _ := ban_placed type
  · rw [same]
    exact one
  · exact left.oneRow (one.expire call.now)

theorem OneRow.unban (one : OneRow operbans) :
    OneRow (OperBan.unban conf type call operbans).operbans := by
  obtain ⟨-, same⟩ | left : _ ∨ _ := unban_takenOff type
  · rw [same]
    exact one
  · exact left.oneRow (one.expire call.now)

theorem OneRow.step (one : OneRow operbans) (event : BanServEvent) :
    OneRow (step conf operbans event) := by
  cases event with
  | ban => exact one.ban
  | unban => exact one.unban
  | expire now => exact one.expire now

theorem OneRow.placed (one : OneRow operbans)
    (issued : (OperBan.ban conf type call operbans).reply.isIssued = true) :
    ∃ row, rowsFor type (maskOf call)
        (OperBan.ban conf type call operbans).operbans = [row] ∧
      row.remove = false := by
  obtain ⟨refused, -⟩ | left : _ ∨ _ := ban_placed type
  · rw [refused] at issued
    cases issued
  · rw [issued] at left
    exact left.row (one.expire call.now)

theorem OneRow.takenOff (one : OneRow operbans)
    (issued : (OperBan.unban conf type call operbans).reply.isIssued = true) :
    ∃ row, rowsFor type (unmaskOf call)
        (OperBan.unban conf type call operbans).operbans = [row] ∧
      row.remove = true ∧ row.hold = call.now + conf.unbanTime := by
  obtain ⟨refused, -⟩ | left : _ ∨ _ := unban_takenOff type
  · rw [refused] at issued
    cases issued
  · rw [issued] at left
    exact left.row (one.expire call.now)

def after (conf : BanServConf) (events : List BanServEvent) : List OperBan :=
  events.foldl (step conf) []

theorem oneRow_after (conf : BanServConf) (events : List BanServEvent) :
    OneRow (after conf events) := by
  have each (operbans : List OperBan) (one : OneRow operbans) :
      OneRow (events.foldl (step conf) operbans) := by
    induction events generalizing operbans with
    | nil => exact one
    | cons event rest ih => exact ih _ (one.step event)
  exact each [] List.nodup_nil

variable {now : Int} {target : CString} {letter : Option Char} {shown : Char}

def plainSync (now : Int) (target : CString) (letter : Option Char)
    (shown : Char) (operbans : List OperBan) : List BanLine :=
  syncBans .default now target
    letter shown operbans

theorem default_off : BanServConf.default.tempWorkaround = false := rfl

def workAround : BanLine → List BanLine
  | .ban target type hold mask reason =>
      if hold = 0 then [.ban target type hold mask reason]
      else [.unban target type mask, .ban target type hold mask reason]
  | line => [line]

theorem pushBan_plain (off : conf.tempWorkaround = false) (type : OperBanType)
    (mask reason : CString) (hold : Int) :
    pushBan conf target type mask reason hold =
      if sendable type mask then [.ban target type hold mask reason]
      else [] := by
  simp [pushBan, off]

theorem pushBan_workAround (on : conf.tempWorkaround = true)
    (type : OperBanType) (mask reason : CString) (hold : Int) :
    pushBan conf target type mask reason hold =
      (pushBan .default target
        type mask reason hold).flatMap workAround := by
  rw [pushBan_plain default_off]
  unfold pushBan pushUnban
  by_cases permanent : hold = 0
  · by_cases sends : sendable type mask = true
    · simp [on, permanent, sends, workAround]
    · simp [on, permanent, sends]
  · by_cases sends : sendable type mask = true
    · simp [on, permanent, sends, workAround]
    · simp [on, permanent, sends]

theorem syncBans_off (off : conf.tempWorkaround = false) :
    syncBans conf now target letter shown operbans =
      plainSync now target letter shown operbans := by
  have same (type : OperBanType) (mask reason : CString) (hold : Int) :
      pushBan conf target type mask reason hold =
        pushBan .default target
          type mask reason hold := by
    rw [pushBan_plain off, pushBan_plain default_off]
  simp only [plainSync, syncBans, same]

theorem pushUnban_workAround :
    (pushUnban target type mask).flatMap workAround =
      pushUnban target type mask := by
  unfold pushUnban
  split <;> rfl

theorem syncBans_on (on : conf.tempWorkaround = true) :
    syncBans conf now target letter shown operbans =
      (plainSync now target letter shown operbans).flatMap workAround := by
  simp only [plainSync, syncBans, pushBan_workAround on, List.flatMap_append,
    List.flatMap_assoc]
  split
  · rfl
  · simp only [List.flatMap_append, List.flatMap_assoc,
      pushUnban_workAround]

theorem row_of_ban {hold : Int} {reason : CString}
    (sent : .ban target type hold mask reason ∈
      plainSync now target letter shown operbans) :
    ∃ row ∈ operbans, row.key = (type, mask) ∧ row.remove = false := by
  have line {rows : List OperBan} (holdOf : OperBan → Int)
      (inside : ∀ row ∈ rows, row ∈ operbans ∧ row.remove = false)
      (listed : .ban target type hold mask reason ∈ rows.flatMap fun row =>
        pushBan .default target
          row.type row.mask row.reason (holdOf row)) :
      ∃ row ∈ operbans, row.key = (type, mask) ∧ row.remove = false := by
    obtain ⟨row, member, pushed⟩ := List.mem_flatMap.mp listed
    rw [pushBan_plain default_off] at pushed
    split at pushed
    · cases List.mem_singleton.mp pushed
      exact ⟨row, (inside row member).1, rfl, (inside row member).2⟩
    · cases pushed
  have noUnban {rows : List OperBan} :
      .ban target type hold mask reason ∉ rows.flatMap fun row =>
        pushUnban target row.type row.mask := by
    intro listed
    obtain ⟨row, -, pushed⟩ := List.mem_flatMap.mp listed
    unfold pushUnban at pushed
    split at pushed
    · cases List.mem_singleton.mp pushed
    · cases pushed
  have kept {test : OperBan → Bool}
      (clear : ∀ row, test row = true → row.remove = false) :
      ∀ row ∈ operbans.filter test, row ∈ operbans ∧ row.remove = false :=
    fun row member => ⟨(List.mem_filter.mp member).1,
      clear row (List.mem_filter.mp member).2⟩
  unfold plainSync syncBans at sent
  obtain temporary | later := List.mem_append.mp sent
  · exact line _ (kept fun row passed => by simp at passed; exact passed.1.2)
      temporary
  · split at later
    · cases later
    · obtain permanent | removed := List.mem_append.mp later
      · exact line (fun _ => 0)
          (kept fun row passed => by simp at passed; exact passed.1.2)
          permanent
      · exact absurd removed noUnban

theorem row_of_unban (sent : .unban target type mask ∈
      plainSync now target letter shown operbans) :
    ∃ row ∈ operbans, row.key = (type, mask) ∧ row.remove = true := by
  have noBan {rows : List OperBan} (holdOf : OperBan → Int) :
      .unban target type mask ∉ rows.flatMap fun row =>
        pushBan .default target
          row.type row.mask row.reason (holdOf row) := by
    intro listed
    obtain ⟨row, -, pushed⟩ := List.mem_flatMap.mp listed
    rw [pushBan_plain default_off] at pushed
    split at pushed
    · cases List.mem_singleton.mp pushed
    · cases pushed
  unfold plainSync syncBans at sent
  obtain temporary | later := List.mem_append.mp sent
  · exact absurd temporary (noBan _)
  · split at later
    · cases later
    · obtain permanent | removed := List.mem_append.mp later
      · exact absurd permanent (noBan fun _ => 0)
      · obtain ⟨row, member, pushed⟩ := List.mem_flatMap.mp removed
        unfold pushUnban at pushed
        split at pushed
        · cases List.mem_singleton.mp pushed
          obtain ⟨listed, passed⟩ := List.mem_filter.mp member
          simp at passed
          exact ⟨row, listed, rfl, passed.1.2⟩
        · cases pushed

theorem OneRow.plainSync (one : OneRow operbans) {hold : Int}
    {reason : CString} (ban : .ban target type hold mask reason ∈
      plainSync now target letter shown operbans) :
    .unban target type mask ∉
      plainSync now target letter shown operbans := by
  intro unban
  obtain ⟨left, first, leftKey, kept⟩ := row_of_ban ban
  obtain ⟨right, second, rightKey, removed⟩ := row_of_unban unban
  rw [one.eq_of_key first second (leftKey.trans rightKey.symm), removed]
    at kept
  cases kept

/-- In every run a ban has at most one row, which is kept as long as it is there
and says when it is taken off. What is sent to the servers never has both for
one ban, but for the workaround. -/
theorem operBans_of_run (conf : BanServConf) (events : List BanServEvent) :
    OneRow (after conf events) ∧
      (∀ type call,
        (ban conf type call (after conf events)).reply.isIssued = true →
        ∃ row, rowsFor type (maskOf call)
            (ban conf type call (after conf events)).operbans = [row] ∧
          row.remove = false) ∧
      (∀ type call,
        (unban conf type call (after conf events)).reply.isIssued = true →
        ∃ row, rowsFor type (unmaskOf call)
            (unban conf type call (after conf events)).operbans = [row] ∧
          row.remove = true ∧ row.hold = call.now + conf.unbanTime) ∧
      ∀ now target letter shown,
        (∀ type mask hold reason,
          .ban target type hold mask reason ∈
            plainSync now target letter shown (after conf events) →
          .unban target type mask ∉
            plainSync now target letter shown (after conf events)) ∧
        syncBans conf now target letter shown (after conf events) =
          if conf.tempWorkaround then
            (plainSync now target letter shown
              (after conf events)).flatMap workAround
          else plainSync now target letter shown (after conf events) := by
  have one : OneRow (after conf events) := oneRow_after conf events
  refine ⟨one, fun type call => one.placed, fun type call => one.takenOff,
    fun now target letter shown =>
      ⟨fun type mask hold reason => one.plainSync, ?_⟩⟩
  cases workaround : conf.tempWorkaround with
  | false => exact syncBans_off workaround
  | true => exact syncBans_on workaround

def hourBan : BanServCall where
  now := 100
  oper := ⟨"lyra".toList, true, true, true⟩
  userList := []
  parv := ["1h".toList, "*@Host".toList, "spam".toList]

def hourUnban : BanServCall :=
  { hourBan with parv := ["*@hOST".toList] }

def withWorkaround : BanServConf :=
  { BanServConf.default with tempWorkaround := true }

def withoutTime : BanServConf :=
  { BanServConf.default with unbanTime := 0 }

/-- With the workaround a temporary ban is sent behind its own unban, and a ban
that is kept for no time after it was taken off has expired. -/
theorem not_both_of_run :
    (.unban "*".toList .kline "*@host".toList ∈
        syncBans withWorkaround 200 "*".toList none 'K'
          (after withWorkaround [.ban .kline hourBan]) ∧
      .ban "*".toList .kline 3500 "*@host".toList "spam".toList ∈
        syncBans withWorkaround 200 "*".toList none 'K'
          (after withWorkaround [.ban .kline hourBan])) ∧
    (unban withoutTime .kline hourUnban
        (after withoutTime [.ban .kline hourBan])).reply.isIssued = true ∧
      ((unban withoutTime .kline hourUnban
        (after withoutTime [.ban .kline hourBan])).operbans.map
          fun row => (row.remove, row.hold)) = [(true, hourUnban.now)] := by
  decide +kernel

end OperBan

end RatboxServices
