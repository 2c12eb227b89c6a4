import RatboxServices.Serv.Accounts
import RatboxServices.Serv.Memo

namespace RatboxServices

open CString

/-! Who gets to see and to change memos. An id names one account as long as the
row of a new account gets an id that no memo and no account has. -/

namespace MemoState

variable {conf : ServConfig} {memoConf : MemoConfig} {s t : MemoState}
  {event : MemoEvent} {lines : List MemoLine}
  {client : ClientId}

def Silent (lines : List MemoLine) : Prop :=
  ∀ client row, .text client row ∉ lines

/-- What a command of a client that is logged in to an account leaves of the
memos, and what it says. -/
inductive Touches (conf : MemoConfig) (s : MemoState) (client : ClientId)
    (account : UserRegId) : List (Nat × Memo) → List MemoLine → Prop where
  | look {lines : List MemoLine} (silent : Silent lines) :
      Touches conf s client account s.memos lines
  | read (test : Nat × Memo → Bool) (rows : List (Nat × Memo))
      (own : ∀ row ∈ s.memos, test row = true →
        row.2.userId = s.idOf account)
      (shown : ∀ row ∈ rows, row ∈ s.memos ∧
        row.2.userId = s.idOf account) :
      Touches conf s client account (markRead test s.memos)
        (rows.map (.text client))
  | drop (test : Nat × Memo → Bool)
      (own : ∀ row ∈ s.memos, test row = true →
        row.2.userId = s.idOf account) :
      Touches conf s client account (s.memos.filter fun row => !test row) []
  | add {lines : List MemoLine} (receiver : UserRegId) (reg : UserReg)
      (memo : Memo) (found : s.regs.user.cell receiver = some reg)
      (userId : memo.userId = s.idOf receiver)
      (sentTo : memo.sentTo = receiver)
      (room : (s.memos.countP (isFor (s.idOf receiver)) : Int).bmod
        4294967296 < conf.msMaxMemos) (silent : Silent lines) :
      Touches conf s client account
        (s.memos ++ [(Ids.highest s.memos + 1, memo)]) lines

inductive Answered (conf : ServConfig) (memoConf : MemoConfig) (s : MemoState)
    (event : MemoEvent) : MemoState → List MemoLine → Prop where
  | accounts (act : RegAct) (regs : Regs) (asked : event.act = .account act)
      (returned : s.regs.step conf { now := event.now, act := act } =
        .ok regs) :
      Answered conf memoConf s event (s.follow regs) []
  | idle (regs : Regs) (same : Regs.SameAccess s.regs regs) :
      Answered conf memoConf s event { s with regs := regs } []
  | command (client : ClientId) (account : UserRegId) (reg : UserReg)
      (regs : Regs) (memos : List (Nat × Memo)) (lines : List MemoLine)
      (asked : event.act.client = some client)
      (login : s.regs.login client = some (some account))
      (found : s.regs.user.cell account = some reg)
      (same : Regs.SameAccess s.regs regs)
      (touches : Touches memoConf { s with regs := regs } client account memos
        lines) :
      Answered conf memoConf s event { s with regs := regs, memos := memos }
        lines

theorem asUser_eq_ok {now : Int} {body : UserRegId → UserReg → MemoState →
      Except RegStop (MemoState × List MemoLine)}
    (returned : s.asUser now client body = .ok (t, lines)) :
    (t = s ∧ lines = []) ∨
      ∃ account reg, s.regs.login client = some (some account) ∧
        s.regs.user.cell account = some reg ∧
        body account reg { s with regs := s.regs.touchUser now account } =
          .ok (t, lines) := by
  unfold asUser at returned
  split at returned
  · cases returned
    exact Or.inl ⟨rfl, rfl⟩
  · rename_i account login
    obtain ⟨reg, found, rest⟩ := Except.bind_eq_ok.mp returned
    exact Or.inr ⟨account, reg, Regs.loginOf_eq_some.mp login,
      Regs.derefUser_eq_ok.mp found, rest⟩

theorem answered_of_asUser {now : Int} {client : ClientId}
    {body : UserRegId → UserReg → MemoState →
      Except RegStop (MemoState × List MemoLine)}
    (asked : event.act.client = some client)
    (returned : s.asUser now client body = .ok (t, lines))
    (touches : ∀ account reg r t lines, r.memos = s.memos →
      body account reg r = .ok (t, lines) → ∃ memos,
        t = { r with memos := memos } ∧
        Touches memoConf r client account memos lines) :
    Answered conf memoConf s event t lines := by
  obtain ⟨rfl, rfl⟩ | ⟨account, reg, login, found, rest⟩ :=
    asUser_eq_ok returned
  · exact .idle t.regs (.refl _)
  · obtain ⟨memos, rfl, touch⟩ := touches account reg
      { s with regs := s.regs.touchUser now account } t lines rfl rest
    have same := (Regs.Settled.touchUser now account s.regs).access
    exact .command client account reg _ memos lines asked login found same touch

theorem silent_nil : Silent [] :=
  fun _ _ listed => by cases listed

theorem own_of_find {id : Nat} {own : Nat × Memo → Bool} {row : Nat × Memo}
    (keys : (s.memos.map Prod.fst).Nodup) (there : row ∈ s.memos)
    (key : row.1 = id) (mine : own row = true) :
    ∀ other ∈ s.memos, (other.1 == id) = true → own other = true := by
  intro other listed same
  have equal : other.1 = row.1 := (eq_of_beq same).trans key.symm
  rw [List.inj_on_of_nodup_map keys listed there equal]
  exact mine

theorem sMemoList_answered (asked : event.act.client = some client)
    (returned : s.sMemoList event.now client = .ok (t, lines)) :
    Answered conf memoConf s event t lines := by
  refine answered_of_asUser asked returned ?_
  rintro account reg r t lines same rest
  cases rest
  refine ⟨r.memos, rfl, .look ?_⟩
  intro client row listed
  simp at listed

theorem sMemoRead_answered {which : CString}
    (keys : (s.memos.map Prod.fst).Nodup)
    (asked : event.act.client = some client)
    (returned : s.sMemoRead event.now client which = .ok (t, lines)) :
    Answered conf memoConf s event t lines := by
  refine answered_of_asUser asked returned ?_
  rintro account reg r t lines same rest
  have keys' : (r.memos.map Prod.fst).Nodup := by rwa [same]
  dsimp only at rest
  split at rest
  · cases rest
    refine ⟨_, rfl, .read _ _ (fun row _ mine => eq_of_beq mine) ?_⟩
    intro row listed
    rw [List.mem_filter] at listed
    exact ⟨listed.1, eq_of_beq listed.2⟩
  split at rest
  · split at rest
    · cases rest
      exact ⟨r.memos, rfl, .look silent_nil⟩
    · rename_i row found
      cases rest
      have there := List.mem_of_find?_eq_some found
      have hit := List.find?_some found
      rw [Bool.and_eq_true] at hit
      obtain ⟨mine, key⟩ := hit
      refine ⟨_, rfl, .read _ [row] ?_ ?_⟩
      · intro other listed same
        exact eq_of_beq (own_of_find keys' there (eq_of_beq key) mine other
          listed same)
      · intro other listed
        rw [List.mem_singleton] at listed
        subst listed
        exact ⟨there, eq_of_beq mine⟩
  · cases rest
    exact ⟨r.memos, rfl, .look silent_nil⟩

theorem sMemoSend_answered {target : AccountArg} {text : CString}
    (asked : event.act.client = some client)
    (returned : s.sMemoSend memoConf event.now client target text =
      .ok (t, lines)) : Answered conf memoConf s event t lines := by
  refine answered_of_asUser asked returned ?_
  rintro account reg r t lines same rest
  split at rest
  · cases rest
    exact ⟨r.memos, rfl, .look silent_nil⟩
  split at rest
  · cases rest
    exact ⟨r.memos, rfl, .look silent_nil⟩
  rename_i receiver named
  obtain ⟨other, found, rest⟩ := Except.bind_eq_ok.mp rest
  dsimp only at rest
  split at rest
  · cases rest
    exact ⟨r.memos, rfl, .look silent_nil⟩
  split at rest
  · cases rest
    exact ⟨r.memos, rfl, .look silent_nil⟩
  rename_i room
  cases rest
  refine ⟨_, rfl, .add receiver other _ (Regs.derefUser_eq_ok.mp found) rfl rfl
    (Int.not_le.mp room) ?_⟩
  intro client row listed
  simp at listed

theorem sMemoDelete_answered {which : CString}
    (keys : (s.memos.map Prod.fst).Nodup)
    (asked : event.act.client = some client)
    (returned : s.sMemoDelete event.now client which = .ok (t, lines)) :
    Answered conf memoConf s event t lines := by
  refine answered_of_asUser asked returned ?_
  rintro account reg r t lines same rest
  have keys' : (r.memos.map Prod.fst).Nodup := by rwa [same]
  dsimp only at rest
  generalize (if firstIs (· == '#') which = true then which.drop 1
    else which) = idStr at rest
  split at rest
  · cases rest
    exact ⟨_, rfl, .drop _ fun row _ mine => eq_of_beq mine⟩
  split at rest
  · split at rest
    · cases rest
      exact ⟨r.memos, rfl, .look silent_nil⟩
    · rename_i row found
      split at rest
      · rename_i mine
        cases rest
        have there := List.mem_of_find?_eq_some found
        have key := List.find?_some found
        refine ⟨_, rfl, .drop (fun row => row.1 == _) ?_⟩
        intro other listed same
        exact eq_of_beq (own_of_find keys' there (eq_of_beq key) mine other
          listed same)
      · cases rest
        exact ⟨r.memos, rfl, .look silent_nil⟩
  · cases rest
    exact ⟨r.memos, rfl, .look silent_nil⟩

theorem answer_answered (keys : (s.memos.map Prod.fst).Nodup)
    (returned : s.answer conf memoConf event = .ok (t, lines)) :
    Answered conf memoConf s event t lines := by
  cases asked : event.act with
  | account act =>
      simp only [answer, asked] at returned
      obtain ⟨regs, stepped, rest⟩ := Except.bind_eq_ok.mp returned
      cases rest
      exact .accounts act regs asked stepped
  | setNomemos client on =>
      simp only [answer, asked, sUserSetNomemos] at returned
      obtain ⟨rfl, rfl⟩ | ⟨account, reg, login, found, rest⟩ :=
        asUser_eq_ok returned
      · exact .idle t.regs (.refl _)
      · cases rest
        have touched := Regs.Settled.touchUser event.now account s.regs
        exact .idle _ (touched.access.trans (.modifyUser _ account fun _ => rfl))
  | list client =>
      simp only [answer, asked] at returned
      exact sMemoList_answered (by rw [asked]; rfl) returned
  | read client which =>
      simp only [answer, asked] at returned
      exact sMemoRead_answered keys (by rw [asked]; rfl) returned
  | send client target text =>
      simp only [answer, asked] at returned
      exact sMemoSend_answered (by rw [asked]; rfl) returned
  | delete client which =>
      simp only [answer, asked] at returned
      exact sMemoDelete_answered keys (by rw [asked]; rfl) returned

/-- No memo is for the id that the next row of table `users` gets, and no
account has it. -/
def idIsNew (s : MemoState) : Bool :=
  let id := BitVec.ofNat 32 s.nextId
  s.memos.all (fun row => row.2.userId != id) &&
    (List.range s.regs.user.next).all fun account =>
      (s.regs.user.cell account).isNone || s.idOf account != id

def RegistersNew (conf : ServConfig) (s : MemoState) (event : MemoEvent) :
    Prop :=
  match event.act with
  | .account act => act.registers conf s.regs = true → s.idIsNew = true
  | _ => True

instance (conf : ServConfig) (s : MemoState) (event : MemoEvent) :
    Decidable (RegistersNew conf s event) := by
  unfold RegistersNew
  split <;> infer_instance

structure Inv (s : MemoState) : Prop where
  sound : Regs.Sound s.regs
  users : ∀ row ∈ s.users, row.2 ∈ s.regs.users
  ids : ∀ a b left right, s.regs.user.cell a = some left →
    s.regs.user.cell b = some right → s.idOf a = s.idOf b → a = b
  owner : ∀ row ∈ s.memos, ∀ a reg, s.regs.user.cell a = some reg →
    s.idOf a = row.2.userId → a = row.2.sentTo
  keys : (s.memos.map Prod.fst).Nodup

theorem Inv.start : Inv start := by
  refine ⟨.empty, ?_, ?_, ?_, List.nodup_nil⟩
  · intro row listed
    cases listed
  · intro a b left right found
    cases found
  · intro row listed
    cases listed

theorem Inv.leave (inv : Inv s) {regs : Regs} (sound : Regs.Sound regs)
    (leave : Regs.OnlyLeave s.regs regs) {users : List (Nat × CString)}
    (known : ∀ row ∈ users, row.2 ∈ regs.users) :
    Inv { s with regs := regs, users := users } := by
  refine ⟨sound, known, ?_, ?_, inv.keys⟩
  · intro a b left right first second
    obtain ⟨left', first', -⟩ := leave.stays a left first
    obtain ⟨right', second', -⟩ := leave.stays b right second
    exact inv.ids a b left' right' first' second'
  · intro row listed a reg found
    obtain ⟨old, before, -⟩ := leave.stays a reg found
    exact inv.owner row listed a old before

theorem Inv.same (inv : Inv s) {regs : Regs}
    (same : Regs.SameAccess s.regs regs) : Inv { s with regs := regs } := by
  have sound : Regs.Sound regs :=
    ⟨inv.sound.access.same same, inv.sound.accounts.same same.sameNames,
      inv.sound.channels.same same.sameChans⟩
  refine inv.leave sound same.sameNames.onlyLeave ?_
  rw [same.users]
  exact inv.users

theorem Inv.register (inv : Inv s) {regs : Regs} (sound : Regs.Sound regs)
    {reg : UserReg} (same : Regs.SameNames (s.regs.withUser reg) regs)
    (fresh : s.idIsNew = true) : Inv (s.follow regs) := by
  have cell (a : UserRegId) : (regs.user.cell a).isSome →
      a = s.regs.user.next ∨ ∃ old, s.regs.user.cell a = some old := by
    intro there
    obtain ⟨new, found⟩ := Option.isSome_iff_exists.mp there
    obtain ⟨old, before, -⟩ := same.cell found
    rw [Regs.withUser, Regs.addUserReg, Heap.alloc_cell] at before
    split at before
    · rename_i equal
      exact Or.inl equal
    · exact Or.inr ⟨old, before⟩
  have kept : (s.users.filter fun row => decide (row.2 ∈ regs.users)) =
      s.users := by
    refine List.filter_eq_self.mpr fun row listed => ?_
    rw [decide_eq_true_eq, same.users]
    exact List.mem_append_left _ (inv.users row listed)
  obtain ⟨new, added, name⟩ : ∃ new, regs.user.cell s.regs.user.next =
      some new ∧ new.name = reg.name := by
    obtain ⟨new, found, name, -⟩ := same.symm.cell
      (Heap.alloc_cell_next s.regs.user reg)
    exact ⟨new, found, name⟩
  unfold idIsNew nextId at fresh
  simp only [Bool.and_eq_true, List.all_eq_true, bne_iff_ne, ne_eq,
    List.mem_range, Bool.or_eq_true, Option.isNone_iff_eq_none] at fresh
  obtain ⟨unused, apart⟩ := fresh
  have other {a : UserRegId} {old : UserReg}
      (before : s.regs.user.cell a = some old) :
      a ≠ s.regs.user.next ∧
        s.idOf a ≠ BitVec.ofNat 32 (Ids.highest s.users + 1) := by
    have below := Heap.lt_next before
    refine ⟨Nat.ne_of_lt below, ?_⟩
    obtain free | different := apart a below
    · rw [before] at free
      cases free
    · exact different
  unfold follow
  simp only [kept, added]
  refine ⟨sound, ?_, ?_, ?_, inv.keys⟩
  · intro row listed
    rw [List.mem_append, List.mem_singleton] at listed
    dsimp only
    rw [same.users, Regs.withUser, List.mem_append, List.mem_singleton]
    obtain before | rfl := listed
    · exact Or.inl (inv.users row before)
    · exact Or.inr name
  · intro a b left right first second ids
    dsimp only at first second ids
    obtain rfl | ⟨old, before⟩ := cell a (by rw [first]; rfl)
    · obtain rfl | ⟨old', before'⟩ := cell b (by rw [second]; rfl)
      · rfl
      · obtain ⟨different, apart⟩ := other before'
        rw [Function.update_self, Function.update_of_ne different] at ids
        exact absurd ids.symm apart
    · obtain ⟨different, apart⟩ := other before
      rw [Function.update_of_ne different] at ids
      obtain rfl | ⟨old', before'⟩ := cell b (by rw [second]; rfl)
      · rw [Function.update_self] at ids
        exact absurd ids apart
      · obtain ⟨different', -⟩ := other before'
        rw [Function.update_of_ne different'] at ids
        exact inv.ids a b old old' before before' ids
  · intro row listed a reg found ids
    dsimp only at found ids
    obtain rfl | ⟨old, before⟩ := cell a (by rw [found]; rfl)
    · rw [Function.update_self] at ids
      exact absurd ids.symm (unused row listed)
    · obtain ⟨different, -⟩ := other before
      rw [Function.update_of_ne different] at ids
      exact inv.owner row listed a old before ids

theorem Inv.accounts (inv : Inv s) {act : RegAct} {now : Int} {regs : Regs}
    (fresh : act.registers conf s.regs = true → s.idIsNew = true)
    (returned : s.regs.step conf { now := now, act := act } = .ok regs) :
    Inv (s.follow regs) := by
  have sound := inv.sound.step returned
  cases registers : act.registers conf s.regs with
  | true =>
      obtain ⟨reg, -, same⟩ := Regs.step_of_registers registers returned
      exact inv.register sound same (fresh registers)
  | false =>
      have leave := Regs.OnlyLeave.step inv.sound.access registers returned
      have none_ := leave.next_none
      unfold follow
      simp only [none_]
      refine inv.leave sound leave fun row listed => ?_
      exact decide_eq_true_eq.mp (List.mem_filter.mp listed).2

theorem mem_markRead {test : Nat × Memo → Bool} {memos : List (Nat × Memo)}
    {row : Nat × Memo} (listed : row ∈ markRead test memos) :
    ∃ old ∈ memos, row.2.userId = old.2.userId ∧
      row.2.sentTo = old.2.sentTo := by
  obtain ⟨old, there, rfl⟩ := List.mem_map.mp listed
  refine ⟨old, there, ?_⟩
  split <;> exact ⟨rfl, rfl⟩

theorem markRead_keys (test : Nat × Memo → Bool)
    (memos : List (Nat × Memo)) :
    (markRead test memos).map Prod.fst = memos.map Prod.fst := by
  unfold markRead
  rw [List.map_map]
  refine List.map_congr_left fun row _ => ?_
  rw [Function.comp_apply]
  split <;> rfl

theorem Inv.touches (inv : Inv s) {account : UserRegId}
    {memos : List (Nat × Memo)}
    (touches : Touches memoConf s client account memos lines) :
    Inv { s with memos := memos } := by
  cases touches with
  | look silent => exact inv
  | read test rows own shown =>
      refine ⟨inv.sound, inv.users, inv.ids, ?_, ?_⟩
      · intro row listed a reg found ids
        obtain ⟨old, there, userId, sentTo⟩ := mem_markRead listed
        rw [userId] at ids
        rw [sentTo]
        exact inv.owner old there a reg found ids
      · dsimp only
        rw [markRead_keys]
        exact inv.keys
  | drop test own =>
      refine ⟨inv.sound, inv.users, inv.ids, ?_, ?_⟩
      · intro row listed
        exact inv.owner row (List.mem_filter.mp listed).1
      · exact inv.keys.sublist (List.filter_sublist.map Prod.fst)
  | add receiver reg memo found userId sentTo room silent =>
      refine ⟨inv.sound, inv.users, inv.ids, ?_, ?_⟩
      · intro row listed a other there ids
        rw [List.mem_append, List.mem_singleton] at listed
        obtain before | rfl := listed
        · exact inv.owner row before a other there ids
        · rw [userId] at ids
          rw [sentTo]
          exact inv.ids a receiver other reg there found ids
      · dsimp only
        rw [List.map_append, List.map_singleton]
        refine inv.keys.append (List.nodup_singleton _) ?_
        intro key listed last
        obtain ⟨row, there, rfl⟩ := List.mem_map.mp listed
        have below := Ids.le_highest there
        have above : row.1 = Ids.highest s.memos + 1 :=
          List.mem_singleton.mp last
        omega

theorem Inv.step (inv : Inv s) (fresh : RegistersNew conf s event)
    (returned : s.step conf memoConf event = .ok t) : Inv t := by
  obtain ⟨⟨after, lines⟩, answered, rest⟩ := Except.bind_eq_ok.mp returned
  cases rest
  cases answer_answered inv.keys answered with
  | accounts act regs asked stepped =>
      unfold RegistersNew at fresh
      rw [asked] at fresh
      exact inv.accounts fresh stepped
  | idle regs same => exact inv.same same
  | command client account reg regs memos lines asked login found same touch =>
      exact (inv.same same).touches touch

def Bounded (conf : MemoConfig) (memos : List (Nat × Memo)) : Prop :=
  ∀ id, (memos.countP (isFor id) : Int) ≤ max 0 conf.msMaxMemos

theorem isFor_markRead {id : Word} {test : Nat × Memo → Bool}
    (memos : List (Nat × Memo)) :
    (markRead test memos).countP (isFor id) = memos.countP (isFor id) := by
  unfold markRead
  rw [List.countP_map]
  refine List.countP_congr fun row _ => ?_
  rw [Function.comp_apply]
  split <;> exact Iff.rfl

theorem Bounded.touches (bounded : Bounded memoConf s.memos)
    {account : UserRegId} {memos : List (Nat × Memo)}
    (touches : Touches memoConf s client account memos lines) :
    Bounded memoConf memos := by
  intro id
  have before := bounded id
  cases touches with
  | look silent => exact before
  | read test rows own shown =>
      rw [isFor_markRead]
      exact before
  | drop test own =>
      have fewer : (s.memos.filter fun row => !test row).countP (isFor id) ≤
          s.memos.countP (isFor id) :=
        List.filter_sublist.countP_le
      omega
  | add receiver reg memo found userId sentTo room silent =>
      rw [List.countP_append, List.countP_singleton]
      by_cases same : isFor id (Ids.highest s.memos + 1, memo) = true
      · have equal : s.idOf receiver = id := by
          rw [← userId]
          exact eq_of_beq same
        have small := memoConf.isInt
        rw [equal, Int.bmod_eq_of_le (by omega) (by omega)] at room
        rw [if_pos same]
        omega
      · rw [if_neg same, Nat.add_zero]
        exact before

theorem follow_memos (s : MemoState) (regs : Regs) :
    (s.follow regs).memos = s.memos := by
  unfold follow
  dsimp only
  split <;> rfl

theorem Answered.bounded (answered : Answered conf memoConf s event t lines)
    (bounded : Bounded memoConf s.memos) : Bounded memoConf t.memos := by
  cases answered with
  | accounts act regs asked returned =>
      rw [follow_memos]
      exact bounded
  | idle regs same => exact bounded
  | command client account reg regs memos lines asked login found same touch =>
      exact Bounded.touches (s := { s with regs := regs }) bounded touch

/-- A memo is shown to a client, and changed or removed by one, only if the
client is logged in to the account the memo was sent to; and nobody has too
many. -/
structure Owned (conf : MemoConfig) (s : MemoState) (event : MemoEvent)
    (t : MemoState) (lines : List MemoLine) : Prop where
  shown : ∀ client row, .text client row ∈ lines → row ∈ s.memos ∧
    s.regs.login client = some (some row.2.sentTo)
  changed : ∀ row ∈ s.memos, row ∉ t.memos →
    ∃ client, event.act.client = some client ∧
      s.regs.login client = some (some row.2.sentTo)
  bounded : ∀ account reg, t.regs.user.cell account = some reg →
    (t.memos.countP (isFor (t.idOf account)) : Int) ≤ max 0 conf.msMaxMemos

theorem Inv.owned (inv : Inv s) (bounded : Bounded memoConf s.memos)
    (answered : Answered conf memoConf s event t lines) :
    Owned memoConf s event t lines := by
  have limit (account : UserRegId) (reg : UserReg) :
      t.regs.user.cell account = some reg →
      (t.memos.countP (isFor (t.idOf account)) : Int) ≤
        max 0 memoConf.msMaxMemos :=
    fun _ => answered.bounded bounded _
  cases answered with
  | accounts act regs asked returned =>
      refine ⟨fun client row => (silent_nil client row).elim, ?_, limit⟩
      intro row there gone
      rw [follow_memos] at gone
      exact absurd there gone
  | idle regs same =>
      exact ⟨fun client row => (silent_nil client row).elim,
        fun row there gone => absurd there gone, limit⟩
  | command client account reg regs memos lines asked login found same touch =>
      have mine {row : Nat × Memo} (there : row ∈ s.memos)
          (own : row.2.userId = s.idOf account) :
          s.regs.login client = some (some row.2.sentTo) := by
        rw [login, inv.owner row there account reg found own.symm]
      cases touch with
      | look silent =>
          exact ⟨fun client row listed => absurd listed (silent client row),
            fun row there gone => absurd there gone, limit⟩
      | read test rows own shown =>
          refine ⟨?_, ?_, limit⟩
          · intro other row listed
            obtain ⟨shownRow, inside, same⟩ := List.mem_map.mp listed
            cases same
            obtain ⟨there, for_⟩ := shown row inside
            exact ⟨there, mine there for_⟩
          · intro row there gone
            refine ⟨client, asked, mine there (own row there ?_)⟩
            by_contra unread
            exact gone (List.mem_map.mpr ⟨row, there, if_neg unread⟩)
      | drop test own =>
          refine ⟨fun client row => (silent_nil client row).elim, ?_, limit⟩
          intro row there gone
          refine ⟨client, asked, mine there (own row there ?_)⟩
          by_contra kept
          exact gone (List.mem_filter.mpr ⟨there, by simpa using kept⟩)
      | add receiver other memo held userId sentTo room silent =>
          exact ⟨fun client row listed => absurd listed (silent client row),
            fun row there gone =>
              absurd (List.mem_append_left _ there) gone, limit⟩

/-- If every account that is registered gets an id that is new, memos are seen
and changed by those they were sent to, at every step of the run. -/
theorem memos_of_run {events : List MemoEvent}
    (fresh : Meets (step conf memoConf) (RegistersNew conf) start events)
    (reached : run (step conf memoConf) start events = .ok s)
    (answered : s.answer conf memoConf event = .ok (t, lines)) :
    Owned memoConf s event t lines := by
  have both : Inv s ∧ Bounded memoConf s.memos := by
    refine run_preserves_of_meets
      (fun s => Inv s ∧ Bounded memoConf s.memos) ?_ fresh
      ⟨.start, fun id => ?_⟩ reached
    · rintro before event after new ⟨inv, bounded⟩ returned
      refine ⟨inv.step new returned, ?_⟩
      obtain ⟨⟨after, lines⟩, answered, rest⟩ := Except.bind_eq_ok.mp returned
      cases rest
      exact (answer_answered inv.keys answered).bounded bounded
    · exact le_max_left 0 _
  exact both.1.owned both.2 (answer_answered both.1.keys answered)

def memoForAlice : List MemoEvent :=
  [ ⟨0, .account (.connect 1)⟩,
    ⟨0, .account (.userRegister 1 ⟨"bob".toList, bob_ne_nil⟩ true [])⟩,
    ⟨0, .account (.connect 2)⟩,
    ⟨0, .account (.userRegister 2 ⟨"alice".toList, alice_ne_nil⟩ true [])⟩,
    ⟨700000, .send 1 (.account "alice".toList) "hello".toList⟩ ]

theorem memos_of_memoForAlice :
    ∃ s t row, run (step (setDefaultConf "services.".toList) .default) start
        memoForAlice = .ok s ∧
      s.answer (setDefaultConf "services.".toList) .default
        ⟨700000, .read 2 "ALL".toList⟩ = .ok (t, [.text 2 row]) ∧
      row.2.text = "hello".toList ∧
      s.regs.login 2 = some (some row.2.sentTo) := by
  have observed : (run (step (setDefaultConf "services.".toList) .default)
      start memoForAlice).toOption.map (fun s =>
        (s.answer (setDefaultConf "services.".toList) .default
          ⟨700000, .read 2 "ALL".toList⟩).toOption.map Prod.snd) =
      some (some [.text 2 (1,
        { userId := 2#32
          source := "bob".toList
          sourceId := 1#32
          timestamp := 700000
          text := "hello".toList
          sentTo := 1 })]) := by
    decide +kernel
  obtain ⟨s, reached, seen⟩ := Except.exists_of_observed observed
  obtain ⟨⟨t, lines⟩, answered, same⟩ := Except.exists_of_observed seen
  dsimp only at same
  subst same
  have fresh : Meets (step (setDefaultConf "services.".toList) .default)
      (RegistersNew (setDefaultConf "services.".toList)) start
      memoForAlice := by
    decide +kernel
  have owned := memos_of_run fresh reached answered
  exact ⟨s, t, _, reached, answered, rfl, (owned.shown 2 _
    (List.mem_singleton_self _)).2⟩

def memoInherited : List MemoEvent :=
  memoForAlice ++
    [ ⟨700000, .account (.userDrop "alice".toList)⟩,
      ⟨700000, .account (.connect 3)⟩,
      ⟨700000, .account
        (.userRegister 3 ⟨"carol".toList, by decide⟩ true [])⟩ ]

theorem not_memos_of_run :
    ∃ s t row, run (step (setDefaultConf "services.".toList) .default) start
        memoInherited = .ok s ∧
      s.answer (setDefaultConf "services.".toList) .default
        ⟨700000, .read 3 "ALL".toList⟩ = .ok (t, [.text 3 row]) ∧
      row.2.text = "hello".toList ∧
      s.regs.login 3 ≠ some (some row.2.sentTo) ∧
      ¬Owned .default s ⟨700000, .read 3 "ALL".toList⟩ t [.text 3 row] := by
  have observed : (run (step (setDefaultConf "services.".toList) .default)
      start memoInherited).toOption.map (fun s =>
        (s.regs.login 3, (s.answer (setDefaultConf "services.".toList) .default
          ⟨700000, .read 3 "ALL".toList⟩).toOption.map Prod.snd)) =
      some (some (some 2), some [.text 3 (1,
        { userId := 2#32
          source := "bob".toList
          sourceId := 1#32
          timestamp := 700000
          text := "hello".toList
          sentTo := 1 })]) := by
    decide +kernel
  obtain ⟨s, reached, seen⟩ := Except.exists_of_observed observed
  rw [Prod.mk.injEq] at seen
  obtain ⟨login, seen⟩ := seen
  obtain ⟨⟨t, lines⟩, answered, same⟩ := Except.exists_of_observed seen
  dsimp only at same
  subst same
  refine ⟨s, t, _, reached, answered, rfl, ?_, ?_⟩
  · rw [login]
    decide
  · intro owned
    have inside := (owned.shown 3 _ (List.mem_singleton_self _)).2
    rw [login] at inside
    cases inside

end MemoState

end RatboxServices
