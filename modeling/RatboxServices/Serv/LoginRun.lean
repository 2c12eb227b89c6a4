import RatboxServices.Serv.AccessRun

namespace RatboxServices

open CString

/-! Accounts in every run: who is logged in to which one, and the names they
are found by. -/

namespace Regs

variable {conf : ServConfig} {Given : CString → Prop} {r s t : Regs}
  {account : UserRegId} {reg : UserReg}

/-- Both directions of a login agree, and only accounts that are in use and not
blocked have any. -/
structure LoginInv (s : Regs) : Prop where
  live : ∀ client account, s.login client = some (some account) →
    ∃ reg, s.user.cell account = some reg
  listed : ∀ account reg, s.user.cell account = some reg →
    Exactly reg.users fun client => s.login client = some (some account)
  idle : Idle s

theorem LoginInv.same (inv : LoginInv s) (same : SameLogin s t)
    (live : ∀ u old, s.user.cell u = some old → old.users ≠ [] →
      ∃ new, t.user.cell u = some new) : LoginInv t := by
  refine ⟨?_, ?_, ?_⟩
  · intro client account login
    rw [same.login] at login
    obtain ⟨reg, found⟩ := inv.live client account login
    have inside := ((inv.listed account reg found).mem_iff client).mpr login
    exact live account reg found (List.ne_nil_of_mem inside)
  · intro account reg found
    obtain ⟨old, before, users, -⟩ := same.user account reg found
    rw [users, same.login]
    exact inv.listed account old before
  · intro account reg found blocked
    obtain ⟨old, before, users, -, closed⟩ := same.user account reg found
    rw [users]
    exact inv.idle account old before (closed blocked)

theorem LoginInv.modify (inv : LoginInv s) {new : UserReg}
    (user : ∀ u, t.user.cell u =
      if u = account then some new else s.user.cell u)
    (others : ∀ client other, other ≠ account →
      (t.login client = some (some other) ↔
        s.login client = some (some other)))
    (listed : Exactly new.users fun client =>
      t.login client = some (some account))
    (idle : new.blocked = true → new.users = []) : LoginInv t := by
  refine ⟨?_, ?_, ?_⟩
  · intro client other there
    rw [user]
    split
    · exact ⟨new, rfl⟩
    · rename_i different
      exact inv.live client other ((others client other different).mp there)
  · intro other value there
    rw [user] at there
    split at there
    · rename_i same
      cases there
      rw [same]
      exact listed
    · rename_i different
      exact (inv.listed other value there).congr fun client =>
        (others client other different).symm
  · intro other value there blocked
    rw [user] at there
    split at there
    · cases there
      exact idle blocked
    · exact inv.idle other value there blocked

theorem modifyUser_cell_of_found (found : s.user.cell account = some reg)
    (change : UserReg → UserReg) (u : UserRegId) :
    (s.modifyUser account change).user.cell u =
      if u = account then some (change reg) else s.user.cell u := by
  unfold modifyUser
  rw [Heap.modify_cell, found]
  rfl

theorem LoginInv.link (inv : LoginInv s) {client : ClientId}
    (out : s.login client = some none) (found : s.user.cell account = some reg)
    (opened : reg.blocked = false) : LoginInv (s.linkUser client account) := by
  have login : (s.linkUser client account).login =
      Function.update s.login client (some (some account)) := rfl
  refine inv.modify (modifyUser_cell_of_found
    (s := s.setLogin client (some account)) found _) ?_ ?_ ?_
  · intro other u different
    by_cases same : other = client
    · subst same
      simp [login, out, different.symm]
    · simp [login, Function.update_of_ne same]
  · refine ((inv.listed account reg found).add ?_).congr fun other => ?_
    · rw [out]
      simp
    · by_cases same : other = client
      · simp [login, same]
      · simp [login, same]
  · intro blocked
    exact absurd (opened ▸ blocked : false = true) (by simp)

theorem LoginInv.leave (inv : LoginInv s) {client : ClientId}
    (inside : s.login client = some (some account)) :
    LoginInv ((s.modifyUser account fun reg =>
      { reg with users := Dlink.findDestroy client reg.users }).setLogin client
        none) := by
  obtain ⟨reg, found⟩ := inv.live client account inside
  have login (change : UserReg → UserReg) :
      ((s.modifyUser account change).setLogin client none).login =
        Function.update s.login client (some none) := rfl
  refine inv.modify (modifyUser_cell_of_found found _) ?_ ?_ ?_
  · intro other u different
    by_cases same : other = client
    · subst same
      simp [login, inside, different.symm]
    · simp [login, Function.update_of_ne same]
  · refine ((inv.listed account reg found).delete client).congr fun other => ?_
    by_cases same : other = client
    · simp [login, same]
    · simp [login, same]
  · intro blocked
    have none_ : reg.users = [] := inv.idle account reg found blocked
    simp [none_, Dlink.findDestroy]

theorem foldl_setLogin (clients : List ClientId) (s : Regs) (c : ClientId) :
    (clients.foldl (fun s client => s.setLogin client none) s).login c =
      if c ∈ clients then some none else s.login c := by
  induction clients generalizing s with
  | nil => simp
  | cons first rest ih =>
      rw [List.foldl_cons, ih]
      by_cases later : c ∈ rest
      · simp [later]
      · by_cases same : c = first
        · simp [same, setLogin]
        · simp [same, later, setLogin]

theorem foldl_setLogin_user (clients : List ClientId) (s : Regs) :
    (clients.foldl (fun s client => s.setLogin client none) s).user =
      s.user := by
  induction clients generalizing s with
  | nil => rfl
  | cons first rest ih => exact ih (s.setLogin first none)

theorem LoginInv.logout (inv : LoginInv s) (account : UserRegId) :
    LoginInv (s.logoutUserReg account) := by
  unfold logoutUserReg
  split
  · exact inv
  rename_i reg found
  have index := inv.listed account reg found
  have login (c : ClientId) :
      (modifyUser account (fun reg => { reg with users := [] })
        (reg.users.foldl (fun s client => s.setLogin client none) s)).login c =
          if c ∈ reg.users then some none else s.login c :=
    foldl_setLogin reg.users s c
  have cells (u : UserRegId) :
      (modifyUser account (fun reg => { reg with users := [] })
        (reg.users.foldl (fun s client => s.setLogin client none)
          s)).user.cell u =
        if u = account then some { reg with users := [] }
        else s.user.cell u := by
    unfold modifyUser
    dsimp only
    rw [foldl_setLogin_user]
    exact modifyUser_cell_of_found found _ u
  refine inv.modify cells ?_ ?_ fun _ => rfl
  · intro client other different
    rw [login]
    split
    · rename_i inside
      rw [(index.mem_iff client).mp inside]
      simp [different.symm]
    · rfl
  · refine .nil fun client inside => ?_
    rw [login] at inside
    split at inside
    · cases inside
    · rename_i outside
      exact outside ((index.mem_iff client).mpr inside)

theorem LoginInv.congr_login (inv : LoginInv s) (user : t.user = s.user)
    (login : ∀ c u, t.login c = some (some u) ↔ s.login c = some (some u)) :
    LoginInv t := by
  refine ⟨fun c u inside => ?_, fun u reg found => ?_, fun u reg found => ?_⟩
  · rw [user]
    exact inv.live c u ((login c u).mp inside)
  · rw [user] at found
    exact (inv.listed u reg found).congr fun c => (login c u).symm
  · rw [user] at found
    exact inv.idle u reg found

theorem LoginInv.block (inv : LoginInv s) {change : UserReg → UserReg}
    (empty : ∀ reg, s.user.cell account = some reg → reg.users = [])
    (users : ∀ reg, (change reg).users = reg.users) :
    LoginInv (s.modifyUser account change) := by
  refine ⟨?_, ?_, ?_⟩
  · intro client u inside
    obtain ⟨reg, found⟩ := inv.live client u inside
    exact ⟨_, Heap.modify_of_cell found⟩
  · intro u new after
    obtain ⟨old, before, changed⟩ := Heap.cell_of_modify after
    have same : new.users = old.users := by
      rw [changed]
      split
      · exact users old
      · rfl
    rw [same]
    exact inv.listed u old before
  · intro u new after blocked
    obtain ⟨old, before, changed⟩ := Heap.cell_of_modify after
    split at changed
    · rename_i same
      rw [changed, users]
      exact empty old (same ▸ before)
    · rw [changed] at blocked ⊢
      exact inv.idle u old before blocked

theorem LoginInv.newUser (inv : LoginInv s) (users : reg.users = [])
    (names : List CString) : LoginInv { s.addUserReg reg with users := names } := by
  refine ⟨?_, ?_, ?_⟩
  · intro client u inside
    obtain ⟨old, found⟩ := inv.live client u inside
    exact ⟨old, Heap.alloc_cell_of_used found⟩
  · intro u other found
    simp only [addUserReg, Heap.alloc_cell] at found
    split at found
    · rename_i fresh
      cases found
      rw [users]
      refine .nil fun client inside => ?_
      obtain ⟨old, there⟩ := inv.live client u inside
      rw [fresh, s.user.cell_next] at there
      cases there
    · exact inv.listed u other found
  · intro u other found blocked
    simp only [addUserReg, Heap.alloc_cell] at found
    split at found
    · cases found
      exact users
    · exact inv.idle u other found blocked

theorem LoginInv.dropUser (inv : LoginInv s)
    (found : s.user.cell account = some reg)
    (unused : reg.users = [] ∨ reg.blocked = true) :
    LoginInv (s.freeUserReg conf account) := by
  have none_ : reg.users = [] := unused.elim id (inv.idle account reg found)
  refine inv.same (.freeUserReg s account) fun u old before some_ => ?_
  have different : u ≠ account := by
    rintro rfl
    rw [found, Option.some.injEq] at before
    exact some_ (before ▸ none_)
  have names := (freeUserReg_names conf s account found).names u
  rw [Heap.free_cell, if_neg different, before] at names
  obtain ⟨new, there, -⟩ := Option.map_eq_some_iff.mp names
  exact ⟨new, there⟩

theorem LoginInv.of_core (inv : LoginInv s) (login : t.login = s.login)
    (core : ∀ u, (t.user.cell u).map UserReg.core =
      (s.user.cell u).map UserReg.core) : LoginInv t := by
  refine inv.same (.of_core login core) fun u old found _ => ?_
  have same := core u
  rw [found] at same
  obtain ⟨new, there, -⟩ := Option.map_eq_some_iff.mp same
  exact ⟨new, there⟩

theorem Move.loginInv (move : Move conf Given False s t)
    (inv : LoginInv s) : LoginInv t := by
  cases move with
  | settings settled =>
      refine inv.same settled.logins fun u old found _ => ?_
      have same := settled.access.user u
      rw [found] at same
      obtain ⟨new, there, -⟩ := Option.map_eq_some_iff.mp same
      exact ⟨new, there⟩
  | connect client new =>
      refine inv.congr_login rfl fun c u => ?_
      by_cases same : c = client
      · simp [same, setLogin, new]
      · simp [setLogin, Function.update_of_ne same]
  | link client account reg out found opened =>
      obtain broken | opened := opened
      · cases broken
      · exact inv.link out found opened
  | leave client account inside => exact inv.leave inside
  | torn access broken => cases broken
  | exit client out =>
      refine inv.congr_login rfl fun c u => ?_
      by_cases same : c = client
      · subst same
        simp only [Function.update_self, reduceCtorEq, false_iff]
        intro inside
        rw [loginOf_eq_some.mpr inside] at out
        cases out
      · simp [Function.update_of_ne same]
  | logout account => exact inv.logout account
  | block account change empty keeps users => exact inv.block empty users
  | newUser reg given some_ new copied unique channels users =>
      exact inv.newUser users _
  | dropUser account reg found unused =>
      exact inv.dropUser found (unused.resolve_left id)
  | newChan now name account lastmod reg found new =>
      refine inv.of_core rfl fun u => ?_
      change ((s.user.modify account _).cell u).map UserReg.core = _
      apply Heap.modify_cell_map
      exact fun _ => rfl
  | dropChan target =>
      unfold destroyChannelReg
      split
      · exact inv
      · rename_i reg found
        have freed := SameAccounts.freeMembers conf
          (s.deleteMembers fun row => row.chname == reg.name) false reg.users
        exact inv.of_core freed.login freed.core
  | add member owner channel new level tame active fresh =>
      refine inv.of_core rfl fun u => ?_
      change ((s.user.modify member.userReg _).cell u).map UserReg.core = _
      apply Heap.modify_cell_map
      exact fun _ => rfl
  | set target member change row found keeps proper written bants =>
      exact inv.of_core rfl fun _ => rfl
  | remove target member found =>
      have freed := SameAccounts.freeMember conf
        (s.deleteMemberDbEntry member) true target
      exact inv.of_core freed.login freed.core

theorem Moves.loginInv (moves : Moves conf Given False s t)
    (inv : LoginInv s) : LoginInv t := by
  induction moves with
  | refl => exact inv
  | tail _ last ih => exact last.loginInv ih

theorem LoginInv.empty : LoginInv empty := by
  refine ⟨?_, ?_, ?_⟩
  · intro client account login
    cases login
  · intro account reg found
    cases found
  · intro account reg found
    cases found

theorem loginInv_of_run {events : List RegEvent}
    (safe : Meets (step conf) (fun s event => s.loginSafe conf event = true)
      empty events)
    (reached : run (step conf) empty events = .ok s) : LoginInv s := by
  have both : Sound s ∧ LoginInv s := by
    refine run_preserves_of_meets (fun s => Sound s ∧ LoginInv s) ?_ safe
      ⟨.empty, .empty⟩ reached
    rintro before event after fine ⟨sound, inv⟩ returned
    have naming : Naming conf (fun _ => True) event :=
      ⟨fun _ _ => trivial, fun _ _ _ _ _ => trivial⟩
    have moves : Moves conf (fun _ => True) False before after :=
      step_moves naming sound.access (Or.inr ⟨inv.idle, fine⟩) returned
    exact ⟨sound.moves moves, moves.loginInv inv⟩
  exact both.2

/-- When no burst tears a login and no account expires that is used, a user is
once in the list of the account it is logged in to and in no other, and that
account is neither freed nor suspended nor waiting for its activation. -/
theorem login_of_run {events : List RegEvent}
    (safe : Meets (step conf) (fun s event => s.loginSafe conf event = true)
      empty events)
    (reached : run (step conf) empty events = .ok s) :
    (∀ client account reg, s.user.cell account = some reg →
      reg.users.count client =
        if s.loginOf client = some account then 1 else 0) ∧
    ∀ client account, s.loginOf client = some account →
      ∃ reg, s.user.cell account = some reg ∧
        reg.flags.has usFlagsSuspended = false ∧
        reg.flags.has usFlagsNeverloggedin = false := by
  have inv := loginInv_of_run safe reached
  constructor
  · intro client account reg found
    have index := inv.listed account reg found
    split
    · rename_i login
      exact List.count_eq_one_of_mem index.nodup
        ((index.mem_iff client).mpr (loginOf_eq_some.mp login))
    · rename_i outside
      exact List.count_eq_zero.mpr fun listed =>
        outside (loginOf_eq_some.mpr ((index.mem_iff client).mp listed))
  · intro client account login
    have inside := loginOf_eq_some.mp login
    obtain ⟨reg, found⟩ := inv.live client account inside
    refine ⟨reg, found, ?_⟩
    have listed := ((inv.listed account reg found).mem_iff client).mpr inside
    cases blocked : reg.blocked with
    | true => simp [inv.idle account reg found blocked] at listed
    | false => simpa [UserReg.blocked] using blocked

def loggedIn : List RegEvent :=
  [ ⟨100, .operUserRegister ⟨"alice".toList, alice_ne_nil⟩ true⟩,
    ⟨100, .operUserRegister ⟨"bob".toList, bob_ne_nil⟩ true⟩,
    ⟨100, .connect 1⟩,
    ⟨101, .login 1 "alice".toList true []⟩ ]

theorem login_of_burst :
    ∃ s, run (step (setDefaultConf "services.".toList)) empty
        (loggedIn ++ [⟨102, .burst 1 "bob".toList false⟩]) = .ok s ∧
      s.loginOf 1 = some 1 ∧
      ∃ reg, s.user.cell 1 = some reg ∧ reg.users.count 1 = 1 := by
  have observed : (run (step (setDefaultConf "services.".toList)) empty
      (loggedIn ++ [⟨102, .burst 1 "bob".toList false⟩])).toOption.map
        (fun s => s.loginOf 1) = some (some 1) := by
    decide +kernel
  obtain ⟨s, reached, login⟩ := Except.exists_of_observed observed
  obtain ⟨lists, live⟩ := login_of_run (by decide +kernel) reached
  obtain ⟨reg, found, -⟩ := live 1 1 login
  refine ⟨s, reached, login, reg, found, ?_⟩
  rw [lists 1 1 reg found, if_pos login]

/-- A burst moves the user to an account that is suspended: the user leaves the
list of the first account and stays logged in to it. -/
theorem not_login_of_burst :
    ∃ s, run (step (setDefaultConf "services.".toList)) empty
        (loggedIn ++ [⟨102, .userSuspend 0 "bob".toList true⟩,
          ⟨103, .burst 1 "bob".toList false⟩]) = .ok s ∧
      s.loginOf 1 = some 0 ∧
      ∃ reg, s.user.cell 0 = some reg ∧ reg.users.count 1 ≠ 1 := by
  have observed : (run (step (setDefaultConf "services.".toList)) empty
      (loggedIn ++ [⟨102, .userSuspend 0 "bob".toList true⟩,
        ⟨103, .burst 1 "bob".toList false⟩])).toOption.map
        (fun s => (s.loginOf 1, (s.user.cell 0).map UserReg.users)) =
          some (some 0, some []) := by
    decide +kernel
  obtain ⟨s, reached, seen⟩ := Except.exists_of_observed observed
  rw [Prod.mk.injEq, Option.map_eq_some_iff] at seen
  obtain ⟨login, reg, found, none_⟩ := seen
  refine ⟨s, reached, login, reg, found, ?_⟩
  rw [none_]
  decide

structure NamedInv (conf : ServConfig) (s : Regs) : Prop where
  fits : ∀ u reg, s.user.cell u = some reg →
    reg.name = reg.given ∧ reg.name.length ≤ conf.userRegNameLen
  unique : ∀ u v left right, s.user.cell u = some left →
    s.user.cell v = some right → strcasecmp left.name right.name = true → u = v

theorem strcasecmp_refl (text : CString) : strcasecmp text text = true := by
  simp [strcasecmp]

theorem strcasecmp_comm {left right : CString}
    (same : strcasecmp left right = true) : strcasecmp right left = true := by
  simp only [strcasecmp, beq_iff_eq] at same ⊢
  exact same.symm

theorem AccountInv.absent (inv : AccountInv s) {name : CString}
    (missing : s.findUserReg name = none) {u : UserRegId}
    (found : s.user.cell u = some reg) : strcasecmp reg.name name = false := by
  by_contra same
  rw [Bool.not_eq_false] at same
  have listed := (inv.table.mem_iff u).mpr ⟨reg, found, trivial⟩
  refine List.find?_eq_none.mp missing u listed ?_
  unfold userNamed
  simp [found, same, hashName_cased same]

theorem NamedInv.same (inv : NamedInv conf s) (same : SameNames s t) :
    NamedInv conf t := by
  constructor
  · intro u reg found
    obtain ⟨old, before, name, given⟩ := same.cell found
    rw [← name, ← given]
    exact inv.fits u old before
  · intro u v left right first second names
    obtain ⟨old, before, name, -⟩ := same.cell first
    obtain ⟨old', before', name', -⟩ := same.cell second
    rw [← name, ← name'] at names
    exact inv.unique u v old old' before before' names

def Fits (conf : ServConfig) (name : CString) : Prop :=
  name.length ≤ conf.userRegNameLen

theorem Move.namedInv {Broken : Prop}
    (move : Move conf (Fits conf) Broken s t) (accounts : AccountInv s)
    (inv : NamedInv conf s) : NamedInv conf t := by
  obtain same | ⟨reg, short, -, missing, copied, -, rfl⟩ | ⟨account, rfl⟩ :=
    move.names
  · exact inv.same same
  · have kept : reg.name = reg.given := by
      rw [copied]
      exact strlcpy_of_le short
    constructor
    · intro u other found
      simp only [addUserReg, Heap.alloc_cell] at found
      split at found
      · cases found
        exact ⟨kept, kept ▸ short⟩
      · exact inv.fits u other found
    · intro u v left right first second names
      simp only [addUserReg, Heap.alloc_cell] at first second
      split at first
      · rename_i equal
        cases first
        split at second
        · rename_i equal'
          exact equal.trans equal'.symm
        · have other := accounts.absent missing second
          rw [← kept, strcasecmp_comm names] at other
          cases other
      · split at second
        · cases second
          have other := accounts.absent missing first
          rw [← kept, names] at other
          cases other
        · exact inv.unique u v left right first second names
  · cases found : s.user.cell account with
    | none =>
        unfold freeUserReg
        rw [found]
        exact inv
    | some reg =>
        have stays {u : UserRegId} {other : UserReg}
            (after : (s.user.free account).cell u = some other) :
            s.user.cell u = some other := by
          rw [Heap.free_cell] at after
          split at after
          · cases after
          · exact after
        refine NamedInv.same ⟨?_, ?_⟩ (freeUserReg_names conf s account found)
        · intro u other after
          exact inv.fits u other (stays after)
        · intro u v left right first second
          exact inv.unique u v left right (stays first) (stays second)

/-- The rows that the database hook brings have names that fit, if they have a
name and a password. -/
def HooksFit (conf : ServConfig) (events : List RegEvent) : Prop :=
  ∀ event ∈ events, ∀ name password,
    event.act = .hookRegister name password → name ≠ [] → password ≠ [] →
      Fits conf name

theorem namedInv_of_run {events : List RegEvent} (short : HooksFit conf events)
    (reached : run (step conf) empty events = .ok s) :
    Sound s ∧ NamedInv conf s := by
  have meets : Meets (step conf) (fun _ event => ∀ name password,
      event.act = .hookRegister name password → name ≠ [] → password ≠ [] →
        Fits conf name) empty events :=
    meets_of_mem (fun event listed _ => short event listed) _
  have start : NamedInv conf empty := by
    constructor
    · intro u reg found
      cases found
    · intro u v left right found
      cases found
  refine run_preserves_of_meets (fun s => Sound s ∧ NamedInv conf s) ?_ meets
    ⟨.empty, start⟩ reached
  rintro before event after fits ⟨sound, inv⟩ returned
  have naming : Naming conf (Fits conf) event :=
    ⟨fun _ valid => validUsername_length valid, fits⟩
  have moves : Moves conf (Fits conf) True before after :=
    step_moves naming sound.access (Or.inl trivial) returned
  clear returned
  induction moves with
  | refl => exact ⟨sound, inv⟩
  | tail _ last ih =>
      exact ⟨ih.1.moves (.single last), last.namedInv ih.1.accounts ih.2⟩

theorem NamedInv.found (inv : NamedInv conf s) (accounts : AccountInv s)
    {u : UserRegId} (used : s.user.cell u = some reg) :
    s.findUserReg reg.given = some u := by
  have hit : s.userNamed reg.given u = true := by
    unfold userNamed
    simp [used, (inv.fits u reg used).1, strcasecmp_refl]
  have listed := (accounts.table.mem_iff u).mpr ⟨reg, used, trivial⟩
  cases first : s.findUserReg reg.given with
  | none => exact absurd hit (List.find?_eq_none.mp first u listed)
  | some v =>
      have named := List.find?_some first
      unfold userNamed at named
      cases cell : s.user.cell v with
      | none =>
          rw [cell] at named
          cases named
      | some other =>
          simp only [cell, Bool.and_eq_true] at named
          rw [← (inv.fits u reg used).1] at named
          rw [inv.unique v u other reg cell used named.2]

/-- When the rows of the database hook have names that fit, no two accounts
have the same name and every one is found by the name it was given. -/
theorem names_of_run {events : List RegEvent} (short : HooksFit conf events)
    (reached : run (step conf) empty events = .ok s) :
    (∀ u ∈ s.userTable, ∀ v ∈ s.userTable, ∀ left right,
      s.user.cell u = some left → s.user.cell v = some right →
      strcasecmp left.name right.name = true → u = v) ∧
    ∀ u ∈ s.userTable, ∃ reg, s.user.cell u = some reg ∧
      reg.name.length ≤ conf.userRegNameLen ∧
      s.findUserReg reg.given = some u := by
  obtain ⟨sound, inv⟩ := namedInv_of_run short reached
  constructor
  · intro u _ v _ left right first second
    exact inv.unique u v left right first second
  · intro u listed
    obtain ⟨reg, found, -⟩ := (sound.accounts.table.mem_iff u).mp listed
    exact ⟨reg, found, (inv.fits u reg found).2, inv.found sound.accounts found⟩

theorem names_of_hooks :
    ∃ s, run (step (setDefaultConf "services.".toList)) empty
        [ ⟨100, .hookRegister "abcdefghij".toList "x".toList⟩,
          ⟨100, .hookRegister "ABCDEFGHIJ".toList "x".toList⟩ ] = .ok s ∧
      s.userTable = [0] ∧ ∃ reg, s.user.cell 0 = some reg ∧
        s.findUserReg reg.given = some 0 := by
  have observed : (run (step (setDefaultConf "services.".toList)) empty
      [ ⟨100, .hookRegister "abcdefghij".toList "x".toList⟩,
        ⟨100, .hookRegister "ABCDEFGHIJ".toList "x".toList⟩ ]).toOption.map
        (fun s => s.userTable) = some [0] := by
    decide +kernel
  obtain ⟨s, reached, table⟩ := Except.exists_of_observed observed
  have short : HooksFit (setDefaultConf "services.".toList)
      [ ⟨100, .hookRegister "abcdefghij".toList "x".toList⟩,
        ⟨100, .hookRegister "ABCDEFGHIJ".toList "x".toList⟩ ] := by
    intro event listed name password hook
    simp only [List.mem_cons, List.not_mem_nil, or_false] at listed
    obtain rfl | rfl := listed
    · cases hook
      exact fun _ _ => Nat.le_of_ble_eq_true rfl
    · cases hook
      exact fun _ _ => Nat.le_of_ble_eq_true rfl
  obtain ⟨reg, found, -, named⟩ := (names_of_run short reached).2 0
    (by simp [table])
  exact ⟨s, reached, table, reg, found, named⟩

/-- Rows with longer names: the second one is not found as the first one was
cut, and its own copy is the same name. -/
theorem not_names_of_hooks :
    ∃ s left right, run (step (setDefaultConf "services.".toList)) empty
        [ ⟨100, .hookRegister "abcdefghijk".toList "x".toList⟩,
          ⟨100, .hookRegister "ABCDEFGHIJK".toList "x".toList⟩ ] = .ok s ∧
      s.userTable = [1, 0] ∧ s.user.cell 0 = some left ∧
      s.user.cell 1 = some right ∧ strcasecmp left.name right.name = true ∧
      s.findUserReg left.given = none := by
  have observed : (run (step (setDefaultConf "services.".toList)) empty
      [ ⟨100, .hookRegister "abcdefghijk".toList "x".toList⟩,
        ⟨100, .hookRegister "ABCDEFGHIJK".toList "x".toList⟩ ]).toOption.map
        (fun s => (s.userTable, s.findUserReg "abcdefghijk".toList)) =
      some ([1, 0], none) := by
    decide +kernel
  have cells : (run (step (setDefaultConf "services.".toList)) empty
      [ ⟨100, .hookRegister "abcdefghijk".toList "x".toList⟩,
        ⟨100, .hookRegister "ABCDEFGHIJK".toList "x".toList⟩ ]).toOption.map
        (fun s => [0, 1].map fun u => (s.user.cell u).map UserReg.names) =
      some [some ("abcdefghij".toList, "abcdefghijk".toList),
        some ("ABCDEFGHIJ".toList, "ABCDEFGHIJK".toList)] := by
    decide +kernel
  obtain ⟨s, reached, seen⟩ := Except.exists_of_observed observed
  rw [Prod.mk.injEq] at seen
  obtain ⟨table, missing⟩ := seen
  rw [reached] at cells
  simp only [Except.toOption, Option.map_some, Option.some.injEq,
    List.map_cons, List.map_nil, List.cons.injEq, and_true,
    Option.map_eq_some_iff] at cells
  obtain ⟨⟨left, first, names⟩, right, second, names'⟩ := cells
  rw [UserReg.names, Prod.mk.injEq] at names names'
  refine ⟨s, left, right, reached, table, first, second, ?_, ?_⟩
  · rw [names.1, names'.1]
    decide
  · rw [names.2]
    exact missing

end Regs

end RatboxServices
