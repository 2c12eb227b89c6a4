import RatboxServices.Serv.RegSettle

namespace RatboxServices

open CString

/-! Everything that a command or a timer can do, as moves. Each of them says
under which conditions it is made; invariants are kept by moves, and a step is
some moves one after another. -/

def RegAct.isRegister : RegAct → Bool
  | .userRegister .. => true
  | .operUserRegister .. => true
  | .hookRegister .. => true
  | _ => false

namespace Regs

/-- `Given` is what is known of the names accounts are registered with, and
`Broken` whether logins may be left torn. -/
inductive Move (conf : ServConfig) (Given : CString → Prop) (Broken : Prop) :
    Regs → Regs → Prop where
  | settings {s t : Regs} (settled : Settled s t) : Move conf Given Broken s t
  | connect {s : Regs} (client : ClientId) (new : s.login client = none) :
      Move conf Given Broken s (s.setLogin client none)
  | link {s : Regs} (client : ClientId) (account : UserRegId) (reg : UserReg)
      (out : s.login client = some none)
      (found : s.user.cell account = some reg)
      (opened : Broken ∨ reg.blocked = false) :
      Move conf Given Broken s (s.linkUser client account)
  | leave {s : Regs} (client : ClientId) (account : UserRegId)
      (inside : s.login client = some (some account)) :
      Move conf Given Broken s
        ((s.modifyUser account fun reg =>
          { reg with users := Dlink.findDestroy client reg.users }).setLogin
            client none)
  | torn {s t : Regs} (access : SameAccess s t) (broken : Broken) :
      Move conf Given Broken s t
  | exit {s : Regs} (client : ClientId) (out : s.loginOf client = none) :
      Move conf Given Broken s
        { s with login := Function.update s.login client none }
  | logout {s : Regs} (account : UserRegId) :
      Move conf Given Broken s (s.logoutUserReg account)
  | block {s : Regs} (account : UserRegId) (change : UserReg → UserReg)
      (empty : ∀ reg, s.user.cell account = some reg → reg.users = [])
      (kept : ∀ reg, UserReg.kept (change reg) = UserReg.kept reg)
      (users : ∀ reg, (change reg).users = reg.users) :
      Move conf Given Broken s (s.modifyUser account change)
  | newUser {s : Regs} (reg : UserReg) (given : Given reg.given)
      (some_ : reg.given ≠ []) (new : s.findUserReg reg.given = none)
      (copied : reg.name = strlcpy (conf.userRegNameLen + 1) reg.given)
      (unique : reg.name ∉ s.users) (channels : reg.channels = [])
      (users : reg.users = []) :
      Move conf Given Broken s
        { s.addUserReg reg with users := s.users ++ [reg.name] }
  | dropUser {s : Regs} (account : UserRegId) (reg : UserReg)
      (found : s.user.cell account = some reg)
      (unused : Broken ∨ reg.users = [] ∨ reg.blocked = true) :
      Move conf Given Broken s (s.freeUserReg conf account)
  | newChan {s : Regs} (now : Int) (name : Token) (account : UserRegId)
      (lastmod : CString) (reg : UserReg)
      (found : s.user.cell account = some reg)
      (new : s.findChannelReg name.text = none) :
      Move conf Given Broken s (s.registerChannel now name account lastmod)
  | dropChan {s : Regs} (target : ChanRegId) :
      Move conf Given Broken s (s.destroyChannelReg conf target)
  | add {s : Regs} (member : MemberReg)
      (owner : ∃ list, s.channelsOf member.userReg = some list)
      (channel : ∃ list, s.usersOf member.channelReg = some list)
      (new : ∀ m other, s.member.cell m = some other →
        other.userReg = member.userReg →
        other.channelReg ≠ member.channelReg)
      (level : Ordinary member.level) (tame : Tame member)
      (active : member.suspend = 0) (fresh : member.bants = 0#64) :
      Move conf Given Broken s (s.addMember member)
  | set {s : Regs} (target : MemberRegId) (member : MemberReg)
      (change : MemberReg → MemberReg) (row : MemberRow → MemberRow)
      (found : s.member.cell target = some member)
      (kept : ∀ entry, (change entry).userReg = entry.userReg ∧
        (change entry).channelReg = entry.channelReg)
      (proper : Proper member (change member))
      (written : row (s.rowOf member) = s.rowOf (change member))
      (bants : (change member).bants = member.bants) :
      Move conf Given Broken s (s.setMember target member change row)
  | remove {s : Regs} (target : MemberRegId) (member : MemberReg)
      (found : s.member.cell target = some member) :
      Move conf Given Broken s (s.removeMember conf target member)

abbrev Moves (conf : ServConfig) (Given : CString → Prop) (Broken : Prop) :
    Regs → Regs → Prop :=
  Relation.ReflTransGen (Move conf Given Broken)

section Inv

variable {conf : ServConfig} {Given : CString → Prop} {Broken : Prop}
  {s t : Regs}

theorem SameAccess.logoutUserReg (s : Regs) (account : UserRegId) :
    SameAccess s (s.logoutUserReg account) := by
  unfold Regs.logoutUserReg
  split
  · exact .refl s
  · rename_i reg found
    have loop (clients : List ClientId) (s : Regs) :
        SameAccess s (clients.foldl (fun s client => s.setLogin client none)
          s) := by
      induction clients generalizing s with
      | nil => exact .refl s
      | cons first rest ih =>
          exact (SameAccess.setLogin s first none).trans (ih _)
    exact (loop reg.users s).trans (.modifyUser _ account fun _ => rfl)

theorem SameAccess.linkUser (s : Regs) (client : ClientId)
    (account : UserRegId) : SameAccess s (s.linkUser client account) := by
  have noted := SameAccess.setLogin s client (some account)
  exact noted.trans (.modifyUser _ account fun _ => rfl)

theorem Move.accessInv {Unruled : ChanRegId → Prop}
    (move : Move conf Given Broken s t) (inv : AccessInv Unruled s) :
    AccessInv Unruled t := by
  cases move with
  | settings settled => exact inv.same settled.access
  | connect client new => exact inv.same (.setLogin _ client none)
  | link client account reg out found opened =>
      exact inv.same (.linkUser s client account)
  | leave client account inside =>
      have left : SameAccess s (s.modifyUser account fun reg =>
          { reg with users := Dlink.findDestroy client reg.users }) :=
        .modifyUser _ account fun _ => rfl
      exact inv.same (left.trans (.setLogin _ client none))
  | torn access broken => exact inv.same access
  | exit client out => exact inv.congr rfl rfl rfl
  | logout account => exact inv.same (.logoutUserReg s account)
  | block account change empty kept users =>
      exact inv.same (.modifyUser s account kept)
  | newUser reg given some_ new copied unique channels users =>
      exact inv.newUser channels _
  | dropUser account reg found unused => exact inv.freeUser account
  | newChan now name account lastmod reg found new =>
      refine inv.newChan ⟨reg.channels, ?_⟩ now name lastmod
      unfold channelsOf
      rw [found]
      rfl
  | dropChan target => exact inv.destroyChannel target
  | add member owner channel new level tame active fresh =>
      exact inv.addMember owner channel new level tame
  | set target member change row found kept proper written bants =>
      exact inv.setMember found kept proper
  | remove target member found =>
      have deleted : AccessInv Unruled (s.deleteMemberDbEntry member) :=
        inv.congr rfl rfl rfl
      exact deleted.freeMember true target (Or.inl rfl)

theorem Moves.accessInv {Unruled : ChanRegId → Prop}
    (moves : Moves conf Given Broken s t) (inv : AccessInv Unruled s) :
    AccessInv Unruled t := by
  induction moves with
  | refl => exact inv
  | tail _ last ih => exact last.accessInv ih

end Inv

section Access

variable {conf : ServConfig} {Given : CString → Prop} {Broken : Prop}
  {s t : Regs} {now : Int} {client : ClientId} {chname : CString}
  {target : AccountArg}

theorem AccessInv.level (inv : AccessInv (fun _ => False) s) {m : MemberRegId}
    {member : MemberReg} (used : s.member.cell m = some member) :
    1 ≤ member.level ∧ member.level ≤ sCOwner := by
  obtain ⟨list, there⟩ := inv.wired.channel m member used
  obtain impossible | ⟨n, owner, found, -, level, -, rest⟩ :=
    inv.ruled _ list there
  · cases impossible
  · by_cases same : m = n
    · rw [← same, used, Option.some.injEq] at found
      subst found
      rw [level]
      simp [sCOwner]
    · have bounds := rest m member used rfl same
      exact ⟨bounds.1, bounds.2.le⟩

theorem AccessInv.owner_active (inv : AccessInv (fun _ => False) s)
    {m : MemberRegId} {member : MemberReg}
    (used : s.member.cell m = some member) (top : member.level = sCOwner) :
    member.suspend = 0 := by
  obtain ⟨list, there⟩ := inv.wired.channel m member used
  obtain impossible | ⟨n, owner, found, -, -, suspend, rest⟩ :=
    inv.ruled _ list there
  · cases impossible
  · by_cases same : m = n
    · rw [← same, used, Option.some.injEq] at found
      exact found ▸ suspend
    · have bounds := rest m member used rfl same
      omega

/-- An entry has no flags but those of `AUTOOP` and `AUTOVOICE`. -/
theorem low_flags_iff (flags : Word) :
    flags &&& 3#32 = flags ↔ ∀ bit, 2 ≤ bit → flags.has bit = false := by
  have mask (bit : Nat) : (3#32).getLsbD bit = decide (bit < 2) := by
    have ones : 3#32 = BitVec.ofNat 32 (2 ^ 2 - 1) := rfl
    rw [ones, BitVec.getLsbD_ofNat, Nat.testBit_two_pow_sub_one]
    by_cases low : bit < 2
    · simp [low]
      omega
    · simp [low]
  constructor
  · intro same bit bound
    rw [← same]
    unfold Word.has
    rw [BitVec.getLsbD_and, mask]
    simp
    omega
  · intro low
    refine Word.ext fun bit _ => ?_
    unfold Word.has
    rw [BitVec.getLsbD_and, mask]
    by_cases bound : bit < 2
    · simp [bound]
    · have absent := low bit (by omega)
      unfold Word.has at absent
      simp [absent]

theorem autoFlags_low {auto : Option CString} {flags : Word}
    (read : autoFlags auto = some flags) : flags &&& 3#32 = flags := by
  unfold autoFlags at read
  split at read
  · cases read
    rfl
  · split at read
    · cases read
      rfl
    · split at read
      · cases read
        rfl
      · split at read
        · cases read
          rfl
        · cases read

theorem modautoFlags_low {auto : CString} {old flags : Word}
    (low : old &&& 3#32 = old) (read : modautoFlags auto old = some flags) :
    flags &&& 3#32 = flags := by
  rw [low_flags_iff] at low ⊢
  intro bit bound
  have apart : ∀ other, other < 2 → ¬other = bit := by omega
  unfold modautoFlags at read
  split at read
  · cases read
    simp [low bit bound, apart, csMemberAutoop]
  · split at read
    · cases read
      simp [low bit bound, apart, csMemberAutovoice]
    · split at read
      · cases read
        simp [low bit bound]
      · cases read

theorem asMember_moves {level : Int}
    {body : MemberRegId → MemberReg → Regs → Except RegStop Regs}
    (inv : AccessInv (fun _ => False) s)
    (returned : s.asMember now client chname level body = .ok t)
    (moves : ∀ account entry caller r, AccessInv (fun _ => False) r →
      Settled s r → r.member.cell entry = some caller →
      Admitted s now client chname level account entry caller →
      body entry caller r = .ok t → Moves conf Given Broken r t) :
    Moves conf Given Broken s t := by
  obtain settled | ⟨account, entry, caller, r, settled, admitted, rest⟩ :=
    asMember_eq_ok returned
  · exact .single (.settings settled)
  · refine .head (.settings settled) (moves account entry caller r
      (inv.same settled.access) settled ?_ admitted rest)
    rw [settled.access.member]
    exact admitted.used

theorem onEntry_moves {level : Int}
    {body : MemberRegId → MemberReg → MemberRegId → MemberReg → Regs →
      Except RegStop Regs} (inv : AccessInv (fun _ => False) s)
    (returned : s.asMember now client chname level (fun own caller =>
      onEntry target caller (body own caller)) = .ok t)
    (moves : ∀ own caller named member r, AccessInv (fun _ => False) r →
      r.member.cell own = some caller → r.member.cell named = some member →
      body own caller named member r = .ok t →
      Moves conf Given Broken r t) : Moves conf Given Broken s t := by
  refine asMember_moves inv returned ?_
  intro account own caller r inv settled used admitted rest
  obtain rfl | ⟨other, named, member, -, -, found, rest⟩ := onEntry_eq_ok rest
  · exact .refl
  · exact moves own caller named member r inv used found rest

theorem sChanAdduser_moves {levelText : CString} {auto : Option CString}
    (inv : AccessInv (fun _ => False) s)
    (returned : s.sChanAdduser now client chname target levelText auto =
      .ok t) : Moves conf Given Broken s t := by
  refine asMember_moves inv returned ?_
  intro account entry caller r inv settled used admitted rest
  split at rest
  · cases rest
    exact .refl
  rename_i other named
  obtain ⟨hit, looked, rest⟩ := Except.bind_eq_ok.mp rest
  split at rest
  · cases rest
    exact .refl
  rename_i absent
  have missing : hit = none := by simpa using absent
  rw [missing] at looked
  obtain ⟨reg, found, rest⟩ := Except.bind_eq_ok.mp rest
  have cell := derefUser_eq_ok.mp found
  split at rest
  · cases rest
    exact .refl
  dsimp only at rest
  split at rest
  · cases rest
    exact .refl
  rename_i level
  rw [not_or, Int.not_lt, Int.not_le] at level
  have top := (inv.level used).2
  split at rest
  · cases rest
    exact .refl
  rename_i flags read
  cases rest
  refine .single (.add _ ⟨reg.channels, ?_⟩
    (inv.wired.channel entry caller used)
    (inv.wired.absent looked) ⟨level.1, lt_of_lt_of_le level.2 top⟩
    ⟨⟨le_refl _, by simp [sCOwner]⟩, autoFlags_low read⟩ rfl rfl)
  unfold channelsOf
  rw [cell]
  rfl

theorem sChanDeluser_moves (inv : AccessInv (fun _ => False) s)
    (returned : s.sChanDeluser conf now client chname target = .ok t) :
    Moves conf Given Broken s t := by
  refine onEntry_moves inv returned ?_
  intro own caller named member r inv used found rest
  split at rest
  · cases rest
    exact .refl
  split at rest
  · cases rest
    exact .refl
  cases rest
  exact .single (.remove named member found)

theorem sChanDelowner_moves {authorised : Bool}
    (inv : AccessInv (fun _ => False) s)
    (returned : s.sChanDelowner conf now client chname authorised = .ok t) :
    Moves conf Given Broken s t := by
  refine asMember_moves inv returned ?_
  intro account entry caller r inv settled used admitted rest
  split at rest
  · cases rest
    exact .single (.remove entry caller used)
  · cases rest
    exact .refl

theorem sChanModuser_moves {levelText : CString}
    (inv : AccessInv (fun _ => False) s)
    (returned : s.sChanModuser now client chname target levelText = .ok t) :
    Moves conf Given Broken s t := by
  refine onEntry_moves inv returned ?_
  intro own caller named member r inv used found rest
  split at rest
  · cases rest
    exact .refl
  rename_i below
  dsimp only at rest
  split at rest
  · cases rest
    exact .refl
  rename_i level
  simp only [not_or, Int.not_lt, Int.not_le] at level
  cases rest
  have top := (inv.level used).2
  have other : member.level ≠ sCOwner := by omega
  have tame := inv.tame named member found
  exact .single (.set named member _ _ found (fun _ => ⟨rfl, rfl⟩)
    ⟨rfl, rfl, Or.inr ⟨other, level.2.1, lt_of_lt_of_le level.2.2 top⟩,
      fun owner => absurd owner other, tame.suspend, tame.flags⟩ rfl rfl)

theorem sChanModauto_moves {auto : CString} (inv : AccessInv (fun _ => False) s)
    (returned : s.sChanModauto now client chname target auto = .ok t) :
    Moves conf Given Broken s t := by
  refine onEntry_moves inv returned ?_
  intro own caller named member r inv used found rest
  split at rest
  · cases rest
    exact .refl
  split at rest
  · cases rest
    exact .refl
  rename_i flags read
  cases rest
  have tame := inv.tame named member found
  exact .single (.set named member _ _ found (fun _ => ⟨rfl, rfl⟩)
    ⟨rfl, rfl, Or.inl rfl, inv.owner_active found, tame.suspend,
      modautoFlags_low tame.flags read⟩ rfl rfl)

theorem sChanSuspend_moves {levelText : CString}
    (inv : AccessInv (fun _ => False) s)
    (returned : s.sChanSuspend now client chname target levelText = .ok t) :
    Moves conf Given Broken s t := by
  refine onEntry_moves inv returned ?_
  intro own caller named member r inv used found rest
  split at rest
  · cases rest
    exact .refl
  rename_i below
  split at rest
  · cases rest
    exact .refl
  dsimp only at rest
  split at rest
  · cases rest
    exact .refl
  rename_i level
  rw [not_or, Int.not_lt, Int.not_lt] at level
  cases rest
  have top := (inv.level used).2
  have other : member.level ≠ sCOwner := by omega
  have positive : 0 ≤ atoi levelText := by omega
  exact .single (.set named member _ _ found (fun _ => ⟨rfl, rfl⟩)
    ⟨rfl, rfl, Or.inl rfl, fun owner => absurd owner other,
      ⟨positive, level.2.trans top⟩,
      (inv.tame named member found).flags⟩ rfl rfl)

theorem sChanUnsuspend_moves (inv : AccessInv (fun _ => False) s)
    (returned : s.sChanUnsuspend now client chname target = .ok t) :
    Moves conf Given Broken s t := by
  refine onEntry_moves inv returned ?_
  intro own caller named member r inv used found rest
  split at rest
  · cases rest
    exact .refl
  cases rest
  exact .single (.set named member _ _ found (fun _ => ⟨rfl, rfl⟩)
    ⟨rfl, rfl, Or.inl rfl, fun _ => rfl, ⟨le_refl _, by simp [sCOwner]⟩,
      (inv.tame named member found).flags⟩ rfl rfl)

end Access

section Channels

variable {conf : ServConfig} {Given : CString → Prop} {Broken : Prop}
  {s t : Regs} {now : Int} {client : ClientId}

theorem foldl_moves {α : Type} {turn : Regs → α → Regs} (Inv : Regs → Prop)
    {list : List α} (start : Inv s)
    (turns : ∀ r, Inv r → ∀ item ∈ list,
      Moves conf Given Broken r (turn r item) ∧ Inv (turn r item)) :
    Moves conf Given Broken s (list.foldl turn s) := by
  induction list generalizing s with
  | nil => exact .refl
  | cons first rest ih =>
      obtain ⟨moves, kept⟩ := turns s start first List.mem_cons_self
      refine moves.trans (ih kept fun r inv item later => ?_)
      exact turns r inv item (List.mem_cons_of_mem _ later)

theorem sChanRegister_moves {name : CString} {permitted : Bool}
    (returned : s.sChanRegister now client name permitted = .ok t) :
    Moves conf Given Broken s t := by
  obtain rfl | ⟨account, reg, login, found, rest⟩ := asUser_eq_ok returned
  · exact .refl
  have touched := Settled.touchUser now account s
  refine .head (.settings touched) ?_
  split at rest
  · cases rest
    exact .refl
  rename_i named
  split at rest
  · cases rest
    exact .refl
  rename_i new
  simp only [Bool.or_eq_true, not_or, Bool.not_eq_true,
    Option.isSome_eq_false_iff, Option.isNone_iff_eq_none] at new
  cases rest
  exact .single (.newChan now ⟨name, named⟩ account _ _
    (Heap.modify_of_cell found) new.2)

theorem oChanChanregister_moves {name : Token} {target : AccountArg}
    {oper : CString}
    (returned : s.oChanChanregister now name target oper = .ok t) :
    Moves conf Given Broken s t := by
  unfold oChanChanregister at returned
  split at returned
  · cases returned
    exact .refl
  rename_i new
  split at returned
  · cases returned
    exact .refl
  rename_i account named
  obtain ⟨reg, found, rest⟩ := Except.bind_eq_ok.mp returned
  cases rest
  exact .single (.newChan now name account oper reg (derefUser_eq_ok.mp found)
    (by simpa using new))

theorem oChanChandrop_moves (name : CString) :
    Moves conf Given Broken s (s.oChanChandrop conf name) := by
  unfold oChanChandrop
  split
  · exact .refl
  · exact .single (.dropChan _)

theorem oChanChansuspend_settled (now duration : Int) (name : CString)
    (reasonGiven : Bool) :
    Settled s (s.oChanChansuspend now duration name reasonGiven) := by
  unfold oChanChansuspend
  split
  · exact .refl s
  · rename_i target found
    have expired := Settled.expireIfDue now target s
    dsimp only
    split
    · exact expired
    · exact expired.trans (.modifyChan _ target fun _ => rfl)

theorem oChanChanunsuspend_settled (now : Int) (name : CString) :
    Settled s (s.oChanChanunsuspend now name) := by
  unfold oChanChanunsuspend
  split
  · exact .refl s
  · split
    · exact .modifyChan s _ fun _ => rfl
    · exact .refl s

theorem expireChan_moves (inUse : CString → Bool) (target : ChanRegId) :
    Moves conf Given Broken s (expireChan conf now inUse s target) := by
  unfold expireChan
  refine .head (.settings (Settled.expireIfDue now target s)) ?_
  dsimp only
  split
  · exact .refl
  · split
    · split
      · exact .refl
      · exact .single (.dropChan target)
    · split
      · exact .refl
      · split
        · exact .single (.settings (.modifyChan _ target fun _ => rfl))
        · exact .single (.dropChan target)

theorem eChanservExpirechan_moves (inUse : CString → Bool) :
    Moves conf Given Broken s (s.eChanservExpirechan conf now inUse) :=
  foldl_moves (fun _ => True) trivial fun _ _ target _ =>
    ⟨expireChan_moves inUse target, trivial⟩

end Channels

section Accounts

variable {conf : ServConfig} {Given : CString → Prop} {Broken : Prop}
  {r s t : Regs} {now : Int} {client : ClientId}
  {account : UserRegId}

theorem noteLogin_settled {chname : CString}
    (returned : noteLogin now account s chname = .ok t) : Settled s t := by
  unfold noteLogin at returned
  split at returned
  · cases returned
    exact .refl s
  rename_i target found
  have expired := Settled.expireIfDue now target s
  dsimp only at returned
  split at returned
  · cases returned
    exact expired
  obtain ⟨hit, looked, rest⟩ := Except.bind_eq_ok.mp returned
  split at rest
  · cases rest
    exact expired
  · split at rest
    · cases rest
      exact expired
    · cases rest
      exact expired.trans (.touchChan now target _)

theorem hChanservUserLogin_settled {channels : List CString}
    (returned : s.hChanservUserLogin now account channels = .ok t) :
    Settled s t := by
  have kept : Ensures (Settled s) (s.hChanservUserLogin now account
      channels) := by
    refine Outcome.foldlM (Settled s) (.refl s) fun r settled chname _ => ?_
    exact Ensures.intro fun after noted =>
      settled.trans (noteLogin_settled noted)
  exact kept.of_ok returned

theorem insertUser_eq_ok {name : CString}
    (returned : s.insertUser name = .ok t) :
    name ∉ s.users ∧ t = { s with users := s.users ++ [name] } := by
  unfold insertUser at returned
  split at returned
  · cases returned
  · rename_i new
    exact ⟨new, (Except.ok.inj returned).symm⟩

theorem strlcpy_of_le {size : Nat} {text : CString}
    (short : text.length ≤ size) : strlcpy (size + 1) text = text :=
  List.take_of_length_le short

theorem validUsername_length {name : CString}
    (valid : validUsername conf name = true) :
    name.length ≤ conf.userRegNameLen := by
  unfold validUsername at valid
  simp only [Bool.and_eq_true, decide_eq_true_eq] at valid
  exact valid.1.1

theorem sUserRegister_moves {name : Token} {permitted : Bool}
    {channels : List CString}
    (valid : ∀ name, validUsername conf name = true → Given name)
    (returned : s.sUserRegister conf now client name permitted channels =
      .ok t) : Moves conf Given Broken s t := by
  unfold sUserRegister at returned
  split at returned
  · cases returned
    exact .refl
  rename_i out
  rw [not_not] at out
  split at returned
  · cases returned
    exact .refl
  rename_i new
  split at returned
  · cases returned
    exact .refl
  rename_i fits
  have good : validUsername conf name.text = true := by
    simp only [Bool.or_eq_true, Bool.not_eq_true', not_or] at fits
    simpa using fits.1
  have free : s.findUserReg name.text = none := by simpa using new
  dsimp only at returned
  generalize chosen : (if conf.uregisterVerify = true then
    Word.ofBits [usFlagsNeverloggedin] else 0#32) = flags at returned
  obtain ⟨middle, inserted, rest⟩ := Except.bind_eq_ok.mp returned
  obtain ⟨unique, rfl⟩ := insertUser_eq_ok inserted
  refine .head (.newUser
    { name := name.text
      given := name.text
      flags := flags
      regTime := now
      lastTime := now } (valid _ good) name.nonempty free
    (strlcpy_of_le (validUsername_length good)).symm unique rfl rfl) ?_
  split at rest
  · cases rest
    exact .refl
  rename_i unverified
  refine .head (.link client s.user.next _ out (Heap.alloc_cell_next _ _) ?_)
    (.single (.settings (hChanservUserLogin_settled rest)))
  right
  rw [if_neg unverified] at chosen
  simp [UserReg.blocked, ← chosen]

theorem oUserUserregister_moves {name : Token} {permitted : Bool}
    (valid : ∀ name, validUsername conf name = true → Given name)
    (returned : s.oUserUserregister conf now name permitted = .ok t) :
    Moves conf Given Broken s t := by
  unfold oUserUserregister at returned
  split at returned
  · cases returned
    exact .refl
  rename_i new
  split at returned
  · cases returned
    exact .refl
  rename_i fits
  have good : validUsername conf name.text = true := by
    simp only [Bool.or_eq_true, Bool.not_eq_true', not_or] at fits
    simpa using fits.1
  have free : s.findUserReg name.text = none := by simpa using new
  obtain ⟨unique, rfl⟩ := insertUser_eq_ok returned
  exact .single (.newUser _ (valid _ good) name.nonempty free rfl unique rfl
    rfl)

theorem dbhUserRegister_moves {name password : CString}
    (given : name ≠ [] → password ≠ [] → Given name)
    (returned : s.dbhUserRegister conf now name password = .ok t) :
    Moves conf Given Broken s t := by
  unfold dbhUserRegister at returned
  split at returned
  · cases returned
    exact .refl
  rename_i some_
  split at returned
  · cases returned
    exact .refl
  rename_i new
  simp only [Bool.or_eq_true, List.isEmpty_iff, not_or] at some_
  have free : s.findUserReg name = none := by simpa using new
  obtain ⟨unique, rfl⟩ := insertUser_eq_ok returned
  exact .single
    (.newUser _ (given some_.1 some_.2) some_.1 free rfl unique rfl rfl)

theorem sUserActivate_settled (name : CString) (tokenRight : Bool) :
    Settled s (s.sUserActivate client name tokenRight) := by
  unfold sUserActivate
  split
  · exact .refl s
  split
  · exact .refl s
  split
  · refine .modifyUser s _ (fun _ => rfl) (fun _ => ⟨rfl, rfl⟩)
      fun reg blocked => ?_
    simp only [UserReg.blocked, Word.has_clear, usFlagsSuspended,
      usFlagsNeverloggedin] at blocked ⊢
    simpa using Or.inl (by simpa using blocked)
  · exact .refl s

theorem setNoaccess_moves {on : Bool}
    (returned : s.sUserSetNoaccess now client on = .ok t) :
    Moves conf Given Broken s t := by
  obtain rfl | ⟨account, reg, login, found, rest⟩ := asUser_eq_ok returned
  · exact .refl
  cases rest
  refine .single (.settings ((Settled.touchUser now account s).trans ?_))
  refine .modifyUser _ account (fun _ => rfl) (fun _ => ⟨rfl, rfl⟩)
    fun reg blocked => ?_
  cases on <;>
    simpa [UserReg.blocked, usFlagsNoaccess, usFlagsSuspended,
      usFlagsNeverloggedin] using blocked

/-! Logins. -/

theorem SameLogin.opened (same : SameLogin s t) {u : UserRegId}
    {old new : UserReg} (before : s.user.cell u = some old)
    (opened : old.blocked = false)
    (after : t.user.cell u = some new) : new.blocked = false := by
  obtain ⟨reg, found, -, -, blocked⟩ := same.user u new after
  rw [before, Option.some.injEq] at found
  subst found
  by_contra closed
  rw [Bool.not_eq_false] at closed
  rw [blocked closed] at opened
  cases opened

theorem sUserLogin_moves {name : CString} {passwordRight : Bool}
    {channels : List CString}
    (returned : s.sUserLogin conf now client name passwordRight channels =
      .ok t) : Moves conf Given Broken s t := by
  unfold sUserLogin at returned
  split at returned
  · cases returned
    exact .refl
  rename_i out
  rw [not_not] at out
  split at returned
  · cases returned
    exact .refl
  rename_i account named
  obtain ⟨reg, found, rest⟩ := Except.bind_eq_ok.mp returned
  have cell := derefUser_eq_ok.mp found
  split at rest
  · cases rest
    exact .refl
  dsimp only at rest
  -- the state in which the suspension has run out
  have ready : ∃ r, r = (if reg.flags.has usFlagsSuspended = true then
        s.expireUserSuspend now account else s) ∧ Settled s r ∧
      ∃ new, r.user.cell account = some new ∧
        (reg.flags.has usFlagsNeverloggedin = false →
          new.blocked = false) := by
    by_cases suspended : reg.flags.has usFlagsSuspended = true
    · refine ⟨_, (if_pos suspended).symm,
        Settled.expireUserSuspend now account s, _,
        Heap.modify_of_cell cell, fun never => ?_⟩
      simp [UserReg.blocked, never]
    · refine ⟨_, (if_neg suspended).symm, .refl s, reg, cell, fun never => ?_⟩
      simp [UserReg.blocked, never, suspended]
  obtain ⟨r, same, settled, new, there, opened⟩ := ready
  rw [← same] at rest
  refine .head (.settings settled) ?_
  split at rest
  · cases rest
    exact .refl
  rename_i activated
  split at rest
  · cases rest
    exact .refl
  split at rest
  · cases rest
    exact .refl
  have touched := Settled.touchUser now account r
  refine .head (.settings touched) (.head (.link client account _ ?_
    (Heap.modify_of_cell there) (Or.inr ?_))
    (.single (.settings (hChanservUserLogin_settled rest))))
  · rw [touched.logins.login, settled.logins.login, out]
  · exact touched.logins.opened there
      (opened (Bool.eq_false_iff.mpr activated)) (Heap.modify_of_cell there)

theorem unlinkUser_eq_ok (returned : s.unlinkUser client account = .ok t) :
    t = s.modifyUser account fun reg =>
      { reg with users := Dlink.findDestroy client reg.users } := by
  obtain ⟨reg, -, rest⟩ := Except.bind_eq_ok.mp returned
  exact (Except.ok.inj rest).symm

theorem loginOf_eq_some :
    s.loginOf client = some account ↔
      s.login client = some (some account) := by
  unfold loginOf
  exact Option.join_eq_some_iff

theorem sUserLogout_moves (returned : s.sUserLogout now client = .ok t) :
    Moves conf Given Broken s t := by
  obtain rfl | ⟨account, reg, login, found, rest⟩ := asUser_eq_ok returned
  · exact .refl
  obtain ⟨middle, unlinked, rest⟩ := Except.bind_eq_ok.mp rest
  cases unlinkUser_eq_ok unlinked
  cases rest
  have touched := Settled.touchUser now account s
  refine .head (.settings touched) (.single (.leave client account ?_))
  rw [touched.logins.login]
  exact loginOf_eq_some.mp login

theorem linkUser_setLogin (s : Regs) (client : ClientId)
    (old : Option UserRegId) (account : UserRegId) :
    (s.setLogin client old).linkUser client account =
      s.linkUser client account := by
  unfold linkUser setLogin
  rw [Function.update_idem]

def burstSafe (s : Regs) (client : ClientId) (name : CString) (eob : Bool) :
    Bool :=
  eob || s.login client == none ||
    match (s.findUserReg name).bind s.user.cell with
    | none => true
    | some reg =>
        if reg.flags.has usFlagsSuspended then (s.loginOf client).isNone
        else !reg.flags.has usFlagsNeverloggedin

theorem burst_rest (rest : (s.derefUser account >>= fun reg =>
      if reg.flags.has usFlagsSuspended = true then .ok s
      else .ok ((s.touchUser now account).linkUser client account)) = .ok t) :
    ∃ reg, s.user.cell account = some reg ∧
      (reg.flags.has usFlagsSuspended = true ∧ t = s ∨
        reg.flags.has usFlagsSuspended = false ∧
        t = (s.touchUser now account).linkUser client account) := by
  obtain ⟨reg, found, rest⟩ := Except.bind_eq_ok.mp rest
  refine ⟨reg, derefUser_eq_ok.mp found, ?_⟩
  split at rest
  · rename_i suspended
    exact Or.inl ⟨suspended, (Except.ok.inj rest).symm⟩
  · rename_i suspended
    exact Or.inr ⟨Bool.eq_false_iff.mpr suspended, (Except.ok.inj rest).symm⟩

theorem burst_link {reg : UserReg} (out : s.login client = some none)
    (found : s.user.cell account = some reg)
    (opened : Broken ∨ reg.blocked = false) :
    Moves conf Given Broken s
      ((s.touchUser now account).linkUser client account) := by
  have touched := Settled.touchUser now account s
  refine .head (.settings touched) (.single (.link client account _ ?_
    (Heap.modify_of_cell found) (opened.imp_right fun opened => ?_)))
  · rw [touched.logins.login, out]
  · exact touched.logins.opened found opened (Heap.modify_of_cell found)

theorem hUserBurstLogin_moves {name : CString} {eob : Bool}
    (safe : Broken ∨ s.burstSafe client name eob = true)
    (returned : s.hUserBurstLogin now client name eob = .ok t) :
    Moves conf Given Broken s t := by
  unfold hUserBurstLogin at returned
  split at returned
  · cases returned
    exact .refl
  rename_i old known
  split at returned
  · cases returned
    exact .refl
  rename_i bursting
  split at returned
  · cases returned
    exact .refl
  rename_i account named
  have target {reg : UserReg} (there : s.user.cell account = some reg) :
      Broken ∨ if reg.flags.has usFlagsSuspended = true then old = none
        else reg.flags.has usFlagsNeverloggedin = false := by
    refine safe.imp_right fun safe => ?_
    unfold burstSafe at safe
    simp only [bursting, known, named, Option.bind_some, there] at safe
    split
    · rename_i suspended
      simpa [suspended, loginOf, known] using safe
    · rename_i suspended
      simpa [suspended] using safe
  have opened {reg : UserReg} (there : s.user.cell account = some reg)
      (active : reg.flags.has usFlagsSuspended = false) :
      Broken ∨ reg.blocked = false := by
    refine (target there).imp_right fun never => ?_
    simp only [active, Bool.false_eq_true, if_false] at never
    simp [UserReg.blocked, active, never]
  cases old with
  | none =>
      obtain ⟨reg, there, ⟨-, rfl⟩ | ⟨active, rfl⟩⟩ := burst_rest returned
      · exact .refl
      · exact burst_link known there (opened there active)
  | some before =>
      -- the user leaves the list first, and `user_reg` is not cleared
      obtain ⟨middle, left, rest⟩ := Except.bind_eq_ok.mp returned
      cases unlinkUser_eq_ok left
      obtain ⟨reg, found, outcome⟩ := burst_rest rest
      obtain ⟨first, there, changed⟩ := Heap.cell_of_modify found
      have flags : reg.flags = first.flags := by
        rw [changed]
        split
        · rfl
        · rfl
      obtain ⟨suspended, rfl⟩ | ⟨active, rfl⟩ := outcome
      · obtain broken | impossible := target there
        · exact .single (.torn (.modifyUser s before fun _ => rfl) broken)
        · rw [flags] at suspended
          rw [if_pos suspended] at impossible
          cases impossible
      · refine .head (.leave client before known) ?_
        have relinked : Moves conf Given Broken
            ((s.modifyUser before fun reg =>
              { reg with
                users := Dlink.findDestroy client reg.users }).setLogin client
                  none)
            ((((s.modifyUser before fun reg =>
              { reg with
                users := Dlink.findDestroy client reg.users }).touchUser now
                  account).setLogin client none).linkUser client account) := by
          refine burst_link ?_ found ?_
          · simp [setLogin]
          · rw [flags] at active
            have same : reg.blocked = first.blocked := by
              unfold UserReg.blocked
              rw [flags]
            rw [same]
            exact opened there active
        rwa [linkUser_setLogin] at relinked

theorem exitUser_moves (returned : s.exitUser client = .ok t) :
    Moves conf Given Broken s t := by
  unfold exitUser at returned
  dsimp only at returned
  split at returned
  · rename_i out
    cases returned
    exact .single (.exit client out)
  · rename_i account login
    obtain ⟨middle, left, rest⟩ := Except.bind_eq_ok.mp returned
    cases unlinkUser_eq_ok left
    cases rest
    let out := (s.modifyUser account fun reg =>
        { reg with users := Dlink.findDestroy client reg.users }).setLogin
          client none
    have idle : out.loginOf client = none := by
      simp [out, loginOf, setLogin]
    have last : Move conf Given Broken out
        { out with login := Function.update out.login client none } :=
      .exit client idle
    refine .head (.leave client account (loginOf_eq_some.mp login))
      (.single ?_)
    simpa [out, setLogin, Function.update_idem] using last

theorem logoutUserReg_users {reg : UserReg}
    (found : (s.logoutUserReg account).user.cell account = some reg) :
    reg.users = [] := by
  unfold logoutUserReg at found
  split at found
  · rename_i free
    rw [free] at found
    cases found
  · obtain ⟨old, -, changed⟩ := Heap.cell_of_modify found
    rw [changed, if_pos rfl]

theorem oUserUsersuspend_moves (duration : Int) (name : CString)
    (reasonGiven : Bool) :
    Moves conf Given Broken s
      (s.oUserUsersuspend now duration name reasonGiven) := by
  unfold oUserUsersuspend
  split
  · exact .refl
  rename_i account named
  split
  · exact .refl
  rename_i reg found
  split
  · exact .refl
  have expired : Settled s (if reg.flags.has usFlagsSuspended = true then
      s.expireUserSuspend now account else s) := by
    split
    · exact .expireUserSuspend now account s
    · exact .refl s
  dsimp only
  generalize (if reg.flags.has usFlagsSuspended = true then
    s.expireUserSuspend now account else s) = r at expired ⊢
  refine .head (.settings expired) ?_
  split
  · exact .refl
  · exact .head (.logout account) (.single (.block account _
      (fun _ => logoutUserReg_users) (fun _ => rfl) fun _ => rfl))

theorem oUserUserunsuspend_settled (name : CString) :
    Settled s (s.oUserUserunsuspend now name) := by
  unfold oUserUserunsuspend
  split
  · exact .refl s
  refine .modifyUser s _ (fun reg => ?_) (fun reg => ?_) fun reg blocked => ?_
  · split
    · rfl
    · rfl
  · split
    · exact ⟨rfl, rfl⟩
    · exact ⟨rfl, rfl⟩
  · split at blocked
    · rename_i suspended
      simp [UserReg.blocked, suspended]
    · exact blocked

theorem oUserUserdrop_moves (name : CString) :
    Moves conf Given Broken s (s.oUserUserdrop conf name) := by
  unfold oUserUserdrop
  split
  · exact .refl
  rename_i account named
  refine .head (.logout account) ?_
  cases found : (s.logoutUserReg account).user.cell account with
  | none =>
      unfold freeUserReg
      rw [found]
  | some reg =>
      exact .single (.dropUser account reg found
        (Or.inr (Or.inl (logoutUserReg_users found))))

/-! Expiry. -/

theorem SameLogin.freeUserReg (s : Regs) (account : UserRegId) :
    SameLogin s (s.freeUserReg conf account) := by
  unfold Regs.freeUserReg
  split
  · exact .refl s
  rename_i reg found
  have same := SameAccounts.freeMembers conf
    (({ s with userTable := Dlink.delete account s.userTable } :
      Regs).deleteMembers fun row => row.username == reg.name) true reg.channels
  have kept := SameLogin.of_core same.login same.core
  refine ⟨same.login, fun u new after => ?_⟩
  dsimp only at after
  rw [Heap.free_cell] at after
  split at after
  · cases after
  · exact kept.user u new after

def lasting (conf : ServConfig) (now : Int) (reg : UserReg) : Bool :=
  reg.users.isEmpty ||
    decide (0 < conf.uexpireTime + expireBonus conf (now - reg.regTime))

def Kept (conf : ServConfig) (now : Int) (s : Regs) (account : UserRegId) :
    Prop :=
  ∀ reg, s.user.cell account = some reg →
    reg.users = [] ∨ reg.blocked = false ∧ lasting conf now reg = true

theorem Kept.same (kept : Kept conf now s account) (same : SameLogin s t) :
    Kept conf now t account := by
  intro new found
  obtain ⟨old, before, users, regTime, blocked⟩ := same.user account new found
  rw [users]
  refine (kept old before).imp_right fun ⟨opened, lasts⟩ => ⟨?_, ?_⟩
  · exact same.opened before opened found
  · unfold lasting at lasts ⊢
    rwa [users, regTime]

theorem keep_or_free {reg : UserReg} {keep : Prop} [Decidable keep]
    (found : s.user.cell account = some reg) (settled : Settled s t)
    (unused : ¬keep → Broken ∨ reg.users = []) :
    Moves conf Given Broken s
        (if keep then t else t.freeUserReg conf account) ∧
      SameLogin s (if keep then t else t.freeUserReg conf account) := by
  split
  · exact ⟨.single (.settings settled), settled.logins⟩
  · rename_i late
    refine ⟨.head (.settings settled) ?_,
      settled.logins.trans (.freeUserReg t account)⟩
    cases there : t.user.cell account with
    | none =>
        unfold freeUserReg
        rw [there]
    | some new =>
        obtain ⟨old, before, users, -⟩ := settled.logins.user account new there
        rw [found, Option.some.injEq] at before
        subst before
        refine .single (.dropUser account new there ?_)
        rw [users]
        exact (unused late).imp_right Or.inl

theorem expireUser_moves (safe : Broken ∨ Kept conf now s account) :
    Moves conf Given Broken s (expireUser conf now s account) ∧
      SameLogin s (expireUser conf now s account) := by
  unfold expireUser
  split
  · exact ⟨.refl, .refl s⟩
  rename_i reg found
  have blocked (closed : reg.blocked = true) : Broken ∨ reg.users = [] := by
    refine safe.imp_right fun kept => ?_
    obtain none_ | ⟨opened, -⟩ := kept reg found
    · exact none_
    · rw [closed] at opened
      cases opened
  split
  · rename_i unverified
    rw [Bool.and_eq_true] at unverified
    have never : reg.blocked = true := by
      simp [UserReg.blocked, unverified.1]
    have freed : Moves conf Given Broken s
          (if False then s else s.freeUserReg conf account) ∧
        SameLogin s (if False then s else s.freeUserReg conf account) :=
      keep_or_free found (.refl s) fun _ => blocked never
    simpa using freed
  dsimp only
  generalize last : (if reg.users.isEmpty = true then reg.lastTime else now) =
    lastTime
  have noted : Settled s (s.modifyUser account fun old =>
      { old with
        lastTime := lastTime
        flags := old.flags.clear usFlagsNeedupdate }) := by
    refine .modifyUser s account (fun _ => rfl) (fun _ => ⟨rfl, rfl⟩)
      fun old closed => ?_
    simpa [UserReg.blocked, usFlagsNeedupdate, usFlagsSuspended,
      usFlagsNeverloggedin] using closed
  split
  · rename_i suspended
    have closed : reg.blocked = true := by
      simp [UserReg.blocked, suspended]
    refine keep_or_free found ?_ fun _ => blocked closed
    split
    · exact noted.trans (.expireUserSuspend now account _)
    · exact noted
  · refine keep_or_free found noted fun late => safe.imp_right fun kept => ?_
    obtain none_ | ⟨-, lasts⟩ := kept reg found
    · exact none_
    · by_contra used
      have unempty : reg.users.isEmpty = false := by simpa using used
      simp only [lasting, unempty, Bool.false_or, decide_eq_true_eq] at lasts
      simp only [unempty, Bool.false_eq_true, if_false] at last
      omega

def expireSafe (conf : ServConfig) (now : Int) (s : Regs) : Bool :=
  s.expireWalk.all fun account =>
    match s.user.cell account with
    | none => true
    | some reg => lasting conf now reg

def Idle (s : Regs) : Prop :=
  ∀ u reg, s.user.cell u = some reg → reg.blocked = true → reg.users = []

theorem Idle.kept (idle : Idle s) (safe : s.expireSafe conf now = true)
    (walked : account ∈ s.expireWalk) : Kept conf now s account := by
  intro reg found
  have lasts := List.all_eq_true.mp safe account walked
  simp only [found] at lasts
  cases closed : reg.blocked with
  | true => exact Or.inl (idle account reg found closed)
  | false => exact Or.inr ⟨rfl, lasts⟩

theorem eUserExpire_moves
    (safe : Broken ∨ Idle s ∧ s.expireSafe conf now = true) :
    Moves conf Given Broken s (s.eUserExpire conf now) := by
  have walk : Moves conf Given Broken s
      (s.expireWalk.foldl (expireUser conf now) s) := by
    refine foldl_moves (fun r => Broken ∨ ∀ account ∈ s.expireWalk,
      Kept conf now r account) ?_ fun r kept account walked => ?_
    · exact safe.imp_right fun ⟨idle, lasts⟩ account walked =>
        idle.kept lasts walked
    · obtain ⟨moves, same⟩ := expireUser_moves
        (kept.imp_right fun kept => kept account walked)
      exact ⟨moves, kept.imp_right fun kept other later =>
        (kept other later).same same⟩
  unfold eUserExpire
  generalize s.expireWalk.foldl (expireUser conf now) s = r at walk ⊢
  refine walk.trans (.single (.settings ⟨?_, ?_⟩))
  · exact ⟨fun _ => rfl, fun _ => rfl, rfl, rfl, rfl, rfl, rfl, rfl⟩
  · exact .of_core rfl fun _ => rfl

end Accounts

def loginSafe (conf : ServConfig) (s : Regs) (event : RegEvent) : Bool :=
  match event.act with
  | .burst client name eob => s.burstSafe client name eob
  | .userExpire => s.expireSafe conf event.now
  | _ => true

/-- The names that `Given` has to cover. -/
structure Naming (conf : ServConfig) (Given : CString → Prop)
    (event : RegEvent) : Prop where
  valid : ∀ name, validUsername conf name = true → Given name
  hook : ∀ name password, event.act = .hookRegister name password →
    name ≠ [] → password ≠ [] → Given name

/-- A step that registers no account is some moves, whatever is known of
names. -/
theorem step_moves_of_plain {conf : ServConfig} {Given : CString → Prop}
    {Broken : Prop} {s t : Regs} {event : RegEvent}
    (plain : event.act.isRegister = false)
    (inv : AccessInv (fun _ => False) s)
    (safe : Broken ∨ Idle s ∧ s.loginSafe conf event = true)
    (returned : step conf s event = .ok t) : Moves conf Given Broken s t := by
  obtain ⟨now, act⟩ := event
  cases act with
  | connect client =>
      simp only [step] at returned
      split at returned
      · cases returned
        exact .refl
      · rename_i new
        cases returned
        exact .single (.connect client (by simpa using new))
  | exit client => exact exitUser_moves returned
  | burst client name eob =>
      exact hUserBurstLogin_moves (safe.imp_right And.right) returned
  | userRegister client name permitted channels => cases plain
  | operUserRegister name permitted => cases plain
  | hookRegister name password => cases plain
  | activate client name tokenRight =>
      cases returned
      exact .single (.settings (sUserActivate_settled name tokenRight))
  | login client name passwordRight channels =>
      exact sUserLogin_moves returned
  | logout client => exact sUserLogout_moves returned
  | setNoaccess client on => exact setNoaccess_moves returned
  | userSuspend duration name reasonGiven =>
      cases returned
      exact oUserUsersuspend_moves duration name reasonGiven
  | userUnsuspend name =>
      cases returned
      exact .single (.settings (oUserUserunsuspend_settled name))
  | userDrop name =>
      cases returned
      exact oUserUserdrop_moves name
  | userExpire =>
      cases returned
      exact eUserExpire_moves safe
  | chanRegister client name permitted => exact sChanRegister_moves returned
  | operChanRegister name target oper =>
      exact oChanChanregister_moves returned
  | chanSuspend duration name reasonGiven =>
      cases returned
      exact .single (.settings
        (oChanChansuspend_settled now duration name reasonGiven))
  | chanUnsuspend name =>
      cases returned
      exact .single (.settings (oChanChanunsuspend_settled now name))
  | chanDrop name =>
      cases returned
      exact oChanChandrop_moves name
  | chanExpire inUse =>
      cases returned
      exact eChanservExpirechan_moves inUse
  | adduser client chname target level auto =>
      exact sChanAdduser_moves inv returned
  | deluser client chname target => exact sChanDeluser_moves inv returned
  | delowner client chname authorised =>
      exact sChanDelowner_moves inv returned
  | moduser client chname target level => exact sChanModuser_moves inv returned
  | modauto client chname target auto => exact sChanModauto_moves inv returned
  | suspend client chname target level => exact sChanSuspend_moves inv returned
  | unsuspend client chname target => exact sChanUnsuspend_moves inv returned

theorem step_moves {conf : ServConfig} {Given : CString → Prop} {Broken : Prop}
    {s t : Regs} {event : RegEvent} (naming : Naming conf Given event)
    (inv : AccessInv (fun _ => False) s)
    (safe : Broken ∨ Idle s ∧ s.loginSafe conf event = true)
    (returned : step conf s event = .ok t) : Moves conf Given Broken s t := by
  cases plain : event.act.isRegister with
  | false => exact step_moves_of_plain plain inv safe returned
  | true =>
      obtain ⟨now, act⟩ := event
      cases act with
      | userRegister client name permitted channels =>
          exact sUserRegister_moves naming.valid returned
      | operUserRegister name permitted =>
          exact oUserUserregister_moves naming.valid returned
      | hookRegister name password =>
          exact dbhUserRegister_moves (naming.hook name password rfl) returned
      | _ => cases plain

end Regs

end RatboxServices
