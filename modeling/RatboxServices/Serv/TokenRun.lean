import RatboxServices.Serv.Token
import RatboxServices.Serv.Unverified

namespace RatboxServices

open CString

/-! Tokens are good for the account they were issued for, once, and not for
long. What was issued is read off the notes, which name accounts; the tables
name them by their names only. -/

def passPending (account : UserRegId) : List TokenNote → Option (CString × Int)
  | [] => none
  | .passIssued who token time :: rest =>
      if who = account then some (token, time) else passPending account rest
  | .passReset who :: rest =>
      if who = account then none else passPending account rest
  | _ :: rest => passPending account rest

inductive EmailStage where
  | idle
  | asked (token : CString) (time : Int) (address : CString)
  | confirmed (token : CString) (time : Int) (address : CString)
      (given : CString) (newToken : CString) (newTime : Int)
      (newAddress : CString)
  deriving DecidableEq, Repr

def EmailStage.confirm (given token : CString) (time : Int)
    (address : CString) : EmailStage → EmailStage
  | .asked first when old => .confirmed first when old given token time address
  | other => other

def emailStage (account : UserRegId) : List TokenNote → EmailStage
  | [] => .idle
  | .emailIssued who token time address :: rest =>
      if who = account then .asked token time address
      else emailStage account rest
  | .emailConfirmed who given token time address :: rest =>
      if who = account then
        (emailStage account rest).confirm given token time address
      else emailStage account rest
  | .emailReset who :: rest =>
      if who = account then .idle else emailStage account rest
  | _ :: rest => emailStage account rest

def TokenNote.account : TokenNote → UserRegId
  | .verifyIssued account _ => account
  | .passIssued account _ _ => account
  | .passReset account => account
  | .emailIssued account _ _ _ => account
  | .emailConfirmed account _ _ _ _ => account
  | .emailReset account => account

theorem passPending_other {account : UserRegId} (note : TokenNote)
    (other : note.account ≠ account) (notes : List TokenNote) :
    passPending account (note :: notes) = passPending account notes := by
  cases note <;> simp_all [passPending, TokenNote.account]

theorem emailStage_other {account : UserRegId} (note : TokenNote)
    (other : note.account ≠ account) (notes : List TokenNote) :
    emailStage account (note :: notes) = emailStage account notes := by
  cases note <;> simp_all [emailStage, TokenNote.account]

theorem recent_of_timeSince {now time duration : Int}
    (clock : 0 ≤ now ∧ now ≤ longMax) (stamp : 0 ≤ time ∧ time ≤ longMax)
    (isInt : -2147483648 ≤ duration ∧ duration < 2147483648)
    (young : timeSince now duration < time) : now - time < duration := by
  unfold timeSince at young
  unfold longMax at clock stamp
  omega

namespace TokenState

variable {conf : ServConfig} {tokenConf : TokenConfig} {s t : TokenState}
  {event : TokenEvent} {account : UserRegId} {reg : UserReg} {regs : Regs}

inductive Does (conf : ServConfig) (tokenConf : TokenConfig) (s : TokenState)
    (event : TokenEvent) : TokenState → Prop where
  | accounts (act : RegAct) (regs : Regs) (given : NewUser)
      (other : act.isActivate = false)
      (stepped : s.regs.step conf { now := event.now, act := act } =
        .ok regs) :
      Does conf tokenConf s event (s.follow regs given)
  | nothing : Does conf tokenConf s event s
  | activate (client : ClientId) (name given : CString) (account : UserRegId)
      (reg : UserReg) (asked : event.act = .activate client name given)
      (found : s.regs.user.cell account = some reg)
      (some_ : given ≠ []) (token : (reg.name, given) ∈ s.verify) :
      Does conf tokenConf s event
        { s with
          regs := s.regs.modifyUser account fun reg =>
            { reg with flags := reg.flags.clear usFlagsNeverloggedin } }
  | askPass (account : UserRegId) (reg : UserReg) (token : CString)
      (found : s.regs.user.cell account = some reg) :
      Does conf tokenConf s event
        { s with
          resetpass :=
            (s.resetpass.filter fun row => row.username != reg.name) ++
              [{ username := reg.name, token := token, time := event.now }]
          notes := .passIssued account token event.now :: s.notes }
  | resetPass (client : ClientId) (name given new : CString)
      (account : UserRegId) (reg : UserReg) (password : CString)
      (row : ResetpassRow)
      (asked : event.act = .resetpass client name given new)
      (found : s.regs.user.cell account = some reg)
      (there : row ∈ s.resetpass) (named : row.username = reg.name)
      (young : timeSince event.now tokenConf.uresetpassDuration < row.time)
      (token : row.token = given) :
      Does conf tokenConf s event
        { s with
          resetpass := s.resetpass.filter fun row => row.username != reg.name
          password := Function.update s.password account password
          notes := .passReset account :: s.notes }
  | askEmail (account : UserRegId) (reg : UserReg) (token : CString)
      (found : s.regs.user.cell account = some reg) :
      Does conf tokenConf s event
        { s with
          resetemail :=
            (s.resetemail.filter fun row => row.username != reg.name) ++
              [{ username := reg.name
                 token := token
                 email := none
                 time := event.now }]
          notes := .emailIssued account token event.now (s.email account) ::
            s.notes }
  | confirmEmail (account : UserRegId) (reg : UserReg)
      (given token address : CString) (row : ResetemailRow)
      (found : s.regs.user.cell account = some reg)
      (there : row ∈ s.resetemail) (named : row.username = reg.name)
      (young : timeSince event.now tokenConf.uresetemailDuration < row.time)
      (email : row.email = none) (right : row.token = given) :
      Does conf tokenConf s event
        { s with
          resetemail :=
            (s.resetemail.filter fun row => row.username != reg.name) ++
              [{ username := reg.name
                 token := token
                 email := some address
                 time := event.now }]
          notes := .emailConfirmed account given token event.now address ::
            s.notes }
  | resetEmail (client : ClientId) (parv : List CString) (account : UserRegId)
      (reg : UserReg) (address : CString) (row : ResetemailRow)
      (asked : event.act = .resetemail client parv)
      (login : s.regs.login client = some (some account))
      (found : s.regs.user.cell account = some reg)
      (there : row ∈ s.resetemail) (named : row.username = reg.name)
      (young : timeSince event.now tokenConf.uresetemailDuration < row.time)
      (email : row.email = some address)
      (right : row.token = parv.getD 1 []) :
      Does conf tokenConf s event
        { s with
          resetemail := s.resetemail.filter fun row => row.username != reg.name
          email := Function.update s.email account address
          notes := .emailReset account :: s.notes }
  | expire (pass : ResetpassRow → Bool) (email : ResetemailRow → Bool) :
      Does conf tokenConf s event
        { s with
          resetpass := s.resetpass.filter pass
          resetemail := s.resetemail.filter email }

structure UpToDate (s t : Regs) : Prop where
  access : Regs.SameAccess s t
  login : t.login = s.login
  unverified : Regs.StaysUnverified s t

theorem UpToDate.refl (s : Regs) : UpToDate s s :=
  ⟨.refl s, rfl, .refl s⟩

theorem userName_of_cell (found : regs.user.cell account = some reg) :
    regs.userName account = reg.name := by
  unfold Regs.userName
  rw [found]

theorem askResetpass_does {chance : TokenChance}
    (found : s.regs.user.cell account = some reg) :
    Does conf tokenConf s event
      (s.askResetpass tokenConf event.now account chance) := by
  unfold askResetpass
  rw [userName_of_cell found]
  dsimp only
  split
  · exact .nothing
  split
  · exact .nothing
  split
  · exact .nothing
  · exact .askPass account reg chance.token found

theorem authResetpass_does {client : ClientId} {name given new : CString}
    {chance : TokenChance}
    (asked : event.act = .resetpass client name given new)
    (found : s.regs.user.cell account = some reg) :
    Does conf tokenConf s event
      (s.authResetpass tokenConf event.now account given new chance) := by
  unfold authResetpass
  rw [userName_of_cell found]
  dsimp only
  split
  · exact .nothing
  split
  · exact .nothing
  rename_i row hit
  split
  · rename_i right
    have passed := List.find?_some hit
    rw [Bool.and_eq_true, beq_iff_eq, decide_eq_true_eq] at passed
    exact .resetPass client name given new account reg chance.password row
      asked found (List.mem_of_find?_eq_some hit) passed.1 passed.2
      (eq_of_beq right)
  · exact .nothing

theorem askResetemail_does {chance : TokenChance}
    (found : s.regs.user.cell account = some reg) :
    Does conf tokenConf s event
      (s.askResetemail tokenConf event.now account chance) := by
  unfold askResetemail
  rw [userName_of_cell found]
  dsimp only
  split
  · exact .nothing
  split
  · exact .nothing
  · exact .askEmail account reg chance.token found

theorem confirmResetemail_does {given address : CString} {chance : TokenChance}
    (found : s.regs.user.cell account = some reg) :
    Does conf tokenConf s event
      (s.confirmResetemail tokenConf event.now account given address
        chance) := by
  unfold confirmResetemail
  rw [userName_of_cell found]
  dsimp only
  split
  · exact .nothing
  split
  · exact .nothing
  rename_i row hit
  split
  · rename_i right
    have passed := List.find?_some hit
    rw [Bool.and_eq_true, Bool.and_eq_true, beq_iff_eq, decide_eq_true_eq,
      Option.isNone_iff_eq_none] at passed
    rw [Bool.and_eq_true, beq_iff_eq] at right
    exact .confirmEmail account reg given chance.token address row found
      (List.mem_of_find?_eq_some hit) passed.1.1 passed.2 passed.1.2 right.1
  · exact .nothing

theorem authResetemail_does {client : ClientId} {option : CString}
    {rest : List CString}
    (asked : event.act = .resetemail client (option :: rest))
    (login : s.regs.login client = some (some account))
    (found : s.regs.user.cell account = some reg) :
    Does conf tokenConf s event
      (s.authResetemail tokenConf event.now account (rest.getD 0 [])) := by
  unfold authResetemail
  rw [userName_of_cell found]
  dsimp only
  split
  · exact .nothing
  split
  · exact .nothing
  rename_i row hit
  split
  · rename_i right
    have passed := List.find?_some hit
    rw [Bool.and_eq_true, Bool.and_eq_true, beq_iff_eq, decide_eq_true_eq,
      Option.isSome_iff_exists] at passed
    obtain ⟨⟨named, address, email⟩, young⟩ := passed
    rw [email]
    exact .resetEmail client (option :: rest) account reg address row asked
      login found (List.mem_of_find?_eq_some hit) named young email
      (eq_of_beq right)
  · exact .nothing

theorem cell_of_findUserReg {name : CString}
    (named : regs.findUserReg name = some account) :
    ∃ reg, regs.user.cell account = some reg := by
  have hit := List.find?_some named
  unfold Regs.userNamed at hit
  split at hit
  · rename_i reg found
    exact ⟨reg, found⟩
  · cases hit

theorem sUserActivate_does {client : ClientId} {name given : CString}
    (asked : event.act = .activate client name given) :
    Does conf tokenConf s event (s.sUserActivate client name given) := by
  unfold sUserActivate Regs.sUserActivate
  cases named : s.regs.findUserReg name with
  | none =>
      dsimp only
      split
      · exact .nothing
      · exact .nothing
  | some account =>
      obtain ⟨reg, found⟩ := cell_of_findUserReg named
      dsimp only
      rw [userName_of_cell found]
      split
      · exact .nothing
      cases hit : s.verify.find? fun row => row.1 == reg.name with
      | none => exact .nothing
      | some row =>
          have passed := List.find?_some hit
          have owner : row.1 = reg.name := eq_of_beq passed
          dsimp only [Option.map_some]
          split
          · rename_i right
            rw [Bool.and_eq_true, beq_iff_eq] at right
            obtain ⟨some_, rfl⟩ := right
            refine .activate client name row.2 account reg asked found
              (by simpa using some_) ?_
            rw [← owner]
            exact List.mem_of_find?_eq_some hit
          · exact .nothing

theorem step_does (returned : s.step conf tokenConf event = .ok t) :
    ∃ regs, UpToDate s.regs regs ∧
      Does conf tokenConf { s with regs := regs } event t := by
  cases asked : event.act with
  | account act other email =>
      simp only [step, asked] at returned
      obtain ⟨regs, stepped, rest⟩ := Except.bind_eq_ok.mp returned
      cases rest
      exact ⟨s.regs, .refl _, .accounts act regs _ other stepped⟩
  | activate client name given =>
      simp only [step, asked, Except.ok.injEq] at returned
      subst returned
      exact ⟨s.regs, .refl _, sUserActivate_does asked⟩
  | resetpass client name given new =>
      simp only [step, asked, sUserResetpass] at returned
      split at returned
      · cases returned
        exact ⟨_, .refl _, .nothing⟩
      split at returned
      · cases returned
        exact ⟨_, .refl _, .nothing⟩
      split at returned
      · cases returned
        exact ⟨_, .refl _, .nothing⟩
      rename_i account named
      obtain ⟨reg, found, rest⟩ := Except.bind_eq_ok.mp returned
      have cell := Regs.derefUser_eq_ok.mp found
      split at rest
      · cases rest
        exact ⟨_, .refl _, .nothing⟩
      split at rest
      · cases rest
        exact ⟨_, .refl _, .nothing⟩
      have lifted : UpToDate s.regs (if reg.flags.has usFlagsSuspended then
          s.regs.expireUserSuspend event.now account else s.regs) := by
        split
        · have settled :=
            Regs.Settled.expireUserSuspend event.now account s.regs
          exact ⟨settled.access, settled.logins.login,
            .expireUserSuspend event.now account s.regs⟩
        · exact .refl _
      generalize (if reg.flags.has usFlagsSuspended = true then
        s.regs.expireUserSuspend event.now account else s.regs) = regs
        at lifted rest
      obtain ⟨new, there, -⟩ := lifted.access.sameNames.symm.cell cell
      refine ⟨regs, lifted, ?_⟩
      split at rest
      · cases rest
        exact askResetpass_does there
      · cases rest
        exact authResetpass_does asked there
  | resetemail client parv =>
      simp only [step, asked, sUserResetemail] at returned
      split at returned
      · cases returned
        exact ⟨_, .refl _, .nothing⟩
      rename_i account login
      obtain ⟨reg, found, rest⟩ := Except.bind_eq_ok.mp returned
      have cell := Regs.derefUser_eq_ok.mp found
      have settled := Regs.Settled.touchUser event.now account s.regs
      have touched : UpToDate s.regs (s.regs.touchUser event.now account) :=
        ⟨settled.access, settled.logins.login,
          .touchUser event.now account s.regs⟩
      obtain ⟨new, there, -⟩ := touched.access.sameNames.symm.cell cell
      have inside : (s.regs.touchUser event.now account).login client =
          some (some account) := by
        rw [touched.login]
        exact Regs.loginOf_eq_some.mp login
      refine ⟨_, touched, ?_⟩
      split at rest
      · cases rest
        exact .nothing
      split at rest
      · cases rest
        exact .nothing
      split at rest
      · cases rest
        exact .nothing
      split at rest
      · cases rest
        exact askResetemail_does there
      split at rest
      · cases rest
        exact confirmResetemail_does there
      split at rest
      · cases rest
        exact authResetemail_does asked inside there
      · cases rest
        exact .nothing
  | expireReset =>
      simp only [step, asked, Except.ok.injEq] at returned
      subst returned
      exact ⟨s.regs, .refl _, .expire _ _⟩

def Held (regs : Regs) (name : CString) (P : UserRegId → Prop) : Prop :=
  ∃ account reg, regs.user.cell account = some reg ∧ reg.name = name ∧
    P account

section Held

variable {regs regs' : Regs} {name : CString} {P Q : UserRegId → Prop}

theorem Held.mono (held : Held regs name P)
    (imp : ∀ account reg, regs.user.cell account = some reg →
      reg.name = name → P account → Q account) : Held regs name Q := by
  obtain ⟨account, reg, found, named, holds⟩ := held
  exact ⟨account, reg, found, named, imp account reg found named holds⟩

theorem Held.same (held : Held regs name P)
    (same : Regs.SameNames regs regs') : Held regs' name P := by
  obtain ⟨account, reg, found, named, holds⟩ := held
  obtain ⟨new, there, equal, -⟩ := same.symm.cell found
  exact ⟨account, new, there, equal.trans named, holds⟩

theorem Held.register (held : Held regs name P) (reg : UserReg) :
    Held (regs.withUser reg) name P := by
  obtain ⟨account, old, found, named, holds⟩ := held
  exact ⟨account, old, Heap.alloc_cell_of_used found, named, holds⟩

theorem Held.leave (held : Held regs name P) (sound : Regs.Sound regs)
    (listed : Regs.Listed regs') (leave : Regs.OnlyLeave regs regs')
    (there : name ∈ regs'.users) : Held regs' name P := by
  obtain ⟨account, reg, found, named, holds⟩ := held
  obtain ⟨u, new, after, named'⟩ := listed name there
  obtain ⟨old, before, equal⟩ := leave.stays u new after
  have same : u = account := sound.accounts.unique u account old reg before
    found ((equal.trans named').trans named.symm)
  subst same
  exact ⟨u, new, after, named', holds⟩

theorem Held.known (held : Held regs name P) (sound : Regs.Sound regs) :
    name ∈ regs.users := by
  obtain ⟨account, reg, found, rfl, -⟩ := held
  exact sound.accounts.known account reg found

theorem Held.at (held : Held regs name P) (sound : Regs.Sound regs)
    (found : regs.user.cell account = some reg) (named : name = reg.name) :
    P account := by
  obtain ⟨other, reg', found', named', holds⟩ := held
  rw [sound.accounts.unique account other reg reg' found found'
    (named.symm.trans named'.symm)]
  exact holds

theorem Held.other (held : Held regs name P)
    (found : regs.user.cell account = some reg) (different : name ≠ reg.name) :
    Held regs name fun other => account ≠ other ∧ P other := by
  refine held.mono fun other reg' found' named holds => ⟨?_, holds⟩
  rintro rfl
  rw [found, Option.some.injEq] at found'
  exact different (by rw [← named, found'])

end Held

/-- A time that `rb_time` gives. -/
def IsTime (time : Int) : Prop :=
  0 ≤ time ∧ time ≤ longMax

/-- What a row of `users_resetemail` says of the account it is for. -/
def Filed (tokenConf : TokenConfig) (s : TokenState) (row : ResetemailRow)
    (account : UserRegId) : Prop :=
  match row.email with
  | none => emailStage account s.notes =
      .asked row.token row.time (s.email account)
  | some address => ∃ token time,
      emailStage account s.notes =
        .confirmed token time (s.email account) token row.token row.time
          address ∧
      row.time - time < tokenConf.uresetemailDuration

structure Inv (tokenConf : TokenConfig) (s : TokenState) : Prop where
  sound : Regs.Sound s.regs
  listed : Regs.Listed s.regs
  verify : ∀ row ∈ s.verify, Held s.regs row.1 fun account =>
    .verifyIssued account row.2 ∈ s.notes
  pass : ∀ row ∈ s.resetpass, IsTime row.time ∧
    Held s.regs row.username fun account =>
      passPending account s.notes = some (row.token, row.time)
  passKeys : (s.resetpass.map ResetpassRow.username).Nodup
  email : ∀ row ∈ s.resetemail, IsTime row.time ∧
    Held s.regs row.username (Filed tokenConf s row)
  emailKeys : (s.resetemail.map ResetemailRow.username).Nodup

theorem Inv.start (tokenConf : TokenConfig) : Inv tokenConf start := by
  refine ⟨.empty, ?_, ?_, ?_, List.nodup_nil, ?_, List.nodup_nil⟩
  all_goals
    intro row listed
    cases listed

theorem Inv.same (inv : Inv tokenConf s) (access : Regs.SameAccess s.regs regs)
    :
    Inv tokenConf { s with regs := regs } := by
  have names := access.sameNames
  refine ⟨⟨inv.sound.access.same access, inv.sound.accounts.same names,
    inv.sound.channels.same access.sameChans⟩, inv.listed.same names,
    ?_, ?_, inv.passKeys, ?_, inv.emailKeys⟩
  · exact fun row there => (inv.verify row there).same names
  · exact fun row there =>
      ⟨(inv.pass row there).1, (inv.pass row there).2.same names⟩
  · exact fun row there =>
      ⟨(inv.email row there).1, (inv.email row there).2.same names⟩

theorem Inv.leave (inv : Inv tokenConf s) (sound : Regs.Sound regs)
    (listed : Regs.Listed regs) (leave : Regs.OnlyLeave s.regs regs) :
    Inv tokenConf (s.dropTokens regs) := by
  have stays {name : CString} {P : UserRegId → Prop}
      (held : Held s.regs name P)
      (kept : (!(decide (name ∈ s.regs.users) &&
        !decide (name ∈ regs.users))) = true) : Held regs name P := by
    have known := held.known inv.sound
    refine held.leave inv.sound listed leave ?_
    by_contra gone
    simp [known, gone] at kept
  refine ⟨sound, listed, ?_, ?_, ?_, ?_, ?_⟩
  · intro row there
    obtain ⟨before, kept⟩ := List.mem_filter.mp there
    exact stays (inv.verify row before) kept
  · intro row there
    obtain ⟨before, kept⟩ := List.mem_filter.mp there
    exact ⟨(inv.pass row before).1, stays (inv.pass row before).2 kept⟩
  · exact inv.passKeys.sublist (List.filter_sublist.map _)
  · intro row there
    obtain ⟨before, kept⟩ := List.mem_filter.mp there
    exact ⟨(inv.email row before).1, stays (inv.email row before).2 kept⟩
  · exact inv.emailKeys.sublist (List.filter_sublist.map _)

theorem dropTokens_register (same : Regs.SameNames (s.regs.withUser reg) regs) :
    s.dropTokens regs = { s with regs := regs } := by
  have stays {name : CString} : (!(decide (name ∈ s.regs.users) &&
      !decide (name ∈ regs.users))) = true := by
    by_cases known : name ∈ s.regs.users
    · have there : name ∈ regs.users := by
        rw [same.users]
        exact List.mem_append_left _ known
      simp [known, there]
    · simp [known]
  unfold dropTokens
  simp only [stays, List.filter_true]

theorem Inv.register (inv : Inv tokenConf s) (sound : Regs.Sound regs)
    (listed : Regs.Listed regs)
    (same : Regs.SameNames (s.regs.withUser reg) regs) (given : NewUser) :
    Inv tokenConf (s.follow regs given) := by
  obtain ⟨new, added, -⟩ := same.symm.cell
    (Heap.alloc_cell_next s.regs.user reg)
  have moved {name : CString} {P Q : UserRegId → Prop}
      (held : Held s.regs name P)
      (imp : ∀ account, s.regs.user.next ≠ account → P account → Q account) :
      Held regs name Q := by
    refine Held.same (.register (held.mono ?_) reg) same
    intro account old found _ holds
    exact imp account (Nat.ne_of_gt (Heap.lt_next found)) holds
  unfold follow
  simp only [dropTokens_register same, added]
  refine ⟨sound, listed, ?_, ?_, inv.passKeys, ?_, inv.emailKeys⟩
  · intro row there
    rw [List.mem_append, List.mem_singleton] at there
    obtain before | rfl := there
    · exact moved (inv.verify row before) fun account _ noted =>
        List.mem_cons_of_mem _ noted
    · exact ⟨s.regs.user.next, new, added, rfl, List.mem_cons_self⟩
  · intro row there
    refine ⟨(inv.pass row there).1, moved (inv.pass row there).2 ?_⟩
    intro account other pending
    rw [passPending_other (.verifyIssued _ _) other]
    exact pending
  · intro row there
    refine ⟨(inv.email row there).1, moved (inv.email row there).2 ?_⟩
    intro account other filed
    unfold Filed at filed ⊢
    dsimp only
    rw [emailStage_other (.verifyIssued _ _) other, Function.update_of_ne other.symm]
    exact filed

theorem Inv.accounts (inv : Inv tokenConf s) {act : RegAct} {now : Int}
    {regs : Regs} {given : NewUser}
    (stepped : s.regs.step conf { now := now, act := act } = .ok regs) :
    Inv tokenConf (s.follow regs given) := by
  have sound := inv.sound.step stepped
  have listed := inv.listed.step inv.sound stepped
  cases registers : act.registers conf s.regs with
  | true =>
      obtain ⟨reg, -, same⟩ := Regs.step_of_registers registers stepped
      exact inv.register sound listed same given
  | false =>
      have leave := Regs.OnlyLeave.step inv.sound.access registers stepped
      have none_ := leave.next_none
      unfold follow
      simp only [none_]
      exact inv.leave sound listed leave

theorem Inv.passOthers (inv : Inv tokenConf s)
    (found : s.regs.user.cell account = some reg) {note : TokenNote}
    (about : note.account = account) {row : ResetpassRow}
    (there : row ∈ s.resetpass.filter fun row => row.username != reg.name) :
    IsTime row.time ∧ Held s.regs row.username fun account =>
      passPending account (note :: s.notes) = some (row.token, row.time) := by
  obtain ⟨before, different⟩ := List.mem_filter.mp there
  obtain ⟨stamp, held⟩ := inv.pass row before
  refine ⟨stamp, (held.other found (bne_iff_ne.mp different)).mono ?_⟩
  rintro other reg' - - ⟨apart, pending⟩
  rw [passPending_other note (by rwa [about])]
  exact pending

theorem Inv.emailOthers (inv : Inv tokenConf s)
    (found : s.regs.user.cell account = some reg) (note : TokenNote)
    (about : note.account = account) (address : CString) {row : ResetemailRow}
    (there : row ∈ s.resetemail.filter fun row => row.username != reg.name) :
    IsTime row.time ∧ Held s.regs row.username (Filed tokenConf
      { s with
        email := Function.update s.email account address
        notes := note :: s.notes } row) := by
  obtain ⟨before, different⟩ := List.mem_filter.mp there
  obtain ⟨stamp, held⟩ := inv.email row before
  refine ⟨stamp, (held.other found (bne_iff_ne.mp different)).mono ?_⟩
  rintro other reg' - - ⟨apart, filed⟩
  unfold Filed at filed ⊢
  dsimp only
  rw [emailStage_other note (by rwa [about]), Function.update_of_ne apart.symm]
  exact filed

theorem nodup_append_name {α : Type} {key : α → CString} {rows : List α}
    (keys : (rows.map key).Nodup) {row : α} {name : CString}
    (named : key row = name) :
    (((rows.filter fun other => key other != name) ++ [row]).map key
      ).Nodup := by
  rw [List.map_append, List.map_singleton]
  refine (keys.sublist (List.filter_sublist.map key)).append
    (List.nodup_singleton _) ?_
  intro name listed last
  obtain ⟨other, there, rfl⟩ := List.mem_map.mp listed
  have same : key other = key row := List.mem_singleton.mp last
  exact bne_iff_ne.mp (List.mem_filter.mp there).2 (same.trans named)

theorem Inv.passKept (inv : Inv tokenConf s) {note : TokenNote}
    (same : ∀ account, passPending account (note :: s.notes) =
      passPending account s.notes) {row : ResetpassRow}
    (there : row ∈ s.resetpass) :
    IsTime row.time ∧ Held s.regs row.username fun account =>
      passPending account (note :: s.notes) = some (row.token, row.time) := by
  obtain ⟨stamp, held⟩ := inv.pass row there
  refine ⟨stamp, held.mono fun account _ _ _ pending => ?_⟩
  rw [same]
  exact pending

theorem Inv.emailKept (inv : Inv tokenConf s) {note : TokenNote}
    (same : ∀ account, emailStage account (note :: s.notes) =
      emailStage account s.notes) {row : ResetemailRow}
    (there : row ∈ s.resetemail) :
    IsTime row.time ∧ Held s.regs row.username (Filed tokenConf
      { s with notes := note :: s.notes } row) := by
  obtain ⟨stamp, held⟩ := inv.email row there
  refine ⟨stamp, held.mono fun account _ _ _ filed => ?_⟩
  unfold Filed at filed ⊢
  dsimp only
  rw [same]
  exact filed

theorem Inv.verifyKept (inv : Inv tokenConf s) (note : TokenNote)
    {row : CString × CString} (there : row ∈ s.verify) :
    Held s.regs row.1 fun account =>
      .verifyIssued account row.2 ∈ note :: s.notes :=
  (inv.verify row there).mono fun _ _ _ _ noted => List.mem_cons_of_mem _ noted

theorem Inv.does (inv : Inv tokenConf s)
    (does : Does conf tokenConf s event t) : Inv tokenConf t := by
  cases does with
  | accounts act regs given other stepped => exact inv.accounts stepped
  | nothing => exact inv
  | activate client name given account reg asked found some_ token =>
      exact inv.same (.modifyUser s.regs account fun _ => rfl)
  | askPass account reg token found =>
      refine ⟨inv.sound, inv.listed, fun row => inv.verifyKept _, ?_,
        nodup_append_name inv.passKeys rfl,
        fun row => inv.emailKept fun _ => rfl, inv.emailKeys⟩
      intro row there
      rw [List.mem_append, List.mem_singleton] at there
      obtain before | rfl := there
      · exact inv.passOthers found rfl before
      · exact ⟨event.clock, account, reg, found, rfl, if_pos rfl⟩
  | resetPass client name given new account reg password row asked found there
      named young token =>
      refine ⟨inv.sound, inv.listed, fun row => inv.verifyKept _, ?_,
        inv.passKeys.sublist (List.filter_sublist.map _),
        fun row => inv.emailKept fun _ => rfl, inv.emailKeys⟩
      exact fun row there => inv.passOthers found rfl there
  | askEmail account reg token found =>
      refine ⟨inv.sound, inv.listed, fun row => inv.verifyKept _,
        fun row => inv.passKept fun _ => rfl, inv.passKeys, ?_,
        nodup_append_name inv.emailKeys rfl⟩
      intro row there
      rw [List.mem_append, List.mem_singleton] at there
      obtain before | rfl := there
      · have others := inv.emailOthers found
          (.emailIssued account token event.now (s.email account)) rfl
          (s.email account) before
        rwa [Function.update_eq_self] at others
      · exact ⟨event.clock, account, reg, found, rfl, if_pos rfl⟩
  | confirmEmail account reg given token address row found there named young
      email right =>
      obtain ⟨stamp, held⟩ := inv.email row there
      have filed := held.at inv.sound found named
      unfold Filed at filed
      rw [email] at filed
      refine ⟨inv.sound, inv.listed, fun row => inv.verifyKept _,
        fun row => inv.passKept fun _ => rfl, inv.passKeys, ?_,
        nodup_append_name inv.emailKeys rfl⟩
      intro other listed
      rw [List.mem_append, List.mem_singleton] at listed
      obtain before | rfl := listed
      · have others := inv.emailOthers found
          (.emailConfirmed account given token event.now address) rfl
          (s.email account) before
        rwa [Function.update_eq_self] at others
      · refine ⟨event.clock, account, reg, found, rfl, row.token, row.time,
          ?_, recent_of_timeSince event.clock stamp tokenConf.resetemailInt
            young⟩
        rw [emailStage, if_pos rfl, filed, ← right]
        rfl
  | resetEmail client parv account reg address row asked login found there
      named young email right =>
      refine ⟨inv.sound, inv.listed, fun row => inv.verifyKept _,
        fun row => inv.passKept fun _ => rfl, inv.passKeys, ?_,
        inv.emailKeys.sublist (List.filter_sublist.map _)⟩
      exact fun row there => inv.emailOthers found _ rfl address there
  | expire pass email =>
      refine ⟨inv.sound, inv.listed, inv.verify, ?_,
        inv.passKeys.sublist (List.filter_sublist.map _), ?_,
        inv.emailKeys.sublist (List.filter_sublist.map _)⟩
      · exact fun row there => inv.pass row (List.mem_filter.mp there).1
      · exact fun row there => inv.email row (List.mem_filter.mp there).1

theorem Inv.step (inv : Inv tokenConf s)
    (returned : s.step conf tokenConf event = .ok t) : Inv tokenConf t := by
  obtain ⟨regs, same, does⟩ := step_does returned
  exact (inv.same same.access).does does

/-- What an account is protected by: its password changes through the token
issued last for it, its address through the tokens mailed to the old address
and to the new one, and it is activated through its own token. No kind of
request is open twice. -/
structure Guarded (tokenConf : TokenConfig) (s : TokenState)
    (event : TokenEvent) (t : TokenState) : Prop where
  password : ∀ account reg, s.regs.user.cell account = some reg →
    t.password account ≠ s.password account →
    ∃ client name given new time,
      event.act = .resetpass client name given new ∧
      passPending account s.notes = some (given, time) ∧
      event.now - time < tokenConf.uresetpassDuration
  email : ∀ account reg, s.regs.user.cell account = some reg →
    t.email account ≠ s.email account →
    ∃ client parv token time newTime,
      event.act = .resetemail client parv ∧
      s.regs.login client = some (some account) ∧
      emailStage account s.notes = .confirmed token time (s.email account)
        token (parv.getD 1 []) newTime (t.email account) ∧
      newTime - time < tokenConf.uresetemailDuration ∧
      event.now - newTime < tokenConf.uresetemailDuration
  activated : ∀ account old new, s.regs.user.cell account = some old →
    t.regs.user.cell account = some new → old.unverified = true →
    new.unverified = false →
    ∃ client name given, event.act = .activate client name given ∧
      given ≠ [] ∧ .verifyIssued account given ∈ s.notes
  single : ∀ account reg, t.regs.user.cell account = some reg →
    (t.resetpass.countP fun row => row.username == reg.name) ≤ 1 ∧
    (t.resetemail.countP fun row => row.username == reg.name) ≤ 1

theorem countP_le_one {α : Type} {key : α → CString} {rows : List α}
    (keys : (rows.map key).Nodup) (name : CString) :
    (rows.countP fun row => key row == name) ≤ 1 := by
  have counted : (rows.map key).count name ≤ 1 :=
    List.nodup_iff_count_le_one.mp keys name
  rwa [List.count, List.countP_map] at counted

theorem Inv.single (inv : Inv tokenConf s) (name : CString) :
    (s.resetpass.countP fun row => row.username == name) ≤ 1 ∧
      (s.resetemail.countP fun row => row.username == name) ≤ 1 :=
  ⟨countP_le_one inv.passKeys name, countP_le_one inv.emailKeys name⟩

theorem Guarded.of_same (inv : Inv tokenConf t)
    (password : ∀ account reg, s.regs.user.cell account = some reg →
      t.password account = s.password account)
    (email : ∀ account reg, s.regs.user.cell account = some reg →
      t.email account = s.email account)
    (unverified : ∀ account old new, s.regs.user.cell account = some old →
      t.regs.user.cell account = some new → old.unverified = true →
      new.unverified = true) : Guarded tokenConf s event t := by
  refine ⟨?_, ?_, ?_, ?_⟩
  · intro account reg found changed
    exact absurd (password account reg found) changed
  · intro account reg found changed
    exact absurd (email account reg found) changed
  · intro account old new before after flag cleared
    rw [unverified account old new before after flag] at cleared
    cases cleared
  · exact fun account reg _ => inv.single reg.name

theorem Guarded.of_tables (inv : Inv tokenConf t) (regs : t.regs = s.regs)
    (password : t.password = s.password) (email : t.email = s.email) :
    Guarded tokenConf s event t := by
  refine .of_same inv (fun account _ _ => congrFun password account)
    (fun account _ _ => congrFun email account) ?_
  intro account old new before after flag
  rw [regs, before, Option.some.injEq] at after
  exact after ▸ flag

theorem follow_same {given : NewUser}
    (found : s.regs.user.cell account = some reg) :
    (s.follow regs given).password account = s.password account ∧
      (s.follow regs given).email account = s.email account ∧
      (s.follow regs given).regs = regs := by
  have other : account ≠ s.regs.user.next :=
    Nat.ne_of_lt (Heap.lt_next found)
  unfold follow dropTokens
  dsimp only
  split
  · exact ⟨rfl, rfl, rfl⟩
  · exact ⟨Function.update_of_ne other _ _, Function.update_of_ne other _ _,
      rfl⟩

theorem Inv.guarded (inv : Inv tokenConf s)
    (does : Does conf tokenConf s event t) : Guarded tokenConf s event t := by
  have after := inv.does does
  cases does with
  | accounts act regs given other stepped =>
      refine .of_same after (fun _ _ found => (follow_same found).1)
        (fun _ _ found => (follow_same found).2.1) ?_
      intro account old new before found flag
      rw [(follow_same before).2.2] at found
      refine Regs.step_unverified ?_ stepped before found flag
      rintro client name right rfl
      cases other
  | nothing =>
      exact .of_tables after rfl rfl rfl
  | activate client name given account reg asked found some_ token =>
      have plain : Guarded tokenConf s event s := .of_tables inv rfl rfl rfl
      refine ⟨plain.password, plain.email, ?_, ?_⟩
      · intro other old new before there flag cleared
        refine ⟨client, name, given, asked, some_, ?_⟩
        obtain ⟨reg', was, changed⟩ := Heap.cell_of_modify there
        split at changed
        · rename_i equal
          rw [equal]
          exact (inv.verify _ token).at inv.sound found rfl
        · rw [before, Option.some.injEq] at was
          rw [changed, ← was, flag] at cleared
          cases cleared
      · exact fun account reg _ => after.single reg.name
  | askPass account reg token found =>
      exact .of_tables after rfl rfl rfl
  | resetPass client name given new account reg password row asked found there
      named young token =>
      obtain ⟨stamp, held⟩ := inv.pass row there
      have pending := held.at inv.sound found named
      have plain : Guarded tokenConf s event s := .of_tables inv rfl rfl rfl
      refine ⟨?_, plain.email, plain.activated, ?_⟩
      · intro other reg' _ changed
        have same : other = account := by
          by_contra different
          exact changed (Function.update_of_ne different _ _)
        subst same
        refine ⟨client, name, given, new, row.time, asked, ?_,
          recent_of_timeSince event.clock stamp tokenConf.resetpassInt young⟩
        rw [pending, token]
      · exact fun account reg _ => after.single reg.name
  | askEmail account reg token found =>
      exact .of_tables after rfl rfl rfl
  | confirmEmail account reg given token address row found there named young
      email right =>
      exact .of_tables after rfl rfl rfl
  | resetEmail client parv account reg address row asked login found there
      named young email right =>
      obtain ⟨stamp, held⟩ := inv.email row there
      have filed := held.at inv.sound found named
      unfold Filed at filed
      rw [email] at filed
      obtain ⟨token, time, stage, soon⟩ := filed
      have plain : Guarded tokenConf s event s := .of_tables inv rfl rfl rfl
      refine ⟨plain.password, ?_, plain.activated, ?_⟩
      · intro other reg' _ changed
        have same : other = account := by
          by_contra different
          exact changed (Function.update_of_ne different _ _)
        subst same
        refine ⟨client, parv, token, time, row.time, asked, login, ?_, soon,
          recent_of_timeSince event.clock stamp tokenConf.resetemailInt young⟩
        dsimp only
        rw [stage, right, Function.update_self]
      · exact fun account reg _ => after.single reg.name
  | expire pass email =>
      exact .of_tables after rfl rfl rfl

theorem Guarded.upToDate {regs : Regs} (same : UpToDate s.regs regs)
    (guarded : Guarded tokenConf { s with regs := regs } event t) :
    Guarded tokenConf s event t := by
  have there {account : UserRegId} {old : UserReg}
      (found : s.regs.user.cell account = some old) :
      ∃ new, regs.user.cell account = some new := by
    obtain ⟨new, after, -⟩ := same.access.sameNames.symm.cell found
    exact ⟨new, after⟩
  refine ⟨?_, ?_, ?_, guarded.single⟩
  · intro account reg found
    obtain ⟨new, after⟩ := there found
    exact guarded.password account new after
  · intro account reg found changed
    obtain ⟨new, after⟩ := there found
    obtain ⟨client, parv, token, time, newTime, asked, login, rest⟩ :=
      guarded.email account new after changed
    dsimp only at login
    rw [same.login] at login
    exact ⟨client, parv, token, time, newTime, asked, login, rest⟩
  · intro account old new before after flag cleared
    obtain ⟨middle, found⟩ := there before
    obtain ⟨old', before', kept⟩ := same.unverified.user account middle found
    rw [before, Option.some.injEq] at before'
    subst before'
    exact guarded.activated account middle new found after (kept flag) cleared

/-- In every run, what is protected by tokens changes through them only. -/
theorem guarded_of_run {events : List TokenEvent}
    (reached : run (step conf tokenConf) start events = .ok s)
    (taken : s.step conf tokenConf event = .ok t) :
    Guarded tokenConf s event t := by
  have inv : Inv tokenConf s := by
    refine run_preserves (Inv tokenConf) ?_ (.start tokenConf) reached
    exact fun before event after inv returned => inv.step returned
  obtain ⟨regs, same, does⟩ := step_does taken
  exact .upToDate same ((inv.same same.access).guarded does)

def luck (token : String) : TokenChance where
  token := token.toList
  password := "crypted".toList
  canSendEmail := true
  sent := true
  validEmail := true

def bothAsked : List TokenEvent :=
  [ ⟨0, by decide, .account (.connect 1) rfl [], luck ""⟩,
    ⟨0, by decide, .account
      (.userRegister 1 ⟨"alice".toList, alice_ne_nil⟩ true []) rfl
      "old@x".toList, { luck "" with password := "first".toList }⟩,
    ⟨0, by decide, .account (.connect 2) rfl [], luck ""⟩,
    ⟨1300000, by decide, .resetemail 1 [], luck "one"⟩,
    ⟨1300010, by decide, .resetemail 1
      ["confirm".toList, "one".toList, "new@x".toList], luck "two"⟩,
    ⟨1300020, by decide, .resetpass 2 "ALICE".toList [] [], luck "three"⟩ ]

def authEmail : TokenEvent :=
  ⟨1300030, by decide, .resetemail 1 ["auth".toList, "two".toList], luck ""⟩

def authPass : TokenEvent :=
  ⟨1300030, by decide,
    .resetpass 2 "alice".toList "three".toList "secret".toList, luck ""⟩

theorem guarded_of_bothAsked :
    ∃ s t u, run (step (setDefaultConf "services.".toList) .default) start
        bothAsked = .ok s ∧
      s.step (setDefaultConf "services.".toList) .default authEmail = .ok t ∧
      s.step (setDefaultConf "services.".toList) .default authPass = .ok u ∧
      t.email 0 = "new@x".toList ∧ u.password 0 = "crypted".toList ∧
      (∃ token time newTime, emailStage 0 s.notes =
        .confirmed token time "old@x".toList token "two".toList newTime
          "new@x".toList) ∧
      ∃ time, passPending 0 s.notes = some ("three".toList, time) := by
  have observed : (run (step (setDefaultConf "services.".toList) .default)
      start bothAsked).toOption.map (fun s =>
        ((s.email 0, s.password 0, (s.regs.user.cell 0).isSome),
          (s.step (setDefaultConf "services.".toList) .default
            authEmail).toOption.map fun t => t.email 0,
          (s.step (setDefaultConf "services.".toList) .default
            authPass).toOption.map fun t => t.password 0)) =
      some (("old@x".toList, "first".toList, true), some "new@x".toList,
        some "crypted".toList) := by
    decide +kernel
  obtain ⟨s, reached, seen⟩ := Except.exists_of_observed observed
  simp only [Prod.mk.injEq] at seen
  obtain ⟨⟨email, password, live⟩, mailed, reset⟩ := seen
  obtain ⟨reg, found⟩ := Option.isSome_iff_exists.mp live
  obtain ⟨t, changed, address⟩ := Except.exists_of_observed mailed
  obtain ⟨u, taken, secret⟩ := Except.exists_of_observed reset
  refine ⟨s, t, u, reached, changed, taken, address, secret, ?_, ?_⟩
  · obtain ⟨client, parv, token, time, newTime, asked, -, stage, -⟩ :=
      (guarded_of_run reached changed).email 0 reg found (by
        rw [address, email]
        decide)
    cases asked
    rw [email, address] at stage
    exact ⟨token, time, newTime, stage⟩
  · obtain ⟨client, name, given, new, time, asked, pending, -⟩ :=
      (guarded_of_run reached taken).password 0 reg found (by
        rw [secret, password]
        decide)
    cases asked
    exact ⟨time, pending⟩

end TokenState

end RatboxServices
