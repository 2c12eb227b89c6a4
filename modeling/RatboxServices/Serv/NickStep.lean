import RatboxServices.Serv.NickInv

namespace RatboxServices

open CString

/-! What one event does to registered nicks, and that it keeps what is always
true of them. -/

namespace NickState

variable {conf : ServConfig} {nickConf : NickConfig} {s t : NickState}
  {event : NickEvent} {lines : List NickLine} {client : ClientId}
  {name : CString} {now : Int}

def Peaceful (lines : List NickLine) : Prop :=
  ∀ client target, .kill client target ∉ lines

/-- The users are those that were there, and new ones have a nick that can be
one. -/
def Online (conf : ServConfig) (s t : NickState) : Prop :=
  ∀ entry ∈ t.online,
    entry ∈ s.online ∨ entry.2 ≠ [] ∧ entry.2.length ≤ conf.nickLen

inductive Answered (conf : ServConfig) (nickConf : NickConfig)
    (s : NickState) (event : NickEvent) : NickState → List NickLine → Prop where
  | idle {t : NickState} {lines : List NickLine} (nicks : SameNicks s t)
      (access : Regs.SameAccess s.regs t.regs) (online : Online conf s t)
      (peaceful : Peaceful lines) : Answered conf nickConf s event t lines
  | accounts (act : RegAct) (plain : act.isPresence = false) (regs : Regs)
      (asked : event.act = .account act plain)
      (returned : s.regs.step conf { now := event.now, act := act } =
        .ok regs) : Answered conf nickConf s event (s.follow regs) []
  | register (regs : Regs) (access : Regs.SameAccess s.regs regs)
      (reg : NickReg) (live : ∃ user, regs.user.cell reg.userReg = some user)
      (proper : Proper conf reg.name)
      (room : (s.nicksOf reg.userReg).length < nickConf.maxNicks)
      (missing : ({ s with regs := regs } : NickState).findNickReg reg.name =
        none) :
      Answered conf nickConf s event
        { ({ s with regs := regs } : NickState).addNickReg reg with
          nicks := s.nicks ++ [({ s with regs := regs } : NickState).rowOf reg]
          } []
  | drop (regs : Regs) (access : Regs.SameAccess s.regs regs)
      (client : ClientId) (name : CString) (n : NickRegId) (reg : NickReg)
      (asked : event.act = .drop client name)
      (cell : s.nick.cell n = some reg)
      (named : irccmp reg.name name = true)
      (login : s.regs.login client = some (some reg.userReg)) :
      Answered conf nickConf s event
        (({ s with regs := regs } : NickState).freeNickReg n) []
  | nickdrop (name : CString) (n : NickRegId) (reg : NickReg)
      (asked : event.act = .nickdrop name) (cell : s.nick.cell n = some reg)
      (named : irccmp reg.name name = true) :
      Answered conf nickConf s event (s.freeNickReg n) []
  | setFlags (regs : Regs) (access : Regs.SameAccess s.regs regs)
      (n : NickRegId) (reg : NickReg) (cell : s.nick.cell n = some reg)
      (flags : Word) :
      Answered conf nickConf s event
        { ({ s with regs := regs } : NickState) with
          nick := s.nick.modify n fun reg => { reg with flags := flags }
          nicks := s.nicks.map fun row =>
            if row.nickname == reg.name then { row with flags := flags.toInt }
            else row } []
  | kill {t : NickState} {lines : List NickLine} (nicks : SameNicks s t)
      (access : Regs.SameAccess s.regs t.regs) (online : Online conf s t)
      (client target : ClientId) (reg : NickReg) (nick : CString)
      (found : s.lookup nick = some reg)
      (login : s.regs.login client = some (some reg.userReg))
      (there : (target, nick) ∈ s.online) (other : target ≠ client)
      (only : ∀ killer killed, .kill killer killed ∈ lines →
        killer = client ∧ killed = target) :
      Answered conf nickConf s event t lines

theorem asUser_eq_ok {body : UserRegId → NickState →
      Except RegStop (NickState × List NickLine)}
    (returned : s.asUser now client body = .ok (t, lines)) :
    (t = s ∧ lines = []) ∨
      ∃ account user, s.regs.login client = some (some account) ∧
        s.regs.user.cell account = some user ∧
        body account { s with regs := s.regs.touchUser now account } =
          .ok (t, lines) := by
  unfold asUser at returned
  split at returned
  · cases returned
    exact Or.inl ⟨rfl, rfl⟩
  · rename_i account login
    obtain ⟨user, found, rest⟩ := Except.bind_eq_ok.mp returned
    exact Or.inr ⟨account, user, Regs.loginOf_eq_some.mp login,
      Regs.derefUser_eq_ok.mp found, rest⟩

theorem asOwner_eq_ok {body : NickRegId → NickReg → NickState →
      Except RegStop (NickState × List NickLine)}
    (returned : s.asOwner now client name body = .ok (t, lines)) :
    (∃ regs, Regs.SameAccess s.regs regs ∧ t = { s with regs := regs } ∧
      lines = []) ∨
      ∃ n reg regs, Regs.SameAccess s.regs regs ∧
        s.findNickReg name = some n ∧ s.nick.cell n = some reg ∧
        s.regs.login client = some (some reg.userReg) ∧
        body n reg { s with regs := regs } = .ok (t, lines) := by
  obtain ⟨rfl, rfl⟩ | ⟨account, user, login, -, rest⟩ :=
    asUser_eq_ok returned
  · exact Or.inl ⟨t.regs, .refl _, rfl, rfl⟩
  · have access := (Regs.Settled.touchUser now account s.regs).access
    split at rest
    · cases rest
      exact Or.inl ⟨_, access, rfl, rfl⟩
    · rename_i n found
      split at rest
      · cases rest
        exact Or.inl ⟨_, access, rfl, rfl⟩
      · rename_i reg cell
        split at rest
        · cases rest
          exact Or.inl ⟨_, access, rfl, rfl⟩
        · rename_i mine
          rw [not_not] at mine
          subst mine
          exact Or.inr ⟨n, reg, _, access, found, cell, login, rest⟩

theorem peaceful_nil : Peaceful [] :=
  fun _ _ listed => by cases listed

theorem Online.refl (conf : ServConfig) (s : NickState) : Online conf s s :=
  fun _ listed => Or.inl listed

theorem Answered.touched {regs : Regs}
    (access : Regs.SameAccess s.regs regs) (peaceful : Peaceful lines) :
    Answered conf nickConf s event { s with regs := regs } lines :=
  .idle ⟨rfl, rfl, rfl, rfl⟩ access (.refl conf s) peaceful

theorem exitUser_access {r r' : Regs} (returned : r.exitUser client = .ok r') :
    Regs.SameAccess r r' := by
  unfold Regs.exitUser at returned
  split at returned
  · cases returned
    exact { Regs.SameAccess.refl r with }
  · obtain ⟨middle, left, rest⟩ := Except.bind_eq_ok.mp returned
    cases rest
    have access : Regs.SameAccess r middle := by
      rw [Regs.unlinkUser_eq_ok left]
      exact .modifyUser r _ fun _ => rfl
    exact { access with }

theorem exitClient_eq_ok (returned : s.exitClient client = .ok t) :
    SameNicks s t ∧ Regs.SameAccess s.regs t.regs ∧ Online conf s t := by
  unfold exitClient at returned
  obtain ⟨regs, left, rest⟩ := Except.bind_eq_ok.mp returned
  cases rest
  refine ⟨⟨rfl, rfl, rfl, rfl⟩, exitUser_access left, fun entry listed => ?_⟩
  exact Or.inl (List.mem_filter.mp listed).1

theorem setNick_eq_ok {nick : Token}
    (returned : s.setNick conf client nick.text = .ok t) :
    SameNicks s t ∧ t.regs = s.regs ∧ Online conf s t := by
  unfold setNick at returned
  split at returned
  · cases returned
  · rename_i short
    cases returned
    refine ⟨⟨rfl, rfl, rfl, rfl⟩, rfl, fun entry listed => ?_⟩
    obtain rfl | old := List.mem_cons.mp listed
    · exact Or.inr ⟨nick.nonempty, Nat.le_of_not_lt short⟩
    · exact Or.inl (List.mem_filter.mp old).1

theorem peaceful_hNickWarnClient (client : ClientId) :
    Peaceful (s.hNickWarnClient nickConf client) := by
  intro killer killed listed
  unfold hNickWarnClient at listed
  split at listed
  · simp at listed
  · cases listed

theorem findUser_some {target : ClientId}
    (found : s.findUser name = some target) :
    ∃ nick, (target, nick) ∈ s.online ∧ irccmp nick name = true := by
  obtain ⟨entry, first, rfl⟩ := Option.map_eq_some_iff.mp found
  have same := List.find?_some first
  exact ⟨entry.2, List.mem_of_find?_eq_some first, same⟩

theorem kill_answered (inv : Inv conf nickConf s) {regs : Regs}
    (access : Regs.SameAccess s.regs regs) {name : CString}
    {client target : ClientId} {n : NickRegId} {reg : NickReg}
    (found : s.findNickReg name = some n) (cell : s.nick.cell n = some reg)
    (login : s.regs.login client = some (some reg.userReg))
    (online : s.findUser name = some target) (other : target ≠ client)
    (left : ({ s with regs := regs } : NickState).exitClient target = .ok t)
    (only : ∀ killer killed, .kill killer killed ∈ lines →
      killer = client ∧ killed = target) :
    Answered conf nickConf s event t lines := by
  obtain ⟨⟨nick, table, of_, rows⟩, exits, stays⟩ :
      SameNicks { s with regs := regs } t ∧ Regs.SameAccess regs t.regs ∧
        Online conf { s with regs := regs } t := exitClient_eq_ok left
  obtain ⟨used, there, same⟩ := findUser_some online
  obtain ⟨also, cell', named⟩ := findNickReg_some found
  rw [cell, Option.some.injEq] at cell'
  subst cell'
  have registered : s.lookup used = some reg :=
    (lookup_eq_some_iff inv).mpr
      ⟨n, cell, irccmp_trans named (irccmp_comm same)⟩
  exact .kill ⟨nick, table, of_, rows⟩ (access.trans exits) stays client target
    reg used registered login there other only

theorem registerNick_answered {regs : Regs}
    (inv : Inv conf nickConf { s with regs := regs })
    (access : Regs.SameAccess s.regs regs) {now : Int} {account : UserRegId}
    (live : ∃ user, regs.user.cell account = some user) {nick : CString}
    (some_ : nick ≠ []) (short : nick.length ≤ conf.nickLen)
    (returned : registerNick conf nickConf now account nick
      { s with regs := regs } = .ok t) :
    Answered conf nickConf s event t [] := by
  unfold registerNick at returned
  split at returned
  · cases returned
    exact .touched access peaceful_nil
  rename_i room
  split at returned
  · cases returned
    exact .touched access peaceful_nil
  rename_i noUid
  split at returned
  · cases returned
    exact .touched access peaceful_nil
  rename_i missing
  have whole : strlcpy (conf.nickLen + 1) nick = nick :=
    Regs.strlcpy_of_le short
  have free : ({ s with regs := regs } : NickState).findNickReg nick = none := by
    simpa using missing
  rw [whole] at returned
  rw [insertNick_ok inv (by exact free)] at returned
  cases returned
  exact .register regs access _ live
    ⟨some_, short, by simpa using noUid⟩ (Nat.lt_of_not_le room) free

theorem mem_of_lookup {entries : List (ClientId × CString)} {nick : CString}
    (found : entries.lookup client = some nick) : (client, nick) ∈ entries := by
  obtain ⟨before, after, rfl, -⟩ := List.lookup_eq_some_iff.mp found
  simp

theorem sNickRegister_answered (inv : Inv conf nickConf s)
    (returned : s.sNickRegister conf nickConf now client = .ok t) :
    Answered conf nickConf s event t [] := by
  unfold sNickRegister at returned
  split at returned
  · rename_i account nick login there
    obtain ⟨user, found, rest⟩ := Except.bind_eq_ok.mp returned
    have access : Regs.SameAccess s.regs (s.regs.modifyUser account fun reg =>
        { reg with lastTime := now }) := .modifyUser _ _ fun _ => rfl
    obtain ⟨some_, short⟩ := inv.online _ (mem_of_lookup there)
    refine registerNick_answered ?_ access ?_ some_ short rest
    · exact inv.same ⟨rfl, rfl, rfl, rfl⟩ access inv.online
    · exact ⟨_, Heap.modify_of_cell (Regs.derefUser_eq_ok.mp found)⟩
  · cases returned
    exact .idle ⟨rfl, rfl, rfl, rfl⟩ (.refl _) (.refl conf s) peaceful_nil

theorem oNickNickdrop_answered (asked : event.act = .nickdrop name) :
    Answered conf nickConf s event (s.oNickNickdrop name) [] := by
  unfold oNickNickdrop
  split
  · exact .idle ⟨rfl, rfl, rfl, rfl⟩ (.refl _) (.refl conf s) peaceful_nil
  · rename_i n found
    obtain ⟨reg, cell, named⟩ := findNickReg_some found
    exact .nickdrop name n reg asked cell named

theorem sNickDrop_answered (asked : event.act = .drop client name)
    (returned : s.sNickDrop now client name = .ok (t, lines)) :
    Answered conf nickConf s event t lines := by
  obtain ⟨regs, access, rfl, rfl⟩ |
    ⟨n, reg, regs, access, found, cell, login, rest⟩ := asOwner_eq_ok returned
  · exact .touched access peaceful_nil
  · cases rest
    obtain ⟨also, cell', named⟩ := findNickReg_some found
    rw [cell, Option.some.injEq] at cell'
    exact .drop regs access client name n reg asked cell (cell' ▸ named) login

theorem sNickRelease_answered (inv : Inv conf nickConf s)
    (returned : s.sNickRelease now client name = .ok (t, lines)) :
    Answered conf nickConf s event t lines := by
  obtain ⟨regs, access, rfl, rfl⟩ |
    ⟨n, reg, regs, access, found, cell, login, rest⟩ := asOwner_eq_ok returned
  · exact .touched access peaceful_nil
  · split at rest
    · cases rest
      exact .touched access peaceful_nil
    rename_i target online
    split at rest
    · cases rest
      exact .touched access peaceful_nil
    rename_i other
    obtain ⟨after, left, rest⟩ := Except.bind_eq_ok.mp rest
    cases rest
    refine kill_answered inv access found cell login online other left ?_
    intro killer killed listed
    simpa using listed

theorem sNickRegain_answered (inv : Inv conf nickConf s) {rsfnc : Bool}
    (returned : s.sNickRegain now client name rsfnc = .ok (t, lines)) :
    Answered conf nickConf s event t lines := by
  obtain ⟨regs, access, rfl, rfl⟩ |
    ⟨n, reg, regs, access, found, cell, login, rest⟩ := asOwner_eq_ok returned
  · exact .touched access peaceful_nil
  · split at rest
    · cases rest
      exact .touched access peaceful_nil
    rename_i target online
    split at rest
    · cases rest
      exact .touched access peaceful_nil
    rename_i other
    split at rest
    · cases rest
      exact .touched access peaceful_nil
    obtain ⟨after, left, rest⟩ := Except.bind_eq_ok.mp rest
    cases rest
    refine kill_answered inv access found cell login online other left ?_
    intro killer killed listed
    simpa using listed

theorem sNickSet_answered {name option arg : CString}
    (returned : s.sNickSet nickConf now client name option arg =
      .ok (t, lines)) : Answered conf nickConf s event t lines := by
  obtain ⟨regs, access, rfl, rfl⟩ |
    ⟨n, reg, regs, access, found, cell, login, rest⟩ := asOwner_eq_ok returned
  · exact .touched access peaceful_nil
  · split at rest
    · cases rest
      unfold sNickSetFlag
      split
      · split
        · exact .touched access peaceful_nil
        · exact .setFlags regs access n reg cell _
      · split
        · split
          · exact .touched access peaceful_nil
          · exact .setFlags regs access n reg cell _
        · exact .touched access peaceful_nil
    · cases rest
      exact .touched access peaceful_nil

theorem sNickInfo_answered
    (returned : s.sNickInfo now client name = .ok (t, lines)) :
    Answered conf nickConf s event t lines := by
  obtain ⟨rfl, rfl⟩ | ⟨account, user, login, found, rest⟩ :=
    asUser_eq_ok returned
  · exact .idle ⟨rfl, rfl, rfl, rfl⟩ (.refl _) (.refl conf t) peaceful_nil
  · have access := (Regs.Settled.touchUser now account s.regs).access
    split at rest
    · cases rest
      exact .touched access peaceful_nil
    · obtain ⟨owner, -, rest⟩ := Except.bind_eq_ok.mp rest
      cases rest
      refine .touched access fun killer killed listed => ?_
      simp at listed

theorem answer_answered (inv : Inv conf nickConf s)
    (returned : s.answer conf nickConf event = .ok (t, lines)) :
    Answered conf nickConf s event t lines := by
  obtain ⟨now, act⟩ := event
  cases act with
  | introduce client nick hooked =>
      obtain ⟨after, set_, rest⟩ := Except.bind_eq_ok.mp returned
      obtain ⟨regs, connected, rest⟩ := Except.bind_eq_ok.mp rest
      cases rest
      obtain ⟨nicks, same, online⟩ := setNick_eq_ok set_
      have access : Regs.SameAccess s.regs regs := by
        simp only [Regs.step] at connected
        split at connected
        · cases connected
          exact .refl _
        · cases connected
          exact .setLogin _ _ _
      refine .idle ⟨nicks.nick, nicks.nickTable, nicks.nicksOf, nicks.nicks⟩
        access online ?_
      split
      · exact peaceful_hNickWarnClient client
      · exact peaceful_nil
  | nickChange client nick hooked =>
      obtain ⟨after, set_, rest⟩ := Except.bind_eq_ok.mp returned
      cases rest
      obtain ⟨nicks, same, online⟩ := setNick_eq_ok set_
      refine .idle nicks (same ▸ .refl _) online ?_
      split
      · exact peaceful_hNickWarnClient client
      · exact peaceful_nil
  | quit client =>
      obtain ⟨after, left, rest⟩ := Except.bind_eq_ok.mp returned
      cases rest
      obtain ⟨nicks, access, online⟩ := exitClient_eq_ok left
      exact .idle nicks access online peaceful_nil
  | serverEob users =>
      cases returned
      refine .idle ⟨rfl, rfl, rfl, rfl⟩ (.refl _) (.refl conf s) ?_
      intro killer killed listed
      obtain ⟨client, -, listed⟩ := List.mem_flatMap.mp listed
      exact peaceful_hNickWarnClient client killer killed listed
  | account act plain =>
      obtain ⟨regs, moved, rest⟩ := Except.bind_eq_ok.mp returned
      cases rest
      exact .accounts act plain regs rfl moved
  | nickdrop name =>
      cases returned
      exact oNickNickdrop_answered rfl
  | register client =>
      obtain ⟨after, done, rest⟩ := Except.bind_eq_ok.mp returned
      cases rest
      exact sNickRegister_answered inv done
  | drop client name => exact sNickDrop_answered rfl returned
  | release client name => exact sNickRelease_answered inv returned
  | regain client name rsfnc => exact sNickRegain_answered inv returned
  | set client name option arg => exact sNickSet_answered returned
  | info client name => exact sNickInfo_answered returned

theorem Inv.start (conf : ServConfig) (nickConf : NickConfig) :
    Inv conf nickConf start := by
  refine ⟨.empty, ?_, fun u => ?_, ?_, ?_, ?_, ?_, .nil, ?_⟩
  · exact .nil fun n => Heap.not_has_of_free rfl
  · exact .nil fun n => Heap.not_has_of_free rfl
  · intro n reg found
    cases found
  · intro m n left right found
    cases found
  · intro n reg found
    cases found
  · exact fun u => Nat.zero_le _
  · intro entry listed
    cases listed

theorem Inv.online_of (inv : Inv conf nickConf s) (online : Online conf s t) :
    ∀ entry ∈ t.online, entry.2 ≠ [] ∧ entry.2.length ≤ conf.nickLen :=
  fun entry listed => (online entry listed).elim (inv.online entry) id

theorem Inv.touch (inv : Inv conf nickConf s) {regs : Regs}
    (access : Regs.SameAccess s.regs regs) :
    Inv conf nickConf { s with regs := regs } :=
  inv.same ⟨rfl, rfl, rfl, rfl⟩ access inv.online

theorem Inv.answered (inv : Inv conf nickConf s)
    (answered : Answered conf nickConf s event t lines) :
    Inv conf nickConf t := by
  cases answered with
  | idle nicks access online _ =>
      exact inv.same nicks access (inv.online_of online)
  | accounts act plain regs asked returned => exact inv.follow returned
  | register regs access reg live proper room missing =>
      refine (inv.touch access).add missing proper live room ?_
      refine ⟨reg, ?_, rfl, rfl, rfl, rfl, ?_⟩
      · rw [addNickReg_cell]
        exact if_pos rfl
      · exact BitVec.ofInt_natCast .. |>.trans (BitVec.ofNat_toNat ..)
  | drop regs access client name n reg => exact (inv.touch access).free n
  | nickdrop name n reg => exact inv.free n
  | setFlags regs access n reg cell flags =>
      exact (inv.touch access).setFlags cell flags
  | kill nicks access online => exact inv.same nicks access (inv.online_of online)

theorem step_answered (inv : Inv conf nickConf s)
    (returned : s.step conf nickConf event = .ok t) :
    ∃ lines, Answered conf nickConf s event t lines := by
  obtain ⟨⟨after, lines⟩, answered, rest⟩ := Except.bind_eq_ok.mp returned
  cases rest
  exact ⟨lines, answer_answered inv answered⟩

theorem Inv.step (inv : Inv conf nickConf s)
    (returned : s.step conf nickConf event = .ok t) :
    Inv conf nickConf t := by
  obtain ⟨lines, answered⟩ := step_answered inv returned
  exact inv.answered answered

theorem inv_of_run {events : List NickEvent}
    (reached : run (step conf nickConf) start events = .ok s) :
    Inv conf nickConf s :=
  run_preserves (Inv conf nickConf) (fun _ _ _ inv returned => inv.step returned)
    (.start conf nickConf) reached

theorem ally_ne_nil : "Ally".toList ≠ [] := by decide

theorem zoe_ne_nil : "Zoe".toList ≠ [] := by decide

def takenNick : List NickEvent :=
  [ ⟨100, .account (.operUserRegister ⟨"alice".toList, alice_ne_nil⟩ true)
      rfl⟩,
    ⟨100, .introduce 1 ⟨"Ally".toList, ally_ne_nil⟩ true⟩,
    ⟨101, .account (.login 1 "alice".toList true []) rfl⟩,
    ⟨102, .register 1⟩,
    ⟨103, .nickChange 1 ⟨"Zoe".toList, zoe_ne_nil⟩ true⟩,
    ⟨104, .introduce 2 ⟨"Ally".toList, ally_ne_nil⟩ true⟩ ]

end NickState

end RatboxServices
