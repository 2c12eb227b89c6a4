import RatboxServices.Net.TableRun

namespace RatboxServices

open CString

/-! A line from a source that is known: which parameters, clients and parts of
clients its handler uses. A fault is the use of one that is not there. -/

abbrev NoFault {α : Type} (result : Except Stop α) : Prop :=
  Outcome (· = .die) (fun _ => True) result

namespace NoFault

variable {α β : Type} {first : Except Stop α} {second : α → Except Stop β}

theorem of_ok {value : α} (returned : first = .ok value)
    (next : NoFault (second value)) : NoFault (first >>= second) := by
  rw [returned]
  exact next

theorem of_total {Gives : α → Prop}
    (total : Outcome (fun _ => False) Gives first) : NoFault first :=
  total.mono (fun _ impossible => impossible.elim) fun _ _ => trivial

theorem not_error (reason : Fault) :
    ¬NoFault (.error (.fault reason) : Except Stop α) := by
  intro safe
  have die : Stop.fault reason = .die := safe
  cases die

end NoFault

theorem param_of_lt {parv : List CString} {index : Nat}
    (short : index < parv.length) :
    param parv index = .ok (parv.getD index []) := by
  simp [param, short]

theorem NoFault.param {β : Type} {parv : List CString} {index : Nat}
    {second : CString → Except Stop β} (short : index < parv.length)
    (next : NoFault (second (parv.getD index []))) :
    NoFault (param parv index >>= second) :=
  .of_ok (param_of_lt short) next

theorem length_of_lacks {parv : List CString} {count index : Nat}
    (enough : ¬lacks parv count index = true) : count ≤ parv.length := by
  simp only [lacks, Bool.or_eq_true, decide_eq_true_eq, not_or, not_lt]
    at enough
  exact enough.1

namespace Clients

variable {s : Clients} {target : ClientId} {client : Client}

theorem deref_of_cell (used : s.client.cell target = some client) :
    s.deref target = .ok client := by
  rw [deref, used]

theorem userOf_of_isUser (user : s.isUser target = true) :
    ∃ person, s.userOf target = .ok person := by
  unfold isUser at user
  split at user
  · rename_i client used
    unfold Client.isUser at user
    split at user
    · rename_i person part
      exact ⟨person, by simp [userOf, used, part]⟩
    · cases user
  · cases user

theorem serviceOf_of_isService (service : s.isService target = true) :
    ∃ ours, s.serviceOf target = .ok ours := by
  unfold isService at service
  split at service
  · rename_i client used
    unfold Client.isService at service
    split at service
    · rename_i ours part
      exact ⟨ours, by simp [serviceOf, used, part]⟩
    · cases service
  · cases service

theorem exists_of_isUser (user : s.isUser target = true) :
    ∃ client, s.client.cell target = some client := by
  unfold isUser at user
  split at user
  · rename_i client used
    exact ⟨client, used⟩
  · cases user

theorem cell_of_findServer {name : CString}
    (found : s.findServer name = some target) :
    ∃ client, s.client.cell target = some client := by
  unfold findServer at found
  exact cell_of_findClient (Option.filter_eq_some_iff.mp found).1

theorem isServer_of_findServer {name : CString}
    (found : s.findServer name = some target) : s.isServer target = true := by
  unfold findServer at found
  exact (Option.filter_eq_some_iff.mp found).2

theorem isService_of_findService {name : CString}
    (found : s.findService name = some target) :
    s.isService target = true := by
  unfold findService at found
  exact (Option.filter_eq_some_iff.mp found).2

theorem noFault_userOf_iff {β : Type} {second : User → Except Stop β}
    (next : ∀ person, NoFault (second person)) :
    NoFault (s.userOf target >>= second) ↔ s.isUser target = true := by
  unfold userOf isUser
  split
  · rename_i client _
    unfold Client.isUser
    cases client.part with
    | user person => exact iff_of_true (next person) rfl
    | _ => exact iff_of_false (NoFault.not_error _) Bool.false_ne_true
  · exact iff_of_false (NoFault.not_error _) (by simp)

theorem noFault_serverOf_iff {β : Type} {second : Server → Except Stop β}
    (next : ∀ leaf, NoFault (second leaf)) :
    NoFault (s.serverOf target >>= second) ↔ s.isServer target = true := by
  unfold serverOf isServer
  split
  · rename_i client _
    unfold Client.isServer
    cases client.part with
    | server leaf => exact iff_of_true (next leaf) rfl
    | _ => exact iff_of_false (NoFault.not_error _) Bool.false_ne_true
  · exact iff_of_false (NoFault.not_error _) (by simp)

end Clients

namespace State

variable {env : Env} {now : Int} {s t : State} {clientP target : ClientId}
  {client : Client} {conn : Lconn} {parv : List CString}

theorem exit_total (rest : AtRest False s)
    (used : s.clients.client.cell target = some client) :
    Outcome (fun _ => False) (fun t => AtRest False t ∧ Frame s t)
      (s.exit env target) := by
  have total : Outcome (fun _ => False) (AtRest False) (s.exit env target) :=
    exit_atRest rest used fun impossible => impossible.elim
  have frame : Ensures (Frame s) (s.exit env target) := exit_frame
  cases exited : s.exit env target with
  | ok t => exact ⟨total.of_ok exited, frame.of_ok exited⟩
  | error reason => exact total.of_error exited

theorem found_exit_total (rest : AtRest False s) {name : CString}
    (found : s.clients.findClient name = some target) :
    Outcome (fun _ => False) (fun t => AtRest False t ∧ Frame s t)
      (s.exit env target) := by
  obtain ⟨client, used⟩ := Clients.cell_of_findClient found
  exact exit_total rest used

theorem uplink_of_link (link : s.serverP = some conn) :
    s.uplink = .ok conn := by
  rw [uplink, link]

section Commands

variable (used : s.clients.client.cell clientP = some client)

include used

theorem cAdmin_safe : NoFault (s.cAdmin clientP parv) := by
  unfold cAdmin
  split
  · exact trivial
  · split
    · exact trivial
    · exact .of_ok (Clients.deref_of_cell used) trivial

theorem cPing_safe : NoFault (s.cPing clientP parv) := by
  unfold cPing
  split
  · exact trivial
  · exact .of_ok (Clients.deref_of_cell used) trivial

theorem cVersion_safe : NoFault (s.cVersion clientP parv) := by
  unfold cVersion
  split
  · exact trivial
  · exact .of_ok (Clients.deref_of_cell used) trivial

theorem cTrace_safe (rest : AtRest False s) (link : s.serverP = some conn) :
    NoFault (s.cTrace clientP parv) := by
  unfold cTrace
  split
  · exact trivial
  · split
    · exact trivial
    · refine .of_ok (Clients.deref_of_cell used) ?_
      have listed : s.clients.serviceList.forM (fun serviceP => do
          let _ ← s.clients.serviceOf serviceP) =
            (.ok () : Except Stop Unit) := by
        have services := rest.services
        generalize s.clients.serviceList = list at services
        induction list with
        | nil => rfl
        | cons serviceP others ih =>
            obtain ⟨ours, there⟩ := Clients.serviceOf_of_isService
              (services serviceP (by simp))
            rw [List.forM, there]
            exact ih fun a later => services a (List.mem_cons_of_mem _ later)
      refine .of_ok listed ?_
      exact .of_ok (uplink_of_link link) trivial

end Commands

theorem cStats_safe (link : s.serverP = some conn) :
    NoFault (s.cStats clientP parv) := by
  unfold cStats
  split
  · exact trivial
  · rename_i enough
    split
    · exact trivial
    · rename_i source
      have user : s.clients.isUser clientP = true := by simpa using source
      obtain ⟨person, part⟩ := Clients.userOf_of_isUser user
      refine .param (length_of_lacks enough) ?_
      have servers : NoFault (s.statsServers (parv.getD 0 [])) := by
        unfold statsServers
        split
        · exact .of_ok (uplink_of_link link) trivial
        · exact trivial
      refine Outcome.bind servers fun _ _ => ?_
      exact NoFault.of_ok part trivial

theorem finburst_total (rest : AtRest False s) :
    Outcome (fun _ => False) (AtRest False) (s.finburst env) := by
  unfold finburst
  refine Outcome.foldlM (AtRest False) rest fun r before name _ => ?_
  split
  · exact before
  · rename_i target found
    obtain ⟨client, used⟩ := Clients.cell_of_findServer found
    exact (exit_total before used).imp fun _ exited => exited.1

theorem cPong_safe (rest : AtRest False s) (link : s.serverP = some conn) :
    NoFault (s.cPong env clientP parv) := by
  unfold cPong
  split
  · exact trivial
  · refine .of_ok (uplink_of_link link) ?_
    have finished : Outcome (fun _ => False) (AtRest False)
        (s.finishBurst env) := by
      unfold finishBurst
      split
      · exact rest
      · exact finburst_total (onLink_atRest (fun _ => rfl) rest)
    refine Outcome.bind (NoFault.of_total finished) fun _ _ => ?_
    exact trivial

theorem cError_safe (rest : AtRest False s) (link : s.serverP = some conn) :
    NoFault (s.cError env parv) := by
  unfold cError
  split
  · exact trivial
  · rename_i enough
    refine .of_ok (uplink_of_link link) ?_
    refine .param (length_of_lacks enough) ?_
    refine NoFault.of_total (signoffServer_atRest rest ?_ ?_)
    · exact fun impossible => impossible.elim
    · rw [link]
      rfl

theorem cQuit_safe (rest : AtRest False s) :
    NoFault (s.cQuit env clientP) := by
  unfold cQuit
  split
  · exact trivial
  · rename_i source
    have user : s.clients.isUser clientP = true := by simpa using source
    obtain ⟨client, used⟩ := Clients.exists_of_isUser user
    exact NoFault.of_total (exit_total rest used)

theorem logKill_safe : NoFault (s.logKill clientP) := by
  unfold logKill
  split
  · rename_i user
    obtain ⟨person, part⟩ := Clients.userOf_of_isUser user
    exact .of_ok part trivial
  · exact trivial

theorem countKill_safe : NoFault (s.countKill now) := by
  unfold countKill
  split
  · exact trivial
  · split
    · exact rfl
    · exact trivial

theorem cKill_safe (rest : AtRest False s) :
    NoFault (s.cKill env now clientP parv) := by
  unfold cKill
  split
  · exact trivial
  · rename_i enough
    refine .param (length_of_lacks enough) ?_
    split
    · exact trivial
    · rename_i target found
      split
      · exact trivial
      · split
        · unfold killService
          refine Outcome.bind logKill_safe fun _ _ => ?_
          refine Outcome.bind countKill_safe fun _ _ => ?_
          exact trivial
        · exact NoFault.of_total (found_exit_total rest found)

theorem collideNick_safe (env : Env) (rest : AtRest False s) (newts : Int)
    (found : Option ClientId)
    (there : ∀ target, found = some target →
      ∃ client, s.clients.client.cell target = some client) :
    Outcome (· = .die) (fun next => AtRest False next.1 ∧ Frame s next.1)
      (s.collideNick env newts found) := by
  unfold collideNick
  cases found with
  | none => exact ⟨rest, Frame.refl s⟩
  | some target =>
      obtain ⟨client, used⟩ := there target rfl
      dsimp only
      rw [Clients.deref_of_cell used, Except.ok_bind]
      split
      · exact ⟨rest, Frame.refl s⟩
      · split
        · exact ⟨rest, Frame.refl s⟩
        · refine Outcome.bind ((exit_total rest used).mono
            (fun _ impossible => impossible.elim) fun _ => id) ?_
          exact fun _ exited => exited
      · split
        · exact rfl
        · exact ⟨rest, Frame.refl s⟩

theorem Frame.isServer (frame : Frame s t) (a : ClientId) :
    t.clients.isServer a = s.clients.isServer a := by
  cases used : s.clients.client.cell a with
  | none =>
      have kept := frame.cells a
      rw [used] at kept
      cases free : t.clients.client.cell a with
      | none => simp [Clients.isServer, used, free]
      | some client =>
          rw [free] at kept
          cases kept
  | some client =>
      obtain ⟨after, there, lasting⟩ := frame.lasting used
      have same := lasting.part
      simp only [Clients.isServer, used, there, Client.isServer]
      cases before : client.part <;> cases later : after.part <;>
        simp_all [Part.bare]

theorem addUser_isServer (user : Client)
    (other : target ≠ s.clients.client.next) :
    (s.addUser user).clients.isServer target = s.clients.isServer target := by
  have cells : (s.addUser user).clients.client =
      (s.clients.withNew user).client :=
    (Clients.addClient_cells s.clients.client.next
      (s.clients.withNew user)).1
  rw [Clients.isServer, cells]
  exact Clients.withNew_shows Client.isServer other

theorem linkUser_safe_iff {user : Client}
    (used : s.clients.client.cell target = some client) :
    NoFault (s.linkUser target user) ↔ s.clients.isServer target = true := by
  have other : target ≠ s.clients.client.next :=
    Nat.ne_of_lt (Heap.lt_next used)
  rw [← addUser_isServer user other]
  exact Clients.noFault_serverOf_iff fun _ => trivial

theorem linkLeaf_safe_iff {server : Client}
    (used : s.clients.client.cell target = some client) :
    NoFault (s.linkLeaf target server) ↔ s.clients.isServer target = true := by
  have other : target ≠ s.clients.client.next :=
    Nat.ne_of_lt (Heap.lt_next used)
  have same : (s.allocClient server).clients.isServer target =
      s.clients.isServer target :=
    Clients.withNew_shows Client.isServer other
  rw [← same]
  exact Clients.noFault_serverOf_iff fun _ => trivial

theorem introduceNick_safe (rest : AtRest False s) (eight : parv.length = 8) :
    NoFault (s.introduceNick env parv) := by
  unfold introduceNick
  refine .param (by omega) (.param (by omega) (.param (by omega) ?_))
  split
  · exact trivial
  · rename_i uplinkP found
    have server := Clients.isServer_of_findServer found
    split
    · exact rfl
    · have collided := collideNick_safe env rest (atol (parv.getD 2 []))
        (s.clients.findNamedClient (parv.getD 0 []))
        fun _ => Clients.cell_of_findNamedClient
      refine Outcome.bind collided ?_
      rintro ⟨t, introduce⟩ ⟨_, frame⟩
      have after : t.clients.isServer uplinkP = true :=
        (frame.isServer uplinkP).trans server
      obtain ⟨client, _, used, _⟩ := Clients.exists_part_of_isServer after
      dsimp only
      split
      · exact trivial
      · refine NoFault.of_ok (Clients.deref_of_cell used) ?_
        refine .param (by omega) (.param (by omega) (.param (by omega) ?_))
        exact .param (by omega) ((linkUser_safe_iff used).mpr after)

theorem changeNick_safe (two : parv.length = 2) :
    NoFault (s.changeNick env clientP parv) := by
  unfold changeNick
  split
  · exact trivial
  · refine .param (by omega) ?_
    split
    · exact rfl
    · exact .param (by omega) trivial

theorem cNick_safe (rest : AtRest False s) :
    NoFault (s.cNick env clientP parv) := by
  unfold cNick
  split
  · rename_i eight
    exact introduceNick_safe rest eight
  · split
    · rename_i two
      exact changeNick_safe two
    · exact trivial

theorem cKick_safe : NoFault (s.cKick parv) := by
  unfold cKick
  split
  · exact trivial
  · rename_i enough
    have long := length_of_lacks enough
    refine .param (by omega) ?_
    split
    · exact trivial
    · refine .param (by omega) ?_
      split
      · exact trivial
      · split
        · exact trivial
        · split <;> exact trivial

theorem cPart_safe : NoFault (s.cPart clientP parv) := by
  unfold cPart
  split
  · exact trivial
  · rename_i enough
    split
    · exact trivial
    · refine .param (length_of_lacks enough) ?_
      split
      · exact trivial
      · split <;> exact trivial

theorem cTopic_safe (used : s.clients.client.cell clientP = some client) :
    NoFault (s.cTopic env now clientP parv) := by
  unfold cTopic
  split
  · exact trivial
  · refine .param (by omega) ?_
    split
    · exact trivial
    · refine .param (by omega) ?_
      exact .of_ok (Clients.deref_of_cell used) trivial

theorem cTb_safe (used : s.clients.client.cell clientP = some client) :
    NoFault (s.cTb env now clientP parv) := by
  unfold cTb
  split
  · exact trivial
  · rename_i enough
    have long : ¬parv.length < 3 := by simp_all
    refine .param (by omega) ?_
    split
    · exact trivial
    · refine .param (by omega) ?_
      dsimp only
      split
      · exact trivial
      · refine .of_ok (Clients.deref_of_cell used) ?_
        have topic : NoFault (tbTopic client parv) := by
          unfold tbTopic
          split
          · exact .param (by omega) (.param (by omega) trivial)
          · exact .param (by omega) trivial
        refine Outcome.bind topic ?_
        rintro ⟨topic, who⟩ _
        dsimp only
        split <;> exact trivial

theorem cSjoin_safe (used : s.clients.client.cell clientP = some client) :
    NoFault (s.cSjoin env now clientP parv) := by
  unfold cSjoin
  split
  · exact trivial
  · rename_i enough
    have long := length_of_lacks enough
    refine .param (by omega) ?_
    split
    · exact trivial
    · refine .param (by omega) ?_
      refine .of_ok (Clients.deref_of_cell used) ?_
      refine .param (by omega) ?_
      split <;> exact trivial

theorem emptyParam_of_le {index : Nat} (short : index ≤ parv.length) :
    emptyParam parv index = .ok (parv.getD index []).isEmpty := by
  rw [emptyParam, if_pos short]

theorem length_of_nonempty {index : Nat} (short : index ≤ parv.length)
    (given : ¬(parv.getD index []).isEmpty = true) : index < parv.length := by
  rcases Nat.lt_or_eq_of_le short with less | last
  · exact less
  · subst last
    simp at given

theorem cJoin_safe : NoFault (s.cJoin env now clientP parv) := by
  unfold cJoin
  refine .of_ok (emptyParam_of_le (Nat.zero_le _)) ?_
  split
  · exact trivial
  · rename_i given
    split
    · exact trivial
    · refine .param (length_of_nonempty (Nat.zero_le _) given) ?_
      split
      · exact trivial
      · split
        · exact trivial
        · refine .param (by omega) ?_
          split
          · exact trivial
          · refine .param (by omega) ?_
            dsimp only
            split <;> exact trivial

theorem cMode_safe : NoFault (s.cMode env now clientP parv) := by
  unfold cMode
  split
  · exact trivial
  · rename_i enough
    refine .param (length_of_lacks enough) ?_
    split
    · exact trivial
    · rename_i modes
      split
      · split
        · exact trivial
        · split
          · exact trivial
          · exact .param (length_of_lacks modes) trivial
      · split
        · exact trivial
        · split <;> exact trivial

theorem cTmode_safe : NoFault (s.cTmode env now clientP parv) := by
  unfold cTmode
  split
  · exact trivial
  · rename_i enough
    have long := length_of_lacks enough
    refine .param (by omega) ?_
    split
    · exact trivial
    · refine .param (by omega) ?_
      split <;> exact trivial

theorem execService_total (rest : AtRest False s) (act : ServiceAct) :
    Outcome (fun _ => False) (AtRest False) (execService env now s act) := by
  cases act with
  | chan act => exact rest.of_clients rfl rfl
  | issueMode serviceP chptr allowSslonly parv =>
      exact rest.of_clients rfl rfl
  | exit name =>
      unfold execService
      dsimp only
      split
      · exact rest
      · rename_i target found
        exact (found_exit_total rest found).imp fun _ exited => exited.1

theorem operLogin_safe {serviceP : ClientId} {user : User} :
    NoFault (s.operLogin env serviceP clientP user parv) := by
  unfold operLogin
  split
  · exact trivial
  · split
    · exact trivial
    · refine .param (by omega) ?_
      split
      · exact trivial
      · refine .param (by omega) ?_
        split <;> exact trivial

theorem serviceCommand_safe {serviceP : ClientId} {user : User}
    {service : Service} {command : CString} {msg : Bool}
    (rest : AtRest False s) :
    NoFault (s.serviceCommand env now serviceP clientP user service command
      parv msg) := by
  unfold serviceCommand
  dsimp only
  split
  · exact trivial
  split
  · split
    · exact trivial
    · split <;> exact trivial
  split
  · exact operLogin_safe
  split
  · exact trivial
  split
  · exact trivial
  split
  · exact trivial
  split
  · exact trivial
  · have ran : Outcome (fun _ => False) (AtRest False)
        ((env.runCommand s serviceP clientP command parv).1.foldlM
          (execService env now) s) :=
      Outcome.foldlM (AtRest False) rest fun _ before act _ =>
        execService_total before act
    exact Outcome.bind (NoFault.of_total ran) fun _ _ => trivial

theorem handleService_safe {serviceP : ClientId} {command : CString}
    {msg : Bool} (rest : AtRest False s)
    (service : s.clients.isService serviceP = true)
    (user : s.clients.isUser clientP = true) :
    NoFault (s.handleService env now serviceP clientP command parv msg) := by
  obtain ⟨ours, there⟩ := Clients.serviceOf_of_isService service
  obtain ⟨person, part⟩ := Clients.userOf_of_isUser user
  unfold handleService
  refine .of_ok there ?_
  split
  · exact trivial
  · refine .of_ok part ?_
    dsimp only
    split
    · exact trivial
    · refine serviceCommand_safe ?_
      have effects : Effects env
          (fun r hazard => False → TableSafe r hazard) (fun _ _ => True) s
          (s.floodLimit env now serviceP clientP person ours command).1 :=
        floodLimit_effects s person ours command
      exact effects_atRest effects rest

theorem handleServiceMsg_safe {serviceP : ClientId} {text : CString}
    (rest : AtRest False s)
    (service : s.clients.isService serviceP = true) :
    NoFault (s.handleServiceMsg env now serviceP clientP text) := by
  unfold handleServiceMsg
  split
  · exact trivial
  · rename_i source
    have user : s.clients.isUser clientP = true := by simpa using source
    split <;> exact handleService_safe rest service user

theorem isService_of_messageTarget {name : CString}
    (found : s.messageTarget name = some target) :
    s.clients.isService target = true := by
  unfold messageTarget at found
  split at found
  · have hit := List.find?_some found
    split at hit
    · rename_i client used
      split at hit
      · rename_i ours part
        simp [Clients.isService, used, Client.isService, part]
      · cases hit
    · cases hit
  · exact Clients.isService_of_findService found

theorem cEncap_safe (rest : AtRest False s) :
    NoFault (s.cEncap env now clientP parv) := by
  unfold cEncap
  split
  · exact trivial
  rename_i two
  refine .param (by omega) ?_
  split
  · exact trivial
  refine .param (by omega) ?_
  split
  · refine .of_ok (emptyParam_of_le (by omega)) ?_
    split
    · exact trivial
    · rename_i given
      rw [Bool.or_eq_true, not_or] at given
      exact .param (length_of_nonempty (by omega) given.1) trivial
  split
  · refine .of_ok (emptyParam_of_le (by omega)) ?_
    split
    · exact trivial
    · rename_i given
      rw [Bool.or_eq_true, not_or] at given
      exact .param (length_of_nonempty (by omega) given.1) trivial
  split
  · split
    · exact trivial
    · rename_i fits
      simp only [Bool.or_eq_true, decide_eq_true_eq, Bool.not_eq_true',
        not_or, not_lt, Bool.not_eq_false] at fits
      refine .param (by omega) ?_
      split
      · exact trivial
      · rename_i serviceP found
        refine .param (by omega) ?_
        exact handleService_safe rest
          (Clients.isService_of_findService found) fits.2
  · exact trivial

end State

end RatboxServices
