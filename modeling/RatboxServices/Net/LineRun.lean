import RatboxServices.Net.LineSafe

namespace RatboxServices

open CString

/-! Which lines of a known source are handled with what is there, along every
run. -/

def Command.malformed (parv : List CString) : Command → Bool
  | .admin | .ping | .pong | .stats | .trace | .version | .time | .error
  | .part | .kill | .squit => lacks parv 1 0
  | .capab => decide (parv.length < 1)
  | .pass | .encap | .topic => decide (parv.length < 2)
  | .whois | .privmsg | .kick => lacks parv 2 1
  | .mode => lacks parv 1 0 || lacks parv 2 1
  | .tb | .server => decide (parv.length < 3)
  | .tmode => lacks parv 3 2
  | .sid | .bmask => decide (parv.length < 4)
  | .sjoin => lacks parv 4 3
  | .join =>
      lacks parv 1 0 || (decide (parv.length < 3) &&
        !(parv.length = 1 && firstIs (· == '0') (parv.getD 0 [])))
  | .nick => decide (parv.length ≠ 8) && decide (parv.length ≠ 2)
  | .uid => decide (parv.length ≠ 9)
  | .quit => false

namespace State

variable {env : Env} {now : Int} {s t : State} {clientP target : ClientId}
  {client : Client} {conn : Lconn} {parv : List CString}

def Handled (s : State) (command : Command) (parv : List CString)
    (result : Except Stop State) : Prop :=
  NoFault result ∧ (command.malformed parv = true → result = .ok s)

/-- A `WHOIS` of a user asks for a client that is there. -/
def whoisFinds (clientP : ClientId) (parv : List CString) (s : State) : Bool :=
  lacks parv 2 1 || !s.clients.isUser clientP ||
    (s.clients.findClient (parv.getD 1 [])).isSome

def isChatRequest (text : CString) : Bool :=
  firstIs (· == Char.ofNat 1) text && isChat text

def chatFromUser (clientP : ClientId) (parv : List CString) (s : State) :
    Bool :=
  lacks parv 2 1 || (s.messageTarget (parv.getD 0 [])).isNone ||
    !isChatRequest (parv.getD 1 []) || s.clients.isUser clientP

def nickYields (newts : Int) (found : Option ClientId) (s : State) : Bool :=
  match found with
  | none => true
  | some target =>
      match s.clients.client.cell target with
      | some client =>
          match client.part with
          | .user user => !decide (user.tsinfo < newts)
          | _ => false
      | none => false

/-- A `UID` that gets to its new user. -/
def uidIntroduces (env : Env) (parv : List CString) (s : State) : Bool :=
  decide (parv.length = 9) &&
    !decide (env.nickLen < (parv.getD 0 []).length) &&
    s.nickYields (atol (parv.getD 2 [])) (s.clients.findClient (parv.getD 0 []))

/-- The letters of a `BMASK` that name a list. -/
def isListLetter : CString → Bool
  | c :: _ => c == 'b' || c == 'e' || c == 'I'
  | [] => false

/-- The parameters of a `BMASK` are there as far as they are looked at. -/
def bmaskComplete (parv : List CString) (s : State) : Bool :=
  decide (2 ≤ parv.length) &&
    match s.chans.findChannel (parv.getD 1 []) with
    | none => true
    | some chptr =>
        decide ((s.chans.channel.get chptr).tsinfo <
          atol (parv.getD 0 [])) ||
        (decide (3 ≤ parv.length) &&
          (!isListLetter (parv.getD 2 []) || decide (4 ≤ parv.length)))

def behindServer (count : Nat) (clientP : ClientId) (parv : List CString)
    (s : State) : Bool :=
  decide (parv.length < count) ||
    decide (hostLen < (parv.getD 0 []).length) || s.clients.isServer clientP

/-- The line is one that its handler is written for. A `SQUIT` without a name
takes our uplink. -/
def safeLine (env : Env) (clientP : ClientId) (command : Command)
    (parv : List CString) (s : State) : Bool :=
  match command with
  | .whois => s.whoisFinds clientP parv
  | .privmsg => s.chatFromUser clientP parv
  | .uid => !s.uidIntroduces env parv || s.clients.isServer clientP
  | .server => s.behindServer 3 clientP parv
  | .sid => s.behindServer 4 clientP parv
  | .bmask => s.bmaskComplete parv
  | .squit => !lacks parv 1 0
  | _ => true

theorem noFault_ok_iff {α β : Type} {first : Except Stop α}
    {second : α → Except Stop β} {value : α} (returned : first = .ok value) :
    NoFault (first >>= second) ↔ NoFault (second value) := by
  rw [returned]
  rfl

theorem noFault_param_iff {β : Type} {index : Nat}
    {second : CString → Except Stop β} (short : index < parv.length) :
    NoFault (param parv index >>= second) ↔
      NoFault (second (parv.getD index [])) :=
  noFault_ok_iff (param_of_lt short)

theorem noFault_bind_iff {α β : Type} {first : Except Stop α}
    {second : α → Except Stop β} (next : ∀ value, NoFault (second value)) :
    NoFault (first >>= second) ↔ NoFault first := by
  cases first with
  | ok value => exact iff_of_true (next value) trivial
  | error reason => exact Iff.rfl

theorem not_noFault_param {β : Type} {index : Nat}
    {second : CString → Except Stop β} (missing : ¬index < parv.length) :
    ¬NoFault (param parv index >>= second) := by
  have absent : param parv index = .error (.fault (.parameter index)) := by
    simp [param, Nat.le_of_not_lt missing]
  rw [absent]
  exact NoFault.not_error _

theorem whoisReply_safe (rest : AtRest False s) (found : Option ClientId) :
    NoFault (s.whoisReply found) := by
  unfold whoisReply
  split
  · exact trivial
  · rename_i target
    split
    · rename_i user
      obtain ⟨client, used⟩ := Clients.exists_of_isUser user
      obtain ⟨person, part⟩ := Clients.userOf_of_isUser user
      obtain ⟨uplinkP, on⟩ :=
        Option.isSome_iff_exists.mp (rest.tree.user target user)
      have above : client.uplink = some uplinkP := by
        simpa [Clients.uplinkOf, used] using on
      obtain ⟨server, _, there, _⟩ := Clients.exists_part_of_isServer
        (rest.tree.above target uplinkP on).2
      refine .of_ok (Clients.deref_of_cell used) ?_
      refine .of_ok part ?_
      rw [above]
      exact .of_ok rfl (.of_ok (Clients.deref_of_cell there) trivial)
    · split
      · rename_i service
        obtain ⟨ours, there⟩ := Clients.serviceOf_of_isService service
        exact .of_ok there trivial
      · exact trivial

theorem cWhois_safe_iff (rest : AtRest False s) :
    NoFault (s.cWhois clientP parv) ↔ s.whoisFinds clientP parv = true := by
  unfold cWhois whoisFinds
  split
  · rename_i short
    simp [short, NoFault, Outcome]
  · rename_i enough
    have long := length_of_lacks enough
    split
    · rename_i source
      simp [source, NoFault, Outcome]
    · rename_i source
      rw [noFault_param_iff (by omega)]
      have reply := whoisReply_safe rest
        (s.clients.findClient (parv.getD 1 []))
      cases found : s.clients.findClient (parv.getD 1 []) with
      | none =>
          refine iff_of_false (NoFault.not_error .nullClient) ?_
          simp [enough, source]
      | some target =>
          rw [found] at reply
          obtain ⟨client, used⟩ := Clients.cell_of_findClient found
          simp only [Option.isSome_some, Bool.or_true, iff_true]
          refine Outcome.bind reply fun _ _ => ?_
          exact NoFault.of_ok rfl
            (NoFault.of_ok (Clients.deref_of_cell used) trivial)

theorem cMessage_safe_iff (rest : AtRest False s) :
    NoFault (s.cMessage env now clientP parv) ↔
      s.chatFromUser clientP parv = true := by
  unfold cMessage chatFromUser
  split
  · rename_i short
    simp [short, NoFault, Outcome]
  · rename_i enough
    have long := length_of_lacks enough
    rw [noFault_param_iff (by omega)]
    cases found : s.messageTarget (parv.getD 0 []) with
    | none => simp [NoFault, Outcome]
    | some target =>
        dsimp only
        rw [noFault_param_iff (by omega)]
        have service := isService_of_messageTarget found
        unfold isChatRequest
        split
        · rename_i ctcp
          split
          · rename_i other
            refine iff_of_true trivial ?_
            simp_all
          · rename_i chat
            have request : isChat (parv.getD 1 []) = true := by simpa using chat
            have used : NoFault (s.clients.userOf clientP >>= fun _ =>
                Except.ok s) ↔ s.clients.isUser clientP = true :=
              Clients.noFault_userOf_iff fun _ => trivial
            refine used.trans ?_
            simp only [enough, ctcp, request, Option.isNone_some, Bool.or_false,
              Bool.and_self, Bool.not_true, Bool.false_or]
        · rename_i plain
          refine iff_of_true (handleServiceMsg_safe rest service) ?_
          simp only [plain, Bool.false_and, Bool.not_false, Bool.or_true,
            Bool.true_or]

theorem collideNick_spec (env : Env) (rest : AtRest False s) (newts : Int)
    (found : Option ClientId)
    (there : ∀ target, found = some target →
      ∃ client, s.clients.client.cell target = some client) :
    Outcome (fun reason => reason = .die ∧ s.nickYields newts found = false)
      (fun next => next.2 = s.nickYields newts found)
      (s.collideNick env newts found) := by
  unfold collideNick
  cases found with
  | none => exact rfl
  | some target =>
      obtain ⟨client, used⟩ := there target rfl
      dsimp only
      rw [Clients.deref_of_cell used, Except.ok_bind]
      cases part : client.part with
      | server leaf =>
          have stays : s.nickYields newts (some target) = false := by
            simp [nickYields, used, part]
          exact stays.symm
      | user person =>
          have yields : s.nickYields newts (some target) =
              !decide (person.tsinfo < newts) := by
            simp [nickYields, used, part]
          rw [yields]
          dsimp only
          split
          · rename_i older
            simp [Outcome, older]
          · rename_i newer
            refine Outcome.bind ((exit_total rest used).mono
              (fun _ impossible => impossible.elim) fun _ => id) ?_
            intro t _
            simp [Outcome, newer]
      | service ours =>
          have stays : s.nickYields newts (some target) = false := by
            simp [nickYields, used, part]
          dsimp only
          split
          · exact ⟨rfl, stays⟩
          · exact stays.symm

theorem cUid_safe_iff (rest : AtRest False s)
    (used : s.clients.client.cell clientP = some client) :
    NoFault (s.cUid env clientP parv) ↔
      (!s.uidIntroduces env parv || s.clients.isServer clientP) = true := by
  unfold cUid uidIntroduces
  split
  · rename_i other
    exact iff_of_true trivial (by simp [other])
  · rename_i nine
    have nine : parv.length = 9 := by simpa using nine
    rw [noFault_param_iff (by omega), noFault_param_iff (by omega)]
    split
    · rename_i long
      exact iff_of_true rfl (by simp only [long, decide_true, Bool.not_true,
        Bool.and_false, Bool.false_and, Bool.not_false, Bool.true_or])
    · rename_i short
      have there : ∀ target, s.clients.findClient (parv.getD 0 []) =
          some target → ∃ client, s.clients.client.cell target = some client :=
        fun _ => Clients.cell_of_findClient
      have spec := collideNick_spec env rest (atol (parv.getD 2 [])) _ there
      have kept := collideNick_safe env rest (atol (parv.getD 2 [])) _ there
      simp only [nine, short, decide_true, decide_false, Bool.not_false,
        Bool.true_and]
      cases collided : s.collideNick env (atol (parv.getD 2 []))
          (s.clients.findClient (parv.getD 0 [])) with
      | error reason =>
          obtain ⟨rfl, stays⟩ := spec.of_error collided
          exact iff_of_true rfl (by simp only [stays, Bool.not_false,
            Bool.true_or])
      | ok next =>
          obtain ⟨t, introduce⟩ := next
          have yields : introduce = s.nickYields (atol (parv.getD 2 []))
              (s.clients.findClient (parv.getD 0 [])) := spec.of_ok collided
          have frame : Frame s t := (kept.of_ok collided).2
          obtain ⟨after, later, _⟩ := frame.lasting used
          rw [← yields]
          cases introduce with
          | false => exact iff_of_true trivial rfl
          | true =>
              show NoFault (t.clients.deref clientP >>= _) ↔
                s.clients.isServer clientP = true
              rw [noFault_ok_iff (Clients.deref_of_cell later),
                noFault_param_iff (by omega), noFault_param_iff (by omega),
                noFault_param_iff (by omega), noFault_param_iff (by omega),
                noFault_param_iff (by omega), noFault_param_iff (by omega),
                linkUser_safe_iff later, frame.isServer clientP]

theorem behindServer_iff {count : Nat} (enough : ¬parv.length < count)
    (fits : ¬hostLen < (parv.getD 0 []).length) :
    s.behindServer count clientP parv = true ↔
      s.clients.isServer clientP = true := by
  simp only [behindServer, enough, fits, decide_false, Bool.false_or]

theorem cServer_safe_iff (used : s.clients.client.cell clientP = some client) :
    NoFault (s.cServer env now (some clientP) parv) ↔
      s.behindServer 3 clientP parv = true := by
  unfold cServer
  split
  · rename_i short
    exact iff_of_true trivial (by simp [behindServer, short])
  · rename_i enough
    rw [noFault_param_iff (by omega)]
    split
    · rename_i long
      refine iff_of_true rfl ?_
      simp only [behindServer, long, decide_true, Bool.or_true, Bool.true_or]
    · rename_i fits
      rw [behindServer_iff enough fits]
      dsimp only
      rw [noFault_param_iff (by omega), noFault_param_iff (by omega)]
      refine Iff.trans (noFault_bind_iff ?_) (linkLeaf_safe_iff used)
      exact fun _ => trivial

theorem cSid_safe_iff (used : s.clients.client.cell clientP = some client) :
    NoFault (s.cSid clientP parv) ↔ s.behindServer 4 clientP parv = true := by
  unfold cSid
  split
  · rename_i short
    exact iff_of_true trivial (by simp [behindServer, short])
  · rename_i enough
    rw [noFault_param_iff (by omega)]
    split
    · rename_i long
      refine iff_of_true rfl ?_
      simp only [behindServer, long, decide_true, Bool.or_true, Bool.true_or]
    · rename_i fits
      rw [behindServer_iff enough fits, noFault_param_iff (by omega),
        noFault_param_iff (by omega), noFault_param_iff (by omega)]
      exact linkLeaf_safe_iff used

theorem cBmask_safe_iff :
    NoFault (s.cBmask env parv) ↔ s.bmaskComplete parv = true := by
  unfold cBmask bmaskComplete
  by_cases two : 2 ≤ parv.length
  · rw [noFault_param_iff (by omega)]
    simp only [two, decide_true, Bool.true_and]
    cases s.chans.findChannel (parv.getD 1 []) with
    | none => exact iff_of_true trivial rfl
    | some chptr =>
        dsimp only
        rw [noFault_param_iff (by omega)]
        split
        · rename_i newer
          refine iff_of_true trivial ?_
          simp only [newer, decide_true, Bool.true_or]
        · rename_i older
          simp only [older, decide_false, Bool.false_or, Bool.and_eq_true,
            decide_eq_true_eq]
          by_cases three : 3 ≤ parv.length
          · rw [noFault_param_iff (by omega)]
            simp only [three, true_and]
            have fourth {second : CString → Except Stop State}
                (next : ∀ masks, NoFault (second masks)) :
                NoFault (param parv 3 >>= second) ↔ 4 ≤ parv.length := by
              by_cases four : 4 ≤ parv.length
              · rw [noFault_param_iff (by omega)]
                exact iff_of_true (next _) four
              · exact iff_of_false (not_noFault_param (by omega)) four
            generalize parv.getD 2 [] = letter
            split
            · refine (fourth ?_).trans (by simp [isListLetter])
              exact fun _ => trivial
            · refine (fourth ?_).trans (by simp [isListLetter])
              exact fun _ => trivial
            · refine (fourth ?_).trans (by simp [isListLetter])
              exact fun _ => trivial
            · rename_i notB notE notI
              refine iff_of_true trivial ?_
              cases letter with
              | nil => rfl
              | cons c rest =>
                  have other : isListLetter (c :: rest) = false := by
                    simp only [isListLetter, Bool.or_eq_false_iff,
                      beq_eq_false_iff_ne]
                    refine ⟨⟨?_, ?_⟩, ?_⟩
                    · rintro rfl
                      exact notB rest rfl
                    · rintro rfl
                      exact notE rest rfl
                    · rintro rfl
                      exact notI rest rfl
                  simp [other]
          · refine iff_of_false (not_noFault_param (by omega)) ?_
            simp [three]
  · refine iff_of_false (not_noFault_param (by omega)) ?_
    simp [two]

theorem delClient_ne (wild : Clients.Wild) {clients : Clients}
    (used : clients.client.cell target = some client) :
    clients.delClient wild target ≠ clients := by
  intro same
  by_cases linked : clients.linked target client = true
  · have here : target ∈ (clients.nameTable (hashName client.name)).nodes := by
      simp only [Clients.linked, Bool.and_eq_true, decide_eq_true_eq] at linked
      exact linked.1
    have names := congrArg
      (fun c : Clients => (c.nameTable (hashName client.name)).nodes.length)
      same
    have shorter : ((clients.delClient wild target).nameTable
        (hashName client.name)).nodes.length + 1 =
          (clients.nameTable (hashName client.name)).nodes.length := by
      have kept : (clients.delClient wild target).nameTable
          (hashName client.name) =
          (clients.nameTable (hashName client.name)).delete wild target := by
        simp only [Clients.delClient, used]
        split <;> simp [Clients.onName, Clients.onUid]
      rw [kept, DlinkList.delete, if_pos here]
      have some := List.length_pos_of_mem here
      simp only [Dlink.delete, List.length_erase_of_mem here]
      omega
    omega
  · have deletes := congrArg (fun c : Clients => c.unlinkedDeletes.length) same
    simp [Clients.delClient, used, linked] at deletes

theorem exit_server_ne (server : s.clients.isServer target = true) :
    s.exit env target ≠ .ok s := by
  intro same
  obtain ⟨client, leaf, used, part⟩ := Clients.exists_part_of_isServer server
  have plain : client.isService = false := by simp [Client.isService, part]
  by_cases dead : client.isDead = true
  · rw [exit_of_dead used plain dead] at same
    have clients := congrArg State.clients (Except.ok.inj same)
    exact delClient_ne env.wild used clients
  · have marked : Ensures (Frame (s.modifyClient target
        (·.setFlag flagsDead))) (s.exit env target) := by
      unfold exit exitClient
      rw [Clients.deref_of_cell used, Except.ok_bind, part]
      refine Outcome.bind (exitServer_marks (exitClient_frame _) dead) ?_
      exact fun t after => after.trans delClient_frame
    have frame := marked.of_ok same
    have dies : (s.modifyClient target (·.setFlag flagsDead)).clients.client.cell
        target = some (client.setFlag flagsDead) := by
      simp [State.modifyClient, Clients.modify, used]
    obtain ⟨after, later, lasting⟩ := frame.lasting dies
    rw [used] at later
    cases later
    refine dead (lasting.dead ?_)
    simp [Client.isDead, Client.setFlag, flagsDead]

theorem cSquit_unnamed (rest : AtRest False s) (link : s.serverP = some conn)
    (unnamed : lacks parv 1 0 = true) :
    ¬(NoFault (s.cSquit env parv) ∧ s.cSquit env parv = .ok s) := by
  rintro ⟨safe, same⟩
  unfold cSquit at safe same
  rw [if_pos unnamed] at safe same
  rw [uplink_of_link link] at safe same
  have used : NoFault (nonNull conn.clientP >>= fun target =>
      s.exit env target) := safe
  have left : (nonNull conn.clientP >>= fun target => s.exit env target) =
      .ok s := same
  cases uplink : conn.clientP with
  | none =>
      rw [uplink] at used
      exact NoFault.not_error .nullClient used
  | some target =>
      rw [uplink] at left
      have server : s.clients.isServer target = true := by
        refine rest.uplink target ?_
        rw [uplinkP, link]
        exact uplink
      have moved : s.exit env target ≠ .ok s := exit_server_ne server
      exact moved left

theorem cSquit_named (rest : AtRest False s) (named : lacks parv 1 0 = false) :
    NoFault (s.cSquit env parv) := by
  unfold cSquit
  have enough : ¬lacks parv 1 0 = true := by simp [named]
  rw [if_neg enough]
  refine .param (length_of_lacks enough) ?_
  split
  · exact trivial
  · rename_i target found
    obtain ⟨client, used⟩ := Clients.cell_of_findServer found
    exact NoFault.of_total (exit_total rest used)

theorem cBmask_of_short (complete : s.bmaskComplete parv = true)
    (short : parv.length < 4) : s.cBmask env parv = .ok s := by
  unfold bmaskComplete at complete
  rw [Bool.and_eq_true, decide_eq_true_eq] at complete
  obtain ⟨two, rest⟩ := complete
  unfold cBmask
  rw [param_of_lt (by omega), Except.ok_bind]
  cases found : s.chans.findChannel (parv.getD 1 []) with
  | none => rfl
  | some chptr =>
      rw [found] at rest
      dsimp only at rest ⊢
      rw [param_of_lt (by omega)]
      show (if _ then _ else _) = _
      split
      · rfl
      · rename_i older
        have third : 3 ≤ parv.length ∧ isListLetter (parv.getD 2 []) = false := by
          simpa only [older, decide_false, Bool.false_or, Bool.and_eq_true,
            decide_eq_true_eq, Bool.or_eq_true, Bool.not_eq_true',
            Nat.not_le_of_lt short, Bool.false_eq_true, or_false] using rest
        rw [param_of_lt (by omega), Except.ok_bind]
        generalize parv.getD 2 [] = letter at third
        split
        · simp [isListLetter] at third
        · simp [isListLetter] at third
        · simp [isListLetter] at third
        · rfl

theorem cJoin_of_malformed (bad : Command.join.malformed parv = true) :
    s.cJoin env now clientP parv = .ok s := by
  unfold cJoin
  rw [emptyParam_of_le (Nat.zero_le _)]
  show (if _ then _ else _) = _
  split
  · rfl
  · rename_i given
    split
    · rfl
    · have some := length_of_nonempty (Nat.zero_le _) given
      rw [param_of_lt some]
      show (if _ then _ else _) = _
      have few : parv.length < 3 ∧ (decide (parv.length = 1) &&
          firstIs (· == '0') (parv.getD 0 [])) = false := by
        simpa only [Command.malformed, lacks, Nat.not_lt_of_le some, given,
          decide_false, Bool.false_or, Bool.and_eq_true, decide_eq_true_eq,
          Bool.not_eq_true'] using bad
      rw [if_neg (Bool.not_eq_true _ ▸ few.2), if_pos few.1]

theorem ignored_of_malformed {command : Command}
    (safe : s.safeLine env clientP command parv = true)
    (bad : command.malformed parv = true) :
    s.handleScommandClient env now clientP command parv = .ok s := by
  cases command with
  | admin => exact if_pos bad
  | capab => exact if_pos (by simpa [Command.malformed] using bad)
  | encap => exact if_pos (by simpa [Command.malformed] using bad)
  | pass => exact if_pos (by simpa [Command.malformed] using bad)
  | ping => exact if_pos bad
  | pong =>
      refine if_pos ?_
      have short : lacks parv 1 0 = true := bad
      simp [short]
  | stats => exact if_pos bad
  | trace => exact if_pos bad
  | version => exact if_pos bad
  | time => exact if_pos bad
  | whois => exact if_pos bad
  | error => exact if_pos bad
  | mode =>
      have short : lacks parv 1 0 = true ∨ lacks parv 2 1 = true := by
        simpa [Command.malformed] using bad
      show s.cMode env now clientP parv = .ok s
      unfold cMode
      split
      · rfl
      · rename_i enough
        rw [param_of_lt (length_of_lacks enough)]
        exact if_pos (short.resolve_left enough)
  | tmode => exact if_pos bad
  | bmask =>
      have short : parv.length < 4 := by simpa [Command.malformed] using bad
      exact cBmask_of_short safe short
  | privmsg => exact if_pos bad
  | join => exact cJoin_of_malformed bad
  | kick => exact if_pos bad
  | part => exact if_pos bad
  | sjoin => exact if_pos bad
  | tb =>
      refine if_pos ?_
      have short : parv.length < 3 := by simpa [Command.malformed] using bad
      simp [short]
  | topic => exact if_pos (by simpa [Command.malformed] using bad)
  | kill => exact if_pos bad
  | nick =>
      have counts : parv.length ≠ 8 ∧ parv.length ≠ 2 := by
        simpa [Command.malformed] using bad
      show s.cNick env clientP parv = .ok s
      rw [cNick, if_neg counts.1, if_neg counts.2]
  | uid => exact if_pos (by simpa [Command.malformed] using bad)
  | quit => cases bad
  | server => exact if_pos (by simpa [Command.malformed] using bad)
  | sid => exact if_pos (by simpa [Command.malformed] using bad)
  | squit =>
      have named : lacks parv 1 0 = false := by simpa [safeLine] using safe
      have unnamed : lacks parv 1 0 = true := bad
      rw [named] at unnamed
      cases unnamed

theorem noFault_iff_safeLine {command : Command} (rest : AtRest False s)
    (link : s.serverP = some conn)
    (used : s.clients.client.cell clientP = some client)
    (other : command ≠ .squit) :
    NoFault (s.handleScommandClient env now clientP command parv) ↔
      s.safeLine env clientP command parv = true := by
  cases command with
  | admin => exact iff_of_true (cAdmin_safe used) rfl
  | capab =>
      refine iff_of_true ?_ rfl
      show NoFault (s.cCapab (some clientP) parv)
      unfold cCapab
      split <;> exact trivial
  | encap => exact iff_of_true (cEncap_safe rest) rfl
  | pass =>
      refine iff_of_true ?_ rfl
      show NoFault (s.cPass env (some clientP) parv)
      unfold cPass
      split <;> exact trivial
  | ping => exact iff_of_true (cPing_safe used) rfl
  | pong => exact iff_of_true (cPong_safe rest link) rfl
  | stats => exact iff_of_true (cStats_safe link) rfl
  | trace => exact iff_of_true (cTrace_safe used rest link) rfl
  | version => exact iff_of_true (cVersion_safe used) rfl
  | time => exact iff_of_true (cVersion_safe used) rfl
  | whois => exact cWhois_safe_iff rest
  | error => exact iff_of_true (cError_safe rest link) rfl
  | mode => exact iff_of_true cMode_safe rfl
  | tmode => exact iff_of_true cTmode_safe rfl
  | bmask => exact cBmask_safe_iff
  | privmsg => exact cMessage_safe_iff rest
  | join => exact iff_of_true cJoin_safe rfl
  | kick => exact iff_of_true cKick_safe rfl
  | part => exact iff_of_true cPart_safe rfl
  | sjoin => exact iff_of_true (cSjoin_safe used) rfl
  | tb => exact iff_of_true (cTb_safe used) rfl
  | topic => exact iff_of_true (cTopic_safe used) rfl
  | kill => exact iff_of_true (cKill_safe rest) rfl
  | nick => exact iff_of_true (cNick_safe rest) rfl
  | uid => exact cUid_safe_iff rest used
  | quit => exact iff_of_true (cQuit_safe rest) rfl
  | server =>
      show NoFault (s.cServer env now (some clientP) parv) ↔ _
      exact cServer_safe_iff used
  | sid => exact cSid_safe_iff used
  | squit => exact absurd rfl other

theorem handled_iff_safeLine {command : Command} (rest : AtRest False s)
    (link : s.serverP = some conn)
    (used : s.clients.client.cell clientP = some client) :
    Handled s command parv
        (s.handleScommandClient env now clientP command parv) ↔
      s.safeLine env clientP command parv = true := by
  by_cases squit : command = .squit
  · subst squit
    by_cases unnamed : lacks parv 1 0 = true
    · refine iff_of_false (fun handled => ?_) (by simp [safeLine, unnamed])
      exact cSquit_unnamed rest link unnamed
        ⟨handled.1, handled.2 unnamed⟩
    · have named : lacks parv 1 0 = false := by simpa using unnamed
      refine iff_of_true ⟨cSquit_named rest named, fun bad => ?_⟩ ?_
      · exact absurd bad unnamed
      · simp [safeLine, named]
  · rw [← noFault_iff_safeLine rest link used squit]
    refine ⟨fun handled => handled.1, fun safe => ⟨safe, fun bad => ?_⟩⟩
    exact ignored_of_malformed
      ((noFault_iff_safeLine rest link used squit).mp safe) bad

/-- In every state of every run, a line of a known source is handled with what
is there, and ignored if it is malformed, if and only if it is not one of the
lines that the handlers do not check. -/
theorem handled_iff_of_run (env : Env) (now : Int)
    (blocks : List ServiceBlock) (pingTime : Int) (events : List Event)
    (s : State) (conn : Lconn) (source word : CString) (clientP : ClientId)
    (command : Command) (parv : List CString)
    (reached : run (step env) (start blocks pingTime) events = .ok s)
    (link : s.serverP = some conn)
    (known : s.clients.findClient source = some clientP)
    (registered : Command.find word = some command) :
    Handled s command parv (s.handleScommand env now source word parv) ↔
      s.safeLine env clientP command parv = true := by
  have rest : AtRest False s := atRest_of_run (fun sound => sound.elim) reached
  obtain ⟨client, used⟩ := Clients.cell_of_findClient known
  have dispatched : s.handleScommand env now source word parv =
      s.handleScommandClient env now clientP command parv := by
    unfold handleScommand
    rw [uplink_of_link link, registered, known]
    rfl
  rw [dispatched]
  exact handled_iff_safeLine rest link used

def userLinked : List Event :=
  linkUp [⟨":0AB UID nick 2 5 +i user host 0 0ABAAAAAA :gecos".toList, false⟩]

theorem handled_whois_of_userLinked :
    ∃ s, run (step .quiet) (start oneService 300) userLinked = .ok s ∧
      Handled s .whois ["hub.".toList, "operserv".toList]
        (s.handleScommand .quiet 2 "nick".toList "WHOIS".toList
          ["hub.".toList, "operserv".toList]) := by
  have observed : (run (step .quiet) (start oneService 300)
      userLinked).toOption.map (fun s =>
        (s.serverP.isSome, s.clients.findClient "nick".toList,
          s.safeLine .quiet 2 .whois
            ["hub.".toList, "operserv".toList])) =
      some (true, some 2, true) := by
    decide +kernel
  obtain ⟨s, reached, seen⟩ := Except.exists_of_observed observed
  simp only [Prod.mk.injEq] at seen
  obtain ⟨conn, link⟩ := Option.isSome_iff_exists.mp seen.1
  refine ⟨s, reached, ?_⟩
  exact (handled_iff_of_run .quiet 2 oneService 300 userLinked s conn
    "nick".toList "WHOIS".toList 2 .whois _ reached link seen.2.1
    (by decide +kernel)).mpr seen.2.2

/-- A `BMASK` without parameters ends the daemon. -/
theorem not_handled_of_run :
    ¬∀ (blocks : List ServiceBlock) (pingTime : Int) (events : List Event)
      (s : State) (conn : Lconn) (source word : CString)
      (clientP : ClientId) (command : Command) (parv : List CString),
      run (step .quiet) (start blocks pingTime) events = .ok s →
      s.serverP = some conn → s.clients.findClient source = some clientP →
      Command.find word = some command →
      Handled s command parv (s.handleScommand .quiet 2 source word parv) := by
  intro handled
  have observed : (run (step .quiet) (start oneService 300)
      userLinked).toOption.map (fun s =>
        (s.serverP.isSome, s.clients.findClient "0AB".toList,
          (s.handleScommand .quiet 2 "0AB".toList "BMASK".toList
            []).toOption.isSome)) =
      some (true, some 1, false) := by
    decide +kernel
  obtain ⟨s, reached, seen⟩ := Except.exists_of_observed observed
  simp only [Prod.mk.injEq] at seen
  obtain ⟨conn, link⟩ := Option.isSome_iff_exists.mp seen.1
  have line := handled oneService 300 userLinked s conn "0AB".toList
    "BMASK".toList 1 .bmask [] reached link seen.2.1 (by decide +kernel)
  have ignored := line.2 rfl
  rw [ignored] at seen
  simp [Except.toOption] at seen

end State

end RatboxServices
