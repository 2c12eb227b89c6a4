import RatboxServices.Net.HostTable
import RatboxServices.Net.Marks
import RatboxServices.Net.Tables
import RatboxServices.Serv.Regs

namespace RatboxServices

open CString

/-! Every lookup of the program finds what is in its table: the hash of a table
agrees with the comparison of the lookup, whatever is added and deleted. -/

namespace Chans

def linkChannel (target : ChannelId) (s : Chans) : Chans :=
  match s.channel.cell target with
  | none => s
  | some ch => s.addChannel target ch.name

def unlinkChannel (target : ChannelId) (s : Chans) : Chans :=
  match s.channel.cell target with
  | none => s
  | some ch => s.delChannel target ch.name

def SameChannels (items : Set ChannelId) (s t : Chans) : Prop :=
  t.channelTable = s.channelTable ∧ ∀ target ∈ items,
    (t.channel.cell target).map Channel.name =
      (s.channel.cell target).map Channel.name

def tableOps : TableOps Chans ChannelId where
  start := empty
  ready := fun s target => ∃ ch, s.channel.cell target = some ch
  add := linkChannel
  delete := unlinkChannel
  keeps := SameChannels

def Linked (s : Chans) (items : Set ChannelId) : Prop :=
  HeapLists s.channel (fun ch => hashChannel ch.name) s.channelTable items

variable {s : Chans} {items : Set ChannelId}

theorem Linked.invariant : tableOps.Invariant Linked where
  start := HeapLists.empty
  add := by
    intro s items target linked ready absent
    obtain ⟨ch, used⟩ := ready
    have equal : s.linkChannel target = s.addChannel target ch.name := by
      rw [linkChannel, used]
    change Linked (s.linkChannel target) _
    rw [equal]
    exact linked.add used absent
  delete := by
    intro s items target linked present
    obtain ⟨ch, used⟩ := linked.used target present
    have equal : s.unlinkChannel target = s.delChannel target ch.name := by
      rw [unlinkChannel, used]
    change Linked (s.unlinkChannel target) _
    rw [equal]
    exact linked.delete used present
  keep := by
    intro s t items linked keeps
    obtain ⟨table, names⟩ := keeps
    rw [Linked, table]
    refine linked.keep fun target here => ?_
    have kept := congrArg (Option.map hashChannel) (names target here)
    simpa [Option.map_map, Function.comp_def] using kept

theorem isNamed_iff {name : CString} {target : ChannelId} :
    s.isNamed name target = true ↔
      ∃ ch, s.channel.cell target = some ch ∧ irccmp ch.name name = true := by
  unfold isNamed
  cases s.channel.cell target <;> simp

theorem answers_findChannel (run : tableOps.Run s items) (name : CString) :
    Answers (s.findChannel name) items (s.isNamed name) := by
  refine (Linked.invariant.run run).answers fun target same => ?_
  obtain ⟨ch, used, equal⟩ := isNamed_iff.mp same
  exact ⟨ch, used, hashChannel_cased equal⟩

example :
    (Chans.empty.createChannel "#Chan\x7b".toList 0 {}).1.findChannel
      "#cHAN[".toList = some 0 := by
  decide +kernel

end Chans

namespace Clients

structure SameClients (items : Set ClientId) (s t : Clients) : Prop where
  nameTable : t.nameTable = s.nameTable
  uidTable : t.uidTable = s.uidTable
  unlinkedDeletes : t.unlinkedDeletes = s.unlinkedDeletes
  names : ∀ target ∈ items,
    (t.client.cell target).map (fun client => (client.name, client.uid)) =
      (s.client.cell target).map fun client => (client.name, client.uid)

def tableOps (wild : Wild) : TableOps Clients ClientId where
  start := empty
  ready := fun s target => ∃ client, s.client.cell target = some client
  add := addClient
  delete := delClient wild
  keeps := SameClients

structure Linked (s : Clients) (items : Set ClientId) : Prop where
  used : ∀ target ∈ items, ∃ client, s.client.cell target = some client
  tabled : s.Tabled items

variable {s t : Clients} {items : Set ClientId} {target : ClientId}
  {client : Client} {name : CString}

theorem SameClients.cell (same : SameClients items s t) (here : target ∈ items)
    (used : s.client.cell target = some client) :
    ∃ new, t.client.cell target = some new ∧ new.name = client.name ∧
      new.uid = client.uid := by
  have kept := same.names target here
  rw [used, Option.map_some] at kept
  obtain ⟨new, there, equal⟩ := Option.map_eq_some_iff.mp kept
  exact ⟨new, there, congrArg Prod.fst equal, congrArg Prod.snd equal⟩

theorem Linked.invariant (wild : Wild) :
    (tableOps wild).Invariant Linked where
  start := {
    used := fun _ here => here.elim
    tabled := ⟨Buckets.Holds.empty, Buckets.Holds.empty, rfl⟩ }
  add := by
    intro s items target linked ready absent
    obtain ⟨client, used⟩ := ready
    constructor
    · intro other here
      change ∃ client, (s.addClient target).client.cell other = some client
      rw [(addClient_cells target s).1]
      obtain rfl | before := here
      · exact ⟨client, used⟩
      · exact linked.used other before
    · exact linked.tabled.addClient used absent
  delete := by
    intro s items target linked present
    obtain ⟨client, used⟩ := linked.used target present
    constructor
    · intro other here
      change ∃ client, (s.delClient wild target).client.cell other = some client
      rw [(delClient_cells wild target s).1]
      exact linked.used other here.1
    · exact linked.tabled.delClient wild used present
  keep := by
    intro s t items linked keeps
    constructor
    · intro target here
      obtain ⟨client, used⟩ := linked.used target here
      obtain ⟨new, there, _⟩ := keeps.cell here used
      exact ⟨new, there⟩
    · refine linked.tabled.of_keys keeps.nameTable keeps.uidTable
        keeps.unlinkedDeletes ?_ ?_
      · intro target here
        obtain ⟨client, used⟩ := linked.used target here
        obtain ⟨new, there, equal, _⟩ := keeps.cell here used
        rw [nameKey_eq used, nameKey_eq there, equal]
      · intro target here
        obtain ⟨client, used⟩ := linked.used target here
        obtain ⟨new, there, _, equal⟩ := keeps.cell here used
        rw [uidKey_eq used, uidKey_eq there, equal]

theorem hasName_iff : s.hasName name target = true ↔
    ∃ client, s.client.cell target = some client ∧
      irccmp client.name name = true := by
  unfold hasName
  cases s.client.cell target <;> simp

theorem hasUid_iff : s.hasUid name target = true ↔
    ∃ client, s.client.cell target = some client ∧
      irccmp client.uid name = true := by
  unfold hasUid
  cases s.client.cell target <;> simp

theorem answers_findNamedClient {wild : Wild}
    (run : (tableOps wild).Run s items) (name : CString) :
    Answers (s.findNamedClient name) items (s.hasName name) := by
  have tabled := ((Linked.invariant wild).run run).tabled
  apply Answers.of_find
  · intro target there
    exact tabled.name.mem_of_linked there
  · intro target here same
    obtain ⟨client, used, equal⟩ := hasName_iff.mp same
    refine (tabled.name.mem_iff ?_).mpr here
    rw [nameKey_eq used, hashName_of_irccmp equal]

def WithUid (s : Clients) (items : Set ClientId) : Set ClientId :=
  {target ∈ items |
    ∃ client, s.client.cell target = some client ∧ client.uid ≠ []}

theorem answers_findUid {wild : Wild} (run : (tableOps wild).Run s items)
    (name : CString) :
    Answers (s.findUid name) (s.WithUid items) (s.hasUid name) := by
  have linked := (Linked.invariant wild).run run
  apply Answers.of_find
  · intro target there
    obtain ⟨here, keyed⟩ := ((linked.tabled.uid _).mem_iff target).mp there
    obtain ⟨client, used⟩ := linked.used target here
    refine ⟨here, client, used, fun without => ?_⟩
    rw [uidKey_eq used, without] at keyed
    cases keyed
  · rintro target ⟨here, other, there, given⟩ same
    obtain ⟨client, used, equal⟩ := hasUid_iff.mp same
    rw [there, Option.some.injEq] at used
    subst used
    refine (linked.tabled.uid.mem_iff ?_).mpr here
    rw [uidKey_eq there, if_neg (by simpa using given),
      hashName_of_irccmp equal]

end Clients

namespace Regs

def tableUser (target : UserRegId) (s : Regs) : Regs :=
  { s with userTable := Dlink.add target s.userTable }

def untableUser (target : UserRegId) (s : Regs) : Regs :=
  { s with userTable := Dlink.delete target s.userTable }

def tableChan (target : ChanRegId) (s : Regs) : Regs :=
  { s with chanTable := Dlink.add target s.chanTable }

def untableChan (target : ChanRegId) (s : Regs) : Regs :=
  { s with chanTable := Dlink.delete target s.chanTable }

/-- The list of the table is that of before, and the names of some accounts are
what they were: a bucket is not changed by a name. -/
def SameUsers (items : Set UserRegId) (s t : Regs) : Prop :=
  t.userTable = s.userTable ∧ ∀ target ∈ items,
    (t.user.cell target).map UserReg.name =
      (s.user.cell target).map UserReg.name

def SameChanRegs (items : Set ChanRegId) (s t : Regs) : Prop :=
  t.chanTable = s.chanTable ∧ ∀ target ∈ items,
    (t.chan.cell target).map ChanReg.name =
      (s.chan.cell target).map ChanReg.name

def userOps : TableOps Regs UserRegId where
  start := empty
  ready := fun s target => ∃ reg, s.user.cell target = some reg
  add := tableUser
  delete := untableUser
  keeps := SameUsers

def chanOps : TableOps Regs ChanRegId where
  start := empty
  ready := fun s target => ∃ reg, s.chan.cell target = some reg
  add := tableChan
  delete := untableChan
  keeps := SameChanRegs

/-- The names are equal for `find_user_reg`. -/
def hasUserName (s : Regs) (name : CString) (target : UserRegId) : Bool :=
  match s.user.cell target with
  | some reg => strcasecmp reg.name name
  | none => false

def hasChanName (s : Regs) (name : CString) (target : ChanRegId) : Bool :=
  match s.chan.cell target with
  | some reg => irccmp reg.name name
  | none => false

variable {s t : Regs} {items : Set Nat} {name : CString}

theorem userNamed_eq (s : Regs) (name : CString) :
    s.userNamed name = s.hasUserName name := by
  funext target
  unfold userNamed hasUserName
  cases s.user.cell target with
  | none => rfl
  | some reg =>
      cases same : strcasecmp reg.name name with
      | false => simp [same]
      | true => simp [same, hashName_cased same]

theorem chanNamed_eq (s : Regs) (name : CString) :
    s.chanNamed name = s.hasChanName name := by
  funext target
  unfold chanNamed hasChanName
  cases s.chan.cell target with
  | none => rfl
  | some reg =>
      cases same : irccmp reg.name name with
      | false => simp [same]
      | true => simp [same, hashChannel_cased same]

theorem users_invariant :
    userOps.Invariant fun s items => Exactly s.userTable (· ∈ items) where
  start := .nil fun _ here => here
  add := fun linked _ absent => linked.add absent
  delete := fun {_ _ target} linked _ =>
    (linked.delete target).congr fun _ => and_comm
  keep := fun linked keeps => keeps.1 ▸ linked

theorem chans_invariant :
    chanOps.Invariant fun s items => Exactly s.chanTable (· ∈ items) where
  start := .nil fun _ here => here
  add := fun linked _ absent => linked.add absent
  delete := fun {_ _ target} linked _ =>
    (linked.delete target).congr fun _ => and_comm
  keep := fun linked keeps => keeps.1 ▸ linked

theorem answers_findUserReg (run : userOps.Run s items) (name : CString) :
    Answers (s.findUserReg name) items (s.hasUserName name) := by
  have linked := users_invariant.run run
  rw [findUserReg, userNamed_eq]
  apply Answers.of_find
  · exact fun target there => (linked.mem_iff target).mp there
  · exact fun target here _ => (linked.mem_iff target).mpr here

theorem answers_findChannelReg (run : chanOps.Run s items) (name : CString) :
    Answers (s.findChannelReg name) items (s.hasChanName name) := by
  have linked := chans_invariant.run run
  rw [findChannelReg, chanNamed_eq]
  apply Answers.of_find
  · exact fun target there => (linked.mem_iff target).mp there
  · exact fun target here _ => (linked.mem_iff target).mpr here

end Regs

namespace Lookups

structure HashesAgree : Prop where
  name : ∀ left right, irccmp left right = true →
    hashName left = hashName right
  channel : ∀ left right, irccmp left right = true →
    hashChannel left = hashChannel right
  nameOfCase : ∀ left right, strcasecmp left right = true →
    hashName left = hashName right
  command : ∀ left right, strcasecmp left right = true →
    hashCommand left = hashCommand right

structure LookupsAnswer (wild : Clients.Wild) : Prop where
  findChannel : ∀ s items, Chans.tableOps.Run s items → ∀ name,
    Answers (s.findChannel name) items (s.isNamed name)
  findNamedClient : ∀ s items, (Clients.tableOps wild).Run s items → ∀ name,
    Answers (s.findNamedClient name) items (s.hasName name)
  findUid : ∀ s items, (Clients.tableOps wild).Run s items → ∀ name,
    Answers (s.findUid name) (s.WithUid items) (s.hasUid name)
  findChannelReg : ∀ s items, Regs.chanOps.Run s items → ∀ name,
    Answers (s.findChannelReg name) items (s.hasChanName name)
  findUserReg : ∀ s items, Regs.userOps.Run s items → ∀ name,
    Answers (s.findUserReg name) items (s.hasUserName name)
  findHost : ∀ s items, Hosts.tableOps.Run s items → ∀ name,
    Hosts.Found s items name (s.findHost name).1 (s.findHost name).2

/-- Hashes and comparisons agree, and every lookup finds what is in its
table. -/
theorem lookups_answer (wild : Clients.Wild) :
    HashesAgree ∧ LookupsAnswer wild := by
  constructor
  · exact {
      name := fun _ _ same => hashName_of_irccmp same
      channel := fun _ _ same => hashChannel_cased same
      nameOfCase := fun _ _ same => hashName_cased same
      command := fun _ _ same => hashCommand_of_strcasecmp same }
  · exact {
      findChannel := fun _ _ run => Chans.answers_findChannel run
      findNamedClient := fun _ _ run => Clients.answers_findNamedClient run
      findUid := fun _ _ run => Clients.answers_findUid run
      findChannelReg := fun _ _ run => Regs.answers_findChannelReg run
      findUserReg := fun _ _ run => Regs.answers_findUserReg run
      findHost := fun _ _ run => Hosts.findHost_found run }

/-- `find_host` returns an entry although the table is empty. -/
theorem not_findHost_only_present :
    ¬∀ s items, Hosts.tableOps.Run s items → ∀ name,
      Answers (s.findHost name).1 items (s.isHost name) := by
  intro claimed
  have answers := claimed _ _ .start "host".toList
  obtain ⟨target, here, _⟩ := answers.isSome_iff.mp rfl
  exact here

end Lookups

end RatboxServices
