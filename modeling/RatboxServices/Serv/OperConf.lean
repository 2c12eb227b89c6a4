import RatboxServices.Irc.Match
import RatboxServices.Net.Data

namespace RatboxServices

open CString

/-! The operator blocks of the configuration, and what a rehash makes of those
that were there before. -/

def operNameLen : Nat := 30

-- conf.h: the flag of an entry that is not in the configuration any more
def confDead : Nat := 0

/-- An entry of `conf_oper_list`. A server that is not given is empty. -/
structure OperEntry extends ConfOper where
  username : CString
  host : CString
  server : CString
  refcount : Nat := 0
  deriving DecidableEq, Repr

/-- One `user` line of a block. -/
structure OperUser where
  username : CString
  host : CString
  server : CString
  deriving DecidableEq, Repr

structure OperBlock extends ConfOper where
  users : List OperUser

/-- The flag of a dead entry is not set. Of what can be written in a block only
`register`, which belongs to the service flags, sets it. -/
def OperBlock.Alive (block : OperBlock) : Prop :=
  block.flags.getLsbD confDead = false

namespace OperEntry

def isDead (entry : OperEntry) : Bool :=
  entry.flags.getLsbD confDead

def setDead (entry : OperEntry) : OperEntry :=
  { entry with flags := entry.flags ||| 1#64 }

/-- The server of a dead entry is that of the `user` line. -/
def sameServer (entry : OperEntry) (user : OperUser) : Bool :=
  if !entry.server.isEmpty then
    !user.server.isEmpty && irccmp entry.server user.server
  else user.server.isEmpty

def isFor (block : OperBlock) (user : OperUser) (entry : OperEntry) : Bool :=
  entry.isDead && irccmp entry.username user.username &&
    irccmp entry.host user.host && irccmp entry.name block.name &&
    entry.sameServer user

def revive (block : OperBlock) (entry : OperEntry) : OperEntry :=
  { entry with
    pass := block.pass
    flags := block.flags &&& ~~~1#64
    sflags := block.sflags }

/-- The new entry of a `user` line. -/
def new (block : OperBlock) (user : OperUser) : OperEntry where
  name := block.name
  pass := block.pass
  flags := block.flags
  sflags := block.sflags
  username := user.username
  host := user.host
  server := user.server

/-- The test of `find_conf_oper`. -/
def isFound (username host server operUsername : CString)
    (entry : OperEntry) : Bool :=
  !entry.isDead && match_ entry.username username &&
    match_ entry.host host &&
    (entry.server.isEmpty || match_ entry.server server) &&
    (operUsername.isEmpty || irccmp entry.name operUsername)

end OperEntry

open OperEntry (isFor revive)

def updateOper (block : OperBlock) (user : OperUser) :
    List OperEntry → Option (List OperEntry)
  | [] => none
  | entry :: rest =>
      if entry.isFor block user then some (entry.revive block :: rest)
      else (updateOper block user rest).map (entry :: ·)

def endOperUser (block : OperBlock) (list : List OperEntry)
    (user : OperUser) : List OperEntry :=
  (updateOper block user list).getD (list ++ [.new block user])

def OperBlock.isValid (block : OperBlock) : Bool :=
  !(block.name.isEmpty || block.pass.isEmpty) &&
    decide (block.name.length ≤ operNameLen)

/-- `conf_end_operator`. -/
def confEndOperator (list : List OperEntry) (block : OperBlock) :
    List OperEntry :=
  if block.isValid then block.users.foldl (endOperUser block) list else list

/-- The operator blocks of `yyparse`. -/
def yyparse (blocks : List OperBlock) (list : List OperEntry) :
    List OperEntry :=
  blocks.foldl confEndOperator list

/-- `clear_old_conf_final`. -/
def clearOldConfFinal (list : List OperEntry) : List OperEntry :=
  list.filter fun entry => !(entry.isDead && entry.refcount == 0)

/-- `conf_parse` at the start. -/
def coldLoad (blocks : List OperBlock) : List OperEntry :=
  yyparse blocks []

/-- `conf_parse` of a rehash. -/
def rehash (blocks : List OperBlock) (list : List OperEntry) :
    List OperEntry :=
  clearOldConfFinal (yyparse blocks (list.map OperEntry.setDead))

/-- `find_conf_oper`. -/
def findConfOper (username host server operUsername : CString)
    (list : List OperEntry) : Option OperEntry :=
  list.find? (OperEntry.isFound username host server operUsername)

def logIn (refcounts : Nat → Nat) (list : List OperEntry) : List OperEntry :=
  list.mapIdx fun i entry => { entry with refcount := refcounts i }

structure SameUser (left right : OperEntry) : Prop where
  username : irccmp left.username right.username = true
  host : irccmp left.host right.host = true
  server : irccmp left.server right.server = true
  name : irccmp left.name right.name = true

/-- What is looked at of an entry that was found; names are compared without
regard to case. -/
structure SameOper (left right : OperEntry) : Prop where
  name : irccmp left.name right.name = true
  pass : left.pass = right.pass
  flags : left.flags = right.flags
  sflags : left.sflags = right.sflags

structure TakenFor (entry fresh : OperEntry) : Prop
    extends SameUser entry fresh, SameOper entry fresh

theorem SameUser.refl (entry : OperEntry) : SameUser entry entry := by
  constructor <;> exact irccmp_iff.mpr rfl

theorem SameUser.symm {left right : OperEntry} (same : SameUser left right) :
    SameUser right left := by
  obtain ⟨username, host, server, name⟩ := same
  rw [irccmp_iff] at username host server name
  exact ⟨irccmp_iff.mpr username.symm, irccmp_iff.mpr host.symm,
    irccmp_iff.mpr server.symm, irccmp_iff.mpr name.symm⟩

theorem SameUser.trans {first second third : OperEntry}
    (same : SameUser first second) (next : SameUser second third) :
    SameUser first third := by
  obtain ⟨username, host, server, name⟩ := same
  obtain ⟨username', host', server', name'⟩ := next
  rw [irccmp_iff] at *
  exact ⟨irccmp_iff.mpr (username.trans username'),
    irccmp_iff.mpr (host.trans host'), irccmp_iff.mpr (server.trans server'),
    irccmp_iff.mpr (name.trans name')⟩

theorem TakenFor.isFound {entry fresh : OperEntry}
    (taken : TakenFor entry fresh) (username host server oper : CString) :
    entry.isFound username host server oper =
      fresh.isFound username host server oper := by
  have dead : entry.isDead = fresh.isDead := by
    rw [OperEntry.isDead, OperEntry.isDead, taken.flags]
  have name : irccmp entry.name oper = irccmp fresh.name oper := by
    unfold irccmp
    rw [irccmp_iff.mp taken.toSameUser.name]
  unfold OperEntry.isFound
  rw [dead, match_cased taken.username, match_cased taken.host,
    isEmpty_cased taken.server, match_cased taken.server, name]

def entriesOf (blocks : List OperBlock) : List OperEntry :=
  blocks.flatMap fun block =>
    if block.isValid then block.users.map (OperEntry.new block) else []

def take (fresh entry : OperEntry) : OperEntry :=
  { entry with
    pass := fresh.pass
    flags := fresh.flags
    sflags := fresh.sflags }

def OperEntry.waitsFor (entry fresh : OperEntry) : Bool :=
  entry.isDead && irccmp entry.username fresh.username &&
    irccmp entry.host fresh.host && irccmp entry.name fresh.name &&
    irccmp entry.server fresh.server

theorem waitsFor_iff {entry fresh : OperEntry} :
    entry.waitsFor fresh = true ↔
      entry.isDead = true ∧ SameUser entry fresh := by
  unfold OperEntry.waitsFor
  simp only [Bool.and_eq_true]
  constructor
  · rintro ⟨⟨⟨⟨dead, username⟩, host⟩, name⟩, server⟩
    exact ⟨dead, username, host, server, name⟩
  · rintro ⟨dead, username, host, server, name⟩
    exact ⟨⟨⟨⟨dead, username⟩, host⟩, name⟩, server⟩

def load (fresh : OperEntry) : List OperEntry → List OperEntry
  | [] => [fresh]
  | entry :: rest =>
      if entry.waitsFor fresh then take fresh entry :: rest
      else entry :: load fresh rest

theorem OperBlock.Alive.flags {block : OperBlock} (alive : block.Alive) :
    block.flags &&& ~~~1#64 = block.flags := by
  refine BitVec.eq_of_getLsbD_eq fun i bound => ?_
  rw [BitVec.getLsbD_and, BitVec.getLsbD_not, BitVec.getLsbD_one]
  by_cases first : i = 0
  · have unset : block.flags.getLsbD 0 = false := alive
    rw [first, unset]
    rfl
  · simp [first, bound]

section Block

variable {block : OperBlock} {user : OperUser}

theorem isFor_eq (entry : OperEntry) :
    entry.isFor block user = entry.waitsFor (.new block user) := by
  have server : entry.sameServer user = irccmp entry.server user.server := by
    unfold OperEntry.sameServer
    cases left : entry.server <;> cases right : user.server <;>
      simp [irccmp]
  unfold OperEntry.isFor
  rw [server]
  rfl

theorem revive_eq (alive : block.Alive) (entry : OperEntry) :
    entry.revive block = take (.new block user) entry := by
  unfold OperEntry.revive take OperEntry.new
  rw [alive.flags]

theorem endOperUser_eq (alive : block.Alive) (list : List OperEntry) :
    endOperUser block list user = load (.new block user) list := by
  unfold endOperUser
  induction list with
  | nil => rfl
  | cons entry rest ih =>
      rw [updateOper, load, isFor_eq]
      split
      · rw [revive_eq alive]
        rfl
      · rw [← ih]
        cases updateOper block user rest <;> rfl

end Block

theorem yyparse_eq {blocks : List OperBlock}
    (alive : ∀ block ∈ blocks, block.Alive) (list : List OperEntry) :
    yyparse blocks list =
      (entriesOf blocks).foldl (fun list fresh => load fresh list) list := by
  induction blocks generalizing list with
  | nil => rfl
  | cons block rest ih =>
      have first : confEndOperator list block =
          (if block.isValid then block.users.map (OperEntry.new block)
            else []).foldl (fun list fresh => load fresh list) list := by
        unfold confEndOperator
        split
        · rw [List.foldl_map]
          congr 1
          funext list user
          exact endOperUser_eq (alive block List.mem_cons_self) list
        · rfl
      show yyparse rest (confEndOperator list block) = _
      rw [ih fun other listed => alive other (List.mem_cons_of_mem _ listed),
        first, ← List.foldl_append]
      rfl

theorem entriesOf_alive {blocks : List OperBlock} {entry : OperEntry}
    (alive : ∀ block ∈ blocks, block.Alive)
    (listed : entry ∈ entriesOf blocks) : entry.isDead = false := by
  obtain ⟨block, given, inside⟩ := List.mem_flatMap.mp listed
  split at inside
  · obtain ⟨user, -, rfl⟩ := List.mem_map.mp inside
    exact alive block given
  · cases inside

section Load

variable {fresh : OperEntry} {list : List OperEntry}

theorem load_of_none
    (none_ : ∀ entry ∈ list, entry.waitsFor fresh = false) :
    load fresh list = list ++ [fresh] := by
  induction list with
  | nil => rfl
  | cons entry rest ih =>
      rw [load, if_neg (by simp [none_ entry (by simp)]), ih]
      · rfl
      · exact fun other listed => none_ other (List.mem_cons_of_mem _ listed)

theorem load_append {before : List OperEntry}
    (none_ : ∀ entry ∈ before, entry.waitsFor fresh = false) :
    load fresh (before ++ list) = before ++ load fresh list := by
  induction before with
  | nil => rfl
  | cons entry rest ih =>
      rw [List.cons_append, load, if_neg (by simp [none_ entry (by simp)]), ih]
      · rfl
      · exact fun other listed => none_ other (List.mem_cons_of_mem _ listed)

theorem waitsFor_of_alive {entry : OperEntry} (alive : entry.isDead = false) :
    entry.waitsFor fresh = false := by
  simp [OperEntry.waitsFor, alive]

end Load

theorem loadAll_of_none {fresh list : List OperEntry}
    (alive : ∀ entry ∈ fresh, entry.isDead = false)
    (none_ : ∀ entry ∈ list, ∀ new ∈ fresh, entry.waitsFor new = false) :
    fresh.foldl (fun list fresh => load fresh list) list = list ++ fresh := by
  induction fresh generalizing list with
  | nil => simp
  | cons first rest ih =>
      rw [List.foldl_cons, load_of_none, ih]
      · simp
      · exact fun entry listed => alive entry (List.mem_cons_of_mem _ listed)
      · intro entry listed new inside
        obtain old | rfl : entry ∈ list ∨ entry = first := by
          simpa using listed
        · exact none_ entry old new (List.mem_cons_of_mem _ inside)
        · exact waitsFor_of_alive (alive entry List.mem_cons_self)
      · exact fun entry listed => none_ entry listed first List.mem_cons_self

theorem coldLoad_eq {blocks : List OperBlock}
    (alive : ∀ block ∈ blocks, block.Alive) :
    coldLoad blocks = entriesOf blocks := by
  unfold coldLoad
  rw [yyparse_eq alive, loadAll_of_none]
  · rfl
  · exact fun entry listed => entriesOf_alive alive listed
  · simp

theorem coldLoad_alive {blocks : List OperBlock} {entry : OperEntry}
    (alive : ∀ block ∈ blocks, block.Alive) (listed : entry ∈ coldLoad blocks) :
    entry.isDead = false := by
  rw [coldLoad_eq alive] at listed
  exact entriesOf_alive alive listed

theorem take_takenFor {fresh entry : OperEntry} (same : SameUser entry fresh) :
    TakenFor (take fresh entry) fresh :=
  ⟨⟨same.username, same.host, same.server, same.name⟩, rfl, rfl, rfl⟩

theorem TakenFor.refl (entry : OperEntry) : TakenFor entry entry :=
  ⟨.refl entry, rfl, rfl, rfl⟩

theorem TakenFor.isDead {entry fresh : OperEntry}
    (taken : TakenFor entry fresh) : entry.isDead = fresh.isDead := by
  rw [OperEntry.isDead, OperEntry.isDead, taken.flags]

structure StandsFor (list fresh : List OperEntry) : Prop where
  sound : ∀ entry ∈ list, entry.isDead = false →
    ∃ new ∈ fresh, TakenFor entry new
  complete : ∀ new ∈ fresh, ∃ entry ∈ list, TakenFor entry new

theorem mem_load {fresh entry : OperEntry} {list : List OperEntry}
    (alive : entry.isDead = false) (listed : entry ∈ load fresh list) :
    entry ∈ list ∨ TakenFor entry fresh := by
  induction list with
  | nil =>
      rw [load, List.mem_singleton] at listed
      exact Or.inr (listed ▸ .refl _)
  | cons first rest ih =>
      rw [load] at listed
      split at listed
      · rename_i waits
        obtain rfl | listed := List.mem_cons.mp listed
        · exact Or.inr (take_takenFor (waitsFor_iff.mp waits).2)
        · exact Or.inl (List.mem_cons_of_mem _ listed)
      · obtain rfl | listed := List.mem_cons.mp listed
        · exact Or.inl List.mem_cons_self
        · obtain old | new := ih listed
          · exact Or.inl (List.mem_cons_of_mem _ old)
          · exact Or.inr new

theorem mem_load_of_mem {fresh entry : OperEntry} {list : List OperEntry}
    (alive : entry.isDead = false) (listed : entry ∈ list) :
    entry ∈ load fresh list := by
  induction list with
  | nil => cases listed
  | cons first rest ih =>
      rw [load]
      split
      · rename_i waits
        obtain rfl | listed := List.mem_cons.mp listed
        · rw [waitsFor_of_alive alive] at waits
          cases waits
        · exact List.mem_cons_of_mem _ listed
      · obtain rfl | listed := List.mem_cons.mp listed
        · exact List.mem_cons_self
        · exact List.mem_cons_of_mem _ (ih listed)

theorem exists_mem_load (fresh : OperEntry) (list : List OperEntry) :
    ∃ entry ∈ load fresh list, TakenFor entry fresh := by
  induction list with
  | nil => exact ⟨fresh, by simp [load], .refl _⟩
  | cons first rest ih =>
      rw [load]
      split
      · rename_i waits
        exact ⟨_, List.mem_cons_self,
          take_takenFor (waitsFor_iff.mp waits).2⟩
      · obtain ⟨entry, listed, taken⟩ := ih
        exact ⟨entry, List.mem_cons_of_mem _ listed, taken⟩

theorem StandsFor.load {fresh : OperEntry} {done list : List OperEntry}
    (stands : StandsFor list done)
    (alive : ∀ entry ∈ done, entry.isDead = false) :
    StandsFor (load fresh list) (done ++ [fresh]) := by
  constructor
  · intro entry listed live
    obtain old | taken := mem_load live listed
    · obtain ⟨new, inside, taken⟩ := stands.sound entry old live
      exact ⟨new, List.mem_append_left _ inside, taken⟩
    · exact ⟨fresh, by simp, taken⟩
  · intro new listed
    obtain old | rfl : new ∈ done ∨ new = fresh := by simpa using listed
    · obtain ⟨entry, inside, taken⟩ := stands.complete new old
      have live : entry.isDead = false := taken.isDead.trans (alive new old)
      exact ⟨entry, mem_load_of_mem live inside, taken⟩
    · exact exists_mem_load new list

theorem StandsFor.loadAll {fresh done list : List OperEntry}
    (stands : StandsFor list done)
    (alive : ∀ entry ∈ done ++ fresh, entry.isDead = false) :
    StandsFor (fresh.foldl (fun list fresh => RatboxServices.load fresh list)
      list) (done ++ fresh) := by
  induction fresh generalizing done list with
  | nil => simpa using stands
  | cons new rest ih =>
      have split : done ++ new :: rest = (done ++ [new]) ++ rest := by simp
      rw [split] at alive ⊢
      refine ih (stands.load fun entry listed => ?_) alive
      exact alive entry (by simp [listed])

theorem rehash_eq {blocks : List OperBlock}
    (alive : ∀ block ∈ blocks, block.Alive) (list : List OperEntry) :
    rehash blocks list = clearOldConfFinal
      ((coldLoad blocks).foldl (fun list fresh => load fresh list)
        (list.map OperEntry.setDead)) := by
  rw [rehash, yyparse_eq alive, coldLoad_eq alive]

theorem setDead_isDead (entry : OperEntry) :
    entry.setDead.isDead = true := by
  simp [OperEntry.setDead, OperEntry.isDead, confDead]

theorem mem_clearOldConfFinal {list : List OperEntry} {entry : OperEntry}
    (alive : entry.isDead = false) (listed : entry ∈ list) :
    entry ∈ clearOldConfFinal list := by
  refine List.mem_filter.mpr ⟨listed, ?_⟩
  simp [alive]

theorem rehash_standsFor {blocks : List OperBlock}
    (alive : ∀ block ∈ blocks, block.Alive) (list : List OperEntry) :
    StandsFor (rehash blocks list) (coldLoad blocks) := by
  have loaded : ∀ entry ∈ coldLoad blocks, entry.isDead = false :=
    fun entry listed => coldLoad_alive alive listed
  have start : StandsFor (list.map OperEntry.setDead) [] := by
    constructor
    · intro entry listed live
      obtain ⟨old, -, rfl⟩ := List.mem_map.mp listed
      rw [setDead_isDead] at live
      cases live
    · intro new listed
      cases listed
  have stands := start.loadAll loaded
  rw [List.nil_append] at stands
  rw [rehash_eq alive]
  constructor
  · exact fun entry listed => stands.sound entry (List.mem_filter.mp listed).1
  · intro new listed
    obtain ⟨entry, inside, taken⟩ := stands.complete new listed
    have live : entry.isDead = false := taken.isDead.trans (loaded new listed)
    exact ⟨entry, mem_clearOldConfFinal live inside, taken⟩

/-- The entries for users that were there stand first and in their old order,
and no two old entries are for the same user. -/
structure KeepsOrder (old new : List OperEntry) : Prop where
  different : old.Pairwise fun left right => ¬SameUser left right
  split : ∃ kept added, new = kept ++ added ∧
    List.SublistForall₂ SameUser kept old ∧
    ∀ entry ∈ old, ∀ fresh ∈ added, ¬SameUser entry fresh

theorem exists_sameUser {kept old : List OperEntry} {fresh : OperEntry}
    (sub : List.SublistForall₂ SameUser kept old) (listed : fresh ∈ kept) :
    ∃ entry ∈ old, SameUser fresh entry := by
  induction sub with
  | nil => cases listed
  | cons same sub ih =>
      obtain rfl | listed := List.mem_cons.mp listed
      · exact ⟨_, List.mem_cons_self, same⟩
      · obtain ⟨entry, inside, related⟩ := ih listed
        exact ⟨entry, List.mem_cons_of_mem _ inside, related⟩
  | cons_right sub ih =>
      obtain ⟨entry, inside, related⟩ := ih listed
      exact ⟨entry, List.mem_cons_of_mem _ inside, related⟩

theorem loadAll_kept {kept old before : List OperEntry}
    (sub : List.SublistForall₂ SameUser kept old)
    (different : old.Pairwise fun left right => ¬SameUser left right)
    (dead : ∀ entry ∈ old, entry.isDead = true)
    (alive : ∀ fresh ∈ kept, fresh.isDead = false)
    (none_ : ∀ entry ∈ before, ∀ fresh ∈ kept, entry.waitsFor fresh = false) :
    ∃ after, kept.foldl (fun list fresh => load fresh list) (before ++ old) =
        before ++ after ∧
      List.Forall₂ TakenFor (after.filter fun entry => !entry.isDead) kept ∧
      ∀ entry ∈ after, entry.isDead = true → entry ∈ old := by
  induction sub generalizing before with
  | nil =>
      rename_i old
      refine ⟨old, rfl, ?_, fun entry listed _ => listed⟩
      rw [List.filter_eq_nil_iff.mpr]
      · exact .nil
      · intro entry listed
        simp [dead entry listed]
  | cons same sub ih =>
      rename_i fresh entry kept old
      have waits : entry.waitsFor fresh = true :=
        waitsFor_iff.mpr ⟨dead entry List.mem_cons_self, same.symm⟩
      have taken := take_takenFor same.symm
      have live : (take fresh entry).isDead = false :=
        taken.isDead.trans (alive fresh List.mem_cons_self)
      have first : load fresh (before ++ entry :: old) =
          (before ++ [take fresh entry]) ++ old := by
        rw [load_append fun other listed =>
          none_ other listed fresh List.mem_cons_self, load, if_pos waits]
        simp
      have passed : ∀ other ∈ before ++ [take fresh entry], ∀ new ∈ kept,
          other.waitsFor new = false := by
        intro other listed new inside
        obtain earlier | rfl : other ∈ before ∨ other = take fresh entry := by
          simpa using listed
        · exact none_ other earlier new (List.mem_cons_of_mem _ inside)
        · exact waitsFor_of_alive live
      obtain ⟨after, loaded, stand, left⟩ := ih different.of_cons
        (fun other listed => dead other (List.mem_cons_of_mem _ listed))
        (fun other listed => alive other (List.mem_cons_of_mem _ listed)) passed
      refine ⟨take fresh entry :: after, ?_, ?_, ?_⟩
      · rw [List.foldl_cons, first, loaded]
        simp
      · rw [List.filter_cons_of_pos (by simp [live])]
        exact .cons taken stand
      · intro other listed isDead
        obtain rfl | listed := List.mem_cons.mp listed
        · rw [live] at isDead
          cases isDead
        · exact List.mem_cons_of_mem _ (left other listed isDead)
  | cons_right sub ih =>
      rename_i entry kept old
      have skipped : ∀ fresh ∈ kept, entry.waitsFor fresh = false := by
        intro fresh listed
        obtain ⟨other, inside, same⟩ := exists_sameUser sub listed
        cases waits : entry.waitsFor fresh with
        | false => rfl
        | true =>
            have equal := (waitsFor_iff.mp waits).2.trans same
            exact absurd equal
              (List.rel_of_pairwise_cons different inside)
      have passed : ∀ other ∈ before ++ [entry], ∀ new ∈ kept,
          other.waitsFor new = false := by
        intro other listed new inside
        obtain earlier | rfl : other ∈ before ∨ other = entry := by
          simpa using listed
        · exact none_ other earlier new inside
        · exact skipped new inside
      obtain ⟨after, loaded, stand, left⟩ := ih different.of_cons
        (fun other listed => dead other (List.mem_cons_of_mem _ listed)) alive
        passed
      refine ⟨entry :: after, ?_, ?_, ?_⟩
      · rw [← List.singleton_append, ← List.append_assoc, loaded]
        simp
      · rw [List.filter_cons_of_neg (by simp [dead entry List.mem_cons_self])]
        exact stand
      · intro other listed isDead
        obtain rfl | listed := List.mem_cons.mp listed
        · exact List.mem_cons_self
        · exact List.mem_cons_of_mem _ (left other listed isDead)

section Marked

variable (refcounts : Nat → Nat) (list : List OperEntry)

theorem sameUser_marked : List.Forall₂ SameUser list
    ((logIn refcounts list).map OperEntry.setDead) := by
  rw [List.forall₂_iff_get]
  refine ⟨by simp [logIn], fun i left right => ?_⟩
  simp only [logIn, List.get_eq_getElem, List.getElem_map, List.getElem_mapIdx]
  have same := SameUser.refl list[i]
  exact ⟨same.username, same.host, same.server, same.name⟩

theorem marked_isDead {entry : OperEntry}
    (listed : entry ∈ (logIn refcounts list).map OperEntry.setDead) :
    entry.isDead = true := by
  obtain ⟨old, -, rfl⟩ := List.mem_map.mp listed
  exact setDead_isDead old

variable {list}

theorem KeepsOrder.marked {new : List OperEntry} (keeps : KeepsOrder list new) :
    KeepsOrder ((logIn refcounts list).map OperEntry.setDead) new := by
  have same := sameUser_marked refcounts list
  obtain ⟨kept, added, split, sub, others⟩ := keeps.split
  have bound {i : Nat} (below : i < ((logIn refcounts list).map
      OperEntry.setDead).length) : i < list.length := same.length_eq ▸ below
  constructor
  · rw [List.pairwise_iff_getElem]
    intro i j first second before equal
    refine List.pairwise_iff_getElem.mp keeps.different i j (bound first)
      (bound second) before ?_
    exact ((same.get (bound first) first).trans equal).trans
      (same.get (bound second) second).symm
  · refine ⟨kept, added, split, ?_, ?_⟩
    · have trans : IsTrans OperEntry SameUser := ⟨fun _ _ _ => SameUser.trans⟩
      exact IsTrans.trans _ _ _ sub
        (List.sublistForall₂_iff.mpr ⟨_, same, List.Sublist.refl _⟩)
    · intro entry listed fresh inside equal
      obtain ⟨i, below, rfl⟩ := List.mem_iff_getElem.mp listed
      exact others _ (List.getElem_mem (bound below)) fresh inside
        ((same.get (bound below) below).trans equal)

theorem KeepsOrder.rehash {blocks : List OperBlock}
    (unmarked : ∀ block ∈ blocks, block.Alive)
    (keeps : KeepsOrder list (coldLoad blocks)) :
    List.Forall₂ TakenFor ((rehash blocks (logIn refcounts list)).filter
      fun entry => !entry.isDead) (coldLoad blocks) := by
  obtain ⟨different, kept, added, split, sub, others⟩ := keeps.marked refcounts
  have alive : ∀ entry ∈ kept ++ added, entry.isDead = false := by
    intro entry listed
    rw [← split] at listed
    exact coldLoad_alive unmarked listed
  have passed : ∀ entry ∈ ([] : List OperEntry), ∀ fresh ∈ kept,
      entry.waitsFor fresh = false := by simp
  obtain ⟨after, loaded, stand, left⟩ := loadAll_kept sub different
    (fun entry => marked_isDead refcounts list)
    (fun fresh listed => alive fresh (List.mem_append_left _ listed)) passed
  rw [List.nil_append, List.nil_append] at loaded
  have rest : (coldLoad blocks).foldl (fun list fresh => load fresh list)
      ((logIn refcounts list).map OperEntry.setDead) = after ++ added := by
    rw [split, List.foldl_append, loaded, loadAll_of_none]
    · exact fun entry listed => alive entry (List.mem_append_right _ listed)
    · intro entry listed new inside
      cases waits : entry.waitsFor new with
      | false => rfl
      | true =>
          obtain ⟨dead, same⟩ := waitsFor_iff.mp waits
          exact absurd same (others entry (left entry listed dead) new inside)
  have whole : added.filter (fun entry => !entry.isDead) = added := by
    refine List.filter_eq_self.mpr fun entry listed => ?_
    simp [alive entry (List.mem_append_right _ listed)]
  have filtered : (RatboxServices.rehash blocks (logIn refcounts list)).filter
      (fun entry => !entry.isDead) =
        (after.filter fun entry => !entry.isDead) ++ added := by
    rw [rehash_eq unmarked, rest, clearOldConfFinal, List.filter_filter,
      List.filter_congr (q := fun entry => !entry.isDead), List.filter_append,
      whole]
    intro entry listed
    cases entry.isDead <;> simp
  rw [filtered, split]
  refine List.rel_append stand ?_
  exact List.forall₂_same.mpr fun entry _ => .refl entry

end Marked

theorem findConfOper_alive (username host server oper : CString)
    (list : List OperEntry) :
    findConfOper username host server oper
        (list.filter fun entry => !entry.isDead) =
      findConfOper username host server oper list := by
  unfold findConfOper
  rw [List.find?_filter]
  congr 1
  funext entry
  cases found : entry.isFound username host server oper with
  | false => simp
  | true =>
      cases dead : entry.isDead with
      | false => rfl
      | true => simp [OperEntry.isFound, dead] at found

theorem findConfOper_taken {list fresh : List OperEntry}
    (stand : List.Forall₂ TakenFor list fresh)
    (username host server oper : CString) {entry given : OperEntry}
    (warm : findConfOper username host server oper list = some entry)
    (cold : findConfOper username host server oper fresh = some given) :
    SameOper entry given := by
  induction stand with
  | nil => cases warm
  | cons taken stand ih =>
      rename_i first new list fresh
      unfold findConfOper at warm cold ih
      rw [List.find?_cons, taken.isFound] at warm
      rw [List.find?_cons] at cold
      cases found : new.isFound username host server oper with
      | true =>
          rw [found] at warm cold
          cases warm
          cases cold
          exact taken.toSameOper
      | false =>
          rw [found] at warm cold
          exact ih warm cold

theorem SameOper.trans {first second third : OperEntry}
    (same : SameOper first second) (next : SameOper second third) :
    SameOper first third := by
  refine ⟨irccmp_iff.mpr ?_, same.pass.trans next.pass,
    same.flags.trans next.flags, same.sflags.trans next.sflags⟩
  exact (irccmp_iff.mp same.name).trans (irccmp_iff.mp next.name)

section Finds

variable (old new : List OperBlock) (refcounts : Nat → Nat)
  (username host server oper : CString)

def findAfterRehash : Option OperEntry :=
  findConfOper username host server oper
    (rehash new (logIn refcounts (coldLoad old)))

variable {old new refcounts username host server oper}

theorem exists_of_findAfterRehash {entry : OperEntry}
    (alive : ∀ block ∈ new, block.Alive)
    (warm : findAfterRehash old new refcounts username host server oper =
      some entry) :
    ∃ given ∈ coldLoad new,
      given.isFound username host server oper = true ∧
        SameOper entry given := by
  have stands := rehash_standsFor alive (logIn refcounts (coldLoad old))
  unfold findAfterRehash findConfOper at warm
  have found := List.find?_some warm
  have live : entry.isDead = false := by
    cases dead : entry.isDead with
    | false => rfl
    | true => simp [OperEntry.isFound, dead] at found
  obtain ⟨given, listed, taken⟩ :=
    stands.sound entry (List.mem_of_find?_eq_some warm) live
  exact ⟨given, listed, taken.isFound username host server oper ▸ found,
    taken.toSameOper⟩

theorem findAfterRehash_eq_none (alive : ∀ block ∈ new, block.Alive) :
    findAfterRehash old new refcounts username host server oper = none ↔
      findConfOper username host server oper (coldLoad new) = none := by
  have stands := rehash_standsFor alive (logIn refcounts (coldLoad old))
  constructor
  · intro warm
    unfold findAfterRehash findConfOper at warm
    unfold findConfOper
    rw [List.find?_eq_none] at warm ⊢
    intro given listed
    obtain ⟨entry, inside, taken⟩ := stands.complete given listed
    rw [← taken.isFound]
    exact warm entry inside
  · intro cold
    cases warm :
        findAfterRehash old new refcounts username host server oper with
    | none => rfl
    | some entry =>
        obtain ⟨given, listed, found, -⟩ := exists_of_findAfterRehash alive warm
        unfold findConfOper at cold
        rw [List.find?_eq_none] at cold
        exact absurd found (cold given listed)

end Finds

/-- After a rehash whose blocks leave the flag of a dead entry alone, an entry
is found when one is found after a cold load, and it is one of the
configuration that the search matches. It is the one of the cold load where all
that match agree, and for all searches where the entries for users that were
there stand first and in their old order. -/
theorem findAfterRehash_spec (old new : List OperBlock)
    (alive : ∀ block ∈ new, block.Alive) (refcounts : Nat → Nat)
    (username host server oper : CString) :
    (findAfterRehash old new refcounts username host server oper = none ↔
      findConfOper username host server oper (coldLoad new) = none) ∧
    ∀ entry given,
      findAfterRehash old new refcounts username host server oper =
        some entry →
      findConfOper username host server oper (coldLoad new) = some given →
      (∃ other ∈ coldLoad new,
        other.isFound username host server oper = true ∧
          SameOper entry other) ∧
      ((∀ other ∈ coldLoad new,
          other.isFound username host server oper = true →
            SameOper other given) ∨
        KeepsOrder (coldLoad old) (coldLoad new) → SameOper entry given) := by
  refine ⟨findAfterRehash_eq_none alive, fun entry given warm cold => ?_⟩
  obtain ⟨other, listed, found, same⟩ := exists_of_findAfterRehash alive warm
  refine ⟨⟨other, listed, found, same⟩, ?_⟩
  rintro (agree | keeps)
  · exact same.trans (agree other listed found)
  · unfold findAfterRehash at warm
    rw [← findConfOper_alive] at warm
    exact findConfOper_taken (keeps.rehash refcounts alive) username host
      server oper warm cold

/-! A search that matches two entries finds the one that was there first. -/

def operX : OperBlock where
  name := "x".toList
  pass := "p".toList
  users := [⟨"*".toList, "*".toList, []⟩]

def operY : OperBlock where
  name := "y".toList
  pass := "q".toList
  users := [⟨"*".toList, "h".toList, []⟩]

/-- The block was moved behind another that the search matches too. -/
theorem not_findAfterRehash_same :
    ((findAfterRehash [operX] [operY, operX] (fun _ => 0) "u".toList "h".toList
        [] []).map OperEntry.toConfOper = some operX.toConfOper) ∧
      (findConfOper "u".toList "h".toList [] []
        (coldLoad [operY, operX])).map OperEntry.toConfOper =
          some operY.toConfOper ∧
      operX.pass ≠ operY.pass := by
  decide +kernel

/-- A block behind those that were there leaves what is found as it is. -/
theorem findAfterRehash_spec_added :
    findAfterRehash [operX] [operX, operY] (fun _ => 1) "u".toList "h".toList
        [] [] = some { OperEntry.new operX ⟨"*".toList, "*".toList, []⟩ with
          refcount := 1 } ∧
      SameOper { OperEntry.new operX ⟨"*".toList, "*".toList, []⟩ with
          refcount := 1 }
        (OperEntry.new operX ⟨"*".toList, "*".toList, []⟩) := by
  have warm : findAfterRehash [operX] [operX, operY] (fun _ => 1) "u".toList
      "h".toList [] [] = some { OperEntry.new operX
        ⟨"*".toList, "*".toList, []⟩ with refcount := 1 } := by
    decide +kernel
  have cold : findConfOper "u".toList "h".toList [] []
      (coldLoad [operX, operY]) = some (OperEntry.new operX
        ⟨"*".toList, "*".toList, []⟩) := by
    decide +kernel
  have alive : ∀ block ∈ [operX, operY], block.Alive := by
    simp [OperBlock.Alive, operX, operY, confDead]
  refine ⟨warm, ((findAfterRehash_spec [operX] [operX, operY] alive
    (fun _ => 1) "u".toList "h".toList [] []).2 _ _ warm cold).2
      (Or.inr ?_)⟩
  have single : coldLoad [operX] =
      [OperEntry.new operX ⟨"*".toList, "*".toList, []⟩] := by decide +kernel
  rw [single]
  refine ⟨List.pairwise_singleton _ _, _,
    [OperEntry.new operY ⟨"*".toList, "h".toList, []⟩], by decide +kernel,
    .cons (SameUser.refl _) .nil, ?_⟩
  intro entry listed fresh inside same
  rw [List.mem_singleton.mp inside, List.mem_singleton.mp listed] at same
  exact absurd same.name (by decide +kernel)

end RatboxServices
