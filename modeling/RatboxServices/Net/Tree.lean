import RatboxServices.Net.Marks
import RatboxServices.Net.Tables

namespace RatboxServices

/-! The tree of servers and their users, for a set of clients that are still
linked in it. -/

namespace Part

def bones : Part → Part
  | .server leaf => .server { leaf with hops := 0 }
  | .user _ => .user {}
  | .service _ => .service {}

theorem kind_of_bones {old new : Client}
    (same : new.part.bones = old.part.bones) :
    new.isUser = old.isUser ∧ new.isServer = old.isServer ∧
      new.isService = old.isService := by
  unfold Client.isUser Client.isServer Client.isService
  cases before : old.part <;> cases after : new.part <;>
    simp_all [bones]

theorem server_of_bones {part : Part} {leaf : Server}
    (same : part.bones = (Part.server leaf).bones) :
    ∃ older, part = .server older ∧ leaf.users = older.users ∧
      leaf.servers = older.servers := by
  cases part with
  | server older =>
      simp only [bones, Part.server.injEq, Server.mk.injEq] at same
      exact ⟨older, rfl, same.1.symm, same.2.1.symm⟩
  | user person => simp [bones] at same
  | service ours => simp [bones] at same

end Part

namespace Clients

variable {s t : Clients} {linkedSet rest : Set ClientId}
  {target a b : ClientId} {client : Client}

def uplinkOf (s : Clients) (a : ClientId) : Option ClientId :=
  (s.client.cell a).bind Client.uplink

/-- Every user is on a server, every server but our uplink behind another one,
and the lists of a server hold exactly what is linked there. A client comes
after the server it is on. -/
structure Tree (s : Clients) (linkedSet : Set ClientId) : Prop where
  user : ∀ a, s.isUser a = true → (s.uplinkOf a).isSome = true
  service : ∀ a, s.isService a = true → s.uplinkOf a = none
  above : ∀ a b, s.uplinkOf a = some b → b < a ∧ s.isServer b = true
  users : ∀ a client leaf, s.client.cell a = some client →
    client.part = .server leaf → Exactly leaf.users fun each =>
      each ∈ linkedSet ∧ s.isUser each = true ∧ s.uplinkOf each = some a
  servers : ∀ a client leaf, s.client.cell a = some client →
    client.part = .server leaf → Exactly leaf.servers fun each =>
      each ∈ linkedSet ∧ s.isServer each = true ∧ s.uplinkOf each = some a

inductive Under (s : Clients) (target : ClientId) : ClientId → Prop where
  | self : Under s target target
  | child {a b : ClientId} (uplink : s.uplinkOf a = some b)
      (under : Under s target b) : Under s target a

def Behind (s : Clients) (target a : ClientId) : Prop :=
  ∃ c, s.uplinkOf c = some target ∧ s.Under c a

theorem Behind.under (behind : s.Behind target a) : s.Under target a := by
  obtain ⟨c, uplink, under⟩ := behind
  induction under with
  | self => exact .child uplink .self
  | child above _ ih => exact .child above ih

theorem isServer_of_part {leaf : Server}
    (used : s.client.cell a = some client) (part : client.part = .server leaf) :
    s.isServer a = true := by
  simp [isServer, used, Client.isServer, part]

theorem exists_part_of_isServer (server : s.isServer a = true) :
    ∃ client leaf, s.client.cell a = some client ∧
      client.part = .server leaf := by
  unfold isServer at server
  split at server
  · rename_i client used
    unfold Client.isServer at server
    split at server
    · rename_i leaf part
      exact ⟨client, leaf, used, part⟩
    · cases server
  · cases server

theorem isUser_only (user : s.isUser a = true) :
    s.isServer a = false ∧ s.isService a = false := by
  unfold isUser at user
  unfold isServer isService
  split at user
  · unfold Client.isUser at user
    split at user
    · rename_i part
      simp [Client.isServer, Client.isService, part]
    · cases user
  · cases user

theorem isServer_only (server : s.isServer a = true) :
    s.isUser a = false ∧ s.isService a = false := by
  obtain ⟨client, leaf, used, part⟩ := exists_part_of_isServer server
  simp [isUser, isService, used, Client.isUser, Client.isService, part]

structure SameShape (s t : Clients) : Prop where
  user : ∀ a, t.isUser a = s.isUser a
  server : ∀ a, t.isServer a = s.isServer a
  service : ∀ a, t.isService a = s.isService a
  uplink : ∀ a, t.uplinkOf a = s.uplinkOf a

namespace SameShape

theorem of_cells (cells : t.client = s.client) : SameShape s t := by
  constructor <;> intro a
  · rw [isUser, isUser, cells]
  · rw [isServer, isServer, cells]
  · rw [isService, isService, cells]
  · rw [uplinkOf, uplinkOf, cells]

theorem trans {r : Clients} (first : SameShape r s)
    (second : SameShape s t) : SameShape r t where
  user := fun a => (second.user a).trans (first.user a)
  server := fun a => (second.server a).trans (first.server a)
  service := fun a => (second.service a).trans (first.service a)
  uplink := fun a => (second.uplink a).trans (first.uplink a)

theorem modify {change : Client → Client}
    (kind : ∀ client, s.client.cell target = some client →
      (change client).isUser = client.isUser ∧
        (change client).isServer = client.isServer ∧
        (change client).isService = client.isService)
    (uplink : ∀ client, (change client).uplink = client.uplink) :
    SameShape s (s.modify target change) := by
  have kept {observe : Client → Bool} (same : ∀ client,
      s.client.cell target = some client →
        observe (change client) = observe client) (a : ClientId) :
      (s.modify target change).shows observe a = s.shows observe a := by
    unfold shows Clients.modify
    dsimp only
    rw [Heap.modify_cell]
    by_cases equal : a = target
    · subst equal
      rw [if_pos rfl]
      cases used : s.client.cell a with
      | none => rfl
      | some client => exact same client used
    · rw [if_neg equal]
  constructor
  · exact kept fun client used => (kind client used).1
  · exact kept fun client used => (kind client used).2.1
  · exact kept fun client used => (kind client used).2.2
  · intro a
    unfold uplinkOf Clients.modify
    dsimp only
    rw [Heap.modify_cell]
    by_cases equal : a = target
    · subst equal
      rw [if_pos rfl]
      cases s.client.cell a with
      | none => rfl
      | some client => exact uplink client
    · rw [if_neg equal]

theorem onServer (change : Server → Server) :
    SameShape s (s.modify target (·.onServer change)) := by
  have kept (client : Client) : (client.onServer change).isUser =
        client.isUser ∧ (client.onServer change).isServer = client.isServer ∧
        (client.onServer change).isService = client.isService ∧
        (client.onServer change).uplink = client.uplink := by
    unfold Client.onServer
    split
    · rename_i leaf part
      simp [Client.isUser, Client.isServer, Client.isService, part]
    · exact ⟨rfl, rfl, rfl, rfl⟩
  exact modify (fun client _ => ⟨(kept client).1, (kept client).2.1,
    (kept client).2.2.1⟩) fun client => (kept client).2.2.2

theorem under (shape : SameShape s t) :
    t.Under target a ↔ s.Under target a := by
  constructor
  · intro under
    induction under with
    | self => exact .self
    | child uplink _ ih => exact .child (shape.uplink _ ▸ uplink) ih
  · intro under
    induction under with
    | self => exact .self
    | child uplink _ ih => exact .child ((shape.uplink _).trans uplink) ih

theorem behind (shape : SameShape s t) :
    t.Behind target a ↔ s.Behind target a := by
  unfold Behind
  simp only [shape.uplink, shape.under]

end SameShape

namespace Tree

theorem le_of_under (tree : s.Tree linkedSet) (under : s.Under target a) :
    target ≤ a := by
  induction under with
  | self => exact Nat.le_refl _
  | child uplink _ ih =>
      have lower := (tree.above _ _ uplink).1
      exact Nat.le_of_lt (Nat.lt_of_le_of_lt ih lower)

theorem ne_of_behind (tree : s.Tree linkedSet) (behind : s.Behind target a) :
    a ≠ target := by
  rintro rfl
  obtain ⟨c, uplink, under⟩ := behind
  have low := (tree.above c a uplink).1
  have high := tree.le_of_under under
  exact absurd (Nat.lt_of_lt_of_le low high) (Nat.lt_irrefl _)

theorem eq_of_under_sibling (tree : s.Tree linkedSet)
    (left : s.uplinkOf a = some target) (right : s.uplinkOf b = some target)
    (under : s.Under a b) : a = b := by
  cases under with
  | self => rfl
  | child uplink above =>
      rw [right, Option.some.injEq] at uplink
      subst uplink
      exact absurd rfl (tree.ne_of_behind ⟨a, left, above⟩)

theorem of_lists (tree : s.Tree linkedSet) (shape : SameShape s t)
    (users : ∀ a client leaf, t.client.cell a = some client →
      client.part = .server leaf → Exactly leaf.users fun each =>
        each ∈ rest ∧ s.isUser each = true ∧ s.uplinkOf each = some a)
    (servers : ∀ a client leaf, t.client.cell a = some client →
      client.part = .server leaf → Exactly leaf.servers fun each =>
        each ∈ rest ∧ s.isServer each = true ∧ s.uplinkOf each = some a) :
    t.Tree rest where
  user := by
    intro a user
    rw [shape.uplink]
    exact tree.user a (shape.user a ▸ user)
  service := by
    intro a service
    rw [shape.uplink]
    exact tree.service a (shape.service a ▸ service)
  above := by
    intro a b uplink
    rw [shape.server]
    exact tree.above a b (shape.uplink a ▸ uplink)
  users := by
    intro a client leaf used part
    refine (users a client leaf used part).congr fun each => ?_
    rw [shape.user, shape.uplink]
  servers := by
    intro a client leaf used part
    refine (servers a client leaf used part).congr fun each => ?_
    rw [shape.server, shape.uplink]

theorem of_set (tree : s.Tree linkedSet)
    (same : ∀ a b, s.uplinkOf a = some b → (a ∈ rest ↔ a ∈ linkedSet)) :
    s.Tree rest := by
  refine tree.of_lists (.of_cells rfl) ?_ ?_
  · intro a client leaf used part
    refine (tree.users a client leaf used part).congr fun each => ?_
    exact and_congr_left fun here => (same each a here.2).symm
  · intro a client leaf used part
    refine (tree.servers a client leaf used part).congr fun each => ?_
    exact and_congr_left fun here => (same each a here.2).symm

theorem of_cells (tree : s.Tree linkedSet) (cells : t.client = s.client) :
    t.Tree linkedSet := by
  refine tree.of_lists (.of_cells cells) ?_ ?_
  · intro a client leaf used
    exact tree.users a client leaf (cells ▸ used)
  · intro a client leaf used
    exact tree.servers a client leaf (cells ▸ used)

theorem modify {change : Client → Client} (tree : s.Tree linkedSet)
    (bones : ∀ client, s.client.cell target = some client →
      (change client).part.bones = client.part.bones)
    (uplink : ∀ client, (change client).uplink = client.uplink) :
    (s.modify target change).Tree linkedSet := by
  have shape : SameShape s (s.modify target change) :=
    .modify (fun client used => Part.kind_of_bones (bones client used)) uplink
  have old : ∀ a client leaf, (s.modify target change).client.cell a =
      some client → client.part = .server leaf →
      ∃ before older, s.client.cell a = some before ∧
        before.part = .server older ∧ leaf.users = older.users ∧
        leaf.servers = older.servers := by
    intro a client leaf used is
    obtain ⟨before, there, rfl⟩ := Heap.cell_of_modify used
    by_cases equal : a = target
    · subst equal
      rw [if_pos rfl] at is
      obtain ⟨older, part, same⟩ := Part.server_of_bones
        ((bones before there).symm.trans (congrArg Part.bones is))
      exact ⟨before, older, there, part, same⟩
    · rw [if_neg equal] at is
      exact ⟨before, leaf, there, is, rfl, rfl⟩
  refine tree.of_lists shape ?_ ?_
  · intro a client leaf used is
    obtain ⟨before, older, there, part, same, _⟩ := old a client leaf used is
    rw [same]
    exact tree.users a before older there part
  · intro a client leaf used is
    obtain ⟨before, older, there, part, _, same⟩ := old a client leaf used is
    rw [same]
    exact tree.servers a before older there part

theorem onServer {change : Server → Server} (tree : s.Tree linkedSet)
    (users : ∀ leaf : Server,
      Exactly leaf.users (fun each => each ∈ linkedSet ∧
        s.isUser each = true ∧ s.uplinkOf each = some target) →
      Exactly (change leaf).users fun each => each ∈ rest ∧
        s.isUser each = true ∧ s.uplinkOf each = some target)
    (servers : ∀ leaf : Server,
      Exactly leaf.servers (fun each => each ∈ linkedSet ∧
        s.isServer each = true ∧ s.uplinkOf each = some target) →
      Exactly (change leaf).servers fun each => each ∈ rest ∧
        s.isServer each = true ∧ s.uplinkOf each = some target)
    (others : ∀ a b, s.uplinkOf a = some b → b ≠ target →
      (a ∈ rest ↔ a ∈ linkedSet)) :
    (s.modify target (·.onServer change)).Tree rest := by
  refine tree.of_lists (.onServer change) ?_ ?_
  · intro a client leaf used is
    obtain ⟨old, there, rfl⟩ := Heap.cell_of_modify used
    by_cases equal : a = target
    · subst equal
      rw [if_pos rfl] at is
      unfold Client.onServer at is
      split at is
      · rename_i before part
        cases is
        exact users before (tree.users a old before there part)
      · rename_i other
        exact absurd is (other leaf)
    · rw [if_neg equal] at is
      refine (tree.users a old leaf there is).congr fun each => ?_
      exact and_congr_left fun here => (others each a here.2 equal).symm
  · intro a client leaf used is
    obtain ⟨old, there, rfl⟩ := Heap.cell_of_modify used
    by_cases equal : a = target
    · subst equal
      rw [if_pos rfl] at is
      unfold Client.onServer at is
      split at is
      · rename_i before part
        cases is
        exact servers before (tree.servers a old before there part)
      · rename_i other
        exact absurd is (other leaf)
    · rw [if_neg equal] at is
      refine (tree.servers a old leaf there is).congr fun each => ?_
      exact and_congr_left fun here => (others each a here.2 equal).symm

theorem mem_unlinked {c : ClientId} (uplink : s.uplinkOf target = some b)
    (on : s.uplinkOf a = some c) (apart : c ≠ b) :
    a ∈ linkedSet \ {target} ↔ a ∈ linkedSet := by
  rw [Set.mem_sdiff, Set.mem_singleton_iff]
  constructor
  · exact fun here => here.1
  · refine fun here => ⟨here, ?_⟩
    rintro rfl
    rw [uplink, Option.some.injEq] at on
    exact apart on.symm

theorem unlinkUser (tree : s.Tree linkedSet) (user : s.isUser target = true)
    (uplink : s.uplinkOf target = some b) :
    (s.modify b (·.onServer fun leaf =>
      { leaf with users := Dlink.delete target leaf.users })).Tree
        (linkedSet \ {target}) := by
  refine tree.onServer (fun leaf exactly => exactly.erase)
    (fun leaf exactly => exactly.erase_other fun on => ?_)
    fun a c => mem_unlinked uplink
  rw [(isUser_only user).1] at on
  cases on.1

theorem unlinkServer (tree : s.Tree linkedSet)
    (server : s.isServer target = true)
    (uplink : s.uplinkOf target = some b) :
    (s.modify b (·.onServer fun leaf =>
      { leaf with servers := Dlink.delete target leaf.servers })).Tree
        (linkedSet \ {target}) := by
  refine tree.onServer (fun leaf exactly => exactly.erase_other fun on => ?_)
    (fun leaf exactly => exactly.erase) fun a c => mem_unlinked uplink
  rw [(isServer_only server).1] at on
  cases on.1

theorem unlinkRoot (tree : s.Tree linkedSet)
    (root : s.uplinkOf target = none) : s.Tree (linkedSet \ {target}) := by
  refine tree.of_set fun a b uplink => ?_
  rw [Set.mem_sdiff, Set.mem_singleton_iff]
  constructor
  · exact fun here => here.1
  · refine fun here => ⟨here, ?_⟩
    rintro rfl
    rw [root] at uplink
    cases uplink

theorem mem_linked {c : ClientId} (uplink : s.uplinkOf target = some b)
    (on : s.uplinkOf a = some c) (apart : c ≠ b) :
    a ∈ insert target linkedSet ↔ a ∈ linkedSet := by
  rw [Set.mem_insert_iff]
  constructor
  · rintro (rfl | here)
    · rw [uplink, Option.some.injEq] at on
      exact absurd on.symm apart
    · exact here
  · exact Or.inr

theorem linkUser (tree : s.Tree linkedSet) (user : s.isUser target = true)
    (uplink : s.uplinkOf target = some b) (absent : target ∉ linkedSet) :
    (s.modify b (·.onServer fun leaf =>
      { leaf with users := Dlink.add target leaf.users })).Tree
        (insert target linkedSet) := by
  refine tree.onServer
    (fun leaf exactly => exactly.enter absent ⟨user, uplink⟩)
    (fun leaf exactly => exactly.enter_other fun on => ?_)
    fun a c => mem_linked uplink
  rw [(isUser_only user).1] at on
  cases on.1

theorem linkServer (tree : s.Tree linkedSet)
    (server : s.isServer target = true)
    (uplink : s.uplinkOf target = some b) (absent : target ∉ linkedSet) :
    (s.modify b (·.onServer fun leaf =>
      { leaf with servers := Dlink.add target leaf.servers })).Tree
        (insert target linkedSet) := by
  refine tree.onServer (fun leaf exactly => exactly.enter_other fun on => ?_)
    (fun leaf exactly => exactly.enter absent ⟨server, uplink⟩)
    fun a c => mem_linked uplink
  rw [(isServer_only server).1] at on
  cases on.1

end Tree

def withNew (s : Clients) (client : Client) : Clients :=
  { s with client := s.client.alloc client }

theorem withNew_shows (observe : Client → Bool) (new : a ≠ s.client.next) :
    (s.withNew client).shows observe a = s.shows observe a := by
  unfold shows withNew
  dsimp only
  rw [Heap.alloc_cell, if_neg new]

theorem withNew_uplinkOf (new : a ≠ s.client.next) :
    (s.withNew client).uplinkOf a = s.uplinkOf a := by
  unfold uplinkOf withNew
  dsimp only
  rw [Heap.alloc_cell, if_neg new]

theorem withNew_next : (s.withNew client).client.cell s.client.next =
    some client :=
  Heap.alloc_cell_next ..

theorem lt_next_of_isServer (server : s.isServer a = true) :
    a < s.client.next := by
  obtain ⟨client, leaf, used, _⟩ := exists_part_of_isServer server
  exact Heap.lt_next used

theorem withNew_isServer (server : s.isServer a = true) :
    (s.withNew client).isServer a = true :=
  (withNew_shows Client.isServer
    (Nat.ne_of_lt (lt_next_of_isServer server))).trans server

structure Fits (s : Clients) (client : Client) : Prop where
  user : client.isUser = true → client.uplink.isSome = true
  service : client.isService = true → client.uplink = none
  above : ∀ b, client.uplink = some b → s.isServer b = true
  lists : ∀ leaf, client.part = .server leaf →
    leaf.users = [] ∧ leaf.servers = []

namespace Tree

theorem no_child (tree : s.Tree linkedSet)
    (absent : s.client.next ∉ linkedSet) (here : a ∈ linkedSet) :
    (s.withNew client).uplinkOf a ≠ some s.client.next := by
  have old : a ≠ s.client.next := by
    rintro rfl
    exact absent here
  rw [withNew_uplinkOf old]
  intro on
  have known := lt_next_of_isServer (tree.above a _ on).2
  exact Nat.lt_irrefl _ known

theorem alloc (tree : s.Tree linkedSet) (fits : s.Fits client)
    (absent : s.client.next ∉ linkedSet) :
    (s.withNew client).Tree linkedSet := by
  have there : (s.withNew client).client.cell s.client.next = some client :=
    withNew_next
  have same {observe : Client → Bool} {target each : ClientId} :
      (each ∈ linkedSet ∧ s.shows observe each = true ∧
        s.uplinkOf each = some target) ↔
      (each ∈ linkedSet ∧ (s.withNew client).shows observe each = true ∧
        (s.withNew client).uplinkOf each = some target) := by
    refine and_congr_right fun here => ?_
    have old : each ≠ s.client.next := by
      rintro rfl
      exact absent here
    rw [withNew_shows observe old, withNew_uplinkOf old]
  refine ⟨?_, ?_, ?_, ?_, ?_⟩
  · intro a is
    by_cases new : a = s.client.next
    · subst new
      rw [isUser, there] at is
      rw [uplinkOf, there]
      exact fits.user is
    · rw [withNew_uplinkOf new]
      exact tree.user a ((withNew_shows Client.isUser new).symm.trans is)
  · intro a is
    by_cases new : a = s.client.next
    · subst new
      rw [isService, there] at is
      rw [uplinkOf, there]
      exact fits.service is
    · rw [withNew_uplinkOf new]
      exact tree.service a ((withNew_shows Client.isService new).symm.trans is)
  · intro a b on
    by_cases new : a = s.client.next
    · subst new
      rw [uplinkOf, there] at on
      have server := fits.above b on
      exact ⟨lt_next_of_isServer server, withNew_isServer server⟩
    · rw [withNew_uplinkOf new] at on
      obtain ⟨lower, server⟩ := tree.above a b on
      exact ⟨lower, withNew_isServer server⟩
  · intro a other leaf used part
    by_cases new : a = s.client.next
    · subst new
      rw [there, Option.some.injEq] at used
      subst used
      rw [(fits.lists leaf part).1]
      exact .nil fun each here => tree.no_child absent here.1 here.2.2
    · have used : s.client.cell a = some other := by
        rw [← used]
        exact (Heap.alloc_cell _ _ _).symm ▸ (if_neg new).symm
      exact (tree.users a other leaf used part).congr fun each => same
  · intro a other leaf used part
    by_cases new : a = s.client.next
    · subst new
      rw [there, Option.some.injEq] at used
      subst used
      rw [(fits.lists leaf part).2]
      exact .nil fun each here => tree.no_child absent here.1 here.2.2
    · have used : s.client.cell a = some other := by
        rw [← used]
        exact (Heap.alloc_cell _ _ _).symm ▸ (if_neg new).symm
      exact (tree.servers a other leaf used part).congr fun each => same

end Tree

end Clients

end RatboxServices
