import Mathlib.Data.List.Forall2
import RatboxServices.Irc.Hash
import RatboxServices.Serv.Accounts
import RatboxServices.Serv.Nicks

namespace RatboxServices

open CString

/-! What is always true of registered nicks, and what the single changes keep
of it. -/

namespace NickState

variable {conf : ServConfig} {nickConf : NickConfig} {s t : NickState}
  {n : NickRegId} {reg : NickReg} {name : CString}

structure Shows (s : NickState) (row : NickRow) (n : NickRegId) : Prop where
  reg : ∃ reg, s.nick.cell n = some reg ∧ row.nickname = reg.name ∧
    row.username = s.regs.userName reg.userReg ∧
    row.regTime = reg.regTime ∧ row.lastTime = reg.lastTime ∧
    BitVec.ofInt 32 row.flags = reg.flags

structure Proper (conf : ServConfig) (name : CString) : Prop where
  some_ : name ≠ []
  short : name.length ≤ conf.nickLen
  noUid : firstIs isDigit name = false

structure Inv (conf : ServConfig) (nickConf : NickConfig) (s : NickState) :
    Prop where
  sound : Regs.Sound s.regs
  table : Exactly s.nickTable (s.nick.Has fun _ => True)
  owned : ∀ u, Exactly (s.nicksOf u) (s.nick.Has (·.userReg = u))
  live : ∀ n reg, s.nick.cell n = some reg →
    ∃ user, s.regs.user.cell reg.userReg = some user
  unique : ∀ m n left right, s.nick.cell m = some left →
    s.nick.cell n = some right → irccmp left.name right.name = true → m = n
  proper : ∀ n reg, s.nick.cell n = some reg → Proper conf reg.name
  limit : ∀ u, (s.nicksOf u).length ≤ nickConf.maxNicks
  rows : List.Forall₂ s.Shows s.nicks s.nickTable.reverse
  online : ∀ entry ∈ s.online,
    entry.2 ≠ [] ∧ entry.2.length ≤ conf.nickLen

theorem irccmp_refl (name : CString) : irccmp name name = true :=
  irccmp_iff.mpr rfl

theorem irccmp_trans {a b c : CString} (first : irccmp a b = true)
    (second : irccmp b c = true) : irccmp a c = true :=
  irccmp_iff.mpr ((irccmp_iff.mp first).trans (irccmp_iff.mp second))

theorem named_iff : s.named name n = true ↔
    ∃ reg, s.nick.cell n = some reg ∧ irccmp reg.name name = true := by
  unfold named
  cases s.nick.cell n with
  | none => simp
  | some reg =>
      simp only [Bool.and_eq_true, beq_iff_eq, Option.some.injEq,
        exists_eq_left']
      constructor
      · exact fun both => both.2
      · exact fun same => ⟨hashName_of_irccmp same, same⟩

def lookup (s : NickState) (name : CString) : Option NickReg :=
  (s.findNickReg name).bind s.nick.cell

theorem findNickReg_some (found : s.findNickReg name = some n) :
    ∃ reg, s.nick.cell n = some reg ∧ irccmp reg.name name = true :=
  named_iff.mp (List.find?_some found)

theorem lookup_eq_some_iff (inv : Inv conf nickConf s) :
    s.lookup name = some reg ↔
      ∃ n, s.nick.cell n = some reg ∧ irccmp reg.name name = true := by
  unfold lookup
  constructor
  · intro found
    obtain ⟨n, first, cell⟩ := Option.bind_eq_some_iff.mp found
    obtain ⟨other, there, same⟩ := findNickReg_some first
    rw [cell, Option.some.injEq] at there
    exact ⟨n, cell, there ▸ same⟩
  · rintro ⟨n, cell, same⟩
    have hit : s.named name n = true := named_iff.mpr ⟨reg, cell, same⟩
    have listed := (inv.table.mem_iff n).mpr ⟨reg, cell, trivial⟩
    cases first : s.findNickReg name with
    | none => exact absurd hit (List.find?_eq_none.mp first n listed)
    | some m =>
        obtain ⟨other, there, also⟩ := findNickReg_some first
        rw [inv.unique n m reg other cell there
          (irccmp_trans same (irccmp_comm also))] at cell
        exact cell

theorem findNickReg_none (inv : Inv conf nickConf s)
    (missing : s.findNickReg name = none) (cell : s.nick.cell n = some reg) :
    irccmp reg.name name = false := by
  by_contra same
  rw [Bool.not_eq_false] at same
  have listed := (inv.table.mem_iff n).mpr ⟨reg, cell, trivial⟩
  exact List.find?_eq_none.mp missing n listed
    (named_iff.mpr ⟨reg, cell, same⟩)

structure SameNicks (s t : NickState) : Prop where
  nick : t.nick = s.nick
  nickTable : t.nickTable = s.nickTable
  nicksOf : t.nicksOf = s.nicksOf
  nicks : t.nicks = s.nicks

theorem sound_same {r t : Regs} (sound : Regs.Sound r)
    (same : Regs.SameAccess r t) : Regs.Sound t :=
  ⟨sound.access.same same, sound.accounts.same same.sameNames,
    sound.channels.same same.sameChans⟩

theorem Inv.same (inv : Inv conf nickConf s) (nicks : SameNicks s t)
    (access : Regs.SameAccess s.regs t.regs)
    (online : ∀ entry ∈ t.online,
      entry.2 ≠ [] ∧ entry.2.length ≤ conf.nickLen) :
    Inv conf nickConf t := by
  obtain ⟨nick, nickTable, nicksOf, rows⟩ := nicks
  refine ⟨sound_same inv.sound access, ?_, ?_, ?_, ?_, ?_, ?_, ?_, online⟩
  · rw [nickTable, nick]
    exact inv.table
  · rw [nicksOf, nick]
    exact inv.owned
  · intro n reg found
    rw [nick] at found
    obtain ⟨user, there⟩ := inv.live n reg found
    obtain ⟨new, stays, -⟩ := access.sameNames.symm.cell there
    exact ⟨new, stays⟩
  · rw [nick]
    exact inv.unique
  · rw [nick]
    exact inv.proper
  · rw [nicksOf]
    exact inv.limit
  · rw [rows, nickTable]
    refine inv.rows.imp fun row n shows => ⟨?_⟩
    rw [nick, access.userName]
    exact shows.reg

theorem freeNickReg_eq (cell : s.nick.cell n = some reg) :
    s.freeNickReg n =
      { s with
        nick := s.nick.free n
        nickTable := Dlink.delete n s.nickTable
        nicksOf := Function.update s.nicksOf reg.userReg
          (Dlink.delete n (s.nicksOf reg.userReg))
        nicks := s.nicks.filter fun row => row.nickname != reg.name } := by
  unfold freeNickReg
  rw [cell]

theorem freeNickReg_none (cell : s.nick.cell n = none) :
    s.freeNickReg n = s := by
  unfold freeNickReg
  rw [cell]

theorem freeNickReg_cell (s : NickState) (n m : NickRegId) :
    (s.freeNickReg n).nick.cell m =
      if m = n then none else s.nick.cell m := by
  cases cell : s.nick.cell n with
  | none =>
      rw [freeNickReg_none cell]
      split
      · rename_i equal
        rw [equal, cell]
      · rfl
  | some reg =>
      rw [freeNickReg_eq cell]
      exact Heap.free_cell _ _ _

theorem freeNickReg_regs (s : NickState) (n : NickRegId) :
    (s.freeNickReg n).regs = s.regs := by
  unfold freeNickReg
  split <;> rfl

theorem forall₂_imp_mem {α β : Type} {R S : α → β → Prop} {left : List α}
    {right : List β} (all : List.Forall₂ R left right)
    (imp : ∀ a b, b ∈ right → R a b → S a b) : List.Forall₂ S left right := by
  induction all with
  | nil => exact .nil
  | cons first _ ih =>
      exact .cons (imp _ _ List.mem_cons_self first)
        (ih fun a b listed => imp a b (List.mem_cons_of_mem _ listed))

theorem exists_of_forall₂ {α β : Type} {R : α → β → Prop} {left : List α}
    {right : List β} (all : List.Forall₂ R left right) {a : α}
    (listed : a ∈ left) : ∃ b ∈ right, R a b := by
  induction all with
  | nil => cases listed
  | cons first _ ih =>
      obtain rfl | later := List.mem_cons.mp listed
      · exact ⟨_, List.mem_cons_self, first⟩
      · obtain ⟨b, there, holds⟩ := ih later
        exact ⟨b, List.mem_cons_of_mem _ there, holds⟩

theorem free_rows (inv : Inv conf nickConf s)
    (cell : s.nick.cell n = some reg) :
    List.Forall₂ (s.freeNickReg n).Shows
      (s.nicks.filter fun row => row.nickname != reg.name)
      (Dlink.delete n s.nickTable).reverse := by
  have order : (Dlink.delete n s.nickTable).reverse =
      s.nickTable.reverse.filter (· != n) := by
    rw [Dlink.delete, inv.table.nodup.erase_eq_filter, List.filter_reverse]
  have kept : List.Forall₂ s.Shows
      (s.nicks.filter fun row => row.nickname != reg.name)
      (s.nickTable.reverse.filter (· != n)) := by
    refine List.rel_filter ?_ inv.rows
    intro row m shows
    obtain ⟨other, there, nickname, -⟩ := shows.reg
    simp only [bne_iff_ne, nickname]
    refine not_congr ⟨fun same => ?_, ?_⟩
    · refine inv.unique m n other reg there cell ?_
      rw [same]
      exact irccmp_refl _
    · rintro rfl
      rw [cell, Option.some.injEq] at there
      rw [there]
  rw [order]
  refine forall₂_imp_mem kept fun row m listed shows => ?_
  have different : m ≠ n := by simpa using (List.mem_filter.mp listed).2
  obtain ⟨other, there, rest⟩ := shows.reg
  refine ⟨other, ?_, ?_⟩
  · rw [freeNickReg_cell, if_neg different]
    exact there
  · rw [freeNickReg_regs]
    exact rest

theorem Inv.free (inv : Inv conf nickConf s) (n : NickRegId) :
    Inv conf nickConf (s.freeNickReg n) := by
  cases cell : s.nick.cell n with
  | none =>
      rw [freeNickReg_none cell]
      exact inv
  | some reg =>
      have stays {m : NickRegId} {other : NickReg}
          (after : (s.nick.free n).cell m = some other) :
          s.nick.cell m = some other := by
        rw [Heap.free_cell] at after
        split at after
        · cases after
        · exact after
      have rows := free_rows inv cell
      rw [freeNickReg_eq cell] at rows ⊢
      refine ⟨inv.sound, inv.table.free_in, fun u => ?_, ?_, ?_, ?_,
        fun u => ?_, rows, inv.online⟩
      · dsimp only
        by_cases mine : u = reg.userReg
        · subst mine
          rw [Function.update_self]
          exact (inv.owned reg.userReg).free_in
        · rw [Function.update_of_ne mine]
          refine (inv.owned u).free_out ?_
          rw [Heap.has_iff cell]
          exact Ne.symm mine
      · exact fun m other after => inv.live m other (stays after)
      · exact fun a b left right first second =>
          inv.unique a b left right (stays first) (stays second)
      · exact fun m other after => inv.proper m other (stays after)
      · refine Nat.le_trans ?_ (inv.limit u)
        dsimp only
        by_cases mine : u = reg.userReg
        · subst mine
          rw [Function.update_self]
          exact (Dlink.delete_sublist n _).length_le
        · rw [Function.update_of_ne mine]

theorem addNickReg_cell (s : NickState) (reg : NickReg) (m : NickRegId) :
    (s.addNickReg reg).nick.cell m =
      if m = s.nick.next then some reg else s.nick.cell m :=
  Heap.alloc_cell _ _ _

theorem Inv.add (inv : Inv conf nickConf s)
    (missing : s.findNickReg reg.name = none) (proper : Proper conf reg.name)
    (live : ∃ user, s.regs.user.cell reg.userReg = some user)
    (room : (s.nicksOf reg.userReg).length < nickConf.maxNicks)
    {row : NickRow} (shows : (s.addNickReg reg).Shows row s.nick.next) :
    Inv conf nickConf
      { s.addNickReg reg with nicks := s.nicks ++ [row] } := by
  have other {m : NickRegId} {old : NickReg}
      (after : (s.nick.alloc reg).cell m = some old) :
      (m = s.nick.next ∧ old = reg) ∨ s.nick.cell m = some old := by
    rw [Heap.alloc_cell] at after
    split at after
    · rename_i new
      exact Or.inl ⟨new, (Option.some.inj after).symm⟩
    · exact Or.inr after
  refine ⟨inv.sound, inv.table.alloc_in trivial, fun u => ?_, ?_, ?_, ?_,
    fun u => ?_, ?_, inv.online⟩
  · unfold addNickReg
    dsimp only
    by_cases mine : u = reg.userReg
    · subst mine
      rw [Function.update_self]
      exact (inv.owned reg.userReg).alloc_in rfl
    · rw [Function.update_of_ne mine]
      exact (inv.owned u).alloc_out (Ne.symm mine)
  · intro m old after
    obtain ⟨-, rfl⟩ | before := other after
    · exact live
    · exact inv.live m old before
  · intro a b left right first second same
    obtain ⟨rfl, rfl⟩ | before := other first
    · obtain ⟨rfl, rfl⟩ | before' := other second
      · rfl
      · have apart := findNickReg_none inv missing before'
        rw [irccmp_comm same] at apart
        cases apart
    · obtain ⟨rfl, rfl⟩ | before' := other second
      · have apart := findNickReg_none inv missing before
        rw [same] at apart
        cases apart
      · exact inv.unique a b left right before before' same
  · intro m old after
    obtain ⟨-, rfl⟩ | before := other after
    · exact proper
    · exact inv.proper m old before
  · unfold addNickReg
    dsimp only
    by_cases mine : u = reg.userReg
    · subst mine
      rw [Function.update_self]
      exact room
    · rw [Function.update_of_ne mine]
      exact inv.limit u
  · have order : (Dlink.add s.nick.next s.nickTable).reverse =
        s.nickTable.reverse ++ [s.nick.next] := by
      simp [Dlink.add]
    show List.Forall₂ _ (s.nicks ++ [row])
      (Dlink.add s.nick.next s.nickTable).reverse
    rw [order]
    refine List.rel_append (inv.rows.imp ?_) (.cons ⟨shows.reg⟩ .nil)
    rintro old m ⟨before, cell, rest⟩
    have different : m ≠ s.nick.next := by
      rintro rfl
      rw [Heap.cell_next] at cell
      cases cell
    refine ⟨before, ?_, rest⟩
    show (s.addNickReg reg).nick.cell m = _
    rw [addNickReg_cell, if_neg different]
    exact cell

theorem insertNick_ok (inv : Inv conf nickConf s)
    (missing : s.findNickReg reg.name = none) :
    (s.addNickReg reg).insertNick (s.rowOf reg) =
      .ok { s.addNickReg reg with nicks := s.nicks ++ [s.rowOf reg] } := by
  refine if_neg fun listed => ?_
  obtain ⟨row, there, same⟩ := List.mem_map.mp listed
  obtain ⟨n, -, other, cell, nickname, -⟩ :=
    exists_of_forall₂ inv.rows there
  have apart := findNickReg_none inv missing cell
  rw [← nickname, same] at apart
  exact absurd (irccmp_refl _) (by simpa [rowOf] using apart)

theorem Inv.setFlags (inv : Inv conf nickConf s)
    (cell : s.nick.cell n = some reg) (flags : Word) :
    Inv conf nickConf
      { s with
        nick := s.nick.modify n fun reg => { reg with flags := flags }
        nicks := s.nicks.map fun row =>
          if row.nickname == reg.name then { row with flags := flags.toInt }
          else row } := by
  have old {m : NickRegId} {new : NickReg}
      (after : (s.nick.modify n fun reg => { reg with flags := flags }).cell m =
        some new) : ∃ before, s.nick.cell m = some before ∧
        new.name = before.name ∧ new.userReg = before.userReg := by
    obtain ⟨before, there, rfl⟩ := Heap.cell_of_modify after
    refine ⟨before, there, ?_⟩
    split <;> exact ⟨rfl, rfl⟩
  refine ⟨inv.sound, ?_, fun u => ?_, ?_, ?_, ?_, inv.limit, ?_, inv.online⟩
  · exact inv.table.modify_same fun _ _ => Iff.rfl
  · exact (inv.owned u).modify_same fun _ _ => Iff.rfl
  · intro m new after
    obtain ⟨before, there, -, owner⟩ := old after
    rw [owner]
    exact inv.live m before there
  · intro a b left right first second same
    obtain ⟨left', first', name, -⟩ := old first
    obtain ⟨right', second', name', -⟩ := old second
    rw [name, name'] at same
    exact inv.unique a b left' right' first' second' same
  · intro m new after
    obtain ⟨before, there, name, -⟩ := old after
    rw [name]
    exact inv.proper m before there
  · dsimp only
    rw [List.forall₂_map_left_iff]
    refine inv.rows.imp ?_
    rintro row m ⟨other, there, nickname, username, rest⟩
    by_cases mine : m = n
    · subst mine
      rw [cell, Option.some.injEq] at there
      subst there
      rw [if_pos (beq_iff_eq.mpr nickname)]
      refine ⟨{ reg with flags := flags }, ?_, nickname, username, rest.1,
        rest.2.1, ?_⟩
      · exact (Heap.modify_of_cell cell).trans
          (congrArg some (if_pos rfl))
      · exact BitVec.ofInt_toInt
    · have apart : row.nickname ≠ reg.name := by
        rw [nickname]
        intro same
        refine mine (inv.unique m n other reg there cell ?_)
        rw [same]
        exact irccmp_refl _
      rw [if_neg (by simpa using apart)]
      refine ⟨other, ?_, nickname, username, rest⟩
      exact (Heap.modify_cell_of_ne _ _ mine).trans there

theorem foldl_freeNickReg (nicks : List NickRegId) (s : NickState) :
    (nicks.foldl (fun s target => s.freeNickReg target) s).regs = s.regs ∧
      ∀ m, (nicks.foldl (fun s target => s.freeNickReg target)
        s).nick.cell m = if m ∈ nicks then none else s.nick.cell m := by
  induction nicks generalizing s with
  | nil => exact ⟨rfl, fun m => by simp⟩
  | cons n nicks ih =>
      obtain ⟨regs, cells⟩ := ih (s.freeNickReg n)
      refine ⟨regs.trans (freeNickReg_regs s n), fun m => ?_⟩
      rw [List.foldl_cons, cells, freeNickReg_cell]
      by_cases later : m ∈ nicks
      · simp [later]
      · by_cases same : m = n
        · simp [same]
        · simp [later, same]

theorem Inv.freeAll (inv : Inv conf nickConf s) (nicks : List NickRegId) :
    Inv conf nickConf
      (nicks.foldl (fun s target => s.freeNickReg target) s) := by
  induction nicks generalizing s with
  | nil => exact inv
  | cons n nicks ih => exact ih (inv.free n)

theorem freeUserNicks_cell (inv : Inv conf nickConf s) (u : UserRegId)
    (m : NickRegId) :
    (s.freeUserNicks u).nick.cell m = some reg ↔
      s.nick.cell m = some reg ∧ reg.userReg ≠ u := by
  rw [freeUserNicks, (foldl_freeNickReg _ s).2]
  have mine := (inv.owned u).mem_iff m
  constructor
  · intro after
    split at after
    · cases after
    · rename_i other
      refine ⟨after, fun same => other (mine.mpr ⟨reg, after, same⟩)⟩
  · rintro ⟨cell, other⟩
    rw [if_neg]
    · exact cell
    · intro listed
      obtain ⟨also, there, same⟩ := mine.mp listed
      rw [cell, Option.some.injEq] at there
      exact other (there ▸ same)

theorem freeUsers (inv : Inv conf nickConf s) (gone : List UserRegId) :
    Inv conf nickConf (gone.foldl freeUserNicks s) ∧
      (gone.foldl freeUserNicks s).regs = s.regs ∧
      ∀ m reg, (gone.foldl freeUserNicks s).nick.cell m = some reg ↔
        s.nick.cell m = some reg ∧ reg.userReg ∉ gone := by
  induction gone generalizing s with
  | nil => exact ⟨inv, rfl, fun m reg => by simp⟩
  | cons u gone ih =>
      have first : Inv conf nickConf (s.freeUserNicks u) := inv.freeAll _
      obtain ⟨kept, regs, cells⟩ := ih first
      refine ⟨kept, regs.trans (foldl_freeNickReg _ s).1, fun m reg => ?_⟩
      rw [List.foldl_cons, cells, freeUserNicks_cell inv, List.mem_cons,
        not_or, and_assoc]

theorem step_names {r r' : Regs} {event : RegEvent} (sound : Regs.Sound r)
    (returned : r.step conf event = .ok r') {u : UserRegId} {old new : UserReg}
    (before : r.user.cell u = some old) (after : r'.user.cell u = some new) :
    new.name = old.name := by
  cases registers : event.act.registers conf r with
  | false =>
      have leave := Regs.OnlyLeave.step sound.access registers returned
      obtain ⟨also, there, name⟩ := leave.stays u new after
      rw [before, Option.some.injEq] at there
      rw [← name, there]
  | true =>
      obtain ⟨added, -, same⟩ := Regs.step_of_registers registers returned
      obtain ⟨also, there, name, -⟩ := same.cell after
      rw [Regs.withUser, Regs.addUserReg,
        Heap.alloc_cell_of_used before, Option.some.injEq] at there
      rw [← name, there]

theorem Inv.follow (inv : Inv conf nickConf s) {event : RegEvent} {regs : Regs}
    (returned : s.regs.step conf event = .ok regs) :
    Inv conf nickConf (s.follow regs) := by
  have tables := inv.sound.accounts.table
  obtain ⟨kept, same, cells⟩ := freeUsers inv
    (s.regs.userTable.filter fun account => (regs.user.cell account).isNone)
  have stays {m : NickRegId} {reg : NickReg}
      (after : (s.follow regs).nick.cell m = some reg) :
      ∃ user, regs.user.cell reg.userReg = some user ∧
        user.name = s.regs.userName reg.userReg := by
    obtain ⟨before, other⟩ := (cells m reg).mp after
    obtain ⟨user, there⟩ := inv.live m reg before
    have listed := (tables.mem_iff reg.userReg).mpr ⟨user, there, trivial⟩
    cases owner : regs.user.cell reg.userReg with
    | none => exact absurd (List.mem_filter.mpr ⟨listed, by simp [owner]⟩) other
    | some new =>
        refine ⟨new, rfl, ?_⟩
        rw [Regs.userName, there]
        exact step_names inv.sound returned there owner
  refine ⟨inv.sound.step returned, kept.table, kept.owned, ?_, kept.unique,
    kept.proper, kept.limit, ?_, kept.online⟩
  · intro m reg after
    obtain ⟨user, there, -⟩ := stays after
    exact ⟨user, there⟩
  · refine kept.rows.imp ?_
    rintro row m ⟨reg, after, nickname, username, rest⟩
    refine ⟨reg, after, nickname, ?_, rest⟩
    obtain ⟨user, there, name⟩ := stays after
    rw [username, same]
    show _ = regs.userName reg.userReg
    rw [← name, Regs.userName, there]

end NickState

end RatboxServices
