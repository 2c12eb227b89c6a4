import RatboxServices.Serv.LoginRun
import RatboxServices.Serv.NickStep

namespace RatboxServices

open CString

/-! Registered nicks and table `nicks` in every run. -/

namespace NickState

variable {conf : ServConfig} {nickConf : NickConfig} {s t : NickState}
  {event : NickEvent} {lines : List NickLine}

def ownedBy (s : NickState) (u : UserRegId) (n : NickRegId) : Bool :=
  match s.nick.cell n with
  | some reg => reg.userReg == u
  | none => false

def Ordered (s : NickState) : Prop :=
  ∀ u, s.nicksOf u = s.nickTable.filter (s.ownedBy u)

theorem ownedBy_congr {n : NickRegId} (same : t.nick.cell n = s.nick.cell n)
    (u : UserRegId) : t.ownedBy u n = s.ownedBy u n := by
  unfold ownedBy
  rw [same]

theorem Ordered.same (ordered : Ordered s) (nick : t.nick = s.nick)
    (nickTable : t.nickTable = s.nickTable) (nicksOf : t.nicksOf = s.nicksOf) :
    Ordered t := by
  intro u
  rw [nicksOf, nickTable, ordered u]
  refine List.filter_congr fun n _ => (ownedBy_congr ?_ u).symm
  rw [nick]

theorem Ordered.add (ordered : Ordered s)
    (table : ∀ n ∈ s.nickTable, (s.nick.cell n).isSome) (reg : NickReg) :
    Ordered (s.addNickReg reg) := by
  intro u
  have others : s.nickTable.filter ((s.addNickReg reg).ownedBy u) =
      s.nickTable.filter (s.ownedBy u) := by
    refine List.filter_congr fun n listed => ownedBy_congr ?_ u
    rw [addNickReg_cell, if_neg]
    rintro rfl
    have used := table _ listed
    rw [Heap.cell_next] at used
    cases used
  have new : (s.addNickReg reg).ownedBy u s.nick.next =
      (reg.userReg == u) := by
    unfold ownedBy
    rw [addNickReg_cell, if_pos rfl]
  show Function.update s.nicksOf reg.userReg _ u =
    (s.nick.next :: s.nickTable).filter _
  rw [List.filter_cons, new, others, ← ordered u]
  by_cases mine : reg.userReg = u
  · subst mine
    simp [Dlink.add]
  · rw [Function.update_of_ne (Ne.symm mine)]
    simp [mine]

theorem Ordered.free (ordered : Ordered s) (inv : Inv conf nickConf s)
    (n : NickRegId) : Ordered (s.freeNickReg n) := by
  cases cell : s.nick.cell n with
  | none =>
      rw [freeNickReg_none cell]
      exact ordered
  | some reg =>
      intro u
      have others : (s.nickTable.filter (· != n)).filter
          ((s.freeNickReg n).ownedBy u) =
          (s.nickTable.filter (s.ownedBy u)).filter (· != n) := by
        rw [List.filter_filter, List.filter_filter]
        refine List.filter_congr fun m _ => ?_
        by_cases same : m = n
        · simp [same]
        · have kept : (s.freeNickReg n).ownedBy u m = s.ownedBy u m :=
            ownedBy_congr (by rw [freeNickReg_cell, if_neg same]) u
          simp [kept, Bool.and_comm]
      have table : (s.freeNickReg n).nickTable =
          s.nickTable.filter (· != n) := by
        rw [freeNickReg_eq cell]
        exact inv.table.nodup.erase_eq_filter n
      rw [table, others, ← ordered u, freeNickReg_eq cell]
      by_cases mine : u = reg.userReg
      · subst mine
        show Function.update s.nicksOf reg.userReg _ reg.userReg = _
        rw [Function.update_self, Dlink.delete,
          (inv.owned reg.userReg).nodup.erase_eq_filter]
      · show Function.update s.nicksOf reg.userReg _ u = _
        rw [Function.update_of_ne mine]
        refine (List.filter_eq_self.mpr fun m listed => ?_).symm
        obtain ⟨also, there, owner⟩ := ((inv.owned u).mem_iff m).mp listed
        have apart : m ≠ n := by
          rintro rfl
          rw [cell, Option.some.injEq] at there
          exact mine (there ▸ owner.symm)
        simpa using apart

theorem Ordered.freeAll (ordered : Ordered s) (inv : Inv conf nickConf s)
    (nicks : List NickRegId) :
    Ordered (nicks.foldl (fun s target => s.freeNickReg target) s) := by
  induction nicks generalizing s with
  | nil => exact ordered
  | cons n nicks ih => exact ih (ordered.free inv n) (inv.free n)

theorem Ordered.follow (ordered : Ordered s) (inv : Inv conf nickConf s)
    (regs : Regs) : Ordered (s.follow regs) := by
  have all : ∀ (gone : List UserRegId) (s : NickState), Ordered s →
      Inv conf nickConf s → Ordered (gone.foldl freeUserNicks s) := by
    intro gone
    induction gone with
    | nil => exact fun s ordered _ => ordered
    | cons u gone ih =>
        exact fun s ordered inv =>
          ih _ (ordered.freeAll inv _) (inv.freeAll _)
  exact (all _ s ordered inv).same rfl rfl rfl

theorem Ordered.setFlags (ordered : Ordered s) (n : NickRegId) (flags : Word)
    (rows : List NickRow) :
    Ordered
      { s with
        nick := s.nick.modify n fun reg => { reg with flags := flags }
        nicks := rows } := by
  intro u
  show s.nicksOf u = _
  rw [ordered u]
  refine List.filter_congr fun m _ => ?_
  unfold ownedBy
  dsimp only
  rw [Heap.modify_cell]
  by_cases same : m = n
  · subst same
    cases s.nick.cell m with
    | none => simp
    | some reg => simp
  · simp [same]

theorem Ordered.answered (ordered : Ordered s) (inv : Inv conf nickConf s)
    (answered : Answered conf nickConf s event t lines) : Ordered t := by
  have touch {regs : Regs} : Ordered { s with regs := regs } :=
    ordered.same rfl rfl rfl
  cases answered with
  | idle nicks =>
      exact ordered.same nicks.nick nicks.nickTable nicks.nicksOf
  | accounts act plain regs => exact ordered.follow inv regs
  | register regs access reg =>
      refine Ordered.same (touch.add (fun n listed => ?_) reg) rfl rfl rfl
      obtain ⟨old, cell, -⟩ := (inv.table.mem_iff n).mp listed
      exact Option.isSome_iff_exists.mpr ⟨old, cell⟩
  | drop regs access client name n reg => exact touch.free (inv.touch access) n
  | nickdrop name n reg => exact ordered.free inv n
  | setFlags regs access n reg cell flags => exact touch.setFlags n flags _
  | kill nicks =>
      exact ordered.same nicks.nick nicks.nickTable nicks.nicksOf

def cellNamed (name : CString) : Option NickReg → Bool
  | some reg => hashName reg.name == hashName name && irccmp reg.name name
  | none => false

theorem lookup_eq (s : NickState) (name : CString) :
    s.lookup name =
      ((s.nickTable.map s.nick.cell).find? (cellNamed name)).join := by
  have test : s.named name = cellNamed name ∘ s.nick.cell := by
    funext n
    unfold named cellNamed
    rfl
  rw [List.find?_map, lookup, findNickReg, test]
  cases s.nickTable.find? (cellNamed name ∘ s.nick.cell) with
  | none => rfl
  | some n => rfl

def cellOwned (u : UserRegId) : Option NickReg → Bool
  | some reg => reg.userReg == u
  | none => false

theorem Ordered.map_cell (ordered : Ordered s) (u : UserRegId) :
    (s.nicksOf u).map s.nick.cell =
      (s.nickTable.map s.nick.cell).filter (cellOwned u) := by
  have test : s.ownedBy u = cellOwned u ∘ s.nick.cell := by
    funext n
    unfold ownedBy cellOwned
    rfl
  rw [ordered u, test, List.filter_map]

def Loads (s t : NickState) (nicks : List NickRegId) : Prop :=
  t.nickTable.map t.nick.cell = (nicks.map s.nick.cell).reverse ∧
    (∀ n ∈ t.nickTable, (t.nick.cell n).isSome) ∧ Ordered t ∧
    t.regs = s.regs

theorem nickDbCallback_loads
    (findable : ∀ u user, s.regs.user.cell u = some user →
      s.regs.findUserReg user.name = some u)
    (inv : Inv conf nickConf s) {nicks : List NickRegId}
    (loads : Loads s t nicks) {row : NickRow} {n : NickRegId}
    (shows : s.Shows row n) :
    Loads s (t.nickDbCallback conf row) (nicks ++ [n]) := by
  obtain ⟨cells, used, ordered, same⟩ := loads
  obtain ⟨reg, cell, nickname, username, regTime, lastTime, flags⟩ := shows.reg
  obtain ⟨user, owner⟩ := inv.live n reg cell
  have name : s.regs.userName reg.userReg = user.name := by
    rw [Regs.userName, owner]
  have proper := inv.proper n reg cell
  have whole : strlcpy (conf.nickLen + 1) reg.name = reg.name :=
    Regs.strlcpy_of_le proper.short
  have given : (row.nickname.isEmpty || row.username.isEmpty) = false := by
    have named := inv.sound.accounts.named _ _ owner
    rw [nickname, username, name]
    simp [proper.some_, named]
  have found : t.regs.findUserReg row.username = some reg.userReg := by
    rw [same, username, name]
    exact findable reg.userReg user owner
  have loaded : t.nickDbCallback conf row = t.addNickReg reg := by
    unfold nickDbCallback
    rw [given, found, nickname, whole, regTime, lastTime, flags]
    rfl
  have fresh : ∀ m ∈ t.nickTable, m ≠ t.nick.next := by
    rintro m listed rfl
    have there := used _ listed
    rw [Heap.cell_next] at there
    cases there
  have kept : ∀ m ∈ t.nickTable,
      (t.addNickReg reg).nick.cell m = t.nick.cell m := by
    intro m listed
    rw [addNickReg_cell, if_neg (fresh m listed)]
  rw [loaded]
  refine ⟨?_, ?_, ordered.add used reg, same⟩
  · show (t.nick.next :: t.nickTable).map _ = _
    rw [List.map_cons, List.map_congr_left kept, cells, addNickReg_cell,
      if_pos rfl, List.map_append, List.reverse_append, ← cell]
    rfl
  · intro m listed
    obtain rfl | old := List.mem_cons.mp listed
    · rw [addNickReg_cell, if_pos rfl]
      rfl
    · rw [kept m old]
      exact used m old

theorem foldl_loads
    (findable : ∀ u user, s.regs.user.cell u = some user →
      s.regs.findUserReg user.name = some u)
    (inv : Inv conf nickConf s) {rows : List NickRow}
    {nicks before : List NickRegId} (shows : List.Forall₂ s.Shows rows nicks)
    (loads : Loads s t before) :
    Loads s (rows.foldl (nickDbCallback conf) t) (before ++ nicks) := by
  induction shows generalizing t before with
  | nil => simpa using loads
  | cons first _ ih =>
      have next := ih (nickDbCallback_loads findable inv loads first)
      simpa using next

/-- The nicks that the table brings back are those that were there, under the
same names and in the same lists. -/
theorem initNickserv_eq
    (findable : ∀ u user, s.regs.user.cell u = some user →
      s.regs.findUserReg user.name = some u)
    (inv : Inv conf nickConf s) (ordered : Ordered s) :
    (∀ name, (s.initNickserv conf).lookup name = s.lookup name) ∧
      ∀ u, ((s.initNickserv conf).nicksOf u).map
          (s.initNickserv conf).nick.cell =
        (s.nicksOf u).map s.nick.cell := by
  have empty : Loads s
      { s with nick := .empty, nickTable := [], nicksOf := fun _ => [] }
      [] :=
    ⟨rfl, fun n listed => absurd listed List.not_mem_nil, fun u => rfl, rfl⟩
  obtain ⟨cells, -, again, -⟩ := foldl_loads findable inv inv.rows empty
  rw [List.nil_append, ← List.map_reverse, List.reverse_reverse] at cells
  constructor
  · intro name
    rw [lookup_eq, lookup_eq, initNickserv, cells]
  · intro u
    rw [initNickserv, again.map_cell u, cells, ← ordered.map_cell u]

/-- The rows that the database hook brings have names that fit, if they have a
name and a password. -/
def HooksFit (conf : ServConfig) (events : List NickEvent) : Prop :=
  ∀ event ∈ events, ∀ name password plain,
    event.act = .account (.hookRegister name password) plain →
      name ≠ [] → password ≠ [] → Regs.Fits conf name

theorem namedInv_step {r r' : Regs} {event : RegEvent}
    (fits : ∀ name password, event.act = .hookRegister name password →
      name ≠ [] → password ≠ [] → Regs.Fits conf name)
    (sound : Regs.Sound r) (named : Regs.NamedInv conf r)
    (returned : r.step conf event = .ok r') : Regs.NamedInv conf r' := by
  have naming : Regs.Naming conf (Regs.Fits conf) event :=
    ⟨fun _ valid => Regs.validUsername_length valid, fits⟩
  have moves : Regs.Moves conf (Regs.Fits conf) True r r' :=
    Regs.step_moves naming sound.access (Or.inl trivial) returned
  clear returned
  have both : Regs.Sound r' ∧ Regs.NamedInv conf r' := by
    induction moves with
    | refl => exact ⟨sound, named⟩
    | tail _ last ih =>
        exact ⟨ih.1.moves (.single last), last.namedInv ih.1.accounts ih.2⟩
  exact both.2

theorem namedInv_answered (inv : Inv conf nickConf s)
    (fits : ∀ name password plain,
      event.act = .account (.hookRegister name password) plain →
        name ≠ [] → password ≠ [] → Regs.Fits conf name)
    (named : Regs.NamedInv conf s.regs)
    (answered : Answered conf nickConf s event t lines) :
    Regs.NamedInv conf t.regs := by
  cases answered with
  | idle nicks access => exact named.same access.sameNames
  | accounts act plain regs asked returned =>
      refine namedInv_step ?_ inv.sound named returned
      rintro name password rfl
      exact fits name password plain asked
  | register regs access => exact named.same access.sameNames
  | drop regs access =>
      rw [freeNickReg_regs]
      exact named.same access.sameNames
  | nickdrop =>
      rw [freeNickReg_regs]
      exact named
  | setFlags regs access => exact named.same access.sameNames
  | kill nicks access => exact named.same access.sameNames

theorem registry_of_run {events : List NickEvent} (short : HooksFit conf events)
    (reached : run (step conf nickConf) start events = .ok s) :
    Inv conf nickConf s ∧ Ordered s ∧ Regs.NamedInv conf s.regs := by
  have meets : Meets (step conf nickConf) (fun _ event => ∀ name password plain,
      event.act = .account (.hookRegister name password) plain →
        name ≠ [] → password ≠ [] → Regs.Fits conf name) start events :=
    meets_of_mem (fun event listed _ => short event listed) _
  have named : Regs.NamedInv conf start.regs := by
    constructor
    · intro u reg found
      cases found
    · intro u v left right found
      cases found
  refine run_preserves_of_meets
    (fun s => Inv conf nickConf s ∧ Ordered s ∧ Regs.NamedInv conf s.regs)
    ?_ meets ⟨.start conf nickConf, fun u => rfl, named⟩ reached
  rintro before event after fits ⟨inv, ordered, named⟩ returned
  obtain ⟨lines, answered⟩ := step_answered inv returned
  exact ⟨inv.answered answered, ordered.answered inv answered,
    namedInv_answered inv fits named answered⟩

theorem registerNick_ne_die (inv : Inv conf nickConf s) (now : Int)
    (account : UserRegId) {nick : CString}
    (short : nick.length ≤ conf.nickLen) :
    ∃ t, registerNick conf nickConf now account nick s = .ok t := by
  unfold registerNick
  split
  · exact ⟨s, rfl⟩
  split
  · exact ⟨s, rfl⟩
  split
  · exact ⟨s, rfl⟩
  rename_i missing
  have whole : strlcpy (conf.nickLen + 1) nick = nick :=
    Regs.strlcpy_of_le short
  rw [whole, insertNick_ok inv (by simpa using missing)]
  exact ⟨_, rfl⟩

/-- In every run, each nick is registered once, to an account that is there,
which has it in its list and not more of them than are allowed; a new row never
fails; and what a restart reads from the table is what was registered. -/
theorem nicks_of_run {events : List NickEvent} (short : HooksFit conf events)
    (reached : run (step conf nickConf) start events = .ok s) :
    (∀ m n left right, s.nick.cell m = some left →
      s.nick.cell n = some right → irccmp left.name right.name = true →
        m = n) ∧
    (∀ n reg, s.nick.cell n = some reg →
      (∃ user, s.regs.user.cell reg.userReg = some user) ∧
        (s.nicksOf reg.userReg).count n = 1) ∧
    (∀ u, (s.nicksOf u).length ≤ nickConf.maxNicks) ∧
    (∀ now account, ∀ entry ∈ s.online,
      ∃ t, registerNick conf nickConf now account entry.2 s = .ok t) ∧
    (∀ name, (s.initNickserv conf).lookup name = s.lookup name) ∧
    ∀ u, ((s.initNickserv conf).nicksOf u).map
        (s.initNickserv conf).nick.cell = (s.nicksOf u).map s.nick.cell := by
  obtain ⟨inv, ordered, named⟩ := registry_of_run short reached
  have findable : ∀ u user, s.regs.user.cell u = some user →
      s.regs.findUserReg user.name = some u := by
    intro u user found
    rw [(named.fits u user found).1]
    exact named.found inv.sound.accounts found
  refine ⟨inv.unique, fun n reg cell => ?_, inv.limit,
    fun now account entry listed => ?_, initNickserv_eq findable inv ordered⟩
  · have owned := inv.owned reg.userReg
    exact ⟨inv.live n reg cell,
      List.count_eq_one_of_mem owned.nodup
        ((owned.mem_iff n).mpr ⟨reg, cell, rfl⟩)⟩
  · exact registerNick_ne_die inv now account (inv.online entry listed).2

theorem nicks_of_takenNick :
    ∃ s, run (step (setDefaultConf "services.".toList) .default) start
        takenNick = .ok s ∧
      (s.initNickserv (setDefaultConf "services.".toList)).lookup
        "ALLY".toList = s.lookup "ALLY".toList := by
  have observed : (run (step (setDefaultConf "services.".toList) .default)
      start takenNick).toOption.map (fun s => s.nickTable) = some [0] := by
    decide +kernel
  obtain ⟨s, reached, -⟩ := Except.exists_of_observed observed
  have short : HooksFit (setDefaultConf "services.".toList) takenNick := by
    intro event listed name password plain hook
    simp only [takenNick, List.mem_cons, List.not_mem_nil, or_false] at listed
    obtain rfl | rfl | rfl | rfl | rfl | rfl := listed <;> cases hook
  obtain ⟨-, -, -, -, reload, -⟩ := nicks_of_run short reached
  exact ⟨s, reached, reload _⟩

end NickState

end RatboxServices
