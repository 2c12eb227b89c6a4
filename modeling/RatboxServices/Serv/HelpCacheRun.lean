import RatboxServices.Lib.Firsts
import RatboxServices.Serv.HelpPart

namespace RatboxServices

open CString

/-! Runs of the services: no cached help file is freed while it can still be
reached, where a service has the index files that are merged into it. -/

namespace HelpCache

def Service.cover (s : Service) : List Nat :=
  s.handler :: s.mergedHandlerList

/-- Who holds what: the services in the list the files of their handlers, and
nobody the files aside, which are those of the other handlers. -/
structure Owned (services : List Service) (loose aside : List Nat)
    (w : HelpState) : Prop where
  fine : ∀ s ∈ services, Fine s.mergedHandlerList ⟨s, w.cache⟩
  apart : (services.flatMap Service.cover ++ loose).Perm (List.range w.added)
  loose : (loose.flatMap fun h => (w.cache.handlers h).files).Subperm aside
  main : w.ucommands.all HelpCommand.loaded = true
  holds : Ledger.Holds ((services.flatMap fun s => Part.files ⟨s, w.cache⟩) ++
    (tableFiles w.ucommands ++ aside)) w.cache.store

namespace Owned

variable {services rest : List Service} {loose aside : List Nat}
  {w : HelpState} {s t : Service} {h : Nat} {part : Part}
  {setup : HelpSetup} {files : Files}

theorem perm {other : List Service} (owned : Owned services loose aside w)
    (same : services.Perm other) : Owned other loose aside w where
  fine := fun s listed => owned.fine s (same.mem_iff.mpr listed)
  apart := ((same.flatMap_right _).append_right _).symm.trans owned.apart
  loose := owned.loose
  main := owned.main
  holds := owned.holds.perm ((same.flatMap_right _).append_right _)

theorem nodup (owned : Owned services loose aside w) :
    (services.flatMap Service.cover ++ loose).Nodup :=
  owned.apart.nodup_iff.mpr List.nodup_range

theorem far (owned : Owned (s :: rest) loose aside w) :
    (∀ r ∈ rest, ∀ h ∈ r.cover, h ∉ s.cover) ∧ ∀ h ∈ loose, h ∉ s.cover := by
  have nodup := owned.nodup
  rw [List.flatMap_cons, List.append_assoc] at nodup
  have apart := List.disjoint_of_nodup_append nodup
  constructor
  · intro r listed h inside mine
    exact apart mine
      (List.mem_append_left _ (List.mem_flatMap.mpr ⟨r, listed, inside⟩))
  · intro h inside mine
    exact apart mine (List.mem_append_right _ inside)

theorem change (owned : Owned (s :: rest) loose aside w)
    (fine : Fine part.service.mergedHandlerList part)
    (keeps : Keeps s.cover ⟨s, w.cache⟩ part)
    (trades : Ledger.Trades (Part.files ⟨s, w.cache⟩) part.files w.cache.store
      part.cache.store) (all : List Service) :
    Owned (part.service :: rest) loose aside
      { w with services := all, cache := part.cache } := by
  obtain ⟨others, beyond⟩ := owned.far
  have same : ∀ r ∈ rest, ∀ h ∈ r.cover,
      part.cache.handlers h = w.cache.handlers h :=
    fun r listed h inside => keeps.other h (others r listed h inside)
  have kept : (rest.flatMap fun r => Part.files ⟨r, part.cache⟩) =
      rest.flatMap fun r => Part.files ⟨r, w.cache⟩ :=
    List.flatMap_congr fun r listed =>
      Part.files_congr (same r listed _ List.mem_cons_self)
  have cover : part.service.cover = s.cover := by
    unfold Service.cover
    rw [keeps.handler, keeps.list]
  exact
    { fine := by
        refine List.forall_mem_cons.mpr ⟨fine, fun r listed => ?_⟩
        exact (owned.fine r (List.mem_cons_of_mem _ listed)).congr
          (same r listed)
      apart := by
        rw [List.flatMap_cons, cover]
        exact owned.apart
      loose := by
        dsimp only
        rw [List.flatMap_congr fun h inside =>
          congrArg HelpHandler.files (keeps.other h (beyond h inside))]
        exact owned.loose
      main := owned.main
      holds := by
        have before := owned.holds
        rw [List.flatMap_cons, List.append_assoc] at before
        dsimp only
        rw [List.flatMap_cons, List.append_assoc, kept]
        exact trades _ before }

theorem unlink (owned : Owned (s :: rest) loose aside w) :
    Owned rest (s.cover ++ loose) (Part.files ⟨s, w.cache⟩ ++ aside) w where
  fine := fun r listed => owned.fine r (List.mem_cons_of_mem _ listed)
  apart := by
    have apart := owned.apart
    rw [List.flatMap_cons, List.append_assoc] at apart
    refine List.Perm.trans ?_ apart
    rw [← List.append_assoc, ← List.append_assoc]
    exact List.perm_append_comm.append_right loose
  loose := by
    rw [List.flatMap_append]
    exact (owned.fine s List.mem_cons_self).holds.append owned.loose
  main := owned.main
  holds := by
    refine owned.holds.perm (List.perm_iff_count.mpr fun file => ?_)
    simp only [List.flatMap_cons, List.count_append]
    omega

theorem quiet (owned : Owned services loose aside w) {store : Store}
    (trades : Ledger.Trades [] [] w.cache.store store) (all : List Service) :
    Owned services loose aside
      { w with services := all, cache := { w.cache with store := store } } where
  fine := fun s listed => (owned.fine s listed).congr fun _ _ => rfl
  apart := owned.apart
  loose := owned.loose
  main := owned.main
  holds := trades _ owned.holds

theorem add (owned : Owned services loose aside w)
    (fine : Fine part.service.mergedHandlerList part)
    (cover : part.service.cover = [w.added])
    (same : ∀ h < w.added, part.cache.handlers h = w.cache.handlers h)
    (trades : Ledger.Trades [] part.files w.cache.store part.cache.store)
    (all : List Service) :
    Owned (services ++ [part.service]) loose aside
      { w with
        services := all
        cache := part.cache
        added := w.added + 1 } := by
  have known : ∀ h ∈ services.flatMap Service.cover ++ loose, h < w.added :=
    fun h listed => List.mem_range.mp (owned.apart.mem_iff.mp listed)
  have inside : ∀ s ∈ services, ∀ h ∈ s.cover,
      part.cache.handlers h = w.cache.handlers h :=
    fun s listed h mine => same h (known h (List.mem_append_left _
      (List.mem_flatMap.mpr ⟨s, listed, mine⟩)))
  have kept : (services.flatMap fun s => Part.files ⟨s, part.cache⟩) =
      services.flatMap fun s => Part.files ⟨s, w.cache⟩ :=
    List.flatMap_congr fun s listed =>
      Part.files_congr (inside s listed _ List.mem_cons_self)
  exact
    { fine := by
        intro s listed
        rcases List.mem_append.mp listed with old | new
        · exact (owned.fine s old).congr (inside s old)
        · rw [List.mem_singleton.mp new]
          exact fine
      apart := by
        dsimp only
        rw [List.range_succ, List.flatMap_append, List.flatMap_singleton,
          cover, List.append_assoc]
        refine (List.perm_append_comm.append_left _).trans ?_
        rw [← List.append_assoc]
        exact owned.apart.append_right _
      loose := by
        dsimp only
        rw [List.flatMap_congr fun h listed => congrArg HelpHandler.files
          (same h (known h (List.mem_append_right _ listed)))]
        exact owned.loose
      main := owned.main
      holds := by
        dsimp only
        have own : Part.files ⟨part.service, part.cache⟩ = part.files := rfl
        rw [List.flatMap_append, List.flatMap_singleton, kept, own]
        refine (trades.gain owned.holds).perm
          (List.perm_iff_count.mpr fun file => ?_)
        simp only [List.count_append]
        omega }

theorem merge (owned : Owned (s :: rest) (h :: loose) aside w)
    (fine : Fine part.service.mergedHandlerList part)
    (merged : Merged setup ⟨s, w.cache⟩ part)
    (list : part.service.mergedHandlerList = s.mergedHandlerList ++ [h])
    (trades : Ledger.Trades
      (Part.files ⟨s, w.cache⟩ ++ (w.cache.handlers h).files) part.files
      w.cache.store part.cache.store) (all : List Service) : ∃ left,
    Owned (part.service :: rest) loose left
      { w with services := all, cache := part.cache } := by
  have handlers : part.cache.handlers = w.cache.handlers := merged.handlers
  obtain ⟨inside, same, sub⟩ := owned.loose
  obtain ⟨extra, split⟩ := sub.exists_perm_append
  rw [List.flatMap_cons] at same
  have parts : aside.Perm ((w.cache.handlers h).files ++
      ((loose.flatMap fun h => (w.cache.handlers h).files) ++ extra)) := by
    rw [← List.append_assoc]
    exact split.trans (same.append_right extra)
  refine ⟨(loose.flatMap fun h => (w.cache.handlers h).files) ++ extra, ?_⟩
  have kept : (rest.flatMap fun r => Part.files ⟨r, part.cache⟩) =
      rest.flatMap fun r => Part.files ⟨r, w.cache⟩ :=
    List.flatMap_congr fun r _ => Part.files_congr (by rw [handlers])
  have cover : part.service.cover = s.cover ++ [h] := by
    unfold Service.cover
    rw [merged.handler, list]
    rfl
  exact
    { fine := by
        refine List.forall_mem_cons.mpr ⟨fine, fun r listed => ?_⟩
        refine (owned.fine r (List.mem_cons_of_mem _ listed)).congr ?_
        exact fun h _ => congrFun handlers h
      apart := by
        refine List.Perm.trans (List.perm_iff_count.mpr fun other => ?_)
          owned.apart
        rw [List.flatMap_cons, List.flatMap_cons, cover]
        simp only [List.count_append, List.count_cons, List.count_nil]
        omega
      loose := by
        dsimp only
        rw [handlers]
        exact (List.sublist_append_left _ extra).subperm
      main := owned.main
      holds := by
        dsimp only
        rw [List.flatMap_cons, List.append_assoc, kept]
        refine trades _ (owned.holds.perm
          (List.perm_iff_count.mpr fun file => ?_))
        have count := parts.count_eq file
        simp only [List.flatMap_cons, List.count_append] at count ⊢
        omega }

end Owned

theorem cons_eraseIdx_perm {services : List Service} {i : Nat} {s : Service}
    (here : services[i]? = some s) :
    (s :: services.eraseIdx i).Perm services := by
  obtain ⟨below, rfl⟩ := List.getElem?_eq_some_iff.mp here
  exact List.getElem_cons_eraseIdx_perm below

theorem getElem?_set_self {services : List Service} {i : Nat} {s : Service}
    (here : services[i]? = some s) (new : Service) :
    (services.set i new)[i]? = some new := by
  obtain ⟨below, _⟩ := List.getElem?_eq_some_iff.mp here
  exact List.getElem?_set_self below

theorem cons_eraseIdx_set {services : List Service} {i : Nat} {s : Service}
    (here : services[i]? = some s) (new : Service) :
    (new :: services.eraseIdx i).Perm (services.set i new) := by
  have perm := cons_eraseIdx_perm (getElem?_set_self here new)
  rw [List.eraseIdx_set_eq] at perm
  exact perm

theorem eraseIdx_set_perm {services rest : List Service} {i k : Nat}
    {s t : Service} (here : services[i]? = some s)
    (there : services[k]? = some t) (apart : k ≠ i)
    (others : (services.eraseIdx i).Perm (t :: rest)) (new : Service) :
    ((services.set k new).eraseIdx i).Perm (new :: rest) := by
  have still : (services.set k new)[i]? = some s := by
    rw [List.getElem?_set_ne apart]
    exact here
  have without : (services.eraseIdx k).Perm (s :: rest) := by
    have first := (cons_eraseIdx_perm there).trans
      (cons_eraseIdx_perm here).symm
    exact (first.trans ((others.cons s).trans (.swap t s rest))).cons_inv
  have last := (cons_eraseIdx_perm still).trans
    (cons_eraseIdx_set there new).symm
  exact (last.trans ((without.cons new).trans (.swap s new rest))).cons_inv

def Service.key (s : Service) : List Char :=
  s.id.map asciiLower

/-- Every file is held once or set aside, and a service with handlers that are
merged into it is the first one with its name. -/
structure Inv (w : HelpState) : Prop where
  owned : ∃ loose aside, Owned w.services loose aside w
  firsts : Firsts Service.key (fun s => s.mergedHandlerList ≠ []) w.services

namespace HelpState

variable {w : HelpState} {setup : HelpSetup} {files : Files} {i h : Nat}
  {s : Service} {part : Part}

theorem findServiceId_put (here : w.services[i]? = some s)
    (same : part.service.id = s.id) (name : CString) :
    (w.put i part).findServiceId name = w.findServiceId name := by
  have names : (w.services.set i part.service).map Service.id =
      w.services.map Service.id := by
    obtain ⟨below, _⟩ := List.getElem?_eq_some_iff.mp here
    rw [List.map_set, same]
    refine List.ext_getElem? fun j => ?_
    rw [List.getElem?_set]
    split
    · rename_i equal
      rw [← equal, List.getElem?_map, here, List.length_map, if_pos below]
      rfl
    · rfl
  have find : ∀ services : List Service,
      (services.findIdx? fun s => strcasecmp s.id name) =
        (services.map Service.id).findIdx? fun id => strcasecmp id name := by
    intro services
    rw [List.findIdx?_map]
    rfl
  unfold findServiceId put
  rw [find, find, names]

theorem put_put (part other : Part) (cache : Cache) :
    { w.put i part with cache := cache }.put i other = w.put i other := by
  unfold put
  rw [List.set_set]

theorem mergeService_eq {name : CString} {startup : Bool}
    (found : w.findServiceId name = some i)
    (here : w.services[i]? = some s) :
    w.mergeService setup files h name startup =
      w.put i (mergeHandler setup files h startup ⟨s, w.cache⟩) := by
  unfold mergeService
  rw [found]
  dsimp only
  rw [here]

theorem remerge_put (here : w.services[i]? = some s)
    (same : part.service.id = s.id) (found : w.findServiceId s.id = some i)
    (h : Nat) : remerge setup files s.id (w.put i part) h =
      w.put i (remergePart setup files part h) := by
  have find := (findServiceId_put here same s.id).trans found
  have there : (w.put i part).services[i]? = some part.service :=
    getElem?_set_self here part.service
  have merged : { w.put i part with
      cache := loadHandler setup files h part.cache }.mergeService setup files
        h s.id false = _ := mergeService_eq find there
  exact merged.trans (put_put part _ _)

theorem foldl_remerge_put (here : w.services[i]? = some s)
    (same : part.service.id = s.id) (found : w.findServiceId s.id = some i)
    (todo : List Nat) :
    todo.foldl (remerge setup files s.id) (w.put i part) =
      w.put i (todo.foldl (remergePart setup files) part) := by
  induction todo generalizing part with
  | nil => rfl
  | cons h rest ih =>
      rw [List.foldl_cons, List.foldl_cons, remerge_put here same found]
      exact ih same

theorem rehashService_eq (here : w.services[i]? = some s) {loaded : Part}
    (reloads : reloadPart setup files ⟨s, w.cache⟩ = .ok loaded)
    (same : loaded.service.id = s.id)
    (list : loaded.service.mergedHandlerList = s.mergedHandlerList)
    (found : s.mergedHandlerList ≠ [] → w.findServiceId s.id = some i) :
    w.rehashService setup files i =
      .ok (w.put i (s.mergedHandlerList.foldl (remergePart setup files)
        loaded)) := by
  obtain ⟨cleared, clears, loads⟩ := Except.bind_eq_ok.mp reloads
  cases loads
  unfold rehashService
  rw [here]
  dsimp only
  rw [clears, Except.ok_bind, list, same]
  refine congrArg Except.ok ?_
  cases merged : s.mergedHandlerList with
  | nil => rfl
  | cons h rest =>
      exact foldl_remerge_put here same
        (found (by rw [merged]; exact List.cons_ne_nil h rest)) _

end HelpState

namespace Inv

open HelpState

variable {w : HelpState} {setup : HelpSetup} {files : Files} {i : Nat}
  {s : Service} {part : Part}

theorem found (inv : Inv w) (here : w.services[i]? = some s)
    (marked : s.mergedHandlerList ≠ []) :
    w.findServiceId s.id = some i := by
  have keys : (fun other : Service => strcasecmp other.id s.id) =
      fun other => decide (other.key = s.key) := by
    funext other
    exact beq_eq_decide ..
  unfold findServiceId
  rw [keys]
  exact inv.firsts.findIdx here marked

theorem put (inv : Inv w) (here : w.services[i]? = some s)
    (fine : Fine part.service.mergedHandlerList part)
    (keeps : Keeps s.cover ⟨s, w.cache⟩ part)
    (trades : Ledger.Trades (Part.files ⟨s, w.cache⟩) part.files w.cache.store
      part.cache.store) : Inv (w.put i part) where
  owned := by
    obtain ⟨loose, aside, owned⟩ := inv.owned
    have first := owned.perm (cons_eraseIdx_perm here).symm
    exact ⟨loose, aside, (first.change fine keeps trades _).perm
      (cons_eraseIdx_set here part.service)⟩
  firsts := by
    have list : part.service.mergedHandlerList = s.mergedHandlerList :=
      keeps.list
    have key : part.service.key = s.key :=
      congrArg (List.map asciiLower) keeps.id
    refine inv.firsts.set here key fun marked => .inl ?_
    rw [← list]
    exact marked

theorem rehashService (inv : Inv w) (here : w.services[i]? = some s)
    (ready : Reloadable setup files ⟨s, w.cache⟩) : ∃ part,
    w.rehashService setup files i = .ok (w.put i part) ∧
      Keeps s.cover ⟨s, w.cache⟩ part ∧ Inv (w.put i part) := by
  obtain ⟨loose, aside, owned⟩ := inv.owned
  have listed := List.mem_of_getElem? here
  have fine := owned.fine s listed
  have apart : (s.handler :: s.mergedHandlerList).Nodup :=
    (List.nodup_flatMap.mp owned.nodup.of_append_left).1 s listed
  obtain ⟨loaded, after, reloads, id, list, remerges, isFine, keeps, trades⟩ :=
    fine.reload ready apart
  have kept : after.service.mergedHandlerList = s.mergedHandlerList :=
    keeps.list
  refine ⟨after, ?_, keeps, inv.put here (kept ▸ isFine) keeps trades⟩
  rw [rehashService_eq here reloads id list (inv.found here)]
  exact congrArg (fun part => Except.ok (w.put i part)) remerges

theorem rehashServices {indices : List Nat} (inv : Inv w)
    (once : indices.Nodup)
    (ready : ∀ i ∈ indices, ∀ s, w.services[i]? = some s →
      Reloadable setup files ⟨s, w.cache⟩) : ∃ after,
    indices.foldlM (HelpState.rehashService setup files) w = .ok after ∧
      Inv after := by
  induction indices generalizing w with
  | nil => exact ⟨w, rfl, inv⟩
  | cons i rest ih =>
      obtain ⟨here, later⟩ := List.forall_mem_cons.mp ready
      obtain ⟨new, once⟩ := List.nodup_cons.mp once
      rw [List.foldlM_cons]
      cases at_ : w.services[i]? with
      | none =>
          have stays : w.rehashService setup files i = .ok w := by
            unfold HelpState.rehashService
            rw [at_]
          rw [stays]
          exact ih inv once later
      | some s =>
          obtain ⟨part, stepped, keeps, next⟩ :=
            inv.rehashService at_ (here s at_)
          rw [stepped]
          refine ih next once fun j listed other there => ?_
          have apart : i ≠ j := by
            rintro rfl
            exact new listed
          have before : w.services[j]? = some other := by
            rw [← there]
            exact (List.getElem?_set_ne apart).symm
          exact (later j listed other before).congr keeps.ids

end Inv

theorem loadMain_trades (setup : HelpSetup) (files : Files) (w : HelpState) :
    Ledger.Trades []
      (tableFiles (w.loadUcommandHelp setup files).ucommands)
      w.cache.store (w.loadUcommandHelp setup files).cache.store :=
  .each_new (fun command _ store => helpfile_trades setup files
    (setup.mainFile command.cmd) command.cmd store) _

theorem loadMain_loaded (setup : HelpSetup) (files : Files) (w : HelpState) :
    (w.loadUcommandHelp setup files).ucommands.all HelpCommand.loaded =
      true :=
  (Loaded.of_each (fun _ _ => rfl) w.ucommands w.cache.store).all

theorem Owned.loadMain {services : List Service} {loose aside : List Nat}
    {w : HelpState} (setup : HelpSetup) (files : Files)
    (fine : ∀ s ∈ services, Fine s.mergedHandlerList ⟨s, w.cache⟩)
    (apart : (services.flatMap Service.cover ++ loose).Perm
      (List.range w.added))
    (less : (loose.flatMap fun h => (w.cache.handlers h).files).Subperm aside)
    (holds : Ledger.Holds ((services.flatMap fun s =>
      Part.files ⟨s, w.cache⟩) ++ aside) w.cache.store) :
    Owned services loose aside (w.loadUcommandHelp setup files) where
  fine := fun s listed => (fine s listed).congr fun _ _ => rfl
  apart := apart
  loose := less
  main := loadMain_loaded setup files w
  holds := by
    refine ((loadMain_trades setup files w).gain holds).perm
      (List.perm_iff_count.mpr fun file => ?_)
    have kept : ((services.flatMap fun s => Part.files
        ⟨s, (w.loadUcommandHelp setup files).cache⟩)) =
          services.flatMap fun s => Part.files ⟨s, w.cache⟩ :=
      List.flatMap_congr fun s _ => Part.files_congr rfl
    rw [kept]
    simp only [List.count_append]
    omega

theorem Owned.reloadMain {services : List Service} {loose aside : List Nat}
    {w : HelpState} (owned : Owned services loose aside w)
    (setup : HelpSetup) (files : Files) : ∃ cleared,
    w.clearUcommandHelp = .ok cleared ∧
      (cleared.loadUcommandHelp setup files).services = w.services ∧
      Owned services loose aside (cleared.loadUcommandHelp setup files) := by
  unfold HelpState.clearUcommandHelp
  rw [owned.main]
  refine ⟨_, rfl, rfl, .loadMain setup files
    (fun s listed => (owned.fine s listed).congr fun _ _ => rfl)
    owned.apart owned.loose ?_⟩
  have before := owned.holds.perm (List.perm_append_comm_assoc ..)
  exact before.free

theorem Inv.start (setup : HelpSetup) (files : Files)
    (ucommands : List CString) :
    Inv (HelpState.start setup files ucommands) where
  owned := ⟨[], [], .loadMain setup files (fun _ impossible => by
    cases impossible) (List.Perm.refl _) List.nil_subperm Ledger.Holds.empty⟩
  firsts := List.Pairwise.nil

namespace Inv

open HelpState

variable {w : HelpState} {setup : HelpSetup} {files : Files} {i : Nat}

theorem rehashHelp (inv : Inv w)
    (ready : ∀ s ∈ w.services, Reloadable setup files ⟨s, w.cache⟩) :
    ∃ after, w.rehashHelp setup files = .ok after ∧ Inv after := by
  obtain ⟨middle, services, kept⟩ := inv.rehashServices List.nodup_range
    fun i _ s here => ready s (List.mem_of_getElem? here)
  obtain ⟨loose, aside, owned⟩ := kept.owned
  obtain ⟨cleared, clears, same, reloaded⟩ := owned.reloadMain setup files
  refine ⟨_, Except.bind_eq_ok.mpr ⟨middle, services,
    Except.bind_eq_ok.mpr ⟨cleared, clears, rfl⟩⟩, ?_, ?_⟩
  · rw [same]
    exact ⟨loose, aside, reloaded⟩
  · rw [same]
    exact kept.firsts

theorem addService (inv : Inv w) (handler : HelpHandler) :
    Inv (w.addService setup files handler) := by
  let start : Part :=
    { service :=
        { handler := w.added
          id := strlcpy (setup.nickLen + 1) handler.id
          command := handler.command.map fun _ => .handler
          ucommand := handler.ucommand.map fun _ => .handler }
      cache :=
        { w.cache with
          handlers := Function.update w.cache.handlers w.added
            { handler with command := handler.command.map scmdSort } } }
  have own : start.own =
      { handler with command := handler.command.map scmdSort } :=
    Function.update_self ..
  have plain : Plain start := by
    refine ⟨⟨?_, ?_⟩, rfl, rfl⟩
    · rw [own]
      intro there
      cases table : handler.command with
      | none =>
          rw [table] at there
          exact absurd rfl there
      | some commands =>
          dsimp only [start]
          rw [table]
          rfl
    · rw [own]
      intro there
      cases table : handler.ucommand with
      | none => exact absurd table there
      | some commands =>
          dsimp only [start]
          rw [table]
          rfl
  obtain ⟨part, loads, fine, keeps, gains, _, _⟩ :=
    plain.load setup files rfl handler.id
  have result : w.addService setup files handler =
      { w with
        services := w.services ++ [part.service]
        cache := part.cache
        added := w.added + 1 } := by
    rw [← loads]
    rfl
  have list : part.service.mergedHandlerList = [] := keeps.list
  have cover : part.service.cover = [w.added] := by
    unfold Service.cover
    rw [keeps.handler, list]
  have same : ∀ h < w.added, part.cache.handlers h = w.cache.handlers h := by
    intro h below
    have other : h ≠ w.added := Nat.ne_of_lt below
    rw [keeps.other h fun mine => other (List.mem_singleton.mp mine)]
    exact Function.update_of_ne other ..
  rw [result]
  obtain ⟨loose, aside, owned⟩ := inv.owned
  exact ⟨⟨loose, aside, owned.add (list ▸ fine) cover same gains _⟩,
    inv.firsts.append fun marked => marked list⟩

theorem initService (inv : Inv w) (serviceId : CString)
    (covers : ∀ s k t, w.services[i]? = some s →
      w.findServiceId serviceId = some k → w.services[k]? = some t → k ≠ i →
      Covers setup files (w.cache.handlers s.handler).id (t.index setup)) :
    Inv (w.initService setup files i serviceId) := by
  unfold HelpState.initService
  split
  · exact inv
  · rename_i s here
    split
    · exact inv
    · rename_i k found
      obtain ⟨below, named, others⟩ :=
        List.findIdx?_eq_some_iff_getElem.mp found
      have there : w.services[k]? = some w.services[k] :=
        List.getElem?_eq_getElem below
      generalize w.services[k] = t at named there
      rw [mergeService_eq found there]
      obtain ⟨loose, aside, owned⟩ := inv.owned
      have linked := owned.perm (cons_eraseIdx_perm here).symm
      constructor
      · by_cases same : k = i
        · -- what is copied is not in the list any more
          subst same
          obtain ⟨index, store, appended, work, _⟩ := appendServiceHelp_eq
            setup files (w.cache.handlers s.handler).id ⟨t, w.cache⟩
          have cache : (mergeHandler setup files s.handler true
              ⟨t, w.cache⟩).cache = { w.cache with store := store } := by
            unfold mergeHandler
            rw [appended]
          unfold HelpState.put
          dsimp only
          rw [List.eraseIdx_set_eq, cache]
          exact ⟨_, _, linked.unlink.quiet work _⟩
        · have inside : t ∈ w.services.eraseIdx i :=
            List.mem_eraseIdx_iff_getElem?.mpr ⟨k, same, there⟩
          have split := List.perm_cons_erase inside
          have fine := owned.fine t (List.mem_of_getElem? there)
          have loaded := (owned.fine s (List.mem_of_getElem? here)).handlers
            s.handler List.mem_cons_self
          obtain ⟨after, merging, isFine, merged, list, trades⟩ :=
            fine.mergeHandler loaded (covers s k t here found there same) true
          have listed : after.service.mergedHandlerList =
              t.mergedHandlerList ++ [s.handler] := list
          rw [merging]
          obtain ⟨left, result⟩ := (linked.unlink.perm split).merge
            (listed ▸ isFine) merged listed trades
            ((w.services.set k after.service).eraseIdx i)
          exact ⟨_, left, result.perm
            (eraseIdx_set_perm here there same split after.service).symm⟩
      · have key : (mergeHandler setup files s.handler true
            ⟨t, w.cache⟩).service.key = t.key := rfl
        refine (inv.firsts.set there key fun _ => .inr ?_).sublist
          (List.eraseIdx_sublist _ i)
        intro j before short equal
        have mine : t.key = serviceId.map asciiLower := beq_iff_eq.mp named
        exact others j before (beq_iff_eq.mpr (equal.trans mine))

end Inv

theorem Inv.safe {w : HelpState} (inv : Inv w) : w.Safe := by
  obtain ⟨loose, aside, owned⟩ := inv.owned
  refine ⟨fun file listed => owned.holds.live ?_, owned.holds.once⟩
  rcases List.mem_append.mp listed with others | main
  · rcases List.mem_append.mp others with service | handler
    · exact List.mem_append_left _ service
    · obtain ⟨h, known, mine⟩ := List.mem_flatMap.mp handler
      have placed := owned.apart.mem_iff.mpr known
      rcases List.mem_append.mp placed with covered | free
      · obtain ⟨s, inList, inCover⟩ := List.mem_flatMap.mp covered
        refine List.mem_append_left _
          (List.mem_flatMap.mpr ⟨s, inList, ?_⟩)
        exact (owned.fine s inList).holds.subset
          (List.mem_flatMap.mpr ⟨h, inCover, mine⟩)
      · refine List.mem_append_right _ (List.mem_append_right _ ?_)
        exact owned.loose.subset (List.mem_flatMap.mpr ⟨h, free, mine⟩)
  · exact List.mem_append_right _ (List.mem_append_left _ main)

/-- The index files a step needs: where a handler that is merged has one, the
service that it is merged into has its own. Before the help is loaded again no
service has lost the mark that handlers are merged into it. -/
def Ready (setup : HelpSetup) (w : HelpState) : HelpOp → Prop
  | .addService _ _ => True
  | .initService files i serviceId => ∀ s k t, w.services[i]? = some s →
      w.findServiceId serviceId = some k → w.services[k]? = some t → k ≠ i →
      Covers setup files (w.cache.handlers s.handler).id (t.index setup)
  | .rehashHelp files =>
      ∀ s ∈ w.services, Reloadable setup files ⟨s, w.cache⟩

theorem Inv.step {setup : HelpSetup} {w : HelpState} {op : HelpOp}
    (inv : Inv w) (ready : Ready setup w op) :
    ∃ after, op.step setup w = .ok after ∧ Inv after := by
  cases op with
  | addService files handler => exact ⟨_, rfl, inv.addService handler⟩
  | initService files i serviceId =>
      exact ⟨_, rfl, inv.initService serviceId ready⟩
  | rehashHelp files => exact inv.rehashHelp ready

/-- Such a run follows no null pointer, and in the state it ends in no file
that can be reached is freed and none was freed twice. -/
theorem run_safe (setup : HelpSetup) (files : Files)
    (ucommands : List CString) {ops : List HelpOp}
    (ready : Meets (HelpOp.step setup) (Ready setup)
      (HelpState.start setup files ucommands) ops) :
    ∃ w, run (HelpOp.step setup) (HelpState.start setup files ucommands) ops =
        .ok w ∧ w.Safe := by
  obtain ⟨w, ran, inv⟩ := run_of_meets Inv
    (fun _ _ ready inv => inv.step ready) ready
    (Inv.start setup files ucommands)
  exact ⟨w, ran, inv.safe⟩

def oneLanguage : HelpSetup where
  helpPath := "help".toList
  langs := [⟨"english".toList, some "English".toList⟩]
  userserv := true
  nickLen := 9

def operHandler : HelpHandler where
  id := "OPERSERV".toList
  command := some [{ cmd := "DIE".toList }]
  ucommand := some [{ cmd := "osdie".toList }]

def jupeHandler : HelpHandler where
  id := "JUPESERV".toList
  command := some [{ cmd := "JUPE".toList }]
  ucommand := some [{ cmd := "jupe".toList }]

def allFiles : Files := fun _ => some []

def jupeIndex : Files := fun filename =>
  if filename = "help/english/jupeserv/index".toList then some [] else none

def mergeOps (files : Files) : List HelpOp :=
  [ .addService files operHandler, .addService files jupeHandler,
    .initService files 1 "OPERSERV".toList, .rehashHelp files ]

theorem run_safe_merged : ∃ w, run (HelpOp.step oneLanguage)
    (HelpState.start oneLanguage allFiles ["help".toList])
    (mergeOps allFiles) = .ok w ∧ w.Safe := by
  refine run_safe oneLanguage allFiles ["help".toList] ?_
  refine ⟨trivial, fun one first => ⟨trivial, fun two second => ⟨?_,
    fun three third => ⟨?_, fun _ _ => trivial⟩⟩⟩⟩
  · cases first
    cases second
    intro s k t here found there _
    cases here
    cases found
    cases there
    unfold Covers
    decide
  · cases first
    cases second
    cases third
    intro s listed
    refine ⟨?_, fun _ _ _ _ => ⟨fun _ => rfl, fun _ => rfl⟩⟩
    rw [List.mem_singleton.mp listed]
    decide

/-- The index that is taken over is freed, and reached. -/
theorem not_safe_adopted : ¬ ∀ ops w, run (HelpOp.step oneLanguage)
    (HelpState.start oneLanguage jupeIndex []) ops = .ok w → w.Safe := by
  intro all
  have safe := all ((mergeOps jupeIndex).take 3) _ rfl
  refine safe.live 1 ?_ ?_
  · decide +kernel
  · decide +kernel

end HelpCache

end RatboxServices
