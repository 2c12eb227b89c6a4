import RatboxServices.Serv.HelpCache

namespace RatboxServices

open CString

/-! The help of one service: which files it holds once it is loaded, and what
it gives up and gains when it is loaded again. -/

namespace HelpCache

variable (setup : HelpSetup) (files : Files)

theorem cacheFile_trades (filename shortname : CString) (addBlank : Bool)
    (store : Store) :
    Ledger.Trades []
      (cacheFile files filename shortname addBlank store).1.toList store
      (cacheFile files filename shortname addBlank store).2 := by
  unfold cacheFile
  split
  · exact .refl [] store
  · exact .make _ store

theorem cacheFile_isSome (filename shortname : CString) (addBlank : Bool)
    (store : Store) :
    (cacheFile files filename shortname addBlank store).1.isSome =
      (files filename).isSome := by
  unfold cacheFile
  split
  · rename_i missing
    rw [missing]
    rfl
  · rename_i lines there
    rw [there]
    rfl

theorem loadIndex_trades (id : CString) (lang : Lang) (store : Store) :
    Ledger.Trades [] (loadIndex setup files id lang store).1.files store
      (loadIndex setup files id lang store).2 :=
  (cacheFile_trades files (setup.indexFile id lang) _ true store).andThen
    (cacheFile_trades files (setup.adminFile id lang) _ true _)

theorem helpfile_trades (filename : Lang → CString) (shortname : CString)
    (store : Store) :
    Ledger.Trades []
      ((Ledger.each (fun lang => cacheFile files (filename lang) shortname
        false) setup.langs store).1.flatMap Option.toList) store
      (Ledger.each (fun lang => cacheFile files (filename lang) shortname
        false) setup.langs store).2 :=
  .each_new (fun lang _ store =>
    cacheFile_trades files (filename lang) shortname false store) store

theorem addLanguages_trades (helpfile : List (Option Nat)) (store : Store) :
    Ledger.Trades [] [] store (addLanguages setup helpfile store) := by
  unfold addLanguages
  induction helpfile.flatMap Option.toList generalizing store with
  | nil => exact .refl [] store
  | cons file rest ih => exact (Ledger.Trades.modify _ _ store).trans (ih _)

theorem loadCommand_trades (id : CString) (command : HelpCommand)
    (store : Store) :
    Ledger.Trades [] (loadCommand setup files id command store).1.files store
      (loadCommand setup files id command store).2 := by
  have loaded := helpfile_trades setup files
    (setup.commandFile id command.cmd) command.cmd store
  unfold loadCommand
  dsimp only
  split
  · exact loaded.trans ((addLanguages_trades setup _ _).quiet _)
  · exact loaded

theorem loadUcommand_trades (id first : CString) (command : HelpCommand)
    (store : Store) :
    Ledger.Trades [] (loadUcommand setup files id first command store).1.files
      store (loadUcommand setup files id first command store).2 :=
  helpfile_trades setup files (setup.ucommandFile id first) first store

theorem loadTables_trades (id : CString)
    (commands ucommands : List HelpCommand) (store : Store) :
    Ledger.Trades []
      (tableFiles (loadTables setup files id commands ucommands store).1.1 ++
        tableFiles (loadTables setup files id commands ucommands store).1.2)
      store (loadTables setup files id commands ucommands store).2 :=
  (Ledger.Trades.each_new
    (fun command _ => loadCommand_trades setup files id command) store).andThen
    (Ledger.Trades.each_new
      (fun command _ => loadUcommand_trades setup files id _ command) _)

structure Loaded (before after : List HelpCommand) : Prop where
  all : after.all HelpCommand.loaded = true
  length : after.length = before.length

theorem Loaded.of_each {work : HelpCommand → Store → HelpCommand × Store}
    (loads : ∀ command store, (work command store).1.loaded = true)
    (table : List HelpCommand) (store : Store) :
    Loaded table (Ledger.each work table store).1 :=
  ⟨List.all_eq_true.mpr (Ledger.forall_each (fun command _ => loads command)
      store), Ledger.length_each table store⟩

theorem Loaded.nil {before after : List HelpCommand}
    (loaded : Loaded before after) (empty : before = []) : after = [] := by
  rw [← List.length_eq_zero_iff, loaded.length, empty, List.length_nil]

theorem Loaded.getD_map {own : Option (List HelpCommand)}
    {after : List HelpCommand} (loaded : Loaded (own.getD []) after) :
    (own.map fun _ => after).getD [] = after := by
  cases own with
  | none => exact (loaded.nil rfl).symm
  | some table => rfl

theorem loadTables_commands (id : CString)
    (commands ucommands : List HelpCommand) (store : Store) :
    Loaded commands
      (loadTables setup files id commands ucommands store).1.1 :=
  .of_each (fun _ _ => rfl) commands store

theorem loadTables_ucommands (id : CString)
    (commands ucommands : List HelpCommand) (store : Store) :
    Loaded ucommands
      (loadTables setup files id commands ucommands store).1.2 :=
  .of_each (fun _ _ => rfl) ucommands _

theorem readTable_write {own : Option (List HelpCommand)}
    {ref : Option TableRef} {table : List HelpCommand}
    (empty : readTable own ref = [] → table = []) :
    readTable (writeOwn table own ref) (writeRef table ref) = table := by
  cases ref with
  | none => exact (empty rfl).symm
  | some ref => cases ref with
      | merged old => rfl
      | handler => cases own with
          | none => exact (empty rfl).symm
          | some old => rfl

namespace Part

variable {part : Part} {commands ucommands : List HelpCommand}

theorem write_own (commands ucommands : List HelpCommand) (part : Part) :
    (part.write commands ucommands).own =
      { part.own with
        command := writeOwn commands part.own.command part.service.command
        ucommand :=
          writeOwn ucommands part.own.ucommand part.service.ucommand } :=
  Function.update_self ..

theorem write_commands (empty : part.commands = [] → commands = []) :
    (part.write commands ucommands).commands = commands := by
  unfold Part.commands
  rw [write_own]
  exact readTable_write empty

theorem write_ucommands (empty : part.ucommands = [] → ucommands = []) :
    (part.write commands ucommands).ucommands = ucommands := by
  unfold Part.ucommands
  rw [write_own]
  exact readTable_write empty

theorem write_other {h : Nat} (other : h ≠ part.service.handler) :
    (part.write commands ucommands).cache.handlers h =
      part.cache.handlers h :=
  Function.update_of_ne other ..

end Part

/-- Where the array of the handler is one of the tables: the pointer to it is
kept. -/
structure Based (part : Part) : Prop where
  command : part.own.command ≠ none →
    part.service.origCommand.or part.service.command = some .handler
  ucommand : part.own.ucommand ≠ none →
    part.service.origUcommand.or part.service.ucommand = some .handler

variable {setup} {files} {part : Part} {done : List Nat} {h : Nat}

theorem writeOwn_ne_none {table : List HelpCommand}
    {own : Option (List HelpCommand)} {ref : Option TableRef}
    (there : writeOwn table own ref ≠ none) : own ≠ none := by
  rintro rfl
  apply there
  cases ref with
  | none => rfl
  | some ref => cases ref with
      | merged old => rfl
      | handler => rfl

theorem writeRef_isSome (table : List HelpCommand) (ref : Option TableRef) :
    (writeRef table ref).isSome = ref.isSome := by
  cases ref with
  | none => rfl
  | some ref => cases ref with
      | merged old => rfl
      | handler => rfl

theorem or_writeRef {table : List HelpCommand} {orig ref : Option TableRef}
    (base : orig.or ref = some .handler) :
    orig.or (writeRef table ref) = some .handler := by
  cases orig with
  | some kept => exact base
  | none =>
      rw [Option.none_or] at base ⊢
      rw [base]
      rfl

theorem Based.write (based : Based part)
    (commands ucommands : List HelpCommand) :
    Based (part.write commands ucommands) where
  command := by
    rw [Part.write_own]
    exact fun there => or_writeRef (based.command (writeOwn_ne_none there))
  ucommand := by
    rw [Part.write_own]
    exact fun there => or_writeRef (based.ucommand (writeOwn_ne_none there))

structure Plain (part : Part) : Prop extends Based part where
  orig : part.service.origCommand = none
  uorig : part.service.origUcommand = none

theorem Based.unmerge (based : Based part)
    (marked : part.service.origCommand = none →
      part.service.origUcommand = none) :
    Plain { part with service := unmergeService part.service } := by
  have command := based.command
  have ucommand := based.ucommand
  unfold unmergeService
  split
  · rename_i missing
    exact ⟨based, missing, marked missing⟩
  · rename_i kept there
    rw [there] at command
    refine ⟨⟨command, fun own => ?_⟩, rfl, rfl⟩
    have base := ucommand own
    dsimp only
    rw [Option.none_or]
    cases orig : part.service.origUcommand with
    | none =>
        rw [orig] at base
        exact base
    | some ukept =>
        rw [orig] at base
        exact base

def HelpHandler.loaded (handler : HelpHandler) : Bool :=
  (handler.command.getD []).all HelpCommand.loaded &&
    (handler.ucommand.getD []).all HelpCommand.loaded

/-- A service that has loaded its help and that of the handlers that are
merged into it. It holds the files of all their tables. -/
structure Fine (done : List Nat) (part : Part) : Prop extends Based part where
  help : part.service.help.isSome = part.service.command.isSome
  commands : part.commands.all HelpCommand.loaded = true
  ucommands : part.ucommands.all HelpCommand.loaded = true
  handlers : ∀ h ∈ part.service.handler :: done,
    (part.cache.handlers h).loaded = true
  holds : ((part.service.handler :: done).flatMap fun h =>
    (part.cache.handlers h).files).Subperm part.files
  merged : done ≠ [] → part.service.command.isSome = true

/-- A change that a service keeps its name in, and the handlers other than
these their tables. -/
structure Keeps (touched : List Nat) (before after : Part) : Prop where
  handler : after.service.handler = before.service.handler
  id : after.service.id = before.service.id
  list : after.service.mergedHandlerList = before.service.mergedHandlerList
  other : ∀ h ∉ touched, after.cache.handlers h = before.cache.handlers h
  ids : ∀ h, (after.cache.handlers h).id = (before.cache.handlers h).id

theorem Keeps.trans {touched : List Nat} {before middle after : Part}
    (left : Keeps touched before middle) (right : Keeps touched middle after) :
    Keeps touched before after where
  handler := right.handler.trans left.handler
  id := right.id.trans left.id
  list := right.list.trans left.list
  other := fun h far => (right.other h far).trans (left.other h far)
  ids := fun h => (right.ids h).trans (left.ids h)

theorem Keeps.mono {touched more : List Nat} {before after : Part}
    (keeps : Keeps touched before after) (less : touched ⊆ more) :
    Keeps more before after :=
  { keeps with other := fun h far => keeps.other h fun near => far (less near) }

theorem Part.write_keeps (commands ucommands : List HelpCommand)
    (part : Part) :
    Keeps [part.service.handler] part (part.write commands ucommands) where
  handler := rfl
  id := rfl
  list := rfl
  other := fun h far => write_other fun same => far (same ▸ List.mem_cons_self)
  ids := by
    intro h
    by_cases same : h = part.service.handler
    · subst same
      have own := congrArg HelpHandler.id (write_own commands ucommands part)
      exact own
    · exact congrArg HelpHandler.id (write_other same)

structure LangIndex.Found (setup : HelpSetup) (files : Files) (id : CString)
    (entry : LangIndex) : Prop where
  lang : entry.lang ∈ setup.langs
  help : entry.help.isSome = (files (setup.indexFile id entry.lang)).isSome
  admin :
    entry.helpadmin.isSome = (files (setup.adminFile id entry.lang)).isSome

theorem loadServiceHelp_eq (setup : HelpSetup) (files : Files)
    (clear : part.service.help = none) : ∃ help store,
      loadServiceHelp setup files part =
        { service := { part.service with help := help }
          cache := { part.cache with store := store } } ∧
      help.isSome = part.service.command.isSome ∧
      Ledger.Trades [] (indexFiles (help.getD [])) part.cache.store store ∧
      ∀ entry ∈ help.getD [], entry.Found setup files part.service.id := by
  unfold loadServiceHelp
  split
  · rename_i missing
    refine ⟨none, part.cache.store, ?_, ?_, .refl [] _, by simp⟩
    · rw [← clear]
    · rw [missing]
      rfl
  · rename_i ref there
    refine ⟨_, _, rfl, ?_, ?_, ?_⟩
    · rw [there]
      rfl
    · exact .each_new (fun lang _ => loadIndex_trades setup files _ lang) _
    · refine Ledger.forall_each (fun lang listed store => ?_) _
      exact ⟨listed, cacheFile_isSome .., cacheFile_isSome ..⟩

theorem Plain.own_command (plain : Plain part) :
    part.own.command.getD [] = [] ∨
      part.own.command.getD [] = part.commands := by
  cases own : part.own.command with
  | none => exact .inl rfl
  | some table =>
      have base := plain.command (by rw [own]; exact Option.some_ne_none table)
      rw [plain.orig, Option.none_or] at base
      refine .inr ?_
      rw [Part.commands, base, own]
      rfl

theorem Plain.own_ucommand (plain : Plain part) :
    part.own.ucommand.getD [] = [] ∨
      part.own.ucommand.getD [] = part.ucommands := by
  cases own : part.own.ucommand with
  | none => exact .inl rfl
  | some table =>
      have base := plain.ucommand (by rw [own]; exact Option.some_ne_none table)
      rw [plain.uorig, Option.none_or] at base
      refine .inr ?_
      rw [Part.ucommands, base, own]
      rfl

theorem tableFiles_sublist {own table : List HelpCommand}
    (one : own = [] ∨ own = table) :
    (tableFiles own).Sublist (tableFiles table) := by
  rcases one with rfl | rfl
  · exact List.nil_sublist _
  · exact List.Sublist.refl _

theorem all_loaded_of_one {own table : List HelpCommand}
    (one : own = [] ∨ own = table)
    (loaded : table.all HelpCommand.loaded = true) :
    own.all HelpCommand.loaded = true := by
  rcases one with rfl | rfl
  · rfl
  · exact loaded

theorem Plain.fine (plain : Plain part)
    (help : part.service.help.isSome = part.service.command.isSome)
    (commands : part.commands.all HelpCommand.loaded = true)
    (ucommands : part.ucommands.all HelpCommand.loaded = true) :
    Fine [] part where
  toBased := plain.toBased
  help := help
  commands := commands
  ucommands := ucommands
  handlers := by
    intro h listed
    rw [List.mem_singleton.mp listed]
    exact Bool.and_eq_true_iff.mpr
      ⟨all_loaded_of_one plain.own_command commands,
        all_loaded_of_one plain.own_ucommand ucommands⟩
  holds := by
    have own : (part.own.files).Sublist
        (tableFiles part.commands ++ tableFiles part.ucommands) :=
      (tableFiles_sublist plain.own_command).append
        (tableFiles_sublist plain.own_ucommand)
    rw [List.flatMap_singleton]
    exact (own.trans (List.sublist_append_right _ _)).subperm
  merged := fun some_ => absurd rfl some_

theorem Plain.load (plain : Plain part) (setup : HelpSetup) (files : Files)
    (clear : part.service.help = none) (id : CString) : ∃ after,
    loadServiceCommandHelp setup files id (loadServiceHelp setup files part) =
        after ∧
      Fine [] after ∧ Keeps [part.service.handler] part after ∧
      Ledger.Trades [] after.files part.cache.store after.cache.store ∧
      after.service.command.isSome = part.service.command.isSome ∧
      ∀ entry ∈ after.service.help.getD [],
        entry.Found setup files part.service.id := by
  obtain ⟨help, store, indexed, isSome, index, found⟩ :=
    loadServiceHelp_eq setup files clear
  rw [indexed]
  have loads := loadTables_commands setup files id part.commands
    part.ucommands store
  have uloads := loadTables_ucommands setup files id part.commands
    part.ucommands store
  have tables := loadTables_trades setup files id part.commands
    part.ucommands store
  let start : Part :=
    { service := { part.service with help := help }
      cache :=
        { part.cache with
          store := (loadTables setup files id part.commands part.ucommands
            store).2 } }
  let after := start.write
    (loadTables setup files id part.commands part.ucommands store).1.1
    (loadTables setup files id part.commands part.ucommands store).1.2
  have commands : after.commands = _ := Part.write_commands loads.nil
  have ucommands : after.ucommands = _ := Part.write_ucommands uloads.nil
  have isStart : Based start := ⟨plain.command, plain.ucommand⟩
  have isPlain : Plain after :=
    ⟨isStart.write _ _, plain.orig, plain.uorig⟩
  have same : after.service.command.isSome = part.service.command.isSome :=
    writeRef_isSome _ _
  have keeps := start.write_keeps
    (loadTables setup files id part.commands part.ucommands store).1.1
    (loadTables setup files id part.commands part.ucommands store).1.2
  refine ⟨after, rfl, isPlain.fine ?_ ?_ ?_,
    ⟨rfl, rfl, rfl, keeps.other, keeps.ids⟩, ?_, same, found⟩
  · rw [same]
    exact isSome
  · rw [commands]
    exact loads.all
  · rw [ucommands]
    exact uloads.all
  · unfold Part.files
    rw [commands, ucommands]
    exact index.andThen tables

theorem unmerge_isSome {s : Service} (there : s.command.isSome = true) :
    (unmergeService s).command.isSome = true := by
  unfold unmergeService
  split
  · exact there
  · rfl

theorem unmerge_help (s : Service) : (unmergeService s).help = s.help := by
  unfold unmergeService
  split
  · rfl
  · rfl

theorem unmerge_keeps (part : Part) :
    Keeps [part.service.handler] part
      { part with service := unmergeService part.service } := by
  unfold unmergeService
  split
  · exact ⟨rfl, rfl, rfl, fun _ _ => rfl, fun _ => rfl⟩
  · exact ⟨rfl, rfl, rfl, fun _ _ => rfl, fun _ => rfl⟩

theorem Fine.clear (fine : Fine done part) : ∃ after,
    clearServiceHelp part = .ok after ∧ Based after ∧
      after.service.help = none ∧ Keeps [part.service.handler] part after ∧
      Ledger.Trades part.files [] part.cache.store after.cache.store ∧
      after.service.command.isSome = part.service.command.isSome ∧
      after.service.origCommand = part.service.origCommand ∧
      after.service.origUcommand = part.service.origUcommand := by
  have isSome := fine.help
  unfold clearServiceHelp
  split
  · rename_i missing
    rw [missing] at isSome
    exact ⟨part, rfl, fine.toBased,
      Option.not_isSome_iff_eq_none.mp (by simp [isSome]),
      ⟨rfl, rfl, rfl, fun _ _ => rfl, fun _ => rfl⟩,
      .lose (List.nil_subperm) _, rfl, rfl, rfl⟩
  · rename_i ref there
    split
    · rename_i missing
      rw [missing, there] at isSome
      cases isSome
    · rename_i index indexed
      rw [fine.commands, fine.ucommands]
      let freed : Part :=
        { service := { part.service with help := none }
          cache :=
            { part.cache with
              store := part.cache.store.free (indexFiles index ++
                (tableFiles part.commands ++ tableFiles part.ucommands)) } }
      have isFreed : Based freed := ⟨fine.command, fine.ucommand⟩
      have keeps := freed.write_keeps (cleared part.commands)
        (cleared part.ucommands)
      refine ⟨freed.write (cleared part.commands) (cleared part.ucommands),
        rfl, isFreed.write _ _, rfl,
        ⟨rfl, rfl, rfl, keeps.other, keeps.ids⟩, ?_, writeRef_isSome _ _,
        rfl, rfl⟩
      unfold Part.files
      rw [indexed]
      exact .free _ _

theorem splice_trades (blank : Bool) (contents fileptr : Option Nat)
    (store : Store) :
    Ledger.Trades fileptr.toList [] store
      (splice blank contents fileptr store).2 := by
  cases fileptr with
  | none => exact .refl [] store
  | some file => cases contents with
      | none => exact .free [file] store
      | some own =>
          unfold splice
          exact (Ledger.Trades.quiet (.trans (.modify own _ _)
            (.modify file _ _)) [file]).trans (.free [file] _)

theorem appendIndex_trades (id : CString) (entry : LangIndex)
    (store : Store) :
    Ledger.Trades [] [] store
      (appendIndex setup files id entry store).2 :=
  ((cacheFile_trades files (setup.indexFile id entry.lang) _ true store).trans
    (splice_trades false entry.help _ _)).trans
    ((cacheFile_trades files (setup.adminFile id entry.lang) _ true _).trans
      (splice_trades true entry.helpadmin _ _))

theorem splice_same {blank : Bool} {contents fileptr : Option Nat}
    {store : Store} (covered : fileptr.isSome = true → contents.isSome = true) :
    (splice blank contents fileptr store).1 = contents := by
  cases fileptr with
  | none => rfl
  | some file => cases contents with
      | none => cases covered rfl
      | some own => rfl

def Covers (setup : HelpSetup) (files : Files) (id : CString)
    (index : List LangIndex) : Prop :=
  ∀ entry ∈ index,
    ((files (setup.indexFile id entry.lang)).isSome = true →
      entry.help.isSome = true) ∧
    ((files (setup.adminFile id entry.lang)).isSome = true →
      entry.helpadmin.isSome = true)

theorem appendIndex_same {id : CString} {entry : LangIndex}
    (covered : Covers setup files id [entry]) (store : Store) :
    (appendIndex setup files id entry store).1 = entry := by
  obtain ⟨help, admin⟩ := covered entry (List.mem_singleton_self entry)
  unfold appendIndex
  dsimp only
  rw [splice_same, splice_same]
  · rw [cacheFile_isSome]
    exact admin
  · rw [cacheFile_isSome]
    exact help

theorem indexFiles_index (s : Service) :
    indexFiles (s.index setup) = indexFiles (s.help.getD []) := by
  unfold Service.index
  cases s.help with
  | some index => rfl
  | none => simp [indexFiles, LangIndex.files, List.flatMap_map]

theorem appendServiceHelp_eq (setup : HelpSetup) (files : Files)
    (id : CString) (part : Part) :
    ∃ index store,
      appendServiceHelp setup files id part =
        { service := { part.service with help := some index }
          cache := { part.cache with store := store } } ∧
      Ledger.Trades [] [] part.cache.store store ∧
      (Covers setup files id (part.service.index setup) →
        index = part.service.index setup) := by
  refine ⟨_, _, rfl, ?_, ?_⟩
  · exact .each_quiet (fun entry _ => appendIndex_trades id entry) _
  · intro covers
    refine Ledger.each_eq (fun entry listed store => ?_) _
    apply appendIndex_same
    intro other same
    rw [List.mem_singleton.mp same]
    exact covers entry listed

theorem tableFiles_append (first second : List HelpCommand) :
    tableFiles (first ++ second) = tableFiles first ++ tableFiles second :=
  List.flatMap_append

theorem scmdSort_perm (table : List HelpCommand) :
    (scmdSort table).Perm table :=
  BSearch.sort_perm _ table

theorem if_isNone_eq_or (orig ref : Option TableRef) :
    (if orig.isNone then ref else orig) = orig.or ref := by
  cases orig with
  | none => rfl
  | some kept => rfl

theorem mergeTables_none (startup : Bool) (part : Part)
    (missing : (part.cache.handlers h).ucommand = none) :
    (mergeTables h startup part).ucommand = part.service.ucommand ∧
      (mergeTables h startup part).origUcommand =
        part.service.origUcommand := by
  unfold mergeTables
  simp only [missing, and_self]

theorem mergeTables_some (startup : Bool) (part : Part)
    {table : List HelpCommand}
    (there : (part.cache.handlers h).ucommand = some table) :
    (mergeTables h startup part).ucommand =
        some (.merged (part.ucommands ++ table)) ∧
      (mergeTables h startup part).origUcommand =
        part.service.origUcommand.or part.service.ucommand := by
  unfold mergeTables
  simp only [there, if_isNone_eq_or, and_self]

theorem mergeTables_ucommands (startup : Bool) (h : Nat) (part : Part) :
    Part.ucommands { part with service := mergeTables h startup part } =
      part.ucommands ++ (part.cache.handlers h).ucommand.getD [] := by
  cases own : (part.cache.handlers h).ucommand with
  | none =>
      rw [Part.ucommands, (mergeTables_none startup part own).1]
      exact (List.append_nil _).symm
  | some table =>
      rw [Part.ucommands, (mergeTables_some startup part own).1]
      rfl

theorem Fine.merge {index : List LangIndex} (fine : Fine done part)
    (store : Store) (loaded : (part.cache.handlers h).loaded = true)
    (same : indexFiles index = indexFiles (part.service.help.getD []))
    (startup : Bool) : ∃ after,
    { service := mergeTables h startup
        { service := { part.service with help := some index }
          cache := { part.cache with store := store } }
      cache := { part.cache with store := store } } = after ∧
      Fine (done ++ [h]) after ∧
      after.files.Perm (part.files ++ (part.cache.handlers h).files) := by
  let indexed : Part :=
    { service := { part.service with help := some index }
      cache := { part.cache with store := store } }
  let after : Part :=
    { service := mergeTables h startup indexed, cache := indexed.cache }
  obtain ⟨loads, uloads⟩ := Bool.and_eq_true_iff.mp loaded
  have commands : after.commands =
      scmdSort (part.commands ++ (part.cache.handlers h).command.getD []) :=
    rfl
  have ucommands : after.ucommands =
      part.ucommands ++ (part.cache.handlers h).ucommand.getD [] :=
    mergeTables_ucommands startup h indexed
  have sorted : (tableFiles after.commands).Perm (tableFiles part.commands ++
      tableFiles ((part.cache.handlers h).command.getD [])) := by
    rw [commands, ← tableFiles_append]
    exact (scmdSort_perm _).flatMap_right _
  have perm : after.files.Perm
      (part.files ++ (part.cache.handlers h).files) := by
    unfold Part.files HelpHandler.files
    rw [ucommands, tableFiles_append]
    refine List.perm_iff_count.mpr fun file => ?_
    have count := sorted.count_eq file
    have front : indexFiles (after.service.help.getD []) = _ := same
    rw [front]
    simp only [List.count_append] at count ⊢
    omega
  refine ⟨after, rfl, ?_, perm⟩
  exact
    { command := by
        intro own
        have base := fine.command own
        have kept : after.service.origCommand =
            part.service.origCommand.or part.service.command :=
          if_isNone_eq_or _ _
        rw [kept, base]
        rfl
      ucommand := by
        intro own
        have base := fine.ucommand own
        cases handler : (part.cache.handlers h).ucommand with
        | none =>
            obtain ⟨ref, orig⟩ := mergeTables_none startup indexed handler
            rw [orig, ref]
            exact base
        | some table =>
            obtain ⟨_, orig⟩ := mergeTables_some startup indexed handler
            have kept : after.service.origUcommand = _ := orig
            rw [kept, base]
            rfl
      help := rfl
      commands := by
        rw [commands, (scmdSort_perm _).all_eq, List.all_append, fine.commands,
          loads]
        rfl
      ucommands := by
        rw [ucommands, List.all_append, fine.ucommands, uloads]
        rfl
      handlers := by
        intro other listed
        rw [← List.cons_append, List.mem_append] at listed
        rcases listed with old | new
        · exact fine.handlers other old
        · rw [List.mem_singleton.mp new]
          exact loaded
      holds := by
        rw [← List.cons_append, List.flatMap_append, List.flatMap_singleton]
        have more := (List.subperm_append_right
          (part.cache.handlers h).files).mpr fine.holds
        exact more.trans perm.symm.subperm
      merged := fun _ => rfl }

/-- What a merge leaves as it is, but for the list of the handlers that are
merged. -/
structure Merged (setup : HelpSetup) (before after : Part) : Prop where
  handler : after.service.handler = before.service.handler
  id : after.service.id = before.service.id
  handlers : after.cache.handlers = before.cache.handlers
  index : after.service.index setup = before.service.index setup

theorem Fine.mergeHandler (fine : Fine done part)
    (loaded : (part.cache.handlers h).loaded = true)
    (covers : Covers setup files (part.cache.handlers h).id
      (part.service.index setup)) (startup : Bool) : ∃ after,
    mergeHandler setup files h startup part = after ∧
      Fine (done ++ [h]) after ∧ Merged setup part after ∧
      after.service.mergedHandlerList =
        (if startup then part.service.mergedHandlerList ++ [h]
          else part.service.mergedHandlerList) ∧
      Ledger.Trades (part.files ++ (part.cache.handlers h).files) after.files
        part.cache.store after.cache.store := by
  obtain ⟨index, store, appended, quiet, same⟩ := appendServiceHelp_eq
    setup files (part.cache.handlers h).id part
  obtain rfl := same covers
  obtain ⟨after, rfl, isFine, perm⟩ := fine.merge store loaded
    (indexFiles_index part.service) startup
  refine ⟨_, ?_, isFine, ⟨rfl, rfl, rfl, rfl⟩, rfl, ?_⟩
  · unfold HelpCache.mergeHandler
    rw [appended]
  · exact (quiet.quiet _).perm (.refl _) perm.symm

theorem loadHandler_eq (setup : HelpSetup) (files : Files) (h : Nat)
    (cache : Cache) : ∃ handler store,
    loadHandler setup files h cache =
        { handlers := Function.update cache.handlers h handler
          store := store } ∧
      handler.id = (cache.handlers h).id ∧ handler.loaded = true ∧
      Ledger.Trades [] handler.files cache.store store := by
  have loads := loadTables_commands setup files (cache.handlers h).id
    ((cache.handlers h).command.getD []) ((cache.handlers h).ucommand.getD [])
    cache.store
  have uloads := loadTables_ucommands setup files (cache.handlers h).id
    ((cache.handlers h).command.getD []) ((cache.handlers h).ucommand.getD [])
    cache.store
  have tables := loadTables_trades setup files (cache.handlers h).id
    ((cache.handlers h).command.getD []) ((cache.handlers h).ucommand.getD [])
    cache.store
  refine ⟨_, _, rfl, rfl, ?_, ?_⟩
  · unfold HelpHandler.loaded
    dsimp only
    rw [loads.getD_map, uloads.getD_map, loads.all, uloads.all]
    rfl
  · unfold HelpHandler.files
    dsimp only
    rw [loads.getD_map, uloads.getD_map]
    exact tables

theorem Part.files_congr {s : Service} {cache other : Cache}
    (same : other.handlers s.handler = cache.handlers s.handler) :
    Part.files ⟨s, other⟩ = Part.files ⟨s, cache⟩ := by
  unfold Part.files Part.commands Part.ucommands Part.own
  rw [same]

theorem Fine.congr {s : Service} {cache other : Cache}
    (fine : Fine done ⟨s, cache⟩)
    (same : ∀ h ∈ s.handler :: done, other.handlers h = cache.handlers h) :
    Fine done ⟨s, other⟩ := by
  have own : other.handlers s.handler = cache.handlers s.handler :=
    same _ List.mem_cons_self
  have isOwn : Part.own ⟨s, other⟩ = Part.own ⟨s, cache⟩ := own
  have files := Part.files_congr own
  exact
    { command := by
        rw [isOwn]
        exact fine.command
      ucommand := by
        rw [isOwn]
        exact fine.ucommand
      help := fine.help
      commands := by
        unfold Part.commands
        rw [isOwn]
        exact fine.commands
      ucommands := by
        unfold Part.ucommands
        rw [isOwn]
        exact fine.ucommands
      handlers := by
        intro h listed
        rw [same h listed]
        exact fine.handlers h listed
      holds := by
        rw [files]
        rw [List.flatMap_congr fun h listed =>
          congrArg HelpHandler.files (same h listed)]
        exact fine.holds
      merged := fine.merged }

def remergePart (setup : HelpSetup) (files : Files) (part : Part) (h : Nat) :
    Part :=
  mergeHandler setup files h false
    { part with cache := loadHandler setup files h part.cache }

theorem Fine.remerge (fine : Fine done part)
    (new : h ∉ part.service.handler :: done)
    (covers : Covers setup files (part.cache.handlers h).id
      (part.service.index setup)) :
    Fine (done ++ [h]) (remergePart setup files part h) ∧
      Keeps [h] part (remergePart setup files part h) ∧
      (remergePart setup files part h).service.index setup =
        part.service.index setup ∧
      Ledger.Trades part.files (remergePart setup files part h).files
        part.cache.store (remergePart setup files part h).cache.store := by
  obtain ⟨handler, store, loading, id, loaded, gains⟩ :=
    loadHandler_eq setup files h part.cache
  let cache : Cache := ⟨Function.update part.cache.handlers h handler, store⟩
  have own : cache.handlers h = handler := Function.update_self ..
  have far : ∀ other ≠ h,
      cache.handlers other = part.cache.handlers other :=
    fun other apart => Function.update_of_ne apart ..
  have still : Fine done { part with cache := cache } := by
    refine fine.congr fun other listed => far other ?_
    rintro rfl
    exact new listed
  rw [← own] at id loaded gains
  rw [← id] at covers
  obtain ⟨after, merging, isFine, merged, list, trades⟩ :=
    still.mergeHandler loaded covers false
  have result : remergePart setup files part h = after := by
    unfold remergePart
    rw [loading]
    exact merging
  have files : Part.files { part with cache := cache } = part.files := by
    refine Part.files_congr (far _ ?_)
    rintro rfl
    exact new List.mem_cons_self
  rw [result]
  refine ⟨isFine, ⟨merged.handler, merged.id, list, ?_, ?_⟩, merged.index, ?_⟩
  · intro other apart
    rw [merged.handlers]
    exact far other fun same => apart (same ▸ List.mem_singleton_self _)
  · intro other
    rw [merged.handlers]
    by_cases same : other = h
    · subst same
      exact id
    · rw [far other same]
  · rw [files] at trades
    exact ((Ledger.Trades.refl part.files _).andThen gains).trans trades

theorem Fine.remergeAll {todo : List Nat} (fine : Fine done part)
    (apart : (part.service.handler :: done ++ todo).Nodup)
    (covers : ∀ h ∈ todo, Covers setup files (part.cache.handlers h).id
      (part.service.index setup)) :
    Fine (done ++ todo) (todo.foldl (remergePart setup files) part) ∧
      Keeps todo part (todo.foldl (remergePart setup files) part) ∧
      Ledger.Trades part.files
        (todo.foldl (remergePart setup files) part).files part.cache.store
        (todo.foldl (remergePart setup files) part).cache.store := by
  induction todo generalizing done part with
  | nil =>
      rw [List.append_nil]
      exact ⟨fine, ⟨rfl, rfl, rfl, fun _ _ => rfl, fun _ => rfl⟩, .refl _ _⟩
  | cons h rest ih =>
      obtain ⟨here, others⟩ := List.forall_mem_cons.mp covers
      have new : h ∉ part.service.handler :: done := fun listed =>
        (List.disjoint_of_nodup_append apart) listed List.mem_cons_self
      obtain ⟨isFine, keeps, index, trades⟩ := fine.remerge new here
      rw [List.append_cons, ← keeps.handler] at apart
      obtain ⟨allFine, keepsAll, tradesAll⟩ := ih isFine apart (by
        intro other listed
        rw [keeps.ids, index]
        exact others other listed)
      rw [List.append_cons]
      exact ⟨allFine, (keeps.mono (by simp)).trans (keepsAll.mono (by simp)),
        trades.trans tradesAll⟩

/-- The condition of a service that is loaded again: what is merged is marked
as merged, and the service has the index files that its handlers have. -/
structure Reloadable (setup : HelpSetup) (files : Files) (part : Part) :
    Prop where
  marked : part.service.origCommand = none →
    part.service.origUcommand = none
  covers : ∀ h ∈ part.service.mergedHandlerList, ∀ lang ∈ setup.langs,
    ((files (setup.indexFile (part.cache.handlers h).id lang)).isSome = true →
      (files (setup.indexFile part.service.id lang)).isSome = true) ∧
    ((files (setup.adminFile (part.cache.handlers h).id lang)).isSome = true →
      (files (setup.adminFile part.service.id lang)).isSome = true)

theorem Reloadable.congr {s : Service} {cache other : Cache}
    (ready : Reloadable setup files ⟨s, cache⟩)
    (ids : ∀ h, (other.handlers h).id = (cache.handlers h).id) :
    Reloadable setup files ⟨s, other⟩ where
  marked := ready.marked
  covers := by
    intro h listed lang known
    dsimp only
    rw [ids h]
    exact ready.covers h listed lang known

/-- What `rehash_help` does for a service before handlers are merged again. -/
def reloadPart (setup : HelpSetup) (files : Files) (part : Part) :
    Except HelpStop Part := do
  let part ← clearServiceHelp part
  let part : Part := { part with service := unmergeService part.service }
  .ok (loadServiceCommandHelp setup files part.service.id
    (loadServiceHelp setup files part))

theorem Fine.reload (fine : Fine part.service.mergedHandlerList part)
    (ready : Reloadable setup files part)
    (apart :
      (part.service.handler :: part.service.mergedHandlerList).Nodup) :
    ∃ loaded after, reloadPart setup files part = .ok loaded ∧
      loaded.service.id = part.service.id ∧
      loaded.service.mergedHandlerList = part.service.mergedHandlerList ∧
      part.service.mergedHandlerList.foldl (remergePart setup files) loaded =
        after ∧
      Fine part.service.mergedHandlerList after ∧
      Keeps (part.service.handler :: part.service.mergedHandlerList) part
        after ∧
      Ledger.Trades part.files after.files part.cache.store
        after.cache.store := by
  obtain ⟨cleared, clears, based, noHelp, keeps, frees, isSome, orig, uorig⟩ :=
    fine.clear
  have plain := based.unmerge (by
    rw [orig, uorig]
    exact ready.marked)
  have keepsPlain := keeps.trans (keeps.handler ▸ unmerge_keeps cleared)
  obtain ⟨loaded, loading, isFine, keepsLoad, gains, there, found⟩ :=
    plain.load setup files ((unmerge_help _).trans noHelp)
      (unmergeService cleared.service).id
  rw [keepsPlain.handler] at keepsLoad
  have keepsLoaded := keepsPlain.trans keepsLoad
  have covers : ∀ h ∈ part.service.mergedHandlerList,
      Covers setup files (loaded.cache.handlers h).id
        (loaded.service.index setup) := by
    intro h listed entry inIndex
    have table := fine.merged (List.ne_nil_of_mem listed)
    rw [← isSome] at table
    have help := isFine.help
    rw [there, unmerge_isSome table] at help
    obtain ⟨index, isIndex⟩ := Option.isSome_iff_exists.mp help
    rw [Service.index, isIndex, Option.getD_some] at inIndex
    rw [isIndex, Option.getD_some] at found
    have own := found entry inIndex
    have both := ready.covers h listed entry.lang own.lang
    rw [own.help, own.admin, keepsLoaded.ids]
    rw [keepsPlain.id]
    exact both
  have apartLoaded : (loaded.service.handler :: [] ++
      part.service.mergedHandlerList).Nodup := by
    rw [keepsLoaded.handler]
    exact apart
  obtain ⟨allFine, keepsAll, trades⟩ :=
    isFine.remergeAll apartLoaded covers
  refine ⟨loaded, _, ?_, keepsLoaded.id, keepsLoaded.list, rfl, allFine,
    (keepsLoaded.mono (by simp)).trans (keepsAll.mono (by simp)),
    (frees.trans gains).trans trades⟩
  unfold reloadPart
  rw [clears]
  exact congrArg Except.ok loading

end HelpCache

end RatboxServices
