import RatboxServices.Lib.Ledger
import RatboxServices.Serv.ChanfixScore
import RatboxServices.Serv.HelpIndex
import Mathlib.Logic.Function.Basic

namespace RatboxServices

open CString

/-! The cached help files (`cache.c`, `service.c`): who loads them, splices
them, copies the pointers to them and frees them. An array of pointers is a
list of addresses; its copies are the same list. -/

namespace HelpCache

/-- A line of a file; there is one `emptyline` for all of them. -/
inductive CacheLine where
  | emptyline
  | line (data : CString)
  deriving DecidableEq, Repr

/-- `struct cachefile`. -/
structure Cachefile where
  name : CString
  contents : List CacheLine
  deriving DecidableEq, Repr

abbrev Store := Ledger Cachefile

abbrev Files := CString → Option (List CString)

def cachefileLen : Nat := 30

def cachelineLen : Nat := 81

/-- `cache_file`. -/
def cacheFile (files : Files) (filename shortname : CString)
    (addBlank : Bool) (store : Store) : Option Nat × Store :=
  match files filename with
  | none => (none, store)
  | some lines =>
      let contents : List CacheLine := lines.map fun line =>
        if line.isEmpty then .emptyline else .line (strlcpy cachelineLen line)
      let made := store.make
        { name := strlcpy cachefileLen shortname
          contents := if addBlank then contents ++ [.emptyline] else contents }
      (some made.1, made.2)

/-- An entry of `langs_available`, with its description. -/
structure Lang where
  name : CString
  description : Option CString
  deriving DecidableEq, Repr

structure HelpSetup where
  helpPath : CString
  langs : List Lang
  /-- `ENABLE_USERSERV`. -/
  userserv : Bool
  nickLen : Nat

def pathMax : Nat := 4096

namespace HelpSetup

variable (setup : HelpSetup)

def directory (lang : Lang) (id : CString) : CString :=
  setup.helpPath ++ "/".toList ++ lang.name ++ "/".toList ++ lcase id ++
    "/".toList

def indexFile (id : CString) (lang : Lang) : CString :=
  strlcpy pathMax (setup.directory lang id ++ "index".toList)

def adminFile (id : CString) (lang : Lang) : CString :=
  strlcat pathMax (setup.indexFile id lang) "-admin".toList

def commandFile (id cmd : CString) (lang : Lang) : CString :=
  strlcat pathMax (strlcpy pathMax (setup.directory lang id)) (lcase cmd)

def ucommandFile (id cmd : CString) (lang : Lang) : CString :=
  strlcat pathMax (strlcpy pathMax (setup.directory lang id ++ "u-".toList))
    (lcase cmd)

def mainFile (cmd : CString) (lang : Lang) : CString :=
  strlcpy pathMax (setup.helpPath ++ "/".toList ++ lang.name ++
    "/main/u-".toList ++ lcase cmd)

end HelpSetup

/-- An entry of a table of commands: its name and its `helpfile`, a pointer
for each language. -/
structure HelpCommand where
  cmd : CString
  helpfile : Option (List (Option Nat)) := none
  deriving DecidableEq, Repr

/-- The array of a `struct service_handler` that stands in memory, and its
DCC commands before the entry that ends them. -/
structure HelpHandler where
  id : CString
  command : Option (List HelpCommand)
  ucommand : Option (List HelpCommand)
  deriving DecidableEq, Repr

/-- A pointer to a table: to the array of the handler, or to a copy that
commands were merged in. -/
inductive TableRef where
  | handler
  | merged (table : List HelpCommand)
  deriving DecidableEq, Repr

/-- What a service has in one language: `help` and `helpadmin`. -/
structure LangIndex where
  lang : Lang
  help : Option Nat := none
  helpadmin : Option Nat := none
  deriving DecidableEq, Repr

/-- What `struct service` keeps of the help. The two arrays of the index are
made and freed together; handlers go by the order they were added in. -/
structure Service where
  handler : Nat
  id : CString
  help : Option (List LangIndex) := none
  command : Option TableRef
  ucommand : Option TableRef
  origCommand : Option TableRef := none
  origUcommand : Option TableRef := none
  mergedHandlerList : List Nat := []
  deriving DecidableEq, Repr

structure Cache where
  handlers : Nat → HelpHandler
  store : Store

structure Part where
  service : Service
  cache : Cache

def HelpCommand.files (command : HelpCommand) : List Nat :=
  (command.helpfile.getD []).flatMap Option.toList

def tableFiles (table : List HelpCommand) : List Nat :=
  table.flatMap HelpCommand.files

def LangIndex.files (entry : LangIndex) : List Nat :=
  entry.help.toList ++ entry.helpadmin.toList

def indexFiles (index : List LangIndex) : List Nat :=
  index.flatMap LangIndex.files

def readTable (own : Option (List HelpCommand)) :
    Option TableRef → List HelpCommand
  | none => []
  | some .handler => own.getD []
  | some (.merged table) => table

def writeRef (table : List HelpCommand) : Option TableRef → Option TableRef
  | none => none
  | some .handler => some .handler
  | some (.merged _) => some (.merged table)

def writeOwn (table : List HelpCommand) (own : Option (List HelpCommand)) :
    Option TableRef → Option (List HelpCommand)
  | some .handler => own.map fun _ => table
  | _ => own

namespace Part

def own (part : Part) : HelpHandler :=
  part.cache.handlers part.service.handler

def commands (part : Part) : List HelpCommand :=
  readTable part.own.command part.service.command

def ucommands (part : Part) : List HelpCommand :=
  readTable part.own.ucommand part.service.ucommand

def write (commands ucommands : List HelpCommand) (part : Part) : Part where
  service :=
    { part.service with
      command := writeRef commands part.service.command
      ucommand := writeRef ucommands part.service.ucommand }
  cache :=
    { part.cache with
      handlers := Function.update part.cache.handlers part.service.handler
        { part.own with
          command :=
            writeOwn commands part.own.command part.service.command
          ucommand :=
            writeOwn ucommands part.own.ucommand part.service.ucommand } }

end Part

section Load

variable (setup : HelpSetup) (files : Files)

/-- `load_service_help`, in one language. -/
def loadIndex (id : CString) (lang : Lang) (store : Store) :
    LangIndex × Store :=
  let help := cacheFile files (setup.indexFile id lang) "index".toList true
    store
  let admin := cacheFile files (setup.adminFile id lang)
    "index-admin".toList true help.2
  ({ lang := lang, help := help.1, helpadmin := admin.1 }, admin.2)

/-- `load_service_help`. -/
def loadServiceHelp (part : Part) : Part :=
  match part.service.command with
  | none => part
  | some _ =>
      let loaded := Ledger.each (loadIndex setup files part.service.id)
        setup.langs part.cache.store
      { service := { part.service with help := some loaded.1 }
        cache := { part.cache with store := loaded.2 } }

def languageLines : List CacheLine :=
  setup.langs.filterMap fun lang =>
    match lang.description with
    | none => none
    | some description =>
        if description.isEmpty then none
        else some <| .line <| strlcpy cachelineLen <|
          "     ".toList ++ lang.name.rightpad 6 ' ' ++ " - ".toList ++
            description

def addLanguages (helpfile : List (Option Nat)) (store : Store) : Store :=
  (helpfile.flatMap Option.toList).foldl (fun store file =>
    store.modify file fun cachefile =>
      { cachefile with
        contents := cachefile.contents ++ languageLines setup }) store

/-- `load_service_command_help` for a command. -/
def loadCommand (id : CString) (command : HelpCommand) (store : Store) :
    HelpCommand × Store :=
  let loaded := Ledger.each (fun lang => cacheFile files
    (setup.commandFile id command.cmd lang) command.cmd false)
    setup.langs store
  let store :=
    if setup.userserv && id == "USERSERV".toList &&
      command.cmd == "LANGUAGE".toList then
      addLanguages setup loaded.1 loaded.2
    else loaded.2
  ({ command with helpfile := some loaded.1 }, store)

/-- `load_service_command_help` for a DCC command: the name of the first
command is looked for, each time. -/
def loadUcommand (id first : CString) (command : HelpCommand)
    (store : Store) : HelpCommand × Store :=
  let loaded := Ledger.each (fun lang => cacheFile files
    (setup.ucommandFile id first lang) first false) setup.langs store
  ({ command with helpfile := some loaded.1 }, loaded.2)

/-- `load_service_command_help`. -/
def loadTables (id : CString) (commands ucommands : List HelpCommand)
    (store : Store) : (List HelpCommand × List HelpCommand) × Store :=
  let loaded := Ledger.each (loadCommand setup files id) commands store
  let first := ((ucommands.head?.map HelpCommand.cmd).getD [])
  let uloaded := Ledger.each (loadUcommand setup files id first) ucommands
    loaded.2
  ((loaded.1, uloaded.1), uloaded.2)

/-- `load_service_command_help` for the tables of a service. -/
def loadServiceCommandHelp (id : CString) (part : Part) : Part :=
  let loaded := loadTables setup files id part.commands part.ucommands
    part.cache.store
  { part with cache := { part.cache with store := loaded.2 } }.write
    loaded.1.1 loaded.1.2

/-- `load_service_command_help` for the tables of a handler. -/
def loadHandler (h : Nat) (cache : Cache) : Cache :=
  let handler := cache.handlers h
  let loaded := loadTables setup files handler.id (handler.command.getD [])
    (handler.ucommand.getD []) cache.store
  { handlers := Function.update cache.handlers h
      { handler with
        command := handler.command.map fun _ => loaded.1.1
        ucommand := handler.ucommand.map fun _ => loaded.1.2 }
    store := loaded.2 }

/-- What `append_service_help` does with a file that it has loaded: its lines
are moved, or it is taken over where there is none. It is freed then. -/
def splice (blank : Bool) (contents fileptr : Option Nat) (store : Store) :
    Option Nat × Store :=
  match fileptr with
  | none => (contents, store)
  | some file =>
      match contents with
      | none => (some file, store.free [file])
      | some own =>
          let lines := (store.objects[file]?.map Cachefile.contents).getD []
          let moved := if blank then .emptyline :: lines else lines
          let store := store.modify own fun cachefile =>
            { cachefile with contents := cachefile.contents ++ moved }
          let store := store.modify file fun cachefile =>
            { cachefile with contents := [] }
          (some own, store.free [file])

/-- `append_service_help`, in one language. -/
def appendIndex (id : CString) (entry : LangIndex) (store : Store) :
    LangIndex × Store :=
  let fileptr := cacheFile files (setup.indexFile id entry.lang)
    "index".toList true store
  let help := splice false entry.help fileptr.1 fileptr.2
  let fileptr := cacheFile files (setup.adminFile id entry.lang)
    "index-admin".toList true help.2
  let admin := splice true entry.helpadmin fileptr.1 fileptr.2
  ({ entry with help := help.1, helpadmin := admin.1 }, admin.2)

def Service.index (s : Service) : List LangIndex :=
  s.help.getD (setup.langs.map fun lang => { lang := lang })

/-- `append_service_help`. -/
def appendServiceHelp (id : CString) (part : Part) : Part :=
  let appended := Ledger.each (appendIndex setup files id)
    (part.service.index setup) part.cache.store
  { service := { part.service with help := some appended.1 }
    cache := { part.cache with store := appended.2 } }

/-- `qsort` with `scmd_sort`. -/
def scmdSort (table : List HelpCommand) : List HelpCommand :=
  BSearch.sort (fun command => command.cmd.map asciiLower) table

/-- The pointers of `merge_service`. -/
def mergeTables (h : Nat) (startup : Bool) (part : Part) : Service :=
  let s := part.service
  let handler := part.cache.handlers h
  { s with
    mergedHandlerList :=
      if startup then s.mergedHandlerList ++ [h] else s.mergedHandlerList
    origCommand := if s.origCommand.isNone then s.command else s.origCommand
    command := some (.merged (scmdSort (part.commands ++
      handler.command.getD [])))
    origUcommand :=
      match handler.ucommand with
      | none => s.origUcommand
      | some _ => if s.origUcommand.isNone then s.ucommand else s.origUcommand
    ucommand :=
      match handler.ucommand with
      | none => s.ucommand
      | some table => some (.merged (part.ucommands ++ table)) }

/-- `merge_service` on the service that it has found. -/
def mergeHandler (h : Nat) (startup : Bool) (part : Part) : Part :=
  let part := appendServiceHelp setup files (part.cache.handlers h).id part
  { part with service := mergeTables h startup part }

end Load

inductive HelpStop where
  | nullPointer
  deriving DecidableEq, Repr

def HelpCommand.loaded (command : HelpCommand) : Bool :=
  command.helpfile.isSome

def cleared (table : List HelpCommand) : List HelpCommand :=
  table.map fun command => { command with helpfile := none }

/-- `clear_service_help`. -/
def clearServiceHelp (part : Part) : Except HelpStop Part :=
  match part.service.command with
  | none => .ok part
  | some _ =>
      match part.service.help with
      | none => .error .nullPointer
      | some index =>
          if part.commands.all HelpCommand.loaded &&
            part.ucommands.all HelpCommand.loaded then
            let store := part.cache.store.free (indexFiles index ++
              (tableFiles part.commands ++ tableFiles part.ucommands))
            let freed : Part :=
              { service := { part.service with help := none }
                cache := { part.cache with store := store } }
            .ok (freed.write (cleared part.commands)
              (cleared part.ucommands))
          else .error .nullPointer

/-- `unmerge_service`. -/
def unmergeService (s : Service) : Service :=
  match s.origCommand with
  | none => s
  | some command =>
      { s with
        command := some command
        ucommand :=
          if s.origUcommand.isSome then s.origUcommand else s.ucommand
        origCommand := none
        origUcommand := none }

/-- The services of `service_list`, the handlers that were added so far and
the commands of `ucommand_list`. -/
structure HelpState where
  services : List Service
  cache : Cache
  added : Nat
  ucommands : List HelpCommand

namespace HelpState

variable (setup : HelpSetup) (files : Files)

/-- `load_ucommand_help`. -/
def loadUcommandHelp (w : HelpState) : HelpState :=
  let loaded := Ledger.each (fun (command : HelpCommand) store =>
    let helpfile := Ledger.each (fun lang => cacheFile files
      (setup.mainFile command.cmd lang) command.cmd false) setup.langs store
    ({ command with helpfile := some helpfile.1 }, helpfile.2))
    w.ucommands w.cache.store
  { w with
    ucommands := loaded.1
    cache := { w.cache with store := loaded.2 } }

/-- `clear_ucommand_help`. -/
def clearUcommandHelp (w : HelpState) : Except HelpStop HelpState :=
  if w.ucommands.all HelpCommand.loaded then
    .ok { w with
      ucommands := cleared w.ucommands
      cache :=
        { w.cache with store := w.cache.store.free (tableFiles w.ucommands) } }
  else .error .nullPointer

/-- What `init_ucommand` leaves, before there are services. -/
def start (ucommands : List CString) : HelpState :=
  loadUcommandHelp setup files
    { services := []
      cache := ⟨fun _ => ⟨[], none, none⟩, {}⟩
      added := 0
      ucommands := ucommands.map fun cmd => { cmd := cmd } }

/-- `add_service`, where the name is free; each handler is added once. The
array of the handler is sorted in place. -/
def addService (handler : HelpHandler) (w : HelpState) : HelpState :=
  let part : Part :=
    { service :=
        { handler := w.added
          id := strlcpy (setup.nickLen + 1) handler.id
          command := handler.command.map fun _ => .handler
          ucommand := handler.ucommand.map fun _ => .handler }
      cache :=
        { w.cache with
          handlers := Function.update w.cache.handlers w.added
            { handler with command := handler.command.map scmdSort } } }
  let part := loadServiceCommandHelp setup files handler.id
    (loadServiceHelp setup files part)
  { w with
    services := w.services ++ [part.service]
    cache := part.cache
    added := w.added + 1 }

/-- `find_service_id`: where the service is in the list. -/
def findServiceId (name : CString) (w : HelpState) : Option Nat :=
  w.services.findIdx? fun s => strcasecmp s.id name

def put (i : Nat) (part : Part) (w : HelpState) : HelpState :=
  { w with services := w.services.set i part.service, cache := part.cache }

/-- `merge_service`. -/
def mergeService (h : Nat) (serviceId : CString) (startup : Bool)
    (w : HelpState) : HelpState :=
  match w.findServiceId serviceId with
  | none => w
  | some i =>
      match w.services[i]? with
      | none => w
      | some s =>
          w.put i (mergeHandler setup files h startup ⟨s, w.cache⟩)

def initService (i : Nat) (serviceId : CString) (w : HelpState) : HelpState :=
  match w.services[i]? with
  | none => w
  | some s =>
      match w.findServiceId serviceId with
      | none => w
      | some _ =>
          let merged := w.mergeService setup files s.handler serviceId true
          { merged with services := merged.services.eraseIdx i }

def remerge (serviceId : CString) (w : HelpState) (h : Nat) : HelpState :=
  { w with cache := loadHandler setup files h w.cache }.mergeService setup
    files h serviceId false

/-- What `rehash_help` does for one service of the list. -/
def rehashService (w : HelpState) (i : Nat) : Except HelpStop HelpState :=
  match w.services[i]? with
  | none => .ok w
  | some s => do
      let part ← clearServiceHelp ⟨s, w.cache⟩
      let part : Part := { part with service := unmergeService part.service }
      let part := loadServiceCommandHelp setup files part.service.id
        (loadServiceHelp setup files part)
      .ok (part.service.mergedHandlerList.foldl
        (remerge setup files part.service.id) (w.put i part))

/-- `rehash_help`. -/
def rehashHelp (w : HelpState) : Except HelpStop HelpState := do
  let w ← (List.range w.services.length).foldlM (rehashService setup files) w
  let w ← w.clearUcommandHelp
  .ok (w.loadUcommandHelp setup files)

end HelpState

inductive HelpOp where
  | addService (files : Files) (handler : HelpHandler)
  | initService (files : Files) (i : Nat) (serviceId : CString)
  | rehashHelp (files : Files)

def HelpOp.step (setup : HelpSetup) (w : HelpState) :
    HelpOp → Except HelpStop HelpState
  | .addService files handler => .ok (w.addService setup files handler)
  | .initService files i serviceId =>
      .ok (w.initService setup files i serviceId)
  | .rehashHelp files => w.rehashHelp setup files

def Part.files (part : Part) : List Nat :=
  indexFiles (part.service.help.getD []) ++
    (tableFiles part.commands ++ tableFiles part.ucommands)

def HelpHandler.files (handler : HelpHandler) : List Nat :=
  tableFiles (handler.command.getD []) ++
    tableFiles (handler.ucommand.getD [])

namespace HelpState

def reachable (w : HelpState) : List Nat :=
  (w.services.flatMap fun s => Part.files ⟨s, w.cache⟩) ++
    (List.range w.added).flatMap (fun h => (w.cache.handlers h).files) ++
    tableFiles w.ucommands

structure Safe (w : HelpState) : Prop where
  live : ∀ file ∈ w.reachable, file ∉ w.cache.store.frees
  once : w.cache.store.frees.Nodup

end HelpState

end HelpCache

end RatboxServices
