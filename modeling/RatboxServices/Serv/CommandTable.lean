import RatboxServices.Irc.CString
import RatboxServices.Lib.BSearch
import RatboxServices.Lib.Run
import Mathlib.Data.Char

namespace RatboxServices

open CString

/-! The command tables of the services in `service.c`: how they are sorted,
merged into each other and searched. The help files are left out. -/

inductive CommandFunc
  | sUserLogin
  | other (index : Nat)
  deriving DecidableEq, Repr

/-- `struct service_command`. -/
structure ServiceCommand where
  cmd : CString
  func : Option CommandFunc := none
  minparc : Int := 0
  helpPenalty : Int := 0
  userreg : Bool := false
  operonly : Bool := false
  operflags : BitVec 64 := 0
  deriving DecidableEq, Repr

/-- `struct ucommand_handler`, an entry of a table of DCC commands. -/
structure UcommandEntry where
  cmd : Option CString
  func : Option CommandFunc := none
  flags : BitVec 32 := 0
  sflags : BitVec 32 := 0
  minpara : Int := 0
  deriving DecidableEq, Repr

def UcommandEntry.ends (ucommand : UcommandEntry) : Bool :=
  ucommand.cmd == none || ucommand.cmd == some []

def ucommandEntries (table : Option (List UcommandEntry)) :
    List UcommandEntry :=
  (table.getD []).takeWhile fun ucommand => !ucommand.ends

/-- `sizeof(struct service_command)` -/
def commandBytes : Nat := 64

/-- `struct service_handler`. The size is that of the array, and a table of DCC
commands has an end. -/
structure ServiceHandler where
  id : CString
  name : CString
  command : Option (List ServiceCommand)
  commandSize : Nat
  ucommand : Option (List UcommandEntry)
  sized : commandSize = commandBytes * (command.getD []).length
  ended : ∀ table ∈ ucommand, ∃ last ∈ table, last.ends = true

theorem ServiceHandler.sized_none :
    0 = commandBytes * ((none : Option (List ServiceCommand)).getD []).length :=
  rfl

theorem ServiceHandler.ended_none :
    ∀ table ∈ (none : Option (List UcommandEntry)),
      ∃ last ∈ table, last.ends = true :=
  fun table listed => absurd listed (Option.not_mem_none table)

def ServiceHandler.commands (handler : ServiceHandler) : List ServiceCommand :=
  handler.command.getD []

/-- What `struct service` keeps of the commands. -/
structure ServiceTables where
  id : CString
  command : Option (List ServiceCommand)
  commandSize : Nat
  ucommand : Option (List UcommandEntry)
  origCommand : Option (List ServiceCommand) := none
  origCommandSize : Nat := 0
  origUcommand : Option (List UcommandEntry) := none
  mergedHandlerList : List ServiceHandler := []
  /-- The handler the service was added with, which the source does not keep. -/
  added : ServiceHandler

namespace ServiceTables

/-- The first bytes of a table, as `memcpy` takes them. -/
def copied (table : Option (List ServiceCommand)) (bytes : Nat) :
    List ServiceCommand :=
  (table.getD []).take (bytes / commandBytes)

def nameKey (command : ServiceCommand) : List Char :=
  command.cmd.map asciiLower

/-- `qsort` with `scmd_sort`. -/
def scmdSort (table : List ServiceCommand) : List ServiceCommand :=
  BSearch.sort nameKey table

/-- `bsearch` with `scmd_compare`. -/
def findCommand (s : ServiceTables) (name : CString) : Option ServiceCommand :=
  BSearch.search (BSearch.compareKey nameKey (name.map asciiLower))
    (copied s.command s.commandSize)

def mergedUcommand (s : ServiceTables) (table : List UcommandEntry) :
    List UcommandEntry :=
  ucommandEntries s.ucommand ++ ucommandEntries (some table) ++
    [⟨none, none, 0, 0, 0⟩]

/-- `merge_service` on the service it has found. What was there before the
first merge is kept. -/
def merge (handler : ServiceHandler) (startup : Bool) (s : ServiceTables) :
    ServiceTables :=
  { s with
    mergedHandlerList :=
      if startup then s.mergedHandlerList ++ [handler]
      else s.mergedHandlerList
    origCommand := if s.origCommand.isNone then s.command else s.origCommand
    origCommandSize :=
      if s.origCommand.isNone then s.commandSize else s.origCommandSize
    command := some (scmdSort (copied s.command s.commandSize ++
      copied handler.command handler.commandSize))
    commandSize := s.commandSize + handler.commandSize
    origUcommand :=
      match handler.ucommand with
      | none => s.origUcommand
      | some _ => if s.origUcommand.isNone then s.ucommand else s.origUcommand
    ucommand :=
      match handler.ucommand with
      | none => s.ucommand
      | some table => some (s.mergedUcommand table) }

/-- `unmerge_service`. -/
def unmerge (s : ServiceTables) : ServiceTables :=
  match s.origCommand with
  | none => s
  | some command =>
      { s with
        command := some command
        commandSize := s.origCommandSize
        ucommand :=
          if s.origUcommand.isSome then s.origUcommand else s.ucommand
        origCommand := none
        origCommandSize := 0
        origUcommand := none }

end ServiceTables

inductive NameHolder
  | service
  | server
  | user (tsinfo : Int)

inductive TableStop
  /-- A pointer is read that was never set. -/
  | uninitialised
  /-- `die`. -/
  | died
  deriving DecidableEq, Repr

/-- `service_list`. -/
abbrev ServiceList := List ServiceTables

namespace ServiceList

/-- `add_service`, when `find_client` finds `holder` under the name. The array
of the handler is sorted in place; what is in it stays the same. -/
def addService (nickLen : Nat) (holder : Option NameHolder)
    (handler : ServiceHandler) (list : ServiceList) :
    Except TableStop ServiceList :=
  if '.' ∈ handler.name then .error .uninitialised
  else
    let added : ServiceTables :=
      { id := strlcpy (nickLen + 1) handler.id
        command := handler.command.map ServiceTables.scmdSort
        commandSize := handler.commandSize
        ucommand := handler.ucommand
        added := handler }
    match holder with
    | some .service | some .server => .ok list
    | some (.user tsinfo) =>
        if tsinfo ≤ 1 then .error .died else .ok (list ++ [added])
    | none => .ok (list ++ [added])

/-- `find_service_id`: where the service is in the list. -/
def findServiceId (name : CString) (list : ServiceList) : Option Nat :=
  list.findIdx? fun s => strcasecmp s.id name

/-- `merge_service`. -/
def mergeService (handler : ServiceHandler) (serviceId : CString)
    (startup : Bool) (list : ServiceList) : ServiceList :=
  match list.findServiceId serviceId with
  | none => list
  | some i => list.modify i (ServiceTables.merge handler startup)

/-- What `rehash_help` does for one service of the list. -/
def rehashService (list : ServiceList) (i : Nat) : ServiceList :=
  let list : ServiceList := list.modify i ServiceTables.unmerge
  match list[i]? with
  | none => list
  | some s =>
      s.mergedHandlerList.foldl (fun list handler =>
        mergeService handler s.id false list) list

/-- `rehash_help`. -/
def rehashHelp (list : ServiceList) : ServiceList :=
  (List.range list.length).foldl rehashService list

end ServiceList

/-- What happens to the tables. A service that is disabled once it is merged
into another one is taken out of the list. -/
inductive TableOp
  | addService (holder : Option NameHolder) (handler : ServiceHandler)
  | mergeService (handler : ServiceHandler) (serviceId : CString)
  | rehashHelp
  | unlink (i : Nat)

def TableOp.step (nickLen : Nat) (list : ServiceList) :
    TableOp → Except TableStop ServiceList
  | .addService holder handler => list.addService nickLen holder handler
  | .mergeService handler serviceId =>
      .ok (list.mergeService handler serviceId true)
  | .rehashHelp => .ok list.rehashHelp
  | .unlink i => .ok (list.eraseIdx i)

namespace ServiceTables

def commands (s : ServiceTables) : List ServiceCommand :=
  s.added.commands ++ s.mergedHandlerList.flatMap ServiceHandler.commands

/-- The array is sorted, it has the commands of all tables, and a command is
found exactly if one of the tables has it. -/
structure Correct (s : ServiceTables) : Prop where
  sorted : BSearch.Sorted nameKey (copied s.command s.commandSize)
  perm : (copied s.command s.commandSize).Perm s.commands
  whole : s.commandSize = commandBytes * s.commands.length
  found : ∀ name, (s.findCommand name).isSome = true ↔
    ∃ command ∈ s.commands, strcasecmp command.cmd name = true

structure SameSets (before after : ServiceTables) : Prop where
  commands : ∀ command, command ∈ copied after.command after.commandSize ↔
    command ∈ copied before.command before.commandSize
  ucommands : ∀ ucommand, ucommand ∈ ucommandEntries after.ucommand ↔
    ucommand ∈ ucommandEntries before.ucommand

/-- A service without a command table of its own has commands from the first
handler merged into it. The null pointer kept for its table says that nothing
was merged. -/
def Unmarked (added : ServiceHandler) (merged : List ServiceHandler) : Prop :=
  added.command = none ∧ ∃ first ∈ merged.head?, first.commands ≠ []

end ServiceTables

end RatboxServices
