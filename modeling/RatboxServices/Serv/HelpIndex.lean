import Mathlib.Algebra.GroupWithZero.Nat
import RatboxServices.Net.ServerCommand
import RatboxServices.Serv.CommandTable
import RatboxServices.Serv.ModeTable

namespace RatboxServices

open CString

/-! The index that a service answers to `HELP`, and the commands it may carry
out for the client that asks. -/

/-- `rb_strlcat` onto a string in a buffer of `size` bytes. -/
def CString.strlcat (size : Nat) (dest source : CString) : CString :=
  dest ++ source.take (size - 1 - dest.length)

/-- The lines of a `struct cachefile`. -/
abbrev Cachefile := List CString

/-- The part of `struct service` that the help is given from. -/
structure HelpService where
  flags : BitVec 64
  tables : ServiceTables
  help : Option (List (Option Cachefile))
  helpadmin : Option (List (Option Cachefile))

inductive HelpReply
  /-- `SVC_HELP_TOPICS` with the names of the commands. -/
  | topics (text : CString)
  /-- `SVC_HELP_UNAVAILABLE`. -/
  | unavailable
  /-- The lines of the index, and those for operators. -/
  | files (index admin : Option Cachefile)
  /-- A null pointer is followed. -/
  | fault
  deriving DecidableEq, Repr

def ServiceCommand.refuses (flags : ConfOper → BitVec 64)
    (command : ServiceCommand) (user : User) : Bool :=
  (command.operonly && !user.umode.has clientOper) ||
    (command.operflags != 0 &&
      match user.oper with
      | none => true
      | some oper => flags oper &&& command.operflags == 0)

/-- The test of `handle_service_help_index`. -/
def ServiceCommand.hidden (command : ServiceCommand) (user : User) : Bool :=
  command.refuses ConfOper.flags user

/-- The test of `handle_service`. -/
def ServiceCommand.noAccess (command : ServiceCommand) (user : User) : Bool :=
  command.refuses ConfOper.sflags user

namespace HelpService

/-- `lang_get_cachefile`, with the language of the account that the client has
logged in to. -/
def langGetCachefile (defaultLanguage : Nat) (language : Option Nat)
    (translations : List (Option Cachefile)) : Option Cachefile :=
  let own := match language with
    | some language => translations.getD language none
    | none => none
  own.or ((translations.getD defaultLanguage none).or
    (translations.getD 0 none))

def hasFile (defaultLanguage : Nat) (language : Option Nat) :
    Option (List (Option Cachefile)) → Bool
  | none => false
  | some translations =>
      (langGetCachefile defaultLanguage language translations).isSome

/-- The commands that `SCMD_WALK` goes over. -/
def table (service : HelpService) : List ServiceCommand :=
  ServiceTables.copied service.tables.command service.tables.commandSize

/-- The loop that fills `buf`. -/
def indexLoop (user : User) (buf : CString) : List ServiceCommand → CString
  | [] => buf
  | command :: rest =>
      if command.hidden user then indexLoop user buf rest
      else
        indexLoop user
          (strlcat State.bufSize (strlcat State.bufSize buf command.cmd) [' '])
          rest

def shortIndex (defaultLanguage : Nat) (service : HelpService) (user : User)
    (language : Option Nat) : Bool :=
  service.flags &&& Newconf.serviceShorthelp != 0 ||
    (!hasFile defaultLanguage language service.help &&
      (user.oper.isNone ||
        !hasFile defaultLanguage language service.helpadmin))

/-- `handle_service_help_index`. -/
def handleServiceHelpIndex (defaultLanguage : Nat) (service : HelpService)
    (user : User) (language : Option Nat) : HelpReply :=
  if service.shortIndex defaultLanguage user language then
    let buf := indexLoop user [] service.table
    if buf.isEmpty then .unavailable else .topics buf
  else
    match service.help, service.helpadmin with
    | some help, some helpadmin =>
        let admin := langGetCachefile defaultLanguage language helpadmin
        .files (langGetCachefile defaultLanguage language help)
          (if user.oper.isSome then admin else none)
    | _, _ => .fault

/-- The name of the command stands behind what the commands before it have
left in the reply. -/
def Lists (reply : HelpReply) (table : List ServiceCommand) (user : User)
    (i : Nat) (command : ServiceCommand) : Prop :=
  command.cmd ≠ [] ∧
    indexLoop user [] (table.take i) ++ command.cmd <+:
      indexLoop user [] (table.take (i + 1)) ∧
    ∃ text, reply = .topics text ∧
      indexLoop user [] (table.take (i + 1)) <+: text

def IndexExact (defaultLanguage : Nat) (service : HelpService) (user : User)
    (language : Option Nat) : Prop :=
  service.shortIndex defaultLanguage user language = true →
    ∀ i command, service.table[i]? = some command →
      (Lists (service.handleServiceHelpIndex defaultLanguage user language)
        service.table user i command ↔ command.noAccess user = false)

def width (user : User) (command : ServiceCommand) : Nat :=
  if command.hidden user then 0 else command.cmd.length + 1

def Fits (table : List ServiceCommand) (user : User) (i : Nat)
    (command : ServiceCommand) : Prop :=
  command.cmd ≠ [] ∧
    ((table.take i).map (width user)).sum + command.cmd.length < State.bufSize

def FlagsAgree (command : ServiceCommand) (user : User) : Prop :=
  (command.operonly = true → user.umode.has clientOper = true) →
    command.operflags ≠ 0 →
      ∀ oper ∈ user.oper, (oper.flags &&& command.operflags = 0 ↔
        oper.sflags &&& command.operflags = 0)

def entry (user : User) (command : ServiceCommand) : CString :=
  if command.hidden user then [] else command.cmd ++ [' ']

theorem strlcat_take (size : Nat) (text source : CString) :
    strlcat size (text.take (size - 1)) source =
      (text ++ source).take (size - 1) := by
  unfold strlcat
  rw [List.take_append, List.length_take]
  congr 2
  omega

theorem indexLoop_take (user : User) (table : List ServiceCommand)
    (text : CString) :
    indexLoop user (text.take (State.bufSize - 1)) table =
      (text ++ table.flatMap (entry user)).take (State.bufSize - 1) := by
  induction table generalizing text with
  | nil => simp [indexLoop]
  | cons command rest ih =>
      rw [indexLoop, List.flatMap_cons, ← List.append_assoc]
      split
      · rename_i hidden
        rw [ih, entry, if_pos hidden, List.append_nil]
      · rename_i shown
        rw [strlcat_take, strlcat_take, ih, entry, if_neg shown,
          List.append_assoc text]

theorem indexLoop_eq (user : User) (table : List ServiceCommand) :
    indexLoop user [] table =
      (table.flatMap (entry user)).take (State.bufSize - 1) :=
  indexLoop_take user table []

theorem length_entry (user : User) (command : ServiceCommand) :
    (entry user command).length = width user command := by
  unfold entry width
  split
  · rfl
  · rw [List.length_append]
    rfl

theorem length_flatMap_entry (user : User) (table : List ServiceCommand) :
    (table.flatMap (entry user)).length = (table.map (width user)).sum := by
  rw [List.length_flatMap]
  exact congrArg List.sum (List.map_congr_left fun command _ =>
    length_entry user command)

theorem take_prefix_take {short long : CString} (start : short <+: long)
    (count : Nat) : short.take count <+: long.take count := by
  obtain ⟨rest, rfl⟩ := start
  rw [List.take_append]
  exact List.prefix_append _ _

theorem indexLoop_prefix (user : User) (table : List ServiceCommand)
    (count : Nat) :
    indexLoop user [] (table.take count) <+: indexLoop user [] table := by
  rw [indexLoop_eq, indexLoop_eq]
  refine take_prefix_take ⟨(table.drop count).flatMap (entry user), ?_⟩ _
  rw [← List.flatMap_append, List.take_append_drop]

theorem prefix_iff {user : User} {table : List ServiceCommand} {i : Nat}
    {command : ServiceCommand} (here : table[i]? = some command)
    (named : command.cmd ≠ []) :
    indexLoop user [] (table.take i) ++ command.cmd <+:
        indexLoop user [] (table.take (i + 1)) ↔
      command.hidden user = false ∧
        ((table.take i).map (width user)).sum + command.cmd.length <
          State.bufSize := by
  have positive : 0 < command.cmd.length := List.length_pos_iff.mpr named
  have next : table.take (i + 1) = table.take i ++ [command] := by
    rw [List.take_add_one, here]
    rfl
  rw [indexLoop_eq, indexLoop_eq, next, List.flatMap_append,
    List.flatMap_singleton, ← length_flatMap_entry]
  generalize (table.take i).flatMap (entry user) = front
  constructor
  · intro listed
    have long := listed.length_le
    rw [List.length_append, List.length_take, List.length_take,
      List.length_append, length_entry, width] at long
    cases hidden : command.hidden user with
    | true =>
        rw [hidden, if_pos rfl] at long
        omega
    | false =>
        refine ⟨rfl, ?_⟩
        rw [hidden, if_neg Bool.false_ne_true] at long
        have size : State.bufSize = 512 := rfl
        omega
  · rintro ⟨shown, room⟩
    have size : State.bufSize = 512 := rfl
    have fits : (front ++ command.cmd).length ≤ State.bufSize - 1 := by
      rw [List.length_append]
      omega
    rw [entry, if_neg (by simp [shown]),
      List.take_of_length_le (by omega : front.length ≤ State.bufSize - 1),
      ← List.append_assoc]
    have start := take_prefix_take
      (List.prefix_append (front ++ command.cmd) [' ']) (State.bufSize - 1)
    rwa [List.take_of_length_le fits] at start

theorem lists_iff {defaultLanguage : Nat} {service : HelpService} {user : User}
    {language : Option Nat}
    (short : service.shortIndex defaultLanguage user language = true) {i : Nat}
    {command : ServiceCommand} (here : service.table[i]? = some command) :
    Lists (service.handleServiceHelpIndex defaultLanguage user language)
        service.table user i command ↔
      command.hidden user = false ∧ Fits service.table user i command := by
  constructor
  · rintro ⟨named, listed, _⟩
    obtain ⟨shown, room⟩ := (prefix_iff here named).mp listed
    exact ⟨shown, named, room⟩
  · rintro ⟨shown, named, room⟩
    have listed := (prefix_iff here named).mpr ⟨shown, room⟩
    have start := indexLoop_prefix user service.table (i + 1)
    have filled : indexLoop user [] service.table ≠ [] := by
      intro empty
      have nothing := (listed.trans start).length_le
      have positive : 0 < command.cmd.length := List.length_pos_iff.mpr named
      rw [empty, List.length_append, List.length_nil] at nothing
      omega
    refine ⟨named, listed, _, ?_, start⟩
    rw [handleServiceHelpIndex, if_pos short]
    simp [filled]

theorem hidden_iff_noAccess (command : ServiceCommand) (user : User) :
    (command.hidden user = false ↔ command.noAccess user = false) ↔
      FlagsAgree command user := by
  unfold ServiceCommand.hidden ServiceCommand.noAccess
    ServiceCommand.refuses FlagsAgree
  by_cases free : command.operflags = 0#64
  · simp [free]
  · cases command.operonly <;> cases user.umode.has clientOper <;>
      cases user.oper <;> simp [free, not_iff_not]

/-- The index is right if and only if every command the client may use has
room in it, and the words of flags agree on every command that has. -/
theorem indexExact_iff (defaultLanguage : Nat) (service : HelpService)
    (user : User) (language : Option Nat) :
    IndexExact defaultLanguage service user language ↔
      (service.shortIndex defaultLanguage user language = true →
        ∀ i command, service.table[i]? = some command →
          (command.noAccess user = false → Fits service.table user i command) ∧
          (Fits service.table user i command → FlagsAgree command user)) := by
  refine imp_congr_right fun short => forall_congr' fun i =>
    forall_congr' fun command => imp_congr_right fun here => ?_
  rw [lists_iff short here, ← hidden_iff_noAccess]
  tauto

/-- An operator with the right to use `OMODE`, which is a service flag. -/
def omodeService : HelpService where
  flags := Newconf.serviceShorthelp
  tables :=
    { id := "OPERSERV".toList
      command := some [{ cmd := "OMODE".toList
                         operflags := Newconf.confOperOsOmode }]
      commandSize := 64
      ucommand := none
      added :=
        { id := [], name := [], command := none, commandSize := 0
          ucommand := none, sized := ServiceHandler.sized_none
          ended := ServiceHandler.ended_none } }
  help := none
  helpadmin := none

def omodeOper : User where
  oper := some
    { name := "oper".toList, pass := [], flags := 0
      sflags := Newconf.confOperOsOmode }

/-- The operator may use the command and is told that there is no help. -/
theorem not_indexExact_omode :
    ¬IndexExact 0 omodeService omodeOper none := by
  intro exactly
  have silent : omodeService.handleServiceHelpIndex 0 omodeOper none =
      .unavailable := by decide
  obtain ⟨_, _, text, reply, _⟩ := (exactly rfl 0 _ rfl).mpr (by decide)
  rw [silent] at reply
  cases reply

end HelpService

end RatboxServices
