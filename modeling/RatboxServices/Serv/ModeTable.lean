import RatboxServices.Net.Link

namespace RatboxServices

open CString

/-! The tables of flag names that `newconf.c` keeps, and how the values of a
configuration line are looked up in them. -/

/-- `struct mode_table`. A null pointer is no name. -/
structure ModeEntry where
  name : Option CString
  mode : BitVec 64
  deriving DecidableEq, Repr

/-- A table as it is written down in the source: the entries before the
terminator, every one with a name. -/
structure FlagTable where
  entries : List (CString × BitVec 64)
  named : ∀ entry ∈ entries, entry.1 ≠ []

namespace FlagTable

/-- The `"\0"` at the end of every table: a name without characters, which is
not a null pointer. -/
def terminator : ModeEntry := ⟨some [], 0⟩

def memory (tab : FlagTable) (behind : List ModeEntry) : List ModeEntry :=
  tab.entries.map (fun entry => ⟨some entry.1, entry.2⟩) ++ terminator :: behind

def Names (tab : FlagTable) (value : CString) (mode : BitVec 64) : Prop :=
  tab.entries.find? (fun entry => entry.1 == value) = some (value, mode)

def Lists (tab : FlagTable) (value : CString) : Prop :=
  ∃ mode, (value, mode) ∈ tab.entries

end FlagTable

namespace Newconf

def confOperDcc : BitVec 64 := 0x20
def confOperAdmin : BitVec 64 := 0x100
def confOperRoute : BitVec 64 := 0x200

def confOperUsRegister : BitVec 64 := 0x1
def confOperUsSuspend : BitVec 64 := 0x2
def confOperUsDrop : BitVec 64 := 0x4
def confOperUsList : BitVec 64 := 0x8
def confOperUsInfo : BitVec 64 := 0x10
def confOperUsSetpass : BitVec 64 := 0x20
def confOperUsSetemail : BitVec 64 := 0x40

def confOperUsOper : BitVec 64 := confOperUsList ||| confOperUsInfo

def confOperUsAdmin : BitVec 64 :=
  confOperUsRegister ||| confOperUsSuspend ||| confOperUsDrop |||
    confOperUsSetpass ||| confOperUsSetemail ||| confOperUsOper

def confOperCsRegister : BitVec 64 := 0x100
def confOperCsSuspend : BitVec 64 := 0x200
def confOperCsDrop : BitVec 64 := 0x400
def confOperCsList : BitVec 64 := 0x800
def confOperCsInfo : BitVec 64 := 0x1000

def confOperCsOper : BitVec 64 := confOperCsList ||| confOperCsInfo

def confOperCsAdmin : BitVec 64 :=
  confOperCsOper ||| confOperCsRegister ||| confOperCsSuspend |||
    confOperCsDrop

def confOperNsDrop : BitVec 64 := 0x2000

def confOperOsChannel : BitVec 64 := 0x4000
def confOperOsTakeover : BitVec 64 := 0x8000
def confOperOsOmode : BitVec 64 := 0x10000
def confOperOsMaintain : BitVec 64 := 0x20000
def confOperOsIgnore : BitVec 64 := 0x40000

def confOperOsAdmin : BitVec 64 :=
  confOperOsChannel ||| confOperOsTakeover ||| confOperOsOmode

def confOperObChannel : BitVec 64 := 0x100000
def confOperGlobNetmsg : BitVec 64 := 0x200000
def confOperGlobWelcome : BitVec 64 := 0x400000
def confOperJsJupe : BitVec 64 := 0x800000

def confOperBanKline : BitVec 64 := 0x1000000
def confOperBanXline : BitVec 64 := 0x2000000
def confOperBanResv : BitVec 64 := 0x4000000
def confOperBanPerm : BitVec 64 := 0x8000000
def confOperBanRemove : BitVec 64 := 0x10000000
def confOperBanSync : BitVec 64 := 0x20000000
def confOperBanRegexp : BitVec 64 := 0x40000000
def confOperBanNomax : BitVec 64 := 0x80000

def confOperCfInfo : BitVec 64 := 0x100000000
def confOperCfNotes : BitVec 64 := 0x200000000
def confOperCfBlock : BitVec 64 := 0x400000000
def confOperCfChanfix : BitVec 64 := 0x800000000

def confOperCfAdmin : BitVec 64 :=
  confOperCfInfo ||| confOperCfNotes ||| confOperCfBlock ||| confOperCfChanfix

def serviceOpered : BitVec 64 := 0x1
def serviceMsgself : BitVec 64 := 0x2
def serviceDisabled : BitVec 64 := 0x4
def serviceShorthelp : BitVec 64 := 0x8
def serviceStealth : BitVec 64 := 0x10
def serviceLoginhelp : BitVec 64 := 0x20
def serviceWallopadm : BitVec 64 := 0x40
def serviceShortcut : BitVec 64 := 0x80

def privsTable : FlagTable where
  entries := [("admin".toList, confOperAdmin), ("dcc".toList, confOperDcc),
    ("route".toList, confOperRoute)]
  named := by decide

def userservTable : FlagTable where
  entries := [("admin".toList, confOperUsAdmin),
    ("oper".toList, confOperUsOper), ("register".toList, confOperUsRegister),
    ("suspend".toList, confOperUsSuspend), ("drop".toList, confOperUsDrop),
    ("list".toList, confOperUsList), ("info".toList, confOperUsInfo),
    ("setpass".toList, confOperUsSetpass),
    ("setemail".toList, confOperUsSetemail)]
  named := by decide

def chanservTable : FlagTable where
  entries := [("admin".toList, confOperCsAdmin),
    ("oper".toList, confOperCsOper), ("register".toList, confOperCsRegister),
    ("suspend".toList, confOperCsSuspend), ("drop".toList, confOperCsDrop),
    ("list".toList, confOperCsList), ("info".toList, confOperCsInfo)]
  named := by decide

def nickservTable : FlagTable where
  entries := [("drop".toList, confOperNsDrop)]
  named := by decide

def operservTable : FlagTable where
  entries := [("maintain".toList, confOperOsMaintain),
    ("ignore".toList, confOperOsIgnore), ("admin".toList, confOperOsAdmin),
    ("channel".toList, confOperOsChannel),
    ("takeover".toList, confOperOsTakeover), ("osmode".toList, confOperOsOmode)]
  named := by decide

def operbotTable : FlagTable where
  entries := [("channel".toList, confOperObChannel)]
  named := by decide

def globalTable : FlagTable where
  entries := [("netmsg".toList, confOperGlobNetmsg),
    ("welcome".toList, confOperGlobWelcome)]
  named := by decide

def jupeservTable : FlagTable where
  entries := [("jupe".toList, confOperJsJupe)]
  named := by decide

def banservTable : FlagTable where
  entries := [("kline".toList, confOperBanKline),
    ("xline".toList, confOperBanXline), ("resv".toList, confOperBanResv),
    ("regexp".toList, confOperBanRegexp), ("perm".toList, confOperBanPerm),
    ("remove".toList, confOperBanRemove), ("sync".toList, confOperBanSync),
    ("nomax".toList, confOperBanNomax)]
  named := by decide

def chanfixTable : FlagTable where
  entries := [("info".toList, confOperCfInfo),
    ("notes".toList, confOperCfNotes), ("block".toList, confOperCfBlock),
    ("chanfix".toList, confOperCfChanfix),
    ("admin".toList, confOperCfAdmin)]
  named := by decide

def serviceFlagsTable : FlagTable where
  entries := [("opered".toList, serviceOpered),
    ("msg_self".toList, serviceMsgself), ("disabled".toList, serviceDisabled),
    ("short_help".toList, serviceShorthelp), ("stealth".toList, serviceStealth),
    ("login_help".toList, serviceLoginhelp),
    ("wallop_adm".toList, serviceWallopadm),
    ("require_shortcut".toList, serviceShortcut)]
  named := by decide

/-- What `find_umode` comes to. -/
structure Umode where
  /-- What it returns, unless it reads where nothing can be read. -/
  mode : Option (BitVec 64)
  /-- How many entries it has read, the last of them in vain after a fault. -/
  reads : Nat
  deriving DecidableEq, Repr

/-- `find_umode`, which stops at a null pointer. -/
def findUmode (name : CString) : List ModeEntry → Umode
  | [] => ⟨none, 1⟩
  | entry :: rest =>
      match entry.name with
      | none => ⟨some 0, 1⟩
      | some text =>
          if text = name then ⟨some entry.mode, 1⟩
          else
            let found := findUmode name rest
            ⟨found.mode, found.reads + 1⟩

/-- `conf_parm_t`: the type with its flags, and the member of the union that
holds a string. -/
structure ConfParm where
  type : BitVec 32
  string : CString

/-- `(args->type & CF_MTYPE) == CF_STRING` -/
def ConfParm.isString (arg : ConfParm) : Bool :=
  arg.type &&& 0xFF == 0x03

/-- The line `conf_report_error` writes. -/
def confReportError (text : CString) : CString :=
  strlcpy State.bufSize text

/-- `set_modes_from_table`, with the reports it makes. There is no result when
a read faults. -/
def setModesFromTable (whatis : CString) (tab : List ModeEntry) :
    BitVec 64 → List ConfParm → Option (BitVec 64 × List CString)
  | modes, [] => some (modes, [])
  | modes, arg :: args =>
      if arg.isString then
        match (findUmode arg.string tab).mode with
        | none => none
        | some mode =>
            if mode = 0 then
              (setModesFromTable whatis tab modes args).map
                fun (after, reports) =>
                  (after, confReportError ("Warning -- unknown ".toList ++
                    whatis ++ ' ' :: arg.string ++ ".".toList) :: reports)
            else setModesFromTable whatis tab (modes ||| mode) args
      else
        (setModesFromTable whatis tab modes args).map fun (after, reports) =>
          (after, confReportError ("Warning -- ".toList ++ whatis ++
            " is not a string; ignoring.".toList) :: reports)

def Granted (tab : FlagTable) (args : List ConfParm) (i : Nat) : Prop :=
  ∃ arg ∈ args, arg.isString = true ∧
    ∃ mode, tab.Names arg.string mode ∧ mode.getLsbD i = true

/-- Exactly the bits of the known values are added, and no lookup reads behind
the terminator. -/
structure SetsExactly (whatis : CString) (tab : FlagTable)
    (behind : List ModeEntry) (modes : BitVec 64) (args : List ConfParm) :
    Prop where
  bits : ∃ after reports,
    setModesFromTable whatis (tab.memory behind) modes args =
      some (after, reports) ∧
    ∀ i, after.getLsbD i = true ↔ modes.getLsbD i = true ∨ Granted tab args i
  inside : ∀ arg ∈ args, arg.isString = true →
    (findUmode arg.string (tab.memory behind)).reads ≤ tab.entries.length + 1

/-- The value is the empty one, which is the name of the terminator, or the
table has it. -/
def Known (tab : FlagTable) (arg : ConfParm) : Prop :=
  arg.isString = true → arg.string = [] ∨ tab.Lists arg.string

theorem findUmode_reads_pos (name : CString) (tab : List ModeEntry) :
    1 ≤ (findUmode name tab).reads := by
  cases tab with
  | nil => exact Nat.le_refl 1
  | cons entry rest =>
      unfold findUmode
      split
      · exact Nat.le_refl 1
      · split
        · exact Nat.le_refl 1
        · exact Nat.le_add_left 1 _

theorem findUmode_of_find {name : CString} {entry : CString × BitVec 64}
    {entries : List (CString × BitVec 64)} {rest : List ModeEntry}
    (found : entries.find? (fun entry => entry.1 == name) = some entry) :
    (findUmode name
      (entries.map (fun entry => ⟨some entry.1, entry.2⟩) ++ rest)).mode =
        some entry.2 ∧
    (findUmode name
      (entries.map (fun entry => ⟨some entry.1, entry.2⟩) ++ rest)).reads ≤
        entries.length := by
  induction entries with
  | nil => simp at found
  | cons head entries ih =>
      rw [List.find?_cons] at found
      by_cases same : head.1 = name
      · rw [show (head.1 == name) = true from beq_iff_eq.mpr same] at found
        cases found
        simp [findUmode, same]
      · rw [show (head.1 == name) = false from beq_false_of_ne same] at found
        obtain ⟨mode, reads⟩ := ih found
        rw [List.map_cons, List.cons_append, findUmode]
        simp only [if_neg same]
        exact ⟨mode, Nat.succ_le_succ reads⟩

theorem findUmode_of_find_none {name : CString}
    {entries : List (CString × BitVec 64)} {rest : List ModeEntry}
    (missing : entries.find? (fun entry => entry.1 == name) = none) :
    findUmode name
      (entries.map (fun entry => ⟨some entry.1, entry.2⟩) ++ rest) =
        ⟨(findUmode name rest).mode,
          (findUmode name rest).reads + entries.length⟩ := by
  induction entries with
  | nil => rfl
  | cons head entries ih =>
      rw [List.find?_cons] at missing
      by_cases same : head.1 = name
      · rw [show (head.1 == name) = true from beq_iff_eq.mpr same] at missing
        cases missing
      · rw [show (head.1 == name) = false from beq_false_of_ne same] at missing
        rw [List.map_cons, List.cons_append, findUmode]
        simp only [if_neg same, ih missing, List.length_cons, Nat.add_assoc]

end Newconf

namespace FlagTable

variable {tab : FlagTable} {value : CString}

theorem not_names_nil (tab : FlagTable) (mode : BitVec 64) :
    ¬tab.Names [] mode := by
  intro names
  exact tab.named _ (List.mem_of_find?_eq_some names) rfl

theorem Lists.names (listed : tab.Lists value) :
    ∃ mode, tab.Names value mode := by
  obtain ⟨mode, listed⟩ := listed
  cases found : tab.entries.find? (fun entry => entry.1 == value) with
  | none =>
      have other := List.find?_eq_none.mp found _ listed
      simp at other
  | some entry =>
      have same : entry.1 = value := by
        simpa using List.find?_some found
      refine ⟨entry.2, ?_⟩
      rw [Names, found, ← same]

theorem Names.unique {mode other : BitVec 64} (one : tab.Names value mode)
    (two : tab.Names value other) : mode = other := by
  have same := one.symm.trans two
  simpa using same

theorem find?_eq_none (missing : ¬tab.Lists value) :
    tab.entries.find? (fun entry => entry.1 == value) = none := by
  refine List.find?_eq_none.mpr ?_
  intro entry listed same
  have same : entry.1 = value := by simpa using same
  exact missing ⟨entry.2, same ▸ listed⟩

end FlagTable

namespace Newconf

variable {tab : FlagTable} {behind : List ModeEntry}

theorem findUmode_names {value : CString} {mode : BitVec 64}
    (names : tab.Names value mode) (behind : List ModeEntry) :
    (findUmode value (tab.memory behind)).mode = some mode ∧
    (findUmode value (tab.memory behind)).reads ≤ tab.entries.length :=
  findUmode_of_find names

theorem findUmode_nil (tab : FlagTable) (behind : List ModeEntry) :
    findUmode [] (tab.memory behind) = ⟨some 0, tab.entries.length + 1⟩ := by
  have missing : ¬tab.Lists [] := by
    intro listed
    obtain ⟨mode, names⟩ := listed.names
    exact tab.not_names_nil mode names
  rw [FlagTable.memory,
    findUmode_of_find_none (FlagTable.find?_eq_none missing)]
  simp [findUmode, FlagTable.terminator, Nat.add_comm]

theorem findUmode_unknown {value : CString} (filled : value ≠ [])
    (missing : ¬tab.Lists value) (behind : List ModeEntry) :
    findUmode value (tab.memory behind) =
      ⟨(findUmode value behind).mode,
        (findUmode value behind).reads + 1 + tab.entries.length⟩ := by
  rw [FlagTable.memory,
    findUmode_of_find_none (FlagTable.find?_eq_none missing)]
  simp [findUmode, FlagTable.terminator, filled.symm]

theorem reads_le_iff (tab : FlagTable) (behind : List ModeEntry)
    (value : CString) :
    (findUmode value (tab.memory behind)).reads ≤ tab.entries.length + 1 ↔
      value = [] ∨ tab.Lists value := by
  constructor
  · intro inside
    by_contra unknown
    obtain ⟨filled, missing⟩ := not_or.mp unknown
    rw [findUmode_unknown filled missing] at inside
    dsimp only at inside
    have more := findUmode_reads_pos value behind
    omega
  · rintro (rfl | listed)
    · exact Nat.le_of_eq (congrArg Umode.reads (findUmode_nil tab behind))
    · obtain ⟨mode, names⟩ := listed.names
      exact Nat.le_succ_of_le (findUmode_names names behind).2

theorem granted_cons {arg : ConfParm} {args : List ConfParm} {i : Nat} :
    Granted tab (arg :: args) i ↔
      (arg.isString = true ∧
        ∃ mode, tab.Names arg.string mode ∧ mode.getLsbD i = true) ∨
      Granted tab args i := by
  simp [Granted]

theorem setModesFromTable_known (whatis : CString) (behind : List ModeEntry)
    {args : List ConfParm} (known : ∀ arg ∈ args, Known tab arg)
    (modes : BitVec 64) :
    ∃ after reports,
      setModesFromTable whatis (tab.memory behind) modes args =
        some (after, reports) ∧
      ∀ i, after.getLsbD i = true ↔
        modes.getLsbD i = true ∨ Granted tab args i := by
  induction args generalizing modes with
  | nil => exact ⟨modes, [], rfl, fun i => by simp [Granted]⟩
  | cons arg args ih =>
      have others : ∀ arg ∈ args, Known tab arg := fun other listed =>
        known other (List.mem_cons_of_mem _ listed)
      by_cases string : arg.isString = true
      · rcases known arg (List.mem_cons_self ..) string with empty | listed
        · obtain ⟨after, reports, set, bits⟩ := ih others modes
          rw [setModesFromTable, if_pos string, empty, findUmode_nil]
          simp only [if_pos, set, Option.map_some]
          refine ⟨_, _, rfl, fun i => ?_⟩
          rw [bits i, granted_cons, empty]
          have nothing : ¬∃ mode, tab.Names [] mode ∧ mode.getLsbD i = true :=
            fun ⟨mode, names, _⟩ => tab.not_names_nil mode names
          simp [nothing]
        · obtain ⟨mode, names⟩ := listed.names
          have own : ∀ i, (∃ other, tab.Names arg.string other ∧
              other.getLsbD i = true) ↔ mode.getLsbD i = true := by
            intro i
            constructor
            · rintro ⟨other, also, bit⟩
              rwa [names.unique also]
            · intro bit
              exact ⟨mode, names, bit⟩
          rw [setModesFromTable, if_pos string,
            (findUmode_names names behind).1]
          by_cases zero : mode = 0
          · obtain ⟨after, reports, set, bits⟩ := ih others modes
            simp only [if_pos zero, set, Option.map_some]
            refine ⟨_, _, rfl, fun i => ?_⟩
            rw [bits i, granted_cons, own i, zero]
            simp
          · obtain ⟨after, reports, set, bits⟩ := ih others (modes ||| mode)
            simp only [if_neg zero, set]
            refine ⟨_, _, rfl, fun i => ?_⟩
            rw [bits i, granted_cons, own i, BitVec.getLsbD_or]
            simp [string, or_assoc]
      · obtain ⟨after, reports, set, bits⟩ := ih others modes
        rw [setModesFromTable, if_neg string, set, Option.map_some]
        refine ⟨_, _, rfl, fun i => ?_⟩
        rw [bits i, granted_cons]
        simp [string]

/-- The right bits are set and the table is not left if and only if the table
has every string among the values that is not empty. -/
theorem setsExactly_iff (whatis : CString) (tab : FlagTable)
    (behind : List ModeEntry) (modes : BitVec 64) (args : List ConfParm) :
    SetsExactly whatis tab behind modes args ↔ ∀ arg ∈ args, Known tab arg := by
  constructor
  · intro exactly arg listed string
    exact (reads_le_iff tab behind arg.string).mp
      (exactly.inside arg listed string)
  · intro known
    refine ⟨setModesFromTable_known whatis behind known modes, ?_⟩
    intro arg listed string
    exact (reads_le_iff tab behind arg.string).mpr (known arg listed string)

/-- What a value of the wrong table sets: `register` among the flags of an
operator gives the right to register users, as `userserv_table` comes next. -/
theorem not_setsExactly_register :
    setModesFromTable "flag".toList
        (privsTable.memory (userservTable.memory [])) 0
        [⟨0x03, "register".toList⟩] = some (confOperUsRegister, []) ∧
    ¬SetsExactly "flag".toList privsTable (userservTable.memory []) 0
        [⟨0x03, "register".toList⟩] := by
  refine ⟨by decide +kernel, ?_⟩
  intro exactly
  have inside := exactly.inside _ (List.mem_singleton_self _) (by decide)
  revert inside
  decide +kernel

end Newconf

end RatboxServices
