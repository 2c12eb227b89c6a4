import RatboxServices.Db.Exec
import RatboxServices.Serv.OperBans

namespace RatboxServices

open CString

namespace OperBan

/-! What `sync_bans` sends against what it is for. -/

/-- The low byte of the time, which is what `%c` prints where a `long` is passed
as an `int` is. -/
def lowByte (now : Nat) : Char :=
  Char.ofNat (now % 256)

def isCurrent (now : Nat) (letter : Option Char) (row : OperBan) : Bool :=
  !row.remove && (row.hold == 0 || decide ((now : Int) < row.hold)) &&
    ofLetter letter row

def isRemoved (now : Nat) (letter : Option Char) (row : OperBan) : Bool :=
  row.remove && decide ((now : Int) < row.hold) && ofLetter letter row

def remaining (now : Nat) (row : OperBan) : Int :=
  if row.hold = 0 then 0 else row.hold - now

def wanted (conf : BanServConf) (now : Nat) (target : CString)
    (letter : Option Char) (operbans : List OperBan) : List BanLine :=
  ((operbans.filter (isCurrent now letter)).flatMap fun row =>
      pushBan conf target row.type row.mask row.reason (remaining now row)) ++
    (operbans.filter (isRemoved now letter)).flatMap fun row =>
      pushUnban target row.type row.mask

def Shows (letter : Char) (row : OperBan) : Prop :=
  row.type.letter = letter ∧ sendable row.type row.mask = true

def Harmless (now : Nat) (letter : Option Char) (shown : Char)
    (operbans : List OperBan) : Prop :=
  ∀ sought ∈ letter,
    if shown ∈ ['\'', '\x00'] then
      ∀ row ∈ operbans, Shows sought row →
        ¬(row.hold = 0 ∧ row.remove = false) ∧
          ¬((now : Int) < row.hold ∧ row.remove = true)
    else
      shown = sought ∨
        ∀ row ∈ operbans, row.hold = 0 → row.remove = false →
          ¬Shows sought row ∧ ¬Shows shown row

instance (letter : Char) (row : OperBan) : Decidable (Shows letter row) :=
  inferInstanceAs (Decidable (_ ∧ _))

variable {conf : BanServConf} {now : Nat} {target : CString}
  {letter : Option Char} {shown : Char} {operbans : List OperBan}

def permanentLines (conf : BanServConf) (target : CString)
    (letter : Option Char) (operbans : List OperBan) : List BanLine :=
  (operbans.filter fun row =>
      row.hold == 0 && !row.remove && ofLetter letter row).flatMap fun row =>
    pushBan conf target row.type row.mask row.reason 0

def temporaryLines (conf : BanServConf) (now : Nat) (target : CString)
    (letter : Option Char) (operbans : List OperBan) : List BanLine :=
  (operbans.filter fun row =>
      decide ((now : Int) < row.hold) && !row.remove &&
        ofLetter letter row).flatMap fun row =>
    pushBan conf target row.type row.mask row.reason (row.hold - now)

def removedLines (now : Nat) (target : CString) (letter : Option Char)
    (operbans : List OperBan) : List BanLine :=
  (operbans.filter (isRemoved now letter)).flatMap fun row =>
    pushUnban target row.type row.mask

theorem syncBans_eq :
    syncBans conf now target letter shown operbans =
      temporaryLines conf now target letter operbans ++
        if letter.isSome ∧ shown ∈ ['\'', '\x00'] then []
        else
          permanentLines conf target (letter.map fun _ => shown) operbans ++
            removedLines now target letter operbans := by
  have removed : (operbans.filter fun row =>
      decide ((now : Int) < row.hold) && row.remove && ofLetter letter row) =
        operbans.filter (isRemoved now letter) := by
    refine List.filter_congr fun row _ => ?_
    rw [isRemoved, Bool.and_comm row.remove]
  unfold syncBans
  dsimp only
  rw [removed]
  rfl

theorem wanted_perm :
    (wanted conf now target letter operbans).Perm
      (temporaryLines conf now target letter operbans ++
        (permanentLines conf target letter operbans ++
          removedLines now target letter operbans)) := by
  rw [← List.append_assoc]
  refine List.Perm.append_right _ ?_
  have split := (List.filter_append_perm
    (fun row : OperBan => decide ((now : Int) < row.hold))
    (operbans.filter (isCurrent now letter))).symm
  have lines := split.flatMap_right fun row =>
    pushBan conf target row.type row.mask row.reason (remaining now row)
  rw [List.flatMap_append, List.filter_filter, List.filter_filter] at lines
  have temporary : (operbans.filter fun row =>
      decide ((now : Int) < row.hold) && isCurrent now letter row) =
        operbans.filter fun row =>
          decide ((now : Int) < row.hold) && !row.remove &&
            ofLetter letter row := by
    refine List.filter_congr fun row _ => ?_
    by_cases future : (now : Int) < row.hold
    · simp [isCurrent, future]
    · simp [future]
  have permanent : (operbans.filter fun row =>
      (!decide ((now : Int) < row.hold)) && isCurrent now letter row) =
        operbans.filter fun row =>
          row.hold == 0 && !row.remove && ofLetter letter row := by
    refine List.filter_congr fun row _ => ?_
    by_cases zero : row.hold = 0
    · simp [isCurrent, zero]
    · have lasts : (row.hold == 0) = false := by simpa using zero
      by_cases future : (now : Int) < row.hold
      · simp [lasts, future]
      · simp [isCurrent, lasts, future]
  rw [temporary, permanent] at lines
  refine lines.trans (List.Perm.of_eq ?_)
  unfold temporaryLines permanentLines
  congr 1
  · refine List.flatMap_congr fun row listed => ?_
    have passed := (List.mem_filter.mp listed).2
    have future : (now : Int) < row.hold := by
      simp only [Bool.and_eq_true, decide_eq_true_iff] at passed
      exact passed.1.1
    have lasts : row.hold ≠ 0 := by omega
    rw [remaining, if_neg lasts]
  · refine List.flatMap_congr fun row listed => ?_
    have passed := (List.mem_filter.mp listed).2
    have forGood : row.hold = 0 := by
      simp only [Bool.and_eq_true, beq_iff_eq] at passed
      exact passed.1.1
    rw [remaining, if_pos forGood]

theorem pushBan_zero (row : OperBan) :
    pushBan conf target row.type row.mask row.reason 0 =
      if sendable row.type row.mask then
        [.ban target row.type 0 row.mask row.reason]
      else [] := by
  simp [pushBan]

theorem permanentLines_eq_nil_iff (sought : Char) :
    permanentLines conf target (some sought) operbans = [] ↔
      ∀ row ∈ operbans, row.hold = 0 → row.remove = false →
        ¬Shows sought row := by
  unfold permanentLines
  rw [List.flatMap_eq_nil_iff]
  constructor
  · intro none_ row listed forGood kept shows
    have inside : row ∈ operbans.filter fun row =>
        row.hold == 0 && !row.remove && ofLetter (some sought) row := by
      refine List.mem_filter.mpr ⟨listed, ?_⟩
      simp [forGood, kept, ofLetter, shows.1]
    have empty := none_ row inside
    rw [pushBan_zero, if_pos shows.2] at empty
    cases empty
  · intro noneShows row inside
    obtain ⟨listed, passed⟩ := List.mem_filter.mp inside
    simp only [Bool.and_eq_true, beq_iff_eq, Bool.not_eq_true', ofLetter]
      at passed
    rw [pushBan_zero, if_neg]
    intro sends
    exact noneShows row listed passed.1.1 passed.1.2 ⟨passed.2, sends⟩

theorem removedLines_eq_nil_iff (sought : Char) :
    removedLines now target (some sought) operbans = [] ↔
      ∀ row ∈ operbans, (now : Int) < row.hold → row.remove = true →
        ¬Shows sought row := by
  unfold removedLines
  rw [List.flatMap_eq_nil_iff]
  constructor
  · intro none_ row listed future removed shows
    have inside : row ∈ operbans.filter (isRemoved now (some sought)) := by
      refine List.mem_filter.mpr ⟨listed, ?_⟩
      simp [isRemoved, future, removed, ofLetter, shows.1]
    have empty := none_ row inside
    rw [pushUnban, if_pos shows.2] at empty
    cases empty
  · intro noneShows row inside
    obtain ⟨listed, passed⟩ := List.mem_filter.mp inside
    simp only [isRemoved, Bool.and_eq_true, decide_eq_true_iff, ofLetter,
      beq_iff_eq] at passed
    rw [pushUnban, if_neg]
    intro sends
    exact noneShows row listed passed.1.2 passed.1.1 ⟨passed.2, sends⟩

theorem letter_of_mem {line : BanLine} {sought : Char}
    (listed : line ∈ permanentLines conf target (some sought) operbans) :
    ∃ type mask reason, line = .ban target type 0 mask reason ∧
      type.letter = sought := by
  obtain ⟨row, inside, pushed⟩ := List.mem_flatMap.mp listed
  have passed := (List.mem_filter.mp inside).2
  simp only [Bool.and_eq_true, ofLetter, beq_iff_eq] at passed
  rw [pushBan_zero] at pushed
  split at pushed
  · rw [List.mem_singleton.mp pushed]
    exact ⟨row.type, row.mask, row.reason, rfl, passed.2⟩
  · cases pushed

theorem permanentLines_perm_iff {sought : Char} :
    (permanentLines conf target (some shown) operbans).Perm
        (permanentLines conf target (some sought) operbans) ↔
      shown = sought ∨
        (permanentLines conf target (some sought) operbans = [] ∧
          permanentLines conf target (some shown) operbans = []) := by
  constructor
  · intro same
    by_cases equal : shown = sought
    · exact Or.inl equal
    · refine Or.inr ?_
      have none_ : permanentLines conf target (some shown) operbans = [] := by
        refine List.eq_nil_iff_forall_not_mem.mpr fun line listed => ?_
        obtain ⟨type, mask, reason, rfl, first⟩ := letter_of_mem listed
        obtain ⟨_, _, _, equation, second⟩ :=
          letter_of_mem (same.mem_iff.mp listed)
        cases equation
        exact equal (first.symm.trans second)
      rw [none_] at same
      exact ⟨List.nil_perm.mp same, none_⟩
  · rintro (rfl | ⟨first, second⟩)
    · exact List.Perm.refl _
    · rw [first, second]

/-- `sync_bans` sends a ban for each row that is there and an unban for each that
was taken off, unless the character in the query does harm. -/
theorem syncBans_perm_iff (conf : BanServConf) (now : Nat) (target : CString)
    (letter : Option Char) (shown : Char) (operbans : List OperBan) :
    (syncBans conf now target letter shown operbans).Perm
        (wanted conf now target letter operbans) ↔
      Harmless now letter shown operbans := by
  rw [syncBans_eq]
  have target_ := @wanted_perm conf now target letter operbans
  have congr_ : ∀ lines : List BanLine,
      lines.Perm (wanted conf now target letter operbans) ↔
        lines.Perm (temporaryLines conf now target letter operbans ++
          (permanentLines conf target letter operbans ++
            removedLines now target letter operbans)) :=
    fun lines => ⟨fun same => same.trans target_,
      fun same => same.trans target_.symm⟩
  rw [congr_, List.perm_append_left_iff]
  cases letter with
  | none => simp [Harmless]
  | some sought =>
      simp only [Harmless, Option.mem_def, Option.some.injEq, forall_eq']
      by_cases bad : shown ∈ ['\'', '\x00']
      · have failing : (some sought).isSome ∧ shown ∈ ['\'', '\x00'] :=
          ⟨rfl, bad⟩
        rw [if_pos failing, if_pos bad, List.nil_perm, List.append_eq_nil_iff,
          permanentLines_eq_nil_iff, removedLines_eq_nil_iff]
        constructor
        · rintro ⟨permanent, removed⟩ row listed shows
          exact ⟨fun both => permanent row listed both.1 both.2 shows,
            fun both => removed row listed both.1 both.2 shows⟩
        · intro none_
          exact ⟨fun row listed forGood kept shows =>
              (none_ row listed shows).1 ⟨forGood, kept⟩,
            fun row listed future removed shows =>
              (none_ row listed shows).2 ⟨future, removed⟩⟩
      · have working : ¬((some sought).isSome ∧ shown ∈ ['\'', '\x00']) :=
          fun both => bad both.2
        rw [if_neg working, if_neg bad, List.perm_append_right_iff,
          Option.map_some, permanentLines_perm_iff, permanentLines_eq_nil_iff,
          permanentLines_eq_nil_iff]
        constructor
        · rintro (equal | ⟨first, second⟩)
          · exact Or.inl equal
          · exact Or.inr fun row listed forGood kept =>
              ⟨first row listed forGood kept, second row listed forGood kept⟩
        · rintro (equal | none_)
          · exact Or.inl equal
          · exact Or.inr
              ⟨fun row listed forGood kept => (none_ row listed forGood kept).1,
                fun row listed forGood kept =>
                  (none_ row listed forGood kept).2⟩

/-- A ban for good, which is asked for by its letter. -/
theorem not_syncBans_perm :
    ¬(syncBans .default 1000 "irc.int".toList (some 'K') (lowByte 1000)
        [⟨.kline, "*@host".toList, "spam".toList, 0, 0, "oper".toList,
          false⟩]).Perm
      (wanted .default 1000 "irc.int".toList (some 'K')
        [⟨.kline, "*@host".toList, "spam".toList, 0, 0, "oper".toList,
          false⟩]) := by
  decide +kernel

end OperBan

end RatboxServices
