import RatboxServices.Irc.Line
import RatboxServices.Net.Link

namespace RatboxServices

open CString

/-! `modebuild.c`: the mode changes of a service are put together into lines,
which are sent when they are full. -/

def maxModes : Nat := 8

namespace ModeChange

def sign (change : ModeChange) : Char :=
  if change.dir then '+' else '-'

def argLength (change : ModeChange) : Nat :=
  (change.arg.getD []).length

/-- The letters of the changes. `modedir` is never set after `modebuild_init`,
so that each of them has its own sign. -/
def letters (changes : List ModeChange) : CString :=
  changes.flatMap fun change => [change.sign, change.letter]

def args (changes : List ModeChange) : List CString :=
  changes.filterMap ModeChange.arg

theorem letters_append (first second : List ModeChange) :
    letters (first ++ second) = letters first ++ letters second :=
  List.flatMap_append

theorem args_append (first second : List ModeChange) :
    args (first ++ second) = args first ++ args second :=
  List.filterMap_append

end ModeChange

open ModeChange (letters args)

/-- The buffers after the head of the line, and the lines handed to
`sendto_server`. -/
structure Modebuild where
  modebuf : CString := []
  parabuf : CString := []
  modecount : Nat := 0
  sent : List CString := []
  deriving DecidableEq, Repr

namespace Modebuild

def line (head : CString) (st : Modebuild) : CString :=
  head ++ st.modebuf ++ " ".toList ++ st.parabuf

def send (head : CString) (st : Modebuild) : Modebuild where
  sent := st.sent ++ [st.line head]

def isFull (head : CString) (change : ModeChange) (st : Modebuild) : Bool :=
  decide (State.bufSize - 3 < head.length + st.modebuf.length +
    st.parabuf.length + change.argLength + 4) ||
      decide (maxModes ≤ st.modecount)

/-- `modebuild_add`. -/
def add (head : CString) (st : Modebuild) (change : ModeChange) :
    Modebuild :=
  let st := if st.isFull head change then st.send head else st
  let st := { st with
    modebuf := st.modebuf ++ [change.sign, change.letter] }
  match change.arg with
  | none => st
  | some arg =>
      { st with
        parabuf := st.parabuf ++ arg ++ " ".toList
        modecount := st.modecount + 1 }

/-- `modebuild_finish`. -/
def finish (head : CString) (st : Modebuild) : Modebuild :=
  if st.modebuf.isEmpty then st else st.send head

def build (head : CString) (changes : List ModeChange) (finished : Bool) :
    List CString :=
  let st := changes.foldl (add head) {}
  (if finished then st.finish head else st).sent

def left (head : CString) :
    List ModeChange → Modebuild → List ModeChange → List ModeChange
  | [], _, pending => pending
  | change :: rest, st, pending =>
      left head rest (st.add head change)
        (if st.isFull head change then [change] else pending ++ [change])

def unsent (head : CString) (changes : List ModeChange) (finished : Bool) :
    List ModeChange :=
  if finished then [] else left head changes {} []

def lineOf (head : CString) (changes : List ModeChange) : CString :=
  head ++ letters changes ++ " ".toList ++ spaced (args changes)

def Fits (head : CString) (change : ModeChange) : Prop :=
  head.length + change.argLength + 4 ≤ State.bufSize - 3

structure Group (head : CString) (changes : List ModeChange) : Prop where
  some : changes ≠ []
  count : (args changes).length ≤ maxModes
  length : (lineOf head changes).length ≤ State.bufSize - 3

/-- What the buffers hold: the changes of the lines sent, and those that are
not. -/
structure Holds (head : CString) (groups : List (List ModeChange))
    (pending : List ModeChange) (st : Modebuild) : Prop where
  modebuf : st.modebuf = letters pending
  parabuf : st.parabuf = spaced (args pending)
  modecount : st.modecount = (args pending).length
  sent : st.sent = groups.map (lineOf head)
  full : ∀ changes ∈ groups, Group head changes
  open_ : pending ≠ [] → Group head pending

variable {head : CString} {groups : List (List ModeChange)}
  {pending : List ModeChange} {st : Modebuild} {change : ModeChange}

theorem Holds.line (holds : Holds head groups pending st) :
    st.line head = lineOf head pending := by
  rw [Modebuild.line, holds.modebuf, holds.parabuf, lineOf]

theorem Holds.send (holds : Holds head groups pending st)
    (given : pending ≠ []) :
    Holds head (groups ++ [pending]) [] (st.send head) where
  modebuf := rfl
  parabuf := rfl
  modecount := rfl
  sent := by
    rw [Modebuild.send, holds.line, holds.sent, List.map_append]
    rfl
  full := by
    intro changes listed
    obtain before | last := List.mem_append.mp listed
    · exact holds.full changes before
    · rw [List.mem_singleton.mp last]
      exact holds.open_ given
  open_ := fun some_ => absurd rfl some_

theorem Holds.put (holds : Holds head groups pending st)
    (room : st.isFull head change = false) :
    Holds head groups (pending ++ [change]) (st.add head change) := by
  obtain ⟨short, few⟩ : head.length + st.modebuf.length + st.parabuf.length +
      change.argLength + 4 ≤ State.bufSize - 3 ∧ st.modecount < maxModes := by
    simpa [isFull] using room
  rw [holds.modebuf, holds.parabuf] at short
  rw [holds.modecount] at few
  have added : Group head (pending ++ [change]) := by
    refine ⟨by simp, ?_, ?_⟩
    · rw [ModeChange.args_append, List.length_append]
      cases given : change.arg with
      | none =>
          simp only [args, given, List.filterMap_cons, List.filterMap_nil,
            List.length_nil] at few ⊢
          omega
      | some arg =>
          simp only [args, given, List.filterMap_cons, List.filterMap_nil,
            List.length_singleton] at few ⊢
          omega
    · rw [lineOf, ModeChange.letters_append, ModeChange.args_append]
      cases given : change.arg with
      | none =>
          simp [ModeChange.argLength, letters, args, spaced, given] at short ⊢
          omega
      | some arg =>
          simp [ModeChange.argLength, letters, args, spaced, given] at short ⊢
          omega
  unfold add
  rw [room]
  cases given : change.arg with
  | none =>
      refine ⟨?_, ?_, ?_, holds.sent, holds.full, fun _ => added⟩
      · simp [holds.modebuf, letters]
      · simp [holds.parabuf, args, given]
      · simp [holds.modecount, args, given]
  | some arg =>
      refine ⟨?_, ?_, ?_, holds.sent, holds.full, fun _ => added⟩
      · simp [holds.modebuf, letters]
      · simp [holds.parabuf, args, given, spaced]
      · simp [holds.modecount, args, given]

theorem Holds.add (holds : Holds head groups pending st)
    (fits : Fits head change) :
    ∃ sent, pending = sent ++ (if st.isFull head change then [] else pending) ∧
      Holds head (groups ++ if st.isFull head change then [sent] else [])
        ((if st.isFull head change then [] else pending) ++ [change])
        (st.add head change) := by
  cases full : st.isFull head change with
  | false =>
      refine ⟨[], rfl, ?_⟩
      rw [if_neg (by simp), List.append_nil]
      exact holds.put full
  | true =>
      have given : pending ≠ [] := by
        rintro rfl
        unfold Fits at fits
        simp only [isFull, holds.modebuf, holds.parabuf, holds.modecount,
          letters, args, spaced, List.flatMap_nil, List.filterMap_nil,
          List.length_nil, Bool.or_eq_true, decide_eq_true_eq,
          maxModes] at full
        omega
      have sent := holds.send given
      have room : (st.send head).isFull head change = false := by
        simp only [isFull, Modebuild.send, maxModes, List.length_nil,
          Nat.add_zero, Bool.or_eq_false_iff]
        exact ⟨decide_eq_false (Nat.not_lt.mpr fits), rfl⟩
      have again : st.add head change = (st.send head).add head change := by
        rw [Modebuild.add, Modebuild.add, full, room]
        rfl
      refine ⟨pending, by simp, ?_⟩
      rw [again]
      exact sent.put room

theorem Holds.fold {changes : List ModeChange}
    (holds : Holds head groups pending st)
    (fits : ∀ change ∈ changes, Fits head change) :
    ∃ more, groups.flatten ++ pending ++ changes =
        more.flatten ++ left head changes st pending ∧
      Holds head more (left head changes st pending)
        (changes.foldl (Modebuild.add head) st) := by
  induction changes generalizing groups pending st with
  | nil => exact ⟨groups, by simp [left], holds⟩
  | cons change rest ih =>
      obtain ⟨sent, split, next⟩ := holds.add (fits change (by simp))
      obtain ⟨more, same, last⟩ := ih next
        fun change listed => fits change (List.mem_cons_of_mem _ listed)
      rw [left, List.foldl_cons]
      cases full : st.isFull head change with
      | false =>
          simp only [full, Bool.false_eq_true, if_false, List.append_nil]
            at same last ⊢
          refine ⟨more, ?_, last⟩
          rw [← same]
          simp
      | true =>
          simp only [full, if_true, List.append_nil, List.nil_append]
            at split same last ⊢
          refine ⟨more, ?_, last⟩
          rw [← same, split]
          simp

theorem build_eq {changes : List ModeChange} {finished : Bool}
    (fits : ∀ change ∈ changes, Fits head change) :
    ∃ groups : List (List ModeChange),
      changes = groups.flatten ++ unsent head changes finished ∧
      build head changes finished = groups.map (lineOf head) ∧
      ∀ group ∈ groups, Group head group := by
  have empty : Holds head [] [] {} :=
    ⟨rfl, rfl, rfl, rfl, by simp, fun some_ => absurd rfl some_⟩
  obtain ⟨groups, same, holds⟩ := empty.fold fits
  rw [List.flatten_nil, List.nil_append, List.nil_append] at same
  cases finished with
  | false => exact ⟨groups, same, holds.sent, holds.full⟩
  | true =>
      unfold build unsent finish
      dsimp only
      rw [holds.modebuf]
      by_cases none_ : left head changes {} [] = []
      · refine ⟨groups, ?_, ?_, holds.full⟩
        · rw [same, none_]
          rfl
        · rw [none_]
          exact holds.sent
      · have sent := holds.send none_
        refine ⟨groups ++ [left head changes {} []], ?_, ?_, sent.full⟩
        · rw [if_pos rfl, List.append_nil, List.flatten_append,
            List.flatten_singleton]
          exact same
        · rw [if_pos rfl, if_neg]
          · exact sent.sent
          · cases shape : left head changes {} [] with
            | nil => exact absurd shape none_
            | cons change rest => simp [letters]

end Modebuild

end RatboxServices
