import RatboxServices.Net.Modebuild

namespace RatboxServices

open CString
open ModeChange (letters args)

/-! The buffers and counters of `modebuild.c`, and how the lines they make are
read back. -/

/-- The static variables, and the lines handed to `sendto_server`. -/
structure ModeBuffer where
  modebuf : CString
  parabuf : CString
  /-- `DIR_NONE` is `none`. -/
  modedir : Option Bool
  modecount : Nat
  mlen : Nat
  plen : Nat
  curLen : Nat
  sent : List CString
  deriving DecidableEq, Repr

namespace ModeBuffer

/-- `modebuild_init`. -/
def modebuildInit (st : ModeBuffer) : ModeBuffer :=
  { st with
    curLen := st.mlen
    plen := 0
    parabuf := []
    modedir := none
    modecount := 0 }

/-- `modebuild_start`. The head is what `snprintf` puts into the buffer, and its
length what it returns. -/
def modebuildStart (head : CString) : ModeBuffer :=
  modebuildInit
    { modebuf := strlcpy State.bufSize head
      parabuf := []
      modedir := none
      modecount := 0
      mlen := head.length
      plen := 0
      curLen := 0
      sent := [] }

def send (st : ModeBuffer) : ModeBuffer :=
  { st with sent := st.sent ++ [st.modebuf ++ " ".toList ++ st.parabuf] }

def isFull (len : Nat) (st : ModeBuffer) : Bool :=
  decide (State.bufSize - 3 < st.curLen + st.plen + len + 4) ||
    decide (maxModes ≤ st.modecount)

def flush (len : Nat) (st : ModeBuffer) : ModeBuffer :=
  if st.isFull len then
    let st := st.send
    { st with modebuf := st.modebuf.take st.mlen }.modebuildInit
  else st

def addSign (change : ModeChange) (st : ModeBuffer) : ModeBuffer :=
  if st.modedir ≠ some change.dir then
    { st with
      modebuf := st.modebuf ++ [change.sign]
      curLen := st.curLen + 1 }
  else st

def addLetter (change : ModeChange) (st : ModeBuffer) : ModeBuffer :=
  let st := { st with modebuf := st.modebuf ++ [change.letter] }
  let st :=
    match change.arg with
    | none => st
    | some arg =>
        { st with
          parabuf := st.parabuf ++ arg ++ " ".toList
          modecount := st.modecount + 1
          plen := st.plen + (arg.length + 1) }
  { st with curLen := st.curLen + 1 }

/-- `modebuild_add`. -/
def modebuildAdd (st : ModeBuffer) (change : ModeChange) : ModeBuffer :=
  ((st.flush change.argLength).addSign change).addLetter change

/-- `modebuild_finish`. -/
def modebuildFinish (st : ModeBuffer) : ModeBuffer :=
  if st.curLen ≠ st.mlen then st.send else st

/-- The lines sent from `modebuild_start` to `modebuild_finish`. -/
def linesOf (head : CString) (changes : List ModeChange) : List CString :=
  (changes.foldl modebuildAdd (modebuildStart head)).modebuildFinish.sent

structure Agrees (head : CString) (st : ModeBuffer) (built : Modebuild) :
    Prop where
  modebuf : st.modebuf = head ++ built.modebuf
  parabuf : st.parabuf = built.parabuf
  modedir : st.modedir = none
  modecount : st.modecount = built.modecount
  mlen : st.mlen = head.length
  plen : st.plen = built.parabuf.length
  curLen : st.curLen = head.length + built.modebuf.length
  sent : st.sent = built.sent

variable {head : CString} {st : ModeBuffer} {built : Modebuild}
  {change : ModeChange}

theorem start_agrees (short : head.length < State.bufSize) :
    Agrees head (modebuildStart head) {} where
  modebuf := by
    have whole : strlcpy State.bufSize head = head :=
      List.take_of_length_le (by omega)
    simp [modebuildStart, modebuildInit, whole]
  parabuf := rfl
  modedir := rfl
  modecount := rfl
  mlen := rfl
  plen := rfl
  curLen := rfl
  sent := rfl

theorem Agrees.isFull (agrees : Agrees head st built) :
    st.isFull change.argLength = built.isFull head change := by
  rw [ModeBuffer.isFull, Modebuild.isFull, agrees.curLen, agrees.plen,
    agrees.modecount]

theorem Agrees.line (agrees : Agrees head st built) :
    st.modebuf ++ " ".toList ++ st.parabuf = built.line head := by
  rw [agrees.modebuf, agrees.parabuf, Modebuild.line]

theorem Agrees.flush (agrees : Agrees head st built) :
    Agrees head (st.flush change.argLength)
      (if built.isFull head change then built.send head else built) := by
  unfold ModeBuffer.flush
  rw [agrees.isFull]
  split
  · refine ⟨?_, rfl, rfl, rfl, agrees.mlen, rfl, agrees.mlen, ?_⟩
    · show st.modebuf.take st.mlen = head ++ []
      rw [agrees.modebuf, agrees.mlen, List.take_left, List.append_nil]
    · show st.sent ++ [_] = built.sent ++ [_]
      rw [agrees.line, agrees.sent]
  · exact agrees

theorem Agrees.add (agrees : Agrees head st built) :
    Agrees head (st.modebuildAdd change) (built.add head change) := by
  have flushed : Agrees head (st.flush change.argLength)
      (if built.isFull head change then built.send head else built) :=
    agrees.flush
  unfold modebuildAdd Modebuild.add
  generalize st.flush change.argLength = st at flushed
  generalize (if built.isFull head change then built.send head else built) =
    built at flushed
  have turned : st.modedir ≠ some change.dir := by
    rw [flushed.modedir]
    simp
  unfold addSign addLetter
  rw [if_pos turned]
  cases given : change.arg with
  | none =>
      refine ⟨?_, flushed.parabuf, flushed.modedir, flushed.modecount,
        flushed.mlen, flushed.plen, ?_, flushed.sent⟩
      · simp [flushed.modebuf]
      · simp [flushed.curLen]
        omega
  | some arg =>
      refine ⟨?_, ?_, flushed.modedir, ?_, flushed.mlen, ?_, ?_,
        flushed.sent⟩
      · simp [flushed.modebuf]
      · simp [flushed.parabuf]
      · simp [flushed.modecount]
      · simp [flushed.plen]
      · simp [flushed.curLen]
        omega

theorem Agrees.fold (agrees : Agrees head st built)
    (changes : List ModeChange) :
    Agrees head (changes.foldl modebuildAdd st)
      (changes.foldl (Modebuild.add head) built) := by
  induction changes generalizing st built with
  | nil => exact agrees
  | cons change rest ih => exact ih agrees.add

theorem Agrees.finish (agrees : Agrees head st built) :
    st.modebuildFinish.sent = (built.finish head).sent := by
  unfold modebuildFinish Modebuild.finish
  cases shape : built.modebuf with
  | nil =>
      have same : ¬st.curLen ≠ st.mlen := by
        simp [agrees.curLen, agrees.mlen, shape]
      rw [if_neg same]
      exact agrees.sent
  | cons c rest =>
      have more : st.curLen ≠ st.mlen := by
        simp [agrees.curLen, agrees.mlen, shape]
      rw [if_pos more]
      show st.sent ++ [_] = built.sent ++ [_]
      rw [agrees.line, agrees.sent]

theorem linesOf_eq (short : head.length < State.bufSize)
    (changes : List ModeChange) :
    linesOf head changes = Modebuild.build head changes true :=
  ((start_agrees short).fold changes).finish

def decodeModes (takes : Bool → Char → Bool) :
    Bool → CString → List CString → List ModeChange
  | _, [], _ => []
  | _, '+' :: rest, args => decodeModes takes true rest args
  | _, '-' :: rest, args => decodeModes takes false rest args
  | dir, p :: rest, args =>
      if takes dir p then
        ⟨dir, p, args.head?⟩ :: decodeModes takes dir rest args.tail
      else ⟨dir, p, none⟩ :: decodeModes takes dir rest args

def modesOf (head line : CString) : CString :=
  (cut ' ' (line.drop head.length)).1

def argsOf (head line : CString) : List CString :=
  (((cut ' ' (line.drop head.length)).2.getD []).splitOn ' ').filter
    fun word => !word.isEmpty

def decodeLine (takes : Bool → Char → Bool) (head line : CString) :
    List ModeChange :=
  decodeModes takes true (modesOf head line) (argsOf head line)

/-- A change as it is written: a letter, with an argument if and only if it
takes one. -/
structure Writable (takes : Bool → Char → Bool) (change : ModeChange) :
    Prop where
  letter : change.letter.isAlpha = true
  takes : change.arg.isSome = takes change.dir change.letter
  given : change.arg ≠ some []
  noSpace : ∀ arg, change.arg = some arg → ' ' ∉ arg
  short : change.argLength ≤ 200

variable {takes : Bool → Char → Bool} {changes : List ModeChange}

theorem words_spaced {words : List CString}
    (noSpace : ∀ word ∈ words, ' ' ∉ word) :
    (spaced words).splitOn ' ' = words ++ [[]] := by
  induction words with
  | nil => rfl
  | cons word rest ih =>
      have shape : spaced (word :: rest) = word ++ ' ' :: spaced rest := by
        simp [spaced]
      rw [shape, List.splitOn_append_cons_of_beq _ _ (by decide),
        List.splitOn_eq_singleton (noSpace word (by simp)),
        ih fun word listed => noSpace word (List.mem_cons_of_mem _ listed)]
      rfl

theorem not_mem_letters (writable : ∀ change ∈ changes, Writable takes change) :
    ' ' ∉ letters changes := by
  intro listed
  obtain ⟨change, member, here⟩ := List.mem_flatMap.mp listed
  obtain sign | letter : ' ' = change.sign ∨ ' ' = change.letter := by
    simpa using here
  · unfold ModeChange.sign at sign
    split at sign <;> cases sign
  · have alpha := (writable change member).letter
    rw [← letter] at alpha
    exact absurd alpha (by decide)

theorem argsOf_lineOf (head : CString)
    (writable : ∀ change ∈ changes, Writable takes change) :
    modesOf head (Modebuild.lineOf head changes) = letters changes ∧
      argsOf head (Modebuild.lineOf head changes) = args changes := by
  have rest : (Modebuild.lineOf head changes).drop head.length =
      letters changes ++ ' ' :: spaced (args changes) := by
    simp [Modebuild.lineOf]
  have split := cut_append (not_mem_letters writable)
    (spaced (args changes))
  have words : ∀ word ∈ args changes, word ≠ [] ∧ ' ' ∉ word := by
    intro word listed
    obtain ⟨change, member, given⟩ := List.mem_filterMap.mp listed
    refine ⟨?_, (writable change member).noSpace word given⟩
    rintro rfl
    exact (writable change member).given given
  refine ⟨?_, ?_⟩
  · rw [modesOf, rest, split]
  · rw [argsOf, rest, split]
    show ((spaced (args changes)).splitOn ' ').filter _ = _
    rw [words_spaced fun word listed => (words word listed).2,
      List.filter_append]
    have kept : (args changes).filter (fun word => !word.isEmpty) =
        args changes := by
      rw [List.filter_eq_self]
      intro word listed
      simpa using (words word listed).1
    rw [kept]
    exact List.append_nil _

theorem decodeModes_letters (dir : Bool)
    (writable : ∀ change ∈ changes, Writable takes change) :
    decodeModes takes dir (letters changes) (args changes) = changes := by
  induction changes generalizing dir with
  | nil => rfl
  | cons change rest ih =>
      have here := writable change (by simp)
      have later := ih change.dir fun change listed =>
        writable change (List.mem_cons_of_mem _ listed)
      have signed : letters (change :: rest) =
          change.sign :: change.letter :: letters rest := rfl
      have turned : decodeModes takes dir (letters (change :: rest))
          (args (change :: rest)) =
          decodeModes takes change.dir (change.letter :: letters rest)
            (args (change :: rest)) := by
        rw [signed]
        cases sign : change.dir <;> simp [ModeChange.sign, sign, decodeModes]
      rw [turned]
      have other : change.letter ≠ '+' ∧ change.letter ≠ '-' := by
        refine ⟨?_, ?_⟩
        · intro sign
          have alpha := here.letter
          rw [sign] at alpha
          exact absurd alpha (by decide)
        · intro sign
          have alpha := here.letter
          rw [sign] at alpha
          exact absurd alpha (by decide)
      rw [decodeModes]
      · cases given : change.arg with
        | none =>
            have bare : takes change.dir change.letter = false := by
              rw [← here.takes, given]
              rfl
            have none_ : args (change :: rest) = args rest := by
              simp [args, given]
            rw [bare, none_, later]
            simp [← given]
        | some arg =>
            have full : takes change.dir change.letter = true := by
              rw [← here.takes, given]
              rfl
            have some_ : args (change :: rest) = arg :: args rest := by
              simp [args, given]
            rw [full, some_]
            show ⟨_, _, some arg⟩ :: decodeModes takes _ _ (args rest) = _
            rw [later, ← given]
      · exact other.1
      · exact other.2

/-- Between `modebuild_start` and `modebuild_finish` all changes are sent, once
and in their order; no line has too many arguments, is too long or has no
modes. -/
theorem linesOf_decode (takes : Bool → Char → Bool) (head : CString)
    (changes : List ModeChange) (short : head.length ≤ 250)
    (writable : ∀ change ∈ changes, Writable takes change) :
    (linesOf head changes).flatMap (decodeLine takes head) = changes ∧
      ∀ line ∈ linesOf head changes,
        (argsOf head line).length ≤ maxModes ∧
          line.length ≤ State.bufSize - 3 ∧ modesOf head line ≠ [] := by
  have small : State.bufSize = 512 := rfl
  have fits : ∀ change ∈ changes, Modebuild.Fits head change := by
    intro change listed
    have arg := (writable change listed).short
    unfold Modebuild.Fits
    omega
  obtain ⟨groups, all, built, full⟩ : ∃ groups : List (List ModeChange),
      changes = groups.flatten ++ Modebuild.unsent head changes true ∧
        Modebuild.build head changes true =
            groups.map (Modebuild.lineOf head) ∧
          ∀ group ∈ groups, Modebuild.Group head group :=
    Modebuild.build_eq fits
  rw [linesOf_eq (by omega), built]
  have whole : changes = groups.flatten := by
    simpa [Modebuild.unsent] using all
  have each : ∀ group ∈ groups, ∀ change ∈ group, Writable takes change := by
    intro group listed change member
    refine writable change ?_
    rw [whole]
    exact List.mem_flatten.mpr ⟨group, listed, member⟩
  refine ⟨?_, fun line listed => ?_⟩
  · have back : ∀ group ∈ groups,
        decodeLine takes head (Modebuild.lineOf head group) = group := by
      intro group member
      have read := argsOf_lineOf head (each group member)
      rw [decodeLine, read.1, read.2]
      exact decodeModes_letters true (each group member)
    rw [List.flatMap_map, List.flatMap_congr back, whole]
    simp
  · obtain ⟨group, member, rfl⟩ := List.mem_map.mp listed
    have read := argsOf_lineOf head (each group member)
    rw [read.1, read.2]
    refine ⟨(full group member).count, (full group member).length, ?_⟩
    cases shape : group with
    | nil => exact absurd shape (full group member).some
    | cons change rest => simp [letters]

def nineOps : List ModeChange :=
  List.replicate 9 ⟨true, 'o', some "nick".toList⟩

theorem linesOf_decode_nineOps :
    (linesOf ":0AB TMODE 5 #a ".toList nineOps).length = 2 ∧
      (linesOf ":0AB TMODE 5 #a ".toList nineOps).flatMap
        (decodeLine (fun _ p => p == 'o') ":0AB TMODE 5 #a ".toList) =
          nineOps := by
  have writable : ∀ change ∈ nineOps,
      Writable (fun _ p => p == 'o') change := by
    intro change listed
    rw [List.eq_of_mem_replicate listed]
    refine ⟨by decide, by decide, by decide, ?_, by decide⟩
    intro arg given
    cases given
    decide
  refine ⟨by decide +kernel, ?_⟩
  exact (linesOf_decode _ ":0AB TMODE 5 #a ".toList nineOps (by decide)
    writable).1

end ModeBuffer

end RatboxServices
