import RatboxServices.Net.JoinAgree
import RatboxServices.Net.Modebuild
import RatboxServices.Net.ModeTrack

namespace RatboxServices

open CString

/-! The modes that a service issues, and what the lines that it sends make of
the same channel elsewhere. -/

namespace Chmember

/-- Everything of a member but for `MODE_DEOPPED`. -/
def seen (member : Chmember) : ChannelId × ClientId × Bool × Bool :=
  (member.chptr, member.clientP, member.isOpped, member.isVoiced)

end Chmember

namespace Chans

structure Alike (left right : Chans) : Prop where
  channel : left.channel = right.channel
  userChannels : left.userChannels = right.userChannels
  member : ∀ m, (left.member.cell m).map Chmember.seen =
    (right.member.cell m).map Chmember.seen

namespace Alike

variable {left right : Chans}

theorem refl (s : Chans) : Alike s s :=
  ⟨rfl, rfl, fun _ => rfl⟩

theorem sameState (alike : Alike left right) (chptr : ChannelId) :
    SameState chptr left right where
  mode := by rw [alike.channel]
  members := by
    intro m
    have same := congrArg (Option.map fun seen => seen.2.2) (alike.member m)
    rw [Option.map_map, Option.map_map] at same
    exact same
  bans := by rw [alike.channel]
  excepts := by rw [alike.channel]
  invites := by rw [alike.channel]

theorem seen_of_used (alike : Alike left right) {m : MemberId}
    {member : Chmember} (used : left.member.cell m = some member) :
    ∃ other, right.member.cell m = some other ∧ member.seen = other.seen := by
  have same := alike.member m
  rw [used, Option.map_some] at same
  cases there : right.member.cell m with
  | none =>
      rw [there] at same
      cases same
  | some other =>
      rw [there, Option.map_some] at same
      exact ⟨other, rfl, Option.some.inj same⟩

theorem unused (alike : Alike left right) {m : MemberId}
    (free : left.member.cell m = none) : right.member.cell m = none := by
  have same := alike.member m
  rw [free, Option.map_none] at same
  exact Option.map_eq_none_iff.mp same.symm

theorem isMemberOfClient (alike : Alike left right) (target : ClientId) :
    left.isMemberOfClient target = right.isMemberOfClient target := by
  funext m
  unfold Chans.isMemberOfClient
  cases used : left.member.cell m with
  | none => rw [alike.unused used]
  | some member =>
      obtain ⟨other, there, same⟩ := alike.seen_of_used used
      rw [there]
      exact congrArg (fun seen => seen.2.1 == target) same

theorem isMemberOfChannel (alike : Alike left right) (chptr : ChannelId) :
    left.isMemberOfChannel chptr = right.isMemberOfChannel chptr := by
  funext m
  unfold Chans.isMemberOfChannel
  cases used : left.member.cell m with
  | none => rw [alike.unused used]
  | some member =>
      obtain ⟨other, there, same⟩ := alike.seen_of_used used
      rw [there]
      exact congrArg (fun seen => seen.1 == chptr) same

theorem findChmember (alike : Alike left right) (chptr : ChannelId)
    (target : ClientId) :
    left.findChmember chptr target = right.findChmember chptr target := by
  unfold Chans.findChmember usersOf
  rw [alike.channel, alike.userChannels, alike.isMemberOfClient,
    alike.isMemberOfChannel]

theorem modifyChannel (alike : Alike left right) (chptr : ChannelId)
    (change : Channel → Channel) :
    Alike (left.modifyChannel chptr change)
      (right.modifyChannel chptr change) where
  channel := by
    show left.channel.modify chptr change = right.channel.modify chptr change
    rw [alike.channel]
  userChannels := alike.userChannels
  member := alike.member

theorem modifyMember (alike : Alike left right) (target : MemberId)
    {change : Chmember → Chmember}
    (same : ∀ member other : Chmember, member.seen = other.seen →
      (change member).seen = (change other).seen) :
    Alike (left.modifyMember target change)
      (right.modifyMember target change) where
  channel := alike.channel
  userChannels := alike.userChannels
  member := by
    intro m
    simp only [Chans.modifyMember, Heap.modify_cell]
    split
    · cases used : left.member.cell target with
      | none => rw [alike.unused used]
      | some member =>
          obtain ⟨other, there, seen⟩ := alike.seen_of_used used
          rw [there]
          exact congrArg some (same member other seen)
    · exact alike.member m

theorem cells (alike : Alike left right) (target : MemberId) :
    (left.member.cell target = none ∧ right.member.cell target = none) ∨
      ∃ member other, left.member.cell target = some member ∧
        right.member.cell target = some other ∧
        member.chptr = other.chptr ∧ member.isOpped = other.isOpped := by
  cases used : left.member.cell target with
  | none => exact Or.inl ⟨rfl, alike.unused used⟩
  | some member =>
      obtain ⟨other, there, seen⟩ := alike.seen_of_used used
      exact Or.inr ⟨member, other, rfl, there, congrArg (·.1) seen,
        congrArg (·.2.2.1) seen⟩

theorem opChmember (alike : Alike left right) (target : MemberId) :
    Alike (left.opChmember target) (right.opChmember target) := by
  unfold Chans.opChmember
  obtain ⟨free, also⟩ | ⟨member, other, used, there, inside, opped⟩ :=
    alike.cells target
  · rw [free, also]
    exact alike
  · rw [used, there]
    dsimp only
    rw [inside, opped]
    split
    · exact alike
    · refine (alike.modifyMember target ?_).modifyChannel _ _
      intro member other seen
      simp_all [Chmember.seen, Chmember.isOpped, Chmember.isVoiced,
        modeOpped, modeVoiced, modeDeopped]

theorem deopChmember (alike : Alike left right) (target : MemberId) :
    Alike (left.deopChmember target) (right.deopChmember target) := by
  unfold Chans.deopChmember
  obtain ⟨free, also⟩ | ⟨member, other, used, there, inside, opped⟩ :=
    alike.cells target
  · rw [free, also]
    exact alike
  · rw [used, there]
    dsimp only
    rw [inside, opped]
    split
    · exact alike
    · refine (alike.modifyMember target ?_).modifyChannel _ _
      intro member other seen
      simp_all [Chmember.seen, Chmember.isOpped, Chmember.isVoiced,
        modeOpped, modeVoiced]

theorem voiceChmember (alike : Alike left right) (target : MemberId) :
    Alike (left.voiceChmember target) (right.voiceChmember target) := by
  refine alike.modifyMember target ?_
  intro member other seen
  simp_all [Chmember.seen, Chmember.isOpped, Chmember.isVoiced, modeOpped,
    modeVoiced]

theorem devoiceChmember (alike : Alike left right) (target : MemberId) :
    Alike (left.devoiceChmember target) (right.devoiceChmember target) := by
  refine alike.modifyMember target ?_
  intro member other seen
  simp_all [Chmember.seen, Chmember.isOpped, Chmember.isVoiced, modeOpped,
    modeVoiced]

theorem unmarked (alike : Alike left right) (target : MemberId) :
    Alike (FullMode.unmarked target left) right where
  channel := alike.channel
  userChannels := alike.userChannels
  member := by
    intro m
    rw [← alike.member m]
    unfold FullMode.unmarked Chans.modifyMember
    simp only [Heap.modify_cell]
    split
    · rename_i here
      rw [here, Option.map_map]
      congr 1
      funext member
      simp [Chmember.seen, Chmember.isOpped, Chmember.isVoiced, modeOpped,
        modeVoiced, modeDeopped]
    · rfl

end Alike

end Chans

namespace ModeChange

def apply (call : FullModeCall) (change : ModeChange) (chans : Chans) :
    Chans :=
  match FullMode.letter call change.letter
      ⟨chans, change.arg.toList, change.dir, []⟩ with
  | some st => st.chans
  | none => chans

def Sound (call : FullModeCall) (change : ModeChange) : Prop :=
  ∀ chans more, FullMode.letter call change.letter
      ⟨chans, change.arg.toList ++ more, change.dir, []⟩ =
    some ⟨change.apply call chans, more, change.dir, []⟩

theorem sound_of {call : FullModeCall} {change : ModeChange}
    {effect : Chans → Chans}
    (read : ∀ chans more, FullMode.letter call change.letter
        ⟨chans, change.arg.toList ++ more, change.dir, []⟩ =
      some ⟨effect chans, more, change.dir, []⟩) :
    change.Sound call ∧ ∀ chans, change.apply call chans = effect chans := by
  have effect_ : ∀ chans, change.apply call chans = effect chans := by
    intro chans
    have alone := read chans []
    rw [List.append_nil] at alone
    rw [apply, alone]
  refine ⟨fun chans more => ?_, effect_⟩
  rw [effect_]
  exact read chans more

end ModeChange

def FullModeCall.received (call : FullModeCall) : FullModeCall :=
  { call with sourceP := none, allowSslonly := true }

def modeLetters : List Char := "imnpstrSklovbeI".toList

namespace FullMode

def takesParam (dir : Bool) (p : Char) : Bool :=
  "kovbeI".toList.contains p || (p == 'l' && dir)

def validLimit (limitS : CString) : Bool :=
  decide (0 < (strtol limitS).1.bmod 4294967296) && (strtol limitS).2.isEmpty

def readableLetter (allowSslonly dir : Bool) (p : Char)
    (args : List CString) : Bool :=
  (p != 'S' || allowSslonly) && (!takesParam dir p || !emptyHead args) &&
    (p != 'l' || !dir || validLimit (args.headD []))

def turn (dir : Bool) (p : Char) : Bool :=
  if p == '+' then true else if p == '-' then false else dir

/-- The string is read to its end: no parameter is missing or is no limit, and
`S` only stands in it if that is allowed. -/
def readable (allowSslonly : Bool) :
    List Char → Bool → List CString → Bool
  | [], _, _ => true
  | p :: rest, dir, args =>
      readableLetter allowSslonly dir p args &&
        readable allowSslonly rest (turn dir p)
          (if takesParam dir p then args.tail else args)

def toldParam (call : FullModeCall) (dir : Bool) (p : Char)
    (args : List CString) : Option CString :=
  let param := args.headD []
  if emptyHead args then none
  else
    match p with
    | 'k' => some (if dir then strlcpy (keyLen + 1) param else ['*'])
    | 'l' => if dir then some param else none
    | 'o' | 'v' => if (call.findUser param).isSome then some param else none
    | 'b' | 'e' | 'I' => some param
    | _ => none

def toldParams (call : FullModeCall) :
    List Char → Bool → List CString → List CString
  | [], _, _ => []
  | p :: rest, dir, args =>
      (toldParam call dir p args).toList ++ toldParams call rest (turn dir p)
        (if takesParam dir p then args.tail else args)

variable {call : FullModeCall}

theorem prefixMode_received (received : call.sourceP = none) (letter : Char)
    (nick : CString) (st : FullMode) :
    st.prefixMode call letter nick =
      { st with
        chans := (FullMode.prefixMode call letter nick
          ⟨st.chans, [], st.dir, []⟩).chans } := by
  unfold prefixMode
  cases call.findService nick with
  | some target =>
      unfold serviceOp
      dsimp only
      split
      · rfl
      · split
        · rfl
        · split <;> rfl
  | none =>
      cases call.findUser nick with
      | none => rfl
      | some target =>
          dsimp only
          cases st.chans.findChmember call.chptr target with
          | none => rfl
          | some mptr =>
              dsimp only
              cases st.chans.member.cell mptr with
              | none => rfl
              | some member =>
                  dsimp only
                  split
                  · unfold memberOp modebuildAdd
                    rw [received]
                    dsimp only
                    split
                    · split <;> rfl
                    · split <;> rfl
                  · unfold memberVoice modebuildAdd
                    rw [received]
                    dsimp only
                    split
                    · split <;> rfl
                    · split <;> rfl

/-- A change that can be sent: a letter that is known, a parameter of those
told, and it is read as it was meant. -/
structure Tellable (call : FullModeCall) (told : List CString)
    (change : ModeChange) : Prop where
  known : change.letter ∈ modeLetters
  given : ∀ arg, change.arg = some arg → arg ∈ told
  sound : change.Sound call.received

/-- What a letter leaves to be told, when elsewhere the channels are `r`. -/
inductive Told (call : FullModeCall) (p : Char) (st after : FullMode)
    (r : Chans) : Prop where
  | same (built : after.built = st.built) (alike : Chans.Alike after.chans r)
  | change (change : ModeChange) (built : after.built = st.built ++ [change])
      (tellable : Tellable call (toldParam call st.dir p st.args).toList change)
      (alike : Chans.Alike after.chans (change.apply call.received r))

variable {st : FullMode} {r : Chans}

theorem modebuildAdd_issued (issued : call.sourceP.isSome = true)
    (letter : Char) (arg : Option CString) (st : FullMode) :
    st.modebuildAdd call letter arg =
      { st with built := st.built ++ [⟨st.dir, letter, arg⟩] } := by
  rw [modebuildAdd, if_pos issued]

theorem modebuildAdd_received (letter : Char) (arg : Option CString)
    (st : FullMode) : st.modebuildAdd call.received letter arg = st := rfl

theorem letter_simple {p : Char} {bit : Nat}
    (simple : simpleModeBit p = some bit) :
    st.letter call p = some (st.onMode call (Chmode.put st.dir bit)
      |>.modebuildAdd call p none) := by
  unfold simpleModeBit at simple
  split at simple <;> cases simple <;> rfl

theorem mem_modeLetters_of_simple {p : Char} {bit : Nat}
    (simple : simpleModeBit p = some bit) : p ∈ modeLetters := by
  unfold simpleModeBit at simple
  split at simple <;> cases simple <;> decide

theorem told_channel {after : FullMode} {letter : Char}
    {arg : Option CString} {change : Channel → Channel}
    (chans : after.chans = st.chans.modifyChannel call.chptr change)
    (built : after.built = st.built ++ [⟨st.dir, letter, arg⟩])
    (known : letter ∈ modeLetters)
    (given : ∀ text, arg = some text →
      toldParam call st.dir letter st.args = some text)
    (read : ∀ chans more, FullMode.letter call.received letter
        ⟨chans, arg.toList ++ more, st.dir, []⟩ =
      some ⟨chans.modifyChannel call.chptr change, more, st.dir, []⟩)
    (alike : Chans.Alike st.chans r) : Told call letter st after r := by
  obtain ⟨sound, effect⟩ : ModeChange.Sound call.received
      ⟨st.dir, letter, arg⟩ ∧ _ := ModeChange.sound_of read
  refine .change _ built ⟨known, fun text same => ?_, sound⟩ ?_
  · exact Option.mem_toList.mpr (given text same)
  rw [effect, chans]
  exact alike.modifyChannel _ _

theorem banMode_received (received : call.sourceP = none) (mask : CString)
    (st : FullMode) :
    st.banMode call mask =
      { st with chans :=
          (FullMode.banMode call mask ⟨st.chans, [], st.dir, []⟩).chans } := by
  obtain ⟨chans, args, dir, built⟩ := st
  have bans : bansOf call ⟨chans, [], dir, []⟩ =
      bansOf call ⟨chans, args, dir, built⟩ := rfl
  unfold banMode modebuildAdd
  rw [received, bans]
  generalize bansOf call ⟨chans, args, dir, built⟩ = list
  cases dir with
  | true => cases addBan mask list <;> rfl
  | false => cases delBan mask list <;> rfl

theorem banMode_built (issued : call.sourceP.isSome = true) (mask : CString)
    (st : FullMode) :
    (st.banMode call mask).built = st.built ++ [⟨st.dir, 'b', some mask⟩] := by
  unfold banMode
  rw [modebuildAdd_issued issued]
  dsimp only
  split
  · split <;> rfl
  · split <;> rfl

theorem banMode_args (mask : CString) (st : FullMode) :
    (st.banMode call mask).args = st.args := by
  unfold banMode modebuildAdd
  dsimp only
  split <;> split <;> split <;> rfl

theorem banMode_alike (alike : Chans.Alike st.chans r) (mask : CString) :
    Chans.Alike (st.banMode call mask).chans
      (FullMode.banMode call.received mask ⟨r, [], st.dir, []⟩).chans := by
  have bans : bansOf call.received ⟨r, [], st.dir, []⟩ = st.bansOf call := by
    unfold bansOf
    rw [alike.channel]
    rfl
  unfold banMode
  rw [modebuildAdd_chans, modebuildAdd_received, bans]
  dsimp only
  split
  · split
    · exact alike
    · exact ⟨(alike.modifyChannel call.chptr _).channel, alike.userChannels,
        alike.member⟩
  · split
    · exact alike
    · exact ⟨(alike.modifyChannel call.chptr _).channel, alike.userChannels,
        alike.member⟩

theorem told_ban {mask : CString} {more : List CString}
    (issued : call.sourceP.isSome = true)
    (args : st.args = mask :: more) (given : mask ≠ [])
    (alike : Chans.Alike st.chans r) :
    Told call 'b' st (st.banMode call mask).nextArg r := by
  have read : ∀ chans more, FullMode.letter call.received 'b'
      ⟨chans, mask :: more, st.dir, []⟩ =
        some ⟨(FullMode.banMode call.received mask
          ⟨chans, [], st.dir, []⟩).chans, more, st.dir, []⟩ := by
    intro chans more
    have some_ : emptyHead (mask :: more) = false := by simpa [emptyHead]
    show (if emptyHead (mask :: more) = true then _ else _) = _
    rw [some_, if_neg (by simp)]
    show some (nextArg (FullMode.banMode call.received mask _)) = _
    rw [banMode_received rfl]
    rfl
  obtain ⟨sound, effect⟩ : ModeChange.Sound call.received
      ⟨st.dir, 'b', some mask⟩ ∧ _ := ModeChange.sound_of read
  have known : 'b' ∈ modeLetters := by decide
  refine .change _ (banMode_built issued mask st) ⟨known, ?_, sound⟩ ?_
  · rintro text same
    cases same
    simp [toldParam, args, emptyHead, given]
  · rw [effect]
    exact banMode_alike alike mask

theorem memberOp_told {mptr : MemberId} {member other : Chmember}
    {nick : CString} (issued : call.sourceP.isSome = true)
    (alike : Chans.Alike st.chans r) (seen : member.seen = other.seen) :
    (st.memberOp call mptr member nick).args = st.args ∧
    (((st.memberOp call mptr member nick).built = st.built ∧
      Chans.Alike (st.memberOp call mptr member nick).chans r) ∨
    ((st.memberOp call mptr member nick).built =
        st.built ++ [⟨st.dir, 'o', some nick⟩] ∧
      Chans.Alike (st.memberOp call mptr member nick).chans
        (FullMode.memberOp call.received mptr other nick
          ⟨r, [], st.dir, []⟩).chans)) := by
  have opped : member.isOpped = other.isOpped := congrArg (·.2.2.1) seen
  unfold memberOp
  simp only [modebuildAdd_issued issued, modebuildAdd_received, ← opped]
  split
  · split
    · exact ⟨rfl, Or.inl ⟨rfl, alike.unmarked mptr⟩⟩
    · have both : Chans.Alike (unmarked mptr st.chans) (unmarked mptr r) :=
        alike.modifyMember mptr fun member other seen => by
          simp_all [Chmember.seen, Chmember.isOpped, Chmember.isVoiced,
            modeOpped, modeVoiced, modeDeopped]
      have next := both.opChmember mptr
      exact ⟨rfl, Or.inr ⟨rfl, next.channel, next.userChannels, next.member⟩⟩
  · split
    · have bare : Chans.Alike (unlisted mptr st.chans) (unlisted mptr r) :=
        ⟨alike.channel, alike.userChannels, alike.member⟩
      exact ⟨rfl, Or.inr ⟨rfl, bare.deopChmember mptr⟩⟩
    · exact ⟨rfl, Or.inr ⟨rfl, alike⟩⟩

theorem memberVoice_told {mptr : MemberId} {member other : Chmember}
    {nick : CString} (issued : call.sourceP.isSome = true)
    (alike : Chans.Alike st.chans r) (seen : member.seen = other.seen) :
    (st.memberVoice call mptr member nick).args = st.args ∧
    (((st.memberVoice call mptr member nick).built = st.built ∧
      Chans.Alike (st.memberVoice call mptr member nick).chans r) ∨
    ((st.memberVoice call mptr member nick).built =
        st.built ++ [⟨st.dir, 'v', some nick⟩] ∧
      Chans.Alike (st.memberVoice call mptr member nick).chans
        (FullMode.memberVoice call.received mptr other nick
          ⟨r, [], st.dir, []⟩).chans)) := by
  have voiced : member.isVoiced = other.isVoiced := congrArg (·.2.2.2) seen
  unfold memberVoice
  simp only [modebuildAdd_issued issued, modebuildAdd_received, ← voiced]
  split
  · split
    · exact ⟨rfl, Or.inl ⟨rfl, alike⟩⟩
    · have next := alike.voiceChmember mptr
      exact ⟨rfl, Or.inr ⟨rfl, next.channel, next.userChannels, next.member⟩⟩
  · split
    · have bare : Chans.Alike
          { st.chans with
            voicedList := Dlink.findDestroy mptr st.chans.voicedList }
          { r with voicedList := Dlink.findDestroy mptr r.voicedList } :=
        ⟨alike.channel, alike.userChannels, alike.member⟩
      exact ⟨rfl, Or.inr ⟨rfl, bare.devoiceChmember mptr⟩⟩
    · exact ⟨rfl, Or.inr ⟨rfl, alike⟩⟩

theorem prefixMode_told {p : Char} {nick : CString}
    (issued : call.sourceP.isSome = true) (letter : p = 'o' ∨ p = 'v')
    (alike : Chans.Alike st.chans r) :
    (st.prefixMode call p nick).args = st.args ∧
    (((st.prefixMode call p nick).built = st.built ∧
      Chans.Alike (st.prefixMode call p nick).chans r) ∨
    ((st.prefixMode call p nick).built =
        st.built ++ [⟨st.dir, p, some nick⟩] ∧
      Chans.Alike (st.prefixMode call p nick).chans
        (FullMode.prefixMode call.received p nick
          ⟨r, [], st.dir, []⟩).chans)) := by
  have services : call.received.findService nick = call.findService nick := rfl
  have users : call.received.findUser nick = call.findUser nick := rfl
  unfold prefixMode
  rw [services, users]
  cases call.findService nick with
  | some target =>
      have unmoved : st.serviceOp call target p = st := by
        simp [serviceOp, issued]
      dsimp only
      rw [unmoved]
      exact ⟨rfl, Or.inl ⟨rfl, alike⟩⟩
  | none =>
      cases call.findUser nick with
      | none => exact ⟨rfl, Or.inl ⟨rfl, alike⟩⟩
      | some target =>
          dsimp only
          have found := alike.findChmember call.chptr target
          have elsewhere : r.findChmember call.received.chptr target =
            st.chans.findChmember call.chptr target := found.symm
          rw [elsewhere]
          cases st.chans.findChmember call.chptr target with
          | none => exact ⟨rfl, Or.inl ⟨rfl, alike⟩⟩
          | some mptr =>
              dsimp only
              cases used : st.chans.member.cell mptr with
              | none =>
                  exact ⟨rfl, Or.inl ⟨rfl, alike⟩⟩
              | some member =>
                  obtain ⟨other, there, seen⟩ := alike.seen_of_used used
                  rw [there]
                  dsimp only
                  obtain rfl | rfl := letter
                  · exact memberOp_told issued alike seen
                  · exact memberVoice_told issued alike seen

theorem prefixMode_unknown {p : Char} {nick : CString}
    (issued : call.sourceP.isSome = true)
    (unknown : call.findUser nick = none) :
    st.prefixMode call p nick = st := by
  unfold prefixMode
  rw [unknown]
  cases call.findService nick with
  | some target => simp [serviceOp, issued]
  | none => rfl

theorem told_prefix {p : Char} {nick : CString} {more : List CString}
    (issued : call.sourceP.isSome = true) (letter : p = 'o' ∨ p = 'v')
    (args : st.args = nick :: more) (given : nick ≠ [])
    (alike : Chans.Alike st.chans r) :
    Told call p st (st.nextArg.prefixMode call p nick) r := by
  cases known : call.findUser nick with
  | none =>
      rw [prefixMode_unknown issued known]
      exact .same rfl alike
  | some target =>
      have told : toldParam call st.dir p st.args = some nick := by
        obtain rfl | rfl := letter <;>
          simp [toldParam, args, emptyHead, given, known]
      obtain ⟨-, ⟨built, same⟩ | ⟨built, same⟩⟩ :
          (st.nextArg.prefixMode call p nick).args = st.nextArg.args ∧ _ :=
        prefixMode_told issued letter alike
      · exact .same built same
      · have read : ∀ chans more, FullMode.letter call.received p
            ⟨chans, nick :: more, st.dir, []⟩ =
              some ⟨(FullMode.prefixMode call.received p nick
                ⟨chans, [], st.dir, []⟩).chans, more, st.dir, []⟩ := by
          intro chans more
          have some_ : emptyHead (nick :: more) = false := by simpa [emptyHead]
          have taken : FullMode.letter call.received p
              ⟨chans, nick :: more, st.dir, []⟩ =
                some (FullMode.prefixMode call.received p nick
                  ⟨chans, more, st.dir, []⟩) := by
            obtain rfl | rfl := letter
            · show (if emptyHead (nick :: more) = true then _ else _) = _
              rw [some_]
              rfl
            · show (if emptyHead (nick :: more) = true then _ else _) = _
              rw [some_]
              rfl
          rw [taken, prefixMode_received rfl]
        obtain ⟨sound, effect⟩ : ModeChange.Sound call.received
            ⟨st.dir, p, some nick⟩ ∧ _ := ModeChange.sound_of read
        have known : p ∈ modeLetters := by
          obtain rfl | rfl := letter <;> decide
        refine .change ⟨st.dir, p, some nick⟩ built ⟨known, ?_, sound⟩ ?_
        · intro text same
          cases same
          simp [told]
        · rw [effect]
          exact same

theorem exists_of_emptyHead {args : List CString}
    (given : ¬emptyHead args = true) :
    ∃ param more, args = param :: more ∧ param ≠ [] := by
  cases args with
  | nil => exact absurd rfl given
  | cons param more =>
      exact ⟨param, more, rfl, by simpa [emptyHead] using given⟩

theorem modebuildAdd_frame (letter : Char) (arg : Option CString)
    (st : FullMode) :
    (st.modebuildAdd call letter arg).dir = st.dir ∧
      (st.modebuildAdd call letter arg).args = st.args := by
  unfold modebuildAdd
  split <;> exact ⟨rfl, rfl⟩

theorem prefixMode_frame (letter : Char) (nick : CString) :
    (st.prefixMode call letter nick).dir = st.dir ∧
      (st.prefixMode call letter nick).args = st.args := by
  unfold prefixMode
  split
  · unfold serviceOp
    split
    · exact ⟨rfl, rfl⟩
    · split
      · exact ⟨rfl, rfl⟩
      · split <;> exact ⟨rfl, rfl⟩
  · split
    · exact ⟨rfl, rfl⟩
    · split
      · exact ⟨rfl, rfl⟩
      · split
        · exact ⟨rfl, rfl⟩
        · split
          · unfold memberOp
            dsimp only
            split
            · split
              · exact ⟨rfl, rfl⟩
              · exact modebuildAdd_frame _ _ _
            · split <;> exact modebuildAdd_frame _ _ _
          · unfold memberVoice
            dsimp only
            split
            · split
              · exact ⟨rfl, rfl⟩
              · exact modebuildAdd_frame _ _ _
            · split <;> exact modebuildAdd_frame _ _ _

theorem banMode_dir (mask : CString) :
    (st.banMode call mask).dir = st.dir := by
  unfold banMode modebuildAdd
  dsimp only
  split <;> split <;> split <;> rfl

def Goes (allowSslonly : Bool) (st : FullMode) (p : Char) :
    Option FullMode → Prop
  | none => readableLetter allowSslonly st.dir p st.args = false
  | some after =>
      readableLetter allowSslonly st.dir p st.args = true ∧
        after.dir = turn st.dir p ∧
        after.args = if takesParam st.dir p then st.args.tail else st.args

theorem limit_goes (issued : call.sourceP.isSome = true) :
    Goes call.allowSslonly st 'l' (st.letter call 'l') := by
  show Goes _ st 'l' (if st.dir = true then _ else _)
  split
  · rename_i plus
    split
    · rename_i missing
      simp [Goes, readableLetter, takesParam, missing, plus]
    · rename_i given
      obtain ⟨limitS, more, args, given⟩ := exists_of_emptyHead given
      rw [args, List.headD_cons]
      dsimp only
      split
      · rename_i refused
        have wrong : validLimit limitS = false := by
          simp [validLimit, Int.not_lt.mpr refused]
        simp [Goes, readableLetter, plus, args, wrong]
      · rename_i positive
        split
        · rename_i rest
          have wrong : validLimit limitS = false := by
            simp_all [validLimit]
          simp [Goes, readableLetter, plus, args, wrong]
        · rename_i whole
          have right : validLimit limitS = true := by
            simp_all [validLimit]
          simp [Goes, readableLetter, turn, takesParam, emptyHead, given,
            right, plus, args, modebuildAdd_issued issued, onMode, onChannel,
            nextArg]
  · rename_i minus
    simp [Goes, readableLetter, turn, takesParam, minus,
      modebuildAdd_issued issued, onMode, onChannel]

theorem status_goes {p : Char} (letter : p = 'o' ∨ p = 'v')
    (given : emptyHead st.args = false) :
    Goes call.allowSslonly st p
      (some (st.nextArg.prefixMode call p (st.args.headD []))) := by
  have apart : p ≠ '+' ∧ p ≠ '-' ∧ p ≠ 'S' ∧ p ≠ 'l' := by
    obtain rfl | rfl := letter <;> decide
  have kept : turn st.dir p = st.dir := by
    simp [turn, apart]
  have heard : readableLetter call.allowSslonly st.dir p st.args = true := by
    simp [readableLetter, given, apart]
  have taken : takesParam st.dir p = true := by
    obtain rfl | rfl := letter <;> rfl
  obtain ⟨dir, args⟩ : (st.nextArg.prefixMode call p
      (st.args.headD [])).dir = st.dir ∧ _ := prefixMode_frame p _
  refine ⟨heard, dir.trans kept.symm, ?_⟩
  rw [args, if_pos taken]
  rfl

theorem letter_goes {p : Char} (issued : call.sourceP.isSome = true) :
    Goes call.allowSslonly st p (st.letter call p) := by
  have limit : Goes call.allowSslonly st 'l' (st.letter call 'l') :=
    limit_goes issued
  unfold letter at limit ⊢
  split
  case h_1 => simp [Goes, readableLetter, turn, takesParam]
  case h_2 => simp [Goes, readableLetter, turn, takesParam]
  case h_3 =>
    split
    · rename_i allowed
      simp [Goes, readableLetter, turn, takesParam, allowed,
        modebuildAdd_issued issued, onMode, onChannel]
    · rename_i refused
      simp [Goes, readableLetter, refused]
  case h_4 =>
    split
    · rename_i missing
      simp [Goes, readableLetter, takesParam, missing]
    · rename_i given
      split <;> simp [Goes, readableLetter, turn, takesParam, given,
        modebuildAdd_issued issued, onMode, onChannel, nextArg]
  case h_5 => exact limit
  case h_6 =>
    split
    · rename_i missing
      simp [Goes, readableLetter, takesParam, missing]
    · rename_i given
      simp [Goes, readableLetter, turn, takesParam, given, nextArg,
        banMode_dir, banMode_args]
  case h_7 =>
    split
    · rename_i missing
      simp [Goes, readableLetter, takesParam, missing]
    · rename_i given
      simp [Goes, readableLetter, turn, takesParam, given, nextArg,
        modebuildAdd_issued issued, onChannel]
  case h_8 =>
    split
    · rename_i missing
      simp [Goes, readableLetter, takesParam, missing]
    · rename_i given
      simp [Goes, readableLetter, turn, takesParam, given, nextArg,
        modebuildAdd_issued issued, onChannel]
  case h_9 plus minus ssl key limit ban except invite =>
    split
    · rename_i status
      have letter : p = 'o' ∨ p = 'v' := by simpa using status
      split
      · rename_i missing
        obtain rfl | rfl := letter <;>
          simp [Goes, readableLetter, takesParam, missing]
      · rename_i given
        exact status_goes letter (Bool.eq_false_of_not_eq_true given)
    · rename_i other
      have apart : p ≠ '+' ∧ p ≠ '-' ∧ p ≠ 'S' ∧ p ≠ 'l' :=
        ⟨plus, minus, ssl, limit⟩
      have kept : turn st.dir p = st.dir := by
        simp [turn, apart]
      have plain : takesParam st.dir p = false := by
        simp_all [takesParam]
      have heard :
          readableLetter call.allowSslonly st.dir p st.args = true := by
        simp [readableLetter, plain, apart]
      split
      · simp [Goes, heard, kept, plain, modebuildAdd_issued issued, onMode,
          onChannel]
      · simp [Goes, heard, kept, plain]

theorem loop_finished (issued : call.sourceP.isSome = true)
    (modes : List Char) :
    (loop call modes st).2 =
      readable call.allowSslonly modes st.dir st.args := by
  induction modes generalizing st with
  | nil => rfl
  | cons p rest ih =>
      have goes : Goes call.allowSslonly st p _ := letter_goes issued
      unfold loop readable
      cases taken : st.letter call p with
      | none =>
          rw [taken] at goes
          have refused : readableLetter call.allowSslonly st.dir p st.args =
            false := goes
          rw [refused]
          rfl
      | some after =>
          rw [taken] at goes
          obtain ⟨heard, dir, args⟩ := goes
          rw [heard, ← dir, ← args, Bool.true_and]
          exact ih

theorem told_key {after : FullMode} (issued : call.sourceP.isSome = true)
    (alike : Chans.Alike st.chans r) (taken : st.letter call 'k' = some after) :
    Told call 'k' st after r := by
  simp only [letter] at taken
  split at taken
  · cases taken
  · rename_i given
    obtain ⟨param, more, args, given⟩ := exists_of_emptyHead given
    have key : strlcpy (keyLen + 1) param ≠ [] :=
      strlcpy_ne_nil (by decide) given
    split at taken
    · rename_i plus
      cases taken
      rw [modebuildAdd_issued issued]
      refine told_channel rfl rfl (by decide) ?_ ?_ alike
      · intro text same
        cases same
        simp [toldParam, args, emptyHead, given, plus]
      · intro chans more
        have twice : strlcpy (keyLen + 1) (strlcpy (keyLen + 1) param) =
            strlcpy (keyLen + 1) param := by
          simp [strlcpy, List.take_take]
        simp [letter, plus, args, emptyHead, key, twice, onMode, onChannel,
          nextArg, modebuildAdd_received]
        rfl
    · rename_i minus
      cases taken
      rw [modebuildAdd_issued issued]
      refine told_channel rfl rfl (by decide) ?_ ?_ alike
      · intro text same
        cases same
        simp [toldParam, args, emptyHead, given, minus]
      · intro chans more
        simp [letter, minus, emptyHead, onMode, onChannel, nextArg,
          modebuildAdd_received]
        rfl

theorem told_limit {after : FullMode} (issued : call.sourceP.isSome = true)
    (alike : Chans.Alike st.chans r) (taken : st.letter call 'l' = some after) :
    Told call 'l' st after r := by
  simp only [letter] at taken
  split at taken
  · rename_i plus
    split at taken
    · cases taken
    · rename_i given
      obtain ⟨param, more, args, given⟩ := exists_of_emptyHead given
      split at taken
      · cases taken
      · rename_i positive
        split at taken
        · cases taken
        · cases taken
          rw [modebuildAdd_issued issued]
          refine told_channel rfl rfl (by decide) ?_ ?_ alike
          · intro text same
            cases same
            simp [toldParam, args, emptyHead, given, plus]
          · intro chans more
            have unsourced : call.received.sourceP = none := rfl
            rw [args] at positive
            simp only [List.headD_cons] at positive
            simp [letter, plus, args, emptyHead, given, positive, unsourced,
              onMode, onChannel, nextArg, modebuildAdd_received]
            rfl
  · rename_i minus
    cases taken
    rw [modebuildAdd_issued issued]
    refine told_channel rfl rfl (by decide) (by simp) ?_ alike
    intro chans more
    simp [letter, minus, onMode, onChannel, modebuildAdd_received]
    rfl

theorem letter_told {p : Char} {after : FullMode}
    (issued : call.sourceP.isSome = true) (alike : Chans.Alike st.chans r)
    (taken : st.letter call p = some after) : Told call p st after r := by
  unfold letter at taken
  split at taken
  case h_1 => cases taken; exact .same rfl alike
  case h_2 => cases taken; exact .same rfl alike
  case h_3 =>
    split at taken
    · cases taken
      rw [modebuildAdd_issued issued]
      refine told_channel rfl rfl (by decide) (by simp) ?_ alike
      intro chans more
      rfl
    · cases taken
  case h_4 => exact told_key issued alike taken
  case h_5 => exact told_limit issued alike taken
  case h_6 =>
    split at taken
    · cases taken
    · rename_i given
      obtain ⟨param, more, args, given⟩ := exists_of_emptyHead given
      cases taken
      rw [args]
      exact told_ban issued args given alike
  case h_7 | h_8 =>
    split at taken
    · cases taken
    · rename_i given
      obtain ⟨param, more, args, given⟩ := exists_of_emptyHead given
      cases taken
      rw [modebuildAdd_issued issued]
      refine told_channel rfl rfl (by decide) ?_ ?_ alike
      · intro text same
        cases same
        simp [toldParam, args, emptyHead, given]
      · intro chans more
        simp [letter, args, emptyHead, given, onChannel, nextArg,
          modebuildAdd_received]
        rfl
  case h_9 =>
    split at taken
    · rename_i status
      split at taken
      · cases taken
      · rename_i given
        obtain ⟨param, more, args, given⟩ := exists_of_emptyHead given
        cases taken
        have letter : p = 'o' ∨ p = 'v' := by simpa using status
        rw [args]
        exact told_prefix issued letter args given alike
    · split at taken
      · rename_i bit simple
        cases taken
        rw [modebuildAdd_issued issued]
        refine told_channel rfl rfl (mem_modeLetters_of_simple simple)
          (by simp) ?_ alike
        intro chans more
        rw [letter_simple simple]
        rfl
      · cases taken
        exact .same rfl alike

theorem Tellable.mono {told more : List CString} {change : ModeChange}
    (tellable : Tellable call told change) (sub : ∀ arg ∈ told, arg ∈ more) :
    Tellable call more change where
  known := tellable.known
  given := fun arg same => sub arg (tellable.given arg same)
  sound := tellable.sound

def applyAll (call : FullModeCall) (changes : List ModeChange)
    (chans : Chans) : Chans :=
  changes.foldl (fun chans change => change.apply call.received chans) chans

theorem applyAll_append (first second : List ModeChange) (chans : Chans) :
    applyAll call (first ++ second) chans =
      applyAll call second (applyAll call first chans) :=
  List.foldl_append

theorem loop_told (issued : call.sourceP.isSome = true)
    (alike : Chans.Alike st.chans r) (modes : List Char) :
    ∃ changes, (loop call modes st).1.built = st.built ++ changes ∧
      (∀ change ∈ changes,
        Tellable call (toldParams call modes st.dir st.args) change) ∧
      Chans.Alike (loop call modes st).1.chans (applyAll call changes r) := by
  induction modes generalizing st r with
  | nil => exact ⟨[], by simp [loop], by simp, alike⟩
  | cons p rest ih =>
      unfold loop
      have goes : Goes call.allowSslonly st p _ := letter_goes issued
      cases taken : st.letter call p with
      | none => exact ⟨[], by simp, by simp, alike⟩
      | some after =>
          rw [taken] at goes
          obtain ⟨-, dir, args⟩ := goes
          rw [toldParams, ← dir, ← args]
          cases letter_told issued alike taken with
          | same built still =>
              obtain ⟨changes, more, tellable, last⟩ := ih still
              refine ⟨changes, by rw [more, built], ?_, last⟩
              exact fun change listed => (tellable change listed).mono
                fun arg told => List.mem_append_right _ told
          | change change built first still =>
              obtain ⟨changes, more, tellable, last⟩ := ih still
              refine ⟨change :: changes, ?_, ?_, last⟩
              · rw [more, built, List.append_assoc]
                rfl
              · intro other listed
                obtain rfl | listed := List.mem_cons.mp listed
                · exact first.mono fun arg told => List.mem_append_left _ told
                · exact (tellable other listed).mono
                    fun arg told => List.mem_append_right _ told

theorem loop_letters {changes : List ModeChange}
    (sound : ∀ change ∈ changes, change.Sound call.received)
    (chans : Chans) (dir : Bool) :
    ((loop call.received (ModeChange.letters changes)
        ⟨chans, ModeChange.args changes, dir, []⟩).1).chans =
      applyAll call changes chans := by
  induction changes generalizing chans dir with
  | nil => rfl
  | cons change rest ih =>
      have signed : FullMode.letter call.received change.sign
          ⟨chans, ModeChange.args (change :: rest), dir, []⟩ =
            some ⟨chans, ModeChange.args (change :: rest), change.dir, []⟩ := by
        unfold ModeChange.sign
        cases change.dir <;> rfl
      have args : ModeChange.args (change :: rest) =
          change.arg.toList ++ ModeChange.args rest := by
        unfold ModeChange.args
        cases given : change.arg <;> simp [given]
      show (loop call.received (change.sign :: change.letter ::
        ModeChange.letters rest) _).1.chans = _
      rw [loop, signed]
      dsimp only
      rw [loop, args, sound change (by simp)]
      exact ih (fun other listed => sound other (List.mem_cons_of_mem _ listed))
        _ _

end FullMode

end RatboxServices
