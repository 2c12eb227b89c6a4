import RatboxServices.Net.ChannelEvolve
import RatboxServices.Net.ModeAgree

namespace RatboxServices

open Chans (Laws Evolves)

/-! Limit and key beside their bits, along every run of the daemon. -/

namespace Channel

def KeepsAgreement (before after : Channel) : Prop :=
  before.mode.Agrees → after.mode.Agrees

def ModeAgrees (ch : Channel) : Prop :=
  ch.mode.Agrees

end Channel

open Channel (KeepsAgreement ModeAgrees)

def ChanAct.modesFit (s : Chans) : ChanAct → Prop
  | .enforce _ emode => emode.Enforceable
  | .join _ chname tsinfo mode override =>
      (s.findChannel chname = none → Chmode.Settable mode {}) ∧
      (override = true → ∀ chptr ch, s.findChannel chname = some chptr →
        s.channel.cell chptr = some ch → tsinfo < ch.tsinfo →
        Chmode.Settable mode ch.mode)
  | _ => True

theorem modeLaws (now : Int) :
    Laws KeepsAgreement ModeAgrees ChanAct.modesFit now where
  refl := fun _ agrees => agrees
  trans := fun first second agrees => second (first agrees)
  born := fun agrees kept => kept agrees
  same := by
    intro ch after same agrees
    show after.mode.Agrees
    rw [same.2]
    exact agrees
  letter := fun letter agrees => agrees.letter letter
  cleared := fun _ _ => Chmode.agrees_empty
  takenOver := by
    intro ch bits _ noMode noLimit noKey _
    rw [noMode]
    refine ⟨?_, ?_⟩
    · show Word.has bits modeLimit = true ↔ _
      simp [noLimit]
    · show Word.has bits modeKey = true ↔ _
      simp [noKey]
  reborn := by
    intro name tsinfo _
    have settable : Chmode.Settable none {} := by
      refine ⟨?_, fun _ => ⟨rfl, Int.le_refl 0⟩⟩
      intro m impossible
      cases impossible
    exact settable.agrees
  enforce := fun fits _ agrees => agrees.enforce fits
  lowerts := fun fits _ bursting agrees => agrees.enforceLowerts fits bursting
  create := fun fits absent _ => (fits.1 absent).agrees
  override := fun fits found used lower _ =>
    (fits.2 rfl _ _ found used lower).agrees

namespace State

def JoinTarget.oldmode (target : JoinTarget) (s : State) : Chmode :=
  if target.keepOld s then (s.chans.channel.get (target.chptr s)).mode else {}

section Settled

variable {target : JoinTarget} {s : State} {removeBans : Bool} {ch : Channel}

theorem found_mode
    (used : (target.found s).chans.channel.cell (target.chptr s) = some ch) :
    ch.mode = if s.chans.findChannel target.chname = none then {}
      else (s.chans.channel.get (target.chptr s)).mode := by
  unfold JoinTarget.found JoinTarget.chptr joinChannel at used
  unfold JoinTarget.chptr joinChannel
  cases found : s.chans.findChannel target.chname with
  | none =>
      rw [found] at used
      simp only [Chans.createChannel, Chans.addChannel, Chans.onBucket,
        Heap.alloc_cell_next, Option.some.injEq] at used
      subst used
      rfl
  | some chptr =>
      rw [found] at used
      dsimp only at used ⊢
      split at used
      · rename_i zero
        obtain ⟨before, there, rfl⟩ := Heap.cell_of_modify used
        rw [if_pos rfl, if_neg (by simp), if_pos zero, Heap.get_eq there]
      · rename_i nonzero
        rw [if_neg (by simp), if_neg nonzero, Heap.get_eq used]

theorem keepOld_of_none (absent : s.chans.findChannel target.chname = none) :
    target.keepOld s = false := by
  rw [JoinTarget.keepOld, joinChannel, absent]

theorem settled_mode
    (used : (target.settled s removeBans).chans.channel.cell
      (target.chptr s) = some ch) : ch.mode = target.oldmode s := by
  unfold JoinTarget.oldmode
  unfold JoinTarget.settled applyOldModes at used
  split at used
  · rename_i kept
    rw [if_pos kept, found_mode used, if_neg]
    intro absent
    rw [keepOld_of_none absent] at kept
    cases kept
  · rename_i dropped
    rw [if_neg dropped]
    rw [onChans_chans, dropOldModes_eq] at used
    obtain ⟨before, _, rfl⟩ := Heap.cell_of_modify used
    rw [if_pos rfl]
    rfl

end Settled

/-- The modes of the `SJOIN`, where they count, can be merged into those the
channel keeps. -/
def SjoinCall.ModesFit (call : SjoinCall) (s : State) : Prop :=
  call.target.keepNew s = true →
    Chmode.Mergeable call.newmode (call.target.oldmode s)

instance (call : SjoinCall) (s : State) : Decidable (call.ModesFit s) :=
  inferInstanceAs (Decidable (_ → _))

/-- The `SJOIN` that the line makes. -/
def lineSjoin (env : Env) (s : State) (line : Incoming) : Option SjoinCall :=
  match lineCall env s line.text with
  | some (.sjoin, clientP, parv) => s.sjoinCall clientP parv
  | _ => none

/-- The line brings no modes that the channel cannot take, and neither do the
services while it is handled. -/
structure LineModesFit (env : Env) (now : Int) (s : State)
    (line : Incoming) : Prop where
  sjoin : ∀ call ∈ lineSjoin env s line, call.ModesFit s
  services : ∀ command clientP parv,
    lineCall env s line.text = some (command, clientP, parv) →
    ServicesSuit ChanAct.modesFit env now clientP parv s command

structure ModesFit (env : Env) (s : State) (event : Event) : Prop where
  act : EventActSuits ChanAct.modesFit s event
  lines : MeetsLines env (LineModesFit env event.now) s event

variable {env : Env} {s : State}

theorem targetFits_modes (target : JoinTarget) :
    TargetFits KeepsAgreement ModeAgrees target where
  born := fun _ => Chmode.agrees_empty
  zero := fun _ _ agrees => agrees
  lower := fun _ _ agrees => agrees

theorem sjoinCall_parsed {clientP : ClientId} {parv : List CString}
    {call : SjoinCall} (read : s.sjoinCall clientP parv = some call) :
    call.newmode.Parsed := by
  unfold sjoinCall at read
  split at read
  · cases read
  · split at read
    · rename_i client newmode args _ parsed
      cases read
      exact Chmode.sjoinParse_parsed parsed
    · cases read

theorem eventSuits_of_modesFit {event : Event} (fits : ModesFit env s event) :
    EventSuits KeepsAgreement ModeAgrees ChanAct.modesFit env s event where
  laws := modeLaws event.now
  act := fits.act
  lines := by
    refine fits.lines.mono fun u line fits => ⟨?_, fits.services⟩
    intro command clientP parv called
    cases command with
    | sjoin =>
        refine ⟨targetFits_modes _, fun call read kept ch used agrees => ?_⟩
        show Chmode.Agrees (mergeMode call.newmode ch.mode)
        rw [settled_mode used] at agrees ⊢
        refine agrees.merge (sjoinCall_parsed read) (fits.sjoin call ?_ kept)
        rw [lineSjoin, called]
        exact read
    | join => exact targetFits_modes _
    | _ => exact trivial

/-- In every run whose events bring no modes that a channel cannot take, the
bits of limit and key agree with their values in every channel. -/
theorem modesAgree_of_run {blocks : List ServiceBlock} {pingTime : Int}
    {events : List Event}
    (fits : Meets (step env) (ModesFit env) (start blocks pingTime) events)
    (reached : run (step env) (start blocks pingTime) events = .ok s)
    (c : ChannelId) (ch : Channel)
    (used : s.chans.channel.cell c = some ch) :
    (ch.mode.mode.has modeLimit = true ↔ 0 < ch.mode.limit) ∧
      (ch.mode.mode.has modeKey = true ↔ ch.mode.key ≠ []) := by
  have evolves : Evolves KeepsAgreement ModeAgrees
      (start blocks pingTime).chans s.chans :=
    run_evolves (modeLaws 0)
      (fits.mono fun _ _ fits => eventSuits_of_modesFit fits) reached
  have agrees : ch.mode.Agrees :=
    evolves.forall_of_forall (fun _ _ kept => kept) (fun _ born => born)
      (fun _ _ impossible => by cases impossible) used
  exact ⟨agrees.limit, agrees.key⟩

def keysAndLimits : List Event :=
  linkUp
    [⟨":0AB UID one 1 5 +i u h 0 0ABAAAAAA :g".toList, false⟩,
      ⟨":0AB SJOIN 5 #a +kl secret 10 :@0ABAAAAAA".toList, false⟩,
      ⟨":0AB SJOIN 5 #a +kn hidden :@0ABAAAAAA".toList, false⟩,
      ⟨":0ABAAAAAA MODE #a -l".toList, false⟩]

theorem modesAgree_keysAndLimits :
    ∃ s ch, run (step .quiet) (start [] 300) keysAndLimits = .ok s ∧
      s.chans.channel.cell 0 = some ch ∧
      ch.mode = ⟨.ofBits [modeNoexternal, modeKey], "hidden".toList, 0⟩ ∧
      (ch.mode.mode.has modeLimit = true ↔ 0 < ch.mode.limit) ∧
      (ch.mode.mode.has modeKey = true ↔ ch.mode.key ≠ []) := by
  have observed : (run (step .quiet) (start [] 300)
      keysAndLimits).toOption.map
        (fun s => (s.chans.channel.cell 0).map Channel.mode) =
      some (some ⟨.ofBits [modeNoexternal, modeKey], "hidden".toList, 0⟩) := by
    decide +kernel
  have merges : Meets (step .quiet) (fun s event => event.isService = false ∧
      MeetsLines .quiet (fun s line => ∀ call ∈ lineSjoin .quiet s line,
        call.ModesFit s) s event) (start [] 300) keysAndLimits := by
    decide +kernel
  have fits : Meets (step .quiet) (ModesFit .quiet) (start [] 300)
      keysAndLimits := by
    refine merges.mono fun s event merges => ⟨?_, ?_⟩
    · cases event with
      | service now act => cases merges.1
      | _ => exact trivial
    · exact merges.2.mono fun u line merges =>
        ⟨merges, fun _ _ _ _ => quiet_servicesSuit⟩
  obtain ⟨s, reached, seen⟩ := Except.exists_of_observed observed
  obtain ⟨ch, used, mode⟩ := Option.map_eq_some_iff.mp seen
  exact ⟨s, ch, reached, used, mode, modesAgree_of_run fits reached 0 ch used⟩

/-- The second `SJOIN` has no key. -/
def keyForgotten : List Event :=
  linkUp
    [⟨":0AB UID one 1 5 +i u h 0 0ABAAAAAA :g".toList, false⟩,
      ⟨":0AB SJOIN 5 #a +k secret :@0ABAAAAAA".toList, false⟩,
      ⟨":0AB SJOIN 5 #a +n :@0ABAAAAAA".toList, false⟩]

theorem not_modesAgree_keyForgotten :
    ∃ s ch, run (step .quiet) (start [] 300) keyForgotten = .ok s ∧
      s.chans.channel.cell 0 = some ch ∧
      ¬(ch.mode.mode.has modeKey = true ↔ ch.mode.key ≠ []) := by
  have observed : (run (step .quiet) (start [] 300)
      keyForgotten).toOption.map
        (fun s => (s.chans.channel.cell 0).map Channel.mode) =
      some (some ⟨.ofBits [modeNoexternal, modeKey], [], 0⟩) := by
    decide +kernel
  obtain ⟨s, reached, seen⟩ := Except.exists_of_observed observed
  obtain ⟨ch, used, mode⟩ := Option.map_eq_some_iff.mp seen
  refine ⟨s, ch, reached, used, ?_⟩
  rw [mode]
  decide

end State

end RatboxServices
