import RatboxServices.Serv.RegTable

namespace RatboxServices

open CString

/-! Access in every run: what is always true of the lists. -/

namespace Regs

variable {conf : ServConfig} {Given : CString → Prop} {s t : Regs}

structure Sound (s : Regs) : Prop where
  access : AccessInv (fun _ => False) s
  accounts : AccountInv s
  channels : ChannelInv s

theorem Sound.empty : Sound empty := by
  have none_ {α : Type} (P : α → Prop) (address : Nat) :
      ¬(Heap.empty : Heap α).Has P address :=
    Heap.not_has_of_free rfl
  refine ⟨⟨⟨?_, ?_, ?_, ?_, ?_⟩, ?_, ?_, ?_⟩,
    ⟨?_, ?_, ?_, ?_, ?_⟩, ⟨?_, ?_, ?_⟩⟩
  all_goals first
    | exact .nil (none_ _)
    | intro _ _ _ _ found
      cases found
    | intro _ _ found
      cases found

theorem Sound.moves {Broken : Prop} (sound : Sound s)
    (moves : Moves conf Given Broken s t) : Sound t := by
  obtain ⟨accounts, channels⟩ := moves.tables sound.accounts sound.channels
  exact ⟨moves.accessInv sound.access, accounts, channels⟩

theorem Sound.step (sound : Sound s) {event : RegEvent}
    (returned : step conf s event = .ok t) : Sound t := by
  have naming : Naming conf (fun _ => True) event :=
    ⟨fun _ _ => trivial, fun _ _ _ _ _ => trivial⟩
  have moves : Moves conf (fun _ => True) True s t :=
    step_moves naming sound.access (Or.inl trivial) returned
  exact sound.moves moves

theorem sound_of_run {events : List RegEvent}
    (reached : run (step conf) empty events = .ok s) : Sound s :=
  run_preserves Sound (fun _ _ _ sound returned => sound.step returned)
    Sound.empty reached

theorem AccessInv.listed {Unruled : ChanRegId → Prop}
    (inv : AccessInv Unruled s) {c : ChanRegId} {reg : ChanReg}
    (found : s.chan.cell c = some reg) (m : MemberRegId) :
    m ∈ reg.users ↔
      ∃ member, s.member.cell m = some member ∧ member.channelReg = c := by
  have users : s.usersOf c = some reg.users := by
    unfold usersOf
    rw [found]
    rfl
  exact (inv.wired.users c _ users).mem_iff m

def sharedChannel : List RegEvent :=
  [ ⟨100, .connect 1⟩,
    ⟨100, .userRegister 1 ⟨"alice".toList, alice_ne_nil⟩ true []⟩,
    ⟨100, .operUserRegister ⟨"bob".toList, bob_ne_nil⟩ true⟩,
    ⟨101, .chanRegister 1 "#chan".toList true⟩,
    ⟨102, .adduser 1 "#chan".toList (.account "bob".toList) "50".toList none⟩,
    ⟨103, .suspend 1 "#chan".toList (.account "bob".toList) "100".toList⟩,
    ⟨104, .delowner 1 "#chan".toList true⟩ ]

end Regs

end RatboxServices
