import RatboxServices.Net.ChannelName

namespace RatboxServices

open CString

/-! The channels of a store as a list, in the order of `channel_list`. -/

namespace Chans

def channels (s : Chans) : List Channel :=
  s.channelList.filterMap s.channel.cell

structure Listed (s : Chans) : Prop where
  named : Named s
  list : Exactly s.channelList (s.channel.Has fun _ => True)
  valid : ∀ c ch, s.channel.cell c = some ch → validChname ch.name = true

variable {s : Chans} {ch : Channel} {name : CString}

theorem Listed.mem_channelList (listed : Listed s) {c : ChannelId}
    (used : s.channel.cell c = some ch) : c ∈ s.channelList :=
  (listed.list.mem_iff c).mpr ⟨ch, used, trivial⟩

theorem Listed.mem_channels (listed : Listed s) :
    ch ∈ s.channels ↔ ∃ c, s.channel.cell c = some ch := by
  unfold channels
  rw [List.mem_filterMap]
  constructor
  · rintro ⟨c, _, used⟩
    exact ⟨c, used⟩
  · rintro ⟨c, used⟩
    exact ⟨c, listed.mem_channelList used, used⟩

structure IsTable (table : List Channel) : Prop where
  valid : ∀ ch ∈ table, validChname ch.name = true
  distinct : table.Pairwise fun left right =>
    irccmp left.name right.name = false

theorem Listed.isTable (listed : Listed s) : IsTable s.channels where
  valid := by
    intro ch there
    obtain ⟨c, used⟩ := listed.mem_channels.mp there
    exact listed.valid c ch used
  distinct := by
    unfold channels
    rw [List.pairwise_filterMap]
    apply listed.list.nodup.imp_of_mem
    intro c d _ _ apart ch used other there
    by_contra same
    rw [Bool.not_eq_false] at same
    exact apart (listed.named.distinct c d ch other used there same)

theorem Listed.find (listed : Listed s) (name : CString) :
    (s.findChannel name).bind s.channel.cell =
      s.channels.find? fun ch => irccmp ch.name name := by
  cases found : s.findChannel name with
  | none =>
      symm
      apply List.find?_eq_none.mpr
      intro ch there
      obtain ⟨c, used⟩ := listed.mem_channels.mp there
      rw [listed.named.irccmp_eq_false found used]
      exact Bool.false_ne_true
  | some c =>
      obtain ⟨ch, used, same⟩ := exists_of_findChannel found
      have there : ch ∈ s.channels := listed.mem_channels.mpr ⟨c, used⟩
      have some_ : (s.channels.find?
          fun ch => irccmp ch.name name).isSome = true :=
        List.find?_isSome.mpr ⟨ch, there, same⟩
      obtain ⟨other, first⟩ := Option.isSome_iff_exists.mp some_
      obtain ⟨d, place⟩ :=
        listed.mem_channels.mp (List.mem_of_find?_eq_some first)
      have again : irccmp other.name name = true :=
        List.find?_some (p := fun ch : Channel => irccmp ch.name name) first
      have equal : c = d := by
        apply listed.named.distinct c d ch other used place
        apply irccmp_iff.mpr
        exact (irccmp_iff.mp same).trans
          (irccmp_iff.mp again).symm
      rw [first, equal, Option.bind_some, place]

def link (ch : Channel) (s : Chans) : Chans :=
  (s.createChannel ch.name ch.tsinfo ch.mode).1.modifyChannel s.channel.next
    fun made => { ch with name := made.name }

def ofTable (table : List Channel) : Chans :=
  table.foldr link empty

theorem cell_link (valid : validChname ch.name = true) (c : ChannelId) :
    (s.link ch).channel.cell c =
      if c = s.channel.next then some ch else s.channel.cell c := by
  have stored : strlcpy (channelLen + 1) ch.name = ch.name := by
    simp [strlcpy, List.take_of_length_le (Named.fits_of_validChname valid)]
  change ((s.channel.alloc _).modify s.channel.next _).cell c = _
  rw [Heap.modify_cell]
  split
  · rename_i same
    rw [Heap.alloc_cell_next, Option.map_some, stored]
  · rename_i other
    rw [Heap.alloc_cell, if_neg other]

theorem Listed.link (listed : Listed s) (valid : validChname ch.name = true)
    (absent : ∀ old ∈ s.channels, irccmp ch.name old.name = false) :
    Listed (s.link ch) ∧ (s.link ch).channels = ch :: s.channels := by
  have free : s.findChannel ch.name = none := by
    cases found : s.findChannel ch.name with
    | none => rfl
    | some c =>
        obtain ⟨old, used, same⟩ := exists_of_findChannel found
        have differs := absent old (listed.mem_channels.mpr ⟨c, used⟩)
        rw [irccmp_comm same] at differs
        cases differs
  have order : (s.link ch).channelList =
      s.channel.next :: s.channelList := rfl
  constructor
  · exact {
      named := by
        apply (listed.named.createChannel free
          (Named.fits_of_validChname valid)).congr
        exact .modifyChannel _ fun _ => rfl
      list := by
        have grown := listed.list.add
          (Heap.not_has_of_free s.channel.cell_next)
        rw [order]
        refine grown.congr fun c => ?_
        unfold Heap.Has
        rw [cell_link valid]
        split
        · rename_i same
          simp [same]
        · rename_i other
          simp [other]
      valid := by
        intro c other used
        rw [cell_link valid] at used
        split at used
        · cases used
          exact valid
        · exact listed.valid c other used }
  · unfold channels
    rw [order, List.filterMap_cons, cell_link valid, if_pos rfl]
    refine congrArg (ch :: ·) (List.filterMap_congr fun c there => ?_)
    rw [cell_link valid, if_neg]
    rintro rfl
    exact Heap.not_has_of_free s.channel.cell_next
      ((listed.list.mem_iff _).mp there)

theorem listed_ofTable {table : List Channel} (good : IsTable table) :
    Listed (ofTable table) ∧ (ofTable table).channels = table := by
  induction table with
  | nil =>
      refine ⟨⟨Named.empty, .nil ?_, ?_⟩, rfl⟩
      · simp [Heap.Has, ofTable, empty]
      · simp [ofTable, empty]
  | cons ch rest ih =>
      obtain ⟨apart, distinct⟩ := List.pairwise_cons.mp good.distinct
      obtain ⟨listed, same⟩ := ih
        ⟨fun other there => good.valid other (List.mem_cons_of_mem _ there),
          distinct⟩
      obtain ⟨grown, more⟩ := listed.link (good.valid ch List.mem_cons_self)
        (by rw [same]; exact apart)
      exact ⟨grown, more.trans (congrArg (ch :: ·) same)⟩

end Chans

end RatboxServices
