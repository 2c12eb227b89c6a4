import RatboxServices.Irc.Line
import RatboxServices.Irc.Match
import RatboxServices.Lib.Split
import RatboxServices.Net.ChannelCommand

namespace RatboxServices

open CString

/-! The lists of masks of a channel: that no mask is in one twice, what a
`BMASK` adds to one, and the loop over its masks. -/

def Lacks (list : List CString) (mask : CString) : Prop :=
  ∀ ban ∈ list, irccmp ban mask = false

def DistinctMasks (list : List CString) : Prop :=
  list.Pairwise fun left right => irccmp left right = false

theorem irccmp_swap (left right : CString) :
    irccmp left right = irccmp right left :=
  Bool.eq_iff_iff.mpr ⟨irccmp_comm, irccmp_comm⟩

theorem lacks_iff {list : List CString} {mask : CString} :
    Lacks list mask ↔ (list.any fun ban => irccmp ban mask) = false := by
  rw [List.any_eq_false]
  apply forall₂_congr
  intro ban listed
  rw [Bool.not_eq_true]

instance (list : List CString) (mask : CString) :
    Decidable (Lacks list mask) :=
  decidable_of_iff _ lacks_iff.symm

theorem addBan_of_lacks {list : List CString} {mask : CString}
    (lacks : Lacks list mask) :
    addBan mask list = some (Dlink.add mask list) := by
  unfold addBan
  rw [lacks_iff.mp lacks]
  rfl

theorem addBan_of_not_lacks {list : List CString} {mask : CString}
    (present : ¬Lacks list mask) : addBan mask list = none := by
  rw [lacks_iff, Bool.not_eq_false] at present
  unfold addBan
  rw [present]
  rfl

namespace DistinctMasks

variable {list part after : List CString} {mask ban : CString}

theorem nil : DistinctMasks [] :=
  List.Pairwise.nil

theorem sublist (distinct : DistinctMasks list) (part_ : part.Sublist list) :
    DistinctMasks part :=
  List.Pairwise.sublist part_ distinct

theorem add (distinct : DistinctMasks list) (lacks : Lacks list mask) :
    DistinctMasks (Dlink.add mask list) := by
  apply List.pairwise_cons.mpr
  refine ⟨fun ban listed => ?_, distinct⟩
  rw [irccmp_swap]
  exact lacks ban listed

theorem addBan (distinct : DistinctMasks list)
    (added : RatboxServices.addBan mask list = some after) :
    DistinctMasks after := by
  by_cases lacks : Lacks list mask
  · rw [addBan_of_lacks lacks] at added
    cases added
    exact distinct.add lacks
  · rw [addBan_of_not_lacks lacks] at added
    cases added

theorem delBan (distinct : DistinctMasks list)
    (removed : RatboxServices.delBan mask list = some (ban, after)) :
    DistinctMasks after := by
  unfold RatboxServices.delBan at removed
  split at removed
  · cases removed
  · cases removed
    exact distinct.sublist (Dlink.delete_sublist _ _)

theorem listMode (distinct : DistinctMasks list) (dir : Bool)
    (mask : CString) :
    DistinctMasks (FullMode.listMode dir mask list) := by
  unfold FullMode.listMode
  split
  · cases added : RatboxServices.addBan mask list with
    | none => exact distinct
    | some after => exact distinct.addBan added
  · cases removed : RatboxServices.delBan mask list with
    | none => exact distinct
    | some found => exact distinct.delBan removed

end DistinctMasks

def Settable (nickLen : Nat) (mask : CString) : Prop :=
  firstIs (· == ':') mask = false ∧ State.validBan nickLen mask = true

instance (nickLen : Nat) (mask : CString) : Decidable (Settable nickLen mask) :=
  inferInstanceAs (Decidable (_ ∧ _))

/-- The mask may be set, and is neither in the list nor already set by a mask
before it. -/
def NewMask (nickLen : Nat) (list masks : List CString) (mask : CString) :
    Prop :=
  ∃ earlier later, masks = earlier ++ mask :: later ∧ Settable nickLen mask ∧
    Lacks list mask ∧
    ∀ other ∈ earlier, Settable nickLen other → irccmp other mask = false

section NewMask

variable {nickLen : Nat} {list masks : List CString} {mask head : CString}

theorem not_newMask_nil : ¬NewMask nickLen list [] mask := by
  rintro ⟨earlier, later, split_, -⟩
  exact List.append_ne_nil_of_right_ne_nil earlier (List.cons_ne_nil mask later)
    split_.symm

theorem newMask_cons_iff :
    NewMask nickLen list (head :: masks) mask ↔
      (mask = head ∧ Settable nickLen head ∧ Lacks list head) ∨
      (Settable nickLen head → irccmp head mask = false) ∧
        NewMask nickLen list masks mask := by
  constructor
  · rintro ⟨earlier, later, split_, settable, lacks, fresh⟩
    cases earlier with
    | nil =>
        obtain ⟨rfl, -⟩ := List.cons.inj split_
        exact Or.inl ⟨rfl, settable, lacks⟩
    | cons first earlier =>
        obtain ⟨rfl, rest⟩ := List.cons.inj split_
        refine Or.inr ⟨fresh head List.mem_cons_self, earlier, later, rest,
          settable, lacks, fun other listed => ?_⟩
        exact fresh other (List.mem_cons_of_mem _ listed)
  · rintro (⟨rfl, settable, lacks⟩ | ⟨differs, new⟩)
    · refine ⟨[], masks, rfl, settable, lacks, fun other listed => ?_⟩
      exact absurd listed List.not_mem_nil
    · obtain ⟨earlier, later, rfl, settable, lacks, fresh⟩ := new
      refine ⟨head :: earlier, later, rfl, settable, lacks,
        fun other listed => ?_⟩
      rcases List.mem_cons.mp listed with rfl | listed
      · exact differs
      · exact fresh other listed

theorem newMask_add_iff :
    NewMask nickLen (Dlink.add head list) masks mask ↔
      irccmp head mask = false ∧ NewMask nickLen list masks mask := by
  have lacks : Lacks (Dlink.add head list) mask ↔
      irccmp head mask = false ∧ Lacks list mask := List.forall_mem_cons
  constructor
  · rintro ⟨earlier, later, split_, settable, lacking, fresh⟩
    obtain ⟨differs, lacking⟩ := lacks.mp lacking
    exact ⟨differs, earlier, later, split_, settable, lacking, fresh⟩
  · rintro ⟨differs, earlier, later, split_, settable, lacking, fresh⟩
    exact ⟨earlier, later, split_, settable, lacks.mpr ⟨differs, lacking⟩,
      fresh⟩

theorem NewMask.differs (new : NewMask nickLen list masks mask)
    (present : ¬Lacks list head) : irccmp head mask = false := by
  obtain ⟨-, -, -, -, lacks, -⟩ := new
  rw [← Bool.not_eq_true]
  intro same
  refine present fun ban listed => ?_
  rw [← Bool.not_eq_true]
  intro other
  have equal : irccmp ban mask = true :=
    irccmp_iff.mpr ((irccmp_iff.mp other).trans (irccmp_iff.mp same))
  rw [lacks ban listed] at equal
  cases equal

end NewMask

namespace State

/-- One turn of the loop of `c_bmask`. -/
def addMask (nickLen : Nat) (list : List CString) (mask : CString) :
    List CString :=
  if !firstIs (· == ':') mask && validBan nickLen mask then
    (addBan mask list).getD list
  else list

variable {nickLen : Nat} {list masks : List CString} {mask head : CString}

theorem addMask_eq : addMask nickLen list mask =
    if Settable nickLen mask ∧ Lacks list mask then Dlink.add mask list
    else list := by
  have test : (!firstIs (· == ':') mask && validBan nickLen mask) = true ↔
      Settable nickLen mask := by
    rw [Bool.and_eq_true, Bool.not_eq_true', Settable]
  unfold addMask
  by_cases settable : Settable nickLen mask
  · rw [if_pos (test.mpr settable)]
    by_cases lacks : Lacks list mask
    · rw [if_pos ⟨settable, lacks⟩, addBan_of_lacks lacks]
      rfl
    · rw [if_neg fun both => lacks both.2, addBan_of_not_lacks lacks]
      rfl
  · rw [if_neg fun both => settable (test.mp both),
      if_neg fun both => settable both.1]

theorem addBans_cons : addBans nickLen (head :: masks) list =
    addBans nickLen masks (addMask nickLen list head) := rfl

theorem mem_addBans : mask ∈ addBans nickLen masks list ↔
    mask ∈ list ∨ NewMask nickLen list masks mask := by
  induction masks generalizing list with
  | nil => exact ⟨Or.inl, fun either => either.resolve_right not_newMask_nil⟩
  | cons head masks ih =>
      rw [addBans_cons, ih, newMask_cons_iff, addMask_eq]
      split
      · rename_i added
        rw [newMask_add_iff, Dlink.mem_add]
        tauto
      · rename_i kept
        have old : NewMask nickLen list masks mask →
            Settable nickLen head → irccmp head mask = false :=
          fun new settable => new.differs fun lacks => kept ⟨settable, lacks⟩
        tauto

theorem suffix_addBans : list <:+ addBans nickLen masks list := by
  induction masks generalizing list with
  | nil => exact List.suffix_refl list
  | cons head masks ih =>
      rw [addBans_cons]
      refine List.IsSuffix.trans ?_ ih
      rw [addMask_eq]
      split
      · exact List.suffix_cons head list
      · exact List.suffix_refl list

theorem distinct_addBans (distinct : DistinctMasks list) :
    DistinctMasks (addBans nickLen masks list) := by
  induction masks generalizing list with
  | nil => exact distinct
  | cons head masks ih =>
      rw [addBans_cons]
      apply ih
      rw [addMask_eq]
      split
      · rename_i added
        exact distinct.add added.2
      · exact distinct

def cutSpaces (source : CString) : CString × Option CString :=
  let (mask, rest) := cut ' ' source
  (mask, rest.map (List.dropWhile (· == ' ')))

/-- The loop of `c_bmask`: `s` is cut from what `t` is left; `none` when the
turns run out. -/
def bmaskLoop (nickLen : Nat) :
    Nat → CString → Option CString → List CString → Option (List CString)
  | 0, _, _, _ => none
  | fuel + 1, s, t, list =>
      if s.isEmpty then some list
      else
        let list := addMask nickLen list s
        match t with
        -- `s` becomes `NULL`
        | none => some list
        | some rest =>
            let (s, t) := cutSpaces rest
            bmaskLoop nickLen fuel s t list

/-- `c_bmask` from the copy of the masks on. -/
def bmaskList (nickLen : Nat) (source : CString) (list : List CString) :
    Option (List CString) :=
  let (s, t) := cutSpaces (source.dropWhile (· == ' '))
  bmaskLoop nickLen (source.length + 1) s t list

theorem banMasks_cons_space (source : CString) :
    banMasks (' ' :: source) = banMasks source := by
  unfold banMasks
  rw [Split.splitOn_cons_self]
  rfl

theorem banMasks_dropWhile (source : CString) :
    banMasks (source.dropWhile (· == ' ')) = banMasks source := by
  induction source with
  | nil => rfl
  | cons c source ih =>
      by_cases space : c = ' '
      · subst space
        rw [banMasks_cons_space]
        exact ih
      · rw [List.dropWhile_cons_of_neg (by simpa using space)]

theorem banMasks_append {word : CString} (given : word ≠ [])
    (whole : ' ' ∉ word) (rest : CString) :
    banMasks (word ++ ' ' :: rest) = word :: banMasks rest := by
  unfold banMasks
  rw [List.splitOn_append_cons_self_of_not_mem whole,
    List.filter_cons_of_pos (by simpa using given)]

theorem banMasks_word {word : CString} (given : word ≠ [])
    (whole : ' ' ∉ word) : banMasks word = [word] := by
  unfold banMasks
  rw [Split.splitOn_of_not_mem whole,
    List.filter_cons_of_pos (by simpa using given)]
  rfl

/-- A string that does not begin with a space is nothing, a word, or a word and
what comes after it. -/
inductive Worded : CString → Prop
  | nothing : Worded []
  | word {word : CString} (given : word ≠ []) (whole : ' ' ∉ word) :
      Worded word
  | more {word : CString} (given : word ≠ []) (whole : ' ' ∉ word)
      (rest : CString) : Worded (word ++ ' ' :: rest)

theorem worded_dropWhile (source : CString) :
    Worded (source.dropWhile (· == ' ')) := by
  induction source with
  | nil => exact .nothing
  | cons c source ih =>
      by_cases space : c = ' '
      · rw [List.dropWhile_cons_of_pos (by simpa using space)]
        exact ih
      · rw [List.dropWhile_cons_of_neg (by simpa using space)]
        by_cases inside : ' ' ∈ c :: source
        · obtain ⟨word, rest, joined, whole⟩ :=
            List.eq_append_cons_of_mem inside
          rw [joined]
          refine .more ?_ whole rest
          rintro rfl
          exact space (List.cons.inj joined).1
        · exact .word (List.cons_ne_nil c source) inside

theorem bmaskLoop_eq {fuel : Nat} {text : CString} (worded : Worded text)
    (enough : text.length < fuel) :
    bmaskLoop nickLen fuel (cutSpaces text).1 (cutSpaces text).2 list =
      some (addBans nickLen (banMasks text) list) := by
  induction fuel generalizing text list with
  | zero => exact absurd enough (Nat.not_lt_zero _)
  | succ fuel ih =>
      cases worded with
      | nothing => rfl
      | word given whole =>
          have alone : cutSpaces text = (text, none) := by
            rw [cutSpaces, cut_of_not_mem whole]
            rfl
          rw [alone, banMasks_word given whole, addBans_cons, bmaskLoop,
            if_neg (by simpa using given)]
          rfl
      | @more word given whole rest =>
          have parts : cutSpaces (word ++ ' ' :: rest) =
              (word, some (rest.dropWhile (· == ' '))) := by
            rw [cutSpaces, cut_append whole]
            rfl
          have shorter : (rest.dropWhile (· == ' ')).length < fuel := by
            have part : (rest.dropWhile (· == ' ')).length ≤ rest.length :=
              (List.dropWhile_suffix _).length_le
            rw [List.length_append, List.length_cons] at enough
            omega
          rw [parts, banMasks_append given whole, addBans_cons, bmaskLoop,
            if_neg (by simpa using given), ← banMasks_dropWhile rest]
          exact ih (worded_dropWhile rest) shorter

theorem bmaskList_eq (nickLen : Nat) (source : CString)
    (list : List CString) :
    bmaskList nickLen source list =
      some (addBans nickLen (banMasks source) list) := by
  have part : (source.dropWhile (· == ' ')).length ≤ source.length :=
    (List.dropWhile_suffix _).length_le
  rw [← banMasks_dropWhile source]
  exact bmaskLoop_eq (worded_dropWhile source) (Nat.lt_succ_of_le part)

end State

end RatboxServices
