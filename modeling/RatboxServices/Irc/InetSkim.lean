import RatboxServices.Irc.InetAgree

namespace RatboxServices

open CString

namespace Inet

/-! `inet_pton6` reads a text as if the characters it passes over were not
there, so that it accepts more than the addresses. -/

theorem not_dotInside_filter (last : Bool) (text : CString) :
    ¬dotInside last (text.filter isHexDigit) := by
  have absent : '.' ∉ text.filter isHexDigit := by
    intro inside
    have digit := (List.mem_filter.mp inside).2
    rw [not_isHexDigit_dot] at digit
    cases digit
  unfold dotInside
  cases last with
  | false => exact absent
  | true => exact fun inside => absent (List.dropLast_subset _ inside)

theorem skimText_skimText (last : Bool) (text : CString) :
    skimText last (skimText last text) = skimText last text := by
  by_cases dot : dotInside last text
  · have whole : skimText last text = text := if_pos dot
    rw [whole, whole]
  · have digits : skimText last text = text.filter isHexDigit := if_neg dot
    rw [digits, skimText, if_neg (not_dotInside_filter last text),
      List.filter_filter]
    simp

theorem readField_skimText (last : Bool) (text : CString) :
    readField last (skimText last text) none [] =
      readField last text none [] := by
  unfold skimText
  split
  · rfl
  · rename_i plain
    rw [readField_digits plain, readField_digits (not_dotInside_filter _ _),
      hexes_filter]

theorem skimText_subset (last : Bool) (text : CString) :
    skimText last text ⊆ text := by
  unfold skimText
  split
  · exact fun _ inside => inside
  · exact List.filter_subset_self _

theorem skimText_nil (last : Bool) : skimText last [] = [] := by
  cases last <;> rfl

theorem skimText_of_not_mem {last : Bool} {text : CString}
    (absent : '.' ∉ text) : skimText last text = text.filter isHexDigit := by
  refine if_neg fun inside => absent ?_
  unfold dotInside at inside
  cases last with
  | false => exact inside
  | true => exact List.dropLast_subset _ inside

theorem IsGroup.skimText {text : CString} {bytes : List UInt8}
    (group : IsGroup text bytes) (last : Bool) :
    Inet.skimText last text = text := by
  rw [skimText_of_not_mem group.dotFree]
  exact List.filter_eq_self.mpr group.digits

theorem IsDottedQuad.skimText {text : CString} {bytes : List UInt8}
    (quad : IsDottedQuad text bytes) : Inet.skimText true text = text :=
  if_pos quad.dot

def Dropped (text last : CString) : Prop :=
  last ≠ [] ∧ skimText true last = [] ∧ '.' ∉ text ∧ skimText false text ≠ []

theorem skimFields_dropped {text last : CString} (dropped : Dropped text last) :
    skimFields [text, last] = [skimText false text] :=
  if_pos dropped

theorem skimFields_kept {text last : CString} (kept : ¬Dropped text last) :
    skimFields [text, last] = [skimText false text, skimText true last] :=
  if_neg kept

theorem skimFields_ne_nil {text : CString} {more : List CString} :
    skimFields (text :: more) ≠ [] := by
  cases more with
  | nil => exact List.cons_ne_nil _ _
  | cons next more =>
      cases more with
      | nil =>
          by_cases dropped : Dropped text next
          · rw [skimFields_dropped dropped]
            exact List.cons_ne_nil _ _
          · rw [skimFields_kept dropped]
            exact List.cons_ne_nil _ _
      | cons third more => exact List.cons_ne_nil _ _

theorem skimFields_ne_singleton {text next : CString} {more : List CString} :
    skimFields (text :: next :: more) ≠ [[]] := by
  cases more with
  | nil =>
      by_cases dropped : Dropped text next
      · rw [skimFields_dropped dropped]
        intro same
        exact dropped.2.2.2 (List.cons.inj same).1
      · rw [skimFields_kept dropped]
        intro same
        cases (List.cons.inj same).2
  | cons third more =>
      intro same
      exact skimFields_ne_nil (List.cons.inj same).2

theorem skims_cons {text : CString} {more : List CString}
    (skimmed : skimText false text = text) (given : more ≠ [])
    (skims : Skims more) : Skims (text :: more) := by
  cases more with
  | nil => exact absurd rfl given
  | cons _ _ => exact ⟨skimmed, skims⟩

theorem skims_skimFields (fields : List CString) : Skims (skimFields fields) := by
  induction fields with
  | nil => trivial
  | cons text more ih =>
      cases more with
      | nil => exact skimText_skimText true text
      | cons next more =>
          cases more with
          | nil =>
              by_cases dropped : Dropped text next
              · rw [skimFields_dropped dropped]
                have absent := dropped.2.2.1
                have again := skimText_skimText true text
                rwa [skimText_of_not_mem absent] at again ⊢
              · rw [skimFields_kept dropped]
                exact ⟨skimText_skimText false text, skimText_skimText true next⟩
          | cons third more =>
              exact skims_cons (skimText_skimText false text) skimFields_ne_nil
                ih

theorem skimFields_of_skims {fields : List CString} (skims : Skims fields) :
    skimFields fields = fields := by
  induction fields with
  | nil => rfl
  | cons text more ih =>
      cases more with
      | nil => exact congrArg (fun text => [text]) skims
      | cons next more =>
          obtain ⟨skimmed, later⟩ := skims
          cases more with
          | nil =>
              have kept : ¬Dropped text next :=
                fun dropped => dropped.1 (later.symm.trans dropped.2.1)
              have last : skimText true next = next := later
              rw [skimFields_kept kept, skimmed, last]
          | cons third more =>
              show skimText false text :: skimFields (next :: third :: more) = _
              rw [skimmed, ih later]

theorem colonFree_skimFields {fields : List CString}
    (colonFree : ∀ text ∈ fields, ':' ∉ text) :
    ∀ text ∈ skimFields fields, ':' ∉ text := by
  have kept : ∀ last, ∀ text ∈ fields, ':' ∉ skimText last text :=
    fun last text listed inside =>
      colonFree text listed (skimText_subset last text inside)
  induction fields with
  | nil => nofun
  | cons text more ih =>
      have later := ih
        (fun text listed => colonFree text (List.mem_cons_of_mem _ listed))
        (fun last text listed => kept last text (List.mem_cons_of_mem _ listed))
      cases more with
      | nil => simpa [skimFields] using kept true
      | cons next more =>
          have first := kept false text List.mem_cons_self
          cases more with
          | nil =>
              by_cases dropped : Dropped text next
              · rw [skimFields_dropped dropped]
                simpa using first
              · rw [skimFields_kept dropped]
                have second := kept true next (by simp)
                simpa using ⟨first, second⟩
          | cons third more => exact List.forall_mem_cons.mpr ⟨first, later⟩

theorem readField_kept {text last : CString} (kept : ¬Dropped text last)
    (given : last ≠ []) (empty : skimText true last = []) (value : Nat) :
    readField false text none [] ≠ .group (some value) := by
  intro read
  by_cases dot : '.' ∈ text
  · rw [readField_dot dot] at read
    cases read
  · have none_ : skimText false text = [] := by
      by_contra digits
      exact kept ⟨given, empty, dot, digits⟩
    rw [← readField_skimText, none_] at read
    cases read

theorem readFields_dropped {text last : CString} (dropped : Dropped text last)
    (out : List UInt8) (gap : Option Nat) :
    readFields [skimText false text] out gap none [] =
      readFields [text, last] out gap none [] := by
  obtain ⟨given, empty, absent, digits⟩ := dropped
  have plain : ∀ last, ¬dotInside last (skimText false text) := by
    rw [skimText_of_not_mem absent]
    exact fun last => not_dotInside_filter last text
  have same : readField true (skimText false text) none [] =
      readField false text none [] := by
    rw [← readField_skimText false, readField_digits (plain true),
      readField_digits (plain false)]
  have shown : hexes (skimText false text) ≠ [] := by
    rw [ne_eq, hexes_eq_nil_iff]
    have again := skimText_skimText false text
    rw [skimText, if_neg (plain false)] at again
    rwa [again]
  have some_ : readField false text none [] ≠ .group none := by
    rw [← readField_skimText, readField_digits (plain false), if_neg shown]
    split
    · intro same
      cases same
    · intro same
      cases same
  have ending : readField true last none [] = .group none := by
    rw [← readField_skimText, empty]
    rfl
  conv_lhs => rw [readFields, List.isEmpty_nil, same]
  conv_rhs => rw [readFields]
  have notLast : [last].isEmpty = false := rfl
  rw [notLast]
  cases read : readField false text none [] with
  | refused => rfl
  | quad bytes => rfl
  | group cur =>
      cases cur with
      | none => exact absurd read some_
      | some value =>
          have other : [last] ≠ [[]] := by simpa using given
          dsimp only
          rw [if_neg other, if_neg (List.cons_ne_nil _ _ ∘ Eq.symm), if_pos rfl,
            if_neg (List.cons_ne_nil _ _), readFields, List.isEmpty_nil, ending]
          rfl

theorem readFields_cons_congr {text : CString} {more others : List CString}
    (given : more ≠ []) (given' : others ≠ [])
    (alike : ∀ out gap, readFields others out gap none [] =
      readFields more out gap none [])
    (last : ∀ value, readField false text none [] = .group (some value) →
      (others = [[]] ↔ more = [[]])) (out : List UInt8) (gap : Option Nat) :
    readFields (skimText false text :: others) out gap none [] =
      readFields (text :: more) out gap none [] := by
  have notLast : more.isEmpty = false := by simpa using given
  have notLast' : others.isEmpty = false := by simpa using given'
  conv_lhs => rw [readFields, notLast', readField_skimText]
  conv_rhs => rw [readFields, notLast]
  cases read : readField false text none [] with
  | refused => rfl
  | quad bytes => rfl
  | group cur =>
      cases cur with
      | none =>
          dsimp only
          rw [if_neg given, if_neg given', alike]
      | some value =>
          dsimp only
          rw [if_neg given, if_neg given', alike]
          simp only [last value read]

theorem readFields_skimFields (fields : List CString) (out : List UInt8)
    (gap : Option Nat) :
    readFields (skimFields fields) out gap none [] =
      readFields fields out gap none [] := by
  induction fields generalizing out gap with
  | nil => rfl
  | cons text more ih =>
      cases more with
      | nil =>
          show readFields [skimText true text] out gap none [] = _
          conv_lhs => rw [readFields, List.isEmpty_nil, readField_skimText]
          conv_rhs => rw [readFields, List.isEmpty_nil]
      | cons next more =>
          cases more with
          | nil =>
              by_cases dropped : Dropped text next
              · rw [skimFields_dropped dropped]
                exact readFields_dropped dropped out gap
              · rw [skimFields_kept dropped]
                refine readFields_cons_congr (List.cons_ne_nil _ _)
                  (List.cons_ne_nil _ _) ih (fun value read => ?_) out gap
                constructor
                · intro same
                  by_contra given
                  exact readField_kept dropped (by simpa using given)
                    (List.cons.inj same).1 value read
                · intro same
                  rw [(List.cons.inj same).1, skimText_nil]
          | cons third more =>
              refine readFields_cons_congr (List.cons_ne_nil _ _)
                skimFields_ne_nil ih (fun _ _ => ?_) out gap
              constructor
              · exact fun same => absurd same skimFields_ne_singleton
              · intro same
                cases same

theorem Pieces.skims {texts : List CString} {bytes : List UInt8}
    (pieces : Pieces texts bytes) : Skims texts := by
  induction pieces with
  | nil => trivial
  | quad last => exact last.skimText
  | cons group rest ih =>
      rename_i texts _ _
      cases texts with
      | nil => exact group.skimText true
      | cons _ _ => exact ⟨group.skimText false, ih⟩

theorem skims_closing {right : List CString} (skims : Skims right) :
    Skims (closing right) := by
  unfold closing
  split
  · exact skimText_nil true
  · exact skims

theorem Groups.skims_append {left behind : List CString} {bytes : List UInt8}
    (groups : Groups left bytes) (given : behind ≠ []) (skims : Skims behind) :
    Skims (left ++ behind) := by
  induction groups with
  | nil => exact skims
  | cons group _ ih =>
      exact skims_cons (group.skimText false) (by simp [given]) ih

theorem IsFields.skims {fields : List CString} {bytes : List UInt8}
    (isFields : IsFields fields bytes) : Skims fields := by
  cases isFields with
  | full pieces _ => exact pieces.skims
  | short before after _ =>
      refine before.skims_append (List.cons_ne_nil _ _) ?_
      exact skims_cons (skimText_nil false) (closing_ne_nil _)
        (skims_closing after.skims)

theorem skim_of_isIpv6 {source : CString} {bytes : List UInt8}
    (address : IsIpv6 source bytes) : skim source = source := by
  obtain ⟨fields, rfl, isFields⟩ := isIpv6_iff.mp address
  rw [skim, fieldsOf_opening isFields.colonFree isFields.ne_nil.1
    isFields.ne_nil.2]
  dsimp only
  rw [skimFields_of_skims isFields.skims]

theorem isIpv6_skim_iff {source : CString} {fields : List CString}
    (found : fieldsOf source = some fields) (bytes : List UInt8) :
    IsIpv6 (skim source) bytes ↔
      fill (readFields fields [] none none []) = some bytes := by
  obtain ⟨given, colonFree⟩ := fieldsOf_spec found
  have given' : skimFields fields ≠ [] := by
    obtain ⟨text, more, rfl⟩ := List.exists_cons_of_ne_nil given
    exact skimFields_ne_nil
  rw [skim, found]
  dsimp only
  rw [isIpv6_opening (colonFree_skimFields colonFree) given', ← rest_nil_iff,
    ← fill_readFields (skims_skimFields fields) given' (by decide)
      (fun _ => by decide) bytes, readFields_skimFields]

theorem inetPton6_eq (source : CString) :
    inetPton6 source =
      .ok (match fieldsOf source with
        | none => none
        | some fields => fill (readFields fields [] none none [])) := by
  have run : ∀ source : CString, pton6Run source =
      .ok (fill (readFields (source.splitOn ':') [] none none [])) := by
    intro source
    rw [pton6Run_eq]
    exact pton6Loop_eq source _ _ _ [] (by decide) (by simp)
  unfold inetPton6
  split
  · exact run _
  · rename_i single
    rw [fieldsOf]
    exact single
  · rename_i noColons noColon
    rw [run, fieldsOf]
    · exact noColons
    · exact noColon

/-- What `inet_pton6` accepts. -/
theorem inetPton6_iff (source : CString) :
    ∃ result, inetPton6 source = .ok result ∧
      ∀ bytes, result = some bytes ↔ IsIpv6 (skim source) bytes := by
  refine ⟨_, inetPton6_eq source, fun bytes => ?_⟩
  cases found : fieldsOf source with
  | some fields => exact (isIpv6_skim_iff found bytes).symm
  | none =>
      constructor
      · nofun
      · intro address
        have whole : skim source = source := by rw [skim, found]
        rw [whole, isIpv6_iff] at address
        obtain ⟨fields, rfl, isFields⟩ := address
        rw [fieldsOf_opening isFields.colonFree isFields.ne_nil.1
          isFields.ne_nil.2] at found
        cases found

/-- A text is an address for `inet_pton6` exactly if it is one, unless the
characters that it passes over stand in an address. -/
theorem inetPton_iff (source : CString) :
    (∃ result, inetPton4 source = .ok result ∧
      ∀ bytes, result = some bytes ↔ IsDottedQuad source bytes) ∧
    ∃ result, inetPton6 source = .ok result ∧
      ((∀ bytes, result = some bytes ↔ IsIpv6 source bytes) ↔
        skim source = source ∨ ¬∃ bytes, IsIpv6 (skim source) bytes) := by
  refine ⟨inetPton4_iff source, ?_⟩
  obtain ⟨result, ran, accepts⟩ := inetPton6_iff source
  refine ⟨result, ran, ?_⟩
  constructor
  · intro agrees
    by_cases address : ∃ bytes, IsIpv6 (skim source) bytes
    · obtain ⟨bytes, address⟩ := address
      have accepted := (accepts bytes).mpr address
      exact Or.inl (skim_of_isIpv6 ((agrees bytes).mp accepted))
    · exact Or.inr address
  · rintro (skimmed | none_) bytes
    · rw [accepts, skimmed]
    · rw [accepts]
      constructor
      · exact fun address => absurd ⟨bytes, address⟩ none_
      · intro address
        refine absurd ⟨bytes, ?_⟩ none_
        rwa [skim_of_isIpv6 address]

/-- Eight groups with a letter behind them. -/
theorem inetPton6_letter :
    inetPton6 "1:2:3:4:5:6:7:8z".toList =
        .ok (some [0, 1, 0, 2, 0, 3, 0, 4, 0, 5, 0, 6, 0, 7, 0, 8]) ∧
      ¬∃ bytes, IsIpv6 "1:2:3:4:5:6:7:8z".toList bytes := by
  refine ⟨by decide, ?_⟩
  rintro ⟨bytes, address⟩
  have skimmed := skim_of_isIpv6 address
  revert skimmed
  decide

end Inet

end RatboxServices
