import RatboxServices.Irc.InetFields
import Mathlib.Data.List.Forall2

namespace RatboxServices

open CString

namespace Inet

/-! The text of an address of sixteen bytes, and what is left of a text when
the characters that `inet_pton6` passes over are taken out. -/

def isHexDigit (c : Char) : Bool :=
  (xdigit (asciiLower c)).isSome

def hexes (text : CString) : List Nat :=
  text.filterMap fun c => xdigit (asciiLower c)

structure IsGroup (text : CString) (bytes : List UInt8) : Prop where
  given : text ≠ []
  digits : ∀ c ∈ text, isHexDigit c = true
  small : numeral 16 0 (hexes text) ≤ 0xffff
  value : bytes = groupBytes (numeral 16 0 (hexes text))

inductive Groups : List CString → List UInt8 → Prop
  | nil : Groups [] []
  | cons {text : CString} {texts : List CString} {bytes others : List UInt8}
      (group : IsGroup text bytes) (rest : Groups texts others) :
      Groups (text :: texts) (bytes ++ others)

inductive Pieces : List CString → List UInt8 → Prop
  | nil : Pieces [] []
  | quad {text : CString} {bytes : List UInt8}
      (last : IsDottedQuad text bytes) : Pieces [text] bytes
  | cons {text : CString} {texts : List CString} {bytes others : List UInt8}
      (group : IsGroup text bytes) (rest : Pieces texts others) :
      Pieces (text :: texts) (bytes ++ others)

def colons (texts : List CString) : CString :=
  [':'].intercalate texts

/-- The pieces of an address with colons between, or with `::` in one place for
all the zeros that are left out there. -/
inductive IsIpv6 : CString → List UInt8 → Prop
  | full {texts : List CString} {bytes : List UInt8}
      (pieces : Pieces texts bytes) (whole : bytes.length = 16) :
      IsIpv6 (colons texts) bytes
  | short {left right : List CString} {first last : List UInt8}
      (before : Groups left first) (after : Pieces right last)
      (room : first.length + last.length < 16) :
      IsIpv6 (colons left ++ ':' :: ':' :: colons right)
        (first ++ (List.replicate (16 - (first.length + last.length)) 0 ++
          last))

/-- The fields that are read: a `::` at the start counts as one colon. -/
def fieldsOf : CString → Option (List CString)
  | ':' :: ':' :: rest => some ((':' :: rest).splitOn ':')
  | ':' :: _ => none
  | source => some (source.splitOn ':')

def opening (fields : List CString) : CString :=
  if fields.head? = some [] ∧ fields ≠ [[]] then ':' :: colons fields
  else colons fields

def closing (right : List CString) : List CString :=
  if right = [] then [[]] else right

/-- What `IsIpv6` says, in the fields. -/
inductive IsFields : List CString → List UInt8 → Prop
  | full {fields : List CString} {bytes : List UInt8}
      (pieces : Pieces fields bytes) (whole : bytes.length = 16) :
      IsFields fields bytes
  | short {left right : List CString} {first last : List UInt8}
      (before : Groups left first) (after : Pieces right last)
      (room : first.length + last.length < 16) :
      IsFields (left ++ [] :: closing right)
        (first ++ (List.replicate (16 - (first.length + last.length)) 0 ++
          last))

/-- The dots that are looked at. The last character of an address is none of
them. -/
def dotInside (last : Bool) (text : CString) : Prop :=
  '.' ∈ if last then text.dropLast else text

instance (last : Bool) (text : CString) : Decidable (dotInside last text) :=
  inferInstanceAs (Decidable ('.' ∈ if last then text.dropLast else text))

def skimText (last : Bool) (text : CString) : CString :=
  if dotInside last text then text else text.filter isHexDigit

def skimFields : List CString → List CString
  | [] => []
  | [text] => [skimText true text]
  | [text, last] =>
      if last ≠ [] ∧ skimText true last = [] ∧ '.' ∉ text ∧
          skimText false text ≠ [] then
        [skimText false text]
      else [skimText false text, skimText true last]
  | text :: more => skimText false text :: skimFields more

def skim (source : CString) : CString :=
  match fieldsOf source with
  | none => source
  | some fields => opening (skimFields fields)

example : skim "fe80-::1%eth0".toList = "fe80::1e0".toList := by
  decide

example : skim "1:2:z".toList = "1:2".toList ∧ skim "::1.".toList = "::1".toList := by
  decide

variable {fields : List CString} {bytes : List UInt8}

theorem not_isHexDigit_colon : isHexDigit ':' = false := by decide

theorem not_isHexDigit_dot : isHexDigit '.' = false := by decide

theorem IsGroup.colonFree {text : CString} (group : IsGroup text bytes) :
    ':' ∉ text := by
  intro inside
  have digit := group.digits ':' inside
  rw [not_isHexDigit_colon] at digit
  cases digit

theorem IsGroup.dotFree {text : CString} (group : IsGroup text bytes) :
    '.' ∉ text := by
  intro inside
  have digit := group.digits '.' inside
  rw [not_isHexDigit_dot] at digit
  cases digit

theorem IsDottedQuad.colonFree {text : CString}
    (quad : IsDottedQuad text bytes) : ':' ∉ text := by
  intro inside
  obtain ⟨part, listed, inPart⟩ :=
    Split.exists_of_mem inside (by decide : ':' ≠ '.')
  exact absurd (isDigit_of_octets quad.octets part listed ':' inPart)
    (by decide)

theorem IsDottedQuad.ne_nil {text : CString} (quad : IsDottedQuad text bytes) :
    text ≠ [] := by
  rintro rfl
  have octets := quad.octets.length_eq
  rw [List.splitOn_nil, quad.four] at octets
  cases octets

theorem Groups.spec {texts : List CString} (groups : Groups texts bytes) :
    ∀ text ∈ texts, text ≠ [] ∧ ':' ∉ text := by
  induction groups with
  | nil => nofun
  | cons group _ ih =>
      intro text listed
      obtain rfl | listed := List.mem_cons.mp listed
      · exact ⟨group.given, group.colonFree⟩
      · exact ih text listed

theorem Pieces.spec {texts : List CString} (pieces : Pieces texts bytes) :
    ∀ text ∈ texts, text ≠ [] ∧ ':' ∉ text := by
  induction pieces with
  | nil => nofun
  | quad last =>
      intro text listed
      rw [List.mem_singleton.mp listed]
      exact ⟨last.ne_nil, last.colonFree⟩
  | cons group _ ih =>
      intro text listed
      obtain rfl | listed := List.mem_cons.mp listed
      · exact ⟨group.given, group.colonFree⟩
      · exact ih text listed

theorem closing_ne_nil (right : List CString) : closing right ≠ [] := by
  unfold closing
  split
  · exact List.cons_ne_nil _ _
  · assumption

theorem colons_closing (right : List CString) :
    colons (closing right) = colons right := by
  unfold closing
  split
  · rename_i none_
    rw [none_]
    rfl
  · rfl

theorem colons_cons (text : CString) {texts : List CString}
    (more : texts ≠ []) : colons (text :: texts) = text ++ ':' :: colons texts := by
  obtain ⟨next, others, rfl⟩ := List.exists_cons_of_ne_nil more
  simp [colons]

theorem colons_append {left right : List CString} (before : left ≠ [])
    (after : right ≠ []) :
    colons (left ++ right) = colons left ++ ':' :: colons right := by
  induction left with
  | nil => exact absurd rfl before
  | cons text left ih =>
      by_cases more : left = []
      · subst more
        rw [List.singleton_append, colons_cons text after]
        simp [colons]
      · rw [List.cons_append, colons_cons _ (by simp [more]), ih more,
          colons_cons _ more, List.append_assoc, List.cons_append]

theorem splitOn_colons (colonFree : ∀ text ∈ fields, ':' ∉ text)
    (given : fields ≠ []) : (colons fields).splitOn ':' = fields :=
  List.splitOn_intercalate ':' colonFree given

theorem opening_gap {left right : List CString}
    (given : ∀ text ∈ left, text ≠ []) :
    opening (left ++ [] :: closing right) =
      colons left ++ ':' :: ':' :: colons right := by
  have gap : colons ([] :: closing right) = ':' :: colons right := by
    rw [colons_cons _ (closing_ne_nil right), colons_closing, List.nil_append]
  cases left with
  | nil =>
      have first : ([] :: closing right).head? = some [] ∧
          [] :: closing right ≠ [[]] :=
        ⟨rfl, by simpa using closing_ne_nil right⟩
      rw [opening, List.nil_append, if_pos first, gap]
      rfl
  | cons text left =>
      have first : ¬((text :: left ++ [] :: closing right).head? = some [] ∧
          text :: left ++ [] :: closing right ≠ [[]]) := by
        rintro ⟨same, _⟩
        exact given text List.mem_cons_self (Option.some.inj same)
      rw [opening, if_neg first,
        colons_append (List.cons_ne_nil _ _) (List.cons_ne_nil _ _), gap]

theorem opening_of_given (given : ∀ text ∈ fields, text ≠ []) :
    opening fields = colons fields := by
  refine if_neg fun both => ?_
  exact given [] (List.mem_of_mem_head? both.1) rfl

theorem colons_head (colonFree : ∀ text ∈ fields, ':' ∉ text)
    (first : ¬(fields.head? = some [] ∧ fields ≠ [[]])) (rest : CString) :
    colons fields ≠ ':' :: rest := by
  intro same
  cases fields with
  | nil => cases same
  | cons text fields =>
      cases text with
      | nil =>
          have one : [] :: fields = [[]] := by
            by_contra more
            exact first ⟨rfl, more⟩
          rw [one] at same
          cases same
      | cons c text =>
          have head : ∃ tail, colons ((c :: text) :: fields) = c :: tail := by
            by_cases more : fields = []
            · subst more
              exact ⟨text, by simp [colons]⟩
            · exact ⟨_, colons_cons (c :: text) more⟩
          obtain ⟨tail, shape⟩ := head
          rw [shape] at same
          rw [(List.cons.inj same).1] at colonFree
          exact colonFree _ List.mem_cons_self List.mem_cons_self

theorem opening_injective {fields others : List CString}
    (colonFree : ∀ text ∈ fields, ':' ∉ text) (given : fields ≠ [])
    (colonFree' : ∀ text ∈ others, ':' ∉ text) (given' : others ≠ [])
    (same : opening fields = opening others) : fields = others := by
  have whole : colons fields = colons others := by
    unfold opening at same
    by_cases first : fields.head? = some [] ∧ fields ≠ [[]]
    · by_cases second : others.head? = some [] ∧ others ≠ [[]]
      · rw [if_pos first, if_pos second] at same
        exact (List.cons.inj same).2
      · rw [if_pos first, if_neg second] at same
        exact absurd same.symm (colons_head colonFree' second _)
    · by_cases second : others.head? = some [] ∧ others ≠ [[]]
      · rw [if_neg first, if_pos second] at same
        exact absurd same (colons_head colonFree first _)
      · rw [if_neg first, if_neg second] at same
        exact same
  rw [← splitOn_colons colonFree given, whole,
    splitOn_colons colonFree' given']

theorem colonFree_closing {right : List CString}
    (colonFree : ∀ text ∈ right, ':' ∉ text) :
    ∀ text ∈ closing right, ':' ∉ text := by
  intro text listed
  unfold closing at listed
  split at listed
  · rw [List.mem_singleton.mp listed]
    exact List.not_mem_nil
  · exact colonFree text listed

theorem IsFields.colonFree (isFields : IsFields fields bytes) :
    ∀ text ∈ fields, ':' ∉ text := by
  intro text listed
  cases isFields with
  | full pieces _ => exact (pieces.spec text listed).2
  | short before after _ =>
      obtain listed | listed := List.mem_append.mp listed
      · exact (before.spec text listed).2
      · obtain rfl | listed := List.mem_cons.mp listed
        · exact List.not_mem_nil
        · exact colonFree_closing (fun text listed =>
            (after.spec text listed).2) text listed

theorem IsFields.ne_nil (isFields : IsFields fields bytes) :
    fields ≠ [] ∧ fields ≠ [[]] := by
  cases isFields with
  | full pieces whole =>
      refine ⟨?_, ?_⟩
      · rintro rfl
        cases pieces
        cases whole
      · rintro rfl
        exact (pieces.spec [] List.mem_cons_self).1 rfl
  | short _ _ _ =>
      rename_i left right first last _ _ _
      have more := closing_ne_nil right
      refine ⟨by simp, ?_⟩
      intro same
      have length := congrArg List.length same
      have some_ := List.length_pos_iff.mpr more
      simp at length
      omega

theorem isIpv6_iff {source : CString} :
    IsIpv6 source bytes ↔
      ∃ fields, source = opening fields ∧ IsFields fields bytes := by
  constructor
  · intro address
    cases address with
    | full pieces whole =>
        exact ⟨_, (opening_of_given fun text listed =>
          (pieces.spec text listed).1).symm, .full pieces whole⟩
    | short before after room =>
        exact ⟨_, (opening_gap fun text listed =>
          (before.spec text listed).1).symm, .short before after room⟩
  · rintro ⟨fields, rfl, isFields⟩
    cases isFields with
    | full pieces whole =>
        rw [opening_of_given fun text listed => (pieces.spec text listed).1]
        exact .full pieces whole
    | short before after room =>
        rw [opening_gap fun text listed => (before.spec text listed).1]
        exact .short before after room

theorem isIpv6_opening (colonFree : ∀ text ∈ fields, ':' ∉ text)
    (given : fields ≠ []) :
    IsIpv6 (opening fields) bytes ↔ IsFields fields bytes := by
  rw [isIpv6_iff]
  constructor
  · rintro ⟨others, same, isFields⟩
    rw [opening_injective colonFree given isFields.colonFree
      isFields.ne_nil.1 same]
    exact isFields
  · exact fun isFields => ⟨fields, rfl, isFields⟩

theorem fieldsOf_opening (colonFree : ∀ text ∈ fields, ':' ∉ text)
    (given : fields ≠ []) (some_ : fields ≠ [[]]) :
    fieldsOf (opening fields) = some fields := by
  have split := splitOn_colons colonFree given
  unfold opening
  split
  · rename_i first
    obtain ⟨text, more, rfl⟩ := List.exists_cons_of_ne_nil given
    cases (Option.some.inj first.1 : text = [])
    have others : more ≠ [] := by
      rintro rfl
      exact some_ rfl
    rw [colons_cons [] others, List.nil_append] at split ⊢
    exact congrArg some split
  · rename_i first
    have start := colons_head colonFree first
    generalize colons fields = source at split start
    unfold fieldsOf
    split
    · exact absurd rfl (start _)
    · exact absurd rfl (start _)
    · rw [split]

theorem opening_fieldsOf {source : CString}
    (found : fieldsOf source = some fields) : opening fields = source := by
  unfold fieldsOf at found
  split at found
  · cases found
    rename_i rest
    have first : ((':' :: rest).splitOn ':').head? = some [] ∧
        (':' :: rest).splitOn ':' ≠ [[]] := by
      rw [Split.splitOn_cons_self]
      exact ⟨rfl, by simp⟩
    rw [opening, if_pos first, colons, List.intercalate_splitOn]
  · cases found
  · rename_i noColons noColon
    cases found
    have first : ¬((source.splitOn ':').head? = some [] ∧
        source.splitOn ':' ≠ [[]]) := by
      cases source with
      | nil => simp
      | cons c rest =>
          have other : c ≠ ':' := by
            rintro rfl
            exact noColon rest rfl
          obtain ⟨text, more, split⟩ :=
            List.exists_cons_of_ne_nil (List.splitOn_ne_nil ':' rest)
          rw [Split.splitOn_cons_of_ne other split]
          rintro ⟨same, _⟩
          cases same
    rw [opening, if_neg first, colons, List.intercalate_splitOn]

theorem fieldsOf_spec {source : CString} (found : fieldsOf source = some fields)
    :
    fields ≠ [] ∧ ∀ text ∈ fields, ':' ∉ text := by
  unfold fieldsOf at found
  split at found
  · cases found
    exact ⟨List.splitOn_ne_nil _ _,
      fun text listed => Split.not_mem_of_mem_splitOn listed⟩
  · cases found
  · cases found
    exact ⟨List.splitOn_ne_nil _ _,
      fun text listed => Split.not_mem_of_mem_splitOn listed⟩

end Inet

end RatboxServices
