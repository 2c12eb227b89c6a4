import RatboxServices.Irc.InetSkim
import RatboxServices.Irc.Line
import RatboxServices.Irc.Match
import RatboxServices.Lib.Bits
import RatboxServices.Net.Data

namespace RatboxServices

open CString

namespace Cidr

open Inet

/-! `match_cidr` of `cidr.c`, and when it matches as it should. -/

variable {host : CString}

def bufSize : Nat := 512

/-- The buffer of the address. `NICKLEN` is set when services are
configured. -/
def addressSize (nickLen : Nat) : Nat :=
  nickLen + userLen + hostLen + 6

/-- `memcmp(addr, dest, n) == 0`. -/
def memcmp (addr dest : List UInt8) (n : Nat) : Except OutOfBuffer Bool :=
  if n ≤ addr.length ∧ n ≤ dest.length then .ok (addr.take n == dest.take n)
  else .error .outside

/-- `comp_with_mask`. -/
def compWithMask (addr dest : List UInt8) (mask : Nat) :
    Except OutOfBuffer Bool := do
  if ← memcmp addr dest (mask / 8) then
    if mask % 8 = 0 then .ok true
    else
      let n := mask / 8
      let m : BitVec 32 := (-1#32) <<< (8 - mask % 8)
      let left ← peek addr n
      let right ← peek dest n
      .ok (BitVec.ofNat 32 left.toNat &&& m ==
        BitVec.ofNat 32 right.toNat &&& m)
  else .ok false

/-- `strrchr` with the terminator written over the hit: what is before it and
what follows. -/
def cutLast (c : Char) (source : CString) : Option (CString × CString) :=
  match source.reverse.dropWhile (· != c) with
  | [] => none
  | _ :: front =>
      some (front.reverse, (source.reverse.takeWhile (· != c)).reverse)

/-- Both hosts read by one of the parsers, and compared. The length becomes an
`unsigned int`. -/
def compHosts (pton : CString → Except OutOfBuffer (Option (List UInt8)))
    (ip ipmask : CString) (cidrlen : Int) : Except OutOfBuffer Bool := do
  match ← pton ip with
  | none => .ok false
  | some ipaddr =>
      match ← pton ipmask with
      | none => .ok false
      | some maskaddr =>
          compWithMask ipaddr maskaddr (cidrlen % 4294967296).toNat

/-- `match_cidr` once both strings are taken apart. -/
def matchParts (mask ipmask len address ip : CString) :
    Except OutOfBuffer Bool :=
  let cidrlen := atoi len
  if cidrlen = 0 then .ok false
  else if ':' ∈ ip ∧ ':' ∈ ipmask then
    if 128 < cidrlen then .ok false
    else do
      let comp ← compHosts inetPton6 ip ipmask cidrlen
      .ok (comp && match_ mask address)
  else if ':' ∉ ip ∧ ':' ∉ ipmask then
    if 32 < cidrlen then .ok false
    else do
      let comp ← compHosts inetPton4 ip ipmask cidrlen
      .ok (comp && match_ mask address)
  else .ok true

/-- `match_cidr`. -/
def matchCidr (nickLen : Nat) (s1 s2 : CString) : Except OutOfBuffer Bool :=
  match cutLast '@' (strlcpy bufSize s1) with
  | none => .ok false
  | some (mask, ipmask) =>
      match cutLast '@' (strlcpy (addressSize nickLen) s2) with
      | none => .ok false
      | some (address, ip) =>
          match cutLast '/' ipmask with
          | none => .ok false
          | some (ipmask, len) => matchParts mask ipmask len address ip

inductive IsInteger : CString → Int → Prop
  | plain {text : CString} (given : text ≠ [])
      (digits : ∀ c ∈ text, isDigit c = true) :
      IsInteger text (numeral 10 0 (text.map digitValue))
  | plus {text : CString} (given : text ≠ [])
      (digits : ∀ c ∈ text, isDigit c = true) :
      IsInteger ('+' :: text) (numeral 10 0 (text.map digitValue))
  | minus {text : CString} (given : text ≠ [])
      (digits : ∀ c ∈ text, isDigit c = true) :
      IsInteger ('-' :: text) (-(numeral 10 0 (text.map digitValue)))

inductive IsAddress (host : CString) (bytes : List UInt8) : Prop
  | v4 (quad : IsDottedQuad host bytes)
  | v6 (address : IsIpv6 host bytes)

structure Splits (s1 s2 mask ipmask len address ip : CString) : Prop where
  ofMask : s1 = mask ++ '@' :: (ipmask ++ '/' :: len)
  ofAddress : s2 = address ++ '@' :: ip
  lastMask : '@' ∉ ipmask ++ '/' :: len
  lastAddress : '@' ∉ ip
  lastLen : '/' ∉ len

def Covers (s1 s2 : CString) : Prop :=
  ∃ mask ipmask len address ip, Splits s1 s2 mask ipmask len address ip ∧
    ∃ (count : Nat) (left right : List UInt8),
      IsInteger len count ∧ 1 ≤ count ∧ count ≤ 8 * left.length ∧
        IsAddress ip left ∧ IsAddress ipmask right ∧
          left.length = right.length ∧ Bits.Agree left right count ∧
            match_ mask address = true

/-- `match_cidr` matches if the mask covers the address, and never compares
beyond the bytes of the two. -/
def Agrees (nickLen : Nat) (s1 s2 : CString) : Prop :=
  ∃ result, matchCidr nickLen s1 s2 = .ok result ∧
    (result = true ↔ Covers s1 s2)

inductive Reads (host : CString) (bytes : List UInt8) : Prop
  | v4 (quad : IsDottedQuad host bytes)
  | v6 (address : IsIpv6 (skim host) bytes)

structure Found (mask ipmask len address ip : CString)
    (left right : List UInt8) : Prop where
  positive : 0 < atoi len
  atMost : atoi len ≤ 8 * left.length
  host : Reads ip left
  network : Reads ipmask right
  family : left.length = right.length
  agree : Bits.Agree left right (atoi len).toNat
  matched : match_ mask address = true

inductive Strays (s1 s2 : CString) : Prop
  /-- One host has colons and the other has none. -/
  | mixed {mask ipmask len address ip : CString}
      (splits : Splits s1 s2 mask ipmask len address ip)
      (nonzero : atoi len ≠ 0) (apart : ¬(':' ∈ ip ↔ ':' ∈ ipmask))
  /-- A negative length between two addresses of one family. -/
  | negative {mask ipmask len address ip : CString} {left right : List UInt8}
      (splits : Splits s1 s2 mask ipmask len address ip)
      (below : atoi len < 0) (host : Reads ip left)
      (network : Reads ipmask right) (family : left.length = right.length)
  /-- What is no number or no address is read as one that matches. -/
  | loose {mask ipmask len address ip : CString} {left right : List UInt8}
      (splits : Splits s1 s2 mask ipmask len address ip)
      (found : Found mask ipmask len address ip left right)
      (written : ¬(IsInteger len (atoi len) ∧ skim ip = ip ∧
        skim ipmask = ipmask))

theorem memcmp_eq {addr dest : List UInt8} {n : Nat}
    (inAddr : n ≤ addr.length) (inDest : n ≤ dest.length) :
    memcmp addr dest n = .ok (decide (Bits.Agree addr dest (8 * n))) := by
  rw [memcmp, if_pos ⟨inAddr, inDest⟩]
  refine congrArg Except.ok (Bool.eq_iff_iff.mpr ?_)
  rw [beq_iff_eq, decide_eq_true_iff, Bits.agree_bytes_iff inAddr inDest]

theorem compWithMask_eq {addr dest : List UInt8} {mask : Nat}
    (family : addr.length = dest.length) (within : mask ≤ 8 * addr.length) :
    compWithMask addr dest mask = .ok (decide (Bits.Agree addr dest mask)) := by
  have whole : 8 * (mask / 8) + mask % 8 = mask := by omega
  have few : mask % 8 ≤ 8 := by omega
  have split := @Bits.agree_add_iff addr dest (mask % 8) (mask / 8) few
  rw [whole] at split
  show (memcmp addr dest (mask / 8)).bind _ = _
  rw [memcmp_eq (by omega) (by omega)]
  show (if decide _ = true then _ else _) = _
  by_cases front : Bits.Agree addr dest (8 * (mask / 8))
  · rw [if_pos (decide_eq_true front)]
    by_cases none_ : mask % 8 = 0
    · have agree : Bits.Agree addr dest mask := by
        rw [split, none_]
        exact ⟨front, nofun⟩
      rw [if_pos none_, decide_eq_true agree]
    · have last : ∀ bytes : List UInt8, mask / 8 < bytes.length →
          peek bytes (mask / 8) = .ok (bytes.getD (mask / 8) 0) := by
        intro bytes inside
        rw [peek, List.getElem?_eq_getElem inside,
          List.getD_eq_getElem _ _ inside]
      rw [if_neg none_]
      show (peek addr (mask / 8)).bind _ = _
      rw [last addr (by omega)]
      show (peek dest (mask / 8)).bind _ = _
      rw [last dest (by omega)]
      refine congrArg Except.ok (Bool.eq_iff_iff.mpr ?_)
      rw [beq_iff_eq, decide_eq_true_iff, split, Bits.masked_eq_iff few]
      exact ⟨fun agree => ⟨front, agree⟩, fun agree => agree.2⟩
  · have apart : ¬Bits.Agree addr dest mask :=
      fun agree => front (split.mp agree).1
    rw [if_neg (by simpa using front), decide_eq_false apart]

theorem compWithMask_outside {addr dest : List UInt8} {mask : Nat}
    (large : 8 * addr.length + 8 ≤ mask) :
    compWithMask addr dest mask = .error .outside := by
  have long : ¬(mask / 8 ≤ addr.length ∧ mask / 8 ≤ dest.length) := by omega
  show (memcmp addr dest (mask / 8)).bind _ = _
  rw [memcmp, if_neg long]
  rfl

theorem length_of_isIpv6 {bytes : List UInt8} (address : IsIpv6 host bytes) :
    bytes.length = 16 := by
  cases address with
  | full _ whole => exact whole
  | short _ _ room =>
      simp only [List.length_append, List.length_replicate]
      omega

theorem not_isFields_singleton {text : CString} {bytes : List UInt8} :
    ¬IsFields [text] bytes := by
  intro isFields
  generalize one : [text] = fields at isFields
  cases isFields with
  | full pieces whole =>
      subst one
      obtain group | quad := pieces_singleton_iff.mp pieces
      · rw [group.two] at whole
        cases whole
      · rw [quad.four] at whole
        cases whole
  | @short left right _ _ _ _ _ =>
      have length := congrArg List.length one
      have some_ := List.length_pos_iff.mpr (closing_ne_nil right)
      simp only [List.length_append, List.length_cons, List.length_nil]
        at length
      omega

theorem fieldsOf_of_not_mem (absent : ':' ∉ host) :
    fieldsOf host = some [host] := by
  unfold fieldsOf
  split
  · exact absurd List.mem_cons_self absent
  · exact absurd List.mem_cons_self absent
  · rw [Split.splitOn_of_not_mem absent]

theorem colon_of_isIpv6 {bytes : List UInt8}
    (address : IsIpv6 (skim host) bytes) : ':' ∈ host := by
  by_contra absent
  have colonFree : ∀ text ∈ [skimText true host], ':' ∉ text := by
    intro text listed inside
    rw [List.mem_singleton.mp listed] at inside
    exact absent (skimText_subset true host inside)
  rw [skim, fieldsOf_of_not_mem absent] at address
  exact not_isFields_singleton
    ((isIpv6_opening colonFree (List.cons_ne_nil _ _)).mp address)

theorem read_v4 (noColon : ':' ∉ host) :
    ∃ result, inetPton4 host = .ok result ∧
      ∀ bytes, result = some bytes ↔ Reads host bytes := by
  obtain ⟨result, ran, quads⟩ := inetPton4_iff host
  refine ⟨result, ran, fun bytes => (quads bytes).trans ?_⟩
  constructor
  · exact Reads.v4
  · rintro (quad | address)
    · exact quad
    · exact absurd (colon_of_isIpv6 address) noColon

theorem read_v6 (colon : ':' ∈ host) :
    ∃ result, inetPton6 host = .ok result ∧
      ∀ bytes, result = some bytes ↔ Reads host bytes := by
  obtain ⟨result, ran, addresses⟩ := inetPton6_iff host
  refine ⟨result, ran, fun bytes => (addresses bytes).trans ?_⟩
  constructor
  · exact Reads.v6
  · rintro (quad | address)
    · exact absurd colon quad.colonFree
    · exact address

theorem Reads.length {bytes : List UInt8} (reads : Reads host bytes) :
    bytes.length = if ':' ∈ host then 16 else 4 := by
  cases reads with
  | v4 quad => rw [if_neg quad.colonFree, quad.four]
  | v6 address =>
      rw [if_pos (colon_of_isIpv6 address), length_of_isIpv6 address]

theorem Reads.unique {bytes others : List UInt8} (reads : Reads host bytes)
    (again : Reads host others) : bytes = others := by
  have same : ∀ {result : Option (List UInt8)},
      (∀ bytes, result = some bytes ↔ Reads host bytes) → bytes = others := by
    intro result read
    have first := (read bytes).mpr reads
    exact Option.some.inj (first.symm.trans ((read others).mpr again))
  by_cases colon : ':' ∈ host
  · obtain ⟨_, _, read⟩ := read_v6 colon
    exact same read
  · obtain ⟨_, _, read⟩ := read_v4 colon
    exact same read

theorem isAddress_iff {bytes : List UInt8} :
    IsAddress host bytes ↔ Reads host bytes ∧ skim host = host := by
  constructor
  · rintro (quad | address)
    · have found := fieldsOf_of_not_mem quad.colonFree
      refine ⟨.v4 quad, ?_⟩
      rw [skim, found]
      show opening [skimText true host] = host
      rw [quad.skimText, opening_fieldsOf found]
    · have whole := skim_of_isIpv6 address
      exact ⟨.v6 (whole.symm ▸ address), whole⟩
  · rintro ⟨quad | address, whole⟩
    · exact .v4 quad
    · exact .v6 (whole ▸ address)

theorem digits_eq (text : CString) (value : Nat)
    (all : ∀ c ∈ text, isDigit c = true) :
    (CString.digits value text).1 =
      numeral 10 value (text.map digitValue) := by
  induction text generalizing value with
  | nil => rfl
  | cons c text ih =>
      rw [CString.digits, if_pos (all c List.mem_cons_self), List.map_cons,
        numeral_cons, ih _ fun d listed => all d (List.mem_cons_of_mem _ listed)]
      rfl

theorem strtol_plus {c : Char} {others : CString} (digit : isDigit c = true) :
    (strtol ('+' :: c :: others)).1 =
      max longMin (min longMax ((CString.digits 0 (c :: others)).1 : Int)) := by
  have noSpace : isSpace '+' = false := by decide
  simp [strtol, noSpace, firstIs, digit]

theorem IsInteger.atoi {text : CString} {value : Int}
    (integer : IsInteger text value) (low : -2147483648 ≤ value)
    (high : value < 2147483648) : CString.atoi text = value := by
  have long : atol text =
      max longMin (min longMax value) := by
    have first : ∀ {text : CString}, text ≠ [] →
        (∀ c ∈ text, isDigit c = true) → ∃ c others, text = c :: others ∧
          isDigit c = true := by
      intro text given digits
      obtain ⟨c, others, rfl⟩ := List.exists_cons_of_ne_nil given
      exact ⟨c, others, rfl, digits c List.mem_cons_self⟩
    cases integer with
    | plain given digits =>
        rw [← digits_eq _ _ digits]
        obtain ⟨c, others, rfl, digit⟩ := first given digits
        rw [atol, strtol_digit digit]
    | plus given digits =>
        rw [← digits_eq _ _ digits]
        obtain ⟨c, others, rfl, digit⟩ := first given digits
        rw [atol, strtol_plus digit]
    | minus given digits =>
        rw [← digits_eq _ _ digits]
        obtain ⟨c, others, rfl, digit⟩ := first given digits
        rw [atol, strtol_minus digit]
  rw [CString.atoi, long, Int.min_eq_right (by unfold longMax; omega),
    Int.max_eq_right (by unfold longMin; omega)]
  exact Int.bmod_eq_of_le (by omega) (by omega)

theorem cutLast_of_mem {c : Char} (front behind : CString)
    (last : c ∉ behind) :
    cutLast c (front ++ c :: behind) = some (front, behind) := by
  have other : ∀ d ∈ behind.reverse, (d != c) = true := by
    intro d listed
    simp only [bne_iff_ne, ne_eq]
    rintro rfl
    exact last (List.mem_reverse.mp listed)
  have shape : (front ++ c :: behind).reverse =
      behind.reverse ++ c :: front.reverse := by simp
  rw [cutLast, shape, List.dropWhile_append_of_pos other,
    List.takeWhile_append_of_pos other, List.dropWhile_cons_of_neg (by simp),
    List.takeWhile_cons_of_neg (by simp)]
  simp

theorem exists_of_mem_last {c : Char} {source : CString} (listed : c ∈ source) :
    ∃ front behind, source = front ++ c :: behind ∧ c ∉ behind := by
  obtain ⟨behind, front, shape, absent⟩ :=
    List.eq_append_cons_of_mem (List.mem_reverse.mpr listed)
  refine ⟨front.reverse, behind.reverse, ?_, by simpa using absent⟩
  rw [← List.reverse_reverse source, shape]
  simp

theorem cutLast_of_not_mem {c : Char} {source : CString}
    (absent : c ∉ source) : cutLast c source = none := by
  have none_ : source.reverse.dropWhile (· != c) = [] := by
    refine List.dropWhile_eq_nil_iff.mpr fun d listed => ?_
    simp only [bne_iff_ne, ne_eq]
    rintro rfl
    exact absent (List.mem_reverse.mp listed)
  rw [cutLast, none_]

theorem Splits.unique {s1 s2 mask ipmask len address ip : CString}
    {mask' ipmask' len' address' ip' : CString}
    (splits : Splits s1 s2 mask ipmask len address ip)
    (again : Splits s1 s2 mask' ipmask' len' address' ip') :
    mask' = mask ∧ ipmask' = ipmask ∧ len' = len ∧ address' = address ∧
      ip' = ip := by
  have first := cutLast_of_mem mask _ splits.lastMask
  rw [← splits.ofMask, again.ofMask, cutLast_of_mem _ _ again.lastMask,
    Option.some.injEq, Prod.mk.injEq] at first
  have second := cutLast_of_mem address _ splits.lastAddress
  rw [← splits.ofAddress, again.ofAddress,
    cutLast_of_mem _ _ again.lastAddress, Option.some.injEq,
    Prod.mk.injEq] at second
  have third := cutLast_of_mem ipmask _ splits.lastLen
  rw [← first.2, cutLast_of_mem _ _ again.lastLen, Option.some.injEq,
    Prod.mk.injEq] at third
  exact ⟨first.1, third.1, third.2, second.1, second.2⟩

section Split

variable {nickLen : Nat} {s1 s2 : CString}
  (fitsMask : s1.length < bufSize) (fitsAddress : s2.length < addressSize nickLen)

include fitsMask fitsAddress

theorem matchCidr_of_splits {mask ipmask len address ip : CString}
    (splits : Splits s1 s2 mask ipmask len address ip) :
    matchCidr nickLen s1 s2 = matchParts mask ipmask len address ip := by
  have whole : strlcpy bufSize s1 = s1 := List.take_of_length_le (by omega)
  have whole' : strlcpy (addressSize nickLen) s2 = s2 :=
    List.take_of_length_le (by omega)
  rw [matchCidr, whole, whole', splits.ofMask,
    cutLast_of_mem _ _ splits.lastMask]
  dsimp only
  rw [splits.ofAddress, cutLast_of_mem _ _ splits.lastAddress]
  dsimp only
  rw [cutLast_of_mem _ _ splits.lastLen]

theorem matchCidr_of_not_splits
    (none_ : ¬∃ mask ipmask len address ip,
      Splits s1 s2 mask ipmask len address ip) :
    matchCidr nickLen s1 s2 = .ok false := by
  have whole : strlcpy bufSize s1 = s1 := List.take_of_length_le (by omega)
  have whole' : strlcpy (addressSize nickLen) s2 = s2 :=
    List.take_of_length_le (by omega)
  rw [matchCidr, whole, whole']
  by_cases inMask : '@' ∈ s1
  · obtain ⟨mask, network, rfl, lastMask⟩ := exists_of_mem_last inMask
    rw [cutLast_of_mem _ _ lastMask]
    by_cases inAddress : '@' ∈ s2
    · obtain ⟨address, ip, rfl, lastAddress⟩ := exists_of_mem_last inAddress
      dsimp only
      rw [cutLast_of_mem _ _ lastAddress]
      by_cases inNetwork : '/' ∈ network
      · obtain ⟨ipmask, len, rfl, lastLen⟩ := exists_of_mem_last inNetwork
        exact absurd ⟨mask, ipmask, len, address, ip, rfl, rfl, lastMask,
          lastAddress, lastLen⟩ none_
      · dsimp only
        rw [cutLast_of_not_mem inNetwork]
    · dsimp only
      rw [cutLast_of_not_mem inAddress]
  · rw [cutLast_of_not_mem inMask]

end Split

section Parts

variable {mask ipmask len address ip : CString}

section Family

variable {pton : CString → Except OutOfBuffer (Option (List UInt8))}

theorem compHosts_some {left right : List UInt8}
    (ranHost : pton ip = .ok (some left))
    (ranNetwork : pton ipmask = .ok (some right)) (cidrlen : Int) :
    compHosts pton ip ipmask cidrlen =
      compWithMask left right (cidrlen % 4294967296).toNat := by
  unfold compHosts
  rw [ranHost]
  show (pton ipmask).bind _ = _
  rw [ranNetwork]
  rfl

theorem compHosts_none {host network : Option (List UInt8)}
    (ranHost : pton ip = .ok host) (ranNetwork : pton ipmask = .ok network)
    (missing : host = none ∨ network = none) (cidrlen : Int) :
    compHosts pton ip ipmask cidrlen = .ok false := by
  unfold compHosts
  rw [ranHost]
  cases host with
  | none => rfl
  | some left =>
      have none_ : network = none := missing.resolve_left nofun
      show (pton ipmask).bind _ = _
      rw [ranNetwork, none_]
      rfl

def branch (pton : CString → Except OutOfBuffer (Option (List UInt8)))
    (width : Int) (mask ipmask len address ip : CString) :
    Except OutOfBuffer Bool :=
  if 8 * width < atoi len then .ok false
  else do
    let comp ← compHosts pton ip ipmask (atoi len)
    .ok (comp && match_ mask address)

variable {width : Nat} (narrow : width ≤ 16)
  (readHost : ∃ result, pton ip = .ok result ∧
    ∀ bytes, result = some bytes ↔ Reads ip bytes)
  (readNetwork : ∃ result, pton ipmask = .ok result ∧
    ∀ bytes, result = some bytes ↔ Reads ipmask bytes)
  (wideHost : ∀ bytes, Reads ip bytes → bytes.length = width)
  (wideNetwork : ∀ bytes, Reads ipmask bytes → bytes.length = width)

include narrow readHost readNetwork wideHost wideNetwork

theorem branch_eq (nonzero : atoi len ≠ 0)
    (proper : ¬(atoi len < 0 ∧ (∃ left, Reads ip left) ∧
      ∃ right, Reads ipmask right)) :
    ∃ result, branch pton width mask ipmask len address ip = .ok result ∧
      (result = true ↔
        ∃ left right, Found mask ipmask len address ip left right) := by
  obtain ⟨host, ranHost, readHost⟩ := readHost
  obtain ⟨network, ranNetwork, readNetwork⟩ := readNetwork
  unfold branch
  by_cases large : (8 * width : Int) < atoi len
  · refine ⟨false, if_pos large, ⟨nofun, ?_⟩⟩
    rintro ⟨left, right, found⟩
    have most := found.atMost
    rw [wideHost left found.host] at most
    omega
  · rw [if_neg large]
    by_cases missing : host = none ∨ network = none
    · refine ⟨false, ?_, ⟨nofun, ?_⟩⟩
      · rw [compHosts_none ranHost ranNetwork missing]
        rfl
      · rintro ⟨left, right, found⟩
        rw [(readHost left).mpr found.host,
          (readNetwork right).mpr found.network] at missing
        obtain impossible | impossible := missing
        · cases impossible
        · cases impossible
    · rw [not_or] at missing
      obtain ⟨left, given⟩ := Option.ne_none_iff_exists'.mp missing.1
      obtain ⟨right, given'⟩ := Option.ne_none_iff_exists'.mp missing.2
      have host_ := (readHost left).mp given
      have network_ := (readNetwork right).mp given'
      have leftWidth := wideHost left host_
      have rightWidth := wideNetwork right network_
      have positive : 0 < atoi len := by
        by_contra below
        exact proper ⟨by omega, ⟨left, host_⟩, ⟨right, network_⟩⟩
      have family : left.length = right.length := leftWidth.trans rightWidth.symm
      have count : (atoi len % 4294967296).toNat = (atoi len).toNat := by
        omega
      refine ⟨decide (Bits.Agree left right (atoi len).toNat) &&
        match_ mask address, ?_, ?_⟩
      · rw [compHosts_some (given ▸ ranHost) (given' ▸ ranNetwork), count,
          compWithMask_eq family (by omega)]
        rfl
      · rw [Bool.and_eq_true, decide_eq_true_iff]
        constructor
        · rintro ⟨agree, matched⟩
          exact ⟨left, right, positive, by omega, host_, network_, family, agree,
            matched⟩
        · rintro ⟨left', right', found⟩
          rw [host_.unique found.host, network_.unique found.network]
          exact ⟨found.agree, found.matched⟩

omit wideNetwork in
theorem branch_negative (below : atoi len < 0) {left right : List UInt8}
    (host : Reads ip left) (network : Reads ipmask right) :
    branch pton width mask ipmask len address ip = .error .outside := by
  obtain ⟨_, ranHost, readHost⟩ := readHost
  obtain ⟨_, ranNetwork, readNetwork⟩ := readNetwork
  have leftWidth := wideHost left host
  have bounds := atoi_bounds len
  rw [branch, if_neg (by omega),
    compHosts_some ((readHost left).mpr host ▸ ranHost)
      ((readNetwork right).mpr network ▸ ranNetwork),
    compWithMask_outside (by omega)]
  rfl

end Family

theorem Reads.family_iff {left right : List UInt8} (host : Reads ip left)
    (network : Reads ipmask right) :
    left.length = right.length ↔ (':' ∈ ip ↔ ':' ∈ ipmask) := by
  rw [host.length, network.length]
  by_cases first : ':' ∈ ip
  · by_cases second : ':' ∈ ipmask <;> simp [first, second]
  · by_cases second : ':' ∈ ipmask <;> simp [first, second]

theorem matchParts_mixed (nonzero : atoi len ≠ 0)
    (apart : ¬(':' ∈ ip ↔ ':' ∈ ipmask)) :
    matchParts mask ipmask len address ip = .ok true := by
  have notBoth : ¬(':' ∈ ip ∧ ':' ∈ ipmask) := by tauto
  have notNone : ¬(':' ∉ ip ∧ ':' ∉ ipmask) := by tauto
  unfold matchParts
  dsimp only
  rw [if_neg nonzero, if_neg notBoth, if_neg notNone]

section Family

variable (family : ':' ∈ ip ↔ ':' ∈ ipmask) (nonzero : atoi len ≠ 0)

include nonzero

theorem matchParts_v6 (host : ':' ∈ ip) (network : ':' ∈ ipmask) :
    matchParts mask ipmask len address ip =
      branch inetPton6 (16 : Nat) mask ipmask len address ip := by
  unfold matchParts
  dsimp only
  rw [if_neg nonzero, if_pos ⟨host, network⟩]
  rfl

theorem matchParts_v4 (host : ':' ∉ ip) (network : ':' ∉ ipmask) :
    matchParts mask ipmask len address ip =
      branch inetPton4 (4 : Nat) mask ipmask len address ip := by
  unfold matchParts
  dsimp only
  rw [if_neg nonzero, if_neg fun both => host both.1, if_pos ⟨host, network⟩]
  rfl

include family

theorem matchParts_family
    (proper : ¬(atoi len < 0 ∧ (∃ left, Reads ip left) ∧
      ∃ right, Reads ipmask right)) :
    ∃ result, matchParts mask ipmask len address ip = .ok result ∧
      (result = true ↔
        ∃ left right, Found mask ipmask len address ip left right) := by
  by_cases host : ':' ∈ ip
  · have network := family.mp host
    rw [matchParts_v6 nonzero host network]
    exact branch_eq (by decide) (read_v6 host) (read_v6 network)
      (fun _ reads => reads.length.trans (if_pos host))
      (fun _ reads => reads.length.trans (if_pos network)) nonzero proper
  · have network := mt family.mpr host
    rw [matchParts_v4 nonzero host network]
    exact branch_eq (by decide) (read_v4 host) (read_v4 network)
      (fun _ reads => reads.length.trans (if_neg host))
      (fun _ reads => reads.length.trans (if_neg network)) nonzero proper

end Family

theorem matchParts_negative (family : ':' ∈ ip ↔ ':' ∈ ipmask)
    (below : atoi len < 0) {left right : List UInt8} (reads : Reads ip left)
    (reads' : Reads ipmask right) :
    matchParts mask ipmask len address ip = .error .outside := by
  have nonzero : atoi len ≠ 0 := by omega
  by_cases host : ':' ∈ ip
  · have network := family.mp host
    rw [matchParts_v6 nonzero host network]
    exact branch_negative (by decide) (read_v6 host) (read_v6 network)
      (fun _ reads => reads.length.trans (if_pos host)) below reads reads'
  · have network := mt family.mpr host
    rw [matchParts_v4 nonzero host network]
    exact branch_negative (by decide) (read_v4 host) (read_v4 network)
      (fun _ reads => reads.length.trans (if_neg host)) below reads reads'

end Parts

section Whole

variable {s1 s2 mask ipmask len address ip : CString}

theorem covers_iff (splits : Splits s1 s2 mask ipmask len address ip) :
    Covers s1 s2 ↔
      (∃ left right, Found mask ipmask len address ip left right) ∧
        IsInteger len (atoi len) ∧ skim ip = ip ∧ skim ipmask = ipmask := by
  constructor
  · rintro ⟨_, _, _, _, _, again, count, left, right, integer, one, most, host,
      network, family, agree, matched⟩
    obtain ⟨rfl, rfl, rfl, rfl, rfl⟩ := splits.unique again
    obtain ⟨host, wholeHost⟩ := isAddress_iff.mp host
    obtain ⟨network, wholeNetwork⟩ := isAddress_iff.mp network
    have width : left.length ≤ 16 := by
      rw [host.length]
      split <;> decide
    have value := integer.atoi (by omega) (by omega)
    refine ⟨⟨left, right, ?_⟩, value.symm ▸ integer, wholeHost, wholeNetwork⟩
    refine ⟨by omega, by omega, host, network, family, ?_, matched⟩
    rwa [value, Int.toNat_natCast]
  · rintro ⟨⟨left, right, found⟩, integer, wholeHost, wholeNetwork⟩
    have positive := found.positive
    have most := found.atMost
    refine ⟨mask, ipmask, len, address, ip, splits, (atoi len).toNat, left,
      right, ?_, by omega, by omega, isAddress_iff.mpr ⟨found.host, wholeHost⟩,
      isAddress_iff.mpr ⟨found.network, wholeNetwork⟩, found.family,
      found.agree, found.matched⟩
    rwa [Int.toNat_of_nonneg (by omega)]

variable {nickLen : Nat} (fitsMask : s1.length < bufSize)
  (fitsAddress : s2.length < addressSize nickLen)

include fitsMask fitsAddress

theorem not_agrees_of_strays (strays : Strays s1 s2) :
    ¬Agrees nickLen s1 s2 := by
  rintro ⟨result, ran, agrees⟩
  cases strays with
  | mixed splits nonzero apart =>
      rw [matchCidr_of_splits fitsMask fitsAddress splits,
        matchParts_mixed nonzero apart] at ran
      cases ran
      obtain ⟨⟨left, right, found⟩, _⟩ :=
        (covers_iff splits).mp (agrees.mp rfl)
      exact apart ((found.host.family_iff found.network).mp found.family)
  | negative splits below host network family =>
      rw [matchCidr_of_splits fitsMask fitsAddress splits,
        matchParts_negative ((host.family_iff network).mp family) below host
          network] at ran
      cases ran
  | @loose _ _ len _ _ _ _ splits found written =>
      have same := (found.host.family_iff found.network).mp found.family
      have nonzero : atoi len ≠ 0 := ne_of_gt found.positive
      have notBelow : ¬atoi len < 0 := not_lt_of_gt found.positive
      obtain ⟨matched, again, iff⟩ :=
        matchParts_family same nonzero fun both => notBelow both.1
      rw [matchCidr_of_splits fitsMask fitsAddress splits, again] at ran
      cases ran
      have covers := agrees.mp (iff.mpr ⟨_, _, found⟩)
      exact written ((covers_iff splits).mp covers).2

theorem agrees_of_not_strays (proper : ¬Strays s1 s2) :
    Agrees nickLen s1 s2 := by
  by_cases splits : ∃ mask ipmask len address ip,
      Splits s1 s2 mask ipmask len address ip
  · obtain ⟨mask, ipmask, len, address, ip, splits⟩ := splits
    unfold Agrees
    rw [matchCidr_of_splits fitsMask fitsAddress splits, covers_iff splits]
    by_cases zero : atoi len = 0
    · refine ⟨false, if_pos zero, ⟨nofun, ?_⟩⟩
      rintro ⟨⟨left, right, found⟩, _⟩
      have positive := found.positive
      omega
    · have family : ':' ∈ ip ↔ ':' ∈ ipmask := by
        by_contra apart
        exact proper (.mixed splits zero apart)
      have sound : ¬(atoi len < 0 ∧ (∃ left, Reads ip left) ∧
          ∃ right, Reads ipmask right) := by
        rintro ⟨below, ⟨left, host⟩, right, network⟩
        exact proper (.negative splits below host network
          ((host.family_iff network).mpr family))
      obtain ⟨result, ran, iff⟩ := matchParts_family family zero sound
      refine ⟨result, ran, ?_⟩
      rw [iff]
      constructor
      · rintro ⟨left, right, found⟩
        refine ⟨⟨left, right, found⟩, ?_⟩
        by_contra written
        exact proper (.loose splits found written)
      · exact fun both => both.1
  · refine ⟨false, matchCidr_of_not_splits fitsMask fitsAddress splits,
      ⟨nofun, ?_⟩⟩
    rintro ⟨mask, ipmask, len, address, ip, found, _⟩
    exact absurd ⟨mask, ipmask, len, address, ip, found⟩ splits

/-- `match_cidr` agrees with the mask on all strings that fit, but for those
that stray. -/
theorem agrees_iff : Agrees nickLen s1 s2 ↔ ¬Strays s1 s2 :=
  ⟨fun agrees strays =>
      not_agrees_of_strays fitsMask fitsAddress strays agrees,
    agrees_of_not_strays fitsMask fitsAddress⟩

end Whole

theorem agrees_iff_network :
    Agrees 30 "*!*@10.0.0.0/8".toList "nick!user@10.1.2.3".toList ↔
      ¬Strays "*!*@10.0.0.0/8".toList "nick!user@10.1.2.3".toList :=
  agrees_iff (by decide) (by decide)

/-- An address with colons is under a mask that has none. -/
theorem not_agrees_mixed :
    matchCidr 30 "*!*@10.0.0.0/8".toList "nick!user@::1".toList = .ok true ∧
      ¬Agrees 30 "*!*@10.0.0.0/8".toList "nick!user@::1".toList := by
  have splits : Splits "*!*@10.0.0.0/8".toList "nick!user@::1".toList
      "*!*".toList "10.0.0.0".toList "8".toList "nick!user".toList
      "::1".toList :=
    ⟨by decide, by decide, by decide, by decide, by decide⟩
  have strays := Strays.mixed splits (by decide) (by decide)
  exact ⟨by decide, not_agrees_of_strays (by decide) (by decide) strays⟩

end Cidr

end RatboxServices
