import UniMail.Lib.Radix
import Mathlib.Data.List.Induction
import Mathlib.Data.List.TakeWhile
import Mathlib.Tactic.IntervalCases

/-!
# Socket addresses as text

IPv4 and IPv6 addresses with a port, as Rust's standard library prints and parses them: an IPv6
address with its longest run of zeros compressed, in brackets before a port, and an IPv4-mapped one in
dotted form. A `Reader` takes what it reads off a text, or fails and takes nothing.

`parse_display` is the round trip. Without the brackets an IPv6 address with a port is not an address
(`parse_unbracketed`).
-/

namespace Net

/-! ### Addresses -/

structure Ipv4Addr where
  a : UInt8
  b : UInt8
  c : UInt8
  d : UInt8
  deriving DecidableEq, Repr

structure Ipv6Addr where
  segments : Vector UInt16 8
  deriving DecidableEq, Repr

/-- An address with a port; `scopeId` is the zone of a link-local address, or zero. -/
inductive SocketAddr
  | v4 (ip : Ipv4Addr) (port : UInt16)
  | v6 (ip : Ipv6Addr) (port : UInt16) (scopeId : UInt32)
  deriving DecidableEq, Repr

def fromBeBytes (hi lo : UInt8) : UInt16 := UInt16.ofNat (256 * hi.toNat + lo.toNat)

/-- The last two segments of an address that ends in `ip`. -/
def Ipv4Addr.groups (ip : Ipv4Addr) : List UInt16 := [fromBeBytes ip.a ip.b, fromBeBytes ip.c ip.d]

def Ipv4Addr.ofGroups (x y : UInt16) : Ipv4Addr where
  a := UInt8.ofNat (x.toNat / 256)
  b := UInt8.ofNat (x.toNat % 256)
  c := UInt8.ofNat (y.toNat / 256)
  d := UInt8.ofNat (y.toNat % 256)

/-- The IPv4 address behind `::ffff:0:0/96`. -/
def Ipv6Addr.toIpv4Mapped (ip : Ipv6Addr) : Option Ipv4Addr :=
  if ip.segments.toList.take 6 = [0, 0, 0, 0, 0, 0xffff] then
    some (.ofGroups ip.segments[6] ip.segments[7])
  else none

/-! ### Printing -/

def decimal (n : ℕ) : List Char := Nat.toDigits 10 n

def hex (group : UInt16) : List Char := Nat.toDigits 16 group.toNat

def Ipv4Addr.display (ip : Ipv4Addr) : List Char :=
  decimal ip.a.toNat ++ '.' :: decimal ip.b.toNat ++ '.' :: decimal ip.c.toNat ++
    '.' :: decimal ip.d.toNat

/-- A run of segments. -/
structure Span where
  start : ℕ
  len : ℕ

/-- The longest run of zeros so far and the one at hand, with one more segment. -/
def Span.step (spans : Span × Span) (segment : UInt16 × ℕ) : Span × Span :=
  if segment.1 = 0 then
    let current : Span :=
      ⟨if spans.2.len = 0 then segment.2 else spans.2.start, spans.2.len + 1⟩
    (if spans.1.len < current.len then current else spans.1, current)
  else (spans.1, ⟨0, 0⟩)

def longestZeroes (segments : List UInt16) : Span :=
  (segments.zipIdx.foldl Span.step (⟨0, 0⟩, ⟨0, 0⟩)).1

/-- The colon-separated part of an address. -/
def fmtSubslice : List UInt16 → List Char
  | [] => []
  | first :: tail => hex first ++ tail.flatMap fun group => ':' :: hex group

def Ipv6Addr.display (ip : Ipv6Addr) : List Char :=
  match ip.toIpv4Mapped with
  | some ipv4 => "::ffff:".toList ++ ipv4.display
  | none =>
    let segments := ip.segments.toList
    let zeroes := longestZeroes segments
    if 1 < zeroes.len then
      fmtSubslice (segments.take zeroes.start) ++ "::".toList ++
        fmtSubslice (segments.drop (zeroes.start + zeroes.len))
    else fmtSubslice segments

/-- `IpAddr::to_string`: no brackets, no zone. -/
def SocketAddr.ip : SocketAddr → String
  | .v4 ip _ => String.ofList ip.display
  | .v6 ip _ _ => String.ofList ip.display

def SocketAddr.port : SocketAddr → UInt16
  | .v4 _ port => port
  | .v6 _ port _ => port

def SocketAddr.chars : SocketAddr → List Char
  | .v4 ip port => ip.display ++ ':' :: decimal port.toNat
  | .v6 ip port scopeId =>
    '[' :: ip.display ++ (if scopeId = 0 then [] else '%' :: decimal scopeId.toNat) ++
      ']' :: ':' :: decimal port.toNat

def SocketAddr.display (addr : SocketAddr) : String := String.ofList addr.chars

/-! ### Parsing -/

/-- Reads off a text, or fails. -/
abbrev Reader (α : Type) := List Char → Option (α × List Char)

def readGivenChar (target : Char) : Reader Unit
  | [] => none
  | c :: s => if c = target then some ((), s) else none

/-- What `inner` reads, after a separator unless it comes first. -/
def readSeparator {α : Type} (sep : Char) (index : ℕ) (inner : Reader α) : Reader α := fun s =>
  if 0 < index then (readGivenChar sep s).bind fun r => inner r.2 else inner s

/-- A number below `bound`. -/
def readNumber (radix : ℕ) (maxDigits : Option ℕ) (allowZeroPrefix : Bool) (bound : ℕ) : Reader ℕ :=
  fun s =>
    let digits := s.takeWhile (Radix.isDigit radix)
    if digits = [] ∨ maxDigits.any (· < digits.length) ∨
        (allowZeroPrefix = false ∧ digits.head? = some '0' ∧ 1 < digits.length) ∨
        bound ≤ Radix.value radix digits then none
    else some (Radix.value radix digits, s.dropWhile (Radix.isDigit radix))

/-- An octet; octal numbers are not allowed. -/
def readOctet (index : ℕ) : Reader UInt8 := fun s =>
  (readSeparator '.' index (readNumber 10 (some 3) false 256) s).map fun r => (UInt8.ofNat r.1, r.2)

def readIpv4Addr : Reader Ipv4Addr := fun s => do
  let (a, s) ← readOctet 0 s
  let (b, s) ← readOctet 1 s
  let (c, s) ← readOctet 2 s
  let (d, s) ← readOctet 3 s
  return (⟨a, b, c, d⟩, s)

def readGroup (index : ℕ) : Reader UInt16 := fun s =>
  (readSeparator ':' index (readNumber 16 (some 4) true 65536) s).map fun r => (UInt16.ofNat r.1, r.2)

/-- The groups of a part of an address, with at most `room` of them left, and whether an IPv4 address
has ended it. -/
def readGroups : ℕ → ℕ → List Char → List UInt16 × Bool × List Char
  | 0, _, s => ([], false, s)
  | room + 1, index, s =>
    -- Try to read a trailing embedded IPv4 address: it takes two groups.
    match if 0 < room then readSeparator ':' index readIpv4Addr s else none with
    | some (ipv4, s) => (ipv4.groups, true, s)
    | none =>
      match readGroup index s with
      | some (group, s) =>
        let rest := readGroups room (index + 1) s
        (group :: rest.1, rest.2)
      | none => ([], false, s)

/-- The segments that begin with `head` and end with `tail`, with zeros between. -/
def segmentsOf (head tail : List UInt16) : Vector UInt16 8 :=
  Vector.ofFn fun i => if i < 8 - tail.length then head.getD i 0
    else tail.getD (i - (8 - tail.length)) 0

def readIpv6Addr : Reader Ipv6Addr := fun s => do
  -- Read the front part of the address; either the whole thing, or up to the first ::
  let (head, headIpv4, s) := readGroups 8 0 s
  if head.length = 8 then return (⟨segmentsOf head []⟩, s)
  -- IPv4 part is not allowed before `::`
  if headIpv4 then none
  let (_, s) ← readGivenChar ':' s
  let (_, s) ← readGivenChar ':' s
  -- Read the back part of the address. The :: must contain at least one set of zeroes.
  let (tail, _, s) := readGroups (7 - head.length) 0 s
  return (⟨segmentsOf head tail⟩, s)

def readPort : Reader UInt16 := fun s => do
  let (_, s) ← readGivenChar ':' s
  let (port, s) ← readNumber 10 none true 65536 s
  return (UInt16.ofNat port, s)

def readScopeId : Reader UInt32 := fun s => do
  let (_, s) ← readGivenChar '%' s
  let (scopeId, s) ← readNumber 10 none true 4294967296 s
  return (UInt32.ofNat scopeId, s)

def readSocketAddrV4 : Reader SocketAddr := fun s => do
  let (ip, s) ← readIpv4Addr s
  let (port, s) ← readPort s
  return (.v4 ip port, s)

def readSocketAddrV6 : Reader SocketAddr := fun s => do
  let (_, s) ← readGivenChar '[' s
  let (ip, s) ← readIpv6Addr s
  let (scopeId, s) := (readScopeId s).getD (0, s)
  let (_, s) ← readGivenChar ']' s
  let (port, s) ← readPort s
  return (.v6 ip port scopeId, s)

def readSocketAddr : Reader SocketAddr := fun s => (readSocketAddrV4 s).or (readSocketAddrV6 s)

/-- `SocketAddr::from_str`: the whole text is an address. -/
def SocketAddr.parse (s : String) : Option SocketAddr :=
  match readSocketAddr s.toList with
  | some (addr, []) => some addr
  | _ => none

/-! ### Reading what is printed -/

/-- No digit of the radix comes next. -/
def Stops (radix : ℕ) (rest : List Char) : Prop := ∀ c ∈ rest.head?, Radix.isDigit radix c = false

theorem takeWhile_of_stops {radix : ℕ} {digits rest : List Char}
    (hdigits : ∀ c ∈ digits, Radix.isDigit radix c) (hrest : Stops radix rest) :
    (digits ++ rest).takeWhile (Radix.isDigit radix) = digits ∧
      (digits ++ rest).dropWhile (Radix.isDigit radix) = rest := by
  have hstop : rest.takeWhile (Radix.isDigit radix) = [] ∧
      rest.dropWhile (Radix.isDigit radix) = rest := by
    cases rest with
    | nil => exact ⟨rfl, rfl⟩
    | cons c rest =>
      have hc := hrest c rfl
      exact ⟨List.takeWhile_cons_of_neg (by simp [hc]), List.dropWhile_cons_of_neg (by simp [hc])⟩
  rw [List.takeWhile_append_of_pos hdigits, List.dropWhile_append_of_pos hdigits, hstop.1, hstop.2,
    List.append_nil]
  exact ⟨rfl, rfl⟩

/-- A number in range is read back. -/
theorem readNumber_toDigits {radix bound n : ℕ} {maxDigits : Option ℕ} {allowZeroPrefix : Bool}
    {rest : List Char} (hone : 1 < radix) (hradix : radix ≤ 16) (hn : n < bound)
    (hmax : ∀ m ∈ maxDigits, 0 < m ∧ n < radix ^ m) (hrest : Stops radix rest) :
    readNumber radix maxDigits allowZeroPrefix bound (Nat.toDigits radix n ++ rest) =
      some (n, rest) := by
  obtain ⟨htake, hdrop⟩ := takeWhile_of_stops (Radix.isDigit_toDigits hone hradix n) hrest
  unfold readNumber
  simp only [htake, hdrop, Radix.value_toDigits hone hradix]
  rw [if_neg]
  rintro (hnil | hlong | ⟨_, hzero, hlen⟩ | hbound)
  · exact Nat.toDigits_ne_nil hnil
  · obtain ⟨m, hm, hlong⟩ := Option.any_eq_true _ _ |>.mp hlong
    obtain ⟨hpos, hlt⟩ := hmax m hm
    have hle := (Nat.length_toDigits_le_iff hone hpos).mpr hlt
    simp only [decide_eq_true_eq] at hlong
    omega
  · have h0 := Radix.head_toDigits hone hradix n hzero
    have hle := (Nat.length_toDigits_le_iff (n := n) hone Nat.one_pos).mpr
      (by rw [h0, Nat.pow_one]; omega)
    omega
  · omega

theorem readSeparator_zero {α : Type} (sep : Char) (inner : Reader α) (s : List Char) :
    readSeparator sep 0 inner s = inner s := rfl

theorem readSeparator_succ {α : Type} (sep : Char) (index : ℕ) (inner : Reader α) (s : List Char) :
    readSeparator sep (index + 1) inner (sep :: s) = inner s := by
  simp [readSeparator, readGivenChar]

theorem readSeparator_ne {α : Type} {sep : Char} (index : ℕ) (inner : Reader α) {s : List Char}
    (hs : s.head? ≠ some sep) : readSeparator sep (index + 1) inner s = none := by
  cases s with
  | nil => rfl
  | cons c s =>
    have hc : c ≠ sep := fun hc => hs (congrArg some hc)
    simp [readSeparator, readGivenChar, hc]

theorem readOctet_decimal (index : ℕ) (pre : List Char) (n : UInt8) {rest : List Char}
    (hpre : pre = if 0 < index then ['.'] else []) (hrest : Stops 10 rest) :
    readOctet index (pre ++ decimal n.toNat ++ rest) = some (n, rest) := by
  have hnumber : readNumber 10 (some 3) false 256 (decimal n.toNat ++ rest) =
      some (n.toNat, rest) := by
    apply readNumber_toDigits (by omega) (by omega) n.toNat_lt _ hrest
    rintro m ⟨⟩
    exact ⟨by omega, by have := n.toNat_lt; omega⟩
  subst hpre
  rw [List.append_assoc]
  cases index with
  | zero =>
    show (readNumber 10 (some 3) false 256 (decimal n.toNat ++ rest)).map _ = _
    rw [hnumber, Option.map_some, UInt8.ofNat_toNat]
  | succ index =>
    show (readSeparator '.' (index + 1) _ ('.' :: (decimal n.toNat ++ rest))).map _ = _
    rw [readSeparator_succ, hnumber, Option.map_some, UInt8.ofNat_toNat]

theorem stops_cons {radix : ℕ} {c : Char} (s : List Char) (hc : Radix.isDigit radix c = false) :
    Stops radix (c :: s) := by
  rintro c' ⟨⟩
  exact hc

theorem readIpv4Addr_display (ip : Ipv4Addr) {rest : List Char} (hrest : Stops 10 rest) :
    readIpv4Addr (ip.display ++ rest) = some (ip, rest) := by
  have hdot : ∀ s, Stops 10 ('.' :: s) := fun s => stops_cons s (by decide)
  have ha := readOctet_decimal 0 [] ip.a rfl
    (hdot (decimal ip.b.toNat ++ '.' :: decimal ip.c.toNat ++ '.' :: decimal ip.d.toNat ++ rest))
  have hb := readOctet_decimal 1 ['.'] ip.b rfl
    (hdot (decimal ip.c.toNat ++ '.' :: decimal ip.d.toNat ++ rest))
  have hc := readOctet_decimal 2 ['.'] ip.c rfl
    (hdot (decimal ip.d.toNat ++ rest))
  have hd := readOctet_decimal 3 ['.'] ip.d rfl hrest
  simp only [List.append_assoc, List.cons_append, List.nil_append] at ha hb hc hd
  simp [readIpv4Addr, Ipv4Addr.display, ha, hb, hc, hd]

/-! ### Groups -/

theorem readNumber_hex (group : UInt16) {rest : List Char} (hrest : Stops 16 rest) :
    readNumber 16 (some 4) true 65536 (hex group ++ rest) = some (group.toNat, rest) := by
  apply readNumber_toDigits (by omega) (by omega) group.toNat_lt _ hrest
  rintro m ⟨⟩
  exact ⟨by omega, group.toNat_lt⟩

/-- An IPv4 address has a dot after its first number. -/
theorem readIpv4Addr_none {s : List Char}
    (hs : (s.dropWhile (Radix.isDigit 10)).head? ≠ some '.') : readIpv4Addr s = none := by
  have hsecond : readOctet 1 (s.dropWhile (Radix.isDigit 10)) = none := by
    show (readSeparator '.' 1 _ _).map _ = none
    rw [readSeparator_ne 0 _ hs]
    rfl
  cases hfirst : readOctet 0 s with
  | none => simp [readIpv4Addr, hfirst]
  | some r =>
    obtain ⟨a, rest⟩ := r
    obtain ⟨n, hn, heq⟩ := Option.map_eq_some_iff.mp hfirst
    have hrest : rest = s.dropWhile (Radix.isDigit 10) := by
      rw [readSeparator_zero] at hn
      unfold readNumber at hn
      obtain ⟨_, hn⟩ := Option.ite_none_left_eq_some.mp hn
      cases hn
      cases heq
      rfl
    simp [readIpv4Addr, hfirst, hrest, hsecond]

theorem isDigit_ten {c : Char} (h : Radix.isDigit 10 c) : Radix.isDigit 16 c := by
  obtain ⟨d, hd⟩ := Option.isSome_iff_exists.mp h
  obtain ⟨hvalue, hlt⟩ := Option.filter_eq_some_iff.mp hd
  simp only [decide_eq_true_eq] at hlt
  refine Option.isSome_iff_exists.mpr ⟨d, Option.filter_eq_some_iff.mpr ⟨hvalue, ?_⟩⟩
  simp only [decide_eq_true_eq]
  omega

/-- No group and no dot comes next. -/
def NoGroup (rest : List Char) : Prop := Stops 16 rest ∧ rest.head? ≠ some '.'

theorem NoGroup.head_dropWhile {digits rest : List Char}
    (hdigits : ∀ c ∈ digits, Radix.isDigit 16 c) (hrest : NoGroup rest) :
    ((digits ++ rest).dropWhile (Radix.isDigit 10)).head? ≠ some '.' := by
  induction digits with
  | nil =>
    cases rest with
    | nil => simp
    | cons c rest =>
      have h16 := hrest.1 c rfl
      have h10 : ¬ Radix.isDigit 10 c := fun h => by simp [isDigit_ten h] at h16
      rw [List.nil_append, List.dropWhile_cons_of_neg h10]
      exact hrest.2
  | cons c digits ih =>
    obtain ⟨hc, hdigits⟩ := List.forall_mem_cons.mp hdigits
    rw [List.cons_append]
    by_cases h10 : Radix.isDigit 10 c
    · rw [List.dropWhile_cons_of_pos h10]
      exact ih hdigits
    · rw [List.dropWhile_cons_of_neg h10]
      rintro ⟨⟩
      exact absurd hc (by decide)

/-- What ends a part of an address: no further group can be read. -/
structure Ends (rest : List Char) : Prop where
  noGroup : NoGroup rest
  noIpv4 : ∀ index, readSeparator ':' index readIpv4Addr rest = none
  noMore : ∀ index, readGroup index rest = none

theorem isDigit_hex (group : UInt16) : ∀ c ∈ hex group, Radix.isDigit 16 c :=
  Radix.isDigit_toDigits (by omega) (by omega) _

theorem noGroup_colon (s : List Char) : NoGroup (':' :: s) := ⟨stops_cons s (by decide), by simp⟩

/-- A group is read, and not taken for an IPv4 address. -/
theorem readGroups_step (room index : ℕ) (pre : List Char) (group : UInt16) {rest : List Char}
    (hpre : pre = if 0 < index then [':'] else []) (hrest : NoGroup rest) :
    readGroups (room + 1) index (pre ++ hex group ++ rest) =
      (group :: (readGroups room (index + 1) rest).1, (readGroups room (index + 1) rest).2) := by
  have hnone := readIpv4Addr_none (hrest.head_dropWhile (isDigit_hex group))
  have hread : ∀ {α : Type} (inner : Reader α),
      readSeparator ':' index inner (pre ++ hex group ++ rest) = inner (hex group ++ rest) := by
    intro α inner
    subst hpre
    rw [List.append_assoc]
    cases index with
    | zero => rfl
    | succ index => exact readSeparator_succ ..
  have hgroup : readGroup index (pre ++ hex group ++ rest) = some (group, rest) := by
    rw [readGroup, hread, readNumber_hex group hrest.1, Option.map_some, UInt16.ofNat_toNat]
  rw [readGroups, hread, hnone, ite_self, hgroup]

theorem readGroups_ends {rest : List Char} (hrest : Ends rest) (room index : ℕ) :
    readGroups room index rest = ([], false, rest) := by
  cases room with
  | zero => rfl
  | succ room =>
    unfold readGroups
    rw [hrest.noIpv4, ite_self, hrest.noMore]

theorem noGroup_flatMap (groups : List UInt16) {rest : List Char} (hrest : NoGroup rest) :
    NoGroup ((groups.flatMap fun group => ':' :: hex group) ++ rest) := by
  cases groups with
  | nil => exact hrest
  | cons group groups => exact noGroup_colon _

theorem readGroups_flatMap {rest : List Char} (hrest : Ends rest) (groups : List UInt16)
    {room index : ℕ} (hroom : groups.length ≤ room) (hindex : 0 < index) :
    readGroups room index ((groups.flatMap fun group => ':' :: hex group) ++ rest) =
      (groups, false, rest) := by
  induction groups generalizing room index with
  | nil => exact readGroups_ends hrest room index
  | cons group groups ih =>
    obtain ⟨room, rfl⟩ := Nat.exists_eq_add_of_lt (Nat.lt_of_lt_of_le (Nat.succ_pos _) hroom)
    rw [List.length_cons] at hroom
    have hstep := readGroups_step (0 + room) index [':'] group
      (by rw [if_pos hindex]) (noGroup_flatMap groups hrest.noGroup)
    rw [ih (by omega) (Nat.succ_pos index)] at hstep
    simpa [List.append_assoc] using hstep

/-- The groups of a part of an address are read back. -/
theorem readGroups_fmtSubslice {rest : List Char} (hrest : Ends rest) (groups : List UInt16)
    (room : ℕ) (hroom : groups.length ≤ room) :
    readGroups room 0 (fmtSubslice groups ++ rest) = (groups, false, rest) := by
  cases groups with
  | nil => exact readGroups_ends hrest room 0
  | cons group groups =>
    obtain ⟨room, rfl⟩ := Nat.exists_eq_add_of_lt (Nat.lt_of_lt_of_le (Nat.succ_pos _) hroom)
    rw [List.length_cons] at hroom
    have hstep := readGroups_step (0 + room) 0 [] group rfl
      (noGroup_flatMap groups hrest.noGroup)
    rw [readGroups_flatMap hrest groups (by omega) Nat.one_pos] at hstep
    simpa [fmtSubslice, List.append_assoc] using hstep

/-! ### Runs of zeros -/

/-- The segments of the span are zeros. -/
def Span.Zeroes (l : List UInt16) (span : Span) : Prop :=
  ∀ i, span.start ≤ i → i < span.start + span.len → l[i]? = some 0

theorem Span.Zeroes.append {l : List UInt16} {span : Span} (h : span.Zeroes l) (l' : List UInt16) :
    span.Zeroes (l ++ l') := by
  intro i hstart hend
  have hi := h i hstart hend
  rw [List.getElem?_append_left (List.getElem?_eq_some_iff.mp hi).1, hi]

/-- The longest run and the one at hand are runs of zeros, and the one at hand ends here. -/
theorem zeroes_foldl (l : List UInt16) :
    (l.zipIdx.foldl Span.step (⟨0, 0⟩, ⟨0, 0⟩)).1.Zeroes l ∧
      (l.zipIdx.foldl Span.step (⟨0, 0⟩, ⟨0, 0⟩)).2.Zeroes l ∧
      ((l.zipIdx.foldl Span.step (⟨0, 0⟩, ⟨0, 0⟩)).2.len ≠ 0 →
        (l.zipIdx.foldl Span.step (⟨0, 0⟩, ⟨0, 0⟩)).2.start +
          (l.zipIdx.foldl Span.step (⟨0, 0⟩, ⟨0, 0⟩)).2.len = l.length) := by
  induction l using List.reverseRecOn with
  | nil => exact ⟨nofun, nofun, fun h => absurd rfl h⟩
  | append_singleton l segment ih =>
    rw [List.zipIdx_append, List.foldl_append]
    generalize l.zipIdx.foldl Span.step (⟨0, 0⟩, ⟨0, 0⟩) = spans at ih
    obtain ⟨hlongest, hcurrent, hend⟩ := ih
    simp only [List.zipIdx_singleton, List.foldl_cons, List.foldl_nil, Span.step, zero_add]
    split
    · rename_i hzero
      have hnext : Span.Zeroes (l ++ [segment])
          ⟨if spans.2.len = 0 then l.length else spans.2.start, spans.2.len + 1⟩ := by
        intro i hstart hi
        simp only at hstart hi
        by_cases hil : i < l.length
        · rw [List.getElem?_append_left hil]
          apply hcurrent i <;> split at hstart <;> omega
        · have heq : i = l.length := by split at hi <;> omega
          rw [heq, List.getElem?_append_right (Nat.le_refl _), Nat.sub_self]
          exact congrArg some hzero
      refine ⟨?_, hnext, fun _ => ?_⟩
      · split
        · exact hnext
        · exact hlongest.append _
      · show (if spans.2.len = 0 then l.length else spans.2.start) + (spans.2.len + 1) = _
        rw [List.length_append, List.length_singleton]
        split <;> omega
    · refine ⟨hlongest.append _, ?_, fun h => absurd rfl h⟩
      intro i _ hi
      exact absurd hi (Nat.not_lt_zero i)

theorem longestZeroes_zeroes (l : List UInt16) : (longestZeroes l).Zeroes l := (zeroes_foldl l).1

/-- An address is put together from what stands before and after a run of zeros. -/
theorem segmentsOf_take_drop (v : Vector UInt16 8) (start stop : ℕ) (hle : start ≤ stop)
    (hstop : stop ≤ 8) (hzero : ∀ i, start ≤ i → i < stop → v.toList[i]? = some 0) :
    segmentsOf (v.toList.take start) (v.toList.drop stop) = v := by
  apply Vector.ext
  intro i hi
  have hsub : 8 - (v.toList.drop stop).length = stop := by
    rw [List.length_drop, Vector.length_toList]
    omega
  have hget : v.toList[i]? = some v[i] := by simp [hi]
  rw [segmentsOf, Vector.getElem_ofFn]
  simp only [hsub]
  split
  · rename_i hlt
    rw [List.getD_eq_getElem?_getD, List.getElem?_take]
    split
    · rw [hget, Option.getD_some]
    · rename_i hstart
      have h0 := hzero i (by omega) hlt
      rw [hget] at h0
      exact (Option.some.inj h0).symm
  · rename_i hge
    rw [List.getD_eq_getElem?_getD, List.getElem?_drop, show stop + (i - stop) = i by omega, hget,
      Option.getD_some]

theorem toList_segments (v : Vector UInt16 8) :
    v.toList = [v[0], v[1], v[2], v[3], v[4], v[5], v[6], v[7]] := by
  apply List.ext_getElem
  · simp
  · intro i hi _
    have hlt : i < 8 := by simpa using hi
    interval_cases i <;> simp

theorem fromBeBytes_ofGroups (x : UInt16) :
    fromBeBytes (UInt8.ofNat (x.toNat / 256)) (UInt8.ofNat (x.toNat % 256)) = x := by
  have hx := x.toNat_lt
  apply UInt16.toNat.inj
  rw [fromBeBytes, UInt8.toNat_ofNat', UInt8.toNat_ofNat', UInt16.toNat_ofNat']
  omega

/-! ### The round trip -/

theorem ends_of_head (rest : List Char) {c : Char} (hhead : rest.head? = some c)
    (hc : c = ']' ∨ c = '%') : Ends rest := by
  obtain ⟨rest, rfl⟩ : ∃ tail, rest = c :: tail := by
    cases rest with
    | nil => cases hhead
    | cons c' rest => exact ⟨rest, by rw [Option.some.inj hhead]⟩
  have hdigit : Radix.isDigit 16 c = false := by
    rcases hc with rfl | rfl <;> decide
  have h10 : ¬ Radix.isDigit 10 c := fun h => by simp [isDigit_ten h] at hdigit
  have hcolon : c ≠ ':' ∧ c ≠ '.' := by
    rcases hc with rfl | rfl <;> decide
  have hipv4 : readIpv4Addr (c :: rest) = none := by
    apply readIpv4Addr_none
    rw [List.dropWhile_cons_of_neg h10]
    exact fun h => hcolon.2 (Option.some.inj h)
  have hnumber : readNumber 16 (some 4) true 65536 (c :: rest) = none := by
    simp [readNumber, hdigit]
  have hsep : ∀ {α : Type} (index : ℕ) (inner : Reader α),
      readSeparator ':' (index + 1) inner (c :: rest) = none :=
    fun index inner => readSeparator_ne index inner fun h => hcolon.1 (Option.some.inj h)
  refine ⟨⟨stops_cons rest hdigit, fun h => hcolon.2 (Option.some.inj h)⟩, fun index => ?_,
    fun index => ?_⟩
  · cases index with
    | zero => exact hipv4
    | succ index => exact hsep index _
  · cases index with
    | zero => exact congrArg (Option.map _) hnumber
    | succ index => exact congrArg (Option.map _) (hsep index _)

theorem ends_colons (rest : List Char) : Ends (':' :: ':' :: rest) := by
  have hipv4 : ∀ s, readIpv4Addr (':' :: s) = none := by
    intro s
    apply readIpv4Addr_none
    rw [List.dropWhile_cons_of_neg (by decide)]
    simp
  have hnumber : ∀ s, readNumber 16 (some 4) true 65536 (':' :: s) = none := by
    intro s
    have hdigit : Radix.isDigit 16 ':' = false := by decide
    simp [readNumber, hdigit]
  refine ⟨noGroup_colon _, fun index => ?_, fun index => ?_⟩
  · cases index with
    | zero => exact hipv4 _
    | succ index =>
      rw [readSeparator_succ]
      exact hipv4 _
  · unfold readGroup
    cases index with
    | zero =>
      rw [readSeparator_zero, hnumber]
      rfl
    | succ index =>
      rw [readSeparator_succ, hnumber]
      rfl

/-- What stands before and after the two colons is read back. -/
theorem readIpv6Addr_compressed (head : List UInt16) {tail : List UInt16} {text rest : List Char}
    (hhead : head.length < 8)
    (htail : ∃ embedded, readGroups (7 - head.length) 0 text = (tail, embedded, rest)) :
    readIpv6Addr (fmtSubslice head ++ ':' :: ':' :: text) =
      some (⟨segmentsOf head tail⟩, rest) := by
  obtain ⟨embedded, htail⟩ := htail
  have hfront := readGroups_fmtSubslice (ends_colons text) head 8 (by omega)
  simp [readIpv6Addr, hfront, Nat.ne_of_lt hhead, readGivenChar, htail]

/-- An IPv4 address that ends an IPv6 address is read as two groups. -/
theorem readGroups_mapped (ip : Ipv4Addr) {rest : List Char} (hrest : Stops 10 rest) :
    readGroups 7 0 ("ffff:".toList ++ ip.display ++ rest) = (0xffff :: ip.groups, true, rest) := by
  have hfirst := readGroups_step 6 0 [] 0xffff rfl
    (noGroup_colon (ip.display ++ rest))
  have hsecond : readGroups 6 1 (':' :: (ip.display ++ rest)) = (ip.groups, true, rest) := by
    rw [readGroups, readSeparator_succ, readIpv4Addr_display ip hrest]
    rfl
  rw [hsecond] at hfirst
  exact hfirst

/-- A mapped address: its first five segments are zeros. -/
theorem readIpv6Addr_mapped {v : Vector UInt16 8} {ipv4 : Ipv4Addr} {rest : List Char}
    (hmapped : Ipv6Addr.toIpv4Mapped ⟨v⟩ = some ipv4) (hrest : Stops 10 rest) :
    readIpv6Addr ("::ffff:".toList ++ ipv4.display ++ rest) = some (⟨v⟩, rest) := by
  obtain ⟨hfront, hipv4⟩ := Option.ite_none_right_eq_some.mp hmapped
  have hlist := toList_segments v
  have hdrop : v.toList.drop 5 = 0xffff :: ipv4.groups := by
    rw [← Option.some.inj hipv4]
    simp only [Ipv4Addr.groups, Ipv4Addr.ofGroups, fromBeBytes_ofGroups]
    simp [hlist] at hfront ⊢
    exact hfront.2.2.2.2.2
  have hsegments : segmentsOf [] (0xffff :: ipv4.groups) = v := by
    rw [← hdrop]
    apply segmentsOf_take_drop v 0 5 (by omega) (by omega)
    intro i _ hi
    simp [hlist] at hfront
    interval_cases i <;> simp [hfront]
  have hread := readIpv6Addr_compressed [] (by simp) ⟨true, readGroups_mapped ipv4 hrest⟩
  rw [hsegments] at hread
  exact hread

/-- An address with a run of zeros left out. -/
theorem readIpv6Addr_zeroes (v : Vector UInt16 8) {zeroes : Span} {rest : List Char}
    (hends : Ends rest) (hlen : 1 < zeroes.len)
    (hzero : ∀ i, zeroes.start ≤ i → i < zeroes.start + zeroes.len → v.toList[i]? = some 0) :
    readIpv6Addr (fmtSubslice (v.toList.take zeroes.start) ++ "::".toList ++
      fmtSubslice (v.toList.drop (zeroes.start + zeroes.len)) ++ rest) = some (⟨v⟩, rest) := by
  have hstop : zeroes.start + zeroes.len ≤ 8 := by
    have hlast := hzero (zeroes.start + zeroes.len - 1) (by omega) (by omega)
    have hlt := (List.getElem?_eq_some_iff.mp hlast).1
    rw [Vector.length_toList] at hlt
    omega
  have hhead : (v.toList.take zeroes.start).length = zeroes.start := by
    rw [List.length_take, Vector.length_toList]
    omega
  have htail := readGroups_fmtSubslice hends (v.toList.drop (zeroes.start + zeroes.len))
    (7 - zeroes.start) (by rw [List.length_drop, Vector.length_toList]; omega)
  have hread := readIpv6Addr_compressed (v.toList.take zeroes.start) (by omega)
    ⟨false, by rw [hhead]; exact htail⟩
  rw [segmentsOf_take_drop v _ _ (Nat.le_add_right ..) hstop hzero] at hread
  simpa [List.append_assoc] using hread

/-- An address with all its segments. -/
theorem readIpv6Addr_segments (v : Vector UInt16 8) {rest : List Char} (hends : Ends rest) :
    readIpv6Addr (fmtSubslice v.toList ++ rest) = some (⟨v⟩, rest) := by
  have hread := readGroups_fmtSubslice hends v.toList 8 (by simp)
  have hsegments : segmentsOf v.toList [] = v := by
    have hall := segmentsOf_take_drop v 8 8 (Nat.le_refl _) (Nat.le_refl _) (by omega)
    rwa [List.take_of_length_le (by simp), List.drop_of_length_le (by simp)] at hall
  simp [readIpv6Addr, hread, hsegments]

theorem readIpv6Addr_display (ip : Ipv6Addr) {rest : List Char} (hends : Ends rest) :
    readIpv6Addr (ip.display ++ rest) = some (ip, rest) := by
  obtain ⟨v⟩ := ip
  unfold Ipv6Addr.display
  split
  · rename_i ipv4 hmapped
    have hrest : Stops 10 rest := fun c hc => Bool.eq_false_iff.mpr fun h => by
      have h16 := hends.noGroup.1 c hc
      simp [isDigit_ten h] at h16
    exact readIpv6Addr_mapped hmapped hrest
  · simp only
    split
    · rename_i hlen
      exact readIpv6Addr_zeroes v hends hlen (longestZeroes_zeroes v.toList)
    · exact readIpv6Addr_segments v hends

theorem readPort_decimal (port : UInt16) :
    readPort (':' :: decimal port.toNat) = some (port, []) := by
  have hnumber : readNumber 10 none true 65536 (decimal port.toNat ++ []) = some (port.toNat, []) :=
    readNumber_toDigits (by omega) (by omega) port.toNat_lt nofun nofun
  rw [List.append_nil] at hnumber
  simp [readPort, readGivenChar, hnumber]

theorem readScopeId_decimal (scopeId : UInt32) {rest : List Char} (hrest : Stops 10 rest) :
    readScopeId ('%' :: decimal scopeId.toNat ++ rest) = some (scopeId, rest) := by
  have hnumber : readNumber 10 none true 4294967296 (decimal scopeId.toNat ++ rest) =
      some (scopeId.toNat, rest) :=
    readNumber_toDigits (by omega) (by omega) scopeId.toNat_lt nofun hrest
  simp [readScopeId, readGivenChar, hnumber]

theorem readSocketAddrV4_chars (ip : Ipv4Addr) (port : UInt16) :
    readSocketAddrV4 (SocketAddr.v4 ip port).chars = some (.v4 ip port, []) := by
  have hcolon : Radix.isDigit 10 ':' = false := by decide
  have hip := readIpv4Addr_display ip (stops_cons (decimal port.toNat) hcolon)
  simp [readSocketAddrV4, SocketAddr.chars, hip, readPort_decimal]

theorem readSocketAddrV6_chars (ip : Ipv6Addr) (port : UInt16) (scopeId : UInt32) :
    readSocketAddrV6 (SocketAddr.v6 ip port scopeId).chars = some (.v6 ip port scopeId, []) := by
  have hport := readPort_decimal port
  have hbracket : Radix.isDigit 10 ']' = false := by decide
  by_cases hscope : scopeId = 0
  · have hip := readIpv6Addr_display ip
      (ends_of_head (']' :: ':' :: decimal port.toNat) rfl (Or.inl rfl))
    have hnone : readScopeId (']' :: ':' :: decimal port.toNat) = none := rfl
    simp [readSocketAddrV6, SocketAddr.chars, hscope, readGivenChar, hip, hnone, hport]
  · have hip := readIpv6Addr_display ip
      (ends_of_head ('%' :: decimal scopeId.toNat ++ ']' :: ':' :: decimal port.toNat) rfl
        (Or.inr rfl))
    have hsome := readScopeId_decimal scopeId
      (stops_cons (':' :: decimal port.toNat) hbracket)
    simp only [List.cons_append] at hip hsome
    simp [readSocketAddrV6, SocketAddr.chars, hscope, readGivenChar, hip, hsome, hport]

theorem readSocketAddrV4_bracket (s : List Char) : readSocketAddrV4 ('[' :: s) = none := by
  have hnone : readIpv4Addr ('[' :: s) = none := by
    apply readIpv4Addr_none
    rw [List.dropWhile_cons_of_neg (by decide)]
    simp
  simp [readSocketAddrV4, hnone]

/-- **Every address is read back from its text.** -/
theorem parse_display (addr : SocketAddr) : SocketAddr.parse addr.display = some addr := by
  have hread : readSocketAddr addr.chars = some (addr, []) := by
    cases addr with
    | v4 ip port => rw [readSocketAddr, readSocketAddrV4_chars, Option.some_or]
    | v6 ip port scopeId =>
      have hnone : readSocketAddrV4 (SocketAddr.v6 ip port scopeId).chars = none :=
        readSocketAddrV4_bracket _
      rw [readSocketAddr, hnone, Option.none_or, readSocketAddrV6_chars]
  rw [SocketAddr.parse, SocketAddr.display, String.toList_ofList, hread]

example : SocketAddr.parse "[fe80::1%3]:80" =
    some (.v6 ⟨#v[0xfe80, 0, 0, 0, 0, 0, 0, 1]⟩ 80 3) := by decide

/-! ### Without brackets -/

/-- The first colon of an IPv6 address comes after hexadecimal digits. -/
theorem display_colon (ip : Ipv6Addr) :
    ∃ digits s, (∀ c ∈ digits, Radix.isDigit 16 c) ∧ ip.display = digits ++ ':' :: s := by
  unfold Ipv6Addr.display
  split
  · exact ⟨[], _, nofun, rfl⟩
  · simp only
    split
    · cases ip.segments.toList.take (longestZeroes ip.segments.toList).start with
      | nil => exact ⟨[], _, nofun, rfl⟩
      | cons group groups =>
        refine ⟨hex group, ?_⟩
        cases groups with
        | nil => exact ⟨_, isDigit_hex group, by simp [fmtSubslice]; rfl⟩
        | cons group' groups => exact ⟨_, isDigit_hex group, by simp [fmtSubslice]; rfl⟩
    · rw [toList_segments]
      exact ⟨hex ip.segments[0], _, isDigit_hex _, rfl⟩

theorem parse_unbracketed (ip : Ipv6Addr) (port : UInt16) :
    SocketAddr.parse (String.ofList (ip.display ++ ':' :: decimal port.toNat)) = none := by
  obtain ⟨digits, s, hdigits, hdisplay⟩ := display_colon ip
  rw [hdisplay, List.append_assoc, List.cons_append]
  generalize s ++ ':' :: decimal port.toNat = rest
  have hipv4 := readIpv4Addr_none ((noGroup_colon rest).head_dropWhile hdigits)
  have hbracket : readGivenChar '[' (digits ++ ':' :: rest) = none := by
    cases digits with
    | nil => rfl
    | cons c digits =>
      have hc : c ≠ '[' := by
        rintro rfl
        exact absurd (hdigits '[' List.mem_cons_self) (by decide)
      simp [readGivenChar, hc]
  simp [SocketAddr.parse, readSocketAddr, readSocketAddrV4, readSocketAddrV6, hipv4, hbracket]

end Net
