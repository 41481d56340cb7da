import Mathlib.Data.List.Induction
import UniMail.Lib.Percent

/-!
# Form-encoded queries

The text of a list of names and values, as `application/x-www-form-urlencoded` has it: a space is a plus
sign, letters, digits and `*-._` stand for themselves, and every other byte is percent-encoded. A text
splits at `&` and each part at its first `=`. What was written is read back, whatever bytes the names and
the values have (`parse_serialize`).
-/

namespace FormUrl

abbrev Pair := List UInt8 × List UInt8

/-- The bytes that stand for themselves: `*`, `-`, `.`, `_`, digits and letters. -/
def isPlain (b : UInt8) : Bool :=
  b = 42 || b = 45 || b = 46 || b = 95 || (48 ≤ b && b ≤ 57) || (65 ≤ b && b ≤ 90) || (97 ≤ b && b ≤ 122)

def reserved (b : UInt8) : Bool := !isPlain b

def encodeByte (b : UInt8) : List Char := if b = 32 then ['+'] else Percent.encodeByte reserved b

def encode (bytes : List UInt8) : List Char := bytes.flatMap encodeByte

/-- A plus sign is a space. -/
def unplus (c : Char) : Char := if c = '+' then ' ' else c

def decode (l : List Char) : List UInt8 := Percent.decode (l.map unplus)

def pairText (p : Pair) : List Char := encode p.1 ++ '=' :: encode p.2

def serialize (pairs : List Pair) : List Char := ['&'].intercalate (pairs.map pairText)

/-- A part, split at its first `=`. -/
def parsePart (part : List Char) : Pair :=
  (decode (part.takeWhile (· ≠ '=')), decode (part.dropWhile (· ≠ '=')).tail)

def parse (l : List Char) : List Pair := ((l.splitOn '&').filter (· ≠ [])).map parsePart

theorem reserves : Percent.Reserves reserved := by
  have hall : ∀ n < 256, n = 37 ∨ 128 ≤ n → reserved (UInt8.ofNat n) := by decide +kernel
  intro b hb
  have h := hall b.toNat b.toNat_lt (hb.imp_left fun h => congrArg UInt8.toNat h)
  rwa [UInt8.ofNat_toNat] at h

/-- The characters of an encoded byte other than a space. -/
theorem separator_notMem {c : Char} (hc : c = '+' ∨ c = '&' ∨ c = '=' ∨ c = '#') (b : UInt8) :
    c ∉ Percent.encodeByte reserved b := by
  have hreserved : ∀ n < 256, Char.ofNat n = '+' ∨ Char.ofNat n = '&' ∨ Char.ofNat n = '=' ∨
      Char.ofNat n = '#' → reserved (UInt8.ofNat n) := by decide +kernel
  have hb : ∀ b : UInt8, Char.ofNat b.toNat = c → reserved b := by
    intro b hb
    have h := hreserved b.toNat b.toNat_lt (hb ▸ hc)
    rwa [UInt8.ofNat_toNat] at h
  have hmem : c ∉ Percent.encode reserved [b] := by
    apply Percent.notMem_encode hb
    · rcases hc with rfl | rfl | rfl | rfl <;> decide
    · rcases hc with rfl | rfl | rfl | rfl <;> decide
  simpa [Percent.encode] using hmem

/-- An encoded text has no separator. -/
theorem notMem_encode {c : Char} (hc : c = '&' ∨ c = '=' ∨ c = '#') (bytes : List UInt8) :
    c ∉ encode bytes := by
  intro hmem
  obtain ⟨b, _, hb⟩ := List.mem_flatMap.mp hmem
  unfold encodeByte at hb
  split at hb
  · rcases hc with rfl | rfl | rfl <;> simp at hb
  · exact separator_notMem (Or.inr hc) b hb

theorem decode_cons (b : UInt8) (rest : List Char) :
    decode (encodeByte b ++ rest) = b :: decode rest := by
  unfold decode encodeByte
  rw [List.map_append]
  split
  · rename_i hspace
    subst hspace
    show Percent.decode (' ' :: rest.map unplus) = _
    rw [Percent.decode]
    · rfl
    · exact fun a b rest h _ => absurd h (by decide)
  · have hkeep : (Percent.encodeByte reserved b).map unplus = Percent.encodeByte reserved b := by
      refine (List.map_congr_left fun c hc => ?_).trans (List.map_id _)
      have hplus : c ≠ '+' := by
        rintro rfl
        exact separator_notMem (Or.inl rfl) b hc
      exact if_neg hplus
    rw [hkeep, Percent.decode_encodeByte reserves]

/-- **A text is read back.** -/
theorem decode_encode (bytes : List UInt8) : decode (encode bytes) = bytes := by
  induction bytes with
  | nil => rfl
  | cons b bytes ih =>
    show decode (encodeByte b ++ encode bytes) = _
    rw [decode_cons, ih]

theorem parsePart_pairText (p : Pair) : parsePart (pairText p) = p := by
  have hfree : ∀ c ∈ encode p.1, decide (c ≠ '=') := by
    intro c hc
    rw [decide_eq_true_eq]
    rintro rfl
    exact notMem_encode (Or.inr (Or.inl rfl)) p.1 hc
  unfold parsePart pairText
  rw [List.takeWhile_append_of_pos hfree, List.dropWhile_append_of_pos hfree]
  simp [decode_encode]

/-- **A query is read back.** -/
theorem parse_serialize (pairs : List Pair) : parse (serialize pairs) = pairs := by
  cases pairs with
  | nil => rfl
  | cons p pairs =>
    have hsplit : (serialize (p :: pairs)).splitOn '&' = (p :: pairs).map pairText := by
      apply List.splitOn_intercalate
      · intro part hpart
        obtain ⟨q, _, rfl⟩ := List.mem_map.mp hpart
        simp [pairText, notMem_encode (Or.inl rfl)]
      · simp
    have hkeep : ((p :: pairs).map pairText).filter (· ≠ []) = (p :: pairs).map pairText := by
      apply List.filter_eq_self.mpr
      intro part hpart
      obtain ⟨q, _, rfl⟩ := List.mem_map.mp hpart
      simp [pairText]
    rw [parse, hsplit, hkeep, List.map_map]
    exact (List.map_congr_left fun q _ => parsePart_pairText q).trans (List.map_id _)

/-- One more pair. -/
theorem serialize_snoc {pairs : List Pair} (h : pairs ≠ []) (p : Pair) :
    serialize (pairs ++ [p]) = serialize pairs ++ '&' :: pairText p := by
  induction pairs with
  | nil => exact absurd rfl h
  | cons q pairs ih =>
    unfold serialize at ih ⊢
    by_cases hne : pairs = []
    · subst hne
      simp [List.intercalate_cons_cons]
    · have hmap : (pairs ++ [p]).map pairText ≠ [] := by simp
      have hmap' : pairs.map pairText ≠ [] := by simpa using hne
      rw [List.cons_append, List.map_cons, List.intercalate_cons_of_ne_nil hmap, ih hne, List.map_cons,
        List.intercalate_cons_of_ne_nil hmap']
      simp

/-- A query ends with its text: nothing in it begins a fragment. -/
theorem notMem_serialize (pairs : List Pair) : '#' ∉ serialize pairs := by
  induction pairs using List.reverseRecOn with
  | nil => simp [serialize]
  | append_singleton pairs p ih =>
    have hpair : '#' ∉ pairText p := by simp [pairText, notMem_encode (Or.inr (Or.inr rfl))]
    by_cases h : pairs = []
    · subst h
      simpa [serialize] using hpair
    · rw [serialize_snoc h]
      simp [ih, hpair]

end FormUrl
