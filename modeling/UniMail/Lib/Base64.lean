import Mathlib.Data.List.Basic
import Mathlib.Data.List.TakeWhile
import Mathlib.Data.Nat.Notation

/-!
# Base64

Bytes as text in the standard alphabet with padding, and the decoder that accepts exactly what
`encode` writes: no other spelling, with other padding or with bits left over (`decode_eq_some`).
-/

namespace Base64

def alphabet : List Char :=
  "ABCDEFGHIJKLMNOPQRSTUVWXYZabcdefghijklmnopqrstuvwxyz0123456789+/".toList

/-- The character of six bits. -/
def digit (n : ℕ) : Char := alphabet.getD n '='

/-- The bytes in groups of six bits. -/
def sextets : List UInt8 → List ℕ
  | [] => []
  | [a] => [a.toNat / 4, a.toNat % 4 * 16]
  | [a, b] => [a.toNat / 4, a.toNat % 4 * 16 + b.toNat / 16, b.toNat % 16 * 4]
  | a :: b :: c :: rest =>
    a.toNat / 4 :: (a.toNat % 4 * 16 + b.toNat / 16) :: (b.toNat % 16 * 4 + c.toNat / 64) ::
      c.toNat % 64 :: sextets rest

/-- The characters of an encoding: whole groups of four. -/
def encodeChars (bytes : List UInt8) : List Char :=
  (sextets bytes).map digit ++ List.replicate ((3 - bytes.length % 3) % 3) '='

def encode (bytes : List UInt8) : String := String.ofList (encodeChars bytes)

/-- The bytes of groups of six bits; bits that make no byte are dropped. -/
def fromSextets : List ℕ → List UInt8
  | w :: x :: y :: z :: rest =>
    UInt8.ofNat (4 * w + x / 16) :: UInt8.ofNat (x % 16 * 16 + y / 4) ::
      UInt8.ofNat (y % 4 * 64 + z) :: fromSextets rest
  | [w, x, y] => [UInt8.ofNat (4 * w + x / 16), UInt8.ofNat (x % 16 * 16 + y / 4)]
  | [w, x] => [UInt8.ofNat (4 * w + x / 16)]
  | _ => []

/-- The bytes of a text, if it is their encoding. -/
def decode (s : String) : Option (List UInt8) :=
  (((s.toList.takeWhile (· ≠ '=')).mapM fun c => alphabet.idxOf? c).map fromSextets).filter
    fun bytes => encode bytes = s

theorem digit_spec {n : ℕ} (hn : n < 64) :
    digit n ≠ '=' ∧ alphabet.idxOf? (digit n) = some n ∧ (digit n).toNat < 128 := by
  have hall : ∀ n < 64, digit n ≠ '=' ∧ alphabet.idxOf? (digit n) = some n ∧
      (digit n).toNat < 128 := by decide +kernel
  exact hall n hn

theorem sextets_lt (bytes : List UInt8) : ∀ n ∈ sextets bytes, n < 64 := by
  induction bytes using sextets.induct with
  | case1 => nofun
  | case2 a =>
    have ha := a.toNat_lt
    simp only [sextets, List.mem_cons, List.not_mem_nil, or_false]
    omega
  | case3 a b =>
    have ha := a.toNat_lt
    have hb := b.toNat_lt
    simp only [sextets, List.mem_cons, List.not_mem_nil, or_false]
    omega
  | case4 a b c rest ih =>
    have ha := a.toNat_lt
    have hb := b.toNat_lt
    have hc := c.toNat_lt
    simp only [sextets, List.mem_cons]
    rintro n (rfl | rfl | rfl | rfl | hn)
    · omega
    · omega
    · omega
    · omega
    · exact ih n hn

theorem fromSextets_sextets (bytes : List UInt8) : fromSextets (sextets bytes) = bytes := by
  induction bytes using sextets.induct with
  | case1 => rfl
  | case2 a =>
    have ha : 4 * (a.toNat / 4) + a.toNat % 4 * 16 / 16 = a.toNat := by omega
    rw [sextets, fromSextets, ha, UInt8.ofNat_toNat]
  | case3 a b =>
    have hb := b.toNat_lt
    have h₁ : 4 * (a.toNat / 4) + (a.toNat % 4 * 16 + b.toNat / 16) / 16 = a.toNat := by omega
    have h₂ : (a.toNat % 4 * 16 + b.toNat / 16) % 16 * 16 + b.toNat % 16 * 4 / 4 = b.toNat := by
      omega
    rw [sextets, fromSextets, h₁, h₂, UInt8.ofNat_toNat, UInt8.ofNat_toNat]
  | case4 a b c rest ih =>
    have hb := b.toNat_lt
    have hc := c.toNat_lt
    have h₁ : 4 * (a.toNat / 4) + (a.toNat % 4 * 16 + b.toNat / 16) / 16 = a.toNat := by omega
    have h₂ : (a.toNat % 4 * 16 + b.toNat / 16) % 16 * 16 +
        (b.toNat % 16 * 4 + c.toNat / 64) / 4 = b.toNat := by omega
    have h₃ : (b.toNat % 16 * 4 + c.toNat / 64) % 4 * 64 + c.toNat % 64 = c.toNat := by omega
    rw [sextets, fromSextets, h₁, h₂, h₃, ih, UInt8.ofNat_toNat, UInt8.ofNat_toNat,
      UInt8.ofNat_toNat]

theorem length_sextets (bytes : List UInt8) :
    (sextets bytes).length = (4 * bytes.length + 2) / 3 := by
  induction bytes using sextets.induct with
  | case1 => rfl
  | case2 a => simp [sextets]
  | case3 a b => simp [sextets]
  | case4 a b c rest ih =>
    simp only [sextets, List.length_cons, ih]
    omega

theorem length_encodeChars (bytes : List UInt8) :
    (encodeChars bytes).length = 4 * ((bytes.length + 2) / 3) := by
  rw [encodeChars, List.length_append, List.length_map, List.length_replicate, length_sextets]
  omega

/-- Only characters of the alphabet and padding occur. -/
theorem mem_encodeChars {bytes : List UInt8} {c : Char} (h : c ∈ encodeChars bytes) :
    c = '=' ∨ ∃ n < 64, c = digit n := by
  rcases List.mem_append.mp h with h | h
  · obtain ⟨n, hn, rfl⟩ := List.mem_map.mp h
    exact Or.inr ⟨n, sextets_lt bytes n hn, rfl⟩
  · exact Or.inl (List.eq_of_mem_replicate h)

theorem mapM_digit {l : List ℕ} (hl : ∀ n ∈ l, n < 64) :
    (l.map digit).mapM (fun c => alphabet.idxOf? c) = some l := by
  induction l with
  | nil => rfl
  | cons n l ih =>
    obtain ⟨hn, hl⟩ := List.forall_mem_cons.mp hl
    rw [List.map_cons, List.mapM_cons, ih hl, (digit_spec hn).2.1]
    rfl

/-- **The decoder accepts exactly the encodings.** -/
theorem decode_eq_some {s : String} {bytes : List UInt8} :
    decode s = some bytes ↔ s = encode bytes := by
  constructor
  · intro h
    have hencode := (Option.filter_eq_some_iff.mp h).2
    exact (of_decide_eq_true hencode).symm
  · rintro rfl
    have hdigits : ∀ c ∈ (sextets bytes).map digit, decide (c ≠ '=') = true := by
      intro c hc
      obtain ⟨n, hn, rfl⟩ := List.mem_map.mp hc
      simpa using (digit_spec (sextets_lt bytes n hn)).1
    have htake : (encode bytes).toList.takeWhile (· ≠ '=') = (sextets bytes).map digit := by
      rw [encode, String.toList_ofList, encodeChars, List.takeWhile_append_of_pos hdigits]
      cases (3 - bytes.length % 3) % 3 <;> simp [List.replicate_succ]
    rw [decode, htake, mapM_digit (sextets_lt bytes), Option.map_some, fromSextets_sextets]
    exact Option.filter_some_pos (by simp)

example : encode [77, 97] = "TWE=" := by decide

end Base64
