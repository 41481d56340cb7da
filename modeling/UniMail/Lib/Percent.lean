import UniMail.Lib.Radix

/-!
# Percent-encoding

Bytes as text, each reserved byte as `%` and two hexadecimal digits. Where `%` itself and everything
outside ASCII is reserved, the text decodes to the bytes (`decode_encode`); which further bytes are
reserved is a parameter.
-/

namespace Percent

/-- A hexadecimal digit in upper case. -/
def hexDigit (n : ℕ) : Char := n.digitChar.toUpper

section Encode

variable (reserved : UInt8 → Bool)

def encodeByte (b : UInt8) : List Char :=
  if reserved b then ['%', hexDigit (b.toNat / 16), hexDigit (b.toNat % 16)]
  else [Char.ofNat b.toNat]

def encode (bytes : List UInt8) : List Char := bytes.flatMap (encodeByte reserved)

end Encode

/-- The bytes of a text; a `%` that begins no encoded byte stands for itself. -/
def decode : List Char → List UInt8
  | [] => []
  | '%' :: a :: b :: rest =>
    match Radix.toDigit 16 a, Radix.toDigit 16 b with
    | some x, some y => UInt8.ofNat (16 * x + y) :: decode rest
    | _, _ => 37 :: decode (a :: b :: rest)
  | c :: rest => String.utf8EncodeChar c ++ decode rest

/-- `%` and the bytes outside ASCII are reserved. -/
def Reserves (reserved : UInt8 → Bool) : Prop :=
  ∀ b : UInt8, b = 37 ∨ 128 ≤ b.toNat → reserved b

theorem toDigit_hexDigit {n : ℕ} (hn : n < 16) : Radix.toDigit 16 (hexDigit n) = some n := by
  have hall : ∀ n < 16, Radix.toDigit 16 (hexDigit n) = some n := by decide
  exact hall n hn

/-- A byte of ASCII is its character. -/
theorem utf8EncodeChar_ofNat {n : ℕ} (hn : n < 128) :
    String.utf8EncodeChar (Char.ofNat n) = [UInt8.ofNat n] := by
  have hall : ∀ n < 128, String.utf8EncodeChar (Char.ofNat n) = [UInt8.ofNat n] := by decide
  exact hall n hn

variable {reserved : UInt8 → Bool}

theorem decode_encodeByte (hreserved : Reserves reserved) (b : UInt8) (rest : List Char) :
    decode (encodeByte reserved b ++ rest) = b :: decode rest := by
  have hb : b.toNat < 256 := b.toNat_lt
  unfold encodeByte
  split
  · have hhigh : b.toNat / 16 < 16 := by omega
    have hlow : b.toNat % 16 < 16 := by omega
    have hsum : 16 * (b.toNat / 16) + b.toNat % 16 = b.toNat := by omega
    simp only [List.cons_append, List.nil_append, decode, toDigit_hexDigit hhigh,
      toDigit_hexDigit hlow, hsum, UInt8.ofNat_toNat]
  · rename_i hfree
    have hascii : b.toNat < 128 := by
      by_contra h
      exact hfree (hreserved b (Or.inr (by omega)))
    have hne : Char.ofNat b.toNat ≠ '%' := by
      intro h
      have hall : ∀ n < 128, Char.ofNat n = '%' → n = 37 := by decide
      exact hfree (hreserved b (Or.inl (UInt8.toNat_inj.mp (hall _ hascii h))))
    rw [List.singleton_append, decode, utf8EncodeChar_ofNat hascii, UInt8.ofNat_toNat]
    · rfl
    · exact fun a b rest h _ => hne h

/-- **What is encoded decodes to itself.** -/
theorem decode_encode (hreserved : Reserves reserved) (bytes : List UInt8) :
    decode (encode reserved bytes) = bytes := by
  induction bytes with
  | nil => rfl
  | cons b bytes ih =>
    show decode (encodeByte reserved b ++ encode reserved bytes) = _
    rw [decode_encodeByte hreserved, ih]

/-- A reserved character, other than `%` and the hexadecimal digits, does not occur. -/
theorem notMem_encode {c : Char} (hc : ∀ b : UInt8, Char.ofNat b.toNat = c → reserved b)
    (hpercent : c ≠ '%') (hdigit : Radix.isDigit 16 c = false) (bytes : List UInt8) :
    c ∉ encode reserved bytes := by
  have hhex : ∀ n < 16, c ≠ hexDigit n := by
    rintro n hn rfl
    rw [Radix.isDigit, toDigit_hexDigit hn] at hdigit
    cases hdigit
  intro hmem
  obtain ⟨b, _, hb⟩ := List.mem_flatMap.mp hmem
  have hlt : b.toNat < 256 := b.toNat_lt
  unfold encodeByte at hb
  split at hb
  · have hhigh := hhex (b.toNat / 16) (by omega)
    have hlow := hhex (b.toNat % 16) (by omega)
    simp_all
  · rename_i hfree
    exact hfree (hc b (List.mem_singleton.mp hb).symm)

end Percent
