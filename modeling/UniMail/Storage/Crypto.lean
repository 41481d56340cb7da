import Mathlib.Tactic.Common

/-!
# Authenticated encryption of secrets at rest

A ciphertext is the nonce followed by what AES-256-GCM seals under it. The cipher belongs to the
`aes-gcm` crate and is a parameter (`Aead`): opening what was sealed under the same key and nonce
gives it back, and a sealed text carries a 16-byte tag.
-/

namespace UniMail

abbrev Bytes := List UInt8

/-- Length of the random nonce prepended to every ciphertext. -/
def NONCE_LEN : Nat := 12

/-- The 32-byte master key. -/
abbrev Key := Vector UInt8 32

abbrev Nonce := Vector UInt8 NONCE_LEN

/-- `Aes256Gcm`, for messages below its length bound. -/
structure Aead where
  encrypt : Key → Nonce → Bytes → Bytes
  decrypt : Key → Nonce → Bytes → Except String Bytes
  decrypt_encrypt : ∀ key nonce plaintext,
    decrypt key nonce (encrypt key nonce plaintext) = .ok plaintext
  length_encrypt : ∀ key nonce plaintext,
    (encrypt key nonce plaintext).length = plaintext.length + 16

variable (aead : Aead)

/-- Encrypt `plaintext` with the master key, under the nonce drawn for it. -/
def encrypt (key : Key) (nonce : Nonce) (plaintext : Bytes) : Bytes :=
  nonce.toList ++ aead.encrypt key nonce plaintext

/-- Decrypt data previously produced by `encrypt`. -/
def decrypt (key : Key) (data : Bytes) : Except String Bytes :=
  if h : data.length ≤ NONCE_LEN then .error "ciphertext is too short to contain a nonce"
  else
    let nonce : Nonce := ⟨(data.take NONCE_LEN).toArray, by simp; omega⟩
    aead.decrypt key nonce (data.drop NONCE_LEN)

/-- **Round trip.** The length guard never rejects a ciphertext of ours, the empty secret included. -/
theorem decrypt_encrypt (key : Key) (nonce : Nonce) (plaintext : Bytes) :
    decrypt aead key (encrypt aead key nonce plaintext) = .ok plaintext := by
  have hnonce : nonce.toList.length = NONCE_LEN := by simp
  have hlen := aead.length_encrypt key nonce plaintext
  unfold decrypt
  rw [dif_neg (by simp [encrypt, hlen])]
  have htake : (encrypt aead key nonce plaintext).take NONCE_LEN = nonce.toList := by
    rw [encrypt, List.take_left' hnonce]
  have hdrop : (encrypt aead key nonce plaintext).drop NONCE_LEN
      = aead.encrypt key nonce plaintext := by
    rw [encrypt, List.drop_left' hnonce]
  simp only [htake, hdrop]
  exact aead.decrypt_encrypt key nonce plaintext

/-- A stand-in for the cipher in concrete runs: the plain text under a tag of zeros. -/
def Aead.tagged : Aead where
  encrypt _ _ plaintext := plaintext ++ List.replicate 16 0
  decrypt _ _ sealed := .ok (sealed.take (sealed.length - 16))
  decrypt_encrypt _ _ plaintext := by simp
  length_encrypt _ _ plaintext := by simp

def zeroNonces : Nonce × Nonce := (Vector.replicate NONCE_LEN 0, Vector.replicate NONCE_LEN 0)

/-! ### Text as bytes -/

/-- The UTF-8 bytes of a string. -/
def asBytes (s : String) : Bytes := s.toByteArray.data.toList

theorem asBytes_eq (s : String) : asBytes s = s.toList.flatMap String.utf8EncodeChar := by
  have hs : s.toByteArray = s.toList.utf8Encode := by
    rw [← String.toByteArray_ofList, String.ofList_toList]
  rw [asBytes, hs, List.utf8Encode, List.data_toByteArray]

/-- `String::from_utf8`. -/
def fromUtf8 (b : Bytes) : Except String String :=
  match String.fromUTF8? ⟨b.toArray⟩ with
  | some s => .ok s
  | none => .error "invalid utf-8 sequence"

@[simp] theorem fromUtf8_asBytes (s : String) : fromUtf8 (asBytes s) = .ok s := by
  have h : String.fromUTF8? s.toByteArray = some s := by
    simp only [String.fromUTF8?, dif_pos s.isValidUTF8]
    rfl
  simp [fromUtf8, asBytes, h]

/-- Only the bytes of a text are read as it. -/
theorem asBytes_of_fromUtf8 {b : Bytes} {s : String} (h : fromUtf8 b = .ok s) : asBytes s = b := by
  unfold fromUtf8 at h
  split at h
  · rename_i t ht
    obtain rfl := Except.ok.inj h
    unfold String.fromUTF8? at ht
    split at ht
    · rw [← Option.some.inj ht]
      rfl
    · cases ht
  · cases h

theorem asBytes_inj {s t : String} (h : asBytes s = asBytes t) : s = t := by
  have hs := fromUtf8_asBytes s
  rw [h, fromUtf8_asBytes] at hs
  exact (Except.ok.inj hs).symm

theorem asBytes_append (s t : String) : asBytes (s ++ t) = asBytes s ++ asBytes t := by
  rw [asBytes_eq, asBytes_eq, asBytes_eq, String.toList_append, List.flatMap_append]

/-- A character of ASCII is one byte. -/
theorem utf8EncodeChar_ascii {c : Char} (hc : c.toNat < 128) :
    String.utf8EncodeChar c = [UInt8.ofNat c.toNat] := by
  unfold String.utf8EncodeChar
  exact if_pos (Nat.le_of_lt_succ hc)

/-- Each byte of another one is at least 128. -/
theorem le_of_mem_utf8EncodeChar {c : Char} (hc : 128 ≤ c.toNat) :
    ∀ b ∈ String.utf8EncodeChar c, 128 ≤ b.toNat := by
  have hval : ¬ c.val.toNat ≤ 0x7f := Nat.not_le.mpr hc
  unfold String.utf8EncodeChar
  dsimp only
  rw [if_neg hval]
  split
  · simp only [List.forall_mem_cons, UInt8.toNat_ofNat']
    refine ⟨by omega, by omega, by simp⟩
  · split
    · simp only [List.forall_mem_cons, UInt8.toNat_ofNat']
      refine ⟨by omega, by omega, by omega, by simp⟩
    · simp only [List.forall_mem_cons, UInt8.toNat_ofNat']
      refine ⟨by omega, by omega, by omega, by omega, by simp⟩

/-- So no other character has the byte of a character of ASCII. -/
theorem notMem_utf8EncodeChar {c d : Char} (hc : c.toNat < 128) (hne : d ≠ c) :
    UInt8.ofNat c.toNat ∉ String.utf8EncodeChar d := by
  intro hmem
  by_cases hd : d.toNat < 128
  · rw [utf8EncodeChar_ascii hd, List.mem_singleton] at hmem
    have hval := congrArg UInt8.toNat hmem
    simp only [UInt8.toNat_ofNat'] at hval
    exact hne (Char.toNat_inj.mp (by omega))
  · have hbyte := le_of_mem_utf8EncodeChar (Nat.le_of_not_lt hd) _ hmem
    simp only [UInt8.toNat_ofNat'] at hbyte
    omega

end UniMail
