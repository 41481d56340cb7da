import UniMail.Config
import UniMail.Lib.Base64
import UniMail.Storage.Crypto

/-!
# The encryption key

`parse_key` reads a text of 64 bytes as hexadecimal digits and any other as base64. It accepts the
two encodings of a key and nothing else, and never reads past the end of the text
(`parse_key_accepts`). The base64 engine belongs to the `base64` crate and is a parameter.
-/

namespace UniMail

open Text

/-- How reading hexadecimal digits can fail: the unit error, or an index past the end. -/
inductive HexFailure
  | invalid
  | outOfBounds (index len : ℕ)
  deriving DecidableEq, Repr

/-- The value of a hexadecimal digit. -/
def hexVal (c : UInt8) : Except HexFailure UInt8 :=
  if 48 ≤ c ∧ c ≤ 57 then .ok (c - 48)
  else if 97 ≤ c ∧ c ≤ 102 then .ok (c - 97 + 10)
  else if 65 ≤ c ∧ c ≤ 70 then .ok (c - 65 + 10)
  else .error .invalid

/-- `input.as_bytes()[i]`. -/
def byteAt (input : Bytes) (i : ℕ) : Except HexFailure UInt8 :=
  match input[i]? with
  | some c => .ok c
  | none => .error (.outOfBounds i input.length)

/-- The byte at `i` of the output. -/
def hexByte (input : Bytes) (i : ℕ) : Except HexFailure UInt8 := do
  let hi ← byteAt input (i * 2)
  let lo ← byteAt input (i * 2 + 1)
  return (← hexVal hi) <<< 4 ||| (← hexVal lo)

/-- `hex_decode` into an output of `n` bytes. -/
def hexDecode (input : String) (n : ℕ) : Except HexFailure (Vector UInt8 n) :=
  if (asBytes input).length ≠ n * 2 then .error .invalid
  else Vector.ofFnM fun i : Fin n => hexByte (asBytes input) i

/-- The key of 32 bytes. -/
def toKey (decoded : Bytes) : Option Key :=
  if h : decoded.length = 32 then some ⟨decoded.toArray, h⟩ else none

/-- Parse a 32-byte key from a 64-char hex string, or raw 32-byte base64. -/
def parseKey (decode : String → Option Bytes) (raw : String) : Outcome Key :=
  let raw := trim raw
  if (asBytes raw).length = 64 then
    match hexDecode raw 32 with
    | .ok out => .ok out
    | .error .invalid => .error (.err (.config "ENCRYPTION_KEY must be 64 hex characters"))
    | .error (.outOfBounds i len) =>
      .error (.panic s!"index out of bounds: the len is {len} but the index is {i}")
  else
    -- Fallback: allow a raw 32-byte key supplied as standard base64.
    match (decode raw).bind toKey with
    | some out => .ok out
    | none => .error (.err
        (.config "ENCRYPTION_KEY must be exactly 32 bytes (64 hex chars or base64)"))

/-- The key `from_env` loads when the variable has the value `value`. -/
def encryptionKeyFromEnv (decode : String → Option Bytes) (value : Option String) : Outcome Key := do
  parseKey decode (← (env "ENCRYPTION_KEY" value).mapError .err)

/-! ### The encodings of a key -/

/-- The two hexadecimal digits of a byte. -/
def nibbles (b : UInt8) : List ℕ := [b.toNat / 16, b.toNat % 16]

/-- The lower-case hexadecimal digits of bytes. -/
def hexText (bytes : Bytes) : List Char := (bytes.flatMap nibbles).map Nat.digitChar

/-- A spelling of bytes in hexadecimal digits, in any mix of upper and lower case. -/
def HexSpelling (bytes : Bytes) (s : String) : Prop := s.toList.map Char.toLower = hexText bytes

/-- The encodings of a key that the configuration names. -/
def Encodes (key : Key) (s : String) : Prop :=
  HexSpelling key.toList s ∨ s = Base64.encode key.toList

theorem nibbles_lt {bytes : Bytes} : ∀ v ∈ bytes.flatMap nibbles, v < 16 := by
  intro v hv
  obtain ⟨b, _, hb⟩ := List.mem_flatMap.mp hv
  have hlt := b.toNat_lt
  simp only [nibbles, List.mem_cons, List.not_mem_nil, or_false] at hb
  omega

theorem length_nibbles (bytes : Bytes) : (bytes.flatMap nibbles).length = bytes.length * 2 := by
  induction bytes with
  | nil => rfl
  | cons b bytes ih =>
    rw [List.flatMap_cons, List.length_append, ih, List.length_cons]
    show 2 + _ = _
    omega

/-! ### Digits -/

/-- The value of a digit, if it is one. -/
def nibble (c : UInt8) : Option ℕ := (hexVal c).toOption.map UInt8.toNat

theorem nibble_eq_none {c : UInt8} (h : 128 ≤ c.toNat) : nibble c = none := by
  have hle : ∀ b : UInt8, b.toNat < 128 → ¬ c ≤ b := by
    intro b hb hle
    have hnat := UInt8.le_iff_toNat_le.mp hle
    omega
  rw [nibble, hexVal, if_neg fun hc => hle 57 (by decide) hc.2,
    if_neg fun hc => hle 102 (by decide) hc.2, if_neg fun hc => hle 70 (by decide) hc.2]
  rfl

/-- A digit of the text, as a byte, is read as the nibble it spells. -/
theorem nibble_ascii {n v : ℕ} (hn : n < 128) (hv : v < 16) :
    nibble (UInt8.ofNat n) = some v ↔ (Char.ofNat n).toLower = v.digitChar := by
  have hall : ∀ n < 128, ∀ v < 16,
      nibble (UInt8.ofNat n) = some v ↔ (Char.ofNat n).toLower = v.digitChar := by decide +kernel
  exact hall n hn v hv

theorem toNat_digitChar_lt {v : ℕ} (hv : v < 16) : v.digitChar.toNat < 128 := by
  have hall : ∀ v < 16, v.digitChar.toNat < 128 := by decide
  exact hall v hv

theorem toLower_of_le {c : Char} (h : 128 ≤ c.toNat) : c.toLower = c := by
  unfold Char.toLower
  rw [dif_neg]
  rintro ⟨_, hle⟩
  have hnat : c.toNat ≤ 'Z'.toNat := UInt32.le_iff_toNat_le.mp hle
  have hZ : 'Z'.toNat = 90 := rfl
  omega

/-- A spelling of a digit is ASCII. -/
theorem ascii_of_toLower {c : Char} {v : ℕ} (hv : v < 16) (h : c.toLower = v.digitChar) :
    c.toNat < 128 := by
  by_contra hc
  have hdigit := toNat_digitChar_lt hv
  rw [← h, toLower_of_le (by omega)] at hdigit
  exact hc hdigit

/-! ### Texts as bytes -/

/-- The first byte of a character beyond ASCII is no digit. -/
theorem utf8EncodeChar_head {c : Char} (hc : 128 ≤ c.toNat) :
    ∃ b rest, String.utf8EncodeChar c = b :: rest ∧ 128 ≤ b.toNat := by
  obtain ⟨b, rest, hb⟩ := List.exists_cons_of_ne_nil (String.utf8EncodeChar_ne_nil (c := c))
  exact ⟨b, rest, hb, le_of_mem_utf8EncodeChar hc b (hb ▸ List.mem_cons_self)⟩

/-- The bytes of a text are the digits `l` if and only if its characters spell them. -/
theorem nibbles_utf8 {l : List ℕ} (hl : ∀ v ∈ l, v < 16) (text : List Char) :
    (text.flatMap String.utf8EncodeChar).map nibble = l.map some ↔
      text.map Char.toLower = l.map Nat.digitChar := by
  induction text generalizing l with
  | nil => cases l <;> simp
  | cons c text ih =>
    rw [List.flatMap_cons, List.map_append, List.map_cons]
    obtain _ | ⟨v, l⟩ := l
    · simp [String.utf8EncodeChar_ne_nil]
    · obtain ⟨hv, hl⟩ := List.forall_mem_cons.mp hl
      rw [List.map_cons, List.map_cons, List.cons.injEq]
      by_cases hc : c.toNat < 128
      · have hdigit := nibble_ascii hc hv
        rw [Char.ofNat_toNat] at hdigit
        rw [utf8EncodeChar_ascii hc, List.map_singleton, List.singleton_append, List.cons.injEq,
          hdigit, ih hl]
      · -- The first byte of the character is no digit, and its lower case is itself.
        obtain ⟨b, rest, hb, hle⟩ := utf8EncodeChar_head (Nat.le_of_not_lt hc)
        rw [hb, List.map_cons, List.cons_append, List.cons.injEq, nibble_eq_none hle]
        constructor
        · rintro ⟨h, _⟩
          exact absurd h (by simp)
        · rintro ⟨h, _⟩
          exact absurd (ascii_of_toLower hv h) hc

theorem length_utf8_ascii {text : List Char} (h : ∀ c ∈ text, c.toNat < 128) :
    (text.flatMap String.utf8EncodeChar).length = text.length := by
  induction text with
  | nil => rfl
  | cons c text ih =>
    obtain ⟨hc, h⟩ := List.forall_mem_cons.mp h
    rw [List.flatMap_cons, utf8EncodeChar_ascii hc, List.singleton_append, List.length_cons, ih h,
      List.length_cons]

/-! ### Bytes of digits -/

theorem getElem?_nibbles (bytes : Bytes) (i : ℕ) :
    (bytes.flatMap nibbles)[i * 2]? = bytes[i]?.map (·.toNat / 16) ∧
      (bytes.flatMap nibbles)[i * 2 + 1]? = bytes[i]?.map (·.toNat % 16) := by
  induction bytes generalizing i with
  | nil => simp
  | cons b bytes ih =>
    rw [List.flatMap_cons]
    cases i with
    | zero => exact ⟨rfl, rfl⟩
    | succ i =>
      rw [show (i + 1) * 2 = i * 2 + 2 by omega]
      exact ih i

theorem hexVal_lt {c v : UInt8} (h : hexVal c = .ok v) : v.toNat < 16 := by
  have hall : ∀ n < 256, ∀ v ∈ (hexVal (UInt8.ofNat n)).toOption, v.toNat < 16 := by
    decide +kernel
  apply hall c.toNat c.toNat_lt v
  rw [UInt8.ofNat_toNat, h]
  rfl

theorem nibble_eq_some {c : UInt8} {n : ℕ} :
    nibble c = some n ↔ ∃ v, hexVal c = .ok v ∧ v.toNat = n := by
  rw [nibble, Option.map_eq_some_iff]
  cases hexVal c <;> simp [Except.toOption]

/-- Two nibbles make a byte. -/
theorem toNat_shiftLeft_or {hi lo : UInt8} (hhi : hi.toNat < 16) (hlo : lo.toNat < 16) :
    (hi <<< 4 ||| lo).toNat = hi.toNat * 16 + lo.toNat := by
  have hall : ∀ m < 16, ∀ n < 16, (UInt8.ofNat m <<< 4 ||| UInt8.ofNat n).toNat = m * 16 + n := by
    decide
  have h := hall hi.toNat hhi lo.toNat hlo
  rwa [UInt8.ofNat_toNat, UInt8.ofNat_toNat] at h

theorem byteAt_eq_ok {input : Bytes} {i : ℕ} {c : UInt8} :
    byteAt input i = .ok c ↔ input[i]? = some c := by
  unfold byteAt
  cases input[i]? <;> simp

/-- The byte that is read has the two digits of the text as its nibbles. -/
theorem hexByte_eq_ok {input : Bytes} {i : ℕ} {b : UInt8} :
    hexByte input i = .ok b ↔ (input.map nibble)[i * 2]? = some (some (b.toNat / 16)) ∧
      (input.map nibble)[i * 2 + 1]? = some (some (b.toNat % 16)) := by
  simp only [List.getElem?_map, Option.map_eq_some_iff, nibble_eq_some]
  constructor
  · intro h
    obtain ⟨hi, hhi, h⟩ := bind_eq_ok.mp h
    obtain ⟨lo, hlo, h⟩ := bind_eq_ok.mp h
    obtain ⟨m, hm, h⟩ := bind_eq_ok.mp h
    obtain ⟨n, hn, h⟩ := bind_eq_ok.mp h
    cases h
    have hm16 := hexVal_lt hm
    have hn16 := hexVal_lt hn
    have hbyte := toNat_shiftLeft_or hm16 hn16
    refine ⟨⟨hi, byteAt_eq_ok.mp hhi, m, hm, ?_⟩, lo, byteAt_eq_ok.mp hlo, n, hn, ?_⟩
    · omega
    · omega
  · rintro ⟨⟨hi, hhi, m, hm, hdiv⟩, lo, hlo, n, hn, hmod⟩
    have hbyte := toNat_shiftLeft_or (hexVal_lt hm) (hexVal_lt hn)
    have heq : m <<< 4 ||| n = b := by
      apply UInt8.toNat_inj.mp
      omega
    refine bind_eq_ok.mpr ⟨hi, byteAt_eq_ok.mpr hhi, bind_eq_ok.mpr ⟨lo, byteAt_eq_ok.mpr hlo, ?_⟩⟩
    exact bind_eq_ok.mpr ⟨m, hm, bind_eq_ok.mpr ⟨n, hn, congrArg Except.ok heq⟩⟩

/-- The digits of an even number of bytes are those of `bytes`, two by two. -/
theorem map_nibble_eq {n : ℕ} {input : Bytes} {v : Vector UInt8 n} :
    input.map nibble = (v.toList.flatMap nibbles).map some ↔
      input.length = n * 2 ∧ ∀ i : Fin n, hexByte input i = .ok v[i] := by
  have hlen : v.toList.length = n := v.length_toList
  constructor
  · intro h
    constructor
    · have hlength := congrArg List.length h
      rwa [List.length_map, List.length_map, length_nibbles, hlen] at hlength
    · intro i
      obtain ⟨hdiv, hmod⟩ := getElem?_nibbles v.toList i
      have hget : v.toList[i.val]? = some v[i] := by simp
      rw [hget] at hdiv hmod
      rw [hexByte_eq_ok, h, List.getElem?_map, List.getElem?_map, hdiv, hmod]
      exact ⟨rfl, rfl⟩
  · rintro ⟨hlength, h⟩
    apply List.ext_getElem?
    intro j
    by_cases hj : j / 2 < n
    · obtain ⟨hdiv, hmod⟩ := getElem?_nibbles v.toList (j / 2)
      have hget : v.toList[j / 2]? = some v[j / 2] := by simp [hj]
      obtain ⟨heven, hodd⟩ := hexByte_eq_ok.mp (h ⟨j / 2, hj⟩)
      rw [hget] at hdiv hmod
      obtain hpar | hpar : j = j / 2 * 2 ∨ j = j / 2 * 2 + 1 := by omega
      · rw [hpar, heven, List.getElem?_map, hdiv]
        rfl
      · rw [hpar, hodd, List.getElem?_map, hmod]
        rfl
    · rw [List.getElem?_eq_none, List.getElem?_eq_none]
      · rw [List.length_map, length_nibbles, hlen]
        omega
      · rw [List.length_map, hlength]
        omega

/-! ### The loop over the output -/

section Loop

variable {ε α : Type} {n : ℕ} {f : Fin n → Except ε α}

theorem ofFnM_eq_ok {v : Vector α n} : Vector.ofFnM f = .ok v ↔ ∀ i : Fin n, f i = .ok v[i] := by
  induction n with
  | zero =>
    rw [Vector.ofFnM_zero]
    constructor
    · intro _ i
      exact i.elim0
    · intro _
      exact congrArg Except.ok (Vector.ext fun i hi => absurd hi (Nat.not_lt_zero i))
  | succ n ih =>
    rw [Vector.ofFnM_succ]
    constructor
    · intro h
      obtain ⟨as, has, h⟩ := bind_eq_ok.mp h
      obtain ⟨a, ha, h⟩ := bind_eq_ok.mp h
      cases h
      intro i
      cases i using Fin.lastCases with
      | last => simpa using ha
      | cast i => simpa using ih.mp has i
    · intro h
      have hinit : Vector.ofFnM (fun i : Fin n => f i.castSucc) = .ok v.pop := by
        apply ih.mpr
        intro i
        simpa using h i.castSucc
      refine bind_eq_ok.mpr ⟨v.pop, hinit, bind_eq_ok.mpr ⟨v[n], h (Fin.last n), ?_⟩⟩
      exact congrArg Except.ok (Vector.push_pop_back v)

theorem ofFnM_eq_error {e : ε} (h : Vector.ofFnM f = .error e) : ∃ i, f i = .error e := by
  induction n with
  | zero => cases Vector.ofFnM_zero.symm.trans h
  | succ n ih =>
    rw [Vector.ofFnM_succ] at h
    rcases bind_eq_error.mp h with h | ⟨as, _, h⟩
    · obtain ⟨i, hi⟩ := ih h
      exact ⟨i.castSucc, hi⟩
    · rcases bind_eq_error.mp h with h | ⟨a, _, h⟩
      · exact ⟨Fin.last n, h⟩
      · cases h

end Loop

/-! ### The hexadecimal branch -/

/-- **The digits are read as the bytes they spell**, and as nothing else. -/
theorem hexDecode_eq_ok {input : String} {n : ℕ} {v : Vector UInt8 n} :
    hexDecode input n = .ok v ↔ HexSpelling v.toList input := by
  rw [HexSpelling, hexText, ← nibbles_utf8 nibbles_lt, ← asBytes_eq, map_nibble_eq, ← ofFnM_eq_ok]
  unfold hexDecode
  by_cases hlen : (asBytes input).length = n * 2
  · simp [hlen]
  · simp [hlen]

theorem length_of_spelling {key : Key} {s : String} (h : HexSpelling key.toList s) :
    (asBytes s).length = 64 := by
  rw [HexSpelling, hexText, ← nibbles_utf8 nibbles_lt, ← asBytes_eq] at h
  exact (map_nibble_eq.mp h).1

/-- Within the text the only failure is a byte that is no digit. -/
theorem hexByte_eq_error {input : Bytes} {i : ℕ} {e : HexFailure} (hi : i * 2 + 1 < input.length)
    (h : hexByte input i = .error e) : e = .invalid := by
  have hval : ∀ c e, hexVal c = .error e → e = .invalid := by
    intro c e hc
    unfold hexVal at hc
    split_ifs at hc
    exact (Except.error.inj hc).symm
  have hat : ∀ j < input.length, ∀ e, byteAt input j ≠ .error e := by
    intro j hj e hj'
    unfold byteAt at hj'
    rw [List.getElem?_eq_getElem hj] at hj'
    cases hj'
  rcases bind_eq_error.mp h with h | ⟨hi, _, h⟩
  · exact absurd h (hat _ (by omega) e)
  rcases bind_eq_error.mp h with h | ⟨lo, _, h⟩
  · exact absurd h (hat _ (by omega) e)
  rcases bind_eq_error.mp h with h | ⟨m, _, h⟩
  · exact hval hi e h
  rcases bind_eq_error.mp h with h | ⟨n, _, h⟩
  · exact hval lo e h
  · cases h

theorem hexDecode_eq_error {input : String} {n : ℕ} {e : HexFailure}
    (h : hexDecode input n = .error e) : e = .invalid := by
  unfold hexDecode at h
  split_ifs at h with hlen
  · exact (Except.error.inj h).symm
  · obtain ⟨i, hi⟩ := ofFnM_eq_error h
    exact hexByte_eq_error (by omega) hi

/-! ### The base64 branch -/

theorem toKey_eq_some {decoded : Bytes} {key : Key} :
    toKey decoded = some key ↔ decoded = key.toList := by
  unfold toKey
  split_ifs with h
  · rw [Option.some.injEq]
    constructor
    · rintro rfl
      rfl
    · rintro rfl
      rfl
  · constructor
    · nofun
    · rintro rfl
      exact absurd key.length_toList h

/-- The base64 encoding of a key has 44 characters. -/
theorem length_base64 (key : Key) : (asBytes (Base64.encode key.toList)).length = 44 := by
  have hascii : ∀ c ∈ Base64.encodeChars key.toList, c.toNat < 128 := by
    intro c hc
    rcases Base64.mem_encodeChars hc with rfl | ⟨n, hn, rfl⟩
    · decide
    · exact (Base64.digit_spec hn).2.2
  rw [asBytes_eq, Base64.encode, String.toList_ofList, length_utf8_ascii hascii,
    Base64.length_encodeChars, Vector.length_toList]

theorem Encodes.ne_empty {key : Key} {s : String} (h : Encodes key s) : s ≠ "" := by
  have hempty : (asBytes "").length = 0 := rfl
  rintro rfl
  rcases h with h | h
  · have hlen := length_of_spelling h
    omega
  · have hlen := length_base64 key
    rw [← h] at hlen
    omega

/-! ### White space -/

theorem isWhitespace_of_toLower {c : Char} {v : ℕ} (hv : v < 16) (h : c.toLower = v.digitChar) :
    isWhitespace c = false := by
  have hall : ∀ n < 128, isWhitespace (Char.ofNat n) → ∀ v < 16,
      (Char.ofNat n).toLower ≠ v.digitChar := by decide +kernel
  have hc := hall c.toNat (ascii_of_toLower hv h)
  rw [Char.ofNat_toNat] at hc
  by_contra hspace
  exact hc (by simpa using hspace) v hv h

/-- No encoding has white space. -/
theorem Encodes.trim_eq {key : Key} {s : String} (h : Encodes key s) : trim s = s := by
  apply trim_eq_self
  intro c hc
  rcases h with h | rfl
  · have hlower := List.mem_map_of_mem (f := Char.toLower) hc
    rw [h, hexText] at hlower
    obtain ⟨v, hv, heq⟩ := List.mem_map.mp hlower
    exact isWhitespace_of_toLower (nibbles_lt v hv) heq.symm
  · rw [Base64.encode, String.toList_ofList] at hc
    rcases Base64.mem_encodeChars hc with rfl | ⟨n, hn, rfl⟩
    · decide
    · have hall : ∀ n < 64, isWhitespace (Base64.digit n) = false := by decide
      exact hall n hn

/-! ### Both branches -/

/-- No text is read past its end. -/
theorem parseKey_ne_panic (decode : String → Option Bytes) (raw msg : String) :
    parseKey decode raw ≠ .error (.panic msg) := by
  intro h
  simp only [parseKey] at h
  split at h
  · split at h
    · cases h
    · cases h
    · rename_i hdigits
      cases hexDecode_eq_error hdigits
  · split at h
    · cases h
    · cases h

section Parse

variable {decode : String → Option Bytes}
  (hdecode : ∀ s bytes, decode s = some bytes ↔ s = Base64.encode bytes)
include hdecode

theorem parseKey_eq_ok (raw : String) (key : Key) :
    parseKey decode raw = .ok key ↔ Encodes key (trim raw) := by
  unfold parseKey Encodes
  by_cases hlen : (asBytes (trim raw)).length = 64
  · have hbase64 : trim raw ≠ Base64.encode key.toList := by
      intro h
      rw [h, length_base64] at hlen
      omega
    rw [if_pos hlen, or_iff_left hbase64, ← hexDecode_eq_ok]
    cases hexDecode (trim raw) 32 with
    | ok out => simp
    | error e => cases e <;> simp
  · have hbytes : (decode (trim raw)).bind toKey = some key ↔
        decode (trim raw) = some key.toList := by
      simp only [Option.bind_eq_some_iff, toKey_eq_some, exists_eq_right]
    rw [if_neg hlen, or_iff_right fun h => hlen (length_of_spelling h), ← hdecode, ← hbytes]
    cases (decode (trim raw)).bind toKey with
    | none => simp
    | some out => simp

/-- The configuration loads a key if and only if the variable holds one of its encodings. -/
theorem encryptionKeyFromEnv_eq_ok (value : Option String) (key : Key) :
    encryptionKeyFromEnv decode value = .ok key ↔
      ∃ raw, value = some raw ∧ Encodes key (trim raw) := by
  simp only [encryptionKeyFromEnv, bind_eq_ok, mapError_eq_ok, parseKey_eq_ok hdecode]
  constructor
  · rintro ⟨raw, henv, h⟩
    cases value with
    | none => cases henv
    | some v =>
      by_cases hblank : trim v = ""
      · cases (if_pos hblank).symm.trans henv
      · cases (if_neg hblank).symm.trans henv
        exact ⟨raw, rfl, h⟩
  · rintro ⟨raw, rfl, h⟩
    exact ⟨raw, if_neg h.ne_empty, h⟩

end Parse

/-- `parse` accepts the encodings of a key and nothing else. -/
structure AcceptsEncodings (parse : String → Outcome Key) : Prop where
  /-- A text loads to a key if and only if it encodes the key, but for white space around it. -/
  accepts : ∀ raw key, parse raw = .ok key ↔ Encodes key (trim raw)
  /-- Every encoding of a key loads to it. -/
  loads : ∀ key s, Encodes key s → parse s = .ok key
  /-- No text encodes two keys. -/
  unique : ∀ s key key', Encodes key s → Encodes key' s → key = key'
  /-- No text is read past its end. -/
  inBounds : ∀ raw msg, parse raw ≠ .error (.panic msg)

theorem parse_key_accepts {decode : String → Option Bytes}
    (hdecode : ∀ s bytes, decode s = some bytes ↔ s = Base64.encode bytes) :
    AcceptsEncodings (parseKey decode) := by
  have hloads : ∀ key s, Encodes key s → parseKey decode s = .ok key := by
    intro key s h
    rw [parseKey_eq_ok hdecode, h.trim_eq]
    exact h
  refine ⟨parseKey_eq_ok hdecode, hloads, ?_, ?_⟩
  · intro s key key' h h'
    exact Except.ok.inj ((hloads key s h).symm.trans (hloads key' s h'))
  · intro raw msg h
    exact parseKey_ne_panic decode raw msg h

/-- Every digit, in both places of a byte. -/
def everyDigit : Key :=
  let half := #v[0x01, 0x23, 0x45, 0x67, 0x89, 0xAB, 0xCD, 0xEF, 0xFE, 0xDC, 0xBA, 0x98, 0x76, 0x54,
    0x32, 0x10]
  half ++ half

/-- The key in its encodings; the digits may be of either case. -/
theorem parse_key_accepts_digits :
    parseKey Base64.decode "0123456789ABCDEFfedcba98765432100123456789abcdefFEDCBA9876543210" =
        .ok everyDigit ∧
      parseKey Base64.decode "ASNFZ4mrze/+3LqYdlQyEAEjRWeJq83v/ty6mHZUMhA=" = .ok everyDigit := by
  have haccepts := parse_key_accepts fun _ _ => Base64.decode_eq_some
  constructor
  · apply haccepts.loads
    exact Or.inl (show _ = hexText everyDigit.toList by decide)
  · apply haccepts.loads
    exact Or.inr (by decide)

end UniMail
