import Mathlib.Data.String.Basic
import UniMail.Lib.Calendar

/-!
# Timestamps as text

`stamp` prints an instant of the years 0000 to 9999, given in nanoseconds since 0000-01-01, as
`YYYY-MM-DDThh:mm:ss`, a fraction of 0, 3, 6 or 9 digits (the fewest that are exact) and `+00:00`.
Although the fraction has no fixed width, texts compare as the instants do (`stamp_lt`): the first
character after a shorter fraction is `+`, and that comes before `.` and before every digit.
`readStamp` reads such a text back (`readStamp_stamp`).
-/

namespace Rfc3339

open Calendar

/-- The last `k` decimal digits of a number. -/
def digits : ℕ → ℕ → List Char
  | 0, _ => []
  | k + 1, n => digits k (n / 10) ++ [Nat.digitChar (n % 10)]

@[simp] theorem length_digits (k n : ℕ) : (digits k n).length = k := by
  induction k generalizing n with
  | zero => rfl
  | succ k ih => simp [digits, ih]

/-- The first `j` of `j + k` digits, then the other `k`. -/
theorem digits_add (j k n : ℕ) : digits (j + k) n = digits j (n / 10 ^ k) ++ digits k n := by
  induction k generalizing n with
  | zero => simp [digits]
  | succ k ih =>
    have hdiv : n / 10 / 10 ^ k = n / 10 ^ (k + 1) := by rw [Nat.div_div_eq_div_mul, pow_succ']
    rw [← Nat.add_assoc, digits, ih, hdiv, List.append_assoc, digits]

/-! ### Order -/

theorem digitChar_lt {a b : ℕ} (h : a < b) (hb : b < 10) : Nat.digitChar a < Nat.digitChar b := by
  have hall : ∀ b < 10, ∀ a < b, Nat.digitChar a < Nat.digitChar b := by decide
  exact hall b hb a h

/-- A sign comes before every digit. -/
theorem sign_lt_digitChar {c : Char} (hc : c = '+' ∨ c = '-') {a : ℕ} (h : a < 10) :
    c < Nat.digitChar a := by
  have hall : ∀ a < 10, '+' < Nat.digitChar a ∧ '-' < Nat.digitChar a := by decide
  rcases hc with rfl | rfl
  · exact (hall a h).1
  · exact (hall a h).2

/-- The greater number comes later, whatever follows. -/
theorem digits_lt {k a b : ℕ} (h : a < b) (hb : b < 10 ^ k) (s s' : List Char) :
    digits k a ++ s < digits k b ++ s' := by
  induction k generalizing a b s s' with
  | zero =>
    rw [pow_zero] at hb
    omega
  | succ k ih =>
    rw [pow_succ] at hb
    simp only [digits, List.append_assoc, List.singleton_append]
    by_cases hhigh : a / 10 < b / 10
    · exact ih hhigh (by omega) _ _
    · have heq : a / 10 = b / 10 := by omega
      rw [heq]
      apply List.append_left_lt
      exact List.cons_lt_cons_iff.mpr (Or.inl (digitChar_lt (by omega) (by omega)))

/-- A field of a text: it decides, or what follows does. -/
theorem field_lt {k a b : ℕ} {s s' : List Char} (hb : b < 10 ^ k) (h : a < b ∨ a = b ∧ s < s') :
    digits k a ++ s < digits k b ++ s' := by
  rcases h with h | ⟨rfl, h⟩
  · exact digits_lt h hb s s'
  · exact List.append_left_lt h

theorem cons_lt {c : Char} {s s' : List Char} (h : s < s') : c :: s < c :: s' :=
  List.cons_lt_cons_iff.mpr (Or.inr ⟨rfl, h⟩)

/-! ### The fraction -/

/-- The first `k` of nine digits after a point. -/
def point (k ns : ℕ) : List Char := '.' :: digits k (ns / 10 ^ (9 - k))

/-- The nanoseconds of a second, in the fewest digits that are exact. -/
def fraction (ns : ℕ) : List Char :=
  if ns = 0 then []
  else if ns % 1000000 = 0 then point 3 ns
  else if ns % 1000 = 0 then point 6 ns
  else point 9 ns

def UTC : List Char := "+00:00".toList

/-- Either the instant has no fraction, or it has `k` digits of one. -/
theorem fraction_cases (ns : ℕ) :
    ns = 0 ∧ fraction ns = [] ∨
      ns ≠ 0 ∧ ∃ k ≤ 9, fraction ns = point k ns ∧ ns % 10 ^ (9 - k) = 0 := by
  by_cases h0 : ns = 0
  · exact Or.inl ⟨h0, if_pos h0⟩
  refine Or.inr ⟨h0, ?_⟩
  unfold fraction
  rw [if_neg h0]
  by_cases h3 : ns % 1000000 = 0
  · exact ⟨3, by omega, if_pos h3, h3⟩
  rw [if_neg h3]
  by_cases h6 : ns % 1000 = 0
  · exact ⟨6, by omega, if_pos h6, h6⟩
  rw [if_neg h6]
  exact ⟨9, le_refl 9, rfl, Nat.mod_one ns⟩

theorem sign_lt_digits {c : Char} (hc : c = '+' ∨ c = '-') {k n : ℕ} (hk : k ≠ 0)
    (s s' : List Char) : c :: s < digits k n ++ s' := by
  obtain ⟨k, rfl⟩ := Nat.exists_eq_succ_of_ne_zero hk
  have hsplit := digits_add 1 k n
  rw [show k.succ = 1 + k from Nat.succ_eq_one_add k, hsplit]
  exact List.cons_lt_cons_iff.mpr (Or.inl (sign_lt_digitChar hc (Nat.mod_lt _ (by omega))))

theorem point_bound {k b : ℕ} (hk : k ≤ 9) (hlt : b < 10 ^ 9) : b / 10 ^ (9 - k) < 10 ^ k := by
  rw [Nat.div_lt_iff_lt_mul (by positivity), ← pow_add]
  rwa [Nat.add_sub_cancel' hk]

/-- The digits of the finer fraction, up to those of the coarser. -/
theorem digits_point {j i : ℕ} (hj : j + i ≤ 9) (a : ℕ) : digits (j + i) (a / 10 ^ (9 - (j + i))) =
    digits j (a / 10 ^ (9 - j)) ++ digits i (a / 10 ^ (9 - (j + i))) := by
  have hdiv : a / 10 ^ (9 - (j + i)) / 10 ^ i = a / 10 ^ (9 - j) := by
    rw [Nat.div_div_eq_div_mul, ← pow_add]
    congr 2
    omega
  rw [digits_add j i, hdiv]

/-- An exact number of digits gives the number back. -/
theorem point_exact {k b : ℕ} (hb : b % 10 ^ (9 - k) = 0) : b / 10 ^ (9 - k) * 10 ^ (9 - k) = b :=
  Nat.div_mul_cancel (Nat.dvd_of_mod_eq_zero hb)

theorem point_lt {j k a b : ℕ} (hj : j ≤ 9) (hk : k ≤ 9) (ha : a % 10 ^ (9 - j) = 0)
    (hb : b % 10 ^ (9 - k) = 0) (h : a < b) (hlt : b < 10 ^ 9) :
    point j a ++ UTC < point k b ++ UTC := by
  rw [point, point, List.cons_append, List.cons_append]
  apply cons_lt
  by_cases hjk : j ≤ k
  · -- The digits of `b` go on where those of `a` end.
    obtain ⟨i, rfl⟩ := Nat.exists_eq_add_of_le hjk
    rw [digits_point hk, List.append_assoc]
    apply field_lt (point_bound hj hlt)
    have hle : a / 10 ^ (9 - j) ≤ b / 10 ^ (9 - j) := Nat.div_le_div_right h.le
    rcases Nat.lt_or_eq_of_le hle with hlt' | heq
    · exact Or.inl hlt'
    -- The sign of the offset ends the shorter fraction.
    refine Or.inr ⟨heq, sign_lt_digits (Or.inl rfl) ?_ _ _⟩
    rintro rfl
    have ha' := point_exact ha
    have hb' := point_exact hb
    rw [Nat.add_zero] at hb'
    rw [heq] at ha'
    omega
  · -- The digits of `a` up to those of `b` are already less.
    obtain ⟨i, rfl⟩ := Nat.exists_eq_add_of_le (Nat.le_of_not_le hjk)
    rw [digits_point hj, List.append_assoc]
    apply digits_lt _ (point_bound hk hlt)
    rwa [Nat.div_lt_iff_lt_mul (by positivity), point_exact hb]

/-- The fractions of one second compare as numbers. -/
theorem fraction_lt {a b : ℕ} (h : a < b) (hb : b < 10 ^ 9) :
    fraction a ++ UTC < fraction b ++ UTC := by
  rcases fraction_cases b with ⟨h0, _⟩ | ⟨_, k, hk, hfb, hb0⟩
  · omega
  rw [hfb]
  rcases fraction_cases a with ⟨_, hfa⟩ | ⟨_, j, hj, hfa, ha0⟩
  · rw [hfa]
    exact List.cons_lt_cons_iff.mpr (Or.inl (by decide))
  · rw [hfa]
    exact point_lt hj hk ha0 hb0 h hb

/-! ### Stamps -/

/-- Nanoseconds of a day. -/
def DAY : ℕ := 86400000000000

/-- The instant `n` nanoseconds after 0000-01-01T00:00:00, as chrono prints it. -/
def stamp (n : ℕ) : List Char :=
  let date := civil (n / DAY)
  let secs := n / 10 ^ 9 % 86400
  digits 4 date.year ++ '-' :: (digits 2 date.month ++ '-' :: (digits 2 date.day ++ 'T' ::
    (digits 2 (secs / 3600) ++ ':' :: (digits 2 (secs / 60 % 60) ++ ':' :: (digits 2 (secs % 60) ++
      (fraction (n % 10 ^ 9) ++ UTC))))))

example : String.ofList (stamp (719528 * DAY)) = "1970-01-01T00:00:00+00:00" := by decide +kernel

/-- The first instant of the year 10000. -/
def END : ℕ := 3652425 * DAY

/-- A text that begins with a minus comes before all of them. -/
theorem minus_lt_stamp (cs : List Char) (n : ℕ) : '-' :: cs < stamp n :=
  sign_lt_digits (Or.inr rfl) (by omega) ..

theorem year_lt {n : ℕ} (h : n < END) : (civil (n / DAY)).year < 10000 := by
  apply year_civil_lt
  rw [show daysBeforeYear 10000 = 3652425 from rfl, Nat.div_lt_iff_lt_mul (by decide)]
  exact h

/-- An earlier date decides. -/
theorem date_lt {a b : ℕ} (h : a < b) (hb : (civil b).year < 10000) (s s' : List Char) :
    digits 4 (civil a).year ++ '-' :: (digits 2 (civil a).month ++ '-' ::
      (digits 2 (civil a).day ++ 'T' :: s)) <
    digits 4 (civil b).year ++ '-' :: (digits 2 (civil b).month ++ '-' ::
      (digits 2 (civil b).day ++ 'T' :: s')) := by
  have hmonth := (month_civil b).2
  have hday := (day_civil b).2
  rcases civil_lt h with hlt | ⟨hy, hlt | ⟨hm, hlt⟩⟩
  · exact field_lt hb (Or.inl hlt)
  · apply field_lt hb (Or.inr ⟨hy, cons_lt _⟩)
    exact field_lt (by omega) (Or.inl hlt)
  · apply field_lt hb (Or.inr ⟨hy, cons_lt _⟩)
    apply field_lt (by omega) (Or.inr ⟨hm, cons_lt _⟩)
    exact field_lt (by omega) (Or.inl hlt)

/-- The second of the day decides, or what follows does. -/
theorem time_lt {a b : ℕ} {s s' : List Char} (hb : b < 86400) (h : a < b ∨ a = b ∧ s < s') :
    digits 2 (a / 3600) ++ ':' :: (digits 2 (a / 60 % 60) ++ ':' :: (digits 2 (a % 60) ++ s)) <
    digits 2 (b / 3600) ++ ':' :: (digits 2 (b / 60 % 60) ++ ':' :: (digits 2 (b % 60) ++ s')) := by
  by_cases hhour : a / 3600 < b / 3600
  · exact field_lt (by omega) (Or.inl hhour)
  apply field_lt (by omega) (Or.inr ⟨by omega, cons_lt _⟩)
  by_cases hminute : a / 60 % 60 < b / 60 % 60
  · exact field_lt (by omega) (Or.inl hminute)
  apply field_lt (by omega) (Or.inr ⟨by omega, cons_lt _⟩)
  by_cases hsecond : a % 60 < b % 60
  · exact field_lt (by omega) (Or.inl hsecond)
  rcases h with h | ⟨h, hs⟩
  · omega
  · exact field_lt (by omega) (Or.inr ⟨by omega, hs⟩)

/-- **Texts compare as instants.** -/
theorem stamp_lt {n n' : ℕ} (h : n < n') (hn' : n' < END) : stamp n < stamp n' := by
  unfold stamp
  by_cases hdays : n / DAY < n' / DAY
  · exact date_lt hdays (year_lt hn') _ _
  -- The same day: the time decides.
  have heq : n / DAY = n' / DAY := by
    have hle : n / DAY ≤ n' / DAY := Nat.div_le_div_right h.le
    omega
  have hsecs : n / 10 ^ 9 % 86400 < n' / 10 ^ 9 % 86400 ∨
      n / 10 ^ 9 % 86400 = n' / 10 ^ 9 % 86400 ∧ n % 10 ^ 9 < n' % 10 ^ 9 := by
    unfold DAY at heq
    omega
  rw [heq]
  apply List.append_left_lt (cons_lt (List.append_left_lt (cons_lt (List.append_left_lt
    (cons_lt _)))))
  apply time_lt (Nat.mod_lt _ (by decide))
  refine hsecs.imp_right fun hns => ⟨hns.1, ?_⟩
  exact fraction_lt hns.2 (Nat.mod_lt _ (by decide))

/-! ### Reading -/

/-- The value of a text of digits. -/
def number (cs : List Char) : Option ℕ :=
  cs.foldl (fun acc c => acc.bind fun v =>
    if c.isDigit then some (10 * v + (c.toNat - 48)) else none) (some 0)

/-- The first `k` characters as a number, and the rest. -/
def readField (k : ℕ) (cs : List Char) : Option (ℕ × List Char) :=
  if k ≤ cs.length then (number (cs.take k)).map fun n => (n, cs.drop k) else none

/-- The rest after a character that has to be there. -/
def readChar (c : Char) : List Char → Option (List Char)
  | [] => none
  | x :: cs => if x = c then some cs else none

/-- An optional fraction in nanoseconds, of which digits past the ninth are dropped. -/
def readFraction : List Char → Option (ℕ × List Char)
  | '.' :: cs =>
    let ds := cs.takeWhile Char.isDigit
    if ds = [] then none
    else (number (ds.take 9)).map fun v => (v * 10 ^ (9 - ds.length), cs.drop ds.length)
  | cs => some (0, cs)

/-- An offset from UTC, in minutes. -/
def readOffset : List Char → Option ℤ
  | ['Z'] => some 0
  | '+' :: cs => do
    let (h, cs) ← readField 2 cs
    let (m, cs) ← readField 2 (← readChar ':' cs)
    if cs = [] ∧ m < 60 then some (h * 60 + m) else none
  | '-' :: cs => do
    let (h, cs) ← readField 2 cs
    let (m, cs) ← readField 2 (← readChar ':' cs)
    if cs = [] ∧ m < 60 then some (-(h * 60 + m)) else none
  | _ => none

/-- The instant of a text, in nanoseconds since 0000-01-01. -/
def readStamp (cs : List Char) : Option ℤ := do
  let (year, cs) ← readField 4 cs
  let (month, cs) ← readField 2 (← readChar '-' cs)
  let (day, cs) ← readField 2 (← readChar '-' cs)
  let (hour, cs) ← readField 2 (← readChar 'T' cs)
  let (minute, cs) ← readField 2 (← readChar ':' cs)
  let (second, cs) ← readField 2 (← readChar ':' cs)
  let (ns, cs) ← readFraction cs
  let offset ← readOffset cs
  let date : Date := ⟨year, month, day⟩
  if civil (dayOf date) = date ∧ hour < 24 ∧ minute < 60 ∧ second < 60 then
    some ((((dayOf date * 86400 + hour * 3600 + minute * 60 + second : ℕ) : ℤ) - offset * 60) *
      10 ^ 9 + ns)
  else none

theorem number_append (cs : List Char) (c : Char) : number (cs ++ [c]) =
    (number cs).bind fun v => if c.isDigit then some (10 * v + (c.toNat - 48)) else none := by
  simp [number, List.foldl_append]

theorem isDigit_digitChar {a : ℕ} (h : a < 10) :
    (Nat.digitChar a).isDigit = true ∧ (Nat.digitChar a).toNat - 48 = a := by
  have hall : ∀ a < 10, (Nat.digitChar a).isDigit = true ∧ (Nat.digitChar a).toNat - 48 = a := by
    decide
  exact hall a h

theorem number_digits {k n : ℕ} (h : n < 10 ^ k) : number (digits k n) = some n := by
  induction k generalizing n with
  | zero =>
    rw [pow_zero] at h
    obtain rfl : n = 0 := by omega
    rfl
  | succ k ih =>
    rw [pow_succ] at h
    have hlast := isDigit_digitChar (Nat.mod_lt n (by omega : 10 > 0))
    rw [digits, number_append, ih (by omega), Option.bind_some, if_pos hlast.1, hlast.2]
    congr 1
    omega

theorem readField_digits {k n : ℕ} (h : n < 10 ^ k) (s : List Char) :
    readField k (digits k n ++ s) = some (n, s) := by
  have htake : (digits k n ++ s).take k = digits k n := List.take_left' (length_digits k n)
  have hdrop : (digits k n ++ s).drop k = s := List.drop_left' (length_digits k n)
  rw [readField, if_pos (by simp), htake, hdrop, number_digits h, Option.map_some]

@[simp] theorem readChar_cons (c : Char) (s : List Char) : readChar c (c :: s) = some s := by
  simp [readChar]

theorem all_isDigit_digits (k n : ℕ) : ∀ c ∈ digits k n, c.isDigit = true := by
  induction k generalizing n with
  | zero => simp [digits]
  | succ k ih =>
    intro c hc
    rcases List.mem_append.mp hc with hc | hc
    · exact ih _ c hc
    · rw [List.mem_singleton.mp hc]
      exact (isDigit_digitChar (Nat.mod_lt n (by omega))).1

theorem takeWhile_digits (k n : ℕ) :
    (digits k n ++ UTC).takeWhile Char.isDigit = digits k n := by
  have hsign : UTC.takeWhile Char.isDigit = [] := by decide
  rw [List.takeWhile_append_of_pos (all_isDigit_digits k n), hsign, List.append_nil]

/-- The fraction reads back. -/
theorem readFraction_fraction {ns : ℕ} (h : ns < 10 ^ 9) :
    readFraction (fraction ns ++ UTC) = some (ns, UTC) := by
  rcases fraction_cases ns with ⟨rfl, hf⟩ | ⟨h0, k, hk, hf, hmod⟩
  · rw [hf]
    rfl
  have hk0 : k ≠ 0 := by
    rintro rfl
    rw [Nat.mod_eq_of_lt h] at hmod
    exact h0 hmod
  have hlt := point_bound hk h
  have hne : digits k (ns / 10 ^ (9 - k)) ≠ [] := by
    intro hnil
    have := congrArg List.length hnil
    simp [hk0] at this
  have hback := point_exact hmod
  have hdrop : (digits k (ns / 10 ^ (9 - k)) ++ UTC).drop k = UTC :=
    List.drop_left' (length_digits _ _)
  rw [hf, point, List.cons_append, readFraction]
  simp only [takeWhile_digits, hne, if_false, length_digits, hdrop]
  rw [List.take_of_length_le (by simpa using hk), number_digits hlt, Option.map_some, hback]

/-- What is read in turn. -/
theorem bind_eq_some {α β : Type} {x : Option α} {f : α → Option β} {a : α} {b : β}
    (hx : x = some a) (hf : f a = some b) : (x >>= f) = some b := by
  rw [hx]
  exact hf

/-- **Round trip.** -/
theorem readStamp_stamp {n : ℕ} (h : n < END) : readStamp (stamp n) = some (n : ℤ) := by
  have hyear := year_lt h
  have hmonth := (month_civil (n / DAY)).2
  have hday := (day_civil (n / DAY)).2
  have hsecs : n / 10 ^ 9 % 86400 < 86400 := Nat.mod_lt _ (by decide)
  have hoffset : readOffset UTC = some 0 := by decide
  have hdate : civil (dayOf (civil (n / DAY))) = civil (n / DAY) := by rw [dayOf_civil]
  unfold readStamp stamp
  apply bind_eq_some (readField_digits (by omega) _)
  apply bind_eq_some (readChar_cons '-' _)
  apply bind_eq_some (readField_digits (by omega) _)
  apply bind_eq_some (readChar_cons '-' _)
  apply bind_eq_some (readField_digits (by omega) _)
  apply bind_eq_some (readChar_cons 'T' _)
  apply bind_eq_some (readField_digits (by omega) _)
  apply bind_eq_some (readChar_cons ':' _)
  apply bind_eq_some (readField_digits (by omega) _)
  apply bind_eq_some (readChar_cons ':' _)
  apply bind_eq_some (readField_digits (by omega) _)
  apply bind_eq_some (readFraction_fraction (Nat.mod_lt _ (by decide)))
  apply bind_eq_some hoffset
  refine (if_pos ⟨hdate, by omega, by omega, by omega⟩).trans ?_
  rw [dayOf_civil]
  congr 1
  unfold DAY
  omega

end Rfc3339
