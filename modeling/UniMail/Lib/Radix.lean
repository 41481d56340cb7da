import Mathlib.Tactic.Common
import Mathlib.Data.Nat.Notation

/-!
# Numbers in a radix

The digits of a radix as `char::to_digit` reads them, upper and lower case alike, and the number a
text of digits denotes. `Nat.toDigits` writes a number; `value_toDigits` reads it back.
-/

namespace Radix

/-- The value of a digit of any radix up to 36. -/
def digitValue (c : Char) : Option ℕ :=
  if '0' ≤ c ∧ c ≤ '9' then some (c.toNat - 48)
  else if 'a' ≤ c ∧ c ≤ 'z' then some (c.toNat - 87)
  else if 'A' ≤ c ∧ c ≤ 'Z' then some (c.toNat - 55)
  else none

/-- The value of a digit of the radix. -/
def toDigit (radix : ℕ) (c : Char) : Option ℕ := (digitValue c).filter (· < radix)

def isDigit (radix : ℕ) (c : Char) : Bool := (toDigit radix c).isSome

/-- The number that a text of digits denotes. -/
def value (radix : ℕ) (l : List Char) : ℕ :=
  l.foldl (fun n c => radix * n + (toDigit radix c).getD 0) 0

variable {radix d n : ℕ}

theorem toDigit_digitChar (hd : d < radix) (hradix : radix ≤ 16) :
    toDigit radix d.digitChar = some d := by
  have hall : ∀ d < 16, digitValue d.digitChar = some d := by decide
  rw [toDigit, hall d (by omega)]
  exact Option.filter_some_pos (by simpa using hd)

theorem isDigit_digitChar (hd : d < radix) (hradix : radix ≤ 16) : isDigit radix d.digitChar := by
  rw [isDigit, toDigit_digitChar hd hradix]
  rfl

theorem value_append_digitChar (hd : d < radix) (hradix : radix ≤ 16) (l : List Char) :
    value radix (l ++ [d.digitChar]) = radix * value radix l + d := by
  rw [value, List.foldl_append, List.foldl_cons, List.foldl_nil, toDigit_digitChar hd hradix]
  rfl

theorem toDigits_snoc (hone : 1 < radix) (hn : 0 < n) (hd : d < radix) :
    Nat.toDigits radix (radix * n + d) = Nat.toDigits radix n ++ [d.digitChar] := by
  rw [← Nat.toDigits_append_toDigits hone hn hd, Nat.toDigits_of_lt_base hd]

/-- A number is read back from its digits. -/
theorem value_toDigits (hone : 1 < radix) (hradix : radix ≤ 16) (n : ℕ) :
    value radix (Nat.toDigits radix n) = n := by
  induction n using Nat.base_induction radix hone with
  | single d hd =>
    rw [Nat.toDigits_of_lt_base hd]
    exact (value_append_digitChar hd hradix []).trans (by simp [value])
  | digit n d hd hn ih => rw [toDigits_snoc hone hn hd, value_append_digitChar hd hradix, ih]

theorem isDigit_toDigits (hone : 1 < radix) (hradix : radix ≤ 16) (n : ℕ) :
    ∀ c ∈ Nat.toDigits radix n, isDigit radix c := by
  induction n using Nat.base_induction radix hone with
  | single d hd =>
    rw [Nat.toDigits_of_lt_base hd]
    simpa using isDigit_digitChar hd hradix
  | digit n d hd hn ih =>
    rw [toDigits_snoc hone hn hd]
    intro c hc
    rcases List.mem_append.mp hc with hc | hc
    · exact ih c hc
    · obtain rfl := List.mem_singleton.mp hc
      exact isDigit_digitChar hd hradix

/-- A number does not begin with a zero, unless it is zero. -/
theorem head_toDigits (hone : 1 < radix) (hradix : radix ≤ 16) (n : ℕ)
    (h : (Nat.toDigits radix n).head? = some '0') : n = 0 := by
  induction n using Nat.base_induction radix hone with
  | single d hd =>
    rw [Nat.toDigits_of_lt_base hd, List.head?_singleton, Option.some.injEq] at h
    have hdigit := toDigit_digitChar hd hradix
    rw [h, show '0' = Nat.digitChar 0 from rfl, toDigit_digitChar (by omega) hradix] at hdigit
    exact (Option.some.inj hdigit).symm
  | digit n d hd hn ih =>
    rw [toDigits_snoc hone hn hd, List.head?_append] at h
    cases hhead : (Nat.toDigits radix n).head? with
    | none => exact absurd (List.head?_eq_none_iff.mp hhead) Nat.toDigits_ne_nil
    | some c =>
      rw [hhead, Option.some_or] at h
      have hzero : n = 0 := ih (hhead.trans h)
      omega

end Radix
