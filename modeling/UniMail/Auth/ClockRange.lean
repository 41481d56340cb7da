import UniMail.Auth.Stale
import UniMail.Config
import UniMail.Lib.Radix

/-!
# The range of the clock

`refresh_stale` subtracts the configured days from the clock, and `token_set_from` adds the lifetime
that the provider names. A span that is too long for a `Duration` panics in the first and counts as
one hour in the second; a `Duration` that leads out of the calendar panics in both. So the calendar
decides (`clock_safe_iff`): the days and the lifetime come unchecked from the environment and the
network.
-/

namespace UniMail

open Interaction

/-! ### The configured days -/

/-- The number that decimal digits denote. -/
def parseDigits (l : List Char) : Option Int :=
  if l ≠ [] ∧ l.all (Radix.isDigit 10) then some (Radix.value 10 l) else none

/-- Decimal digits after an optional sign. -/
def parseSigned : List Char → Option Int
  | '-' :: l => (parseDigits l).map (-·)
  | '+' :: l => parseDigits l
  | l => parseDigits l

/-- `i64::from_str`. -/
def parseI64 (s : String) : Option Int :=
  (parseSigned s.toList).filter fun n => -9223372036854775808 ≤ n ∧ n ≤ 9223372036854775807

/-- `token_inactivity_days` as `from_env` loads it when the variable has the value `value`. -/
def tokenInactivityDays (value : Option String) : Int :=
  ((env "TOKEN_INACTIVITY_DAYS" value).toOption.bind parseI64).getD 90

theorem parseDigits_toDigits (n : ℕ) : parseDigits (Nat.toDigits 10 n) = some (n : Int) := by
  have hall : (Nat.toDigits 10 n).all (Radix.isDigit 10) = true :=
    List.all_eq_true.mpr (Radix.isDigit_toDigits (by omega) (by omega) n)
  rw [parseDigits, if_pos ⟨Nat.toDigits_ne_nil, hall⟩,
    Radix.value_toDigits (by omega) (by omega)]

/-- A digit is no sign. -/
theorem parseSigned_toDigits (n : ℕ) : parseSigned (Nat.toDigits 10 n) = some (n : Int) := by
  have hdigits : ∀ c ∈ Nat.toDigits 10 n, Radix.isDigit 10 c :=
    Radix.isDigit_toDigits (by omega) (by omega) n
  rw [← parseDigits_toDigits n]
  generalize Nat.toDigits 10 n = l at hdigits
  unfold parseSigned
  split
  · exact absurd (hdigits '-' List.mem_cons_self) (by decide)
  · exact absurd (hdigits '+' List.mem_cons_self) (by decide)
  · rfl

/-- The text of a number: its digits, after a sign where it is negative. -/
theorem toList_toString (n : Int) :
    (toString n).toList = (if n < 0 then ['-'] else []) ++ Nat.toDigits 10 n.natAbs := by
  cases n with
  | ofNat n =>
    show (Nat.repr n).toList = _
    rw [Nat.repr_eq_ofList_toDigits, String.toList_ofList]
    rfl
  | negSucc n =>
    show ("-" ++ Nat.repr (n + 1)).toList = _
    rw [String.toList_append, Nat.repr_eq_ofList_toDigits, String.toList_ofList,
      String.toList_ofList, if_pos (Int.negSucc_lt_zero n)]
    rfl

theorem parseI64_toString {n : Int} (hlow : -9223372036854775808 ≤ n)
    (hhigh : n ≤ 9223372036854775807) : parseI64 (toString n) = some n := by
  have hsigned : parseSigned (toString n).toList = some n := by
    rw [toList_toString]
    split
    · show (parseDigits (Nat.toDigits 10 n.natAbs)).map _ = _
      rw [parseDigits_toDigits, Option.map_some]
      exact congrArg some (by omega)
    · rw [List.nil_append, parseSigned_toDigits]
      exact congrArg some (by omega)
  rw [parseI64, hsigned]
  exact Option.filter_some_pos (by simpa using ⟨hlow, hhigh⟩)

theorem exists_digitChar (n : ℕ) : ∃ d < 10, d.digitChar ∈ Nat.toDigits 10 n := by
  induction n using Nat.base_induction 10 (by omega) with
  | single d hd =>
    refine ⟨d, hd, ?_⟩
    rw [Nat.toDigits_of_lt_base hd]
    exact List.mem_singleton_self _
  | digit n d hd hn _ =>
    refine ⟨d, hd, ?_⟩
    rw [Radix.toDigits_snoc (by omega) hn hd]
    exact List.mem_append_right _ (List.mem_singleton_self _)

/-- A number is not blank. -/
theorem trim_toString (n : Int) : Text.trim (toString n) ≠ "" := by
  intro h
  obtain ⟨d, hd, hmem⟩ := exists_digitChar n.natAbs
  have hspace := Text.trim_eq_empty.mp h d.digitChar (by
    rw [toList_toString]
    exact List.mem_append_right _ hmem)
  have hall : ∀ d < 10, Text.isWhitespace d.digitChar = false := by decide
  simp [hall d hd] at hspace

/-- The days are an `i64`, whatever the variable is. -/
theorem tokenInactivityDays_range (value : Option String) :
    -9223372036854775808 ≤ tokenInactivityDays value ∧
      tokenInactivityDays value ≤ 9223372036854775807 := by
  unfold tokenInactivityDays
  cases h : (env "TOKEN_INACTIVITY_DAYS" value).toOption.bind parseI64 with
  | none => decide
  | some n =>
    obtain ⟨v, _, hv⟩ := Option.bind_eq_some_iff.mp h
    simpa using (Option.filter_eq_some_iff.mp hv).2

/-- Every `i64` can be configured. -/
theorem tokenInactivityDays_toString {n : Int} (hlow : -9223372036854775808 ≤ n)
    (hhigh : n ≤ 9223372036854775807) : tokenInactivityDays (some (toString n)) = n := by
  have henv : env "TOKEN_INACTIVITY_DAYS" (some (toString n)) = .ok (toString n) :=
    if_neg (trim_toString n)
  rw [tokenInactivityDays, henv]
  show ((parseI64 (toString n)).getD 90) = n
  rw [parseI64_toString hlow hhigh, Option.getD_some]

/-! ### Panics -/

/-- The call reads the clock first, and panics if it shows `now`. -/
def PanicsAt {α : Type} (call : Async α) (now : DateTime) : Prop :=
  ∃ k msg, call.run = .call .utcNow k ∧ k now = .ret (.error (.panic msg))

/-- Neither the cutoff nor the expiry overflows. -/
structure ClockSafe (oauth : OAuthClient) (days : Int) (secs : ℕ) (now : DateTime) : Prop where
  cutoff : ¬ PanicsAt (TokenManager.refreshStale oauth days) now
  expiry : ∀ response : TokenResponse, response.expiresIn = some secs →
    ¬ PanicsAt (tokenSetFrom response) now

/-- The days lead to an instant of the calendar, and so does the lifetime, if it is a `Duration`. -/
structure InCalendar (days : Int) (secs : ℕ) (now : DateTime) : Prop where
  earliest : DateTime.MIN_UTC ≤ now - Duration.seconds (days * 86400)
  latest : now - Duration.seconds (days * 86400) ≤ DateTime.MAX_UTC
  expiry : (secs : Int) ≤ Duration.MAX_SECS → now + Duration.seconds secs ≤ DateTime.MAX_UTC

theorem panicsAt_iff {α : Type} {f : DateTime → Async α} {now : DateTime} :
    PanicsAt (op .utcNow >>= f) now ↔ ∃ msg, (f now).run = .ret (.error (.panic msg)) := by
  constructor
  · rintro ⟨k, msg, hrun, hk⟩
    cases hrun
    exact ⟨msg, hk⟩
  · rintro ⟨msg, hf⟩
    exact ⟨_, msg, rfl, hf⟩

theorem refreshStale_panicsAt {oauth : OAuthClient} {days : Int} {now : DateTime} :
    PanicsAt (TokenManager.refreshStale oauth days) now ↔ cutoffAt days now = none := by
  unfold TokenManager.refreshStale cutoffAt
  rw [panicsAt_iff]
  cases Duration.days days with
  | none => exact iff_of_true ⟨_, rfl⟩ rfl
  | some span =>
    show (∃ msg, (orPanic _ (now.checkedAdd (-span)) >>= _).run = _) ↔ _
    rw [Option.bind_some]
    cases now.checkedAdd (-span) with
    | none => exact iff_of_true ⟨_, rfl⟩ rfl
    | some cutoff => exact iff_of_false (by rintro ⟨msg, ⟨⟩⟩) nofun

theorem tokenSetFrom_panicsAt {response : TokenResponse} {secs : ℕ} {now : DateTime}
    (h : response.expiresIn = some secs) :
    PanicsAt (tokenSetFrom response) now ↔ expiryAfter secs now = none := by
  unfold tokenSetFrom
  rw [h]
  simp only
  rw [panicsAt_iff]
  cases expiryAfter secs now with
  | none => exact iff_of_true ⟨_, rfl⟩ rfl
  | some expiresAt => exact iff_of_false (by rintro ⟨msg, ⟨⟩⟩) nofun

/-- The first instant of a year. -/
def yearStart (year : ℕ) : Int := Calendar.daysBeforeYear year * Rfc3339.DAY - EPOCH

/-- The calendar is narrower than the spans. -/
theorem span_of_calendar {now secs : Int} (h0 : 0 ≤ now) (h1 : now < 7289654400000000000)
    (hearliest : -8334601228800 * 1000000000 ≤ now - secs * 1000000000)
    (hlatest : now - secs * 1000000000 ≤ 8210266876799 * 1000000000 + 999999999) :
    -9223372036854775 ≤ secs ∧ secs ≤ 9223372036854775 := by
  omega

/-- From these times on nothing leads back before the calendar, and an hour not out of it. -/
theorem later_in_calendar {now d : Int} (h0 : 0 ≤ now) (hd : 0 ≤ d) :
    -8334601228800 * 1000000000 ≤ now + d := by
  omega

theorem hour_in_calendar {now : Int} (h1 : now < 7289654400000000000) :
    now + 1 * 60 * 60 * 1000000000 ≤ 8210266876799 * 1000000000 + 999999999 := by
  omega

section Range

variable {now : Int} (hlow : yearStart 1970 ≤ now) (hhigh : now < yearStart 2201)
include hlow hhigh

theorem now_range : 0 ≤ now ∧ now < 7289654400000000000 := by
  have h1970 : yearStart 1970 = 0 := by decide
  have h2201 : yearStart 2201 = 7289654400000000000 := by decide
  rw [h1970] at hlow
  rw [h2201] at hhigh
  exact ⟨hlow, hhigh⟩

theorem cutoffAt_ne_none (days : Int) :
    cutoffAt days now ≠ none ↔ DateTime.MIN_UTC ≤ now - Duration.seconds (days * 86400) ∧
      now - Duration.seconds (days * 86400) ≤ DateTime.MAX_UTC := by
  obtain ⟨h0, h1⟩ := now_range hlow hhigh
  have hspan : DateTime.MIN_UTC ≤ now - Duration.seconds (days * 86400) ∧
      now - Duration.seconds (days * 86400) ≤ DateTime.MAX_UTC →
        -Duration.MAX_SECS ≤ days * 86400 ∧ days * 86400 ≤ Duration.MAX_SECS :=
    fun h => span_of_calendar h0 h1 h.1 h.2
  unfold cutoffAt Duration.days
  split
  · rw [Option.bind_some, DateTime.checkedAdd, ← Int.sub_eq_add_neg]
    split
    · rename_i hin
      exact iff_of_true nofun hin
    · rename_i hout
      exact iff_of_false (fun h => h rfl) hout
  · rename_i hout
    exact iff_of_false (fun h => h rfl) fun hin => hout (hspan hin)

theorem expiryAfter_ne_none (secs : ℕ) :
    expiryAfter secs now ≠ none ↔
      ((secs : Int) ≤ Duration.MAX_SECS → now + Duration.seconds secs ≤ DateTime.MAX_UTC) := by
  obtain ⟨h0, h1⟩ := now_range hlow hhigh
  have hsecs : (0 : Int) ≤ Duration.seconds secs := by
    unfold Duration.seconds
    omega
  unfold expiryAfter Duration.fromStd
  split
  · rename_i hle
    rw [Option.getD_some, DateTime.checkedAdd]
    split
    · rename_i hin
      exact iff_of_true nofun fun _ => hin.2
    · rename_i hout
      exact iff_of_false (fun h => h rfl) fun h =>
        hout ⟨later_in_calendar h0 hsecs, h hle⟩
  · rename_i hgt
    -- The fallback of one hour stays in the calendar.
    have hhour : DateTime.MIN_UTC ≤ now + Duration.hours 1 ∧
        now + Duration.hours 1 ≤ DateTime.MAX_UTC :=
      ⟨later_in_calendar h0 (by decide), hour_in_calendar h1⟩
    rw [Option.getD_none, DateTime.checkedAdd, if_pos hhour]
    exact iff_of_true nofun fun hle => absurd hle hgt

/-- **The clock arithmetic does not panic exactly if the days and the lifetime lead to instants of the
calendar.** -/
theorem clock_safe_iff (oauth : OAuthClient) (value : Option String) (expiresIn : UInt64) :
    ClockSafe oauth (tokenInactivityDays value) expiresIn.toNat now ↔
      InCalendar (tokenInactivityDays value) expiresIn.toNat now := by
  have hcutoff := cutoffAt_ne_none hlow hhigh (tokenInactivityDays value)
  have hexpiry := expiryAfter_ne_none hlow hhigh expiresIn.toNat
  constructor
  · intro h
    obtain ⟨hearliest, hlatest⟩ := hcutoff.mp fun hnone => h.cutoff (refreshStale_panicsAt.mpr hnone)
    refine ⟨hearliest, hlatest, hexpiry.mp fun hnone => ?_⟩
    let response : TokenResponse := ⟨"", none, some expiresIn.toNat, none⟩
    exact h.expiry response rfl ((tokenSetFrom_panicsAt rfl).mpr hnone)
  · intro h
    refine ⟨fun hpanic => ?_, fun response hresponse hpanic => ?_⟩
    · exact hcutoff.mpr ⟨h.earliest, h.latest⟩ (refreshStale_panicsAt.mp hpanic)
    · exact hexpiry.mpr h.expiry ((tokenSetFrom_panicsAt hresponse).mp hpanic)

end Range

/-- At the epoch: the default of 90 days with a lifetime of an hour, and the largest number of days with
the longest lifetime that stay in the calendar. -/
theorem clock_safe_bounds : yearStart 1970 ≤ 0 ∧ 0 < yearStart 2201 ∧
    ClockSafe sampleOauth (tokenInactivityDays none) (3600 : UInt64).toNat 0 ∧
    ClockSafe sampleOauth (tokenInactivityDays (some "96465292")) (8210266876799 : UInt64).toNat 0 := by
  have hlow : yearStart 1970 ≤ 0 := by decide
  have hhigh : 0 < yearStart 2201 := by decide
  have hdefaults : InCalendar (tokenInactivityDays none) (3600 : UInt64).toNat 0 := by
    constructor <;> decide
  have hbounds : InCalendar (tokenInactivityDays (some "96465292")) (8210266876799 : UInt64).toNat 0 := by
    constructor <;> decide
  exact ⟨hlow, hhigh, (clock_safe_iff hlow hhigh sampleOauth none 3600).mpr hdefaults,
    (clock_safe_iff hlow hhigh sampleOauth (some "96465292") 8210266876799).mpr hbounds⟩

/-- The largest number of days panics in `Duration::days`, and the longest lifetime that is a
`Duration` leads out of the calendar. -/
theorem clock_panics :
    ¬ ClockSafe sampleOauth (tokenInactivityDays (some "9223372036854775807")) (3600 : UInt64).toNat
        0 ∧
      ¬ ClockSafe sampleOauth (tokenInactivityDays none) (9223372036854775 : UInt64).toNat 0 := by
  constructor
  · intro h
    exact h.cutoff (refreshStale_panicsAt.mpr (by decide))
  · intro h
    exact h.expiry ⟨"", none, some 9223372036854775, none⟩ rfl
      ((tokenSetFrom_panicsAt rfl).mpr (by decide))

end UniMail
