import Mathlib.Tactic.Common

/-!
# Instants and durations

`DateTime<Utc>` and chrono's `Duration` as whole numbers of nanoseconds, with the ranges outside of
which chrono's operators panic. The text codec of instants belongs to chrono and is a parameter
(`Chrono`); what is stored and read back is whatever it prints and parses.
-/

namespace UniMail

/-- `chrono::DateTime<Utc>`, in nanoseconds since the Unix epoch. -/
abbrev DateTime := Int

/-- `chrono::Duration`, in nanoseconds. -/
abbrev Duration := Int

namespace Duration

def seconds (n : Int) : Duration := n * 1000000000

def minutes (n : Int) : Duration := seconds (n * 60)

def hours (n : Int) : Duration := minutes (n * 60)

/-- The largest whole number of seconds of a `Duration`: it counts `i64` milliseconds. -/
def MAX_SECS : Int := 9223372036854775

/-- `Duration::days`; `none` is the panic on a span that does not fit. -/
def days (n : Int) : Option Duration :=
  if -MAX_SECS ≤ n * 86400 ∧ n * 86400 ≤ MAX_SECS then some (seconds (n * 86400)) else none

/-- `Duration::from_std` of a whole number of seconds. -/
def fromStd (secs : Nat) : Option Duration :=
  if (secs : Int) ≤ MAX_SECS then some (seconds secs) else none

end Duration

namespace DateTime

/-- `DateTime::<Utc>::MIN_UTC`, the first instant of year -262143. -/
def MIN_UTC : DateTime := -8334601228800 * 1000000000

/-- `DateTime::<Utc>::MAX_UTC`, the last instant of year 262142. -/
def MAX_UTC : DateTime := 8210266876799 * 1000000000 + 999999999

/-- `t + d`; `none` is the panic outside the calendar. -/
def checkedAdd (t : DateTime) (d : Duration) : Option DateTime :=
  if MIN_UTC ≤ t + d ∧ t + d ≤ MAX_UTC then some (t + d) else none

end DateTime

/-- The RFC 3339 codec of chrono. -/
structure Chrono where
  toRfc3339 : DateTime → String
  parseFromRfc3339 : String → Option DateTime

end UniMail
