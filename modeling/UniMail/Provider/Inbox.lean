import UniMail.Provider.Graph

/-!
# The unified inbox

`aggregate_unified_inbox` fetches the messages of all accounts concurrently, then merges, sorts and
truncates. The fetches are a pool of calls (`fetches`); `Joined` says when `join_all` is done with it
and what it returns, and `mergeInbox` is the rest.
-/

namespace UniMail

open Interaction

/-- Fetch the messages of an account; one failing account should not take down the whole inbox. -/
def fetch (graph : MicrosoftGraph) (limit : Nat) (account : Account) : Async (List UnifiedEmail) := do
  let messages := match ← outcome (graph.listMessages account limit none) with
    | .ok messages => messages
    | .error _ => []
  return messages.map fun email =>
    { email, account := { id := account.id, email := account.emailAddress } }

/-- The fetches that `join_all` polls. -/
def fetches (graph : MicrosoftGraph) (limit : Nat) (accounts : List Account) :
    List (Prog AppSig (Outcome (List UnifiedEmail))) :=
  accounts.map fun account => (fetch graph limit account).run

/-- `join_all`: all fetches have returned their messages, or one has panicked. -/
inductive Joined (c : Cfg AppSig World (Outcome (List UnifiedEmail))) :
    Outcome (List (List UnifiedEmail)) → Prop
  | all (results : List (List UnifiedEmail))
      (h : c.returned = results.map fun messages => some (.ok messages)) : Joined c (.ok results)
  | panic (msg : String) (h : some (.error (.panic msg)) ∈ c.returned) :
      Joined c (.error (.panic msg))

/-- Sort by `received_at` descending; messages without a date sort last. -/
def compareReceivedDesc (chrono : Chrono) (a b : Option String) : Ordering :=
  match a.bind chrono.parseFromRfc3339, b.bind chrono.parseFromRfc3339 with
  | some a, some b => compare b a
  | some _, none => .lt
  | none, some _ => .gt
  | none, none => .eq

/-- Merge the results into a single list; the sort is stable. -/
def mergeInbox (chrono : Chrono) (limit : Nat) (results : List (List UnifiedEmail)) :
    List UnifiedEmail :=
  (results.flatten.mergeSort fun a b =>
    compareReceivedDesc chrono a.email.receivedAt b.email.receivedAt ≠ .gt).take limit

end UniMail
