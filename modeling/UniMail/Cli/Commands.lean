import UniMail.Api.Status

/-!
# The command line and the background loop

The subcommands that work on the accounts, with the lines they print, and the loop of `serve` that
renews idle accounts. The `--tenant` option of a command defaults to the default tenant.
-/

namespace UniMail

open Interaction

namespace Cli

/-- The tenant a command works for. -/
def tenantId (defaultTenantId : String) (tenant : Option String) : String :=
  tenant.getD defaultTenantId

/-- The line of an account. -/
def accountLine (account : Account) : String :=
  s!"{account.id}\t{account.emailAddress}\t{account.status.asStr}\t{account.updatedAt}"

/-- `list-accounts`: what it prints. -/
def listAccounts (defaultTenantId : String) (tenant : Option String) : Async (List String) := do
  let accounts ← check (← op (.accountsList (tenantId defaultTenantId tenant)))
  if accounts = [] then return ["No connected accounts."]
  return accounts.map accountLine

/-- The account that `remove-account` names, by its id or its email address. -/
def resolve (tenantId account : String) : Async Account := do
  match ← op (.accountsGet tenantId account) with
  | .ok resolved => return resolved
  | .error _ => check (← op (.accountsGetByEmail tenantId account))

/-- `remove-account`: what it prints. -/
def removeAccountCommand (defaultTenantId : String) (tenant : Option String) (account : String) :
    Async (List String) := do
  let resolved ← resolve (tenantId defaultTenantId tenant) account
  let _ ← check (← op (.accountsDelete (tenantId defaultTenantId tenant) resolved.id))
  return [s!"Removed account {resolved.emailAddress}"]

/-- The line of `refresh-all` about an account. -/
def refreshLine : Account × Result Unit → String
  | (account, .ok ()) => s!"✅ refreshed {account.emailAddress}"
  | (account, .error e) => s!"❌ {account.emailAddress} — {e.display}"

variable (oauth : OAuthClient)

/-- `refresh-all`: what it prints. -/
def refreshAll : Async (List String) := do
  let outcomes ← TokenManager.refreshAll oauth
  return outcomes.map refreshLine

/-- The first rounds of `refresh_loop`, with the number of accounts that each has refreshed. -/
def refreshLoop (inactivityDays : Int) : Nat → Async (List Nat)
  | 0 => return []
  | rounds + 1 => do
    let refreshed ← TokenManager.refreshStale oauth inactivityDays
    return refreshed :: (← refreshLoop inactivityDays rounds)

end Cli

end UniMail
