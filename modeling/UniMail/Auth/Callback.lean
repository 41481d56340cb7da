import UniMail.Auth.Token

/-!
# The OAuth callback

What the callback server does with the query parameters of the redirect.
-/

namespace UniMail

open Interaction

/-- Query parameters Microsoft sends back to the redirect URI. -/
structure CallbackParams where
  code : Option String
  state : Option String
  error : Option String
  errorDescription : Option String
  deriving DecidableEq, Repr

/-- Complete the flow the parameters belong to. -/
def completeCallback (oauth : OAuthClient) (params : CallbackParams) : Async Account :=
  match params.error with
  | some error =>
    -- The user denied consent, or Microsoft reported another error.
    let detail := (params.errorDescription.map fun d => s!" — {d}").getD ""
    throw (.err (.auth s!"Authorization failed: {error}{detail}"))
  | none =>
    match params.code, params.state with
    | some code, some state => TokenManager.completeFlow oauth code state
    | _, _ => throw (.err (.auth "missing code or state parameter in callback"))

/-! ### Calls of a pool -/

/-- The calls that run concurrently. -/
inductive Call
  | beginFlow (tenantId : String)
  | callback (params : CallbackParams)
  | completeFlow (code state : String)
  | getAccessToken (accountId : String)
  | refreshAccount (accountId : String)
  | disconnect (account : Account)

/-- What a call returns when it succeeds. -/
inductive Return
  | url (authUrl : ConsentUrl)
  | account (account : Account)
  | token (accessToken : String)
  | unit
  deriving DecidableEq, Repr

/-- The program of a call. -/
def Call.prog (oauth : OAuthClient) : Call → Prog AppSig (Outcome Return)
  | .beginFlow tenantId =>
    ExceptT.run do return .url (← TokenManager.beginFlow oauth tenantId)
  | .callback params => ExceptT.run do return .account (← completeCallback oauth params)
  | .completeFlow code state =>
    ExceptT.run do return .account (← TokenManager.completeFlow oauth code state)
  | .getAccessToken accountId =>
    ExceptT.run do return .token (← TokenManager.getAccessToken oauth accountId)
  | .refreshAccount accountId =>
    ExceptT.run do
      TokenManager.refreshAccount oauth accountId
      return .unit
  | .disconnect account =>
    ExceptT.run do
      TokenManager.disconnect account
      return .unit

/-! ### A concrete process -/

/-- The texts of the hours of the first day, as chrono prints and parses them. -/
def firstDay : List (DateTime × String) :=
  [(Duration.hours 0, "1970-01-01T00:00:00+00:00"), (Duration.hours 1, "1970-01-01T01:00:00+00:00"),
    (Duration.hours 2, "1970-01-01T02:00:00+00:00"), (Duration.hours 3, "1970-01-01T03:00:00+00:00"),
    (Duration.hours 9, "1970-01-01T09:00:00+00:00")]

def Chrono.ofTable (table : List (DateTime × String)) : Chrono where
  toRfc3339 t := ((table.find? fun x => x.1 = t).map Prod.snd).getD ""
  parseFromRfc3339 s := (table.find? fun x => x.2 = s).map Prod.fst

def sampleKey : Key := Vector.replicate 32 7

def sampleOauth : OAuthClient :=
  ⟨"client", "https://login/authorize", "https://login/token", "http://localhost", .ok⟩

abbrev sampleSystem : Machine AppSig World Env := system .tagged (.ofTable firstDay) sampleKey

/-- An environment without faults at an hour of the first day, where the token endpoint answers
`token`. -/
def Env.calm (hour : Int) (token : Except String TokenResponse) : Env where
  now := Duration.hours hour
  nonces := (Vector.replicate NONCE_LEN 0, Vector.replicate NONCE_LEN 0)
  uuid := "acc-2"
  pkce := ("challenge", "verifier")
  csrf := "csrf"
  fault := none
  flowFault _ := none
  scan := .table
  token _ := token
  resolve _ := .ok ⟨"a@x", some "Ann"⟩
  graph _ := .error "connection refused"

def sampleAccount : Account :=
  ⟨"acc-1", "tenant-a", "a@x", some "Ann", "microsoft", .active, "1970-01-01T00:00:00+00:00",
    "1970-01-01T00:00:00+00:00"⟩

/-- A process whose database holds the account with a token that expires at the given hour. -/
def connected (expiry : Int) : World where
  db := (SqliteTokenStore.upsert .tagged (.ofTable firstDay) sampleKey "acc-1"
    ⟨"at-0", "rt-0", none, some (Duration.hours expiry), none, 0⟩
    (Vector.replicate NONCE_LEN 0, Vector.replicate NONCE_LEN 0)
    (SqliteAccountStore.create sampleAccount .empty).2).2
  locks _ := none

end UniMail
