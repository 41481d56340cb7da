import UniMail.Provider.Inbox

/-!
# REST API handlers

Each handler runs for the tenant that the authentication has resolved. All but `unified_inbox` are one
program; `unified_inbox` lists the accounts, runs the pool of fetches and merges. `Handles` is a
request served alone, with everything that happens while it is served.
-/

namespace UniMail

open Interaction

/-- Default page size for email listings. -/
def DEFAULT_LIMIT : Nat := 20

/-- Hard cap on page size. -/
def MAX_LIMIT : Nat := 200

structure EmailQuery where
  limit : Option Nat
  query : Option String

structure LimitQuery where
  limit : Option Nat

/-- The page size of a request. -/
def pageSize (limit : Option Nat) : Nat := min (limit.getD DEFAULT_LIMIT) MAX_LIMIT

namespace Routes

variable (graph : MicrosoftGraph) (tenantId : String)

/-- GET /accounts. -/
def listAccounts : Async (List Account) := do
  check (← op (.accountsList tenantId))

/-- DELETE /accounts/{id}: disconnect an account, keep the row for audit. -/
def disconnectAccount (id : String) : Async Unit := do
  let account ← check (← op (.accountsGet tenantId id))
  TokenManager.disconnect account

/-- GET /accounts/{id}/emails?limit=&query=. -/
def listEmails (id : String) (query : EmailQuery) : Async (List Email) := do
  let account ← check (← op (.accountsGet tenantId id))
  graph.listMessages account (pageSize query.limit) query.query

/-- GET /accounts/{id}/emails/{messageId}. -/
def getEmail (id messageId : String) : Async Email := do
  let account ← check (← op (.accountsGet tenantId id))
  graph.getMessage account messageId

/-- POST /accounts/{id}/send. -/
def sendEmail (id : String) (body : SendMailRequest) : Async Unit := do
  let account ← check (← op (.accountsGet tenantId id))
  graph.sendMessage account body.to body.subject body.body

end Routes

/-- A request to one of the handlers. -/
inductive ApiRequest
  | listAccounts
  | disconnectAccount (id : String)
  | listEmails (id : String) (query : EmailQuery)
  | getEmail (id messageId : String)
  | sendEmail (id : String) (body : SendMailRequest)
  | unifiedInbox (query : LimitQuery)

/-- The bodies of the answers; `aborted` is a handler that panicked. -/
inductive Response
  | accounts (accounts : List Account)
  | emails (emails : List Email)
  | email (email : Email)
  | inbox (emails : List UnifiedEmail)
  | status (code : Nat)
  | error (code : Nat) (message : String)
  | aborted
  deriving DecidableEq, Repr

/-- Map application errors to HTTP status codes for the API surface. -/
def statusFor : AppError → Nat
  | .notFound _ => 404
  | .auth _ | .tokenExpired _ => 401
  | .invalidRequest _ => 400
  | .provider _ => 502
  | .config _ | .storage _ | .internal _ | .io _ => 500

/-- The response to a failed request, without internal details. -/
def AppError.intoResponse (e : AppError) : Response :=
  .error (statusFor e) (match e with
    | .internal _ | .storage _ | .io _ => "internal error"
    | other => other.display)

/-- The response to the outcome of a handler. -/
def respond {α : Type} (render : α → Response) : Outcome α → Response
  | .ok a => render a
  | .error (.err e) => e.intoResponse
  | .error (.panic _) => .aborted

/-- The program of a handler, except for `unified_inbox`. -/
def ApiRequest.prog (graph : MicrosoftGraph) (tenantId : String) :
    ApiRequest → Option (Prog AppSig Response)
  | .listAccounts => some do return respond .accounts (← (Routes.listAccounts tenantId).run)
  | .disconnectAccount id => some do
    return respond (fun _ => .status 204) (← (Routes.disconnectAccount tenantId id).run)
  | .listEmails id query => some do
    return respond .emails (← (Routes.listEmails graph tenantId id query).run)
  | .getEmail id messageId => some do
    return respond .email (← (Routes.getEmail graph tenantId id messageId).run)
  | .sendEmail id body => some do
    return respond (fun _ => .status 202) (← (Routes.sendEmail graph tenantId id body).run)
  | .unifiedInbox _ => none

/-- What is seen of a request: who performed which operation, in which environment, with which
reply. -/
abbrev Trace := List (ℕ × ((o : Op) × Env × Op.Reply o))

/-- `Handles m chrono graph tenantId request w trace response w'`: the request, served alone from
world `w`, is answered with `response` and leaves the world `w'`. -/
inductive Handles (m : Machine AppSig World Env) (chrono : Chrono) (graph : MicrosoftGraph)
    (tenantId : String) : ApiRequest → World → Trace → Response → World → Prop
  | prog {request : ApiRequest} {p : Prog AppSig Response} {w w' : World}
      {ls : List (Label AppSig World Env)} {response : Response}
      (hprog : request.prog graph tenantId = some p) (h : Exec m 0 p w ls response w') :
      Handles m chrono graph tenantId request w (ls.map fun l => (0, l.view)) response w'
  | noInbox {query : LimitQuery} {w w' : World} {ls : List (Label AppSig World Env)} {e : Failure}
      (hlist : Exec m 0 (Routes.listAccounts tenantId).run w ls (.error e) w') :
      Handles m chrono graph tenantId (.unifiedInbox query) w (ls.map fun l => (0, l.view))
        (respond .accounts (.error e)) w'
  | inbox {query : LimitQuery} {w w₁ : World} {ls : List (Label AppSig World Env)}
      {accounts : List Account} {es : List (Event AppSig World Env (Outcome (List UnifiedEmail)))}
      {c : Cfg AppSig World (Outcome (List UnifiedEmail))}
      {results : Outcome (List (List UnifiedEmail))}
      (hlist : Exec m 0 (Routes.listAccounts tenantId).run w ls (.ok accounts) w₁)
      (hrun : m.Run ⟨w₁, fetches graph (pageSize query.limit) accounts⟩ es c)
      (hjoin : Joined c results) :
      Handles m chrono graph tenantId (.unifiedInbox query) w
        ((ls.map fun l => (0, l.view)) ++ es.map Event.view)
        (respond (fun results => .inbox (mergeInbox chrono (pageSize query.limit) results)) results)
        c.world

end UniMail
