import UniMail.Api.Isolation

/-!
# The MCP server

The tools of `MailServer`. They share the state of the REST API and run for the default tenant; an
account is named by its id or its email address. A domain error is the text of the tool's result, and
only a failed listing of the accounts is a protocol error. `ToolAnswers` is a tool call served alone.

`tools_agree` compares the tools with the REST handlers: for an account of the default tenant named
by its id, a tool performs the operations of the handler, with the same results.
-/

namespace UniMail

open Interaction

namespace Mcp

/-- Default page size for email listings. -/
def DEFAULT_LIMIT : Nat := 20

structure ListEmailsParams where
  account : String
  limit : Option Nat

structure SearchEmailsParams where
  account : String
  query : String

structure ReadEmailParams where
  account : String
  messageId : String

structure SendEmailParams where
  account : String
  «to» : String
  subject : String
  body : String

structure UnifiedInboxParams where
  limit : Option Nat

/-- A call of one of the tools. -/
inductive Tool
  | listAccounts
  | listEmails (params : ListEmailsParams)
  | searchEmails (params : SearchEmailsParams)
  | readEmail (params : ReadEmailParams)
  | sendEmail (params : SendEmailParams)
  | unifiedInbox (params : UnifiedInboxParams)

/-- The values that tools return as JSON; `sent` is `{"sent": true}`. -/
inductive ToolValue
  | accounts (accounts : List Account)
  | emails (emails : List Email)
  | email (email : Email)
  | sent
  | inbox (inbox : List UnifiedEmail)
  deriving DecidableEq, Repr

/-- What a tool call ends in: a successful result, an error of the tool, an error of the protocol, or a
panic. -/
inductive ToolAnswer
  | success (value : ToolValue)
  | error (text : String)
  | protocolError (message : String)
  | aborted
  deriving DecidableEq, Repr

/-- Wrap a value as a successful tool result. -/
def toolOk (value : ToolValue) : ToolAnswer := .success value

/-- Wrap a domain error as a caller-visible tool-level error. -/
def toolError (e : AppError) : ToolAnswer := .error e.display

/-- Convert an application error into an MCP protocol error (opaque to callers). -/
def toProtocolError (_ : AppError) : ToolAnswer := .protocolError "internal server error"

/-- The answer to the outcome of a tool, where `failed` wraps its error. -/
def answer {α : Type} (failed : AppError → ToolAnswer) (render : α → ToolValue) :
    Outcome α → ToolAnswer
  | .ok a => toolOk (render a)
  | .error (.err e) => failed e
  | .error (.panic _) => .aborted

end Mcp

open Mcp

/-- The MCP server, with what it uses of the shared state. -/
structure MailServer where
  graph : MicrosoftGraph
  defaultTenantId : String

namespace MailServer

variable (server : MailServer)

/-- Resolve an account by id or email address within the default tenant. -/
def resolveAccount (idOrEmail : String) : Async Account := do
  match ← op (.accountsGet server.defaultTenantId idOrEmail) with
  | .ok account => return account
  | .error _ => check (← op (.accountsGetByEmail server.defaultTenantId idOrEmail))

/-- List all connected email accounts. -/
def listAccounts : Async (List Account) := do
  check (← op (.accountsList server.defaultTenantId))

/-- The page size of `list_emails`. -/
def listLimit (limit : Option Nat) : Nat := min (limit.getD Mcp.DEFAULT_LIMIT) 200

/-- List recent emails for one account. -/
def listEmails (params : ListEmailsParams) : Async (List Email) := do
  let account ← server.resolveAccount params.account
  server.graph.listMessages account (listLimit params.limit) none

/-- Search emails for one account. -/
def searchEmails (params : SearchEmailsParams) : Async (List Email) := do
  let account ← server.resolveAccount params.account
  server.graph.listMessages account 50 (some params.query)

/-- Read a single email. -/
def readEmail (params : ReadEmailParams) : Async Email := do
  let account ← server.resolveAccount params.account
  server.graph.getMessage account params.messageId

/-- Send an email. -/
def sendEmail (params : SendEmailParams) : Async Unit := do
  let account ← server.resolveAccount params.account
  server.graph.sendMessage account params.to params.subject params.body

/-- The number of messages of `unified_inbox`. -/
def inboxLimit (limit : Option Nat) : Nat := min (limit.getD 50) 500

end MailServer

/-- The program of a tool, except for `unified_inbox`. -/
def Mcp.Tool.prog (server : MailServer) : Tool → Option (Prog AppSig ToolAnswer)
  | .listAccounts => some do
    return answer toProtocolError .accounts (← server.listAccounts.run)
  | .listEmails params => some do
    return answer toolError .emails (← (server.listEmails params).run)
  | .searchEmails params => some do
    return answer toolError .emails (← (server.searchEmails params).run)
  | .readEmail params => some do
    return answer toolError .email (← (server.readEmail params).run)
  | .sendEmail params => some do
    return answer toolError (fun _ => .sent) (← (server.sendEmail params).run)
  | .unifiedInbox _ => none

/-- `ToolAnswers m chrono server tool w trace a w'`: the call of the tool, served alone from world `w`,
is answered with `a` and leaves the world `w'`. -/
inductive ToolAnswers (m : Machine AppSig World Env) (chrono : Chrono) (server : MailServer) :
    Tool → World → Trace → ToolAnswer → World → Prop
  | prog {tool : Tool} {p : Prog AppSig ToolAnswer} {w w' : World}
      {ls : List (Label AppSig World Env)} {a : ToolAnswer} (hprog : tool.prog server = some p)
      (h : Exec m 0 p w ls a w') : ToolAnswers m chrono server tool w (ls.map fun l => (0, l.view)) a w'
  | noInbox {params : UnifiedInboxParams} {w w' : World} {ls : List (Label AppSig World Env)}
      {e : Failure} (hlist : Exec m 0 server.listAccounts.run w ls (.error e) w') :
      ToolAnswers m chrono server (.unifiedInbox params) w (ls.map fun l => (0, l.view))
        (answer toProtocolError .accounts (.error e)) w'
  | inbox {params : UnifiedInboxParams} {w w₁ : World} {ls : List (Label AppSig World Env)}
      {accounts : List Account} {es : List (Event AppSig World Env (Outcome (List UnifiedEmail)))}
      {c : Cfg AppSig World (Outcome (List UnifiedEmail))}
      {results : Outcome (List (List UnifiedEmail))}
      (hlist : Exec m 0 server.listAccounts.run w ls (.ok accounts) w₁)
      (hrun : m.Run ⟨w₁, fetches server.graph (MailServer.inboxLimit params.limit) accounts⟩ es c)
      (hjoin : Joined c results) :
      ToolAnswers m chrono server (.unifiedInbox params) w
        ((ls.map fun l => (0, l.view)) ++ es.map Event.view)
        (answer toolError
          (fun results => .inbox (mergeInbox chrono (MailServer.inboxLimit params.limit) results))
          results)
        c.world

/-! ### The tools and the REST handlers -/

/-- The request to the REST API that asks for the same. -/
def Mcp.Tool.apiRequest : Tool → ApiRequest
  | .listAccounts => .listAccounts
  | .listEmails params => .listEmails params.account ⟨params.limit, none⟩
  | .searchEmails params => .listEmails params.account ⟨some 50, some params.query⟩
  | .readEmail params => .getEmail params.account params.messageId
  | .sendEmail params => .sendEmail params.account ⟨params.to, params.subject, params.body⟩
  | .unifiedInbox params => .unifiedInbox ⟨params.limit⟩

/-- The tool and the handler see the same page: `unified_inbox` has limits of its own. -/
def Mcp.Tool.SamePage : Tool → Prop
  | .unifiedInbox params => ∃ limit ≤ MAX_LIMIT, params.limit = some limit
  | _ => True

/-- The response of the API says what the answer of the tool does. -/
inductive SameAnswer : Response → ToolAnswer → Prop
  | accounts (accounts : List Account) :
    SameAnswer (.accounts accounts) (toolOk (.accounts accounts))
  | emails (emails : List Email) : SameAnswer (.emails emails) (toolOk (.emails emails))
  | email (email : Email) : SameAnswer (.email email) (toolOk (.email email))
  | sent : SameAnswer (.status 202) (toolOk .sent)
  | inbox (inbox : List UnifiedEmail) : SameAnswer (.inbox inbox) (toolOk (.inbox inbox))
  | error (e : AppError) : SameAnswer e.intoResponse (toolError e)
  | protocolError (e : AppError) : SameAnswer e.intoResponse (toProtocolError e)
  | aborted : SameAnswer .aborted .aborted

/-- No lookup of an account by its id fails for the storage. -/
def LookupsSucceed (trace : Trace) : Prop :=
  ∀ i tenantId id env r,
    (i, (⟨.accountsGet tenantId id, env, r⟩ : (o : Op) × Env × Op.Reply o)) ∈ trace → env.fault = none

section Agree

variable {aead : Aead} {chrono : Chrono} {key : Key} {server : MailServer} {w w' : World}
  {ls : List (Label AppSig World Env)} {α : Type}

theorem same_answer {render : α → Response} {value : α → ToolValue} {failed : AppError → ToolAnswer}
    (hok : ∀ a, SameAnswer (render a) (toolOk (value a)))
    (herror : ∀ e, SameAnswer e.intoResponse (failed e)) (r : Outcome α) :
    SameAnswer (respond render r) (answer failed value r) := by
  rcases r with (e | msg) | a
  · exact herror e
  · exact .aborted
  · exact hok a

/-- Where the id is one of the tenant's, the tool finds the account as the handler does. -/
theorem exec_resolve {id : String} (howns : Owns w.db server.defaultTenantId id)
    (hcalm : LookupsSucceed (ls.map fun l => (0, l.view))) {f : Account → Async α} {r : Outcome α} :
    Exec (system aead chrono key) 0 (server.resolveAccount id >>= f).run w ls r w' ↔
      Exec (system aead chrono key) 0
        (op (.accountsGet server.defaultTenantId id) >>= fun reply => check reply >>= f).run
        w ls r w' := by
  have hfound : ∀ {env reply w₁ ls₁}, (system aead chrono key).exec 0
      (.accountsGet server.defaultTenantId id) env w = some (reply, w₁) →
      ls = ⟨.accountsGet server.defaultTenantId id, env, w, reply⟩ :: ls₁ →
      ∃ account, reply = .ok account := by
    rintro env reply w₁ ls₁ hexec rfl
    have hfault := hcalm 0 _ _ env reply List.mem_cons_self
    obtain ⟨row, hrow, htenant⟩ := howns
    refine ⟨row.toAccount, ?_⟩
    have hget : SqliteAccountStore.get server.defaultTenantId id w.db = .ok row.toAccount :=
      SqliteAccountStore.get_eq_ok.mpr ⟨row, hrow, htenant, rfl⟩
    exact (storage_calm hfault (Option.some.inj hexec)).1.trans hget
  constructor
  · intro h
    obtain ⟨env, reply, w₁, ls₁, hexec, hrest, hls⟩ := exec_call.mp h
    obtain ⟨account, rfl⟩ := hfound hexec hls
    exact exec_call.mpr ⟨env, .ok account, w₁, ls₁, hexec, hrest, hls⟩
  · intro h
    obtain ⟨env, reply, w₁, ls₁, hexec, hrest, hls⟩ := exec_call.mp h
    obtain ⟨account, rfl⟩ := hfound hexec hls
    exact exec_call.mpr ⟨env, .ok account, w₁, ls₁, hexec, hrest, hls⟩

/-- The tool and the handler make the same runs from the world, with corresponding answers. -/
def ToolAgrees (m : Machine AppSig World Env) (chrono : Chrono) (server : MailServer) (tool : Tool)
    (w : World) (trace : Trace) (w' : World) : Prop :=
  (∀ a, ToolAnswers m chrono server tool w trace a w' →
    ∃ response, Handles m chrono server.graph server.defaultTenantId tool.apiRequest w trace response
      w' ∧ SameAnswer response a) ∧
  ∀ response, Handles m chrono server.graph server.defaultTenantId tool.apiRequest w trace response
      w' → ∃ a, ToolAnswers m chrono server tool w trace a w' ∧ SameAnswer response a

/-- Two programs with the same runs make the tool and the handler agree. -/
theorem agrees_of_runs {m : Machine AppSig World Env} {tool : Tool} {trace : Trace} {x y : Async α}
    {render : α → Response} {value : α → ToolValue} {failed : AppError → ToolAnswer}
    (htool : tool.prog server = some do return answer failed value (← x.run))
    (hrequest : tool.apiRequest.prog server.graph server.defaultTenantId =
      some do return respond render (← y.run))
    (hok : ∀ a, SameAnswer (render a) (toolOk (value a)))
    (herror : ∀ e, SameAnswer e.intoResponse (failed e))
    (hruns : ∀ ls, trace = ls.map (fun l => (0, l.view)) → ∀ r,
      Exec m 0 x.run w ls r w' ↔ Exec m 0 y.run w ls r w') :
    ToolAgrees m chrono server tool w trace w' := by
  constructor
  · intro a h
    cases h with
    | @prog _ p _ _ ls _ hprog hexec =>
      obtain rfl := Option.some.inj (hprog.symm.trans htool)
      obtain ⟨r, hrun, rfl⟩ := exec_map.mp hexec
      refine ⟨_, .prog hrequest (exec_map.mpr ⟨r, (hruns ls rfl r).mp hrun, rfl⟩), ?_⟩
      exact same_answer hok herror r
    | noInbox _ => cases htool
    | inbox _ _ _ => cases htool
  · intro response h
    generalize hreq : tool.apiRequest = request at h
    cases h with
    | @prog _ p _ _ ls _ hprog hexec =>
      subst hreq
      obtain rfl := Option.some.inj (hprog.symm.trans hrequest)
      obtain ⟨r, hrun, rfl⟩ := exec_map.mp hexec
      refine ⟨_, .prog htool (exec_map.mpr ⟨r, (hruns ls rfl r).mpr hrun, rfl⟩), ?_⟩
      exact same_answer hok herror r
    | noInbox _ =>
      rw [hreq] at hrequest
      cases hrequest
    | inbox _ _ _ =>
      rw [hreq] at hrequest
      cases hrequest

/-- The account a tool is about, by id or email address. -/
def Mcp.Tool.account? : Tool → Option String
  | .listEmails params => some params.account
  | .searchEmails params => some params.account
  | .readEmail params => some params.account
  | .sendEmail params => some params.account
  | _ => none

/-- **The tools and the REST handlers agree**, on every world and in every environment in which the
account is one of the default tenant's, named by its id, and its lookup does not fail: each makes the
runs of the other, with the same operations, replies and effects, and a corresponding answer. -/
theorem tools_agree {tool : Tool} (hpage : tool.SamePage)
    (howns : ∀ id, tool.account? = some id → Owns w.db server.defaultTenantId id) {trace : Trace}
    (hcalm : LookupsSucceed trace) :
    ToolAgrees (system aead chrono key) chrono server tool w trace w' := by
  cases tool with
  | listAccounts => exact agrees_of_runs rfl rfl .accounts .protocolError fun _ _ _ => Iff.rfl
  | listEmails params =>
    refine agrees_of_runs rfl rfl .emails .error ?_
    rintro ls rfl r
    exact exec_resolve (howns _ rfl) hcalm
  | searchEmails params =>
    refine agrees_of_runs rfl rfl .emails .error ?_
    rintro ls rfl r
    exact exec_resolve (howns _ rfl) hcalm
  | readEmail params =>
    refine agrees_of_runs rfl rfl .email .error ?_
    rintro ls rfl r
    exact exec_resolve (howns _ rfl) hcalm
  | sendEmail params =>
    refine agrees_of_runs rfl rfl (fun _ => .sent) .error ?_
    rintro ls rfl r
    exact exec_resolve (howns _ rfl) hcalm
  | unifiedInbox params =>
    obtain ⟨_⟩ := params
    obtain ⟨limit, hlimit, hpage⟩ := hpage
    dsimp only at hpage
    subst hpage
    have hpages : MailServer.inboxLimit (some limit) = pageSize (some limit) := by
      unfold MailServer.inboxLimit pageSize MAX_LIMIT at *
      rw [Option.getD_some, Option.getD_some]
      omega
    constructor
    · intro a h
      cases h with
      | prog hprog _ => cases hprog
      | @noInbox _ _ _ ls e hlist =>
        exact ⟨_, .noInbox hlist, same_answer .accounts .protocolError (.error e)⟩
      | @inbox _ _ w₁ ls accounts es c results hlist hrun hjoin =>
        rw [hpages] at hrun ⊢
        exact ⟨_, .inbox hlist hrun hjoin, same_answer (fun _ => .inbox _) .error results⟩
    · intro response h
      generalize hreq : Tool.apiRequest (.unifiedInbox ⟨some limit⟩) = request at h
      cases h with
      | prog hprog _ =>
        subst hreq
        cases hprog
      | @noInbox _ _ _ ls e hlist =>
        exact ⟨_, .noInbox hlist, same_answer .accounts .protocolError (.error e)⟩
      | @inbox query _ w₁ ls accounts es c results hlist hrun hjoin =>
        cases hreq
        rw [← hpages] at hrun ⊢
        exact ⟨_, .inbox hlist hrun hjoin, same_answer (fun _ => .inbox _) .error results⟩

end Agree

/-! ### A message that is read through both -/

def sampleMailServer : MailServer := ⟨sampleGraph, "tenant-a"⟩

def readSample : Tool := .readEmail ⟨"acc-1", "m-1"⟩

/-- Graph cannot be reached: the API answers 502, and the tool with the same error. -/
theorem tools_agree_unreachable :
    ∃ trace w' a, ToolAnswers sampleSystem (.ofTable firstDay) sampleMailServer readSample (connected 9) trace
        a w' ∧
      SameAnswer (.error 502 "provider error: connection refused") a := by
  let env := Env.calm 1 (.error "")
  let p : Prog AppSig Response := do
    return respond .email (← (Routes.getEmail sampleGraph "tenant-a" "acc-1" "m-1").run)
  have hrun : (sampleSystem.runAlone 0 env p (connected 9)).map (fun result =>
      (result.1.all fun l => decide (l.env.fault = none), result.2.1)) =
      some (true, .error 502 "provider error: connection refused") := by
    decide +kernel
  obtain ⟨⟨ls, response, w'⟩, hrun, hresult⟩ := Option.map_eq_some_iff.mp hrun
  obtain ⟨hcalm, rfl⟩ := Prod.mk.inj hresult
  have hhandles : Handles sampleSystem (.ofTable firstDay) sampleGraph "tenant-a"
      (.getEmail "acc-1" "m-1") (connected 9) _ _ w' := .prog rfl (exec_of_runAlone hrun)
  have hpage : readSample.SamePage := trivial
  have howns : ∀ id, readSample.account? = some id → Owns (connected 9).db "tenant-a" id := by
    rintro id ⟨⟩
    exact ⟨sampleAccount.toRow, by decide +kernel, rfl⟩
  have hsucceed : LookupsSucceed (ls.map fun l => ((0 : ℕ), l.view)) := by
    intro i tenantId id env' r hmem
    obtain ⟨l, hl, heq⟩ := List.mem_map.mp hmem
    have hfault := List.all_eq_true.mp hcalm l hl
    cases l
    cases heq
    simpa using hfault
  have hagrees : ToolAgrees sampleSystem (.ofTable firstDay) sampleMailServer readSample (connected 9) _
      w' := tools_agree hpage howns hsucceed
  exact ⟨_, w', hagrees.2 _ hhandles⟩

end UniMail
