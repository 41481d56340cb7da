import UniMail.Auth.Callback
import UniMail.Cli.Commands
import UniMail.Mcp.Server

/-!
# What a process runs

`Task` gathers the calls that the REST API, the callback listener, the MCP server, the command line and
the background loop make. A pool of any of them, interleaved in any way, is a configuration of
`system`. A `unified_inbox` is the listing of the accounts and one fetch for each of them.
-/

namespace UniMail

open Interaction

/-- POST /accounts/connect: start the OAuth flow for a new account. -/
def Routes.connectAccount (oauth : OAuthClient) (tenantId : String) : Async ConsentUrl :=
  TokenManager.beginFlow oauth tenantId

/-- One of the calls that a process makes. -/
inductive Task
  | request (tenantId : String) (call : ApiRequest)
  | connect (tenantId : String)
  | callback (params : CallbackParams)
  | tool (call : Mcp.Tool)
  | fetch (limit : Nat) (account : Account)
  | refreshLoop (inactivityDays : Int) (rounds : Nat)
  | refreshAll
  | listAccounts (tenant : Option String)
  | removeAccount (tenant : Option String) (account : String)

/-- What a task returns. -/
inductive TaskReturn
  | response (response : Response)
  | consent (url : Outcome ConsentUrl)
  | account (account : Outcome Account)
  | answer (answer : Mcp.ToolAnswer)
  | messages (messages : Outcome (List UnifiedEmail))
  | counts (counts : Outcome (List Nat))
  | lines (lines : Outcome (List String))

namespace Task

variable (server : MailServer)

/-- The listing of the accounts by a `unified_inbox` request. -/
def inboxRequest (tenantId : String) : Prog AppSig Response := do
  return respond .accounts (← (Routes.listAccounts tenantId).run)

/-- The listing of the accounts by a `unified_inbox` tool call. -/
def inboxTool : Prog AppSig Mcp.ToolAnswer := do
  return Mcp.answer Mcp.toProtocolError .accounts (← server.listAccounts.run)

/-- The program of a task, in the process of the server. -/
def prog : Task → Prog AppSig TaskReturn
  | .request tenantId call =>
    ((call.prog server.graph tenantId).getD (inboxRequest tenantId)).map .response
  | .connect tenantId => (Routes.connectAccount server.graph.tokens tenantId).run.map .consent
  | .callback params => (completeCallback server.graph.tokens params).run.map .account
  | .tool call => ((call.prog server).getD (inboxTool server)).map .answer
  | .fetch limit account => (UniMail.fetch server.graph limit account).run.map .messages
  | .refreshLoop inactivityDays rounds =>
    (Cli.refreshLoop server.graph.tokens inactivityDays rounds).run.map .counts
  | .refreshAll => (Cli.refreshAll server.graph.tokens).run.map .lines
  | .listAccounts tenant => (Cli.listAccounts server.defaultTenantId tenant).run.map .lines
  | .removeAccount tenant account =>
    (Cli.removeAccountCommand server.defaultTenantId tenant account).run.map .lines

/-- What is shared is in the state `w`, and the tasks are yet to begin. -/
def start {W : Type} (tasks : List Task) (w : W) : Cfg AppSig W TaskReturn :=
  ⟨w, tasks.map (prog server)⟩

end Task

end UniMail
