import UniMail.Auth.Token
import UniMail.Provider.Models
import UniMail.Text

/-!
# Microsoft Graph

The mail operations of a connected account. A request goes out with a token of the account, and a
401 triggers one retry after a forced refresh. URLs, status texts and the JSON parser belong to the
crates `url`, `http` and `serde_json` and come with the client (`WebCrates`).
-/

namespace UniMail

/-- Fields requested from Graph for list results. -/
def MESSAGE_SELECT : String :=
  "id,subject,from,toRecipients,bodyPreview,receivedDateTime,isRead"

/-- What the client uses of its crates. `pushSegment` fails on a URL that cannot be a base. -/
structure WebCrates where
  parseUrl : String → Except String String
  appendPair : String → String → String → String
  pushSegment : String → String → Option String
  displayStatus : Nat → String
  parseJson : String → Except String Json

structure MicrosoftGraph where
  baseUrl : String
  crates : WebCrates
  tokens : OAuthClient

namespace MicrosoftGraph

variable (graph : MicrosoftGraph)

/-- Extract Graph's `error.message` from an error response body. -/
def graphErrorMessage (body : String) : String :=
  let message := do
    let json ← (graph.crates.parseJson body).toOption
    let error ← json.get "error"
    let message ← error.get "message"
    message.asStr
  message.getD (String.ofList (body.toList.take 300))

/-- `Url::parse` under the `?` operator. -/
def url (s : String) : Result String :=
  (graph.crates.parseUrl s).mapError fun e => .config s!"invalid URL: {e}"

/-- Low-level send: attach the bearer token and optional JSON body. -/
def send (method : Method) (url bearer : String) (body : Option Json) : Async GraphResponse := do
  let response ← op (.graph { method, url, bearer, body })
  check (response.mapError .provider)

/-- Send a request with the account's bearer token, retrying once after a forced refresh if Graph
reports 401. -/
def sendAuthorized (account : Account) (method : Method) (url : String) (body : Option Json) :
    Async GraphResponse := do
  let token ← TokenManager.getAccessToken graph.tokens account.id
  let response ← send method url token body
  if response.status = 401 then
    TokenManager.refreshAccount graph.tokens account.id
    let token ← TokenManager.getAccessToken graph.tokens account.id
    send method url token body
  else return response

def isSuccess (status : Nat) : Bool := 200 ≤ status ∧ status < 300

/-- Convert a response into JSON, mapping non-2xx to a readable provider error. -/
def toJson (response : GraphResponse) : Result Json :=
  let text := response.text.getD ""
  if isSuccess response.status then
    (graph.crates.parseJson text).mapError fun e => .provider s!"invalid Graph response: {e}"
  else .error (.provider
    s!"Graph {graph.crates.displayStatus response.status}: {graph.graphErrorMessage text}")

/-- GET a URL as JSON, with 401-retry handling. -/
def getJson (account : Account) (url : String) : Async Json := do
  let response ← graph.sendAuthorized account .GET url none
  check (graph.toJson response)

/-- The URL of a listing. -/
def listUrl (limit : Nat) (query : Option String) : Result String := do
  let url ← graph.url s!"{graph.baseUrl}/me/messages"
  let url := graph.crates.appendPair url "$top" (toString limit)
  let url := graph.crates.appendPair url "$select" MESSAGE_SELECT
  match query with
  | some qs =>
    if Text.trim qs ≠ "" then
      let term := String.ofList (qs.toList.filter (· ≠ '"'))
      return graph.crates.appendPair url "$search" ("\"" ++ term ++ "\"")
    else return graph.crates.appendPair url "$orderby" "receivedDateTime desc"
  | none => return graph.crates.appendPair url "$orderby" "receivedDateTime desc"

/-- The messages of a listing; an entry of an unexpected shape is skipped. -/
def messages (json : Json) : List Email :=
  (((json.get "value").bind Json.asArray).map (List.filterMap graphMessageToEmail)).getD []

def listMessages (account : Account) (limit : Nat) (query : Option String) : Async (List Email) := do
  let url ← check (graph.listUrl limit query)
  let json ← graph.getJson account url
  return messages json

/-- The URL of a message. -/
def messageUrl (messageId : String) : Result String := do
  let url ← graph.url s!"{graph.baseUrl}/me/messages/"
  match graph.crates.pushSegment url messageId with
  | some url => return url
  | none => throw (.invalidRequest "invalid message id")

def getMessage (account : Account) (messageId : String) : Async Email := do
  let url ← check (graph.messageUrl messageId)
  let json ← graph.getJson account url
  match graphMessageToEmail json with
  | some email => return email
  | none => throw (.err (.provider "unexpected Graph message shape"))

/-- The body of a `sendMail` request. -/
def sendMailPayload (recipient subject body : String) : Json :=
  .object [
    ("message", .object [
      ("subject", .string subject),
      ("body", .object [("contentType", .string "Text"), ("content", .string body)]),
      ("toRecipients", .array [.object [("emailAddress", .object [("address", .string recipient)])]])]),
    ("saveToSentItems", .bool true)]

def sendMessage (account : Account) (recipient subject body : String) : Async Unit := do
  let url ← check (graph.url s!"{graph.baseUrl}/me/sendMail")
  let response ← graph.sendAuthorized account .POST url (some (sendMailPayload recipient subject body))
  if isSuccess response.status then return ()
  else
    let text := response.text.getD ""
    let status := graph.crates.displayStatus response.status
    throw (.err (.provider s!"send failed ({status}): {graph.graphErrorMessage text}"))

end MicrosoftGraph

/-! ### The protocol of a mail operation -/

section Rules

open Interaction

variable {G : Type} {M : Monitor AppSig G} {account : Account} {Base : G → Prop}
  {Holds : G → String → Prop} (rules : TokenRules M account.id Base Holds)
  (hgraph : ∀ request, M.Silent (.graph request)) {graph : MicrosoftGraph} {g : G}
include hgraph

theorem follows_send {method : Method} {url bearer : String} {body : Option Json} (hg : Base g) :
    Follows M (fun g _ => Base g) g (MicrosoftGraph.send method url bearer body).run := by
  unfold MicrosoftGraph.send
  apply follows_op_silent (hgraph _ _)
  intro _ _
  exact follows_check (fun _ _ => hg) fun _ _ => hg

include rules

theorem follows_sendAuthorized {method : Method} {url : String} {body : Option Json} (hg : Base g) :
    Follows M (fun g _ => Base g) g (graph.sendAuthorized account method url body).run := by
  unfold MicrosoftGraph.sendAuthorized
  refine (follows_run_bind _ _ _).mpr (follows_mono ?_ (rules.follows_getAccessToken hg))
  intro g r hg
  cases r with
  | error e => exact hg
  | ok token =>
    refine (follows_run_bind _ _ _).mpr (follows_mono ?_ (follows_send hgraph hg))
    intro g r hg
    cases r with
    | error e => exact hg
    | ok response =>
      dsimp only
      split
      · refine (follows_run_bind _ _ _).mpr (follows_mono ?_ (rules.follows_refreshAccount hg))
        intro g r hg
        cases r with
        | error e => exact hg
        | ok _ =>
          refine (follows_run_bind _ _ _).mpr (follows_mono ?_ (rules.follows_getAccessToken hg))
          intro g r hg
          cases r with
          | error e => exact hg
          | ok token => exact follows_send hgraph hg
      · exact hg

theorem follows_getJson {url : String} (hg : Base g) :
    Follows M (fun g _ => Base g) g (graph.getJson account url).run := by
  unfold MicrosoftGraph.getJson
  refine (follows_run_bind _ _ _).mpr (follows_mono ?_ (follows_sendAuthorized rules hgraph hg))
  intro g r hg
  cases r with
  | error e => exact hg
  | ok response => exact follows_check (fun _ _ => hg) fun _ _ => hg

theorem follows_listMessages {limit : Nat} {query : Option String} (hg : Base g) :
    Follows M (fun g _ => Base g) g (graph.listMessages account limit query).run := by
  unfold MicrosoftGraph.listMessages
  refine follows_check_bind (fun url _ => ?_) fun _ _ => hg
  refine (follows_run_bind _ _ _).mpr (follows_mono ?_ (follows_getJson rules hgraph hg))
  intro g r hg
  cases r <;> exact hg

theorem follows_getMessage {messageId : String} (hg : Base g) :
    Follows M (fun g _ => Base g) g (graph.getMessage account messageId).run := by
  unfold MicrosoftGraph.getMessage
  refine follows_check_bind (fun url _ => ?_) fun _ _ => hg
  refine (follows_run_bind _ _ _).mpr (follows_mono ?_ (follows_getJson rules hgraph hg))
  intro g r hg
  cases r with
  | error e => exact hg
  | ok json =>
    dsimp only
    split <;> exact hg

theorem follows_sendMessage {recipient subject body : String} (hg : Base g) :
    Follows M (fun g _ => Base g) g (graph.sendMessage account recipient subject body).run := by
  unfold MicrosoftGraph.sendMessage
  refine follows_check_bind (fun url _ => ?_) fun _ _ => hg
  refine (follows_run_bind _ _ _).mpr (follows_mono ?_ (follows_sendAuthorized rules hgraph hg))
  intro g r hg
  cases r with
  | error e => exact hg
  | ok response =>
    dsimp only
    split <;> exact hg

end Rules

end UniMail
