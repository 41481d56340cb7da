import UniMail.Auth.Service

/-!
# Provider-agnostic email models

The shapes the REST API exposes, and how a Graph message becomes one of them. The struct decoders
follow serde: a struct is read from an object by field name or from an array by position, an absent
optional field of an object is `None`, and only fields with a default may be cut off an array.
-/

namespace UniMail

/-- A named email address (`from` / `to` fields). -/
structure EmailAddress where
  name : Option String
  address : String
  deriving DecidableEq, Repr

/-- A single email message, normalised across providers. -/
structure Email where
  id : String
  subject : Option String
  «from» : Option EmailAddress
  «to» : List EmailAddress
  bodyPreview : Option String
  body : Option String
  receivedAt : Option String
  isRead : Bool
  deriving DecidableEq, Repr

/-- Summary of the account a unified-inbox message belongs to. -/
structure AccountSummary where
  id : String
  email : String
  deriving DecidableEq, Repr

/-- A message in the unified inbox with its owning account. -/
structure UnifiedEmail where
  email : Email
  account : AccountSummary
  deriving DecidableEq, Repr

/-- Request body for sending a message. -/
structure SendMailRequest where
  «to» : String
  subject : String
  body : String
  deriving DecidableEq, Repr

/-! ### Reading JSON -/

namespace Json

/-- `Value::get` of a key. -/
def get (key : String) : Json → Option Json
  | .object fields => fields.lookup key
  | _ => none

def asStr : Json → Option String
  | .string s => some s
  | _ => none

def asBool : Json → Option Bool
  | .bool b => some b
  | _ => none

def asArray : Json → Option (List Json)
  | .array items => some items
  | _ => none

/-- A value that may be null. -/
def nullable {α : Type} (decode : Json → Option α) : Json → Option (Option α)
  | .null => some none
  | j => (decode j).map some

/-- A struct of `n` fields is an object, or an array that is not longer. -/
def isStruct (n : Nat) : Json → Bool
  | .object _ => true
  | .array items => items.length ≤ n
  | _ => false

/-- The field of a struct, `absent` where an object lacks it and `short` where an array does. -/
def field {α : Type} (name : String) (index : Nat) (decode : Json → Option α)
    (absent short : Option α) : Json → Option α
  | .object fields => match fields.lookup name with
    | some j => decode j
    | none => absent
  | .array items => match items[index]? with
    | some j => decode j
    | none => short
  | _ => none

def required {α : Type} (name : String) (index : Nat) (decode : Json → Option α) (j : Json) :
    Option α :=
  j.field name index decode none none

def optional {α : Type} (name : String) (index : Nat) (decode : Json → Option α) (j : Json) :
    Option (Option α) :=
  j.field name index (nullable decode) (some none) none

def defaulted {α : Type} (name : String) (index : Nat) (decode : Json → Option α) (default : α)
    (j : Json) : Option α :=
  j.field name index decode (some default) (some default)

end Json

/-! ### Graph messages -/

structure GraphEmailAddress where
  name : Option String
  address : Option String

structure GraphRecipient where
  emailAddress : Option GraphEmailAddress

structure GraphBody where
  content : Option String

structure GraphMessage where
  id : String
  subject : Option String
  «from» : Option GraphRecipient
  toRecipients : List GraphRecipient
  bodyPreview : Option String
  body : Option GraphBody
  receivedDateTime : Option String
  isRead : Bool

def GraphEmailAddress.deserialize (j : Json) : Option GraphEmailAddress := do
  guard (j.isStruct 2)
  let name ← j.optional "name" 0 Json.asStr
  let address ← j.optional "address" 1 Json.asStr
  return { name, address }

def GraphRecipient.deserialize (j : Json) : Option GraphRecipient := do
  guard (j.isStruct 1)
  let emailAddress ← j.optional "emailAddress" 0 GraphEmailAddress.deserialize
  return { emailAddress }

def GraphBody.deserialize (j : Json) : Option GraphBody := do
  guard (j.isStruct 1)
  let content ← j.optional "content" 0 Json.asStr
  return { content }

def GraphMessage.deserialize (j : Json) : Option GraphMessage := do
  guard (j.isStruct 8)
  let id ← j.required "id" 0 Json.asStr
  let subject ← j.optional "subject" 1 Json.asStr
  let «from» ← j.optional "from" 2 GraphRecipient.deserialize
  let toRecipients ← j.defaulted "toRecipients" 3
    (fun j => do (← j.asArray).mapM GraphRecipient.deserialize) []
  let bodyPreview ← j.optional "bodyPreview" 4 Json.asStr
  let body ← j.optional "body" 5 GraphBody.deserialize
  let receivedDateTime ← j.optional "receivedDateTime" 6 Json.asStr
  let isRead ← j.defaulted "isRead" 7 Json.asBool false
  return { id, subject, «from», toRecipients, bodyPreview, body, receivedDateTime, isRead }

/-- The address of a recipient, if it has one. -/
def GraphEmailAddress.toEmailAddress (a : GraphEmailAddress) : Option EmailAddress :=
  a.address.map fun address => { name := a.name, address }

def graphMessageToEmail (value : Json) : Option Email := do
  let message ← GraphMessage.deserialize value
  return {
    id := message.id
    subject := message.subject
    «from» := (message.from.bind GraphRecipient.emailAddress).bind
      GraphEmailAddress.toEmailAddress
    «to» := (message.toRecipients.filterMap GraphRecipient.emailAddress).filterMap
      GraphEmailAddress.toEmailAddress
    bodyPreview := message.bodyPreview
    body := message.body.bind GraphBody.content
    receivedAt := message.receivedDateTime
    isRead := message.isRead }

end UniMail
