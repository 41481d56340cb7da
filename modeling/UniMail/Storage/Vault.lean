import Mathlib.Data.List.Forall2
import UniMail.Storage.Accounts
import UniMail.Storage.Flows
import UniMail.Storage.Tokens

/-!
# What the storage is for

A `Vault` holds what the application has stored, in the clear: accounts, tokens and pending flows as
lists, without SQL, ciphertexts or nonces. `Holds` relates it to a database whose secrets can be opened
with the key. Every statement of the three stores replies as the vault does and keeps the database
holding it (`Db.Holds.create` and the lemmas after it); so what is read never fails to be opened.
-/

namespace UniMail

open Relational

/-! ### The vault -/

/-- A token in the clear. Its instants are the texts of their columns, by which SQLite compares them. -/
structure ClearToken where
  accessToken : String
  refreshToken : String
  scope : Option String
  expiresAt : Option String
  lastUsedAt : Option String
  updatedAt : String
  deriving DecidableEq, Repr

/-- What is kept: the tokens by account, and the flows by state. -/
structure Vault where
  accounts : List Account
  tokens : List (String × ClearToken)
  flows : List (String × PendingFlow)

section Text

variable (chrono : Chrono)

/-- A token as it is written. -/
def StoredToken.written (token : StoredToken) : ClearToken where
  accessToken := token.accessToken
  refreshToken := token.refreshToken
  scope := token.scope
  expiresAt := token.expiresAt.map chrono.toRfc3339
  lastUsedAt := token.lastUsedAt.map chrono.toRfc3339
  updatedAt := chrono.toRfc3339 token.updatedAt

/-- A token as it is read at `now`. -/
def ClearToken.read (token : ClearToken) (now : DateTime) : StoredToken where
  accessToken := token.accessToken
  refreshToken := token.refreshToken
  scope := token.scope
  expiresAt := token.expiresAt.bind chrono.parseFromRfc3339
  lastUsedAt := token.lastUsedAt.bind chrono.parseFromRfc3339
  updatedAt := (chrono.parseFromRfc3339 token.updatedAt).getD now

end Text

namespace Vault

def empty : Vault := ⟨[], [], []⟩

/-- The account is this one of the tenant. -/
def IsOwned (tenantId id : String) (a : Account) : Prop := a.tenantId = tenantId ∧ a.id = id

instance (tenantId id : String) : DecidablePred (IsOwned tenantId id) :=
  fun a => inferInstanceAs (Decidable (a.tenantId = tenantId ∧ a.id = id))

/-- There is such an account of the tenant. -/
def Owned (v : Vault) (tenantId id : String) : Prop := ∃ a ∈ v.accounts, IsOwned tenantId id a

/-- The id or the mailbox of the account is taken. -/
def Taken (v : Vault) (account : Account) : Prop :=
  ∃ a ∈ v.accounts,
    a.id = account.id ∨ a.tenantId = account.tenantId ∧ a.emailAddress = account.emailAddress

/-- There is an account with the id. -/
def Known (v : Vault) (id : String) : Prop := ∃ a ∈ v.accounts, a.id = id

instance (v : Vault) (tenantId id : String) : Decidable (v.Owned tenantId id) :=
  inferInstanceAs (Decidable (∃ a ∈ v.accounts, _))

instance (v : Vault) (account : Account) : Decidable (v.Taken account) :=
  inferInstanceAs (Decidable (∃ a ∈ v.accounts, _))

instance (v : Vault) (id : String) : Decidable (v.Known id) :=
  inferInstanceAs (Decidable (∃ a ∈ v.accounts, _))

def create (account : Account) (v : Vault) : Result Unit × Vault :=
  if v.Taken account then
    (.error (.invalidRequest
      s!"account {account.emailAddress} is already connected for this tenant"), v)
  else (.ok (), { v with accounts := v.accounts ++ [account] })

def list (tenantId : String) (v : Vault) : List Account :=
  orderByUpdatedDesc (v.accounts.filter fun a => a.tenantId = tenantId)

def get (tenantId id : String) (v : Vault) : Result Account :=
  match v.accounts.find? fun a => IsOwned tenantId id a with
  | some a => .ok a
  | none => .error (.notFound s!"account {id} not found")

def getByEmail (tenantId email : String) (v : Vault) : Result Account :=
  match v.accounts.find? fun a =>
      a.tenantId = tenantId ∧ sqliteLower a.emailAddress = sqliteLower email with
  | some a => .ok a
  | none => .error (.notFound s!"account {email} not found")

def setStatus (tenantId id : String) (status : AccountStatus) (now : String) (v : Vault) :
    Result Unit × Vault :=
  if v.Owned tenantId id then
    (.ok (), { v with
      accounts := v.accounts.map fun a =>
        if IsOwned tenantId id a then { a with status, updatedAt := now } else a })
  else (.error (.notFound s!"account {id} not found"), v)

/-- The tokens go with their accounts. -/
def delete (tenantId id : String) (v : Vault) : Result Bool × Vault :=
  let left := { v with accounts := v.accounts.filter fun a => ¬ IsOwned tenantId id a }
  (.ok (decide (v.Owned tenantId id)),
    { left with tokens := v.tokens.filter fun t => left.Known t.1 })

def listAll (v : Vault) : List Account := orderByUpdatedDesc v.accounts

def tokenOf (accountId : String) (v : Vault) : Option ClearToken :=
  (v.tokens.find? fun t => t.1 = accountId).map Prod.snd

/-- A token that is there keeps its place. -/
def putToken (accountId : String) (token : ClearToken) (v : Vault) : Result Unit × Vault :=
  if v.Known accountId then
    (.ok (), { v with
      tokens := if ∃ t ∈ v.tokens, t.1 = accountId then
          v.tokens.map fun t => if t.1 = accountId then (accountId, token) else t
        else v.tokens ++ [(accountId, token)] })
  else (.error (.storage "FOREIGN KEY constraint failed"), v)

def dropToken (accountId : String) (v : Vault) : Vault :=
  { v with tokens := v.tokens.filter fun t => ¬ t.1 = accountId }

/-- The accounts whose token was not used since the cutoff, as they are found. -/
def listInactive (scan : Scan) (cutoff : String) (v : Vault) : List String :=
  scan.order ((v.tokens.filter fun t => match t.2.lastUsedAt with
    | none => true
    | some s => decide (s < cutoff)).map Prod.fst)

/-- Drop the flows that began at the cutoff or earlier. -/
def purge (cutoff : Int) (v : Vault) : Vault :=
  { v with flows := v.flows.filter fun f => ¬ f.2.createdAt ≤ cutoff }

/-- Keep the flow, unless its state is taken. -/
def insertFlow (state : String) (flow : PendingFlow) (v : Vault) : Vault :=
  if ∃ f ∈ v.flows, f.1 = state then v else { v with flows := v.flows ++ [(state, flow)] }

def consume (state : String) (v : Vault) : Vault :=
  { v with flows := v.flows.filter fun f => ¬ f.1 = state }

def flowOf (state : String) (v : Vault) : Option PendingFlow :=
  (v.flows.find? fun f => f.1 = state).map Prod.snd

/-- A flow that is consumed at Unix time `now`. -/
def redeem (flow : PendingFlow) (now : Int) : Except FlowError PendingFlow :=
  if now - flow.createdAt ≤ FLOW_TTL_SECS then .ok flow else .error .expired

end Vault

/-! ### What a database holds -/

section Holds

variable (aead : Aead) (key : Key)

/-- The data opens to the text. -/
def Seals (data : Bytes) (s : String) : Prop := decrypt aead key data = .ok (asBytes s)

structure TokenRow.Holds (row : TokenRow) (t : String × ClearToken) : Prop where
  accountId : row.accountId = t.1
  access : Seals aead key row.accessTokenEncrypted t.2.accessToken
  refresh : Seals aead key row.refreshTokenEncrypted t.2.refreshToken
  scope : row.scope = t.2.scope
  expiresAt : row.expiresAt = t.2.expiresAt
  lastUsedAt : row.lastUsedAt = t.2.lastUsedAt
  updatedAt : row.updatedAt = t.2.updatedAt

structure FlowRow.Holds (row : FlowRow) (f : String × PendingFlow) : Prop where
  state : row.state = f.1
  verifier : Seals aead key row.verifier f.2.verifier
  tenantId : row.tenantId = f.2.tenantId
  createdAt : row.createdAt = f.2.createdAt

/-- The database holds what is in the vault, row by row. -/
structure Db.Holds (db : Db) (v : Vault) : Prop where
  accounts : db.accounts.rows.map AccountRow.toAccount = v.accounts
  tokens : List.Forall₂ (TokenRow.Holds aead key) db.tokens.rows v.tokens
  flows : List.Forall₂ (FlowRow.Holds aead key) db.oauthFlows.rows v.flows

/-- A statement does to the database what the other does to the vault, and replies the same. -/
def Matches {α : Type} (result : Result α × Db) (result' : Result α × Vault) : Prop :=
  result.1 = result'.1 ∧ result.2.Holds aead key result'.2

variable {aead key}

theorem holds_empty : Db.empty.Holds aead key .empty := ⟨rfl, .nil, .nil⟩

theorem seals_encrypt (nonce : Nonce) (s : String) :
    Seals aead key (encrypt aead key nonce (asBytes s)) s :=
  decrypt_encrypt ..

theorem TokenRow.Holds.of_written (chrono : Chrono) (accountId : String) (nonces : Nonce × Nonce)
    (token : StoredToken) :
    (token.toRow aead chrono key accountId nonces).Holds aead key
      (accountId, token.written chrono) :=
  ⟨rfl, seals_encrypt _ _, seals_encrypt _ _, rfl, rfl, rfl, rfl⟩

/-- A row that is held can be read. -/
theorem TokenRow.Holds.toToken {row : TokenRow} {t : String × ClearToken} (h : row.Holds aead key t)
    (chrono : Chrono) (now : DateTime) : row.toToken aead chrono key now = .ok (t.2.read chrono now) := by
  refine toToken_eq_ok.mpr ⟨_, _, _, _, h.access, h.refresh, fromUtf8_asBytes _, fromUtf8_asBytes _, ?_⟩
  rw [h.scope, h.expiresAt, h.lastUsedAt, h.updatedAt]
  rfl

theorem FlowRow.Holds.redeem {row : FlowRow} {f : String × PendingFlow} (h : row.Holds aead key f)
    (now : Int) : FlowStore.redeem aead key row now = Vault.redeem f.2 now := by
  have hopen : decrypt aead key row.verifier = .ok (asBytes f.2.verifier) := h.verifier
  have hage : saturatingSub now row.createdAt > FLOW_TTL_SECS ↔
      ¬ now - f.2.createdAt ≤ FLOW_TTL_SECS := by
    rw [← h.createdAt, ← saturatingSub_le]
    exact (Int.not_le).symm
  unfold FlowStore.redeem Vault.redeem
  by_cases hlive : now - f.2.createdAt ≤ FLOW_TTL_SECS
  · rw [if_neg (fun hexpired => hage.mp hexpired hlive), if_pos hlive]
    simp [hopen, h.tenantId, h.createdAt, Except.mapError, bind, Except.bind, pure, Except.pure]
  · rw [if_pos (hage.mpr hlive), if_neg hlive]
    rfl

end Holds

/-- What a search finds in lists that are related. -/
theorem forall₂_find {β γ : Type} {R : β → γ → Prop} {l : List β} {l' : List γ} {p : β → Bool}
    {q : γ → Bool} (h : List.Forall₂ R l l') (hpq : ∀ x y, R x y → p x = q y) :
    Option.Rel R (l.find? p) (l'.find? q) := by
  induction h with
  | nil => exact .none
  | @cons x y l l' hxy _ ih =>
    rw [List.find?_cons, List.find?_cons, hpq x y hxy]
    cases q y with
    | true => exact .some hxy
    | false => exact ih

namespace Db.Holds

variable {aead : Aead} {key : Key} {chrono : Chrono} {db : Db} {v : Vault}
  (h : db.Holds aead key v)
include h

/-! ### Accounts -/

/-- What a query selects. -/
theorem query (q : Account → Bool) : (queryAccounts db fun r => q r.toAccount) = v.accounts.filter q := by
  rw [queryAccounts, ← h.accounts, List.filter_map]
  rfl

theorem query_head (q : Account → Bool) :
    (queryAccounts db fun r => q r.toAccount).head? = v.accounts.find? q := by
  rw [h.query, List.head?_filter]

theorem get (tenantId id : String) : SqliteAccountStore.get tenantId id db = v.get tenantId id := by
  have hquery : (queryAccounts db fun r => r.tenantId = tenantId ∧ r.id = id).head? =
      v.accounts.find? fun a => Vault.IsOwned tenantId id a :=
    h.query_head fun a => Vault.IsOwned tenantId id a
  unfold SqliteAccountStore.get Vault.get
  rewrite [hquery]
  rfl

theorem getByEmail (tenantId email : String) :
    SqliteAccountStore.getByEmail tenantId email db = v.getByEmail tenantId email := by
  have hquery : (queryAccounts db fun r =>
        r.tenantId = tenantId ∧ sqliteLower r.emailAddress = sqliteLower email).head? =
      v.accounts.find? fun a =>
        a.tenantId = tenantId ∧ sqliteLower a.emailAddress = sqliteLower email :=
    h.query_head fun a => a.tenantId = tenantId ∧ sqliteLower a.emailAddress = sqliteLower email
  unfold SqliteAccountStore.getByEmail Vault.getByEmail
  rewrite [hquery]
  rfl

theorem list (tenantId : String) : SqliteAccountStore.list tenantId db = v.list tenantId :=
  congrArg orderByUpdatedDesc (h.query fun a => a.tenantId = tenantId)

theorem listAll : SqliteAccountStore.listAll db = v.listAll := by
  apply congrArg orderByUpdatedDesc
  rw [h.query fun _ => true, List.filter_true]

/-- The account rows that have the id. -/
theorem known_iff (id : String) : (db.accounts.find id).isSome = true ↔ v.Known id := by
  rw [Table.find, List.find?_isSome, Vault.Known, ← h.accounts]
  simp

theorem taken_iff (account : Account) : SqliteAccountStore.Conflicts db account ↔ v.Taken account := by
  have hmailbox : account.toRow.mailbox ∈ db.accounts.rows.map AccountRow.mailbox ↔
      ∃ a ∈ v.accounts, a.tenantId = account.tenantId ∧ a.emailAddress = account.emailAddress := by
    rw [← h.accounts]
    simp [AccountRow.mailbox, Account.toRow, AccountRow.toAccount]
  unfold SqliteAccountStore.Conflicts Vault.Taken
  rw [← Option.isSome_iff_ne_none, h.known_iff, hmailbox, Vault.Known, ← exists_or]
  refine exists_congr fun a => ?_
  rw [← and_or_left]

theorem create (account : Account) :
    Matches aead key (SqliteAccountStore.create account db) (v.create account) := by
  unfold SqliteAccountStore.create Vault.create
  by_cases htaken : v.Taken account
  · rw [dif_pos ((h.taken_iff account).mpr htaken), if_pos htaken]
    exact ⟨rfl, h⟩
  · rw [dif_neg fun hc => htaken ((h.taken_iff account).mp hc), if_neg htaken]
    refine ⟨rfl, ?_, h.tokens, h.flows⟩
    show (db.accounts.rows ++ [account.toRow]).map AccountRow.toAccount = _
    rw [List.map_append, h.accounts, List.map_singleton, toAccount_toRow]

theorem owned_iff (tenantId id : String) :
    (queryAccounts db fun r => r.tenantId = tenantId ∧ r.id = id).length ≠ 0 ↔
      v.Owned tenantId id := by
  have hquery : (queryAccounts db fun r => r.tenantId = tenantId ∧ r.id = id) =
      v.accounts.filter fun a => Vault.IsOwned tenantId id a :=
    h.query fun a => Vault.IsOwned tenantId id a
  rw [hquery]
  simp [Vault.Owned, List.filter_eq_nil_iff]

theorem setStatus (tenantId id : String) (status : AccountStatus) (now : String) :
    Matches aead key (SqliteAccountStore.setStatus tenantId id status now db)
      (v.setStatus tenantId id status now) := by
  have howned := h.owned_iff tenantId id
  unfold SqliteAccountStore.setStatus Vault.setStatus
  by_cases hv : v.Owned tenantId id
  · rw [if_neg (howned.mpr hv), if_pos hv]
    refine ⟨rfl, ?_, h.tokens, h.flows⟩
    show (db.accounts.rows.map _).map AccountRow.toAccount = v.accounts.map _
    rw [← h.accounts, List.map_map, List.map_map]
    apply List.map_congr_left
    intro r _
    by_cases hr : r.tenantId = tenantId ∧ r.id = id
    · have hr' : Vault.IsOwned tenantId id r.toAccount := hr
      simp only [Function.comp_apply, if_pos hr, if_pos hr']
      simp [AccountRow.toAccount]
    · have hr' : ¬ Vault.IsOwned tenantId id r.toAccount := hr
      simp only [Function.comp_apply, if_neg hr, if_neg hr']
  · rw [if_pos (not_not.mp fun hne => hv (howned.mp hne)), if_neg hv]
    exact ⟨rfl, h⟩

theorem delete (tenantId id : String) :
    Matches aead key (SqliteAccountStore.delete tenantId id db) (v.delete tenantId id) := by
  have hleft : (SqliteAccountStore.deleteAccount db tenantId id).accounts.rows.map AccountRow.toAccount =
      v.accounts.filter fun a => ¬ Vault.IsOwned tenantId id a := by
    rw [← h.accounts, List.filter_map]
    refine congrArg (List.map _) (List.filter_congr fun r _ => ?_)
    show (!decide (r.tenantId = tenantId ∧ r.id = id)) = decide (¬ (r.tenantId = tenantId ∧ r.id = id))
    rw [decide_not]
  refine ⟨?_, hleft, ?_, h.flows⟩
  · exact congrArg Except.ok (decide_eq_decide.mpr (h.owned_iff tenantId id))
  · refine List.rel_filter (fun row t ht => ?_) h.tokens
    have hfind : ((SqliteAccountStore.deleteAccount db tenantId id).accounts.find t.1).isSome = true ↔
        ∃ a ∈ v.accounts.filter fun a => ¬ Vault.IsOwned tenantId id a, a.id = t.1 := by
      rw [Table.find, List.find?_isSome, ← hleft]
      simp
    show (Table.find _ row.accountId).isSome = true ↔ decide _ = true
    rw [decide_eq_true_eq, ht.accountId]
    exact hfind

/-! ### Tokens -/

theorem tokenRow (accountId : String) :
    Option.Rel (TokenRow.Holds aead key) (db.tokens.find accountId)
      (v.tokens.find? fun t => t.1 = accountId) :=
  forall₂_find h.tokens fun row t ht => by rw [ht.accountId]

theorem tokenRow_isSome (accountId : String) : (db.tokens.find accountId).isSome =
    (v.tokens.find? fun t => t.1 = accountId).isSome := by
  have hrow := h.tokenRow accountId
  generalize db.tokens.find accountId = row at hrow
  generalize v.tokens.find? (fun t => t.1 = accountId) = t at hrow
  cases hrow <;> rfl

theorem getToken (accountId : String) (now : DateTime) :
    SqliteTokenStore.get aead chrono key accountId now db =
      .ok ((v.tokenOf accountId).map fun t => t.read chrono now) := by
  have hrow := h.tokenRow accountId
  unfold SqliteTokenStore.get Vault.tokenOf
  generalize db.tokens.find accountId = row at hrow
  generalize v.tokens.find? (fun t => t.1 = accountId) = t at hrow
  cases hrow with
  | none => rfl
  | some ht =>
    simp only [ht.toToken chrono now, Except.map]
    rfl

theorem putToken (accountId : String) (token : StoredToken) (nonces : Nonce × Nonce) :
    Matches aead key (SqliteTokenStore.upsert aead chrono key accountId token nonces db)
      (v.putToken accountId (token.written chrono)) := by
  have hwritten : (token.toRow aead chrono key accountId nonces).Holds aead key
      (accountId, token.written chrono) := .of_written chrono accountId nonces token
  unfold SqliteTokenStore.upsert Vault.putToken
  by_cases hknown : v.Known accountId
  · have ha : db.accounts.find accountId ≠ none :=
      Option.isSome_iff_ne_none.mp ((h.known_iff accountId).mpr hknown)
    rw [dif_pos ha, if_pos hknown]
    refine ⟨rfl, h.accounts, ?_, h.flows⟩
    have hpresent : (db.tokens.find accountId).isSome = true ↔ ∃ t ∈ v.tokens, t.1 = accountId := by
      rw [h.tokenRow_isSome, List.find?_isSome]
      simp
    have hrows : (db.tokens.upsert (token.toRow aead chrono key accountId nonces)).rows =
        if (db.tokens.find accountId).isSome then db.tokens.rows.map fun x =>
          if x.accountId = accountId then token.toRow aead chrono key accountId nonces else x
        else db.tokens.rows ++ [token.toRow aead chrono key accountId nonces] := Table.rows_upsert ..
    show List.Forall₂ _ (db.tokens.upsert _).rows (if _ then _ else _)
    rw [hrows]
    by_cases hthere : ∃ t ∈ v.tokens, t.1 = accountId
    · rw [if_pos (hpresent.mpr hthere), if_pos hthere]
      refine List.rel_map (fun row t ht => ?_) h.tokens
      rw [ht.accountId]
      show TokenRow.Holds aead key (if t.1 = accountId then _ else _) (if t.1 = accountId then _ else _)
      split
      · exact hwritten
      · exact ht
    · rw [if_neg fun hsome => hthere (hpresent.mp hsome), if_neg hthere]
      exact List.rel_append h.tokens (.cons hwritten .nil)
  · have ha : ¬ db.accounts.find accountId ≠ none := fun hne =>
      hknown ((h.known_iff accountId).mp (Option.isSome_iff_ne_none.mpr hne))
    rw [dif_neg ha, if_neg hknown]
    exact ⟨rfl, h⟩

theorem dropToken (accountId : String) :
    (SqliteTokenStore.deleteRow db accountId).Holds aead key (v.dropToken accountId) := by
  refine ⟨h.accounts, List.rel_filter (fun row t ht => ?_) h.tokens, h.flows⟩
  simp [ht.accountId]

theorem listInactive (scan : Scan) (cutoff : DateTime) :
    SqliteTokenStore.listInactive chrono scan cutoff db =
      v.listInactive scan (chrono.toRfc3339 cutoff) := by
  apply congrArg scan.order
  rw [← List.forall₂_eq_eq_eq]
  refine List.rel_map (fun row t ht => ht.accountId) (List.rel_filter (fun row t ht => ?_) h.tokens)
  dsimp only
  rewrite [ht.lastUsedAt]
  rfl

/-! ### Flows -/

theorem withFlows {flows : FlowTable} {flows' : List (String × PendingFlow)}
    (hflows : List.Forall₂ (FlowRow.Holds aead key) flows.rows flows') :
    { db with oauthFlows := flows }.Holds aead key { v with flows := flows' } :=
  ⟨h.accounts, h.tokens, hflows⟩

theorem purge (cutoff : Int) :
    { db with oauthFlows := purgeFlows cutoff db.oauthFlows }.Holds aead key (v.purge cutoff) := by
  refine h.withFlows (List.rel_filter (fun row f hf => ?_) h.flows)
  simp [hf.createdAt]

theorem consume (state : String) :
    { db with oauthFlows := consumeFlow state db.oauthFlows }.Holds aead key (v.consume state) := by
  refine h.withFlows (List.rel_filter (fun row f hf => ?_) h.flows)
  simp [hf.state]

theorem flowRow (state : String) :
    Option.Rel (FlowRow.Holds aead key) (db.oauthFlows.find state)
      (v.flows.find? fun f => f.1 = state) :=
  forall₂_find h.flows fun row f hf => by rw [hf.state]

theorem insertFlow {row : FlowRow} {state : String} {flow : PendingFlow}
    (hrow : row.Holds aead key (state, flow)) :
    { db with oauthFlows := (UniMail.insertFlow row db.oauthFlows).2 }.Holds aead key
      (v.insertFlow state flow) := by
  have hfound := h.flowRow row.state
  have hstate : row.state = state := hrow.state
  unfold UniMail.insertFlow Vault.insertFlow
  by_cases hthere : ∃ f ∈ v.flows, f.1 = state
  · have hsome : (v.flows.find? fun f => f.1 = row.state).isSome = true := by
      rw [List.find?_isSome]
      simpa [hstate] using hthere
    rw [dif_neg fun hnone => ?_, if_pos hthere]
    · exact h
    · rw [hnone] at hfound
      generalize v.flows.find? (fun f => f.1 = row.state) = f at hfound hsome
      cases hfound
      cases hsome
  · have hnone : v.flows.find? (fun f => f.1 = row.state) = none := by
      rw [List.find?_eq_none]
      intro f hf heq
      exact hthere ⟨f, hf, (of_decide_eq_true heq).trans hstate⟩
    have hfree : db.oauthFlows.find row.state = none := by
      rw [hnone] at hfound
      generalize db.oauthFlows.find row.state = found at hfound
      cases hfound
      rfl
    rw [dif_pos hfree, if_neg hthere]
    exact h.withFlows (List.rel_append h.flows (.cons hrow .nil))

end Db.Holds

end UniMail
