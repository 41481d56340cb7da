import UniMail.Lib.Monitor
import UniMail.Storage.Accounts
import UniMail.Storage.FlowLifetime
import UniMail.Storage.Tokens

/-!
# What the application calls

The atomic operations of the token manager and the mail provider (`Op`): the statements of the three
stores, the refresh mutexes, the requests to the identity provider and to Graph, the clock and the
random numbers. `system` runs them over a `World`. Everything the world outside decides is in the
`Env` of a step: the clock, the numbers drawn, which storage operation fails, and what the providers
answer to a request.
-/

namespace UniMail

open Interaction

/-- A request to the token endpoint. -/
inductive TokenRequest
  | exchangeCode (code verifier : String)
  | refresh (refreshToken : String)
  deriving DecidableEq, Repr

/-- A token response; `expiresIn` is in seconds. -/
structure TokenResponse where
  accessToken : String
  refreshToken : Option String
  expiresIn : Option Nat
  scopes : Option (List String)
  deriving DecidableEq, Repr

/-- Identity information of a freshly authorized account. -/
structure ResolvedIdentity where
  email : String
  displayName : Option String
  deriving DecidableEq, Repr

/-- `serde_json::Value`. -/
inductive Json
  | null
  | bool (b : Bool)
  | number (text : String)
  | string (s : String)
  | array (items : List Json)
  | object (fields : List (String × Json))

inductive Method
  | GET
  | POST
  deriving DecidableEq, Repr

/-- A request to Graph with its bearer token. -/
structure GraphRequest where
  method : Method
  url : String
  bearer : String
  body : Option Json

/-- The answer of Graph; `text` is `none` when its body cannot be read. -/
structure GraphResponse where
  status : Nat
  text : Option String

inductive Op
  | accountsCreate (account : Account)
  | accountsList (tenantId : String)
  | accountsGet (tenantId id : String)
  | accountsGetByEmail (tenantId email : String)
  | accountsSetStatus (tenantId id : String) (status : AccountStatus)
  | accountsDelete (tenantId id : String)
  | accountsListAll
  | tokensGet (accountId : String)
  | tokensUpsert (accountId : String) (token : StoredToken)
  | tokensDelete (accountId : String)
  | tokensListInactive (cutoff : DateTime)
  | flowsInsert (verifier tenantId state : String)
  | flowsTake (state : String)
  | accountLock (accountId : String)
  | acquire (accountId : String)
  | release (accountId : String)
  | token (request : TokenRequest)
  | resolve (accessToken : String)
  | graph (request : GraphRequest)
  | utcNow
  | storageNow
  | newUuid
  | newPkce
  | newCsrf

abbrev Op.Reply : Op → Type
  | .accountsCreate _ => Result Unit
  | .accountsList _ => Result (List Account)
  | .accountsGet _ _ => Result Account
  | .accountsGetByEmail _ _ => Result Account
  | .accountsSetStatus _ _ _ => Result Unit
  | .accountsDelete _ _ => Result Bool
  | .accountsListAll => Result (List Account)
  | .tokensGet _ => Result (Option StoredToken)
  | .tokensUpsert _ _ => Result Unit
  | .tokensDelete _ => Result Unit
  | .tokensListInactive _ => Result (List String)
  | .flowsInsert _ _ _ => Unit
  | .flowsTake _ => Except FlowError PendingFlow
  | .accountLock _ => Unit
  | .acquire _ => Unit
  | .release _ => Unit
  | .token _ => Except String TokenResponse
  | .resolve _ => Result ResolvedIdentity
  | .graph _ => Except String GraphResponse
  | .utcNow => DateTime
  | .storageNow => String
  | .newUuid => String
  | .newPkce => String × String
  | .newCsrf => String

abbrev AppSig : Signature := ⟨Op, Op.Reply⟩

/-- What the outside contributes to one operation. `fault` is the message of a storage operation
that fails; `pkce` is a fresh challenge with its verifier; `scan` is how SQLite goes through the
tokens. -/
structure Env where
  now : DateTime
  nonces : Nonce × Nonce
  uuid : String
  pkce : String × String
  csrf : String
  fault : Option String
  flowFault : FlowSql → Option String
  scan : Scan
  token : TokenRequest → Except String TokenResponse
  resolve : String → Result ResolvedIdentity
  graph : GraphRequest → Except String GraphResponse

/-- The database, and the refresh mutexes of the process: the entry of an account, once it has one,
and which call holds it. -/
structure World where
  db : Db
  locks : String → Option (Option ℕ)

/-- What a flow store sees of the environment. -/
def Env.sql (env : Env) : SqlEnv := ⟨env.now, env.nonces.1, env.flowFault⟩

/-- A storage operation, unless it fails: then the database stays as it is. -/
def Env.storage {α : Type} (env : Env) (w : World) (result : Result α × Db) : Result α × World :=
  match env.fault with
  | some msg => (.error (.storage msg), w)
  | none => (result.1, { w with db := result.2 })

section System

variable (aead : Aead) (chrono : Chrono) (key : Key)

/-- The operations over the world. Only `acquire` can make a call wait. -/
def system : Machine AppSig World Env where
  exec i o env w := match o with
    | .accountsCreate account => some (env.storage w (SqliteAccountStore.create account w.db))
    | .accountsList tenantId =>
      some (env.storage w (.ok (SqliteAccountStore.list tenantId w.db), w.db))
    | .accountsGet tenantId id =>
      some (env.storage w (SqliteAccountStore.get tenantId id w.db, w.db))
    | .accountsGetByEmail tenantId email =>
      some (env.storage w (SqliteAccountStore.getByEmail tenantId email w.db, w.db))
    | .accountsSetStatus tenantId id status =>
      some (env.storage w
        (SqliteAccountStore.setStatus tenantId id status (chrono.toRfc3339 env.now) w.db))
    | .accountsDelete tenantId id =>
      some (env.storage w (SqliteAccountStore.delete tenantId id w.db))
    | .accountsListAll => some (env.storage w (.ok (SqliteAccountStore.listAll w.db), w.db))
    | .tokensGet accountId =>
      some (env.storage w (SqliteTokenStore.get aead chrono key accountId env.now w.db, w.db))
    | .tokensUpsert accountId token =>
      some (env.storage w (SqliteTokenStore.upsert aead chrono key accountId token env.nonces w.db))
    | .tokensDelete accountId => some (env.storage w (SqliteTokenStore.delete accountId w.db))
    | .tokensListInactive cutoff =>
      some (env.storage w (.ok (SqliteTokenStore.listInactive chrono env.scan cutoff w.db), w.db))
    | .flowsInsert verifier tenantId state =>
      some ((), { w with db := { w.db with
        oauthFlows :=
          FlowStore.afterInsert aead key env.sql verifier tenantId state w.db.oauthFlows } })
    | .flowsTake state =>
      let result := FlowStore.afterTake aead key env.sql state w.db.oauthFlows
      some (result.1, { w with db := { w.db with oauthFlows := result.2 } })
    | .accountLock accountId =>
      match w.locks accountId with
      | some _ => some ((), w)
      | none => some ((), { w with locks := Function.update w.locks accountId (some none) })
    | .acquire accountId =>
      match w.locks accountId with
      | some none => some ((), { w with locks := Function.update w.locks accountId (some (some i)) })
      | _ => none
    | .release accountId =>
      some ((), { w with locks := Function.update w.locks accountId (some none) })
    | .token request => some (env.token request, w)
    | .resolve accessToken => some (env.resolve accessToken, w)
    | .graph request => some (env.graph request, w)
    | .utcNow => some (env.now, w)
    | .storageNow => some (chrono.toRfc3339 env.now, w)
    | .newUuid => some (env.uuid, w)
    | .newPkce => some (env.pkce, w)
    | .newCsrf => some (env.csrf, w)

/-- The two flow operations are the calls of the flow store of one process. -/
theorem exec_flowsInsert (i : ℕ) (env : Env) (w : World) (verifier tenantId state : String) :
    (flowStore aead key).exec i (.insert verifier tenantId state) env.sql w.db.oauthFlows =
      ((system aead chrono key).exec i (.flowsInsert verifier tenantId state) env w).map
        fun r => (r.1, r.2.db.oauthFlows) :=
  FlowStore.runAtomic_insert aead key i env.sql verifier tenantId state w.db.oauthFlows

theorem exec_flowsTake (i : ℕ) (env : Env) (w : World) (state : String) :
    (flowStore aead key).exec i (.take state) env.sql w.db.oauthFlows =
      ((system aead chrono key).exec i (.flowsTake state) env w).map
        fun r => (r.1, r.2.db.oauthFlows) :=
  FlowStore.runAtomic_take aead key i env.sql state w.db.oauthFlows

end System

/-! ### What the operations do -/

section Frame

variable {aead : Aead} {chrono : Chrono} {key : Key} {i : ℕ} {env : Env} {w w' : World}

/-- The operations that can change the database. -/
def Op.writesDb : Op → Bool
  | .accountsCreate _ => true
  | .accountsSetStatus _ _ _ => true
  | .accountsDelete _ _ => true
  | .tokensUpsert _ _ => true
  | .tokensDelete _ => true
  | .flowsInsert _ _ _ => true
  | .flowsTake _ => true
  | _ => false

/-- Those that can change the accounts table. -/
def Op.writesAccounts : Op → Bool
  | .accountsCreate _ => true
  | .accountsSetStatus _ _ _ => true
  | .accountsDelete _ _ => true
  | _ => false

/-- Those that can change the tokens table. -/
def Op.writesTokens : Op → Bool
  | .tokensUpsert _ _ => true
  | .tokensDelete _ => true
  | .accountsDelete _ _ => true
  | _ => false

theorem storage_eq {α : Type} {result : Result α × Db} {r : Result α × World}
    (h : env.storage w result = r) :
    r.2 = w ∧ (∃ msg, r.1 = .error (.storage msg)) ∨
      r.1 = result.1 ∧ r.2 = { w with db := result.2 } := by
  subst h
  unfold Env.storage
  split
  · rename_i msg _
    exact Or.inl ⟨rfl, msg, rfl⟩
  · exact Or.inr ⟨rfl, rfl⟩

/-- A storage operation that succeeds is its statement. -/
theorem storage_ok {α : Type} {result : Result α × Db} {a : α}
    (h : env.storage w result = (.ok a, w')) :
    result.1 = .ok a ∧ w' = { w with db := result.2 } := by
  rcases storage_eq h with ⟨_, msg, hmsg⟩ | ⟨hr, hw⟩
  · simp at hmsg
  · exact ⟨hr.symm, hw⟩

/-- A storage operation whose statement only reads leaves the world as it is. -/
theorem storage_read {α : Type} {r : Result α} {r' : Result α}
    (h : env.storage w (r, w.db) = (r', w')) : w' = w := by
  rcases storage_eq h with ⟨hw, _⟩ | ⟨_, hw⟩ <;> exact hw

theorem utcNow_eq {now : DateTime}
    (h : (system aead chrono key).exec i .utcNow env w = some (now, w')) :
    now = env.now ∧ w' = w := by
  cases h
  exact ⟨rfl, rfl⟩

theorem newUuid_eq {id : String}
    (h : (system aead chrono key).exec i .newUuid env w = some (id, w')) :
    id = env.uuid ∧ w' = w := by
  cases h
  exact ⟨rfl, rfl⟩

theorem token_eq {request : TokenRequest} {r : Except String TokenResponse}
    (h : (system aead chrono key).exec i (.token request) env w = some (r, w')) :
    r = env.token request ∧ w' = w := by
  cases h
  exact ⟨rfl, rfl⟩

/-- The entry of the account is there after `account_lock`, with its holder. -/
theorem accountLock_eq {id : String} {u : Unit}
    (h : (system aead chrono key).exec i (.accountLock id) env w = some (u, w')) :
    w'.db = w.db ∧ w'.locks id = some ((w.locks id).getD none) := by
  simp only [system] at h
  split at h
  · rename_i holder hholder
    cases h
    exact ⟨rfl, by simp [hholder]⟩
  · rename_i hnone
    cases h
    exact ⟨rfl, by simp [hnone]⟩

/-- A mutex that is free can be taken, no other. -/
theorem acquire_iff {id : String} {u : Unit} :
    (system aead chrono key).exec i (.acquire id) env w = some (u, w') ↔
      w.locks id = some none ∧ w' = { w with locks := Function.update w.locks id (some (some i)) } := by
  simp only [system]
  constructor
  · intro h
    split at h
    · rename_i hfree
      cases h
      exact ⟨hfree, rfl⟩
    · cases h
  · rintro ⟨hfree, rfl⟩
    rw [hfree]

theorem acquire_eq {id : String} {u : Unit}
    (h : (system aead chrono key).exec i (.acquire id) env w = some (u, w')) : w'.db = w.db := by
  obtain ⟨_, rfl⟩ := acquire_iff.mp h
  rfl

theorem release_eq {id : String} {u : Unit}
    (h : (system aead chrono key).exec i (.release id) env w = some (u, w')) : w'.db = w.db := by
  cases h
  rfl

/-- The account whose mutex an operation is about. -/
def Op.lock? : Op → Option String
  | .accountLock id => some id
  | .acquire id => some id
  | .release id => some id
  | _ => none

/-- Every other mutex stays as it is. -/
theorem locks_frame {o : Op} {r : Op.Reply o} {id : String} (ho : o.lock? ≠ some id)
    (h : (system aead chrono key).exec i o env w = some (r, w')) : w'.locks id = w.locks id := by
  have hstorage : ∀ {α : Type} {result : Result α × Db} {r : Result α},
      env.storage w result = (r, w') → w'.locks = w.locks := by
    intro α result r h
    rcases storage_eq h with ⟨rfl, _⟩ | ⟨_, rfl⟩ <;> rfl
  cases o with
  | accountLock accountId =>
    have hne : id ≠ accountId := fun heq => ho (congrArg some heq.symm)
    simp only [system] at h
    split at h <;> cases h
    · rfl
    · exact Function.update_of_ne hne ..
  | acquire accountId =>
    have hne : id ≠ accountId := fun heq => ho (congrArg some heq.symm)
    simp only [system] at h
    split at h <;> cases h
    exact Function.update_of_ne hne ..
  | release accountId =>
    have hne : id ≠ accountId := fun heq => ho (congrArg some heq.symm)
    cases h
    exact Function.update_of_ne hne ..
  | flowsInsert | flowsTake | token | resolve | graph | utcNow | storageNow | newUuid | newPkce
  | newCsrf =>
    cases h
    rfl
  | _ => exact congrFun (hstorage (Option.some.inj h)) id

/-- Everything else leaves the database as it is. -/
theorem db_frame {o : Op} {r : Op.Reply o} (ho : o.writesDb = false)
    (h : (system aead chrono key).exec i o env w = some (r, w')) : w'.db = w.db := by
  cases o with
  | accountsList | accountsGet | accountsGetByEmail | accountsListAll | tokensGet
  | tokensListInactive => exact congrArg World.db (storage_read (Option.some.inj h))
  | accountLock accountId => exact (accountLock_eq h).1
  | acquire accountId => exact acquire_eq h
  | release | token | resolve | graph | utcNow | storageNow | newUuid | newPkce | newCsrf =>
    cases h
    rfl
  | _ => simp [Op.writesDb] at ho

/-- A statement that leaves a part of the database as it is does so also where it fails. -/
theorem storage_part {α β : Type} (part : Db → β) {result : Result α × Db} {r : Result α}
    (hpart : part result.2 = part w.db) (h : env.storage w result = (r, w')) :
    part w'.db = part w.db := by
  rcases storage_eq h with ⟨rfl, _⟩ | ⟨_, rfl⟩
  · rfl
  · exact hpart

theorem tokens_frame {o : Op} {r : Op.Reply o} (ho : o.writesTokens = false)
    (h : (system aead chrono key).exec i o env w = some (r, w')) :
    w'.db.tokens = w.db.tokens := by
  by_cases hdb : o.writesDb = false
  · exact congrArg Db.tokens (db_frame hdb h)
  cases o with
  | accountsCreate account =>
    refine storage_part Db.tokens ?_ (Option.some.inj h)
    unfold SqliteAccountStore.create
    split <;> rfl
  | accountsSetStatus tenantId id status =>
    refine storage_part Db.tokens ?_ (Option.some.inj h)
    unfold SqliteAccountStore.setStatus
    split <;> rfl
  | flowsInsert | flowsTake =>
    cases h
    rfl
  | _ => simp_all [Op.writesDb, Op.writesTokens]

theorem accounts_frame {o : Op} {r : Op.Reply o} (ho : o.writesAccounts = false)
    (h : (system aead chrono key).exec i o env w = some (r, w')) :
    w'.db.accounts = w.db.accounts := by
  by_cases hdb : o.writesDb = false
  · exact congrArg Db.accounts (db_frame hdb h)
  cases o with
  | tokensUpsert accountId token =>
    refine storage_part Db.accounts ?_ (Option.some.inj h)
    unfold SqliteTokenStore.upsert
    split <;> rfl
  | tokensDelete accountId => exact storage_part Db.accounts rfl (Option.some.inj h)
  | flowsInsert | flowsTake =>
    cases h
    rfl
  | _ => simp_all [Op.writesDb, Op.writesAccounts]

/-- A successful `upsert` writes the row of an existing account. -/
theorem tokensUpsert_ok {accountId : String} {token : StoredToken}
    (h : (system aead chrono key).exec i (.tokensUpsert accountId token) env w =
      some (.ok (), w')) :
    ∃ ha : w.db.accounts.find accountId ≠ none,
      w'.db = SqliteTokenStore.upsertRow w.db (token.toRow aead chrono key accountId env.nonces) ha
        ∧ w'.locks = w.locks := by
  obtain ⟨hr, rfl⟩ := storage_ok (Option.some.inj h)
  obtain ⟨ha, hdb⟩ := SqliteTokenStore.upsert_ok (Prod.ext hr rfl)
  exact ⟨ha, hdb, rfl⟩

/-- A failed one changes nothing. -/
theorem tokensUpsert_error {accountId : String} {token : StoredToken} {e : AppError}
    (h : (system aead chrono key).exec i (.tokensUpsert accountId token) env w =
      some (.error e, w')) : w' = w := by
  rcases storage_eq (Option.some.inj h) with ⟨hw, _⟩ | ⟨hr, hw⟩
  · exact hw
  · have hdb := SqliteTokenStore.upsert_error (Prod.ext hr.symm rfl)
    exact hw.trans (congrArg (fun db => { w with db }) hdb)

/-- A token that is read is the one in the row. -/
theorem tokensGet_some {accountId : String} {token : StoredToken}
    (h : (system aead chrono key).exec i (.tokensGet accountId) env w =
      some (.ok (some token), w')) :
    w' = w ∧ SqliteTokenStore.get aead chrono key accountId env.now w.db = .ok (some token) := by
  obtain ⟨hr, rfl⟩ := storage_ok (Option.some.inj h)
  exact ⟨rfl, hr⟩

/-- Without a fault the operation is its statement. -/
theorem storage_calm {α : Type} {result : Result α × Db} {r : Result α × World}
    (hcalm : env.fault = none) (h : env.storage w result = r) :
    r.1 = result.1 ∧ r.2 = { w with db := result.2 } := by
  subst h
  simp [Env.storage, hcalm]

/-- A statement with the same result in another world is replied to alike there. -/
theorem storage_lockstep {α : Type} {result result₂ : Result α × Db} {r : Result α} {w₂ : World}
    (hresult : result₂.1 = result.1) (h : env.storage w result = (r, w')) :
    ∃ w₂', env.storage w₂ result₂ = (r, w₂') ∧ (w' = w ∧ w₂' = w₂ ∨
      w' = { w with db := result.2 } ∧ w₂' = { w₂ with db := result₂.2 }) := by
  unfold Env.storage at h ⊢
  split at h
  · cases h
    exact ⟨w₂, rfl, Or.inl ⟨rfl, rfl⟩⟩
  · cases h
    exact ⟨_, Prod.ext hresult rfl, Or.inr ⟨rfl, rfl⟩⟩

/-- Only `acquire` can make a call wait. -/
theorem exec_ne_none {o : Op} (ho : ∀ id, o ≠ .acquire id) :
    (system aead chrono key).exec i o env w ≠ none := by
  cases o with
  | acquire id => exact absurd rfl (ho id)
  | accountLock id =>
    simp only [system]
    split <;> simp
  | _ => simp [system]

end Frame

/-! ### Calls -/

/-- An asynchronous function: it returns, fails or panics. -/
abbrev Async (α : Type) := ExceptT Failure (Prog AppSig) α

/-- Perform an operation and look at its reply. -/
def op (o : Op) : Async (Op.Reply o) := ExceptT.lift (Prog.perform (S := AppSig) o)

/-- The `?` operator. -/
def check {α : Type} (r : Result α) : Async α := ExceptT.mk (.ret (r.mapError .err))

/-- Panic where the value is missing. -/
def orPanic {α : Type} (msg : String) : Option α → Async α
  | some a => pure a
  | none => throw (.panic msg)

section Exec

variable {m : Machine AppSig World Env} {i : ℕ} {w w' : World} {ls : List (Label AppSig World Env)}
  {α β : Type} {r : Outcome β}

theorem exec_op_bind {o : Op} {f : Op.Reply o → Async β}
    (h : Exec m i (op o >>= f).run w ls r w') :
    ∃ env reply w₁ ls₁, m.exec i o env w = some (reply, w₁) ∧ Exec m i (f reply).run w₁ ls₁ r w' ∧
      ls = ⟨o, env, w, reply⟩ :: ls₁ :=
  exec_call.mp h

theorem exec_check {r : Result α} {result : Outcome α} (h : Exec m i (check r).run w ls result w') :
    ls = [] ∧ result = r.mapError .err ∧ w' = w :=
  exec_ret.mp h

theorem exec_check_bind {x : Result α} {f : α → Async β}
    (h : Exec m i (check x >>= f).run w ls r w') :
    (∃ a, x = .ok a ∧ Exec m i (f a).run w ls r w') ∨
      ∃ e, x = .error e ∧ ls = [] ∧ r = .error (.err e) ∧ w' = w := by
  cases x with
  | ok a => exact Or.inl ⟨a, rfl, h⟩
  | error e => exact Or.inr ⟨e, rfl, exec_ret.mp h⟩

theorem exec_orPanic_bind {msg : String} {x : Option α} {f : α → Async β}
    (h : Exec m i (orPanic msg x >>= f).run w ls r w') :
    (∃ a, x = some a ∧ Exec m i (f a).run w ls r w') ∨
      x = none ∧ ls = [] ∧ r = .error (.panic msg) ∧ w' = w := by
  cases x with
  | some a => exact Or.inl ⟨a, rfl, h⟩
  | none => exact Or.inr ⟨rfl, exec_ret.mp h⟩

theorem exec_pure {a : β} (h : Exec m i (pure a : Async β).run w ls r w') :
    ls = [] ∧ r = .ok a ∧ w' = w :=
  exec_ret.mp h

theorem exec_throw {e : Failure} (h : Exec m i (throw e : Async β).run w ls r w') :
    ls = [] ∧ r = .error e ∧ w' = w :=
  exec_ret.mp h

end Exec

section Completes

variable {aead : Aead} {chrono : Chrono} {key : Key} {i : ℕ} {w : World} {α β : Type}
  {Q : Outcome β → World → Prop}

theorem completes_op_bind {o : Op} {f : Op.Reply o → Async β} (ho : ∀ id, o ≠ .acquire id)
    (hf : ∀ env r w', (system aead chrono key).exec i o env w = some (r, w') →
      Completes (system aead chrono key) i (f r).run Q w') :
    Completes (system aead chrono key) i (op o >>= f).run Q w := by
  intro env
  obtain ⟨⟨r, w'⟩, hexec⟩ := Option.ne_none_iff_exists'.mp (exec_ne_none ho)
  exact ⟨r, w', hexec, hf env r w' hexec⟩

theorem completes_check_bind {x : Result α} {f : α → Async β}
    (hok : ∀ a, Completes (system aead chrono key) i (f a).run Q w) (herror : ∀ e, Q (.error e) w) :
    Completes (system aead chrono key) i (check x >>= f).run Q w := by
  cases x with
  | ok a => exact hok a
  | error e => exact herror _

theorem completes_orPanic_bind {msg : String} {x : Option α} {f : α → Async β}
    (hsome : ∀ a, Completes (system aead chrono key) i (f a).run Q w) (herror : ∀ e, Q (.error e) w) :
    Completes (system aead chrono key) i (orPanic msg x >>= f).run Q w := by
  cases x with
  | some a => exact hsome a
  | none => exact herror _

end Completes

section Follows

variable {G α β : Type} {M : Monitor AppSig G} {Q : G → Outcome β → Prop} {g : G}

theorem follows_op {o : Op} {f : Op.Reply o → Async β} (hallows : M.allows g o)
    (hf : ∀ r, M.expects g o r → Follows M Q (M.next g o r) (f r).run) :
    Follows M Q g (op o >>= f).run :=
  ⟨hallows, hf⟩

theorem follows_op_silent {o : Op} {f : Op.Reply o → Async β} (ho : M.SilentAt g o)
    (hf : ∀ r, M.expects g o r → Follows M Q g (f r).run) : Follows M Q g (op o >>= f).run :=
  follows_silent ho hf

theorem follows_check {Q : G → Outcome α → Prop} {r : Result α} (hok : ∀ a, r = .ok a → Q g (.ok a))
    (herror : ∀ e, r = .error e → Q g (.error (.err e))) : Follows M Q g (check r).run := by
  cases r with
  | ok a => exact hok a rfl
  | error e => exact herror e rfl

theorem follows_orPanic_bind {msg : String} {a? : Option α} {f : α → Async β}
    (hsome : ∀ a, a? = some a → Follows M Q g (f a).run) (hpanic : Q g (.error (.panic msg))) :
    Follows M Q g (orPanic msg a? >>= f).run := by
  cases a? with
  | some a => exact hsome a rfl
  | none => exact hpanic

/-- Where the value is there, there is no panic. -/
theorem follows_orPanic_some {msg : String} {a? : Option α} {a : α} {f : α → Async β}
    (ha : a? = some a) (hf : Follows M Q g (f a).run) :
    Follows M Q g (orPanic msg a? >>= f).run := by
  subst ha
  exact hf

theorem follows_check_ok {r : Result α} {a : α} {f : α → Async β} (hr : r = .ok a)
    (hf : Follows M Q g (f a).run) : Follows M Q g (check r >>= f).run := by
  subst hr
  exact hf

theorem follows_check_bind {r : Result α} {f : α → Async β}
    (hok : ∀ a, r = .ok a → Follows M Q g (f a).run)
    (herror : ∀ e, r = .error e → Q g (.error (.err e))) :
    Follows M Q g (check r >>= f).run := by
  cases r with
  | ok a => exact hok a rfl
  | error e => exact herror e rfl

end Follows

end UniMail
