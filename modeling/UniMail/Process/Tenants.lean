import UniMail.Api.Auth
import UniMail.Lib.Unwinding
import UniMail.Process.Walk

/-!
# Tenants do not interfere

The serving process answers API requests behind the gate and redirects to its callback listener, any
number of them at once. `clientMonitor` says what a call may touch when it works for a tenant: the rows
of that tenant, and the token rows and mutexes of accounts it has learnt of. From what one such operation
does (`client_step`) the calls of all other tenants can be dropped from any run: the calls of a tenant
make the same steps, with the same replies, and leave its rows the same (`tenants_apart`).
-/

namespace UniMail

open Interaction Relational

variable {aead : Aead} {chrono : Chrono} {key : Key} {server : MailServer} {config : Config}
  {α : Type}

/-! ### The serving process -/

/-- A call of the serving process: a request to the API with its headers, one of the fetches of an
inbox, or a redirect to the callback listener. -/
inductive Inbound
  | request (headers : Request) (call : ApiRequest)
  | connect (headers : Request)
  | fetch (limit : Nat) (account : Account)
  | callback (params : CallbackParams)

namespace Inbound

/-- The tenant a call works for from its start. A callback does not have one yet. -/
def tenant (config : Config) : Inbound → Option String
  | .request headers _ => (apiKeyMiddleware config headers).toOption
  | .connect headers => (apiKeyMiddleware config headers).toOption
  | .fetch _ account => some account.tenantId
  | .callback _ => none

/-- The protected routes: the gate answers, or the task runs for the tenant it has resolved. -/
def protect (config : Config) (server : MailServer) (headers : Request) (task : String → Task) :
    Prog AppSig TaskReturn :=
  match apiKeyMiddleware config headers with
  | .ok tenantId => (task tenantId).prog server
  | .error (code, message) => .ret (.response (.error code message))

/-- The program of a call. -/
def prog (config : Config) (server : MailServer) : Inbound → Prog AppSig TaskReturn
  | .request headers call => protect config server headers fun tenantId => .request tenantId call
  | .connect headers => protect config server headers .connect
  | .fetch limit account => (Task.fetch limit account).prog server
  | .callback params => (Task.callback params).prog server

/-- The process in the world `w` with the calls. -/
def start (config : Config) (server : MailServer) (calls : List Inbound) (w : World) :
    Cfg AppSig World TaskReturn :=
  ⟨w, calls.map (prog config server)⟩

/-- The threads that work for the tenant. -/
def worksFor (config : Config) (tenantId : String) (calls : List Inbound) (i : ℕ) : Bool :=
  (calls[i]?.bind (tenant config)) = some tenantId

end Inbound

/-! ### What a call for a tenant may touch -/

/-- A call: the tenant it works for, the accounts it has learnt of, and whether it completes a
flow. -/
structure Client where
  tenant : Option String
  known : List String
  consent : Bool

/-- It touches the rows of its tenant. A call that completes a flow works for the tenant of the flow, and
may create an account. -/
def clientMonitor : Monitor AppSig Client where
  allows g o := match o with
    | .accountsCreate account => g.consent = true ∧ g.tenant = some account.tenantId
    | .accountsList tenant => g.tenant = some tenant
    | .accountsGet tenant _ => g.tenant = some tenant
    | .accountsGetByEmail tenant _ => g.tenant = some tenant
    | .accountsSetStatus tenant _ _ => g.tenant = some tenant
    | .tokensGet id => id ∈ g.known
    | .tokensUpsert id _ => id ∈ g.known
    | .tokensDelete id => id ∈ g.known
    | .accountLock id => id ∈ g.known
    | .acquire id => id ∈ g.known
    | .release id => id ∈ g.known
    | .flowsInsert _ tenant _ => g.tenant = some tenant
    | .flowsTake _ => g.consent = true ∧ g.tenant = none
    | .accountsDelete _ _ => False
    | .accountsListAll => False
    | .tokensListInactive _ => False
    | _ => True
  expects g o r := match o, r with
    | .accountsGet _ id, .ok account => account.id = id ∧ g.tenant = some account.tenantId
    | .accountsGetByEmail _ _, .ok account => g.tenant = some account.tenantId
    | _, _ => True
  next g o r := match o, r with
    | .accountsList _, .ok accounts => { g with known := accounts.map Account.id ++ g.known }
    | .accountsGet _ _, .ok account => { g with known := account.id :: g.known }
    | .accountsGetByEmail _ _, .ok account => { g with known := account.id :: g.known }
    | .accountsCreate account, .ok _ => { g with known := account.id :: g.known }
    | .flowsTake _, .ok flow => { g with tenant := some flow.tenantId }
    | _, _ => g

/-- What the call knows of is there, for its tenant. -/
def Client.Knows (g : Client) (db : Db) : Prop :=
  ∀ id ∈ g.known, ∃ tenantId, g.tenant = some tenantId ∧ Owns db tenantId id

/-- What an operation that a call for a tenant may do does to the world. -/
structure ClientStep (g : Client) (o : Op) (r : o.Reply) (w w' : World) : Prop where
  expects : clientMonitor.expects g o r
  same : ∀ tenantId, g.tenant ≠ some tenantId → SameFor tenantId w.db w'.db
  grows : ∀ tenantId id, Owns w.db tenantId id → Owns w'.db tenantId id
  knows : (clientMonitor.next g o r).Knows w'.db
  locks : ∀ id, id ∉ g.known → w'.locks id = w.locks id

section Step

variable {g : Client} {o : Op} {r : o.Reply} {i : ℕ} {env : Env} {w w' : World} {tenantId : String}

theorem Client.Knows.owns (h : g.Knows w.db) (htenant : g.tenant = some tenantId) :
    ∀ id ∈ g.known, Owns w.db tenantId id := by
  intro id hid
  obtain ⟨tenantId', htenant', howns⟩ := h id hid
  obtain rfl := Option.some.inj (htenant.symm.trans htenant')
  exact howns

/-- An operation that leaves the accounts and tokens as they are, and of which the call learns
nothing. -/
theorem ClientStep.of_tables (hknows : g.Knows w.db) (hexpects : clientMonitor.expects g o r)
    (hnext : clientMonitor.next g o r = g) (haccounts : w'.db.accounts = w.db.accounts)
    (htokens : w'.db.tokens = w.db.tokens) (hlocks : ∀ id, id ∉ g.known → w'.locks id = w.locks id) :
    ClientStep g o r w w' where
  expects := hexpects
  same _ _ := sameFor_of_tables haccounts htokens
  grows tenantId id h := ((sameFor_of_tables haccounts htokens).owns id).mp h
  knows := by
    rw [hnext]
    intro id hid
    obtain ⟨tenantId, htenant, howns⟩ := hknows id hid
    exact ⟨tenantId, htenant, ((sameFor_of_tables haccounts htokens).owns id).mp howns⟩
  locks := hlocks

/-- The operations of the handlers, about the rows of one tenant. -/
theorem client_tenant (hknows : g.Knows w.db) (htenant : g.tenant = some tenantId)
    (hallows : (tenantMonitor tenantId).allows g.known o)
    (hexec : (system aead chrono key).exec i o env w = some (r, w')) :
    (tenantMonitor tenantId).expects g.known o r ∧ Confined tenantId w.db w'.db ∧
      ∀ id ∈ (tenantMonitor tenantId).next g.known o r, Owns w'.db tenantId id := by
  have hstep : InStep tenantId w.db (fun _ => g.known) w w :=
    ⟨⟨.refl tenantId w.db, .refl tenantId w.db⟩, rfl, fun _ => hknows.owns htenant⟩
  obtain ⟨w₂', hexec₂, hexpects, h'⟩ := agrees_tenant w.db _ i _ _ _ _ _ _ hstep hallows hexec
  refine ⟨hexpects, h'.isolated.confined, ?_⟩
  have hknown := h'.known i
  rwa [Function.update_self] at hknown

/-- So such an operation is a step of the client. -/
theorem ClientStep.of_tenant (hknows : g.Knows w.db) (htenant : g.tenant = some tenantId)
    (hallows : (tenantMonitor tenantId).allows g.known o)
    (hexpects : clientMonitor.expects g o r)
    (hnext : clientMonitor.next g o r =
      { g with known := (tenantMonitor tenantId).next g.known o r })
    (hlock : ∀ id, o.lock? = some id → id ∈ g.known)
    (hexec : (system aead chrono key).exec i o env w = some (r, w')) : ClientStep g o r w w' := by
  obtain ⟨_, hconfined, hknown⟩ := client_tenant hknows htenant hallows hexec
  have hsame : ∀ tenantId', g.tenant ≠ some tenantId' → SameFor tenantId' w.db w'.db := by
    intro tenantId' hne
    refine hconfined.sameFor ?_
    rintro rfl
    exact hne htenant
  refine ⟨hexpects, hsame, fun tenantId' id howns => ?_, ?_, fun id hid => ?_⟩
  · by_cases h : g.tenant = some tenantId'
    · obtain rfl := Option.some.inj (htenant.symm.trans h)
      exact (hconfined.owns id).mp howns
    · exact ((hsame tenantId' h).owns id).mp howns
  · rw [hnext]
    exact fun id hid => ⟨tenantId, htenant, hknown id hid⟩
  · exact locks_frame (fun h => hid (hlock id h)) hexec

/-- The account of a callback is created. -/
theorem client_create {account : Account} {r : Result Unit} (hknows : g.Knows w.db)
    (htenant : g.tenant = some account.tenantId)
    (hexec : (system aead chrono key).exec i (.accountsCreate account) env w = some (r, w')) :
    ClientStep g (.accountsCreate account) r w w' := by
  have hlocks : ∀ id, id ∉ g.known → w'.locks id = w.locks id :=
    fun id _ => locks_frame (by simp [Op.lock?]) hexec
  rcases storage_eq (Option.some.inj hexec) with ⟨hw, msg, hmsg⟩ | ⟨hr, hw⟩
  · dsimp only at hw hmsg
    subst hw hmsg
    exact .of_tables hknows trivial rfl rfl rfl hlocks
  · dsimp only at hr hw
    subst hr hw
    by_cases hc : SqliteAccountStore.Conflicts w.db account
    · have hcreate : SqliteAccountStore.create account w.db = (.error (.invalidRequest
          s!"account {account.emailAddress} is already connected for this tenant"), w.db) := dif_pos hc
      rw [hcreate] at hlocks ⊢
      exact .of_tables hknows trivial rfl rfl rfl hlocks
    · have hcreate : SqliteAccountStore.create account w.db =
          (.ok (), SqliteAccountStore.insertAccount w.db account hc) := dif_neg hc
      rw [hcreate] at hlocks ⊢
      refine ⟨trivial, fun tenantId hne => ?_, fun _ _ => owns_insertAccount hc, ?_, hlocks⟩
      · refine sameFor_insertAccount hc ?_
        rintro rfl
        exact hne htenant
      · intro id hid
        rcases List.mem_cons.mp hid with rfl | hid
        · refine ⟨_, htenant, account.toRow, ?_, rfl⟩
          exact (SqliteAccountStore.find_insertAccount w.db account hc account.id).trans (if_pos rfl)
        · obtain ⟨tenantId, htenant', howns⟩ := hknows id hid
          exact ⟨tenantId, htenant', owns_insertAccount hc howns⟩

/-- An account is looked up by its email address. -/
theorem client_getByEmail {email : String} {r : Result Account} (hknows : g.Knows w.db)
    (htenant : g.tenant = some tenantId)
    (hexec : (system aead chrono key).exec i (.accountsGetByEmail tenantId email) env w =
      some (r, w')) : ClientStep g (.accountsGetByEmail tenantId email) r w w' := by
  obtain rfl : w' = w := storage_read (Option.some.inj hexec)
  cases r with
  | error e => exact .of_tables hknows trivial rfl rfl rfl fun _ _ => rfl
  | ok account =>
    obtain ⟨row, hrow, hrowTenant, _, rfl⟩ :=
      SqliteAccountStore.getByEmail_ok (storage_ok (Option.some.inj hexec)).1
    refine ⟨?_, fun tenantId _ => .refl tenantId w'.db, fun _ _ h => h, fun id hid => ?_,
      fun _ _ => rfl⟩
    · show g.tenant = some row.toAccount.tenantId
      rw [toAccount_tenantId, hrowTenant, htenant]
    · rcases List.mem_cons.mp hid with rfl | hid
      · exact ⟨tenantId, htenant, row, hrow, hrowTenant⟩
      · exact hknows id hid

theorem known_flowsTake (g : Client) (state : String) (r : Except FlowError PendingFlow) :
    (clientMonitor.next g (.flowsTake state) r).known = g.known := by
  cases r <;> rfl

/-- **One operation of a call for a tenant.** -/
theorem client_step (hknows : g.Knows w.db) (hallows : clientMonitor.allows g o)
    (hexec : (system aead chrono key).exec i o env w = some (r, w')) : ClientStep g o r w w' := by
  -- An operation on a known account is one for the tenant.
  have hknown : ∀ {id}, id ∈ g.known → (∀ tenantId, (tenantMonitor tenantId).allows g.known o) →
      clientMonitor.expects g o r →
      (∀ tenantId, clientMonitor.next g o r =
        { g with known := (tenantMonitor tenantId).next g.known o r }) →
      (∀ id, o.lock? = some id → id ∈ g.known) → ClientStep g o r w w' := by
    intro id hid hallows hexpects hnext hlock
    obtain ⟨tenantId, htenant, _⟩ := hknows id hid
    exact .of_tenant hknows htenant (hallows tenantId) hexpects (hnext tenantId) hlock hexec
  cases o with
  | accountsCreate account => exact client_create hknows hallows.2 hexec
  | accountsList tenant =>
    refine .of_tenant hknows hallows rfl trivial ?_ (by simp [Op.lock?]) hexec
    cases r <;> rfl
  | accountsGet tenant id =>
    refine .of_tenant hknows hallows rfl ?_ ?_ (by simp [Op.lock?]) hexec
    · cases r with
      | error e => trivial
      | ok account =>
        obtain ⟨row, hrow, htenant, rfl⟩ :=
          SqliteAccountStore.get_eq_ok.mp (storage_ok (Option.some.inj hexec)).1
        obtain ⟨_, hid⟩ := Table.find_eq_some.mp hrow
        exact ⟨hid, by rw [toAccount_tenantId, htenant]; exact hallows⟩
    · cases r <;> rfl
  | accountsGetByEmail tenant email => exact client_getByEmail hknows hallows hexec
  | accountsSetStatus tenant id status =>
    exact .of_tenant hknows hallows rfl trivial rfl (by simp [Op.lock?]) hexec
  | tokensGet id =>
    exact hknown hallows (fun _ => hallows) trivial (fun _ => rfl) (by simp [Op.lock?])
  | tokensUpsert id token =>
    exact hknown hallows (fun _ => hallows) trivial (fun _ => rfl) (by simp [Op.lock?])
  | tokensDelete id =>
    exact hknown hallows (fun _ => hallows) trivial (fun _ => rfl) (by simp [Op.lock?])
  | accountLock id =>
    exact hknown hallows (fun _ => hallows) trivial (fun _ => rfl) fun _ h => Option.some.inj h ▸ hallows
  | acquire id =>
    exact hknown hallows (fun _ => hallows) trivial (fun _ => rfl) fun _ h => Option.some.inj h ▸ hallows
  | release id =>
    exact hknown hallows (fun _ => hallows) trivial (fun _ => rfl) fun _ h => Option.some.inj h ▸ hallows
  | flowsInsert verifier tenant state =>
    cases hexec
    exact .of_tables hknows trivial rfl rfl rfl fun _ _ => rfl
  | flowsTake state =>
    cases hexec
    refine ⟨trivial, fun _ _ => sameFor_of_tables rfl rfl, fun _ _ h => h, ?_, fun _ _ => rfl⟩
    -- A call without a tenant knows of no account.
    have hempty : g.known = [] := by
      refine List.eq_nil_iff_forall_not_mem.mpr fun id hid => ?_
      obtain ⟨tenantId, htenant, _⟩ := hknows id hid
      simp [hallows.2] at htenant
    intro id hid
    rw [known_flowsTake, hempty] at hid
    simp at hid
  | token | resolve | graph | utcNow | storageNow | newUuid | newPkce | newCsrf =>
    cases hexec
    exact .of_tables hknows trivial rfl rfl rfl fun _ _ => rfl
  | _ => exact hallows.elim

/-- The ghost state keeps what kind of call it is. -/
theorem next_consent (g : Client) (o : Op) (r : o.Reply) :
    (clientMonitor.next g o r).consent = g.consent := by
  cases o <;> cases r <;> rfl

/-- A call comes to work for a tenant by taking a flow of it. -/
theorem next_tenant (g : Client) (o : Op) (r : o.Reply) :
    (clientMonitor.next g o r).tenant = g.tenant ∨
      ∃ state flow, (⟨o, r⟩ : (o : Op) × o.Reply) = ⟨.flowsTake state, .ok flow⟩ ∧
        (clientMonitor.next g o r).tenant = some flow.tenantId := by
  cases o with
  | flowsTake state =>
    cases r with
    | error e => exact Or.inl rfl
    | ok flow => exact Or.inr ⟨state, flow, rfl, rfl⟩
  | _ => cases r <;> exact Or.inl rfl

end Step

/-! ### The calls follow the protocol -/

section Protocol

variable {tenantId : String} {known : List String}

/-- What keeps to the tenant is a call for it. -/
theorem follows_of_keepsTo {p : Prog AppSig α} (h : KeepsTo tenantId known p) :
    Follows clientMonitor (fun _ _ => True) ⟨some tenantId, known, false⟩ p := by
  let client : List String → Client := fun known => ⟨some tenantId, known, false⟩
  show Follows clientMonitor _ (client known) p
  refine follows_translate (M := tenantMonitor tenantId) (Q := fun _ _ => True) client ?_ ?_ ?_ h
  · intro known o hallows
    cases o with
    | accountsList | accountsGet | accountsSetStatus => exact congrArg some (Eq.symm hallows)
    | tokensGet | tokensUpsert | tokensDelete | accountLock | acquire | release => exact hallows
    | token | graph | utcNow => trivial
    | _ => exact hallows.elim
  · intro known o r hallows hexpects
    cases o with
    | accountsGet tenant id =>
      cases r with
      | error e => trivial
      | ok account => exact (Option.some.inj hexpects.2).symm
    | accountsList => cases r <;> trivial
    | accountsSetStatus | tokensGet | tokensUpsert | tokensDelete | accountLock | acquire | release
    | token | graph | utcNow => trivial
    | _ => exact hallows.elim
  · intro known o r hallows
    cases o with
    | accountsGet | accountsList => cases r <;> rfl
    | accountsSetStatus | tokensGet | tokensUpsert | tokensDelete | accountLock | acquire | release
    | token | graph | utcNow => rfl
    | _ => exact hallows.elim

theorem client_silent {o : Op} (hallows : ∀ g, clientMonitor.allows g o)
    (hnext : ∀ g r, clientMonitor.next g o r = g) : clientMonitor.Silent o :=
  fun g => ⟨hallows g, hnext g⟩

theorem client_beginFlow {oauth : OAuthClient} :
    Follows clientMonitor (fun _ _ => True) ⟨some tenantId, known, false⟩
      (TokenManager.beginFlow oauth tenantId).run := by
  unfold TokenManager.beginFlow OAuthClient.authorizeUrl
  refine (follows_run_bind _ _ _).mpr (follows_op trivial fun _ _ => ?_)
  refine follows_check_bind (fun _ _ => follows_op trivial fun _ _ => ?_) fun _ _ => trivial
  exact follows_op rfl fun _ _ => trivial

/-- How far a callback is, in what its client is. -/
theorem client_flowRules : FlowRules clientMonitor fun g stage => match stage with
    | .start => g.consent = true ∧ g.tenant = none
    | .taken flow => g.consent = true ∧ g.tenant = some flow.tenantId
    | .granted flow _ => g.consent = true ∧ g.tenant = some flow.tenantId
    | .chosen flow _ account =>
      g.consent = true ∧ g.tenant = some flow.tenantId ∧ account.tenantId = flow.tenantId
    | .missing flow _ account =>
      g.consent = true ∧ g.tenant = some flow.tenantId ∧ account.tenantId = flow.tenantId
    | .present _ _ account => account.id ∈ g.known
    | .done _ _ => True
    | .failed => True where
  clock := ⟨client_silent (fun _ => trivial) fun _ _ => rfl,
    client_silent (fun _ => trivial) fun _ _ => rfl⟩
  resolve _ := client_silent (fun _ => trivial) fun _ _ => rfl
  stop _ _ _ _ := trivial
  untaken _ _ _ := trivial
  take g state h := ⟨h, fun r _ => by
    cases r with
    | error e => trivial
    | ok flow => exact ⟨h.1, rfl⟩⟩
  exchange g flow code h := ⟨trivial, fun _ _ => ⟨trivial, fun _ _ _ _ => h⟩⟩
  lookup g flow refreshToken email h := ⟨h.2, fun r hr => by
    cases r with
    | error e => exact h
    | ok existing => exact fun _ _ => ⟨h.1, h.2, (Option.some.inj (h.2.symm.trans hr)).symm⟩⟩
  draw g flow refreshToken h := ⟨trivial, fun _ _ account _ htenant _ => ⟨h.1, h.2, htenant⟩⟩
  ensure g flow refreshToken account h := ⟨h.2.1, fun r hr => by
    cases r with
    | error e => exact h
    | ok found =>
      obtain ⟨hid, _⟩ := hr
      exact List.mem_cons.mpr (Or.inl hid.symm)⟩
  create g flow refreshToken account h := ⟨⟨h.1, by rw [h.2.2]; exact h.2.1⟩, fun r _ => by
    cases r with
    | error e => trivial
    | ok _ => exact List.mem_cons_self⟩
  store g flow account token h := ⟨h, fun r _ => by cases r <;> trivial⟩

theorem client_callback {oauth : OAuthClient} {params : CallbackParams} :
    Follows clientMonitor (fun _ _ => True) ⟨none, [], true⟩ (completeCallback oauth params).run :=
  follows_completeCallback (fun _ => trivial) fun _ _ =>
    follows_mono (fun _ _ _ => trivial) (client_flowRules.follows_completeFlow ⟨rfl, rfl⟩)

theorem client_map {β : Type} {p : Prog AppSig α} {g : Client} (f : α → β)
    (h : Follows clientMonitor (fun _ _ => True) g p) :
    Follows clientMonitor (fun _ _ => True) g (p.map f) :=
  (follows_bind _ _ _).mpr (follows_mono (fun _ _ _ => trivial) h)

end Protocol

namespace Inbound

/-- What a call is at its start. -/
def client (config : Config) : Inbound → Client
  | .request headers _ => ⟨(apiKeyMiddleware config headers).toOption, [], false⟩
  | .connect headers => ⟨(apiKeyMiddleware config headers).toOption, [], false⟩
  | .fetch _ account => ⟨some account.tenantId, [account.id], false⟩
  | .callback _ => ⟨none, [], true⟩

/-- Behind the gate a call works for the tenant the gate has resolved. -/
theorem follows_protect {headers : Request} {task : String → Task}
    (h : ∀ tenantId, Follows clientMonitor (fun _ _ => True) ⟨some tenantId, [], false⟩
      ((task tenantId).prog server)) :
    Follows clientMonitor (fun _ _ => True) ⟨(apiKeyMiddleware config headers).toOption, [], false⟩
      (protect config server headers task) := by
  unfold protect
  cases apiKeyMiddleware config headers with
  | error e => trivial
  | ok tenantId => exact h tenantId

theorem follows_prog (call : Inbound) :
    Follows clientMonitor (fun _ _ => True) (call.client config) (call.prog config server) := by
  cases call with
  | request headers call =>
    refine follows_protect fun tenantId => client_map _ (follows_of_keepsTo ?_)
    cases hprog : call.prog server.graph tenantId with
    | some p => exact keepsTo_request hprog
    | none => exact (follows_bind _ _ _).mpr (follows_mono (fun _ _ _ => trivial) follows_listAccounts)
  | connect headers => exact follows_protect fun tenantId => client_map _ client_beginFlow
  | fetch limit account =>
    exact client_map _ (follows_of_keepsTo (keepsTo_fetch List.mem_cons_self))
  | callback params => exact client_map _ client_callback

end Inbound

/-! ### Two worlds that agree for one tenant -/

/-- The worlds agree on the rows of the tenant and on the mutexes of its accounts. -/
structure Apart (tenantId : String) (w w₂ : World) : Prop where
  same : SameFor tenantId w.db w₂.db
  locks : ∀ id, Owns w.db tenantId id → w.locks id = w₂.locks id

section Unwinding

variable {tenantId : String} {g : Client} {o : Op} {r : o.Reply} {i : ℕ} {env : Env}
  {w w₂ w' : World}

variable (aead chrono key i env w) in
/-- An operation that is not about a mutex does not look at them. -/
theorem exec_relock (ho : o.lock? = none) (locks : String → Option (Option ℕ)) :
    (system aead chrono key).exec i o env ⟨w.db, locks⟩ =
      ((system aead chrono key).exec i o env w).map fun x => (x.1, ⟨x.2.db, locks⟩) := by
  have hstorage : ∀ {β : Type} (result : Result β × Db), some (env.storage ⟨w.db, locks⟩ result) =
      (some (env.storage w result)).map fun x => (x.1, (⟨x.2.db, locks⟩ : World)) := by
    intro β result
    unfold Env.storage
    split <;> rfl
  cases o with
  | accountLock | acquire | release => simp [Op.lock?] at ho
  | flowsInsert | flowsTake | token | resolve | graph | utcNow | storageNow | newUuid | newPkce
  | newCsrf => rfl
  | _ => exact hstorage _

/-- The same mutex changes in the same way. -/
theorem update_agree {locks locks₂ : String → Option (Option ℕ)} {P : String → Prop}
    (h : ∀ id, P id → locks id = locks₂ id) (x : String) (v : Option (Option ℕ)) (id : String)
    (hid : P id) : Function.update locks x v id = Function.update locks₂ x v id := by
  by_cases hx : id = x
  · subst hx
    rw [Function.update_self, Function.update_self]
  · rw [Function.update_of_ne hx, Function.update_of_ne hx]
    exact h id hid

/-- A mutex operation on an account of the tenant. -/
theorem apart_lock {id : String} (h : Apart tenantId w w₂) (howns : Owns w.db tenantId id)
    (ho : o = .accountLock id ∨ o = .acquire id ∨ o = .release id)
    (hexec : (system aead chrono key).exec i o env w = some (r, w')) :
    ∃ w₂', (system aead chrono key).exec i o env w₂ = some (r, w₂') ∧ Apart tenantId w' w₂' := by
  rcases ho with rfl | rfl | rfl
  · simp only [system] at hexec ⊢
    rw [← h.locks id howns]
    split at hexec <;> cases hexec
    · exact ⟨w₂, rfl, h⟩
    · exact ⟨_, rfl, h.same, update_agree h.locks id (some none)⟩
  · simp only [system] at hexec ⊢
    rw [← h.locks id howns]
    split at hexec <;> cases hexec
    exact ⟨_, rfl, h.same, update_agree h.locks id (some (some i))⟩
  · cases hexec
    exact ⟨_, rfl, h.same, update_agree h.locks id (some none)⟩

/-- Any other operation of a handler for the tenant. -/
theorem apart_tenant (h : Apart tenantId w w₂) (hknows : g.Knows w.db)
    (htenant : g.tenant = some tenantId) (hallows : (tenantMonitor tenantId).allows g.known o)
    (hlock : o.lock? = none) (hexec : (system aead chrono key).exec i o env w = some (r, w')) :
    ∃ w₂', (system aead chrono key).exec i o env w₂ = some (r, w₂') ∧ Apart tenantId w' w₂' := by
  have hstep : InStep tenantId w.db (fun _ => g.known) w ⟨w₂.db, w.locks⟩ :=
    ⟨⟨h.same, .refl tenantId w.db⟩, rfl, fun _ => hknows.owns htenant⟩
  obtain ⟨w₂', hexec₂, _, h'⟩ := agrees_tenant w.db _ i _ _ _ _ _ _ hstep hallows hexec
  have hrelock := exec_relock aead chrono key i env ⟨w₂.db, w.locks⟩ hlock w₂.locks
  rw [hexec₂] at hrelock
  refine ⟨⟨w₂'.db, w₂.locks⟩, hrelock, h'.isolated.same, fun id howns => ?_⟩
  have hframe : w'.locks id = w.locks id := locks_frame (by simp [hlock]) hexec
  rw [hframe]
  exact h.locks id ((h'.isolated.confined.owns id).mpr howns)

/-- **An operation of a call for the tenant** gets the same reply in the other world. -/
theorem apart_own (h : Apart tenantId w w₂) (hknows : g.Knows w.db)
    (htenant : g.tenant = some tenantId) (hconsent : g.consent = false)
    (hallows : clientMonitor.allows g o)
    (hexec : (system aead chrono key).exec i o env w = some (r, w')) :
    ∃ w₂', (system aead chrono key).exec i o env w₂ = some (r, w₂') ∧ Apart tenantId w' w₂' := by
  have howns := hknows.owns htenant
  cases o with
  | accountsList tenant | accountsGet tenant id | accountsSetStatus tenant id status =>
    have heq : tenant = tenantId := Option.some.inj (hallows.symm.trans htenant)
    exact apart_tenant h hknows htenant heq rfl hexec
  | tokensGet | tokensUpsert | tokensDelete =>
    exact apart_tenant h hknows htenant hallows rfl hexec
  | token | graph | utcNow => exact apart_tenant h hknows htenant trivial rfl hexec
  | accountLock id => exact apart_lock h (howns id hallows) (Or.inl rfl) hexec
  | acquire id => exact apart_lock h (howns id hallows) (Or.inr (Or.inl rfl)) hexec
  | release id => exact apart_lock h (howns id hallows) (Or.inr (Or.inr rfl)) hexec
  | accountsGetByEmail tenant email =>
    obtain rfl : tenant = tenantId := Option.some.inj (hallows.symm.trans htenant)
    obtain rfl : w' = w := storage_read (Option.some.inj hexec)
    refine ⟨w₂, ?_, h⟩
    have hquery := h.same.getByEmail email
    simp only [system, Env.storage] at hexec ⊢
    split at hexec <;> cases hexec
    · rfl
    · rw [hquery]
  | accountsCreate => simp [clientMonitor, hconsent] at hallows
  | flowsTake => simp [clientMonitor, hconsent] at hallows
  | flowsInsert verifier tenant state =>
    cases hexec
    exact ⟨_, rfl, ⟨h.same.rows, h.same.tokens⟩, h.locks⟩
  | resolve | storageNow | newUuid | newPkce | newCsrf =>
    cases hexec
    exact ⟨w₂, rfl, h⟩
  | _ => exact hallows.elim

end Unwinding

section Apart

variable {tenantId : String}

/-- The two worlds, with what the calls are: those of the tenant, which complete no flow, and the
others. -/
structure KeptApart (tenantId : String) (watched : ℕ → Bool) (γ : ℕ → Client) (w w₂ : World) :
    Prop where
  apart : Apart tenantId w w₂
  own : ∀ i, watched i = true → (γ i).tenant = some tenantId ∧ (γ i).consent = false
  other : ∀ i, watched i = false → (γ i).tenant ≠ some tenantId
  knows : ∀ i, (γ i).Knows w.db

/-- The operation does not take a flow of the tenant. -/
def LeavesFlowsOf (tenantId : String) (o : Op) (r : o.Reply) : Prop :=
  ∀ state flow, (⟨o, r⟩ : (o : Op) × o.Reply) = ⟨.flowsTake state, .ok flow⟩ →
    flow.tenantId ≠ tenantId

/-- What the calls know, after an operation of one of them. -/
theorem knows_update {γ : ℕ → Client} {i : ℕ} {o : Op} {r : o.Reply} {w w' : World}
    (hknows : ∀ j, (γ j).Knows w.db) (hstep : ClientStep (γ i) o r w w') (j : ℕ) :
    (Function.update γ i (clientMonitor.next (γ i) o r) j).Knows w'.db := by
  by_cases hj : j = i
  · subst hj
    rw [Function.update_self]
    exact hstep.knows
  · rw [Function.update_of_ne hj]
    intro id hid
    obtain ⟨tenantId, htenant, howns⟩ := hknows j id hid
    exact ⟨tenantId, htenant, hstep.grows tenantId id howns⟩

/-- A tenant's calls unwind: they get the same replies in both worlds, and the other calls keep the
worlds apart. -/
theorem unwinds_tenant (watched : ℕ → Bool) :
    Unwinds (system aead chrono key) clientMonitor watched (LeavesFlowsOf tenantId)
      (KeptApart tenantId watched) where
  own γ i o env r w w₂ w' hi h hallows hexec := by
    obtain ⟨htenant, hconsent⟩ := h.own i hi
    have hstep := client_step (h.knows i) hallows hexec
    obtain ⟨w₂', hexec₂, hapart⟩ := apart_own h.apart (h.knows i) htenant hconsent hallows hexec
    refine ⟨w₂', hexec₂, hstep.expects, hapart, fun j hj => ?_, fun j hj => ?_,
      knows_update h.knows hstep⟩
    · by_cases heq : j = i
      · subst heq
        rw [Function.update_self]
        refine ⟨?_, (next_consent _ _ _).trans hconsent⟩
        rcases next_tenant (γ j) o r with hnext | ⟨state, flow, hop, _⟩
        · exact hnext.trans htenant
        · cases hop
          simp [clientMonitor, hconsent] at hallows
      · rw [Function.update_of_ne heq]
        exact h.own j hj
    · have hne : j ≠ i := by
        rintro rfl
        simp [hi] at hj
      rw [Function.update_of_ne hne]
      exact h.other j hj
  other γ i o env r w w₂ w' hi h hallows hleaves hexec := by
    have hstep := client_step (h.knows i) hallows hexec
    have hsame := hstep.same tenantId (h.other i hi)
    refine ⟨hstep.expects, ⟨hsame.symm.trans h.apart.same, fun id howns => ?_⟩, fun j hj => ?_,
      fun j hj => ?_, knows_update h.knows hstep⟩
    · -- The call does not know of an account of the tenant.
      have howns' : Owns w.db tenantId id := (hsame.owns id).mpr howns
      have hunknown : id ∉ (γ i).known := by
        intro hid
        obtain ⟨tenantId', htenant, howns₂⟩ := h.knows i id hid
        obtain rfl := owns_unique howns' howns₂
        exact h.other i hi htenant
      rw [hstep.locks id hunknown]
      exact h.apart.locks id howns'
    · have hne : j ≠ i := by
        rintro rfl
        simp [hi] at hj
      rw [Function.update_of_ne hne]
      exact h.own j hj
    · by_cases heq : j = i
      · subst heq
        rw [Function.update_self]
        rcases next_tenant (γ j) o r with hnext | ⟨state, flow, hop, hnext⟩
        · rw [hnext]
          exact h.other j hj
        · rw [hnext]
          exact fun hsome => hleaves state flow hop (Option.some.inj hsome)
      · rw [Function.update_of_ne heq]
        exact h.other j hj

end Apart

namespace Inbound

variable {tenantId : String} {calls calls₂ : List Inbound}

/-- What the call of a thread is at its start. -/
def clients (config : Config) (calls : List Inbound) (i : ℕ) : Client :=
  (calls[i]?.map (client config)).getD ⟨none, [], true⟩

theorem clients_eq {i : ℕ} {call : Inbound} (h : calls[i]? = some call) :
    clients config calls i = call.client config := by
  rw [clients, h]
  rfl

/-- Every call of the pool follows the protocol from what it is at its start. -/
theorem follows_start {w : World} :
    PoolFollows clientMonitor (fun _ _ => True) (clients config calls)
      (start config server calls w).pool := by
  intro i p hp
  rw [start, List.getElem?_map] at hp
  obtain ⟨call, hcall, rfl⟩ := Option.map_eq_some_iff.mp hp
  rw [clients_eq hcall]
  exact call.follows_prog

/-- The threads of the tenant are the calls for it, and these complete no flow. -/
theorem clients_own {i : ℕ} (h : worksFor config tenantId calls i = true) :
    (clients config calls i).tenant = some tenantId ∧ (clients config calls i).consent = false := by
  obtain ⟨call, hcall, htenant⟩ := Option.bind_eq_some_iff.mp (of_decide_eq_true h)
  rw [clients_eq hcall]
  cases call with
  | callback => simp [tenant] at htenant
  | _ => exact ⟨htenant, rfl⟩

theorem clients_other {i : ℕ} (h : worksFor config tenantId calls i = false) :
    (clients config calls i).tenant ≠ some tenantId := by
  have hne := of_decide_eq_false h
  cases hcall : calls[i]? with
  | none => simp [clients, hcall]
  | some call =>
    rw [hcall] at hne
    rw [clients_eq hcall]
    cases call with
    | callback => simp [client]
    | _ => exact hne

/-- At the start a call knows of the account it fetches for, if any. -/
theorem clients_knows {db : Db}
    (hfetch : ∀ limit account, .fetch limit account ∈ calls → Owns db account.tenantId account.id)
    (i : ℕ) : (clients config calls i).Knows db := by
  intro id hid
  cases hcall : calls[i]? with
  | none => simp [clients, hcall] at hid
  | some call =>
    rw [clients_eq hcall] at hid ⊢
    cases call with
    | fetch limit account =>
      obtain rfl := List.mem_singleton.mp hid
      exact ⟨account.tenantId, rfl, hfetch limit account (List.mem_of_getElem? hcall)⟩
    | _ => simp [client] at hid

def twoTenants : Config := ⟨Config.apiKeysFromEnv (some "a=tenant-a,b=tenant-b"), "default"⟩

/-- `DELETE /accounts/{id}` with an `X-API-Key`. -/
def disconnectWith (apiKey : Char) (id : String) : Inbound :=
  .request ⟨none, some [apiKey.toNat.toUInt8]⟩ (.disconnectAccount id)

def bothDisconnect : List Inbound := [disconnectWith 'a' "acc-1", disconnectWith 'b' "acc-9"]

def bothStart : Cfg AppSig World TaskReturn :=
  start twoTenants sampleMailServer bothDisconnect ⟨withOtherTenant, (connected 9).locks⟩

/-- The two requests are served in turn. -/
def inTurn : List (ℕ × Env) := [0, 1, 0, 1, 1, 0].map fun i => (i, Env.calm 1 (.error ""))

/-- Whether the operation takes a flow. -/
def TakesFlow : Op → Bool
  | .flowsTake _ => true
  | _ => false

theorem inTurn_run : (sampleSystem.replay bothStart inTurn).isSome = true := by decide +kernel

theorem inTurn_leavesFlows :
    ∀ e ∈ ((sampleSystem.replay bothStart inTurn).get inTurn_run).1,
      LeavesFlowsOf "tenant-a" e.op e.reply := by
  have hno : (((sampleSystem.replay bothStart inTurn).get inTurn_run).1.all fun e =>
      !TakesFlow e.op) = true := by
    decide +kernel
  intro e he state flow hop
  have htake := List.all_eq_true.mp hno e he
  rw [(Sigma.mk.inj hop).1] at htake
  cases htake

end Inbound

end UniMail
