import UniMail.Api.Routes
import UniMail.Auth.Callback
import UniMail.Storage.Tenants

/-!
# Tenant isolation

Token operations have no tenant in their key, so isolation rests on what a handler knows: the monitor
`tenantMonitor` lets it touch the token row or the mutex of an account only after a query for the
tenant has returned this account. In two databases that agree on the rows of the tenant every such
operation gets the same reply (`agrees_tenant`), so the requests of the tenant run in lockstep
(`tenant_isolation`), and no other row changes.
-/

namespace UniMail

open Interaction Relational

variable {aead : Aead} {chrono : Chrono} {key : Key} {graph : MicrosoftGraph} {tenantId : String}
  {α : Type}

/-! ### What a handler may touch -/

/-- The ghost state lists the accounts of the tenant that queries have returned. -/
def tenantMonitor (tenantId : String) : Monitor AppSig (List String) where
  allows known o := match o with
    | .accountsList tenant => tenant = tenantId
    | .accountsGet tenant _ => tenant = tenantId
    | .accountsSetStatus tenant _ _ => tenant = tenantId
    | .tokensGet id => id ∈ known
    | .tokensUpsert id _ => id ∈ known
    | .tokensDelete id => id ∈ known
    | .accountLock id => id ∈ known
    | .acquire id => id ∈ known
    | .release id => id ∈ known
    | .token _ => True
    | .graph _ => True
    | .utcNow => True
    | _ => False
  expects _ o r := match o, r with
    | .accountsGet _ _, .ok account => account.tenantId = tenantId
    | _, _ => True
  next known o r := match o, r with
    | .accountsList _, .ok accounts => accounts.map Account.id ++ known
    | .accountsGet _ _, .ok account => account.id :: known
    | _, _ => known

theorem tenantMonitor_rules (tenantId id : String) :
    TokenRules (tenantMonitor tenantId) id (fun known => id ∈ known) fun known _ => id ∈ known where
  clock _ := ⟨trivial, fun _ => rfl⟩
  lock o ho known h := by
    simp only [List.mem_cons, List.not_mem_nil, or_false] at ho
    rcases ho with rfl | rfl | rfl <;> exact ⟨h, fun _ => rfl⟩
  base _ _ h := h
  get _ h := h
  got _ _ h := h
  read _ _ h := h
  present _ _ _ := trivial
  denied _ _ _ h := h
  granted _ _ _ h := h
  write _ _ h := h
  wrote _ _ _ h := h

theorem silent_graph (request : GraphRequest) : (tenantMonitor tenantId).Silent (.graph request) :=
  fun _ => ⟨trivial, fun _ => rfl⟩

/-! ### The handlers follow the protocol -/

section Protocol

/-- The handler keeps to the accounts of the tenant. -/
abbrev KeepsTo (tenantId : String) (known : List String) (p : Prog AppSig α) : Prop :=
  Follows (tenantMonitor tenantId) (fun _ _ => True) known p

theorem keepsTo_disconnect {account : Account} {known : List String} (hknown : account.id ∈ known)
    (htenant : account.tenantId = tenantId) :
    KeepsTo tenantId known (TokenManager.disconnect account).run := by
  unfold TokenManager.disconnect
  refine follows_op hknown fun r _ => follows_check_bind (fun _ _ => ?_) fun _ _ => trivial
  exact follows_op htenant fun r _ => follows_check (fun _ _ => trivial) fun _ _ => trivial

/-- A handler for one account looks it up among the accounts of the tenant. -/
theorem keepsTo_lookup {id : String} {f : Account → Async α} {known : List String}
    (hf : ∀ account : Account, account.tenantId = tenantId →
      KeepsTo tenantId (account.id :: known) (f account).run) :
    KeepsTo tenantId known (op (.accountsGet tenantId id) >>= fun r => check r >>= f).run := by
  refine follows_op rfl fun r hr => follows_check_bind (fun account hok => ?_) fun _ _ => trivial
  subst hok
  exact hf account hr

theorem keepsTo_of_base {p : Prog AppSig α} {known : List String} (id : String)
    (h : Follows (tenantMonitor tenantId) (fun known _ => id ∈ known) known p) :
    KeepsTo tenantId known p :=
  follows_mono (fun _ _ _ => trivial) h

theorem keepsTo_request {request : ApiRequest} {p : Prog AppSig Response} {known : List String}
    (hprog : request.prog graph tenantId = some p) : KeepsTo tenantId known p := by
  have hrespond : ∀ {β : Type} {x : Async β} {render : β → Response},
      KeepsTo tenantId known x.run →
        KeepsTo tenantId known (do return respond render (← x.run)) := by
    intro β x render hx
    exact (follows_bind _ _ _).mpr (follows_mono (fun _ _ _ => trivial) hx)
  cases request <;> cases hprog <;> refine hrespond ?_
  case listAccounts =>
    exact follows_op rfl fun r _ => follows_check (fun _ _ => trivial) fun _ _ => trivial
  case disconnectAccount id =>
    exact keepsTo_lookup fun account htenant => keepsTo_disconnect List.mem_cons_self htenant
  case listEmails id query =>
    refine keepsTo_lookup fun account _ => keepsTo_of_base account.id ?_
    exact follows_listMessages (tenantMonitor_rules tenantId account.id) silent_graph
      List.mem_cons_self
  case getEmail id messageId =>
    refine keepsTo_lookup fun account _ => keepsTo_of_base account.id ?_
    exact follows_getMessage (tenantMonitor_rules tenantId account.id) silent_graph
      List.mem_cons_self
  case sendEmail id body =>
    refine keepsTo_lookup fun account _ => keepsTo_of_base account.id ?_
    exact follows_sendMessage (tenantMonitor_rules tenantId account.id) silent_graph
      List.mem_cons_self

theorem keepsTo_fetch {account : Account} {limit : Nat} {known : List String}
    (hknown : account.id ∈ known) : KeepsTo tenantId known (fetch graph limit account).run := by
  unfold fetch
  apply (follows_run_bind _ _ _).mpr
  refine (follows_bind _ _ _).mpr (follows_mono (fun known r _ => ?_)
    (follows_listMessages (tenantMonitor_rules tenantId account.id) silent_graph hknown))
  cases r with
  | ok messages => trivial
  | error e => cases e <;> trivial

end Protocol

/-! ### Two databases in lockstep -/

/-- The two databases agree on the rows of the tenant, and the first has changed no other row since
it was `start`. -/
structure Isolated (tenantId : String) (start db db' : Db) : Prop where
  same : SameFor tenantId db db'
  confined : Confined tenantId start db

/-- The two worlds in lockstep, with what the calls know. -/
structure InStep (tenantId : String) (start : Db) (γ : ℕ → List String) (w w' : World) : Prop where
  isolated : Isolated tenantId start w.db w'.db
  locks : w.locks = w'.locks
  known : ∀ i, ∀ id ∈ γ i, Owns w.db tenantId id

section Agree

variable {start : Db} {γ : ℕ → List String} {w w₂ w' : World} {i : ℕ} {env : Env}

/-- A storage operation that does the same in both databases, and only to rows of the tenant. -/
theorem InStep.storage (h : InStep tenantId start γ w w₂) (result result₂ : Result α × Db)
    (hresult : result.1 = result₂.1) (hsame : SameFor tenantId result.2 result₂.2)
    (hconfined : Confined tenantId w.db result.2) {r : Result α}
    (hexec : env.storage w result = (r, w')) :
    ∃ w₂', env.storage w₂ result₂ = (r, w₂') ∧ InStep tenantId start γ w' w₂' := by
  unfold Env.storage at hexec ⊢
  split at hexec
  · cases hexec
    exact ⟨w₂, rfl, h⟩
  · cases hexec
    rw [hresult]
    refine ⟨_, rfl, ⟨hsame, h.isolated.confined.trans hconfined⟩, h.locks, fun j id hid => ?_⟩
    exact (hconfined.owns id).mp (h.known j id hid)

/-- A query does the same in both databases. -/
theorem InStep.query (h : InStep tenantId start γ w w₂) {r r₂ r' : Result α} (hr : r = r₂)
    (hexec : env.storage w (r, w.db) = (r', w')) :
    ∃ w₂', env.storage w₂ (r₂, w₂.db) = (r', w₂') ∧ InStep tenantId start γ w' w₂' ∧ w' = w ∧
      ∀ a, r' = .ok a → r = .ok a := by
  obtain ⟨w₂', hexec₂, h'⟩ := h.storage (r, w.db) (r₂, w₂.db) hr h.isolated.same
    (.refl tenantId w.db) hexec
  refine ⟨w₂', hexec₂, h', storage_read hexec, fun a ha => ?_⟩
  subst ha
  exact (storage_ok hexec).1

/-- The call learns of accounts of the tenant. -/
theorem InStep.learn (h : InStep tenantId start γ w w₂) {known : List String}
    (hknown : ∀ id ∈ known, Owns w.db tenantId id) (i : ℕ) :
    InStep tenantId start (Function.update γ i known) w w₂ := by
  refine ⟨h.isolated, h.locks, fun j id hid => ?_⟩
  by_cases hj : j = i
  · subst hj
    rw [Function.update_self] at hid
    exact hknown id hid
  · rw [Function.update_of_ne hj] at hid
    exact h.known j id hid

/-- **One operation in lockstep**: where the handler may do it, it gets the same reply. -/
theorem agrees_tenant (start : Db) :
    Agrees (system aead chrono key) (tenantMonitor tenantId) (InStep tenantId start) := by
  intro γ i o env r w w₂ w' h hallows hexec
  -- What the call knows changes with a query for accounts only.
  have hsame : ∀ {w' w₂' : World}, InStep tenantId start γ w' w₂' →
      InStep tenantId start (Function.update γ i (γ i)) w' w₂' := by
    intro w' w₂' h'
    rwa [Function.update_eq_self]
  cases o with
  | accountsList tenant =>
    obtain rfl : tenant = tenantId := hallows
    have hlist := congrArg (Except.ok (ε := AppError)) h.isolated.same.list
    obtain ⟨w₂', hexec₂, h', rfl, hok⟩ := h.query hlist (Option.some.inj hexec)
    refine ⟨w₂', congrArg some hexec₂, trivial, ?_⟩
    cases r with
    | error e => exact hsame h'
    | ok accounts =>
      cases hok accounts rfl
      refine h'.learn (fun id hid => ?_) i
      rcases List.mem_append.mp hid with hid | hid
      · obtain ⟨account, haccount, rfl⟩ := List.mem_map.mp hid
        exact owns_of_list haccount
      · exact h'.known i id hid
  | accountsGet tenant id =>
    obtain rfl : tenant = tenantId := hallows
    obtain ⟨w₂', hexec₂, h', rfl, hok⟩ := h.query (h.isolated.same.get id) (Option.some.inj hexec)
    refine ⟨w₂', congrArg some hexec₂, ?_⟩
    cases r with
    | error e => exact ⟨trivial, hsame h'⟩
    | ok account =>
      obtain ⟨howns, htenant⟩ := owns_of_get (hok account rfl)
      refine ⟨htenant, h'.learn (fun id hid => ?_) i⟩
      rcases List.mem_cons.mp hid with rfl | hid
      · exact howns
      · exact h'.known i id hid
  | accountsSetStatus tenant id status =>
    obtain rfl : tenant = tenantId := hallows
    obtain ⟨hresult, hdb⟩ := h.isolated.same.setStatus id status (chrono.toRfc3339 env.now)
    obtain ⟨w₂', hexec₂, h'⟩ :=
      h.storage _ _ hresult hdb (confined_setStatus id status _) (Option.some.inj hexec)
    exact ⟨w₂', congrArg some hexec₂, trivial, hsame h'⟩
  | tokensGet id =>
    have howns := h.known i id hallows
    obtain ⟨w₂', hexec₂, h', _⟩ :=
      h.query (h.isolated.same.tokensGet howns env.now) (Option.some.inj hexec)
    exact ⟨w₂', congrArg some hexec₂, trivial, hsame h'⟩
  | tokensUpsert id token =>
    have howns := h.known i id hallows
    obtain ⟨hresult, hdb⟩ := h.isolated.same.tokensUpsert howns token env.nonces
    obtain ⟨w₂', hexec₂, h'⟩ :=
      h.storage _ _ hresult hdb (confined_tokensUpsert howns token env.nonces) (Option.some.inj hexec)
    exact ⟨w₂', congrArg some hexec₂, trivial, hsame h'⟩
  | tokensDelete id =>
    have howns := h.known i id hallows
    obtain ⟨w₂', hexec₂, h'⟩ := h.storage (SqliteTokenStore.delete id w.db)
      (SqliteTokenStore.delete id w₂.db) rfl
      (h.isolated.same.tokensDelete id) (confined_tokensDelete howns) (Option.some.inj hexec)
    exact ⟨w₂', congrArg some hexec₂, trivial, hsame h'⟩
  | accountLock id =>
    simp only [system] at hexec ⊢
    rw [← h.locks]
    split at hexec <;> cases hexec
    · exact ⟨w₂, rfl, trivial, hsame h⟩
    · exact ⟨_, rfl, trivial, hsame ⟨h.isolated, rfl, h.known⟩⟩
  | acquire id =>
    simp only [system] at hexec ⊢
    rw [← h.locks]
    split at hexec <;> cases hexec
    exact ⟨_, rfl, trivial, hsame ⟨h.isolated, rfl, h.known⟩⟩
  | release id =>
    cases hexec
    refine ⟨_, rfl, trivial, hsame ⟨h.isolated, ?_, h.known⟩⟩
    exact congrArg (fun locks => Function.update locks id (some none)) h.locks
  | token | graph | utcNow =>
    cases hexec
    exact ⟨w₂, rfl, trivial, hsame h⟩
  | _ => exact hallows.elim

end Agree

/-! ### Requests -/

/-- The account id in the path of a request. -/
def ApiRequest.accountId : ApiRequest → Option String
  | .disconnectAccount id => some id
  | .listEmails id _ => some id
  | .getEmail id _ => some id
  | .sendEmail id _ => some id
  | _ => none

/-- The accounts that `list_accounts` returns are known afterwards. -/
theorem follows_listAccounts {known : List String} :
    Follows (tenantMonitor tenantId) (fun known r => ∀ accounts, r = .ok accounts →
      ∀ account ∈ accounts, account.id ∈ known) known (Routes.listAccounts tenantId).run := by
  unfold Routes.listAccounts
  refine follows_op rfl fun r _ => follows_check ?_ fun _ _ _ h => by simp at h
  rintro accounts rfl _ h account haccount
  cases h
  exact List.mem_append_left _ (List.mem_map_of_mem haccount)

theorem keepsTo_fetches {limit : Nat} {accounts : List Account} {known : List String}
    (hknown : ∀ account ∈ accounts, account.id ∈ known) :
    PoolFollows (tenantMonitor tenantId) (fun _ _ => True) (fun _ => known)
      (fetches graph limit accounts) := by
  intro i p hp
  obtain ⟨account, haccount, rfl⟩ := List.mem_map.mp (List.mem_of_getElem? hp)
  exact keepsTo_fetch (hknown account haccount)

theorem joined_congr {c : Cfg AppSig World (Outcome (List UnifiedEmail))}
    {results : Outcome (List (List UnifiedEmail))} (h : Joined c results) (w : World) :
    Joined ⟨w, c.pool⟩ results := by
  cases h with
  | all results h => exact .all results h
  | panic msg h => exact .panic msg h

/-- A request for an account that is not the tenant's stops at the lookup. -/
theorem foreign_lookup {id : String} {db : Db} {locks : String → Option (Option ℕ)}
    (hforeign : ¬ Owns db tenantId id) {f : Account → Async α} {render : α → Response}
    {ls : List (Label AppSig World Env)} {response : Response} {w' : World}
    (h : Exec (system aead chrono key) 0 (do
      return respond render (← (op (.accountsGet tenantId id) >>= fun r => check r >>= f).run))
      ⟨db, locks⟩ ls response w') :
    (∃ e : AppError, (e = .notFound s!"account {id} not found" ∨ ∃ msg, e = .storage msg) ∧
      response = e.intoResponse) ∧ w' = ⟨db, locks⟩ := by
  obtain ⟨env, r, w₁, ls₁, hexec, hrest, _⟩ := exec_call.mp h
  have hget : SqliteAccountStore.get tenantId id db =
      .error (.notFound s!"account {id} not found") := by
    rw [SqliteAccountStore.get_eq]
    cases hr : db.accounts.find id with
    | none => rfl
    | some row => exact if_neg fun htenant => hforeign ⟨row, hr, htenant⟩
  obtain rfl : w₁ = ⟨db, locks⟩ := storage_read (Option.some.inj hexec)
  have hr : ∃ e : AppError, (e = .notFound s!"account {id} not found" ∨ ∃ msg, e = .storage msg) ∧
      r = .error e := by
    rcases storage_eq (Option.some.inj hexec) with ⟨_, msg, hmsg⟩ | ⟨hresult, _⟩
    · exact ⟨_, Or.inr ⟨msg, rfl⟩, hmsg⟩
    · exact ⟨_, Or.inl rfl, hresult.trans hget⟩
  obtain ⟨e, he, rfl⟩ := hr
  obtain ⟨_, rfl, rfl⟩ := exec_ret.mp hrest
  exact ⟨⟨e, he, rfl⟩, rfl⟩

theorem foreign_request {request : ApiRequest} (id : String) (hid : request.accountId = some id)
    {db : Db} {locks : String → Option (Option ℕ)} (hforeign : ¬ Owns db tenantId id)
    {trace : Trace} {response : Response} {w' : World}
    (h : Handles (system aead chrono key) chrono graph tenantId request ⟨db, locks⟩ trace response
      w') :
    (∃ e : AppError, (e = .notFound s!"account {id} not found" ∨ ∃ msg, e = .storage msg) ∧
      response = e.intoResponse) ∧ w' = ⟨db, locks⟩ := by
  cases h with
  | prog hprog hexec =>
    cases request <;> cases hid <;> cases hprog <;> exact foreign_lookup hforeign hexec
  | noInbox _ => simp [ApiRequest.accountId] at hid
  | inbox _ _ _ => simp [ApiRequest.accountId] at hid

/-- **Tenant isolation.** In two databases that agree on the rows of the tenant a request of the
tenant gets the same response, after the same exchanges with the providers, and leaves them in
agreement; it changes no row of another tenant; and an account id that is not the tenant's is not
found, whether another tenant has it or nobody. -/
theorem tenant_isolation {request : ApiRequest} {db db₂ : Db} {locks : String → Option (Option ℕ)}
    (hsame : SameFor tenantId db db₂) {trace : Trace} {response : Response} {w' : World}
    (h : Handles (system aead chrono key) chrono graph tenantId request ⟨db, locks⟩ trace response
      w') :
    (∃ w₂', Handles (system aead chrono key) chrono graph tenantId request ⟨db₂, locks⟩ trace
        response w₂' ∧ SameFor tenantId w'.db w₂'.db) ∧
      SameForOthers tenantId db w'.db ∧
      ∀ id, request.accountId = some id → ¬ Owns db tenantId id →
        (∃ e : AppError, (e = .notFound s!"account {id} not found" ∨ ∃ msg, e = .storage msg) ∧
          response = e.intoResponse) ∧ w' = ⟨db, locks⟩ := by
  have hstart : InStep tenantId db (fun _ => []) ⟨db, locks⟩ ⟨db₂, locks⟩ :=
    ⟨⟨hsame, .refl tenantId db⟩, rfl, by simp⟩
  have hagrees : Agrees (system aead chrono key) (tenantMonitor tenantId) (InStep tenantId db) :=
    agrees_tenant db
  have hforeign := fun id hid hnot => foreign_request id hid hnot h
  have hview : ∀ {ls ls₂ : List (Label AppSig World Env)},
      ls₂.map Label.view = ls.map Label.view →
        ls₂.map (fun l => ((0 : ℕ), l.view)) = ls.map fun l => (0, l.view) := by
    intro ls ls₂ hls
    simpa [List.map_map, Function.comp_def] using congrArg (List.map fun v => ((0 : ℕ), v)) hls
  cases h with
  | prog hprog hexec =>
    obtain ⟨ls₂, w₂', γ', hexec₂, hls, h', _⟩ :=
      hexec.lockstep hagrees hstart (keepsTo_request hprog)
    refine ⟨⟨w₂', ?_, h'.isolated.same⟩, h'.isolated.confined.others, hforeign⟩
    rw [← hview hls]
    exact .prog hprog hexec₂
  | noInbox hlist =>
    obtain ⟨ls₂, w₂', γ', hlist₂, hls, h', _⟩ :=
      hlist.lockstep hagrees hstart follows_listAccounts
    refine ⟨⟨w₂', ?_, h'.isolated.same⟩, h'.isolated.confined.others, hforeign⟩
    rw [← hview hls]
    exact .noInbox hlist₂
  | inbox hlist hrun hjoin =>
    rename_i query w₁ ls accounts es c results
    obtain ⟨ls₂, w₂₁, γ', hlist₂, hls, h', hknown⟩ :=
      hlist.lockstep hagrees hstart follows_listAccounts
    have h'' : InStep tenantId db (fun _ => γ' 0) w₁ w₂₁ :=
      ⟨h'.isolated, h'.locks, fun _ => h'.known 0⟩
    obtain ⟨es₂, w₂', γ₂, hrun₂, hes, hfinal, _⟩ :=
      hrun.lockstep hagrees h'' (keepsTo_fetches (hknown accounts rfl))
    refine ⟨⟨w₂', ?_, hfinal.isolated.same⟩, hfinal.isolated.confined.others, hforeign⟩
    rw [← hview hls, ← hes]
    exact .inbox hlist₂ hrun₂ (joined_congr hjoin w₂')

/-! ### A request in two databases -/

def sampleGraph : MicrosoftGraph where
  baseUrl := "https://graph"
  crates := {
    parseUrl := .ok
    appendPair := fun url key value => url ++ key ++ value
    pushSegment := fun url segment => some (url ++ segment)
    displayStatus := toString
    parseJson := fun _ => .ok .null }
  tokens := sampleOauth

/-- The database with an account of another tenant. -/
def withOtherTenant : Db :=
  (SqliteAccountStore.create { sampleAccount with id := "acc-9", tenantId := "tenant-b" }
    (connected 9).db).2

theorem sameFor_withOtherTenant : SameFor "tenant-a" (connected 9).db withOtherTenant where
  rows := by decide +kernel
  tokens id _ := by
    unfold withOtherTenant SqliteAccountStore.create
    split <;> rfl

/-- The tenant disconnects its account, whether the other tenant is there or not. -/
theorem tenant_isolation_disconnect :
    ∃ trace w' w₂', Handles sampleSystem (.ofTable firstDay) sampleGraph "tenant-a"
        (.disconnectAccount "acc-1") (connected 9) trace (.status 204) w' ∧
      Handles sampleSystem (.ofTable firstDay) sampleGraph "tenant-a"
        (.disconnectAccount "acc-1") ⟨withOtherTenant, (connected 9).locks⟩ trace (.status 204)
        w₂' ∧
      SameFor "tenant-a" w'.db w₂'.db := by
  let env := Env.calm 1 (.error "")
  let p : Prog AppSig Response := do
    return respond (fun _ => .status 204)
      (← (Routes.disconnectAccount "tenant-a" "acc-1").run)
  have hrun : (sampleSystem.runAlone 0 env p (connected 9)).map (fun result => result.2.1) =
      some (.status 204) := by
    decide +kernel
  obtain ⟨⟨ls, response, w'⟩, hrun, rfl⟩ := Option.map_eq_some_iff.mp hrun
  have hexec := exec_of_runAlone hrun
  have h : Handles sampleSystem (.ofTable firstDay) sampleGraph "tenant-a"
      (.disconnectAccount "acc-1") (connected 9) _ (.status 204) _ := .prog rfl hexec
  obtain ⟨⟨w₂', h₂, hsame⟩, _⟩ := tenant_isolation sameFor_withOtherTenant h
  exact ⟨_, _, w₂', h, h₂, hsame⟩

end UniMail
