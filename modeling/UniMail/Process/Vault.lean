import UniMail.Auth.Callback
import UniMail.Lib.Simulation
import UniMail.Storage.Vault

/-!
# A process over a vault

`vaultMachine` is what the application would do if it kept its secrets in the clear: the operations of
`system` over a `Vault`, without cipher, key and nonces. `system` simulates it (`system_simulates`), so
every run of any programs, interleaved in any way, is a run over the vault with the same replies, and the
other way round (`vault_refines`). Two ciphers, or two keys, cannot be told apart (`cipher_transparent`),
and what was stored is read unless a statement fails (`reads_open`).
-/

namespace UniMail

open Relational Interaction

/-- A statement of the flow store on a flow in the clear. -/
inductive ClearSql
  | purge (cutoff : Int)
  | insertRow (state : String) (flow : PendingFlow)
  | select (state : String)
  | delete (state : String)

/-- What the outside contributes to an operation over a vault. -/
structure VaultEnv where
  now : DateTime
  uuid : String
  pkce : String × String
  csrf : String
  fault : Option String
  flowFault : ClearSql → Option String
  scan : Scan
  token : TokenRequest → Except String TokenResponse
  resolve : String → Result ResolvedIdentity
  graph : GraphRequest → Except String GraphResponse

/-- The vault, and the refresh mutexes. -/
structure VaultWorld where
  vault : Vault
  locks : String → Option (Option ℕ)

/-- A storage operation, unless it fails: then the vault stays as it is. -/
def VaultEnv.storage {α : Type} (env : VaultEnv) (w : VaultWorld) (result : Result α × Vault) :
    Result α × VaultWorld :=
  match env.fault with
  | some msg => (.error (.storage msg), w)
  | none => (result.1, { w with vault := result.2 })

/-- The vault after a flow was to be recorded: each of the two statements may have failed. -/
def VaultEnv.record (env : VaultEnv) (verifier tenantId state : String) (v : Vault) : Vault :=
  let createdAt := unixNow env.now
  let cutoff := createdAt - FLOW_TTL_SECS
  let flow : PendingFlow := ⟨verifier, tenantId, createdAt⟩
  let v := if (env.flowFault (.purge cutoff)).isNone then v.purge cutoff else v
  if (env.flowFault (.insertRow state flow)).isNone then v.insertFlow state flow else v

/-- A flow is consumed and redeemed. -/
def VaultEnv.take (env : VaultEnv) (state : String) (v : Vault) :
    Except FlowError PendingFlow × Vault :=
  match env.flowFault (.select state), v.flowOf state, env.flowFault (.delete state) with
  | some msg, _, _ => (.error (.storage msg), v)
  | none, none, _ => (.error .unknownState, v)
  | none, some _, some msg => (.error (.storage msg), v)
  | none, some flow, none => (Vault.redeem flow (unixNow env.now), v.consume state)

/-- The operations over a vault. -/
def vaultMachine (chrono : Chrono) : Machine AppSig VaultWorld VaultEnv where
  exec i o env w := match o with
    | .accountsCreate account => some (env.storage w (w.vault.create account))
    | .accountsList tenantId => some (env.storage w (.ok (w.vault.list tenantId), w.vault))
    | .accountsGet tenantId id => some (env.storage w (w.vault.get tenantId id, w.vault))
    | .accountsGetByEmail tenantId email =>
      some (env.storage w (w.vault.getByEmail tenantId email, w.vault))
    | .accountsSetStatus tenantId id status =>
      some (env.storage w (w.vault.setStatus tenantId id status (chrono.toRfc3339 env.now)))
    | .accountsDelete tenantId id => some (env.storage w (w.vault.delete tenantId id))
    | .accountsListAll => some (env.storage w (.ok w.vault.listAll, w.vault))
    | .tokensGet accountId =>
      some (env.storage w
        (.ok ((w.vault.tokenOf accountId).map fun t => t.read chrono env.now), w.vault))
    | .tokensUpsert accountId token =>
      some (env.storage w (w.vault.putToken accountId (token.written chrono)))
    | .tokensDelete accountId => some (env.storage w (.ok (), w.vault.dropToken accountId))
    | .tokensListInactive cutoff =>
      some (env.storage w (.ok (w.vault.listInactive env.scan (chrono.toRfc3339 cutoff)), w.vault))
    | .flowsInsert verifier tenantId state =>
      some ((), { w with vault := env.record verifier tenantId state w.vault })
    | .flowsTake state =>
      let result := env.take state w.vault
      some (result.1, { w with vault := result.2 })
    | .accountLock accountId =>
      match w.locks accountId with
      | some _ => some ((), w)
      | none => some ((), { w with locks := Function.update w.locks accountId (some none) })
    | .acquire accountId =>
      match w.locks accountId with
      | some none => some ((), { w with locks := Function.update w.locks accountId (some (some i)) })
      | _ => none
    | .release accountId =>
      some ((), { w with locks := Function.update w.locks accountId (some none) })
    | .token request => some (env.token request, w)
    | .resolve accessToken => some (env.resolve accessToken, w)
    | .graph request => some (env.graph request, w)
    | .utcNow => some (env.now, w)
    | .storageNow => some (chrono.toRfc3339 env.now, w)
    | .newUuid => some (env.uuid, w)
    | .newPkce => some (env.pkce, w)
    | .newCsrf => some (env.csrf, w)

section Clear

variable (aead : Aead) (key : Key)

/-- The statement on the flow as it is stored. -/
def ClearSql.seal (nonce : Nonce) : ClearSql → FlowSql
  | .purge cutoff => .purge cutoff
  | .insertRow state flow =>
    .insertRow ⟨state, encrypt aead key nonce (asBytes flow.verifier), flow.tenantId, flow.createdAt⟩
  | .select state => .select state
  | .delete state => .delete state

/-- The statement on the flow that was stored. -/
def FlowSql.unseal : FlowSql → Option ClearSql
  | .purge cutoff => some (.purge cutoff)
  | .insertRow row =>
    match decrypt aead key row.verifier with
    | .error _ => none
    | .ok bytes => (fromUtf8 bytes).toOption.map fun verifier =>
      .insertRow row.state ⟨verifier, row.tenantId, row.createdAt⟩
  | .select state => some (.select state)
  | .delete state => some (.delete state)
  | _ => none

theorem unseal_seal (nonce : Nonce) (s : ClearSql) : (s.seal aead key nonce).unseal aead key = some s := by
  cases s with
  | insertRow state flow => simp [ClearSql.seal, FlowSql.unseal, decrypt_encrypt, Except.toOption]
  | _ => rfl

/-- The environment without the nonces. -/
def Env.clear (env : Env) : VaultEnv where
  now := env.now
  uuid := env.uuid
  pkce := env.pkce
  csrf := env.csrf
  fault := env.fault
  flowFault s := env.flowFault (s.seal aead key env.nonces.1)
  scan := env.scan
  token := env.token
  resolve := env.resolve
  graph := env.graph

/-- Every environment of a vault is what one of the process leaves in the clear. -/
theorem clear_surjective (env : VaultEnv) : ∃ env' : Env, env'.clear aead key = env := by
  refine ⟨⟨env.now, zeroNonces, env.uuid, env.pkce, env.csrf, env.fault,
    fun sql => (sql.unseal aead key).bind env.flowFault, env.scan, env.token, env.resolve, env.graph⟩, ?_⟩
  have hfault : (fun s : ClearSql => ((s.seal aead key zeroNonces.1).unseal aead key).bind
      env.flowFault) = env.flowFault := by
    funext s
    rw [unseal_seal]
    rfl
  unfold Env.clear
  dsimp only
  rw [hfault]

/-- The process holds what is in the vault. -/
structure World.Holds (w : World) (v : VaultWorld) : Prop where
  db : w.db.Holds aead key v.vault
  locks : w.locks = v.locks

end Clear

/-! ### One operation -/

section Simulate

variable {aead : Aead} {chrono : Chrono} {key : Key} {w : World} {v : VaultWorld} {env : Env}
  (h : w.Holds aead key v)
include h

/-- A statement that matches one on the vault does so where it may fail. -/
theorem World.Holds.storage {α : Type} {result : Result α × Db} {result' : Result α × Vault}
    (hmatch : Matches aead key result result') :
    SameReply (World.Holds aead key) (env.storage w result)
      ((env.clear aead key).storage v result') := by
  unfold Env.storage VaultEnv.storage
  show SameReply _ (match env.fault with | some _ => _ | none => _) (match env.fault with | some _ => _ | none => _)
  cases env.fault with
  | some msg => exact ⟨rfl, h⟩
  | none => exact ⟨hmatch.1, hmatch.2, h.locks⟩

theorem World.Holds.read {α : Type} {r r' : Result α} (hr : r = r') :
    SameReply (World.Holds aead key) (env.storage w (r, w.db))
      ((env.clear aead key).storage v (r', v.vault)) :=
  h.storage ⟨hr, h.db⟩

theorem World.Holds.record (verifier tenantId state : String) :
    { w.db with oauthFlows :=
        FlowStore.afterInsert aead key env.sql verifier tenantId state w.db.oauthFlows }.Holds aead key
      ((env.clear aead key).record verifier tenantId state v.vault) := by
  have hrow : (FlowStore.insertedRow aead key env.sql verifier tenantId state).Holds aead key
      (state, ⟨verifier, tenantId, unixNow env.now⟩) := ⟨rfl, seals_encrypt _ _, rfl, rfl⟩
  have hpurged : ∀ (ran : Bool) (cutoff : Int),
      { w.db with oauthFlows := if ran then purgeFlows cutoff w.db.oauthFlows
          else w.db.oauthFlows }.Holds aead key
        (if ran then v.vault.purge cutoff else v.vault) := by
    intro ran cutoff
    split
    · exact h.db.purge cutoff
    · exact h.db
  have hinserted : ∀ (ran : Bool) {flows : FlowTable} {vault : Vault},
      { w.db with oauthFlows := flows }.Holds aead key vault →
      { w.db with oauthFlows := if ran then (insertFlow (FlowStore.insertedRow aead key env.sql verifier
          tenantId state) flows).2 else flows }.Holds aead key
        (if ran then vault.insertFlow state ⟨verifier, tenantId, unixNow env.now⟩ else vault) := by
    intro ran flows vault hheld
    split
    · exact hheld.insertFlow hrow
    · exact hheld
  exact hinserted _ (hpurged _ _)

theorem World.Holds.take (state : String) :
    (FlowStore.afterTake aead key env.sql state w.db.oauthFlows).1 =
        ((env.clear aead key).take state v.vault).1 ∧
      { w.db with oauthFlows :=
          (FlowStore.afterTake aead key env.sql state w.db.oauthFlows).2 }.Holds aead key
        ((env.clear aead key).take state v.vault).2 := by
  have hfound := h.db.flowRow state
  unfold FlowStore.afterTake VaultEnv.take Vault.flowOf
  generalize w.db.oauthFlows.find state = row at hfound
  generalize v.vault.flows.find? (fun f => f.1 = state) = f at hfound
  -- The faults of the vault are those of the process.
  have hfault : ∀ s : ClearSql, (env.clear aead key).flowFault s =
      env.sql.fault (s.seal aead key env.nonces.1) := fun _ => rfl
  simp only [hfault, ClearSql.seal]
  cases env.sql.fault (.select state) with
  | some msg => exact ⟨rfl, h.db⟩
  | none =>
    cases hfound with
    | none => exact ⟨rfl, h.db⟩
    | some hrow =>
      cases env.sql.fault (.delete state) with
      | some msg => exact ⟨rfl, h.db⟩
      | none => exact ⟨hrow.redeem _, h.db.consume state⟩

end Simulate

/-- **The process does what the vault does.** -/
theorem system_simulates (aead : Aead) (chrono : Chrono) (key : Key) :
    Simulates (system aead chrono key) (vaultMachine chrono) (Env.clear aead key)
      (World.Holds aead key) := by
  intro i o env w v h
  cases o with
  | accountsCreate account => exact .some (h.storage (h.db.create account))
  | accountsList tenantId => exact .some (h.read (congrArg Except.ok (h.db.list tenantId)))
  | accountsGet tenantId id => exact .some (h.read (h.db.get tenantId id))
  | accountsGetByEmail tenantId email => exact .some (h.read (h.db.getByEmail tenantId email))
  | accountsSetStatus tenantId id status => exact .some (h.storage (h.db.setStatus tenantId id status _))
  | accountsDelete tenantId id => exact .some (h.storage (h.db.delete tenantId id))
  | accountsListAll => exact .some (h.read (congrArg Except.ok h.db.listAll))
  | tokensGet accountId => exact .some (h.read (h.db.getToken accountId _))
  | tokensUpsert accountId token => exact .some (h.storage (h.db.putToken accountId token _))
  | tokensDelete accountId => exact .some (h.storage ⟨rfl, h.db.dropToken accountId⟩)
  | tokensListInactive cutoff => exact .some (h.read (congrArg Except.ok (h.db.listInactive env.scan cutoff)))
  | flowsInsert verifier tenantId state =>
    exact .some ⟨rfl, h.record verifier tenantId state, h.locks⟩
  | flowsTake state =>
    obtain ⟨hreply, hheld⟩ := h.take state
    exact .some ⟨hreply, hheld, h.locks⟩
  | accountLock accountId =>
    show Option.Rel _ (match w.locks accountId with | some _ => _ | none => _)
      (match v.locks accountId with | some _ => _ | none => _)
    rw [← h.locks]
    cases w.locks accountId with
    | some holder => exact .some ⟨rfl, h⟩
    | none => exact .some ⟨rfl, h.db, rfl⟩
  | acquire accountId =>
    show Option.Rel _ (match w.locks accountId with | some none => _ | _ => none)
      (match v.locks accountId with | some none => _ | _ => none)
    rw [← h.locks]
    rcases w.locks accountId with _ | _ | holder
    · exact .none
    · exact .some ⟨rfl, h.db, rfl⟩
    · exact .none
  | release accountId =>
    refine .some ⟨rfl, h.db, ?_⟩
    show Function.update w.locks _ _ = Function.update v.locks _ _
    rw [h.locks]
  | _ => exact .some ⟨rfl, h⟩

/-- A token in a vault is read unless the statement fails. -/
theorem VaultEnv.storage_error {α : Type} {env : VaultEnv} {w w' : VaultWorld} {a : α} {v : Vault}
    {err : AppError} (h : env.storage w (.ok a, v) = (.error err, w')) :
    ∃ msg, env.fault = some msg ∧ err = .storage msg := by
  unfold VaultEnv.storage at h
  split at h
  · rename_i msg hfault
    cases h
    exact ⟨msg, hfault, rfl⟩
  · cases h

/-- So is a flow. -/
theorem VaultEnv.take_storage {env : VaultEnv} {state msg : String} {v : Vault}
    (h : (env.take state v).1 = .error (.storage msg)) :
    env.flowFault (.select state) = some msg ∨ env.flowFault (.delete state) = some msg := by
  unfold VaultEnv.take at h
  split at h
  · rename_i hselect
    cases h
    exact Or.inl hselect
  · cases h
  · rename_i hdelete
    cases h
    exact Or.inr hdelete
  · unfold Vault.redeem at h
    split at h <;> cases h

/-! ### Runs -/

section Runs

variable {aead : Aead} {chrono : Chrono} {key : Key} {w : World} {v : VaultWorld} {α : Type}

/-- **The storage is a vault.** Any programs, interleaved in any way, make the same runs over a database
and over the vault that it holds, with the same replies, and it holds the vault afterwards. -/
theorem vault_refines (h : w.Holds aead key v) (pool : List (Prog AppSig α)) :
    (∀ es c, (system aead chrono key).Run ⟨w, pool⟩ es c → ∃ es' v',
      (vaultMachine chrono).Run ⟨v, pool⟩ es' ⟨v', c.pool⟩ ∧
        SameViews (Env.clear aead key) id es es' ∧ c.world.Holds aead key v') ∧
    ∀ es' d, (vaultMachine chrono).Run ⟨v, pool⟩ es' d → ∃ es w',
      (system aead chrono key).Run ⟨w, pool⟩ es ⟨w', d.pool⟩ ∧
        SameViews (Env.clear aead key) id es es' ∧ w'.Holds aead key d.world := by
  have hsimulates := system_simulates aead chrono key
  constructor
  · intro es c hrun
    exact hsimulates.run hrun h
  · intro es' d hrun
    exact hsimulates.run_back (fun e _ => clear_surjective aead key e.env) hrun h

/-- **The cipher cannot be told.** Over databases that hold the same, each under its own cipher and key,
any programs make the same runs, and the databases hold the same afterwards. -/
theorem cipher_transparent {aead' : Aead} {key' : Key} {w' : World} (h : w.Holds aead key v)
    (h' : w'.Holds aead' key' v) {pool : List (Prog AppSig α)} {es : List (Event AppSig World Env α)}
    {c : Cfg AppSig World α} (hrun : (system aead chrono key).Run ⟨w, pool⟩ es c) :
    ∃ es' w₁, (system aead' chrono key').Run ⟨w', pool⟩ es' ⟨w₁, c.pool⟩ ∧
      SameViews (Env.clear aead key) (Env.clear aead' key') es es' ∧
      ∃ v', c.world.Holds aead key v' ∧ w₁.Holds aead' key' v' :=
  (system_simulates aead chrono key).run_across (system_simulates aead' chrono key')
    (clear_surjective aead' key') hrun h h'

/-- **What is stored can be read.** In every run of any programs, a token or a flow that cannot be read is
one whose statement has failed: no secret fails to be opened, and none is no text. -/
theorem reads_open (h : w.Holds aead key v) {pool : List (Prog AppSig α)}
    {es : List (Event AppSig World Env α)} {c : Cfg AppSig World α}
    (hrun : (system aead chrono key).Run ⟨w, pool⟩ es c) {e : Event AppSig World Env α} (he : e ∈ es) :
    (∀ id err, e.call = ⟨.tokensGet id, .error err⟩ →
      ∃ msg, e.env.fault = some msg ∧ err = .storage msg) ∧
    ∀ state msg, e.call = ⟨.flowsTake state, .error (.storage msg)⟩ →
      e.env.flowFault (.select state) = some msg ∨ e.env.flowFault (.delete state) = some msg := by
  have hsimulates := system_simulates aead chrono key
  obtain ⟨past, post, rfl⟩ := List.append_of_mem he
  obtain ⟨hpast, ⟨k, _, hexec, _⟩, _⟩ := hrun.split
  obtain ⟨_, v', _, _, hheld⟩ := hsimulates.run hpast h
  obtain ⟨before, i, env, o, r, after⟩ := e
  dsimp only at hexec hheld
  obtain ⟨_, hvault, _⟩ := hsimulates.exec hheld hexec
  constructor
  · intro id err hcall
    cases hcall
    exact VaultEnv.storage_error (Option.some.inj hvault)
  · intro state msg hcall
    cases hcall
    exact VaultEnv.take_storage (congrArg Prod.fst (Option.some.inj hvault))

end Runs

/-! ### A token that is read -/

/-- A cipher that depends on the key. -/
def Aead.masked : Aead where
  encrypt key _ plaintext := plaintext.map (· + key[0]) ++ List.replicate 16 0
  decrypt key _ sealed := .ok ((sealed.take (sealed.length - 16)).map (· - key[0]))
  decrypt_encrypt key _ plaintext := by simp [Function.comp_def]
  length_encrypt key _ plaintext := by simp

def sampleToken : StoredToken := ⟨"at-0", "rt-0", none, some (Duration.hours 9), none, 0⟩

/-- A vault with the sample account and its token. -/
def sampleVault : VaultWorld where
  vault := ((Vault.empty.create sampleAccount).2.putToken "acc-1" (sampleToken.written (.ofTable firstDay))).2
  locks _ := none

/-- A process that holds it. -/
def keeping (aead : Aead) (key : Key) : World where
  db := (SqliteTokenStore.upsert aead (.ofTable firstDay) key "acc-1" sampleToken zeroNonces
    (SqliteAccountStore.create sampleAccount .empty).2).2
  locks _ := none

theorem keeping_holds (aead : Aead) (key : Key) : (keeping aead key).Holds aead key sampleVault where
  db := ((holds_empty.create sampleAccount).2.putToken "acc-1" sampleToken zeroNonces).2
  locks := rfl

/-- The token is read and marked as used. -/
def reading : Cfg AppSig World (Outcome String) :=
  ⟨keeping .tagged sampleKey, [(TokenManager.getAccessToken sampleOauth "acc-1").run]⟩

def readingSteps : List (ℕ × Env) := List.replicate 5 (0, Env.calm 1 (.error ""))

theorem reading_run : (sampleSystem.replay reading readingSteps).isSome = true := by decide +kernel

/-- When it has been read. -/
def tokenRead : Cfg AppSig World (Outcome String) :=
  ((sampleSystem.replay reading readingSteps).get reading_run).2

theorem vault_refines_reading : ∃ es' v',
    (vaultMachine (.ofTable firstDay)).Run ⟨sampleVault, reading.pool⟩ es' ⟨v', tokenRead.pool⟩ ∧
      tokenRead.returned = [some (.ok "at-0")] ∧ tokenRead.world.Holds .tagged sampleKey v' := by
  have hrun := run_replay reading readingSteps reading_run
  obtain ⟨es', v', hrun', _, hheld⟩ :=
    (vault_refines (keeping_holds .tagged sampleKey) reading.pool).1 _ _ hrun
  exact ⟨es', v', hrun', by decide +kernel, hheld⟩

/-- The process that keeps the token under the other cipher reads it as well. -/
theorem cipher_transparent_masked : ∃ es' w₁,
    (system .masked (.ofTable firstDay) sampleKey).Run ⟨keeping .masked sampleKey, reading.pool⟩ es'
        ⟨w₁, tokenRead.pool⟩ ∧
      tokenRead.returned = [some (.ok "at-0")] ∧
      (keeping .masked sampleKey).db.tokens.rows ≠ reading.world.db.tokens.rows := by
  have hrun := run_replay reading readingSteps reading_run
  obtain ⟨es', w₁, hrun', _⟩ := cipher_transparent (keeping_holds .tagged sampleKey)
    (keeping_holds .masked sampleKey) hrun
  exact ⟨es', w₁, hrun', by decide +kernel, by decide +kernel⟩

/-- Two calls read the token. -/
def readingTwice : Cfg AppSig World (Outcome String) :=
  ⟨keeping .tagged sampleKey, List.replicate 2 (TokenManager.getAccessToken sampleOauth "acc-1").run⟩

/-- The first marks it as used; then the storage fails. -/
def failingSteps : List (ℕ × Env) :=
  readingSteps ++ [(1, { Env.calm 1 (.error "") with fault := some "disk I/O error" })]

theorem failing_run : (sampleSystem.replay readingTwice failingSteps).isSome = true := by decide +kernel

/-- A reply to a read of a token that is an error. -/
def readFailure : Event AppSig World Env α → Option (String × AppError)
  | ⟨_, _, _, .tokensGet id, .error err, _⟩ => some (id, err)
  | _ => none

theorem call_of_readFailure {α : Type} {e : Event AppSig World Env α} {id : String} {err : AppError}
    (h : readFailure e = some (id, err)) : e.call = ⟨.tokensGet id, .error err⟩ := by
  unfold readFailure at h
  split at h
  · cases h
    rfl
  · cases h

theorem reads_open_failing : ∃ es c e, sampleSystem.Run readingTwice es c ∧
    c.returned = [some (.ok "at-0"), some (.error (.err (.storage "disk I/O error")))] ∧
    c.world.db.tokens.rows ≠ readingTwice.world.db.tokens.rows ∧ e ∈ es ∧
    e.call = ⟨.tokensGet "acc-1", .error (.storage "disk I/O error")⟩ ∧
    ∃ msg, e.env.fault = some msg ∧ AppError.storage "disk I/O error" = .storage msg := by
  have hrun := run_replay readingTwice failingSteps failing_run
  have hfailure : ("acc-1", AppError.storage "disk I/O error") ∈
      ((sampleSystem.replay readingTwice failingSteps).get failing_run).1.filterMap readFailure := by
    decide +kernel
  obtain ⟨e, he, hfailed⟩ := List.mem_filterMap.mp hfailure
  have hcall := call_of_readFailure hfailed
  exact ⟨_, _, e, hrun, by decide +kernel, by decide +kernel, he, hcall,
    (reads_open (keeping_holds .tagged sampleKey) hrun he).1 _ _ hcall⟩

end UniMail
