import UniMail.Auth.OAuth

/-!
# Token lifecycle management

The functions of `TokenManager` as programs over the operations of `Service`. `Call` gathers the
calls of the manager that run concurrently, so that a pool of any of them is a configuration of
`system`.
-/

namespace UniMail

open Interaction

/-- How far ahead of `expires_at` a cached token is considered expired. -/
def EXPIRY_SKEW : Duration := Duration.minutes 5

/-- How often to bump `last_used_at` on a cache hit. -/
def USAGE_WRITE_INTERVAL : Duration := Duration.hours 6

/-- `Utc::now() + d`. -/
def nowPlus (d : Duration) : Async DateTime := do
  let now ← op .utcNow
  orPanic "`DateTime + TimeDelta` overflowed" (now.checkedAdd d)

/-- Run `body` and release the refresh mutex however it ends. -/
def guarded {α : Type} (accountId : String) (body : Async α) : Async α := ExceptT.mk do
  let result ← body.run
  let _ ← Prog.perform (S := AppSig) (.release accountId)
  return result

/-- The result of a call that may fail, where a panic goes on. -/
def outcome {α : Type} (body : Async α) : Async (Result α) := ExceptT.mk do
  match ← body.run with
  | .ok a => return .ok (.ok a)
  | .error (.err e) => return .ok (.error e)
  | .error (.panic msg) => return .error (.panic msg)

/-- Sentinel account used when even listing accounts fails in `refreshAll`. -/
def dummyAccount : Account where
  id := ""
  tenantId := ""
  emailAddress := "unknown"
  displayName := none
  provider := "microsoft"
  status := .active
  createdAt := ""
  updatedAt := ""

/-- What `complete_flow` makes of the error of `take`. -/
def FlowError.toAppError : FlowError → AppError
  | .unknownState => .auth "unknown or already-used state"
  | .expired => .auth "authorization flow expired"
  | .storage msg => .storage msg

/-- The error of an account without a token row. -/
def notConnected : AppError := .tokenExpired "account is not connected (no token stored)"

/-- The token record of a token set, with the clock read for `last_used_at` and `updated_at`. -/
def storedToken (tokenSet : TokenSet) (refreshToken : String) (lastUsedAt updatedAt : DateTime) :
    StoredToken where
  accessToken := tokenSet.accessToken
  refreshToken
  scope := tokenSet.scopes.map (" ".intercalate ·)
  expiresAt := tokenSet.expiresAt
  lastUsedAt := some lastUsedAt
  updatedAt

namespace TokenManager

/-- Write the record back with the present time. -/
def writeUsage (accountId : String) (token : StoredToken) : Async Unit := do
  let lastUsedAt ← op .utcNow
  let updatedAt ← op .utcNow
  let _ ← op (.tokensUpsert accountId { token with lastUsedAt := some lastUsedAt, updatedAt })
  return ()

/-- Best-effort activity bump so idle accounts are not needlessly renewed. -/
def bumpLastUsed (accountId : String) (token : StoredToken) : Async Unit := do
  match token.lastUsedAt with
  | none => writeUsage accountId token
  | some last =>
    let now ← op .utcNow
    if now - last > USAGE_WRITE_INTERVAL then writeUsage accountId token
    else return ()

variable (oauth : OAuthClient)

/-- Begin an OAuth flow for a tenant and return the consent URL to open. -/
def beginFlow (tenantId : String) : Async ConsentUrl := do
  let (authUrl, verifier, state) ← oauth.authorizeUrl
  op (.flowsInsert verifier tenantId state)
  return authUrl

/-- The account of a completed flow: the existing one of that email, or a new one. -/
def flowAccount (tenantId : String) (identity : ResolvedIdentity) : Async Account := do
  match ← op (.accountsGetByEmail tenantId identity.email) with
  | .ok existing =>
    -- Re-consent: reuse the account id.
    let updatedAt ← op .storageNow
    return { existing with displayName := identity.displayName, status := .active, updatedAt }
  | .error (.notFound _) =>
    let id ← op .newUuid
    let createdAt ← op .storageNow
    let updatedAt ← op .storageNow
    return {
      id
      tenantId
      emailAddress := identity.email
      displayName := identity.displayName
      provider := "microsoft"
      status := .active
      createdAt
      updatedAt }
  | .error e => throw (.err e)

/-- Insert the account unless its id is there. -/
def ensureAccount (tenantId : String) (account : Account) : Async Unit := do
  match ← op (.accountsGet tenantId account.id) with
  | .ok _ => return ()
  | .error _ => check (← op (.accountsCreate account))

/-- `complete_flow` once the tokens are there: resolve the identity, then insert or update the
account and persist the token. -/
def connect (tenantId : String) (tokenSet : TokenSet) (refreshToken : String) : Async Account := do
  let identity ← check (← op (.resolve tokenSet.accessToken))
  let account ← flowAccount tenantId identity
  let lastUsedAt ← op .utcNow
  let updatedAt ← op .utcNow
  ensureAccount tenantId account
  check (← op (.tokensUpsert account.id (storedToken tokenSet refreshToken lastUsedAt updatedAt)))
  return account

/-- Complete a flow: validate state, exchange the code, resolve identity and persist the account and
its token. -/
def completeFlow (code state : String) : Async Account := do
  let flow ← check ((← op (.flowsTake state)).mapError FlowError.toAppError)
  let tokenSet ← oauth.exchangeCode code flow.verifier
  match tokenSet.refreshToken with
  | some refreshToken => connect flow.tenantId tokenSet refreshToken
  | none => throw (.err (.auth
      "no refresh token returned (ensure the 'offline_access' scope was granted)"))

/-- `refresh_account` inside the mutex. -/
def refreshLocked (accountId : String) : Async Unit := do
  match ← check (← op (.tokensGet accountId)) with
  | none => throw (.err notConnected)
  | some current =>
    let tokenSet ← oauth.refresh current.refreshToken
    -- Some providers rotate refresh tokens; keep the old one if absent.
    let refreshToken := tokenSet.refreshToken.getD current.refreshToken
    let lastUsedAt ← op .utcNow
    let updatedAt ← op .utcNow
    check (← op (.tokensUpsert accountId (storedToken tokenSet refreshToken lastUsedAt updatedAt)))

/-- Force a refresh of the account's token and persist the new set. -/
def refreshAccount (accountId : String) : Async Unit := do
  op (.accountLock accountId)
  op (.acquire accountId)
  guarded accountId (refreshLocked oauth accountId)

/-- `get_access_token` when the cached token does not do. -/
def refreshAndGet (accountId : String) : Async String := do
  refreshAccount oauth accountId
  match ← check (← op (.tokensGet accountId)) with
  | some token => return token.accessToken
  | none => throw (.err notConnected)

/-- `get_access_token` with the record in the store: it does if it does not expire too soon. -/
def getCached (accountId : String) (token : StoredToken) : Async String := do
  match token.expiresAt with
  | none => refreshAndGet oauth accountId
  | some expiresAt =>
    let limit ← nowPlus EXPIRY_SKEW
    if expiresAt > limit then
      bumpLastUsed accountId token
      return token.accessToken
    else refreshAndGet oauth accountId

/-- Return a valid access token for an account, refreshing transparently. -/
def getAccessToken (accountId : String) : Async String := do
  match ← check (← op (.tokensGet accountId)) with
  | some token => getCached oauth accountId token
  | none => refreshAndGet oauth accountId

/-- The batch of `refreshAll`, account by account. -/
def refreshEach : List Account → Async (List (Account × Result Unit))
  | [] => return []
  | account :: accounts => do
    if account.status = .disconnected then refreshEach accounts
    else
      let result ← outcome (refreshAccount oauth account.id)
      let outcomes ← refreshEach accounts
      return (account, result) :: outcomes

/-- Refresh every active account. Failures are returned per account. -/
def refreshAll : Async (List (Account × Result Unit)) := do
  match ← op .accountsListAll with
  | .error e => return [(dummyAccount, .error e)]
  | .ok accounts => refreshEach oauth accounts

/-- The loop of `refreshStale`, counting the successful refreshes. -/
def refreshIds : List String → Async Nat
  | [] => return 0
  | id :: ids => do
    let result ← outcome (refreshAccount oauth id)
    let refreshed ← refreshIds ids
    return (if result.isOk then 1 else 0) + refreshed

/-- Refresh accounts whose token has not been used for `inactivityDays`. -/
def refreshStale (inactivityDays : Int) : Async Nat := do
  let now ← op .utcNow
  let span ← orPanic "TimeDelta::days out of bounds" (Duration.days inactivityDays)
  let cutoff ← orPanic "`DateTime - TimeDelta` overflowed" (now.checkedAdd (-span))
  match ← op (.tokensListInactive cutoff) with
  | .error _ => return 0
  | .ok ids => refreshIds oauth ids

/-- Disconnect an account: drop its token and mark it disconnected. -/
def disconnect (account : Account) : Async Unit := do
  check (← op (.tokensDelete account.id))
  check (← op (.accountsSetStatus account.tenantId account.id .disconnected))

end TokenManager

/-! ### The protocol of a token call -/

section Rules

variable {G α : Type} {M : Monitor AppSig G} {accountId : String} {Base : G → Prop}
  {Holds : G → String → Prop}

/-- What a monitor has to say about the operations on one account. `Base` holds all along a call
about it, and `Holds g rt` once the call has the refresh token `rt` to present or to write. -/
structure TokenRules (M : Monitor AppSig G) (accountId : String) (Base : G → Prop)
    (Holds : G → String → Prop) : Prop where
  clock : M.Silent .utcNow
  lock : ∀ o ∈ [Op.accountLock accountId, .acquire accountId, .release accountId],
    ∀ g, Base g → M.SilentAt g o
  base : ∀ g rt, Holds g rt → Base g
  get : ∀ g, Base g → M.allows g (.tokensGet accountId)
  got : ∀ g r, Base g → Base (M.next g (.tokensGet accountId) r)
  read : ∀ g token, Base g →
    Holds (M.next g (.tokensGet accountId) (.ok (some token))) token.refreshToken
  present : ∀ g rt, Holds g rt → M.allows g (.token (.refresh rt))
  denied : ∀ g rt e, Holds g rt → Base (M.next g (.token (.refresh rt)) (.error e))
  granted : ∀ g rt response, Holds g rt →
    Holds (M.next g (.token (.refresh rt)) (.ok response)) (response.refreshToken.getD rt)
  write : ∀ g token, Holds g token.refreshToken → M.allows g (.tokensUpsert accountId token)
  wrote : ∀ g token r, Holds g token.refreshToken →
    Base (M.next g (.tokensUpsert accountId token) r)

namespace TokenRules

variable (rules : TokenRules M accountId Base Holds) {oauth : OAuthClient}
include rules

theorem follows_refreshLocked {g : G} (hg : Base g) :
    Follows M (fun g _ => Base g) g (TokenManager.refreshLocked oauth accountId).run := by
  have hnow := rules.clock
  unfold TokenManager.refreshLocked
  apply follows_op (rules.get g hg)
  intro r _
  have hgot := rules.got g r hg
  refine follows_check_bind (fun current hr => ?_) fun _ _ => hgot
  subst hr
  cases current with
  | none => exact hgot
  | some current =>
    have hread := rules.read g current hg
    refine (follows_run_bind _ _ _).mpr
      (follows_requestTokens hnow (rules.present _ _ hread) (fun _ => hgot)
        (fun e _ => rules.denied _ _ e hread) fun response _ => ?_)
    have hgranted := rules.granted _ _ response hread
    refine ⟨fun ts _ hts => ?_, fun _ => rules.base _ _ hgranted⟩
    refine follows_op_silent (hnow _) fun _ _ => follows_op_silent (hnow _) fun _ _ => ?_
    rw [← hts] at hgranted
    apply follows_op (rules.write _ _ hgranted)
    intro r _
    have hwrote := rules.wrote _ (storedToken ts _ _ _) r hgranted
    exact follows_check (fun _ _ => hwrote) fun _ _ => hwrote

theorem follows_refreshAccount {g : G} (hg : Base g) :
    Follows M (fun g _ => Base g) g (TokenManager.refreshAccount oauth accountId).run := by
  unfold TokenManager.refreshAccount
  apply follows_op_silent (rules.lock _ (by simp) _ hg)
  intro _ _
  apply follows_op_silent (rules.lock _ (by simp) _ hg)
  intro _ _
  refine (follows_bind _ _ _).mpr (follows_mono (fun g r hg => ?_) (rules.follows_refreshLocked hg))
  exact follows_silent (rules.lock _ (by simp) _ hg) fun _ _ => hg

theorem follows_writeUsage {token : StoredToken} {g : G} (hg : Holds g token.refreshToken) :
    Follows M (fun g _ => Base g) g (TokenManager.writeUsage accountId token).run := by
  have hnow := rules.clock
  unfold TokenManager.writeUsage
  refine follows_op_silent (hnow _) fun _ _ => follows_op_silent (hnow _) fun _ _ => ?_
  exact follows_op (rules.write _ { token with lastUsedAt := _, updatedAt := _ } hg)
    fun r _ => rules.wrote _ { token with lastUsedAt := _, updatedAt := _ } r hg

theorem follows_bumpLastUsed {token : StoredToken} {g : G} (hg : Holds g token.refreshToken) :
    Follows M (fun g _ => Base g) g (TokenManager.bumpLastUsed accountId token).run := by
  unfold TokenManager.bumpLastUsed
  cases token.lastUsedAt with
  | none => exact rules.follows_writeUsage hg
  | some last =>
    apply follows_op_silent (rules.clock _)
    intro now _
    split
    · exact rules.follows_writeUsage hg
    · exact rules.base _ _ hg

theorem follows_refreshAndGet {g : G} (hg : Base g) :
    Follows M (fun g _ => Base g) g (TokenManager.refreshAndGet oauth accountId).run := by
  unfold TokenManager.refreshAndGet
  refine (follows_run_bind _ _ _).mpr
    (follows_mono (fun g r hg => ?_) (rules.follows_refreshAccount hg))
  cases r with
  | error e => exact hg
  | ok _ =>
    apply follows_op (rules.get g hg)
    intro r _
    have hgot := rules.got g r hg
    refine follows_check_bind (fun token _ => ?_) fun _ _ => hgot
    cases token <;> exact hgot

theorem follows_getCached {token : StoredToken} {g : G} (hg : Holds g token.refreshToken) :
    Follows M (fun g _ => Base g) g (TokenManager.getCached oauth accountId token).run := by
  have hbase := rules.base _ _ hg
  unfold TokenManager.getCached
  cases token.expiresAt with
  | none => exact rules.follows_refreshAndGet hbase
  | some expiresAt =>
    apply follows_op_silent (rules.clock _)
    intro now _
    refine follows_orPanic_bind (fun limit _ => ?_) hbase
    split
    · refine (follows_run_bind _ _ _).mpr
        (follows_mono (fun g r hg => ?_) (rules.follows_bumpLastUsed hg))
      cases r <;> exact hg
    · exact rules.follows_refreshAndGet hbase

theorem follows_getAccessToken {g : G} (hg : Base g) :
    Follows M (fun g _ => Base g) g (TokenManager.getAccessToken oauth accountId).run := by
  unfold TokenManager.getAccessToken
  apply follows_op (rules.get g hg)
  intro r _
  have hgot := rules.got g r hg
  refine follows_check_bind (fun token hr => ?_) fun _ _ => hgot
  subst hr
  cases token with
  | none => exact rules.follows_refreshAndGet hgot
  | some token => exact rules.follows_getCached (rules.read g token hg)

end TokenRules

/-- How far `complete_flow` is: it has the flow, the refresh token of the exchange, the account it
will report, knows that this account is not there or is there, has stored its token, or fails. -/
inductive FlowStage
  | start
  | taken (flow : PendingFlow)
  | granted (flow : PendingFlow) (refreshToken : String)
  | chosen (flow : PendingFlow) (refreshToken : String) (account : Account)
  | missing (flow : PendingFlow) (refreshToken : String) (account : Account)
  | present (flow : PendingFlow) (refreshToken : String) (account : Account)
  | done (flow : PendingFlow) (account : Account)
  | failed

/-- What a monitor has to say about `complete_flow`: what its ghost state knows at each stage, what
the call may do there, and to which stage the reply leads. -/
structure FlowRules (M : Monitor AppSig G) (At : G → FlowStage → Prop) : Prop where
  clock : M.Silent .utcNow ∧ M.Silent .storageNow
  resolve : ∀ accessToken, M.Silent (.resolve accessToken)
  stop : ∀ g flow refreshToken, At g (.granted flow refreshToken) → At g .failed
  untaken : ∀ g flow, At g (.taken flow) → At g .failed
  take : ∀ g state, At g .start → M.allows g (.flowsTake state) ∧
    ∀ r, M.expects g (.flowsTake state) r → At (M.next g (.flowsTake state) r) (match r with
      | .ok flow => .taken flow
      | .error _ => .failed)
  exchange : ∀ g flow code, At g (.taken flow) →
    M.allows g (.token (.exchangeCode code flow.verifier)) ∧
    ∀ r, M.expects g (.token (.exchangeCode code flow.verifier)) r →
      At (M.next g (.token (.exchangeCode code flow.verifier)) r) .failed ∧
      ∀ response refreshToken, r = .ok response → response.refreshToken = some refreshToken →
        At (M.next g (.token (.exchangeCode code flow.verifier)) r) (.granted flow refreshToken)
  lookup : ∀ g flow refreshToken email, At g (.granted flow refreshToken) →
    M.allows g (.accountsGetByEmail flow.tenantId email) ∧
    ∀ r, M.expects g (.accountsGetByEmail flow.tenantId email) r → match r with
      | .ok existing => ∀ displayName updatedAt,
        At (M.next g (.accountsGetByEmail flow.tenantId email) (.ok existing)) (.chosen flow
          refreshToken { existing with displayName, status := .active, updatedAt })
      | .error e => At (M.next g (.accountsGetByEmail flow.tenantId email) (.error e))
        (.granted flow refreshToken)
  draw : ∀ g flow refreshToken, At g (.granted flow refreshToken) → M.allows g .newUuid ∧
    ∀ id, M.expects g .newUuid id → ∀ account : Account, account.id = id →
      account.tenantId = flow.tenantId → account.status = .active →
        At (M.next g .newUuid id) (.chosen flow refreshToken account)
  ensure : ∀ g flow refreshToken account, At g (.chosen flow refreshToken account) →
    M.allows g (.accountsGet flow.tenantId account.id) ∧
    ∀ r, M.expects g (.accountsGet flow.tenantId account.id) r →
      At (M.next g (.accountsGet flow.tenantId account.id) r) (match r with
        | .ok _ => .present flow refreshToken account
        | .error _ => .missing flow refreshToken account)
  create : ∀ g flow refreshToken account, At g (.missing flow refreshToken account) →
    M.allows g (.accountsCreate account) ∧
    ∀ r, M.expects g (.accountsCreate account) r →
      At (M.next g (.accountsCreate account) r) (match r with
        | .ok _ => .present flow refreshToken account
        | .error _ => .failed)
  store : ∀ g flow account token, At g (.present flow token.refreshToken account) →
    M.allows g (.tokensUpsert account.id token) ∧
    ∀ r, M.expects g (.tokensUpsert account.id token) r →
      At (M.next g (.tokensUpsert account.id token) r) (match r with
        | .ok _ => .done flow account
        | .error _ => .failed)

namespace FlowRules

variable {At : G → FlowStage → Prop} (rules : FlowRules M At) {oauth : OAuthClient}
  {flow : PendingFlow} {refreshToken : String} {g : G}
include rules

theorem follows_flowAccount {identity : ResolvedIdentity}
    (hg : At g (.granted flow refreshToken)) :
    Follows M (fun g r => match r with
        | .ok account => At g (.chosen flow refreshToken account)
        | .error _ => At g .failed) g
      (TokenManager.flowAccount flow.tenantId identity).run := by
  obtain ⟨hnow, hstorage⟩ := rules.clock
  obtain ⟨hallows, hlookup⟩ := rules.lookup g flow refreshToken identity.email hg
  unfold TokenManager.flowAccount
  apply follows_op hallows
  intro r hr
  have hnext := hlookup r hr
  cases r with
  | ok existing => exact follows_op_silent (hstorage _) fun updatedAt _ => hnext _ updatedAt
  | error e =>
    cases e with
    | notFound msg =>
      obtain ⟨hallows, hdraw⟩ := rules.draw _ flow refreshToken hnext
      apply follows_op hallows
      intro id hid
      apply follows_op_silent (hstorage _)
      intro createdAt _
      exact follows_op_silent (hstorage _) fun updatedAt _ => hdraw id hid _ rfl rfl rfl
    | _ => exact rules.stop _ _ _ hnext

theorem follows_ensureAccount {account : Account} (hg : At g (.chosen flow refreshToken account)) :
    Follows M (fun g r => match r with
        | .ok _ => At g (.present flow refreshToken account)
        | .error _ => At g .failed) g
      (TokenManager.ensureAccount flow.tenantId account).run := by
  obtain ⟨hallows, hensure⟩ := rules.ensure g flow refreshToken account hg
  unfold TokenManager.ensureAccount
  apply follows_op hallows
  intro r hr
  have hnext := hensure r hr
  cases r with
  | ok _ => exact hnext
  | error _ =>
    obtain ⟨hallows, hcreate⟩ := rules.create _ flow refreshToken account hnext
    apply follows_op hallows
    intro r hr
    have hnext := hcreate r hr
    cases r <;> exact hnext

theorem follows_connect {tokenSet : TokenSet} (hg : At g (.granted flow refreshToken)) :
    Follows M (fun g r => match r with
        | .ok account => At g (.done flow account)
        | .error _ => At g .failed) g
      (TokenManager.connect flow.tenantId tokenSet refreshToken).run := by
  obtain ⟨hnow, _⟩ := rules.clock
  unfold TokenManager.connect
  apply follows_op_silent (rules.resolve _ _)
  intro r _
  refine follows_check_bind (fun identity _ => ?_) fun _ _ => rules.stop _ _ _ hg
  refine (follows_run_bind _ _ _).mpr (follows_mono (fun g r hg => ?_)
    (rules.follows_flowAccount hg))
  cases r with
  | error e => exact hg
  | ok account =>
    refine follows_op_silent (hnow _) fun _ _ => follows_op_silent (hnow _) fun _ _ => ?_
    refine (follows_run_bind _ _ _).mpr (follows_mono (fun g r hg => ?_)
      (rules.follows_ensureAccount hg))
    cases r with
    | error e => exact hg
    | ok _ =>
      obtain ⟨hallows, hstore⟩ := rules.store g flow account (storedToken tokenSet _ _ _) hg
      apply follows_op hallows
      intro r hr
      have hnext := hstore r hr
      cases r <;> exact hnext

theorem follows_completeFlow {code state : String} (hg : At g .start) :
    Follows M (fun g r => match r with
        | .ok account => ∃ flow, At g (.done flow account)
        | .error _ => At g .failed) g
      (TokenManager.completeFlow oauth code state).run := by
  obtain ⟨hallows, htake⟩ := rules.take g state hg
  unfold TokenManager.completeFlow
  apply follows_op hallows
  intro r hr
  have htaken := htake r hr
  cases r with
  | error e => exact htaken
  | ok flow =>
    obtain ⟨hallows, hexchange⟩ := rules.exchange _ flow code htaken
    have huntaken := rules.untaken _ _ htaken
    refine follows_check_ok rfl ((follows_run_bind _ _ _).mpr (follows_requestTokens rules.clock.1
      hallows (fun _ => huntaken) (fun e he => (hexchange (.error e) he).1)
      fun response hresponse => ?_))
    obtain ⟨hfailed, hgranted⟩ := hexchange (.ok response) hresponse
    refine ⟨fun ts _ hts => ?_, fun _ => hfailed⟩
    dsimp only
    rw [hts]
    cases hrt : response.refreshToken with
    | none => exact hfailed
    | some refreshToken =>
      refine follows_mono (fun g r hr => ?_)
        (rules.follows_connect (hgranted response refreshToken rfl hrt))
      cases r with
      | ok account => exact ⟨flow, hr⟩
      | error e => exact hr

end FlowRules

end Rules

end UniMail
