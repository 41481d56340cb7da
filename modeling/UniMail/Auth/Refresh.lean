import UniMail.Auth.Token

/-!
# A refresh run alone

What `refresh_account` does when no other call interferes and no storage operation fails
(`exec_refreshAccount`): it acquires the mutex of the account once; it fails before or at its
request and leaves the database as it is; or its request is granted, and then it panics if the
lifetime of the token leads out of the calendar, and stores the new token otherwise.
-/

namespace UniMail

open Interaction

/-! ### What a run shows -/

section Labels

variable (ls : List (Label AppSig World Env))

/-- The requests to the token endpoint with their replies. -/
def requests : List (TokenRequest × Except String TokenResponse) :=
  ls.filterMap fun
    | ⟨.token request, _, _, r⟩ => some (request, r)
    | _ => none

/-- The accounts whose refresh mutex is acquired. -/
def attempts : List String :=
  ls.filterMap fun
    | ⟨.acquire accountId, _, _, _⟩ => some accountId
    | _ => none

/-- The readings of the clock. -/
def readings : List DateTime :=
  ls.filterMap fun
    | ⟨.utcNow, _, _, now⟩ => some now
    | _ => none

/-- No storage operation fails. -/
def Calm : Prop := ∀ l ∈ ls, l.env.fault = none

end Labels

/-- A granted token response with the clock reading that follows it. -/
def grantAt (l : Label AppSig World Env) (next : Option (Label AppSig World Env)) :
    List (TokenResponse × DateTime) :=
  match l, next with
  | ⟨.token _, _, _, .ok response⟩, some ⟨.utcNow, _, _, now⟩ => [(response, now)]
  | _, _ => []

/-- The grants of a run. -/
def grants : List (Label AppSig World Env) → List (TokenResponse × DateTime)
  | [] => []
  | l :: ls => grantAt l ls.head? ++ grants ls

/-- The lifetime of the token does not lead out of the calendar. -/
def Representable (grant : TokenResponse × DateTime) : Prop :=
  ∀ secs, grant.1.expiresIn = some secs → expiryAfter secs grant.2 ≠ none

instance (grant : TokenResponse × DateTime) : Decidable (Representable grant) :=
  match h : grant.1.expiresIn with
  | none => .isTrue (by simp [Representable, h])
  | some secs => decidable_of_iff (expiryAfter secs grant.2 ≠ none) (by simp [Representable, h])

variable {ls ls' : List (Label AppSig World Env)}

@[simp] theorem requests_append : requests (ls ++ ls') = requests ls ++ requests ls' :=
  List.filterMap_append ..

@[simp] theorem attempts_append : attempts (ls ++ ls') = attempts ls ++ attempts ls' :=
  List.filterMap_append ..

@[simp] theorem readings_append : readings (ls ++ ls') = readings ls ++ readings ls' :=
  List.filterMap_append ..

theorem calm_append : Calm (ls ++ ls') ↔ Calm ls ∧ Calm ls' := List.forall_mem_append

theorem calm_cons {l : Label AppSig World Env} : Calm (l :: ls) ↔ l.env.fault = none ∧ Calm ls :=
  List.forall_mem_cons

theorem calm_of_all (h : ls.all (fun l => l.env.fault.isNone) = true) : Calm ls :=
  fun l hl => Option.isNone_iff_eq_none.mp (List.all_eq_true.mp h l hl)

theorem grantAt_of_ne_token {l : Label AppSig World Env} (h : ∀ request, l.op ≠ .token request)
    (next : Option (Label AppSig World Env)) : grantAt l next = [] := by
  obtain ⟨o, env, w, r⟩ := l
  cases o with
  | token request => exact absurd rfl (h request)
  | _ => rfl

theorem grantAt_of_ne_utcNow (l : Label AppSig World Env) {next : Option (Label AppSig World Env)}
    (h : ∀ l', next = some l' → l'.op ≠ .utcNow) : grantAt l next = [] := by
  unfold grantAt
  split
  · exact absurd rfl (h _ rfl)
  · rfl

theorem grants_cons {l : Label AppSig World Env} (h : ∀ request, l.op ≠ .token request) :
    grants (l :: ls) = grants ls := by
  rw [grants, grantAt_of_ne_token h, List.nil_append]

/-- A run that does not begin with a look at the clock does not belong to a grant before it. -/
theorem grants_append (h : ∀ l, ls'.head? = some l → l.op ≠ .utcNow) :
    grants (ls ++ ls') = grants ls ++ grants ls' := by
  induction ls with
  | nil => rfl
  | cons l ls ih =>
    rw [List.cons_append, grants, grants, ih, List.append_assoc]
    congr 1
    cases ls with
    | cons l₂ ls => rfl
    | nil =>
      rw [List.nil_append, grantAt_of_ne_utcNow l h, grantAt_of_ne_utcNow l (by simp)]

/-! ### The request -/

/-- The token set of a response, with the expiry computed for it. -/
def TokenResponse.tokenSet (response : TokenResponse) (expiresAt : Option DateTime) : TokenSet :=
  ⟨response.accessToken, response.refreshToken, expiresAt, response.scopes⟩

/-- A request is not sent, denied, or granted; then it can still panic. -/
inductive Requested (request : TokenRequest) (failed : String → AppError) (w : World) :
    List (Label AppSig World Env) → Outcome TokenSet → Prop
  | unsent (e : AppError) : Requested request failed w [] (.error (.err e))
  | denied (env : Env) (msg : String) : Requested request failed w
      [⟨.token request, env, w, .error msg⟩] (.error (.err (failed msg)))
  | undated (env : Env) (response : TokenResponse) (hnone : response.expiresIn = none) :
      Requested request failed w [⟨.token request, env, w, .ok response⟩]
        (.ok (response.tokenSet none))
  | dated (env env' : Env) (response : TokenResponse) (secs : Nat) (t : DateTime)
      (hsecs : response.expiresIn = some secs) (ht : expiryAfter secs env'.now = some t) :
      Requested request failed w
        [⟨.token request, env, w, .ok response⟩, ⟨.utcNow, env', w, env'.now⟩]
        (.ok (response.tokenSet (some t)))
  | overflowed (env env' : Env) (response : TokenResponse) (secs : Nat) (msg : String)
      (hsecs : response.expiresIn = some secs) (hnone : expiryAfter secs env'.now = none) :
      Requested request failed w
        [⟨.token request, env, w, .ok response⟩, ⟨.utcNow, env', w, env'.now⟩]
        (.error (.panic msg))

variable {aead : Aead} {chrono : Chrono} {key : Key} {oauth : OAuthClient} {i : ℕ} {w w' : World}

theorem exec_requestTokens {request : TokenRequest} {failed : String → AppError}
    {r : Outcome TokenSet}
    (h : Exec (system aead chrono key) i (oauth.requestTokens request failed).run w ls r w') :
    w' = w ∧ Requested request failed w ls r := by
  rcases exec_check_bind h with ⟨_, _, h⟩ | ⟨e, _, rfl, rfl, rfl⟩
  · obtain ⟨env, reply, w₁, ls₁, hexec, hrest, rfl⟩ := exec_op_bind h
    obtain ⟨_, rfl⟩ := token_eq hexec
    cases reply with
    | error msg =>
      obtain ⟨rfl, rfl, rfl⟩ := exec_throw hrest
      exact ⟨rfl, .denied env msg⟩
    | ok response =>
      change Exec _ i (tokenSetFrom response).run _ _ _ _ at hrest
      unfold tokenSetFrom at hrest
      cases hexpires : response.expiresIn with
      | none =>
        rw [hexpires] at hrest
        obtain ⟨rfl, rfl, rfl⟩ := exec_pure hrest
        exact ⟨rfl, .undated env response hexpires⟩
      | some secs =>
        rw [hexpires] at hrest
        obtain ⟨env', now, w₂, ls₂, hnow, htail, rfl⟩ := exec_op_bind hrest
        obtain ⟨rfl, rfl⟩ := utcNow_eq hnow
        rcases exec_orPanic_bind htail with ⟨t, ht, hdone⟩ | ⟨hnone, rfl, rfl, rfl⟩
        · obtain ⟨rfl, rfl, rfl⟩ := exec_pure hdone
          exact ⟨rfl, .dated env env' response secs t hexpires ht⟩
        · exact ⟨rfl, .overflowed env env' response secs _ hexpires hnone⟩
  · exact ⟨rfl, .unsent e⟩

/-! ### The refresh -/

/-- The token that can be read for an account. -/
def Reads (aead : Aead) (chrono : Chrono) (key : Key) (accountId : String) (db : Db)
    (token : StoredToken) : Prop :=
  ∃ now, SqliteTokenStore.get aead chrono key accountId now db = .ok (some token)

/-- How a refresh from database `db` shows in the labels, ends, and leaves the database. -/
inductive RefreshRun (aead : Aead) (chrono : Chrono) (key : Key) (accountId : String) (db : Db)
    (ls : List (Label AppSig World Env)) : Outcome Unit → Db → Prop
  | unsent (e : AppError) (hrequests : requests ls = []) (hgrants : grants ls = []) :
      RefreshRun aead chrono key accountId db ls (.error (.err e)) db
  | denied (current : StoredToken) (msg : String) (e : AppError)
      (hreads : Reads aead chrono key accountId db current)
      (hrequests : requests ls = [(.refresh current.refreshToken, .error msg)])
      (hgrants : grants ls = []) : RefreshRun aead chrono key accountId db ls (.error (.err e)) db
  | overflowed (current : StoredToken) (response : TokenResponse) (now : DateTime) (msg : String)
      (hreads : Reads aead chrono key accountId db current)
      (hrequests : requests ls = [(.refresh current.refreshToken, .ok response)])
      (hgrants : grants ls = [(response, now)]) (hover : ¬ Representable (response, now)) :
      RefreshRun aead chrono key accountId db ls (.error (.panic msg)) db
  | stored (current : StoredToken) (response : TokenResponse) (now : DateTime)
      (expiresAt : Option DateTime) (lastUsedAt updatedAt : DateTime) (nonces : Nonce × Nonce)
      (ha : db.accounts.find accountId ≠ none)
      (hreads : Reads aead chrono key accountId db current)
      (hrequests : requests ls = [(.refresh current.refreshToken, .ok response)])
      (hgrants : grants ls = [(response, now)]) (hrep : Representable (response, now))
      (hused : lastUsedAt ∈ readings ls) :
      RefreshRun aead chrono key accountId db ls (.ok ())
        (SqliteTokenStore.upsertRow db ((storedToken (response.tokenSet expiresAt)
          (response.refreshToken.getD current.refreshToken) lastUsedAt updatedAt).toRow aead chrono
            key accountId nonces) ha)

theorem Reads.account {accountId : String} {db : Db} {token : StoredToken}
    (h : Reads aead chrono key accountId db token) : db.accounts.find accountId ≠ none := by
  obtain ⟨now, hget⟩ := h
  obtain ⟨row, hrow, _⟩ := SqliteTokenStore.get_some hget
  obtain ⟨account, haccount⟩ := Db.account_of_token hrow
  simp [haccount]

/-- Storing the token of a readable account succeeds. -/
theorem exec_storeToken {accountId : String} {token : StoredToken} {r : Result Unit} {env : Env}
    (hcalm : env.fault = none) (ha : w.db.accounts.find accountId ≠ none)
    (h : (system aead chrono key).exec i (.tokensUpsert accountId token) env w = some (r, w')) :
    r = .ok () ∧ w'.db =
      SqliteTokenStore.upsertRow w.db (token.toRow aead chrono key accountId env.nonces) ha := by
  obtain ⟨hr, hw⟩ := storage_calm hcalm (Option.some.inj h)
  have hupsert : SqliteTokenStore.upsert aead chrono key accountId token env.nonces w.db =
      (.ok (), SqliteTokenStore.upsertRow w.db (token.toRow aead chrono key accountId env.nonces)
        ha) := dif_pos ha
  rw [hupsert] at hr hw
  exact ⟨hr, congrArg World.db hw⟩

/-- Reading the token of an account. -/
theorem exec_readToken {accountId : String} {r : Result (Option StoredToken)} {env : Env}
    (hcalm : env.fault = none)
    (h : (system aead chrono key).exec i (.tokensGet accountId) env w = some (r, w')) :
    r = SqliteTokenStore.get aead chrono key accountId env.now w.db ∧ w' = w :=
  storage_calm hcalm (Option.some.inj h)

variable {accountId : String}

theorem RefreshRun.congr {db db' : Db} {r : Outcome Unit}
    (h : RefreshRun aead chrono key accountId db ls r db') (hrequests : requests ls' = requests ls)
    (hgrants : grants ls' = grants ls) (hreadings : ∀ t ∈ readings ls, t ∈ readings ls') :
    RefreshRun aead chrono key accountId db ls' r db' := by
  cases h with
  | unsent e h₁ h₂ => exact .unsent e (hrequests.trans h₁) (hgrants.trans h₂)
  | denied current msg e hreads h₁ h₂ =>
    exact .denied current msg e hreads (hrequests.trans h₁) (hgrants.trans h₂)
  | overflowed current response now msg hreads h₁ h₂ hover =>
    exact .overflowed current response now msg hreads (hrequests.trans h₁) (hgrants.trans h₂) hover
  | stored current response now expiresAt lastUsedAt updatedAt nonces ha hreads h₁ h₂ hrep hused =>
    exact .stored current response now expiresAt lastUsedAt updatedAt nonces ha hreads
      (hrequests.trans h₁) (hgrants.trans h₂) hrep (hreadings _ hused)

/-- A failed refresh leaves the database as it is. -/
theorem RefreshRun.failed {db db' : Db} {r : Outcome Unit}
    (h : RefreshRun aead chrono key accountId db ls r db') (hr : r ≠ .ok ()) : db' = db := by
  cases h with
  | stored => exact absurd rfl hr
  | _ => rfl

/-- A refresh panics where its grant overflows, and only there. -/
theorem RefreshRun.panics_iff {db db' : Db} {r : Outcome Unit}
    (h : RefreshRun aead chrono key accountId db ls r db') :
    (∃ msg, r = .error (.panic msg)) ↔ ∃ g ∈ grants ls, ¬ Representable g := by
  cases h with
  | unsent e _ hgrants => simp [hgrants]
  | denied current msg e _ _ hgrants => simp [hgrants]
  | overflowed current response now msg _ _ hgrants hover => simp [hgrants, hover]
  | stored current response now expiresAt lastUsedAt updatedAt nonces ha _ _ hgrants hrep =>
    simp [hgrants, hrep]

theorem exec_refreshLocked {r : Outcome Unit} (hcalm : Calm ls)
    (h : Exec (system aead chrono key) i (TokenManager.refreshLocked oauth accountId).run w ls r
      w') :
    attempts ls = [] ∧ RefreshRun aead chrono key accountId w.db ls r w'.db := by
  unfold TokenManager.refreshLocked at h
  obtain ⟨env, reply, w₁, ls₁, hread, hrest, rfl⟩ := exec_op_bind h
  obtain ⟨hfault, hcalm₁⟩ := calm_cons.mp hcalm
  obtain ⟨hreply, rfl⟩ := exec_readToken hfault hread
  rcases exec_check_bind hrest with ⟨stored, rfl, hstored⟩ | ⟨e, rfl, rfl, rfl, rfl⟩
  swap
  · exact ⟨rfl, .unsent e rfl rfl⟩
  cases stored with
  | none =>
    obtain ⟨rfl, rfl, rfl⟩ := exec_throw hstored
    exact ⟨rfl, .unsent _ rfl rfl⟩
  | some current =>
    have hreads : Reads aead chrono key accountId w₁.db current := ⟨env.now, hreply.symm⟩
    rcases exec_run_bind hstored with ⟨ts, w₂, ls₂, ls₃, hrequest, hwrite, rfl⟩ | ⟨e, hrequest, rfl⟩
    · obtain ⟨rfl, hrequested⟩ := exec_requestTokens hrequest
      -- The clock is read twice, then the token is stored.
      obtain ⟨env₁, lastUsedAt, w₃, ls₄, hnow₁, htail₁, rfl⟩ := exec_op_bind hwrite
      obtain ⟨rfl, rfl⟩ := utcNow_eq hnow₁
      obtain ⟨env₂, updatedAt, w₄, ls₅, hnow₂, htail₂, rfl⟩ := exec_op_bind htail₁
      obtain ⟨rfl, rfl⟩ := utcNow_eq hnow₂
      obtain ⟨env₃, stored, w₅, ls₆, hstore, hend, rfl⟩ := exec_op_bind htail₂
      have hfault₃ : env₃.fault = none :=
        hcalm₁ _ (List.mem_append_right _ (.tail _ (.tail _ (.head _))))
      obtain ⟨rfl, hdb⟩ := exec_storeToken hfault₃ hreads.account hstore
      obtain ⟨rfl, rfl, rfl⟩ := exec_check hend
      cases hrequested with
      | undated env' response hnone =>
        refine ⟨rfl, ?_⟩
        rw [hdb]
        exact .stored current response env₁.now none env₁.now env₂.now env₃.nonces hreads.account
          hreads rfl rfl (fun secs hsecs => by simp [hnone] at hsecs) (by simp [readings])
      | dated env' env'' response secs t hsecs ht =>
        refine ⟨rfl, ?_⟩
        rw [hdb]
        refine .stored current response env''.now (some t) env₁.now env₂.now env₃.nonces
          hreads.account hreads rfl rfl ?_ (by simp [readings])
        intro secs' hsecs'
        cases hsecs.symm.trans hsecs'
        simp [ht]
    · obtain ⟨rfl, hrequested⟩ := exec_requestTokens hrequest
      cases hrequested with
      | unsent e => exact ⟨rfl, .unsent e rfl rfl⟩
      | denied env' msg => exact ⟨rfl, .denied current msg _ hreads rfl rfl⟩
      | overflowed env' env'' response secs msg hsecs hnone =>
        exact ⟨rfl, .overflowed current response env''.now msg hreads rfl rfl
          fun hrep => hrep secs hsecs hnone⟩

/-- The refresh mutex is taken before the refresh and given back after it. -/
theorem exec_refreshAccount_cons {r : Outcome Unit}
    (h : Exec (system aead chrono key) i (TokenManager.refreshAccount oauth accountId).run w ls r
      w') :
    ∃ env₁ env₂ env₃ w₁ w₂ w₃ ls₁, ls = ⟨.accountLock accountId, env₁, w, ()⟩ ::
        ⟨.acquire accountId, env₂, w₁, ()⟩ :: (ls₁ ++ [⟨.release accountId, env₃, w₃, ()⟩]) ∧
      w₁.db = w.db ∧ w₂.db = w.db ∧ w'.db = w₃.db ∧
      Exec (system aead chrono key) i (TokenManager.refreshLocked oauth accountId).run w₂ ls₁ r
        w₃ := by
  unfold TokenManager.refreshAccount at h
  obtain ⟨env₁, _, w₁, ls₁, hlock, htail, rfl⟩ := exec_op_bind h
  obtain ⟨env₂, _, w₂, ls₂, hacquire, hguarded, rfl⟩ := exec_op_bind htail
  obtain ⟨r₁, w₃, ls₃, ls₄, hbody, hrelease, rfl⟩ := exec_bind.mp hguarded
  obtain ⟨env₃, _, w₄, ls₅, hexec, hend, rfl⟩ := exec_call.mp hrelease
  obtain ⟨rfl, rfl, rfl⟩ := exec_ret.mp hend
  have hlocked := (accountLock_eq hlock).1
  exact ⟨env₁, env₂, env₃, w₁, w₂, w₃, ls₃, rfl, hlocked, (acquire_eq hacquire).trans hlocked,
    release_eq hexec, hbody⟩

/-- **A refresh run alone.** -/
theorem exec_refreshAccount {r : Outcome Unit} (hcalm : Calm ls)
    (h : Exec (system aead chrono key) i (TokenManager.refreshAccount oauth accountId).run w ls r
      w') :
    attempts ls = [accountId] ∧ RefreshRun aead chrono key accountId w.db ls r w'.db := by
  obtain ⟨env₁, env₂, env₃, w₁, w₂, w₃, ls₁, rfl, _, hdb, hdb', hbody⟩ :=
    exec_refreshAccount_cons h
  have hcalm₁ : Calm ls₁ := fun l hl => hcalm l (by simp [hl])
  obtain ⟨hattempts, hrun⟩ := exec_refreshLocked hcalm₁ hbody
  rw [hdb, ← hdb'] at hrun
  refine ⟨?_, hrun.congr ?_ ?_ ?_⟩
  · rw [attempts] at hattempts ⊢
    simp [hattempts]
  · simp [requests]
  · rw [grants_cons (by simp), grants_cons (by simp), grants_append (by simp),
      grants_cons (by simp)]
    exact List.append_nil _
  · intro t ht
    simpa [readings] using ht

end UniMail
