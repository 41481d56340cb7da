import UniMail.Auth.Callback

/-!
# One refresh for all

Concurrent calls of `get_access_token` find the stored token expired. The refresh mutex makes their
refreshes go one after the other, but nothing looks at the row again once the mutex is held, so every
call that has seen the expired row refreshes. `one_refresh` shows that the calls share one refresh if
they are staggered: after the first call, a call reads the row only when the new token is there. The new expiry has to be one that comes back from its
text, that is of the years 0000 to 9999: another is read as none, and the token as expired.
`two_refreshes` is a run of two calls that are not.

The ghost state of a call (`Herd`) says how far it is with its refresh; the world invariant
(`HerdInv`) says that one call leads and the others have not started, or that the row has the new
token and every call that has started knows it.
-/

namespace UniMail

open Interaction Relational

variable {aead : Aead} {chrono : Chrono} {key : Key} {oauth : OAuthClient} {accountId : String}
  {old : Option DateTime} {α : Type}

/-! ### How far a call is -/

/-- A call that has not started, or has read the expired row, has the entry of the mutex, has the
mutex, has a reply of the provider, has the new token with its expiry, or knows that the row has it. -/
inductive Herd
  | fresh
  | expired
  | waiting
  | locked
  | granted (response : TokenResponse)
  | renewed (accessToken : String) (expiresAt : DateTime)
  | good (accessToken : String) (expiresAt : DateTime)

/-- The record has the access token and the expiry. -/
def StoredToken.Has (token : StoredToken) (accessToken : String) (expiresAt : DateTime) : Prop :=
  token.accessToken = accessToken ∧ token.expiresAt = some expiresAt

/-- A call reads, refreshes and stores in this order, where `old` is the expiry of the expired
token. -/
def herdMonitor (accountId : String) (old : Option DateTime) : Monitor AppSig Herd where
  allows g o := match g, o with
    | .fresh, .tokensGet id => id = accountId
    | .expired, .utcNow => True
    | .expired, .accountLock id => id = accountId
    | .waiting, .acquire id => id = accountId
    | .locked, .tokensGet id => id = accountId
    | .locked, .token _ => True
    | .granted _, .utcNow => True
    | .renewed _ _, .utcNow => True
    | .renewed accessToken expiresAt, .tokensUpsert id token =>
      id = accountId ∧ token.Has accessToken expiresAt
    | .good _ _, .utcNow => True
    | .good _ _, .release _ => True
    | .good _ _, .tokensGet id => id = accountId
    | .good accessToken expiresAt, .tokensUpsert id token =>
      id = accountId ∧ token.Has accessToken expiresAt
    | _, _ => False
  expects g o r := match g, o, r with
    | .fresh, .tokensGet _, r => ∃ token, r = .ok (some token) ∧
        (token.expiresAt ≠ old → ∃ x, token.expiresAt = some x)
    | .expired, .utcNow, (now : DateTime) => ∃ limit, now.checkedAdd EXPIRY_SKEW = some limit ∧
        ∀ x, old = some x → x ≤ limit
    | .locked, .tokensGet _, r => ∃ token, r = .ok (some token)
    | .locked, .token _, r => ∃ response secs, r = .ok response ∧ response.expiresIn = some secs
    | .granted response, .utcNow, (now : DateTime) =>
      ∃ secs x, response.expiresIn = some secs ∧ expiryAfter secs now = some x
    | .renewed _ _, .tokensUpsert _ _, r => r = .ok ()
    | .good _ expiresAt, .utcNow, (now : DateTime) =>
      ∃ limit, now.checkedAdd EXPIRY_SKEW = some limit ∧ limit < expiresAt
    | .good accessToken _, .tokensGet _, r =>
      ∃ token, r = .ok (some token) ∧ token.accessToken = accessToken
    | _, _, _ => True
  next g o r := match g, o, r with
    | .fresh, .tokensGet _, .ok (some token) =>
      if token.expiresAt = old then .expired
      else .good token.accessToken (token.expiresAt.getD 0)
    | .expired, .accountLock _, _ => .waiting
    | .waiting, .acquire _, _ => .locked
    | .locked, .token _, .ok response => .granted response
    | .granted response, .utcNow, (now : DateTime) =>
      .renewed response.accessToken ((response.expiresIn.bind (expiryAfter · now)).getD 0)
    | .renewed accessToken expiresAt, .tokensUpsert _ _, _ => .good accessToken expiresAt
    | g, _, _ => g

/-! ### The calls follow the protocol -/

section Protocol

/-- A call that has finished returns the new token. -/
def Served (g : Herd) (r : Outcome String) : Prop :=
  ∃ accessToken expiresAt, g = .good accessToken expiresAt ∧ r = .ok accessToken

theorem herd_refresh (hclient : oauth.client = .ok ()) (refreshToken : String) :
    Follows (herdMonitor accountId old) (fun g r => ∃ tokenSet x, r = .ok tokenSet ∧
      tokenSet.expiresAt = some x ∧ g = .renewed tokenSet.accessToken x) .locked
      (oauth.refresh refreshToken).run := by
  unfold OAuthClient.refresh OAuthClient.requestTokens
  rw [hclient]
  apply follows_op trivial
  intro r hr
  obtain ⟨response, secs, rfl, hsecs⟩ := hr
  show Follows _ _ (Herd.granted response) (tokenSetFrom response).run
  unfold tokenSetFrom
  rw [hsecs]
  apply follows_op trivial
  intro now hnow
  obtain ⟨secs', x, hsecs', hx⟩ := hnow
  obtain rfl : secs = secs' := Option.some.inj (hsecs.symm.trans hsecs')
  refine follows_orPanic_some hx ⟨_, x, rfl, rfl, ?_⟩
  simp [herdMonitor, hsecs, hx]

theorem herd_refreshLocked (hclient : oauth.client = .ok ()) :
    Follows (herdMonitor accountId old)
      (fun g r => r = .ok () ∧ ∃ accessToken expiresAt, g = .good accessToken expiresAt) .locked
      (TokenManager.refreshLocked oauth accountId).run := by
  unfold TokenManager.refreshLocked
  apply follows_op rfl
  intro r hr
  obtain ⟨current, hr⟩ := hr
  apply follows_check_ok hr
  subst hr
  refine (follows_run_bind _ _ _).mpr (follows_mono ?_ (herd_refresh hclient current.refreshToken))
  rintro g _ ⟨tokenSet, x, rfl, hx, rfl⟩
  refine follows_op trivial fun _ _ => follows_op trivial fun _ _ => ?_
  refine follows_op ⟨rfl, rfl, hx⟩ fun r hr => ?_
  obtain rfl : r = .ok () := hr
  exact ⟨rfl, _, _, rfl⟩

theorem herd_refreshAndGet (hclient : oauth.client = .ok ()) :
    Follows (herdMonitor accountId old) Served .expired
      (TokenManager.refreshAndGet oauth accountId).run := by
  unfold TokenManager.refreshAndGet TokenManager.refreshAccount
  refine (follows_run_bind _ _ _).mpr (follows_op rfl fun _ _ => follows_op rfl fun _ _ => ?_)
  refine (follows_bind _ _ _).mpr (follows_mono ?_ (herd_refreshLocked hclient))
  rintro g _ ⟨rfl, accessToken, expiresAt, rfl⟩
  refine ⟨trivial, fun _ _ => ?_⟩
  apply follows_op rfl
  intro r hr
  obtain ⟨token, rfl, htoken⟩ := hr
  exact ⟨accessToken, expiresAt, rfl, congrArg Except.ok htoken⟩

theorem herd_writeUsage {token : StoredToken} {accessToken : String} {expiresAt : DateTime}
    (h : token.Has accessToken expiresAt) :
    Follows (herdMonitor accountId old) (fun g r => g = .good accessToken expiresAt ∧ r = .ok ())
      (.good accessToken expiresAt) (TokenManager.writeUsage accountId token).run := by
  unfold TokenManager.writeUsage
  refine follows_op trivial fun _ _ => follows_op trivial fun _ _ => ?_
  exact follows_op ⟨rfl, h⟩ fun _ _ => ⟨rfl, rfl⟩

theorem herd_bumpLastUsed {token : StoredToken} {accessToken : String} {expiresAt : DateTime}
    (h : token.Has accessToken expiresAt) :
    Follows (herdMonitor accountId old) (fun g r => g = .good accessToken expiresAt ∧ r = .ok ())
      (.good accessToken expiresAt) (TokenManager.bumpLastUsed accountId token).run := by
  unfold TokenManager.bumpLastUsed
  cases token.lastUsedAt with
  | none => exact herd_writeUsage h
  | some last =>
    apply follows_op trivial
    intro now _
    split
    · exact herd_writeUsage h
    · exact ⟨rfl, rfl⟩

theorem herd_getCached (hclient : oauth.client = .ok ()) {token : StoredToken}
    (hold : token.expiresAt ≠ old → ∃ x, token.expiresAt = some x) :
    Follows (herdMonitor accountId old) Served
      (if token.expiresAt = old then .expired
        else .good token.accessToken (token.expiresAt.getD 0))
      (TokenManager.getCached oauth accountId token).run := by
  unfold TokenManager.getCached
  by_cases h : token.expiresAt = old
  · -- The row still has the expired token.
    rw [if_pos h, h]
    cases old with
    | none => exact herd_refreshAndGet hclient
    | some expiresAt =>
      apply follows_op trivial
      intro now hnow
      obtain ⟨limit, hlimit, hle⟩ := hnow
      apply follows_orPanic_some hlimit
      rw [if_neg (not_lt.mpr (hle _ rfl))]
      exact herd_refreshAndGet hclient
  · -- Another call has stored the new one.
    obtain ⟨x, hx⟩ := hold h
    rw [if_neg h, hx, Option.getD_some]
    apply follows_op trivial
    intro now hnow
    obtain ⟨limit, hlimit, hlt⟩ := hnow
    apply follows_orPanic_some hlimit
    rw [if_pos hlt]
    refine (follows_run_bind _ _ _).mpr (follows_mono ?_ (herd_bumpLastUsed ⟨rfl, hx⟩))
    rintro g r ⟨rfl, rfl⟩
    exact ⟨_, x, rfl, rfl⟩

theorem herd_getAccessToken (hclient : oauth.client = .ok ()) :
    Follows (herdMonitor accountId old) Served .fresh
      (TokenManager.getAccessToken oauth accountId).run := by
  unfold TokenManager.getAccessToken
  apply follows_op rfl
  intro r hr
  obtain ⟨token, rfl, hold⟩ := hr
  exact herd_getCached hclient hold

end Protocol

/-! ### What is asked of a run -/

/-- The answer to a token request. -/
def refreshReply : Event AppSig World Env α → Option (Except String TokenResponse)
  | ⟨_, _, _, .token _, r, _⟩ => some r
  | _ => none

/-- The refresh requests of a run, each as its answer. -/
def refreshes (es : List (Event AppSig World Env α)) : List (Except String TokenResponse) :=
  es.filterMap refreshReply

theorem refreshes_snoc (past : List (Event AppSig World Env α)) (e : Event AppSig World Env α) :
    refreshes (past ++ [e]) = refreshes past ++ (refreshReply e).toList :=
  filterMap_snoc ..

/-- Expiry `x` survives its text and lies more than the skew ahead of every clock reading. -/
def Ahead (chrono : Chrono) (es : List (Event AppSig World Env α)) (x : DateTime) : Prop :=
  chrono.parseFromRfc3339 (chrono.toRfc3339 x) = some x ∧ ∀ e ∈ es, e.env.now + EXPIRY_SKEW < x

/-- No storage operation fails, the stored expiry `old` is within the skew at every clock reading,
and the first refresh is answered with a token that expires far ahead; its expiry is computed at the
next step of the call that has sent it. -/
structure HerdRun (chrono : Chrono) (old : Option DateTime) (es : List (Event AppSig World Env α)) :
    Prop where
  calm : ∀ e ∈ es, e.env.fault = none
  clock : ∀ e ∈ es, e.env.now.checkedAdd EXPIRY_SKEW ≠ none
  expired : ∀ e ∈ es, ∀ x, old = some x → x ≤ e.env.now + EXPIRY_SKEW
  answered : ∀ past e post r, es = past ++ e :: post → refreshes past = [] →
    refreshReply e = some r → ∃ response secs, r = .ok response ∧ response.expiresIn = some secs
  ahead : ∀ past e post last response secs, es = past ++ e :: post →
    refreshes past = [.ok response] → response.expiresIn = some secs →
      lastOf e.thread past = some last → refreshReply last = some (.ok response) →
        ∃ x, expiryAfter secs e.env.now = some x ∧ Ahead chrono es x

/-- The limit of the expiry check at a step. -/
theorem HerdRun.limit {es : List (Event AppSig World Env α)} (hrun : HerdRun chrono old es)
    {e : Event AppSig World Env α} (he : e ∈ es) :
    ∃ limit, e.env.now.checkedAdd EXPIRY_SKEW = some limit ∧ limit = e.env.now + EXPIRY_SKEW := by
  obtain ⟨limit, hlimit⟩ := Option.ne_none_iff_exists'.mp (hrun.clock e he)
  refine ⟨limit, hlimit, ?_⟩
  unfold DateTime.checkedAdd at hlimit
  split at hlimit
  · exact (Option.some.inj hlimit).symm
  · simp at hlimit

/-- A call starts before all others or when the row has been renewed. -/
def Staggered (accountId : String) (past : List (Event AppSig World Env α))
    (e : Event AppSig World Env α) : Prop :=
  (∀ e' ∈ past, e'.thread ≠ e.thread) →
    past = [] ∨ ∃ e' ∈ past, ∃ token, e'.call = ⟨.tokensUpsert accountId token, .ok ()⟩

/-! ### The row -/

section Row

/-- What `get` finds at any time. -/
def Readable (aead : Aead) (chrono : Chrono) (key : Key) (accountId : String) (db : Db)
    (accessToken : String) (expiresAt : Option DateTime) : Prop :=
  ∀ now, ∃ token, SqliteTokenStore.get aead chrono key accountId now db = .ok (some token) ∧
    token.accessToken = accessToken ∧ token.expiresAt = expiresAt

variable {i : ℕ} {env : Env} {w w' : World} {accessToken : String} {expiresAt : Option DateTime}

theorem Readable.account {db : Db} (h : Readable aead chrono key accountId db accessToken expiresAt) :
    db.accounts.find accountId ≠ none := by
  obtain ⟨token, hget, _⟩ := h 0
  obtain ⟨row, hrow, _⟩ := SqliteTokenStore.get_some hget
  obtain ⟨a, ha⟩ := Db.account_of_token hrow
  simp [ha]

theorem Readable.read (h : Readable aead chrono key accountId w.db accessToken expiresAt)
    (hcalm : env.fault = none) {r : Result (Option StoredToken)}
    (hexec : (system aead chrono key).exec i (.tokensGet accountId) env w = some (r, w')) :
    w' = w ∧ ∃ token, r = .ok (some token) ∧ token.accessToken = accessToken ∧
      token.expiresAt = expiresAt := by
  obtain ⟨hr, hw⟩ := storage_calm hcalm (Option.some.inj hexec)
  obtain ⟨token, hget, htoken⟩ := h env.now
  exact ⟨hw, token, hr.trans hget, htoken⟩

/-- A record with that expiry that is stored can be read. -/
theorem readable_upsert {token : StoredToken} {x : DateTime} (htoken : token.Has accessToken x)
    (hx : chrono.parseFromRfc3339 (chrono.toRfc3339 x) = some x)
    (ha : w.db.accounts.find accountId ≠ none) (hcalm : env.fault = none) {r : Result Unit}
    (hexec : (system aead chrono key).exec i (.tokensUpsert accountId token) env w =
      some (r, w')) :
    r = .ok () ∧ Readable aead chrono key accountId w'.db accessToken (some x) := by
  obtain ⟨hr, hw⟩ := storage_calm hcalm (Option.some.inj hexec)
  have hupsert : SqliteTokenStore.upsert aead chrono key accountId token env.nonces w.db =
      (.ok (), SqliteTokenStore.upsertRow w.db (token.toRow aead chrono key accountId env.nonces)
        ha) := dif_pos ha
  rw [hupsert] at hr hw
  dsimp only at hr hw
  subst hr hw
  refine ⟨rfl, fun now => ⟨_, SqliteTokenStore.get_upsertRow _ _ _ _ ha now, htoken.1, ?_⟩⟩
  simp [StoredToken.reread, htoken.2, hx]

end Row

/-! ### The invariant -/

section Inv

variable (chrono) (accountId) (es : List (Event AppSig World Env α))

/-- The only refresh so far was granted `accessToken`, which expires at `x`. -/
structure Renewed (past : List (Event AppSig World Env α)) (accessToken : String) (x : DateTime) :
    Prop where
  only : ∃ response, refreshes past = [.ok response] ∧ response.accessToken = accessToken
  ahead : Ahead chrono es x

/-- What holds while call `i` leads, by how far it is. -/
def Leads (past : List (Event AppSig World Env α)) (w : World) (i : ℕ) : Herd → Prop
  | .expired => refreshes past = [] ∧ ∀ j, w.locks accountId ≠ some (some j)
  | .waiting => refreshes past = [] ∧ w.locks accountId = some none
  | .locked => refreshes past = []
  | .granted response => refreshes past = [.ok response] ∧
      (∃ secs, response.expiresIn = some secs) ∧
        ∃ last, lastOf i past = some last ∧ refreshReply last = some (.ok response)
  | .renewed accessToken x => Renewed chrono es past accessToken x
  | _ => False

/-- No call has started, or one leads and the others have not, or the row has been renewed. -/
inductive HerdInv (aead : Aead) (key : Key) (old : Option DateTime)
    (past : List (Event AppSig World Env α)) (w : World) (γ : ℕ → Herd) : Prop
  | still (hpast : past = []) (hfresh : ∀ j, γ j = .fresh)
      (hrow : ∃ accessToken, Readable aead chrono key accountId w.db accessToken old)
      (hfree : ∀ j, w.locks accountId ≠ some (some j))
  | leading (i : ℕ) (hpast : past ≠ []) (hothers : ∀ j, j ≠ i → γ j = .fresh)
      (hthread : ∀ e ∈ past, e.thread = i)
      (hunstored : ∀ e ∈ past, ∀ token, e.call ≠ ⟨.tokensUpsert accountId token, .ok ()⟩)
      (hrow : ∃ accessToken, Readable aead chrono key accountId w.db accessToken old)
      (hlead : Leads chrono accountId es past w i (γ i))
  | stored (accessToken : String) (x : DateTime) (hrenewed : Renewed chrono es past accessToken x)
      (hrow : Readable aead chrono key accountId w.db accessToken (some x))
      (hknown : ∀ j, γ j = .fresh ∨ γ j = .good accessToken x)

/-- The leading call, `g` far, has taken the step as expected, and leads on or has renewed the row. -/
def LeadsOn (aead : Aead) (key : Key) (old : Option DateTime)
    (past : List (Event AppSig World Env α)) (e : Event AppSig World Env α) (g : Herd) : Prop :=
  (herdMonitor accountId old).expects g e.op e.reply ∧
    ((∀ token, e.call ≠ ⟨.tokensUpsert accountId token, .ok ()⟩) ∧
        (∃ accessToken, Readable aead chrono key accountId e.after.world.db accessToken old) ∧
        Leads chrono accountId es (past ++ [e]) e.after.world e.thread
          ((herdMonitor accountId old).next g e.op e.reply) ∨
      ∃ accessToken x, (herdMonitor accountId old).next g e.op e.reply = .good accessToken x ∧
        Renewed chrono es (past ++ [e]) accessToken x ∧
        Readable aead chrono key accountId e.after.world.db accessToken (some x))

end Inv

/-! ### One step -/

section Step

variable {es past post : List (Event AppSig World Env α)} {e : Event AppSig World Env α}
  {γ : ℕ → Herd} (hrun : HerdRun chrono old es) (hes : es = past ++ e :: post)
  (hstep : (system aead chrono key).Step e)
include hrun hes hstep

/-- A call that has not started reads the expired row and takes the lead. -/
theorem still_step (hallows : (herdMonitor accountId old).allows (γ e.thread) e.op)
    (hpast : past = []) (hfresh : ∀ j, γ j = .fresh)
    (hrow : ∃ accessToken, Readable aead chrono key accountId e.before.world.db accessToken old)
    (hfree : ∀ j, e.before.world.locks accountId ≠ some (some j)) :
    (herdMonitor accountId old).expects (γ e.thread) e.op e.reply ∧
      HerdInv chrono accountId es aead key old (past ++ [e]) e.after.world
        (Function.update γ e.thread ((herdMonitor accountId old).next (γ e.thread) e.op e.reply)) := by
  have hcalm := hrun.calm e (hes ▸ by simp)
  subst hpast
  rw [hfresh] at hallows ⊢
  obtain ⟨accessToken, hrow⟩ := hrow
  obtain ⟨before, i, env, o, r, after⟩ := e
  obtain ⟨k, _, hexec, _⟩ := hstep
  cases o with
  | tokensGet id =>
    obtain rfl : id = accountId := hallows
    obtain ⟨hw, token, hr, _, hold⟩ := hrow.read hcalm hexec
    dsimp only at hr hw ⊢
    subst hr
    refine ⟨⟨token, rfl, fun h => absurd hold h⟩,
      .leading i (by simp) ?_ (by simp) (by simp [Event.call]) ?_ ?_⟩
    · intro j hj
      rw [Function.update_of_ne hj, hfresh]
    · exact ⟨accessToken, hw ▸ hrow⟩
    · rw [Function.update_self, hw]
      simp only [herdMonitor, if_pos hold]
      exact ⟨rfl, hfree⟩
  | _ => exact hallows.elim

/-- On its way to the mutex. -/
theorem expired_step (hallows : (herdMonitor accountId old).allows .expired e.op)
    (hrow : ∃ accessToken, Readable aead chrono key accountId e.before.world.db accessToken old)
    (hlead : Leads chrono accountId es past e.before.world e.thread .expired) :
    LeadsOn chrono accountId es aead key old past e .expired := by
  obtain ⟨hnone, hfree⟩ := hlead
  obtain ⟨limit, hlimit, hnow⟩ := hrun.limit (e := e) (hes ▸ by simp)
  have hexpired := hrun.expired e (hes ▸ by simp)
  rw [← hnow] at hexpired
  obtain ⟨before, i, env, o, r, after⟩ := e
  obtain ⟨k, _, hexec, _⟩ := hstep
  cases o with
  | utcNow =>
    obtain ⟨hnow, hw⟩ := utcNow_eq hexec
    dsimp only at hnow hw
    refine ⟨⟨limit, hnow ▸ hlimit, hexpired⟩,
      Or.inl ⟨by simp [Event.call], hw ▸ hrow, ?_, hw ▸ hfree⟩⟩
    rw [refreshes_snoc, hnone]
    rfl
  | accountLock id =>
    obtain rfl : id = accountId := hallows
    obtain ⟨hdb, hlocks⟩ := accountLock_eq hexec
    dsimp only at hdb hlocks hfree
    refine ⟨trivial, Or.inl ⟨by simp [Event.call], hdb ▸ hrow, ?_, hlocks.trans ?_⟩⟩
    · rw [refreshes_snoc, hnone]
      rfl
    · cases hholder : before.world.locks id with
      | none => rfl
      | some holder =>
        cases holder with
        | none => rfl
        | some j => exact absurd hholder (hfree j)
  | _ => exact hallows.elim

omit hrun hes in
/-- The mutex is free. -/
theorem waiting_step (hallows : (herdMonitor accountId old).allows .waiting e.op)
    (hrow : ∃ accessToken, Readable aead chrono key accountId e.before.world.db accessToken old)
    (hlead : Leads chrono accountId es past e.before.world e.thread .waiting) :
    LeadsOn chrono accountId es aead key old past e .waiting := by
  obtain ⟨hnone, hfree⟩ := hlead
  obtain ⟨before, i, env, o, r, after⟩ := e
  obtain ⟨k, _, hexec, _⟩ := hstep
  cases o with
  | acquire id =>
    obtain rfl : id = accountId := hallows
    have hdb := acquire_eq hexec
    dsimp only at hdb
    refine ⟨trivial, Or.inl ⟨by simp [Event.call], hdb ▸ hrow, ?_⟩⟩
    simp only [herdMonitor, Leads]
    rw [refreshes_snoc, hnone]
    rfl
  | _ => exact hallows.elim

/-- Inside the mutex the call reads the row again, the expired token still, and asks for a new one. -/
theorem locked_step (hallows : (herdMonitor accountId old).allows .locked e.op)
    (hrow : ∃ accessToken, Readable aead chrono key accountId e.before.world.db accessToken old)
    (hlead : Leads chrono accountId es past e.before.world e.thread .locked) :
    LeadsOn chrono accountId es aead key old past e .locked := by
  have hcalm := hrun.calm e (hes ▸ by simp)
  have hanswered := fun r => hrun.answered past e post r hes hlead
  have hnone : refreshes past = [] := hlead
  obtain ⟨accessToken, hrow⟩ := hrow
  obtain ⟨before, i, env, o, r, after⟩ := e
  obtain ⟨k, _, hexec, _⟩ := hstep
  cases o with
  | tokensGet id =>
    obtain rfl : id = accountId := hallows
    obtain ⟨hw, token, hr, _⟩ := hrow.read hcalm hexec
    dsimp only at hr hw
    subst hr
    refine ⟨⟨token, rfl⟩, Or.inl ⟨by simp [Event.call], ⟨accessToken, hw ▸ hrow⟩, ?_⟩⟩
    simp only [herdMonitor, Leads]
    rw [refreshes_snoc, hnone]
    rfl
  | token request =>
    obtain ⟨response, secs, hr, hsecs⟩ := hanswered r rfl
    obtain ⟨_, hw⟩ := token_eq hexec
    dsimp only at hr hw
    subst hr
    refine ⟨⟨response, secs, rfl, hsecs⟩,
      Or.inl ⟨by simp [Event.call], ⟨accessToken, hw ▸ hrow⟩, ?_⟩⟩
    refine ⟨?_, ⟨secs, hsecs⟩, _, (lastOf_snoc _ _ _).trans (if_pos rfl), rfl⟩
    rw [refreshes_snoc, hnone]
    rfl
  | _ => exact hallows.elim

/-- The expiry of the new token is computed. -/
theorem granted_step {response : TokenResponse}
    (hallows : (herdMonitor accountId old).allows (.granted response) e.op)
    (hrow : ∃ accessToken, Readable aead chrono key accountId e.before.world.db accessToken old)
    (hlead : Leads chrono accountId es past e.before.world e.thread (.granted response)) :
    LeadsOn chrono accountId es aead key old past e (.granted response) := by
  obtain ⟨honly, ⟨secs, hsecs⟩, last, hlast, hreply⟩ := hlead
  obtain ⟨x, hx, hahead⟩ := hrun.ahead past e post last response secs hes honly hsecs hlast hreply
  obtain ⟨before, i, env, o, r, after⟩ := e
  obtain ⟨k, _, hexec, _⟩ := hstep
  cases o with
  | utcNow =>
    obtain ⟨hnow, hw⟩ := utcNow_eq hexec
    dsimp only at hnow hw hx
    subst hnow
    refine ⟨⟨secs, x, hsecs, hx⟩, Or.inl ⟨by simp [Event.call], hw ▸ hrow, ?_⟩⟩
    have hnext : (herdMonitor accountId old).next (.granted response) .utcNow env.now =
        .renewed response.accessToken x := by
      simp [herdMonitor, hsecs, hx]
    dsimp only
    rw [hnext]
    refine ⟨⟨response, ?_, rfl⟩, hahead⟩
    rw [refreshes_snoc, honly]
    rfl
  | _ => exact hallows.elim

/-- The new token is stored. -/
theorem renewed_step {accessToken : String} {x : DateTime}
    (hallows : (herdMonitor accountId old).allows (.renewed accessToken x) e.op)
    (hrow : ∃ accessToken, Readable aead chrono key accountId e.before.world.db accessToken old)
    (hlead : Leads chrono accountId es past e.before.world e.thread (.renewed accessToken x)) :
    LeadsOn chrono accountId es aead key old past e (.renewed accessToken x) := by
  have hcalm := hrun.calm e (hes ▸ by simp)
  obtain ⟨⟨response, honly, haccess⟩, hahead⟩ := hlead
  obtain ⟨before, i, env, o, r, after⟩ := e
  obtain ⟨k, _, hexec, _⟩ := hstep
  cases o with
  | utcNow =>
    obtain ⟨_, hw⟩ := utcNow_eq hexec
    dsimp only at hw
    refine ⟨trivial, Or.inl ⟨by simp [Event.call], hw ▸ hrow, ⟨response, ?_, haccess⟩, hahead⟩⟩
    rw [refreshes_snoc, honly]
    rfl
  | tokensUpsert id token =>
    obtain ⟨rfl, htoken⟩ := hallows
    obtain ⟨_, hrow⟩ := hrow
    obtain ⟨hr, hrow'⟩ := readable_upsert htoken hahead.1 hrow.account hcalm hexec
    refine ⟨hr, Or.inr ⟨accessToken, x, rfl, ⟨⟨response, ?_, haccess⟩, hahead⟩, hrow'⟩⟩
    rw [refreshes_snoc, honly]
    rfl
  | _ => exact hallows.elim

/-- The leading call takes a step. -/
theorem lead_step (hallows : (herdMonitor accountId old).allows (γ e.thread) e.op)
    (hrow : ∃ accessToken, Readable aead chrono key accountId e.before.world.db accessToken old)
    (hlead : Leads chrono accountId es past e.before.world e.thread (γ e.thread)) :
    LeadsOn chrono accountId es aead key old past e (γ e.thread) := by
  cases hg : γ e.thread <;> rw [hg] at hallows hlead
  case expired => exact expired_step hrun hes hstep hallows hrow hlead
  case waiting => exact waiting_step hstep hallows hrow hlead
  case locked => exact locked_step hrun hes hstep hallows hrow hlead
  case granted => exact granted_step hrun hes hstep hallows hrow hlead
  case renewed => exact renewed_step hrun hes hstep hallows hrow hlead
  all_goals exact hlead.elim

/-- No other call takes a step while one leads: it would start too early. -/
theorem leading_step (hallows : (herdMonitor accountId old).allows (γ e.thread) e.op)
    (hstaggered : Staggered accountId past e) (i : ℕ) (hpast : past ≠ [])
    (hothers : ∀ j, j ≠ i → γ j = .fresh) (hthread : ∀ e ∈ past, e.thread = i)
    (hunstored : ∀ e ∈ past, ∀ token, e.call ≠ ⟨.tokensUpsert accountId token, .ok ()⟩)
    (hrow : ∃ accessToken, Readable aead chrono key accountId e.before.world.db accessToken old)
    (hlead : Leads chrono accountId es past e.before.world i (γ i)) :
    (herdMonitor accountId old).expects (γ e.thread) e.op e.reply ∧
      HerdInv chrono accountId es aead key old (past ++ [e]) e.after.world
        (Function.update γ e.thread ((herdMonitor accountId old).next (γ e.thread) e.op e.reply)) := by
  have hi : e.thread = i := by
    by_contra hne
    rcases hstaggered fun e' he' => by simpa [hthread e' he'] using Ne.symm hne with h | h
    · exact hpast h
    · obtain ⟨e', he', token, hcall⟩ := h
      exact hunstored e' he' token hcall
  subst hi
  obtain ⟨hexpects, hnext⟩ := lead_step hrun hes hstep hallows hrow hlead
  refine ⟨hexpects, ?_⟩
  rcases hnext with ⟨hcall, hrow', hlead'⟩ | ⟨accessToken, x, hgood, hrenewed, hrow'⟩
  · refine .leading e.thread (by simp) ?_ ?_ ?_ hrow' ?_
    · intro j hj
      rw [Function.update_of_ne hj, hothers j hj]
    · simpa [or_imp, forall_and] using hthread
    · intro e' he'
      rcases List.mem_append.mp he' with he' | he'
      · exact hunstored e' he'
      · rw [List.mem_singleton.mp he']
        exact hcall
    · rw [Function.update_self]
      exact hlead'
  · refine .stored accessToken x hrenewed hrow' fun j => ?_
    by_cases hj : j = e.thread
    · subst hj
      rw [Function.update_self]
      exact Or.inr hgood
    · rw [Function.update_of_ne hj]
      exact Or.inl (hothers j hj)

/-- A call that knows the new token, or finds it, goes on with it. -/
theorem stored_step (hallows : (herdMonitor accountId old).allows (γ e.thread) e.op)
    {accessToken : String} {x : DateTime} (hrenewed : Renewed chrono es past accessToken x)
    (hrow : Readable aead chrono key accountId e.before.world.db accessToken (some x))
    (hknown : ∀ j, γ j = .fresh ∨ γ j = .good accessToken x) :
    (herdMonitor accountId old).expects (γ e.thread) e.op e.reply ∧
      refreshReply e = none ∧
      (herdMonitor accountId old).next (γ e.thread) e.op e.reply = .good accessToken x ∧
      Readable aead chrono key accountId e.after.world.db accessToken (some x) := by
  have hcalm := hrun.calm e (hes ▸ by simp)
  have hexpired := hrun.expired e (hes ▸ by simp)
  have hahead := hrenewed.ahead.2 e (hes ▸ by simp)
  obtain ⟨limit, hlimit, hnow⟩ := hrun.limit (e := e) (hes ▸ by simp)
  rw [← hnow] at hexpired hahead
  have hnew : some x ≠ old := fun h => absurd (hexpired x h.symm) (not_le.mpr hahead)
  obtain ⟨before, i, env, o, r, after⟩ := e
  obtain ⟨k, _, hexec, _⟩ := hstep
  rcases hknown i with hg | hg <;> dsimp only at hallows ⊢ <;> rw [hg] at hallows ⊢
  · cases o with
    | tokensGet id =>
      obtain rfl : id = accountId := hallows
      obtain ⟨hw, token, hr, haccess, hexpiry⟩ := hrow.read hcalm hexec
      dsimp only at hr hw
      subst hr
      refine ⟨⟨token, rfl, fun _ => ⟨x, hexpiry⟩⟩, rfl, ?_, hw ▸ hrow⟩
      simp [herdMonitor, hexpiry, hnew, haccess]
    | _ => exact hallows.elim
  · cases o with
    | utcNow =>
      obtain ⟨hr, hw⟩ := utcNow_eq hexec
      dsimp only at hr hw
      exact ⟨⟨limit, hr ▸ hlimit, hahead⟩, rfl, rfl, hw ▸ hrow⟩
    | tokensUpsert id token =>
      obtain ⟨rfl, htoken⟩ := hallows
      obtain ⟨_, hrow'⟩ := readable_upsert htoken hrenewed.ahead.1 hrow.account hcalm hexec
      exact ⟨trivial, rfl, rfl, hrow'⟩
    | release id =>
      have hdb := release_eq hexec
      dsimp only at hdb
      exact ⟨trivial, rfl, rfl, hdb ▸ hrow⟩
    | tokensGet id =>
      obtain rfl : id = accountId := hallows
      obtain ⟨hw, token, hr, haccess, _⟩ := hrow.read hcalm hexec
      dsimp only at hr hw
      subst hr
      exact ⟨⟨token, rfl, haccess⟩, rfl, rfl, hw ▸ hrow⟩
    | _ => exact hallows.elim

/-- **The step lemma.** -/
theorem herdInv_step (hallows : (herdMonitor accountId old).allows (γ e.thread) e.op)
    (hstaggered : Staggered accountId past e)
    (h : HerdInv chrono accountId es aead key old past e.before.world γ) :
    (herdMonitor accountId old).expects (γ e.thread) e.op e.reply ∧
      HerdInv chrono accountId es aead key old (past ++ [e]) e.after.world
        (Function.update γ e.thread ((herdMonitor accountId old).next (γ e.thread) e.op e.reply)) := by
  cases h with
  | still hpast hfresh hrow hfree =>
    exact still_step hrun hes hstep hallows hpast hfresh hrow hfree
  | leading i hpast hothers hthread hunstored hrow hlead =>
    exact leading_step hrun hes hstep hallows hstaggered i hpast hothers hthread hunstored hrow hlead
  | stored accessToken x hrenewed hrow hknown =>
    obtain ⟨hexpects, hreply, hgood, hrow'⟩ :=
      stored_step hrun hes hstep hallows hrenewed hrow hknown
    obtain ⟨⟨response, honly, haccess⟩, hahead⟩ := hrenewed
    refine ⟨hexpects, .stored accessToken x ⟨⟨response, ?_, haccess⟩, hahead⟩ hrow' fun j => ?_⟩
    · rw [refreshes_snoc, hreply, honly]
      rfl
    · by_cases hj : j = e.thread
      · subst hj
        rw [Function.update_self]
        exact Or.inr hgood
      · rw [Function.update_of_ne hj]
        exact hknown j

end Step

/-! ### Runs -/

namespace HerdInv

variable {es past : List (Event AppSig World Env α)} {w : World} {γ : ℕ → Herd}
  (h : HerdInv chrono accountId es aead key old past w γ)
include h

/-- A call that knows the new token knows the token of the only refresh. -/
theorem renewed_of_good {i : ℕ} {accessToken : String} {x : DateTime}
    (hg : γ i = .good accessToken x) : Renewed chrono es past accessToken x := by
  cases h with
  | still _ hfresh => simp [hfresh] at hg
  | leading j _ hothers _ _ _ hlead =>
    by_cases hij : i = j
    · subst hij
      rw [hg] at hlead
      exact hlead.elim
    · simp [hothers i hij] at hg
  | stored accessToken' x' hrenewed _ hknown =>
    rcases hknown i with hfresh | hgood
    · simp [hfresh] at hg
    · cases hgood.symm.trans hg
      exact hrenewed

/-- The mutex is free for a call that waits. -/
theorem free_of_waiting {i : ℕ} (hg : γ i = .waiting) : w.locks accountId = some none := by
  cases h with
  | still _ hfresh => simp [hfresh] at hg
  | leading j _ hothers _ _ _ hlead =>
    by_cases hij : i = j
    · subst hij
      rw [hg] at hlead
      exact hlead.2
    · simp [hothers i hij] at hg
  | stored _ _ _ _ hknown => rcases hknown i with hk | hk <;> simp [hk] at hg

theorem length_refreshes : (refreshes past).length ≤ 1 := by
  cases h with
  | still hpast => simp [hpast, refreshes]
  | leading i _ _ _ _ _ hlead =>
    cases hg : γ i <;> rw [hg] at hlead
    case fresh | good => exact hlead.elim
    case renewed =>
      obtain ⟨response, honly, _⟩ := hlead.only
      simp [honly]
    case locked => simp [show refreshes past = [] from hlead]
    all_goals simp [hlead.1]
  | stored _ _ hrenewed =>
    obtain ⟨response, honly, _⟩ := hrenewed.only
    simp [honly]

end HerdInv

/-- A record that is found once is found at any time. -/
theorem readable_of_get {db : Db} {now : DateTime} {token : StoredToken}
    (h : SqliteTokenStore.get aead chrono key accountId now db = .ok (some token)) :
    Readable aead chrono key accountId db token.accessToken token.expiresAt := by
  intro now'
  obtain ⟨row, hrow, htoken⟩ := SqliteTokenStore.get_some h
  obtain ⟨updatedAt, htoken'⟩ := toToken_now htoken now'
  exact ⟨{ token with updatedAt }, by simp [SqliteTokenStore.get, hrow, htoken', Except.map], rfl, rfl⟩

theorem allows_acquire {g : Herd} {id : String}
    (h : (herdMonitor accountId old).allows g (.acquire id)) : g = .waiting ∧ id = accountId := by
  cases g with
  | waiting => exact ⟨rfl, h⟩
  | _ => exact h.elim

/-- A call that has returned has returned the new token. -/
def ServedToken (g : Herd) (r : Outcome Return) : Prop :=
  ∃ accessToken x, g = .good accessToken x ∧ r = .ok (.token accessToken)

theorem herd_call (hclient : oauth.client = .ok ()) :
    Follows (herdMonitor accountId old) ServedToken .fresh
      (Call.prog oauth (.getAccessToken accountId)) := by
  refine (follows_run_bind _ _ _).mpr (follows_mono ?_ (herd_getAccessToken hclient))
  rintro g _ ⟨accessToken, x, rfl, rfl⟩
  exact ⟨accessToken, x, rfl, rfl⟩

/-- When no call can step, a call has returned, unless it waits for a mutex that is held. -/
theorem served_of_stuck {c : Cfg AppSig World (Outcome Return)} {γ : ℕ → Herd}
    (hpool : PoolFollows (herdMonitor accountId old) ServedToken γ c.pool)
    (hstuck : (system aead chrono key).Stuck c) {i : ℕ} {p : Prog AppSig (Outcome Return)}
    (hp : c.pool[i]? = some p)
    (hwaiting : γ i = .waiting → c.world.locks accountId = some none) :
    ∃ accessToken x, γ i = .good accessToken x ∧ p = .ret (.ok (.token accessToken)) := by
  have hfollows := hpool i p hp
  cases p with
  | ret r =>
    obtain ⟨accessToken, x, hg, rfl⟩ := hfollows
    exact ⟨accessToken, x, hg, rfl⟩
  | call o k =>
    have hexec := hstuck.exec hp (Env.calm 0 (.error ""))
    by_cases ho : ∃ id, o = .acquire id
    · obtain ⟨id, rfl⟩ := ho
      obtain ⟨hg, rfl⟩ := allows_acquire hfollows.1
      simp [system, hwaiting hg] at hexec
    · exact absurd hexec (exec_ne_none fun id hid => ho ⟨id, hid⟩)

/-- **The calls share one refresh**, in every run in which they are staggered and the new expiry survives
its text (`Ahead`): at most one request is sent, a call that returns returns the access token of its
reply, and when no call can step any more exactly one has been sent and all calls have returned. -/
theorem one_refresh (hclient : oauth.client = .ok ()) {n : ℕ} (hn : 1 ≤ n) {w : World}
    {now : DateTime} {token : StoredToken}
    (hstored : SqliteTokenStore.get aead chrono key accountId now w.db = .ok (some token))
    (hfree : ∀ j, w.locks accountId ≠ some (some j))
    {es : List (Event AppSig World Env (Outcome Return))}
    {c' : Cfg AppSig World (Outcome Return)}
    (h : (system aead chrono key).Run
      ⟨w, List.replicate n (Call.prog oauth (.getAccessToken accountId))⟩ es c')
    (hrun : HerdRun chrono token.expiresAt es)
    (hstaggered : ∀ past e post, es = past ++ e :: post → Staggered accountId past e) :
    (refreshes es).length ≤ 1 ∧
      (∀ (i : ℕ) r, c'.returned[i]? = some (some r) → ∃ response, refreshes es = [.ok response] ∧
        r = .ok (.token response.accessToken)) ∧
      ((system aead chrono key).Stuck c' → ∃ response, refreshes es = [.ok response] ∧
        c'.returned = List.replicate n (some (.ok (.token response.accessToken)))) := by
  have hstart : PoolFollows (herdMonitor accountId token.expiresAt) ServedToken (fun _ => .fresh)
      (List.replicate n (Call.prog oauth (.getAccessToken accountId))) := by
    intro i p hp
    rw [(List.mem_replicate.mp (List.mem_of_getElem? hp)).2]
    exact herd_call hclient
  have hI := h.follows
    (I := fun past c γ => HerdInv chrono accountId es aead key token.expiresAt past c.world γ)
    (.still rfl (fun _ => rfl) ⟨_, readable_of_get hstored⟩ hfree) hstart (by
      intro past e post hes hstep _ hI hallows
      rw [ghosts_snoc]
      exact herdInv_step hrun hes hstep hallows (hstaggered past e post hes) hI)
  obtain ⟨hinv, hpool⟩ := hI
  have hserved : ∀ {i accessToken x}, ghosts (herdMonitor accountId token.expiresAt)
      (fun _ => .fresh) es i = .good accessToken x →
      ∃ response, refreshes es = [.ok response] ∧ response.accessToken = accessToken :=
    fun hg => (hinv.renewed_of_good hg).only
  refine ⟨hinv.length_refreshes, fun i r hr => ?_, fun hstuck => ?_⟩
  · obtain ⟨accessToken, x, hg, rfl⟩ := hpool i _ (Cfg.returned_eq_some.mp hr)
    obtain ⟨response, honly, rfl⟩ := hserved hg
    exact ⟨response, honly, rfl⟩
  · have hlength : c'.pool.length = n := by rw [h.pool_length, List.length_replicate]
    have hall : ∀ (i : ℕ) p, c'.pool[i]? = some p → ∃ response, refreshes es = [.ok response] ∧
        p = .ret (.ok (.token response.accessToken)) := by
      intro i p hp
      obtain ⟨accessToken, x, hg, rfl⟩ := served_of_stuck hpool hstuck hp hinv.free_of_waiting
      obtain ⟨response, honly, rfl⟩ := hserved hg
      exact ⟨response, honly, rfl⟩
    -- There is a call, so there was a refresh.
    have hlt : 0 < c'.pool.length := hlength ▸ hn
    obtain ⟨response, honly, _⟩ := hall 0 _ (List.getElem?_eq_getElem hlt)
    refine ⟨response, honly, List.eq_replicate_iff.mpr ⟨?_, fun r hr => ?_⟩⟩
    · rw [Cfg.returned, List.length_map, hlength]
    · obtain ⟨p, hp, rfl⟩ := List.mem_map.mp hr
      obtain ⟨i, hp⟩ := List.getElem?_of_mem hp
      obtain ⟨response', honly', rfl⟩ := hall i p hp
      obtain rfl : response = response' := by simpa using honly.symm.trans honly'
      rfl

/-! ### Two runs -/

def twoReaders : Cfg AppSig World (Outcome Return) :=
  ⟨connected 1, List.replicate 2 (Call.prog sampleOauth (.getAccessToken "acc-1"))⟩

theorem stored_twoReaders :
    SqliteTokenStore.get .tagged (.ofTable firstDay) sampleKey "acc-1" 0 twoReaders.world.db =
      .ok (some ⟨"at-0", "rt-0", none, some (Duration.hours 1), none, 0⟩) := by decide +kernel

/-- At one o'clock, where every refresh is granted a token for two hours. -/
def renewing : Env := Env.calm 1 (.ok ⟨"at-1", some "rt-1", some 7200, none⟩)

theorem herdRun_renewing {c c' : Cfg AppSig World α} {es : List (Event AppSig World Env α)}
    (h : sampleSystem.Run c es c') (henv : ∀ e ∈ es, e.env = renewing) :
    HerdRun (.ofTable firstDay) (some (Duration.hours 1)) es := by
  have hreply : ∀ e ∈ es, ∀ r, refreshReply e = some r →
      r = .ok ⟨"at-1", some "rt-1", some 7200, none⟩ := by
    intro e he r hr
    obtain ⟨past, post, rfl⟩ := List.append_of_mem he
    obtain ⟨k, _, hexec, _⟩ := h.split.2.1
    have hrenewing := henv e he
    obtain ⟨before, i, env, o, r', after⟩ := e
    dsimp only at hrenewing
    subst hrenewing
    cases o with
    | token request =>
      cases hr
      exact (token_eq hexec).1
    | _ => simp [refreshReply] at hr
  refine ⟨fun e he => ?_, fun e he => ?_, fun e he x hx => ?_, ?_, ?_⟩
  · rw [henv e he]
    rfl
  · rw [henv e he]
    decide
  · cases hx
    rw [henv e he]
    decide
  · intro past e post r hes _ hr
    exact ⟨_, 7200, hreply e (hes ▸ by simp) r hr, rfl⟩
  · intro past e post last response secs hes _ hsecs hlast hr
    rw [lastOf, List.findRev?_eq_find?_reverse] at hlast
    have hmem : last ∈ past := List.mem_reverse.mp (List.mem_of_find?_eq_some hlast)
    cases hreply last (hes ▸ by simp [hmem]) _ hr
    cases hsecs
    rw [henv e (hes ▸ by simp)]
    refine ⟨Duration.hours 3, by decide, by decide, fun e' he' => ?_⟩
    rw [henv e' he']
    decide

/-- The run of the two calls by a schedule. -/
def renewingRun (sched : List ℕ) :
    Option (List (Event AppSig World Env (Outcome Return)) × Cfg AppSig World (Outcome Return)) :=
  sampleSystem.replay twoReaders (sched.map fun i => (i, renewing))

theorem renewingRun_run (sched : List ℕ) (h : (renewingRun sched).isSome) :
    sampleSystem.Run twoReaders ((renewingRun sched).get h).1 ((renewingRun sched).get h).2 ∧
      HerdRun (.ofTable firstDay) (some (Duration.hours 1)) ((renewingRun sched).get h).1 :=
  have hrun := run_replay (m := sampleSystem) twoReaders (sched.map fun i => (i, renewing)) h
  ⟨hrun, herdRun_renewing hrun
    (env_replay (P := fun env => env = renewing) twoReaders _ h (by simp))⟩

/-- Both calls see the expired row before the first refresh is stored, and each sends a refresh. -/
theorem two_refreshes :
    ∃ es c', sampleSystem.Run twoReaders es c' ∧
      HerdRun (.ofTable firstDay) (some (Duration.hours 1)) es ∧ (refreshes es).length = 2 := by
  obtain ⟨hrun, hherd⟩ := renewingRun_run ([0, 1] ++ List.replicate 11 0 ++
    List.replicate 11 1) (by decide +kernel)
  exact ⟨_, _, hrun, hherd, by decide +kernel⟩

/-- The event stores a token of the account. -/
def storesToken (accountId : String) (e : Event AppSig World Env (Outcome Return)) : Bool :=
  match e.call with
  | ⟨.tokensUpsert id _, .ok ()⟩ => id = accountId
  | _ => false

theorem stored_of_storesToken {accountId : String} {e : Event AppSig World Env (Outcome Return)}
    (h : storesToken accountId e = true) :
    ∃ token, e.call = ⟨.tokensUpsert accountId token, .ok ()⟩ := by
  unfold storesToken at h
  split at h
  · rename_i id token hcall
    rw [decide_eq_true_eq] at h
    exact ⟨token, h ▸ hcall⟩
  · simp at h

/-- The second call starts when the first one has stored the new token and before it returns. -/
theorem one_refresh_overlapping :
    ∃ es c', sampleSystem.Run twoReaders es c' ∧ (refreshes es).length = 1 ∧
      c'.returned = List.replicate 2 (some (.ok (.token "at-1"))) := by
  obtain ⟨es, c', hrun, hherd, hlate, hreturned, hone⟩ :
      ∃ es c', sampleSystem.Run twoReaders es c' ∧
        HerdRun (.ofTable firstDay) (some (Duration.hours 1)) es ∧
        (∀ k, (hk : k < es.length) → (∀ e ∈ es.take k, e.thread ≠ es[k].thread) →
          k = 0 ∨ ∃ e ∈ es.take k, storesToken "acc-1" e = true) ∧
        (∀ r ∈ c'.returned, r.isSome = true) ∧
        refreshes es = [.ok ⟨"at-1", some "rt-1", some 7200, none⟩] := by
    obtain ⟨hrun, hherd⟩ := renewingRun_run (List.replicate 10 0 ++ [1, 0, 1, 0, 1])
      (by decide +kernel)
    exact ⟨_, _, hrun, hherd, by decide +kernel, by decide +kernel, by decide +kernel⟩
  have hfree : ∀ j, twoReaders.world.locks "acc-1" ≠ some (some j) := by
    simp [twoReaders, connected]
  have hstaggered : ∀ past e post, es = past ++ e :: post →
      (∀ e' ∈ past, e'.thread ≠ e.thread) →
        past = [] ∨ ∃ e' ∈ past, ∃ token, e'.call = ⟨.tokensUpsert "acc-1" token, .ok ()⟩ := by
    rintro past e post rfl hfirst
    have hk := hlate past.length (by simp)
    simp only [List.take_left, List.getElem_append_right (le_refl _), Nat.sub_self,
      List.getElem_cons_zero] at hk
    rcases hk hfirst with h0 | ⟨e', he', hstore⟩
    · exact Or.inl (List.length_eq_zero_iff.mp h0)
    · exact Or.inr ⟨e', he', stored_of_storesToken hstore⟩
  obtain ⟨_, _, hall⟩ := one_refresh (by decide) (by decide) stored_twoReaders hfree hrun hherd
    hstaggered
  obtain ⟨response, honly, hret⟩ := hall (stuck_of_returned hreturned)
  obtain rfl : response = ⟨"at-1", some "rt-1", some 7200, none⟩ := by
    simpa [hone] using honly.symm
  exact ⟨es, c', hrun, by rw [hone]; rfl, hret⟩

end UniMail
