import UniMail.Auth.Callback
import UniMail.Auth.Refresh
import UniMail.Storage.Timestamps

/-!
# The token a caller gets

`get_access_token` alone, without storage faults (`access_token_usable`): the token it returns is the
cached one, which is good for more than five minutes and whose row keeps what matters, or comes from
one refresh with the stored refresh token, and is the one now stored. When it fails, the database is
as it was.
-/

namespace UniMail

open Interaction

variable {aead : Aead} {chrono : Chrono} {key : Key} {oauth : OAuthClient} {i : ℕ} {w w' : World}
  {accountId : String} {ls : List (Label AppSig World Env)}

/-- The row of the account, if there is one, is the encoding of a token. -/
def Written (aead : Aead) (chrono : Chrono) (key : Key) (accountId : String) (db : Db) : Prop :=
  ∀ row, db.tokens.find accountId = some row →
    ∃ token nonces, row = StoredToken.toRow aead chrono key accountId nonces token

/-- The tokens agree but for the times of use and change. -/
def SameGrant (token token' : StoredToken) : Prop :=
  token'.accessToken = token.accessToken ∧ token'.refreshToken = token.refreshToken ∧
    token'.scope = token.scope ∧ token'.expiresAt = token.expiresAt

/-- `t` is the cached token: it was good for longer than the skew when it was checked, nothing was
requested, and the row keeps its secrets, scope and expiry. -/
def FromCache (aead : Aead) (chrono : Chrono) (key : Key) (accountId : String) (db : Db)
    (ls : List (Label AppSig World Env)) (t : String) (db' : Db) : Prop :=
  ∃ stored expiresAt checked, Reads aead chrono key accountId db stored ∧ t = stored.accessToken ∧
    stored.expiresAt = some expiresAt ∧ (readings ls).head? = some checked ∧
    EXPIRY_SKEW < expiresAt - checked ∧ requests ls = [] ∧
    ∀ now, ∃ kept, SqliteTokenStore.get aead chrono key accountId now db' = .ok (some kept) ∧
      SameGrant stored kept

/-- `t` is the access token of the one refresh that was requested, and the one now stored. -/
def FromRefresh (aead : Aead) (chrono : Chrono) (key : Key) (accountId : String) (db : Db)
    (ls : List (Label AppSig World Env)) (t : String) (db' : Db) : Prop :=
  ∃ stored response, Reads aead chrono key accountId db stored ∧
    requests ls = [(.refresh stored.refreshToken, .ok response)] ∧ t = response.accessToken ∧
    ∀ now, ∃ kept, SqliteTokenStore.get aead chrono key accountId now db' = .ok (some kept) ∧
      kept.accessToken = t

/-! ### The paths -/

theorem exec_writeUsage {token : StoredToken} {r : Outcome Unit} (hcalm : Calm ls)
    (ha : w.db.accounts.find accountId ≠ none)
    (h : Exec (system aead chrono key) i (TokenManager.writeUsage accountId token).run w ls r w') :
    r = .ok () ∧ requests ls = [] ∧ ∃ lastUsedAt updatedAt nonces, w'.db =
      SqliteTokenStore.upsertRow w.db (({ token with lastUsedAt, updatedAt } : StoredToken).toRow
        aead chrono key accountId nonces) ha := by
  unfold TokenManager.writeUsage at h
  obtain ⟨env₁, lastUsedAt, w₁, ls₁, hnow₁, htail₁, rfl⟩ := exec_op_bind h
  obtain ⟨rfl, rfl⟩ := utcNow_eq hnow₁
  obtain ⟨env₂, updatedAt, w₂, ls₂, hnow₂, htail₂, rfl⟩ := exec_op_bind htail₁
  obtain ⟨rfl, rfl⟩ := utcNow_eq hnow₂
  obtain ⟨env₃, stored, w₃, ls₃, hstore, hend, rfl⟩ := exec_op_bind htail₂
  have hfault : env₃.fault = none := hcalm _ (.tail _ (.tail _ (.head _)))
  obtain ⟨_, hdb⟩ := exec_storeToken hfault ha hstore
  obtain ⟨rfl, rfl, rfl⟩ := exec_pure hend
  exact ⟨rfl, rfl, some env₁.now, env₂.now, env₃.nonces, hdb⟩

/-- The bump leaves the database as it is, or writes the token back with other times. -/
theorem exec_bumpLastUsed {token : StoredToken} {r : Outcome Unit} (hcalm : Calm ls)
    (ha : w.db.accounts.find accountId ≠ none)
    (h : Exec (system aead chrono key) i (TokenManager.bumpLastUsed accountId token).run w ls r
      w') :
    r = .ok () ∧ requests ls = [] ∧ (w'.db = w.db ∨ ∃ lastUsedAt updatedAt nonces, w'.db =
      SqliteTokenStore.upsertRow w.db (({ token with lastUsedAt, updatedAt } : StoredToken).toRow
        aead chrono key accountId nonces) ha) := by
  unfold TokenManager.bumpLastUsed at h
  cases hused : token.lastUsedAt with
  | none =>
    rw [hused] at h
    obtain ⟨hr, hrequests, hdb⟩ := exec_writeUsage hcalm ha h
    exact ⟨hr, hrequests, Or.inr hdb⟩
  | some last =>
    rw [hused] at h
    obtain ⟨env, now, w₁, ls₁, hnow, htail, rfl⟩ := exec_op_bind h
    obtain ⟨rfl, rfl⟩ := utcNow_eq hnow
    split at htail
    · obtain ⟨hr, hrequests, hdb⟩ := exec_writeUsage (calm_cons.mp hcalm).2 ha htail
      exact ⟨hr, hrequests, Or.inr hdb⟩
    · obtain ⟨rfl, rfl, rfl⟩ := exec_pure htail
      exact ⟨rfl, rfl, Or.inl rfl⟩

/-- A refresh and then the token it stored: the result `r` of such a call. -/
def Refetched (aead : Aead) (chrono : Chrono) (key : Key) (accountId : String) (db : Db)
    (ls : List (Label AppSig World Env)) (r : Outcome String) (db' : Db) : Prop :=
  (∃ e, r = .error e ∧ RefreshRun aead chrono key accountId db ls (.error e) db') ∨
    ∃ token, r = .ok token.accessToken ∧ Reads aead chrono key accountId db' token ∧
      RefreshRun aead chrono key accountId db ls (.ok ()) db'

theorem Refetched.congr {ls' : List (Label AppSig World Env)} {db db' : Db} {r : Outcome String}
    (h : Refetched aead chrono key accountId db ls r db') (hrequests : requests ls' = requests ls)
    (hgrants : grants ls' = grants ls) (hreadings : ∀ t ∈ readings ls, t ∈ readings ls') :
    Refetched aead chrono key accountId db ls' r db' := by
  rcases h with ⟨e, hr, hrun⟩ | ⟨token, hr, hreads, hrun⟩
  · exact Or.inl ⟨e, hr, hrun.congr hrequests hgrants hreadings⟩
  · exact Or.inr ⟨token, hr, hreads, hrun.congr hrequests hgrants hreadings⟩

/-- How a call for a token ends that finds no good token in the cache. -/
theorem exec_refreshAndGet {r : Outcome String} (hcalm : Calm ls)
    (h : Exec (system aead chrono key) i (TokenManager.refreshAndGet oauth accountId).run w ls r
      w') : Refetched aead chrono key accountId w.db ls r w'.db := by
  unfold TokenManager.refreshAndGet at h
  rcases exec_run_bind h with ⟨_, w₁, ls₁, ls₂, hrefresh, hget, rfl⟩ | ⟨e, hrefresh, rfl⟩
  · obtain ⟨hcalm₁, hcalm₂⟩ := calm_append.mp hcalm
    obtain ⟨_, hrun⟩ := exec_refreshAccount hcalm₁ hrefresh
    -- The token that is read back is the one just stored.
    obtain ⟨env, reply, w₂, ls₃, hexec, htail, rfl⟩ := exec_op_bind hget
    obtain ⟨hreply, rfl⟩ := exec_readToken (calm_cons.mp hcalm₂).1 hexec
    have hback : ∃ token, SqliteTokenStore.get aead chrono key accountId env.now w₂.db =
        .ok (some token) := by
      generalize w₂.db = db₂ at hrun
      cases hrun
      exact ⟨_, SqliteTokenStore.get_upsertRow ..⟩
    obtain ⟨token, htoken⟩ := hback
    rw [htoken] at hreply
    subst hreply
    obtain ⟨rfl, rfl, rfl⟩ := exec_pure htail
    refine Or.inr ⟨token, rfl, ⟨env.now, htoken⟩, hrun.congr ?_ ?_ ?_⟩
    · rw [requests_append]
      exact List.append_nil _
    · rw [grants_append (by simp), grants_cons (by simp)]
      exact List.append_nil _
    · intro t ht
      rw [readings_append]
      exact List.mem_append_left _ ht
  · exact Or.inl ⟨e, rfl, (exec_refreshAccount hcalm hrefresh).2⟩

/-- What the comparison with `Utc::now() + EXPIRY_SKEW` says. -/
theorem skew_lt {now limit expiresAt : Int} (hlimit : DateTime.checkedAdd now EXPIRY_SKEW = some limit)
    (hgood : expiresAt > limit) : EXPIRY_SKEW < expiresAt - now := by
  unfold DateTime.checkedAdd at hlimit
  split at hlimit
  · have heq : now + EXPIRY_SKEW = limit := Option.some.inj hlimit
    exact lt_sub_iff_add_lt'.mpr (heq ▸ hgood)
  · simp at hlimit

/-- A record that can be read can be read at any time. -/
theorem sameGrant_read {db : Db} {stored : StoredToken}
    (hstored : Reads aead chrono key accountId db stored) (now : DateTime) :
    ∃ kept, SqliteTokenStore.get aead chrono key accountId now db = .ok (some kept) ∧
      SameGrant stored kept := by
  obtain ⟨now', hget⟩ := hstored
  obtain ⟨row, hrow, htoken⟩ := SqliteTokenStore.get_some hget
  obtain ⟨updatedAt, hagain⟩ := toToken_now htoken now
  refine ⟨{ stored with updatedAt }, ?_, rfl, rfl, rfl, rfl⟩
  simp only [SqliteTokenStore.get, hrow, hagain]
  rfl

/-- A record that is read from the row and written back with other times keeps the rest. -/
theorem sameGrant_rewritten (hreads : chrono.Reads) {db : Db}
    (hwritten : Written aead chrono key accountId db) {stored : StoredToken}
    (hstored : Reads aead chrono key accountId db stored) (lastUsedAt : Option DateTime)
    (updatedAt now : DateTime) :
    SameGrant stored (({ stored with lastUsedAt, updatedAt } : StoredToken).reread chrono now) := by
  obtain ⟨now', hget⟩ := hstored
  obtain ⟨row, hrow, htoken⟩ := SqliteTokenStore.get_some hget
  obtain ⟨token, nonces, rfl⟩ := hwritten row hrow
  rw [toToken_toRow] at htoken
  obtain rfl := Except.ok.inj htoken
  refine ⟨rfl, rfl, rfl, ?_⟩
  -- The expiry has been through its text once already.
  show ((token.reread chrono now').expiresAt).bind (fun t =>
    chrono.parseFromRfc3339 (chrono.toRfc3339 t)) = (token.reread chrono now').expiresAt
  rw [trip_bind hreads]
  intro t ht
  change token.expiresAt.bind (fun t => chrono.parseFromRfc3339 (chrono.toRfc3339 t)) = some t at ht
  obtain ⟨t', ht', htrip⟩ := Option.bind_eq_some_iff.mp ht
  rw [trip_eq hreads] at htrip
  by_cases hyears : InYears t'
  · rw [if_pos hyears] at htrip
    exact Option.some.inj htrip ▸ hyears
  · simp [hyears] at htrip

/-- How a call for a token from database `db` shows in the labels, ends, and leaves the database. -/
inductive AccessRun (aead : Aead) (chrono : Chrono) (key : Key) (accountId : String) (db : Db)
    (ls : List (Label AppSig World Env)) : Outcome String → Db → Prop
  | unserved (e : Failure) (hrequests : requests ls = []) :
      AccessRun aead chrono key accountId db ls (.error e) db
  | cached (stored : StoredToken) (expiresAt checked : DateTime) (db' : Db)
      (hreads : Reads aead chrono key accountId db stored)
      (hexpires : stored.expiresAt = some expiresAt)
      (hchecked : (readings ls).head? = some checked) (hgood : EXPIRY_SKEW < expiresAt - checked)
      (hrequests : requests ls = [])
      (hdb : db' = db ∨ ∃ lastUsedAt updatedAt nonces, db' =
        SqliteTokenStore.upsertRow db (({ stored with lastUsedAt, updatedAt } : StoredToken).toRow
          aead chrono key accountId nonces) hreads.account) :
      AccessRun aead chrono key accountId db ls (.ok stored.accessToken) db'
  | refreshed (r : Outcome String) (db' : Db)
      (h : Refetched aead chrono key accountId db ls r db') :
      AccessRun aead chrono key accountId db ls r db'

theorem AccessRun.congr {ls' : List (Label AppSig World Env)} {db db' : Db} {r : Outcome String}
    (h : AccessRun aead chrono key accountId db ls r db') (hrequests : requests ls' = requests ls)
    (hgrants : grants ls' = grants ls) (hreadings : readings ls' = readings ls) :
    AccessRun aead chrono key accountId db ls' r db' := by
  cases h with
  | unserved e h₁ => exact .unserved e (hrequests.trans h₁)
  | cached stored expiresAt checked db' hreads hexpires hchecked hgood h₁ hdb =>
    exact .cached stored expiresAt checked db' hreads hexpires (hreadings ▸ hchecked) hgood
      (hrequests.trans h₁) hdb
  | refreshed r db' h => exact .refreshed r db' (h.congr hrequests hgrants fun t ht => hreadings ▸ ht)

theorem exec_getCached {stored : StoredToken}
    (hstored : Reads aead chrono key accountId w.db stored) {r : Outcome String} (hcalm : Calm ls)
    (h : Exec (system aead chrono key) i (TokenManager.getCached oauth accountId stored).run w ls r
      w') : AccessRun aead chrono key accountId w.db ls r w'.db := by
  unfold TokenManager.getCached at h
  cases hexpires : stored.expiresAt with
  | none =>
    rw [hexpires] at h
    exact .refreshed r w'.db (exec_refreshAndGet hcalm h)
  | some expiresAt =>
    rw [hexpires] at h
    obtain ⟨env, now, w₁, ls₁, hnow, htail, rfl⟩ := exec_op_bind h
    obtain ⟨rfl, rfl⟩ := utcNow_eq hnow
    have hcalm₁ := (calm_cons.mp hcalm).2
    rcases exec_orPanic_bind htail with ⟨limit, hlimit, hchecked⟩ | ⟨_, rfl, rfl, rfl⟩
    · by_cases hgood : expiresAt > limit
      · rw [if_pos hgood] at hchecked
        rcases exec_run_bind hchecked with ⟨_, w₂, ls₂, ls₃, hbump, hend, rfl⟩ | ⟨e, hbump, rfl⟩
        · obtain ⟨rfl, rfl, rfl⟩ := exec_pure hend
          rw [List.append_nil] at hcalm₁ ⊢
          obtain ⟨_, hrequests, hdb⟩ := exec_bumpLastUsed hcalm₁ hstored.account hbump
          exact .cached stored expiresAt env.now w'.db hstored hexpires rfl (skew_lt hlimit hgood)
            hrequests hdb
        · have hbumped := (exec_bumpLastUsed hcalm₁ hstored.account hbump).1
          simp at hbumped
      · rw [if_neg hgood] at hchecked
        have hrefetched := exec_refreshAndGet hcalm₁ hchecked
        exact .refreshed r w'.db (hrefetched.congr rfl (grants_cons (by simp)) fun t ht => .tail _ ht)
    · exact .unserved _ rfl

theorem exec_getAccessToken {r : Outcome String} (hcalm : Calm ls)
    (h : Exec (system aead chrono key) i (TokenManager.getAccessToken oauth accountId).run w ls r
      w') : AccessRun aead chrono key accountId w.db ls r w'.db := by
  unfold TokenManager.getAccessToken at h
  obtain ⟨env, reply, w₁, ls₁, hread, hrest, rfl⟩ := exec_op_bind h
  obtain ⟨hfault, hcalm₁⟩ := calm_cons.mp hcalm
  obtain ⟨hreply, rfl⟩ := exec_readToken hfault hread
  rcases exec_check_bind hrest with ⟨stored, rfl, htail⟩ | ⟨e, rfl, rfl, rfl, rfl⟩
  · have hrun : AccessRun aead chrono key accountId w₁.db ls₁ r w'.db := by
      cases stored with
      | none => exact .refreshed r w'.db (exec_refreshAndGet hcalm₁ htail)
      | some stored => exact exec_getCached ⟨env.now, hreply.symm⟩ hcalm₁ htail
    exact hrun.congr rfl (grants_cons (by simp)) rfl
  · exact .unserved _ rfl

/-! ### The token -/

/-- What the cache hands out. -/
theorem fromCache (hreads : chrono.Reads) {db db' : Db}
    (hwritten : Written aead chrono key accountId db) {stored : StoredToken}
    {expiresAt checked : DateTime} (hstored : Reads aead chrono key accountId db stored)
    (hexpires : stored.expiresAt = some expiresAt) (hchecked : (readings ls).head? = some checked)
    (hgood : EXPIRY_SKEW < expiresAt - checked) (hrequests : requests ls = [])
    (hdb : db' = db ∨ ∃ lastUsedAt updatedAt nonces, db' =
      SqliteTokenStore.upsertRow db (({ stored with lastUsedAt, updatedAt } : StoredToken).toRow
        aead chrono key accountId nonces) hstored.account) :
    FromCache aead chrono key accountId db ls stored.accessToken db' := by
  refine ⟨stored, expiresAt, checked, hstored, rfl, hexpires, hchecked, hgood, hrequests,
    fun now => ?_⟩
  rcases hdb with rfl | ⟨lastUsedAt, updatedAt, nonces, rfl⟩
  · exact sameGrant_read hstored now
  · exact ⟨_, SqliteTokenStore.get_upsertRow .., sameGrant_rewritten hreads hwritten hstored
      lastUsedAt updatedAt now⟩

/-- What a refresh hands out. -/
theorem fromRefresh {db db' : Db} {token : StoredToken}
    (hrun : RefreshRun aead chrono key accountId db ls (.ok ()) db')
    (hback : Reads aead chrono key accountId db' token) :
    FromRefresh aead chrono key accountId db ls token.accessToken db' := by
  obtain ⟨now', hget⟩ := hback
  cases hrun with
  | stored current response now expiresAt lastUsedAt updatedAt nonces ha hreads hrequests =>
    rw [SqliteTokenStore.get_upsertRow] at hget
    obtain rfl := Option.some.inj (Except.ok.inj hget)
    exact ⟨current, response, hreads, hrequests, rfl,
      fun now => ⟨_, SqliteTokenStore.get_upsertRow .., rfl⟩⟩

/-- **`get_access_token` hands out usable tokens, and fails cleanly.** -/
theorem access_token_usable (hreads : chrono.Reads)
    (hwritten : Written aead chrono key accountId w.db) {r : Outcome String} (hcalm : Calm ls)
    (h : Exec (system aead chrono key) i (TokenManager.getAccessToken oauth accountId).run w ls r
      w') :
    (∀ t, r = .ok t → FromCache aead chrono key accountId w.db ls t w'.db ∨
      FromRefresh aead chrono key accountId w.db ls t w'.db) ∧
    ∀ e, r = .error e → w'.db = w.db := by
  have hrun := exec_getAccessToken hcalm h
  generalize w'.db = db' at hrun
  cases hrun with
  | unserved e _ => exact ⟨(fun _ ht => nomatch ht), fun _ _ => rfl⟩
  | cached stored expiresAt checked _ hstored hexpires hchecked hgood hrequests hdb =>
    refine ⟨fun t ht => Or.inl ?_, fun _ he => nomatch he⟩
    obtain rfl := Except.ok.inj ht
    exact fromCache hreads hwritten hstored hexpires hchecked hgood hrequests hdb
  | refreshed _ _ hrefetched =>
    rcases hrefetched with ⟨e, rfl, hrun⟩ | ⟨token, rfl, hback, hrun⟩
    · exact ⟨(fun _ ht => nomatch ht), fun _ _ => hrun.failed (by simp)⟩
    · refine ⟨fun t ht => Or.inr ?_, fun _ he => nomatch he⟩
      obtain rfl := Except.ok.inj ht
      exact fromRefresh hrun hback

/-! ### A run -/

abbrev releasedSystem : Machine AppSig World Env := system .tagged .released sampleKey

/-- A process whose database holds the token for the sample account. -/
def holding (token : StoredToken) : World where
  db := (SqliteTokenStore.upsert .tagged .released sampleKey "acc-1" token zeroNonces
    (SqliteAccountStore.create sampleAccount .empty).2).2
  locks _ := none

theorem written_holding (token : StoredToken) :
    Written .tagged .released sampleKey "acc-1" (holding token).db := by
  have ha : (SqliteAccountStore.create sampleAccount .empty).2.accounts.find "acc-1" ≠ none := by
    decide
  intro row hrow
  have hdb : (holding token).db = SqliteTokenStore.upsertRow _
      (token.toRow .tagged .released sampleKey "acc-1" zeroNonces) ha :=
    congrArg Prod.snd (dif_pos ha)
  have hfind : (holding token).db.tokens.find "acc-1" =
      some (token.toRow .tagged .released sampleKey "acc-1" zeroNonces) := by
    rw [hdb]
    exact (SqliteTokenStore.find_upsertRow _ _ ha _).trans (if_pos rfl)
  exact ⟨token, zeroNonces, Option.some.inj (hrow.symm.trans hfind)⟩

def threeHours : World := holding ⟨"at-0", "rt-0", none, some (Duration.hours 3), none, 0⟩

def fourthHour : Option (List (Label AppSig World Env) × Outcome String × World) :=
  releasedSystem.runAlone 0 (.calm 4 (.ok ⟨"at-1", none, some 3600, none⟩))
    (TokenManager.getAccessToken sampleOauth "acc-1").run threeHours

/-- The token of three hours is refreshed in the fourth. -/
theorem access_token_usable_expired :
    ∃ ls w', Exec releasedSystem 0 (TokenManager.getAccessToken sampleOauth "acc-1").run threeHours
        ls (.ok "at-1") w' ∧
      FromRefresh .tagged .released sampleKey "acc-1" threeHours.db ls "at-1" w'.db := by
  have hchecks : fourthHour.any (fun run => run.2.1 = .ok "at-1" ∧ (requests run.1).length = 1 ∧
      run.1.all fun l => l.env.fault.isNone) = true := by decide +kernel
  obtain ⟨⟨ls, r, w'⟩, hrun, rfl, hone, hcalm⟩ := exists_of_any hchecks
  have hexec := exec_of_runAlone hrun
  refine ⟨ls, w', hexec, ?_⟩
  rcases (access_token_usable released_reads (written_holding _) (calm_of_all hcalm) hexec).1 "at-1" rfl with
    ⟨_, _, _, _, _, _, _, _, hnone, _⟩ | hrefresh
  · simp [hnone] at hone
  · exact hrefresh

end UniMail
