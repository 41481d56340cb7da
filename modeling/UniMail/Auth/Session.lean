import UniMail.Auth.AccessToken
import UniMail.Auth.Batch
import UniMail.Auth.Consent

/-!
# What the provider supplied and what is stored

A session is a completed flow and then refreshes and calls for a token, one at a time. The refresh
token that is stored is always the last one supplied, since a refresh keeps the old one where the
reply has none. The scope is rebuilt from the reply alone: it is the last one supplied as long as no
reply leaves it out once it was supplied (`session_keeps`); a reply that does erases it
(`scope_erased`).
-/

namespace UniMail

open Interaction Relational

variable {aead : Aead} {chrono : Chrono} {key : Key} {oauth : OAuthClient} {i : ℕ} {w w' : World}
  {accountId : String} {ls ls' : List (Label AppSig World Env)}

/-! ### One call -/

/-- The database is as it was, or the token that is stored got other times. -/
def Untouched (aead : Aead) (chrono : Chrono) (key : Key) (accountId : String) (db db' : Db) : Prop :=
  db' = db ∨ ∃ stored lastUsedAt updatedAt nonces ha, Reads aead chrono key accountId db stored ∧
    db' = SqliteTokenStore.upsertRow db (({ stored with lastUsedAt, updatedAt } : StoredToken).toRow
      aead chrono key accountId nonces) ha

/-- A call for a token requests nothing and leaves the grant, or is a refresh. -/
theorem shown_getAccessToken {r : Outcome String} (hcalm : Calm ls)
    (h : Exec (system aead chrono key) i (TokenManager.getAccessToken oauth accountId).run w ls r
      w') :
    (requests ls = [] ∧ Untouched aead chrono key accountId w.db w'.db) ∨
      ∃ r₁, RefreshRun aead chrono key accountId w.db ls r₁ w'.db := by
  have hrun := exec_getAccessToken hcalm h
  generalize w'.db = db' at hrun
  cases hrun with
  | unserved e hrequests => exact Or.inl ⟨hrequests, Or.inl rfl⟩
  | cached stored _ _ _ hstored _ _ _ hrequests hdb =>
    refine Or.inl ⟨hrequests, hdb.imp id ?_⟩
    rintro ⟨lastUsedAt, updatedAt, nonces, hdb⟩
    exact ⟨stored, lastUsedAt, updatedAt, nonces, hstored.account, hstored, hdb⟩
  | refreshed _ _ hrefetched =>
    rcases hrefetched with ⟨e, _, hrun⟩ | ⟨token, _, _, hrun⟩
    · exact Or.inr ⟨_, hrun⟩
    · exact Or.inr ⟨_, hrun⟩

/-! ### What was supplied -/

/-- The replies that granted tokens. -/
def granted (ls : List (Label AppSig World Env)) : List TokenResponse :=
  (requests ls).filterMap fun x => x.2.toOption

/-- The last value of a field among the replies that have it. -/
def lastSupplied {α : Type} (field : TokenResponse → Option α) (responses : List TokenResponse) :
    Option α :=
  (responses.filterMap field).getLast?

/-- No reply leaves the scope out after one that had it. -/
def ScopesStay (responses : List TokenResponse) : Prop :=
  responses.Pairwise fun a b => a.scopes.isSome → b.scopes.isSome

theorem granted_append : granted (ls ++ ls') = granted ls ++ granted ls' := by
  rw [granted, requests_append, List.filterMap_append]
  rfl

theorem lastSupplied_snoc {α : Type} (field : TokenResponse → Option α)
    (past : List TokenResponse) (response : TokenResponse) :
    lastSupplied field (past ++ [response]) = (field response).or (lastSupplied field past) := by
  unfold lastSupplied
  rw [filterMap_snoc, List.getLast?_append]
  cases field response <;> rfl

theorem ScopesStay.last {past : List TokenResponse} {response : TokenResponse}
    (h : ScopesStay (past ++ [response])) (hnone : response.scopes = none) :
    lastSupplied TokenResponse.scopes past = none := by
  unfold lastSupplied
  rw [List.getLast?_eq_none_iff, List.filterMap_eq_nil_iff]
  intro earlier hearlier
  have hstay := (List.pairwise_append.mp h).2.2 earlier hearlier response (List.mem_singleton_self _)
  rw [hnone] at hstay
  cases hscopes : earlier.scopes with
  | none => rfl
  | some scopes =>
    rw [hscopes] at hstay
    cases hstay rfl

/-- The stored refresh token and scope, whenever the record is read. -/
def HoldsGrant (aead : Aead) (chrono : Chrono) (key : Key) (accountId : String) (db : Db)
    (refreshToken scope : Option String) : Prop :=
  ∀ now, ∃ token, SqliteTokenStore.get aead chrono key accountId now db = .ok (some token) ∧
    some token.refreshToken = refreshToken ∧ token.scope = scope

/-- The refresh token and the scope that are stored are the last ones supplied. -/
def HoldsLast (aead : Aead) (chrono : Chrono) (key : Key) (accountId : String) (db : Db)
    (responses : List TokenResponse) : Prop :=
  HoldsGrant aead chrono key accountId db (lastSupplied TokenResponse.refreshToken responses)
    ((lastSupplied TokenResponse.scopes responses).map (" ".intercalate ·))

theorem HoldsGrant.read {db : Db} {refreshToken scope : Option String} {stored : StoredToken}
    (h : HoldsGrant aead chrono key accountId db refreshToken scope)
    (hstored : Reads aead chrono key accountId db stored) :
    some stored.refreshToken = refreshToken ∧ stored.scope = scope := by
  obtain ⟨now, hget⟩ := hstored
  obtain ⟨token, htoken, hrest⟩ := h now
  obtain rfl := Option.some.inj (Except.ok.inj (hget.symm.trans htoken))
  exact hrest

theorem holdsGrant_upsert {db : Db} {token : StoredToken} {nonces : Nonce × Nonce}
    {refreshToken scope : Option String} (ha : db.accounts.find accountId ≠ none)
    (hrefresh : some token.refreshToken = refreshToken) (hscope : token.scope = scope) :
    HoldsGrant aead chrono key accountId
      (SqliteTokenStore.upsertRow db (token.toRow aead chrono key accountId nonces) ha) refreshToken
        scope := fun now =>
  ⟨token.reread chrono now, SqliteTokenStore.get_upsertRow .., hrefresh, hscope⟩

/-! ### The steps of a session -/

theorem Untouched.holdsGrant {db db' : Db} {refreshToken scope : Option String}
    (h : Untouched aead chrono key accountId db db')
    (hholds : HoldsGrant aead chrono key accountId db refreshToken scope) :
    HoldsGrant aead chrono key accountId db' refreshToken scope := by
  rcases h with rfl | ⟨stored, lastUsedAt, updatedAt, nonces, ha, hstored, rfl⟩
  · exact hholds
  · obtain ⟨hrefresh, hscope⟩ := hholds.read hstored
    exact holdsGrant_upsert ha hrefresh hscope

/-- **A refresh keeps what the provider supplied last**, if its reply does not leave out a scope that
was supplied before. -/
theorem RefreshRun.holdsLast {db db' : Db} {r : Outcome Unit} {past : List TokenResponse}
    (h : RefreshRun aead chrono key accountId db ls r db')
    (hholds : HoldsLast aead chrono key accountId db past)
    (hrepresentable : ∀ g ∈ grants ls, Representable g) (hscopes : ScopesStay (past ++ granted ls)) :
    HoldsLast aead chrono key accountId db' (past ++ granted ls) := by
  cases h with
  | unsent e hrequests => rwa [granted, hrequests, List.filterMap_nil, List.append_nil]
  | denied current msg e _ hrequests =>
    have hgranted : granted ls = [] := by rw [granted, hrequests]; rfl
    rwa [hgranted, List.append_nil]
  | overflowed current response now msg _ _ hgrants hover =>
    exact absurd (hrepresentable _ (hgrants ▸ List.mem_singleton_self _)) hover
  | stored current response now expiresAt lastUsedAt updatedAt nonces ha hreads hrequests =>
    have hgranted : granted ls = [response] := by rw [granted, hrequests]; rfl
    rw [hgranted] at hscopes ⊢
    obtain ⟨hrefresh, hscope⟩ := hholds.read hreads
    unfold HoldsLast
    rw [lastSupplied_snoc, lastSupplied_snoc, ← hrefresh]
    refine holdsGrant_upsert ha ?_ ?_
    · cases response.refreshToken <;> rfl
    · show response.scopes.map (" ".intercalate ·) = _
      cases hsupplied : response.scopes with
      | none =>
        rw [hscopes.last hsupplied]
        rfl
      | some scopes => rfl

/-- The calls of a session after the flow, one at a time. -/
inductive Session (aead : Aead) (chrono : Chrono) (key : Key) (oauth : OAuthClient) (i : ℕ)
    (accountId : String) (w : World) : List (Label AppSig World Env) → World → Prop
  | start : Session aead chrono key oauth i accountId w [] w
  | refresh {ls ls' : List (Label AppSig World Env)} {w₁ w' : World} {r : Outcome Unit}
      (h : Session aead chrono key oauth i accountId w ls w₁)
      (hexec : Exec (system aead chrono key) i (TokenManager.refreshAccount oauth accountId).run w₁ ls'
        r w') : Session aead chrono key oauth i accountId w (ls ++ ls') w'
  | token {ls ls' : List (Label AppSig World Env)} {w₁ w' : World} {r : Outcome String}
      (h : Session aead chrono key oauth i accountId w ls w₁)
      (hexec : Exec (system aead chrono key) i (TokenManager.getAccessToken oauth accountId).run w₁ ls'
        r w') : Session aead chrono key oauth i accountId w (ls ++ ls') w'

theorem head_getAccessToken {r : Outcome String}
    (h : Exec (system aead chrono key) i (TokenManager.getAccessToken oauth accountId).run w ls r
      w') : ∀ l, ls.head? = some l → l.op ≠ .utcNow := by
  obtain ⟨env, reply, w₁, ls₁, _, _, rfl⟩ := exec_op_bind h
  intro l hl
  cases hl
  simp

theorem Session.holdsLast {past : List TokenResponse}
    (h : Session aead chrono key oauth i accountId w ls w')
    (hholds : HoldsLast aead chrono key accountId w.db past) (hcalm : Calm ls)
    (hrepresentable : ∀ g ∈ grants ls, Representable g) (hscopes : ScopesStay (past ++ granted ls)) :
    HoldsLast aead chrono key accountId w'.db (past ++ granted ls) := by
  induction h with
  | start => simpa [granted, requests] using hholds
  | @refresh ls ls' w₁ w' r _ hexec ih =>
    obtain ⟨hcalm₁, hcalm₂⟩ := calm_append.mp hcalm
    rw [grants_append (head_refreshAccount hexec)] at hrepresentable
    rw [granted_append, ← List.append_assoc] at hscopes ⊢
    have hbefore := ih hcalm₁ (fun g hg => hrepresentable g (List.mem_append_left _ hg))
      (List.pairwise_append.mp hscopes).1
    obtain ⟨_, hrun⟩ := exec_refreshAccount hcalm₂ hexec
    exact hrun.holdsLast hbefore (fun g hg => hrepresentable g (List.mem_append_right _ hg)) hscopes
  | @token ls ls' w₁ w' r _ hexec ih =>
    obtain ⟨hcalm₁, hcalm₂⟩ := calm_append.mp hcalm
    rw [grants_append (head_getAccessToken hexec)] at hrepresentable
    rw [granted_append, ← List.append_assoc] at hscopes ⊢
    have hbefore := ih hcalm₁ (fun g hg => hrepresentable g (List.mem_append_left _ hg))
      (List.pairwise_append.mp hscopes).1
    rcases shown_getAccessToken hcalm₂ hexec with ⟨hrequests, huntouched⟩ | ⟨r₁, hrun⟩
    · have hgranted : granted ls' = [] := by rw [granted, hrequests]; rfl
      rw [hgranted, List.append_nil]
      exact huntouched.holdsGrant hbefore
    · exact hrun.holdsLast hbefore (fun g hg => hrepresentable g (List.mem_append_right _ hg)) hscopes

/-- **A session keeps what the provider supplied.** As long as no reply leaves out a scope that was
supplied before, no grant overflows and no storage operation fails, the refresh token and the scope
stored after each call are the last ones supplied, and a failed refresh leaves the record as it is. -/
theorem session_keeps {code state : String} {account : Account} {w₁ : World}
    (hflow : Exec (system aead chrono key) i (TokenManager.completeFlow oauth code state).run w ls
      (.ok account) w₁)
    (h : Session aead chrono key oauth i account.id w₁ ls' w') (hcalm : Calm ls')
    (hrepresentable : ∀ g ∈ grants ls', Representable g) (hscopes : ScopesStay (granted (ls ++ ls'))) :
    HoldsLast aead chrono key account.id w'.db (granted (ls ++ ls')) ∧
      ∀ later r w'', Exec (system aead chrono key) i
        (TokenManager.refreshAccount oauth account.id).run w' later r w'' → Calm later →
          r ≠ .ok () → w''.db.tokens.find account.id = w'.db.tokens.find account.id := by
  rcases exec_completeFlow hflow with ⟨_, hr, _⟩ | ⟨_, _, hr, _⟩ |
    ⟨_, hr, flow, response, refreshToken, identity, hconnected⟩
  · cases hr
  · cases hr
  cases hr
  have hgranted : granted ls = [response] := by
    rw [granted, hconnected.exchanged]
    rfl
  have hfirst : HoldsLast aead chrono key account.id w₁.db (granted ls) := by
    rw [hgranted]
    intro now
    obtain ⟨token, hget, _, hrefresh, hscope⟩ := hconnected.token now
    refine ⟨token, hget, ?_, ?_⟩
    · simp [lastSupplied, hconnected.granted, hrefresh]
    · rw [hscope]
      cases hsupplied : response.scopes <;> simp [lastSupplied, hsupplied]
  rw [granted_append] at hscopes ⊢
  refine ⟨h.holdsLast hfirst hcalm hrepresentable hscopes, ?_⟩
  intro later r w'' hexec hcalm' hfailed
  rw [(exec_refreshAccount hcalm' hexec).2.failed hfailed]

/-! ### Two sessions -/

/-- The exchange is granted with a scope, and the refresh with the scopes given. -/
def scopeThen (scopes : Option (List String)) : TokenRequest → Except String TokenResponse
  | .exchangeCode _ _ => .ok ⟨"at-1", some "rt-1", some 3600, some ["Mail.Read"]⟩
  | .refresh _ => .ok ⟨"at-2", none, some 3600, scopes⟩

def sessionEnv (scopes : Option (List String)) : Env :=
  { Env.calm 0 (.error "") with
    token := scopeThen scopes
    resolve := fun _ => .ok ⟨"b@x", some "Bob"⟩ }

/-- A consent for a new mailbox, and a refresh. -/
def sessionRun (scopes : Option (List String)) :
    Option ((List (Label AppSig World Env) × Outcome Account × World) ×
      List (Label AppSig World Env) × Outcome Unit × World) :=
  (sampleSystem.runAlone 0 (sessionEnv scopes) (TokenManager.completeFlow sampleOauth "code" "csrf").run
    (awaiting (connected 9))).bind fun flow =>
      (sampleSystem.runAlone 0 (sessionEnv scopes)
        (TokenManager.refreshAccount sampleOauth "acc-2").run flow.2.2).map fun refresh => (flow, refresh)

/-- What the run does, as parts of a session. -/
theorem sessionRun_session {scopes : Option (List String)}
    {run : (List (Label AppSig World Env) × Outcome Account × World) ×
      List (Label AppSig World Env) × Outcome Unit × World}
    (h : sessionRun scopes = some run) :
    Exec sampleSystem 0 (TokenManager.completeFlow sampleOauth "code" "csrf").run
        (awaiting (connected 9)) run.1.1 run.1.2.1 run.1.2.2 ∧
      Session .tagged (.ofTable firstDay) sampleKey sampleOauth 0 "acc-2" run.1.2.2 run.2.1
        run.2.2.2 := by
  unfold sessionRun at h
  obtain ⟨flow, hflow, hrefresh⟩ := Option.bind_eq_some_iff.mp h
  obtain ⟨refresh, hexec, rfl⟩ := Option.map_eq_some_iff.mp hrefresh
  exact ⟨exec_of_runAlone hflow, .refresh .start (exec_of_runAlone hexec)⟩

/-- A refresh that is granted without a scope erases the one supplied before. -/
theorem scope_erased :
    ∃ ls account w₁ ls' w', Exec sampleSystem 0
        (TokenManager.completeFlow sampleOauth "code" "csrf").run (awaiting (connected 9)) ls
          (.ok account) w₁ ∧
      Session .tagged (.ofTable firstDay) sampleKey sampleOauth 0 account.id w₁ ls' w' ∧ Calm ls' ∧
      lastSupplied TokenResponse.scopes (granted (ls ++ ls')) = some ["Mail.Read"] ∧
      (SqliteTokenStore.get .tagged (.ofTable firstDay) sampleKey account.id 0 w'.db).map
        (Option.map StoredToken.scope) = .ok (some none) ∧
      ¬ HoldsLast .tagged (.ofTable firstDay) sampleKey account.id w'.db (granted (ls ++ ls')) := by
  have hchecks : (sessionRun none).any (fun run => run.1.2.1.map Account.id = .ok "acc-2" ∧
      lastSupplied TokenResponse.scopes (granted (run.1.1 ++ run.2.1)) = some ["Mail.Read"] ∧
      (SqliteTokenStore.get .tagged (.ofTable firstDay) sampleKey "acc-2" 0 run.2.2.2.db).map
        (Option.map StoredToken.scope) = .ok (some none) ∧
      run.2.1.all fun l => l.env.fault.isNone) = true := by
    decide +kernel
  obtain ⟨⟨⟨ls, r, w₁⟩, ls', r', w'⟩, hrun, hr, hlast, hread, hcalm⟩ := exists_of_any hchecks
  obtain ⟨hflow, hsession⟩ := sessionRun_session hrun
  cases r with
  | error e => cases hr
  | ok account =>
    have hid : account.id = "acc-2" := Except.ok.inj hr
    rw [← hid] at hread hsession
    refine ⟨ls, account, w₁, ls', w', hflow, hsession, calm_of_all hcalm, hlast, hread, fun hholds => ?_⟩
    obtain ⟨token, hget, _, hscope⟩ := hholds 0
    rw [hget] at hread
    rw [hlast, Option.some.inj (Except.ok.inj hread)] at hscope
    cases hscope

/-- A refresh that is granted with a scope replaces it. -/
theorem session_keeps_scope :
    ∃ ls account w₁ ls' w', Exec sampleSystem 0
        (TokenManager.completeFlow sampleOauth "code" "csrf").run (awaiting (connected 9)) ls
          (.ok account) w₁ ∧
      Session .tagged (.ofTable firstDay) sampleKey sampleOauth 0 account.id w₁ ls' w' ∧
      lastSupplied TokenResponse.scopes (granted (ls ++ ls')) = some ["Mail.Send"] ∧
      HoldsLast .tagged (.ofTable firstDay) sampleKey account.id w'.db (granted (ls ++ ls')) := by
  have hchecks : (sessionRun (some ["Mail.Send"])).any (fun run =>
      run.1.2.1.map Account.id = .ok "acc-2" ∧
      lastSupplied TokenResponse.scopes (granted (run.1.1 ++ run.2.1)) = some ["Mail.Send"] ∧
      ((granted (run.1.1 ++ run.2.1)).all fun x => x.scopes.isSome) ∧
      (∀ g ∈ grants run.2.1, Representable g) ∧ run.2.1.all fun l => l.env.fault.isNone) = true := by
    decide +kernel
  obtain ⟨⟨⟨ls, r, w₁⟩, ls', r', w'⟩, hrun, hr, hlast, hscopes, hrepresentable, hcalm⟩ :=
    exists_of_any hchecks
  rw [List.all_eq_true] at hscopes
  obtain ⟨hflow, hsession⟩ := sessionRun_session hrun
  cases r with
  | error e => cases hr
  | ok account =>
    have hid : account.id = "acc-2" := Except.ok.inj hr
    rw [← hid] at hsession
    have hstay : ScopesStay (granted (ls ++ ls')) :=
      List.pairwise_of_forall_mem_list fun _ _ b hb _ => hscopes b hb
    exact ⟨ls, account, w₁, ls', w', hflow, hsession, hlast,
      (session_keeps hflow hsession (calm_of_all hcalm) hrepresentable hstay).1⟩

end UniMail
