import UniMail.Auth.Batch
import UniMail.Auth.Rotation
import UniMail.Process.Fleet
import UniMail.Process.Holder

/-!
# A mailbox is read with its own tokens

Graph knows a mailbox by the bearer token of the request, so a token of another account would read or
send mail there. The lineage of an account (`RefreshOf`, `AccessOf`) is what was stored for it at the
start, what was granted to a consent that was then stored for it, and what the refresh tokens of its
lineage were exchanged for. In every interleaving of any tasks of a fleet, a mail request about an
account, which the thread has looked up or was given, carries an access token of its lineage
(`mail_own_token`); and where every grant is a new token, no token is in the lineage of two accounts
(`lineages_disjoint`).
-/

namespace UniMail

open Interaction Relational

variable {aead : Aead} {chrono : Chrono} {key : Key} {server : MailServer}
  {process : ℕ → ℕ} {α : Type}

/-! ### Lineages -/

section Stored

variable (aead : Aead) (key : Key)

/-- The access token in a row. -/
def TokenRow.accessToken (row : TokenRow) : Option String :=
  match decrypt aead key row.accessTokenEncrypted with
  | .error _ => none
  | .ok bytes => (fromUtf8 bytes).toOption

/-- The access token the store holds for an account. -/
def storedAccessToken (db : Db) (accountId : String) : Option String :=
  (db.tokens.find accountId).bind (TokenRow.accessToken aead key)

variable {aead key}

/-- What `get` reads is the stored access token. -/
theorem storedAccessToken_of_get {accountId : String} {now : DateTime} {db : Db} {token : StoredToken}
    (h : SqliteTokenStore.get aead chrono key accountId now db = .ok (some token)) :
    storedAccessToken aead key db accountId = some token.accessToken := by
  obtain ⟨row, hrow, htoken⟩ := SqliteTokenStore.get_some h
  obtain ⟨access, _, accessToken, _, ha, _, hau, _, rfl⟩ := toToken_eq_ok.mp htoken
  rw [storedAccessToken, hrow]
  simp [TokenRow.accessToken, ha, hau, Except.toOption]

/-- What `upsert` writes becomes the stored access token, of that account only. -/
theorem storedAccessToken_upsertRow {db : Db} {accountId : String} {token : StoredToken}
    {nonces : Nonce × Nonce} (ha : db.accounts.find accountId ≠ none) (id : String) :
    storedAccessToken aead key
        (SqliteTokenStore.upsertRow db (token.toRow aead chrono key accountId nonces) ha) id =
      if accountId = id then some token.accessToken else storedAccessToken aead key db id := by
  have hfind := SqliteTokenStore.find_upsertRow db (token.toRow aead chrono key accountId nonces) ha
    id
  unfold storedAccessToken
  by_cases hid : accountId = id
  · rw [hfind.trans (if_pos hid), if_pos hid]
    simp [TokenRow.accessToken, StoredToken.toRow, decrypt_encrypt, Except.toOption]
  · rw [hfind.trans (if_neg hid), if_neg hid]

end Stored

/-- At the step a code was exchanged for `response`, which has the refresh token. -/
def GrantsCode (e : FleetEvent α) (response : TokenResponse) (refreshToken : String) :
    Prop :=
  (∃ code verifier, e.call = ⟨.token (.exchangeCode code verifier), .ok response⟩) ∧
    response.refreshToken = some refreshToken

/-- At the step a token was stored for the account. -/
def StoresFor (e : FleetEvent α) (accountId : String) (token : StoredToken) : Prop :=
  e.call = ⟨.tokensUpsert accountId token, .ok ()⟩

/-- A call that was granted `response` for a code, and stored a token for the account. -/
def Consented (es : List (FleetEvent α)) (accountId : String) (response : TokenResponse)
    (refreshToken : String) : Prop :=
  ∃ e ∈ es, ∃ e' ∈ es, e'.thread = e.thread ∧ GrantsCode e response refreshToken ∧
    ∃ token, StoresFor e' accountId token

/-- A refresh of `refreshToken` was answered with `response`. -/
def Refreshed (es : List (FleetEvent α)) (refreshToken : String)
    (response : TokenResponse) : Prop :=
  ∃ e ∈ es, e.call = ⟨.token (.refresh refreshToken), .ok response⟩

/-- The refresh tokens of the account: stored at the start, granted to its consents, or granted for
another one of them. -/
inductive RefreshOf (aead : Aead) (key : Key) (start : Db) (es : List (FleetEvent α))
    (accountId : String) : String → Prop
  | stored {rt : String} (h : storedRefreshToken aead key start accountId = some rt) :
      RefreshOf aead key start es accountId rt
  | consented {rt : String} {response : TokenResponse} (h : Consented es accountId response rt) :
      RefreshOf aead key start es accountId rt
  | rotated {presented rt : String} {response : TokenResponse}
      (hpresented : RefreshOf aead key start es accountId presented)
      (h : Refreshed es presented response) (hrt : response.refreshToken = some rt) :
      RefreshOf aead key start es accountId rt

/-- The access tokens of the account. -/
inductive AccessOf (aead : Aead) (key : Key) (start : Db) (es : List (FleetEvent α))
    (accountId : String) : String → Prop
  | stored {accessToken : String} (h : storedAccessToken aead key start accountId = some accessToken) :
      AccessOf aead key start es accountId accessToken
  | consented {rt : String} {response : TokenResponse} (h : Consented es accountId response rt) :
      AccessOf aead key start es accountId response.accessToken
  | refreshed {presented : String} {response : TokenResponse}
      (hpresented : RefreshOf aead key start es accountId presented)
      (h : Refreshed es presented response) :
      AccessOf aead key start es accountId response.accessToken

section Mono

variable {start : Db} {es es' : List (FleetEvent α)} {accountId t : String}
  {response : TokenResponse}

theorem Consented.mono (h : Consented es accountId response t) :
    Consented (es ++ es') accountId response t := by
  obtain ⟨e, he, e', he', h⟩ := h
  exact ⟨e, List.mem_append_left _ he, e', List.mem_append_left _ he', h⟩

theorem Refreshed.mono (h : Refreshed es t response) : Refreshed (es ++ es') t response := by
  obtain ⟨e, he, h⟩ := h
  exact ⟨e, List.mem_append_left _ he, h⟩

theorem RefreshOf.mono (h : RefreshOf aead key start es accountId t) :
    RefreshOf aead key start (es ++ es') accountId t := by
  induction h with
  | stored h => exact .stored h
  | consented h => exact .consented h.mono
  | rotated _ h hrt ih => exact .rotated ih h.mono hrt

theorem AccessOf.mono (h : AccessOf aead key start es accountId t) :
    AccessOf aead key start (es ++ es') accountId t := by
  cases h with
  | stored h => exact .stored h
  | consented h => exact .consented h.mono
  | refreshed hpresented h => exact .refreshed hpresented.mono h.mono

end Mono

/-! ### One step -/

section Step

variable {g : Holder} {o : Op} {r : o.Reply} {id t : String}

/-- What an operation adds to what a call has seen: nothing, the token that it reads, or what it is granted
for a refresh token that it has seen. -/
theorem next_seen (g : Holder) (o : Op) (r : o.Reply) :
    ((holderMonitor.next g o r).access = g.access ∧ (holderMonitor.next g o r).refresh = g.refresh) ∨
      (∃ id token, (⟨o, r⟩ : (o : Op) × o.Reply) = ⟨.tokensGet id, .ok (some token)⟩ ∧
        (holderMonitor.next g o r).access = (id, token.accessToken) :: g.access ∧
        (holderMonitor.next g o r).refresh = (id, token.refreshToken) :: g.refresh) ∨
      ∃ presented response,
        (⟨o, r⟩ : (o : Op) × o.Reply) = ⟨.token (.refresh presented), .ok response⟩ ∧
        (holderMonitor.next g o r).access = g.share presented response.accessToken ++ g.access ∧
        ∀ p ∈ (holderMonitor.next g o r).refresh, p ∈ g.refresh ∨
          ∃ new, response.refreshToken = some new ∧ p ∈ g.share presented new := by
  cases o with
  | tokensGet accountId =>
    rcases r with e | _ | token
    · exact Or.inl ⟨rfl, rfl⟩
    · exact Or.inl ⟨rfl, rfl⟩
    · exact Or.inr (Or.inl ⟨accountId, token, rfl, rfl, rfl⟩)
  | token request =>
    cases r with
    | error e => cases request <;> exact Or.inl ⟨rfl, rfl⟩
    | ok response =>
      cases request with
      | exchangeCode code verifier => exact Or.inl ⟨rfl, rfl⟩
      | refresh presented =>
        refine Or.inr (Or.inr ⟨presented, response, rfl, rfl, fun p hp => ?_⟩)
        rcases List.mem_append.mp hp with hp | hp
        · cases hrt : response.refreshToken with
          | none => simp [hrt] at hp
          | some new =>
            simp only [hrt] at hp
            exact Or.inr ⟨new, rfl, hp⟩
        · exact Or.inl hp
  | tokensUpsert accountId token => cases r <;> exact Or.inl ⟨rfl, rfl⟩
  | _ => exact Or.inl ⟨rfl, rfl⟩

/-- An access token that a call has seen after an operation, it had seen before, read, or was granted for
a refresh token it has seen. -/
theorem next_access (h : (id, t) ∈ (holderMonitor.next g o r).access) :
    (id, t) ∈ g.access ∨
      (∃ token, (⟨o, r⟩ : (o : Op) × o.Reply) = ⟨.tokensGet id, .ok (some token)⟩ ∧
        t = token.accessToken) ∨
      ∃ presented response,
        (⟨o, r⟩ : (o : Op) × o.Reply) = ⟨.token (.refresh presented), .ok response⟩ ∧
        (id, presented) ∈ g.refresh ∧ t = response.accessToken := by
  rcases next_seen g o r with ⟨haccess, _⟩ | ⟨accountId, token, hcall, haccess, _⟩ |
    ⟨presented, response, hcall, haccess, _⟩
  · exact Or.inl (haccess ▸ h)
  · rcases List.mem_cons.mp (haccess ▸ h) with heq | h
    · cases heq
      exact Or.inr (Or.inl ⟨token, hcall, rfl⟩)
    · exact Or.inl h
  · rcases List.mem_append.mp (haccess ▸ h) with h | h
    · obtain ⟨hmem, ht⟩ := Holder.mem_share.mp h
      exact Or.inr (Or.inr ⟨presented, response, hcall, hmem, ht⟩)
    · exact Or.inl h

theorem next_refresh (h : (id, t) ∈ (holderMonitor.next g o r).refresh) :
    (id, t) ∈ g.refresh ∨
      (∃ token, (⟨o, r⟩ : (o : Op) × o.Reply) = ⟨.tokensGet id, .ok (some token)⟩ ∧
        t = token.refreshToken) ∨
      ∃ presented response,
        (⟨o, r⟩ : (o : Op) × o.Reply) = ⟨.token (.refresh presented), .ok response⟩ ∧
        (id, presented) ∈ g.refresh ∧ response.refreshToken = some t := by
  rcases next_seen g o r with ⟨_, hrefresh⟩ | ⟨accountId, token, hcall, _, hrefresh⟩ |
    ⟨presented, response, hcall, _, hrefresh⟩
  · exact Or.inl (hrefresh ▸ h)
  · rcases List.mem_cons.mp (hrefresh ▸ h) with heq | h
    · cases heq
      exact Or.inr (Or.inl ⟨token, hcall, rfl⟩)
    · exact Or.inl h
  · rcases hrefresh _ h with h | ⟨new, hnew, h⟩
    · exact Or.inl h
    · obtain ⟨hmem, rfl⟩ := Holder.mem_share.mp h
      exact Or.inr (Or.inr ⟨presented, response, hcall, hmem, hnew⟩)

theorem next_accounts (g : Holder) (o : Op) (r : o.Reply) :
    (holderMonitor.next g o r).named = g.named ∧ (holderMonitor.next g o r).found = g.found := by
  cases o with
  | tokensGet => rcases r with e | _ | token <;> exact ⟨rfl, rfl⟩
  | token request => cases request <;> cases r <;> exact ⟨rfl, rfl⟩
  | tokensUpsert => cases r <;> exact ⟨rfl, rfl⟩
  | _ => exact ⟨rfl, rfl⟩

/-- The row of an account changes only by a write of its token, and by deletion. -/
theorem token_row_of_exec {i : ℕ} {env : Env} {w w' : World}
    (hexec : (system aead chrono key).exec i o env w = some (r, w')) (id : String) :
    (∃ token, (⟨o, r⟩ : (o : Op) × o.Reply) = ⟨.tokensUpsert id token, .ok ()⟩ ∧
        storedAccessToken aead key w'.db id = some token.accessToken ∧
        storedRefreshToken aead key w'.db id = some token.refreshToken) ∨
      w'.db.tokens.find id = w.db.tokens.find id ∨ w'.db.tokens.find id = none := by
  by_cases ho : o.writesTokens = false
  · refine Or.inr (Or.inl ?_)
    rw [tokens_frame ho hexec]
  · cases o with
    | tokensUpsert accountId token =>
      cases r with
      | error err =>
        rw [tokensUpsert_error hexec]
        exact Or.inr (Or.inl rfl)
      | ok _ =>
        obtain ⟨ha, hdb, _⟩ := tokensUpsert_ok hexec
        rw [hdb]
        by_cases hid : accountId = id
        · subst hid
          refine Or.inl ⟨token, rfl, ?_, ?_⟩
          · rw [storedAccessToken_upsertRow, if_pos rfl]
          · rw [storedRefreshToken_upsertRow, if_pos rfl]
        · refine Or.inr (Or.inl ?_)
          exact (SqliteTokenStore.find_upsertRow _ (token.toRow aead chrono key accountId env.nonces) ha
            id).trans (if_neg hid)
    | tokensDelete accountId =>
      rcases storage_eq (Option.some.inj hexec) with ⟨hw, _⟩ | ⟨_, hw⟩
      · rw [show w' = w from hw]
        exact Or.inr (Or.inl rfl)
      · rw [show w' = _ from hw]
        have hfind := SqliteTokenStore.find_deleteRow w.db accountId id
        by_cases hid : accountId = id
        · exact Or.inr (Or.inr (hfind.trans (if_pos hid)))
        · exact Or.inr (Or.inl (hfind.trans (if_neg hid)))
    | accountsDelete tenantId accountId =>
      rcases storage_eq (Option.some.inj hexec) with ⟨hw, _⟩ | ⟨_, hw⟩
      · rw [show w' = w from hw]
        exact Or.inr (Or.inl rfl)
      · rw [show w' = _ from hw]
        have hfind := SqliteAccountStore.find_tokens_deleteAccount w.db tenantId accountId id
        by_cases hsome : ((SqliteAccountStore.deleteAccount w.db tenantId
            accountId).accounts.find id).isSome
        · exact Or.inr (Or.inl (hfind.trans (if_pos hsome)))
        · exact Or.inr (Or.inr (hfind.trans (if_neg hsome)))
    | _ => exact absurd rfl ho

theorem token_row_after {e : FleetEvent α} (hstep : (fleet aead chrono key process).Step e)
    (id : String) :
    (∃ token, StoresFor e id token ∧
        storedAccessToken aead key e.after.world.db id = some token.accessToken ∧
        storedRefreshToken aead key e.after.world.db id = some token.refreshToken) ∨
      e.after.world.db.tokens.find id = e.before.world.db.tokens.find id ∨
      e.after.world.db.tokens.find id = none := by
  obtain ⟨k, _, hexec, _⟩ := hstep
  obtain ⟨v, hlocal, hafter⟩ := fleet_exec hexec
  rw [hafter]
  exact token_row_of_exec hlocal id

/-- At the step a lookup returns the account. -/
def LooksUp (e : FleetEvent α) (account : Account) : Prop :=
  (∃ tenantId id, e.call = ⟨.accountsGet tenantId id, .ok account⟩) ∨
    ∃ tenantId email, e.call = ⟨.accountsGetByEmail tenantId email, .ok account⟩

/-- A lookup returns an account it was asked for. -/
theorem holder_expects {e : FleetEvent α} (hstep : (fleet aead chrono key process).Step e)
    (hfound : ∀ account, LooksUp e account → g.found account) :
    holderMonitor.expects g e.op e.reply := by
  obtain ⟨before, i, env, o, r, after⟩ := e
  obtain ⟨k, _, hexec, _⟩ := hstep
  obtain ⟨v, hlocal, _⟩ := fleet_exec hexec
  cases o with
  | accountsGet tenantId id =>
    cases r with
    | error e => trivial
    | ok account =>
      obtain ⟨row, hrow, htenant, rfl⟩ :=
        SqliteAccountStore.get_eq_ok.mp (storage_ok (Option.some.inj hlocal)).1
      exact ⟨hfound _ (Or.inl ⟨_, _, rfl⟩), htenant, (Table.find_eq_some.mp hrow).2⟩
  | accountsGetByEmail tenantId email =>
    cases r with
    | error e => trivial
    | ok account =>
      obtain ⟨row, _, htenant, hemail, rfl⟩ :=
        SqliteAccountStore.getByEmail_ok (storage_ok (Option.some.inj hlocal)).1
      exact ⟨hfound _ (Or.inr ⟨_, _, rfl⟩), htenant, hemail⟩
  | _ => trivial

end Step

/-! ### Along a run -/

section Run

variable {start : Db} {past : List (FleetEvent α)} {e : FleetEvent α}
  {c : FleetCfg α} {γ : ℕ → Holder} {i : ℕ} {g : Holder}

/-- The call has done what its state says: nothing of a consent, or been granted the tokens but stored
none, or stored tokens for this account only. -/
def ConsentFits (past : List (FleetEvent α)) (i : ℕ) (g : Holder) : Prop :=
  match g.consent with
  | .none => (∀ e ∈ past, e.thread = i → ∀ response rt, ¬ GrantsCode e response rt) ∧
      (g.refresh = [] → ∀ e ∈ past, e.thread = i → ∀ id token, ¬ StoresFor e id token)
  | .granted response refreshToken =>
      (∃ e ∈ past, e.thread = i ∧ GrantsCode e response refreshToken) ∧
      ∀ e ∈ past, e.thread = i → ∀ id token, ¬ StoresFor e id token
  | .stored accountId =>
      ∀ e ∈ past, e.thread = i → ∀ id token, StoresFor e id token → id = accountId

/-- A step that neither grants tokens for a code nor stores one leaves it fitting. -/
theorem ConsentFits.quiet {g' : Holder} (h : ConsentFits past i g) (hconsent : g'.consent = g.consent)
    (hrefresh : g'.refresh = [] → g.refresh = [])
    (hgrants : e.thread = i → ∀ response rt, ¬ GrantsCode e response rt)
    (hstores : e.thread = i → ∀ id token, ¬ StoresFor e id token) :
    ConsentFits (past ++ [e]) i g' := by
  have hsnoc : ∀ {P : FleetEvent α → Prop}, (∀ e ∈ past, e.thread = i → P e) →
      (e.thread = i → P e) → ∀ e' ∈ past ++ [e], e'.thread = i → P e' := by
    intro P hpast he e' he' hthread
    rcases List.mem_append.mp he' with he' | he'
    · exact hpast e' he' hthread
    · obtain rfl := List.mem_singleton.mp he'
      exact he hthread
  unfold ConsentFits at h ⊢
  rw [hconsent]
  cases hc : g.consent with
  | none =>
    simp only [hc] at h
    exact ⟨hsnoc h.1 hgrants, fun hempty => hsnoc (h.2 (hrefresh hempty)) hstores⟩
  | granted response refreshToken =>
    simp only [hc] at h
    obtain ⟨⟨e', he', hgranted⟩, hnone⟩ := h
    exact ⟨⟨e', List.mem_append_left _ he', hgranted⟩, hsnoc hnone hstores⟩
  | stored accountId =>
    simp only [hc] at h
    exact hsnoc h fun hthread id token hstored => absurd hstored (hstores hthread id token)

/-- Along the run: what the calls have seen and what the rows hold is in the lineage of its account. -/
structure Descends (aead : Aead) (key : Key) (start : Db) (γ₀ : ℕ → Holder)
    (past : List (FleetEvent α)) (c : FleetCfg α) (γ : ℕ → Holder) : Prop where
  accounts : ∀ i, (γ i).named = (γ₀ i).named ∧ (γ i).found = (γ₀ i).found
  access : ∀ i id t, (id, t) ∈ (γ i).access → AccessOf aead key start past id t
  refresh : ∀ i id t, (id, t) ∈ (γ i).refresh → RefreshOf aead key start past id t
  rowAccess : ∀ id t, storedAccessToken aead key c.world.db id = some t →
    AccessOf aead key start past id t
  rowRefresh : ∀ id t, storedRefreshToken aead key c.world.db id = some t →
    RefreshOf aead key start past id t
  consent : ∀ i, ConsentFits past i (γ i)

variable {γ₀ : ℕ → Holder}

/-- What is written to a row is in the lineage of its account, once it is written. -/
theorem Descends.written (h : Descends aead key start γ₀ past e.before γ) {id : String}
    {token : StoredToken} (hallows : holderMonitor.allows (γ e.thread) e.op)
    (hstores : StoresFor e id token) :
    AccessOf aead key start (past ++ [e]) id token.accessToken ∧
      RefreshOf aead key start (past ++ [e]) id token.refreshToken := by
  have hop : e.op = .tokensUpsert id token := (Sigma.mk.inj hstores).1
  rw [hop] at hallows
  rcases hallows with ⟨_, haccess, hrefresh⟩ | ⟨response, hconsent, haccess⟩
  · exact ⟨(h.access _ _ _ haccess).mono, (h.refresh _ _ _ hrefresh).mono⟩
  · have hfits := h.consent e.thread
    unfold ConsentFits at hfits
    rw [hconsent] at hfits
    obtain ⟨⟨e', he', hthread, hgranted⟩, _⟩ := hfits
    have hconsented : Consented (past ++ [e]) id response token.refreshToken :=
      ⟨e', List.mem_append_left _ he', e, by simp, hthread.symm, hgranted, token, hstores⟩
    rw [haccess]
    exact ⟨.consented hconsented, .consented hconsented⟩

/-- What the stepping call is afterwards fits what it has done. -/
theorem ConsentFits.step (h : ConsentFits past e.thread g)
    (hallows : holderMonitor.allows g e.op) :
    ConsentFits (past ++ [e]) e.thread (holderMonitor.next g e.op e.reply) := by
  obtain ⟨before, i, env, o, r, after⟩ := e
  have hquiet : (holderMonitor.next g o r).consent = g.consent →
      ((holderMonitor.next g o r).refresh = [] → g.refresh = []) →
      (∀ code verifier response, (⟨o, r⟩ : (o : Op) × o.Reply) =
        ⟨.token (.exchangeCode code verifier), .ok response⟩ → response.refreshToken = none) →
      (∀ id token, (⟨o, r⟩ : (o : Op) × o.Reply) ≠ ⟨.tokensUpsert id token, .ok ()⟩) →
      ConsentFits (past ++ [⟨before, i, env, o, r, after⟩]) i (holderMonitor.next g o r) := by
    intro hconsent hrefresh hgrants hstores
    refine h.quiet hconsent hrefresh (fun _ response rt => ?_) fun _ id token => hstores id token
    rintro ⟨⟨code, verifier, hcall⟩, hrt⟩
    simp [hgrants code verifier response hcall] at hrt
  cases o with
  | tokensGet id =>
    rcases r with e | _ | token <;> refine hquiet rfl ?_ ?_ ?_ <;> simp [holderMonitor]
  | token request =>
    cases request with
    | refresh presented =>
      cases r with
      | error e => exact hquiet rfl (fun h => h) (by simp) (by simp)
      | ok response =>
        refine hquiet rfl ?_ (by simp) (by simp)
        exact fun hempty => (List.append_eq_nil_iff.mp hempty).2
    | exchangeCode code verifier =>
      obtain ⟨hconsent, hempty⟩ := hallows
      cases r with
      | error e => exact hquiet rfl (fun h => h) (by simp) (by simp)
      | ok response =>
        cases hrt : response.refreshToken with
        | none =>
          refine hquiet ?_ (fun h => h) ?_ (by simp)
          · simp [holderMonitor, hrt, hconsent]
          · rintro _ _ _ ⟨⟩
            exact hrt
        | some refreshToken =>
          have hnext : (holderMonitor.next g (.token (.exchangeCode code verifier))
              (.ok response)).consent = .granted response refreshToken := by
            simp [holderMonitor, hrt]
          unfold ConsentFits at h ⊢
          rw [hconsent] at h
          rw [hnext]
          refine ⟨⟨_, List.mem_append_right _ (List.mem_singleton_self _), rfl, ⟨code, verifier, rfl⟩,
            hrt⟩, fun e' he' hthread id token hstored => ?_⟩
          rcases List.mem_append.mp he' with he' | he'
          · exact h.2 hempty e' he' hthread id token hstored
          · obtain rfl := List.mem_singleton.mp he'
            cases hstored
  | tokensUpsert id token =>
    cases r with
    | error e => exact hquiet rfl (fun h => h) (by simp) (by simp)
    | ok _ =>
      rcases hallows with ⟨hconsent, _, hrefresh⟩ | ⟨response, hconsent, _⟩
      · have hnext : (holderMonitor.next g (.tokensUpsert id token) (.ok ())).consent = .none := by
          simp [holderMonitor, hconsent]
        unfold ConsentFits at h ⊢
        rw [hconsent] at h
        rw [hnext]
        refine ⟨fun e' he' hthread response rt hgranted => ?_, fun hempty => ?_⟩
        · rcases List.mem_append.mp he' with he' | he'
          · exact h.1 e' he' hthread response rt hgranted
          · obtain rfl := List.mem_singleton.mp he'
            obtain ⟨⟨code, verifier, hcall⟩, _⟩ := hgranted
            cases hcall
        · have hempty : g.refresh = [] := hempty
          simp [hempty] at hrefresh
      · have hnext : (holderMonitor.next g (.tokensUpsert id token) (.ok ())).consent =
            .stored id := by
          simp [holderMonitor, hconsent]
        unfold ConsentFits at h ⊢
        rw [hconsent] at h
        rw [hnext]
        intro e' he' hthread id' token' hstored
        rcases List.mem_append.mp he' with he' | he'
        · exact absurd hstored (h.2 e' he' hthread id' token')
        · obtain rfl := List.mem_singleton.mp he'
          cases hstored
          rfl
  | _ => exact hquiet rfl (fun h => h) (by simp) (by simp)

/-- **One step** keeps everything in its lineage. -/
theorem Descends.step (h : Descends aead key start γ₀ past e.before γ)
    (hstep : (fleet aead chrono key process).Step e)
    (hallows : holderMonitor.allows (γ e.thread) e.op) :
    Descends aead key start γ₀ (past ++ [e]) e.after
      (Function.update γ e.thread (holderMonitor.next (γ e.thread) e.op e.reply)) := by
  have hread : ∀ {id token}, e.call = ⟨.tokensGet id, .ok (some token)⟩ →
      storedAccessToken aead key e.before.world.db id = some token.accessToken ∧
        storedRefreshToken aead key e.before.world.db id = some token.refreshToken := by
    intro id token hcall
    obtain ⟨before, i, env, o, r, after⟩ := e
    cases hcall
    obtain ⟨k, _, hexec, _⟩ := hstep
    obtain ⟨v, hlocal, _⟩ := fleet_exec hexec
    obtain ⟨_, hget⟩ := tokensGet_some hlocal
    exact ⟨storedAccessToken_of_get hget, storedRefreshToken_of_get hget⟩
  have hrefreshed : ∀ {presented response},
      e.call = ⟨.token (.refresh presented), .ok response⟩ → Refreshed (past ++ [e]) presented response :=
    fun hcall => ⟨e, by simp, hcall⟩
  refine ⟨fun i => ?_, fun i id t hmem => ?_, fun i id t hmem => ?_, fun id t ht => ?_,
    fun id t ht => ?_, fun i => ?_⟩
  · by_cases hi : i = e.thread
    · subst hi
      obtain ⟨hnamed, hfound⟩ := next_accounts (γ e.thread) e.op e.reply
      rw [Function.update_self, hnamed, hfound]
      exact h.accounts e.thread
    · rw [Function.update_of_ne hi]
      exact h.accounts i
  · by_cases hi : i = e.thread
    · subst hi
      rw [Function.update_self] at hmem
      rcases next_access hmem with hseen | ⟨token, hcall, rfl⟩ | ⟨presented, response, hcall, hseen, rfl⟩
      · exact (h.access _ _ _ hseen).mono
      · exact (h.rowAccess id _ (hread hcall).1).mono
      · exact .refreshed (h.refresh _ _ _ hseen).mono (hrefreshed hcall)
    · rw [Function.update_of_ne hi] at hmem
      exact (h.access i id t hmem).mono
  · by_cases hi : i = e.thread
    · subst hi
      rw [Function.update_self] at hmem
      rcases next_refresh hmem with hseen | ⟨token, hcall, rfl⟩ | ⟨presented, response, hcall, hseen, hrt⟩
      · exact (h.refresh _ _ _ hseen).mono
      · exact (h.rowRefresh id _ (hread hcall).2).mono
      · exact .rotated (h.refresh _ _ _ hseen).mono (hrefreshed hcall) hrt
    · rw [Function.update_of_ne hi] at hmem
      exact (h.refresh i id t hmem).mono
  · rcases token_row_after hstep id with ⟨token, hstores, haccess, _⟩ | hsame | hnone
    · obtain rfl := Option.some.inj (haccess.symm.trans ht)
      exact (h.written hallows hstores).1
    · rw [storedAccessToken, hsame] at ht
      exact (h.rowAccess id t ht).mono
    · simp [storedAccessToken, hnone] at ht
  · rcases token_row_after hstep id with ⟨token, hstores, _, hrefresh⟩ | hsame | hnone
    · obtain rfl := Option.some.inj (hrefresh.symm.trans ht)
      exact (h.written hallows hstores).2
    · rw [storedRefreshToken, hsame] at ht
      exact (h.rowRefresh id t ht).mono
    · simp [storedRefreshToken, hnone] at ht
  · by_cases hi : i = e.thread
    · subst hi
      rw [Function.update_self]
      exact (h.consent e.thread).step hallows
    · rw [Function.update_of_ne hi]
      exact (h.consent i).quiet rfl (fun h => h) (fun hthread => absurd hthread.symm hi)
        fun hthread => absurd hthread.symm hi

end Run

/-! ### The tasks of a process -/

section Tasks

variable {tasks : List Task} {w : FleetWorld} {es : List (FleetEvent TaskReturn)}
  {c : FleetCfg TaskReturn}

/-- The accounts that the task of a thread names. -/
def namedBy (server : MailServer) (tasks : List Task) (i : ℕ) (account : Account) : Prop :=
  ∃ task, tasks[i]? = some task ∧ task.Names server account

/-- The accounts that a thread was given, or that a lookup of its own returned. -/
def foundBy (tasks : List Task) (es : List (FleetEvent α)) (i : ℕ) (account : Account) : Prop :=
  (∃ limit, tasks[i]? = some (.fetch limit account)) ∨ ∃ e ∈ es, e.thread = i ∧ LooksUp e account

/-- What the calls of a run are at its start. -/
def holders (server : MailServer) (tasks : List Task) (es : List (FleetEvent α)) (i : ℕ) : Holder :=
  ⟨namedBy server tasks i, foundBy tasks es i, [], [], .none⟩

theorem holder_start :
    PoolFollows holderMonitor (fun _ _ => True) (holders server tasks es)
      (Task.start server tasks w).pool := by
  intro i p hp
  rw [Task.start, List.getElem?_map] at hp
  obtain ⟨task, htask, rfl⟩ := Option.map_eq_some_iff.mp hp
  have hnamed : namedBy server tasks i = task.Names server := by
    funext account
    simp [namedBy, htask]
  rw [holders, hnamed]
  refine holder_task ?_
  rintro limit account rfl
  exact Or.inl ⟨limit, htask⟩

theorem descends_start :
    Descends aead key w.db (holders server tasks es) [] (Task.start server tasks w)
      (holders server tasks es) where
  accounts _ := ⟨rfl, rfl⟩
  access _ _ _ h := by simp [holders] at h
  refresh _ _ _ h := by simp [holders] at h
  rowAccess _ _ h := .stored h
  rowRefresh _ _ h := .stored h
  consent i := ⟨fun _ h => by simp at h, fun _ _ h => by simp at h⟩

/-- In every run everything keeps to its lineage. -/
theorem descends_run (h : (fleet aead chrono key process).Run (Task.start server tasks w) es c) :
    Descends aead key w.db (holders server tasks es) es c
        (ghosts holderMonitor (holders server tasks es) es) ∧
      PoolFollows holderMonitor (fun _ _ => True) (ghosts holderMonitor (holders server tasks es) es)
        c.pool := by
  refine h.follows
    (I := fun past d γ => Descends aead key w.db (holders server tasks es) past d γ)
    descends_start holder_start ?_
  intro past e post hes hstep _ hdescends hallows
  constructor
  · refine holder_expects hstep fun account hlooked => ?_
    rw [(hdescends.accounts e.thread).2]
    exact Or.inr ⟨e, by simp [hes], rfl, hlooked⟩
  · rw [ghosts_snoc]
    exact hdescends.step hstep hallows

end Tasks

/-! ### Lineages are disjoint, and mail uses its own -/

section Disjoint

/-- What the provider grants at a step, if it does. -/
def grantedResponse : FleetEvent α → Option TokenResponse
  | ⟨_, _, _, .token _, .ok response, _⟩ => some response
  | _ => none

def grantedRefreshToken (e : FleetEvent α) : Option String := (grantedResponse e).bind TokenResponse.refreshToken

def grantedAccessToken (e : FleetEvent α) : Option String := (grantedResponse e).map TokenResponse.accessToken

/-- The tokens stored at the start and those issued since are all different. -/
structure FreshTokens (aead : Aead) (key : Key) (start : Db)
    (es : List (FleetEvent α)) : Prop where
  refresh : (start.tokens.rows.filterMap (TokenRow.refreshToken aead key) ++
    es.filterMap grantedRefreshToken).Nodup
  access : (start.tokens.rows.filterMap (TokenRow.accessToken aead key) ++
    es.filterMap grantedAccessToken).Nodup

/-- Where the images are all different, an image has one origin. -/
theorem eq_of_filterMap_nodup {β γ : Type} {f : β → Option γ} {l : List β}
    (h : (l.filterMap f).Nodup) {x y : β} {t : γ} (hx : x ∈ l) (hy : y ∈ l) (hfx : f x = some t)
    (hfy : f y = some t) : x = y := by
  induction l with
  | nil => simp at hx
  | cons a l ih =>
    have hin : ∀ {z}, z ∈ l → f z = some t → t ∈ l.filterMap f :=
      fun hz hfz => List.mem_filterMap.mpr ⟨_, hz, hfz⟩
    rcases List.mem_cons.mp hx with rfl | hxl
    · rcases List.mem_cons.mp hy with rfl | hyl
      · rfl
      · rw [List.filterMap_cons_some hfx] at h
        exact absurd (hin hyl hfy) (List.nodup_cons.mp h).1
    · rcases List.mem_cons.mp hy with rfl | hyl
      · rw [List.filterMap_cons_some hfy] at h
        exact absurd (hin hxl hfx) (List.nodup_cons.mp h).1
      · exact ih (h.sublist ((List.sublist_cons_self a l).filterMap f)) hxl hyl

/-- The row of a token that is stored. -/
theorem row_of_stored {db : Db} {id t : String} {f : TokenRow → Option String}
    (h : (db.tokens.find id).bind f = some t) : ∃ row ∈ db.tokens.rows, row.accountId = id ∧
      f row = some t := by
  obtain ⟨row, hrow, ht⟩ := Option.bind_eq_some_iff.mp h
  obtain ⟨hmem, hid⟩ := Table.find_eq_some.mp hrow
  exact ⟨row, hmem, hid, ht⟩

theorem grantedResponse_of_call {e : FleetEvent α} {request : TokenRequest} {response : TokenResponse}
    (h : e.call = ⟨.token request, .ok response⟩) : grantedResponse e = some response := by
  obtain ⟨before, i, env, o, r, after⟩ := e
  cases h
  rfl

variable {start : Db} {es : List (FleetEvent α)} {id id' t : String}

/-- Tokens of one list that are stored at the start or issued later are not both. -/
theorem stored_not_issued {f : TokenRow → Option String} {issue : FleetEvent α → Option String}
    (hfresh : (start.tokens.rows.filterMap f ++ es.filterMap issue).Nodup)
    (hstored : (start.tokens.find id).bind f = some t) {e : FleetEvent α} (he : e ∈ es)
    (hissued : issue e = some t) : False := by
  obtain ⟨row, hrow, _, ht⟩ := row_of_stored hstored
  exact (List.nodup_append.mp hfresh).2.2 t (List.mem_filterMap.mpr ⟨row, hrow, ht⟩) t
    (List.mem_filterMap.mpr ⟨e, he, hissued⟩) rfl

theorem stored_unique {f : TokenRow → Option String} {issue : FleetEvent α → Option String}
    (hfresh : (start.tokens.rows.filterMap f ++ es.filterMap issue).Nodup)
    (h : (start.tokens.find id).bind f = some t) (h' : (start.tokens.find id').bind f = some t) :
    id = id' := by
  obtain ⟨row, hrow, rfl, ht⟩ := row_of_stored h
  obtain ⟨row', hrow', rfl, ht'⟩ := row_of_stored h'
  rw [eq_of_filterMap_nodup (List.nodup_append.mp hfresh).1 hrow hrow' ht ht']

theorem issue_unique {f : TokenRow → Option String} {issue : FleetEvent α → Option String}
    (hfresh : (start.tokens.rows.filterMap f ++ es.filterMap issue).Nodup)
    {e e' : FleetEvent α} (he : e ∈ es) (he' : e' ∈ es) (h : issue e = some t)
    (h' : issue e' = some t) : e = e' :=
  eq_of_filterMap_nodup (List.nodup_append.mp hfresh).2.1 he he' h h'

/-- A call that was granted tokens for a code stores them for one account. -/
theorem consent_unique {γ : ℕ → Holder} (hfits : ∀ i, ConsentFits es i (γ i))
    {e e₁ e₂ : FleetEvent α} {response : TokenResponse} {rt : String} (he : e ∈ es)
    (he₁ : e₁ ∈ es) (he₂ : e₂ ∈ es) (hgrants : GrantsCode e response rt)
    (hthread₁ : e₁.thread = e.thread) (hthread₂ : e₂.thread = e.thread) {token token' : StoredToken}
    (h₁ : StoresFor e₁ id token) (h₂ : StoresFor e₂ id' token') : id = id' := by
  have hfits := hfits e.thread
  unfold ConsentFits at hfits
  split at hfits
  · exact absurd hgrants (hfits.1 e he rfl response rt)
  · exact absurd h₁ (hfits.2 e₁ he₁ hthread₁ id token)
  · exact (hfits e₁ he₁ hthread₁ id token h₁).trans (hfits e₂ he₂ hthread₂ id' token' h₂).symm

variable {γ : ℕ → Holder}

theorem refreshOf_unique (hfresh : FreshTokens aead key start es)
    (hfits : ∀ i, ConsentFits es i (γ i)) (h : RefreshOf aead key start es id t)
    (h' : RefreshOf aead key start es id' t) : id = id' := by
  have hissued : ∀ {e : FleetEvent α} {request : TokenRequest} {response : TokenResponse}
      {rt : String}, e.call = ⟨.token request, .ok response⟩ → response.refreshToken = some rt →
      grantedRefreshToken e = some rt := by
    intro e request response rt hcall hrt
    rw [grantedRefreshToken, grantedResponse_of_call hcall]
    exact hrt
  induction h with
  | stored h =>
    cases h' with
    | stored h' => exact stored_unique hfresh.refresh h h'
    | consented h' =>
      obtain ⟨e, he, _, _, _, ⟨⟨_, _, hcall⟩, hrt⟩, _⟩ := h'
      exact (stored_not_issued hfresh.refresh h he (hissued hcall hrt)).elim
    | rotated _ h' hrt =>
      obtain ⟨e, he, hcall⟩ := h'
      exact (stored_not_issued hfresh.refresh h he (hissued hcall hrt)).elim
  | consented h =>
    obtain ⟨e, he, e₁, he₁, hthread, hgrants, token, hstores⟩ := h
    have hgranted := hgrants
    obtain ⟨⟨code, verifier, hcall⟩, hrt⟩ := hgranted
    cases h' with
    | stored h' => exact (stored_not_issued hfresh.refresh h' he (hissued hcall hrt)).elim
    | consented h' =>
      obtain ⟨e', he', e₂, he₂, hthread', ⟨⟨code', verifier', hcall'⟩, hrt'⟩, token', hstores'⟩ := h'
      obtain rfl := issue_unique hfresh.refresh he he' (hissued hcall hrt) (hissued hcall' hrt')
      exact consent_unique hfits he he₁ he₂ hgrants hthread hthread' hstores hstores'
    | rotated _ h' hrt' =>
      obtain ⟨e', he', hcall'⟩ := h'
      obtain rfl := issue_unique hfresh.refresh he he' (hissued hcall hrt) (hissued hcall' hrt')
      cases hcall.symm.trans hcall'
  | rotated _ h hrt ih =>
    obtain ⟨e, he, hcall⟩ := h
    cases h' with
    | stored h' => exact (stored_not_issued hfresh.refresh h' he (hissued hcall hrt)).elim
    | consented h' =>
      obtain ⟨e', he', _, _, _, ⟨⟨_, _, hcall'⟩, hrt'⟩, _⟩ := h'
      obtain rfl := issue_unique hfresh.refresh he he' (hissued hcall hrt) (hissued hcall' hrt')
      cases hcall.symm.trans hcall'
    | rotated hpresented' h' hrt' =>
      obtain ⟨e', he', hcall'⟩ := h'
      obtain rfl := issue_unique hfresh.refresh he he' (hissued hcall hrt) (hissued hcall' hrt')
      cases hcall.symm.trans hcall'
      exact ih hpresented'

theorem accessOf_unique (hfresh : FreshTokens aead key start es)
    (hfits : ∀ i, ConsentFits es i (γ i)) (h : AccessOf aead key start es id t)
    (h' : AccessOf aead key start es id' t) : id = id' := by
  have hissued : ∀ {e : FleetEvent α} {request : TokenRequest} {response : TokenResponse},
      e.call = ⟨.token request, .ok response⟩ → grantedAccessToken e = some response.accessToken := by
    intro e request response hcall
    rw [grantedAccessToken, grantedResponse_of_call hcall]
    rfl
  generalize ht : t = t' at h'
  cases h with
  | stored h =>
    cases h' with
    | stored h' => exact stored_unique hfresh.access h (ht ▸ h')
    | consented h' =>
      obtain ⟨e, he, _, _, _, ⟨⟨_, _, hcall⟩, _⟩, _⟩ := h'
      exact (stored_not_issued hfresh.access h he (ht ▸ hissued hcall)).elim
    | refreshed _ h' =>
      obtain ⟨e, he, hcall⟩ := h'
      exact (stored_not_issued hfresh.access h he (ht ▸ hissued hcall)).elim
  | consented h =>
    obtain ⟨e, he, e₁, he₁, hthread, hgrants, token, hstores⟩ := h
    have hgranted := hgrants
    obtain ⟨⟨code, verifier, hcall⟩, hrt⟩ := hgranted
    cases h' with
    | stored h' => exact (stored_not_issued hfresh.access h' he (ht ▸ hissued hcall)).elim
    | consented h' =>
      obtain ⟨e', he', e₂, he₂, hthread', ⟨⟨code', verifier', hcall'⟩, hrt'⟩, token', hstores'⟩ := h'
      obtain rfl := issue_unique hfresh.access he he' (hissued hcall) (ht ▸ hissued hcall')
      exact consent_unique hfits he he₁ he₂ hgrants hthread hthread' hstores hstores'
    | refreshed _ h' =>
      obtain ⟨e', he', hcall'⟩ := h'
      obtain rfl := issue_unique hfresh.access he he' (hissued hcall) (ht ▸ hissued hcall')
      cases hcall.symm.trans hcall'
  | refreshed hpresented h =>
    obtain ⟨e, he, hcall⟩ := h
    cases h' with
    | stored h' => exact (stored_not_issued hfresh.access h' he (ht ▸ hissued hcall)).elim
    | consented h' =>
      obtain ⟨e', he', _, _, _, ⟨⟨_, _, hcall'⟩, _⟩, _⟩ := h'
      obtain rfl := issue_unique hfresh.access he he' (hissued hcall) (ht ▸ hissued hcall')
      cases hcall.symm.trans hcall'
    | refreshed hpresented' h' =>
      obtain ⟨e', he', hcall'⟩ := h'
      obtain rfl := issue_unique hfresh.access he he' (hissued hcall) (ht ▸ hissued hcall')
      cases hcall.symm.trans hcall'
      exact refreshOf_unique hfresh hfits hpresented hpresented'

/-- The thread is about the account: its task names it, and was given the record, or looked it up before
and got this row. -/
def IsAbout (server : MailServer) (tasks : List Task) (past : List (FleetEvent TaskReturn)) (i : ℕ)
    (account : Account) : Prop :=
  namedBy server tasks i account ∧ foundBy tasks past i account

/-- **A mailbox is read with its own tokens.** Every request to Graph of every interleaving of any tasks
is made by a thread that was given an account or has looked it up, and bears an access token of the
lineage of this account; where the provider never issues a token twice, that is of no other lineage. -/
theorem mail_own_token {tasks : List Task} {w : FleetWorld} {past post : List (FleetEvent TaskReturn)}
    {e : FleetEvent TaskReturn} {c : FleetCfg TaskReturn}
    (hrun : (fleet aead chrono key process).Run (Task.start server tasks w) (past ++ e :: post) c)
    {request : GraphRequest} (hop : e.op = .graph request) :
    ∃ account, IsAbout server tasks past e.thread account ∧
      AccessOf aead key w.db past account.id request.bearer ∧
      (FreshTokens aead key w.db past →
        ∀ id, AccessOf aead key w.db past id request.bearer → id = account.id) := by
  obtain ⟨hpast, hstep, _⟩ := hrun.split
  obtain ⟨hdescends, hfollows⟩ := descends_run hpast
  have hallows := hfollows.allows hstep
  rw [hop] at hallows
  obtain ⟨account, hsubject, hseen⟩ := hallows
  rw [(hdescends.accounts _).1, (hdescends.accounts _).2] at hsubject
  have haccess := hdescends.access _ _ _ hseen
  exact ⟨account, hsubject, haccess, fun hfresh id h => accessOf_unique hfresh hdescends.consent h haccess⟩

/-- **Lineages are disjoint.** In every interleaving of any tasks in which the provider never issues a
token twice, nor one that was stored at the start, no access token and no refresh token is in the lineage
of two accounts. -/
theorem lineages_disjoint {tasks : List Task} {w : FleetWorld}
    {es : List (FleetEvent TaskReturn)} {c : FleetCfg TaskReturn}
    (hrun : (fleet aead chrono key process).Run (Task.start server tasks w) es c)
    (hfresh : FreshTokens aead key w.db es) (id t : String) :
    (RefreshOf aead key w.db es id t → ∀ id', RefreshOf aead key w.db es id' t → id' = id) ∧
      (AccessOf aead key w.db es id t → ∀ id', AccessOf aead key w.db es id' t → id' = id) := by
  obtain ⟨hdescends, _⟩ := descends_run hrun
  exact ⟨fun h _ h' => refreshOf_unique hfresh hdescends.consent h' h,
    fun h _ h' => accessOf_unique hfresh hdescends.consent h' h⟩

end Disjoint

/-! ### Two messages that are read -/

/-- The bearer token of a request to Graph. -/
def Op.bearer? : Op → Option String
  | .graph request => some request.bearer
  | _ => none

theorem graph_of_bearer {o : Op} {bearer : String} (h : o.bearer? = some bearer) :
    ∃ request, o = .graph request ∧ request.bearer = bearer := by
  cases o with
  | graph request => exact ⟨request, rfl, Option.some.inj h⟩
  | _ => cases h

/-- The account that a lookup finds at a step, with the thread. -/
def foundAt : FleetEvent α → Option (ℕ × String)
  | ⟨_, i, _, .accountsGet _ _, .ok account, _⟩ => some (i, account.id)
  | ⟨_, i, _, .accountsGetByEmail _ _, .ok account, _⟩ => some (i, account.id)
  | _ => none

theorem foundAt_of_looksUp {e : FleetEvent α} {account : Account} (h : LooksUp e account) :
    foundAt e = some (e.thread, account.id) := by
  obtain ⟨before, i, env, o, r, after⟩ := e
  rcases h with ⟨_, _, hcall⟩ | ⟨_, _, hcall⟩ <;> cases hcall <;> rfl

/-- The refresh that a step grants, if it does. -/
def grantedAt : FleetEvent α → Option (String × TokenResponse)
  | ⟨_, _, _, .token (.refresh presented), .ok response, _⟩ => some (presented, response)
  | _ => none

theorem refreshed_of_mem {es : List (FleetEvent α)} {presented : String}
    {response : TokenResponse} (h : (presented, response) ∈ es.filterMap grantedAt) :
    Refreshed es presented response := by
  obtain ⟨e, he, hgranted⟩ := List.mem_filterMap.mp h
  refine ⟨e, he, ?_⟩
  unfold grantedAt at hgranted
  split at hgranted
  · cases hgranted
    rfl
  · cases hgranted

/-- A request names its account by the id, and a tool by another spelling of the email address. -/
def readTasks : List Task :=
  [.request "tenant-a" (.getEmail "acc-1" "m-1"), .tool (.readEmail ⟨"B@x", "m-2"⟩)]

def readStart : FleetCfg TaskReturn := Task.start sampleMailServer readTasks threeAccounts.alone

/-- What is granted for the tokens of the first and of the second account. -/
def grantedTo (i : ℕ) : TokenResponse :=
  ⟨if i = 0 then "at-3" else "at-4", some (if i = 0 then "rt-3" else "rt-4"), some 3600, none⟩

def readEnv (i : ℕ) : FleetEnv := ⟨.calm 1 (.ok (grantedTo i)), .empty⟩

/-- Both tasks step in turn, until the second is about to send its request. -/
def untilSent : List (ℕ × FleetEnv) :=
  (List.replicate 13 [0, 1]).flatten.map fun i => (i, readEnv i)

theorem untilSent_run : (sampleFleet.replay readStart untilSent).isSome = true := by
  decide +kernel

def readEvents : List (FleetEvent TaskReturn) :=
  ((sampleFleet.replay readStart untilSent).get untilSent_run).1

/-- The configuration in which the request is sent. -/
def beforeSent : FleetCfg TaskReturn :=
  ((sampleFleet.replay readStart untilSent).get untilSent_run).2

theorem readEvents_run : sampleFleet.Run readStart readEvents beforeSent :=
  run_replay readStart untilSent untilSent_run

theorem sent_step : (sampleFleet.step? beforeSent 1 (readEnv 1)).isSome = true := by
  decide +kernel

theorem readEvents_fresh : FreshTokens .tagged sampleKey threeAccounts.db readEvents :=
  ⟨by decide +kernel, by decide +kernel⟩

/-- The tool finds the second account. -/
theorem second_finds {i : ℕ} (hi : i = 1) {account : Account}
    (h : IsAbout sampleMailServer readTasks readEvents i account) : account.id = "acc-2" := by
  subst hi
  obtain ⟨_, ⟨limit, htask⟩ | ⟨e, he, hthread, hlooked⟩⟩ := h
  · cases htask
  · have hfound : readEvents.filterMap foundAt = [(0, "acc-1"), (1, "acc-2")] := by decide +kernel
    have hmem := List.mem_filterMap.mpr ⟨e, he, foundAt_of_looksUp hlooked⟩
    rw [hfound, hthread] at hmem
    simpa using hmem

theorem mail_own_token_read : ∃ e request c account,
    sampleFleet.Run readStart (readEvents ++ e :: []) c ∧
      e.op = .graph request ∧ request.bearer = "at-4" ∧ account.id = "acc-2" ∧
      IsAbout sampleMailServer readTasks readEvents e.thread account ∧
      AccessOf .tagged sampleKey threeAccounts.db readEvents "acc-2" "at-4" ∧
      ∀ id, AccessOf .tagged sampleKey threeAccounts.db readEvents id "at-4" → id = "acc-2" := by
  let e := (sampleFleet.step? beforeSent 1 (readEnv 1)).get sent_step
  obtain ⟨hbefore, hstep⟩ := step_of_step? (e := e) (Option.some_get sent_step).symm
  have hpast := readEvents_run
  rw [← show e.before = beforeSent from hbefore] at hpast
  have hrun := hpast.snoc hstep
  obtain ⟨request, hop, hbearer⟩ : ∃ request, e.op = .graph request ∧ request.bearer = "at-4" :=
    graph_of_bearer (by decide +kernel)
  obtain ⟨account, habout, haccess, hunique⟩ := mail_own_token hrun hop
  have hid : account.id = "acc-2" := second_finds (by decide +kernel) habout
  rw [hbearer, hid] at haccess hunique
  exact ⟨e, request, _, account, hrun, hop, hbearer, hid, habout, haccess, hunique readEvents_fresh⟩

theorem lineages_disjoint_two :
    (AccessOf .tagged sampleKey threeAccounts.db readEvents "acc-1" "at-3" ∧
      AccessOf .tagged sampleKey threeAccounts.db readEvents "acc-2" "at-4") ∧
      (∀ id, AccessOf .tagged sampleKey threeAccounts.db readEvents id "at-3" → id = "acc-1") ∧
      ∀ id, AccessOf .tagged sampleKey threeAccounts.db readEvents id "at-4" → id = "acc-2" := by
  have hfirst : AccessOf .tagged sampleKey threeAccounts.db readEvents "acc-1" "at-3" := by
    have hpresented : RefreshOf .tagged sampleKey threeAccounts.db readEvents "acc-1" "rt-1" :=
      .stored (by decide +kernel)
    have hgranted : Refreshed readEvents "rt-1" (grantedTo 0) :=
      refreshed_of_mem (by decide +kernel)
    exact .refreshed hpresented hgranted
  have hsecond : AccessOf .tagged sampleKey threeAccounts.db readEvents "acc-2" "at-4" := by
    have hpresented : RefreshOf .tagged sampleKey threeAccounts.db readEvents "acc-2" "rt-2" :=
      .stored (by decide +kernel)
    have hgranted : Refreshed readEvents "rt-2" (grantedTo 1) :=
      refreshed_of_mem (by decide +kernel)
    exact .refreshed hpresented hgranted
  exact ⟨⟨hfirst, hsecond⟩, (lineages_disjoint readEvents_run readEvents_fresh "acc-1" "at-3").2 hfirst,
    (lineages_disjoint readEvents_run readEvents_fresh "acc-2" "at-4").2 hsecond⟩

end UniMail
