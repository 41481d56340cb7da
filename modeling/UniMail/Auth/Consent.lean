import UniMail.Auth.Callback
import UniMail.Auth.Refresh

/-!
# A consent run alone

What `complete_flow` does when no other call interferes, whatever fails (`exec_completeFlow`): it
fails and leaves the accounts and the tokens as they are, it fails after it inserted a new account
(`Stranded`), or it returns the account under which it stored the exchanged token (`Connected`).

An existing account is only updated in memory, so what is returned is what is stored exactly when
there is nothing to update (`consent_stored_iff`). The writes are not in one transaction:
`failed_call_tables` says what a failed `complete_flow` or `disconnect` can leave behind.
-/

namespace UniMail

open Interaction Relational

variable {aead : Aead} {chrono : Chrono} {key : Key} {oauth : OAuthClient} {i : ℕ} {w w' : World}
  {ls : List (Label AppSig World Env)}

/-! ### What a run draws -/

section Labels

variable (ls : List (Label AppSig World Env))

/-- The identifiers drawn for new accounts. -/
def drawn : List String :=
  ls.filterMap fun
    | ⟨.newUuid, _, _, id⟩ => some id
    | _ => none

/-- The times read for accounts, as text. -/
def stamps : List String :=
  ls.filterMap fun
    | ⟨.storageNow, _, _, now⟩ => some now
    | _ => none

/-- The identities resolved. -/
def identities : List ResolvedIdentity :=
  ls.filterMap fun
    | ⟨.resolve _, _, _, .ok identity⟩ => some identity
    | _ => none

/-- The flows taken. -/
def takenFlows : List PendingFlow :=
  ls.filterMap fun
    | ⟨.flowsTake _, _, _, .ok flow⟩ => some flow
    | _ => none

/-- The accounts inserted. -/
def inserted : List Account :=
  ls.filterMap fun
    | ⟨.accountsCreate account, _, _, .ok _⟩ => some account
    | _ => none

/-- Nothing is requested, resolved or taken. -/
def Unheard : Prop := requests ls = [] ∧ identities ls = [] ∧ takenFlows ls = []

end Labels

variable {ls' : List (Label AppSig World Env)}

@[simp] theorem drawn_append : drawn (ls ++ ls') = drawn ls ++ drawn ls' :=
  List.filterMap_append ..

@[simp] theorem stamps_append : stamps (ls ++ ls') = stamps ls ++ stamps ls' :=
  List.filterMap_append ..

@[simp] theorem identities_append : identities (ls ++ ls') = identities ls ++ identities ls' :=
  List.filterMap_append ..

@[simp] theorem takenFlows_append : takenFlows (ls ++ ls') = takenFlows ls ++ takenFlows ls' :=
  List.filterMap_append ..

@[simp] theorem inserted_append : inserted (ls ++ ls') = inserted ls ++ inserted ls' :=
  List.filterMap_append ..

theorem Unheard.append (h : Unheard ls) (h' : Unheard ls') : Unheard (ls ++ ls') := by
  obtain ⟨hrequests, hidentities, htaken⟩ := h
  obtain ⟨hrequests', hidentities', htaken'⟩ := h'
  refine ⟨?_, ?_, ?_⟩
  · rw [requests_append, hrequests, hrequests', List.append_nil]
  · rw [identities_append, hidentities, hidentities', List.append_nil]
  · rw [takenFlows_append, htaken, htaken', List.append_nil]

/-- Nothing is drawn either. -/
structure Inert (ls : List (Label AppSig World Env)) : Prop where
  unheard : Unheard ls
  drawn : drawn ls = []
  stamps : stamps ls = []

theorem Inert.append (h : Inert ls) (h' : Inert ls') : Inert (ls ++ ls') := by
  refine ⟨h.unheard.append h'.unheard, ?_, ?_⟩
  · rw [drawn_append, h.drawn, h'.drawn, List.append_nil]
  · rw [stamps_append, h.stamps, h'.stamps, List.append_nil]

theorem Inert.cons {l : Label AppSig World Env} (hl : Inert [l]) (h : Inert ls) : Inert (l :: ls) :=
  hl.append h

/-! ### The account -/

/-- The account `complete_flow` goes on with: the one found by its email, with the new identity, or a
new one. -/
inductive Chosen (db : Db) (tenantId : String) (identity : ResolvedIdentity)
    (ls : List (Label AppSig World Env)) : Account → Prop
  | known (existing : Account) (updatedAt : String)
      (hfound : SqliteAccountStore.getByEmail tenantId identity.email db = .ok existing)
      (hdrawn : drawn ls = []) (hstamps : stamps ls = [updatedAt]) :
      Chosen db tenantId identity ls
        { existing with displayName := identity.displayName, status := .active, updatedAt }
  | new (id createdAt updatedAt msg : String)
      (hmissing : SqliteAccountStore.getByEmail tenantId identity.email db =
        .error (.notFound msg))
      (hdrawn : drawn ls = [id]) (hstamps : stamps ls = [createdAt, updatedAt]) :
      Chosen db tenantId identity ls {
        id
        tenantId
        emailAddress := identity.email
        displayName := identity.displayName
        provider := "microsoft"
        status := .active
        createdAt
        updatedAt }

theorem Chosen.tenant {db : Db} {tenantId : String} {identity : ResolvedIdentity} {account : Account}
    (h : Chosen db tenantId identity ls account) : account.tenantId = tenantId := by
  cases h with
  | known existing updatedAt hfound =>
    obtain ⟨row, _, htenant, _, hrow⟩ := SqliteAccountStore.getByEmail_ok hfound
    have hsame := congrArg Account.tenantId hrow
    exact hsame.symm.trans htenant
  | new => rfl

theorem Chosen.active {db : Db} {tenantId : String} {identity : ResolvedIdentity} {account : Account}
    (h : Chosen db tenantId identity ls account) : account.status = .active := by
  cases h <;> rfl

theorem storageNow_eq {now : String} {env : Env}
    (h : (system aead chrono key).exec i .storageNow env w = some (now, w')) : w' = w := by
  cases h
  rfl

theorem exec_flowAccount {tenantId : String} {identity : ResolvedIdentity} {r : Outcome Account}
    (h : Exec (system aead chrono key) i (TokenManager.flowAccount tenantId identity).run w ls r
      w') :
    Unheard ls ∧ inserted ls = [] ∧ w' = w ∧ ((∃ e, r = .error e) ∨
      ∃ account, r = .ok account ∧ Chosen w.db tenantId identity ls account) := by
  unfold TokenManager.flowAccount at h
  obtain ⟨env, reply, w₁, ls₁, hlookup, hrest, rfl⟩ := exec_op_bind h
  obtain rfl := storage_read (Option.some.inj hlookup)
  cases reply with
  | ok existing =>
    obtain ⟨hfound, _⟩ := storage_ok (Option.some.inj hlookup)
    obtain ⟨env₁, updatedAt, w₂, ls₂, hnow, hend, rfl⟩ := exec_op_bind hrest
    obtain rfl := storageNow_eq hnow
    obtain ⟨rfl, rfl, rfl⟩ := exec_pure hend
    exact ⟨⟨rfl, rfl, rfl⟩, rfl, rfl,
      Or.inr ⟨_, rfl, .known existing updatedAt hfound rfl rfl⟩⟩
  | error e =>
    cases e with
    | notFound msg =>
      have hmissing : SqliteAccountStore.getByEmail tenantId identity.email w₁.db =
          .error (.notFound msg) := by
        rcases storage_eq (Option.some.inj hlookup) with ⟨_, fault, hfault⟩ | ⟨hr, _⟩
        · cases hfault
        · exact hr.symm
      obtain ⟨env₁, id, w₂, ls₂, huuid, htail, rfl⟩ := exec_op_bind hrest
      obtain ⟨_, rfl⟩ := newUuid_eq huuid
      obtain ⟨env₂, createdAt, w₃, ls₃, hnow₁, htail₁, rfl⟩ := exec_op_bind htail
      obtain rfl := storageNow_eq hnow₁
      obtain ⟨env₃, updatedAt, w₄, ls₄, hnow₂, hend, rfl⟩ := exec_op_bind htail₁
      obtain rfl := storageNow_eq hnow₂
      obtain ⟨rfl, rfl, rfl⟩ := exec_pure hend
      exact ⟨⟨rfl, rfl, rfl⟩, rfl, rfl,
        Or.inr ⟨_, rfl, .new id createdAt updatedAt msg hmissing rfl rfl⟩⟩
    | _ =>
      obtain ⟨rfl, rfl, rfl⟩ := exec_throw hrest
      exact ⟨⟨rfl, rfl, rfl⟩, rfl, rfl, Or.inl ⟨_, rfl⟩⟩

/-- The account is there already, or it is inserted; where that fails, nothing changes. -/
theorem exec_ensureAccount {tenantId : String} {account : Account} {r : Outcome Unit}
    (h : Exec (system aead chrono key) i (TokenManager.ensureAccount tenantId account).run w ls r
      w') :
    Inert ls ∧ ((∃ e, r = .error e ∧ inserted ls = [] ∧ w' = w) ∨
      r = .ok () ∧ (inserted ls = [] ∧ w' = w ∧
          (∃ stored, SqliteAccountStore.get tenantId account.id w.db = .ok stored) ∨
        inserted ls = [account] ∧ ∃ hc : ¬ SqliteAccountStore.Conflicts w.db account,
          w'.db = SqliteAccountStore.insertAccount w.db account hc)) := by
  unfold TokenManager.ensureAccount at h
  obtain ⟨env, reply, w₁, ls₁, hget, hrest, rfl⟩ := exec_op_bind h
  obtain rfl := storage_read (Option.some.inj hget)
  cases reply with
  | ok stored =>
    obtain ⟨hfound, _⟩ := storage_ok (Option.some.inj hget)
    obtain ⟨rfl, rfl, rfl⟩ := exec_pure hrest
    exact ⟨⟨⟨rfl, rfl, rfl⟩, rfl, rfl⟩, Or.inr ⟨rfl, Or.inl ⟨rfl, rfl, stored, hfound⟩⟩⟩
  | error e =>
    obtain ⟨env₁, created, w₂, ls₂, hcreate, hend, rfl⟩ := exec_op_bind hrest
    obtain ⟨rfl, rfl, rfl⟩ := exec_check hend
    refine ⟨⟨⟨rfl, rfl, rfl⟩, rfl, rfl⟩, ?_⟩
    cases created with
    | ok u =>
      obtain ⟨hr, rfl⟩ := storage_ok (Option.some.inj hcreate)
      obtain ⟨hc, hdb⟩ := SqliteAccountStore.create_ok (Prod.ext hr rfl)
      exact Or.inr ⟨rfl, Or.inr ⟨rfl, hc, hdb⟩⟩
    | error e' =>
      refine Or.inl ⟨_, rfl, rfl, ?_⟩
      rcases storage_eq (Option.some.inj hcreate) with ⟨hw, _⟩ | ⟨hr, hw⟩
      · exact hw
      · have hdb := SqliteAccountStore.create_error (Prod.ext hr.symm rfl)
        exact hw.trans (congrArg (fun db => { w₁ with db }) hdb)

theorem Chosen.congr {db db' : Db} {ls' : List (Label AppSig World Env)} {tenantId : String}
    {identity : ResolvedIdentity} {account : Account} (h : Chosen db tenantId identity ls account)
    (haccounts : db'.accounts = db.accounts) (hdrawn : drawn ls' = drawn ls)
    (hstamps : stamps ls' = stamps ls) : Chosen db' tenantId identity ls' account := by
  have hlookup := SqliteAccountStore.getByEmail_congr haccounts tenantId identity.email
  cases h with
  | known existing updatedAt hfound h₁ h₂ =>
    exact .known existing updatedAt (hlookup.trans hfound) (hdrawn.trans h₁) (hstamps.trans h₂)
  | new id createdAt updatedAt msg hmissing h₁ h₂ =>
    exact .new id createdAt updatedAt msg (hlookup.trans hmissing) (hdrawn.trans h₁)
      (hstamps.trans h₂)

/-! ### The whole call -/

/-- The accounts after the account was ensured: it was there, or it is new. -/
def Ensured (db : Db) (account : Account) (accounts : Table String AccountRow AccountRow.id) : Prop :=
  accounts = db.accounts ∧ (∃ stored, SqliteAccountStore.get account.tenantId account.id db = .ok stored) ∨
    ∃ hc : ¬ SqliteAccountStore.Conflicts db account,
      accounts = (SqliteAccountStore.insertAccount db account hc).accounts

theorem Ensured.congr {db db₁ : Db} {account : Account}
    {accounts : Table String AccountRow AccountRow.id} (h : Ensured db₁ account accounts)
    (hdb : db₁.accounts = db.accounts) : Ensured db account accounts := by
  rcases h with ⟨haccounts, stored, hget⟩ | hinserted
  · refine Or.inl ⟨haccounts.trans hdb, stored, ?_⟩
    rw [← SqliteAccountStore.get_congr hdb]
    exact hget
  · exact Or.inr (SqliteAccountStore.inserted_congr hdb hinserted)

/-- An account with a row is not inserted. -/
theorem Ensured.of_find {db : Db} {account : Account}
    {accounts : Table String AccountRow AccountRow.id} {row : AccountRow}
    (h : Ensured db account accounts) (hrow : db.accounts.find account.id = some row) :
    accounts = db.accounts := by
  rcases h with ⟨haccounts, _⟩ | ⟨hc, _⟩
  · exact haccounts
  · exact absurd (SqliteAccountStore.conflicts_of_find hrow) hc

/-- The accounts and the tokens are as they were. -/
def SameTables (db db' : Db) : Prop := db'.accounts = db.accounts ∧ db'.tokens = db.tokens

/-- The run inserted no account, and the accounts and the tokens are as they were. -/
structure Refused (db : Db) (ls : List (Label AppSig World Env)) (db' : Db) : Prop where
  created : inserted ls = []
  same : SameTables db db'

/-- The run inserted the account, and failed to store its token. The row is the only difference. -/
structure Stranded (db : Db) (ls : List (Label AppSig World Env)) (account : Account) (db' : Db) :
    Prop where
  created : inserted ls = [account]
  failed : ∃ prior token env w₁ e,
    ls = prior ++ [⟨.tokensUpsert account.id token, env, w₁, .error e⟩]
  active : account.status = .active
  free : db.accounts.find account.id = none
  accounts : ∀ id, db'.accounts.find id =
    if id = account.id then some account.toRow else db.accounts.find id
  tokens : db'.tokens = db.tokens

/-- The new account has no token. -/
theorem Stranded.token_none {db db' : Db} {account : Account} (h : Stranded db ls account db') :
    db'.tokens.find account.id = none := by
  rw [h.tokens]
  exact Db.token_none h.free

/-- What `connect` stores. -/
structure Stored (aead : Aead) (chrono : Chrono) (key : Key) (db : Db) (tenantId : String)
    (tokenSet : TokenSet) (refreshToken : String) (ls : List (Label AppSig World Env))
    (account : Account) (db' : Db) : Prop where
  resolved : ∃ identity, identities ls = [identity] ∧ Chosen db tenantId identity ls account
  ensured : Ensured db account db'.accounts
  tokens : ∃ lastUsedAt updatedAt nonces, db'.tokens = db.tokens.upsert
    ((storedToken tokenSet refreshToken lastUsedAt updatedAt).toRow aead chrono key account.id nonces)

/-- The account is ensured, then its token is written. -/
theorem exec_persist {tenantId refreshToken : String} {tokenSet : TokenSet} {account : Account}
    {lastUsedAt updatedAt : DateTime} {r : Outcome Account} (htenant : account.tenantId = tenantId)
    (hactive : account.status = .active)
    (h : Exec (system aead chrono key) i (do
      TokenManager.ensureAccount tenantId account
      check (← op (.tokensUpsert account.id (storedToken tokenSet refreshToken lastUsedAt updatedAt)))
      return account : Async Account).run w ls r w') :
    Inert ls ∧ ((∃ e, r = .error e ∧ Refused w.db ls w'.db) ∨
      (∃ e, r = .error e ∧ Stranded w.db ls account w'.db) ∨
      r = .ok account ∧ Ensured w.db account w'.db.accounts ∧
        ∃ nonces, w'.db.tokens = w.db.tokens.upsert
          ((storedToken tokenSet refreshToken lastUsedAt updatedAt).toRow aead chrono key account.id
            nonces)) := by
  subst htenant
  rcases exec_run_bind h with ⟨_, w₁, ls₁, ls₂, hensure, hwrite, rfl⟩ | ⟨e, hensure, rfl⟩
  swap
  · obtain ⟨hinert, hcases⟩ := exec_ensureAccount hensure
    rcases hcases with ⟨_, _, hinserted, rfl⟩ | ⟨hok, _⟩
    · exact ⟨hinert, Or.inl ⟨e, rfl, hinserted, rfl, rfl⟩⟩
    · cases hok
  obtain ⟨hinert, hcases⟩ := exec_ensureAccount hensure
  obtain ⟨_, hcontra, _⟩ | ⟨_, hensured⟩ := hcases
  · cases hcontra
  obtain ⟨env, written, w₂, ls₃, hexec, hend, rfl⟩ := exec_op_bind hwrite
  have hwritten : Inert [⟨.tokensUpsert account.id
      (storedToken tokenSet refreshToken lastUsedAt updatedAt), env, w₁, written⟩] :=
    ⟨⟨rfl, rfl, rfl⟩, rfl, rfl⟩
  rcases exec_check_bind hend with ⟨u, rfl, hdone⟩ | ⟨e, rfl, rfl, rfl, rfl⟩
  · obtain ⟨rfl, rfl, rfl⟩ := exec_pure hdone
    obtain ⟨ha, hdb, _⟩ := tokensUpsert_ok hexec
    have haccounts := accounts_frame rfl hexec
    have htokens : w'.db.tokens = w₁.db.tokens.upsert _ := congrArg Db.tokens hdb
    refine ⟨hinert.append hwritten, Or.inr (Or.inr ⟨rfl, ?_⟩)⟩
    rw [haccounts]
    rcases hensured with ⟨_, rfl, hstored⟩ | ⟨_, hc, hdb₁⟩
    · exact ⟨Or.inl ⟨rfl, hstored⟩, env.nonces, htokens⟩
    · rw [hdb₁] at htokens ⊢
      exact ⟨Or.inr ⟨hc, rfl⟩, env.nonces, htokens⟩
  · obtain rfl := tokensUpsert_error hexec
    refine ⟨hinert.append hwritten, ?_⟩
    rcases hensured with ⟨hinserted, rfl, _⟩ | ⟨hinserted, hc, hdb₁⟩
    · refine Or.inl ⟨_, rfl, ?_, rfl, rfl⟩
      rw [inserted_append, hinserted]
      rfl
    · refine Or.inr (Or.inl ⟨_, rfl, ?_, ⟨ls₁, _, env, _, e, rfl⟩, hactive,
        SqliteAccountStore.free_id hc, fun id => ?_, ?_⟩)
      · rw [inserted_append, hinserted]
        rfl
      · rw [hdb₁, SqliteAccountStore.find_insertAccount]
        exact if_congr eq_comm rfl rfl
      · rw [hdb₁]
        rfl

theorem Refused.congr {db db₁ db' : Db} (h : Refused db₁ ls' db') (hdb : SameTables db db₁)
    (hls : inserted ls = []) : Refused db (ls ++ ls') db' := by
  refine ⟨?_, h.same.1.trans hdb.1, h.same.2.trans hdb.2⟩
  rw [inserted_append, hls, h.created, List.nil_append]

theorem Stranded.congr {db db₁ db' : Db} {account : Account} (h : Stranded db₁ ls' account db')
    (hdb : SameTables db db₁) (hls : inserted ls = []) : Stranded db (ls ++ ls') account db' := by
  obtain ⟨hinserted, ⟨prior, token, env, w₁, e, rfl⟩, hactive, hfree, haccounts, htokens⟩ := h
  refine ⟨?_, ⟨ls ++ prior, token, env, w₁, e, (List.append_assoc ..).symm⟩, hactive, ?_, ?_,
    htokens.trans hdb.2⟩
  · rw [inserted_append, hls, hinserted, List.nil_append]
  · rwa [← hdb.1]
  · rwa [← hdb.1]

theorem exec_connect {tenantId refreshToken : String} {tokenSet : TokenSet} {r : Outcome Account}
    (h : Exec (system aead chrono key) i
      (TokenManager.connect tenantId tokenSet refreshToken).run w ls r w') :
    requests ls = [] ∧ takenFlows ls = [] ∧
      ((∃ e, r = .error e ∧ Refused w.db ls w'.db) ∨
        (∃ account e, r = .error e ∧ account.tenantId = tenantId ∧ Stranded w.db ls account w'.db) ∨
        ∃ account, r = .ok account ∧
          Stored aead chrono key w.db tenantId tokenSet refreshToken ls account w'.db) := by
  unfold TokenManager.connect at h
  obtain ⟨env, reply, w₁, ls₁, hresolve, hrest, rfl⟩ := exec_op_bind h
  obtain rfl : w₁ = w := by
    cases hresolve
    rfl
  rcases exec_check_bind hrest with ⟨identity, rfl, htail⟩ | ⟨e, rfl, rfl, rfl, rfl⟩
  swap
  · exact ⟨rfl, rfl, Or.inl ⟨_, rfl, rfl, rfl, rfl⟩⟩
  rcases exec_run_bind htail with ⟨account, w₂, ls₂, ls₃, hchoose, htail₁, rfl⟩ | ⟨e, hchoose, rfl⟩
  swap
  · obtain ⟨⟨hrequests, _, htaken⟩, hinserted, rfl, _⟩ := exec_flowAccount hchoose
    exact ⟨hrequests, htaken, Or.inl ⟨e, rfl, hinserted, rfl, rfl⟩⟩
  obtain ⟨hunheard, hinserted, rfl, hchosen⟩ := exec_flowAccount hchoose
  obtain ⟨_, hcontra⟩ | ⟨_, haccount, hchosen⟩ := hchosen
  · cases hcontra
  cases haccount
  obtain ⟨env₁, lastUsedAt, w₃, ls₄, hnow₁, htail₂, rfl⟩ := exec_op_bind htail₁
  obtain ⟨rfl, rfl⟩ := utcNow_eq hnow₁
  obtain ⟨env₂, updatedAt, w₄, ls₅, hnow₂, hpersist, rfl⟩ := exec_op_bind htail₂
  obtain ⟨rfl, rfl⟩ := utcNow_eq hnow₂
  obtain ⟨hinert, hcases⟩ := exec_persist hchosen.tenant hchosen.active hpersist
  -- The identity is resolved once and the account chosen, then everything is quiet.
  have hafter : ∀ w₁ w₂ : World,
      Inert (⟨.utcNow, env₁, w₁, env₁.now⟩ :: ⟨.utcNow, env₂, w₂, env₂.now⟩ :: ls₅) :=
    fun _ _ => .cons ⟨⟨rfl, rfl, rfl⟩, rfl, rfl⟩ (.cons ⟨⟨rfl, rfl, rfl⟩, rfl, rfl⟩ hinert)
  obtain ⟨hrequests, hidentities, htaken⟩ := hunheard.append (hafter _ _).unheard
  refine ⟨hrequests, htaken, ?_⟩
  -- Nothing is inserted until the account is ensured.
  have hchoice : ∀ w : World, inserted (⟨.resolve tokenSet.accessToken, env, w, .ok identity⟩ :: ls₂) =
      [] := fun _ => hinserted
  have hclocks : ∀ w₁ w₂ : World,
      inserted [⟨.utcNow, env₁, w₁, env₁.now⟩, ⟨.utcNow, env₂, w₂, env₂.now⟩] = [] :=
    fun _ _ => rfl
  rcases hcases with ⟨e, rfl, hrefused⟩ | ⟨e, rfl, hstranded⟩ | ⟨rfl, hensured, nonces, htokens⟩
  · exact Or.inl ⟨e, rfl, (hrefused.congr ⟨rfl, rfl⟩ (hclocks _ _)).congr ⟨rfl, rfl⟩ (hchoice _)⟩
  · exact Or.inr (Or.inl ⟨account, e, rfl, hchosen.tenant,
      (hstranded.congr ⟨rfl, rfl⟩ (hclocks _ _)).congr ⟨rfl, rfl⟩ (hchoice _)⟩)
  · refine Or.inr (Or.inr ⟨account, rfl, ⟨identity, ?_, hchosen.congr rfl ?_ ?_⟩, hensured,
      _, _, nonces, htokens⟩)
    · exact congrArg (identity :: ·) hidentities
    · exact (drawn_append ..).trans (by rw [(hafter _ _).drawn, List.append_nil])
    · exact (stamps_append ..).trans (by rw [(hafter _ _).stamps, List.append_nil])

/-- What the provider, the resolver and the store of flows gave a run that connected an account. -/
structure Connected (aead : Aead) (chrono : Chrono) (key : Key) (db : Db)
    (ls : List (Label AppSig World Env)) (account : Account) (db' : Db) (code : String)
    (flow : PendingFlow) (response : TokenResponse) (refreshToken : String)
    (identity : ResolvedIdentity) : Prop where
  took : takenFlows ls = [flow]
  exchanged : requests ls = [(.exchangeCode code flow.verifier, .ok response)]
  granted : response.refreshToken = some refreshToken
  resolved : identities ls = [identity]
  chosen : Chosen db flow.tenantId identity ls account
  ensured : Ensured db account db'.accounts
  tokens : ∃ expiresAt lastUsedAt updatedAt nonces, db'.tokens = db.tokens.upsert
    ((storedToken (response.tokenSet expiresAt) refreshToken lastUsedAt updatedAt).toRow aead chrono
      key account.id nonces)

/-- A run of the token endpoint that ends with a token set got it from one reply. -/
theorem Requested.granted {request : TokenRequest} {failed : String → AppError} {tokenSet : TokenSet}
    (h : Requested request failed w ls (.ok tokenSet)) :
    ∃ response expiresAt, requests ls = [(request, .ok response)] ∧
      tokenSet = response.tokenSet expiresAt := by
  cases h with
  | undated env response hnone => exact ⟨response, none, rfl, rfl⟩
  | dated env env' response secs t hsecs ht => exact ⟨response, some t, rfl, rfl⟩

/-- Nothing is taken, drawn or resolved by a request. -/
theorem Requested.quiet {request : TokenRequest} {failed : String → AppError} {r : Outcome TokenSet}
    (h : Requested request failed w ls r) :
    takenFlows ls = [] ∧ drawn ls = [] ∧ stamps ls = [] ∧ identities ls = [] := by
  cases h <;> exact ⟨rfl, rfl, rfl, rfl⟩

theorem Requested.inserted {request : TokenRequest} {failed : String → AppError} {r : Outcome TokenSet}
    (h : Requested request failed w ls r) : inserted ls = [] := by
  cases h <;> rfl

/-- What comes before `connect`: the flow is taken and its code exchanged. -/
structure Exchanged (ls : List (Label AppSig World Env)) (code : String) (flow : PendingFlow)
    (response : TokenResponse) : Prop where
  took : takenFlows ls = [flow]
  exchanged : requests ls = [(.exchangeCode code flow.verifier, .ok response)]
  drawn : drawn ls = []
  stamps : stamps ls = []
  identities : identities ls = []

/-- What `connect` stores after the exchange is what the consent connects. -/
theorem Stored.connected {db db₁ db' : Db} {code refreshToken : String} {flow : PendingFlow}
    {response : TokenResponse} {expiresAt : Option DateTime} {account : Account}
    (h : Stored aead chrono key db₁ flow.tenantId (response.tokenSet expiresAt) refreshToken ls' account
      db') (hprior : Exchanged ls code flow response) (hsame : SameTables db db₁)
    (hgranted : response.refreshToken = some refreshToken) (hrequests : requests ls' = [])
    (htaken : takenFlows ls' = []) :
    ∃ identity, Connected aead chrono key db (ls ++ ls') account db' code flow response refreshToken
      identity := by
  obtain ⟨⟨identity, hidentities, hchosen⟩, hensured, lastUsedAt, updatedAt, nonces, htokens⟩ := h
  refine ⟨identity, ?_, ?_, hgranted, ?_, hchosen.congr hsame.1.symm ?_ ?_,
    hensured.congr hsame.1, expiresAt, lastUsedAt, updatedAt, nonces, ?_⟩
  · rw [takenFlows_append, hprior.took, htaken, List.append_nil]
  · rw [requests_append, hprior.exchanged, hrequests, List.append_nil]
  · rw [identities_append, hprior.identities, hidentities, List.nil_append]
  · rw [drawn_append, hprior.drawn, List.nil_append]
  · rw [stamps_append, hprior.stamps, List.nil_append]
  · rw [htokens, hsame.2]

/-- **A consent run alone.** -/
theorem exec_completeFlow {code state : String} {r : Outcome Account}
    (h : Exec (system aead chrono key) i (TokenManager.completeFlow oauth code state).run w ls r
      w') :
    (∃ e, r = .error e ∧ Refused w.db ls w'.db) ∨
      (∃ account e, r = .error e ∧ Stranded w.db ls account w'.db) ∨
      ∃ account, r = .ok account ∧ ∃ flow response refreshToken identity,
        Connected aead chrono key w.db ls account w'.db code flow response refreshToken identity := by
  unfold TokenManager.completeFlow at h
  obtain ⟨env, reply, w₁, ls₁, htake, hrest, rfl⟩ := exec_op_bind h
  have hsame : SameTables w.db w₁.db := ⟨accounts_frame rfl htake, tokens_frame rfl htake⟩
  cases reply with
  | error e =>
    obtain ⟨rfl, rfl, rfl⟩ := exec_throw hrest
    exact Or.inl ⟨_, rfl, rfl, hsame⟩
  | ok flow =>
    change Exec _ i (oauth.exchangeCode code flow.verifier >>= _).run _ _ _ _ at hrest
    rcases exec_run_bind hrest with ⟨tokenSet, w₂, ls₂, ls₃, hexchange, htail, rfl⟩ | ⟨e, hexchange, rfl⟩
    swap
    · obtain ⟨rfl, hrequested⟩ := exec_requestTokens hexchange
      exact Or.inl ⟨e, rfl, hrequested.inserted, hsame⟩
    obtain ⟨rfl, hrequested⟩ := exec_requestTokens hexchange
    have hquiet : inserted (⟨.flowsTake state, env, w, .ok flow⟩ :: ls₂) = [] := hrequested.inserted
    obtain ⟨response, expiresAt, hrequests, rfl⟩ := hrequested.granted
    obtain ⟨htaken, hdrawn, hstamps, hidentities⟩ := hrequested.quiet
    cases hrt : (response.tokenSet expiresAt).refreshToken with
    | none =>
      rw [hrt] at htail
      obtain ⟨rfl, rfl, rfl⟩ := exec_throw htail
      refine Or.inl ⟨_, rfl, ?_, hsame⟩
      rw [List.append_nil]
      exact hquiet
    | some refreshToken =>
      rw [hrt] at htail
      obtain ⟨hrequests₃, htaken₃, hcases⟩ := exec_connect htail
      rcases hcases with ⟨e, rfl, hrefused⟩ | ⟨account, e, rfl, _, hstranded⟩ | ⟨account, rfl, hstored⟩
      · exact Or.inl ⟨e, rfl, hrefused.congr hsame hquiet⟩
      · exact Or.inr (Or.inl ⟨account, e, rfl, hstranded.congr hsame hquiet⟩)
      · have hprior : Exchanged (⟨.flowsTake state, env, w, .ok flow⟩ :: ls₂) code flow response :=
          ⟨congrArg (flow :: ·) htaken, hrequests, hdrawn, hstamps, hidentities⟩
        obtain ⟨identity, hconnected⟩ := hstored.connected hprior hsame hrt hrequests₃ htaken₃
        exact Or.inr (Or.inr ⟨account, rfl, flow, response, refreshToken, identity, hconnected⟩)

/-! ### What is reported and what is stored -/

/-- The account is stored as it is reported, with the exchanged token, and nothing else changed. -/
structure StoredAs (aead : Aead) (chrono : Chrono) (key : Key) (db : Db)
    (accessToken refreshToken : String) (account : Account) (db' : Db) : Prop where
  reported : SqliteAccountStore.get account.tenantId account.id db' = .ok account
  active : account.status = .active
  token : ∀ now, ∃ token, SqliteTokenStore.get aead chrono key account.id now db' =
    .ok (some token) ∧ token.accessToken = accessToken ∧ token.refreshToken = refreshToken
  others : ∀ id, id ≠ account.id → db'.accounts.find id = db.accounts.find id ∧
    db'.tokens.find id = db.tokens.find id

/-- The account found by the email has nothing to update; if none is found, the identifier drawn for
the new one is not an account of the tenant. -/
def UpToDate (db : Db) (tenantId : String) (identity : ResolvedIdentity)
    (ls : List (Label AppSig World Env)) : Prop :=
  match SqliteAccountStore.getByEmail tenantId identity.email db with
  | .ok existing => existing.status = .active ∧ existing.displayName = identity.displayName ∧
      stamps ls = [existing.updatedAt]
  | .error _ => ∀ id ∈ drawn ls, ∀ stored, SqliteAccountStore.get tenantId id db ≠ .ok stored

section Reported

variable {db db' : Db} {account : Account} {code : String} {flow : PendingFlow}
  {response : TokenResponse} {refreshToken : String} {identity : ResolvedIdentity}

/-- The token is stored, and every other row is as it was. -/
theorem Connected.token (h : Connected aead chrono key db ls account db' code flow response
    refreshToken identity) (now : DateTime) :
    ∃ token, SqliteTokenStore.get aead chrono key account.id now db' = .ok (some token) ∧
      token.accessToken = response.accessToken ∧ token.refreshToken = refreshToken ∧
      token.scope = response.scopes.map (" ".intercalate ·) := by
  obtain ⟨expiresAt, lastUsedAt, updatedAt, nonces, htokens⟩ := h.tokens
  let token := storedToken (response.tokenSet expiresAt) refreshToken lastUsedAt updatedAt
  have hfind : db'.tokens.find account.id =
      some (token.toRow aead chrono key account.id nonces) := by
    rw [htokens]
    exact (Table.find_upsert ..).trans (if_pos rfl)
  refine ⟨token.reread chrono now, ?_, rfl, rfl, rfl⟩
  simp only [SqliteTokenStore.get, hfind, toToken_toRow, Except.map]

theorem Connected.others (h : Connected aead chrono key db ls account db' code flow response
    refreshToken identity) {id : String} (hid : id ≠ account.id) :
    db'.accounts.find id = db.accounts.find id ∧ db'.tokens.find id = db.tokens.find id := by
  obtain ⟨expiresAt, lastUsedAt, updatedAt, nonces, htokens⟩ := h.tokens
  constructor
  · rcases h.ensured with ⟨haccounts, _⟩ | ⟨hc, haccounts⟩
    · rw [haccounts]
    · rw [haccounts, SqliteAccountStore.find_insertAccount, if_neg (Ne.symm hid)]
  · rw [htokens, Table.find_upsert]
    exact if_neg (Ne.symm hid)

/-- The account that was found is the reported one exactly if there is nothing to update. -/
theorem upToDate_known {tenantId updatedAt : String} {existing : Account}
    (hfound : SqliteAccountStore.getByEmail tenantId identity.email db = .ok existing)
    (hstamps : stamps ls = [updatedAt]) :
    existing = { existing with displayName := identity.displayName, status := .active, updatedAt } ↔
      UpToDate db tenantId identity ls := by
  rw [UpToDate, hfound, hstamps]
  constructor
  · intro heq
    exact ⟨congrArg Account.status heq, congrArg Account.displayName heq,
      (congrArg (fun account => [account.updatedAt]) heq).symm⟩
  · rintro ⟨hstatus, hname, htime⟩
    rw [← hstatus, ← hname, List.head_eq_of_cons_eq htime]

/-- A new account is in order exactly if its identifier is not taken. -/
theorem upToDate_new {tenantId id msg : String}
    (hmissing : SqliteAccountStore.getByEmail tenantId identity.email db = .error (.notFound msg))
    (hdrawn : drawn ls = [id]) :
    UpToDate db tenantId identity ls ↔
      ∀ stored, SqliteAccountStore.get tenantId id db ≠ .ok stored := by
  rw [UpToDate, hmissing, hdrawn]
  simp

/-- The account that can be read afterwards is the reported one exactly when it was up to date. -/
theorem Connected.get_iff (h : Connected aead chrono key db ls account db' code flow response
    refreshToken identity) :
    SqliteAccountStore.get account.tenantId account.id db' = .ok account ↔
      UpToDate db flow.tenantId identity ls := by
  have hchosen := h.chosen
  have hensured := h.ensured
  cases hchosen with
  | known existing updatedAt hfound _ hstamps =>
    obtain ⟨row, hrow, _, _, rfl⟩ := SqliteAccountStore.getByEmail_ok hfound
    have hget : SqliteAccountStore.get row.toAccount.tenantId row.toAccount.id db' =
        .ok row.toAccount := by
      rw [SqliteAccountStore.get_congr (hensured.of_find hrow)]
      exact SqliteAccountStore.get_eq_ok.mpr ⟨row, hrow, rfl, rfl⟩
    rw [← upToDate_known hfound hstamps]
    show SqliteAccountStore.get row.toAccount.tenantId row.toAccount.id db' = _ ↔ _
    rw [hget, Except.ok.injEq]
  | new id createdAt updatedAt msg hmissing hdrawn _ =>
    rw [upToDate_new hmissing hdrawn]
    rcases hensured with ⟨haccounts, stored, hstored⟩ | ⟨hc, haccounts⟩
    · -- An account with the drawn identifier has another email.
      refine iff_of_false ?_ fun hfresh => hfresh stored hstored
      rw [SqliteAccountStore.get_congr haccounts]
      intro hget
      obtain ⟨row, hrow, htenant, hrow'⟩ := SqliteAccountStore.get_eq_ok.mp hget
      have hemail : row.emailAddress = identity.email := congrArg Account.emailAddress hrow'
      have hmem := (Table.find_eq_some.mp hrow).1
      exact SqliteAccountStore.getByEmail_error hmissing hmem htenant (congrArg _ hemail)
    · refine iff_of_true ?_ fun stored hstored => ?_
      · rw [SqliteAccountStore.get_congr haccounts]
        exact SqliteAccountStore.get_insertAccount ..
      · obtain ⟨row, hrow, _⟩ := SqliteAccountStore.get_eq_ok.mp hstored
        exact hc (SqliteAccountStore.conflicts_of_find hrow)

end Reported

/-- **What `complete_flow` reports is what is stored exactly when there is nothing to update.** -/
theorem consent_stored_iff {code state : String} {account : Account}
    (h : Exec (system aead chrono key) i (TokenManager.completeFlow oauth code state).run w ls
      (.ok account) w') :
    ∃ flow response refreshToken identity, takenFlows ls = [flow] ∧
      requests ls = [(.exchangeCode code flow.verifier, .ok response)] ∧
      response.refreshToken = some refreshToken ∧ identities ls = [identity] ∧
      (StoredAs aead chrono key w.db response.accessToken refreshToken account w'.db ↔
        UpToDate w.db flow.tenantId identity ls) := by
  rcases exec_completeFlow h with ⟨_, hr, _⟩ | ⟨_, _, hr, _⟩ |
    ⟨_, hr, flow, response, refreshToken, identity, hconnected⟩
  · cases hr
  · cases hr
  · cases hr
    refine ⟨flow, response, refreshToken, identity, hconnected.took, hconnected.exchanged,
      hconnected.granted, hconnected.resolved, ?_⟩
    constructor
    · intro hstored
      exact hconnected.get_iff.mp hstored.reported
    · intro hdate
      refine ⟨hconnected.get_iff.mpr hdate, hconnected.chosen.active, fun now => ?_,
        fun id hid => hconnected.others hid⟩
      obtain ⟨token, hget, haccess, hrefresh, _⟩ := hconnected.token now
      exact ⟨token, hget, haccess, hrefresh⟩

/-! ### Two runs -/

/-- The process after `begin_flow` for the sample tenant at midnight. -/
def awaiting (w : World) : World :=
  { w with db := { w.db with
      oauthFlows := FlowStore.afterInsert .tagged sampleKey (Env.calm 0 (.error "")).sql "verifier"
        "tenant-a" "csrf" w.db.oauthFlows } }

/-- The sample account after it was disconnected. -/
def disconnectedOnce : World where
  db := (SqliteAccountStore.setStatus "tenant-a" "acc-1" .disconnected "1970-01-01T01:00:00+00:00"
    (SqliteTokenStore.delete "acc-1" (connected 9).db).2).2
  locks _ := none

/-- The code is exchanged at midnight, and the mailbox is `email`. -/
def consentRun (w : World) (email : String) :
    Option (List (Label AppSig World Env) × Outcome Account × World) :=
  sampleSystem.runAlone 0
    { Env.calm 0 (.ok ⟨"at-1", some "rt-1", some 3600, none⟩) with
      resolve := fun _ => .ok ⟨email, some "Ann"⟩ }
    (TokenManager.completeFlow sampleOauth "code" "csrf").run (awaiting w)

/-- After a second consent the account is reported active, and stored as disconnected. -/
theorem reconsent_not_stored :
    ∃ ls account w', Exec sampleSystem 0 (TokenManager.completeFlow sampleOauth "code" "csrf").run
        (awaiting disconnectedOnce) ls (.ok account) w' ∧
      account.id = "acc-1" ∧ account.status = .active ∧
      (SqliteAccountStore.get account.tenantId account.id w'.db).map Account.status =
        .ok .disconnected ∧
      ∀ accessToken refreshToken, ¬ StoredAs .tagged (.ofTable firstDay) sampleKey
        (awaiting disconnectedOnce).db accessToken refreshToken account w'.db := by
  have hchecks : (consentRun disconnectedOnce "a@x").any (fun run =>
      (run.2.1.map fun account => (account.id, account.status)) = .ok ("acc-1", .active) ∧
      (run.2.1.toOption.map fun account =>
        (SqliteAccountStore.get account.tenantId account.id run.2.2.db).map Account.status) =
        some (.ok .disconnected)) = true := by
    decide +kernel
  obtain ⟨⟨ls, r, w'⟩, hrun, hr, hstatus⟩ := exists_of_any hchecks
  cases r with
  | error e => cases hr
  | ok account =>
    obtain ⟨hid, hactive⟩ := Prod.mk.inj (Except.ok.inj hr)
    have hread : (SqliteAccountStore.get account.tenantId account.id w'.db).map Account.status =
        .ok .disconnected := Option.some.inj hstatus
    refine ⟨ls, account, w', exec_of_runAlone hrun, hid, hactive, hread, ?_⟩
    intro accessToken refreshToken hstored
    rw [hstored.reported] at hread
    cases hactive.symm.trans (Except.ok.inj hread)

/-- What a sample consent drew and read. -/
def SampleLabels (email : String) (ids times : List String) (ls : List (Label AppSig World Env)) :
    Prop :=
  requests ls = [(.exchangeCode "code" "verifier", .ok ⟨"at-1", some "rt-1", some 3600, none⟩)] ∧
    takenFlows ls = [⟨"verifier", "tenant-a", 0⟩] ∧ identities ls = [⟨email, some "Ann"⟩] ∧
    drawn ls = ids ∧ stamps ls = times

instance (email : String) (ids times : List String) (ls : List (Label AppSig World Env)) :
    Decidable (SampleLabels email ids times ls) :=
  inferInstanceAs (Decidable (_ ∧ _))

theorem exec_consentRun (email id : String) (ids times : List String)
    (h : (consentRun (connected 9) email).any (fun run => run.2.1.map Account.id = .ok id ∧
      SampleLabels email ids times run.1) = true) :
    ∃ ls account w', Exec sampleSystem 0 (TokenManager.completeFlow sampleOauth "code" "csrf").run
        (awaiting (connected 9)) ls (.ok account) w' ∧ account.id = id ∧
      SampleLabels email ids times ls := by
  obtain ⟨⟨ls, r, w'⟩, hrun, hr, hlabels⟩ := exists_of_any h
  cases r with
  | error e => cases hr
  | ok account => exact ⟨ls, account, w', exec_of_runAlone hrun, Except.ok.inj hr, hlabels⟩

/-- A new mailbox is stored as it is reported, and so is an active account whose mailbox consents again
under the same name within the second of its last update. -/
theorem consent_stored_new_and_known :
    (∃ ls account w', Exec sampleSystem 0 (TokenManager.completeFlow sampleOauth "code" "csrf").run
        (awaiting (connected 9)) ls (.ok account) w' ∧ account.id = "acc-2" ∧
      StoredAs .tagged (.ofTable firstDay) sampleKey (awaiting (connected 9)).db "at-1" "rt-1"
        account w'.db) ∧
    ∃ ls account w', Exec sampleSystem 0 (TokenManager.completeFlow sampleOauth "code" "csrf").run
        (awaiting (connected 9)) ls (.ok account) w' ∧ account.id = "acc-1" ∧
      StoredAs .tagged (.ofTable firstDay) sampleKey (awaiting (connected 9)).db "at-1" "rt-1"
        account w'.db := by
  have hstored : ∀ {email : String} {ids times : List String} {ls : List (Label AppSig World Env)}
      {account : Account} {w' : World}, Exec sampleSystem 0
        (TokenManager.completeFlow sampleOauth "code" "csrf").run (awaiting (connected 9)) ls
        (.ok account) w' → SampleLabels email ids times ls →
      UpToDate (awaiting (connected 9)).db "tenant-a" ⟨email, some "Ann"⟩ ls →
        StoredAs .tagged (.ofTable firstDay) sampleKey (awaiting (connected 9)).db "at-1" "rt-1"
          account w'.db := by
    rintro email ids times ls account w' hexec ⟨hrequests, htaken, hidentities, _⟩ hdate
    obtain ⟨flow, response, refreshToken, identity, htook, hexchanged, hgranted, hresolved, hiff⟩ :=
      consent_stored_iff hexec
    obtain rfl := List.head_eq_of_cons_eq (htook.symm.trans htaken)
    obtain rfl := List.head_eq_of_cons_eq (hresolved.symm.trans hidentities)
    obtain ⟨_, hresponse⟩ := Prod.mk.inj (List.head_eq_of_cons_eq (hexchanged.symm.trans hrequests))
    obtain rfl := Except.ok.inj hresponse
    obtain rfl := Option.some.inj hgranted
    exact hiff.mpr hdate
  constructor
  · obtain ⟨ls, account, w', hexec, hid, hlabels⟩ :=
      exec_consentRun "b@x" "acc-2" ["acc-2"] (List.replicate 2 "1970-01-01T00:00:00+00:00")
        (by decide +kernel)
    refine ⟨ls, account, w', hexec, hid, hstored hexec hlabels ?_⟩
    have hmissing : SqliteAccountStore.getByEmail "tenant-a" "b@x" (awaiting (connected 9)).db =
        .error (.notFound "account b@x not found") := by
      decide +kernel
    have hfree : SqliteAccountStore.get "tenant-a" "acc-2" (awaiting (connected 9)).db =
        .error (.notFound "account acc-2 not found") := by
      decide +kernel
    rw [UpToDate, hmissing, hlabels.2.2.2.1]
    intro id hid stored hget
    rw [List.mem_singleton.mp hid, hfree] at hget
    cases hget
  · obtain ⟨ls, account, w', hexec, hid, hlabels⟩ :=
      exec_consentRun "a@x" "acc-1" [] ["1970-01-01T00:00:00+00:00"] (by decide +kernel)
    refine ⟨ls, account, w', hexec, hid, hstored hexec hlabels ?_⟩
    have hfound : SqliteAccountStore.getByEmail "tenant-a" "a@x" (awaiting (connected 9)).db =
        .ok sampleAccount := by
      decide +kernel
    rw [UpToDate, hfound, hlabels.2.2.2.2]
    exact ⟨rfl, rfl, rfl⟩

/-! ### What a failure leaves behind -/

/-- The account's token row is gone, if there was one. That is the only difference. -/
structure TokenGone (db : Db) (accountId : String) (db' : Db) : Prop where
  accounts : db'.accounts = db.accounts
  tokens : ∀ id, db'.tokens.find id = if id = accountId then none else db.tokens.find id

/-- A failed disconnect: the token row could not be deleted, and the tables are as they were, or it
was deleted and the status could not be set. -/
inductive FailedDisconnect (account : Account) (w : World) :
    List (Label AppSig World Env) → AppError → Db → Prop
  | delete (env : Env) (e : AppError) (db' : Db) (hsame : SameTables w.db db') :
      FailedDisconnect account w [⟨.tokensDelete account.id, env, w, .error e⟩] e db'
  | setStatus (env env₁ : Env) (w₁ : World) (e : AppError) (db' : Db)
      (hgone : TokenGone w.db account.id db') :
      FailedDisconnect account w [⟨.tokensDelete account.id, env, w, .ok ()⟩,
        ⟨.accountsSetStatus account.tenantId account.id .disconnected, env₁, w₁, .error e⟩] e db'

theorem tokenGone_deleteRow (db : Db) (accountId : String) :
    TokenGone db accountId (SqliteTokenStore.deleteRow db accountId) := by
  refine ⟨rfl, fun id => ?_⟩
  rw [SqliteTokenStore.find_deleteRow]
  exact if_congr eq_comm rfl rfl

/-- The token row is deleted, then the status is set. -/
theorem exec_disconnect {account : Account} {r : Outcome Unit}
    (h : Exec (system aead chrono key) i (TokenManager.disconnect account).run w ls r w') :
    (∃ e, r = .error (.err e) ∧ FailedDisconnect account w ls e w'.db) ∨ r = .ok () := by
  unfold TokenManager.disconnect at h
  obtain ⟨env, deleted, w₁, ls₁, hdelete, hrest, rfl⟩ := exec_op_bind h
  rcases exec_check_bind hrest with ⟨u, rfl, htail⟩ | ⟨e, rfl, rfl, rfl, rfl⟩
  · obtain ⟨_, rfl⟩ := storage_ok (Option.some.inj hdelete)
    obtain ⟨env₁, reply, w₂, ls₂, hset, hend, rfl⟩ := exec_op_bind htail
    obtain ⟨rfl, rfl, rfl⟩ := exec_check hend
    cases reply with
    | ok u => exact Or.inr rfl
    | error e =>
      refine Or.inl ⟨e, rfl, .setStatus env env₁ _ e _ ?_⟩
      rcases storage_eq (Option.some.inj hset) with ⟨rfl, _⟩ | ⟨hr, hw⟩
      · exact tokenGone_deleteRow ..
      · rw [SqliteAccountStore.setStatus_eq] at hr hw
        split at hr
        · rename_i hmissing
          rw [if_pos hmissing] at hw
          subst hw
          exact tokenGone_deleteRow ..
        · cases hr
  · refine Or.inl ⟨e, rfl, .delete env e _ ?_⟩
    rcases storage_eq (Option.some.inj hdelete) with ⟨rfl, _⟩ | ⟨hr, _⟩
    · exact ⟨rfl, rfl⟩
    · cases hr

/-- **What failed calls leave behind**, by the operation that failed. A failed `disconnect` changes
nothing if that was the deletion of the token row; if it was the change of the status, the row is
gone. A failed `complete_flow` changes neither table, unless it inserted an account and failed to
store its token. -/
theorem failed_call_tables (oauth : OAuthClient) (w : World) :
    (∀ account ls failure w', Exec (system aead chrono key) i (TokenManager.disconnect account).run w
      ls (.error failure) w' → ∃ e, failure = .err e ∧ FailedDisconnect account w ls e w'.db) ∧
    ∀ code state ls failure w', Exec (system aead chrono key) i
      (TokenManager.completeFlow oauth code state).run w ls (.error failure) w' →
        Refused w.db ls w'.db ∨
          ∃ account, Stranded w.db ls account w'.db ∧ w'.db.tokens.find account.id = none := by
  constructor
  · intro account ls failure w' h
    rcases exec_disconnect h with ⟨e, hr, hfailed⟩ | hr
    · exact ⟨e, Except.error.inj hr, hfailed⟩
    · cases hr
  · intro code state ls failure w' h
    rcases exec_completeFlow h with ⟨_, _, hrefused⟩ | ⟨account, _, _, hstranded⟩ | ⟨_, hr, _⟩
    · exact Or.inl hrefused
    · exact Or.inr ⟨account, hstranded, hstranded.token_none⟩
    · cases hr

/-- The number of operations for which the storage fails. -/
def faults (ls : List (Label AppSig World Env)) : ℕ := (ls.filter fun l => l.env.fault.isSome).length

/-- The storage fails where the status of an account is set, and where a token is stored. -/
def failingEnv (o : Op) : Env :=
  let env := { Env.calm 0 (.ok ⟨"at-1", some "rt-1", some 3600, none⟩) with
    resolve := fun _ => .ok ⟨"b@x", some "Bob"⟩ }
  match o with
  | .accountsSetStatus _ _ _ | .tokensUpsert _ _ => { env with fault := some "disk I/O error" }
  | _ => env

/-- The sample account is disconnected, and the status cannot be set. -/
def failingDisconnect : Option (List (Label AppSig World Env) × Outcome Unit × World) :=
  sampleSystem.runUnder 0 failingEnv (TokenManager.disconnect sampleAccount).run (connected 9)

/-- A new mailbox is connected, and its token cannot be stored. -/
def failingConsent : Option (List (Label AppSig World Env) × Outcome Account × World) :=
  sampleSystem.runUnder 0 failingEnv (TokenManager.completeFlow sampleOauth "code" "csrf").run
    (awaiting (connected 9))

theorem exec_failingDisconnect : ∃ ls w', Exec sampleSystem 0
    (TokenManager.disconnect sampleAccount).run (connected 9) ls
      (.error (.err (.storage "disk I/O error"))) w' ∧
    (SqliteAccountStore.get "tenant-a" "acc-1" w'.db).map Account.status = .ok .active ∧
    w'.db.tokens.find "acc-1" = none ∧ faults ls = 1 ∧ ls.length = 2 := by
  have hchecks : failingDisconnect.any (fun run =>
      run.2.1 = .error (.err (.storage "disk I/O error")) ∧
      (SqliteAccountStore.get "tenant-a" "acc-1" run.2.2.db).map Account.status = .ok .active ∧
      run.2.2.db.tokens.find "acc-1" = none ∧ faults run.1 = 1 ∧ run.1.length = 2) = true := by
    decide +kernel
  obtain ⟨⟨ls, r, w'⟩, hrun, rfl, hhalf⟩ := exists_of_any hchecks
  exact ⟨ls, w', exec_of_runUnder hrun, hhalf⟩

theorem exec_failingConsent : ∃ ls w', Exec sampleSystem 0
    (TokenManager.completeFlow sampleOauth "code" "csrf").run (awaiting (connected 9)) ls
      (.error (.err (.storage "disk I/O error"))) w' ∧
    (SqliteAccountStore.get "tenant-a" "acc-2" w'.db).map Account.status = .ok .active ∧
    w'.db.tokens.find "acc-2" = none ∧ faults ls = 1 ∧
    w'.db.accounts ≠ (awaiting (connected 9)).db.accounts := by
  have hchecks : failingConsent.any (fun run =>
      run.2.1 = .error (.err (.storage "disk I/O error")) ∧
      (SqliteAccountStore.get "tenant-a" "acc-2" run.2.2.db).map Account.status = .ok .active ∧
      run.2.2.db.tokens.find "acc-2" = none ∧ faults run.1 = 1 ∧
      run.2.2.db.accounts.rows.length = 2) = true := by
    decide +kernel
  obtain ⟨⟨ls, r, w'⟩, hrun, rfl, hactive, hnone, hfaults, hrows⟩ := exists_of_any hchecks
  refine ⟨ls, w', exec_of_runUnder hrun, hactive, hnone, hfaults, fun haccounts => ?_⟩
  dsimp only at hrows
  rw [haccounts] at hrows
  exact absurd hrows (by decide +kernel)

/-- One operation fails. After a `disconnect` the account is still active, and its token is gone; after a
`complete_flow` there is a new active account without a token. -/
theorem calls_half_done :
    (∃ ls e w', Exec sampleSystem 0 (TokenManager.disconnect sampleAccount).run (connected 9) ls
        (.error e) w' ∧
      (SqliteAccountStore.get "tenant-a" "acc-1" w'.db).map Account.status = .ok .active ∧
      w'.db.tokens.find "acc-1" = none ∧ faults ls = 1 ∧ ¬ SameTables (connected 9).db w'.db) ∧
    ∃ ls e w', Exec sampleSystem 0 (TokenManager.completeFlow sampleOauth "code" "csrf").run
        (awaiting (connected 9)) ls (.error e) w' ∧
      (SqliteAccountStore.get "tenant-a" "acc-2" w'.db).map Account.status = .ok .active ∧
      w'.db.tokens.find "acc-2" = none ∧ faults ls = 1 ∧
      ¬ SameTables (awaiting (connected 9)).db w'.db := by
  obtain ⟨ls, w', hexec, hactive, hgone, hfaults, _⟩ := exec_failingDisconnect
  obtain ⟨ls₁, w₁, hexec₁, hadded, hnone, hfaults₁, hchanged⟩ := exec_failingConsent
  refine ⟨⟨ls, _, w', hexec, hactive, hgone, hfaults, ?_⟩, ls₁, _, w₁, hexec₁, hadded, hnone, hfaults₁,
    fun hsame => hchanged hsame.1⟩
  rintro ⟨_, htokens⟩
  have hthere : ((connected 9).db.tokens.find "acc-1").isSome = true := by decide +kernel
  rw [← htokens, hgone] at hthere
  cases hthere

/-- Both failures are of the kind described. -/
theorem failed_call_tables_halves :
    (∃ ls e w', Exec sampleSystem 0 (TokenManager.disconnect sampleAccount).run (connected 9) ls
        (.error (.err e)) w' ∧
      FailedDisconnect sampleAccount (connected 9) ls e w'.db ∧
      TokenGone (connected 9).db "acc-1" w'.db) ∧
    ∃ ls e w' account, Exec sampleSystem 0
        (TokenManager.completeFlow sampleOauth "code" "csrf").run (awaiting (connected 9)) ls
        (.error e) w' ∧
      Stranded (awaiting (connected 9)).db ls account w'.db := by
  constructor
  · obtain ⟨ls, w', hexec, _, _, _, htwo⟩ := exec_failingDisconnect
    obtain ⟨e, he, hfailed⟩ := (failed_call_tables sampleOauth (connected 9)).1 sampleAccount ls _ w'
      hexec
    cases he
    refine ⟨ls, _, w', hexec, hfailed, ?_⟩
    cases hfailed with
    | delete => cases htwo
    | setStatus env env₁ w₁ e db' hgone => exact hgone
  · obtain ⟨ls, w', hexec, _, _, _, hchanged⟩ := exec_failingConsent
    rcases (failed_call_tables sampleOauth (awaiting (connected 9))).2 _ _ ls _ w' hexec with
      hrefused | ⟨account, hstranded, _⟩
    · exact absurd hrefused.same.1 hchanged
    · exact ⟨ls, _, w', account, hexec, hstranded⟩

end UniMail
