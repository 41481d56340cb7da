import UniMail.Storage.Db

/-!
# OAuth token persistence, encrypted at rest

The statements of `SqliteTokenStore`. Both secrets go through the cipher and the instants through
chrono's text; `get` sees the text that was stored, so an instant whose text does not parse comes
back as `None`, and an unparsable `updated_at` as the present time.
-/

namespace UniMail

open Relational

section Codec

variable (aead : Aead) (chrono : Chrono) (key : Key)

/-- The row `upsert` writes, with the nonces drawn for the two secrets. -/
def StoredToken.toRow (accountId : String) (nonces : Nonce × Nonce) (token : StoredToken) :
    TokenRow where
  accountId := accountId
  accessTokenEncrypted := encrypt aead key nonces.1 (asBytes token.accessToken)
  refreshTokenEncrypted := encrypt aead key nonces.2 (asBytes token.refreshToken)
  scope := token.scope
  expiresAt := token.expiresAt.map chrono.toRfc3339
  lastUsedAt := token.lastUsedAt.map chrono.toRfc3339
  updatedAt := chrono.toRfc3339 token.updatedAt

/-- Decrypt and parse a row; `now` is the clock in case `updated_at` does not parse. -/
def TokenRow.toToken (row : TokenRow) (now : DateTime) : Result StoredToken := do
  let accessToken ← (decrypt aead key row.accessTokenEncrypted).mapError .storage
  let refreshToken ← (decrypt aead key row.refreshTokenEncrypted).mapError .storage
  let accessToken ← (fromUtf8 accessToken).mapError fun e =>
    AppError.storage s!"access token is not UTF-8: {e}"
  let refreshToken ← (fromUtf8 refreshToken).mapError fun e =>
    AppError.storage s!"refresh token is not UTF-8: {e}"
  return {
    accessToken
    refreshToken
    scope := row.scope
    expiresAt := row.expiresAt.bind chrono.parseFromRfc3339
    lastUsedAt := row.lastUsedAt.bind chrono.parseFromRfc3339
    updatedAt := (chrono.parseFromRfc3339 row.updatedAt).getD now }

/-- What comes back of a token that was stored: its instants after one trip through their text. -/
def StoredToken.reread (token : StoredToken) (now : DateTime) : StoredToken :=
  let trip := fun t => chrono.parseFromRfc3339 (chrono.toRfc3339 t)
  { token with
    expiresAt := token.expiresAt.bind trip
    lastUsedAt := token.lastUsedAt.bind trip
    updatedAt := (trip token.updatedAt).getD now }

variable {aead chrono key} in
/-- A row that can be read: its secrets decrypt and are texts. -/
theorem toToken_eq_ok {row : TokenRow} {now : DateTime} {token : StoredToken} :
    row.toToken aead chrono key now = .ok token ↔
      ∃ access refresh accessToken refreshToken,
        decrypt aead key row.accessTokenEncrypted = .ok access ∧
        decrypt aead key row.refreshTokenEncrypted = .ok refresh ∧
        fromUtf8 access = .ok accessToken ∧ fromUtf8 refresh = .ok refreshToken ∧
        token = {
          accessToken
          refreshToken
          scope := row.scope
          expiresAt := row.expiresAt.bind chrono.parseFromRfc3339
          lastUsedAt := row.lastUsedAt.bind chrono.parseFromRfc3339
          updatedAt := (chrono.parseFromRfc3339 row.updatedAt).getD now } := by
  simp only [TokenRow.toToken, bind_eq_ok, mapError_eq_ok]
  constructor
  · rintro ⟨access, ha, refresh, hr, accessToken, hau, refreshToken, hru, h⟩
    exact ⟨access, refresh, accessToken, refreshToken, ha, hr, hau, hru, (Except.ok.inj h).symm⟩
  · rintro ⟨access, refresh, accessToken, refreshToken, ha, hr, hau, hru, rfl⟩
    exact ⟨access, ha, refresh, hr, accessToken, hau, refreshToken, hru, rfl⟩

/-- A token that was stored can be read. -/
theorem toToken_toRow (accountId : String) (nonces : Nonce × Nonce) (token : StoredToken)
    (now : DateTime) :
    (token.toRow aead chrono key accountId nonces).toToken aead chrono key now =
      .ok (token.reread chrono now) := by
  have htrip : ∀ t : Option DateTime, (t.map chrono.toRfc3339).bind chrono.parseFromRfc3339 =
      t.bind fun t => chrono.parseFromRfc3339 (chrono.toRfc3339 t) := fun t => Option.bind_map
  refine toToken_eq_ok.mpr ⟨_, _, _, _, decrypt_encrypt .., decrypt_encrypt .., fromUtf8_asBytes _,
    fromUtf8_asBytes _, ?_⟩
  rw [StoredToken.reread, ← htrip, ← htrip]
  rfl

variable {aead chrono key} in
/-- The clock is read for `updated_at` only. -/
theorem toToken_now {row : TokenRow} {now : DateTime} {token : StoredToken}
    (h : row.toToken aead chrono key now = .ok token) (now' : DateTime) :
    ∃ updatedAt, row.toToken aead chrono key now' = .ok { token with updatedAt } := by
  obtain ⟨access, refresh, accessToken, refreshToken, ha, hr, hau, hru, rfl⟩ := toToken_eq_ok.mp h
  exact ⟨_, toToken_eq_ok.mpr ⟨access, refresh, accessToken, refreshToken, ha, hr, hau, hru, rfl⟩⟩

@[simp] theorem reread_accessToken (token : StoredToken) (now : DateTime) :
    (token.reread chrono now).accessToken = token.accessToken := rfl

@[simp] theorem reread_refreshToken (token : StoredToken) (now : DateTime) :
    (token.reread chrono now).refreshToken = token.refreshToken := rfl

end Codec

/-- The order in which SQLite comes to the rows of a query without `ORDER BY`. It may be that of
`idx_tokens_last_used`, of the table, or one found by combining both. -/
structure Scan where
  order : List String → List String
  perm : ∀ ids, (order ids).Perm ids

/-- In the order of the table. -/
def Scan.table : Scan := ⟨id, fun ids => .refl ids⟩

namespace SqliteTokenStore

/-- `INSERT INTO tokens … ON CONFLICT(account_id) DO UPDATE`, for an existing account. -/
def upsertRow (db : Db) (row : TokenRow) (h : db.accounts.find row.accountId ≠ none) : Db :=
  { db with
    tokens := db.tokens.upsert row
    tokenOwner := by
      intro t ht
      rcases Table.mem_upsert.mp ht with rfl | ⟨ht, _⟩
      · exact h
      · exact db.tokenOwner t ht }

variable (aead : Aead) (chrono : Chrono) (key : Key)

/-- Fetch and decrypt the token for an account, if present. -/
def get (accountId : String) (now : DateTime) (db : Db) : Result (Option StoredToken) :=
  match db.tokens.find accountId with
  | none => .ok none
  | some row => (row.toToken aead chrono key now).map some

/-- Insert or replace the token for an account. The foreign key rejects an unknown account. -/
def upsert (accountId : String) (token : StoredToken) (nonces : Nonce × Nonce) (db : Db) :
    Result Unit × Db :=
  if h : db.accounts.find accountId ≠ none then
    (.ok (), upsertRow db (token.toRow aead chrono key accountId nonces) h)
  else (.error (.storage "FOREIGN KEY constraint failed"), db)

/-- `DELETE FROM tokens WHERE account_id`. -/
def deleteRow (db : Db) (accountId : String) : Db :=
  { db with
    tokens := db.tokens.filter fun t => !decide (t.accountId = accountId)
    tokenOwner := fun t ht => db.tokenOwner t (List.mem_filter.mp ht).1 }

/-- Remove a token (used when an account is disconnected). -/
def delete (accountId : String) (db : Db) : Result Unit × Db := (.ok (), deleteRow db accountId)

/-- Account ids whose token has not been used since `cutoff`, as the query finds them; SQLite compares
the text. -/
def listInactive (scan : Scan) (cutoff : DateTime) (db : Db) : List String :=
  scan.order ((db.tokens.rows.filter fun t => match t.lastUsedAt with
    | none => true
    | some s => decide (s < chrono.toRfc3339 cutoff)).map TokenRow.accountId)

/-! ### What the statements do -/

/-- The row of an account after its token was stored, and every other row. -/
theorem find_upsertRow (db : Db) (row : TokenRow) (h : db.accounts.find row.accountId ≠ none)
    (id : String) : (upsertRow db row h).tokens.find id =
      if row.accountId = id then some row else db.tokens.find id :=
  Table.find_upsert ..

theorem find_deleteRow (db : Db) (accountId id : String) :
    (deleteRow db accountId).tokens.find id =
      if accountId = id then none else db.tokens.find id := by
  rw [deleteRow, Table.find_filter]
  cases hf : db.tokens.find id with
  | none => simp
  | some t =>
    have hid : t.accountId = id := (Table.find_eq_some.mp hf).2
    by_cases h : accountId = id <;> simp [Option.filter_some, hid, h, eq_comm]

variable {aead chrono key}

theorem upsert_ok {accountId : String} {token : StoredToken} {nonces : Nonce × Nonce} {db db' : Db}
    (h : upsert aead chrono key accountId token nonces db = (.ok (), db')) :
    ∃ ha : db.accounts.find accountId ≠ none,
      db' = upsertRow db (token.toRow aead chrono key accountId nonces) ha := by
  unfold upsert at h
  split at h
  · rename_i ha
    exact ⟨ha, (Prod.mk.inj h).2.symm⟩
  · simp at h

/-- A failed `upsert` changes nothing. -/
theorem upsert_error {accountId : String} {token : StoredToken} {nonces : Nonce × Nonce}
    {db db' : Db} {e : AppError}
    (h : upsert aead chrono key accountId token nonces db = (.error e, db')) : db' = db := by
  unfold upsert at h
  split at h
  · simp at h
  · exact (Prod.mk.inj h).2.symm

variable (aead chrono key) in
/-- Where the account has a row, its owner is there. -/
theorem upsert_present {db : Db} {accountId : String} (h : db.tokens.find accountId ≠ none)
    (token : StoredToken) (nonces : Nonce × Nonce) :
    ∃ ha : db.accounts.find accountId ≠ none, upsert aead chrono key accountId token nonces db =
      (.ok (), upsertRow db (token.toRow aead chrono key accountId nonces) ha) := by
  have ha : db.accounts.find accountId ≠ none := fun hnone => h (Db.token_none hnone)
  exact ⟨ha, dif_pos ha⟩

/-- The rows after a token was stored for the account. -/
theorem find_stored (db : Db) (accountId : String) (token : StoredToken) (nonces : Nonce × Nonce)
    (ha : db.accounts.find accountId ≠ none) (x : String) :
    (upsertRow db (token.toRow aead chrono key accountId nonces) ha).tokens.find x =
      if accountId = x then some (token.toRow aead chrono key accountId nonces)
      else db.tokens.find x :=
  find_upsertRow ..

theorem upsert_accounts (accountId : String) (token : StoredToken) (nonces : Nonce × Nonce)
    (db : Db) : (upsert aead chrono key accountId token nonces db).2.accounts = db.accounts := by
  unfold upsert
  split <;> rfl

variable (aead chrono key) in
/-- `upsert` depends on the account's own rows only. -/
theorem upsert_congr {db db₂ : Db} {accountId : String}
    (haccount : db₂.accounts.find accountId = db.accounts.find accountId)
    (htoken : db₂.tokens.find accountId = db.tokens.find accountId) (token : StoredToken)
    (nonces : Nonce × Nonce) :
    (upsert aead chrono key accountId token nonces db₂).1 =
        (upsert aead chrono key accountId token nonces db).1 ∧
      (upsert aead chrono key accountId token nonces db₂).2.tokens.find accountId =
        (upsert aead chrono key accountId token nonces db).2.tokens.find accountId := by
  unfold upsert
  by_cases ha : db.accounts.find accountId ≠ none
  · have ha₂ : db₂.accounts.find accountId ≠ none := haccount ▸ ha
    rw [dif_pos ha, dif_pos ha₂, find_stored, find_stored, if_pos rfl, if_pos rfl]
    exact ⟨rfl, rfl⟩
  · have ha₂ : ¬ db₂.accounts.find accountId ≠ none := haccount ▸ ha
    rw [dif_neg ha, dif_neg ha₂]
    exact ⟨rfl, htoken⟩

/-- **`get` after `upsert`**: the token stored, after one trip through the text of its instants. -/
theorem get_upsertRow (db : Db) (accountId : String) (token : StoredToken) (nonces : Nonce × Nonce)
    (ha : db.accounts.find accountId ≠ none) (now : DateTime) :
    get aead chrono key accountId now
        (upsertRow db (token.toRow aead chrono key accountId nonces) ha) =
      .ok (some (token.reread chrono now)) := by
  have hfind := (find_upsertRow db (token.toRow aead chrono key accountId nonces) ha
    accountId).trans (if_pos rfl)
  simp only [get, hfind, toToken_toRow, Except.map]

/-- `get` depends on the account's own row only. -/
theorem get_congr {db db' : Db} {accountId : String}
    (h : db.tokens.find accountId = db'.tokens.find accountId) (now : DateTime) :
    get aead chrono key accountId now db = get aead chrono key accountId now db' := by
  rw [get, get, h]

theorem get_some {db : Db} {accountId : String} {now : DateTime} {t : StoredToken}
    (h : get aead chrono key accountId now db = .ok (some t)) :
    ∃ row, db.tokens.find accountId = some row ∧ row.toToken aead chrono key now = .ok t := by
  unfold get at h
  split at h
  · simp at h
  · rename_i row hrow
    refine ⟨row, hrow, ?_⟩
    cases ht : row.toToken aead chrono key now <;> simp_all [Except.map]

end SqliteTokenStore

end UniMail
