import UniMail.Storage.Accounts
import UniMail.Storage.Tokens

/-!
# The rows of a tenant

The accounts table names the tenant of a row, and a token row belongs to the tenant of its account.
`SameFor` compares two databases on the rows of one tenant, `SameForOthers` on all other rows. The
statements about one tenant see only its rows (`SameFor.get`, `SameFor.list`, …), and those about a
row of the tenant keep all others as they are.
-/

namespace UniMail

open Relational

/-- The account rows of a tenant, in insertion order. -/
def tenantRows (db : Db) (tenantId : String) : List AccountRow :=
  db.accounts.rows.filter fun r => r.tenantId = tenantId

/-- The account rows of the other tenants. -/
def otherRows (db : Db) (tenantId : String) : List AccountRow :=
  db.accounts.rows.filter fun r => ¬ r.tenantId = tenantId

/-- The account belongs to the tenant. -/
def Owns (db : Db) (tenantId id : String) : Prop :=
  ∃ r, db.accounts.find id = some r ∧ r.tenantId = tenantId

/-- The databases have the same accounts of the tenant and the same tokens for them. -/
structure SameFor (tenantId : String) (db db' : Db) : Prop where
  rows : tenantRows db tenantId = tenantRows db' tenantId
  tokens : ∀ id, Owns db tenantId id → db.tokens.find id = db'.tokens.find id

/-- The databases have the same accounts of all other tenants and the same tokens for them. -/
structure SameForOthers (tenantId : String) (db db' : Db) : Prop where
  rows : otherRows db tenantId = otherRows db' tenantId
  tokens : ∀ id, ¬ Owns db tenantId id → db.tokens.find id = db'.tokens.find id

variable {tenantId : String} {db db' : Db}

theorem owns_iff {id : String} :
    Owns db tenantId id ↔ id ∈ (tenantRows db tenantId).map AccountRow.id := by
  constructor
  · rintro ⟨r, hr, htenant⟩
    obtain ⟨hmem, rfl⟩ := Table.find_eq_some.mp hr
    exact List.mem_map_of_mem (List.mem_filter.mpr ⟨hmem, by simpa using htenant⟩)
  · intro h
    obtain ⟨r, hr, rfl⟩ := List.mem_map.mp h
    obtain ⟨hmem, htenant⟩ := List.mem_filter.mp hr
    exact ⟨r, Table.find_key hmem, by simpa using htenant⟩

theorem SameFor.owns (h : SameFor tenantId db db') (id : String) :
    Owns db tenantId id ↔ Owns db' tenantId id := by
  rw [owns_iff, owns_iff, h.rows]

theorem SameFor.refl (tenantId : String) (db : Db) : SameFor tenantId db db :=
  ⟨rfl, fun _ _ => rfl⟩

theorem SameForOthers.refl (tenantId : String) (db : Db) : SameForOthers tenantId db db :=
  ⟨rfl, fun _ _ => rfl⟩

theorem SameForOthers.trans {db'' : Db} (h : SameForOthers tenantId db db')
    (h' : SameForOthers tenantId db' db'') (howns : ∀ id, Owns db tenantId id ↔ Owns db' tenantId id) :
    SameForOthers tenantId db db'' :=
  ⟨h.rows.trans h'.rows,
    fun id hid => (h.tokens id hid).trans (h'.tokens id (mt (howns id).mpr hid))⟩

/-! ### Queries -/

/-- A query for rows of the tenant looks at its rows only. -/
theorem queryAccounts_tenant (db : Db) (tenantId : String) (p : AccountRow → Prop) [DecidablePred p] :
    queryAccounts db (fun r => r.tenantId = tenantId ∧ p r) =
      ((tenantRows db tenantId).filter p).map AccountRow.toAccount := by
  rw [queryAccounts, tenantRows, List.filter_filter]
  congr 2
  funext r
  simp [Bool.and_comm]

theorem SameFor.list (h : SameFor tenantId db db') :
    SqliteAccountStore.list tenantId db = SqliteAccountStore.list tenantId db' := by
  have hrows := h.rows
  unfold tenantRows at hrows
  rw [SqliteAccountStore.list, SqliteAccountStore.list, queryAccounts, queryAccounts, hrows]

theorem SameFor.get (h : SameFor tenantId db db') (id : String) :
    SqliteAccountStore.get tenantId id db = SqliteAccountStore.get tenantId id db' := by
  rw [SqliteAccountStore.get, SqliteAccountStore.get, queryAccounts_tenant, queryAccounts_tenant,
    h.rows]

theorem owns_of_get {id : String} {account : Account}
    (h : SqliteAccountStore.get tenantId id db = .ok account) :
    Owns db tenantId account.id ∧ account.tenantId = tenantId := by
  obtain ⟨r, hr, htenant, rfl⟩ := SqliteAccountStore.get_eq_ok.mp h
  obtain ⟨_, rfl⟩ := Table.find_eq_some.mp hr
  exact ⟨⟨r, hr, htenant⟩, htenant⟩

theorem owns_of_list {account : Account} (h : account ∈ SqliteAccountStore.list tenantId db) :
    Owns db tenantId account.id := by
  rw [SqliteAccountStore.list, orderByUpdatedDesc, List.mem_insertionSort, queryAccounts] at h
  obtain ⟨r, hr, rfl⟩ := List.mem_map.mp h
  exact owns_iff.mpr (List.mem_map_of_mem hr)

/-! ### Statements that write -/

section SetStatus

open SqliteAccountStore

variable (db) (tenantId) (id : String) (status : AccountStatus) (now : String)

theorem tenantRows_updateStatus : tenantRows (updateStatus db tenantId id status now) tenantId =
    (tenantRows db tenantId).map fun r =>
      if r.tenantId = tenantId ∧ r.id = id then { r with status := status.asStr, updatedAt := now }
      else r := by
  simp only [tenantRows, updateStatus, Table.rows_update, List.filter_map]
  congr 2
  funext r
  simp only [Function.comp]
  split <;> rfl

theorem otherRows_updateStatus :
    otherRows (updateStatus db tenantId id status now) tenantId = otherRows db tenantId := by
  have hsame : ∀ r ∈ otherRows db tenantId,
      (if r.tenantId = tenantId ∧ r.id = id then { r with status := status.asStr, updatedAt := now }
        else r) = r := by
    intro r hr
    have htenant : ¬ r.tenantId = tenantId := by simpa using (List.mem_filter.mp hr).2
    rw [if_neg fun h => htenant h.1]
  calc otherRows (updateStatus db tenantId id status now) tenantId
      = (otherRows db tenantId).map fun r => if r.tenantId = tenantId ∧ r.id = id then
          { r with status := status.asStr, updatedAt := now } else r := by
        simp only [otherRows, updateStatus, Table.rows_update, List.filter_map]
        congr 2
        funext r
        simp only [Function.comp]
        split <;> rfl
    _ = otherRows db tenantId := (List.map_congr_left hsame).trans (List.map_id' _)

theorem owns_updateStatus (x : String) :
    Owns (updateStatus db tenantId id status now) tenantId x ↔ Owns db tenantId x := by
  rw [owns_iff, owns_iff, tenantRows_updateStatus, List.map_map]
  have hid : (AccountRow.id ∘ fun r : AccountRow => if r.tenantId = tenantId ∧ r.id = id then
      { r with status := status.asStr, updatedAt := now } else r) = AccountRow.id := by
    funext r
    simp only [Function.comp]
    split <;> rfl
  rw [hid]

end SetStatus

theorem SameFor.setStatus (h : SameFor tenantId db db') (id : String) (status : AccountStatus)
    (now : String) :
    (SqliteAccountStore.setStatus tenantId id status now db).1 =
        (SqliteAccountStore.setStatus tenantId id status now db').1 ∧
      SameFor tenantId (SqliteAccountStore.setStatus tenantId id status now db).2
        (SqliteAccountStore.setStatus tenantId id status now db').2 := by
  rw [SqliteAccountStore.setStatus_eq, SqliteAccountStore.setStatus_eq, h.get id]
  split
  · exact ⟨rfl, h⟩
  · refine ⟨rfl, ?_, fun x hx => h.tokens x ?_⟩
    · rw [tenantRows_updateStatus, tenantRows_updateStatus, h.rows]
    · exact (owns_updateStatus _ _ _ _ _ x).mp hx

/-- What a statement on rows of the tenant leaves as it is. -/
structure Confined (tenantId : String) (db db' : Db) : Prop where
  others : SameForOthers tenantId db db'
  owns : ∀ id, Owns db tenantId id ↔ Owns db' tenantId id

theorem Confined.refl (tenantId : String) (db : Db) : Confined tenantId db db :=
  ⟨.refl tenantId db, fun _ => Iff.rfl⟩

theorem Confined.trans {db'' : Db} (h : Confined tenantId db db')
    (h' : Confined tenantId db' db'') : Confined tenantId db db'' :=
  ⟨h.others.trans h'.others h.owns, fun id => (h.owns id).trans (h'.owns id)⟩

theorem confined_setStatus (id : String) (status : AccountStatus) (now : String) :
    Confined tenantId db (SqliteAccountStore.setStatus tenantId id status now db).2 := by
  rw [SqliteAccountStore.setStatus_eq]
  split
  · exact .refl tenantId db
  · exact ⟨⟨(otherRows_updateStatus _ _ _ _ _).symm, fun _ _ => rfl⟩,
      fun x => (owns_updateStatus _ _ _ _ _ x).symm⟩

section Tokens

variable {aead : Aead} {chrono : Chrono} {key : Key} {id : String}

theorem SameFor.tokensGet (h : SameFor tenantId db db') (hid : Owns db tenantId id)
    (now : DateTime) :
    SqliteTokenStore.get aead chrono key id now db =
      SqliteTokenStore.get aead chrono key id now db' :=
  SqliteTokenStore.get_congr (h.tokens id hid) now

variable (aead chrono key) in
/-- The account is there, so the token is stored. -/
theorem upsert_of_owns (hid : Owns db tenantId id) (token : StoredToken) (nonces : Nonce × Nonce) :
    ∃ ha : db.accounts.find id ≠ none,
      SqliteTokenStore.upsert aead chrono key id token nonces db =
        (.ok (), SqliteTokenStore.upsertRow db (token.toRow aead chrono key id nonces) ha) := by
  obtain ⟨r, hr, _⟩ := hid
  have ha : db.accounts.find id ≠ none := by simp [hr]
  exact ⟨ha, dif_pos ha⟩

theorem SameFor.tokensUpsert (h : SameFor tenantId db db') (hid : Owns db tenantId id)
    (token : StoredToken) (nonces : Nonce × Nonce) :
    (SqliteTokenStore.upsert aead chrono key id token nonces db).1 =
        (SqliteTokenStore.upsert aead chrono key id token nonces db').1 ∧
      SameFor tenantId (SqliteTokenStore.upsert aead chrono key id token nonces db).2
        (SqliteTokenStore.upsert aead chrono key id token nonces db').2 := by
  obtain ⟨ha, hdb⟩ := upsert_of_owns aead chrono key hid token nonces
  obtain ⟨ha', hdb'⟩ := upsert_of_owns aead chrono key
    ((h.owns id).mp hid) token nonces
  rw [hdb, hdb']
  refine ⟨rfl, h.rows, fun x hx => ?_⟩
  have hx' : Owns db tenantId x := hx
  have hfind := SqliteTokenStore.find_upsertRow db (token.toRow aead chrono key id nonces) ha x
  have hfind' := SqliteTokenStore.find_upsertRow db' (token.toRow aead chrono key id nonces) ha' x
  rw [← h.tokens x hx'] at hfind'
  exact hfind.trans hfind'.symm

theorem confined_tokensUpsert (hid : Owns db tenantId id) (token : StoredToken)
    (nonces : Nonce × Nonce) :
    Confined tenantId db (SqliteTokenStore.upsert aead chrono key id token nonces db).2 := by
  obtain ⟨ha, hdb⟩ := upsert_of_owns aead chrono key hid token nonces
  rw [hdb]
  refine ⟨⟨rfl, fun x hx => ?_⟩, fun _ => Iff.rfl⟩
  have hne : id ≠ x := by
    rintro rfl
    exact hx hid
  exact ((SqliteTokenStore.find_upsertRow _ _ ha x).trans (if_neg hne)).symm

theorem SameFor.tokensDelete (h : SameFor tenantId db db') (id : String) :
    SameFor tenantId (SqliteTokenStore.delete id db).2 (SqliteTokenStore.delete id db').2 := by
  refine ⟨h.rows, fun x hx => ?_⟩
  simp only [SqliteTokenStore.delete]
  rw [SqliteTokenStore.find_deleteRow, SqliteTokenStore.find_deleteRow, h.tokens x hx]

theorem confined_tokensDelete (hid : Owns db tenantId id) :
    Confined tenantId db (SqliteTokenStore.delete id db).2 := by
  refine ⟨⟨rfl, fun x hx => ?_⟩, fun _ => Iff.rfl⟩
  have hne : id ≠ x := by
    rintro rfl
    exact hx hid
  exact ((SqliteTokenStore.find_deleteRow db id x).trans (if_neg hne)).symm

end Tokens

/-! ### Tenants side by side -/

theorem SameFor.symm (h : SameFor tenantId db db') : SameFor tenantId db' db :=
  ⟨h.rows.symm, fun id hid => (h.tokens id ((h.owns id).mpr hid)).symm⟩

theorem SameFor.trans {db'' : Db} (h : SameFor tenantId db db') (h' : SameFor tenantId db' db'') :
    SameFor tenantId db db'' :=
  ⟨h.rows.trans h'.rows, fun id hid => (h.tokens id hid).trans (h'.tokens id ((h.owns id).mp hid))⟩

theorem SameFor.getByEmail (h : SameFor tenantId db db') (email : String) :
    SqliteAccountStore.getByEmail tenantId email db =
      SqliteAccountStore.getByEmail tenantId email db' := by
  rw [SqliteAccountStore.getByEmail, SqliteAccountStore.getByEmail, queryAccounts_tenant,
    queryAccounts_tenant, h.rows]

theorem sameFor_of_tables (haccounts : db'.accounts = db.accounts) (htokens : db'.tokens = db.tokens) :
    SameFor tenantId db db' := by
  refine ⟨?_, fun id _ => ?_⟩
  · rw [tenantRows, tenantRows, haccounts]
  · rw [htokens]

theorem owns_unique {tenantId' id : String} (h : Owns db tenantId id) (h' : Owns db tenantId' id) :
    tenantId = tenantId' := by
  obtain ⟨r, hr, htenant⟩ := h
  obtain ⟨r', hr', htenant'⟩ := h'
  obtain rfl := Option.some.inj (hr.symm.trans hr')
  exact htenant.symm.trans htenant'

/-- What is confined to one tenant leaves the rows of any other as they are. -/
theorem Confined.sameFor {tenantId' : String} (h : Confined tenantId' db db')
    (hne : tenantId ≠ tenantId') : SameFor tenantId db db' := by
  have hrows : ∀ db : Db, tenantRows db tenantId =
      (otherRows db tenantId').filter fun r => r.tenantId = tenantId := by
    intro db
    rw [tenantRows, otherRows, List.filter_filter]
    apply List.filter_congr
    intro r _
    by_cases hr : r.tenantId = tenantId
    · simp [hr, hne]
    · simp [hr]
  refine ⟨?_, fun id hid => h.others.tokens id fun hid' => hne (owns_unique hid hid')⟩
  rw [hrows, hrows, h.others.rows]

/-- A new account is nothing to the other tenants. -/
theorem sameFor_insertAccount {account : Account} (hc : ¬ SqliteAccountStore.Conflicts db account)
    (hne : account.tenantId ≠ tenantId) :
    SameFor tenantId db (SqliteAccountStore.insertAccount db account hc) := by
  refine ⟨?_, fun _ _ => rfl⟩
  show _ = (db.accounts.rows ++ [account.toRow]).filter _
  have hout : [account.toRow].filter (fun r => r.tenantId = tenantId) = [] := by
    simpa [Account.toRow] using hne
  rw [List.filter_append, hout, List.append_nil]
  rfl

theorem owns_insertAccount {account : Account} (hc : ¬ SqliteAccountStore.Conflicts db account)
    {id : String} (h : Owns db tenantId id) :
    Owns (SqliteAccountStore.insertAccount db account hc) tenantId id := by
  obtain ⟨r, hr, htenant⟩ := h
  refine ⟨r, ?_, htenant⟩
  rw [SqliteAccountStore.find_insertAccount, if_neg, hr]
  rintro rfl
  exact hc (SqliteAccountStore.conflicts_of_find hr)

end UniMail
