import UniMail.Storage.Db
import Mathlib.Data.List.Sort

/-!
# Account persistence, scoped per tenant

The statements of `SqliteAccountStore`. Each is one SQL statement, so it is atomic. Rows come back in
insertion order where the query has no `ORDER BY`: SQLite finds those of a tenant through
`idx_accounts_tenant`, in the order of their rowids.
-/

namespace UniMail

open Relational

/-- Map a row to an `Account`. -/
def AccountRow.toAccount (r : AccountRow) : Account where
  id := r.id
  tenantId := r.tenantId
  emailAddress := r.emailAddress
  displayName := r.displayName
  provider := r.provider
  status := .parse r.status
  createdAt := r.createdAt
  updatedAt := r.updatedAt

/-- The row `create` writes for an account. -/
def Account.toRow (a : Account) : AccountRow where
  id := a.id
  tenantId := a.tenantId
  emailAddress := a.emailAddress
  displayName := a.displayName
  provider := a.provider
  status := a.status.asStr
  createdAt := a.createdAt
  updatedAt := a.updatedAt

@[simp] theorem toAccount_toRow (a : Account) : a.toRow.toAccount = a := by
  cases a
  simp [AccountRow.toAccount, Account.toRow]

@[simp] theorem toRow_id (a : Account) : a.toRow.id = a.id := rfl

@[simp] theorem toAccount_id (r : AccountRow) : r.toAccount.id = r.id := rfl

@[simp] theorem toAccount_tenantId (r : AccountRow) : r.toAccount.tenantId = r.tenantId := rfl

/-- The rows a query selects, in insertion order. -/
def queryAccounts (db : Db) (p : AccountRow → Bool) : List Account :=
  (db.accounts.rows.filter p).map AccountRow.toAccount

/-- `ORDER BY updated_at DESC`; SQLite compares the text of the column. -/
def orderByUpdatedDesc (l : List Account) : List Account :=
  l.insertionSort fun a b => b.updatedAt ≤ a.updatedAt

namespace SqliteAccountStore

/-- A row that `INSERT` would put in the way of a constraint. -/
def Conflicts (db : Db) (a : Account) : Prop :=
  db.accounts.find a.id ≠ none ∨ a.toRow.mailbox ∈ db.accounts.rows.map AccountRow.mailbox

instance (db : Db) (a : Account) : Decidable (Conflicts db a) :=
  inferInstanceAs (Decidable (_ ∨ _))

theorem conflicts_of_find {db : Db} {a : Account} {row : AccountRow}
    (h : db.accounts.find a.id = some row) : Conflicts db a := by
  apply Or.inl
  rw [h]
  exact Option.some_ne_none row

theorem free_id {db : Db} {a : Account} (h : ¬ Conflicts db a) :
    db.accounts.find a.toRow.id = none := by
  by_contra hid
  exact h (Or.inl hid)

/-- `INSERT INTO accounts`, when no constraint is in the way. -/
def insertAccount (db : Db) (a : Account) (h : ¬ Conflicts db a) : Db :=
  { db with
    accounts := db.accounts.insert a.toRow (free_id h)
    uniqueMailbox := by
      rw [Table.rows_insert, List.map_append, List.nodup_append']
      refine ⟨db.uniqueMailbox, List.nodup_singleton _, ?_⟩
      simpa using fun hmem => h (Or.inr hmem)
    tokenOwner := by
      intro t ht
      rw [Table.find_insert]
      split
      · simp
      · exact db.tokenOwner t ht }

/-- Insert a new account. Fails if the id or the `(tenant, email)` pair already exists. -/
def create (account : Account) (db : Db) : Result Unit × Db :=
  if h : Conflicts db account then
    (.error (.invalidRequest
      s!"account {account.emailAddress} is already connected for this tenant"), db)
  else (.ok (), insertAccount db account h)

/-- List all accounts for a tenant, most recently updated first. -/
def list (tenantId : String) (db : Db) : List Account :=
  orderByUpdatedDesc (queryAccounts db fun r => r.tenantId = tenantId)

/-- Fetch a single account owned by `tenantId`. -/
def get (tenantId id : String) (db : Db) : Result Account :=
  match (queryAccounts db fun r => r.tenantId = tenantId ∧ r.id = id).head? with
  | some a => .ok a
  | none => .error (.notFound s!"account {id} not found")

/-- Fetch an account by email address. -/
def getByEmail (tenantId email : String) (db : Db) : Result Account :=
  match (queryAccounts db fun r =>
      r.tenantId = tenantId ∧ sqliteLower r.emailAddress = sqliteLower email).head? with
  | some a => .ok a
  | none => .error (.notFound s!"account {email} not found")

/-- `UPDATE accounts SET status, updated_at WHERE tenant_id AND id`. -/
def updateStatus (db : Db) (tenantId id : String) (status : AccountStatus) (now : String) : Db :=
  let f := fun r : AccountRow =>
    if r.tenantId = tenantId ∧ r.id = id then { r with status := status.asStr, updatedAt := now }
    else r
  have hid : ∀ r, (f r).id = r.id := by grind
  have hmailbox : ∀ r, (f r).mailbox = r.mailbox := by grind [AccountRow.mailbox]
  { db with
    accounts := db.accounts.update f hid
    uniqueMailbox := by simpa [Function.comp_def, hmailbox] using db.uniqueMailbox
    tokenOwner := by
      intro t ht
      simpa [Table.find_update] using db.tokenOwner t ht }

/-- Update the connection status of an account. -/
def setStatus (tenantId id : String) (status : AccountStatus) (now : String) (db : Db) :
    Result Unit × Db :=
  if (queryAccounts db fun r => r.tenantId = tenantId ∧ r.id = id).length = 0 then
    (.error (.notFound s!"account {id} not found"), db)
  else (.ok (), updateStatus db tenantId id status now)

/-- `DELETE FROM accounts`; the foreign key cascades to the tokens. -/
def deleteAccount (db : Db) (tenantId id : String) : Db :=
  let keep := fun r : AccountRow => !decide (r.tenantId = tenantId ∧ r.id = id)
  let accounts := db.accounts.filter keep
  { db with
    accounts
    tokens := db.tokens.filter fun t => (accounts.find t.accountId).isSome
    uniqueMailbox := (List.filter_sublist.map AccountRow.mailbox).nodup db.uniqueMailbox
    tokenOwner := by
      intro t ht
      have hsome := (List.mem_filter.mp ht).2
      exact Option.isSome_iff_ne_none.mp hsome }

/-- Delete an account. Returns `true` if a row was removed. -/
def delete (tenantId id : String) (db : Db) : Result Bool × Db :=
  (.ok (decide ((queryAccounts db fun r => r.tenantId = tenantId ∧ r.id = id).length ≠ 0)),
    deleteAccount db tenantId id)

/-- List every account across all tenants. -/
def listAll (db : Db) : List Account := orderByUpdatedDesc (queryAccounts db fun _ => true)

/-! ### What the statements do -/

theorem get_congr {db db' : Db} (h : db'.accounts = db.accounts) (tenantId id : String) :
    get tenantId id db' = get tenantId id db := by
  rw [get, get, queryAccounts, queryAccounts, h]

theorem getByEmail_congr {db db' : Db} (h : db'.accounts = db.accounts) (tenantId email : String) :
    getByEmail tenantId email db' = getByEmail tenantId email db := by
  rw [getByEmail, getByEmail, queryAccounts, queryAccounts, h]

theorem conflicts_congr {db db' : Db} (h : db'.accounts = db.accounts) (a : Account) :
    Conflicts db' a ↔ Conflicts db a := by
  rw [Conflicts, Conflicts, h]

theorem insertAccount_congr {db db' : Db} (h : db'.accounts = db.accounts) {a : Account}
    (hc : ¬ Conflicts db a) (hc' : ¬ Conflicts db' a) :
    (insertAccount db' a hc').accounts = (insertAccount db a hc).accounts := by
  apply Table.ext
  show db'.accounts.rows ++ [a.toRow] = db.accounts.rows ++ [a.toRow]
  rw [h]

/-- What an insertion leaves depends on the accounts only. -/
theorem inserted_congr {db db' : Db} (h : db'.accounts = db.accounts) {a : Account}
    {accounts : Table String AccountRow AccountRow.id}
    (hinserted : ∃ hc : ¬ Conflicts db' a, accounts = (insertAccount db' a hc).accounts) :
    ∃ hc : ¬ Conflicts db a, accounts = (insertAccount db a hc).accounts := by
  obtain ⟨hc', haccounts⟩ := hinserted
  have hc : ¬ Conflicts db a := fun hconflict => hc' ((conflicts_congr h a).mpr hconflict)
  exact ⟨hc, haccounts.trans (insertAccount_congr h hc hc')⟩

/-- By the primary key, `get` looks at one row. -/
theorem get_eq (tenantId id : String) (db : Db) :
    get tenantId id db = match db.accounts.find id with
      | some r => if r.tenantId = tenantId then .ok r.toAccount
          else .error (.notFound s!"account {id} not found")
      | none => .error (.notFound s!"account {id} not found") := by
  have hfind : (queryAccounts db fun r => r.tenantId = tenantId ∧ r.id = id).head? =
      ((db.accounts.filter fun r => r.tenantId = tenantId).find id).map AccountRow.toAccount := by
    simp [queryAccounts, Table.find, List.head?_filter, List.find?_filter]
  rw [get, hfind, Table.find_filter]
  cases db.accounts.find id with
  | none => rfl
  | some r => by_cases h : r.tenantId = tenantId <;> simp [Option.filter_some, h]

theorem get_eq_ok {tenantId id : String} {db : Db} {a : Account} :
    get tenantId id db = .ok a ↔
      ∃ r, db.accounts.find id = some r ∧ r.tenantId = tenantId ∧ r.toAccount = a := by
  rw [get_eq]
  cases db.accounts.find id with
  | none => simp
  | some r => by_cases h : r.tenantId = tenantId <;> simp [h]

theorem getByEmail_ok {tenantId email : String} {db : Db} {a : Account}
    (h : getByEmail tenantId email db = .ok a) :
    ∃ r, db.accounts.find a.id = some r ∧ r.tenantId = tenantId ∧
      sqliteLower r.emailAddress = sqliteLower email ∧ r.toAccount = a := by
  unfold getByEmail at h
  split at h
  · rename_i b hb
    cases h
    rw [queryAccounts, List.head?_map, Option.map_eq_some_iff] at hb
    obtain ⟨r, hr, rfl⟩ := hb
    obtain ⟨hmem, hp⟩ := List.mem_filter.mp (List.mem_of_mem_head? hr)
    simp only [Bool.decide_and, Bool.and_eq_true, decide_eq_true_eq] at hp
    exact ⟨r, Table.find_key hmem, hp.1, hp.2, rfl⟩
  · simp at h

/-- Where an email is not found, no account of the tenant has it in any case. -/
theorem getByEmail_error {tenantId email : String} {db : Db} {e : AppError}
    (h : getByEmail tenantId email db = .error e) {r : AccountRow} (hr : r ∈ db.accounts.rows)
    (htenant : r.tenantId = tenantId) : sqliteLower r.emailAddress ≠ sqliteLower email := by
  unfold getByEmail at h
  split at h
  · cases h
  · rename_i hnone
    intro hemail
    rw [queryAccounts, List.head?_map, Option.map_eq_none_iff, List.head?_eq_none_iff,
      List.filter_eq_nil_iff] at hnone
    exact hnone r hr (by simp [htenant, hemail])

theorem create_ok {a : Account} {db db' : Db} (h : create a db = (.ok (), db')) :
    ∃ hc : ¬ Conflicts db a, db' = insertAccount db a hc := by
  unfold create at h
  split at h
  · simp at h
  · rename_i hc
    exact ⟨hc, (Prod.mk.inj h).2.symm⟩

theorem find_insertAccount (db : Db) (a : Account) (h : ¬ Conflicts db a) (id : String) :
    (insertAccount db a h).accounts.find id =
      if a.id = id then some a.toRow else db.accounts.find id :=
  Table.find_insert db.accounts a.toRow (free_id h) id

/-- **`get` after `create`.** -/
theorem get_insertAccount (db : Db) (a : Account) (h : ¬ Conflicts db a) :
    get a.tenantId a.id (insertAccount db a h) = .ok a :=
  get_eq_ok.mpr ⟨a.toRow, (find_insertAccount db a h a.id).trans (if_pos rfl), rfl,
    toAccount_toRow a⟩

theorem setStatus_eq (tenantId id : String) (status : AccountStatus) (now : String) (db : Db) :
    setStatus tenantId id status now db =
      if get tenantId id db = .error (.notFound s!"account {id} not found") then
        (.error (.notFound s!"account {id} not found"), db)
      else (.ok (), updateStatus db tenantId id status now) := by
  unfold setStatus get
  cases queryAccounts db fun r => r.tenantId = tenantId ∧ r.id = id <;> simp

theorem create_error {a : Account} {db db' : Db} {e : AppError}
    (h : create a db = (.error e, db')) : db' = db := by
  unfold create at h
  split at h
  · exact (Prod.mk.inj h).2.symm
  · simp at h

/-- The account row of an id after its status was set. -/
theorem find_updateStatus (db : Db) (tenantId id : String) (status : AccountStatus) (now x : String) :
    (updateStatus db tenantId id status now).accounts.find x = (db.accounts.find x).map fun r =>
      if r.tenantId = tenantId ∧ r.id = id then { r with status := status.asStr, updatedAt := now }
      else r := by
  unfold updateStatus
  rw [Table.find_update]

theorem find_updateStatus_ne (db : Db) (tenantId : String) {id x : String} (status : AccountStatus)
    (now : String) (hx : x ≠ id) :
    (updateStatus db tenantId id status now).accounts.find x = db.accounts.find x := by
  rw [find_updateStatus]
  cases hr : db.accounts.find x with
  | none => rfl
  | some r =>
    obtain ⟨_, rfl⟩ := Table.find_eq_some.mp hr
    simp [hx]

theorem find_deleteAccount (db : Db) (tenantId id x : String) :
    (deleteAccount db tenantId id).accounts.find x =
      (db.accounts.find x).filter fun r => !decide (r.tenantId = tenantId ∧ r.id = id) :=
  Table.find_filter ..

/-- The foreign key keeps the tokens of the accounts that are left. -/
theorem find_tokens_deleteAccount (db : Db) (tenantId id x : String) :
    (deleteAccount db tenantId id).tokens.find x =
      if ((deleteAccount db tenantId id).accounts.find x).isSome then db.tokens.find x else none := by
  apply (Table.find_filter ..).trans
  cases ht : db.tokens.find x with
  | none => simp
  | some t =>
    obtain ⟨_, rfl⟩ := Table.find_eq_some.mp ht
    simp [Option.filter_some, deleteAccount]

end SqliteAccountStore

end UniMail
