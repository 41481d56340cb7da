import UniMail.Lib.Table
import UniMail.Storage.Crypto
import UniMail.Storage.Models

/-!
# The database

The three tables of `SCHEMA`. A `Db` carries the constraints SQLite enforces on every statement as
fields: the primary keys (in `Table`), `UNIQUE (tenant_id, email_address)` on accounts and the
foreign key from tokens to accounts. A database state that breaks one of them cannot be built.
-/

namespace UniMail

open Relational

structure AccountRow where
  id : String
  tenantId : String
  emailAddress : String
  displayName : Option String
  provider : String
  status : String
  createdAt : String
  updatedAt : String
  deriving DecidableEq, Repr

structure TokenRow where
  accountId : String
  accessTokenEncrypted : Bytes
  refreshTokenEncrypted : Bytes
  scope : Option String
  expiresAt : Option String
  lastUsedAt : Option String
  updatedAt : String
  deriving DecidableEq, Repr

structure FlowRow where
  state : String
  verifier : Bytes
  tenantId : String
  createdAt : Int
  deriving DecidableEq, Repr

abbrev FlowTable := Table String FlowRow FlowRow.state

/-- The pair `UNIQUE (tenant_id, email_address)` is about. -/
def AccountRow.mailbox (r : AccountRow) : String × String := (r.tenantId, r.emailAddress)

/-- A database that satisfies `SCHEMA`. -/
structure Db where
  accounts : Table String AccountRow AccountRow.id
  tokens : Table String TokenRow TokenRow.accountId
  oauthFlows : FlowTable
  uniqueMailbox : (accounts.rows.map AccountRow.mailbox).Nodup
  tokenOwner : ∀ t ∈ tokens.rows, accounts.find t.accountId ≠ none

namespace Db

/-- The database right after the migration. -/
def empty : Db where
  accounts := .empty
  tokens := .empty
  oauthFlows := .empty
  uniqueMailbox := List.nodup_nil
  tokenOwner := by simp [Table.empty]

theorem ext {db db' : Db} (ha : db.accounts = db'.accounts) (ht : db.tokens = db'.tokens)
    (hf : db.oauthFlows = db'.oauthFlows) : db = db' := by
  cases db
  cases db'
  cases ha
  cases ht
  cases hf
  rfl

/-- A token row belongs to an account: the foreign key, read by account id. -/
theorem account_of_token {db : Db} {id : String} {t : TokenRow} (h : db.tokens.find id = some t) :
    ∃ a, db.accounts.find id = some a := by
  obtain ⟨hmem, rfl⟩ := Table.find_eq_some.mp h
  exact Option.ne_none_iff_exists'.mp (db.tokenOwner t hmem)

/-- Without an account there is no token row. -/
theorem token_none {db : Db} {id : String} (h : db.accounts.find id = none) :
    db.tokens.find id = none := by
  cases ht : db.tokens.find id with
  | none => rfl
  | some t =>
    obtain ⟨a, ha⟩ := account_of_token ht
    simp [h] at ha

end Db

/-- SQLite's `lower()`: it folds the ASCII letters only. -/
def sqliteLower (s : String) : String := String.ofList (s.toList.map Char.toLower)

end UniMail
