import Mathlib.Data.List.Induction
import UniMail.Storage.Timestamps

/-!
# The token store as a map

What `get` is for: it returns the token that was stored last (`lastToken`). The row of an account is
always the encoding of that token (`encodes_after`), so `get` gives it back up to one trip of its
instants through their text. An instant outside of the years 0000 to 9999 does not survive the trip:
it is lost from `expires_at` and `last_used_at`, and the present time takes its place in
`updated_at` (`get_last_iff`). A token response that is good for 8000 years leads there
(`expiry_lost`).
-/

namespace UniMail

open Relational

/-- A call of the token store. -/
inductive TokenCall
  | upsert (accountId : String) (token : StoredToken) (nonces : Nonce × Nonce)
  | delete (accountId : String)
  | get (accountId : String) (now : DateTime)

/-- What a call makes of the token of an account. -/
def TokenCall.next (accountId : String) (last : Option StoredToken) :
    TokenCall → Option StoredToken
  | .upsert id token _ => if id = accountId then some token else last
  | .delete id => if id = accountId then none else last
  | .get _ _ => last

/-- The token that is to be there after some calls, from a store without tokens. -/
def lastToken (accountId : String) (calls : List TokenCall) : Option StoredToken :=
  calls.foldl (TokenCall.next accountId) none

theorem lastToken_snoc (accountId : String) (past : List TokenCall) (call : TokenCall) :
    lastToken accountId (past ++ [call]) = call.next accountId (lastToken accountId past) := by
  rw [lastToken, List.foldl_append]
  rfl

section Store

variable (aead : Aead) (chrono : Chrono) (key : Key)

/-- The database after a call. -/
def TokenCall.exec (db : Db) : TokenCall → Db
  | .upsert id token nonces => (SqliteTokenStore.upsert aead chrono key id token nonces db).2
  | .delete id => (SqliteTokenStore.delete id db).2
  | .get _ _ => db

/-- The database after some calls. -/
def afterCalls (calls : List TokenCall) (db : Db) : Db :=
  calls.foldl (TokenCall.exec aead chrono key) db

/-- The row of the account is the encoding of the token, if there is one. -/
def RowEncodes (accountId : String) (db : Db) (token : Option StoredToken) : Prop :=
  match token with
  | none => db.tokens.find accountId = none
  | some token =>
    ∃ nonces, db.tokens.find accountId = some (token.toRow aead chrono key accountId nonces)

/-- The accounts of the calls exist. -/
def OnAccounts (db : Db) (calls : List TokenCall) : Prop :=
  ∀ call ∈ calls, ∀ id token nonces, call = .upsert id token nonces →
    db.accounts.find id ≠ none

variable {aead chrono key} {accountId : String} {db : Db}

theorem RowEncodes.congr {db' : Db} {token : Option StoredToken}
    (h : RowEncodes aead chrono key accountId db token)
    (hrow : db'.tokens.find accountId = db.tokens.find accountId) :
    RowEncodes aead chrono key accountId db' token := by
  cases token with
  | none => exact hrow.trans h
  | some token =>
    obtain ⟨nonces, hfind⟩ := h
    exact ⟨nonces, hrow.trans hfind⟩

theorem accounts_exec (call : TokenCall) :
    (call.exec aead chrono key db).accounts = db.accounts := by
  cases call with
  | upsert id token nonces =>
    show (SqliteTokenStore.upsert aead chrono key id token nonces db).2.accounts = db.accounts
    unfold SqliteTokenStore.upsert
    split <;> rfl
  | _ => rfl

/-- **The step lemma**: one call of the store is one update of the map. -/
theorem encodes_exec {call : TokenCall} {last : Option StoredToken}
    (h : RowEncodes aead chrono key accountId db last)
    (haccount : ∀ id token nonces, call = .upsert id token nonces → db.accounts.find id ≠ none) :
    RowEncodes aead chrono key accountId (call.exec aead chrono key db) (call.next accountId last) := by
  cases call with
  | get id now => exact h
  | delete id =>
    have hfind := SqliteTokenStore.find_deleteRow db id accountId
    by_cases hid : id = accountId
    · rw [if_pos hid] at hfind
      rw [TokenCall.next, if_pos hid]
      exact hfind
    · rw [if_neg hid] at hfind
      rw [TokenCall.next, if_neg hid]
      exact h.congr hfind
  | upsert id token nonces =>
    have ha := haccount id token nonces rfl
    have hexec : TokenCall.exec aead chrono key db (.upsert id token nonces) =
        SqliteTokenStore.upsertRow db (token.toRow aead chrono key id nonces) ha :=
      congrArg Prod.snd (dif_pos ha)
    have hfind := SqliteTokenStore.find_upsertRow db (token.toRow aead chrono key id nonces) ha
      accountId
    rw [hexec]
    by_cases hid : id = accountId
    · subst hid
      rw [TokenCall.next, if_pos rfl]
      exact ⟨nonces, hfind.trans (if_pos rfl)⟩
    · rw [TokenCall.next, if_neg hid]
      exact h.congr (hfind.trans (if_neg hid))

/-- **The store refines the map.** -/
theorem encodes_after {calls : List TokenCall} (hempty : db.tokens = .empty)
    (haccounts : OnAccounts db calls) :
    RowEncodes aead chrono key accountId (afterCalls aead chrono key calls db)
        (lastToken accountId calls) ∧
      (afterCalls aead chrono key calls db).accounts = db.accounts := by
  induction calls using List.reverseRecOn with
  | nil => exact ⟨congrArg (Table.find · accountId) hempty, rfl⟩
  | append_singleton past call ih =>
    have hpast : OnAccounts db past := fun c hc => haccounts c (List.mem_append_left _ hc)
    obtain ⟨hencodes, hsame⟩ := ih hpast
    have hcall := haccounts call (List.mem_append_right _ (List.mem_singleton_self call))
    rw [lastToken_snoc, afterCalls, List.foldl_append, List.foldl_cons, List.foldl_nil,
      ← afterCalls]
    refine ⟨encodes_exec hencodes ?_, (accounts_exec call).trans hsame⟩
    intro id token nonces hop
    rw [hsame]
    exact hcall id token nonces hop

end Store

/-! ### The trip of the instants -/

/-- The instants of the token come back when it is read at `now`. -/
def StoredToken.Survives (token : StoredToken) (now : DateTime) : Prop :=
  (∀ t, token.expiresAt = some t → InYears t) ∧ (∀ t, token.lastUsedAt = some t → InYears t) ∧
    (InYears token.updatedAt ∨ token.updatedAt = now)

section Trip

variable {chrono : Chrono} (hreads : chrono.Reads)
include hreads

theorem reread_eq_iff (token : StoredToken) (now : DateTime) :
    token.reread chrono now = token ↔ token.Survives now := by
  have hupdated : ((chrono.parseFromRfc3339 (chrono.toRfc3339 token.updatedAt)).getD now) =
      token.updatedAt ↔ InYears token.updatedAt ∨ token.updatedAt = now := by
    rw [trip_eq hreads]
    by_cases h : InYears token.updatedAt <;> simp [h, eq_comm]
  rw [StoredToken.Survives, ← trip_bind hreads, ← trip_bind hreads, ← hupdated]
  cases token
  simp [StoredToken.reread]

end Trip

/-! ### Reading -/

/-- **`get` returns the last token exactly when its instants survive their text.** Without a token
since the last delete it returns `None`. -/
theorem get_last_iff {aead : Aead} {chrono : Chrono} (hreads : chrono.Reads) (key : Key) {db : Db}
    (hempty : db.tokens = .empty) {calls : List TokenCall} (haccounts : OnAccounts db calls)
    (accountId : String) (now : DateTime) :
    SqliteTokenStore.get aead chrono key accountId now (afterCalls aead chrono key calls db) =
        .ok (lastToken accountId calls) ↔
      ∀ token, lastToken accountId calls = some token → token.Survives now := by
  have hencodes : RowEncodes aead chrono key accountId (afterCalls aead chrono key calls db)
      (lastToken accountId calls) := (encodes_after hempty haccounts).1
  cases hlast : lastToken accountId calls with
  | none =>
    rw [hlast] at hencodes
    have hrow : (afterCalls aead chrono key calls db).tokens.find accountId = none := hencodes
    simp [SqliteTokenStore.get, hrow]
  | some token =>
    rw [hlast] at hencodes
    obtain ⟨nonces, hrow⟩ := hencodes
    rw [SqliteTokenStore.get, hrow]
    simp [toToken_toRow, Except.map, reread_eq_iff hreads]

def oneAccount : Db :=
  (SqliteAccountStore.create ⟨"acc-1", "tenant-a", "a@x", none, "microsoft", .active, "", ""⟩
    .empty).2

/-- A token from 1970 that is good for 8000 years comes back without its expiry. -/
theorem expiry_lost :
    ∃ expiresAt, DateTime.checkedAdd 0 (Duration.seconds 253402300800) = some expiresAt ∧
      let token : StoredToken := ⟨"at", "rt", none, some expiresAt, some 0, 0⟩
      let calls : List TokenCall := [.upsert "acc-1" token zeroNonces]
      let got := SqliteTokenStore.get .tagged .released (Vector.replicate 32 7) "acc-1" 1
        (afterCalls .tagged .released (Vector.replicate 32 7) calls oneAccount)
      got ≠ .ok (lastToken "acc-1" calls) ∧ got = .ok (some { token with expiresAt := none }) := by
  refine ⟨253402300800000000000, by decide, ?_⟩
  intro token calls got
  have hgot : got = .ok (some { token with expiresAt := none }) := by decide +kernel
  refine ⟨?_, hgot⟩
  rw [hgot]
  decide

/-- A token that is good for an hour comes back, to the nanosecond. -/
theorem get_last_hour :
    let token : StoredToken := ⟨"", "rt", some "", some 3600000000001, some 1, 0⟩
    let calls : List TokenCall := [.upsert "acc-1" ⟨"at", "", none, none, none, 0⟩ zeroNonces,
      .delete "acc-1", .get "acc-1" 5, .upsert "acc-1" token zeroNonces]
    SqliteTokenStore.get .tagged .released (Vector.replicate 32 7) "acc-1" 7
      (afterCalls .tagged .released (Vector.replicate 32 7) calls oneAccount) =
        .ok (some token) := by
  intro token calls
  have haccounts : OnAccounts oneAccount calls := by
    intro call hcall id token nonces hop
    simp only [calls, List.mem_cons, List.not_mem_nil, or_false] at hcall
    rcases hcall with rfl | rfl | rfl | rfl <;> cases hop <;> decide
  apply (get_last_iff released_reads _ rfl haccounts "acc-1" 7).mpr
  rintro _ ⟨⟩
  refine ⟨?_, ?_, Or.inl (by decide)⟩ <;> rintro _ ⟨⟩ <;> decide

end UniMail
