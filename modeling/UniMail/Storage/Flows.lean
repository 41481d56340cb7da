import UniMail.Chrono
import UniMail.Lib.Pool
import UniMail.Storage.Db

/-!
# Pending OAuth flows

The registry of in-flight flows as programs over the SQL statements it executes (`FlowSql`). One
connection runs the statements of a call without interruption (`runAtomic`, as under the mutex of a
`Database`); between connections they interleave. A statement can fail, and `insert` ignores that.

`runAtomic_insert` and `runAtomic_take` say what a whole call does to the table.
-/

namespace UniMail

open Relational Interaction

/-- How long an uncompleted flow stays valid (seconds). -/
def FLOW_TTL_SECS : Int := 600

/-- Current Unix time in seconds, by the system clock (nanoseconds since the epoch). -/
def unixNow (clock : Int) : Int := if clock < 0 then 0 else clock / 1000000000

/-- `i64::saturating_sub`. -/
def saturatingSub (a b : Int) : Int :=
  max (-9223372036854775808) (min 9223372036854775807 (a - b))

/-- Saturation does not move a difference across the lifetime of a flow. -/
theorem saturatingSub_le {a b : Int} : saturatingSub a b ≤ FLOW_TTL_SECS ↔ a - b ≤ FLOW_TTL_SECS := by
  unfold saturatingSub FLOW_TTL_SECS
  omega

/-- The statements of a flow store, its clock and its randomness. -/
inductive FlowSql
  | unixNow
  | randomNonce
  | purge (cutoff : Int)
  | insertRow (row : FlowRow)
  | select (state : String)
  | delete (state : String)
  deriving DecidableEq

/-- A statement that fails reports SQLite's message; `DELETE` reports how many rows it removed. -/
abbrev FlowSql.Reply : FlowSql → Type
  | .unixNow => Int
  | .randomNonce => Nonce
  | .purge _ => Except String Nat
  | .insertRow _ => Except String Nat
  | .select _ => Except String (Option FlowRow)
  | .delete _ => Except String Nat

abbrev FlowSig : Signature := ⟨FlowSql, FlowSql.Reply⟩

/-- What the environment contributes to a statement. -/
structure SqlEnv where
  clock : DateTime
  nonce : Nonce
  fault : FlowSql → Option String

/-- An environment without faults at a Unix time. -/
def SqlEnv.calm (secs : Int) : SqlEnv :=
  ⟨secs * 1000000000, Vector.replicate NONCE_LEN 0, fun _ => none⟩

/-- The rows a purge leaves. -/
def purgeFlows (cutoff : Int) (flows : FlowTable) : FlowTable :=
  flows.filter fun r => !decide (r.createdAt ≤ cutoff)

/-- The rows left when a state is consumed. -/
def consumeFlow (state : String) (flows : FlowTable) : FlowTable :=
  flows.filter fun r => !decide (r.state = state)

/-- `INSERT INTO oauth_flows`; the primary key rejects a state that is there. -/
def insertFlow (row : FlowRow) (flows : FlowTable) : Except String Nat × FlowTable :=
  if h : flows.find row.state = none then (.ok 1, flows.insert row h)
  else (.error "UNIQUE constraint failed: oauth_flows.state", flows)

/-- A statement over the table, unless it fails: then the table stays as it is. -/
def SqlEnv.statement {α : Type} (env : SqlEnv) (o : FlowSql) (flows : FlowTable)
    (result : Except String α × FlowTable) : Except String α × FlowTable :=
  match env.fault o with
  | some msg => (.error msg, flows)
  | none => result

theorem SqlEnv.statement_snd {α : Type} (env : SqlEnv) (o : FlowSql) (flows : FlowTable)
    (result : Except String α × FlowTable) :
    (env.statement o flows result).2 = if (env.fault o).isNone then result.2 else flows := by
  unfold SqlEnv.statement
  split <;> simp [*]

/-- The statements over the table. -/
def flowSql : Machine FlowSig FlowTable SqlEnv where
  exec _ o env flows := some <| match o with
    | .unixNow => (unixNow env.clock, flows)
    | .randomNonce => (env.nonce, flows)
    | .purge cutoff =>
      let left := purgeFlows cutoff flows
      env.statement (.purge cutoff) flows (.ok (flows.rows.length - left.rows.length), left)
    | .insertRow row => env.statement (.insertRow row) flows (insertFlow row flows)
    | .select state => env.statement (.select state) flows (.ok (flows.find state), flows)
    | .delete state =>
      let left := consumeFlow state flows
      env.statement (.delete state) flows (.ok (flows.rows.length - left.rows.length), left)

section Exec

variable (i : ℕ) (env : SqlEnv) (flows : FlowTable)

@[simp] theorem exec_unixNow :
    flowSql.exec i .unixNow env flows = some (unixNow env.clock, flows) := rfl

@[simp] theorem exec_randomNonce :
    flowSql.exec i .randomNonce env flows = some (env.nonce, flows) := rfl

@[simp] theorem exec_purge (cutoff : Int) : flowSql.exec i (.purge cutoff) env flows =
    some (env.statement (.purge cutoff) flows
      (.ok (flows.rows.length - (purgeFlows cutoff flows).rows.length),
        purgeFlows cutoff flows)) := rfl

@[simp] theorem exec_insertRow (row : FlowRow) : flowSql.exec i (.insertRow row) env flows =
    some (env.statement (.insertRow row) flows (insertFlow row flows)) := rfl

@[simp] theorem exec_select (state : String) : flowSql.exec i (.select state) env flows =
    some (env.statement (.select state) flows (.ok (flows.find state), flows)) := rfl

@[simp] theorem exec_delete (state : String) : flowSql.exec i (.delete state) env flows =
    some (env.statement (.delete state) flows
      (.ok (flows.rows.length - (consumeFlow state flows).rows.length),
        consumeFlow state flows)) := rfl

end Exec

namespace FlowStore

variable (aead : Aead) (key : Key)

/-- Record a pending flow under the CSRF `state` that was embedded in the consent URL. -/
def insert (verifier tenantId state : String) : Prog FlowSig Unit := do
  let createdAt ← Prog.perform (S := FlowSig) .unixNow
  let nonce ← Prog.perform (S := FlowSig) .randomNonce
  let verifierBlob := encrypt aead key nonce (asBytes verifier)
  -- Opportunistic cleanup of expired flows; both results are dropped.
  let _ ← Prog.perform (S := FlowSig) (.purge (createdAt - FLOW_TTL_SECS))
  let _ ← Prog.perform (S := FlowSig) (.insertRow ⟨state, verifierBlob, tenantId, createdAt⟩)
  return ()

/-- What `take` makes of a consumed row at Unix time `now`. -/
def redeem (row : FlowRow) (now : Int) : Except FlowError PendingFlow := do
  if saturatingSub now row.createdAt > FLOW_TTL_SECS then
    throw .expired
  let verifier ← (decrypt aead key row.verifier).mapError fun e =>
    FlowError.storage s!"decrypt verifier: {e}"
  let verifier ← (fromUtf8 verifier).mapError fun e =>
    FlowError.storage s!"verifier is not valid UTF-8: {e}"
  return { verifier, tenantId := row.tenantId, createdAt := row.createdAt }

/-- `take` after the `DELETE` went through. -/
def takeConsumed (row : FlowRow) : Prog FlowSig (Except FlowError PendingFlow) := do
  let now ← Prog.perform (S := FlowSig) .unixNow
  return redeem aead key row now

/-- `take` after the `SELECT` found a row. The count of the `DELETE` is not looked at. -/
def takeSelected (state : String) (row : FlowRow) :
    Prog FlowSig (Except FlowError PendingFlow) := do
  match ← Prog.perform (S := FlowSig) (.delete state) with
  | .error msg => return .error (.storage msg)
  | .ok _ => takeConsumed aead key row

/-- Remove and return a pending flow, rejecting unknown or expired states. -/
def take (state : String) : Prog FlowSig (Except FlowError PendingFlow) := do
  match ← Prog.perform (S := FlowSig) (.select state) with
  | .error msg => return .error (.storage msg)
  | .ok none => return .error .unknownState
  | .ok (some row) => takeSelected aead key state row

/-! ### A call on one connection -/

/-- The row an `insert` writes at clock `env.clock`. -/
def insertedRow (env : SqlEnv) (verifier tenantId state : String) : FlowRow :=
  ⟨state, encrypt aead key env.nonce (asBytes verifier), tenantId, unixNow env.clock⟩

/-- The table after an `insert`: each of its two statements may have failed. -/
def afterInsert (env : SqlEnv) (verifier tenantId state : String) (flows : FlowTable) : FlowTable :=
  let cutoff := unixNow env.clock - FLOW_TTL_SECS
  let row := insertedRow aead key env verifier tenantId state
  let flows := if (env.fault (.purge cutoff)).isNone then purgeFlows cutoff flows else flows
  if (env.fault (.insertRow row)).isNone then (insertFlow row flows).2 else flows

/-- The result of a `take` and the table it leaves. -/
def afterTake (env : SqlEnv) (state : String) (flows : FlowTable) :
    Except FlowError PendingFlow × FlowTable :=
  match env.fault (.select state), flows.find state, env.fault (.delete state) with
  | some msg, _, _ => (.error (.storage msg), flows)
  | none, none, _ => (.error .unknownState, flows)
  | none, some _, some msg => (.error (.storage msg), flows)
  | none, some row, none => (redeem aead key row (unixNow env.clock), consumeFlow state flows)

theorem runAtomic_insert (i : ℕ) (env : SqlEnv) (verifier tenantId state : String)
    (flows : FlowTable) :
    flowSql.runAtomic i env (insert aead key verifier tenantId state) flows =
      some ((), afterInsert aead key env verifier tenantId state flows) := by
  simp only [insert, Prog.perform, Prog.call_bind, Prog.ret_bind, Prog.pure_eq, Machine.runAtomic,
    exec_unixNow, exec_randomNonce, exec_purge, exec_insertRow, SqlEnv.statement_snd, afterInsert,
    insertedRow]
  rfl

theorem runAtomic_take (i : ℕ) (env : SqlEnv) (state : String) (flows : FlowTable) :
    flowSql.runAtomic i env (take aead key state) flows =
      some (afterTake aead key env state flows) := by
  simp only [take, afterTake, Prog.perform, Prog.call_bind, Prog.ret_bind, Machine.runAtomic,
    exec_select, SqlEnv.statement]
  cases env.fault (.select state) with
  | some msg => rfl
  | none =>
    cases flows.find state with
    | none => rfl
    | some row =>
      simp only [takeSelected, Prog.perform, Prog.call_bind, Prog.ret_bind, Machine.runAtomic,
        exec_delete, SqlEnv.statement]
      cases env.fault (.delete state) <;> rfl

variable {aead key}

/-- A flow is redeemed only while it is young enough. -/
theorem redeem_ok {row : FlowRow} {now : Int} {flow : PendingFlow}
    (h : redeem aead key row now = .ok flow) :
    now - row.createdAt ≤ FLOW_TTL_SECS ∧ flow.tenantId = row.tenantId ∧
      flow.createdAt = row.createdAt := by
  unfold redeem at h
  split at h
  · cases h
  · rename_i hage
    refine ⟨saturatingSub_le.mp (Int.not_lt.mp hage), ?_⟩
    obtain ⟨b, _, h⟩ := bind_eq_ok.mp h
    obtain ⟨v, _, h⟩ := bind_eq_ok.mp h
    cases h
    exact ⟨rfl, rfl⟩

/-- A row of ours gives its verifier back while it is young enough. -/
theorem redeem_insertedRow {env : SqlEnv} {verifier tenantId state : String} {now : Int}
    (hage : now - unixNow env.clock ≤ FLOW_TTL_SECS) :
    redeem aead key (insertedRow aead key env verifier tenantId state) now =
      .ok ⟨verifier, tenantId, unixNow env.clock⟩ := by
  have hlive : ¬ saturatingSub now (unixNow env.clock) > FLOW_TTL_SECS :=
    Int.not_lt.mpr (saturatingSub_le.mpr hage)
  simp [redeem, insertedRow, hlive, decrypt_encrypt, Except.mapError, bind, Except.bind, pure,
    Except.pure]

end FlowStore

/-! ### What the statements do to the rows -/

theorem find_purgeFlows (cutoff : Int) (flows : FlowTable) (state : String) :
    (purgeFlows cutoff flows).find state =
      (flows.find state).filter fun r => !decide (r.createdAt ≤ cutoff) :=
  Table.find_filter ..

theorem find_consumeFlow (state s : String) (flows : FlowTable) :
    (consumeFlow state flows).find s = if state = s then none else flows.find s := by
  rw [consumeFlow, Table.find_filter]
  cases hf : flows.find s with
  | none => simp
  | some r =>
    have hs : r.state = s := (Table.find_eq_some.mp hf).2
    by_cases h : state = s <;> simp [Option.filter_some, hs, h, eq_comm]

theorem find_insertFlow (row : FlowRow) (flows : FlowTable) (state : String) :
    (insertFlow row flows).2.find state =
      if row.state = state ∧ flows.find state = none then some row else flows.find state := by
  unfold insertFlow
  split
  · rename_i h
    rw [Table.find_insert]
    by_cases hs : row.state = state
    · subst hs
      simp [h]
    · simp [hs]
  · rename_i h
    rw [if_neg]
    rintro ⟨rfl, hnone⟩
    exact h hnone

end UniMail
