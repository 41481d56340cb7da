import UniMail.Auth.Callback

/-!
# Beginning a flow

`begin_flow` draws the verifier and the state, has the flow store record them and returns the consent
URL. The store's `insert` has no result: whether its `DELETE` and its `INSERT` went through, the call
succeeds. `exec_beginFlow` says what a run does, and `begin_flow_recorded_iff` when its result can be
trusted.
-/

namespace UniMail

open Interaction Relational

variable {aead : Aead} {chrono : Chrono} {key : Key} {oauth : OAuthClient} {i : ℕ} {w w' : World}
  {ls : List (Label AppSig World Env)} {r : Outcome ConsentUrl} {tenantId : String}

namespace FlowStore

/-- The table that the `INSERT` of an `insert` finds: the `DELETE` may have failed. -/
def purged (env : SqlEnv) (flows : FlowTable) : FlowTable :=
  if (env.fault (.purge (unixNow env.clock - FLOW_TTL_SECS))).isNone then
    purgeFlows (unixNow env.clock - FLOW_TTL_SECS) flows
  else flows

/-- The `INSERT` goes through: it is not at fault, and no row is left under the state. -/
def Inserts (aead : Aead) (key : Key) (env : SqlEnv) (verifier tenantId state : String)
    (flows : FlowTable) : Prop :=
  env.fault (.insertRow (insertedRow aead key env verifier tenantId state)) = none ∧
    (purged env flows).find state = none

variable {env : SqlEnv} {verifier tenantId state : String} {flows : FlowTable}

theorem mem_purged {row : FlowRow} (h : row ∈ (purged env flows).rows) : row ∈ flows.rows := by
  unfold purged at h
  split at h
  · exact (List.mem_filter.mp h).1
  · exact h

/-- A row of the present second is not purged. -/
theorem find_purged {row : FlowRow} (hrow : row ∈ flows.rows)
    (hnow : row.createdAt = unixNow env.clock) : (purged env flows).find row.state = some row := by
  unfold purged
  split
  · rw [find_purgeFlows, Table.find_key hrow]
    have hlate : ¬ row.createdAt ≤ unixNow env.clock - FLOW_TTL_SECS := by
      unfold FLOW_TTL_SECS
      omega
    exact Option.filter_some_pos (by simpa using hlate)
  · exact Table.find_key hrow

theorem afterInsert_eq : afterInsert aead key env verifier tenantId state flows =
    if (env.fault (.insertRow (insertedRow aead key env verifier tenantId state))).isNone then
      (insertFlow (insertedRow aead key env verifier tenantId state) (purged env flows)).2
    else purged env flows := rfl

theorem afterInsert_inserts (h : Inserts aead key env verifier tenantId state flows) :
    (afterInsert aead key env verifier tenantId state flows).find state =
      some (insertedRow aead key env verifier tenantId state) := by
  rw [afterInsert_eq, h.1, Option.isNone_none, if_pos rfl, find_insertFlow]
  exact if_pos ⟨rfl, h.2⟩

/-- Where the `INSERT` does not go through, no row is new. -/
theorem afterInsert_fails (h : ¬ Inserts aead key env verifier tenantId state flows) :
    afterInsert aead key env verifier tenantId state flows = purged env flows := by
  rw [afterInsert_eq]
  split
  · rename_i hfault
    have hrow : (purged env flows).find state ≠ none :=
      fun hnone => h ⟨Option.isNone_iff_eq_none.mp hfault, hnone⟩
    have hrefused : insertFlow (insertedRow aead key env verifier tenantId state)
        (purged env flows) = (.error "UNIQUE constraint failed: oauth_flows.state",
          purged env flows) := dif_neg hrow
    exact congrArg Prod.snd hrefused
  · rfl

end FlowStore

/-! ### A run -/

/-- The call has drawn the verifier together with the challenge. -/
def Drew (ls : List (Label AppSig World Env)) (challenge verifier : String) : Prop :=
  ∃ env, ⟨.newPkce, env, (challenge, verifier)⟩ ∈ ls.map Label.view

/-- The table has a row under the state in the URL, with the tenant and the encryption of the verifier
whose challenge is in the URL. -/
def FlowRecorded (aead : Aead) (key : Key) (tenantId : String) (url : ConsentUrl)
    (ls : List (Label AppSig World Env)) (flows : FlowTable) : Prop :=
  ∃ row verifier nonce, flows.find url.state = some row ∧ row.tenantId = tenantId ∧
    row.verifier = encrypt aead key nonce (asBytes verifier) ∧ Drew ls url.challenge verifier

/-- A flow that is reported is recorded, and where no row was written the call fails. -/
structure NeverUnrecorded (aead : Aead) (key : Key) (tenantId : String)
    (ls : List (Label AppSig World Env)) (r : Outcome ConsentUrl) (before after : FlowTable) :
    Prop where
  recorded : ∀ url, r = .ok url → FlowRecorded aead key tenantId url ls after
  refused : (∀ row ∈ after.rows, row ∈ before.rows) → ∃ e, r = .error e

/-- The insertion of the flow goes through. -/
def GoesThrough (aead : Aead) (key : Key) (l : Label AppSig World Env) : Prop :=
  ∀ verifier tenantId state, l.op = .flowsInsert verifier tenantId state →
    FlowStore.Inserts aead key l.env.sql verifier tenantId state l.world.db.oauthFlows

/-- What `begin_flow` does: it fails before it records anything, or it reports the URL, whatever has
become of the row. -/
inductive BeginFlow (aead : Aead) (key : Key) (oauth : OAuthClient) (tenantId : String) (w : World) :
    List (Label AppSig World Env) → Outcome ConsentUrl → World → Prop
  | failed (env : Env) (e : AppError) :
      BeginFlow aead key oauth tenantId w [⟨.newPkce, env, w, env.pkce⟩] (.error (.err e)) w
  | reported (env env₁ env₂ : Env) :
      BeginFlow aead key oauth tenantId w
        [⟨.newPkce, env, w, env.pkce⟩, ⟨.newCsrf, env₁, w, env₁.csrf⟩,
          ⟨.flowsInsert env.pkce.2 tenantId env₁.csrf, env₂, w, ()⟩]
        (.ok ⟨oauth.authUrl, oauth.clientId, oauth.redirectUri, SCOPES, env.pkce.1, env₁.csrf⟩)
        { w with db := { w.db with
          oauthFlows := FlowStore.afterInsert aead key env₂.sql env.pkce.2 tenantId env₁.csrf
            w.db.oauthFlows } }

theorem exec_beginFlow (h : Exec (system aead chrono key) i
    (TokenManager.beginFlow oauth tenantId).run w ls r w') :
    BeginFlow aead key oauth tenantId w ls r w' := by
  unfold TokenManager.beginFlow OAuthClient.authorizeUrl at h
  rcases exec_run_bind h with ⟨drawn, w₁, ls₁, ls₂, hurl, hinsert, rfl⟩ | ⟨e, hurl, rfl⟩
  · obtain ⟨env, pkce, w₂, ls₃, hpkce, hrest, rfl⟩ := exec_op_bind hurl
    cases hpkce
    obtain ⟨_, _, hrest⟩ | ⟨e, _, _, herror, _⟩ := exec_check_bind hrest
    · obtain ⟨env₁, csrf, w₃, ls₄, hcsrf, hret, rfl⟩ := exec_op_bind hrest
      cases hcsrf
      obtain ⟨rfl, hdrawn, rfl⟩ := exec_pure hret
      cases hdrawn
      obtain ⟨env₂, u, w₄, ls₅, hexec, hret, rfl⟩ := exec_op_bind hinsert
      cases hexec
      obtain ⟨rfl, rfl, rfl⟩ := exec_pure hret
      exact .reported env env₁ env₂
    · cases herror
  · obtain ⟨env, pkce, w₂, ls₃, hpkce, hrest, rfl⟩ := exec_op_bind hurl
    cases hpkce
    obtain ⟨_, _, hrest⟩ | ⟨e', _, rfl, herror, rfl⟩ := exec_check_bind hrest
    · obtain ⟨env₁, csrf, w₃, ls₄, hcsrf, hret, rfl⟩ := exec_op_bind hrest
      obtain ⟨_, herror, _⟩ := exec_pure hret
      cases herror
    · cases herror
      exact .failed env e'

section Reported

variable {env env₁ env₂ : Env}

/-- Only the last operation is an insertion. -/
theorem goesThrough_iff :
    (∀ l ∈ [⟨.newPkce, env, w, env.pkce⟩, ⟨.newCsrf, env₁, w, env₁.csrf⟩,
      ⟨.flowsInsert env.pkce.2 tenantId env₁.csrf, env₂, w, ()⟩], GoesThrough aead key l) ↔
      FlowStore.Inserts aead key env₂.sql env.pkce.2 tenantId env₁.csrf w.db.oauthFlows := by
  constructor
  · intro h
    have hlast := h ⟨.flowsInsert env.pkce.2 tenantId env₁.csrf, env₂, w, ()⟩ (by simp)
    exact hlast env.pkce.2 tenantId env₁.csrf rfl
  · intro hinserts l hl verifier tenant state hop
    simp only [List.mem_cons, List.not_mem_nil, or_false] at hl
    rcases hl with rfl | rfl | rfl
    · cases hop
    · cases hop
    · cases hop
      exact hinserts

/-- A URL that is reported is that of a recorded flow exactly if the row is inserted. -/
theorem reported_iff {url : ConsentUrl} (hurl : url.challenge = env.pkce.1)
    (hstate : url.state = env₁.csrf)
    (hdrew : Drew ls env.pkce.1 env.pkce.2) :
    NeverUnrecorded aead key tenantId ls (.ok url) w.db.oauthFlows
        (FlowStore.afterInsert aead key env₂.sql env.pkce.2 tenantId env₁.csrf w.db.oauthFlows) ↔
      FlowStore.Inserts aead key env₂.sql env.pkce.2 tenantId env₁.csrf w.db.oauthFlows := by
  constructor
  · intro hnever
    by_contra hfails
    -- No row is new, and still the URL is reported.
    obtain ⟨e, he⟩ := hnever.refused fun row hrow => by
      rw [FlowStore.afterInsert_fails hfails] at hrow
      exact FlowStore.mem_purged hrow
    cases he
  · intro hinserts
    have hfind := FlowStore.afterInsert_inserts hinserts
    refine ⟨?_, fun hnone => ?_⟩
    · rintro _ ⟨⟩
      rw [← hurl] at hdrew
      refine ⟨FlowStore.insertedRow aead key env₂.sql env.pkce.2 tenantId env₁.csrf, env.pkce.2,
        env₂.sql.nonce, ?_, rfl, rfl, hdrew⟩
      rw [hstate]
      exact hfind
    · -- The row that was inserted is new: it would have been in the way.
      have hbefore := hnone _ (Table.find_eq_some.mp hfind).1
      have hleft := FlowStore.find_purged hbefore (Eq.refl (unixNow env₂.sql.clock))
      cases hinserts.2.symm.trans hleft

end Reported

/-- **A flow that is reported is recorded exactly if the `INSERT` goes through.** -/
theorem begin_flow_recorded_iff (h : Exec (system aead chrono key) i
    (TokenManager.beginFlow oauth tenantId).run w ls r w') :
    NeverUnrecorded aead key tenantId ls r w.db.oauthFlows w'.db.oauthFlows ↔
      ∀ l ∈ ls, GoesThrough aead key l := by
  cases exec_beginFlow h with
  | failed env e =>
    constructor
    · intro _ l hl
      obtain rfl := List.mem_singleton.mp hl
      intro verifier tenant state hop
      cases hop
    · intro _
      refine ⟨fun url hok => ?_, fun _ => ⟨_, rfl⟩⟩
      cases hok
  | reported env env₁ env₂ =>
    rw [goesThrough_iff]
    apply reported_iff rfl rfl
    exact ⟨env, by simp [Label.view]⟩

/-! ### Two runs -/

/-- The first process with an empty database. -/
def started : World := ⟨.empty, fun _ => none⟩

def sampleUrl : ConsentUrl :=
  ⟨"https://login/authorize", "client", "http://localhost", SCOPES, "challenge", "csrf"⟩

/-- What `begin_flow` performs in an environment. -/
def beginLabels (env : Env) : List (Label AppSig World Env) :=
  [⟨.newPkce, env, started, env.pkce⟩, ⟨.newCsrf, env, started, env.csrf⟩,
    ⟨.flowsInsert env.pkce.2 "tenant-a" env.csrf, env, started, ()⟩]

theorem begin_flow_recorded_calm : ∃ w',
    Exec sampleSystem 0 (TokenManager.beginFlow sampleOauth "tenant-a").run started
      (beginLabels (Env.calm 0 (.error ""))) (.ok sampleUrl) w' ∧
    FlowRecorded .tagged sampleKey "tenant-a" sampleUrl (beginLabels (Env.calm 0 (.error "")))
      w'.db.oauthFlows := by
  have hrun : Exec sampleSystem 0 (TokenManager.beginFlow sampleOauth "tenant-a").run started
      (beginLabels (Env.calm 0 (.error ""))) (.ok sampleUrl) _ :=
    exec_of_runAlone (show sampleSystem.runAlone 0 (Env.calm 0 (.error "")) _ _ = _ from rfl)
  refine ⟨_, hrun, ((begin_flow_recorded_iff hrun).mpr ?_).recorded _ rfl⟩
  intro l hl verifier tenantId state hop
  have hinserts : FlowStore.Inserts .tagged sampleKey (Env.calm 0 (.error "")).sql "verifier"
      "tenant-a" "csrf" started.db.oauthFlows := ⟨rfl, rfl⟩
  simp only [beginLabels, List.mem_cons, List.not_mem_nil, or_false] at hl
  rcases hl with rfl | rfl | rfl
  · cases hop
  · cases hop
  · cases hop
    exact hinserts

/-- Every `INSERT` fails. -/
def fullDisk : Env :=
  { Env.calm 0 (.error "") with
    flowFault := fun
      | .insertRow _ => some "database or disk is full"
      | _ => none }

/-- The disk is full: the flow is reported and the table stays empty. -/
theorem begin_flow_unrecorded : ∃ w',
    Exec sampleSystem 0 (TokenManager.beginFlow sampleOauth "tenant-a").run started
      (beginLabels fullDisk) (.ok sampleUrl) w' ∧ w'.db.oauthFlows.rows = [] ∧
    ¬ NeverUnrecorded .tagged sampleKey "tenant-a" (beginLabels fullDisk) (.ok sampleUrl)
      started.db.oauthFlows w'.db.oauthFlows := by
  have hrun : Exec sampleSystem 0 (TokenManager.beginFlow sampleOauth "tenant-a").run started
      (beginLabels fullDisk) (.ok sampleUrl) _ :=
    exec_of_runAlone (show sampleSystem.runAlone 0 fullDisk _ _ = _ from rfl)
  refine ⟨_, hrun, rfl, fun hnever => ?_⟩
  obtain ⟨row, verifier, nonce, hrow, _⟩ := hnever.recorded sampleUrl rfl
  cases hrow

end UniMail
