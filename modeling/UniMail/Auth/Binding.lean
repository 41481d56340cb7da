import UniMail.Auth.Callback
import UniMail.Storage.Tenants

/-!
# Flows are bound to who began them

A callback that succeeds completes the flow of one earlier `begin_flow`, and each `begin_flow` is
completed at most once: its state, PKCE verifier and tenant are the ones the callback goes by
(`flows_bound`). That the states drawn differ is not needed: a state that is there is not overwritten.

A row of the table comes from an `insert` that no `take` of its state has followed (`Pending`). What a
call does with the flow it took is its protocol (`bindingMonitor`), whose ghost state (`Binding`) is
tied to the events so far by `Recorded`.
-/

namespace UniMail

open Interaction Relational

variable {aead : Aead} {chrono : Chrono} {key : Key} {oauth : OAuthClient} {α : Type}

/-! ### Rows and the calls that recorded them -/

/-- The operations that can change the flows table. -/
def Op.writesFlows : Op → Bool
  | .flowsInsert _ _ _ => true
  | .flowsTake _ => true
  | _ => false

theorem flows_frame {i : ℕ} {env : Env} {w w' : World} {o : Op} {r : Op.Reply o}
    (ho : o.writesFlows = false) (h : (system aead chrono key).exec i o env w = some (r, w')) :
    w'.db.oauthFlows = w.db.oauthFlows := by
  by_cases hdb : o.writesDb = false
  · exact congrArg Db.oauthFlows (db_frame hdb h)
  cases o with
  | accountsCreate account =>
    refine storage_part Db.oauthFlows ?_ (Option.some.inj h)
    unfold SqliteAccountStore.create
    split <;> rfl
  | accountsSetStatus tenantId id status =>
    refine storage_part Db.oauthFlows ?_ (Option.some.inj h)
    unfold SqliteAccountStore.setStatus
    split <;> rfl
  | accountsDelete tenantId id => exact storage_part Db.oauthFlows rfl (Option.some.inj h)
  | tokensUpsert accountId token =>
    refine storage_part Db.oauthFlows ?_ (Option.some.inj h)
    unfold SqliteTokenStore.upsert
    split <;> rfl
  | tokensDelete accountId => exact storage_part Db.oauthFlows rfl (Option.some.inj h)
  | flowsInsert | flowsTake => cases ho
  | _ => exact absurd rfl hdb

theorem mem_afterInsert {env : SqlEnv} {verifier tenantId state : String} {flows : FlowTable}
    {row : FlowRow}
    (h : row ∈ (FlowStore.afterInsert aead key env verifier tenantId state flows).rows) :
    row ∈ flows.rows ∨ row = FlowStore.insertedRow aead key env verifier tenantId state := by
  have hpurge : ∀ cutoff, row ∈ (purgeFlows cutoff flows).rows → row ∈ flows.rows :=
    fun _ h => (List.mem_filter.mp h).1
  have hinsert : ∀ new flows', row ∈ (insertFlow new flows').2.rows → row ∈ flows'.rows ∨ row = new := by
    intro new flows' h
    unfold insertFlow at h
    split at h
    · simpa using h
    · exact Or.inl h
  simp only [FlowStore.afterInsert] at h
  split at h
  · rcases hinsert _ _ h with h | h
    · split at h
      · exact Or.inl (hpurge _ h)
      · exact Or.inl h
    · exact Or.inr h
  · split at h
    · exact Or.inl (hpurge _ h)
    · exact Or.inl h

/-- What `take` leaves was there, and is of another state if it found the flow. -/
theorem mem_afterTake {env : SqlEnv} {state : String} {flows : FlowTable} {row : FlowRow}
    (h : row ∈ (FlowStore.afterTake aead key env state flows).2.rows) :
    row ∈ flows.rows ∧ ∀ flow,
      (FlowStore.afterTake aead key env state flows).1 = .ok flow → row.state ≠ state := by
  unfold FlowStore.afterTake at h ⊢
  split at h
  · exact ⟨h, fun _ hok => nomatch hok⟩
  · exact ⟨h, fun _ hok => nomatch hok⟩
  · exact ⟨h, fun _ hok => nomatch hok⟩
  · obtain ⟨hrow, hstate⟩ := List.mem_filter.mp h
    exact ⟨hrow, fun _ _ => by simpa using hstate⟩

/-- A flow that `take` returns was in the table. -/
theorem afterTake_ok {env : SqlEnv} {state : String} {flows : FlowTable} {flow : PendingFlow}
    (h : (FlowStore.afterTake aead key env state flows).1 = .ok flow) :
    ∃ row ∈ flows.rows, row.state = state ∧
      FlowStore.redeem aead key row (unixNow env.clock) = .ok flow := by
  unfold FlowStore.afterTake at h
  split at h
  · cases h
  · cases h
  · cases h
  · rename_i row _ hfind _
    obtain ⟨hrow, hstate⟩ := Table.find_eq_some.mp hfind
    exact ⟨row, hrow, hstate, h⟩

/-- The event takes a flow of the state. -/
def Takes (state : String) (e : Event AppSig World Env α) : Prop :=
  ∃ flow, e.call = ⟨.flowsTake state, .ok flow⟩

/-- The row was recorded by the event at `p`, and no flow of its state has been taken since. -/
def Pending (aead : Aead) (key : Key) (es : List (Event AppSig World Env α)) (p : ℕ) (row : FlowRow) :
    Prop :=
  ∃ e verifier, es[p]? = some e ∧ e.op = .flowsInsert verifier row.tenantId row.state ∧
    row = FlowStore.insertedRow aead key e.env.sql verifier row.tenantId row.state ∧
    ∀ q e', p < q → es[q]? = some e' → ¬ Takes row.state e'

theorem Pending.snoc {es : List (Event AppSig World Env α)} {p : ℕ} {row : FlowRow}
    {e : Event AppSig World Env α} (h : Pending aead key es p row) (he : ¬ Takes row.state e) :
    Pending aead key (es ++ [e]) p row := by
  obtain ⟨eInsert, verifier, hp, hop, hrow, hafter⟩ := h
  refine ⟨eInsert, verifier, getElem?_snoc.mpr (Or.inl hp), hop, hrow, fun q e' hq he' => ?_⟩
  rcases getElem?_snoc.mp he' with he' | ⟨_, rfl⟩
  · exact hafter q e' hq he'
  · exact he

theorem pending_step {past : List (Event AppSig World Env α)} {e : Event AppSig World Env α}
    (hstep : (system aead chrono key).Step e)
    (h : ∀ row ∈ e.before.world.db.oauthFlows.rows, ∃ p, Pending aead key past p row) :
    ∀ row ∈ e.after.world.db.oauthFlows.rows, ∃ p, Pending aead key (past ++ [e]) p row := by
  intro row hrow
  obtain ⟨k, _, hexec, _⟩ := hstep
  have hkept : row ∈ e.before.world.db.oauthFlows.rows → ¬ Takes row.state e →
      ∃ p, Pending aead key (past ++ [e]) p row := by
    intro hrow htakes
    obtain ⟨p, hp⟩ := h row hrow
    exact ⟨p, hp.snoc htakes⟩
  have htake : ∀ {state}, e.op ≠ .flowsTake state → ¬ Takes state e := by
    rintro state hop ⟨flow, hcall⟩
    exact hop (congrArg Sigma.fst hcall)
  by_cases ho : e.op.writesFlows = false
  · rw [flows_frame ho hexec] at hrow
    refine hkept hrow (htake fun hop => ?_)
    rw [hop] at ho
    cases ho
  obtain ⟨before, i, env, o, r, after⟩ := e
  cases o with
  | flowsInsert verifier tenantId state =>
    have hflows := congrArg (fun result => result.2.db.oauthFlows) (Option.some.inj hexec)
    rw [← hflows] at hrow
    rcases mem_afterInsert hrow with hrow | hrow
    · exact hkept hrow (htake fun hop => by cases hop)
    · subst hrow
      refine ⟨past.length, _, verifier, List.getElem?_concat_length, rfl, rfl, fun q e' hq he' => ?_⟩
      have hlt := (List.getElem?_eq_some_iff.mp he').1
      rw [List.length_append, List.length_singleton] at hlt
      omega
  | flowsTake state =>
    have hreply := congrArg Prod.fst (Option.some.inj hexec)
    have hflows := congrArg (fun result => result.2.db.oauthFlows) (Option.some.inj hexec)
    rw [← hflows] at hrow
    obtain ⟨hrow, hstate⟩ := mem_afterTake hrow
    apply hkept hrow
    rintro ⟨flow, hcall⟩
    obtain ⟨hop, hok⟩ := Sigma.mk.inj hcall
    cases hop
    exact hstate flow (hreply.trans (eq_of_heq hok)) rfl
  | _ => exact absurd rfl ho

theorem pending_run {c c' : Cfg AppSig World α} {es : List (Event AppSig World Env α)}
    (h : (system aead chrono key).Run c es c') (hempty : c.world.db.oauthFlows = .empty) :
    ∀ row ∈ c'.world.db.oauthFlows.rows, ∃ p, Pending aead key es p row := by
  refine h.history (I := fun past d => ∀ row ∈ d.world.db.oauthFlows.rows,
    ∃ p, Pending aead key past p row) ?_ fun past e post _ _ hstep hpast => pending_step hstep hpast
  intro row hrow
  rw [hempty] at hrow
  cases hrow

/-! ### The protocol of the calls -/

/-- What a callback knows: its parameters, the flow it took, whether it has exchanged the code, and an
account of the flow's tenant. -/
structure Ticket where
  code : String
  state : String
  flow : Option PendingFlow
  exchanged : Bool
  owned : Option String

def Ticket.next (k : Ticket) : (o : Op) → Op.Reply o → Ticket
  | .flowsTake _, .ok flow => { k with flow := some flow }
  | .token _, _ => { k with exchanged := true }
  | .accountsGetByEmail _ _, .ok account => { k with owned := some account.id }
  | .accountsGet _ id, .ok _ => { k with owned := some id }
  | .accountsCreate account, .ok _ => { k with owned := some account.id }
  | _, _ => k

/-- How far a `begin_flow` is, or what a callback knows. -/
inductive Binding
  | begins (tenantId : String)
  | drawn (tenantId verifier : String)
  | named (tenantId verifier state : String)
  | began (tenantId verifier state : String)
  | redeems (k : Ticket)
  | closed

namespace Binding

def allows : Binding → Op → Prop
  | _, .utcNow => True
  | .begins _, .newPkce => True
  | .drawn _ _, .newCsrf => True
  | .named tenantId verifier state, o => o = .flowsInsert verifier tenantId state
  | .redeems k, .flowsTake state => k.flow = none ∧ state = k.state
  | .redeems k, .token request =>
    ∃ flow, k.flow = some flow ∧ request = .exchangeCode k.code flow.verifier
  | .redeems k, .accountsGetByEmail tenantId _ =>
    k.exchanged = true ∧ ∃ flow, k.flow = some flow ∧ tenantId = flow.tenantId
  | .redeems k, .accountsGet tenantId _ => ∃ flow, k.flow = some flow ∧ tenantId = flow.tenantId
  | .redeems k, .accountsCreate account =>
    ∃ flow, k.flow = some flow ∧ account.tenantId = flow.tenantId
  | .redeems k, .tokensUpsert id _ => k.flow ≠ none ∧ k.owned = some id
  | .redeems _, .resolve _ => True
  | .redeems _, .storageNow => True
  | .redeems _, .newUuid => True
  | _, _ => False

def next : Binding → (o : Op) → Op.Reply o → Binding
  | .begins tenantId, .newPkce, pkce => .drawn tenantId pkce.2
  | .drawn tenantId verifier, .newCsrf, state => .named tenantId verifier state
  | .named tenantId verifier state, .flowsInsert _ _ _, _ => .began tenantId verifier state
  | .redeems k, o, r => .redeems (k.next o r)
  | g, _, _ => g

/-- The ghost state of a call at its start. -/
def start : Call → Binding
  | .beginFlow tenantId => .begins tenantId
  | .callback params => match params.code, params.state with
    | some code, some state => .redeems ⟨code, state, none, false, none⟩
    | _, _ => .closed
  | _ => .closed

/-- What the ghost state says about a callback that returns an account. -/
def Returns : Binding → Outcome Return → Prop
  | g, .ok (.account account) => ∃ k flow, g = .redeems k ∧ k.flow = some flow ∧
    k.exchanged = true ∧ account.tenantId = flow.tenantId
  | _, _ => True

end Binding

/-- A `begin_flow` records what it has drawn; a callback redeems one flow, with the verifier and for
the tenant of this flow only. -/
def bindingMonitor : Monitor AppSig Binding where
  allows := Binding.allows
  expects _ o r := match o, r with
    | .accountsGetByEmail tenantId _, .ok account => account.tenantId = tenantId
    | _, _ => True
  next := Binding.next

theorem binds_flowAccount {k : Ticket} {flow : PendingFlow} {identity : ResolvedIdentity}
    (hflow : k.flow = some flow) (hexchanged : k.exchanged = true) :
    Follows bindingMonitor (fun g r => ∃ k', g = .redeems k' ∧ k'.flow = some flow ∧
        k'.exchanged = true ∧ ∀ account, r = .ok account → account.tenantId = flow.tenantId)
      (.redeems k) (TokenManager.flowAccount flow.tenantId identity).run := by
  unfold TokenManager.flowAccount
  refine follows_op ⟨hexchanged, flow, hflow, rfl⟩ fun r hr => ?_
  cases r with
  | ok existing =>
    refine follows_op trivial fun updatedAt _ => ⟨_, rfl, hflow, hexchanged, ?_⟩
    rintro account ⟨⟩
    exact hr
  | error e =>
    cases e with
    | notFound msg =>
      refine follows_op trivial fun id _ => follows_op trivial fun createdAt _ => ?_
      refine follows_op trivial fun updatedAt _ => ⟨_, rfl, hflow, hexchanged, ?_⟩
      rintro account ⟨⟩
      rfl
    | _ =>
      refine ⟨_, rfl, hflow, hexchanged, ?_⟩
      rintro account ⟨⟩

theorem binds_ensureAccount {k : Ticket} {flow : PendingFlow} {account : Account}
    (hflow : k.flow = some flow) (hexchanged : k.exchanged = true)
    (htenant : account.tenantId = flow.tenantId) :
    Follows bindingMonitor (fun g r => ∃ k', g = .redeems k' ∧ k'.flow = some flow ∧
        k'.exchanged = true ∧ ∀ u, r = .ok u → k'.owned = some account.id)
      (.redeems k) (TokenManager.ensureAccount flow.tenantId account).run := by
  unfold TokenManager.ensureAccount
  refine follows_op ⟨flow, hflow, rfl⟩ fun r _ => ?_
  cases r with
  | ok _ => exact ⟨_, rfl, hflow, hexchanged, fun _ _ => rfl⟩
  | error _ =>
    refine follows_op ⟨flow, hflow, htenant⟩ fun r _ => ?_
    cases r with
    | ok _ => exact ⟨_, rfl, hflow, hexchanged, fun _ _ => rfl⟩
    | error _ => exact ⟨_, rfl, hflow, hexchanged, fun _ hok => nomatch hok⟩

theorem binds_completeFlow {code state : String} :
    Follows bindingMonitor (fun g r => ∀ account, r = .ok account →
        ∃ k flow, g = .redeems k ∧ k.flow = some flow ∧ k.exchanged = true ∧
          account.tenantId = flow.tenantId)
      (.redeems ⟨code, state, none, false, none⟩) (TokenManager.completeFlow oauth code state).run := by
  have hnow : bindingMonitor.Silent .utcNow := by
    intro g
    cases g <;> exact ⟨trivial, fun _ => rfl⟩
  unfold TokenManager.completeFlow
  refine follows_op ⟨rfl, rfl⟩ fun r _ => ?_
  cases r with
  | error e => exact fun account h => nomatch h
  | ok flow =>
    refine follows_check_ok rfl ((follows_run_bind _ _ _).mpr (follows_requestTokens hnow
      ⟨flow, rfl, rfl⟩ (fun _ _ h => nomatch h) (fun _ _ _ h => nomatch h) fun response _ =>
        ⟨fun ts _ _ => ?_, fun _ _ h => nomatch h⟩))
    dsimp only
    cases ts.refreshToken with
    | none => exact fun account h => nomatch h
    | some refreshToken =>
      unfold TokenManager.connect
      refine follows_op trivial fun r _ => follows_check_bind (fun identity _ => ?_)
        fun _ _ _ h => nomatch h
      have htaken : (Ticket.mk code state (some flow) true none).flow = some flow := rfl
      refine (follows_run_bind _ _ _).mpr
        (follows_mono (fun g r hr => ?_) (binds_flowAccount htaken rfl))
      obtain ⟨k, rfl, hflow, hexchanged, haccount⟩ := hr
      cases r with
      | error e => exact fun account h => nomatch h
      | ok account =>
        have htenant := haccount account rfl
        refine follows_op_silent (hnow _) fun _ _ => follows_op_silent (hnow _) fun _ _ => ?_
        refine (follows_run_bind _ _ _).mpr
          (follows_mono (fun g r hr => ?_) (binds_ensureAccount hflow hexchanged htenant))
        obtain ⟨k', rfl, hflow', hexchanged', howned⟩ := hr
        cases r with
        | error e => exact fun account h => nomatch h
        | ok u =>
          refine follows_op ⟨by simp [hflow'], howned u rfl⟩ fun r _ => ?_
          cases r with
          | error e => exact fun account h => nomatch h
          | ok _ =>
            rintro account ⟨⟩
            exact ⟨_, flow, rfl, hflow', hexchanged', htenant⟩

/-- The calls the flows are about. -/
def Call.IsFlow : Call → Prop
  | .beginFlow _ => True
  | .callback _ => True
  | _ => False

theorem binds_call {call : Call} (hcall : call.IsFlow) :
    Follows bindingMonitor Binding.Returns (.start call) (call.prog oauth) := by
  cases call with
  | beginFlow tenantId =>
    apply (follows_run_bind _ _ _).mpr
    unfold TokenManager.beginFlow OAuthClient.authorizeUrl
    refine (follows_run_bind _ _ _).mpr (follows_op trivial fun pkce _ => ?_)
    refine follows_check_bind (fun _ _ => ?_) fun _ _ => trivial
    exact follows_op trivial fun state _ => follows_op rfl fun _ _ => trivial
  | callback params =>
    obtain ⟨code, state, error, detail⟩ := params
    cases error with
    | some error => trivial
    | none =>
      match code, state with
      | some code, some state =>
        refine (follows_run_bind _ _ _).mpr (follows_mono (fun g r hr => ?_) binds_completeFlow)
        cases r with
        | ok account => exact hr account rfl
        | error e => trivial
      | some _, none => trivial
      | none, _ => trivial
  | _ => exact hcall.elim

/-! ### What a step does to the rows -/

section Rows

variable {i : ℕ} {env : Env} {w w' : World} {o : Op} {r : Op.Reply o} {k : Ticket} {tenantId : String}

theorem sameForOthers_of_eq {db db' : Db} (haccounts : db'.accounts = db.accounts)
    (htokens : db'.tokens = db.tokens) : SameForOthers tenantId db db' where
  rows := by rw [otherRows, otherRows, haccounts]
  tokens _ _ := by rw [htokens]

theorem sameForOthers_create {account : Account} {db : Db} (htenant : account.tenantId = tenantId) :
    SameForOthers tenantId db (SqliteAccountStore.create account db).2 := by
  unfold SqliteAccountStore.create
  split
  · exact .refl tenantId db
  · refine ⟨?_, fun _ _ => rfl⟩
    have hnot : ¬ account.toRow.tenantId ≠ tenantId := not_not.mpr htenant
    simp [otherRows, SqliteAccountStore.insertAccount, List.filter_append, hnot]

/-- An account of the tenant stays one, unless accounts are updated or deleted. -/
theorem Owns.kept {id : String} (h : Owns w.db tenantId id)
    (hstatus : ∀ t id status, o ≠ .accountsSetStatus t id status)
    (hdelete : ∀ t id, o ≠ .accountsDelete t id)
    (hexec : (system aead chrono key).exec i o env w = some (r, w')) : Owns w'.db tenantId id := by
  by_cases ho : o.writesAccounts = false
  · obtain ⟨row, hrow, htenant⟩ := h
    exact ⟨row, (congrArg (·.find id) (accounts_frame ho hexec)).trans hrow, htenant⟩
  cases o with
  | accountsCreate account =>
    rcases storage_eq (Option.some.inj hexec) with ⟨hw, _⟩ | ⟨_, hw⟩
    · have hw : w' = w := hw
      exact hw ▸ h
    · obtain ⟨row, hrow, htenant⟩ := h
      rw [show w' = _ from hw]
      refine ⟨row, ?_, htenant⟩
      dsimp only [SqliteAccountStore.create]
      split
      · exact hrow
      · rename_i hfree
        apply (SqliteAccountStore.find_insertAccount _ _ hfree id).trans
        rw [if_neg, hrow]
        rintro rfl
        exact hfree (Or.inl (by simp [hrow]))
  | accountsSetStatus t id status => exact absurd rfl (hstatus t id status)
  | accountsDelete t id => exact absurd rfl (hdelete t id)
  | _ => exact absurd rfl ho

/-- A callback leaves the rows of other tenants as they are. -/
theorem others_redeems (hallows : Binding.allows (.redeems k) o)
    (howned : ∀ id, k.owned = some id → ∃ flow, k.flow = some flow ∧ Owns w.db flow.tenantId id)
    (htenant : ∀ flow, k.flow = some flow → flow.tenantId = tenantId)
    (hexec : (system aead chrono key).exec i o env w = some (r, w')) :
    SameForOthers tenantId w.db w'.db := by
  by_cases ho : o.writesAccounts = false ∧ o.writesTokens = false
  · exact sameForOthers_of_eq (accounts_frame ho.1 hexec) (tokens_frame ho.2 hexec)
  cases o with
  | accountsCreate account =>
    obtain ⟨flow, hflow, haccount⟩ := hallows
    rcases storage_eq (Option.some.inj hexec) with ⟨hw, _⟩ | ⟨_, hw⟩
    · exact hw ▸ .refl tenantId w.db
    · rw [show w' = _ from hw]
      exact sameForOthers_create (haccount.trans (htenant flow hflow))
  | tokensUpsert id token =>
    obtain ⟨flow, hflow, howns⟩ := howned id hallows.2
    rw [htenant flow hflow] at howns
    rcases storage_eq (Option.some.inj hexec) with ⟨hw, _⟩ | ⟨_, hw⟩
    · exact hw ▸ .refl tenantId w.db
    · rw [show w' = _ from hw]
      exact (confined_tokensUpsert howns token env.nonces).others
  | accountsSetStatus | accountsDelete | tokensDelete => exact hallows.elim
  | _ => exact absurd ⟨rfl, rfl⟩ ho

/-- What a callback finds or creates is an account of its flow's tenant. -/
theorem owned_redeems (hallows : Binding.allows (.redeems k) o)
    (howned : ∀ id, k.owned = some id → ∃ flow, k.flow = some flow ∧ Owns w.db flow.tenantId id)
    (hexec : (system aead chrono key).exec i o env w = some (r, w')) :
    ∀ id, (k.next o r).owned = some id →
      ∃ flow, (k.next o r).flow = some flow ∧ Owns w'.db flow.tenantId id := by
  have hkept : ∀ id, k.owned = some id → ∃ flow, k.flow = some flow ∧ Owns w'.db flow.tenantId id := by
    intro id hid
    obtain ⟨flow, hflow, howns⟩ := howned id hid
    refine ⟨flow, hflow, howns.kept ?_ ?_ hexec⟩
    · rintro t id status rfl
      exact hallows.elim
    · rintro t id rfl
      exact hallows.elim
  cases o with
  | flowsTake state =>
    cases r with
    | error e => exact hkept
    | ok flow =>
      intro id hid
      obtain ⟨flow', hflow', _⟩ := howned id hid
      cases hallows.1.symm.trans hflow'
  | accountsGetByEmail tenantId email =>
    cases r with
    | error e => exact hkept
    | ok account =>
      rintro id ⟨⟩
      obtain ⟨_, flow, hflow, rfl⟩ := hallows
      obtain ⟨hget, rfl⟩ := storage_ok (Option.some.inj hexec)
      obtain ⟨row, hrow, htenant, _, rfl⟩ := SqliteAccountStore.getByEmail_ok hget
      exact ⟨flow, hflow, row, hrow, htenant⟩
  | accountsGet tenantId id =>
    cases r with
    | error e => exact hkept
    | ok account =>
      rintro id' ⟨⟩
      obtain ⟨flow, hflow, rfl⟩ := hallows
      obtain ⟨hget, rfl⟩ := storage_ok (Option.some.inj hexec)
      obtain ⟨row, hrow, htenant, rfl⟩ := SqliteAccountStore.get_eq_ok.mp hget
      exact ⟨flow, hflow, row, hrow, htenant⟩
  | accountsCreate account =>
    cases r with
    | error e => exact hkept
    | ok u =>
      rintro id ⟨⟩
      obtain ⟨flow, hflow, htenant⟩ := hallows
      obtain ⟨hcreate, rfl⟩ := storage_ok (Option.some.inj hexec)
      obtain ⟨hfree, hdb⟩ := SqliteAccountStore.create_ok (Prod.ext hcreate rfl)
      refine ⟨flow, hflow, account.toRow, ?_, htenant⟩
      have hfind := SqliteAccountStore.find_insertAccount w.db account hfree account.id
      rw [if_pos rfl, ← hdb] at hfind
      exact hfind
  | _ => exact hkept

end Rows

/-! ### What the events so far say -/

namespace Binding

variable {e : Event AppSig World Env α} {g : Binding}

/-- The call the ghost state is about. -/
def Belongs : Binding → Option Call → Prop
  | .begins tenantId, call => call = some (.beginFlow tenantId)
  | .drawn tenantId _, call => call = some (.beginFlow tenantId)
  | .named tenantId _ _, call => call = some (.beginFlow tenantId)
  | .began tenantId _ _, call => call = some (.beginFlow tenantId)
  | .redeems k, call => ∃ params, call = some (.callback params) ∧ params.code = some k.code ∧
    params.state = some k.state
  | .closed, _ => True

/-- The event fits the ghost state that its call has reached. -/
structure Explains (g : Binding) (e : Event AppSig World Env α) : Prop where
  inserts : ∀ verifier tenantId state, e.op = .flowsInsert verifier tenantId state →
    g = .began tenantId verifier state
  takes : ∀ state flow, e.call = ⟨.flowsTake state, .ok flow⟩ →
    ∃ k, g = .redeems k ∧ k.state = state ∧ k.flow = some flow
  requests : ∀ request, e.op = .token request →
    ∃ k flow, g = .redeems k ∧ k.flow = some flow ∧ request = .exchangeCode k.code flow.verifier
  others : ∀ k, g = .redeems k → ∀ tenantId, (∀ flow, k.flow = some flow → flow.tenantId = tenantId) →
    SameForOthers tenantId e.before.world.db e.after.world.db

theorem Belongs.next {call : Option Call} {o : Op} {r : Op.Reply o} (h : g.Belongs call) :
    (g.next o r).Belongs call := by
  cases g with
  | redeems k =>
    obtain ⟨params, hcall, hcode, hstate⟩ := h
    refine ⟨params, hcall, hcode.trans ?_, hstate.trans ?_⟩ <;>
      cases o <;> first | rfl | (cases r <;> rfl)
  | _ => cases o <;> exact h

theorem flow_next {k : Ticket} {flow : PendingFlow} {o : Op} {r : Op.Reply o}
    (hallows : allows (.redeems k) o) (h : k.flow = some flow) : (k.next o r).flow = some flow := by
  cases o with
  | flowsTake state => cases hallows.1.symm.trans h
  | accountsGetByEmail | accountsGet | accountsCreate => cases r <;> exact h
  | _ => exact h

theorem state_next {k : Ticket} {o : Op} {r : Op.Reply o} :
    (k.next o r).state = k.state ∧ (k.next o r).code = k.code := by
  cases o with
  | flowsTake | accountsGetByEmail | accountsGet | accountsCreate => cases r <;> exact ⟨rfl, rfl⟩
  | _ => exact ⟨rfl, rfl⟩

theorem next_redeems {o : Op} {r : Op.Reply o} {k : Ticket} (h : g.next o r = .redeems k) :
    ∃ k₀, g = .redeems k₀ ∧ k₀.next o r = k := by
  cases g with
  | redeems k₀ => exact ⟨k₀, rfl, Binding.redeems.inj h⟩
  | _ => cases o <;> cases h

/-- No call of the pool updates or deletes accounts. -/
theorem allows_kept {o : Op} (hallows : g.allows o) :
    (∀ t id status, o ≠ .accountsSetStatus t id status) ∧ ∀ t id, o ≠ .accountsDelete t id := by
  constructor
  · rintro t id status rfl
    cases g <;> cases hallows
  · rintro t id rfl
    cases g <;> cases hallows

/-- A `begin_flow` records its flow in one state only. -/
theorem allows_insert {verifier tenantId state : String}
    (hallows : g.allows (.flowsInsert verifier tenantId state)) : g = .named tenantId verifier state := by
  cases g with
  | named t v s =>
    cases hallows
    rfl
  | _ => exact hallows.elim

/-- What fits a ghost state fits the next one. -/
theorem Explains.next {o : Op} {r : Op.Reply o} (h : g.Explains e) (hallows : g.allows o) :
    (g.next o r).Explains e where
  inserts verifier tenantId state hop := by
    obtain rfl := h.inserts verifier tenantId state hop
    cases o <;> rfl
  takes state flow hcall := by
    obtain ⟨k, rfl, hstate, hflow⟩ := h.takes state flow hcall
    exact ⟨_, rfl, state_next.1.trans hstate, flow_next hallows hflow⟩
  requests request hop := by
    obtain ⟨k, flow, rfl, hflow, hrequest⟩ := h.requests request hop
    refine ⟨_, flow, rfl, flow_next hallows hflow, ?_⟩
    rw [state_next.2]
    exact hrequest
  others k hk tenantId htenant := by
    obtain ⟨k₀, rfl, rfl⟩ := next_redeems hk
    exact h.others k₀ rfl tenantId fun flow hflow => htenant flow (flow_next hallows hflow)

/-- An event fits the ghost state it leads to. -/
theorem explains_self (hallows : g.allows e.op)
    (hothers : ∀ k, g = .redeems k → ∀ tenantId, (∀ flow, k.flow = some flow →
      flow.tenantId = tenantId) → SameForOthers tenantId e.before.world.db e.after.world.db) :
    (g.next e.op e.reply).Explains e := by
  obtain ⟨before, i, env, o, r, after⟩ := e
  refine ⟨?_, ?_, ?_, ?_⟩
  · rintro verifier tenantId state ⟨⟩
    rw [allows_insert hallows]
    rfl
  · intro state flow hcall
    obtain ⟨rfl, hr⟩ := Sigma.mk.inj hcall
    obtain rfl := eq_of_heq hr
    cases g with
    | redeems k => exact ⟨_, rfl, hallows.2.symm, rfl⟩
    | named t v s => cases hallows
    | _ => exact hallows.elim
  · rintro request ⟨⟩
    cases g with
    | redeems k =>
      obtain ⟨flow, hflow, hrequest⟩ := hallows
      exact ⟨_, flow, rfl, hflow, hrequest⟩
    | named t v s => cases hallows
    | _ => exact hallows.elim
  · intro k hk tenantId htenant
    obtain ⟨k₀, rfl, rfl⟩ := next_redeems hk
    exact hothers k₀ rfl tenantId fun flow hflow => htenant flow (flow_next hallows hflow)

/-- What the call has drawn, taken and sent to get here is among the calls `seen`. -/
def Drew (seen : (o : Op) × Op.Reply o → Prop) : Binding → Prop
  | .drawn _ verifier => ∃ challenge, seen ⟨.newPkce, (challenge, verifier)⟩
  | .named _ verifier state =>
    (∃ challenge, seen ⟨.newPkce, (challenge, verifier)⟩) ∧ seen ⟨.newCsrf, state⟩
  | .began _ verifier state =>
    (∃ challenge, seen ⟨.newPkce, (challenge, verifier)⟩) ∧ seen ⟨.newCsrf, state⟩
  | .redeems k => (∀ flow, k.flow = some flow → seen ⟨.flowsTake k.state, .ok flow⟩) ∧
    (k.exchanged = true → ∃ flow r, k.flow = some flow ∧
      seen ⟨.token (.exchangeCode k.code flow.verifier), r⟩)
  | _ => True

theorem Drew.mono {seen seen' : (o : Op) × Op.Reply o → Prop} (hseen : ∀ call, seen call → seen' call)
    (h : g.Drew seen) : g.Drew seen' := by
  have hpkce : ∀ {verifier : String}, (∃ challenge, seen ⟨.newPkce, (challenge, verifier)⟩) →
      ∃ challenge, seen' ⟨.newPkce, (challenge, verifier)⟩ :=
    fun ⟨challenge, h⟩ => ⟨challenge, hseen _ h⟩
  cases g with
  | drawn => exact hpkce h
  | named => exact ⟨hpkce h.1, hseen _ h.2⟩
  | began => exact ⟨hpkce h.1, hseen _ h.2⟩
  | redeems k =>
    refine ⟨fun flow hflow => hseen _ (h.1 flow hflow), fun hexchanged => ?_⟩
    obtain ⟨flow, r, hflow, hsent⟩ := h.2 hexchanged
    exact ⟨flow, r, hflow, hseen _ hsent⟩
  | _ => trivial

theorem Drew.next {seen : (o : Op) × Op.Reply o → Prop} {o : Op} {r : Op.Reply o}
    (h : g.Drew seen) (hallows : g.allows o) (hself : seen ⟨o, r⟩) : (g.next o r).Drew seen := by
  cases g with
  | begins tenantId =>
    cases o with
    | newPkce => exact ⟨r.1, hself⟩
    | _ => trivial
  | drawn tenantId verifier =>
    cases o with
    | newCsrf => exact ⟨h, hself⟩
    | _ => exact h
  | redeems k =>
    cases o with
    | flowsTake state =>
      cases r with
      | error e => exact h
      | ok flow =>
        obtain ⟨hnone, rfl⟩ := hallows
        refine ⟨?_, fun hexchanged => ?_⟩
        · rintro flow' ⟨⟩
          exact hself
        · obtain ⟨flow', _, hflow, _⟩ := h.2 hexchanged
          cases hnone.symm.trans hflow
    | token request =>
      obtain ⟨flow, hflow, rfl⟩ := hallows
      exact ⟨h.1, fun _ => ⟨flow, r, hflow, hself⟩⟩
    | accountsGetByEmail | accountsGet | accountsCreate => cases r <;> exact h
    | _ => exact h
  | _ => cases o <;> exact h

end Binding

/-- The thread has performed the call. -/
def Seen (past : List (Event AppSig World Env α)) (i : ℕ) (call : (o : Op) × Op.Reply o) : Prop :=
  ∃ e ∈ past, e.thread = i ∧ e.call = call

/-- The ghost state of thread `i` and the events so far tell the same story. -/
structure Recorded (calls : List Call) (past : List (Event AppSig World Env α)) (i : ℕ)
    (g : Binding) : Prop where
  call : g.Belongs calls[i]?
  events : ∀ e ∈ past, e.thread = i → g.Explains e
  drew : g.Drew (Seen past i)

/-- The invariant of a run: all ghost states are recorded, accounts at hand are of the tenant, and no
call has recorded two flows. -/
structure Bound (calls : List Call) (past : List (Event AppSig World Env α)) (c : Cfg AppSig World α)
    (γ : ℕ → Binding) : Prop where
  records : ∀ i, Recorded calls past i (γ i)
  owned : ∀ i k, γ i = .redeems k → ∀ id, k.owned = some id →
    ∃ flow, k.flow = some flow ∧ Owns c.world.db flow.tenantId id
  once : ∀ (p q : ℕ) (e e' : Event AppSig World Env α), past[p]? = some e → past[q]? = some e' →
    e.thread = e'.thread → ∀ v t s v' t' s', e.op = .flowsInsert v t s → e'.op = .flowsInsert v' t' s' →
      p = q

section Step

variable {calls : List Call} {past : List (Event AppSig World Env α)} {e : Event AppSig World Env α}
  {γ : ℕ → Binding} (h : Bound calls past e.before γ) (hstep : (system aead chrono key).Step e)
  (hallows : (γ e.thread).allows e.op)
include h hstep hallows

theorem recorded_step (i : ℕ) : Recorded calls (past ++ [e]) i
    (Function.update γ e.thread ((γ e.thread).next e.op e.reply) i) := by
  obtain ⟨_, _, hexec, _⟩ := id hstep
  have hrecord := h.records i
  have hseen : ∀ call, Seen past i call → Seen (past ++ [e]) i call :=
    fun call ⟨e', he', hcall⟩ => ⟨e', List.mem_append_left _ he', hcall⟩
  by_cases hi : i = e.thread
  · subst hi
    rw [Function.update_self]
    refine ⟨hrecord.call.next, fun e' he' hthread => ?_,
      (hrecord.drew.mono hseen).next hallows ⟨e, by simp, rfl, rfl⟩⟩
    rcases List.mem_append.mp he' with he' | he'
    · exact (hrecord.events e' he' hthread).next hallows
    · obtain rfl := List.mem_singleton.mp he'
      apply Binding.explains_self hallows
      intro k hk tenantId htenant
      exact others_redeems (hk ▸ hallows) (h.owned _ k hk) htenant hexec
  · rw [Function.update_of_ne hi]
    refine ⟨hrecord.call, fun e' he' hthread => ?_, hrecord.drew.mono hseen⟩
    rcases List.mem_append.mp he' with he' | he'
    · exact hrecord.events e' he' hthread
    · obtain rfl := List.mem_singleton.mp he'
      exact absurd hthread.symm hi

theorem bound_step : Bound calls (past ++ [e]) e.after
    (Function.update γ e.thread ((γ e.thread).next e.op e.reply)) := by
  obtain ⟨_, _, hexec, _⟩ := id hstep
  refine ⟨recorded_step h hstep hallows, ?_, ?_⟩
  · intro i k hk id hid
    by_cases hi : i = e.thread
    · subst hi
      rw [Function.update_self] at hk
      obtain ⟨k₀, hg, rfl⟩ := Binding.next_redeems hk
      exact owned_redeems (hg ▸ hallows) (h.owned _ k₀ hg) hexec id hid
    · rw [Function.update_of_ne hi] at hk
      obtain ⟨flow, hflow, howns⟩ := h.owned i k hk id hid
      obtain ⟨hstatus, hdelete⟩ := Binding.allows_kept hallows
      exact ⟨flow, hflow, howns.kept hstatus hdelete hexec⟩
  · -- The stepped call, if it records a flow now, has not done so before.
    have hfirst : ∀ {v t s : String} {e' : Event AppSig World Env α}, e.op = .flowsInsert v t s →
        e' ∈ past → e'.thread = e.thread → ∀ v' t' s', e'.op ≠ .flowsInsert v' t' s' := by
      intro v t s e' hop he' hthread v' t' s' hop'
      have hbegan := ((h.records e.thread).events e' he' hthread).inserts v' t' s' hop'
      rw [hop, hbegan] at hallows
      exact hallows.elim
    intro p q e₁ e₂ hp hq hthread v t s v' t' s' hop₁ hop₂
    rcases getElem?_snoc.mp hp with hp' | ⟨rfl, rfl⟩ <;>
      rcases getElem?_snoc.mp hq with hq' | ⟨rfl, rfl⟩
    · exact h.once p q e₁ e₂ hp' hq' hthread v t s v' t' s' hop₁ hop₂
    · exact absurd hop₁ (hfirst hop₂ (List.mem_of_getElem? hp') hthread v t s)
    · exact absurd hop₂ (hfirst hop₁ (List.mem_of_getElem? hq') hthread.symm v' t' s')
    · rfl

end Step

/-! ### Runs -/

/-- The expected replies: a lookup finds accounts of the tenant. -/
theorem binding_expects {e : Event AppSig World Env α} {g : Binding}
    (hstep : (system aead chrono key).Step e) : bindingMonitor.expects g e.op e.reply := by
  obtain ⟨k, _, hexec, _⟩ := hstep
  obtain ⟨before, i, env, o, r, after⟩ := e
  cases o with
  | accountsGetByEmail tenantId email =>
    cases r with
    | error e => trivial
    | ok account =>
      obtain ⟨hget, _⟩ := storage_ok (Option.some.inj hexec)
      obtain ⟨row, _, htenant, _, rfl⟩ := SqliteAccountStore.getByEmail_ok hget
      exact htenant
  | _ => trivial

/-- The ghost state of thread `i` of a pool. -/
def bindingOf (calls : List Call) (i : ℕ) : Binding := (calls[i]?.map Binding.start).getD .closed

/-- A call starts without anything drawn, taken or sent. -/
theorem bindingOf_cases (calls : List Call) (i : ℕ) : bindingOf calls i = .closed ∨
    (∃ tenantId, calls[i]? = some (.beginFlow tenantId) ∧ bindingOf calls i = .begins tenantId) ∨
    ∃ params code state, calls[i]? = some (.callback params) ∧ params.code = some code ∧
      params.state = some state ∧ bindingOf calls i = .redeems ⟨code, state, none, false, none⟩ := by
  unfold bindingOf
  cases calls[i]? with
  | none => exact Or.inl rfl
  | some call =>
    cases call with
    | beginFlow tenantId => exact Or.inr (Or.inl ⟨tenantId, rfl, rfl⟩)
    | callback params =>
      obtain ⟨code, state, error, detail⟩ := params
      match code, state with
      | some code, some state => exact Or.inr (Or.inr ⟨_, code, state, rfl, rfl, rfl, rfl⟩)
      | some _, none => exact Or.inl rfl
      | none, _ => exact Or.inl rfl
    | _ => exact Or.inl rfl

theorem bound_start (calls : List Call) (c : Cfg AppSig World α) :
    Bound calls [] c (bindingOf calls) := by
  refine ⟨fun i => ?_, fun i k hk => ?_, fun p q e e' hp => nomatch hp⟩
  · have hevents : ∀ e ∈ ([] : List (Event AppSig World Env α)), e.thread = i →
        (bindingOf calls i).Explains e := fun _ he => nomatch he
    rcases bindingOf_cases calls i with hg | ⟨tenantId, hcall, hg⟩ |
      ⟨params, code, state, hcall, hcode, hstate, hg⟩
    · rw [hg] at hevents ⊢
      exact ⟨trivial, hevents, trivial⟩
    · rw [hg] at hevents ⊢
      exact ⟨hcall, hevents, trivial⟩
    · rw [hg] at hevents ⊢
      refine ⟨⟨params, hcall, hcode, hstate⟩, hevents, ?_, ?_⟩
      · exact fun _ hflow => nomatch hflow
      · exact fun hexchanged => nomatch hexchanged
  · rcases bindingOf_cases calls i with hg | ⟨_, _, hg⟩ | ⟨_, _, _, _, _, _, hg⟩
    · cases hg.symm.trans hk
    · cases hg.symm.trans hk
    · obtain rfl := Binding.redeems.inj (hg.symm.trans hk)
      exact fun _ howned => nomatch howned

theorem bound_run {calls : List Call} (hcalls : ∀ call ∈ calls, call.IsFlow) {w : World}
    {c' : Cfg AppSig World (Outcome Return)} {es : List (Event AppSig World Env (Outcome Return))}
    (h : (system aead chrono key).Run ⟨w, calls.map (Call.prog oauth)⟩ es c') :
    ∃ γ, Bound calls es c' γ ∧ PoolFollows bindingMonitor Binding.Returns γ c'.pool := by
  have hpool : PoolFollows bindingMonitor Binding.Returns (bindingOf calls)
      (calls.map (Call.prog oauth)) := by
    intro i p hp
    rw [List.getElem?_map] at hp
    obtain ⟨call, hcall, rfl⟩ := Option.map_eq_some_iff.mp hp
    rw [bindingOf, hcall]
    exact binds_call (hcalls call (List.mem_of_getElem? hcall))
  refine ⟨_, h.follows (M := bindingMonitor) (Q := Binding.Returns)
    (I := fun past c γ => Bound calls past c γ) (bound_start calls _) hpool ?_⟩
  intro past e post _ hstep _ hbound hallows
  refine ⟨binding_expects hstep, ?_⟩
  rw [ghosts_snoc]
  exact bound_step hbound hstep hallows

/-- A flow that is taken was recorded before, for the same tenant and with the same verifier, at most
600 seconds ago; and it was not taken in between. -/
theorem recorded_before {c c' : Cfg AppSig World α} {es : List (Event AppSig World Env α)}
    (h : (system aead chrono key).Run c es c') (hempty : c.world.db.oauthFlows = .empty) {q : ℕ}
    {e : Event AppSig World Env α} (hq : es[q]? = some e) {state : String} {flow : PendingFlow}
    (hcall : e.call = ⟨.flowsTake state, .ok flow⟩) :
    ∃ p eInsert, p < q ∧ es[p]? = some eInsert ∧
      eInsert.op = .flowsInsert flow.verifier flow.tenantId state ∧
      unixNow e.env.now - unixNow eInsert.env.now ≤ FLOW_TTL_SECS ∧
      ∀ r e', p < r → r < q → es[r]? = some e' → ¬ Takes state e' := by
  obtain ⟨hlt, rfl⟩ := List.getElem?_eq_some_iff.mp hq
  have hes : es = es.take q ++ es[q] :: es.drop (q + 1) := by
    rw [← List.drop_eq_getElem_cons hlt, List.take_append_drop]
  have hrun := h
  rw [hes] at hrun
  obtain ⟨hpast, ⟨k, _, hexec, _⟩, _⟩ := hrun.split
  have hrows := pending_run hpast hempty
  generalize es[q] = e at hcall hexec hrows
  obtain ⟨before, i, env, o, r, after⟩ := e
  obtain ⟨rfl, hr⟩ := Sigma.mk.inj hcall
  obtain rfl := eq_of_heq hr
  have hreply := congrArg Prod.fst (Option.some.inj hexec)
  obtain ⟨row, hrow, rfl, hredeem⟩ := afterTake_ok hreply
  obtain ⟨p, eInsert, verifier, hp, hop, hinserted, hafter⟩ := hrows row hrow
  obtain ⟨hage, htenant, _⟩ := FlowStore.redeem_ok hredeem
  have hcreated : row.createdAt = unixNow eInsert.env.now :=
    congrArg FlowRow.createdAt hinserted
  have hverifier : flow.verifier = verifier := by
    rw [hinserted] at hredeem hage
    have hok := hredeem.symm.trans (FlowStore.redeem_insertedRow hage)
    exact congrArg PendingFlow.verifier (Except.ok.inj hok)
  have hpq : p < q := by
    have hlt' := (List.getElem?_eq_some_iff.mp hp).1
    rw [List.length_take] at hlt'
    omega
  have hearlier : ∀ r, r < q → (es.take q)[r]? = es[r]? := fun r hr => List.getElem?_take_of_lt hr
  refine ⟨p, eInsert, hpq, ?_, ?_, ?_, fun r e' hpr hrq he' => hafter r e' hpr ?_⟩
  · rw [← hearlier p hpq]
    exact hp
  · rw [hverifier, htenant]
    exact hop
  · rw [← hcreated]
    exact hage
  · rw [hearlier r hrq]
    exact he'

/-- The callback of thread `i` takes the flow that thread `j` has recorded. -/
def TakesFlowOf (es : List (Event AppSig World Env α)) (i j : ℕ) : Prop :=
  ∃ (p q : ℕ) (eInsert eTake : Event AppSig World Env α) (v t s : String), p < q ∧
    es[p]? = some eInsert ∧ es[q]? = some eTake ∧ eInsert.thread = j ∧ eTake.thread = i ∧
    eInsert.op = .flowsInsert v t s ∧ Takes s eTake ∧
    ∀ (r : ℕ) e', p < r → r < q → es[r]? = some e' → ¬ Takes s e'

/-- A flow is taken once. -/
theorem TakesFlowOf.unique {calls : List Call} {es : List (Event AppSig World Env α)}
    {c : Cfg AppSig World α} {γ : ℕ → Binding} (hbound : Bound calls es c γ) {i i' j : ℕ}
    (h : TakesFlowOf es i j) (h' : TakesFlowOf es i' j) : i = i' := by
  obtain ⟨p, q, eInsert, eTake, v, t, s, hpq, hp, hq, rfl, rfl, hop, htakes, hbetween⟩ := h
  obtain ⟨p', q', eInsert', eTake', v', t', s', hpq', hp', hq', hthread, rfl, hop', htakes',
    hbetween'⟩ := h'
  obtain rfl := hbound.once p p' eInsert eInsert' hp hp' hthread.symm v t s v' t' s' hop hop'
  obtain rfl := Option.some.inj (hp.symm.trans hp')
  obtain ⟨rfl, rfl, rfl⟩ := Op.flowsInsert.inj (hop.symm.trans hop')
  rcases lt_trichotomy q q' with hlt | rfl | hlt
  · exact absurd htakes (hbetween' q eTake hpq hlt hq)
  · exact congrArg Event.thread (Option.some.inj (hq.symm.trans hq'))
  · exact absurd htakes' (hbetween q' eTake' hpq' hlt hq')

/-- **What a successful callback is bound to**: it presents the state that the `begin_flow` of thread
`j` has drawn, at most 600 seconds after the flow was recorded; it exchanges its code with the verifier
drawn there, and sends no other request; and it returns an account of that tenant and leaves the rows
of all others as they are. -/
def BoundTo (calls : List Call) (es : List (Event AppSig World Env α)) (i j : ℕ) (account : Account) :
    Prop :=
  ∃ params code state tenantId verifier challenge,
    calls[i]? = some (.callback params) ∧ params.code = some code ∧ params.state = some state ∧
    calls[j]? = some (.beginFlow tenantId) ∧ Seen es j ⟨.newPkce, (challenge, verifier)⟩ ∧
    Seen es j ⟨.newCsrf, state⟩ ∧
    (∃ (p q : ℕ) (eInsert eTake : Event AppSig World Env α), p < q ∧ es[p]? = some eInsert ∧
      es[q]? = some eTake ∧ eInsert.thread = j ∧ eInsert.op = .flowsInsert verifier tenantId state ∧
      eTake.thread = i ∧ eTake.op = .flowsTake state ∧
      unixNow eTake.env.now - unixNow eInsert.env.now ≤ FLOW_TTL_SECS) ∧
    (∃ r, Seen es i ⟨.token (.exchangeCode code verifier), r⟩) ∧
    (∀ e ∈ es, e.thread = i → ∀ request, e.op = .token request →
      request = .exchangeCode code verifier) ∧
    account.tenantId = tenantId ∧
    ∀ e ∈ es, e.thread = i → SameForOthers tenantId e.before.world.db e.after.world.db

section Matched

variable {calls : List Call} (hcalls : ∀ call ∈ calls, call.IsFlow) {w : World}
  (hempty : w.db.oauthFlows = .empty) {c' : Cfg AppSig World (Outcome Return)}
  {es : List (Event AppSig World Env (Outcome Return))}
  (h : (system aead chrono key).Run ⟨w, calls.map (Call.prog oauth)⟩ es c')
include hempty h

theorem matched {γ : ℕ → Binding} (hbound : Bound calls es c' γ)
    (hpool : PoolFollows bindingMonitor Binding.Returns γ c'.pool) {i : ℕ} {account : Account}
    (hi : c'.returned[i]? = some (some (.ok (.account account)))) :
    ∃ j, TakesFlowOf es i j ∧ BoundTo calls es i j account := by
  obtain ⟨k, flow, hk, hflow, hexchanged, htenant⟩ := hpool i _ (Cfg.returned_eq_some.mp hi)
  obtain ⟨hcall, hevents, hdrew⟩ := hbound.records i
  rw [hk] at hcall hevents hdrew
  obtain ⟨params, hparams, hcode, hstate⟩ := hcall
  obtain ⟨eTake, htake, hthread, htaken⟩ := hdrew.1 flow hflow
  obtain ⟨q, hq⟩ := List.mem_iff_getElem?.mp htake
  obtain ⟨p, eInsert, hpq, hp, hop, hage, hbetween⟩ := recorded_before h hempty hq htaken
  -- The `begin_flow` that has recorded the flow.
  obtain ⟨hbegan, heventsj, hdrewj⟩ := hbound.records eInsert.thread
  rw [(heventsj eInsert (List.mem_of_getElem? hp) rfl).inserts _ _ _ hop] at hbegan hdrewj
  obtain ⟨⟨challenge, hpkce⟩, hcsrf⟩ := hdrewj
  -- The exchange of the callback.
  obtain ⟨flow', r, hflow', hexchange⟩ := hdrew.2 hexchanged
  obtain rfl := Option.some.inj (hflow.symm.trans hflow')
  refine ⟨eInsert.thread, ⟨p, q, eInsert, eTake, _, _, _, hpq, hp, hq, rfl, hthread, hop,
    ⟨flow, htaken⟩, hbetween⟩, params, k.code, k.state, flow.tenantId, flow.verifier, challenge,
    hparams, hcode, hstate, hbegan, hpkce, hcsrf, ⟨p, q, eInsert, eTake, hpq, hp, hq, rfl, hop,
    hthread, congrArg Sigma.fst htaken, hage⟩, ⟨r, hexchange⟩, ?_, htenant, ?_⟩
  · intro e he hthread request hop
    obtain ⟨k', flow', hk', hflow', hrequest⟩ := (hevents e he hthread).requests request hop
    obtain rfl := Binding.redeems.inj hk'
    obtain rfl := Option.some.inj (hflow.symm.trans hflow')
    exact hrequest
  · intro e he hthread
    apply (hevents e he hthread).others k rfl flow.tenantId
    intro flow' hflow'
    rw [Option.some.inj (hflow.symm.trans hflow')]

include hcalls

/-- **Flows are bound to who began them.** The successful callbacks of a run belong to different
earlier calls of `begin_flow`. -/
theorem flows_bound : ∃ origin : ℕ → ℕ,
    (∀ (i i' : ℕ) account account', c'.returned[i]? = some (some (.ok (.account account))) →
      c'.returned[i']? = some (some (.ok (.account account'))) → origin i = origin i' → i = i') ∧
    ∀ (i : ℕ) account, c'.returned[i]? = some (some (.ok (.account account))) →
      BoundTo calls es i (origin i) account := by
  obtain ⟨γ, hbound, hpool⟩ := bound_run hcalls h
  have horigin : ∀ i, ∃ j, ∀ account, c'.returned[i]? = some (some (.ok (.account account))) →
      TakesFlowOf es i j ∧ BoundTo calls es i j account := by
    intro i
    by_cases hi : ∃ account, c'.returned[i]? = some (some (.ok (.account account)))
    · obtain ⟨account, hi⟩ := hi
      obtain ⟨j, htakes, hboundTo⟩ := matched hempty h hbound hpool hi
      refine ⟨j, fun account' hi' => ⟨htakes, ?_⟩⟩
      cases hi.symm.trans hi'
      exact hboundTo
    · exact ⟨0, fun account hi' => absurd ⟨account, hi'⟩ hi⟩
  choose origin horigin using horigin
  refine ⟨origin, fun i i' account account' hi hi' heq => ?_, fun i account hi => (horigin i account hi).2⟩
  have htakes := (horigin i account hi).1
  rw [heq] at htakes
  exact htakes.unique hbound (horigin i' account' hi').1

end Matched

/-- Two tenants begin a flow, the callbacks complete both, and one is repeated. -/
def beginAndRedeem : List Call :=
  [.beginFlow "tenant-a", .beginFlow "tenant-b", .callback ⟨some "code-b", some "csrf-1", none, none⟩,
    .callback ⟨some "code-a", some "csrf-0", none, none⟩,
    .callback ⟨some "code-b", some "csrf-1", none, none⟩]

/-- Each call draws its own. -/
def drawing (i : ℕ) : Env :=
  { Env.calm 0 (.ok ⟨"at-1", some "rt-1", none, none⟩) with
    uuid := if i = 2 then "acc-2" else "acc-3"
    csrf := if i = 0 then "csrf-0" else "csrf-1" }

/-- The flows are begun in turn, and the callback of the second tenant comes first. -/
def redeemSteps : List (ℕ × Env) :=
  ([0, 1, 0, 1, 0, 1] ++ List.replicate 12 2 ++ List.replicate 12 3 ++ [4]).map fun i => (i, drawing i)

def beginning : Cfg AppSig World (Outcome Return) :=
  ⟨⟨.empty, fun _ => none⟩, beginAndRedeem.map (Call.prog sampleOauth)⟩

theorem redeem_run : (sampleSystem.replay beginning redeemSteps).isSome = true := by decide +kernel

theorem flows_bound_redeemed : ∃ es c' first second, ∃ origin : ℕ → ℕ,
    sampleSystem.Run beginning es c' ∧
      c'.returned.drop 2 = [some (.ok (.account first)), some (.ok (.account second)),
        some (.error (.err (.auth "unknown or already-used state")))] ∧
      first.tenantId = "tenant-b" ∧ second.tenantId = "tenant-a" ∧ origin 2 ≠ origin 3 ∧
      BoundTo beginAndRedeem es 2 (origin 2) first ∧ BoundTo beginAndRedeem es 3 (origin 3) second := by
  have hrun := run_replay beginning redeemSteps redeem_run
  obtain ⟨origin, hdiffer, hbound⟩ := flows_bound (by simp [beginAndRedeem, Call.IsFlow]) rfl hrun
  let first : Account := { sampleAccount with id := "acc-2", tenantId := "tenant-b" }
  let second : Account := { sampleAccount with id := "acc-3" }
  have hreturned : ((sampleSystem.replay beginning redeemSteps).get redeem_run).2.returned.drop 2 =
      [some (.ok (.account first)), some (.ok (.account second)),
        some (.error (.err (.auth "unknown or already-used state")))] := by
    decide +kernel
  have hfirst := congrArg (·[0]?) hreturned
  have hsecond := congrArg (·[1]?) hreturned
  simp only [List.getElem?_drop] at hfirst hsecond
  refine ⟨_, _, first, second, origin, hrun, hreturned, rfl, rfl, fun heq => ?_, hbound 2 _ hfirst,
    hbound 3 _ hsecond⟩
  exact absurd (hdiffer 2 3 _ _ hfirst hsecond heq) (by decide)

end UniMail
