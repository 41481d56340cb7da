import UniMail.Auth.BeginFlow
import UniMail.Auth.Binding
import UniMail.Auth.CallbackServer
import UniMail.Config.CallbackAddr
import UniMail.Lib.Layer
import UniMail.Process.Vouched

/-!
# Adding an account on the command line

`add-account` begins a flow, shows its URL and serves the redirect on a listener of its own. The process
is a layer over the tasks of a process (`serverLayer`): what its calls do with the stores and the provider
is a run of a `begin_flow` and of callbacks, one for each request that reaches the listener
(`adding_run`). So what holds of every run of tasks holds of it (`callback_connects`), and the account that
it reports is connected (`add_account_connects`).
-/

namespace UniMail

open Interaction

variable {aead : Aead} {chrono : Chrono} {key : Key}

/-! ### The command -/

namespace Cli

/-- The line that reports the account. -/
def connectedLine (account : Account) : String :=
  let displayName := account.displayName.getD "no display name"
  s!"✅ Connected {account.emailAddress} ({displayName})"

/-- `add-account`: the consent URL that it shows, and the line that it prints at the end. -/
def addAccount (oauth : OAuthClient) (newRedirectUrl : String → Except String RedirectUrl)
    (config : CallbackConfig) (defaultTenantId : String) (tenant : Option String) :
    Serving (ConsentUrl × String) := do
  let authUrl ← viaApp (TokenManager.beginFlow oauth (tenantId defaultTenantId tenant))
  let addr ← ExceptT.mk (.ret ((addAccountAddr newRedirectUrl config).mapError .err))
  let account ← serveCallbackOnce addr.display
  return (authUrl, connectedLine account)

end Cli

/-- What a call of the process returns. -/
inductive AddReturn
  | shown (result : Outcome (ConsentUrl × String))
  | response (r : Outcome Page)
  deriving DecidableEq

section Process

variable (mail : MailServer) (newRedirectUrl : String → Except String RedirectUrl)
  (config : CallbackConfig) (tenant : Option String) (requests : List CallbackParams)

/-- The process of `add-account`, with the requests that reach its listener. -/
def adding (w : World) : Cfg ServerSig ServerWorld AddReturn where
  world := ⟨w, false, none, true, false, []⟩
  pool :=
    (Cli.addAccount mail.graph.tokens newRedirectUrl config mail.defaultTenantId tenant).run.map .shown ::
      requests.map fun params => (serveRequest mail.graph.tokens params).run.map .response

/-- The tasks that the process works on. -/
def addingTasks : List Task :=
  .connect (Cli.tenantId mail.defaultTenantId tenant) :: requests.map .callback

end Process

/-! ### The layer -/

/-- What an operation of the server shows of the token manager. -/
def ServerOp.seen : (o : ServerOp) → ServerEnv → o.Reply → Option ((o : Op) × Env × o.Reply)
  | .app o, env, r => some ⟨o, env.app, r⟩
  | _, _, _ => none

/-- The server works on the process of the token manager, and on the state it shares with its handlers. -/
def serverLayer (aead : Aead) (chrono : Chrono) (key : Key) :
    Layer (server aead chrono key) (system aead chrono key) where
  lift := .app
  back _ r := r
  world := ServerWorld.app
  env := ServerEnv.app
  seen := ServerOp.seen
  seen_lift _ _ _ := rfl
  exec_lift := by
    intro i o env r w w' h
    obtain ⟨⟨r', v⟩, hexec, heq⟩ := Option.map_eq_some_iff.mp h
    cases heq
    exact hexec
  exec_own := by
    intro i o env r w w' hseen h
    cases o with
    | app o => cases hseen
    | accept | serve =>
      dsimp only [server] at h
      split at h
      · cases h
        rfl
      · cases h
    | bind | store | signal | respond | takeResult =>
      cases h
      rfl

/-- What is stored is what the callback has returned. -/
def StoresReturned (o : ServerOp) (q : Prog AppSig TaskReturn) : Prop :=
  ∀ result, o = .store result → q = .ret (.account (result.mapError .err))

section Serves

variable {mail : MailServer} {α β γ : Type} {may : ServerOp → Prog AppSig α → Prop}

/-- A call of the token manager whose failure is looked at. -/
theorem serves_outcome {x : Async γ} {f : Outcome (Result γ) → Prog ServerSig β}
    {g : Outcome γ → Prog AppSig α}
    (hresult : ∀ result : Result γ,
      (serverLayer aead chrono key).Serves may (f (.ok result)) (g (result.mapError .err)))
    (hpanic : ∀ msg, (serverLayer aead chrono key).Serves may (f (.error (.panic msg)))
      (g (.error (.panic msg)))) :
    (serverLayer aead chrono key).Serves may ((viaApp (outcome x)).run >>= f) (x.run >>= g) := by
  have hvia : (viaApp (outcome x)).run = x.run.via (T := ServerSig) .app (fun _ r => r) >>= _ :=
    Prog.via_bind _ _
  rw [hvia, bind_assoc]
  refine Layer.serves_via fun r => ?_
  rcases r with (e | msg) | a
  · exact hresult (.error e)
  · exact hpanic msg
  · exact hresult (.ok a)

theorem serves_handler (params : CallbackParams) :
    (serverLayer aead chrono key).Serves StoresReturned
      ((serveRequest mail.graph.tokens params).run.map AddReturn.response)
      ((Task.callback params).prog mail) := by
  -- A handler that panics stores nothing; it still ends its request.
  have hends : ∀ (r : Outcome Page) q, (serverLayer aead chrono key).Serves StoresReturned
      (Prog.call (S := ServerSig) .respond fun _ => .ret (AddReturn.response r)) q :=
    fun r q => .own (fun _ h => nomatch h) (fun _ _ => rfl) fun _ => .ret _ _
  refine .own (fun _ h => nomatch h) (fun _ _ => rfl) fun _ => ?_
  show (serverLayer aead chrono key).Serves StoresReturned
    (((handleCallback mail.graph.tokens params).run >>= fun r =>
      Prog.call (S := ServerSig) .respond fun _ => .ret r) >>= fun r => .ret (AddReturn.response r)) _
  unfold handleCallback
  rw [run_bind, bind_assoc, bind_assoc]
  refine serves_outcome (fun result => ?_) fun msg => hends _ _
  refine .own (fun result' h => ?_) (fun _ _ => rfl) fun _ => ?_
  · cases h
    rfl
  · exact .own (fun _ h => nomatch h) (fun _ _ => rfl) fun _ => hends _ _

theorem serves_addAccount {newRedirectUrl : String → Except String RedirectUrl} {config : CallbackConfig}
    {tenant : Option String} :
    (serverLayer aead chrono key).Serves StoresReturned
      ((Cli.addAccount mail.graph.tokens newRedirectUrl config mail.defaultTenantId tenant).run.map
        AddReturn.shown)
      ((Task.connect (Cli.tenantId mail.defaultTenantId tenant)).prog mail) := by
  unfold Cli.addAccount
  show (serverLayer aead chrono key).Serves StoresReturned (ExceptT.run _ >>= _) _
  rw [run_bind, bind_assoc]
  refine Layer.serves_via fun r => ?_
  rcases r with e | authUrl
  · exact .ret _ _
  · dsimp only
    cases addAccountAddr newRedirectUrl config with
    | error e => exact .ret _ _
    | ok addr =>
      refine .own (fun _ h => nomatch h) (fun _ _ => rfl) fun bound => ?_
      cases bound with
      | error e => exact .ret _ _
      | ok _ =>
        refine .own (fun _ h => nomatch h) (fun _ _ => rfl) fun _ => ?_
        refine .own (fun _ h => nomatch h) (fun _ _ => rfl) fun slot => ?_
        rcases slot with _ | e | account <;> exact .ret _ _

end Serves

/-! ### Where a flow comes from -/

section Flows

variable {α : Type} {tenantId : String} {oauth : OAuthClient}

/-- Flows are recorded for the tenant only. -/
def begunMonitor (tenantId : String) : Monitor AppSig Unit where
  allows _ o := ∀ verifier tenant state, o = .flowsInsert verifier tenant state → tenant = tenantId
  expects _ _ _ := True
  next _ _ _ := ()

theorem begun_flowRules : FlowRules (begunMonitor tenantId) fun _ _ => True where
  clock := ⟨fun _ => ⟨nofun, fun _ => rfl⟩, fun _ => ⟨nofun, fun _ => rfl⟩⟩
  resolve _ _ := ⟨nofun, fun _ => rfl⟩
  stop _ _ _ _ := trivial
  untaken _ _ _ := trivial
  take _ _ _ := ⟨nofun, fun _ _ => trivial⟩
  exchange _ _ _ _ := ⟨nofun, fun _ _ => ⟨trivial, fun _ _ _ _ => trivial⟩⟩
  lookup _ _ _ _ _ := ⟨nofun, fun r _ => by cases r <;> simp⟩
  draw _ _ _ _ := ⟨nofun, fun _ _ _ _ _ _ => trivial⟩
  ensure _ _ _ _ _ := ⟨nofun, fun _ _ => trivial⟩
  create _ _ _ _ _ := ⟨nofun, fun _ _ => trivial⟩
  store _ _ _ _ _ := ⟨nofun, fun _ _ => trivial⟩

theorem begun_completeCallback (params : CallbackParams) :
    Follows (begunMonitor tenantId) (fun _ _ => True) () (completeCallback oauth params).run :=
  follows_completeCallback (fun _ => trivial) fun _ _ =>
    follows_mono (fun _ _ _ => trivial) (begun_flowRules.follows_completeFlow trivial)

theorem begun_beginFlow :
    Follows (begunMonitor tenantId) (fun _ _ => True) () (TokenManager.beginFlow oauth tenantId).run := by
  unfold TokenManager.beginFlow OAuthClient.authorizeUrl
  refine (follows_run_bind _ _ _).mpr ?_
  refine follows_op nofun fun pkce _ => follows_check_bind (fun _ _ => ?_) fun _ _ => trivial
  refine follows_op nofun fun csrf _ => follows_op ?_ fun _ _ => trivial
  rintro verifier tenant state ⟨⟩
  rfl

theorem begun_start {mail : MailServer} {tenant : Option String} {requests : List CallbackParams}
    {w : World} :
    PoolFollows (begunMonitor (Cli.tenantId mail.defaultTenantId tenant)) (fun _ _ => True) (fun _ => ())
      (Task.start mail (addingTasks mail tenant requests) w).pool := by
  intro i p hp
  obtain ⟨task, htask, rfl⟩ := List.mem_map.mp (List.mem_of_getElem? hp)
  rcases List.mem_cons.mp htask with rfl | htask
  · exact (follows_bind _ _ _).mpr begun_beginFlow
  · obtain ⟨params, _, rfl⟩ := List.mem_map.mp htask
    exact (follows_bind _ _ _).mpr (begun_completeCallback params)

/-- The tenant is the command's, or one that a flow was pending for at the start. -/
def Awaited (tenantId : String) (start : Db) (t : String) : Prop :=
  t = tenantId ∨ ∃ row ∈ start.oauthFlows.rows, row.tenantId = t

/-- What a step leaves in the table, and takes out of it. -/
theorem awaited_step {start : Db} {e : Event AppSig World Env α} (hstep : (system aead chrono key).Step e)
    (hallows : (begunMonitor tenantId).allows () e.op)
    (hrows : ∀ row ∈ e.before.world.db.oauthFlows.rows, Awaited tenantId start row.tenantId) :
    (∀ row ∈ e.after.world.db.oauthFlows.rows, Awaited tenantId start row.tenantId) ∧
      ∀ state flow, e.call = ⟨.flowsTake state, .ok flow⟩ → Awaited tenantId start flow.tenantId := by
  obtain ⟨k, _, hexec, _⟩ := hstep
  obtain ⟨before, i, env, o, r, after⟩ := e
  dsimp only at hallows hexec hrows ⊢
  by_cases ho : o.writesFlows = false
  · rw [flows_frame ho hexec]
    refine ⟨hrows, fun state flow hcall => ?_⟩
    cases hcall
    cases ho
  cases o with
  | flowsInsert verifier tenant state =>
    have hflows := congrArg (fun result => result.2.db.oauthFlows) (Option.some.inj hexec)
    refine ⟨fun row hrow => ?_, nofun⟩
    rw [← hflows] at hrow
    rcases mem_afterInsert hrow with hrow | rfl
    · exact hrows row hrow
    · exact Or.inl (hallows verifier tenant state rfl)
  | flowsTake state =>
    have hreply := congrArg Prod.fst (Option.some.inj hexec)
    have hflows := congrArg (fun result => result.2.db.oauthFlows) (Option.some.inj hexec)
    refine ⟨fun row hrow => ?_, fun state' flow hcall => ?_⟩
    · rw [← hflows] at hrow
      exact hrows row (mem_afterTake hrow).1
    · cases hcall
      obtain ⟨row, hrow, _, hredeem⟩ := afterTake_ok hreply
      rw [(FlowStore.redeem_ok hredeem).2.1]
      exact hrows row hrow
  | _ => exact absurd rfl ho

/-- So are the flows in the table, and those that were taken out of it. -/
structure AllAwaited (tenantId : String) (start : Db) (past : List (Event AppSig World Env α))
    (c : Cfg AppSig World α) : Prop where
  rows : ∀ row ∈ c.world.db.oauthFlows.rows, Awaited tenantId start row.tenantId
  taken : ∀ e ∈ past, ∀ state flow, e.call = ⟨.flowsTake state, .ok flow⟩ →
    Awaited tenantId start flow.tenantId

/-- **A flow that is taken** is one of the command, or it was pending at the start. -/
theorem awaited_run {mail : MailServer} {tenant : Option String} {requests : List CallbackParams}
    {w : World} {es : List (Event AppSig World Env TaskReturn)} {c : Cfg AppSig World TaskReturn}
    (h : (system aead chrono key).Run (Task.start mail (addingTasks mail tenant requests) w) es c) :
    AllAwaited (Cli.tenantId mail.defaultTenantId tenant) w.db es c := by
  refine (h.follows (I := fun past d _ =>
    AllAwaited (Cli.tenantId mail.defaultTenantId tenant) w.db past d)
    ⟨fun row hrow => Or.inr ⟨row, hrow, rfl⟩, fun e he => absurd he List.not_mem_nil⟩ begun_start ?_).1
  intro past e post _ hstep _ hpast hallows
  obtain ⟨hrows, htakes⟩ := awaited_step hstep hallows hpast.rows
  exact ⟨trivial, hrows, List.forall_mem_append.mpr ⟨hpast.taken, List.forall_mem_singleton.mpr htakes⟩⟩

end Flows

/-! ### The run of the tasks -/

section Run

variable {mail : MailServer} {newRedirectUrl : String → Except String RedirectUrl}
  {config : CallbackConfig} {tenant : Option String} {requests : List CallbackParams} {w : World}
  {es : List (Event ServerSig ServerWorld ServerEnv AddReturn)} {c' : Cfg ServerSig ServerWorld AddReturn}

/-- What was done with the stores and the provider, by whom, and what was replied. -/
def managerCalls (es : List (Event ServerSig ServerWorld ServerEnv AddReturn)) :
    List (ℕ × ((o : Op) × o.Reply)) :=
  es.filterMap fun e => (e.op.seen e.env e.reply).map fun x => (e.thread, ⟨x.1, x.2.2⟩)

theorem serves_start : (serverLayer aead chrono key).PoolServes StoresReturned
    (adding mail newRedirectUrl config tenant requests w).pool
    (Task.start mail (addingTasks mail tenant requests) w).pool := by
  intro i p hp
  cases i with
  | zero =>
    obtain rfl := Option.some.inj hp
    exact ⟨_, rfl, serves_addAccount⟩
  | succ i =>
    obtain ⟨params, hparams, rfl⟩ := Option.map_eq_some_iff.mp ((List.getElem?_map ..).symm.trans hp)
    refine ⟨_, ?_, serves_handler params⟩
    show ((requests.map Task.callback).map (Task.prog mail))[i]? = _
    rw [List.getElem?_map, List.getElem?_map, hparams]
    rfl

/-- **The process works on its tasks.** What it does with the stores and the provider is a run of them,
and what its handlers store these have returned. -/
theorem adding_run
    (h : (server aead chrono key).Run (adding mail newRedirectUrl config tenant requests w) es c') :
    ∃ es' d, (system aead chrono key).Run (Task.start mail (addingTasks mail tenant requests) w) es' d ∧
      (es'.map fun e => (e.thread, e.call)) = managerCalls es ∧
      ∀ e ∈ es, ∀ result, e.op = .store result →
        d.returned[e.thread]? = some (some (.account (result.mapError .err))) := by
  obtain ⟨es', pool, hrun, hviews, _, hstored⟩ := (serverLayer aead chrono key).run h serves_start
  refine ⟨es', _, hrun, ?_, fun e he result hop => ?_⟩
  · have hcalls := congrArg (List.map fun x => (x.1, (⟨x.2.1, x.2.2.2⟩ : (o : Op) × o.Reply))) hviews
    rw [List.map_map, List.map_filterMap] at hcalls
    refine hcalls.trans (List.filterMap_congr fun e _ => ?_)
    rw [Layer.view, Option.map_map]
    rfl
  · have hown : (serverLayer aead chrono key).view e = none := by
      obtain ⟨before, i, env, o, r, after⟩ := e
      cases hop
      rfl
    obtain ⟨q, hmay, hret⟩ := hstored e he hown
    exact Cfg.returned_eq_some.mpr (hret _ (hmay result hop))

end Run

/-! ### What the command reports -/

section Report

variable {β : Type} {g : Option (Option (Result Account))}

/-- A handler has no state here; the command has what it took from the slot. Only handlers store. -/
def reportMonitor : Monitor ServerSig (Option (Option (Result Account))) where
  allows g o := ∀ result, o = .store result → g = none
  expects _ _ _ := True
  next g o r := match g, o, r with
    | some _, .takeResult, slot => some slot
    | g, _, _ => g

/-- The command prints the account that it took. -/
def PrintsTaken (g : Option (Option (Result Account))) : AddReturn → Prop
  | .shown (.ok (_, line)) =>
    ∃ account, g = some (some (.ok account)) ∧ line = Cli.connectedLine account
  | _ => True

theorem report_via {γ : Type} {Q : Option (Option (Result Account)) → γ → Prop} {p : Prog AppSig γ}
    (hQ : ∀ a, Q g a) : Follows reportMonitor Q g (p.via (T := ServerSig) .app fun _ r => r) := by
  induction p with
  | ret a => exact hQ a
  | call o k ih =>
    refine ⟨nofun, fun r _ => ?_⟩
    cases g <;> exact ih r

theorem report_handler {Q : Option (Option (Result Account)) → β → Prop} {p : Prog ServerSig β}
    (hQ : ∀ a, Q none a) : Follows reportMonitor Q none p := by
  induction p with
  | ret a => exact hQ a
  | call o k ih => exact ⟨fun _ _ => rfl, fun r _ => ih r⟩

theorem report_serveCallbackOnce (addr : String) :
    Follows reportMonitor (fun g r => ∀ account, r = .ok account → g = some (some (.ok account)))
      (some none) (serveCallbackOnce addr).run := by
  unfold serveCallbackOnce
  refine ⟨nofun, fun bound _ => ?_⟩
  cases bound with
  | error e => exact nofun
  | ok _ =>
    refine ⟨nofun, fun _ _ => ⟨nofun, fun slot _ => ?_⟩⟩
    rcases slot with _ | e | account
    · exact nofun
    · exact nofun
    · rintro _ ⟨⟩
      rfl

theorem report_addAccount {oauth : OAuthClient} {newRedirectUrl : String → Except String RedirectUrl}
    {config : CallbackConfig} {defaultTenantId : String} {tenant : Option String} :
    Follows reportMonitor PrintsTaken (some none)
      ((Cli.addAccount oauth newRedirectUrl config defaultTenantId tenant).run.map .shown) := by
  refine (follows_bind _ _ _).mpr ?_
  unfold Cli.addAccount
  refine (follows_run_bind _ _ _).mpr (report_via fun r => ?_)
  rcases r with e | authUrl
  · trivial
  · dsimp only
    cases addAccountAddr newRedirectUrl config with
    | error e => trivial
    | ok addr =>
      refine (follows_run_bind (serveCallbackOnce addr.display) _ _).mpr
        (follows_mono (fun g r hg => ?_) (report_serveCallbackOnce addr.display))
      cases r with
      | error e => trivial
      | ok account => exact ⟨account, hg account rfl, rfl⟩

/-- What is in the slot, or was taken from it, a handler has stored. -/
structure Truthful (past : List (Event ServerSig ServerWorld ServerEnv β)) (w : ServerWorld)
    (γ : ℕ → Option (Option (Result Account))) : Prop where
  command : γ 0 ≠ none
  slot : ∀ result, w.slot = some result → result ∈ storedBy past
  taken : ∀ i result, γ i = some (some result) → result ∈ storedBy past ∧
    ∃ e ∈ past, e.thread = i ∧ e.call = ⟨.takeResult, some result⟩
  handlers : ∀ e ∈ past, ∀ result, e.op = .store result → e.thread ≠ 0

/-- What is in the slot after a step was there before, or the step has stored it. -/
theorem slot_step {i : ℕ} {o : ServerOp} {env : ServerEnv} {r : o.Reply} {w w' : ServerWorld}
    (hexec : (server aead chrono key).exec i o env w = some (r, w')) {result : Result Account}
    (hslot : w'.slot = some result) : w.slot = some result ∨ o.stored? = some result := by
  cases o with
  | app o =>
    obtain ⟨⟨r', v⟩, _, heq⟩ := Option.map_eq_some_iff.mp hexec
    cases heq
    exact Or.inl hslot
  | accept | serve =>
    dsimp only [server] at hexec
    split at hexec
    · cases hexec
      exact Or.inl hslot
    · cases hexec
  | store stored =>
    cases hexec
    exact Or.inr hslot
  | takeResult =>
    cases hexec
    cases hslot
  | bind | signal | respond =>
    cases hexec
    exact Or.inl hslot

/-- What the command has after a step it had before, or it has taken it from the slot. -/
theorem taken_step {i : ℕ} {o : ServerOp} {env : ServerEnv} {r : o.Reply} {w w' : ServerWorld}
    (hexec : (server aead chrono key).exec i o env w = some (r, w')) {result : Result Account}
    (hnext : reportMonitor.next g o r = some (some result)) :
    g = some (some result) ∨ w.slot = some result ∧
      (⟨o, r⟩ : (o : ServerOp) × o.Reply) = ⟨.takeResult, some result⟩ := by
  cases g with
  | none => cases hnext
  | some slot =>
    cases o with
    | takeResult =>
      cases hexec
      have hslot : w.slot = some result := Option.some.inj hnext
      exact Or.inr ⟨hslot, congrArg (fun slot => (⟨.takeResult, slot⟩ : (o : ServerOp) × o.Reply)) hslot⟩
    | _ => exact Or.inl hnext

theorem Truthful.step {past : List (Event ServerSig ServerWorld ServerEnv β)}
    {e : Event ServerSig ServerWorld ServerEnv β} {γ : ℕ → Option (Option (Result Account))}
    (hstep : (server aead chrono key).Step e) (h : Truthful past e.before.world γ)
    (hallows : reportMonitor.allows (γ e.thread) e.op) :
    Truthful (past ++ [e]) e.after.world
      (Function.update γ e.thread (reportMonitor.next (γ e.thread) e.op e.reply)) := by
  obtain ⟨k, _, hexec, _⟩ := hstep
  have hmono : ∀ {result}, result ∈ storedBy past → result ∈ storedBy (past ++ [e]) := by
    intro result hresult
    rw [storedBy_snoc]
    exact List.mem_append_left _ hresult
  have hhandler : ∀ result, e.op = .store result → e.thread ≠ 0 := by
    intro result hop h0
    have hnone := hallows result hop
    rw [h0] at hnone
    exact h.command hnone
  refine ⟨?_, fun result hslot => ?_, fun i result hi => ?_,
    List.forall_mem_append.mpr ⟨h.handlers, List.forall_mem_singleton.mpr hhandler⟩⟩
  · by_cases h0 : e.thread = 0
    · have hcommand := h.command
      rw [h0, Function.update_self]
      cases hg : γ 0 with
      | none => exact absurd hg hcommand
      | some slot =>
        obtain ⟨before, i, env, o, r, after⟩ := e
        cases o <;> exact nofun
    · rw [Function.update_of_ne (Ne.symm h0)]
      exact h.command
  · rcases slot_step hexec hslot with hslot | hstored
    · exact hmono (h.slot result hslot)
    · rw [storedBy_snoc, hstored]
      simp
  · have hbefore : γ i = some (some result) → result ∈ storedBy (past ++ [e]) ∧
        ∃ e' ∈ past ++ [e], e'.thread = i ∧ e'.call = ⟨.takeResult, some result⟩ := by
      intro hi
      obtain ⟨hresult, e', he', htook⟩ := h.taken i result hi
      exact ⟨hmono hresult, e', List.mem_append_left _ he', htook⟩
    by_cases hie : i = e.thread
    · subst hie
      rw [Function.update_self] at hi
      rcases taken_step hexec hi with hi | ⟨hslot, hcall⟩
      · exact hbefore hi
      · exact ⟨hmono (h.slot result hslot), e, by simp, rfl, hcall⟩
    · rw [Function.update_of_ne hie] at hi
      exact hbefore hi

end Report

section Connects

variable {mail : MailServer} {newRedirectUrl : String → Except String RedirectUrl}
  {config : CallbackConfig} {tenant : Option String} {requests : List CallbackParams} {w : World}
  {es : List (Event ServerSig ServerWorld ServerEnv AddReturn)} {c' : Cfg ServerSig ServerWorld AddReturn}

/-- The command, and its handlers. -/
def reporters (i : ℕ) : Option (Option (Result Account)) := if i = 0 then some none else none

/-- A handler works on a callback. -/
theorem addingTasks_handler {i : ℕ} (hne : i ≠ 0) (hlt : i < (addingTasks mail tenant requests).length) :
    ∃ params, (addingTasks mail tenant requests)[i]? = some (.callback params) := by
  obtain ⟨j, rfl⟩ := Nat.exists_eq_succ_of_ne_zero hne
  have hj : j < requests.length := by simpa [addingTasks] using hlt
  refine ⟨requests[j], ?_⟩
  rw [addingTasks, List.getElem?_cons_succ, List.getElem?_map, List.getElem?_eq_getElem hj, Option.map_some]

theorem report_start : PoolFollows reportMonitor PrintsTaken reporters
    (adding mail newRedirectUrl config tenant requests w).pool := by
  intro i p hp
  cases i with
  | zero =>
    obtain rfl := Option.some.inj hp
    exact report_addAccount
  | succ i =>
    obtain ⟨params, _, rfl⟩ := List.mem_map.mp (List.mem_of_getElem? hp)
    exact (follows_bind _ _ _).mpr (report_handler fun _ => trivial)

theorem truthful_start : Truthful ([] : List (Event ServerSig ServerWorld ServerEnv AddReturn))
    (adding mail newRedirectUrl config tenant requests w).world reporters where
  command := nofun
  slot := nofun
  taken i result hi := by
    unfold reporters at hi
    split at hi <;> cases hi
  handlers e he := absurd he List.not_mem_nil

/-- **The command prints what it took**, and a handler has stored. -/
theorem printed_stored
    (h : (server aead chrono key).Run (adding mail newRedirectUrl config tenant requests w) es c')
    {url : ConsentUrl} {line : String}
    (hshown : c'.returned[0]? = some (some (.shown (.ok (url, line))))) :
    ∃ account, line = Cli.connectedLine account ∧
      (∃ e ∈ es, e.thread = 0 ∧ e.call = ⟨.takeResult, some (.ok account)⟩) ∧
      ∃ e ∈ es, e.op = .store (.ok account) ∧ e.thread ≠ 0 := by
  obtain ⟨htruthful, hfollows⟩ := h.follows
    (I := fun past c γ => Truthful past c.world γ) truthful_start report_start
    fun past e post _ hstep _ hpast hallows => ⟨trivial, by
      rw [ghosts_snoc]
      exact hpast.step hstep hallows⟩
  obtain ⟨account, htaken, hline⟩ : PrintsTaken _ (.shown (.ok (url, line))) :=
    hfollows 0 _ (Cfg.returned_eq_some.mp hshown)
  obtain ⟨hresult, htook⟩ := htruthful.taken 0 _ htaken
  obtain ⟨e, he, hstored⟩ := List.mem_filterMap.mp hresult
  have hop : e.op = .store (.ok account) := by
    obtain ⟨before, i, env, o, r, after⟩ := e
    cases o with
    | store result =>
      cases hstored
      rfl
    | _ => cases hstored
  exact ⟨account, hline, htook, e, he, hop, htruthful.handlers e he _ hop⟩

/-- A call has taken a flow of the account's tenant, exchanged a code with the verifier of the flow for
tokens that Graph says are the account's mailbox's, and stored these for the account. -/
def ConnectedBy (calls : List (ℕ × ((o : Op) × o.Reply))) (i : ℕ) (account : Account) : Prop :=
  ∃ flow response, (∃ state, (i, ⟨.flowsTake state, .ok flow⟩) ∈ calls) ∧
    flow.tenantId = account.tenantId ∧
    (∃ code, (i, ⟨.token (.exchangeCode code flow.verifier), .ok response⟩) ∈ calls) ∧
    (∃ identity, (i, ⟨.resolve response.accessToken, .ok identity⟩) ∈ calls ∧
      SameMailbox identity.email account.emailAddress) ∧
    ∃ token, response.StoredAs token ∧ (i, ⟨.tokensUpsert account.id token, .ok ()⟩) ∈ calls

theorem connectedBy_of_connects {es : List (Event AppSig World Env TaskReturn)} {i : ℕ}
    {account : Account} {response : TokenResponse}
    (h : Connects (es.map Event.alone) i account.owner response) :
    ConnectedBy (es.map fun e => (e.thread, e.call)) i account := by
  have hmem : ∀ call, Did (es.map Event.alone) i call →
      (i, call) ∈ es.map fun e => (e.thread, e.call) := by
    rintro call ⟨e', he', rfl, rfl⟩
    obtain ⟨e, he, rfl⟩ := List.mem_map.mp he'
    exact List.mem_map.mpr ⟨e, he, rfl⟩
  obtain ⟨⟨flow, identity, ⟨⟨state, htaken⟩, code, hexchanged⟩, htenant, hresolved, hsame⟩, token, htoken,
    hstored⟩ := h
  exact ⟨flow, response, ⟨state, hmem _ htaken⟩, htenant, ⟨code, hmem _ hexchanged⟩,
    ⟨identity, hmem _ hresolved, hsame⟩, token, htoken, hmem _ hstored⟩

/-- **What `add-account` reports is connected.** Whatever requests reach its listener, if it prints a
line, then this shows the account that the command took from the slot; the handler that put it there has
connected this very account, for a flow that the command has begun for its tenant, or that was pending at
the start. -/
theorem add_account_connects
    (h : (server aead chrono key).Run (adding mail newRedirectUrl config tenant requests w) es c')
    {url : ConsentUrl} {line : String}
    (hshown : c'.returned[0]? = some (some (.shown (.ok (url, line))))) :
    ∃ account, line = Cli.connectedLine account ∧
      (∃ e ∈ es, e.thread = 0 ∧ e.call = ⟨.takeResult, some (.ok account)⟩) ∧
      (∃ e ∈ es, e.thread ≠ 0 ∧ e.op = .store (.ok account) ∧
        ConnectedBy (managerCalls es) e.thread account) ∧
      Awaited (Cli.tenantId mail.defaultTenantId tenant) w.db account.tenantId := by
  obtain ⟨account, hline, htook, e, he, hop, hne⟩ := printed_stored h hshown
  obtain ⟨es', d, hrun, hcalls, hreturned⟩ := adding_run h
  have hret : d.returned[e.thread]? = some (some (.account (.ok account))) := hreturned e he _ hop
  obtain ⟨params, htask⟩ : ∃ params,
      (addingTasks mail tenant requests)[e.thread]? = some (.callback params) := by
    have hlt : e.thread < d.pool.length :=
      (List.getElem?_eq_some_iff.mp (Cfg.returned_eq_some.mp hret)).1
    rw [hrun.pool_length, Task.start, List.length_map] at hlt
    exact addingTasks_handler hne hlt
  obtain ⟨response, hconnects⟩ := callback_connects (run_fleet hrun) htask hret
  have hconnected := connectedBy_of_connects hconnects
  refine ⟨account, hline, htook, ⟨e, he, hne, hop, hcalls ▸ hconnected⟩, ?_⟩
  obtain ⟨flow, _, ⟨state, htaken⟩, htenant, _⟩ := hconnected
  obtain ⟨e', he', hcall⟩ := List.mem_map.mp htaken
  rw [← htenant]
  exact (awaited_run hrun).taken e' he' state flow (Prod.mk.inj hcall).2

end Connects

/-! ### One redirect -/

def sampleRedirect : String → Except String RedirectUrl := fun _ => .ok ⟨some "localhost", none, "http"⟩

/-- `add-account` where nothing is connected, and the redirect of the browser. -/
def firstAccount : Cfg ServerSig ServerWorld AddReturn :=
  adding sampleMailServer sampleRedirect ⟨"http://localhost", none⟩ none
    [⟨some "code", some "csrf", none, none⟩] ⟨.empty, fun _ => none⟩

/-- The flow is begun, the redirect is handled, and the listener ends. -/
def redirectTurns : List (ℕ × ServerEnv) :=
  inTurns ([0, 0, 0, 0, 1] ++ List.replicate 12 1 ++ [1, 1, 1, 0, 0])

theorem redirectTurns_run : (sampleServer.replay firstAccount redirectTurns).isSome = true := by
  decide +kernel

theorem add_account_connects_first : ∃ es c' account,
    sampleServer.Run firstAccount es c' ∧
    Cli.connectedLine account = "✅ Connected a@x (Ann)" ∧ account.id = "acc-2" ∧
    (∃ e ∈ es, e.thread ≠ 0 ∧ e.op = .store (.ok account) ∧
      ConnectedBy (managerCalls es) e.thread account) ∧ account.tenantId = "tenant-a" := by
  have hrun := run_replay firstAccount redirectTurns redirectTurns_run
  have hshown : ((sampleServer.replay firstAccount redirectTurns).get redirectTurns_run).2.returned[0]? =
      some (some (.shown (.ok (sampleUrl, "✅ Connected a@x (Ann)")))) := by
    decide +kernel
  have hids : (storedBy ((sampleServer.replay firstAccount redirectTurns).get
      redirectTurns_run).1).map (Except.map Account.id) = [.ok "acc-2"] := by
    decide +kernel
  obtain ⟨account, hline, _, ⟨e, he, hne, hop, hconnected⟩, htenant⟩ :=
    add_account_connects hrun hshown
  have hid : Except.ok account.id ∈ [(.ok "acc-2" : Result String)] := by
    rw [← hids]
    exact List.mem_map.mpr ⟨_, List.mem_filterMap.mpr ⟨e, he, congrArg ServerOp.stored? hop⟩, rfl⟩
  refine ⟨_, _, account, hrun, hline.symm, Except.ok.inj (List.mem_singleton.mp hid),
    ⟨e, he, hne, hop, hconnected⟩, ?_⟩
  rcases htenant with htenant | ⟨row, hrow, _⟩
  · exact htenant
  · exact absurd hrow List.not_mem_nil

end UniMail
