import UniMail.Auth.Mailbox
import UniMail.Process.Lineage
import UniMail.Process.Registry
import UniMail.Provider.Profile

/-!
# Who vouches for a mailbox

An account is connected to a tenant by a consent: `complete_flow` takes the flow of the tenant, exchanges
the code for tokens, and asks Graph whose they are. In every interleaving of any tasks of any processes, an
account is created only for the mailbox that the tokens of such a consent belong to (`accounts_vouched`,
`accounts_profiled`); and where the identifiers drawn are new, what a consent stores for an account are
tokens of the account's mailbox (`lineage_vouched`). A callback that returns an account has connected it so
(`callback_connects`).
-/

namespace UniMail

open Interaction Relational

variable {aead : Aead} {chrono : Chrono} {key : Key} {oauth : OAuthClient} {server : MailServer}
  {process : ℕ → ℕ} {α : Type}

/-! ### Consents -/

/-- The call has done this. -/
def Did (past : List (FleetEvent α)) (i : ℕ) (call : (o : Op) × o.Reply) : Prop :=
  ∃ e ∈ past, e.thread = i ∧ e.call = call

/-- The call has taken the flow, and exchanged a code with its verifier. -/
def CodeExchanged (past : List (FleetEvent α)) (i : ℕ) (flow : PendingFlow) (response : TokenResponse) :
    Prop :=
  (∃ state, Did past i ⟨.flowsTake state, .ok flow⟩) ∧
    ∃ code, Did past i ⟨.token (.exchangeCode code flow.verifier), .ok response⟩

/-- The call was granted tokens for a flow of the tenant, and Graph names the mailbox as theirs. -/
def Vouches (past : List (FleetEvent α)) (i : ℕ) (tenantId email : String) (response : TokenResponse) :
    Prop :=
  ∃ flow identity, CodeExchanged past i flow response ∧ flow.tenantId = tenantId ∧
    Did past i ⟨.resolve response.accessToken, .ok identity⟩ ∧ SameMailbox identity.email email

theorem Did.mono {past es : List (FleetEvent α)} {i : ℕ} {call : (o : Op) × o.Reply}
    (h : Did past i call) : Did (past ++ es) i call := by
  obtain ⟨e, he, h⟩ := h
  exact ⟨e, List.mem_append_left _ he, h⟩

theorem CodeExchanged.mono {past es : List (FleetEvent α)} {i : ℕ} {flow : PendingFlow}
    {response : TokenResponse} (h : CodeExchanged past i flow response) :
    CodeExchanged (past ++ es) i flow response := by
  obtain ⟨⟨state, htaken⟩, code, hgranted⟩ := h
  exact ⟨⟨state, htaken.mono⟩, code, hgranted.mono⟩

theorem Vouches.mono {past es : List (FleetEvent α)} {i : ℕ} {tenantId email : String}
    {response : TokenResponse} (h : Vouches past i tenantId email response) :
    Vouches (past ++ es) i tenantId email response := by
  obtain ⟨flow, identity, hexchanged, htenant, hresolved, hsame⟩ := h
  exact ⟨flow, identity, hexchanged.mono, htenant, hresolved.mono, hsame⟩

/-! ### What a consent has in its hands -/

/-- The id of an account, with whose it is. -/
structure Owner where
  id : String
  tenantId : String
  email : String

def Account.owner (account : Account) : Owner :=
  ⟨account.id, account.tenantId, account.emailAddress⟩

def AccountIdentity.owner (k : AccountIdentity) : Owner := ⟨k.id, k.tenantId, k.emailAddress⟩

/-- The token to store for what was granted. -/
def TokenResponse.StoredAs (response : TokenResponse) (token : StoredToken) : Prop :=
  token.accessToken = response.accessToken ∧ response.refreshToken = some token.refreshToken

/-- The call has stored for the account the tokens that it was granted, which are its mailbox's. -/
def Connects (past : List (FleetEvent α)) (i : ℕ) (account : Owner) (response : TokenResponse) : Prop :=
  Vouches past i account.tenantId account.email response ∧
    ∃ token, response.StoredAs token ∧ Did past i ⟨.tokensUpsert account.id token, .ok ()⟩

theorem Connects.mono {past es : List (FleetEvent α)} {i : ℕ} {account : Owner} {response : TokenResponse}
    (h : Connects past i account response) : Connects (past ++ es) i account response := by
  obtain ⟨hvouches, token, htoken, hstored⟩ := h
  exact ⟨hvouches.mono, token, htoken, hstored.mono⟩

/-- How far a consent is: it has not begun, has taken the flow, has its tokens, knows whose they are, has
chosen the account, has failed to create it, or has stored the tokens for it. A call that is no consent is
`idle`. -/
inductive Voucher
  | idle
  | begun
  | taken (flow : PendingFlow)
  | granted (flow : PendingFlow) (response : TokenResponse)
  | named (flow : PendingFlow) (response : TokenResponse) (identity : ResolvedIdentity)
  | chosen (response : TokenResponse) (account : Owner)
  | failed (response : TokenResponse)
  | connected (response : TokenResponse) (account : Owner)

def voucherMonitor : Monitor AppSig Voucher where
  allows g o := match o with
    | .flowsTake _ => g = .begun
    | .token (.exchangeCode _ verifier) => ∃ flow, g = .taken flow ∧ verifier = flow.verifier
    | .resolve t => ∃ flow response, g = .granted flow response ∧ t = response.accessToken
    | .accountsGetByEmail tenantId email => g = .idle ∨ ∃ flow response identity,
        g = .named flow response identity ∧ tenantId = flow.tenantId ∧ email = identity.email
    | .newUuid => ∃ flow response identity, g = .named flow response identity
    | .accountsCreate account => ∃ response, g = .chosen response account.owner
    | .tokensUpsert id token => g = .idle ∨ ∃ response account,
        g = .chosen response account ∧ account.id = id ∧ response.StoredAs token
    | _ => True
  expects _ o r := match o, r with
    | .accountsGetByEmail tenantId email, .ok account =>
      account.tenantId = tenantId ∧ SameMailbox account.emailAddress email
    | _, _ => True
  next g o r := match o, r, g with
    | .flowsTake _, .ok flow, .begun => .taken flow
    | .token (.exchangeCode _ _), .ok response, .taken flow => .granted flow response
    | .resolve _, .ok identity, .granted flow response => .named flow response identity
    | .accountsGetByEmail _ _, .ok account, .named _ response _ => .chosen response account.owner
    | .newUuid, id, .named flow response identity =>
      .chosen response ⟨id, flow.tenantId, identity.email⟩
    | .accountsCreate _, .error _, .chosen response _ => .failed response
    | .tokensUpsert _ _, .ok _, .chosen response account => .connected response account
    | _, _, g => g

section Protocol

variable {g : Voucher} {flow : PendingFlow} {response : TokenResponse}

theorem voucher_tokens (accountId : String) :
    TokenRules voucherMonitor accountId (fun g => g = .idle) fun g _ => g = .idle where
  clock _ := ⟨trivial, fun _ => rfl⟩
  lock o ho g _ := by
    simp only [List.mem_cons, List.not_mem_nil, or_false] at ho
    rcases ho with rfl | rfl | rfl <;> exact ⟨trivial, fun _ => rfl⟩
  base _ _ h := h
  get _ _ := trivial
  got _ _ h := h
  read _ _ h := h
  present _ _ _ := trivial
  denied _ _ _ h := h
  granted _ _ _ h := h
  write _ _ h := Or.inl h
  wrote _ _ r h := by
    subst h
    cases r <;> rfl

/-- A task that is no consent creates nothing. -/
theorem voucher_rules :
    TaskRules voucherMonitor (fun g => g = .idle) (fun _ _ _ => True) (fun _ => True)
      fun _ => True where
  plain o ho g _ := by
    cases o with
    | accountsList | accountsListAll | accountsSetStatus | accountsDelete | tokensDelete
    | tokensListInactive | flowsInsert | utcNow | newPkce | newCsrf =>
      exact ⟨trivial, fun _ => rfl⟩
    | _ => simp [Op.plain] at ho
  lookup g tenantId id hg _ := ⟨trivial, fun r _ => ⟨hg, fun _ _ => trivial⟩⟩
  lookupEmail g tenantId email hg _ := ⟨Or.inl hg, fun r _ => by
    subst hg
    cases r <;> exact ⟨rfl, fun _ _ => trivial⟩⟩
  refresh _ id _ hg := (voucher_tokens id).follows_refreshAccount hg
  access _ id _ hg := follows_mono (fun _ _ hg => ⟨hg, fun _ _ => trivial⟩)
    ((voucher_tokens id).follows_getAccessToken hg)
  mail _ _ _ _ _ _ := ⟨trivial, fun _ => rfl⟩

theorem voucher_storageNow : voucherMonitor.Silent .storageNow := fun _ => ⟨trivial, fun _ => rfl⟩

theorem voucher_utcNow : voucherMonitor.Silent .utcNow := fun _ => ⟨trivial, fun _ => rfl⟩

theorem voucher_flowAccount {identity : ResolvedIdentity} :
    Follows voucherMonitor (fun g r => ∀ account, r = .ok account → g = .chosen response account.owner)
      (.named flow response identity) (TokenManager.flowAccount flow.tenantId identity).run := by
  unfold TokenManager.flowAccount
  refine follows_op (Or.inr ⟨flow, response, identity, rfl, rfl, rfl⟩) fun r _ => ?_
  cases r with
  | ok existing =>
    refine follows_op_silent (voucher_storageNow _) fun updatedAt _ => ?_
    rintro _ ⟨⟩
    rfl
  | error e =>
    cases e with
    | notFound msg =>
      refine follows_op ⟨flow, response, identity, rfl⟩ fun id _ => ?_
      refine follows_op_silent (voucher_storageNow _) fun createdAt _ => ?_
      refine follows_op_silent (voucher_storageNow _) fun updatedAt _ => ?_
      rintro _ ⟨⟩
      rfl
    | _ => exact nofun

theorem voucher_ensureAccount {tenantId : String} {account : Account}
    (hg : g = .chosen response account.owner) :
    Follows voucherMonitor (fun g r => r = .ok () → g = .chosen response account.owner) g
      (TokenManager.ensureAccount tenantId account).run := by
  subst hg
  unfold TokenManager.ensureAccount
  refine follows_op trivial fun r _ => ?_
  cases r with
  | ok _ => exact fun _ => rfl
  | error e =>
    refine follows_op ⟨response, rfl⟩ fun r _ => ?_
    exact follows_check (fun _ hr _ => by rw [hr]; rfl) fun _ _ => nofun

/-- What a consent is when it returns the account. -/
def Voucher.Connected (g : Voucher) (r : Outcome Account) : Prop :=
  ∀ account, r = .ok account → ∃ response, g = .connected response account.owner

theorem voucher_connect {tokenSet : TokenSet} {refreshToken : String}
    (haccess : tokenSet.accessToken = response.accessToken)
    (hrefresh : response.refreshToken = some refreshToken) :
    Follows voucherMonitor Voucher.Connected (.granted flow response)
      (TokenManager.connect flow.tenantId tokenSet refreshToken).run := by
  unfold TokenManager.connect
  refine follows_op ⟨flow, response, rfl, haccess⟩ fun r _ =>
    follows_check_bind (fun identity hr => ?_) fun _ _ => nofun
  subst hr
  refine (follows_run_bind _ _ _).mpr (follows_mono (fun g r hg => ?_) voucher_flowAccount)
  cases r with
  | error e => exact nofun
  | ok account =>
    have hchosen := hg account rfl
    refine follows_op_silent (voucher_utcNow _) fun _ _ => follows_op_silent (voucher_utcNow _) fun _ _ => ?_
    refine (follows_run_bind _ _ _).mpr (follows_mono (fun g r hg => ?_) (voucher_ensureAccount hchosen))
    cases r with
    | error e => exact nofun
    | ok _ =>
      obtain rfl := hg rfl
      refine follows_op (Or.inr ⟨response, account.owner, rfl, rfl, haccess, hrefresh⟩) fun r _ =>
        follows_check_bind (fun _ hr => ?_) fun _ _ => nofun
      subst hr
      rintro _ ⟨⟩
      exact ⟨response, rfl⟩

theorem voucher_completeFlow {code state : String} :
    Follows voucherMonitor Voucher.Connected .begun (TokenManager.completeFlow oauth code state).run := by
  unfold TokenManager.completeFlow
  refine follows_op rfl fun r _ => follows_check_bind (fun flow hr => ?_) fun _ _ => nofun
  cases r with
  | error e => cases hr
  | ok taken =>
    cases hr
    refine (follows_run_bind _ _ _).mpr (follows_requestTokens voucher_utcNow ⟨flow, rfl, rfl⟩
      (fun _ => nofun) (fun _ _ => nofun) fun response _ => ⟨fun ts haccess hrefresh => ?_, fun _ => nofun⟩)
    dsimp only
    cases hts : ts.refreshToken with
    | none => exact nofun
    | some refreshToken => exact voucher_connect haccess (hrefresh.symm.trans hts)

/-- What a task is at the start: a callback begins a consent. -/
def Task.voucher : Task → Voucher
  | .callback _ => .begun
  | _ => .idle

/-- What a call is when it returns: a consent that returns an account has connected it. -/
def Voucher.Returns (g : Voucher) (r : TaskReturn) : Prop :=
  g = .idle ∨ ∀ account, r = .account (.ok account) → ∃ response, g = .connected response account.owner

/-- **Every task** chooses, creates and connects accounts as a consent does, or not at all. -/
theorem voucher_task (task : Task) :
    Follows voucherMonitor Voucher.Returns task.voucher (task.prog server) := by
  have hidle : (∀ params, task ≠ .callback params) →
      Follows voucherMonitor Voucher.Returns .idle (task.prog server) := by
    intro hne
    have hstays : Stays voucherMonitor (fun g => g = .idle) .idle (task.prog server) :=
      voucher_rules.follows_task rfl (fun _ _ => trivial) (fun _ _ _ => trivial) (fun _ hg => hg)
        fun params htask => absurd htask (hne params)
    exact follows_mono (fun _ _ hg => Or.inl hg) hstays
  cases task with
  | callback params =>
    refine (follows_bind _ _ _).mpr (follows_mono (Q := Voucher.Connected) (fun g r hg => ?_) ?_)
    · refine Or.inr fun account hr => hg account ?_
      cases hr
      rfl
    · exact follows_completeCallback (fun _ => nofun) fun _ _ => voucher_completeFlow
  | _ => exact hidle nofun

end Protocol

/-! ### Along a run -/

section Run

variable {past : List (FleetEvent α)} {e : FleetEvent α} {i : ℕ} {g : Voucher} {response : TokenResponse}

theorem did_snoc {call : (o : Op) × o.Reply} (h : Did (past ++ [e]) i call) :
    Did past i call ∨ e.thread = i ∧ e.call = call := by
  obtain ⟨e', he', hdid⟩ := h
  rcases List.mem_append.mp he' with he' | he'
  · exact Or.inl ⟨e', he', hdid⟩
  · obtain rfl := List.mem_singleton.mp he'
    exact Or.inr hdid

theorem did_last (e : FleetEvent α) (past : List (FleetEvent α)) :
    Did (past ++ [e]) e.thread e.call :=
  ⟨e, by simp, rfl, rfl⟩

/-- What the consent was granted. -/
def Voucher.response? : Voucher → Option TokenResponse
  | .idle | .begun | .taken _ => none
  | .granted _ response | .named _ response _ | .chosen response _ | .failed response
  | .connected response _ => some response

/-- What the state says has been done. -/
def Voucher.Shows (past : List (FleetEvent α)) (i : ℕ) : Voucher → Prop
  | .idle | .begun | .failed _ => True
  | .taken flow => ∃ state, Did past i ⟨.flowsTake state, .ok flow⟩
  | .granted flow response => CodeExchanged past i flow response
  | .named flow response identity =>
    CodeExchanged past i flow response ∧ Did past i ⟨.resolve response.accessToken, .ok identity⟩
  | .chosen response account => Vouches past i account.tenantId account.email response
  | .connected response account => Connects past i account response

/-- The call has done what its state says, and exchanged no code but for what it was granted. -/
structure VoucherFits (past : List (FleetEvent α)) (i : ℕ) (g : Voucher) : Prop where
  shows : g.Shows past i
  grants : ∀ code verifier response, Did past i ⟨.token (.exchangeCode code verifier), .ok response⟩ →
    g.response? = some response

theorem Voucher.Shows.mono (h : g.Shows past i) : g.Shows (past ++ [e]) i := by
  cases g with
  | idle | begun | failed => trivial
  | taken flow =>
    obtain ⟨state, htaken⟩ := h
    exact ⟨state, htaken.mono⟩
  | granted flow response => exact CodeExchanged.mono h
  | named flow response identity => exact ⟨h.1.mono, h.2.mono⟩
  | chosen response account => exact Vouches.mono h
  | connected response account => exact Connects.mono h

/-- A step that is no exchange of the call. -/
theorem VoucherFits.snoc {g' : Voucher} (h : VoucherFits past i g) (hshows : g'.Shows (past ++ [e]) i)
    (hresponse : g'.response? = g.response?)
    (hgrants : e.thread = i → ∀ code verifier response,
      e.call ≠ ⟨.token (.exchangeCode code verifier), .ok response⟩) :
    VoucherFits (past ++ [e]) i g' := by
  refine ⟨hshows, fun code verifier response hdid => ?_⟩
  rw [hresponse]
  rcases did_snoc hdid with hdid | ⟨hthread, hcall⟩
  · exact h.grants code verifier response hdid
  · exact absurd hcall (hgrants hthread code verifier response)

/-- **One step** of a consent. -/
theorem VoucherFits.step (h : VoucherFits past e.thread g) (hallows : voucherMonitor.allows g e.op)
    (hexpects : voucherMonitor.expects g e.op e.reply) :
    VoucherFits (past ++ [e]) e.thread (voucherMonitor.next g e.op e.reply) := by
  have hlast := did_last e past
  obtain ⟨before, i, env, o, r, after⟩ := e
  dsimp only at h hallows hexpects hlast ⊢
  cases o with
  | flowsTake state =>
    obtain rfl : g = .begun := hallows
    cases r with
    | error e => exact h.snoc trivial rfl nofun
    | ok flow => exact h.snoc ⟨state, hlast⟩ rfl nofun
  | token request =>
    cases request with
    | refresh presented => exact h.snoc h.shows.mono rfl nofun
    | exchangeCode code verifier =>
      obtain ⟨flow, rfl, rfl⟩ := hallows
      cases r with
      | error e => exact h.snoc h.shows.mono rfl fun _ _ _ _ hcall => by cases hcall
      | ok response =>
        obtain ⟨state, htaken⟩ := h.shows
        refine ⟨⟨⟨state, htaken.mono⟩, code, hlast⟩, fun code' verifier' response' hdid => ?_⟩
        rcases did_snoc hdid with hdid | ⟨_, hcall⟩
        · cases h.grants code' verifier' response' hdid
        · cases hcall
          rfl
  | resolve accessToken =>
    obtain ⟨flow, response, rfl, rfl⟩ := hallows
    cases r with
    | error e => exact h.snoc h.shows.mono rfl nofun
    | ok identity => exact h.snoc ⟨CodeExchanged.mono h.shows, hlast⟩ rfl nofun
  | accountsGetByEmail tenantId email =>
    rcases hallows with rfl | ⟨flow, response, identity, rfl, rfl, rfl⟩
    · cases r <;> exact h.snoc trivial rfl nofun
    · cases r with
      | error e => exact h.snoc h.shows.mono rfl nofun
      | ok account =>
        obtain ⟨hexchanged, hresolved⟩ := h.shows
        obtain ⟨htenant, hsame⟩ := hexpects
        exact h.snoc ⟨flow, identity, hexchanged.mono, htenant.symm, hresolved.mono, hsame.symm⟩ rfl nofun
  | newUuid =>
    obtain ⟨flow, response, identity, rfl⟩ := hallows
    obtain ⟨hexchanged, hresolved⟩ := h.shows
    exact h.snoc ⟨flow, identity, hexchanged.mono, rfl, hresolved.mono, rfl⟩ rfl nofun
  | accountsCreate account =>
    obtain ⟨response, rfl⟩ := hallows
    cases r with
    | error e => exact h.snoc trivial rfl nofun
    | ok _ => exact h.snoc h.shows.mono rfl nofun
  | tokensUpsert id token =>
    cases r with
    | error e => exact h.snoc h.shows.mono rfl nofun
    | ok _ =>
      rcases hallows with rfl | ⟨response, account, rfl, rfl, htoken⟩
      · exact h.snoc trivial rfl nofun
      · exact h.snoc ⟨Vouches.mono h.shows, token, htoken, hlast⟩ rfl nofun
  | _ => exact h.snoc h.shows.mono rfl nofun

/-- A lookup by email returns an account of the tenant with this mailbox. -/
theorem voucher_expects {o : Op} {r : o.Reply} {env : Env} {w w' : World}
    (hexec : (system aead chrono key).exec i o env w = some (r, w')) : voucherMonitor.expects g o r := by
  cases o with
  | accountsGetByEmail tenantId email =>
    cases r with
    | error e => trivial
    | ok account =>
      obtain ⟨row, _, htenant, hemail, rfl⟩ :=
        SqliteAccountStore.getByEmail_ok (storage_ok (Option.some.inj hexec)).1
      exact ⟨htenant, hemail⟩
  | _ => trivial

end Run

section Tasks

variable {tasks : List Task} {w : FleetWorld} {es : List (FleetEvent TaskReturn)}
  {c : FleetCfg TaskReturn}

/-- What the calls are at the start. -/
def vouchers (tasks : List Task) (i : ℕ) : Voucher := (tasks[i]?.map Task.voucher).getD .idle

theorem voucher_start :
    PoolFollows voucherMonitor Voucher.Returns (vouchers tasks) (Task.start server tasks w).pool := by
  intro i p hp
  rw [Task.start, List.getElem?_map] at hp
  obtain ⟨task, htask, rfl⟩ := Option.map_eq_some_iff.mp hp
  have hvoucher : vouchers tasks i = task.voucher := by simp [vouchers, htask]
  rw [hvoucher]
  exact voucher_task task

theorem fits_start (i : ℕ) : VoucherFits ([] : List (FleetEvent TaskReturn)) i (vouchers tasks i) := by
  have hnone : ∀ task : Task, task.voucher = .idle ∨ task.voucher = .begun := by
    intro task
    cases task <;> simp [Task.voucher]
  have hshows : vouchers tasks i = .idle ∨ vouchers tasks i = .begun := by
    unfold vouchers
    cases htask : tasks[i]? with
    | none => exact Or.inl rfl
    | some task => exact hnone task
  refine ⟨?_, fun code verifier response hdid => ?_⟩
  · rcases hshows with h | h <;> rw [h] <;> trivial
  · obtain ⟨e, he, _⟩ := hdid
    simp at he

/-- In every run the consents are as far as their state says. -/
theorem vouched_run (h : (fleet aead chrono key process).Run (Task.start server tasks w) es c) :
    (∀ i, VoucherFits es i (ghosts voucherMonitor (vouchers tasks) es i)) ∧
      PoolFollows voucherMonitor Voucher.Returns (ghosts voucherMonitor (vouchers tasks) es)
        c.pool := by
  refine h.follows (I := fun past _ γ => ∀ i, VoucherFits past i (γ i)) fits_start voucher_start ?_
  intro past e post _ hstep _ hfits hallows
  have hexpects : voucherMonitor.expects (ghosts voucherMonitor (vouchers tasks) past e.thread) e.op
      e.reply := by
    obtain ⟨k, _, hexec, _⟩ := hstep
    obtain ⟨v, hlocal, _⟩ := fleet_exec hexec
    exact voucher_expects hlocal
  refine ⟨hexpects, fun i => ?_⟩
  rw [ghosts_snoc]
  by_cases hi : i = e.thread
  · subst hi
    rw [Function.update_self]
    exact (hfits e.thread).step hallows hexpects
  · rw [Function.update_of_ne hi]
    exact (hfits i).snoc (hfits i).shows.mono rfl fun hthread => absurd hthread.symm hi

/-- **No account without the consent of its mailbox.** In every interleaving of any tasks, an account is
one that was there at the start, or a consent vouches for its mailbox: the flow is one of the tenant of
the account, and its code was exchanged for tokens that Graph says are the mailbox's. -/
theorem accounts_vouched (hrun : (fleet aead chrono key process).Run (Task.start server tasks w) es c)
    {row : AccountRow} (hrow : row ∈ c.world.db.accounts.rows) :
    (∃ row' ∈ w.db.accounts.rows, row'.identity = row.identity) ∨
      ∃ i response, Vouches es i row.tenantId row.emailAddress response := by
  refine hrun.history (I := fun past d => ∀ row ∈ d.world.db.accounts.rows,
    (∃ row' ∈ w.db.accounts.rows, row'.identity = row.identity) ∨
      ∃ i response, Vouches past i row.tenantId row.emailAddress response)
    (fun row hrow => Or.inl ⟨row, hrow, rfl⟩) ?_ row hrow
  intro past e post _ hpast hstep hrows row hrow
  rcases row_after hstep hrow with ⟨row', hrow', hsame⟩ | ⟨account, hcall, rfl⟩
  · rw [← hsame]
    have htenant : row'.tenantId = row.tenantId := congrArg AccountIdentity.tenantId hsame
    have hemail : row'.emailAddress = row.emailAddress := congrArg AccountIdentity.emailAddress hsame
    rw [← htenant, ← hemail]
    refine (hrows row' hrow').imp_right ?_
    rintro ⟨i, response, hvouches⟩
    exact ⟨i, response, hvouches.mono⟩
  · obtain ⟨hfits, hfollows⟩ := vouched_run hpast
    have hallows := hfollows.allows hstep
    have hop : e.op = .accountsCreate account := (Sigma.mk.inj hcall).1
    rw [hop] at hallows
    obtain ⟨response, hchosen⟩ := hallows
    have hshows := (hfits e.thread).shows
    rw [hchosen] at hshows
    exact Or.inr ⟨e.thread, response, Vouches.mono hshows⟩

/-- At a step Graph has answered, for the tokens of a consent of the tenant, with a profile of the mailbox. -/
def Profiled (resolver : GraphIdentityResolver) (es : List (FleetEvent α)) (tenantId email : String) : Prop :=
  ∃ flow response, ∃ e ∈ es, CodeExchanged es e.thread flow response ∧ flow.tenantId = tenantId ∧
    ∃ profile, resolver.Answers e.env.env.graph response.accessToken profile ∧
      ∃ address, profile.mail.or profile.userPrincipalName = some address ∧ SameMailbox address email

theorem SameMailbox.ne_empty {email email' : String} (h : SameMailbox email email') (hne : email ≠ "") :
    email' ≠ "" := by
  rintro rfl
  have hlower : sqliteLower email = sqliteLower "" := h
  have hnil : (sqliteLower email).toList = [] := by
    rw [hlower]
    decide
  rw [sqliteLower, String.toList_ofList, List.map_eq_nil_iff] at hnil
  exact hne (String.toList_eq_nil_iff.mp hnil)

/-- **No account without the profile of its mailbox.** In every interleaving of any tasks in which the
identities are resolved by Graph, an account is one that was there at the start, or it has an address, and
Graph has named it, up to the case of its ASCII letters, as that of the tokens of a consent. -/
theorem accounts_profiled {resolver : GraphIdentityResolver}
    (hrun : (fleet aead chrono key process).Run (Task.start server tasks w) es c)
    (hresolver : ∀ e ∈ es, e.env.env.resolve = resolver.fetchProfile e.env.env.graph)
    {row : AccountRow} (hrow : row ∈ c.world.db.accounts.rows) :
    (∃ row' ∈ w.db.accounts.rows, row'.identity = row.identity) ∨
      row.emailAddress ≠ "" ∧ Profiled resolver es row.tenantId row.emailAddress := by
  refine (accounts_vouched hrun hrow).imp_right ?_
  rintro ⟨i, response, flow, identity, hexchanged, htenant, ⟨e, he, rfl, hcall⟩, hsame⟩
  have hidentity : e.env.env.resolve response.accessToken = .ok identity := by
    obtain ⟨past, post, rfl⟩ := List.append_of_mem he
    obtain ⟨_, ⟨k, _, hexec, _⟩, _⟩ := hrun.split
    obtain ⟨before, i, env, o, r, after⟩ := e
    cases hcall
    obtain ⟨v, hlocal, _⟩ := fleet_exec hexec
    exact (Prod.mk.inj (Option.some.inj hlocal)).1
  rw [hresolver e he] at hidentity
  obtain ⟨profile, hanswers, haddress, hne, _⟩ := GraphIdentityResolver.fetchProfile_eq_ok.mp hidentity
  exact ⟨hsame.ne_empty hne, flow, response, e, he, hexchanged, htenant, profile, hanswers, identity.email,
    haddress, hsame⟩

/-! ### The account a consent stores for -/

def Voucher.isIdle : Voucher → Bool
  | .idle => true
  | _ => false

theorem Voucher.isIdle_next (g : Voucher) (o : Op) (r : o.Reply) :
    Voucher.isIdle (voucherMonitor.next g o r) = g.isIdle := by
  cases o with
  | flowsTake => cases r <;> cases g <;> rfl
  | token request => cases request <;> cases r <;> cases g <;> rfl
  | resolve => cases r <;> cases g <;> rfl
  | accountsGetByEmail => cases r <;> cases g <;> rfl
  | newUuid => cases g <;> rfl
  | accountsCreate | tokensUpsert => cases r <;> cases g <;> rfl
  | _ => rfl

theorem Voucher.not_idle {g : Voucher} {response : TokenResponse} (h : g.response? = some response) :
    g.isIdle = false := by
  cases g with
  | idle => cases h
  | _ => rfl

/-- A call that is no consent does not become one, and a consent remains one. -/
theorem isIdle_ghosts {γ : ℕ → Voucher} (i : ℕ) (es : List (FleetEvent TaskReturn)) :
    (ghosts voucherMonitor γ es i).isIdle = (γ i).isIdle := by
  induction es using List.reverseRecOn with
  | nil => rfl
  | append_singleton es e ih =>
    rw [ghosts_snoc]
    by_cases hi : i = e.thread
    · subst hi
      rw [Function.update_self, Voucher.isIdle_next, ih]
    · rw [Function.update_of_ne hi, ih]

/-- **A callback that reports success has connected the account.** In every interleaving of any tasks, a
callback that has returned an account has taken a flow of its tenant, exchanged a code with the verifier of
the flow for tokens that Graph says are its mailbox's, and stored these for it. -/
theorem callback_connects (hrun : (fleet aead chrono key process).Run (Task.start server tasks w) es c)
    {i : ℕ} {params : CallbackParams} (htask : tasks[i]? = some (.callback params)) {account : Account}
    (hret : c.returned[i]? = some (some (.account (.ok account)))) :
    ∃ response, Connects es i account.owner response := by
  obtain ⟨hfits, hfollows⟩ := vouched_run hrun
  have hconsent : (vouchers tasks i).isIdle = false := by
    rw [vouchers, htask]
    rfl
  have hreturns : Voucher.Returns _ _ := hfollows i _ (Cfg.returned_eq_some.mp hret)
  rcases hreturns with hidle | hreturns
  · rw [← isIdle_ghosts i es, hidle] at hconsent
    cases hconsent
  · obtain ⟨response, hconnected⟩ := hreturns account rfl
    have hshows := (hfits i).shows
    rw [hconnected] at hshows
    exact ⟨response, hshows⟩

/-- How a consent comes to have chosen an account: it had before, or has created it, found it, or drawn its
id at the step. -/
theorem next_chosen {e : FleetEvent α} {g : Voucher} {response : TokenResponse} {account : Owner}
    (hallows : voucherMonitor.allows g e.op)
    (hnext : voucherMonitor.next g e.op e.reply = .chosen response account) :
    (g = .chosen response account ∧ ∀ r, registryMonitor.next r e.op e.reply = r) ∨
      (∃ k, CreatesAccount e k ∧ k.owner = account) ∨ (∃ k, Finds e k ∧ k.owner = account) ∨
      drawnId e = some account.id := by
  obtain ⟨before, i, env, o, r, after⟩ := e
  dsimp only at hallows hnext ⊢
  cases o with
  | flowsTake state =>
    obtain rfl : g = .begun := hallows
    cases r <;> cases hnext
  | token request =>
    cases request with
    | refresh presented => exact Or.inl ⟨hnext, fun _ => rfl⟩
    | exchangeCode code verifier =>
      obtain ⟨flow, rfl, _⟩ := hallows
      cases r <;> cases hnext
  | resolve accessToken =>
    obtain ⟨flow, response', rfl, _⟩ := hallows
    cases r <;> cases hnext
  | accountsGetByEmail tenantId email =>
    rcases hallows with rfl | ⟨flow, response', identity, rfl, _⟩
    · cases r <;> cases hnext
    · cases r with
      | error e => cases hnext
      | ok found =>
        cases hnext
        exact Or.inr (Or.inr (Or.inl ⟨_, ⟨tenantId, email, found, rfl, rfl⟩, rfl⟩))
  | newUuid =>
    obtain ⟨flow, response', identity, rfl⟩ := hallows
    cases hnext
    exact Or.inr (Or.inr (Or.inr rfl))
  | accountsCreate created =>
    obtain ⟨response', rfl⟩ := hallows
    cases r with
    | error e => cases hnext
    | ok _ =>
      cases hnext
      exact Or.inr (Or.inl ⟨_, ⟨created, rfl, rfl⟩, rfl⟩)
  | tokensUpsert id token =>
    cases r with
    | error e => exact Or.inl ⟨hnext, fun _ => rfl⟩
    | ok _ => rcases hallows with rfl | ⟨_, _, rfl, _⟩ <;> cases hnext
  | _ => exact Or.inl ⟨hnext, fun _ => rfl⟩

/-- The account a consent has chosen is registered, or its id is the one that the consent has drawn. -/
def Choice (start : Db) (past : List (FleetEvent TaskReturn)) (i : ℕ) (account : Owner) : Prop :=
  (∃ k, Registered start past k ∧ k.owner = account) ∨
    ghosts registryMonitor (fun _ => .nothing) past i = .drawn account.id

/-- In every run whose ids are new, the consents have chosen accounts that are registered or new. -/
theorem choice_run (hrun : (fleet aead chrono key process).Run (Task.start server tasks w) es c)
    (hfresh : FreshIds w.db es) {i : ℕ} {response : TokenResponse} {account : Owner}
    (hchosen : ghosts voucherMonitor (vouchers tasks) es i = .chosen response account) :
    Choice w.db es i account := by
  refine hrun.history (I := fun past _ => ∀ i response account,
    ghosts voucherMonitor (vouchers tasks) past i = .chosen response account →
      Choice w.db past i account) ?_ ?_ i response account hchosen
  · intro i response account hchosen
    have hvouches : Vouches ([] : List (FleetEvent TaskReturn)) i account.tenantId account.email
        response := by
      have hfits : VoucherFits [] i (vouchers tasks i) := fits_start i
      have hshows := hfits.shows
      rwa [show vouchers tasks i = _ from hchosen] at hshows
    obtain ⟨flow, identity, _, _, ⟨e, he, _⟩, _⟩ := hvouches
    simp at he
  · intro past e post hes hpast hstep hchoice j response' account' hj
    subst hes
    obtain ⟨_, hfollows⟩ := vouched_run hpast
    obtain ⟨hregistry, _⟩ := registry_run hpast hfresh.of_append
    rw [ghosts_snoc] at hj
    unfold Choice
    rw [ghosts_snoc]
    by_cases heq : j = e.thread
    · subst heq
      rw [Function.update_self] at hj ⊢
      rcases next_chosen (hfollows.allows hstep) hj with
        ⟨hbefore, hquiet⟩ | ⟨k, hcreates, hk⟩ | ⟨k, hfinds, hk⟩ | hdrawn
      · rw [hquiet]
        refine (hchoice _ _ _ hbefore).imp_left ?_
        rintro ⟨k, hregistered, hk⟩
        exact ⟨k, hregistered.mono, hk⟩
      · exact Or.inl ⟨k, Or.inr ⟨e, by simp, hcreates⟩, hk⟩
      · obtain ⟨row, hrow, rfl⟩ := row_of_finds hstep hfinds
        exact Or.inl ⟨_, (hregistry.rows row hrow).mono, hk⟩
      · exact Or.inr (next_drawn hdrawn)
    · rw [Function.update_of_ne heq] at hj ⊢
      refine (hchoice j response' account' hj).imp_left ?_
      rintro ⟨k, hregistered, hk⟩
      exact ⟨k, hregistered.mono, hk⟩

/-- A token is stored for an account that is there. -/
theorem row_of_stores {e : FleetEvent α} (hstep : (fleet aead chrono key process).Step e) {id : String}
    {token : StoredToken} (h : StoresFor e id token) :
    ∃ row ∈ e.before.world.db.accounts.rows, row.id = id := by
  obtain ⟨before, i, env, o, r, after⟩ := e
  cases h
  obtain ⟨k, _, hexec, _⟩ := hstep
  obtain ⟨v, hlocal, _⟩ := fleet_exec hexec
  obtain ⟨hfound, _⟩ := tokensUpsert_ok hlocal
  obtain ⟨row, hrow⟩ := Option.ne_none_iff_exists'.mp hfound
  exact ⟨row, Table.find_eq_some.mp hrow⟩

end Tasks

/-! ### A first consent -/

def sampleResolver : GraphIdentityResolver :=
  ⟨sampleGraph, fun _ => .ok ⟨none, some "a@x", some "Ann"⟩⟩

/-- Graph tells whose the tokens are; the profile has no `mail`. -/
def answerMe (_ : GraphRequest) : Except String GraphResponse :=
  .ok ⟨200, some "\x7b\"userPrincipalName\":\"a@x\",\"displayName\":\"Ann\"\x7d"⟩

def consentEnv (flows : FlowTable) : FleetEnv :=
  ⟨{ Env.calm 0 (.ok ⟨"at-1", some "rt-1", some 3600, none⟩) with
    graph := answerMe
    resolve := sampleResolver.fetchProfile answerMe }, flows⟩

/-- A callback in the server, and a listing on the command line, where nothing is connected yet. -/
def firstConsent : FleetCfg TaskReturn :=
  Task.start sampleMailServer
    [.callback ⟨some "code", some "csrf", none, none⟩, .listAccounts none]
    (awaiting ⟨.empty, fun _ => none⟩).alone

def firstSteps : List (ℕ × FleetEnv) :=
  (0, consentEnv (awaiting ⟨.empty, fun _ => none⟩).db.oauthFlows) ::
    ([0, 0, 0, 0, 1] ++ List.replicate 8 0).map fun i => (i, consentEnv .empty)

theorem firstSteps_run : (sampleFleet.replay firstConsent firstSteps).isSome = true := by
  decide +kernel

def firstEvents : List (FleetEvent TaskReturn) :=
  ((sampleFleet.replay firstConsent firstSteps).get firstSteps_run).1

def firstConnected : FleetCfg TaskReturn :=
  ((sampleFleet.replay firstConsent firstSteps).get firstSteps_run).2

theorem firstEvents_run : sampleFleet.Run firstConsent firstEvents firstConnected :=
  run_replay firstConsent firstSteps firstSteps_run

/-- The account that is there now has a profile. -/
theorem accounts_profiled_first : ∃ row ∈ firstConnected.world.db.accounts.rows,
    row.mailbox = ("tenant-a", "a@x") ∧
      Profiled sampleResolver firstEvents row.tenantId row.emailAddress := by
  have hrow : ∃ row ∈ firstConnected.world.db.accounts.rows, row.mailbox = ("tenant-a", "a@x") := by
    decide +kernel
  obtain ⟨row, hrow, hmailbox⟩ := hrow
  have hresolver : ∀ e ∈ firstEvents,
      e.env.env.resolve = sampleResolver.fetchProfile e.env.env.graph := by
    apply env_replay (P := fun env : FleetEnv => env.env.resolve =
      sampleResolver.fetchProfile env.env.graph)
    intro x hx
    rcases List.mem_cons.mp hx with rfl | hx
    · rfl
    · obtain ⟨i, _, rfl⟩ := List.mem_map.mp hx
      rfl
  refine ⟨row, hrow, hmailbox, ?_⟩
  rcases accounts_profiled firstEvents_run hresolver hrow with ⟨row', hrow', _⟩ | ⟨_, hprofiled⟩
  · have hnone : firstConsent.world.db.accounts.rows = [] := by decide +kernel
    exact absurd hrow' (hnone ▸ List.not_mem_nil)
  · exact hprofiled

/-- What a code was exchanged for at a step, and by whom. -/
def exchangedAt : FleetEvent α → Option (ℕ × TokenResponse)
  | ⟨_, i, _, .token (.exchangeCode _ _), .ok response, _⟩ => some (i, response)
  | _ => none

/-- For whom a token was stored at a step, and by whom. -/
def storedFor : FleetEvent α → Option (ℕ × String)
  | ⟨_, i, _, .tokensUpsert id _, .ok _, _⟩ => some (i, id)
  | _ => none

theorem consented_of_mem {es : List (FleetEvent α)} {i : ℕ} {id refreshToken : String}
    {response : TokenResponse} (hexchanged : (i, response) ∈ es.filterMap exchangedAt)
    (hstored : (i, id) ∈ es.filterMap storedFor) (hrefresh : response.refreshToken = some refreshToken) :
    Consented es id response refreshToken := by
  obtain ⟨e, he, hat⟩ := List.mem_filterMap.mp hexchanged
  obtain ⟨e', he', hfor⟩ := List.mem_filterMap.mp hstored
  unfold exchangedAt at hat
  unfold storedFor at hfor
  split at hat
  · split at hfor
    · cases hat
      cases hfor
      exact ⟨_, he, _, he', rfl, ⟨⟨_, _, rfl⟩, hrefresh⟩, _, rfl⟩
    · cases hfor
  · cases hat

end UniMail
