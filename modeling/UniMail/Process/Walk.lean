import UniMail.Process.Tasks

/-!
# A protocol for every task

Every task is built of a few pieces: queries, token refreshes, access tokens, mail requests and
completed flows. `TaskRules` lists what a monitor has to say about each piece; `follows_task` walks
through all the handlers, tools and commands once and for all.
-/

namespace UniMail

open Interaction

variable {G α β : Type} {M : Monitor AppSig G} {Base : G → Prop} {g : G}

/-! ### Calls that keep a condition -/

/-- The call follows the protocol and leaves the condition as it found it. -/
abbrev Stays (M : Monitor AppSig G) (Base : G → Prop) (g : G) (p : Prog AppSig α) : Prop :=
  Follows M (fun g _ => Base g) g p

/-- The call does so, and its result can be used further on. -/
abbrev Yields (M : Monitor AppSig G) (Base : G → Prop) (P : G → α → Prop) (g : G)
    (p : Prog AppSig (Outcome α)) : Prop :=
  Follows M (fun g r => Base g ∧ ∀ a, r = .ok a → P g a) g p

theorem stays_op_bind {o : Op} {f : o.Reply → Async β} (ho : M.SilentAt g o)
    (hf : ∀ r, Stays M Base g (f r).run) : Stays M Base g (op o >>= f).run :=
  follows_op_silent ho fun r _ => hf r

theorem stays_check (hg : Base g) (r : Result α) : Stays M Base g (check r).run :=
  follows_check (fun _ _ => hg) fun _ _ => hg

theorem stays_check_bind {r : Result α} {f : α → Async β} (hg : Base g)
    (hf : ∀ a, Stays M Base g (f a).run) : Stays M Base g (check r >>= f).run :=
  follows_check_bind (fun a _ => hf a) fun _ _ => hg

theorem stays_orPanic_bind {msg : String} {a? : Option α} {f : α → Async β} (hg : Base g)
    (hf : ∀ a, Stays M Base g (f a).run) : Stays M Base g (orPanic msg a? >>= f).run :=
  follows_orPanic_bind (fun a _ => hf a) hg

theorem stays_yields_bind {P : G → α → Prop} {x : Async α} {f : α → Async β}
    (hx : Yields M Base P g x.run) (hf : ∀ a g, Base g → P g a → Stays M Base g (f a).run) :
    Stays M Base g (x >>= f).run := by
  refine (follows_run_bind _ _ _).mpr (follows_mono (fun g r h => ?_) hx)
  obtain ⟨hg, hP⟩ := h
  cases r with
  | ok a => exact hf a g hg (hP a rfl)
  | error e => exact hg

theorem stays_bind {x : Async α} {f : α → Async β} (hx : Stays M Base g x.run)
    (hf : ∀ a g, Base g → Stays M Base g (f a).run) : Stays M Base g (x >>= f).run := by
  refine (follows_run_bind _ _ _).mpr (follows_mono (fun g r hg => ?_) hx)
  cases r with
  | ok a => exact hf a g hg
  | error e => exact hg

theorem stays_map {p : Prog AppSig α} (f : α → β) (hp : Stays M Base g p) :
    Stays M Base g (p.map f) :=
  (follows_bind _ _ _).mpr hp

theorem stays_outcome {x : Async α} (hx : Stays M Base g x.run) :
    Stays M Base g (outcome x).run := by
  refine (follows_bind _ _ _).mpr (follows_mono (fun g r hg => ?_) hx)
  rcases r with (e | msg) | a <;> exact hg

/-- A callback fails, or completes the flow of its parameters. -/
theorem follows_completeCallback {Q : G → Outcome Account → Prop} {oauth : OAuthClient}
    {params : CallbackParams} (herror : ∀ e, Q g (.error e))
    (hflow : ∀ code state, Follows M Q g (TokenManager.completeFlow oauth code state).run) :
    Follows M Q g (completeCallback oauth params).run := by
  unfold completeCallback
  split
  · exact herror _
  · split
    · exact hflow _ _
    · exact herror _

/-! ### The pieces -/

/-- The operations of a task that are about no account in particular, or write no token. -/
def Op.plain : Op → Bool
  | .accountsList _ => true
  | .accountsListAll => true
  | .accountsSetStatus _ _ _ => true
  | .accountsDelete _ _ => true
  | .tokensDelete _ => true
  | .tokensListInactive _ => true
  | .flowsInsert _ _ _ => true
  | .utcNow => true
  | .newPkce => true
  | .newCsrf => true
  | _ => false

/-- `Base` holds between the pieces of a task, `Usable g id t` says that the call may send `t` for the
account `id`, `Named` which accounts the task may look up, and `Subject` which ones it may go on with. -/
structure TaskRules (M : Monitor AppSig G) (Base : G → Prop) (Usable : G → String → String → Prop)
    (Named Subject : Account → Prop) : Prop where
  plain : ∀ o : Op, o.plain = true → ∀ g, Base g → M.SilentAt g o
  lookup : ∀ g tenantId id, Base g →
    (∀ account : Account, account.tenantId = tenantId → account.id = id → Named account) →
    M.allows g (.accountsGet tenantId id) ∧ ∀ r, M.expects g (.accountsGet tenantId id) r →
      Base (M.next g (.accountsGet tenantId id) r) ∧ ∀ account, r = .ok account → Subject account
  lookupEmail : ∀ g tenantId email, Base g →
    (∀ account : Account, account.tenantId = tenantId →
      sqliteLower account.emailAddress = sqliteLower email → Named account) →
    M.allows g (.accountsGetByEmail tenantId email) ∧
    ∀ r, M.expects g (.accountsGetByEmail tenantId email) r →
      Base (M.next g (.accountsGetByEmail tenantId email) r) ∧
      ∀ account, r = .ok account → Subject account
  refresh : ∀ oauth id g, Base g → Stays M Base g (TokenManager.refreshAccount oauth id).run
  access : ∀ oauth id g, Base g →
    Yields M Base (fun g t => Usable g id t) g (TokenManager.getAccessToken oauth id).run
  mail : ∀ g account request, Base g → Subject account →
    Usable g account.id request.bearer → M.SilentAt g (.graph request)

/-- The account goes by the name, as its id or its email address. -/
def Account.GoesBy (account : Account) (name : String) : Prop :=
  account.id = name ∨ sqliteLower account.emailAddress = sqliteLower name

/-- The task names the account: by its id or email address within a tenant, or it was given it. -/
def Task.Names (server : MailServer) : Task → Account → Prop
  | .request tenantId call, account =>
    account.tenantId = tenantId ∧ call.accountId = some account.id
  | .tool call, account =>
    account.tenantId = server.defaultTenantId ∧ ∃ name, call.account? = some name ∧ account.GoesBy name
  | .fetch _ fetched, account => account = fetched
  | .removeAccount tenant name, account =>
    account.tenantId = Cli.tenantId server.defaultTenantId tenant ∧ account.GoesBy name
  | _, _ => False

/-- The tools and the command line look an account up in the same way. -/
theorem resolveAccount_eq (server : MailServer) (name : String) :
    server.resolveAccount name = Cli.resolve server.defaultTenantId name := by
  unfold MailServer.resolveAccount Cli.resolve
  refine congrArg (op (.accountsGet server.defaultTenantId name) >>= ·) ?_
  funext r
  cases r <;> rfl

/-! ### The walk -/

namespace TaskRules

variable {Usable : G → String → String → Prop} {Named Subject : Account → Prop}
  (rules : TaskRules M Base Usable Named Subject) {graph : MicrosoftGraph} {oauth : OAuthClient}
  {server : MailServer} {account : Account}
include rules

theorem op_bind {o : Op} {f : o.Reply → Async β} (ho : o.plain = true) (hg : Base g)
    (hf : ∀ r, Stays M Base g (f r).run) : Stays M Base g (op o >>= f).run :=
  stays_op_bind (rules.plain o ho g hg) hf

/-- One statement and its result. -/
theorem op_check {o : Op} {f : o.Reply → Result α} (ho : o.plain = true) (hg : Base g) :
    Stays M Base g (op o >>= fun r => check (f r)).run :=
  rules.op_bind ho hg fun _ => stays_check hg _

section Mail

theorem send {method : Method} {url bearer : String} {body : Option Json} (hg : Base g)
    (hsubject : Subject account) (hbearer : Usable g account.id bearer) :
    Stays M Base g (MicrosoftGraph.send method url bearer body).run := by
  unfold MicrosoftGraph.send
  exact stays_op_bind (rules.mail g account _ hg hsubject hbearer) fun _ => stays_check hg _

theorem sendAuthorized {method : Method} {url : String} {body : Option Json} (hg : Base g)
    (hsubject : Subject account) :
    Stays M Base g (graph.sendAuthorized account method url body).run := by
  unfold MicrosoftGraph.sendAuthorized
  refine stays_yields_bind (rules.access _ _ g hg) fun token g hg htoken => ?_
  refine stays_bind (rules.send hg hsubject htoken) fun response g hg => ?_
  split
  · refine stays_bind (rules.refresh _ _ g hg) fun _ g hg => ?_
    exact stays_yields_bind (rules.access _ _ g hg) fun _ _ hg htoken => rules.send hg hsubject htoken
  · exact hg

theorem getJson {url : String} (hg : Base g) (hsubject : Subject account) :
    Stays M Base g (graph.getJson account url).run := by
  unfold MicrosoftGraph.getJson
  exact stays_bind (rules.sendAuthorized hg hsubject) fun _ _ hg => stays_check hg _

theorem listMessages {limit : Nat} {query : Option String} (hg : Base g)
    (hsubject : Subject account) :
    Stays M Base g (graph.listMessages account limit query).run := by
  unfold MicrosoftGraph.listMessages
  exact stays_check_bind hg fun _ => stays_bind (rules.getJson hg hsubject) fun _ _ hg => hg

theorem getMessage {messageId : String} (hg : Base g) (hsubject : Subject account) :
    Stays M Base g (graph.getMessage account messageId).run := by
  unfold MicrosoftGraph.getMessage
  refine stays_check_bind hg fun _ => stays_bind (rules.getJson hg hsubject) fun json g hg => ?_
  split <;> exact hg

theorem sendMessage {recipient subject body : String} (hg : Base g) (hsubject : Subject account) :
    Stays M Base g (graph.sendMessage account recipient subject body).run := by
  unfold MicrosoftGraph.sendMessage
  refine stays_check_bind hg fun _ =>
    stays_bind (rules.sendAuthorized hg hsubject) fun response g hg => ?_
  split <;> exact hg

theorem fetch {limit : Nat} (hg : Base g) (hsubject : Subject account) :
    Stays M Base g (UniMail.fetch graph limit account).run := by
  unfold UniMail.fetch
  exact stays_bind (stays_outcome (rules.listMessages hg hsubject)) fun _ _ hg => hg

/-- A handler that looks up its account by the id. -/
theorem lookup_bind {tenantId id : String} {f : Account → Async α} (hg : Base g)
    (hnamed : ∀ account : Account, account.tenantId = tenantId → account.id = id → Named account)
    (hf : ∀ account g, Base g → Subject account → Stays M Base g (f account).run) :
    Stays M Base g (op (.accountsGet tenantId id) >>= fun r => check r >>= f).run := by
  obtain ⟨hallows, hnext⟩ := rules.lookup g tenantId id hg hnamed
  refine follows_op hallows fun r hr => ?_
  obtain ⟨hg', hfound⟩ := hnext r hr
  exact follows_check_bind (fun account hok => hf account _ hg' (hfound account hok)) fun _ _ => hg'

/-- The account is looked up by its id, and where that fails by its email address. -/
theorem resolve {tenantId name : String} (hg : Base g)
    (hnamed : ∀ account : Account, account.tenantId = tenantId → account.GoesBy name →
      Named account) :
    Yields M Base (fun _ account => Subject account) g (Cli.resolve tenantId name).run := by
  obtain ⟨hallows, hnext⟩ :=
    rules.lookup g tenantId name hg fun account htenant hid => hnamed account htenant (Or.inl hid)
  unfold Cli.resolve
  refine follows_op hallows fun r hr => ?_
  obtain ⟨hg', hfound⟩ := hnext r hr
  cases r with
  | ok found =>
    refine ⟨hg', fun account hok => ?_⟩
    cases hok
    exact hfound _ rfl
  | error e =>
    obtain ⟨hallows, hnext⟩ := rules.lookupEmail _ tenantId name hg' fun account htenant hemail =>
      hnamed account htenant (Or.inr hemail)
    refine follows_op hallows fun r hr => ?_
    obtain ⟨hg', hfound⟩ := hnext r hr
    refine follows_check (fun account hok => ⟨hg', fun account' hok' => ?_⟩) fun _ _ =>
      ⟨hg', fun _ h => by simp at h⟩
    cases hok'
    exact hfound account hok

end Mail

section Batches

theorem refreshEach (accounts : List Account) (hg : Base g) :
    Stays M Base g (TokenManager.refreshEach oauth accounts).run := by
  induction accounts generalizing g with
  | nil => exact hg
  | cons account accounts ih =>
    unfold TokenManager.refreshEach
    split
    · exact ih hg
    · refine stays_bind (stays_outcome (rules.refresh _ _ g hg)) fun _ g hg => ?_
      exact stays_bind (ih hg) fun _ _ hg => hg

theorem refreshAll (hg : Base g) : Stays M Base g (TokenManager.refreshAll oauth).run := by
  unfold TokenManager.refreshAll
  refine rules.op_bind rfl hg fun r => ?_
  cases r with
  | error e => exact hg
  | ok accounts => exact rules.refreshEach accounts hg

theorem refreshIds (ids : List String) (hg : Base g) :
    Stays M Base g (TokenManager.refreshIds oauth ids).run := by
  induction ids generalizing g with
  | nil => exact hg
  | cons id ids ih =>
    unfold TokenManager.refreshIds
    refine stays_bind (stays_outcome (rules.refresh _ _ g hg)) fun _ g hg => ?_
    exact stays_bind (ih hg) fun _ _ hg => hg

theorem refreshStale {inactivityDays : Int} (hg : Base g) :
    Stays M Base g (TokenManager.refreshStale oauth inactivityDays).run := by
  unfold TokenManager.refreshStale
  refine rules.op_bind rfl hg fun now => stays_orPanic_bind hg fun span =>
    stays_orPanic_bind hg fun cutoff => rules.op_bind rfl hg fun r => ?_
  cases r with
  | error e => exact hg
  | ok ids => exact rules.refreshIds ids hg

theorem refreshLoop (inactivityDays : Int) (rounds : Nat) (hg : Base g) :
    Stays M Base g (Cli.refreshLoop oauth inactivityDays rounds).run := by
  induction rounds generalizing g with
  | zero => exact hg
  | succ rounds ih =>
    unfold Cli.refreshLoop
    refine stays_bind (rules.refreshStale hg) fun _ g hg => ?_
    exact stays_bind (ih hg) fun _ _ hg => hg

theorem beginFlow {tenantId : String} (hg : Base g) :
    Stays M Base g (TokenManager.beginFlow oauth tenantId).run := by
  unfold TokenManager.beginFlow OAuthClient.authorizeUrl
  refine stays_bind (rules.op_bind rfl hg fun _ => ?_) fun _ _ hg => rules.op_bind rfl hg fun _ => hg
  exact stays_check_bind hg fun _ => rules.op_bind rfl hg fun _ => hg

theorem disconnect (hg : Base g) : Stays M Base g (TokenManager.disconnect account).run := by
  unfold TokenManager.disconnect
  exact rules.op_bind rfl hg fun _ => stays_check_bind hg fun _ => rules.op_check rfl hg

end Batches

theorem request {tenantId : String} (call : ApiRequest) (hg : Base g)
    (hnamed : ∀ account, (Task.request tenantId call).Names server account → Named account) :
    Stays M Base g ((call.prog server.graph tenantId).getD (Task.inboxRequest tenantId)) := by
  have hsought : ∀ id, call.accountId = some id → ∀ account : Account,
      account.tenantId = tenantId → account.id = id → Named account := by
    rintro id hid account htenant rfl
    exact hnamed account ⟨htenant, hid⟩
  cases call with
  | listAccounts => exact stays_map _ (rules.op_check rfl hg)
  | unifiedInbox query => exact stays_map _ (rules.op_check rfl hg)
  | disconnectAccount id =>
    exact stays_map _ (rules.lookup_bind hg (hsought id rfl) fun _ _ hg _ => rules.disconnect hg)
  | listEmails id query =>
    exact stays_map _ (rules.lookup_bind hg (hsought id rfl) fun _ _ => rules.listMessages)
  | getEmail id messageId =>
    exact stays_map _ (rules.lookup_bind hg (hsought id rfl) fun _ _ => rules.getMessage)
  | sendEmail id body =>
    exact stays_map _ (rules.lookup_bind hg (hsought id rfl) fun _ _ => rules.sendMessage)

theorem tool (call : Mcp.Tool) (hg : Base g)
    (hnamed : ∀ account, (Task.tool call).Names server account → Named account) :
    Stays M Base g ((call.prog server).getD (Task.inboxTool server)) := by
  have hresolve : ∀ name, call.account? = some name →
      Yields M Base (fun _ account => Subject account) g (server.resolveAccount name).run := by
    intro name hname
    rw [resolveAccount_eq]
    exact rules.resolve hg fun account htenant hgoes => hnamed account ⟨htenant, name, hname, hgoes⟩
  cases call with
  | listAccounts => exact stays_map _ (rules.op_check rfl hg)
  | unifiedInbox params => exact stays_map _ (rules.op_check rfl hg)
  | listEmails params =>
    exact stays_map _ (stays_yields_bind (hresolve _ rfl) fun _ _ => rules.listMessages)
  | searchEmails params =>
    exact stays_map _ (stays_yields_bind (hresolve _ rfl) fun _ _ => rules.listMessages)
  | readEmail params =>
    exact stays_map _ (stays_yields_bind (hresolve _ rfl) fun _ _ => rules.getMessage)
  | sendEmail params =>
    exact stays_map _ (stays_yields_bind (hresolve _ rfl) fun _ _ => rules.sendMessage)

/-- **Every task follows a protocol that its pieces follow**; a callback may end otherwise than it
began. -/
theorem follows_task {task : Task} {End : G → Prop} (hg : Base g)
    (hnamed : ∀ account, task.Names server account → Named account)
    (hgiven : ∀ limit account, task = .fetch limit account → Subject account)
    (hend : ∀ g, Base g → End g)
    (hcallback : ∀ params, task = .callback params →
      Stays M End g (completeCallback server.graph.tokens params).run) :
    Stays M End g (task.prog server) := by
  have hbase : ∀ {p : Prog AppSig TaskReturn}, Stays M Base g p → Stays M End g p :=
    fun h => follows_mono (fun g _ => hend g) h
  cases task with
  | request tenantId call => exact hbase (stays_map _ (rules.request call hg hnamed))
  | connect tenantId => exact hbase (stays_map _ (rules.beginFlow hg))
  | callback params => exact stays_map _ (hcallback params rfl)
  | tool call => exact hbase (stays_map _ (rules.tool call hg hnamed))
  | fetch limit account => exact hbase (stays_map _ (rules.fetch hg (hgiven limit account rfl)))
  | refreshLoop inactivityDays rounds =>
    exact hbase (stays_map _ (rules.refreshLoop inactivityDays rounds hg))
  | refreshAll =>
    exact hbase (stays_map _ (stays_bind (rules.refreshAll hg) fun _ _ hg => hg))
  | listAccounts tenant =>
    refine hbase (stays_map _ (rules.op_bind rfl hg fun _ => stays_check_bind hg fun accounts => ?_))
    split <;> exact hg
  | removeAccount tenant name =>
    refine hbase (stays_map _ (stays_yields_bind (rules.resolve hg fun account htenant hgoes =>
      hnamed account ⟨htenant, hgoes⟩) fun _ _ hg _ => ?_))
    exact rules.op_bind rfl hg fun _ => stays_check_bind hg fun _ => hg

end TaskRules

end UniMail
