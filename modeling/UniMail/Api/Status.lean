import UniMail.Api.Routes
import UniMail.Auth.Callback

/-!
# Account status and token presence

The operations on accounts, run one at a time from the empty database (`Reached`). The status of an
account is in one table and its token in another, and `status_agrees` shows that an account is active
exactly when it has a token, in every state reached without a re-consent to a disconnected account.
Such a re-consent stores the token and leaves the status: `reconsent_stays_disconnected`.

Between two operations of a call the tables may disagree about one account; the ghost state of the
call (`Phase`) says about which, and `StatusInv` what holds there.
-/

namespace UniMail

open Interaction Relational

/-! ### Commands -/

/-- What users and timers do. -/
inductive Command
  | beginFlow (tenantId : String)
  | completeFlow (code state : String)
  | disconnectAccount (tenantId id : String)
  | refreshAccount (accountId : String)
  | getAccessToken (accountId : String)
  | refreshAll
  | refreshStale (inactivityDays : Int)
  | removeAccount (tenantId account : String)

/-- The CLI command that deletes an account, by its id or its email address. -/
def Cli.removeAccount (tenantId account : String) : Async Unit := do
  match ← op (.accountsGet tenantId account) with
  | .ok resolved =>
    let _ ← check (← op (.accountsDelete tenantId resolved.id))
  | .error _ =>
    let resolved ← check (← op (.accountsGetByEmail tenantId account))
    let _ ← check (← op (.accountsDelete tenantId resolved.id))

/-- The program of a command, without what it prints. -/
def Command.prog (oauth : OAuthClient) : Command → Prog AppSig (Outcome Unit)
  | .beginFlow tenantId => ExceptT.run do let _ ← TokenManager.beginFlow oauth tenantId
  | .completeFlow code state => ExceptT.run do let _ ← TokenManager.completeFlow oauth code state
  | .disconnectAccount tenantId id => (Routes.disconnectAccount tenantId id).run
  | .refreshAccount accountId => (TokenManager.refreshAccount oauth accountId).run
  | .getAccessToken accountId => ExceptT.run do let _ ← TokenManager.getAccessToken oauth accountId
  | .refreshAll => ExceptT.run do let _ ← TokenManager.refreshAll oauth
  | .refreshStale inactivityDays =>
    ExceptT.run do let _ ← TokenManager.refreshStale oauth inactivityDays
  | .removeAccount tenantId account => (Cli.removeAccount tenantId account).run

/-! ### Status and token -/

/-- The account, if there is one, is active exactly when it has a token. -/
def AgreesAt (db : Db) (id : String) : Prop :=
  ∀ r, db.accounts.find id = some r → (r.toAccount.status = .active ↔ db.tokens.find id ≠ none)

variable {aead : Aead} {chrono : Chrono} {key : Key} {oauth : OAuthClient} {db db' : Db}

theorem AgreesAt.congr {id : String} (h : AgreesAt db id)
    (ha : db'.accounts.find id = db.accounts.find id)
    (ht : db'.tokens.find id = db.tokens.find id) : AgreesAt db' id := by
  intro r hr
  rw [ht]
  exact h r (ha.symm.trans hr)

/-- How far a call is: it has seen the token of an account, found an account, drawn an id, created an
account without a token, or dropped the token of an active account. -/
inductive Phase
  | idle
  | seen (id : String)
  | found (account : Account)
  | fresh (id : String)
  | created (id : String)
  | dropped (account : Account)

namespace Phase

/-- The tables agree. -/
def Settled : Phase → Prop
  | .created _ => False
  | .dropped _ => False
  | _ => True

def next (g : Phase) : (o : Op) → Op.Reply o → Phase
  | .tokensGet id, .ok (some _) => .seen id
  | .tokensGet _, _ => .idle
  | .tokensUpsert _ _, _ => .idle
  | .accountsGetByEmail _ _, .ok account => .found account
  | .accountsGet _ _, .ok account => match g with
    | .idle => .found account
    | g => g
  | .newUuid, id => .fresh id
  | .accountsCreate account, .ok _ => .created account.id
  | .accountsCreate _, .error _ => .idle
  | .tokensDelete _, .ok _ => match g with
    | .found account => .dropped account
    | g => g
  | .accountsSetStatus _ _ _, .ok _ => .idle
  | .accountsDelete _ _, _ => .idle
  | _, _ => g

end Phase

/-- What a call may do to the two tables; `consent` says that it is a `complete_flow`. -/
def statusMonitor (consent : Prop) : Monitor AppSig Phase where
  allows g o := match o with
    | .tokensGet _ => g.Settled
    | .tokensUpsert id _ => g = .seen id ∨ g = .created id ∨
        ∃ account : Account, g = .found account ∧ account.status = .active ∧ account.id = id
    | .tokensDelete id => ∃ account : Account, g = .found account ∧ account.id = id
    | .accountsGet tenantId id => g = .idle ∨ g = .fresh id ∨
        ∃ account : Account, g = .found account ∧ account.tenantId = tenantId ∧ account.id = id
    | .accountsGetByEmail _ _ => g = .idle
    | .accountsCreate account => g = .fresh account.id ∧ account.status = .active
    | .accountsSetStatus tenantId id status => status = .disconnected ∧
        ∃ account : Account, g = .dropped account ∧ account.tenantId = tenantId ∧ account.id = id
    | .accountsDelete _ _ => g.Settled
    | .newUuid => g = .idle
    | _ => True
  expects g o r := match o, r with
    | .accountsGetByEmail tenantId _, .ok account =>
      consent → account.status = .active ∧ account.tenantId = tenantId
    | .accountsGet _ _, .ok _ => ∀ id, g ≠ .fresh id
    | .accountsGet _ _, .error _ => ∀ account, g ≠ .found account
    | .tokensUpsert _ _, .error _ => g.Settled
    | .tokensDelete _, .error _ => False
    | .accountsSetStatus _ _ _, .error _ => False
    | _, _ => True
  next := Phase.next

/-! ### The commands follow the protocol -/

section Protocol

variable {consent : Prop} {α : Type}

/-- The call leaves the tables in agreement. -/
abbrev Settles (consent : Prop) (g : Phase) (p : Prog AppSig α) : Prop :=
  Follows (statusMonitor consent) (fun g _ => g.Settled) g p

/-- A phase in which the call knows of no account but one with a token. -/
def Phase.Base : Phase → Prop
  | .idle => True
  | .seen _ => True
  | _ => False

theorem Phase.Base.settled {g : Phase} (h : g.Base) : g.Settled := by
  cases g <;> trivial

theorem statusMonitor_rules (consent : Prop) (id : String) :
    TokenRules (statusMonitor consent) id Phase.Base fun g _ => g = .seen id where
  clock _ := ⟨trivial, fun _ => rfl⟩
  lock o ho _ _ := by
    simp only [List.mem_cons, List.not_mem_nil, or_false] at ho
    rcases ho with rfl | rfl | rfl <;> exact ⟨trivial, fun _ => rfl⟩
  base _ _ h := by
    subst h
    trivial
  get _ h := h.settled
  got g r _ := by
    cases r with
    | error e => trivial
    | ok token => cases token <;> trivial
  read _ _ _ := rfl
  present _ _ _ := trivial
  denied _ _ _ h := by
    subst h
    trivial
  granted _ _ _ h := h
  write _ _ h := Or.inl h
  wrote _ _ _ _ := trivial

theorem statusMonitor_flowRules : FlowRules (statusMonitor True) fun g stage => match stage with
    | .chosen flow _ account => g = .fresh account.id ∧ account.status = .active ∨
        ∃ existing : Account, g = .found existing ∧ existing.status = .active ∧
          existing.tenantId = flow.tenantId ∧ existing.id = account.id
    | .missing _ _ account => g = .fresh account.id ∧ account.status = .active
    | .present _ _ account => g = .created account.id ∨
        ∃ existing : Account, g = .found existing ∧ existing.status = .active ∧
          existing.id = account.id
    | .failed => g.Settled
    | _ => g = .idle where
  clock := ⟨fun _ => ⟨trivial, fun _ => rfl⟩, fun _ => ⟨trivial, fun _ => rfl⟩⟩
  resolve _ _ := ⟨trivial, fun _ => rfl⟩
  stop _ _ _ h := by
    subst h
    trivial
  untaken _ _ h := by
    subst h
    trivial
  take _ _ h := by
    subst h
    refine ⟨trivial, fun r _ => ?_⟩
    cases r <;> trivial
  exchange g flow code h := by
    subst h
    exact ⟨trivial, fun r _ => ⟨trivial, fun _ _ _ _ => rfl⟩⟩
  lookup g flow rt email h := by
    subst h
    refine ⟨rfl, fun r hr => ?_⟩
    cases r with
    | error e => rfl
    | ok existing =>
      obtain ⟨hactive, htenant⟩ := hr trivial
      exact fun _ _ => Or.inr ⟨existing, rfl, hactive, htenant, rfl⟩
  draw g flow rt h := by
    subst h
    refine ⟨rfl, fun id _ account hid _ hactive => Or.inl ⟨?_, hactive⟩⟩
    exact congrArg Phase.fresh hid.symm
  ensure g flow rt account h := by
    rcases h with ⟨rfl, hactive⟩ | ⟨existing, rfl, hactive, htenant, hid⟩
    · refine ⟨Or.inr (Or.inl rfl), fun r hr => ?_⟩
      cases r with
      | ok _ => exact absurd rfl (hr _)
      | error e => exact ⟨rfl, hactive⟩
    · refine ⟨Or.inr (Or.inr ⟨existing, rfl, htenant, hid⟩), fun r hr => ?_⟩
      cases r with
      | ok _ => exact Or.inr ⟨existing, rfl, hactive, hid⟩
      | error e => exact absurd rfl (hr _)
  create g flow rt account h := by
    refine ⟨h, fun r _ => ?_⟩
    cases r with
    | ok _ => exact Or.inl rfl
    | error e => trivial
  store g flow account token h := by
    refine ⟨Or.inr h, fun r _ => ?_⟩
    cases r <;> trivial

variable {g : Phase}

theorem settles_beginFlow {tenantId : String} (hg : g.Settled) :
    Settles consent g (TokenManager.beginFlow oauth tenantId).run := by
  unfold TokenManager.beginFlow OAuthClient.authorizeUrl
  refine (follows_run_bind _ _ _).mpr (follows_op_silent ⟨trivial, fun _ => rfl⟩ fun _ _ => ?_)
  refine follows_check_bind (fun _ _ => ?_) fun _ _ => hg
  refine follows_op_silent ⟨trivial, fun _ => rfl⟩ fun _ _ => ?_
  exact follows_op_silent ⟨trivial, fun _ => rfl⟩ fun _ _ => hg

theorem settles_completeFlow {code state : String} :
    Settles True .idle (TokenManager.completeFlow oauth code state).run := by
  refine follows_mono ?_ (statusMonitor_flowRules.follows_completeFlow rfl)
  intro g r hr
  cases r with
  | error e => exact hr
  | ok account =>
    obtain ⟨flow, rfl⟩ := hr
    trivial

theorem settles_disconnectAccount {tenantId id : String} :
    Settles consent .idle (Routes.disconnectAccount tenantId id).run := by
  unfold Routes.disconnectAccount TokenManager.disconnect
  apply follows_op (Or.inl rfl)
  intro r _
  cases r with
  | error e => trivial
  | ok account =>
    refine follows_check_ok rfl (follows_op ⟨account, rfl, rfl⟩ fun r hr => ?_)
    cases r with
    | error e => exact hr.elim
    | ok _ =>
      refine follows_check_ok rfl (follows_op ⟨rfl, account, rfl, rfl, rfl⟩ fun r hr => ?_)
      cases r with
      | error e => exact hr.elim
      | ok _ => trivial

/-- The result of the refresh of one account does not matter to the batch. -/
theorem settles_outcome {α β : Type} {x : Async α} {f : Result α → Async β} (hg : g.Base)
    (hx : ∀ {g : Phase}, g.Base → Follows (statusMonitor consent) (fun g _ => g.Base) g x.run)
    (hf : ∀ {g : Phase} r, g.Base → Follows (statusMonitor consent) (fun g _ => g.Base) g (f r).run) :
    Follows (statusMonitor consent) (fun g _ => g.Base) g (outcome x >>= f).run := by
  refine (follows_run_bind _ _ _).mpr ((follows_bind _ _ _).mpr (follows_mono ?_ (hx hg)))
  intro g r hg
  cases r with
  | ok a => exact hf _ hg
  | error e =>
    cases e with
    | err e => exact hf _ hg
    | panic msg => exact hg

theorem settles_refreshEach {accounts : List Account} (hg : g.Base) :
    Follows (statusMonitor consent) (fun g _ => g.Base) g
      (TokenManager.refreshEach oauth accounts).run := by
  induction accounts generalizing g with
  | nil => exact hg
  | cons account accounts ih =>
    unfold TokenManager.refreshEach
    split
    · exact ih hg
    · refine settles_outcome hg
        (fun hg => (statusMonitor_rules consent account.id).follows_refreshAccount hg) fun r hg => ?_
      refine (follows_run_bind _ _ _).mpr (follows_mono ?_ (ih hg))
      intro g r hg
      cases r <;> exact hg

theorem settles_refreshAll (hg : g.Base) :
    Follows (statusMonitor consent) (fun g _ => g.Base) g (TokenManager.refreshAll oauth).run := by
  unfold TokenManager.refreshAll
  refine follows_op_silent ⟨trivial, fun _ => rfl⟩ fun r _ => ?_
  cases r with
  | error e => exact hg
  | ok accounts => exact settles_refreshEach hg

theorem settles_refreshIds {ids : List String} (hg : g.Base) :
    Follows (statusMonitor consent) (fun g _ => g.Base) g
      (TokenManager.refreshIds oauth ids).run := by
  induction ids generalizing g with
  | nil => exact hg
  | cons id ids ih =>
    unfold TokenManager.refreshIds
    refine settles_outcome hg
      (fun hg => (statusMonitor_rules consent id).follows_refreshAccount hg) fun r hg => ?_
    refine (follows_run_bind _ _ _).mpr (follows_mono ?_ (ih hg))
    intro g r hg
    cases r <;> exact hg

theorem settles_refreshStale {inactivityDays : Int} (hg : g.Base) :
    Follows (statusMonitor consent) (fun g _ => g.Base) g
      (TokenManager.refreshStale oauth inactivityDays).run := by
  unfold TokenManager.refreshStale
  refine follows_op_silent ⟨trivial, fun _ => rfl⟩ fun now _ => ?_
  refine follows_orPanic_bind (fun span _ => ?_) hg
  refine follows_orPanic_bind (fun cutoff _ => ?_) hg
  refine follows_op_silent ⟨trivial, fun _ => rfl⟩ fun r _ => ?_
  cases r with
  | error e => exact hg
  | ok ids => exact settles_refreshIds hg

theorem settles_removeAccount {tenantId account : String} :
    Settles consent .idle (Cli.removeAccount tenantId account).run := by
  have hdelete : ∀ {g : Phase} {id : String}, g.Settled → Settles consent g (ExceptT.run do
      let _ ← check (← op (.accountsDelete tenantId id))) := by
    intro g id hg
    refine follows_op hg fun r _ => follows_check_bind (fun _ _ => trivial) fun _ _ => trivial
  unfold Cli.removeAccount
  apply follows_op (Or.inl rfl)
  intro r _
  cases r with
  | ok resolved => exact hdelete trivial
  | error e =>
    apply follows_op rfl
    intro r _
    cases r with
    | error e => trivial
    | ok resolved => exact hdelete trivial

/-- Every command leaves the tables in agreement. -/
theorem settles_command (command : Command) :
    Settles (∃ code state, command = .completeFlow code state) .idle (command.prog oauth) := by
  have hdrop : ∀ {consent : Prop} {α : Type} {x : Async α}, Settles consent .idle x.run →
      Settles consent .idle (ExceptT.run do let _ ← x) := by
    intro consent α x hx
    refine (follows_run_bind _ _ _).mpr (follows_mono (fun g r hg => ?_) hx)
    cases r <;> exact hg
  have hsettled : ∀ {consent : Prop} {α : Type} {p : Prog AppSig α},
      Follows (statusMonitor consent) (fun g _ => g.Base) .idle p → Settles consent .idle p :=
    fun hp => follows_mono (fun g _ hg => hg.settled) hp
  cases command with
  | beginFlow tenantId => exact hdrop (settles_beginFlow trivial)
  | completeFlow code state =>
    have htrue : (∃ code' state', Command.completeFlow code state = .completeFlow code' state') =
        True := eq_true ⟨code, state, rfl⟩
    rw [htrue]
    exact hdrop settles_completeFlow
  | disconnectAccount tenantId id => exact settles_disconnectAccount
  | refreshAccount id => exact hsettled ((statusMonitor_rules _ id).follows_refreshAccount trivial)
  | getAccessToken id =>
    exact hdrop (hsettled ((statusMonitor_rules _ id).follows_getAccessToken trivial))
  | refreshAll => exact hdrop (hsettled (settles_refreshAll trivial))
  | refreshStale inactivityDays => exact hdrop (hsettled (settles_refreshStale trivial))
  | removeAccount tenantId account => exact settles_removeAccount

end Protocol

/-! ### One operation -/

/-- What holds of the tables, by how far the call is. -/
def StatusInv : Phase → Db → Prop
  | .idle, db => ∀ id, AgreesAt db id
  | .seen id, db => (∀ x, AgreesAt db x) ∧ db.tokens.find id ≠ none
  | .found account, db => (∀ x, AgreesAt db x) ∧
      ∃ r, db.accounts.find account.id = some r ∧ r.toAccount = account
  | .fresh id, db => (∀ x, AgreesAt db x) ∧ db.accounts.find id = none
  | .created id, db => (∀ x, x ≠ id → AgreesAt db x) ∧
      ∃ r, db.accounts.find id = some r ∧ r.toAccount.status = .active
  | .dropped account, db => (∀ x, x ≠ account.id → AgreesAt db x) ∧
      (∃ r, db.accounts.find account.id = some r ∧ r.toAccount = account) ∧
      db.tokens.find account.id = none

theorem StatusInv.agrees {g : Phase} (h : StatusInv g db) (hg : g.Settled) (id : String) :
    AgreesAt db id := by
  cases g with
  | idle => exact h id
  | seen _ | found _ | fresh _ => exact h.1 id
  | created _ | dropped _ => exact hg.elim

theorem StatusInv.congr {g : Phase} (h : StatusInv g db) (ha : db'.accounts = db.accounts)
    (ht : db'.tokens = db.tokens) : StatusInv g db' := by
  have hagrees : ∀ {id}, AgreesAt db id → AgreesAt db' id := fun h =>
    h.congr (congrArg (Table.find · _) ha) (congrArg (Table.find · _) ht)
  cases g with
  | idle => exact fun id => hagrees (h id)
  | seen id => exact ⟨fun x => hagrees (h.1 x), ht ▸ h.2⟩
  | found account => exact ⟨fun x => hagrees (h.1 x), ha ▸ h.2⟩
  | fresh id => exact ⟨fun x => hagrees (h.1 x), ha ▸ h.2⟩
  | created id => exact ⟨fun x hx => hagrees (h.1 x hx), ha ▸ h.2⟩
  | dropped account => exact ⟨fun x hx => hagrees (h.1 x hx), ha ▸ h.2.1, ht ▸ h.2.2⟩

/-- Storing the token of an active account leaves the tables in agreement. -/
theorem agrees_upsertRow {row : TokenRow} (ha : db.accounts.find row.accountId ≠ none)
    (h : ∀ x, x ≠ row.accountId → AgreesAt db x)
    (hactive : ∀ r, db.accounts.find row.accountId = some r → r.toAccount.status = .active) (x : String) :
    AgreesAt (SqliteTokenStore.upsertRow db row ha) x := by
  have hfind := SqliteTokenStore.find_upsertRow db row ha x
  by_cases hx : x = row.accountId
  · subst hx
    rw [if_pos rfl] at hfind
    intro r hr
    simp [hactive r hr, hfind]
  · rw [if_neg (Ne.symm hx)] at hfind
    exact (h x hx).congr rfl hfind

/-- The account a call may store a token for is active, and the others agree. -/
theorem StatusInv.writable {consent : Prop} {g : Phase} {id : String} {token : StoredToken}
    (h : StatusInv g db) (hallows : (statusMonitor consent).allows g (.tokensUpsert id token)) :
    (∀ x, x ≠ id → AgreesAt db x) ∧ db.accounts.find id ≠ none ∧
      ∀ r, db.accounts.find id = some r → r.toAccount.status = .active := by
  rcases hallows with rfl | rfl | ⟨account, rfl, hactive, rfl⟩
  · obtain ⟨t, ht⟩ := Option.ne_none_iff_exists'.mp h.2
    obtain ⟨a, ha⟩ := Db.account_of_token ht
    exact ⟨fun x _ => h.1 x, by simp [ha], fun r hr => (h.1 id r hr).mpr h.2⟩
  · obtain ⟨r, hr, hactive⟩ := h.2
    refine ⟨h.1, by simp [hr], fun r' hr' => ?_⟩
    cases hr.symm.trans hr'
    exact hactive
  · obtain ⟨r, hr, rfl⟩ := h.2
    refine ⟨fun x _ => h.1 x, fun hnone => absurd (hr.symm.trans hnone) (by simp), fun r' hr' => ?_⟩
    cases hr.symm.trans hr'
    exact hactive

/-- Deleting an account deletes its token. -/
theorem agrees_deleteAccount (h : ∀ id, AgreesAt db id) (tenantId id x : String) :
    AgreesAt (SqliteAccountStore.deleteAccount db tenantId id) x := by
  intro r hr
  have htokens := SqliteAccountStore.find_tokens_deleteAccount db tenantId id x
  rw [hr, Option.isSome_some, if_pos rfl] at htokens
  rw [SqliteAccountStore.find_deleteAccount, Option.filter_eq_some_iff] at hr
  rw [htokens]
  exact h x r hr.1

/-- Marking an account without a token as disconnected leaves the tables in agreement. -/
theorem agrees_updateStatus {account : Account} (now : String)
    (h : StatusInv (.dropped account) db) (x : String) :
    AgreesAt (SqliteAccountStore.updateStatus db account.tenantId account.id .disconnected now) x := by
  obtain ⟨hothers, ⟨row, hrow, rfl⟩, hnone⟩ := h
  by_cases hx : x = row.id
  · subst hx
    intro r hr
    rw [SqliteAccountStore.find_updateStatus] at hr
    have hnone' : (SqliteAccountStore.updateStatus db row.tenantId row.id .disconnected now).tokens.find
        row.id = none := hnone
    obtain ⟨row', hrow', rfl⟩ := Option.map_eq_some_iff.mp hr
    cases hrow.symm.trans hrow'
    simp [AccountRow.toAccount, hnone']
  · exact (hothers x hx).congr
      (SqliteAccountStore.find_updateStatus_ne db _ _ _ hx) rfl

/-- No storage operation fails, and an id that is drawn is new. -/
structure Quiet (l : Label AppSig World Env) : Prop where
  calm : l.env.fault = none
  fresh : l.op = .newUuid → l.world.db.accounts.find l.env.uuid = none

/-- The lookup by email does not find a disconnected account. -/
def FindsActive (l : Label AppSig World Env) : Prop :=
  ∀ tenantId email account, l.op = .accountsGetByEmail tenantId email →
    SqliteAccountStore.getByEmail tenantId email l.world.db = .ok account → account.status = .active

section Step

variable {consent : Prop} {g : Phase} {i : ℕ} {env : Env} {w w₁ : World}

/-- Expected reply and invariant after an operation. -/
abbrev KeepsStatus (consent : Prop) (g : Phase) (o : Op) (r : Op.Reply o) (w₁ : World) : Prop :=
  (statusMonitor consent).expects g o r ∧ StatusInv ((statusMonitor consent).next g o r) w₁.db

theorem keeps_tokensGet {id : String} {r : Result (Option StoredToken)} (h : StatusInv g w.db)
    (hg : g.Settled)
    (hexec : (system aead chrono key).exec i (.tokensGet id) env w = some (r, w₁)) :
    KeepsStatus consent g (.tokensGet id) r w₁ := by
  have hdb := db_frame rfl hexec
  have hagrees : ∀ x, AgreesAt w₁.db x := hdb ▸ h.agrees hg
  cases r with
  | error e => exact ⟨trivial, hagrees⟩
  | ok token =>
    cases token with
    | none => exact ⟨trivial, hagrees⟩
    | some token =>
      obtain ⟨row, hrow, _⟩ := SqliteTokenStore.get_some (tokensGet_some hexec).2
      refine ⟨trivial, hagrees, ?_⟩
      rw [hdb, hrow]
      simp

theorem keeps_tokensUpsert {id : String} {token : StoredToken} {r : Result Unit}
    (hcalm : env.fault = none) (h : StatusInv g w.db)
    (hallows : (statusMonitor consent).allows g (.tokensUpsert id token))
    (hexec : (system aead chrono key).exec i (.tokensUpsert id token) env w = some (r, w₁)) :
    KeepsStatus consent g (.tokensUpsert id token) r w₁ := by
  obtain ⟨hothers, ha, hactive⟩ := h.writable hallows
  obtain ⟨hr, hw⟩ := storage_calm hcalm (Option.some.inj hexec)
  have hupsert : SqliteTokenStore.upsert aead chrono key id token env.nonces w.db =
      (.ok (), SqliteTokenStore.upsertRow w.db (token.toRow aead chrono key id env.nonces) ha) :=
    dif_pos ha
  rw [hupsert] at hr hw
  dsimp only at hr hw
  subst hr hw
  exact ⟨trivial, agrees_upsertRow ha hothers hactive⟩

theorem keeps_tokensDelete {id : String} {r : Result Unit} (hcalm : env.fault = none)
    (h : StatusInv g w.db) (hallows : (statusMonitor consent).allows g (.tokensDelete id))
    (hexec : (system aead chrono key).exec i (.tokensDelete id) env w = some (r, w₁)) :
    KeepsStatus consent g (.tokensDelete id) r w₁ := by
  obtain ⟨account, rfl, rfl⟩ := hallows
  obtain ⟨hr, hw⟩ := storage_calm hcalm (Option.some.inj hexec)
  dsimp only at hr hw
  subst hr hw
  refine ⟨trivial, fun x hx => ?_, h.2, ?_⟩
  · exact (h.1 x).congr rfl
      ((SqliteTokenStore.find_deleteRow _ _ _).trans (if_neg (Ne.symm hx)))
  · exact (SqliteTokenStore.find_deleteRow _ _ _).trans (if_pos rfl)

theorem keeps_accountsGet {tenantId id : String} {r : Result Account} (hcalm : env.fault = none)
    (h : StatusInv g w.db) (hallows : (statusMonitor consent).allows g (.accountsGet tenantId id))
    (hexec : (system aead chrono key).exec i (.accountsGet tenantId id) env w = some (r, w₁)) :
    KeepsStatus consent g (.accountsGet tenantId id) r w₁ := by
  obtain ⟨hr, hw⟩ := storage_calm hcalm (Option.some.inj hexec)
  dsimp only at hr hw
  subst hr hw
  rcases hallows with rfl | rfl | ⟨account, rfl, rfl, rfl⟩
  · cases hget : SqliteAccountStore.get tenantId id w.db with
    | error e => exact ⟨fun _ => by simp, h⟩
    | ok account =>
      obtain ⟨row, hrow, _, rfl⟩ := SqliteAccountStore.get_eq_ok.mp hget
      refine ⟨fun _ => by simp, h, row, ?_, rfl⟩
      obtain ⟨_, rfl⟩ := Table.find_eq_some.mp hrow
      exact hrow
  · rw [SqliteAccountStore.get_eq, h.2]
    exact ⟨fun _ => by simp, h⟩
  · obtain ⟨row, hrow, rfl⟩ := h.2
    have hget : SqliteAccountStore.get row.toAccount.tenantId row.toAccount.id w.db =
        .ok row.toAccount := SqliteAccountStore.get_eq_ok.mpr ⟨row, hrow, rfl, rfl⟩
    rw [hget]
    exact ⟨fun _ => by simp, h⟩

theorem keeps_accountsGetByEmail {tenantId email : String} {r : Result Account}
    (hcalm : env.fault = none) (h : StatusInv g w.db)
    (hallows : (statusMonitor consent).allows g (.accountsGetByEmail tenantId email))
    (hconsent : consent → ∀ account,
      SqliteAccountStore.getByEmail tenantId email w.db = .ok account → account.status = .active)
    (hexec : (system aead chrono key).exec i (.accountsGetByEmail tenantId email) env w =
      some (r, w₁)) :
    KeepsStatus consent g (.accountsGetByEmail tenantId email) r w₁ := by
  obtain rfl : g = .idle := hallows
  obtain ⟨hr, hw⟩ := storage_calm hcalm (Option.some.inj hexec)
  dsimp only at hr hw
  subst hr hw
  cases hget : SqliteAccountStore.getByEmail tenantId email w.db with
  | error e => exact ⟨trivial, h⟩
  | ok account =>
    obtain ⟨row, hrow, htenant, _, rfl⟩ := SqliteAccountStore.getByEmail_ok hget
    exact ⟨fun hc => ⟨hconsent hc _ hget, htenant⟩, h, row, hrow, rfl⟩

theorem keeps_accountsCreate {account : Account} {r : Result Unit} (hcalm : env.fault = none)
    (h : StatusInv g w.db) (hallows : (statusMonitor consent).allows g (.accountsCreate account))
    (hexec : (system aead chrono key).exec i (.accountsCreate account) env w = some (r, w₁)) :
    KeepsStatus consent g (.accountsCreate account) r w₁ := by
  obtain ⟨rfl, hactive⟩ := hallows
  obtain ⟨hr, hw⟩ := storage_calm hcalm (Option.some.inj hexec)
  have hdb : w₁.db = (SqliteAccountStore.create account w.db).2 := congrArg World.db hw
  cases r with
  | error e =>
    have hsame := hdb.trans (SqliteAccountStore.create_error (Prod.ext hr.symm rfl))
    exact ⟨trivial, hsame ▸ h.1⟩
  | ok _ =>
    obtain ⟨hc, hinsert⟩ := SqliteAccountStore.create_ok (Prod.ext hr.symm rfl)
    unfold KeepsStatus
    rw [hdb.trans hinsert]
    refine ⟨trivial, fun x hx => ?_, account.toRow, ?_, by simp [hactive]⟩
    · exact (h.1 x).congr ((SqliteAccountStore.find_insertAccount _ _ hc x).trans
        (if_neg (Ne.symm hx))) rfl
    · exact (SqliteAccountStore.find_insertAccount _ _ hc _).trans (if_pos rfl)

theorem keeps_accountsSetStatus {tenantId id : String} {status : AccountStatus} {r : Result Unit}
    (hcalm : env.fault = none) (h : StatusInv g w.db)
    (hallows : (statusMonitor consent).allows g (.accountsSetStatus tenantId id status))
    (hexec : (system aead chrono key).exec i (.accountsSetStatus tenantId id status) env w =
      some (r, w₁)) :
    KeepsStatus consent g (.accountsSetStatus tenantId id status) r w₁ := by
  obtain ⟨rfl, account, rfl, rfl, rfl⟩ := hallows
  obtain ⟨hr, hw⟩ := storage_calm hcalm (Option.some.inj hexec)
  obtain ⟨row, hrow, rfl⟩ := h.2.1
  have hget : SqliteAccountStore.get row.toAccount.tenantId row.toAccount.id w.db =
      .ok row.toAccount := SqliteAccountStore.get_eq_ok.mpr ⟨row, hrow, rfl, rfl⟩
  rw [SqliteAccountStore.setStatus_eq, hget, if_neg (by simp)] at hr hw
  dsimp only at hr hw
  subst hr hw
  exact ⟨trivial, agrees_updateStatus _ h⟩

theorem keeps_accountsDelete {tenantId id : String} {r : Result Bool} (hcalm : env.fault = none)
    (h : StatusInv g w.db) (hg : g.Settled)
    (hexec : (system aead chrono key).exec i (.accountsDelete tenantId id) env w = some (r, w₁)) :
    KeepsStatus consent g (.accountsDelete tenantId id) r w₁ := by
  obtain ⟨hr, hw⟩ := storage_calm hcalm (Option.some.inj hexec)
  dsimp only at hr hw
  subst hw
  exact ⟨by cases r <;> trivial, agrees_deleteAccount (h.agrees hg) tenantId id⟩

/-- **The step lemma.** -/
theorem keepsStatus {l : Label AppSig World Env} (hquiet : Quiet l)
    (hconsent : consent → FindsActive l) (h : StatusInv g l.world.db)
    (hallows : (statusMonitor consent).allows g l.op)
    (hexec : (system aead chrono key).exec i l.op l.env l.world = some (l.reply, w₁)) :
    KeepsStatus consent g l.op l.reply w₁ := by
  obtain ⟨hcalm, hfresh⟩ := hquiet
  obtain ⟨o, env, w, r⟩ := l
  cases o with
  | tokensGet id => exact keeps_tokensGet h hallows hexec
  | tokensUpsert id token => exact keeps_tokensUpsert hcalm h hallows hexec
  | tokensDelete id => exact keeps_tokensDelete hcalm h hallows hexec
  | accountsGet tenantId id => exact keeps_accountsGet hcalm h hallows hexec
  | accountsGetByEmail tenantId email =>
    exact keeps_accountsGetByEmail hcalm h hallows (fun hc account => hconsent hc _ _ account rfl)
      hexec
  | accountsCreate account => exact keeps_accountsCreate hcalm h hallows hexec
  | accountsSetStatus tenantId id status => exact keeps_accountsSetStatus hcalm h hallows hexec
  | accountsDelete tenantId id => exact keeps_accountsDelete hcalm h hallows hexec
  | newUuid =>
    obtain rfl : g = .idle := hallows
    obtain ⟨hid, hw⟩ := newUuid_eq hexec
    dsimp only at hid hw
    subst hid hw
    exact ⟨trivial, h, hfresh rfl⟩
  | _ =>
    refine ⟨trivial, h.congr (accounts_frame ?_ hexec) (tokens_frame ?_ hexec)⟩ <;> rfl

end Step

/-! ### Runs -/

/-- What is asked of the steps of a command: no faults, new ids, and a re-consent only to an active
account. -/
def Command.Orderly (command : Command) (l : Label AppSig World Env) : Prop :=
  Quiet l ∧ ((∃ code state, command = .completeFlow code state) → FindsActive l)

/-- The worlds that commands reach, one at a time, from the empty database. -/
inductive Reached (m : Machine AppSig World Env) (oauth : OAuthClient)
    (Allowed : Command → Label AppSig World Env → Prop) : World → Prop
  | start : Reached m oauth Allowed ⟨.empty, fun _ => none⟩
  | run {w w' : World} {command : Command} {ls : List (Label AppSig World Env)} {r : Outcome Unit}
      (h : Reached m oauth Allowed w) (hexec : Exec m 0 (command.prog oauth) w ls r w')
      (hls : ∀ l ∈ ls, Allowed command l) : Reached m oauth Allowed w'

theorem agreesAt_reached {w : World}
    (h : Reached (system aead chrono key) oauth Command.Orderly w) : ∀ id, AgreesAt w.db id := by
  induction h with
  | start => exact fun id r hr => by simp [Db.empty] at hr
  | @run w w' command ls r _ hexec hls ih =>
    obtain ⟨g, hinv, hg⟩ := hexec.follows (I := fun g (w : World) => StatusInv g w.db)
      (settles_command command) ih (by
        intro l hl g w₁ hinv hallows hstep
        exact keepsStatus (hls l hl).1 (hls l hl).2 hinv hallows hstep)
    exact hinv.agrees hg

/-- **An account is active exactly when it has a token**, in every state that commands reach without
a re-consent to a disconnected account. -/
theorem status_agrees {w : World} (h : Reached (system aead chrono key) oauth Command.Orderly w) :
    ∀ r ∈ w.db.accounts.rows, r.toAccount.status = .active ↔ w.db.tokens.find r.id ≠ none :=
  fun r hr => agreesAt_reached h r.id r (Table.find_key hr)

/-! ### Two histories -/

/-- Run commands one after the other, each in its own environment, if all their steps pass a check. -/
def history (m : Machine AppSig World Env) (oauth : OAuthClient)
    (check : Command → Label AppSig World Env → Bool) : List (Command × Env) → World → Option World
  | [], w => some w
  | (command, env) :: rest, w =>
    match m.runAlone 0 env (command.prog oauth) w with
    | some (ls, _, w') => if ls.all (check command) then history m oauth check rest w' else none
    | none => none

theorem reached_of_history {m : Machine AppSig World Env} (oauth : OAuthClient)
    {check : Command → Label AppSig World Env → Bool}
    {Allowed : Command → Label AppSig World Env → Prop}
    (hcheck : ∀ command l, check command l = true → Allowed command l)
    (commands : List (Command × Env)) {w : World} (h : Reached m oauth Allowed w)
    (hsome : (history m oauth check commands w).isSome) :
    Reached m oauth Allowed ((history m oauth check commands w).get hsome) := by
  suffices ∀ w', history m oauth check commands w = some w' → Reached m oauth Allowed w' from
    this _ (Option.some_get hsome).symm
  clear hsome
  intro w' hhistory
  induction commands generalizing w with
  | nil =>
    cases hhistory
    exact h
  | cons x rest ih =>
    obtain ⟨command, env⟩ := x
    simp only [history] at hhistory
    split at hhistory
    · rename_i ls r w₁ hrun
      split at hhistory
      · rename_i hall
        refine ih (.run h (exec_of_runAlone hrun) fun l hl => ?_) hhistory
        exact hcheck command l (List.all_eq_true.mp hall l hl)
      · simp at hhistory
    · simp at hhistory

/-- A check for `Quiet`. -/
def isQuiet (l : Label AppSig World Env) : Bool :=
  decide (l.env.fault = none) && match l.op with
    | .newUuid => decide (l.world.db.accounts.find l.env.uuid = none)
    | _ => true

theorem quiet_of_isQuiet {l : Label AppSig World Env} (h : isQuiet l = true) : Quiet l := by
  simp only [isQuiet, Bool.and_eq_true, decide_eq_true_eq] at h
  refine ⟨h.1, fun hop => ?_⟩
  have hfresh := h.2
  rw [hop] at hfresh
  simpa using hfresh

/-- A check for `FindsActive`. -/
def findsActive (l : Label AppSig World Env) : Bool :=
  match l.op with
  | .accountsGetByEmail tenantId email =>
    match SqliteAccountStore.getByEmail tenantId email l.world.db with
    | .ok account => account.status = .active
    | .error _ => true
  | _ => true

theorem findsActive_of_check {l : Label AppSig World Env} (h : findsActive l = true) :
    FindsActive l := by
  intro tenantId email account hop hget
  unfold findsActive at h
  rw [hop] at h
  simpa [hget] using h

/-- An environment in which the provider grants a token. -/
def granting (hour : Int) : Env := .calm hour (.ok ⟨"at-1", some "rt-1", some 3600, none⟩)

/-- An account is connected, disconnected and connected again. -/
def reconnect : List (Command × Env) :=
  [(.beginFlow "tenant-a", granting 1), (.completeFlow "code" "csrf", granting 1),
    (.disconnectAccount "tenant-a" "acc-2", granting 1), (.beginFlow "tenant-a", granting 2),
    (.completeFlow "code" "csrf", granting 2)]

/-- After the second consent the account has a token, and is still marked as disconnected. -/
theorem reconsent_stays_disconnected :
    ∃ w, Reached sampleSystem sampleOauth (fun _ => Quiet) w ∧
      ∃ r ∈ w.db.accounts.rows, r.toAccount.status = .disconnected ∧
        w.db.tokens.find r.id ≠ none :=
  have hcheck : ∀ (_ : Command) l, isQuiet l = true → Quiet l := fun _ _ => quiet_of_isQuiet
  ⟨_, reached_of_history sampleOauth hcheck reconnect .start (by decide +kernel),
    by decide +kernel⟩

/-- Up to the disconnection the status and the token agree. -/
theorem status_agrees_disconnected :
    ∃ w, Reached sampleSystem sampleOauth Command.Orderly w ∧ w.db.accounts.rows.length = 1 ∧
      ∀ r ∈ w.db.accounts.rows, r.toAccount.status = .active ↔ w.db.tokens.find r.id ≠ none := by
  have hcheck : ∀ (command : Command) l, (isQuiet l && findsActive l) = true →
      command.Orderly l := by
    intro command l h
    rw [Bool.and_eq_true] at h
    exact ⟨quiet_of_isQuiet h.1, fun _ => findsActive_of_check h.2⟩
  have hreached := reached_of_history (m := sampleSystem) sampleOauth hcheck (reconnect.take 3)
    .start (by decide +kernel)
  exact ⟨_, hreached, by decide +kernel, status_agrees hreached⟩

end UniMail
