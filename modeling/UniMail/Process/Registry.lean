import UniMail.Auth.Consent
import UniMail.Process.Fleet
import UniMail.Process.Walk

/-!
# What an account id stands for

An account is created by a consent only, under an identifier that the consent has drawn, or found by an
email lookup. So where the identifiers drawn are new, an id stands for the same mailbox of the same tenant
in every state of every run of a fleet (`account_identity`). A removed account does not come back, except by a
consent that had found it before it was removed (`removal_final`); that may be one in another process.
-/

namespace UniMail

open Interaction Relational

variable {aead : Aead} {chrono : Chrono} {key : Key} {oauth : OAuthClient} {server : MailServer}
  {process : ℕ → ℕ} {α : Type}

/-! ### Identities -/

/-- What no statement changes of an account. -/
structure AccountIdentity where
  id : String
  tenantId : String
  emailAddress : String
  provider : String
  createdAt : String
  deriving DecidableEq, Repr

def AccountRow.identity (r : AccountRow) : AccountIdentity :=
  ⟨r.id, r.tenantId, r.emailAddress, r.provider, r.createdAt⟩

def Account.identity (a : Account) : AccountIdentity :=
  ⟨a.id, a.tenantId, a.emailAddress, a.provider, a.createdAt⟩

@[simp] theorem identity_toRow (a : Account) : a.toRow.identity = a.identity := rfl

@[simp] theorem identity_toAccount (r : AccountRow) : r.toAccount.identity = r.identity := rfl

/-- At the step the account is created. -/
def CreatesAccount (e : FleetEvent α) (identity : AccountIdentity) : Prop :=
  ∃ account, e.call = ⟨.accountsCreate account, .ok ()⟩ ∧ account.identity = identity

/-- At the step the account is found by its email address. -/
def Finds (e : FleetEvent α) (identity : AccountIdentity) : Prop :=
  ∃ tenantId email account, e.call = ⟨.accountsGetByEmail tenantId email, .ok account⟩ ∧
    account.identity = identity

/-- The identifier drawn at a step, if there is one. -/
def drawnId : FleetEvent α → Option String
  | ⟨_, _, _, .newUuid, id, _⟩ => some id
  | _ => none

/-- The ids of the accounts at the start and those drawn since are all different. -/
def FreshIds (start : Db) (es : List (FleetEvent α)) : Prop :=
  (start.accounts.rows.map AccountRow.id ++ es.filterMap drawnId).Nodup

/-- The account was there at the start or has been created. -/
def Registered (start : Db) (es : List (FleetEvent α)) (identity : AccountIdentity) :
    Prop :=
  (∃ row ∈ start.accounts.rows, row.identity = identity) ∨ ∃ e ∈ es, CreatesAccount e identity

/-! ### What a call may create -/

/-- The account a call may create: one with the id it has drawn, or one it has found. -/
inductive Registrant
  | nothing
  | drawn (id : String)
  | found (identity : AccountIdentity)

def registryMonitor : Monitor AppSig Registrant where
  allows g o := match o with
    | .accountsCreate account => g = .drawn account.id ∨ g = .found account.identity
    | _ => True
  expects _ _ _ := True
  next g o r := match o, r with
    | .accountsGetByEmail _ _, .ok account => .found account.identity
    | .newUuid, id => .drawn id
    | .accountsCreate _, _ => .nothing
    | _, _ => g

section Protocol

/-- A token call creates nothing. -/
theorem registry_tokens (accountId : String) :
    TokenRules registryMonitor accountId (fun _ => True) fun _ _ => True where
  clock _ := ⟨trivial, fun _ => rfl⟩
  lock o ho g _ := by
    simp only [List.mem_cons, List.not_mem_nil, or_false] at ho
    rcases ho with rfl | rfl | rfl <;> exact ⟨trivial, fun _ => rfl⟩
  base _ _ _ := trivial
  get _ _ := trivial
  got _ _ _ := trivial
  read _ _ _ := trivial
  present _ _ _ := trivial
  denied _ _ _ _ := trivial
  granted _ _ _ _ := trivial
  write _ _ _ := trivial
  wrote _ _ _ _ := trivial

/-- A consent creates the account it has chosen. -/
theorem registry_flows : FlowRules registryMonitor fun g stage => match stage with
    | .chosen _ _ account | .missing _ _ account =>
      g = .drawn account.id ∨ g = .found account.identity
    | _ => True where
  clock := ⟨fun _ => ⟨trivial, fun _ => rfl⟩, fun _ => ⟨trivial, fun _ => rfl⟩⟩
  resolve _ _ := ⟨trivial, fun _ => rfl⟩
  stop _ _ _ _ := trivial
  untaken _ _ _ := trivial
  take _ _ _ := ⟨trivial, fun r _ => by cases r <;> trivial⟩
  exchange _ _ _ _ := ⟨trivial, fun _ _ => ⟨trivial, fun _ _ _ _ => trivial⟩⟩
  lookup _ _ _ _ _ := ⟨trivial, fun r _ => by
    cases r with
    | ok existing => exact fun _ _ => Or.inr rfl
    | error e => trivial⟩
  draw _ _ _ _ := ⟨trivial, fun id _ account hid _ _ => Or.inl (congrArg Registrant.drawn hid.symm)⟩
  ensure _ _ _ _ h := ⟨trivial, fun r _ => by
    cases r with
    | ok _ => trivial
    | error e => exact h⟩
  create _ _ _ _ h := ⟨h, fun r _ => by cases r <;> trivial⟩
  store _ _ _ _ _ := ⟨trivial, fun r _ => by cases r <;> trivial⟩

theorem registry_rules :
    TaskRules registryMonitor (fun _ => True) (fun _ _ _ => True) (fun _ => True)
      fun _ => True where
  plain o ho g _ := by
    cases o with
    | accountsCreate | accountsGetByEmail | newUuid => simp [Op.plain] at ho
    | _ => exact ⟨trivial, fun _ => rfl⟩
  lookup _ _ _ _ _ := ⟨trivial, fun _ _ => ⟨trivial, fun _ _ => trivial⟩⟩
  lookupEmail _ _ _ _ _ := ⟨trivial, fun _ _ => ⟨trivial, fun _ _ => trivial⟩⟩
  refresh _ id _ hg := (registry_tokens id).follows_refreshAccount hg
  access _ id _ hg := follows_mono (fun _ _ _ => ⟨trivial, fun _ _ => trivial⟩)
    ((registry_tokens id).follows_getAccessToken hg)
  mail _ _ _ _ _ _ := ⟨trivial, fun _ => rfl⟩

theorem registry_callback {params : CallbackParams} {g : Registrant} :
    Stays registryMonitor (fun _ => True) g (completeCallback oauth params).run :=
  follows_completeCallback (fun _ => trivial) fun _ _ =>
    follows_mono (fun _ _ _ => trivial) (registry_flows.follows_completeFlow trivial)

/-- **Every task** creates only accounts that it has drawn the id of, or found. -/
theorem registry_task (task : Task) :
    Follows registryMonitor (fun _ _ => True) .nothing (task.prog server) :=
  registry_rules.follows_task trivial (fun _ _ => trivial) (fun _ _ _ => trivial) (fun _ h => h)
    fun _ _ => registry_callback

end Protocol

/-! ### One step -/

section Step

variable {e : FleetEvent α}

/-- A row after an operation has the identity of one before, unless it is the one created. -/
theorem row_of_exec {i : ℕ} {o : Op} {env : Env} {r : o.Reply} {w w' : World}
    (hexec : (system aead chrono key).exec i o env w = some (r, w')) {row : AccountRow}
    (hrow : row ∈ w'.db.accounts.rows) :
    (∃ row' ∈ w.db.accounts.rows, row'.identity = row.identity) ∨
      ∃ account, (⟨o, r⟩ : (o : Op) × o.Reply) = ⟨.accountsCreate account, .ok ()⟩ ∧
        row = account.toRow := by
  by_cases ho : o.writesAccounts = false
  · rw [accounts_frame ho hexec] at hrow
    exact Or.inl ⟨row, hrow, rfl⟩
  · cases o with
    | accountsCreate account =>
      rcases storage_eq (Option.some.inj hexec) with ⟨hw, _⟩ | ⟨hr, hw⟩
      · rw [show w' = w from hw] at hrow
        exact Or.inl ⟨row, hrow, rfl⟩
      · rw [show w' = _ from hw] at hrow
        cases hcreate : SqliteAccountStore.create account w.db with
        | mk result db =>
          rw [hcreate] at hrow hr
          cases result with
          | error err =>
            rw [show db = w.db from SqliteAccountStore.create_error hcreate] at hrow
            exact Or.inl ⟨row, hrow, rfl⟩
          | ok _ =>
            obtain ⟨hc, rfl⟩ := SqliteAccountStore.create_ok hcreate
            rcases List.mem_append.mp hrow with hrow | hrow
            · exact Or.inl ⟨row, hrow, rfl⟩
            · refine Or.inr ⟨account, ?_, List.mem_singleton.mp hrow⟩
              obtain rfl : r = .ok () := hr
              rfl
    | accountsSetStatus tenantId id status =>
      rcases storage_eq (Option.some.inj hexec) with ⟨hw, _⟩ | ⟨_, hw⟩
      · rw [show w' = w from hw] at hrow
        exact Or.inl ⟨row, hrow, rfl⟩
      · rw [show w' = _ from hw] at hrow
        dsimp only at hrow
        rw [SqliteAccountStore.setStatus_eq] at hrow
        split at hrow
        · exact Or.inl ⟨row, hrow, rfl⟩
        · obtain ⟨row', hrow', rfl⟩ := List.mem_map.mp hrow
          refine Or.inl ⟨row', hrow', ?_⟩
          split <;> rfl
    | accountsDelete tenantId id =>
      rcases storage_eq (Option.some.inj hexec) with ⟨hw, _⟩ | ⟨_, hw⟩
      · rw [show w' = w from hw] at hrow
        exact Or.inl ⟨row, hrow, rfl⟩
      · rw [show w' = _ from hw] at hrow
        exact Or.inl ⟨row, (List.mem_filter.mp hrow).1, rfl⟩
    | _ => exact absurd rfl ho

theorem row_after (hstep : (fleet aead chrono key process).Step e) {row : AccountRow}
    (hrow : row ∈ e.after.world.db.accounts.rows) :
    (∃ row' ∈ e.before.world.db.accounts.rows, row'.identity = row.identity) ∨
      ∃ account, e.call = ⟨.accountsCreate account, .ok ()⟩ ∧ row = account.toRow := by
  obtain ⟨k, _, hexec, _⟩ := hstep
  obtain ⟨v, hlocal, hafter⟩ := fleet_exec hexec
  rw [hafter] at hrow
  exact row_of_exec hlocal hrow

/-- An account that is found by its email address is there. -/
theorem row_of_finds (hstep : (fleet aead chrono key process).Step e) {identity : AccountIdentity}
    (h : Finds e identity) :
    ∃ row ∈ e.before.world.db.accounts.rows, row.identity = identity := by
  obtain ⟨tenantId, email, account, hcall, rfl⟩ := h
  obtain ⟨before, i, env, o, r, after⟩ := e
  cases hcall
  obtain ⟨k, _, hexec, _⟩ := hstep
  obtain ⟨v, hlocal, _⟩ := fleet_exec hexec
  obtain ⟨row, hrow, _, _, rfl⟩ :=
    SqliteAccountStore.getByEmail_ok (storage_ok (Option.some.inj hlocal)).1
  exact ⟨row, (Table.find_eq_some.mp hrow).1, rfl⟩

/-- What a call may create after a step, it could before, unless it has drawn the id or found the account
at the step. -/
theorem next_registrant (g : Registrant) (e : FleetEvent α) :
    registryMonitor.next g e.op e.reply = g ∨
      registryMonitor.next g e.op e.reply = .nothing ∨
      (∃ id, drawnId e = some id ∧ registryMonitor.next g e.op e.reply = .drawn id) ∨
      ∃ identity, Finds e identity ∧ registryMonitor.next g e.op e.reply = .found identity := by
  obtain ⟨before, i, env, o, r, after⟩ := e
  cases o with
  | accountsGetByEmail tenantId email =>
    cases r with
    | error e => exact Or.inl rfl
    | ok account => exact Or.inr (Or.inr (Or.inr ⟨_, ⟨tenantId, email, account, rfl, rfl⟩, rfl⟩))
  | newUuid => exact Or.inr (Or.inr (Or.inl ⟨r, rfl, rfl⟩))
  | accountsCreate account => exact Or.inr (Or.inl rfl)
  | _ => exact Or.inl rfl

theorem next_drawn {g : Registrant} {e : FleetEvent α} {id : String} (h : drawnId e = some id) :
    registryMonitor.next g e.op e.reply = .drawn id := by
  obtain ⟨before, i, env, o, r, after⟩ := e
  unfold drawnId at h
  split at h
  · rename_i heq
    cases heq
    cases h
    rfl
  · cases h

end Step

/-! ### Along a run -/

section Run

variable {start : Db} {past : List (FleetEvent α)} {e : FleetEvent α}
  {c : FleetCfg α} {γ : ℕ → Registrant} {identity : AccountIdentity}

theorem Registered.mono {es : List (FleetEvent α)} (h : Registered start past identity) :
    Registered start (past ++ es) identity :=
  h.imp_right fun ⟨e, he, hcreates⟩ => ⟨e, List.mem_append_left _ he, hcreates⟩

theorem registered_snoc (h : Registered start (past ++ [e]) identity) :
    Registered start past identity ∨ CreatesAccount e identity := by
  rcases h with h | ⟨e', he', hcreates⟩
  · exact Or.inl (Or.inl h)
  · rcases List.mem_append.mp he' with he' | he'
    · exact Or.inl (Or.inr ⟨e', he', hcreates⟩)
    · obtain rfl := List.mem_singleton.mp he'
      exact Or.inr hcreates

/-- The ids in use: those of the start and those drawn. -/
def idsUsed (start : Db) (past : List (FleetEvent α)) : List String :=
  start.accounts.rows.map AccountRow.id ++ past.filterMap drawnId

/-- Along the run: an id stands for one account, and what the calls may create is new or registered. -/
structure Registry (start : Db) (past : List (FleetEvent α)) (c : FleetCfg α)
    (γ : ℕ → Registrant) : Prop where
  rows : ∀ row ∈ c.world.db.accounts.rows, Registered start past row.identity
  unique : ∀ k k', Registered start past k → Registered start past k' → k.id = k'.id → k = k'
  used : ∀ k, Registered start past k → k.id ∈ idsUsed start past
  drawn : ∀ i id, γ i = .drawn id →
    id ∈ idsUsed start past ∧ ∀ k, Registered start past k → k.id ≠ id
  apart : ∀ i j id, γ i = .drawn id → γ j = .drawn id → i = j
  found : ∀ i k, γ i = .found k →
    Registered start past k ∧ ∃ e ∈ past, e.thread = i ∧ Finds e k

/-- A new id has not been in use. -/
theorem unused_of_drawn {es post : List (FleetEvent α)} (hes : es = past ++ e :: post)
    (hfresh : FreshIds start es) {id : String} (hdrawn : drawnId e = some id) :
    id ∉ idsUsed start past := by
  subst hes
  intro hused
  unfold FreshIds at hfresh
  rw [List.filterMap_append, List.filterMap_cons_some hdrawn, ← List.append_assoc] at hfresh
  exact (List.nodup_append.mp hfresh).2.2 id hused id List.mem_cons_self rfl

theorem idsUsed_mono {id : String} (h : id ∈ idsUsed start past) : id ∈ idsUsed start (past ++ [e]) := by
  unfold idsUsed at h ⊢
  rw [List.filterMap_append, ← List.append_assoc]
  exact List.mem_append_left _ h

/-- **One step** of the registry. -/
theorem Registry.step (h : Registry start past e.before γ) (hstep : (fleet aead chrono key process).Step e)
    (hallows : registryMonitor.allows (γ e.thread) e.op)
    (hdraw : ∀ id, drawnId e = some id → id ∉ idsUsed start past) :
    Registry start (past ++ [e]) e.after
      (Function.update γ e.thread (registryMonitor.next (γ e.thread) e.op e.reply)) := by
  -- The account that is created is one that its call has drawn the id of, or found.
  have hcreates : ∀ {k}, CreatesAccount e k →
      (γ e.thread = .drawn k.id ∨ γ e.thread = .found k) ∧
        registryMonitor.next (γ e.thread) e.op e.reply = .nothing ∧ drawnId e = none := by
    rintro k ⟨account, hcall, rfl⟩
    obtain ⟨before, i, env, o, r, after⟩ := e
    cases hcall
    exact ⟨hallows, rfl, rfl⟩
  have hunique : ∀ k k', Registered start past k → CreatesAccount e k' → k.id = k'.id → k = k' := by
    intro k k' hk hcreate hid
    rcases (hcreates hcreate).1 with hdrawn | hfound
    · exact absurd hid ((h.drawn _ _ hdrawn).2 k hk)
    · exact h.unique k k' hk (h.found _ _ hfound).1 hid
  have hids : ∀ {k k'}, CreatesAccount e k → CreatesAccount e k' → k = k' := by
    rintro k k' ⟨account, hcall, rfl⟩ ⟨account', hcall', rfl⟩
    cases hcall.symm.trans hcall'
    rfl
  refine ⟨fun row hrow => ?_, fun k k' hk hk' hid => ?_, fun k hk => ?_, fun i id hi => ?_,
    fun i j id hi hj => ?_, fun i k hi => ?_⟩
  · rcases row_after hstep hrow with ⟨row', hrow', hsame⟩ | ⟨account, hcall, rfl⟩
    · rw [← hsame]
      exact (h.rows row' hrow').mono
    · exact Or.inr ⟨e, by simp, account, hcall, rfl⟩
  · rcases registered_snoc hk with hk | hk <;> rcases registered_snoc hk' with hk' | hk'
    · exact h.unique k k' hk hk' hid
    · exact hunique k k' hk hk' hid
    · exact (hunique k' k hk' hk hid.symm).symm
    · exact hids hk hk'
  · rcases registered_snoc hk with hk | hk
    · exact idsUsed_mono (h.used k hk)
    · rcases (hcreates hk).1 with hdrawn | hfound
      · exact idsUsed_mono (h.drawn _ _ hdrawn).1
      · exact idsUsed_mono (h.used k (h.found _ _ hfound).1)
  · have hold : γ i = .drawn id → (e.thread = i → registryMonitor.next (γ i) e.op e.reply = γ i) →
        id ∈ idsUsed start (past ++ [e]) ∧ ∀ k, Registered start (past ++ [e]) k → k.id ≠ id := by
      intro hdrawn hkept
      obtain ⟨hused, hnew⟩ := h.drawn i id hdrawn
      refine ⟨idsUsed_mono hused, fun k hk => ?_⟩
      rcases registered_snoc hk with hk | hk
      · exact hnew k hk
      · rintro rfl
        obtain ⟨hmay, hnext, _⟩ := hcreates hk
        rcases hmay with hown | hfound
        · obtain rfl := h.apart _ _ _ hdrawn hown
          rw [hkept rfl, hdrawn] at hnext
          cases hnext
        · exact hnew k (h.found _ _ hfound).1 rfl
    by_cases heq : i = e.thread
    · subst heq
      rw [Function.update_self] at hi
      rcases next_registrant (γ e.thread) e with hnext | hnext | ⟨id', hdrawn, hnext⟩ | ⟨k, _, hnext⟩
      · exact hold (hnext.symm.trans hi) fun _ => hnext
      · cases hnext.symm.trans hi
      · cases hnext.symm.trans hi
        have hunused := hdraw id hdrawn
        refine ⟨?_, fun k hk hid => ?_⟩
        · unfold idsUsed
          simp [hdrawn]
        · rcases registered_snoc hk with hk | hk
          · exact hunused (hid ▸ h.used k hk)
          · rw [(hcreates hk).2.2] at hdrawn
            cases hdrawn
      · cases hnext.symm.trans hi
    · rw [Function.update_of_ne heq] at hi
      exact hold hi fun hthread => absurd hthread.symm heq
  · -- A drawn id is new, so no two calls have drawn it.
    have hcases : ∀ i, Function.update γ e.thread
        (registryMonitor.next (γ e.thread) e.op e.reply) i = .drawn id →
        γ i = .drawn id ∨ i = e.thread ∧ drawnId e = some id := by
      intro i hi
      by_cases heq : i = e.thread
      · subst heq
        rw [Function.update_self] at hi
        rcases next_registrant (γ e.thread) e with hnext | hnext | ⟨id', hdrawn, hnext⟩ | ⟨k, _, hnext⟩
        · exact Or.inl (hnext.symm.trans hi)
        · cases hnext.symm.trans hi
        · cases hnext.symm.trans hi
          exact Or.inr ⟨rfl, hdrawn⟩
        · cases hnext.symm.trans hi
      · rw [Function.update_of_ne heq] at hi
        exact Or.inl hi
    rcases hcases i hi with hi | ⟨rfl, hdrawn⟩ <;> rcases hcases j hj with hj | ⟨rfl, hdrawn'⟩
    · exact h.apart i j id hi hj
    · exact absurd (h.drawn i id hi).1 (hdraw id hdrawn')
    · exact absurd (h.drawn j id hj).1 (hdraw id hdrawn)
    · rfl
  · by_cases heq : i = e.thread
    · subst heq
      rw [Function.update_self] at hi
      rcases next_registrant (γ e.thread) e with hnext | hnext | ⟨id', _, hnext⟩ | ⟨k', hfinds, hnext⟩
      · obtain ⟨hregistered, e', he', hfound⟩ := h.found _ k (hnext.symm.trans hi)
        exact ⟨hregistered.mono, e', List.mem_append_left _ he', hfound⟩
      · cases hnext.symm.trans hi
      · cases hnext.symm.trans hi
      · cases hnext.symm.trans hi
        obtain ⟨row, hrow, rfl⟩ := row_of_finds hstep hfinds
        exact ⟨(h.rows row hrow).mono, e, by simp, rfl, hfinds⟩
    · rw [Function.update_of_ne heq] at hi
      obtain ⟨hregistered, e', he', hfound⟩ := h.found i k hi
      exact ⟨hregistered.mono, e', List.mem_append_left _ he', hfound⟩

end Run

/-! ### The tasks of a process -/

section Tasks

variable {tasks : List Task} {w : FleetWorld} {es past post : List (FleetEvent TaskReturn)}
  {c d : FleetCfg TaskReturn} {e : FleetEvent TaskReturn}

theorem registry_start :
    Registry w.db [] (Task.start server tasks w) fun _ => .nothing where
  rows row hrow := Or.inl ⟨row, hrow, rfl⟩
  unique k k' hk hk' hid := by
    rcases hk with ⟨row, hrow, rfl⟩ | ⟨e, he, _⟩
    · rcases hk' with ⟨row', hrow', rfl⟩ | ⟨e, he, _⟩
      · rw [w.db.accounts.eq_of_key_eq hrow hrow' hid]
      · simp at he
    · simp at he
  used k hk := by
    rcases hk with ⟨row, hrow, rfl⟩ | ⟨e, he, _⟩
    · exact List.mem_append_left _ (List.mem_map_of_mem hrow)
    · simp at he
  drawn i id h := by cases h
  apart i j id h := by cases h
  found i k h := by cases h

/-- In every run whose ids are new an id stands for one account. -/
theorem registry_run (h : (fleet aead chrono key process).Run (Task.start server tasks w) es c)
    (hfresh : FreshIds w.db es) :
    Registry w.db es c (ghosts registryMonitor (fun _ => .nothing) es) ∧
      PoolFollows registryMonitor (fun _ _ => True) (ghosts registryMonitor (fun _ => .nothing) es)
        c.pool := by
  refine h.follows (I := fun past d γ => Registry w.db past d γ) registry_start ?_ ?_
  · intro i p hp
    rw [Task.start, List.getElem?_map] at hp
    obtain ⟨task, _, rfl⟩ := Option.map_eq_some_iff.mp hp
    exact registry_task task
  · intro past e post hes hstep _ hregistry hallows
    refine ⟨trivial, ?_⟩
    rw [ghosts_snoc]
    exact hregistry.step hstep hallows fun id => unused_of_drawn hes hfresh

theorem FreshIds.of_append (h : FreshIds w.db (past ++ post)) : FreshIds w.db past := by
  unfold FreshIds at h ⊢
  rw [List.filterMap_append, ← List.append_assoc] at h
  exact (List.nodup_append.mp h).1

/-- **An id stands for one account.** In every interleaving of any tasks in which the ids drawn are new,
the rows that an id has in any two states, also where the account was removed and created again between
them, are of the same mailbox, tenant and provider. -/
theorem account_identity
    (hpast : (fleet aead chrono key process).Run (Task.start server tasks w) past d)
    (hpost : (fleet aead chrono key process).Run d post c) (hfresh : FreshIds w.db (past ++ post))
    {row row' : AccountRow} (hrow : d.world.db.accounts.find row.id = some row)
    (hrow' : c.world.db.accounts.find row.id = some row') : row'.identity = row.identity := by
  obtain ⟨hbefore, _⟩ := registry_run hpast hfresh.of_append
  obtain ⟨hafter, _⟩ := registry_run (Machine.Run.append_iff.mpr ⟨d, hpast, hpost⟩) hfresh
  obtain ⟨hmem, _⟩ := Table.find_eq_some.mp hrow
  obtain ⟨hmem', hid⟩ := Table.find_eq_some.mp hrow'
  exact hafter.unique _ _ (hafter.rows row' hmem') (hbefore.rows row hmem).mono hid

/-! ### Removal -/

/-- A consent that had found the account creates it. -/
def Revived (past post : List (FleetEvent TaskReturn)) (id : String) : Prop :=
  ∃ e ∈ past, ∃ e' ∈ post, e'.thread = e.thread ∧ ∃ k, Finds e k ∧ CreatesAccount e' k ∧ k.id = id

/-- The account is gone, and whoever has found it did so in the past. -/
structure Removed (past : List (FleetEvent TaskReturn)) (c : FleetCfg TaskReturn)
    (γ : ℕ → Registrant) (id : String) : Prop where
  row : c.world.db.accounts.find id = none
  found : ∀ i k, γ i = .found k → k.id = id → ∃ e ∈ past, e.thread = i ∧ Finds e k

/-- What a deletion that removes a row does. -/
theorem row_of_deletes (hstep : (fleet aead chrono key process).Step e) {tenantId id : String}
    (hcall : e.call = ⟨.accountsDelete tenantId id, .ok true⟩) :
    (∃ row ∈ e.before.world.db.accounts.rows, row.id = id) ∧
      e.after.world.db.accounts.find id = none := by
  obtain ⟨before, i, env, o, r, after⟩ := e
  cases hcall
  obtain ⟨k, _, hexec, _⟩ := hstep
  obtain ⟨v, hlocal, hv⟩ := fleet_exec hexec
  obtain ⟨hremoved, hafter⟩ := storage_ok (Option.some.inj hlocal)
  obtain ⟨account, haccount⟩ := List.exists_mem_of_length_pos
    (Nat.pos_of_ne_zero (of_decide_eq_true (Except.ok.inj hremoved)))
  obtain ⟨row, hrow, _⟩ := List.mem_map.mp haccount
  obtain ⟨hmem, howned⟩ := List.mem_filter.mp hrow
  obtain ⟨htenant, hid⟩ : row.tenantId = tenantId ∧ row.id = id := by simpa using howned
  refine ⟨⟨row, hmem, hid⟩, ?_⟩
  dsimp only
  rw [hv, hafter]
  apply (SqliteAccountStore.find_deleteAccount ..).trans
  rw [Table.find_eq_some.mpr ⟨hmem, hid⟩]
  simp [htenant, hid]

/-- **One step** after the removal: the account stays away, unless it is revived. -/
theorem Removed.step {id : String} {rest : List (FleetEvent TaskReturn)} {γ : ℕ → Registrant}
    (h : Removed past e.before γ id) (hstep : (fleet aead chrono key process).Step e)
    (hregistry : Registry w.db rest e.before γ)
    (hregistered : ∃ k, Registered w.db rest k ∧ k.id = id)
    (hallows : registryMonitor.allows (γ e.thread) e.op) :
    Revived past [e] id ∨
      Removed past e.after (Function.update γ e.thread (registryMonitor.next (γ e.thread) e.op e.reply))
        id := by
  have hnone : ∀ row ∈ e.before.world.db.accounts.rows, row.id ≠ id := Table.find_eq_none.mp h.row
  by_cases hcreates : ∃ k, CreatesAccount e k ∧ k.id = id
  · -- The creator has not drawn an id that is in use, so it had found the account.
    left
    obtain ⟨k, hcreate, rfl⟩ := hcreates
    obtain ⟨k', hk', hid⟩ := hregistered
    have hmay : γ e.thread = .drawn k.id ∨ γ e.thread = .found k := by
      obtain ⟨account, hcall, rfl⟩ := hcreate
      have hop : e.op = .accountsCreate account := (Sigma.mk.inj hcall).1
      rw [hop] at hallows
      exact hallows
    rcases hmay with hdrawn | hfound
    · exact absurd hid ((hregistry.drawn _ _ hdrawn).2 k' hk')
    · obtain ⟨e', he', hthread, hfinds⟩ := h.found _ _ hfound rfl
      exact ⟨e', he', e, by simp, hthread.symm, k, hfinds, hcreate, rfl⟩
  · right
    refine ⟨Table.find_eq_none.mpr fun row hrow hid => ?_, fun i k hi hid => ?_⟩
    · rcases row_after hstep hrow with ⟨row', hrow', hsame⟩ | ⟨account, hcall, rfl⟩
      · apply hnone row' hrow'
        rw [← hid]
        exact congrArg AccountIdentity.id hsame
      · exact hcreates ⟨account.identity, ⟨account, hcall, rfl⟩, hid⟩
    · by_cases heq : i = e.thread
      · subst heq
        rw [Function.update_self] at hi
        rcases next_registrant (γ e.thread) e with hnext | hnext | ⟨id', _, hnext⟩ | ⟨k', hfinds, hnext⟩
        · exact h.found _ k (hnext.symm.trans hi) hid
        · cases hnext.symm.trans hi
        · cases hnext.symm.trans hi
        · cases hnext.symm.trans hi
          obtain ⟨row, hrow, rfl⟩ := row_of_finds hstep hfinds
          exact absurd hid (hnone row hrow)
      · rw [Function.update_of_ne heq] at hi
        exact h.found i k hi hid

theorem Revived.mono {id : String} (h : Revived past post id)
    {es : List (FleetEvent TaskReturn)} : Revived past (post ++ es) id := by
  obtain ⟨e, he, e', he', h⟩ := h
  exact ⟨e, he, e', List.mem_append_left _ he', h⟩

/-- **A removal is final.** In every interleaving of any tasks in which the ids drawn are new, an account
that a deletion has removed is gone in every later state, with its token, unless a consent that had found
the account before the deletion has created it again. -/
theorem removal_final
    (hrun : (fleet aead chrono key process).Run (Task.start server tasks w) (past ++ e :: post) c)
    (hfresh : FreshIds w.db (past ++ e :: post)) {tenantId id : String}
    (hcall : e.call = ⟨.accountsDelete tenantId id, .ok true⟩) :
    (c.world.db.accounts.find id = none ∧ c.world.db.tokens.find id = none) ∨ Revived past post id := by
  obtain ⟨hbefore, hstep, hpost⟩ := hrun.split
  have hsplit : ∀ seen rest, seen ++ rest = post → FreshIds w.db (past ++ [e] ++ seen) := by
    rintro seen rest rfl
    have hall : FreshIds w.db (past ++ [e] ++ seen ++ rest) := by simpa using hfresh
    exact hall.of_append
  obtain ⟨hregistry, _⟩ := registry_run hbefore hfresh.of_append
  obtain ⟨⟨row, hrow, hid⟩, hnone⟩ := row_of_deletes hstep hcall
  have hregistered : ∀ es, ∃ k, Registered w.db (past ++ es) k ∧ k.id = id :=
    fun es => ⟨row.identity, (hregistry.rows row hrow).mono, hid⟩
  have hgone := hpost.history (I := fun seen d => Revived past seen id ∨
      Removed past d (ghosts registryMonitor (fun _ => .nothing) (past ++ [e] ++ seen)) id)
    (by
      right
      refine ⟨hnone, fun i k hi _ => ?_⟩
      rw [List.append_nil] at hi
      obtain ⟨hregistry, _⟩ := registry_run (hbefore.snoc hstep) (by simpa using hsplit [] post rfl)
      obtain ⟨_, e', he', hthread, hfinds⟩ := hregistry.found i k hi
      rcases List.mem_append.mp he' with he' | he'
      · exact ⟨e', he', hthread, hfinds⟩
      · -- The deletion has found nothing.
        obtain rfl := List.mem_singleton.mp he'
        obtain ⟨_, _, _, hfound, _⟩ := hfinds
        cases hcall.symm.trans hfound)
    (by
      rintro seen e' rest hes hseen hstep' (hrevived | hgone)
      · exact Or.inl hrevived.mono
      · have hupto := Machine.Run.append_iff.mpr ⟨_, hbefore.snoc hstep, hseen⟩
        obtain ⟨hregistry', hfollows'⟩ := registry_run hupto (hsplit seen (e' :: rest) hes.symm)
        rw [← List.append_assoc, ghosts_snoc]
        refine (hgone.step hstep' hregistry' ?_ (hfollows'.allows hstep')).imp_left ?_
        · rw [List.append_assoc]
          exact hregistered _
        · rintro ⟨e₁, he₁, e₂, he₂, h⟩
          exact ⟨e₁, he₁, e₂, List.mem_append_right _ he₂, h⟩)
  rcases hgone with hrevived | hgone
  · exact Or.inr hrevived
  · exact Or.inl ⟨hgone.row, Db.token_none hgone.row⟩

end Tasks

/-! ### A consent across a removal -/

/-- The account a deletion removes, if it does, with its tenant. -/
def removedAt : FleetEvent α → Option (String × String)
  | ⟨_, _, _, .accountsDelete tenantId id, .ok true, _⟩ => some (tenantId, id)
  | _ => none

theorem split_of_removedAt {es : List (FleetEvent α)} {n : ℕ} {tenantId id : String}
    (h : (es.map removedAt)[n]? = some (some (tenantId, id))) :
    ∃ e, es = es.take n ++ e :: es.drop (n + 1) ∧
      e.call = ⟨.accountsDelete tenantId id, .ok true⟩ := by
  rw [List.getElem?_map] at h
  obtain ⟨e, he, hremoved⟩ := Option.map_eq_some_iff.mp h
  obtain ⟨hlt, rfl⟩ := List.getElem?_eq_some_iff.mp he
  refine ⟨es[n], ?_, ?_⟩
  · rw [← List.drop_eq_getElem_cons hlt, List.take_append_drop]
  · generalize es[n] = e at hremoved
    unfold removedAt at hremoved
    split at hremoved
    · cases hremoved
      rfl
    · cases hremoved

/-- The account is connected again and removed. -/
def crossing : FleetCfg TaskReturn :=
  Task.start sampleMailServer
    [.callback ⟨some "code", some "csrf", none, none⟩, .removeAccount none "acc-1"]
    (awaiting (connected 9)).alone

def crossingEnv (flows : FlowTable) : FleetEnv :=
  ⟨Env.calm 0 (.ok ⟨"at-1", some "rt-1", some 3600, none⟩), flows⟩

/-- It is removed after the consent has found it. -/
def crossingSteps : List (ℕ × FleetEnv) :=
  (0, crossingEnv (awaiting (connected 9)).db.oauthFlows) ::
    ([0, 0, 0, 0, 1, 1] ++ List.replicate 6 0).map fun i => (i, crossingEnv .empty)

theorem crossing_run : (sampleFleet.replay crossing crossingSteps).isSome = true := by
  decide +kernel

def crossingEvents : List (FleetEvent TaskReturn) :=
  ((sampleFleet.replay crossing crossingSteps).get crossing_run).1

/-- When both have returned. -/
def crossed : FleetCfg TaskReturn :=
  ((sampleFleet.replay crossing crossingSteps).get crossing_run).2

theorem crossing_fresh : FreshIds (awaiting (connected 9)).db crossingEvents := by
  show List.Nodup _
  decide +kernel

theorem account_identity_crossing :
    sampleFleet.Run crossing crossingEvents crossed ∧ ∃ row,
      crossed.world.db.accounts.find "acc-1" = some row ∧ row.identity = sampleAccount.identity := by
  have hrun : sampleFleet.Run crossing crossingEvents crossed :=
    run_replay crossing crossingSteps crossing_run
  have hsome : (crossed.world.db.accounts.find "acc-1").isSome = true := by decide +kernel
  obtain ⟨row, hrow⟩ := Option.isSome_iff_exists.mp hsome
  have hfound : crossing.world.db.accounts.find "acc-1" = some sampleAccount.toRow := by
    decide +kernel
  have hstart : sampleFleet.Run crossing [] crossing := rfl
  have hsame : row.identity = sampleAccount.toRow.identity :=
    account_identity hstart hrun crossing_fresh hfound hrow
  exact ⟨hrun, row, hrow, hsame⟩

/-- All accounts are refreshed, and the account is removed. -/
def lateRefresh : FleetCfg TaskReturn :=
  Task.start sampleMailServer [.refreshAll, .removeAccount none "acc-1"] (connected 0).alone

/-- It is removed while the refresh waits for its reply. -/
def lateSteps : List (ℕ × FleetEnv) :=
  (List.replicate 4 0 ++ [1, 1] ++ List.replicate 6 0).map fun i => (i, crossingEnv .empty)

theorem late_run : (sampleFleet.replay lateRefresh lateSteps).isSome = true := by
  decide +kernel

def lateEvents : List (FleetEvent TaskReturn) :=
  ((sampleFleet.replay lateRefresh lateSteps).get late_run).1

/-- When both have returned. -/
def refreshedLate : FleetCfg TaskReturn :=
  ((sampleFleet.replay lateRefresh lateSteps).get late_run).2

/-- The event inserts an account. -/
def insertsAccount : FleetEvent α → Bool
  | ⟨_, _, _, .accountsCreate _, _, _⟩ => true
  | _ => false

theorem not_revived {past post : List (FleetEvent TaskReturn)} {id : String}
    (h : ∀ e ∈ post, insertsAccount e = false) : ¬ Revived past post id := by
  rintro ⟨_, _, ⟨before, i, env, o, r, after⟩, he', _, _, _, ⟨account, hcall, _⟩, _⟩
  cases hcall
  cases h _ he'

/-- The account is back, by the consent that had found it; a refresh that was under way does not bring it
back. -/
theorem removal_final_crossing :
    (∃ past e post, sampleFleet.Run crossing (past ++ e :: post) crossed ∧
      e.call = ⟨.accountsDelete "tenant-a" "acc-1", .ok true⟩ ∧
      crossed.world.db.accounts.find "acc-1" ≠ none ∧ Revived past post "acc-1") ∧
    ∃ past e post, sampleFleet.Run lateRefresh (past ++ e :: post) refreshedLate ∧
      e.call = ⟨.accountsDelete "tenant-a" "acc-1", .ok true⟩ ∧
      (refreshedLate.returned.map Option.isSome) = [true, true] ∧
      refreshedLate.world.db.accounts.find "acc-1" = none ∧
      refreshedLate.world.db.tokens.find "acc-1" = none := by
  constructor
  · have hremoved : (crossingEvents.map removedAt)[6]? = some (some ("tenant-a", "acc-1")) := by
      decide +kernel
    obtain ⟨e, hsplit, hcall⟩ := split_of_removedAt hremoved
    have hrun : sampleFleet.Run crossing crossingEvents crossed :=
      run_replay crossing crossingSteps crossing_run
    have hfresh := crossing_fresh
    rw [hsplit] at hrun hfresh
    have hback : crossed.world.db.accounts.find "acc-1" ≠ none := by decide +kernel
    rcases removal_final hrun hfresh hcall with ⟨hgone, _⟩ | hrevived
    · exact absurd hgone hback
    · exact ⟨_, e, _, hrun, hcall, hback, hrevived⟩
  · have hremoved : (lateEvents.map removedAt)[5]? = some (some ("tenant-a", "acc-1")) := by
      decide +kernel
    obtain ⟨e, hsplit, hcall⟩ := split_of_removedAt hremoved
    have hrun : sampleFleet.Run lateRefresh lateEvents refreshedLate :=
      run_replay lateRefresh lateSteps late_run
    have hfresh : FreshIds (connected 0).db lateEvents := by
      show List.Nodup _
      decide +kernel
    have hnone : ∀ e ∈ lateEvents, insertsAccount e = false := by decide +kernel
    rw [hsplit] at hrun hfresh hnone
    refine ⟨_, e, _, hrun, hcall, by decide +kernel, ?_⟩
    rcases removal_final hrun hfresh hcall with hgone | hrevived
    · exact hgone
    · refine absurd hrevived (not_revived fun e' he' => hnone e' ?_)
      exact List.mem_append_right _ (List.mem_cons_of_mem _ he')

end UniMail
