import UniMail.Auth.Consent

/-!
# One account per mailbox

`complete_flow` looks an account up by its email, without regard to case, and inserts a new one if
there is none. The constraint behind it, `UNIQUE (tenant_id, email_address)`, does regard case, so two
calls that look up two spellings of one mailbox before either inserts both succeed
(`two_spellings`). `one_account_per_mailbox` shows that this is the only way to get there.

The ghost state of a call is the mailbox it may create an account for without another look
(`mailboxMonitor`); the invariant (`Sole`) says that the rows of this mailbox, and the other
calls about to create one, all have its very spelling.
-/

namespace UniMail

open Interaction Relational

variable {aead : Aead} {chrono : Chrono} {key : Key} {oauth : OAuthClient} {α : Type}

/-- The mailboxes are the same to SQLite's `lower()`. -/
def SameMailbox (email email' : String) : Prop := sqliteLower email = sqliteLower email'

/-- No two accounts of a tenant have the same mailbox. -/
def OnePerMailbox (db : Db) : Prop :=
  ∀ r ∈ db.accounts.rows, ∀ r' ∈ db.accounts.rows, r.tenantId = r'.tenantId →
    SameMailbox r.emailAddress r'.emailAddress → r = r'

/-- The operation looks an account up by its email. -/
def Op.looksUp : Op → Bool
  | .accountsGetByEmail _ _ => true
  | _ => false

/-- The operation creates an account for the mailbox, in this spelling. -/
def Op.createsFor (tenantId email : String) : Op → Prop
  | .accountsCreate account => account.tenantId = tenantId ∧ account.emailAddress = email
  | _ => False

/-- The call can create an account for the mailbox without looking one up again. -/
abbrev Creates (tenantId email : String) (p : Prog AppSig α) : Prop :=
  p.Reaches (fun o : Op => o.looksUp = false ∧ ∀ account, o ≠ .accountsCreate account)
    (Op.createsFor tenantId email)

/-! ### The calls follow the protocol -/

/-- What a lookup tells: the mailbox the call may create an account for. -/
def Sought.next (g : Option (String × String)) : (o : Op) → Op.Reply o → Option (String × String)
  | .accountsGetByEmail _ _, .ok existing => some (existing.tenantId, existing.emailAddress)
  | .accountsGetByEmail tenantId email, .error (.notFound _) => some (tenantId, email)
  | .accountsGetByEmail _ _, .error _ => none
  | .accountsCreate _, _ => none
  | _, _ => g

/-- An account is created only for the mailbox looked up last, and only once. -/
def mailboxMonitor : Monitor AppSig (Option (String × String)) where
  allows g o := match o with
    | .accountsCreate account => g = some (account.tenantId, account.emailAddress)
    | .accountsSetStatus _ _ _ => False
    | .accountsDelete _ _ => False
    | _ => True
  expects _ _ _ := True
  next := Sought.next

theorem silent_mailbox {o : Op} (hallows : ∀ g, mailboxMonitor.allows g o)
    (hnext : ∀ g r, mailboxMonitor.next g o r = g) : mailboxMonitor.Silent o :=
  fun g => ⟨hallows g, hnext g⟩

theorem mailbox_flowAccount {tenantId : String} {identity : ResolvedIdentity}
    (g : Option (String × String)) :
    Follows mailboxMonitor (fun g r => ∀ account, r = .ok account →
        g = some (account.tenantId, account.emailAddress)) g
      (TokenManager.flowAccount tenantId identity).run := by
  unfold TokenManager.flowAccount
  apply follows_op trivial
  intro r _
  cases r with
  | ok existing =>
    apply follows_op trivial
    intro updatedAt _
    rintro account ⟨⟩
    rfl
  | error e =>
    cases e with
    | notFound msg =>
      refine follows_op trivial fun id _ => follows_op trivial fun createdAt _ => ?_
      apply follows_op trivial
      intro updatedAt _
      rintro account ⟨⟩
      rfl
    | _ =>
      rintro account ⟨⟩

theorem mailbox_ensureAccount {tenantId : String} {account : Account} :
    Follows mailboxMonitor (fun _ _ => True) (some (account.tenantId, account.emailAddress))
      (TokenManager.ensureAccount tenantId account).run := by
  unfold TokenManager.ensureAccount
  apply follows_op trivial
  intro r _
  cases r with
  | ok _ => trivial
  | error _ =>
    apply follows_op rfl
    intro r _
    cases r <;> trivial

theorem mailbox_completeFlow {code state : String} (g : Option (String × String)) :
    Follows mailboxMonitor (fun _ _ => True) g (TokenManager.completeFlow oauth code state).run := by
  have hnow : mailboxMonitor.Silent .utcNow := silent_mailbox (fun _ => trivial) fun _ _ => rfl
  unfold TokenManager.completeFlow
  refine follows_op trivial fun r _ => follows_check_bind (fun flow _ => ?_) fun _ _ => trivial
  refine (follows_run_bind _ _ _).mpr (follows_requestTokens hnow trivial (fun _ => trivial)
    (fun _ _ => trivial) fun response _ => ⟨fun ts _ _ => ?_, fun _ => trivial⟩)
  dsimp only
  cases ts.refreshToken with
  | none => trivial
  | some refreshToken =>
    unfold TokenManager.connect
    refine follows_op trivial fun r _ => follows_check_bind (fun identity _ => ?_) fun _ _ => trivial
    refine (follows_run_bind _ _ _).mpr (follows_mono (fun g r hr => ?_) (mailbox_flowAccount _))
    cases r with
    | error e => trivial
    | ok account =>
      obtain rfl := hr account rfl
      refine follows_op_silent (hnow _) fun _ _ => follows_op_silent (hnow _) fun _ _ => ?_
      refine (follows_run_bind _ _ _).mpr (follows_mono (fun g r _ => ?_) mailbox_ensureAccount)
      cases r with
      | error e => trivial
      | ok _ =>
        apply follows_op trivial
        intro r _
        cases r <;> trivial

/-- What a call can create an account for is what its ghost state says. -/
theorem sought_of_creates {Q : Option (String × String) → α → Prop} {p : Prog AppSig α}
    {g : Option (String × String)} {tenantId email : String} (h : Creates tenantId email p)
    (hp : Follows mailboxMonitor Q g p) : g = some (tenantId, email) := by
  refine h.ghost (P := fun g => g = some (tenantId, email)) hp ?_ ?_ ?_
  · exact fun _ _ _ => trivial
  · rintro g o r ⟨hlook, hcreate⟩ hnext
    cases o with
    | accountsGetByEmail tenantId email => cases hlook
    | accountsCreate account => exact absurd rfl (hcreate account)
    | _ => exact hnext
  · intro g o htarget hallows
    cases o with
    | accountsCreate account =>
      obtain ⟨rfl, rfl⟩ := htarget
      exact hallows
    | _ => exact htarget.elim

/-! ### The invariant -/

/-- The accounts are one per mailbox; the rows of a mailbox that a call can create an account for have
its spelling, and so has any other call that can create one. -/
structure Sole (c : Cfg AppSig World α) : Prop where
  unique : OnePerMailbox c.world.db
  rows : ∀ (i : ℕ) (p : Prog AppSig α), c.pool[i]? = some p → ∀ tenantId email,
    Creates tenantId email p → ∀ r ∈ c.world.db.accounts.rows, r.tenantId = tenantId →
      SameMailbox r.emailAddress email → r.emailAddress = email
  calls : ∀ (i j : ℕ) (p q : Prog AppSig α), c.pool[i]? = some p → c.pool[j]? = some q →
    ∀ tenantId email email', Creates tenantId email p → Creates tenantId email' q →
      SameMailbox email email' → email = email'

/-- When a call looks up a mailbox and finds no account, no other call can create one for another
spelling of it. -/
def Undisputed (e : Event AppSig World Env α) : Prop :=
  ∀ tenantId email msg, e.call = ⟨.accountsGetByEmail tenantId email, .error (.notFound msg)⟩ →
    ∀ (j : ℕ) (q : Prog AppSig α), j ≠ e.thread → e.before.pool[j]? = some q →
      ∀ email', Creates tenantId email' q → SameMailbox email email' → email = email'

section Step

variable {e : Event AppSig World Env α} {γ : ℕ → Option (String × String)}
  {Q : Option (String × String) → α → Prop}
  (hstep : (system aead chrono key).Step e) (hpool : PoolFollows mailboxMonitor Q γ e.before.pool)
include hstep hpool

/-- What the calls can create after a step: no more than before, but for a lookup. -/
theorem creates_before {i : ℕ} {p : Prog AppSig α} {tenantId email : String}
    (hp : e.after.pool[i]? = some p) (h : Creates tenantId email p) :
    (∃ q, e.before.pool[i]? = some q ∧ Creates tenantId email q) ∨
      i = e.thread ∧ ∃ sought r, e.call = ⟨.accountsGetByEmail sought.1 sought.2, r⟩ ∧
        ((∃ existing, r = .ok existing ∧ tenantId = existing.tenantId ∧ email = existing.emailAddress) ∨
          ∃ msg, r = .error (.notFound msg) ∧ (tenantId, email) = sought) := by
  rcases hstep.pool_cases hp with ⟨rfl, k, hbefore, rfl⟩ | ⟨_, hbefore⟩
  swap
  · exact Or.inl ⟨p, hbefore, h⟩
  have hfollows := hpool.step hstep trivial e.thread _ hp
  rw [Function.update_self] at hfollows
  have hsought := sought_of_creates h hfollows
  clear hfollows hpool hstep hp
  obtain ⟨before, i, env, o, r, after⟩ := e
  cases o with
  | accountsGetByEmail tenant mail =>
    refine Or.inr ⟨rfl, (tenant, mail), r, rfl, ?_⟩
    cases r with
    | ok existing =>
      obtain ⟨htenant, hmail⟩ := Prod.mk.inj (Option.some.inj hsought)
      exact Or.inl ⟨existing, rfl, htenant.symm, hmail.symm⟩
    | error err =>
      cases err with
      | notFound msg => exact Or.inr ⟨msg, rfl, (Option.some.inj hsought).symm⟩
      | _ => cases hsought
  | accountsCreate account => cases hsought
  | _ => exact Or.inl ⟨_, hbefore, .pass r ⟨rfl, fun account => by simp⟩ h⟩

/-- The accounts after a step: those before, or one more that the stepped call created. -/
theorem rows_step : e.after.world.db.accounts = e.before.world.db.accounts ∨
    ∃ account : Account, e.op = .accountsCreate account ∧
      ¬ SqliteAccountStore.Conflicts e.before.world.db account ∧
      e.after.world.db.accounts.rows = e.before.world.db.accounts.rows ++ [account.toRow] := by
  have hallows := hpool.allows hstep
  obtain ⟨k, _, hexec, _⟩ := hstep
  clear hpool
  obtain ⟨before, i, env, o, r, after⟩ := e
  by_cases ho : o.writesAccounts = false
  · exact Or.inl (accounts_frame ho hexec)
  cases o with
  | accountsCreate account =>
    rcases storage_eq (Option.some.inj hexec) with ⟨hw, _⟩ | ⟨hr, hw⟩
    · exact Or.inl (congrArg (fun w : World => w.db.accounts) hw)
    · cases r with
      | error err =>
        have hdb := SqliteAccountStore.create_error (Prod.ext hr.symm rfl)
        refine Or.inl ((congrArg (fun w : World => w.db.accounts) hw).trans ?_)
        exact congrArg Db.accounts hdb
      | ok u =>
        obtain ⟨hc, hdb⟩ := SqliteAccountStore.create_ok (Prod.ext hr.symm rfl)
        refine Or.inr ⟨account, rfl, hc, ?_⟩
        exact (congrArg (fun w : World => w.db.accounts.rows) hw).trans
          (congrArg (fun db : Db => db.accounts.rows) hdb)
  | accountsSetStatus | accountsDelete => exact hallows.elim
  | _ => exact absurd rfl ho

omit hpool in
/-- What a lookup found is a row. -/
theorem found_row {tenantId email : String} {existing : Account}
    (hcall : e.call = ⟨.accountsGetByEmail tenantId email, .ok existing⟩) :
    ∃ r ∈ e.before.world.db.accounts.rows, r.tenantId = existing.tenantId ∧
      r.emailAddress = existing.emailAddress := by
  obtain ⟨k, _, hexec, _⟩ := hstep
  obtain ⟨before, i, env, o, r, after⟩ := e
  obtain ⟨rfl, hr⟩ := Sigma.mk.inj hcall
  obtain rfl := eq_of_heq hr
  obtain ⟨hfound, _⟩ := storage_ok (Option.some.inj hexec)
  obtain ⟨row, hrow, _, _, rfl⟩ := SqliteAccountStore.getByEmail_ok hfound
  exact ⟨row, (Table.find_eq_some.mp hrow).1, rfl, rfl⟩

omit hpool in
/-- A mailbox that a lookup did not find has no row. -/
theorem missing_row {tenantId email msg : String}
    (hcall : e.call = ⟨.accountsGetByEmail tenantId email, .error (.notFound msg)⟩) :
    ∀ r ∈ e.before.world.db.accounts.rows, r.tenantId = tenantId →
      ¬ SameMailbox r.emailAddress email := by
  obtain ⟨k, _, hexec, _⟩ := hstep
  obtain ⟨before, i, env, o, r, after⟩ := e
  obtain ⟨rfl, hr⟩ := Sigma.mk.inj hcall
  obtain rfl := eq_of_heq hr
  rcases storage_eq (Option.some.inj hexec) with ⟨_, fault, hfault⟩ | ⟨hr, _⟩
  · cases hfault
  · exact fun row hrow htenant => SqliteAccountStore.getByEmail_error hr.symm hrow htenant

/-- A call can create an account for one spelling only. -/
theorem creates_one {i : ℕ} {p : Prog AppSig α} {tenantId email email' : String}
    (hp : e.after.pool[i]? = some p) (h : Creates tenantId email p) (h' : Creates tenantId email' p) :
    email = email' := by
  have hfollows := hpool.step hstep trivial i p hp
  have heq := (sought_of_creates h hfollows).symm.trans (sought_of_creates h' hfollows)
  exact (Prod.mk.inj (Option.some.inj heq)).2

omit hpool in
/-- A call that has just looked up a mailbox agrees with every call that could create an account
before. -/
theorem lookup_agrees (h : Sole e.before) (hundisputed : Undisputed e) {j : ℕ} {q : Prog AppSig α}
    (hj : j ≠ e.thread) (hq : e.before.pool[j]? = some q) {tenantId email email' : String}
    {sought : String × String} {r : Result Account}
    (hcall : e.call = ⟨.accountsGetByEmail sought.1 sought.2, r⟩)
    (hcases : (∃ existing, r = .ok existing ∧ tenantId = existing.tenantId ∧
        email = existing.emailAddress) ∨
      ∃ msg, r = .error (.notFound msg) ∧ (tenantId, email) = sought)
    (hcreates : Creates tenantId email' q) (hsame : SameMailbox email email') : email = email' := by
  rcases hcases with ⟨existing, rfl, rfl, rfl⟩ | ⟨msg, rfl, rfl⟩
  · obtain ⟨row, hrow, htenant, hemail⟩ := found_row hstep hcall
    rw [← hemail] at hsame ⊢
    exact h.rows j q hq _ _ hcreates row hrow htenant hsame
  · exact hundisputed _ _ msg hcall j q hj hq email' hcreates hsame

/-- Rows and calls agree on the spelling of a mailbox after a lookup. -/
theorem sole_lookup (h : Sole e.before) (hundisputed : Undisputed e)
    (haccounts : e.after.world.db.accounts = e.before.world.db.accounts) : Sole e.after := by
  refine ⟨?_, ?_, ?_⟩
  · unfold OnePerMailbox
    rw [haccounts]
    exact h.unique
  · intro i p hp tenantId email hcreates row hrow htenant hsame
    rw [haccounts] at hrow
    rcases creates_before hstep hpool hp hcreates with ⟨q, hq, hcreates'⟩ |
      ⟨_, sought, r, hcall, hcases⟩
    · exact h.rows i q hq _ _ hcreates' row hrow htenant hsame
    · rcases hcases with ⟨existing, rfl, rfl, rfl⟩ | ⟨msg, rfl, rfl⟩
      · obtain ⟨found, hfound, htenant', hemail⟩ := found_row hstep hcall
        rw [← hemail] at hsame ⊢
        rw [h.unique row hrow found hfound (htenant.trans htenant'.symm) hsame]
      · exact absurd hsame (missing_row hstep hcall row hrow htenant)
  · intro i j p q hp hq tenantId email email' hcreates hcreates' hsame
    by_cases hij : i = j
    · subst hij
      obtain rfl := Option.some.inj (hp.symm.trans hq)
      exact creates_one hstep hpool hp hcreates hcreates'
    rcases creates_before hstep hpool hp hcreates with ⟨p', hp', hbefore⟩ |
      ⟨hi, sought, r, hcall, hcases⟩
    · rcases creates_before hstep hpool hq hcreates' with ⟨q', hq', hbefore'⟩ |
        ⟨hj, sought, r, hcall, hcases⟩
      · exact h.calls i j p' q' hp' hq' _ _ _ hbefore hbefore' hsame
      · have hne : i ≠ e.thread := hj ▸ hij
        exact (lookup_agrees hstep h hundisputed hne hp' hcall hcases hbefore hsame.symm).symm
    · have hne : j ≠ e.thread := fun hj => hij (hi.trans hj.symm)
      rcases creates_before hstep hpool hq hcreates' with ⟨q', hq', hbefore'⟩ | ⟨hj, _⟩
      · exact lookup_agrees hstep h hundisputed hne hq' hcall hcases hbefore' hsame
      · exact absurd hj hne

/-- A new account has a mailbox for itself. -/
theorem sole_create (h : Sole e.before) {account : Account}
    (hop : e.op = .accountsCreate account)
    (hfree : ¬ SqliteAccountStore.Conflicts e.before.world.db account)
    (hrows : e.after.world.db.accounts.rows = e.before.world.db.accounts.rows ++ [account.toRow]) :
    Sole e.after := by
  obtain ⟨k, hbefore, _, _⟩ := id hstep
  have hcreator : Creates account.tenantId account.emailAddress (.call e.op k) := by
    refine .here ?_
    rw [hop]
    exact ⟨rfl, rfl⟩
  have hback : ∀ {i : ℕ} {p : Prog AppSig α}, e.after.pool[i]? = some p → ∀ {tenantId email},
      Creates tenantId email p → ∃ q, e.before.pool[i]? = some q ∧ Creates tenantId email q := by
    intro i p hp tenantId email hcreates
    rcases creates_before hstep hpool hp hcreates with hq | ⟨_, sought, r, hcall, _⟩
    · exact hq
    · have hlook : e.op = .accountsGetByEmail sought.1 sought.2 := congrArg Sigma.fst hcall
      rw [hop] at hlook
      cases hlook
  -- No row has the mailbox of the new account.
  have hnew : ∀ row ∈ e.before.world.db.accounts.rows, row.tenantId = account.tenantId →
      ¬ SameMailbox row.emailAddress account.emailAddress := by
    intro row hrow htenant hsame
    have hemail := h.rows _ _ hbefore _ _ hcreator row hrow htenant hsame
    refine hfree (Or.inr (List.mem_map.mpr ⟨row, hrow, ?_⟩))
    exact Prod.ext htenant hemail
  refine ⟨?_, ?_, ?_⟩
  · intro row hrow row' hrow' htenant hsame
    rw [hrows, List.mem_append, List.mem_singleton] at hrow hrow'
    rcases hrow with hrow | rfl <;> rcases hrow' with hrow' | rfl
    · exact h.unique row hrow row' hrow' htenant hsame
    · exact absurd hsame (hnew row hrow htenant)
    · exact absurd hsame.symm (hnew row' hrow' htenant.symm)
    · rfl
  · intro i p hp tenantId email hcreates row hrow htenant hsame
    obtain ⟨q, hq, hcreates'⟩ := hback hp hcreates
    rw [hrows, List.mem_append, List.mem_singleton] at hrow
    rcases hrow with hrow | rfl
    · exact h.rows i q hq _ _ hcreates' row hrow htenant hsame
    · obtain rfl : account.tenantId = tenantId := htenant
      exact h.calls _ i _ q hbefore hq _ _ _ hcreator hcreates' hsame
  · intro i j p q hp hq tenantId email email' hcreates hcreates' hsame
    obtain ⟨p', hp', hbefore₁⟩ := hback hp hcreates
    obtain ⟨q', hq', hbefore₂⟩ := hback hq hcreates'
    exact h.calls i j p' q' hp' hq' _ _ _ hbefore₁ hbefore₂ hsame

/-- **The step lemma.** -/
theorem sole_step (h : Sole e.before) (hundisputed : Undisputed e) : Sole e.after := by
  rcases rows_step hstep hpool with haccounts | ⟨account, hop, hfree, hrows⟩
  · exact sole_lookup hstep hpool h hundisputed haccounts
  · exact sole_create hstep hpool h hop hfree hrows

end Step

/-! ### Runs -/

/-- A pool of `complete_flow` calls, each with its code and state. -/
def completeFlows (oauth : OAuthClient) (flows : List (String × String)) :
    List (Prog AppSig (Outcome Account)) :=
  flows.map fun x => (TokenManager.completeFlow oauth x.1 x.2).run

theorem mailbox_completeFlows {flows : List (String × String)} {i : ℕ}
    {p : Prog AppSig (Outcome Account)} (hp : (completeFlows oauth flows)[i]? = some p)
    (g : Option (String × String)) : Follows mailboxMonitor (fun _ _ => True) g p := by
  rw [completeFlows, List.getElem?_map, Option.map_eq_some_iff] at hp
  obtain ⟨x, _, rfl⟩ := hp
  exact mailbox_completeFlow g

/-- With one account per mailbox, a lookup by email has at most one row to choose from. -/
theorem OnePerMailbox.length_le {db : Db} (h : OnePerMailbox db) (tenantId email : String) :
    (queryAccounts db fun r => r.tenantId = tenantId ∧
      sqliteLower r.emailAddress = sqliteLower email).length ≤ 1 := by
  rw [queryAccounts, List.length_map]
  have hmem : ∀ r, r ∈ db.accounts.rows.filter (fun r => decide (r.tenantId = tenantId ∧
      sqliteLower r.emailAddress = sqliteLower email)) → r ∈ db.accounts.rows ∧
        r.tenantId = tenantId ∧ sqliteLower r.emailAddress = sqliteLower email := by
    intro r hr
    obtain ⟨hrow, hp⟩ := List.mem_filter.mp hr
    exact ⟨hrow, of_decide_eq_true hp⟩
  have hnodup := (List.Nodup.of_map _ db.accounts.nodup).filter (fun r : AccountRow =>
    decide (r.tenantId = tenantId ∧ sqliteLower r.emailAddress = sqliteLower email))
  generalize db.accounts.rows.filter _ = l at hmem hnodup
  rcases l with _ | ⟨r, _ | ⟨r', l⟩⟩
  · exact Nat.zero_le 1
  · exact le_refl 1
  · obtain ⟨hr, htenant, hemail⟩ := hmem r (.head _)
    obtain ⟨hr', htenant', hemail'⟩ := hmem r' (.tail _ (.head _))
    have hsame := h r hr r' hr' (htenant.trans htenant'.symm) (hemail.trans hemail'.symm)
    exact absurd (.head _) (hsame ▸ (List.nodup_cons.mp hnodup).1)

/-- **One account per mailbox**, in every run whose lookups are undisputed. -/
theorem one_account_per_mailbox {flows : List (String × String)} {w : World}
    (hstart : OnePerMailbox w.db) {c' : Cfg AppSig World (Outcome Account)}
    {es : List (Event AppSig World Env (Outcome Account))}
    (h : (system aead chrono key).Run ⟨w, completeFlows oauth flows⟩ es c')
    (hundisputed : ∀ e ∈ es, Undisputed e) :
    OnePerMailbox c'.world.db ∧ ∀ tenantId email,
      (queryAccounts c'.world.db fun r => r.tenantId = tenantId ∧
        sqliteLower r.emailAddress = sqliteLower email).length ≤ 1 := by
  have hfresh : ∀ (i : ℕ) (p : Prog AppSig (Outcome Account)),
      (completeFlows oauth flows)[i]? = some p → ∀ tenantId email, ¬ Creates tenantId email p := by
    intro i p hp tenantId email hcreates
    cases sought_of_creates hcreates (mailbox_completeFlows hp none)
  have hfirst : Sole (⟨w, completeFlows oauth flows⟩ : Cfg AppSig World (Outcome Account)) :=
    ⟨hstart, fun i p hp _ _ hcreates => absurd hcreates (hfresh i p hp _ _),
      fun i _ p _ hp _ _ _ _ hcreates => absurd hcreates (hfresh i p hp _ _)⟩
  obtain ⟨hsole, _⟩ := h.follows (M := mailboxMonitor) (Q := fun _ _ => True)
    (I := fun _ c _ => Sole c) (γ := fun _ => none) hfirst
    (fun i p hp => mailbox_completeFlows hp none)
    (fun past e post hes hstep hpool hbefore _ =>
      ⟨trivial, sole_step hstep hpool hbefore (hundisputed e (by simp [hes]))⟩)
  exact ⟨hsole.unique, hsole.unique.length_le⟩

/-! ### Two runs -/

/-- A process with two pending flows of one tenant. -/
def twoPending : World where
  db :=
    let insert := fun flows state =>
      FlowStore.afterInsert .tagged sampleKey (Env.calm 0 (.error "")).sql "verifier" "tenant-a" state
        flows
    { Db.empty with oauthFlows := ["csrf-1", "csrf-2"].foldl insert .empty }
  locks _ := none

/-- The first call resolves to one spelling of a mailbox, the second to another. -/
def spelling (i : ℕ) : Env :=
  { Env.calm 0 (.ok ⟨"at-1", some "rt-1", none, none⟩) with
    uuid := if i = 0 then "acc-1" else "acc-2"
    resolve := fun _ => .ok ⟨if i = 0 then "A@x" else "a@x", none⟩ }

/-- The calls step as scheduled. -/
def spellingRun (flows : List (String × String)) (sched : List ℕ) :
    Option (List (Event AppSig World Env (Outcome Account)) × Cfg AppSig World (Outcome Account)) :=
  sampleSystem.replay ⟨twoPending, completeFlows sampleOauth flows⟩ (sched.map fun i => (i, spelling i))

/-- The rows of a run, as tenant and email. -/
def mailboxes (c : Cfg AppSig World (Outcome Account)) : List (String × String) :=
  c.world.db.accounts.rows.map fun r => (r.tenantId, r.emailAddress)

theorem onePerMailbox_twoPending : OnePerMailbox twoPending.db := by
  intro r hr
  cases hr

/-- Both calls look the mailbox up before the first inserts it. -/
theorem two_spellings :
    ∃ es c', sampleSystem.Run ⟨twoPending, completeFlows sampleOauth
        [("code-1", "csrf-1"), ("code-2", "csrf-2")]⟩ es c' ∧ OnePerMailbox twoPending.db ∧
      mailboxes c' = [("tenant-a", "A@x"), ("tenant-a", "a@x")] ∧
      ¬ OnePerMailbox c'.world.db := by
  let sched := List.replicate 4 0 ++ List.replicate 4 1 ++ List.replicate 8 0 ++ List.replicate 8 1
  have hchecks : (spellingRun [("code-1", "csrf-1"), ("code-2", "csrf-2")] sched).any (fun run =>
      mailboxes run.2 = [("tenant-a", "A@x"), ("tenant-a", "a@x")]) = true := by
    decide +kernel
  obtain ⟨⟨es, c'⟩, hrun, hmailboxes⟩ := exists_of_any hchecks
  refine ⟨es, c', run_of_replay hrun, onePerMailbox_twoPending, hmailboxes, fun hunique => ?_⟩
  have hrow : ∀ x ∈ mailboxes c', ∃ r ∈ c'.world.db.accounts.rows,
      (r.tenantId, r.emailAddress) = x := fun x hx => List.mem_map.mp hx
  obtain ⟨r, hr, hfirst⟩ := hrow ("tenant-a", "A@x") (by simp [hmailboxes])
  obtain ⟨r', hr', hsecond⟩ := hrow ("tenant-a", "a@x") (by simp [hmailboxes])
  obtain ⟨htenant, hemail⟩ := Prod.mk.inj hfirst
  obtain ⟨htenant', hemail'⟩ := Prod.mk.inj hsecond
  have hsame : SameMailbox r.emailAddress r'.emailAddress := by
    rw [hemail, hemail']
    show sqliteLower "A@x" = sqliteLower "a@x"
    decide
  obtain rfl := hunique r hr r' hr' (htenant.trans htenant'.symm) hsame
  exact absurd (hemail.symm.trans hemail') (by decide)

/-- The mailbox that a step looks up. -/
def lookedUp (e : Event AppSig World Env α) : Option (String × String) :=
  match e.op with
  | .accountsGetByEmail tenantId email => some (tenantId, email)
  | _ => none

/-- Two mailboxes of a tenant are the same only in one spelling. -/
def spelledAlike (sought other : String × String) : Bool :=
  other.1 != sought.1 || sqliteLower sought.2 != sqliteLower other.2 || sought.2 == other.2

/-- Whoever looks up a mailbox, each of the other `n` calls that may create an account for it spells it
the same way. -/
def SoughtAlike (n : ℕ) (es : List (Event AppSig World Env α)) : Prop :=
  ∀ k < es.length, ∀ e ∈ es[k]?, ∀ sought ∈ lookedUp e, ∀ j < n, j ≠ e.thread →
    ∀ other ∈ ghosts mailboxMonitor (fun _ => none) (es.take k) j, spelledAlike sought other

instance (n : ℕ) (es : List (Event AppSig World Env α)) : Decidable (SoughtAlike n es) := by
  unfold SoughtAlike
  infer_instance

/-- Then no lookup is disputed. -/
theorem undisputed_of_sought {flows : List (String × String)} {w : World}
    {c' : Cfg AppSig World (Outcome Account)} {es : List (Event AppSig World Env (Outcome Account))}
    (h : (system aead chrono key).Run ⟨w, completeFlows oauth flows⟩ es c')
    (halike : SoughtAlike flows.length es) : ∀ e ∈ es, Undisputed e := by
  intro e he tenantId email msg hcall j q hj hq email' hcreates hsame
  obtain ⟨past, post, rfl⟩ := List.append_of_mem he
  have hfollows := (h.split.1.follows (M := mailboxMonitor) (Q := fun _ _ => True)
    (I := fun _ _ _ => True) (γ := fun _ => none) trivial
    (fun i p hp => mailbox_completeFlows hp none) fun _ _ _ _ _ _ _ _ => ⟨trivial, trivial⟩).2
  have hsought := sought_of_creates hcreates (hfollows j q hq)
  have hthread : j < flows.length := by
    have hlt := (List.getElem?_eq_some_iff.mp hq).1
    rwa [h.split.1.pool_length, completeFlows, List.length_map] at hlt
  have hlooked : lookedUp e = some (tenantId, email) := by
    rw [lookedUp, show e.op = .accountsGetByEmail tenantId email from congrArg Sigma.fst hcall]
  have hall := halike past.length (by simp) e (by simp) _ hlooked j hthread hj
  rw [List.take_left, hsought] at hall
  have hspelled := hall _ rfl
  rw [SameMailbox] at hsame
  simpa [spelledAlike, hsame] using hspelled

/-- Both calls look the mailbox up before the first inserts it, in one spelling: the second insertion is
refused. -/
theorem one_account_per_mailbox_interleaved :
    ∃ es c', sampleSystem.Run ⟨twoPending, completeFlows sampleOauth
        [("code-1", "csrf-1"), ("code-2", "csrf-2")]⟩ es c' ∧
      c'.returned.map (Option.map Except.isOk) = [some true, some false] ∧
      mailboxes c' = [("tenant-a", "a@x")] ∧ OnePerMailbox c'.world.db := by
  let sched := List.replicate 4 0 ++ List.replicate 4 1 ++ List.replicate 8 0 ++ List.replicate 7 1
  let run := sampleSystem.replay ⟨twoPending, completeFlows sampleOauth
    [("code-1", "csrf-1"), ("code-2", "csrf-2")]⟩
    (sched.map fun i => (i, { spelling i with resolve := fun _ => .ok ⟨"a@x", none⟩ }))
  have hchecks : run.any (fun run =>
      run.2.returned.map (Option.map Except.isOk) = [some true, some false] ∧
      mailboxes run.2 = [("tenant-a", "a@x")] ∧ SoughtAlike 2 run.1) = true := by
    decide +kernel
  obtain ⟨⟨es, c'⟩, hrun, hreturned, hmailboxes, halike⟩ := exists_of_any hchecks
  have hexec := run_of_replay hrun
  exact ⟨es, c', hexec, hreturned, hmailboxes, (one_account_per_mailbox onePerMailbox_twoPending hexec
    (undisputed_of_sought hexec halike)).1⟩

end UniMail
