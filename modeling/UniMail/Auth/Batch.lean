import UniMail.Auth.Callback
import UniMail.Auth.Refresh

/-!
# Refreshing one account after the other

A batch is a list of refreshes, each with its labels and its result (`Batch`). A refresh works on
the row and the mutex of its own account only (`ownMonitor`): it leaves the others as they are, and
it runs in any world that agrees on these two. So every refresh of a batch is the one that would run
alone from the initial world (`Batch.alone`).
-/

namespace UniMail

open Interaction Relational

variable {aead : Aead} {chrono : Chrono} {key : Key} {oauth : OAuthClient} {i : ℕ} {w w' : World}
  {accountId : String} {ls : List (Label AppSig World Env)}

/-! ### The operations of one refresh -/

/-- The operations on one account, its mutex, the provider and the clock. -/
def ownMonitor (accountId : String) : Monitor AppSig Unit where
  allows _ o := match o with
    | .accountLock id => id = accountId
    | .acquire id => id = accountId
    | .release id => id = accountId
    | .tokensGet id => id = accountId
    | .tokensUpsert id _ => id = accountId
    | .token _ => True
    | .utcNow => True
    | _ => False
  expects _ _ _ := True
  next g _ _ := g

theorem ownMonitor_rules (accountId : String) :
    TokenRules (ownMonitor accountId) accountId (fun _ => True) fun _ _ => True where
  clock := fun _ => ⟨trivial, fun _ => rfl⟩
  lock := by
    intro o ho g _
    simp only [List.mem_cons, List.not_mem_nil, or_false] at ho
    rcases ho with rfl | rfl | rfl <;> exact ⟨rfl, fun _ => rfl⟩
  base := fun _ _ _ => trivial
  get := fun _ _ => rfl
  got := fun _ _ _ => trivial
  read := fun _ _ _ => trivial
  present := fun _ _ _ => trivial
  denied := fun _ _ _ _ => trivial
  granted := fun _ _ _ _ => trivial
  write := fun _ _ _ => rfl
  wrote := fun _ _ _ _ => trivial

theorem follows_own : Follows (ownMonitor accountId) (fun _ _ => True) ()
    (TokenManager.refreshAccount oauth accountId).run :=
  (ownMonitor_rules accountId).follows_refreshAccount trivial

/-- What a refresh of the account leaves as it is. -/
structure OthersKept (accountId : String) (w w' : World) : Prop where
  accounts : w'.db.accounts = w.db.accounts
  tokens : ∀ x, x ≠ accountId → w'.db.tokens.find x = w.db.tokens.find x
  locks : ∀ x, x ≠ accountId → w'.locks x = w.locks x

theorem OthersKept.refl (accountId : String) (w : World) : OthersKept accountId w w :=
  ⟨rfl, fun _ _ => rfl, fun _ _ => rfl⟩

theorem OthersKept.trans {w₁ w₂ w₃ : World} (h : OthersKept accountId w₁ w₂)
    (h' : OthersKept accountId w₂ w₃) : OthersKept accountId w₁ w₃ where
  accounts := h'.accounts.trans h.accounts
  tokens x hx := (h'.tokens x hx).trans (h.tokens x hx)
  locks x hx := (h'.locks x hx).trans (h.locks x hx)

/-- The rows of the other accounts after a token was written. -/
theorem tokens_kept {id x : String} {token : StoredToken} {r : Result Unit} {env : Env}
    (h : (system aead chrono key).exec i (.tokensUpsert id token) env w = some (r, w')) (hx : x ≠ id) :
    w'.db.tokens.find x = w.db.tokens.find x := by
  cases r with
  | error e => rw [tokensUpsert_error h]
  | ok u =>
    obtain ⟨ha, hdb, _⟩ := tokensUpsert_ok h
    rw [hdb, SqliteTokenStore.find_stored, if_neg (Ne.symm hx)]

theorem own_step {o : Op} {r : Op.Reply o} {env : Env}
    (hallows : (ownMonitor accountId).allows () o)
    (h : (system aead chrono key).exec i o env w = some (r, w')) : OthersKept accountId w w' := by
  have hlocks : ∀ x, x ≠ accountId → o.lock? ≠ some x := by
    intro x hx heq
    cases o with
    | accountLock id | acquire id | release id =>
      obtain rfl : id = accountId := hallows
      exact hx (Option.some.inj heq).symm
    | _ => cases heq
  refine ⟨accounts_frame ?_ h, fun x hx => ?_, fun x hx => locks_frame (hlocks x hx) h⟩
  · cases o with
    | accountsCreate | accountsSetStatus | accountsDelete => exact absurd hallows id
    | _ => rfl
  · cases o with
    | tokensUpsert id token =>
      obtain rfl : id = accountId := hallows
      exact tokens_kept h hx
    | accountsDelete | tokensDelete => exact absurd hallows id
    | _ => rw [tokens_frame rfl h]

/-- **A refresh leaves the other accounts as they are.** -/
theorem refresh_others {r : Outcome Unit}
    (h : Exec (system aead chrono key) i (TokenManager.refreshAccount oauth accountId).run w ls r
      w') : OthersKept accountId w w' := by
  obtain ⟨_, hkept, _⟩ := h.follows (I := fun _ w' => OthersKept accountId w w') follows_own
    (OthersKept.refl accountId w) fun l _ _ w₁ hkept hallows hexec =>
      ⟨trivial, hkept.trans (own_step hallows hexec)⟩
  exact hkept

/-! ### The same refresh in another world -/

/-- The worlds agree on what a refresh of the account sees. -/
structure SameOwn (accountId : String) (w₁ w₂ : World) : Prop where
  account : w₁.db.accounts.find accountId = w₂.db.accounts.find accountId
  token : w₁.db.tokens.find accountId = w₂.db.tokens.find accountId
  lock : w₁.locks accountId = w₂.locks accountId

/-- Every operation of a refresh has the same reply in both. -/
theorem own_agrees : Agrees (system aead chrono key) (ownMonitor accountId)
    fun _ w₁ w₂ => SameOwn accountId w₁ w₂ := by
  intro γ i o env r w₁ w₂ w₁' hw hallows hexec
  have hlock := hw.lock
  cases o with
  | tokensUpsert id token =>
    obtain rfl : id = accountId := hallows
    obtain ⟨hresult, htoken⟩ := SqliteTokenStore.upsert_congr aead chrono key
      hw.account.symm hw.token.symm token env.nonces
    obtain ⟨w₂', hexec₂, hcases⟩ := storage_lockstep hresult (Option.some.inj hexec)
    refine ⟨w₂', congrArg some hexec₂, trivial, ?_⟩
    rcases hcases with ⟨rfl, rfl⟩ | ⟨rfl, rfl⟩
    · exact hw
    · refine ⟨?_, htoken.symm, hlock⟩
      rw [SqliteTokenStore.upsert_accounts, SqliteTokenStore.upsert_accounts]
      exact hw.account
  | tokensGet id =>
    obtain rfl : id = accountId := hallows
    have hget : (SqliteTokenStore.get aead chrono key id env.now w₂.db, w₂.db).1 =
        (SqliteTokenStore.get aead chrono key id env.now w₁.db, w₁.db).1 :=
      SqliteTokenStore.get_congr hw.token.symm env.now
    obtain ⟨w₂', hexec₂, hcases⟩ := storage_lockstep hget (Option.some.inj hexec)
    refine ⟨w₂', congrArg some hexec₂, trivial, ?_⟩
    rcases hcases with ⟨rfl, rfl⟩ | ⟨rfl, rfl⟩ <;> exact hw
  | accountLock id =>
    obtain rfl : id = accountId := hallows
    simp only [system] at hexec ⊢
    rw [← hlock]
    split at hexec
    · cases hexec
      exact ⟨w₂, rfl, trivial, hw⟩
    · cases hexec
      exact ⟨_, rfl, trivial, hw.account, hw.token, by simp⟩
  | acquire id =>
    obtain rfl : id = accountId := hallows
    simp only [system] at hexec ⊢
    rw [← hlock]
    split at hexec <;> cases hexec
    exact ⟨_, rfl, trivial, hw.account, hw.token, by simp⟩
  | release id =>
    obtain rfl : id = accountId := hallows
    cases hexec
    exact ⟨_, rfl, trivial, hw.account, hw.token, by simp⟩
  | token | utcNow =>
    cases hexec
    exact ⟨w₂, rfl, trivial, hw⟩
  | _ => exact hallows.elim

/-! ### A refresh does not wait -/

/-- No refresh mutex is held. -/
def Unheld (w : World) : Prop := ∀ id j, w.locks id ≠ some (some j)

theorem completes_requestTokens (request : TokenRequest) (failed : String → AppError) :
    Completes (system aead chrono key) i (oauth.requestTokens request failed).run
      (fun _ w' => w' = w) w := by
  unfold OAuthClient.requestTokens
  refine completes_check_bind (fun _ => ?_) fun _ => rfl
  apply completes_op_bind (by simp)
  intro env r w₁ hexec
  obtain ⟨_, rfl⟩ := token_eq hexec
  cases r with
  | error e => exact rfl
  | ok response =>
    show Completes _ i (tokenSetFrom response).run _ w₁
    unfold tokenSetFrom
    cases response.expiresIn with
    | none => exact rfl
    | some secs =>
      apply completes_op_bind (by simp)
      intro env now w₂ hnow
      obtain ⟨_, rfl⟩ := utcNow_eq hnow
      exact completes_orPanic_bind (fun _ => rfl) fun _ => rfl

theorem completes_refreshLocked :
    Completes (system aead chrono key) i (TokenManager.refreshLocked oauth accountId).run
      (fun _ w' => w'.locks = w.locks) w := by
  have hframe : ∀ {o : Op} {r : Op.Reply o} {env : Env} {w w' : World}, o.lock? = none →
      (system aead chrono key).exec i o env w = some (r, w') → w'.locks = w.locks := by
    intro o r env w w' ho hexec
    funext id
    exact locks_frame (by simp [ho]) hexec
  unfold TokenManager.refreshLocked
  apply completes_op_bind (by simp)
  intro env r w₁ hread
  have hlocks := hframe rfl hread
  refine completes_check_bind (fun stored => ?_) fun _ => hlocks
  cases stored with
  | none => exact hlocks
  | some current =>
    refine (completes_run_bind _ _ _ _).mpr ((completes_requestTokens _ _).mono ?_)
    rintro r _ rfl
    cases r with
    | error e => exact hlocks
    | ok tokenSet =>
      apply completes_op_bind (by simp)
      intro env₁ _ w₂ hnow₁
      obtain ⟨_, rfl⟩ := utcNow_eq hnow₁
      apply completes_op_bind (by simp)
      intro env₂ _ w₃ hnow₂
      obtain ⟨_, rfl⟩ := utcNow_eq hnow₂
      apply completes_op_bind (by simp)
      intro env₃ r w₄ hstore
      exact (hframe rfl hstore).trans hlocks

/-- A refresh that finds no mutex held is never kept waiting, and holds none in the end. -/
theorem completes_refreshAccount (hunheld : Unheld w) :
    Completes (system aead chrono key) i (TokenManager.refreshAccount oauth accountId).run
      (fun _ w' => Unheld w') w := by
  unfold TokenManager.refreshAccount
  apply completes_op_bind (by simp)
  intro env _ w₁ hlock
  have hothers : ∀ id, id ≠ accountId → w₁.locks id = w.locks id := fun id hid =>
    locks_frame (by simpa [Op.lock?] using Ne.symm hid) hlock
  have hfree : w₁.locks accountId = some none := by
    rw [(accountLock_eq hlock).2]
    cases hentry : w.locks accountId with
    | none => rfl
    | some holder =>
      cases holder with
      | none => rfl
      | some j => exact absurd hentry (hunheld accountId j)
  intro env₂
  refine ⟨(), { w₁ with locks := Function.update w₁.locks accountId (some (some i)) }, ?_, ?_⟩
  · simp only [system, hfree]
  show Completes _ i (guarded accountId (TokenManager.refreshLocked oauth accountId)).run _ _
  refine (completes_bind _ _ _ _).mpr (completes_refreshLocked.mono fun r w₂ hlocks => ?_)
  intro env₃
  refine ⟨(), _, rfl, fun id j => ?_⟩
  by_cases hid : id = accountId
  · subst hid
    simp
  · show Function.update w₂.locks accountId (some none) id ≠ _
    rw [Function.update_of_ne hid, hlocks]
    show Function.update w₁.locks accountId (some (some i)) id ≠ _
    rw [Function.update_of_ne hid, hothers id hid]
    exact hunheld id j

/-! ### Batches -/

/-- One refresh of a batch. -/
structure Attempt where
  accountId : String
  labels : List (Label AppSig World Env)
  result : Result Unit

/-- The labels of a batch. -/
def labelsOf (batch : List Attempt) : List (Label AppSig World Env) :=
  (batch.map Attempt.labels).flatten

/-- The refreshes run one after the other, and none panics. -/
inductive Batch (aead : Aead) (chrono : Chrono) (key : Key) (oauth : OAuthClient) (i : ℕ) :
    World → List Attempt → World → Prop
  | nil (w : World) : Batch aead chrono key oauth i w [] w
  | cons {w w₁ w' : World} {attempt : Attempt} {batch : List Attempt}
      (h : Exec (system aead chrono key) i
        (TokenManager.refreshAccount oauth attempt.accountId).run w attempt.labels
          (attempt.result.mapError .err) w₁)
      (hrest : Batch aead chrono key oauth i w₁ batch w') :
      Batch aead chrono key oauth i w (attempt :: batch) w'

theorem SameOwn.refl (accountId : String) (w : World) : SameOwn accountId w w := ⟨rfl, rfl, rfl⟩

theorem SameOwn.trans {w₁ w₂ w₃ : World} (h : SameOwn accountId w₁ w₂)
    (h' : SameOwn accountId w₂ w₃) : SameOwn accountId w₁ w₃ :=
  ⟨h.account.trans h'.account, h.token.trans h'.token, h.lock.trans h'.lock⟩

theorem OthersKept.sameOwn {x : String} (h : OthersKept accountId w w') (hx : x ≠ accountId) :
    SameOwn x w' w :=
  ⟨congrArg (Table.find · x) h.accounts, h.tokens x hx, h.locks x hx⟩

namespace Batch

variable {batch : List Attempt} {attempt : Attempt}

/-- A batch leaves the accounts it does not attempt as they are. -/
theorem others (h : Batch aead chrono key oauth i w batch w')
    (hx : accountId ∉ batch.map Attempt.accountId) : SameOwn accountId w' w := by
  induction h with
  | nil w => exact SameOwn.refl accountId w
  | cons hexec _ ih =>
    rw [List.map_cons, List.mem_cons, not_or] at hx
    exact (ih hx.2).trans ((refresh_others hexec).sameOwn hx.1)

/-- An attempt of a batch found its account as it was at the start, and left it as it is in the
end. -/
theorem attempted (h : Batch aead chrono key oauth i w batch w')
    (hnodup : (batch.map Attempt.accountId).Nodup) (ha : attempt ∈ batch) :
    ∃ w₁ w₂, Exec (system aead chrono key) i
        (TokenManager.refreshAccount oauth attempt.accountId).run w₁ attempt.labels
          (attempt.result.mapError .err) w₂ ∧
      SameOwn attempt.accountId w₁ w ∧ SameOwn attempt.accountId w' w₂ := by
  induction h with
  | nil w => simp at ha
  | @cons _ _ _ first rest hexec hrest ih =>
    rw [List.map_cons, List.nodup_cons] at hnodup
    rcases List.mem_cons.mp ha with rfl | ha
    · exact ⟨_, _, hexec, SameOwn.refl _ _, hrest.others hnodup.1⟩
    · obtain ⟨w₁, w₂, hexec₁, hbefore, hafter⟩ := ih hnodup.2 ha
      have hmem : attempt.accountId ∈ rest.map Attempt.accountId := List.mem_map_of_mem ha
      have hne : attempt.accountId ≠ first.accountId := fun heq => hnodup.1 (heq ▸ hmem)
      exact ⟨w₁, w₂, hexec₁, hbefore.trans ((refresh_others hexec).sameOwn hne), hafter⟩

/-- **Each refresh of a batch is the one that runs alone from the start**, in the same environment,
and leaves the row the batch leaves. -/
theorem alone (h : Batch aead chrono key oauth i w batch w')
    (hnodup : (batch.map Attempt.accountId).Nodup) (ha : attempt ∈ batch) :
    ∃ lone wₗ, Exec (system aead chrono key) i
        (TokenManager.refreshAccount oauth attempt.accountId).run w lone
          (attempt.result.mapError .err) wₗ ∧
      lone.map Label.view = attempt.labels.map Label.view ∧
      wₗ.db.tokens.find attempt.accountId = w'.db.tokens.find attempt.accountId := by
  obtain ⟨w₁, w₂, hexec, hbefore, hafter⟩ := h.attempted hnodup ha
  obtain ⟨lone, wₗ, _, hlone, hview, hsame, _⟩ :=
    hexec.lockstep own_agrees (γ := fun _ => ()) hbefore follows_own
  exact ⟨lone, wₗ, hlone, hview, hsame.token.symm.trans hafter.token.symm⟩

/-- A failed attempt leaves the row as it was. -/
theorem failed (h : Batch aead chrono key oauth i w batch w')
    (hnodup : (batch.map Attempt.accountId).Nodup) (ha : attempt ∈ batch)
    (hcalm : Calm attempt.labels) (hfailed : attempt.result ≠ .ok ()) :
    w'.db.tokens.find attempt.accountId = w.db.tokens.find attempt.accountId := by
  obtain ⟨w₁, w₂, hexec, hbefore, hafter⟩ := h.attempted hnodup ha
  have hdb : w₂.db = w₁.db := by
    refine (exec_refreshAccount hcalm hexec).2.failed fun hok => hfailed ?_
    cases hresult : attempt.result with
    | ok u => rfl
    | error e =>
      rw [hresult] at hok
      cases hok
  rw [hafter.token, hdb, hbefore.token]

end Batch

/-! ### What a batch shows -/

/-- A refresh begins with its mutex. -/
theorem head_refreshAccount {r : Outcome Unit}
    (h : Exec (system aead chrono key) i (TokenManager.refreshAccount oauth accountId).run w ls r
      w') : ∀ l, ls.head? = some l → l.op ≠ .utcNow := by
  obtain ⟨env₁, env₂, env₃, w₁, w₂, w₃, ls₁, rfl, _⟩ := exec_refreshAccount_cons h
  intro l hl
  cases hl
  simp

theorem head_append {ls₁ ls₂ : List (Label AppSig World Env)}
    (h₁ : ∀ l, ls₁.head? = some l → l.op ≠ .utcNow)
    (h₂ : ∀ l, ls₂.head? = some l → l.op ≠ .utcNow) :
    ∀ l, (ls₁ ++ ls₂).head? = some l → l.op ≠ .utcNow := by
  cases ls₁ with
  | nil => exact h₂
  | cons l ls₁ => exact h₁

theorem Batch.head {batch : List Attempt} (h : Batch aead chrono key oauth i w batch w') :
    ∀ l, (labelsOf batch).head? = some l → l.op ≠ .utcNow := by
  induction h with
  | nil => simp [labelsOf]
  | cons hexec _ ih => exact head_append (head_refreshAccount hexec) ih

/-- The grants of a batch that does not panic do not overflow. -/
theorem Batch.shown {batch : List Attempt} (h : Batch aead chrono key oauth i w batch w')
    (hcalm : Calm (labelsOf batch)) :
    attempts (labelsOf batch) = batch.map Attempt.accountId ∧
      ∀ g ∈ grants (labelsOf batch), Representable g := by
  induction h with
  | nil => exact ⟨rfl, by simp [labelsOf, grants]⟩
  | @cons _ _ _ first rest hexec hrest ih =>
    obtain ⟨hcalm₁, hcalm₂⟩ := calm_append.mp hcalm
    obtain ⟨hattempts, hgrants⟩ := ih hcalm₂
    obtain ⟨hattempt, hrun⟩ := exec_refreshAccount hcalm₁ hexec
    have hlabels : labelsOf (first :: rest) = first.labels ++ labelsOf rest := rfl
    rw [hlabels, attempts_append, grants_append hrest.head, hattempt, hattempts]
    refine ⟨rfl, fun g hg => ?_⟩
    rcases List.mem_append.mp hg with hg | hg
    · by_contra hover
      obtain ⟨msg, hmsg⟩ := hrun.panics_iff.mpr ⟨g, hg, hover⟩
      cases hresult : first.result <;> rw [hresult] at hmsg <;> cases hmsg
    · exact hgrants g hg

/-! ### The loops -/

section Loops

variable {α β : Type}

theorem exec_outcome_bind {m : Machine AppSig World Env} {body : Async α} {f : Result α → Async β}
    {r : Outcome β} (h : Exec m i (outcome body >>= f).run w ls r w') :
    (∃ result w₁ ls₁ ls₂, Exec m i body.run w ls₁ (result.mapError .err) w₁ ∧
      Exec m i (f result).run w₁ ls₂ r w' ∧ ls = ls₁ ++ ls₂) ∨
    ∃ msg, Exec m i body.run w ls (.error (.panic msg)) w' ∧ r = .error (.panic msg) := by
  have houtcome : ∀ {ls : List (Label AppSig World Env)} {r : Outcome (Result α)} {w' : World},
      Exec m i (outcome body).run w ls r w' →
        (∃ result, Exec m i body.run w ls (result.mapError .err) w' ∧ r = .ok result) ∨
        ∃ msg, Exec m i body.run w ls (.error (.panic msg)) w' ∧ r = .error (.panic msg) := by
    intro ls r w' h
    obtain ⟨ended, w₁, ls₁, ls₂, hbody, hend, rfl⟩ := exec_bind.mp h
    cases ended with
    | ok a =>
      obtain ⟨rfl, rfl, rfl⟩ := exec_ret.mp hend
      exact Or.inl ⟨.ok a, by rwa [List.append_nil], rfl⟩
    | error e =>
      cases e with
      | err e =>
        obtain ⟨rfl, rfl, rfl⟩ := exec_ret.mp hend
        exact Or.inl ⟨.error e, by rwa [List.append_nil], rfl⟩
      | panic msg =>
        obtain ⟨rfl, rfl, rfl⟩ := exec_ret.mp hend
        exact Or.inr ⟨msg, by rwa [List.append_nil], rfl⟩
  rcases exec_run_bind h with ⟨result, w₁, ls₁, ls₂, hbody, hrest, rfl⟩ | ⟨e, hbody, rfl⟩
  · rcases houtcome hbody with ⟨result', hexec, hresult⟩ | ⟨msg, _, hpanic⟩
    · cases hresult
      exact Or.inl ⟨result, w₁, ls₁, ls₂, hexec, hrest, rfl⟩
    · cases hpanic
  · rcases houtcome hbody with ⟨result', _, hresult⟩ | ⟨msg, hexec, hpanic⟩
    · cases hresult
    · cases hpanic
      exact Or.inr ⟨msg, hexec, rfl⟩

/-- A refresh panicked after a batch, and the loop with it. -/
def Aborted (aead : Aead) (chrono : Chrono) (key : Key) (oauth : OAuthClient) (i : ℕ) (w : World)
    (ls : List (Label AppSig World Env)) (r : Outcome β) (w' : World) : Prop :=
  ∃ batch w₁ accountId ls₁ msg, Batch aead chrono key oauth i w batch w₁ ∧
    Exec (system aead chrono key) i (TokenManager.refreshAccount oauth accountId).run w₁ ls₁
      (.error (.panic msg)) w' ∧ ls = labelsOf batch ++ ls₁ ∧ r = .error (.panic msg)

/-- The loop aborts at a grant that overflows. -/
theorem Aborted.overflow {r : Outcome β} (h : Aborted aead chrono key oauth i w ls r w')
    (hcalm : Calm ls) : (∃ msg, r = .error (.panic msg)) ∧ ∃ g ∈ grants ls, ¬ Representable g := by
  obtain ⟨batch, w₁, accountId, ls₁, msg, _, hexec, rfl, rfl⟩ := h
  obtain ⟨_, hrun⟩ := exec_refreshAccount (calm_append.mp hcalm).2 hexec
  obtain ⟨g, hg, hover⟩ := hrun.panics_iff.mp ⟨msg, rfl⟩
  rw [grants_append (head_refreshAccount hexec)]
  exact ⟨⟨msg, rfl⟩, g, List.mem_append_right _ hg, hover⟩

/-- A loop that goes on after a refresh. -/
theorem exec_attempt {f : Result Unit → Async β} {r : Outcome β}
    (h : Exec (system aead chrono key) i
      (outcome (TokenManager.refreshAccount oauth accountId) >>= f).run w ls r w') :
    (∃ (attempt : Attempt) (w₁ : World) (ls₂ : List (Label AppSig World Env)),
      attempt.accountId = accountId ∧
      Exec (system aead chrono key) i (TokenManager.refreshAccount oauth attempt.accountId).run w
        attempt.labels (attempt.result.mapError .err) w₁ ∧
      Exec (system aead chrono key) i (f attempt.result).run w₁ ls₂ r w' ∧
      ls = attempt.labels ++ ls₂) ∨ Aborted aead chrono key oauth i w ls r w' := by
  rcases exec_outcome_bind h with ⟨result, w₁, ls₁, ls₂, hexec, hrest, rfl⟩ | ⟨msg, hexec, rfl⟩
  · exact Or.inl ⟨⟨accountId, ls₁, result⟩, w₁, ls₂, rfl, hexec, hrest, rfl⟩
  · exact Or.inr ⟨[], w, accountId, ls, msg, .nil w, hexec, rfl, rfl⟩

theorem Aborted.cons {attempt : Attempt} {w₁ : World} {r : Outcome α} {r' : Outcome β}
    (hexec : Exec (system aead chrono key) i
      (TokenManager.refreshAccount oauth attempt.accountId).run w attempt.labels
        (attempt.result.mapError .err) w₁)
    (h : Aborted aead chrono key oauth i w₁ ls r w') (hr : ∀ e, r = .error e → r' = .error e) :
    Aborted aead chrono key oauth i w (attempt.labels ++ ls) r' w' := by
  obtain ⟨batch, w₂, accountId, ls₁, msg, hbatch, hpanic, rfl, rfl⟩ := h
  refine ⟨attempt :: batch, w₂, accountId, ls₁, msg, .cons hexec hbatch, hpanic, ?_, hr _ rfl⟩
  exact (List.append_assoc ..).symm

/-- The loop over account ids. -/
theorem exec_refreshIds {ids : List String} {r : Outcome Nat}
    (h : Exec (system aead chrono key) i (TokenManager.refreshIds oauth ids).run w ls r w') :
    (∃ batch, Batch aead chrono key oauth i w batch w' ∧ batch.map Attempt.accountId = ids ∧
      ls = labelsOf batch ∧ r = .ok (batch.countP fun attempt => attempt.result.isOk)) ∨
    Aborted aead chrono key oauth i w ls r w' := by
  induction ids generalizing w ls r with
  | nil =>
    obtain ⟨rfl, rfl, rfl⟩ := exec_pure h
    exact Or.inl ⟨[], .nil w', rfl, rfl, rfl⟩
  | cons id ids ih =>
    unfold TokenManager.refreshIds at h
    rcases exec_attempt h with ⟨attempt, w₁, ls₂, rfl, hexec, hrest, rfl⟩ | haborted
    · rcases exec_run_bind hrest with ⟨count, w₂, ls₃, ls₄, hloop, hend, rfl⟩ | ⟨e, hloop, rfl⟩
      · obtain ⟨rfl, rfl, rfl⟩ := exec_pure hend
        rcases ih hloop with ⟨batch, hbatch, hids, rfl, hcount⟩ | haborted
        · refine Or.inl ⟨attempt :: batch, .cons hexec hbatch, ?_, ?_, ?_⟩
          · rw [List.map_cons, hids]
          · rw [List.append_nil]
            rfl
          · rw [List.countP_cons, Except.ok.inj hcount, Nat.add_comm]
        · obtain ⟨_, _, _, _, _, _, _, _, hr⟩ := haborted
          cases hr
      · rcases ih hloop with ⟨_, _, _, _, hr⟩ | haborted
        · cases hr
        · exact Or.inr (haborted.cons hexec fun e he => by cases he; rfl)
    · exact Or.inr haborted

/-- The accounts `refresh_all` is about. -/
def connectedOf (accounts : List Account) : List Account :=
  accounts.filter fun account => account.status ≠ .disconnected

/-- The loop over accounts. -/
theorem exec_refreshEach {accounts : List Account} {r : Outcome (List (Account × Result Unit))}
    (h : Exec (system aead chrono key) i (TokenManager.refreshEach oauth accounts).run w ls r w') :
    (∃ batch, Batch aead chrono key oauth i w batch w' ∧
      batch.map Attempt.accountId = (connectedOf accounts).map Account.id ∧
      ls = labelsOf batch ∧ r = .ok ((connectedOf accounts).zip (batch.map Attempt.result))) ∨
    Aborted aead chrono key oauth i w ls r w' := by
  induction accounts generalizing w ls r with
  | nil =>
    obtain ⟨rfl, rfl, rfl⟩ := exec_pure h
    exact Or.inl ⟨[], .nil w', rfl, rfl, rfl⟩
  | cons account accounts ih =>
    unfold TokenManager.refreshEach at h
    by_cases hstatus : account.status = .disconnected
    · rw [if_pos hstatus] at h
      have hskip : connectedOf (account :: accounts) = connectedOf accounts := by
        simp [connectedOf, hstatus]
      rw [hskip]
      exact ih h
    · rw [if_neg hstatus] at h
      have hkeep : connectedOf (account :: accounts) = account :: connectedOf accounts := by
        simp [connectedOf, hstatus]
      rw [hkeep]
      rcases exec_attempt h with ⟨attempt, w₁, ls₂, hid, hexec, hrest, rfl⟩ | haborted
      · rcases exec_run_bind hrest with ⟨outcomes, w₂, ls₃, ls₄, hloop, hend, rfl⟩ | ⟨e, hloop, rfl⟩
        · obtain ⟨rfl, rfl, rfl⟩ := exec_pure hend
          rcases ih hloop with ⟨batch, hbatch, hids, rfl, houtcomes⟩ | haborted
          · refine Or.inl ⟨attempt :: batch, .cons hexec hbatch, ?_, ?_, ?_⟩
            · rw [List.map_cons, List.map_cons, hids, hid]
            · rw [List.append_nil]
              rfl
            · rw [Except.ok.inj houtcomes]
              rfl
          · obtain ⟨_, _, _, _, _, _, _, _, hr⟩ := haborted
            cases hr
        · rcases ih hloop with ⟨_, _, _, _, hr⟩ | haborted
          · cases hr
          · exact Or.inr (haborted.cons hexec fun e he => by cases he; rfl)
      · exact Or.inr haborted

theorem completes_outcome_bind {m : Machine AppSig World Env} {body : Async α}
    {f : Result α → Async β} {P : World → Prop} {Q : Outcome β → World → Prop}
    (hbody : Completes m i body.run (fun _ w' => P w') w)
    (hf : ∀ result w', P w' → Completes m i (f result).run Q w')
    (hpanic : ∀ e w', P w' → Q (.error e) w') :
    Completes m i (outcome body >>= f).run Q w := by
  refine (completes_run_bind _ _ _ _).mpr ((completes_bind _ _ _ _).mpr (hbody.mono ?_))
  intro ended w' hP
  cases ended with
  | ok a => exact hf _ w' hP
  | error e =>
    cases e with
    | err e => exact hf _ w' hP
    | panic msg => exact hpanic _ w' hP

theorem completes_refreshIds (ids : List String) (hunheld : Unheld w) :
    Completes (system aead chrono key) i (TokenManager.refreshIds oauth ids).run
      (fun _ w' => Unheld w') w := by
  induction ids generalizing w with
  | nil => exact hunheld
  | cons id ids ih =>
    unfold TokenManager.refreshIds
    refine completes_outcome_bind (completes_refreshAccount hunheld) (fun _ w' hw' => ?_)
      fun _ _ hw' => hw'
    refine (completes_run_bind _ _ _ _).mpr ((ih hw').mono fun r w'' hw'' => ?_)
    cases r <;> exact hw''

theorem completes_refreshEach (accounts : List Account) (hunheld : Unheld w) :
    Completes (system aead chrono key) i (TokenManager.refreshEach oauth accounts).run
      (fun _ w' => Unheld w') w := by
  induction accounts generalizing w with
  | nil => exact hunheld
  | cons account accounts ih =>
    unfold TokenManager.refreshEach
    split
    · exact ih hunheld
    · refine completes_outcome_bind (completes_refreshAccount hunheld) (fun _ w' hw' => ?_)
        fun _ _ hw' => hw'
      refine (completes_run_bind _ _ _ _).mpr ((ih hw').mono fun r w'' hw'' => ?_)
      cases r <;> exact hw''

end Loops

/-! ### Refreshing all accounts -/

/-- `refresh_all` is one refresh for each connected account, and each of them is as if it were alone.
-/
structure Pointwise (aead : Aead) (chrono : Chrono) (key : Key) (oauth : OAuthClient) (i : ℕ)
    (w : World) (ls : List (Label AppSig World Env)) (r : Outcome (List (Account × Result Unit)))
    (w' : World) (batch : List Attempt) : Prop where
  labels : ∃ listed, ls = listed :: labelsOf batch
  attempted : batch.map Attempt.accountId =
    (connectedOf (SqliteAccountStore.listAll w.db)).map Account.id
  returned : r = .ok ((connectedOf (SqliteAccountStore.listAll w.db)).zip
    (batch.map Attempt.result))
  alone : ∀ attempt ∈ batch, ∃ lone wₗ, Exec (system aead chrono key) i
      (TokenManager.refreshAccount oauth attempt.accountId).run w lone
        (attempt.result.mapError .err) wₗ ∧
    lone.map Label.view = attempt.labels.map Label.view ∧
    wₗ.db.tokens.find attempt.accountId = w'.db.tokens.find attempt.accountId
  failed : ∀ attempt ∈ batch, attempt.result ≠ .ok () →
    w'.db.tokens.find attempt.accountId = w.db.tokens.find attempt.accountId
  others : ∀ id, id ∉ (connectedOf (SqliteAccountStore.listAll w.db)).map Account.id →
    w'.db.tokens.find id = w.db.tokens.find id

theorem nodup_connected (db : Db) :
    ((connectedOf (SqliteAccountStore.listAll db)).map Account.id).Nodup := by
  have hids : (queryAccounts db fun _ => true).map Account.id =
      (db.accounts.rows.filter fun _ => true).map AccountRow.id := by
    rw [queryAccounts, List.map_map]
    rfl
  have hrows : ((queryAccounts db fun _ => true).map Account.id).Nodup := by
    rw [hids]
    exact (List.filter_sublist.map AccountRow.id).nodup db.accounts.nodup
  have hsorted : ((SqliteAccountStore.listAll db).map Account.id).Nodup :=
    ((List.perm_insertionSort _ _).map Account.id).nodup_iff.mpr hrows
  exact (List.filter_sublist.map Account.id).nodup hsorted

/-- **A batch without overflow is pointwise.** From a world where no refresh mutex is held,
`refresh_all` is never kept waiting. Without storage faults it returns one outcome for each connected
account, each that of the account alone, exactly when no grant leads out of the calendar. -/
theorem refresh_all_pointwise_iff (hunheld : Unheld w) :
    Completes (system aead chrono key) i (TokenManager.refreshAll oauth).run (fun _ _ => True) w ∧
    ∀ ls r w', Exec (system aead chrono key) i (TokenManager.refreshAll oauth).run w ls r w' →
      Calm ls → ((∃ batch, Pointwise aead chrono key oauth i w ls r w' batch) ↔
        ∀ g ∈ grants ls, Representable g) := by
  refine ⟨?_, fun ls r w' h hcalm => ?_⟩
  · unfold TokenManager.refreshAll
    apply completes_op_bind (by simp)
    intro env reply w₁ hlist
    have hunheld₁ : Unheld w₁ := by
      intro id
      rw [locks_frame (by simp [Op.lock?]) hlist]
      exact hunheld id
    cases reply with
    | error e => trivial
    | ok accounts =>
      exact (completes_refreshEach accounts hunheld₁).mono fun _ _ _ => trivial
  · unfold TokenManager.refreshAll at h
    obtain ⟨env, reply, w₁, ls₁, hlist, hrest, rfl⟩ := exec_op_bind h
    obtain ⟨hfault, hcalm₁⟩ := calm_cons.mp hcalm
    obtain ⟨rfl, rfl⟩ := storage_calm hfault (Option.some.inj hlist)
    have hgrants : ∀ l : Label AppSig World Env, l.op = .accountsListAll →
        grants (l :: ls₁) = grants ls₁ := fun l hl => grants_cons (by simp [hl])
    rw [hgrants _ rfl]
    rcases exec_refreshEach hrest with ⟨batch, hbatch, hids, rfl, rfl⟩ | haborted
    · have hnodup : (batch.map Attempt.accountId).Nodup := hids ▸ nodup_connected w.db
      have hrepresentable := (hbatch.shown hcalm₁).2
      refine ⟨fun _ => hrepresentable, fun _ => ⟨batch, ⟨_, rfl⟩, hids, rfl, ?_, ?_, ?_⟩⟩
      · exact fun attempt hattempt => hbatch.alone hnodup hattempt
      · intro attempt hattempt hfailed
        refine hbatch.failed hnodup hattempt (fun l hl => hcalm₁ l ?_) hfailed
        exact List.mem_flatten_of_mem (List.mem_map_of_mem hattempt) hl
      · intro id hid
        rw [← hids] at hid
        exact (hbatch.others hid).token
    · obtain ⟨⟨msg, hpanic⟩, g, hg, hover⟩ := haborted.overflow hcalm₁
      constructor
      · rintro ⟨batch, hpointwise⟩
        rw [hpanic] at hpointwise
        cases hpointwise.returned
      · exact fun hall => absurd (hall g hg) hover

/-! ### Two runs -/

/-- Two connected accounts with tokens, and a disconnected one. -/
def threeAccounts : World where
  db :=
    let account := fun id email status =>
      ({ sampleAccount with id, emailAddress := email, status } : Account)
    let create := fun db account => (SqliteAccountStore.create account db).2
    let store := fun db (x : String × StoredToken) =>
      (SqliteTokenStore.upsert .tagged (.ofTable firstDay) sampleKey x.1 x.2 zeroNonces db).2
    let accounts := [account "acc-1" "a@x" .active, account "acc-2" "b@x" .active,
      account "acc-3" "c@x" .disconnected].foldl create .empty
    [("acc-1", ⟨"at-1", "rt-1", none, none, none, 0⟩),
      ("acc-2", ⟨"at-2", "rt-2", none, none, none, 0⟩)].foldl store accounts
  locks _ := none

/-- The provider answers the request for the first account with `first`, and grants the other. -/
def answering (first : Except String TokenResponse) : Env :=
  { Env.calm 1 first with
    token := fun request => if request = .refresh "rt-1" then first
      else .ok ⟨"at-3", some "rt-3", some 3600, none⟩ }

def refreshAllRun (first : Except String TokenResponse) :
    Option (List (Label AppSig World Env) × Outcome (List (Account × Result Unit)) × World) :=
  sampleSystem.runAlone 0 (answering first) (TokenManager.refreshAll sampleOauth).run threeAccounts

theorem unheld_threeAccounts : Unheld threeAccounts := by
  intro id j h
  cases h

/-- A reply that is good for ten trillion seconds keeps the second account from its refresh. -/
theorem overflow_aborts :
    ∃ ls w', Exec sampleSystem 0 (TokenManager.refreshAll sampleOauth).run threeAccounts ls
        (.error (.panic "`DateTime + TimeDelta` overflowed")) w' ∧ Calm ls ∧
      ¬ (∃ batch, Pointwise .tagged (.ofTable firstDay) sampleKey sampleOauth 0 threeAccounts ls
        (.error (.panic "`DateTime + TimeDelta` overflowed")) w' batch) ∧
      attempts ls = ["acc-1"] := by
  let run := refreshAllRun (.ok ⟨"at-9", none, some 10000000000000, none⟩)
  have hchecks : run.any (fun run => run.2.1 = .error (.panic "`DateTime + TimeDelta` overflowed") ∧
      attempts run.1 = ["acc-1"] ∧ run.1.all fun l => l.env.fault.isNone) = true := by
    decide +kernel
  obtain ⟨⟨ls, r, w'⟩, hrun, rfl, hattempts, hcalm⟩ := exists_of_any hchecks
  refine ⟨ls, w', exec_of_runAlone hrun, calm_of_all hcalm, ?_, hattempts⟩
  rintro ⟨batch, hpointwise⟩
  cases hpointwise.returned

/-- A denied refresh does not touch the other one. -/
theorem refresh_all_pointwise_denied :
    ∃ ls outcomes w' batch, Exec sampleSystem 0 (TokenManager.refreshAll sampleOauth).run
        threeAccounts ls (.ok outcomes) w' ∧
      outcomes.map (fun x => (x.1.id, x.2)) =
        [("acc-1", .error (.tokenExpired "refresh failed: invalid_grant")), ("acc-2", .ok ())] ∧
      Pointwise .tagged (.ofTable firstDay) sampleKey sampleOauth 0 threeAccounts ls (.ok outcomes)
        w' batch := by
  let run := refreshAllRun (.error "invalid_grant")
  have hchecks : run.any (fun run => (run.2.1.map fun outcomes =>
        outcomes.map fun x => (x.1.id, x.2)) = .ok [("acc-1",
          .error (.tokenExpired "refresh failed: invalid_grant")), ("acc-2", .ok ())] ∧
      (∀ g ∈ grants run.1, Representable g) ∧ run.1.all fun l => l.env.fault.isNone) = true := by
    decide +kernel
  obtain ⟨⟨ls, r, w'⟩, hrun, hr, hrepresentable, hcalm⟩ := exists_of_any hchecks
  cases r with
  | error e => cases hr
  | ok outcomes =>
    have hexec := exec_of_runAlone hrun
    obtain ⟨batch, hpointwise⟩ :=
      ((refresh_all_pointwise_iff unheld_threeAccounts).2 ls _ w' hexec (calm_of_all hcalm)).mpr
        hrepresentable
    exact ⟨ls, outcomes, w', batch, hexec, Except.ok.inj hr, hpointwise⟩

end UniMail
