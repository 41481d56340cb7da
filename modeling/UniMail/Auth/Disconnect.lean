import UniMail.Auth.Callback

/-!
# Disconnecting for good

`disconnect` does not take the refresh mutex, and a refresh or an activity bump that has read the row
before the delete writes it back afterwards. `disconnect_final` shows that nothing else does: if no
other call can still store a token of the account when its row is deleted, then there is no row once
`disconnect` has returned, whatever the calls do later. `refresh_revives` is a run where a refresh in
flight stores a token of the disconnected account.

The invariant is that after the delete the row is gone and no call can store a token of the account
without reading the row again, which finds nothing.
-/

namespace UniMail

open Interaction Relational

variable {aead : Aead} {chrono : Chrono} {key : Key} {oauth : OAuthClient} {accountId : String}
  {α : Type}

/-- The call can still store a token of the account without reading its row again. -/
abbrev Stores (accountId : String) (p : Prog AppSig α) : Prop :=
  p.Reaches (fun o : Op => o ≠ .tokensGet accountId)
    fun o : Op => ∃ token, o = .tokensUpsert accountId token

/-! ### The part a call takes -/

/-- What a call is to the account: it has read a token of it and may store one, it is a `disconnect`
that has not deleted its row yet, or neither. -/
inductive Part
  | idle
  | holding
  | deleting

/-- The part after an operation. -/
def Part.next (accountId : String) (g : Part) : (o : Op) → Op.Reply o → Part
  | .tokensGet id, r =>
    if id = accountId then
      match r with
      | .ok (some _) => .holding
      | _ => .idle
    else g
  | .tokensDelete id, .ok _ => if id = accountId then .idle else g
  | _, _ => g

/-- A token of the account is stored only by a call that has read one. -/
def partMonitor (accountId : String) : Monitor AppSig Part where
  allows g o := match o with
    | .tokensGet _ => g ≠ .deleting
    | .tokensUpsert id _ => id = accountId → g = .holding
    | .accountsDelete _ _ => False
    | _ => True
  expects _ _ _ := True
  next := Part.next accountId

theorem partMonitor_rules (accountId id : String) :
    TokenRules (partMonitor accountId) id (fun g => g ≠ .deleting)
      fun g _ => g ≠ .deleting ∧ (id = accountId → g = .holding) where
  clock _ := ⟨trivial, fun _ => rfl⟩
  lock o ho _ _ := by
    simp only [List.mem_cons, List.not_mem_nil, or_false] at ho
    rcases ho with rfl | rfl | rfl <;> exact ⟨trivial, fun _ => rfl⟩
  base _ _ h := h.1
  get _ h := h
  got g r h := by
    by_cases hid : id = accountId
    · simp only [partMonitor, Part.next, if_pos hid]
      split <;> simp
    · simpa only [partMonitor, Part.next, if_neg hid] using h
  read g token h := by
    by_cases hid : id = accountId
    · simp [partMonitor, Part.next, hid]
    · simpa [partMonitor, Part.next, hid] using h
  present _ _ _ := trivial
  denied _ _ _ h := h.1
  granted _ _ _ h := h
  write _ _ h := h.2
  wrote _ _ _ h := h.1

/-! ### The calls follow the protocol -/

/-- The calls that use the token of an account or drop it. -/
def Call.OfAccount : Call → Prop
  | .getAccessToken _ => True
  | .refreshAccount _ => True
  | .disconnect _ => True
  | _ => False

/-- The part of a call that has not started. -/
def Call.part (accountId : String) : Call → Part
  | .disconnect account => if account.id = accountId then .deleting else .idle
  | _ => .idle

/-- A call that succeeds is not a `disconnect` of the account that has not deleted the row. -/
def Settled (g : Part) (r : Outcome α) : Prop := r.isOk = true → g ≠ .deleting

theorem follows_disconnect {account : Account} {g : Part}
    (hg : account.id ≠ accountId → g ≠ .deleting) :
    Follows (partMonitor accountId) Settled g (TokenManager.disconnect account).run := by
  have herror : ∀ g (e : Failure), Settled (α := Unit) g (.error e) := fun _ _ h => by
    simp [Except.isOk, Except.toBool] at h
  unfold TokenManager.disconnect
  refine follows_op trivial fun r _ => follows_check_bind (fun _ hr => ?_) fun e _ => herror _ _
  subst hr
  have hnext : (partMonitor accountId).next g (.tokensDelete account.id) (.ok ()) ≠ .deleting := by
    by_cases hid : account.id = accountId
    · simp [partMonitor, Part.next, hid]
    · simpa [partMonitor, Part.next, hid] using hg hid
  refine follows_op trivial fun r _ => follows_check (fun _ _ _ => hnext) fun e _ => herror _ _

theorem follows_ofAccount {call : Call} (hcall : call.OfAccount) :
    Follows (partMonitor accountId) Settled (call.part accountId) (call.prog oauth) := by
  have hresult : ∀ {β : Type} {x : Async β} {f : β → Return} {g : Part},
      Follows (partMonitor accountId) Settled g x.run →
      Follows (partMonitor accountId) Settled g (ExceptT.run (do return f (← x))) := by
    intro β x f g hx
    refine (follows_run_bind _ _ _).mpr (follows_mono (fun g r hr => ?_) hx)
    cases r <;> exact hr
  have hsettled : ∀ {β : Type} {p : Prog AppSig (Outcome β)} {g : Part},
      Follows (partMonitor accountId) (fun g _ => g ≠ .deleting) g p →
      Follows (partMonitor accountId) Settled g p := by
    intro β p g hp
    refine follows_mono ?_ hp
    intro g r hg _
    exact hg
  cases call with
  | getAccessToken id =>
    exact hresult (hsettled ((partMonitor_rules accountId id).follows_getAccessToken
      (by simp [Call.part])))
  | refreshAccount id =>
    exact hresult (f := fun _ => .unit) (hsettled
      ((partMonitor_rules accountId id).follows_refreshAccount (by simp [Call.part])))
  | disconnect account =>
    refine hresult (f := fun _ => .unit) (follows_disconnect fun hid => ?_)
    simp [Call.part, hid]
  | _ => exact hcall.elim

/-- Only a call that has read a token can still store one. -/
theorem holding_of_stores {Q : Part → Outcome α → Prop} {p : Prog AppSig (Outcome α)} {g : Part}
    (h : Stores accountId p) (hp : Follows (partMonitor accountId) Q g p) : g = .holding := by
  refine h.ghost (P := fun g => g = .holding) hp (fun _ _ _ => trivial) ?_ ?_
  · intro g o r ho hnext
    cases o with
    | tokensGet id =>
      have hid : id ≠ accountId := fun hid => ho (congrArg Op.tokensGet hid)
      simpa [partMonitor, Part.next, hid] using hnext
    | tokensDelete id =>
      cases r with
      | error e => exact hnext
      | ok _ =>
        by_cases hid : id = accountId
        · simp [partMonitor, Part.next, hid] at hnext
        · simpa [partMonitor, Part.next, hid] using hnext
    | _ => exact hnext
  · rintro g o ⟨token, rfl⟩ hallows
    exact hallows rfl

/-! ### One step -/

/-- The row of the account is gone, and no call can store a token of it without reading the row. -/
def Gone (accountId : String) (c : Cfg AppSig World α) : Prop :=
  c.world.db.tokens.find accountId = none ∧
    ∀ (j : ℕ) p, c.pool[j]? = some p → ¬ Stores accountId p

section Step

variable {e : Event AppSig World Env (Outcome α)} {γ : ℕ → Part} {Q : Part → Outcome α → Prop}
  (hstep : (system aead chrono key).Step e)
  (hpool : PoolFollows (partMonitor accountId) Q γ e.before.pool)
include hstep hpool

/-- The row stays away if the step does not store it. -/
theorem find_step (h : e.before.world.db.tokens.find accountId = none)
    (hwrite : ∀ token, e.op ≠ .tokensUpsert accountId token) :
    e.after.world.db.tokens.find accountId = none := by
  have hallows := hpool.allows hstep
  obtain ⟨before, i, env, o, r, after⟩ := e
  obtain ⟨k, _, hexec, _⟩ := hstep
  by_cases ho : o.writesTokens = false
  · have htokens : after.world.db.tokens = before.world.db.tokens := tokens_frame ho hexec
    exact (congrArg (Table.find · accountId) htokens).trans h
  · cases o with
    | tokensUpsert id token =>
      cases r with
      | error err =>
        rw [show after.world = before.world from tokensUpsert_error hexec]
        exact h
      | ok _ =>
        obtain ⟨ha, hdb, _⟩ := tokensUpsert_ok hexec
        have hid : id ≠ accountId := by
          rintro rfl
          exact hwrite token rfl
        rw [hdb]
        exact (SqliteTokenStore.find_upsertRow _ _ ha _).trans ((if_neg hid).trans h)
    | tokensDelete id =>
      rcases storage_eq (Option.some.inj hexec) with ⟨hw, _⟩ | ⟨_, hw⟩
      · rw [show after.world = before.world from hw]
        exact h
      · rw [show after.world = _ from hw]
        apply (SqliteTokenStore.find_deleteRow _ _ _).trans
        split
        · rfl
        · exact h
    | accountsDelete tenantId id => exact hallows.elim
    | _ => exact absurd rfl ho

/-- **The step lemma**: what is gone stays gone. -/
theorem gone_step (h : Gone accountId e.before) : Gone accountId e.after := by
  obtain ⟨hrow, hnone⟩ := h
  obtain ⟨k, hbefore, hexec, hafter⟩ := id hstep
  refine ⟨find_step hstep hpool hrow ?_, fun j p hp hstores => ?_⟩
  · intro token hop
    exact hnone e.thread _ hbefore (.here ⟨token, hop⟩)
  · rcases hstep.pool_cases hp with ⟨rfl, k', hbefore', rfl⟩ | ⟨_, hp'⟩
    · by_cases hop : e.op = .tokensGet accountId
      · -- The call has just read the row, and there was none.
        have hfollows := hpool.step hstep trivial e.thread _ hp
        rw [Function.update_self] at hfollows
        have hholding := holding_of_stores hstores hfollows
        clear hnone hfollows hstores hbefore hbefore' hp hafter
        obtain ⟨before, i, env, o, r, after⟩ := e
        dsimp only at hop
        subst hop
        simp only [partMonitor, Part.next, if_true] at hholding
        split at hholding
        · rename_i token hr
          obtain ⟨_, hget⟩ := tokensGet_some hexec
          obtain ⟨row, hsome, _⟩ := SqliteTokenStore.get_some hget
          exact absurd (hsome.symm.trans hrow) (by simp)
        · simp at hholding
      · exact hnone e.thread _ hbefore' (.pass e.reply hop hstores)
    · exact hnone j p hp' hstores

/-- A `disconnect` stops being one that has not deleted the row by deleting it. -/
theorem deleted_of_next (hdeleting : γ e.thread = .deleting)
    (hnext : (partMonitor accountId).next (γ e.thread) e.op e.reply ≠ .deleting) :
    e.op = .tokensDelete accountId ∧ e.after.world.db.tokens.find accountId = none ∧
      (partMonitor accountId).next (γ e.thread) e.op e.reply = .idle := by
  have hallows := hpool.allows hstep
  rw [hdeleting] at hallows hnext ⊢
  obtain ⟨before, i, env, o, r, after⟩ := e
  obtain ⟨k, _, hexec, _⟩ := hstep
  cases o with
  | tokensGet id => exact absurd rfl hallows
  | tokensDelete id =>
    cases r with
    | error e => exact absurd rfl hnext
    | ok _ =>
      have hid : id = accountId := by
        by_contra hid
        simp [partMonitor, Part.next, hid] at hnext
      obtain ⟨_, hw⟩ := storage_ok (Option.some.inj hexec)
      refine ⟨congrArg Op.tokensDelete hid, ?_, if_pos hid⟩
      rw [show after.world = _ from hw]
      exact (SqliteTokenStore.find_deleteRow _ _ _).trans (if_pos hid)
  | _ => exact absurd rfl hnext

/-- The delete makes the row go for good, if no other call can still store a token. -/
theorem gone_of_delete (hdeleting : γ e.thread = .deleting)
    (hnext : (partMonitor accountId).next (γ e.thread) e.op e.reply ≠ .deleting)
    (hclear : e.op = .tokensDelete accountId → ∀ (j : ℕ) p, j ≠ e.thread →
      e.before.pool[j]? = some p → ¬ Stores accountId p) : Gone accountId e.after := by
  obtain ⟨hop, hrow, hidle⟩ := deleted_of_next hstep hpool hdeleting hnext
  refine ⟨hrow, fun j p hp hstores => ?_⟩
  by_cases hj : j = e.thread
  · subst hj
    have hfollows := hpool.step hstep trivial e.thread p hp
    rw [Function.update_self, hidle] at hfollows
    exact absurd (holding_of_stores hstores hfollows) (by simp)
  · rw [hstep.pool_ne hj] at hp
    exact hclear hop j p hj hp hstores

end Step

/-! ### Runs -/

/-- **A disconnected account has no token row**: not when `disconnect` has returned, nor in any later
state of a run in which no other call can still store a token of it when its row is deleted. -/
theorem disconnect_final {calls : List Call} (hcalls : ∀ call ∈ calls, call.OfAccount) {w : World}
    {es : List (Event AppSig World Env (Outcome Return))}
    {c' : Cfg AppSig World (Outcome Return)}
    (h : (system aead chrono key).Run ⟨w, calls.map (Call.prog oauth)⟩ es c')
    {d : ℕ} {account : Account} (hd : calls[d]? = some (.disconnect account))
    (hclear : ∀ e ∈ es, e.op = .tokensDelete account.id →
      ∀ (j : ℕ) p, j ≠ e.thread → e.before.pool[j]? = some p → ¬ Stores account.id p)
    (hok : c'.returned[d]? = some (some (.ok .unit))) :
    c'.world.db.tokens.find account.id = none := by
  let start : ℕ → Part := fun i => (calls[i]?.map (Call.part account.id)).getD .idle
  have hstart : PoolFollows (partMonitor account.id) Settled start
      (calls.map (Call.prog oauth)) := by
    intro i p hp
    rw [List.getElem?_map, Option.map_eq_some_iff] at hp
    obtain ⟨call, hcall, rfl⟩ := hp
    simp only [start, hcall, Option.map_some, Option.getD_some]
    exact follows_ofAccount (hcalls call (List.mem_of_getElem? hcall))
  have h0 : start d ≠ .deleting → Gone account.id ⟨w, calls.map (Call.prog oauth)⟩ := by
    intro hidle
    simp [start, hd, Call.part] at hidle
  obtain ⟨hgone, hpool⟩ := h.follows
    (I := fun _ c γ => γ d ≠ .deleting → Gone account.id c) h0 hstart (by
      intro past e post hes hstep hpool hI _
      refine ⟨trivial, ?_⟩
      rw [ghosts_snoc]
      intro hnext
      by_cases hdeleting : ghosts (partMonitor account.id) start past d = .deleting
      · -- The step is the delete of thread `d`.
        have hthread : e.thread = d := by
          by_contra hne
          rw [Function.update_of_ne (Ne.symm hne)] at hnext
          exact hnext hdeleting
        subst hthread
        rw [Function.update_self] at hnext
        exact gone_of_delete hstep hpool hdeleting hnext (hclear e (hes ▸ by simp))
      · exact gone_step hstep hpool (hI hdeleting))
  -- `disconnect` has returned, so it has deleted the row.
  have hsettled := hpool d _ (Cfg.returned_eq_some.mp hok)
  exact (hgone (hsettled rfl)).1

/-! ### Two runs -/

def refreshAndDisconnect : Cfg AppSig World (Outcome Return) :=
  ⟨connected 9, [Call.refreshAccount "acc-1", .disconnect sampleAccount].map (Call.prog sampleOauth)⟩

/-- The refresh has read the row when the account is disconnected, and then stores the token it is
granted: the account has a token, and its status hides it. -/
theorem refresh_revives :
    ∃ es c', sampleSystem.Run refreshAndDisconnect es c' ∧
      c'.returned[1]? = some (some (.ok .unit)) ∧
      c'.world.db.tokens.find "acc-1" ≠ none ∧
      (c'.world.db.accounts.find "acc-1").map (fun r => r.toAccount.status) = some .disconnected :=
  let reply := .ok ⟨"at-1", some "rt-1", some 3600, none⟩
  ⟨_, _, run_replay refreshAndDisconnect
    ([0, 0, 0, 1, 1, 0, 0, 0, 0, 0, 0].map fun i => (i, Env.calm 1 reply)) (by decide +kernel),
    by decide +kernel, by decide +kernel, by decide +kernel⟩

/-- After the refresh has returned, the account is disconnected for good. -/
theorem disconnect_final_after_refresh :
    ∃ es c', sampleSystem.Run refreshAndDisconnect es c' ∧
      c'.returned = [some (.ok .unit), some (.ok .unit)] ∧
      c'.world.db.tokens.find "acc-1" = none := by
  let sched := [0, 0, 0, 0, 0, 0, 0, 0, 0, 1, 1].map fun i =>
    (i, Env.calm 1 (.ok ⟨"at-1", some "rt-1", some 3600, none⟩))
  have hrun := run_replay (m := sampleSystem) refreshAndDisconnect sched (by decide +kernel)
  have hdone : ∀ e ∈ ((sampleSystem.replay refreshAndDisconnect sched).get (by decide +kernel)).1,
      (match e.op with
        | .tokensDelete _ => decide (e.thread = 1 ∧ e.before.pool.length = 2 ∧
            (e.before.pool[0]?.bind Prog.returned).isSome = true)
        | _ => true) = true := by decide +kernel
  refine ⟨_, _, hrun, by decide +kernel, ?_⟩
  refine disconnect_final (by simp [Call.OfAccount]) hrun (d := 1) rfl ?_ (by decide +kernel)
  intro e he hop j p hj hp hstores
  have hdone := hdone e he
  rw [hop, decide_eq_true_eq] at hdone
  obtain ⟨hthread, hlength, hreturned⟩ := hdone
  have hlt := (List.getElem?_eq_some_iff.mp hp).1
  obtain rfl : j = 0 := by omega
  rw [hp] at hreturned
  cases hstores <;> simp [Prog.returned] at hreturned

end UniMail
