import UniMail.Lib.Monitor

/-!
# A machine over another

In a `Layer` the outer machine has the operations of the inner one, on a part of its world, and others of
its own, which leave this part alone. A call of the outer machine `Serves` one of the inner machine if its
operations there are those of that call, in this order; it may end before. What a pool of such calls does,
its own operations left out, is a run of the calls it serves (`Layer.run`).
-/

namespace Interaction

variable {S T : Signature} {V W D E α β γ : Type}

/-- A program via another signature goes on where it ends. -/
theorem Prog.via_bind {f : S.Op → T.Op} {back : ∀ o, T.Reply (f o) → S.Reply o} (p : Prog S α)
    (g : α → Prog S β) : (p >>= g).via f back = p.via f back >>= fun a => (g a).via f back := by
  induction p with
  | ret a => rfl
  | call o k ih => exact congrArg (Prog.call (f o)) (funext fun r => ih (back o r))

/-- A call that has returned stays so. -/
theorem Machine.Run.returned_stays {m : Machine S V D} {c c' : Cfg S V α} {es : List (Event S V D α)}
    (h : m.Run c es c') {i : ℕ} {a : α} (hret : c.pool[i]? = some (.ret a)) :
    c'.pool[i]? = some (.ret a) := by
  induction es generalizing c with
  | nil =>
    obtain rfl := h
    exact hret
  | cons e es ih =>
    obtain ⟨rfl, hstep, hrest⟩ := h
    apply ih hrest
    obtain ⟨k, hcall, _⟩ := id hstep
    have hne : i ≠ e.thread := by
      rintro rfl
      cases hret.symm.trans hcall
    rw [hstep.pool_ne hne, hret]

/-- The operations of the inner machine in the outer one. `seen` is what an operation shows of them; it
shows nothing of one that is the outer machine's own. -/
structure Layer (outer : Machine T W E) (inner : Machine S V D) where
  lift : S.Op → T.Op
  back : ∀ o, T.Reply (lift o) → S.Reply o
  world : W → V
  env : E → D
  seen : (o : T.Op) → E → T.Reply o → Option ((o : S.Op) × D × S.Reply o)
  seen_lift : ∀ o e r, seen (lift o) e r = some ⟨o, env e, back o r⟩
  exec_lift : ∀ {i o e r w w'}, outer.exec i (lift o) e w = some (r, w') →
    inner.exec i o (env e) (world w) = some (back o r, world w')
  exec_own : ∀ {i o e r w w'}, seen o e r = none → outer.exec i o e w = some (r, w') →
    world w' = world w

namespace Layer

variable {outer : Machine T W E} {inner : Machine S V D} (L : Layer outer inner)
  (may : T.Op → Prog S α → Prop)

/-- The operations of `p` in the inner machine are those of `q`. It performs one of its own only where
what is left of `q` lets it. -/
inductive Serves : Prog T β → Prog S α → Prop
  | ret (b : β) (q : Prog S α) : Serves (.ret b) q
  | own {o : T.Op} {k : T.Reply o → Prog T β} {q : Prog S α} (hmay : may o q)
      (hown : ∀ e r, L.seen o e r = none) (hk : ∀ r, Serves (k r) q) : Serves (.call o k) q
  | lift {o : S.Op} {k : T.Reply (L.lift o) → Prog T β} {k' : S.Reply o → Prog S α}
      (hk : ∀ r, Serves (k r) (k' (L.back o r))) : Serves (.call (L.lift o) k) (.call o k')

/-- What a step shows of the inner machine. -/
def view (e : Event T W E β) : Option (ℕ × ((o : S.Op) × D × S.Reply o)) :=
  (L.seen e.op e.env e.reply).map fun x => (e.thread, x)

/-- The calls of the pool serve those of the other one. -/
def PoolServes (outerPool : List (Prog T β)) (pool : List (Prog S α)) : Prop :=
  ∀ (i : ℕ) p, outerPool[i]? = some p → ∃ q, pool[i]? = some q ∧ L.Serves may p q

variable {L may}

/-- A program goes on serving where both go on. -/
theorem serves_via {p : Prog S γ} {f : γ → Prog T β} {g : γ → Prog S α}
    (h : ∀ a, L.Serves may (f a) (g a)) : L.Serves may (p.via L.lift L.back >>= f) (p >>= g) := by
  induction p with
  | ret a => exact h a
  | call o k ih => exact .lift fun r => ih (L.back o r)

theorem PoolServes.set {outerPool : List (Prog T β)} {pool : List (Prog S α)}
    (h : L.PoolServes may outerPool pool) {i : ℕ} {p : Prog T β} {q : Prog S α} (hpq : L.Serves may p q)
    (hi : i < pool.length) : L.PoolServes may (outerPool.set i p) (pool.set i q) := by
  intro j p' hp'
  by_cases hj : i = j
  · subst hj
    have hlt : i < outerPool.length := by
      rw [← List.length_set]
      exact (List.getElem?_eq_some_iff.mp hp').1
    rw [List.getElem?_set_self hlt] at hp'
    obtain rfl := Option.some.inj hp'
    exact ⟨q, List.getElem?_set_self hi, hpq⟩
  · rw [List.getElem?_set_ne hj] at hp' ⊢
    exact h j p' hp'

/-- **The run of the calls that are served.** What the outer machine does of its own, it does where the
call it serves lets it. -/
theorem run {c c' : Cfg T W β} {es : List (Event T W E β)} (h : outer.Run c es c')
    {pool : List (Prog S α)} (hpool : L.PoolServes may c.pool pool) :
    ∃ es' pool', inner.Run ⟨L.world c.world, pool⟩ es' ⟨L.world c'.world, pool'⟩ ∧
      es'.map Event.view = es.filterMap L.view ∧ L.PoolServes may c'.pool pool' ∧
      ∀ e ∈ es, L.view e = none → ∃ q, may e.op q ∧
        ∀ a, q = .ret a → pool'[e.thread]? = some (.ret a) := by
  induction es generalizing c pool with
  | nil =>
    obtain rfl := h
    exact ⟨[], pool, rfl, rfl, hpool, nofun⟩
  | cons e es ih =>
    obtain ⟨rfl, ⟨k, hcall, hexec, hafter⟩, hrest⟩ := h
    obtain ⟨q, hq, hserves⟩ := hpool _ _ hcall
    have hlt : e.thread < pool.length := (List.getElem?_eq_some_iff.mp hq).1
    obtain ⟨before, i, env, o, r, after⟩ := e
    dsimp only at *
    cases hserves with
    | own hmay hown hk =>
      have hworld : L.world after.world = L.world before.world := L.exec_own (hown env r) hexec
      have hview : L.view ⟨before, i, env, o, r, after⟩ = none := by
        rw [view, hown env r, Option.map_none]
      have hpool' : L.PoolServes may after.pool pool := by
        rw [hafter, ← List.set_getElem_self hlt]
        rw [List.getElem?_eq_getElem hlt] at hq
        rw [Option.some.inj hq]
        exact hpool.set (hk r) hlt
      obtain ⟨es', pool', hrun, hviews, hserves, hall⟩ := ih hrest hpool'
      refine ⟨es', pool', hworld ▸ hrun, ?_, hserves, ?_⟩
      · rw [hviews, List.filterMap_cons_none hview]
      · intro e he hnone
        rcases List.mem_cons.mp he with rfl | he
        · exact ⟨q, hmay, fun a ha => hrun.returned_stays (ha ▸ hq)⟩
        · exact hall e he hnone
    | @lift o k k' hk =>
      have hview : L.view ⟨before, i, env, L.lift o, r, after⟩ = some (i, ⟨o, L.env env, L.back o r⟩) := by
        rw [view, L.seen_lift, Option.map_some]
      have hpool' : L.PoolServes may after.pool (pool.set i (k' (L.back o r))) := by
        rw [hafter]
        exact hpool.set (hk r) hlt
      obtain ⟨es', pool', hrun, hviews, hserves, hall⟩ := ih hrest hpool'
      refine ⟨⟨⟨L.world before.world, pool⟩, i, L.env env, o, L.back o r,
        ⟨L.world after.world, pool.set i (k' (L.back o r))⟩⟩ :: es', pool',
        ⟨rfl, ⟨k', hq, L.exec_lift hexec, rfl⟩, hrun⟩, ?_, hserves, ?_⟩
      · rw [List.map_cons, hviews, List.filterMap_cons_some hview]
        rfl
      · intro e he hnone
        rcases List.mem_cons.mp he with rfl | he
        · cases hnone.symm.trans hview
        · exact hall e he hnone

end Layer

end Interaction
