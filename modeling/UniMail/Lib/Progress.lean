import UniMail.Lib.Monitor
import Mathlib.Order.GameAdd
import Mathlib.Order.WellFounded

/-!
# Progress of a pool of calls

A program is a well-founded tree, so a pool of programs cannot step forever (`no_infinite_run`), and
every configuration has a run to one in which no call can step (`reaches_stuck`). That this is one in
which every call has returned is a matter of the operations that wait.

`Mutexes` says how the operations of a machine use mutexes that are created on demand, and
`turnTaking` is the monitor of calls that hold one mutex at a time, take it only once it is created
and return without one. In a pool of such calls there is no deadlock: `no_deadlock`.
-/

namespace Interaction

variable {S : Signature} {W Env α : Type}

/-! ### A pool cannot step forever -/

/-- What is left of a call after its next operation. -/
inductive Prog.Rest : Prog S α → Prog S α → Prop
  | call {o : S.Op} {k : S.Reply o → Prog S α} (r : S.Reply o) : Rest (k r) (.call o k)

theorem Prog.acc_rest (p : Prog S α) : Acc Prog.Rest p := by
  induction p with
  | ret a =>
    apply Acc.intro
    intro q hq
    cases hq
  | call o k ih =>
    apply Acc.intro
    intro q hq
    cases hq with
    | call r => exact ih r

/-- What is left of a pool after one of its calls has performed its next operation. -/
inductive PoolRest : List (Prog S α) → List (Prog S α) → Prop
  | step {pool : List (Prog S α)} {i : ℕ} {o : S.Op} {k : S.Reply o → Prog S α}
      (h : pool[i]? = some (.call o k)) (r : S.Reply o) : PoolRest (pool.set i (k r)) pool

theorem acc_poolRest (pool : List (Prog S α)) : Acc PoolRest pool := by
  induction pool with
  | nil =>
    apply Acc.intro
    intro pool' h
    cases h with
    | step h => simp at h
  | cons p pool ih =>
    -- Either the first call moves on or the rest of the pool does.
    suffices ∀ x : Prog S α × List (Prog S α), Acc (Prod.GameAdd Prog.Rest PoolRest) x →
        Acc PoolRest (x.1 :: x.2) from
      this (p, pool) (p.acc_rest.prod_gameAdd ih)
    intro x hx
    induction hx with
    | intro x _ ih =>
      apply Acc.intro
      intro pool' h
      generalize hx : x.1 :: x.2 = all at h
      cases h with
      | @step _ i o k h r =>
        subst hx
        cases i with
        | zero =>
          have hp : x.1 = .call o k := Option.some.inj h
          refine ih (k r, x.2) ?_
          show Prod.GameAdd Prog.Rest PoolRest (k r, x.2) (x.1, x.2)
          rw [hp]
          exact .fst (.call r)
        | succ i =>
          have htail : x.2[i]? = some (.call o k) := h
          exact ih (x.1, x.2.set i (k r)) (.snd (.step htail r))

theorem Machine.Step.poolRest {m : Machine S W Env} {e : Event S W Env α} (h : m.Step e) :
    PoolRest e.after.pool e.before.pool := by
  obtain ⟨k, hpool, _, hafter⟩ := h
  rw [hafter]
  exact .step hpool e.reply

/-- **Every run ends**, whatever the schedule and the environment. -/
theorem no_infinite_run {m : Machine S W Env} (e : ℕ → Event S W Env α) :
    ¬ ∀ n, m.Step (e n) ∧ (e (n + 1)).before = (e n).after := by
  intro h
  have hwf : WellFounded (PoolRest (S := S) (α := α)) := ⟨acc_poolRest⟩
  refine (wellFounded_iff_isEmpty_descending_chain.mp hwf).false ⟨fun n => (e n).before.pool, ?_⟩
  intro n
  show PoolRest (e (n + 1)).before.pool (e n).before.pool
  rw [(h n).2]
  exact (h n).1.poolRest

/-- A run can be continued until no call can step. -/
theorem reaches_stuck (m : Machine S W Env) (c : Cfg S W α) : ∃ es c', m.Run c es c' ∧ m.Stuck c' := by
  suffices ∀ pool : List (Prog S α), ∀ c : Cfg S W α, c.pool = pool →
      ∃ es c', m.Run c es c' ∧ m.Stuck c' from this c.pool c rfl
  intro pool
  induction acc_poolRest pool with
  | intro pool _ ih =>
    rintro c rfl
    by_cases hstuck : m.Stuck c
    · exact ⟨[], c, rfl, hstuck⟩
    · simp only [Machine.Stuck, not_forall] at hstuck
      obtain ⟨i, env, hsome⟩ := hstuck
      obtain ⟨e, he⟩ := Option.ne_none_iff_exists'.mp hsome
      obtain ⟨rfl, hstep⟩ := step_of_step? he
      obtain ⟨es, c', hrun, hstuck⟩ := ih e.after.pool hstep.poolRest e.after rfl
      exact ⟨e :: es, c', ⟨rfl, hstep, hrun⟩, hstuck⟩

/-! ### Mutexes -/

section Mutexes

variable {K : Type}

/-- What an operation does to mutexes: nothing, or it makes sure that one is there, takes one or gives
it back. -/
inductive MutexUse (K : Type)
  | none
  | create (k : K)
  | acquire (k : K)
  | release (k : K)

variable [DecidableEq K]

/-- The mutexes of a machine: the entry of a mutex, once it is there, is the call that holds it, if
any. Only an operation that takes a mutex can make a call wait, and only while the mutex is not there
or held. -/
structure Mutexes (m : Machine S W Env) (K : Type) [DecidableEq K] where
  use : S.Op → MutexUse K
  entries : W → K → Option (Option ℕ)
  after : ∀ i o env w r w', m.exec i o env w = some (r, w') → match use o with
    | .none => entries w' = entries w
    | .create k => entries w' = Function.update (entries w) k (some ((entries w k).getD none))
    | .acquire k => entries w k = some none ∧
        entries w' = Function.update (entries w) k (some (some i))
    | .release k => entries w' = Function.update (entries w) k (some none)
  waits : ∀ i o env w, m.exec i o env w = none → ∃ k, use o = .acquire k ∧ entries w k ≠ some none

/-- What a call has to do with mutexes: nothing, it is about to take one, it holds one. -/
inductive Taking (K : Type)
  | free
  | about (k : K)
  | holding (k : K)

/-- No mutex is taken over another, and none is taken before it is there. -/
def Taking.allows : Taking K → MutexUse K → Prop
  | _, .none => True
  | .free, .create _ => True
  | .about k, .acquire k' => k = k'
  | .holding k, .release k' => k = k'
  | _, _ => False

def Taking.next : Taking K → MutexUse K → Taking K
  | t, .none => t
  | _, .create k => .about k
  | _, .acquire k => .holding k
  | _, .release _ => .free

/-- The protocol of a call that takes mutexes one at a time. -/
def turnTaking (use : S.Op → MutexUse K) : Monitor S (Taking K) where
  allows t o := t.allows (use o)
  expects _ _ _ := True
  next t o _ := t.next (use o)

/-- The call returns without a mutex. -/
abbrev TakesTurns (use : S.Op → MutexUse K) (t : Taking K) (p : Prog S α) : Prop :=
  Follows (turnTaking use) (fun t _ => t = .free) t p

/-- The entries of the mutexes agree with what the calls of the pool have. -/
structure Agreed (entries : K → Option (Option ℕ)) (pool : List (Prog S α)) (γ : ℕ → Taking K) :
    Prop where
  holder : ∀ k i, entries k = some (some i) ↔ γ i = .holding k
  there : ∀ k i, γ i = .about k → entries k ≠ none
  outside : ∀ i, pool[i]? = none → γ i = .free

/-- A call has done something to the mutex `k`: no other call has got or lost it, and the call has what
it has now. -/
theorem Agreed.update {entries : K → Option (Option ℕ)} {pool pool' : List (Prog S α)}
    {γ : ℕ → Taking K} {i : ℕ} {k : K} {v : Option ℕ} {t : Taking K} (h : Agreed entries pool γ)
    (hpool : ∀ j, pool'[j]? = none → j ≠ i ∧ pool[j]? = none)
    (hothers : ∀ j, j ≠ i → (v = some j ↔ entries k = some (some j)))
    (hheld : v = some i ↔ t = .holding k)
    (hrest : ∀ k', k' ≠ k → entries k' ≠ some (some i) ∧ t ≠ .holding k' ∧ t ≠ .about k') :
    Agreed (Function.update entries k (some v)) pool' (Function.update γ i t) where
  holder k' j := by
    by_cases hk : k' = k
    · subst hk
      rw [Function.update_self, Option.some_inj]
      by_cases hj : j = i
      · subst hj
        rw [Function.update_self, hheld]
      · rw [Function.update_of_ne hj, hothers j hj, h.holder]
    · rw [Function.update_of_ne hk]
      by_cases hj : j = i
      · subst hj
        rw [Function.update_self]
        exact iff_of_false (hrest k' hk).1 (hrest k' hk).2.1
      · rw [Function.update_of_ne hj, h.holder]
  there k' j hj := by
    by_cases hk : k' = k
    · simp [hk]
    · rw [Function.update_of_ne hk]
      by_cases hji : j = i
      · subst hji
        rw [Function.update_self] at hj
        exact absurd hj (hrest k' hk).2.2
      · rw [Function.update_of_ne hji] at hj
        exact h.there k' j hj
  outside j hj := by
    obtain ⟨hne, hbefore⟩ := hpool j hj
    rw [Function.update_of_ne hne]
    exact h.outside j hbefore

variable {m : Machine S W Env} (mutexes : Mutexes m K) {c c' : Cfg S W α}
  {es : List (Event S W Env α)}

/-- **The step lemma.** -/
theorem agreed_step {e : Event S W Env α} {γ : ℕ → Taking K} (hstep : m.Step e)
    (h : Agreed (mutexes.entries e.before.world) e.before.pool γ)
    (hallows : (γ e.thread).allows (mutexes.use e.op)) :
    Agreed (mutexes.entries e.after.world) e.after.pool
      (Function.update γ e.thread ((γ e.thread).next (mutexes.use e.op))) := by
  obtain ⟨k, hin, hexec, _⟩ := id hstep
  have hpool : ∀ j, e.after.pool[j]? = none → j ≠ e.thread ∧ e.before.pool[j]? = none := by
    intro j hj
    have hbefore : e.before.pool[j]? = none := by
      rw [List.getElem?_eq_none_iff] at hj ⊢
      exact hstep.pool_length ▸ hj
    refine ⟨fun heq => ?_, hbefore⟩
    rw [heq, hin] at hbefore
    cases hbefore
  have hafter := mutexes.after _ _ _ _ _ _ hexec
  have hmine := fun k => h.holder k e.thread
  cases huse : mutexes.use e.op with
  | none =>
    rw [huse] at hafter
    dsimp only at hafter
    rw [hafter, Taking.next, Function.update_eq_self]
    exact ⟨h.holder, h.there, fun j hj => h.outside j (hpool j hj).2⟩
  | create k =>
    rw [huse] at hafter hallows
    have ht : γ e.thread = .free := by
      cases ht : γ e.thread <;> simp_all [Taking.allows]
    rw [hafter]
    refine h.update hpool (fun j _ => ?_) ?_ fun k' hk => ?_
    · cases mutexes.entries e.before.world k <;> simp
    · have hne := (hmine k).not.mpr (by simp [ht])
      cases hentry : mutexes.entries e.before.world k <;> simp_all [Taking.next]
    · exact ⟨(hmine k').not.mpr (by simp [ht]), by simp [Taking.next], by simp [Taking.next, hk.symm]⟩
  | acquire k =>
    rw [huse] at hafter hallows
    obtain ⟨hfree, hafter⟩ := hafter
    have ht : γ e.thread = .about k := by
      cases ht : γ e.thread <;> simp_all [Taking.allows]
    rw [hafter]
    refine h.update hpool (fun j hj => ?_) (by simp [Taking.next]) fun k' hk => ?_
    · simp [hfree, hj.symm]
    · exact ⟨(hmine k').not.mpr (by simp [ht]), by simp [Taking.next, hk.symm], by simp [Taking.next]⟩
  | release k =>
    rw [huse] at hafter hallows
    have ht : γ e.thread = .holding k := by
      cases ht : γ e.thread <;> simp_all [Taking.allows]
    rw [hafter]
    refine h.update hpool (fun j hj => ?_) (by simp [Taking.next]) fun k' hk => ?_
    · simp [(hmine k).mpr ht, hj.symm]
    · exact ⟨(hmine k').not.mpr (by simp [ht, hk.symm]), by simp [Taking.next], by simp [Taking.next]⟩

variable (hrun : m.Run c es c') (hfree : ∀ k i, mutexes.entries c.world k ≠ some (some i))
  (hturns : ∀ p ∈ c.pool, TakesTurns mutexes.use .free p)
include hrun hfree hturns

theorem agreed_run : ∃ γ, Agreed (mutexes.entries c'.world) c'.pool γ ∧
    PoolFollows (turnTaking mutexes.use) (fun t _ => t = .free) γ c'.pool := by
  obtain ⟨hI, hpool⟩ := hrun.follows
    (I := fun _ d γ => Agreed (mutexes.entries d.world) d.pool γ) (γ := fun _ => .free)
    ⟨fun k i => ⟨fun h => absurd h (hfree k i), fun h => by simp at h⟩, by simp, fun _ _ => rfl⟩
    (fun i p hp => hturns p (List.mem_of_getElem? hp)) (by
      intro past e post _ hstep _ hI hallows
      refine ⟨trivial, ?_⟩
      rw [ghosts_snoc]
      exact agreed_step mutexes hstep hI hallows)
  exact ⟨_, hI, hpool⟩

/-- **No deadlock**: where no call can step, all have returned and no mutex is held. -/
theorem no_deadlock [Nonempty Env] (hstuck : m.Stuck c') :
    (∀ p ∈ c'.pool, p.returned.isSome = true) ∧
      ∀ k i, mutexes.entries c'.world k ≠ some (some i) := by
  obtain ⟨γ, hagreed, hpool⟩ := agreed_run mutexes hrun hfree hturns
  obtain ⟨env⟩ := ‹Nonempty Env›
  -- A call that cannot step is about to take a mutex.
  have hwaits : ∀ {i o k}, c'.pool[i]? = some (.call o k) →
      ∃ key, γ i = .about key ∧ mutexes.entries c'.world key ≠ some none := by
    intro i o k hi
    obtain ⟨key, huse, hentry⟩ := mutexes.waits _ _ _ _ (hstuck.exec hi env)
    have hallows : (γ i).allows (mutexes.use o) := (hpool i _ hi).1
    rw [huse] at hallows
    refine ⟨key, ?_, hentry⟩
    cases ht : γ i <;> simp_all [Taking.allows]
  -- So the call that holds a mutex could step.
  have hunheld : ∀ k i, mutexes.entries c'.world k ≠ some (some i) := by
    intro k i hheld
    have hholding := (hagreed.holder k i).mp hheld
    cases hi : c'.pool[i]? with
    | none => simp [hagreed.outside i hi] at hholding
    | some p =>
      cases p with
      | ret a =>
        have hret : γ i = .free := hpool i _ hi
        simp [hret] at hholding
      | call o k' =>
        obtain ⟨key, habout, _⟩ := hwaits hi
        simp [habout] at hholding
  refine ⟨fun p hp => ?_, hunheld⟩
  obtain ⟨i, hi⟩ := List.getElem?_of_mem hp
  cases p with
  | ret a => rfl
  | call o k =>
    obtain ⟨key, habout, hentry⟩ := hwaits hi
    obtain ⟨holder, hholder⟩ := Option.ne_none_iff_exists'.mp (hagreed.there key i habout)
    cases holder with
    | none => exact absurd hholder hentry
    | some j => exact absurd hholder (hunheld key j)

end Mutexes

end Interaction
