import UniMail.Lib.Pool
import Mathlib.Logic.Function.Basic

/-!
# Protocols that calls follow

A `Monitor` is an automaton over the operations of a call and their replies. `Follows M Q g p`: from
the ghost state `g` on, the call `p` performs only operations the monitor allows there, for every
reply the monitor expects, and returns only results that satisfy `Q`. It is proved of a program once,
by walking through it; `follows_bind` composes it.

In a run every call of the pool has a ghost state, moved by its own events (`ghosts`). `Run.follows`
is the invariant rule: if every step allowed by its thread's ghost state gets an expected reply and
preserves `I`, then `I` holds along the run and every call keeps following the monitor;
`Run.follows_one` is the rule for one call among others that follow none.
`Exec.lockstep` and `Run.lockstep` compare two worlds: if every allowed operation answers the same in
both and preserves `R`, so does every call, alone or interleaved.
-/

namespace Interaction

variable {S : Signature} {W Env α β G : Type}

/-- An automaton over operations and replies, with ghost states `G`. -/
structure Monitor (S : Signature) (G : Type) where
  allows : G → S.Op → Prop
  expects : G → (o : S.Op) → S.Reply o → Prop
  next : G → (o : S.Op) → S.Reply o → G

/-- From ghost state `g` on, the call performs only allowed operations and its results satisfy `Q`. -/
def Follows (M : Monitor S G) (Q : G → α → Prop) : G → Prog S α → Prop
  | g, .ret a => Q g a
  | g, .call o k => M.allows g o ∧ ∀ r, M.expects g o r → Follows M Q (M.next g o r) (k r)

variable {M : Monitor S G} {Q : G → α → Prop}

@[simp] theorem follows_ret (g : G) (a : α) : Follows M Q g (.ret a) ↔ Q g a := Iff.rfl

theorem follows_call (g : G) (o : S.Op) (k : S.Reply o → Prog S α) :
    Follows M Q g (.call o k) ↔
      M.allows g o ∧ ∀ r, M.expects g o r → Follows M Q (M.next g o r) (k r) := Iff.rfl

theorem follows_bind {Q : G → β → Prop} (p : Prog S α) (f : α → Prog S β) (g : G) :
    Follows M Q g (p >>= f) ↔ Follows M (fun g a => Follows M Q g (f a)) g p := by
  induction p generalizing g with
  | ret a => exact Iff.rfl
  | call o k ih => simp only [Prog.call_bind, follows_call, ih]

theorem follows_mono {Q' : G → α → Prop} (hQ : ∀ g a, Q g a → Q' g a) {p : Prog S α} {g : G}
    (h : Follows M Q g p) : Follows M Q' g p := by
  induction p generalizing g with
  | ret a => exact hQ g a h
  | call o k ih => exact ⟨h.1, fun r hr => ih r (h.2 r hr)⟩

theorem follows_run_bind {ε : Type} {Q : G → Except ε β → Prop} (x : ExceptT ε (Prog S) α)
    (f : α → ExceptT ε (Prog S) β) (g : G) :
    Follows M Q g (x >>= f).run ↔ Follows M (fun g r => match r with
      | .ok a => Follows M Q g (f a).run
      | .error e => Q g (.error e)) g x.run := by
  rw [run_bind, follows_bind]
  refine iff_of_eq (congrArg (fun Q => Follows M Q g x.run) ?_)
  funext g r
  cases r <;> rfl

/-- The monitor allows the operation in a ghost state and does not move on it. -/
def Monitor.SilentAt (M : Monitor S G) (g : G) (o : S.Op) : Prop :=
  M.allows g o ∧ ∀ r, M.next g o r = g

/-- It does so in every ghost state. -/
def Monitor.Silent (M : Monitor S G) (o : S.Op) : Prop := ∀ g, M.SilentAt g o

theorem follows_silent {o : S.Op} {k : S.Reply o → Prog S α} {g : G} (ho : M.SilentAt g o)
    (hk : ∀ r, M.expects g o r → Follows M Q g (k r)) : Follows M Q g (.call o k) := by
  refine ⟨ho.1, fun r hr => ?_⟩
  rw [ho.2 r]
  exact hk r hr

/-- A call that performs silent operations only leads to any result. -/
theorem follows_via {T : Signature} {H : Type} {M : Monitor T G} {N : Monitor S H}
    {Q : G → α → Prop} {R : H → α → Prop} {f : S.Op → T.Op}
    {back : ∀ o, T.Reply (f o) → S.Reply o} {g : G} {p : Prog S α} {h : H} (hp : Follows N R h p)
    (hexpects : ∀ h o r, N.expects h o r) (hsilent : ∀ h o, N.allows h o → M.SilentAt g (f o))
    (hQ : ∀ a, Q g a) : Follows M Q g (p.via f back) := by
  induction p generalizing h with
  | ret a => exact hQ a
  | call o k ih =>
    exact follows_silent (hsilent h o hp.1) fun r _ => ih (back o r) (hp.2 _ (hexpects h o _))

/-- What the ghost state has to satisfy for the monitor to allow a `target`, it satisfies already
where the call can reach one, if no `pass` brings it about. -/
theorem Prog.Reaches.ghost {pass target : S.Op → Prop} {P : G → Prop} {p : Prog S α} {g : G}
    (h : p.Reaches pass target) (hp : Follows M Q g p) (hexpects : ∀ g o r, M.expects g o r)
    (hpass : ∀ g o r, pass o → P (M.next g o r) → P g)
    (htarget : ∀ g o, target o → M.allows g o → P g) : P g := by
  induction h generalizing g with
  | here ho => exact htarget g _ ho hp.1
  | pass r ho _ ih => exact hpass g _ r ho (ih (hp.2 r (hexpects g _ r)))

/-- The invariant rule of a call run alone: every step of it that the monitor allows gets an expected
reply and preserves `I`. -/
theorem Exec.follows {m : Machine S W Env} {I : G → W → Prop} {i : ℕ} {p : Prog S α} {w w' : W}
    {ls : List (Label S W Env)} {a : α} (h : Exec m i p w ls a w') {g : G} (hp : Follows M Q g p)
    (h0 : I g w)
    (hstep : ∀ l ∈ ls, ∀ g w₁, I g l.world → M.allows g l.op →
      m.exec i l.op l.env l.world = some (l.reply, w₁) →
      M.expects g l.op l.reply ∧ I (M.next g l.op l.reply) w₁) :
    ∃ g', I g' w' ∧ Q g' a := by
  induction h generalizing g with
  | ret => exact ⟨g, h0, hp⟩
  | call hexec _ ih =>
    obtain ⟨hreply, hI⟩ := hstep _ List.mem_cons_self g _ h0 hp.1 hexec
    exact ih (hp.2 _ hreply) hI fun l hl => hstep l (List.mem_cons_of_mem _ hl)

/-- The ghost states of a pool after some events: each event moves the one of its thread. -/
def ghosts (M : Monitor S G) : (ℕ → G) → List (Event S W Env α) → ℕ → G
  | γ, [] => γ
  | γ, e :: es => ghosts M (Function.update γ e.thread (M.next (γ e.thread) e.op e.reply)) es

theorem ghosts_snoc (γ : ℕ → G) (es : List (Event S W Env α)) (e : Event S W Env α) :
    ghosts M γ (es ++ [e]) = Function.update (ghosts M γ es) e.thread
      (M.next (ghosts M γ es e.thread) e.op e.reply) := by
  induction es generalizing γ with
  | nil => rfl
  | cons e' es ih => exact ih _

/-- Every call of the pool follows the monitor from its ghost state. -/
def PoolFollows (M : Monitor S G) (Q : G → α → Prop) (γ : ℕ → G) (pool : List (Prog S α)) : Prop :=
  ∀ i p, pool[i]? = some p → Follows M Q (γ i) p

variable {m : Machine S W Env}

theorem PoolFollows.allows {γ : ℕ → G} {e : Event S W Env α} (hstep : m.Step e)
    (h : PoolFollows M Q γ e.before.pool) : M.allows (γ e.thread) e.op := by
  obtain ⟨k, hpool, _⟩ := hstep
  exact (h _ _ hpool).1

theorem PoolFollows.step {γ : ℕ → G} {e : Event S W Env α} (hstep : m.Step e)
    (h : PoolFollows M Q γ e.before.pool) (hreply : M.expects (γ e.thread) e.op e.reply) :
    PoolFollows M Q (Function.update γ e.thread (M.next (γ e.thread) e.op e.reply))
      e.after.pool := by
  intro i p hp
  rcases hstep.pool_cases hp with ⟨rfl, k, hpool, rfl⟩ | ⟨hne, hp⟩
  · rw [Function.update_self]
    exact (h _ _ hpool).2 _ hreply
  · rw [Function.update_of_ne hne]
    exact h i p hp

/-- **The invariant rule.** -/
theorem Machine.Run.follows {I : List (Event S W Env α) → Cfg S W α → (ℕ → G) → Prop}
    {c c' : Cfg S W α} {es : List (Event S W Env α)} {γ : ℕ → G} (h : m.Run c es c')
    (h0 : I [] c γ) (hpool : PoolFollows M Q γ c.pool)
    (hstep : ∀ past e post, es = past ++ e :: post → m.Step e →
      PoolFollows M Q (ghosts M γ past) e.before.pool → I past e.before (ghosts M γ past) →
      M.allows (ghosts M γ past e.thread) e.op →
      M.expects (ghosts M γ past e.thread) e.op e.reply ∧
        I (past ++ [e]) e.after (ghosts M γ (past ++ [e]))) :
    I es c' (ghosts M γ es) ∧ PoolFollows M Q (ghosts M γ es) c'.pool := by
  refine h.history (I := fun past d => I past d (ghosts M γ past) ∧
    PoolFollows M Q (ghosts M γ past) d.pool) ⟨h0, hpool⟩ ?_
  rintro past e post hes _ he ⟨hI, hfollows⟩
  obtain ⟨hreply, hI'⟩ := hstep past e post hes he hfollows hI (hfollows.allows he)
  refine ⟨hI', ?_⟩
  rw [ghosts_snoc]
  exact hfollows.step he hreply

/-- **The invariant rule of one call among others.** The other calls follow no protocol, but every
step of theirs preserves `I`. -/
theorem Machine.Run.follows_one {I : List (Event S W Env α) → W → G → Prop} {c c' : Cfg S W α}
    {es : List (Event S W Env α)} {i : ℕ} {p : Prog S α} {g : G} (h : m.Run c es c')
    (hp : c.pool[i]? = some p) (hfollows : Follows M Q g p) (h0 : I [] c.world g)
    (hown : ∀ past e g, e.thread = i → I past e.before.world g → M.allows g e.op →
      m.exec i e.op e.env e.before.world = some (e.reply, e.after.world) →
      M.expects g e.op e.reply ∧ I (past ++ [e]) e.after.world (M.next g e.op e.reply))
    (hother : ∀ past e g, e ∈ es → e.thread ≠ i → I past e.before.world g →
      I (past ++ [e]) e.after.world g) : ∃ g', I es c'.world g' := by
  suffices ∃ g', I es c'.world g' ∧ ∃ q, c'.pool[i]? = some q ∧ Follows M Q g' q by
    obtain ⟨g', hI, _⟩ := this
    exact ⟨g', hI⟩
  refine h.history (I := fun past d => ∃ g', I past d.world g' ∧
    ∃ q, d.pool[i]? = some q ∧ Follows M Q g' q) ⟨g, h0, p, hp, hfollows⟩ ?_
  rintro past e post hes _ he ⟨g', hI, q, hq, hfollows⟩
  by_cases hi : e.thread = i
  · obtain ⟨k, hpool, hexec, hafter⟩ := he
    rw [hi] at hpool hexec hafter
    obtain rfl := Option.some.inj (hq.symm.trans hpool)
    obtain ⟨hreply, hI'⟩ := hown past e g' hi hI hfollows.1 hexec
    refine ⟨_, hI', k e.reply, ?_, hfollows.2 _ hreply⟩
    rw [hafter, List.getElem?_set_self (List.getElem?_eq_some_iff.mp hpool).1]
  · refine ⟨g', hother past e g' (by simp [hes]) hi hI, q, ?_, hfollows⟩
    rw [he.pool_ne (Ne.symm hi), hq]

/-- What a call does its protocol allows, where every reply is expected. -/
theorem Machine.Run.allowed_one {c c' : Cfg S W α} {es : List (Event S W Env α)} {i : ℕ}
    {p : Prog S α} {g : G} (h : m.Run c es c') (hp : c.pool[i]? = some p) (hfollows : Follows M Q g p)
    (hexpects : ∀ g o r, M.expects g o r) : ∀ e ∈ es, e.thread = i → ∃ g, M.allows g e.op := by
  suffices ∃ _ : G, ∀ e ∈ es, e.thread = i → ∃ g, M.allows g e.op by
    obtain ⟨_, hall⟩ := this
    exact hall
  apply h.follows_one (I := fun past _ _ => ∀ e ∈ past, e.thread = i → ∃ g, M.allows g e.op) hp
    hfollows nofun
  · intro past e g _ hpast hallows _
    refine ⟨hexpects _ _ _, fun e' he' hi => ?_⟩
    rcases List.mem_append.mp he' with he' | he'
    · exact hpast e' he' hi
    · obtain rfl := List.mem_singleton.mp he'
      exact ⟨g, hallows⟩
  · intro past e g _ hother hpast e' he' hi
    rcases List.mem_append.mp he' with he' | he'
    · exact hpast e' he' hi
    · obtain rfl := List.mem_singleton.mp he'
      exact absurd hi hother

/-! ### Two worlds in lockstep -/

/-- An operation the monitor allows answers the same in worlds related by `R`, and keeps them
related. -/
def Agrees (m : Machine S W Env) (M : Monitor S G) (R : (ℕ → G) → W → W → Prop) : Prop :=
  ∀ γ i o env r w₁ w₂ w₁', R γ w₁ w₂ → M.allows (γ i) o → m.exec i o env w₁ = some (r, w₁') →
    ∃ w₂', m.exec i o env w₂ = some (r, w₂') ∧ M.expects (γ i) o r ∧
      R (Function.update γ i (M.next (γ i) o r)) w₁' w₂'

variable {R : (ℕ → G) → W → W → Prop}

/-- What a run alone shows: the operations, the environments and the replies. -/
def Label.view (l : Label S W Env) : (o : S.Op) × Env × S.Reply o := ⟨l.op, l.env, l.reply⟩

theorem Exec.lockstep (hR : Agrees m M R) {i : ℕ} {p : Prog S α} {w₁ w₁' w₂ : W} {a : α}
    {ls : List (Label S W Env)} (h : Exec m i p w₁ ls a w₁') {γ : ℕ → G} (hw : R γ w₁ w₂)
    (hp : Follows M Q (γ i) p) :
    ∃ ls₂ w₂' γ', Exec m i p w₂ ls₂ a w₂' ∧ ls₂.map Label.view = ls.map Label.view ∧
      R γ' w₁' w₂' ∧ Q (γ' i) a := by
  induction h generalizing w₂ γ with
  | ret => exact ⟨[], w₂, γ, .ret, rfl, hw, hp⟩
  | call hexec _ ih =>
    obtain ⟨w₂₁, hexec₂, hreply, hw'⟩ := hR _ _ _ _ _ _ _ _ hw hp.1 hexec
    obtain ⟨ls₂, w₂', γ', hrun, hview, hR', hQ⟩ := ih hw' (by
      rw [Function.update_self]
      exact hp.2 _ hreply)
    exact ⟨_, w₂', γ', .call hexec₂ hrun, by simp [Label.view, hview], hR', hQ⟩

/-- What a step shows: who stepped, the operation, the environment and the reply. -/
def Event.view (e : Event S W Env α) : ℕ × ((o : S.Op) × Env × S.Reply o) :=
  ⟨e.thread, e.op, e.env, e.reply⟩

theorem Machine.Run.lockstep (hR : Agrees m M R) {c c' : Cfg S W α} {w₂ : W}
    {es : List (Event S W Env α)} (h : m.Run c es c') {γ : ℕ → G} (hw : R γ c.world w₂)
    (hp : PoolFollows M Q γ c.pool) :
    ∃ es₂ w₂' γ', m.Run ⟨w₂, c.pool⟩ es₂ ⟨w₂', c'.pool⟩ ∧ es₂.map Event.view = es.map Event.view ∧
      R γ' c'.world w₂' ∧ PoolFollows M Q γ' c'.pool := by
  induction es generalizing c w₂ γ with
  | nil =>
    cases h
    exact ⟨[], w₂, γ, rfl, rfl, hw, hp⟩
  | cons e es ih =>
    obtain ⟨rfl, hstep, hrest⟩ := h
    have hallows := hp.allows hstep
    obtain ⟨k, hpool, hexec, hafter⟩ := id hstep
    obtain ⟨w₂₁, hexec₂, hreply, hw'⟩ := hR _ _ _ _ _ _ _ _ hw hallows hexec
    obtain ⟨es₂, w₂', γ', hrun, hview, hR', hQ⟩ := ih hrest hw' (hp.step hstep hreply)
    refine ⟨⟨⟨w₂, e.before.pool⟩, e.thread, e.env, e.op, e.reply, ⟨w₂₁, e.after.pool⟩⟩ :: es₂,
      w₂', γ', ⟨rfl, ⟨k, hpool, hexec₂, hafter⟩, hrun⟩, ?_, hR', hQ⟩
    simp [Event.view, hview]

end Interaction
