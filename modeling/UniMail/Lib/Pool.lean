import UniMail.Lib.Program

/-!
# Interleaved calls

A `Cfg` is a world shared by a pool of calls. A step picks one call of the pool, performs its
next operation and records it as an `Event`; a `Run` is any chain of steps, so a statement about
every run is a statement about every interleaving of the calls.

`Run.history` is the induction rule: a property of the events so far and the present configuration
that every step preserves holds all along the run. `replay` computes the run of a given schedule.
-/

namespace Interaction

variable {S : Signature} {W Env α : Type}

/-- A world shared by a pool of calls, each given by what is left of its program. -/
structure Cfg (S : Signature) (W α : Type) where
  world : W
  pool : List (Prog S α)

/-- One step of a run: `thread` performed `op`, the environment answered as `env`. -/
structure Event (S : Signature) (W Env α : Type) where
  before : Cfg S W α
  thread : ℕ
  env : Env
  op : S.Op
  reply : S.Reply op
  after : Cfg S W α

/-- The operation of a step with its reply. -/
def Event.call (e : Event S W Env α) : (o : S.Op) × S.Reply o := ⟨e.op, e.reply⟩

/-- What a call has returned, if it has. -/
def Prog.returned : Prog S α → Option α
  | .ret a => some a
  | .call _ _ => none

@[simp] theorem Prog.returned_eq_some {p : Prog S α} {a : α} : p.returned = some a ↔ p = .ret a := by
  cases p <;> simp [Prog.returned]

/-- The operation a call performs next. -/
def Prog.next? : Prog S α → Option S.Op
  | .ret _ => none
  | .call o _ => some o

@[simp] theorem Prog.next?_call (o : S.Op) (k : S.Reply o → Prog S α) :
    (Prog.call o k).next? = some o := rfl

/-- What the calls of the pool have returned so far. -/
def Cfg.returned (c : Cfg S W α) : List (Option α) := c.pool.map Prog.returned

theorem Cfg.returned_eq_some {c : Cfg S W α} {i : ℕ} {a : α} :
    c.returned[i]? = some (some a) ↔ c.pool[i]? = some (.ret a) := by
  rw [Cfg.returned, List.getElem?_map, Option.map_eq_some_iff]
  constructor
  · rintro ⟨p, hp, hret⟩
    rw [hp, Prog.returned_eq_some.mp hret]
  · exact fun hp => ⟨_, hp, rfl⟩

namespace Machine

variable (m : Machine S W Env)

/-- `e` is a step of the machine: its thread's next operation is `e.op`, and only that thread and
the world move. -/
def Step (e : Event S W Env α) : Prop :=
  ∃ k, e.before.pool[e.thread]? = some (.call e.op k) ∧
    m.exec e.thread e.op e.env e.before.world = some (e.reply, e.after.world) ∧
    e.after.pool = e.before.pool.set e.thread (k e.reply)

/-- A chain of steps from one configuration to another. -/
def Run : Cfg S W α → List (Event S W Env α) → Cfg S W α → Prop
  | c, [], c' => c' = c
  | c, e :: es, c' => e.before = c ∧ m.Step e ∧ Run e.after es c'

/-- Let thread `i` take its next step in the environment `env`. -/
def step? (c : Cfg S W α) (i : ℕ) (env : Env) : Option (Event S W Env α) :=
  match c.pool[i]? with
  | some (.call o k) =>
    match m.exec i o env c.world with
    | some (r, w) => some ⟨c, i, env, o, r, ⟨w, c.pool.set i (k r)⟩⟩
    | none => none
  | _ => none

/-- The run of a schedule: which thread steps next, in which environment. -/
def replay : Cfg S W α → List (ℕ × Env) → Option (List (Event S W Env α) × Cfg S W α)
  | c, [] => some ([], c)
  | c, (i, env) :: sched =>
    match m.step? c i env with
    | none => none
    | some e =>
      match replay e.after sched with
      | none => none
      | some (es, c') => some (e :: es, c')

end Machine

variable {m : Machine S W Env}

theorem step_of_step? {c : Cfg S W α} {i : ℕ} {env : Env} {e : Event S W Env α}
    (h : m.step? c i env = some e) : e.before = c ∧ m.Step e := by
  simp only [Machine.step?] at h
  split at h
  · rename_i o k hpool
    split at h
    · rename_i r w hexec
      cases h
      exact ⟨rfl, k, hpool, hexec, rfl⟩
    · simp at h
  · simp at h

theorem run_of_replay {sched : List (ℕ × Env)} {c c' : Cfg S W α} {es : List (Event S W Env α)}
    (h : m.replay c sched = some (es, c')) : m.Run c es c' := by
  induction sched generalizing c es with
  | nil =>
    cases h
    exact rfl
  | cons x sched ih =>
    obtain ⟨i, env⟩ := x
    simp only [Machine.replay] at h
    split at h
    · simp at h
    · rename_i e hstep
      split at h
      · simp at h
      · rename_i es' c'' hrest
        cases h
        obtain ⟨hbefore, he⟩ := step_of_step? hstep
        exact ⟨hbefore, he, ih hrest⟩

/-- A schedule that can be replayed is a run. -/
theorem run_replay (c : Cfg S W α) (sched : List (ℕ × Env)) (h : (m.replay c sched).isSome) :
    m.Run c ((m.replay c sched).get h).1 ((m.replay c sched).get h).2 :=
  run_of_replay (Option.some_get h).symm

/-- The environments of a replayed run are those of its schedule. -/
theorem env_replay {P : Env → Prop} (c : Cfg S W α) (sched : List (ℕ × Env))
    (h : (m.replay c sched).isSome) (hP : ∀ x ∈ sched, P x.2) :
    ∀ e ∈ ((m.replay c sched).get h).1, P e.env := by
  suffices ∀ es c', m.replay c sched = some (es, c') → ∀ e ∈ es, P e.env from
    this _ _ (Option.some_get h).symm
  clear h
  induction sched generalizing c with
  | nil =>
    intro es c' h
    cases h
    simp
  | cons x sched ih =>
    intro es c' h
    simp only [Machine.replay] at h
    split at h
    · simp at h
    · rename_i e hstep
      split at h
      · simp at h
      · rename_i es' c'' hrest
        cases h
        have henv : e.env = x.2 := by
          simp only [Machine.step?] at hstep
          split at hstep
          · split at hstep
            · cases hstep
              rfl
            · simp at hstep
          · simp at hstep
        intro e' he'
        rcases List.mem_cons.mp he' with rfl | he'
        · exact henv ▸ hP x List.mem_cons_self
        · exact ih _ (fun y hy => hP y (List.mem_cons_of_mem _ hy)) _ _ hrest e' he'

/-- No call of the pool can step. -/
def Machine.Stuck (m : Machine S W Env) (c : Cfg S W α) : Prop :=
  ∀ i env, m.step? c i env = none

theorem Machine.Stuck.exec {c : Cfg S W α} (h : m.Stuck c) {i : ℕ} {o : S.Op}
    {k : S.Reply o → Prog S α} (hpool : c.pool[i]? = some (.call o k)) (env : Env) :
    m.exec i o env c.world = none := by
  have hstep := h i env
  simp only [Machine.step?, hpool] at hstep
  split at hstep
  · simp at hstep
  · assumption

/-- When all calls have returned, none can step. -/
theorem stuck_of_returned {c : Cfg S W α} (h : ∀ r ∈ c.returned, r.isSome = true) :
    m.Stuck c := by
  intro i env
  unfold Machine.step?
  split
  · rename_i o k hpool
    have hmem := List.mem_map_of_mem (f := Prog.returned) (List.mem_of_getElem? hpool)
    simpa [Prog.returned] using h _ hmem
  · rfl

/-! ### Histories -/

/-- What the elements of a list show, with one more element. -/
theorem filterMap_snoc {β γ : Type} (f : β → Option γ) (l : List β) (b : β) :
    (l ++ [b]).filterMap f = l.filterMap f ++ (f b).toList := by
  rw [List.filterMap_append]
  cases h : f b <;> simp [h]

/-- An element of a longer list is the last one or was there before. -/
theorem getElem?_snoc {β : Type} {l : List β} {b c : β} {n : ℕ} :
    (l ++ [b])[n]? = some c ↔ l[n]? = some c ∨ n = l.length ∧ c = b := by
  by_cases hn : n < l.length
  · rw [List.getElem?_append_left hn]
    simp [Nat.ne_of_lt hn]
  · have hle : l.length ≤ n := Nat.le_of_not_lt hn
    rw [List.getElem?_append_right hle, List.getElem?_eq_none hle, List.getElem?_singleton]
    by_cases heq : n = l.length
    · simp [heq, eq_comm]
    · have hsub : n - l.length ≠ 0 := by omega
      simp [heq, hsub]

/-- The last step of a thread. -/
def lastOf (i : ℕ) (es : List (Event S W Env α)) : Option (Event S W Env α) :=
  es.findRev? fun e => e.thread = i

theorem lastOf_snoc (i : ℕ) (es : List (Event S W Env α)) (e : Event S W Env α) :
    lastOf i (es ++ [e]) = if e.thread = i then some e else lastOf i es := by
  simp only [lastOf, List.findRev?_eq_find?_reverse, List.reverse_append, List.reverse_singleton,
    List.singleton_append, List.find?_cons]
  by_cases h : e.thread = i <;> simp [h]

/-- What thread `i` performed, with the replies. -/
def callsOf (i : ℕ) (es : List (Event S W Env α)) : List ((o : S.Op) × S.Reply o) :=
  (es.filter fun e => e.thread = i).map Event.call

theorem callsOf_snoc (i : ℕ) (es : List (Event S W Env α)) (e : Event S W Env α) :
    callsOf i (es ++ [e]) = if e.thread = i then callsOf i es ++ [e.call] else callsOf i es := by
  unfold callsOf
  rw [List.filter_append, List.map_append]
  by_cases h : e.thread = i
  · rw [if_pos h, List.filter_cons_of_pos (by simpa using h)]
    rfl
  · rw [if_neg h, List.filter_cons_of_neg (by simpa using h)]
    exact List.append_nil _

/-! ### The stepped thread and the others -/

namespace Machine.Step

variable {e : Event S W Env α}

/-- A thread of the pool after a step is the one that stepped, or was there before. -/
theorem pool_cases (h : m.Step e) {j : ℕ} {q : Prog S α} (hq : e.after.pool[j]? = some q) :
    (j = e.thread ∧ ∃ k, e.before.pool[e.thread]? = some (.call e.op k) ∧ q = k e.reply) ∨
      (j ≠ e.thread ∧ e.before.pool[j]? = some q) := by
  obtain ⟨k, hpool, _, hafter⟩ := h
  rw [hafter] at hq
  by_cases hj : j = e.thread
  · subst hj
    have hlt : e.thread < e.before.pool.length := (List.getElem?_eq_some_iff.mp hpool).1
    rw [List.getElem?_set_self hlt] at hq
    exact Or.inl ⟨rfl, k, hpool, (Option.some.inj hq).symm⟩
  · rw [List.getElem?_set_ne (Ne.symm hj)] at hq
    exact Or.inr ⟨hj, hq⟩

theorem pool_ne (h : m.Step e) {j : ℕ} (hj : j ≠ e.thread) :
    e.after.pool[j]? = e.before.pool[j]? := by
  obtain ⟨k, _, _, hafter⟩ := h
  rw [hafter, List.getElem?_set_ne (Ne.symm hj)]

theorem pool_length (h : m.Step e) : e.after.pool.length = e.before.pool.length := by
  obtain ⟨k, _, _, hafter⟩ := h
  rw [hafter, List.length_set]

end Machine.Step

/-! ### Runs -/

namespace Machine.Run

variable {c c' : Cfg S W α} {es : List (Event S W Env α)}

theorem append_iff {es₁ es₂ : List (Event S W Env α)} :
    m.Run c (es₁ ++ es₂) c' ↔ ∃ d, m.Run c es₁ d ∧ m.Run d es₂ c' := by
  induction es₁ generalizing c with
  | nil => simp [Run]
  | cons e es₁ ih => simp only [List.cons_append, Run, ih]; grind

/-- A run up to one of its events: the run before it, the step, the run after it. -/
theorem split {past post : List (Event S W Env α)} {e : Event S W Env α}
    (h : m.Run c (past ++ e :: post) c') :
    m.Run c past e.before ∧ m.Step e ∧ m.Run e.after post c' := by
  obtain ⟨d, hpast, rfl, hstep, hpost⟩ := append_iff.mp h
  exact ⟨hpast, hstep, hpost⟩

theorem snoc {e : Event S W Env α} (h : m.Run c es e.before) (hstep : m.Step e) :
    m.Run c (es ++ [e]) e.after :=
  append_iff.mpr ⟨e.before, h, rfl, hstep, rfl⟩

/-- **Induction along a run.** `I past d` relates the events so far to the configuration reached;
if it holds at the start and every step of the run preserves it, it holds at the end. -/
theorem history {I : List (Event S W Env α) → Cfg S W α → Prop} (h : m.Run c es c')
    (h0 : I [] c)
    (hstep : ∀ past e post, es = past ++ e :: post → m.Run c past e.before → m.Step e →
      I past e.before → I (past ++ [e]) e.after) : I es c' := by
  suffices ∀ rest past d, es = past ++ rest → m.Run c past d → m.Run d rest c' → I past d →
      I es c' from this es [] c rfl rfl h h0
  intro rest
  induction rest with
  | nil =>
    rintro past d hes hpast rfl hI
    simpa [hes] using hI
  | cons e rest ih =>
    rintro past d hes hpast ⟨rfl, he, hrest⟩ hI
    exact ih (past ++ [e]) e.after (by simp [hes]) (hpast.snoc he) hrest
      (hstep past e rest hes hpast he hI)

theorem pool_length (h : m.Run c es c') : c'.pool.length = c.pool.length := by
  induction es generalizing c with
  | nil => exact congrArg (fun d => d.pool.length) h
  | cons e es ih =>
    obtain ⟨rfl, hstep, hrest⟩ := h
    exact (ih hrest).trans hstep.pool_length

end Machine.Run

/-! ### Calls whose results are worked on -/

section Maps

variable {β : Type} {g : ℕ → α → β}

/-- The call with a function applied to its result. -/
def Prog.map (f : α → β) (p : Prog S α) : Prog S β := p >>= fun a => Prog.ret (f a)

/-- The calls of `c` are those of `c₀`, each with the function of its thread applied to its result. -/
def Cfg.Maps (g : ℕ → α → β) (c₀ : Cfg S W α) (c : Cfg S W β) : Prop :=
  c.world = c₀.world ∧ ∀ i, c.pool[i]? = c₀.pool[i]?.map (Prog.map (g i))

namespace Cfg.Maps

variable {c₀ : Cfg S W α} {c : Cfg S W β} (h : c₀.Maps g c)
include h

/-- A call that goes on is one that goes on below. -/
theorem of_call {i : ℕ} {o : S.Op} {k : S.Reply o → Prog S β} (hc : c.pool[i]? = some (.call o k)) :
    ∃ k₀ : S.Reply o → Prog S α, c₀.pool[i]? = some (.call o k₀) ∧
      k = fun r => (k₀ r).map (g i) := by
  obtain ⟨p, hp, hcall⟩ := Option.map_eq_some_iff.mp ((h.2 i).symm.trans hc)
  cases p with
  | ret a => cases hcall
  | call o' k₀ =>
    cases hcall
    exact ⟨k₀, hp, rfl⟩

theorem stuck (hstuck : m.Stuck c) : m.Stuck c₀ := by
  intro i env
  unfold Machine.step?
  split
  · rename_i o k hpool
    have hc : c.pool[i]? = some (.call o fun r => (k r).map (g i)) := by
      rw [h.2 i, hpool]
      rfl
    rw [← h.1, hstuck.exec hc env]
  · rfl

end Cfg.Maps

/-- A run is one of the calls before their results are worked on. -/
theorem Machine.Run.unmap {c₀ : Cfg S W α} {c c' : Cfg S W β} {es : List (Event S W Env β)}
    (h : m.Run c es c') (hmaps : c₀.Maps g c) :
    ∃ es₀ c₀', m.Run c₀ es₀ c₀' ∧ c₀'.Maps g c' := by
  induction es generalizing c₀ c with
  | nil =>
    obtain rfl := h
    exact ⟨[], c₀, rfl, hmaps⟩
  | cons e es ih =>
    obtain ⟨rfl, ⟨k, hpool, hexec, hafter⟩, hrest⟩ := h
    obtain ⟨k₀, hpool₀, rfl⟩ := hmaps.of_call hpool
    have hlt := (List.getElem?_eq_some_iff.mp hpool₀).1
    have hlt' := (List.getElem?_eq_some_iff.mp hpool).1
    let next : Cfg S W α := ⟨e.after.world, c₀.pool.set e.thread (k₀ e.reply)⟩
    have hnext : next.Maps g e.after := by
      refine ⟨rfl, fun i => ?_⟩
      rw [hafter]
      by_cases hi : e.thread = i
      · subst hi
        rw [List.getElem?_set_self hlt', List.getElem?_set_self hlt]
        rfl
      · rw [List.getElem?_set_ne hi, List.getElem?_set_ne hi]
        exact hmaps.2 i
    obtain ⟨es₀, c₀', hrun₀, hmaps'⟩ := ih hrest hnext
    rw [hmaps.1] at hexec
    exact ⟨⟨c₀, e.thread, e.env, e.op, e.reply, next⟩ :: es₀, c₀',
      ⟨rfl, ⟨k₀, hpool₀, hexec, rfl⟩, hrun₀⟩, hmaps'⟩

end Maps

end Interaction
