import Mathlib.Tactic.Common
import Mathlib.Data.Nat.Notation

/-!
# Programs over atomic operations

A call of an asynchronous function is a tree: it has returned, or it performs one atomic operation
and goes on with the reply (`Prog`). A `Machine` says what each operation does to the shared world,
given what the environment answers at that moment. One call run alone is `Exec`; its labels record
the operations, the worlds they found and their replies.

`Completes` says that a call run alone never waits, whatever the environment does; `completes_bind`
composes it.
-/

namespace Interaction

/-- The atomic operations, with the type of each operation's reply. -/
structure Signature where
  Op : Type
  Reply : Op → Type

/-- A program: it has returned, or it performs one operation and continues with the reply. -/
inductive Prog (S : Signature) (α : Type) : Type
  | ret (a : α)
  | call (o : S.Op) (k : S.Reply o → Prog S α)

variable {S : Signature} {W Env α β : Type}

namespace Prog

def bind : Prog S α → (α → Prog S β) → Prog S β
  | .ret a, f => f a
  | .call o k, f => .call o fun r => (k r).bind f

instance : Monad (Prog S) where
  pure := .ret
  bind := bind

/-- Perform one operation and return its reply. -/
def perform (o : S.Op) : Prog S (S.Reply o) := .call o .ret

@[simp] theorem pure_eq (a : α) : (pure a : Prog S α) = .ret a := rfl

@[simp] theorem ret_bind (a : α) (f : α → Prog S β) : (Prog.ret a >>= f) = f a := rfl

@[simp] theorem call_bind (o : S.Op) (k : S.Reply o → Prog S α) (f : α → Prog S β) :
    (Prog.call o k >>= f) = .call o fun r => k r >>= f := rfl

@[simp] theorem perform_bind (o : S.Op) (f : S.Reply o → Prog S β) :
    (perform o >>= f) = .call o f := rfl

theorem bind_ret (p : Prog S α) : p.bind .ret = p := by
  induction p with
  | ret a => rfl
  | call o k ih => exact congrArg (Prog.call o) (funext ih)

theorem bind_assoc {γ : Type} (p : Prog S α) (f : α → Prog S β) (g : β → Prog S γ) :
    (p.bind f).bind g = p.bind fun a => (f a).bind g := by
  induction p with
  | ret a => rfl
  | call o k ih => exact congrArg (Prog.call o) (funext ih)

instance : LawfulMonad (Prog S) :=
  LawfulMonad.mk' _ (fun p => bind_ret p) (fun _ _ => rfl) fun p f g => bind_assoc p f g

end Prog

/-- A program over the operations of another signature. -/
def Prog.via {T : Signature} (f : S.Op → T.Op) (back : ∀ o, T.Reply (f o) → S.Reply o) :
    Prog S α → Prog T α
  | .ret a => .ret a
  | .call o k => .call (f o) fun r => (k (back o r)).via f back

/-- The call can perform an operation of `target` after operations of `pass` only. -/
inductive Prog.Reaches (pass target : S.Op → Prop) : Prog S α → Prop
  | here {o : S.Op} {k : S.Reply o → Prog S α} (h : target o) : Reaches pass target (.call o k)
  | pass {o : S.Op} {k : S.Reply o → Prog S α} (r : S.Reply o) (ho : pass o)
      (h : Reaches pass target (k r)) : Reaches pass target (.call o k)

/-- What the operations do. `exec i o env w` is the reply and the next world when thread `i` performs
`o` in `w` and the environment behaves as `env`; `none` when the thread has to wait. -/
structure Machine (S : Signature) (W Env : Type) where
  exec : ℕ → (o : S.Op) → Env → W → Option (S.Reply o × W)

/-- One operation of a call: the world it found and the reply it got. -/
structure Label (S : Signature) (W Env : Type) where
  op : S.Op
  env : Env
  world : W
  reply : S.Reply op

/-- `Exec m i p w ls a w'`: run alone from world `w`, the call `p` performs the operations `ls`,
returns `a` and leaves the world `w'`. -/
inductive Exec (m : Machine S W Env) (i : ℕ) :
    Prog S α → W → List (Label S W Env) → α → W → Prop
  | ret {a : α} {w : W} : Exec m i (.ret a) w [] a w
  | call {o : S.Op} {k : S.Reply o → Prog S α} {env : Env} {r : S.Reply o} {w w₁ w' : W}
      {ls : List (Label S W Env)} {a : α} (h : m.exec i o env w = some (r, w₁))
      (hk : Exec m i (k r) w₁ ls a w') : Exec m i (.call o k) w (⟨o, env, w, r⟩ :: ls) a w'

variable {m : Machine S W Env} {i : ℕ}

theorem exec_ret {a b : α} {w w' : W} {ls : List (Label S W Env)} :
    Exec m i (.ret a) w ls b w' ↔ ls = [] ∧ b = a ∧ w' = w := by
  constructor
  · rintro ⟨⟩
    exact ⟨rfl, rfl, rfl⟩
  · rintro ⟨rfl, rfl, rfl⟩
    exact .ret

theorem exec_call {o : S.Op} {k : S.Reply o → Prog S α} {a : α} {w w' : W}
    {ls : List (Label S W Env)} :
    Exec m i (.call o k) w ls a w' ↔ ∃ env r w₁ ls₁, m.exec i o env w = some (r, w₁) ∧
      Exec m i (k r) w₁ ls₁ a w' ∧ ls = ⟨o, env, w, r⟩ :: ls₁ := by
  constructor
  · rintro (_ | ⟨h, hk⟩)
    exact ⟨_, _, _, _, h, hk, rfl⟩
  · rintro ⟨env, r, w₁, ls₁, h, hk, rfl⟩
    exact .call h hk

theorem exec_bind {p : Prog S α} {f : α → Prog S β} {b : β} {w w' : W}
    {ls : List (Label S W Env)} :
    Exec m i (p >>= f) w ls b w' ↔ ∃ a w₁ ls₁ ls₂, Exec m i p w ls₁ a w₁ ∧
      Exec m i (f a) w₁ ls₂ b w' ∧ ls = ls₁ ++ ls₂ := by
  induction p generalizing w ls with
  | ret a => simp [exec_ret]
  | call o k ih =>
    simp only [Prog.call_bind, exec_call, ih]
    constructor
    · rintro ⟨env, r, w₁, _, h, ⟨a, w₂, ls₁, ls₂, h₁, h₂, rfl⟩, rfl⟩
      exact ⟨a, w₂, _, ls₂, ⟨env, r, w₁, ls₁, h, h₁, rfl⟩, h₂, rfl⟩
    · rintro ⟨a, w₂, _, ls₂, ⟨env, r, w₁, ls₁, h, h₁, rfl⟩, h₂, rfl⟩
      exact ⟨env, r, w₁, _, h, ⟨a, w₂, ls₁, ls₂, h₁, h₂, rfl⟩, rfl⟩

/-- A call whose result is worked on makes the same run. -/
theorem exec_map {p : Prog S α} {f : α → β} {b : β} {w w' : W} {ls : List (Label S W Env)} :
    Exec m i (p >>= fun a => .ret (f a)) w ls b w' ↔ ∃ a, Exec m i p w ls a w' ∧ b = f a := by
  rw [exec_bind]
  constructor
  · rintro ⟨a, w₁, ls₁, ls₂, h₁, h₂, rfl⟩
    obtain ⟨rfl, rfl, rfl⟩ := exec_ret.mp h₂
    exact ⟨a, by rwa [List.append_nil], rfl⟩
  · rintro ⟨a, h, rfl⟩
    exact ⟨a, w', ls, [], h, .ret, (List.append_nil ls).symm⟩

/-! ### Calls that do not wait -/

/-- Whatever the environment does, no operation of `p` run alone from `w` waits, and the result and
the last world satisfy `Q`. -/
def Completes (m : Machine S W Env) (i : ℕ) : Prog S α → (α → W → Prop) → W → Prop
  | .ret a, Q, w => Q a w
  | .call o k, Q, w =>
    ∀ env, ∃ r w', m.exec i o env w = some (r, w') ∧ Completes m i (k r) Q w'

theorem completes_bind (p : Prog S α) (f : α → Prog S β) (Q : β → W → Prop) (w : W) :
    Completes m i (p >>= f) Q w ↔ Completes m i p (fun a w' => Completes m i (f a) Q w') w := by
  induction p generalizing w with
  | ret a => exact Iff.rfl
  | call o k ih => simp only [Prog.call_bind, Completes, ih]

theorem Completes.mono {p : Prog S α} {Q Q' : α → W → Prop} (hQ : ∀ a w, Q a w → Q' a w) {w : W}
    (h : Completes m i p Q w) : Completes m i p Q' w := by
  induction p generalizing w with
  | ret a => exact hQ a w h
  | call o k ih =>
    intro env
    obtain ⟨r, w', hexec, hk⟩ := h env
    exact ⟨r, w', hexec, ih r hk⟩

/-- A computed run that passes a check. -/
theorem exists_of_any {o : Option α} {p : α → Prop} [DecidablePred p]
    (h : o.any (fun a => decide (p a)) = true) : ∃ a, o = some a ∧ p a := by
  obtain ⟨a, ha, hp⟩ := (Option.any_eq_true ..).mp h
  exact ⟨a, ha, of_decide_eq_true hp⟩

/-! ### Programs that can fail -/

section Failing

variable {ε : Type}

/-- The result goes on to `f`, an error to the end. -/
theorem run_bind (x : ExceptT ε (Prog S) α) (f : α → ExceptT ε (Prog S) β) :
    (x >>= f).run = x.run >>= fun r => match r with
      | .ok a => (f a).run
      | .error e => .ret (.error e) := by
  apply congrArg (Prog.bind x.run)
  funext r
  cases r <;> rfl

theorem completes_run_bind (x : ExceptT ε (Prog S) α) (f : α → ExceptT ε (Prog S) β)
    (Q : Except ε β → W → Prop) (w : W) :
    Completes m i (x >>= f).run Q w ↔ Completes m i x.run (fun r w' => match r with
      | .ok a => Completes m i (f a).run Q w'
      | .error e => Q (.error e) w') w := by
  rw [run_bind, completes_bind]
  refine iff_of_eq (congrArg (fun Q => Completes m i x.run Q w) ?_)
  funext r w'
  cases r <;> rfl

/-- The run of a sequence is that of its first part, and then of the rest unless that failed. -/
theorem exec_run_bind {x : ExceptT ε (Prog S) α} {f : α → ExceptT ε (Prog S) β} {w w' : W}
    {ls : List (Label S W Env)} {r : Except ε β} (h : Exec m i (x >>= f).run w ls r w') :
    (∃ a w₁ ls₁ ls₂, Exec m i x.run w ls₁ (.ok a) w₁ ∧ Exec m i (f a).run w₁ ls₂ r w' ∧
      ls = ls₁ ++ ls₂) ∨
    ∃ e, Exec m i x.run w ls (.error e) w' ∧ r = .error e := by
  rw [run_bind] at h
  obtain ⟨r₁, w₁, ls₁, ls₂, h₁, h₂, rfl⟩ := exec_bind.mp h
  cases r₁ with
  | ok a => exact Or.inl ⟨a, w₁, ls₁, ls₂, h₁, h₂, rfl⟩
  | error e =>
    obtain ⟨rfl, rfl, rfl⟩ := exec_ret.mp h₂
    exact Or.inr ⟨e, by rwa [List.append_nil], rfl⟩

end Failing

/-! ### Running a program as one atomic operation -/

/-- Run `p` to its end without interruption, every operation under the same environment. -/
def Machine.runAtomic (m : Machine S W Env) (i : ℕ) (env : Env) : Prog S α → W → Option (α × W)
  | .ret a, w => some (a, w)
  | .call o k, w =>
    match m.exec i o env w with
    | none => none
    | some (r, w') => m.runAtomic i env (k r) w'

/-- The run of `p` alone, every operation under the environment that is given for it, with its
labels. -/
def Machine.runUnder (m : Machine S W Env) (i : ℕ) (env : S.Op → Env) :
    Prog S α → W → Option (List (Label S W Env) × α × W)
  | .ret a, w => some ([], a, w)
  | .call o k, w =>
    match m.exec i o (env o) w with
    | none => none
    | some (r, w') =>
      (m.runUnder i env (k r) w').map fun result => (⟨o, env o, w, r⟩ :: result.1, result.2)

/-- The run of `p` alone, every operation under the same environment. -/
def Machine.runAlone (m : Machine S W Env) (i : ℕ) (env : Env) :
    Prog S α → W → Option (List (Label S W Env) × α × W) :=
  m.runUnder i fun _ => env

theorem exec_of_runUnder {env : S.Op → Env} {p : Prog S α} {w w' : W} {ls : List (Label S W Env)}
    {a : α} (h : m.runUnder i env p w = some (ls, a, w')) : Exec m i p w ls a w' := by
  induction p generalizing w ls with
  | ret b =>
    cases h
    exact .ret
  | call o k ih =>
    simp only [Machine.runUnder] at h
    split at h
    · simp at h
    · rename_i r w₁ hexec
      obtain ⟨⟨ls₁, b, w₂⟩, hrest, heq⟩ := Option.map_eq_some_iff.mp h
      cases heq
      exact .call hexec (ih r hrest)

theorem exec_of_runAlone {env : Env} {p : Prog S α} {w w' : W} {ls : List (Label S W Env)} {a : α}
    (h : m.runAlone i env p w = some (ls, a, w')) : Exec m i p w ls a w' :=
  exec_of_runUnder h

end Interaction
