import UniMail.Lib.Monitor

/-!
# Dropping calls from a run

Some calls of a pool are watched, the others are not. `Unwinds` compares the world of a run with one in
which the other calls never step: what a watched call may do answers the same in both and keeps them
related, and what another call may do keeps them related although the second world stays as it is.
Then the other calls can be dropped from any run: the watched ones make the same steps, with the same
replies, without them (`Machine.Run.drop_others`).
-/

namespace Interaction

variable {S : Signature} {W Env α G H : Type} {m : Machine S W Env}

/-- A protocol that allows more, with the ghost states of another kept along. -/
theorem follows_translate {M : Monitor S G} {N : Monitor S H} (f : G → H)
    (hallows : ∀ g o, M.allows g o → N.allows (f g) o)
    (hexpects : ∀ g o r, M.allows g o → N.expects (f g) o r → M.expects g o r)
    (hnext : ∀ g o r, M.allows g o → N.next (f g) o r = f (M.next g o r)) {Q : H → α → Prop}
    {p : Prog S α} {g : G} (h : Follows M (fun g a => Q (f g) a) g p) : Follows N Q (f g) p := by
  induction p generalizing g with
  | ret a => exact h
  | call o k ih =>
    refine ⟨hallows g o h.1, fun r hr => ?_⟩
    rw [hnext g o r h.1]
    exact ih r (h.2 r (hexpects g o r h.1 hr))

/-- The steps of the watched threads. -/
def stepsOf (watched : ℕ → Bool) (es : List (Event S W Env α)) : List (Event S W Env α) :=
  es.filter fun e => watched e.thread

theorem stepsOf_cons (watched : ℕ → Bool) (e : Event S W Env α) (es : List (Event S W Env α)) :
    stepsOf watched (e :: es) =
      if watched e.thread then e :: stepsOf watched es else stepsOf watched es :=
  List.filter_cons

/-- A relation of two worlds, of which the other calls step in the first only. -/
structure Unwinds (m : Machine S W Env) (M : Monitor S G) (watched : ℕ → Bool)
    (admits : (o : S.Op) → S.Reply o → Prop) (R : (ℕ → G) → W → W → Prop) : Prop where
  own : ∀ γ i o env r w w₂ w', watched i = true → R γ w w₂ → M.allows (γ i) o →
    m.exec i o env w = some (r, w') →
      ∃ w₂', m.exec i o env w₂ = some (r, w₂') ∧ M.expects (γ i) o r ∧
        R (Function.update γ i (M.next (γ i) o r)) w' w₂'
  other : ∀ γ i o env r w w₂ w', watched i = false → R γ w w₂ → M.allows (γ i) o → admits o r →
    m.exec i o env w = some (r, w') →
      M.expects (γ i) o r ∧ R (Function.update γ i (M.next (γ i) o r)) w' w₂

/-- **The other calls can be dropped.** The watched calls of a run make the same steps from a related
world, in a pool of the same watched calls in which no other call steps. -/
theorem Machine.Run.drop_others {M : Monitor S G} {watched : ℕ → Bool}
    {admits : (o : S.Op) → S.Reply o → Prop} {R : (ℕ → G) → W → W → Prop}
    (hR : Unwinds m M watched admits R) {Q : G → α → Prop} {c c' : Cfg S W α}
    {es : List (Event S W Env α)} (h : m.Run c es c') {γ : ℕ → G} {w₂ : W}
    {pool₂ : List (Prog S α)} (hw : R γ c.world w₂) (hp : PoolFollows M Q γ c.pool)
    (hadmits : ∀ e ∈ es, watched e.thread = false → admits e.op e.reply)
    (hsame : ∀ i, watched i = true → pool₂[i]? = c.pool[i]?) :
    ∃ es₂ c₂', m.Run ⟨w₂, pool₂⟩ es₂ c₂' ∧
      es₂.map Event.view = (stepsOf watched es).map Event.view ∧
      (∀ i, watched i = true → c₂'.pool[i]? = c'.pool[i]?) ∧
      (∀ i, watched i = false → c₂'.pool[i]? = pool₂[i]?) ∧ ∃ γ', R γ' c'.world c₂'.world := by
  induction es generalizing c w₂ γ pool₂ with
  | nil =>
    obtain rfl := h
    exact ⟨[], ⟨w₂, pool₂⟩, rfl, rfl, hsame, fun _ _ => rfl, γ, hw⟩
  | cons e es ih =>
    obtain ⟨rfl, hstep, hrest⟩ := h
    have hallows := hp.allows hstep
    obtain ⟨k, hpool, hexec, hafter⟩ := id hstep
    have hadmits' := fun e' he' => hadmits e' (List.mem_cons_of_mem _ he')
    cases hwatched : watched e.thread with
    | false =>
      -- The second configuration stays as it is.
      obtain ⟨hreply, hw'⟩ := hR.other _ _ _ _ _ _ _ _ hwatched hw hallows
        (hadmits e List.mem_cons_self hwatched) hexec
      have hsame' : ∀ i, watched i = true → pool₂[i]? = e.after.pool[i]? := by
        intro i hi
        have hne : i ≠ e.thread := by
          rintro rfl
          simp [hwatched] at hi
        rw [hstep.pool_ne hne]
        exact hsame i hi
      obtain ⟨es₂, c₂', hrun₂, hview, hrest₂⟩ := ih hrest hw' (hp.step hstep hreply) hadmits' hsame'
      refine ⟨es₂, c₂', hrun₂, ?_, hrest₂⟩
      rw [hview, stepsOf_cons, hwatched]
      rfl
    | true =>
      obtain ⟨w₂', hexec₂, hreply, hw'⟩ := hR.own _ _ _ _ _ _ _ _ hwatched hw hallows hexec
      have hpool₂ : pool₂[e.thread]? = some (.call e.op k) := (hsame _ hwatched).trans hpool
      have hlt₂ := (List.getElem?_eq_some_iff.mp hpool₂).1
      have hlt := (List.getElem?_eq_some_iff.mp hpool).1
      have hsame' : ∀ i, watched i = true →
          (pool₂.set e.thread (k e.reply))[i]? = e.after.pool[i]? := by
        intro i hi
        rw [hafter]
        by_cases heq : e.thread = i
        · subst heq
          rw [List.getElem?_set_self hlt₂, List.getElem?_set_self hlt]
        · rw [List.getElem?_set_ne heq, List.getElem?_set_ne heq]
          exact hsame i hi
      obtain ⟨es₂, c₂', hrun₂, hview, hown, hother, hfinal⟩ :=
        ih hrest hw' (hp.step hstep hreply) hadmits' hsame'
      refine ⟨⟨⟨w₂, pool₂⟩, e.thread, e.env, e.op, e.reply,
        ⟨w₂', pool₂.set e.thread (k e.reply)⟩⟩ :: es₂, c₂',
        ⟨rfl, ⟨k, hpool₂, hexec₂, rfl⟩, hrun₂⟩, ?_, hown, fun i hi => ?_, hfinal⟩
      · rw [stepsOf_cons, if_pos hwatched, List.map_cons, List.map_cons, hview]
        rfl
      · have hne : e.thread ≠ i := by
          rintro rfl
          simp [hwatched] at hi
        rw [hother i hi, List.getElem?_set_ne hne]

end Interaction
