import UniMail.Lib.Pool

/-!
# Two machines for one signature

`Simulates m m' see R`: in worlds related by `R` every operation waits in both machines or in neither,
replies the same, and keeps the worlds related; the abstract machine is told of the environment what
`see` leaves of it. Then every run has a matching run of the abstract machine (`Simulates.run`), and where
`see` leaves out nothing that the abstract environment can express, also the other way round
(`Simulates.run_back`). Two machines that simulate a third one match each other (`Simulates.run_across`).
-/

namespace Interaction

variable {S : Signature} {W W' W₁ W₂ Env Env' Env₁ Env₂ α : Type}

/-- The replies are the same and the worlds related. -/
def SameReply (R : W → W' → Prop) {β : Type} (x : β × W) (y : β × W') : Prop :=
  x.1 = y.1 ∧ R x.2 y.2

/-- In related worlds the machines do the same. -/
def Simulates (m : Machine S W Env) (m' : Machine S W' Env') (see : Env → Env')
    (R : W → W' → Prop) : Prop :=
  ∀ i o env w w', R w w' →
    Option.Rel (SameReply R) (m.exec i o env w) (m'.exec i o (see env) w')

/-- What a step shows where the environment is seen through `see`. -/
def Event.viewBy (see : Env → Env') (e : Event S W Env α) : ℕ × ((o : S.Op) × Env' × S.Reply o) :=
  ⟨e.thread, e.op, see e.env, e.reply⟩

/-- The steps show the same. -/
def SameViews (see₁ : Env₁ → Env') (see₂ : Env₂ → Env') (es₁ : List (Event S W₁ Env₁ α))
    (es₂ : List (Event S W₂ Env₂ α)) : Prop :=
  es₁.map (Event.viewBy see₁) = es₂.map (Event.viewBy see₂)

variable {m : Machine S W Env} {m' : Machine S W' Env'} {see : Env → Env'} {R : W → W' → Prop}

namespace Simulates

/-- A step has a matching one. -/
theorem exec (h : Simulates m m' see R) {i : ℕ} {o : S.Op} {env : Env} {r : S.Reply o} {w w₁ : W}
    {w' : W'} (hw : R w w') (hexec : m.exec i o env w = some (r, w₁)) :
    ∃ w₁', m'.exec i o (see env) w' = some (r, w₁') ∧ R w₁ w₁' := by
  have hrel := h i o env w w' hw
  rw [hexec] at hrel
  generalize hexec' : m'.exec i o (see env) w' = result at hrel
  cases hrel with
  | some hsame =>
    obtain ⟨hreply, hworld⟩ := hsame
    exact ⟨_, congrArg some (Prod.ext hreply.symm rfl), hworld⟩

theorem exec_back (h : Simulates m m' see R) {i : ℕ} {o : S.Op} {env : Env} {r : S.Reply o} {w : W}
    {w' w₁' : W'} (hw : R w w') (hexec : m'.exec i o (see env) w' = some (r, w₁')) :
    ∃ w₁, m.exec i o env w = some (r, w₁) ∧ R w₁ w₁' := by
  have hrel := h i o env w w' hw
  rw [hexec] at hrel
  generalize hexec' : m.exec i o env w = result at hrel
  cases hrel with
  | some hsame =>
    obtain ⟨hreply, hworld⟩ := hsame
    exact ⟨_, congrArg some (Prod.ext hreply rfl), hworld⟩

/-- **Every run is a run of the abstract machine.** -/
theorem run (h : Simulates m m' see R) {c c' : Cfg S W α} {es : List (Event S W Env α)} {w' : W'}
    (hrun : m.Run c es c') (hw : R c.world w') :
    ∃ es' w₁', m'.Run ⟨w', c.pool⟩ es' ⟨w₁', c'.pool⟩ ∧ SameViews see id es es' ∧
      R c'.world w₁' := by
  induction es generalizing c w' with
  | nil =>
    obtain rfl := hrun
    exact ⟨[], w', rfl, rfl, hw⟩
  | cons e es ih =>
    obtain ⟨rfl, ⟨k, hpool, hexec, hafter⟩, hrest⟩ := hrun
    obtain ⟨w₁', hexec', hw'⟩ := h.exec hw hexec
    obtain ⟨es', w₂', hrun', hviews, hend⟩ := ih hrest hw'
    refine ⟨⟨⟨w', e.before.pool⟩, e.thread, see e.env, e.op, e.reply, ⟨w₁', e.after.pool⟩⟩ :: es',
      w₂', ⟨rfl, ⟨k, hpool, hexec', hafter⟩, hrun'⟩, ?_, hend⟩
    show Event.viewBy see e :: _ = _ :: _
    rw [show es.map (Event.viewBy see) = es'.map (Event.viewBy id) from hviews]
    rfl

/-- **Every run of the abstract machine is one below**, where the environments have what it was told. -/
theorem run_back (h : Simulates m m' see R) {c c' : Cfg S W' α} {es' : List (Event S W' Env' α)} {w : W}
    (hsee : ∀ e ∈ es', ∃ env, see env = e.env) (hrun : m'.Run c es' c') (hw : R w c.world) :
    ∃ es w₁, m.Run ⟨w, c.pool⟩ es ⟨w₁, c'.pool⟩ ∧ SameViews see id es es' ∧ R w₁ c'.world := by
  induction es' generalizing c w with
  | nil =>
    obtain rfl := hrun
    exact ⟨[], w, rfl, rfl, hw⟩
  | cons e es' ih =>
    obtain ⟨rfl, ⟨k, hpool, hexec', hafter⟩, hrest⟩ := hrun
    obtain ⟨env, henv⟩ := hsee e List.mem_cons_self
    rw [← henv] at hexec'
    obtain ⟨w₁, hexec, hw₁⟩ := h.exec_back hw hexec'
    obtain ⟨es, w₂, hrun₂, hviews, hend⟩ := ih (fun e' he' => hsee e' (List.mem_cons_of_mem _ he'))
      hrest hw₁
    refine ⟨⟨⟨w, e.before.pool⟩, e.thread, env, e.op, e.reply, ⟨w₁, e.after.pool⟩⟩ :: es, w₂,
      ⟨rfl, ⟨k, hpool, hexec, hafter⟩, hrun₂⟩, ?_, hend⟩
    show _ :: _ = Event.viewBy id e :: _
    rw [← show es.map (Event.viewBy see) = es'.map (Event.viewBy id) from hviews]
    show (e.thread, (⟨e.op, see env, e.reply⟩ : (o : S.Op) × Env' × S.Reply o)) :: _ = _
    rw [henv]
    rfl

/-- **Two machines that simulate one match each other.** -/
theorem run_across {m₁ : Machine S W₁ Env₁} {m₂ : Machine S W₂ Env₂} {see₁ : Env₁ → Env'}
    {see₂ : Env₂ → Env'} {R₁ : W₁ → W' → Prop} {R₂ : W₂ → W' → Prop} (h₁ : Simulates m₁ m' see₁ R₁)
    (h₂ : Simulates m₂ m' see₂ R₂) (hsee : ∀ env', ∃ env, see₂ env = env') {c c' : Cfg S W₁ α}
    {es₁ : List (Event S W₁ Env₁ α)} {w' : W'} {w₂ : W₂} (hrun : m₁.Run c es₁ c')
    (hw₁ : R₁ c.world w') (hw₂ : R₂ w₂ w') :
    ∃ es₂ w₂', m₂.Run ⟨w₂, c.pool⟩ es₂ ⟨w₂', c'.pool⟩ ∧ SameViews see₁ see₂ es₁ es₂ ∧
      ∃ w₁', R₁ c'.world w₁' ∧ R₂ w₂' w₁' := by
  obtain ⟨es', w₁', hrun', hviews, hend⟩ := h₁.run hrun hw₁
  obtain ⟨es₂, w₂', hrun₂, hviews₂, hend₂⟩ := h₂.run_back (fun e _ => hsee e.env) hrun' hw₂
  exact ⟨es₂, w₂', hrun₂, hviews.trans hviews₂.symm, w₁', hend, hend₂⟩

end Simulates

end Interaction
