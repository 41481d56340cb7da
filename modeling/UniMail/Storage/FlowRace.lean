import UniMail.Storage.Flows

/-!
# Redeeming one state from several processes

Any number of calls of `take` for one state, each on a connection of its own: the pool of `flowSql`,
where the statements interleave. `DELETE` succeeds also when it removes nothing and `take` does not
look at its count, so two calls that both executed their `SELECT` before either `DELETE` both redeem
the flow (`state_redeemed_twice`). While no call executes its `SELECT` between the two statements of
another one, at most one call succeeds (`take_once_of_undisturbed`).

The invariant (`Exclusive`): at most one call has a row in its hand, and once that call has consumed
it the row is gone.
-/

namespace UniMail

open Relational Interaction

variable {aead : Aead} {key : Key} {state : String}

/-- Where a call of `take` stands between its statements. -/
inductive TakeStage
  | started
  | selected (row : FlowRow)
  | consumed (row : FlowRow)
  | done (r : Except FlowError PendingFlow)

/-- What is left of the call there. -/
def TakeStage.prog (aead : Aead) (key : Key) (state : String) :
    TakeStage → Prog FlowSig (Except FlowError PendingFlow)
  | .started => FlowStore.take aead key state
  | .selected row => FlowStore.takeSelected aead key state row
  | .consumed row => FlowStore.takeConsumed aead key row
  | .done r => .ret r

/-- The call has deleted the row it read and has not failed since. -/
def TakeStage.Consumed : TakeStage → Prop
  | .started => False
  | .selected _ => False
  | .consumed _ => True
  | .done r => ∃ flow, r = .ok flow

/-- The call has the row in its hand. -/
def TakeStage.Holds (stage : TakeStage) : Prop := (∃ row, stage = .selected row) ∨ stage.Consumed

/-- One statement of a call, with what it leaves in the table. -/
inductive TakeStep (aead : Aead) (key : Key) (state : String) :
    TakeStage → FlowTable → TakeStage → FlowTable → Prop
  | failed (stage : TakeStage) (flows : FlowTable) (e : FlowError) :
      TakeStep aead key state stage flows (.done (.error e)) flows
  | select {flows : FlowTable} {row : FlowRow} (h : flows.find state = some row) :
      TakeStep aead key state .started flows (.selected row) flows
  | delete (row : FlowRow) (flows : FlowTable) :
      TakeStep aead key state (.selected row) flows (.consumed row) (consumeFlow state flows)
  | redeem (row : FlowRow) (now : Int) (flows : FlowTable) :
      TakeStep aead key state (.consumed row) flows
        (.done (FlowStore.redeem aead key row now)) flows

/-- The statements of `take` are these steps. -/
theorem takeStep_of_exec {stage : TakeStage} {o : FlowSql} {i : ℕ} {env : SqlEnv}
    {k : FlowSig.Reply o → Prog FlowSig (Except FlowError PendingFlow)} {r : FlowSig.Reply o}
    {flows flows' : FlowTable} (hprog : stage.prog aead key state = .call o k)
    (hexec : flowSql.exec i o env flows = some (r, flows')) :
    ∃ stage', k r = stage'.prog aead key state ∧ TakeStep aead key state stage flows stage' flows' := by
  cases stage with
  | started =>
    simp only [TakeStage.prog, FlowStore.take, Prog.perform, Prog.call_bind, Prog.ret_bind] at hprog
    cases hprog
    simp only [exec_select, SqlEnv.statement, Option.some.injEq] at hexec
    split at hexec <;> cases hexec
    · exact ⟨.done _, rfl, .failed _ _ _⟩
    · cases hfind : flows.find state with
      | none => exact ⟨.done _, rfl, .failed _ _ _⟩
      | some row => exact ⟨.selected row, rfl, .select hfind⟩
  | selected row =>
    simp only [TakeStage.prog, FlowStore.takeSelected, Prog.perform, Prog.call_bind,
      Prog.ret_bind] at hprog
    cases hprog
    simp only [exec_delete, SqlEnv.statement, Option.some.injEq] at hexec
    split at hexec <;> cases hexec
    · exact ⟨.done _, rfl, .failed _ _ _⟩
    · exact ⟨.consumed row, rfl, .delete row flows⟩
  | consumed row =>
    simp only [TakeStage.prog, FlowStore.takeConsumed, Prog.perform, Prog.call_bind,
      Prog.ret_bind] at hprog
    cases hprog
    simp only [exec_unixNow, Option.some.injEq] at hexec
    cases hexec
    exact ⟨.done _, rfl, .redeem row _ flows⟩
  | done r => simp [TakeStage.prog] at hprog

/-! ### The invariant -/

/-- Two calls that hold the flow are one call. -/
def OneHolder (stages : List TakeStage) : Prop :=
  ∀ (i j : ℕ) (s t : TakeStage), stages[i]? = some s → stages[j]? = some t → s.Holds → t.Holds →
    i = j

/-- At most one call holds the flow, and a consumed flow is not in the table. -/
def Exclusive (state : String) (stages : List TakeStage) (flows : FlowTable) : Prop :=
  OneHolder stages ∧ ∀ s ∈ stages, s.Consumed → flows.find state = none

/-- A stage after one call moved: the call's new one, or one that was there. -/
theorem getElem?_set_cases {stages : List TakeStage} {i j : ℕ} {stage' s : TakeStage}
    (h : (stages.set i stage')[j]? = some s) : (j = i ∧ s = stage') ∨ stages[j]? = some s := by
  by_cases hji : j = i
  · subst hji
    have hlt : j < stages.length := by
      have hset := (List.getElem?_eq_some_iff.mp h).1
      rwa [List.length_set] at hset
    rw [List.getElem?_set_self hlt, Option.some.injEq] at h
    exact Or.inl ⟨rfl, h.symm⟩
  · rw [List.getElem?_set_ne (Ne.symm hji)] at h
    exact Or.inr h

/-- Whoever holds the flow after a step that takes no hold held it before. -/
theorem OneHolder.set {stages : List TakeStage} {i : ℕ} {stage stage' : TakeStage}
    (hi : stages[i]? = some stage) (hback : stage'.Holds → stage.Holds) (h : OneHolder stages) :
    OneHolder (stages.set i stage') := by
  have hbefore : ∀ {j : ℕ} {s : TakeStage}, (stages.set i stage')[j]? = some s → s.Holds →
      ∃ s', stages[j]? = some s' ∧ s'.Holds := by
    intro j s hj hs
    rcases getElem?_set_cases hj with ⟨rfl, rfl⟩ | hj
    · exact ⟨stage, hi, hback hs⟩
    · exact ⟨s, hj, hs⟩
  intro a b s t ha hb hs ht
  obtain ⟨s', ha', hs'⟩ := hbefore ha hs
  obtain ⟨t', hb', ht'⟩ := hbefore hb ht
  exact h a b s' t' ha' hb' hs' ht'

/-- A step that reads the row happens while no call is about to delete it. -/
theorem exclusive_step {stages : List TakeStage} {i : ℕ} {stage stage' : TakeStage}
    {flows flows' : FlowTable} (hi : stages[i]? = some stage)
    (hstep : TakeStep aead key state stage flows stage' flows')
    (hundisturbed : stage = .started → ∀ row, TakeStage.selected row ∉ stages)
    (h : Exclusive state stages flows) : Exclusive state (stages.set i stage') flows' := by
  obtain ⟨hunique, hgone⟩ := h
  have hmem : ∀ s ∈ stages.set i stage', s = stage' ∨ s ∈ stages := fun s hs =>
    (List.mem_or_eq_of_mem_set hs).symm
  cases hstep with
  | failed _ _ e =>
    have hnot : ¬ (TakeStage.done (.error e)).Consumed := by simp [TakeStage.Consumed]
    refine ⟨hunique.set hi (by simp [TakeStage.Holds, hnot]), fun s hs hc => ?_⟩
    rcases hmem s hs with rfl | hs
    · exact absurd hc hnot
    · exact hgone s hs hc
  | @select _ row hfind =>
    have hfree : ∀ s ∈ stages, ¬ s.Holds := by
      rintro s hs (⟨row', rfl⟩ | hc)
      · exact hundisturbed rfl row' hs
      · simp [hgone s hs hc] at hfind
    refine ⟨fun a b s t ha hb hs ht => ?_, fun s hs hc => ?_⟩
    · have hat : ∀ {j : ℕ} {s : TakeStage}, (stages.set i (.selected row))[j]? = some s →
          s.Holds → j = i := by
        intro j s hj hs
        rcases getElem?_set_cases hj with ⟨rfl, _⟩ | hj
        · rfl
        · exact absurd hs (hfree s (List.mem_of_getElem? hj))
      rw [hat ha hs, hat hb ht]
    · rcases hmem s hs with rfl | hs
      · exact absurd hc (by simp [TakeStage.Consumed])
      · exact absurd (Or.inr hc) (hfree s hs)
  | delete row _ =>
    exact ⟨hunique.set hi fun _ => Or.inl ⟨row, rfl⟩,
      fun _ _ _ => (find_consumeFlow state state flows).trans (if_pos rfl)⟩
  | redeem row now _ =>
    have hconsumed : (TakeStage.consumed row).Consumed := trivial
    exact ⟨hunique.set hi fun _ => Or.inr hconsumed,
      fun _ _ _ => hgone _ (List.mem_of_getElem? hi) hconsumed⟩

/-! ### Runs -/

/-- The step is not a `SELECT` between the two statements of another call. -/
def Undisturbed (state : String)
    (e : Event FlowSig FlowTable SqlEnv (Except FlowError PendingFlow)) : Prop :=
  e.op = .select state → ∀ p ∈ e.before.pool, p.next? ≠ some (.delete state)

instance (state : String) (e : Event FlowSig FlowTable SqlEnv (Except FlowError PendingFlow)) :
    Decidable (Undisturbed state e) :=
  inferInstanceAs (Decidable (_ → _))

theorem exclusive_run {stages : List TakeStage}
    {c c' : Cfg FlowSig FlowTable (Except FlowError PendingFlow)}
    {es : List (Event FlowSig FlowTable SqlEnv (Except FlowError PendingFlow))}
    (h : flowSql.Run c es c') (hpool : c.pool = stages.map (TakeStage.prog aead key state))
    (hes : ∀ e ∈ es, Undisturbed state e) (h0 : Exclusive state stages c.world) :
    ∃ stages', c'.pool = stages'.map (TakeStage.prog aead key state) ∧
      Exclusive state stages' c'.world := by
  refine h.history (I := fun _ d => ∃ stages', d.pool = stages'.map (TakeStage.prog aead key state) ∧
    Exclusive state stages' d.world) ⟨stages, hpool, h0⟩ ?_
  rintro past e post rfl _ ⟨k, hhead, hexec, hafter⟩ ⟨stages, hpool, hI⟩
  rw [hpool, List.getElem?_map, Option.map_eq_some_iff] at hhead
  obtain ⟨stage, hi, hprog⟩ := hhead
  obtain ⟨stage', hk, hstep⟩ := takeStep_of_exec hprog hexec
  refine ⟨stages.set e.thread stage', by rw [hafter, hpool, hk, List.map_set], ?_⟩
  refine exclusive_step hi hstep ?_ hI
  rintro rfl row hrow
  have hop : e.op = .select state := by
    simp only [TakeStage.prog, FlowStore.take, Prog.perform, Prog.call_bind,
      Prog.call.injEq] at hprog
    exact hprog.1.symm
  refine hes e (by simp) hop (TakeStage.prog aead key state (.selected row)) ?_ ?_
  · rw [hpool]
    exact List.mem_map_of_mem hrow
  · rfl

/-- **A state is redeemed at most once**, by any number of calls on connections of their own, if no
call reads the row between the two statements of another one. -/
theorem take_once_of_undisturbed {n : ℕ} {flows : FlowTable}
    {c' : Cfg FlowSig FlowTable (Except FlowError PendingFlow)}
    {es : List (Event FlowSig FlowTable SqlEnv (Except FlowError PendingFlow))}
    (h : flowSql.Run ⟨flows, List.replicate n (FlowStore.take aead key state)⟩ es c')
    (hes : ∀ e ∈ es, Undisturbed state e) {i j : ℕ} {flow flow' : PendingFlow}
    (hi : c'.returned[i]? = some (some (.ok flow)))
    (hj : c'.returned[j]? = some (some (.ok flow'))) : i = j := by
  have hstart : Exclusive state (List.replicate n TakeStage.started) flows := by
    have hfree : ∀ s ∈ List.replicate n TakeStage.started, ¬ s.Holds := by
      simp [TakeStage.Holds, TakeStage.Consumed]
    exact ⟨fun i _ s _ hs _ hh _ => absurd hh (hfree s (List.mem_of_getElem? hs)),
      fun s hs hc => absurd (Or.inr hc) (hfree s hs)⟩
  have hstages : List.replicate n (FlowStore.take aead key state) =
      (List.replicate n TakeStage.started).map (TakeStage.prog aead key state) := by
    rw [List.map_replicate, TakeStage.prog]
  obtain ⟨stages, hpool, hunique, _⟩ := exclusive_run h hstages hes hstart
  have hholds : ∀ {l : ℕ} {f : PendingFlow}, c'.returned[l]? = some (some (.ok f)) →
      stages[l]? = some (.done (.ok f)) := by
    intro l f hl
    simp only [Cfg.returned, hpool, List.map_map, List.getElem?_map, Option.map_eq_some_iff,
      Function.comp_apply, Prog.returned_eq_some] at hl
    obtain ⟨stage, hstage, hret⟩ := hl
    rw [hstage]
    cases stage with
    | done r => simpa [TakeStage.prog] using hret
    | _ => simp [TakeStage.prog, FlowStore.take, FlowStore.takeSelected, FlowStore.takeConsumed,
        Prog.perform] at hret
  exact hunique i j _ _ (hholds hi) (hholds hj) (Or.inr ⟨flow, rfl⟩) (Or.inr ⟨flow', rfl⟩)

/-! ### A state that is redeemed twice -/

/-- A flow that was begun at the epoch, and callbacks for it in two processes. -/
def twoRedeemers : Cfg FlowSig FlowTable (Except FlowError PendingFlow) :=
  ⟨FlowStore.afterInsert .tagged (Vector.replicate 32 7) (.calm 0) "v1" "tenant-a" "s1" .empty,
    List.replicate 2 (FlowStore.take .tagged (Vector.replicate 32 7) "s1")⟩

/-- Both `SELECT`s come before both `DELETE`s, and both calls return the flow. -/
theorem state_redeemed_twice :
    ∃ es c', flowSql.Run twoRedeemers es c' ∧
      es.map (fun e => (e.thread, e.op)) = [(0, .select "s1"), (1, .select "s1"),
        (0, .delete "s1"), (1, .delete "s1"), (0, .unixNow), (1, .unixNow)] ∧
      c'.returned = List.replicate 2 (some (.ok ⟨"v1", "tenant-a", 0⟩)) :=
  ⟨_, _, run_replay twoRedeemers ([0, 1, 0, 1, 0, 1].map fun i => (i, .calm 1)) (by decide),
    by decide, by decide⟩

/-- One call after the other: only one of them can have returned the flow. -/
theorem take_once_one_after_other :
    ∃ es c', flowSql.Run twoRedeemers es c' ∧
      c'.returned = [some (.ok ⟨"v1", "tenant-a", 0⟩), some (.error .unknownState)] ∧
      ∀ j flow, c'.returned[j]? = some (some (.ok flow)) → 0 = j := by
  have hrun := run_replay (m := flowSql) twoRedeemers
    ([0, 0, 0, 1].map fun i => (i, .calm 1)) (by decide)
  refine ⟨_, _, hrun, by decide, fun j flow hj => ?_⟩
  exact take_once_of_undisturbed hrun (by decide) rfl hj

end UniMail
