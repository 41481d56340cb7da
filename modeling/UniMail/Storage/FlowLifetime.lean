import UniMail.Storage.Flows

/-!
# How long a flow lives in one process

Every call of a flow store is atomic (`flowStore`). A flow of state `s` begun at Unix time `c` is in
the table until it is taken or purged, and while the clock has not passed `c + 600` only an `insert`
at exactly `c + 600` purges it: the purge takes the rows with `created_at <= now - 600`, although
`take` still accepts the age 600. So a live flow can be taken if and only if no other flow was begun
in that second (`take_live_iff`); `live_flow_purged` is a run where it is lost.

The proof follows the row of `s` along the run (`FlowState`): each call of another state either
leaves it or is such a purge.
-/

namespace UniMail

open Relational Interaction

/-- The calls of a flow store. -/
inductive FlowCall
  | insert (verifier tenantId state : String)
  | take (state : String)
  deriving DecidableEq

abbrev FlowCall.Reply : FlowCall → Type
  | .insert _ _ _ => Unit
  | .take _ => Except FlowError PendingFlow

abbrev FlowCallSig : Signature := ⟨FlowCall, FlowCall.Reply⟩

/-- A flow store in one process: the mutex of its connection makes each call atomic. -/
def flowStore (aead : Aead) (key : Key) : Machine FlowCallSig FlowTable SqlEnv where
  exec i o env flows := match o with
    | .insert verifier tenantId state =>
      flowSql.runAtomic i env (FlowStore.insert aead key verifier tenantId state) flows
    | .take state => flowSql.runAtomic i env (FlowStore.take aead key state) flows

/-- What a step of the store is, by its call. -/
theorem step_insert {aead : Aead} {key : Key} {α : Type}
    {e : Event FlowCallSig FlowTable SqlEnv α} (h : (flowStore aead key).Step e)
    {verifier tenantId state : String} (hop : e.op = .insert verifier tenantId state) :
    e.after.world =
      FlowStore.afterInsert aead key e.env verifier tenantId state e.before.world := by
  obtain ⟨before, i, env, op, reply, after⟩ := e
  cases hop
  obtain ⟨k, _, hexec, _⟩ := h
  have hatomic := FlowStore.runAtomic_insert aead key i env verifier tenantId state before.world
  exact congrArg Prod.snd (Option.some.inj (hexec.symm.trans hatomic))

theorem step_take {aead : Aead} {key : Key} {α : Type}
    {e : Event FlowCallSig FlowTable SqlEnv α} (h : (flowStore aead key).Step e)
    {state : String} {r : Except FlowError PendingFlow} (hcall : e.call = ⟨.take state, r⟩) :
    (r, e.after.world) = FlowStore.afterTake aead key e.env state e.before.world := by
  obtain ⟨before, i, env, op, reply, after⟩ := e
  cases hcall
  obtain ⟨k, _, hexec, _⟩ := h
  have hatomic := FlowStore.runAtomic_take aead key i env state before.world
  exact Option.some.inj (hexec.symm.trans hatomic)

/-- A step is a call of one of the two functions. -/
theorem step_cases {α : Type} (e : Event FlowCallSig FlowTable SqlEnv α) :
    (∃ v t s, e.op = .insert v t s) ∨ ∃ s r, e.call = ⟨.take s, r⟩ := by
  obtain ⟨before, i, env, op, reply, after⟩ := e
  cases op with
  | insert v t s => exact Or.inl ⟨v, t, s, rfl⟩
  | take s => exact Or.inr ⟨s, reply, rfl⟩

/-- The state an `insert` records, if the call is one. -/
def FlowCall.inserted? : FlowCall → Option String
  | .insert _ _ state => some state
  | .take _ => none

variable {aead : Aead} {key : Key} {α : Type}

/-! ### One call -/

theorem unixNow_mono {a b : Int} (h : a ≤ b) : unixNow a ≤ unixNow b := by
  unfold unixNow
  omega

section OneCall

variable {env : SqlEnv} (henv : ∀ o, env.fault o = none)
include henv

/-- What an `insert` does to a state: it purges its row by age, and adds its own to a free state. -/
theorem find_afterInsert (verifier tenantId state s : String) (flows : FlowTable) :
    (FlowStore.afterInsert aead key env verifier tenantId state flows).find s =
      let kept := (flows.find s).filter fun r =>
        !decide (r.createdAt ≤ unixNow env.clock - FLOW_TTL_SECS)
      if state = s ∧ kept = none then
        some (FlowStore.insertedRow aead key env verifier tenantId state) else kept := by
  simp only [FlowStore.afterInsert, henv, Option.isNone_none, if_true, find_insertFlow,
    find_purgeFlows]
  rfl

theorem afterTake_eq (state : String) (flows : FlowTable) :
    FlowStore.afterTake aead key env state flows =
      match flows.find state with
      | none => (.error .unknownState, flows)
      | some row => (FlowStore.redeem aead key row (unixNow env.clock), consumeFlow state flows) := by
  simp only [FlowStore.afterTake, henv]
  cases flows.find state <;> rfl

theorem find_afterTake_ne {state s : String} (hne : state ≠ s) (flows : FlowTable) :
    (FlowStore.afterTake aead key env state flows).2.find s = flows.find s := by
  rw [afterTake_eq henv]
  cases flows.find state with
  | none => rfl
  | some row => exact (find_consumeFlow state s flows).trans (if_neg hne)

end OneCall

/-! ### The row of one flow along a run -/

/-- The step is an `insert` in the second `deadline`. -/
def PurgesAt (deadline : Int) (e : Event FlowCallSig FlowTable SqlEnv α) : Prop :=
  e.op.inserted?.isSome ∧ unixNow e.env.clock = deadline

instance (deadline : Int) (e : Event FlowCallSig FlowTable SqlEnv α) :
    Decidable (PurgesAt deadline e) :=
  inferInstanceAs (Decidable (_ ∧ _))

/-- The row of a flow is in place as long as no `insert` of its last second came by. -/
def FlowState (row : FlowRow) (es : List (Event FlowCallSig FlowTable SqlEnv α))
    (flows : FlowTable) : Prop :=
  ((∀ e ∈ es, ¬ PurgesAt (row.createdAt + FLOW_TTL_SECS) e) ∧ flows.find row.state = some row) ∨
    ((∃ e ∈ es, PurgesAt (row.createdAt + FLOW_TTL_SECS) e) ∧ flows.find row.state = none)

/-- A call of another state, at a clock within the lifetime of the flow. -/
theorem flowState_step {row : FlowRow} {es : List (Event FlowCallSig FlowTable SqlEnv α)}
    {e : Event FlowCallSig FlowTable SqlEnv α} (hstep : (flowStore aead key).Step e)
    (henv : ∀ o, e.env.fault o = none) (htake : e.op ≠ .take row.state)
    (hinsert : e.op.inserted? ≠ some row.state)
    (hclock : unixNow e.env.clock ≤ row.createdAt + FLOW_TTL_SECS)
    (h : FlowState row es e.before.world) : FlowState row (es ++ [e]) e.after.world := by
  rcases step_cases e with ⟨v, t, s, hop⟩ | ⟨s, r, hcall⟩
  · have hne : s ≠ row.state := by simpa [FlowCall.inserted?, hop] using hinsert
    have hfind := @find_afterInsert aead key _ henv v t s row.state e.before.world
    simp only [hne, false_and, if_false, ← step_insert hstep hop] at hfind
    have hpurges : PurgesAt (row.createdAt + FLOW_TTL_SECS) e ↔
        row.createdAt ≤ unixNow e.env.clock - FLOW_TTL_SECS := by
      constructor
      · rintro ⟨_, hnow⟩
        omega
      · exact fun hle => ⟨by simp [hop, FlowCall.inserted?], by omega⟩
    rcases h with ⟨hmid, hrow⟩ | ⟨⟨e', he', hp⟩, hrow⟩
    · rw [hrow, Option.filter_some] at hfind
      by_cases hp : row.createdAt ≤ unixNow e.env.clock - FLOW_TTL_SECS
      · exact Or.inr ⟨⟨e, by simp, hpurges.mpr hp⟩, by simpa [hp] using hfind⟩
      · refine Or.inl ⟨?_, by simpa [hp] using hfind⟩
        intro e' he'
        rcases List.mem_append.mp he' with he' | he'
        · exact hmid e' he'
        · rw [List.mem_singleton.mp he', hpurges]
          exact hp
    · rw [hrow] at hfind
      exact Or.inr ⟨⟨e', by simp [he'], hp⟩, by simpa using hfind⟩
  · have hop : e.op = .take s := congrArg Sigma.fst hcall
    have hne : s ≠ row.state := by simpa [hop] using htake
    have hworld := congrArg Prod.snd (step_take hstep hcall)
    dsimp only at hworld
    have hnot : ¬ PurgesAt (row.createdAt + FLOW_TTL_SECS) e := by
      simp [PurgesAt, hop, FlowCall.inserted?]
    simpa [FlowState, or_imp, forall_and, hnot, hworld, find_afterTake_ne henv hne,
      or_and_right, exists_or] using h

theorem flowState_run {row : FlowRow} {c c' : Cfg FlowCallSig FlowTable α}
    {es : List (Event FlowCallSig FlowTable SqlEnv α)} (h : (flowStore aead key).Run c es c')
    (henv : ∀ e ∈ es, ∀ o, e.env.fault o = none) (htake : ∀ e ∈ es, e.op ≠ .take row.state)
    (hinsert : ∀ e ∈ es, e.op.inserted? ≠ some row.state)
    (hclock : ∀ e ∈ es, unixNow e.env.clock ≤ row.createdAt + FLOW_TTL_SECS)
    (hrow : c.world.find row.state = some row) : FlowState row es c'.world := by
  refine h.history (I := fun past d => FlowState row past d.world) (Or.inl ⟨by simp, hrow⟩) ?_
  rintro past e post rfl _ hstep hpast
  have hmem : e ∈ past ++ e :: post := by simp
  exact flowState_step hstep (henv e hmem) (htake e hmem) (hinsert e hmem) (hclock e hmem) hpast

/-- A state that no `insert` records stays absent. -/
theorem find_none_run {s : String} {c c' : Cfg FlowCallSig FlowTable α}
    {es : List (Event FlowCallSig FlowTable SqlEnv α)} (h : (flowStore aead key).Run c es c')
    (henv : ∀ e ∈ es, ∀ o, e.env.fault o = none) (hinsert : ∀ e ∈ es, e.op.inserted? ≠ some s)
    (hnone : c.world.find s = none) : c'.world.find s = none := by
  refine h.history (I := fun _ d => d.world.find s = none) hnone ?_
  rintro past e post rfl _ hstep hpast
  have hmem : e ∈ past ++ e :: post := by simp
  rcases step_cases e with ⟨v, t, state, hop⟩ | ⟨state, r, hcall⟩
  · have hne : state ≠ s := by simpa [FlowCall.inserted?, hop] using hinsert e hmem
    rw [step_insert hstep hop, find_afterInsert (henv e hmem)]
    simp [hne, hpast]
  · have hworld := congrArg Prod.snd (step_take hstep hcall)
    dsimp only at hworld
    rw [hworld, afterTake_eq (henv e hmem)]
    cases e.before.world.find state with
    | none => exact hpast
    | some row =>
      apply (find_consumeFlow state s _).trans
      simp [hpast]

section Lifetime

variable {past mid post : List (Event FlowCallSig FlowTable SqlEnv α)}
  {eInsert eTake : Event FlowCallSig FlowTable SqlEnv α} {verifier tenantId state : String}

/-- Where no state is inserted twice, no other call records this one. -/
theorem inserted_once (hop : eInsert.op.inserted? = some state)
    (hdistinct : ((past ++ eInsert :: (mid ++ eTake :: post)).filterMap
      fun e => e.op.inserted?).Nodup) :
    (∀ e ∈ past, e.op.inserted? ≠ some state) ∧ ∀ e ∈ mid, e.op.inserted? ≠ some state := by
  simp only [List.filterMap_append, List.filterMap_cons, hop, List.nodup_append',
    List.nodup_cons, List.mem_append, List.mem_filterMap, not_or, not_exists, not_and] at hdistinct
  constructor
  · intro e he hop'
    have hdisj := hdistinct.2.2 (List.mem_filterMap.mpr ⟨e, he, hop'⟩)
    exact hdisj List.mem_cons_self
  · exact fun e he => hdistinct.2.1.1.1 e he

/-- The clock stays within the lifetime of the flow until it is taken. -/
theorem clock_within
    (hclock : (past ++ eInsert :: (mid ++ eTake :: post)).Pairwise
      fun e e' => e.env.clock ≤ e'.env.clock)
    (hage : unixNow eTake.env.clock - unixNow eInsert.env.clock ≤ FLOW_TTL_SECS) :
    ∀ e ∈ mid, unixNow e.env.clock ≤ unixNow eInsert.env.clock + FLOW_TTL_SECS := by
  intro e he
  have hrest := (List.pairwise_cons.mp (List.pairwise_append.mp hclock).2.1).2
  have hle : e.env.clock ≤ eTake.env.clock :=
    (List.pairwise_append.mp hrest).2.2 e he eTake List.mem_cons_self
  have hmono := unixNow_mono hle
  omega

/-- The row right after the insertion. -/
theorem find_after_insert (hstep : (flowStore aead key).Step eInsert)
    (hop : eInsert.op = .insert verifier tenantId state)
    (hfault : ∀ o, eInsert.env.fault o = none)
    (habsent : eInsert.before.world.find state = none) :
    eInsert.after.world.find state =
      some (FlowStore.insertedRow aead key eInsert.env verifier tenantId state) := by
  rw [step_insert hstep hop, find_afterInsert hfault]
  simp [habsent, FlowStore.insertedRow]

end Lifetime

/-- **A live flow can be taken exactly when no flow was begun in its last second.** -/
theorem take_live_iff {c c' : Cfg FlowCallSig FlowTable α}
    {es past mid post : List (Event FlowCallSig FlowTable SqlEnv α)}
    {eInsert eTake : Event FlowCallSig FlowTable SqlEnv α} {verifier tenantId state : String}
    {r : Except FlowError PendingFlow} (h : (flowStore aead key).Run c es c')
    (hes : es = past ++ eInsert :: (mid ++ eTake :: post))
    (hinsert : eInsert.call = ⟨.insert verifier tenantId state, ()⟩)
    (htake : eTake.call = ⟨.take state, r⟩) (hstart : c.world.find state = none)
    (hdistinct : (es.filterMap fun e => e.op.inserted?).Nodup)
    (hclock : es.Pairwise fun e e' => e.env.clock ≤ e'.env.clock)
    (hfault : ∀ e ∈ es, ∀ o, e.env.fault o = none) (hmid : ∀ e ∈ mid, e.op ≠ .take state)
    (hage : unixNow eTake.env.clock - unixNow eInsert.env.clock ≤ FLOW_TTL_SECS) :
    (∃ flow, r = .ok flow ∧ flow.verifier = verifier ∧ flow.tenantId = tenantId) ↔
      ∀ e ∈ mid, ¬ PurgesAt (unixNow eInsert.env.clock + FLOW_TTL_SECS) e := by
  subst hes
  obtain ⟨hpast, hstepInsert, hrest⟩ := h.split
  obtain ⟨hrunMid, hstepTake, _⟩ := hrest.split
  have hop : eInsert.op = .insert verifier tenantId state := congrArg Sigma.fst hinsert
  obtain ⟨hnotPast, hnotMid⟩ := inserted_once (congrArg FlowCall.inserted? hop) hdistinct
  have habsent := find_none_run hpast (fun e he => hfault e (by simp [he])) hnotPast hstart
  let row := FlowStore.insertedRow aead key eInsert.env verifier tenantId state
  have hrow : eInsert.after.world.find row.state = some row :=
    find_after_insert hstepInsert hop (hfault eInsert (by simp)) habsent
  have hstate := flowState_run hrunMid (fun e he => hfault e (by simp [he])) hmid hnotMid
    (clock_within hclock hage) hrow
  have hreply := congrArg Prod.fst (step_take hstepTake htake)
  rw [afterTake_eq (hfault eTake (by simp))] at hreply
  rcases hstate with ⟨hnone, hfind⟩ | ⟨⟨e, he, hpurges⟩, hfind⟩
  · rw [show eTake.before.world.find state = _ from hfind] at hreply
    have hok : r = .ok ⟨verifier, tenantId, unixNow eInsert.env.clock⟩ :=
      hreply.trans (FlowStore.redeem_insertedRow hage)
    simp only [hok, Except.ok.injEq, exists_eq_left', true_and, true_iff]
    exact hnone
  · rw [show eTake.before.world.find state = _ from hfind] at hreply
    have herror : r = .error .unknownState := hreply
    simp only [herror, reduceCtorEq, false_and, exists_false, false_iff, not_forall, not_not]
    exact ⟨e, he, hpurges⟩

/-! ### A flow that is lost at its last second -/

/-- One call as a program. -/
def FlowCall.prog : FlowCall → Prog FlowCallSig (Option (Except FlowError PendingFlow))
  | .insert verifier tenantId state =>
    .call (.insert verifier tenantId state) fun _ => .ret none
  | .take state => .call (.take state) fun r => .ret (some r)

/-- Two flows and a callback for the first. -/
def twoFlows : Cfg FlowCallSig FlowTable (Option (Except FlowError PendingFlow)) :=
  ⟨.empty, [FlowCall.prog (.insert "v1" "tenant-a" "s1"),
    FlowCall.prog (.insert "v2" "tenant-b" "s2"), FlowCall.prog (.take "s1")]⟩

/-- The flow of `s1` is 600 seconds old, an age `take` accepts; the flow begun in that second has
purged it. -/
theorem live_flow_purged :
    ∃ es c', (flowStore .tagged (Vector.replicate 32 7)).Run twoFlows es c' ∧
      es.map (fun e => (e.op, unixNow e.env.clock)) =
        [(.insert "v1" "tenant-a" "s1", 0), (.insert "v2" "tenant-b" "s2", 600),
          (.take "s1", 600)] ∧
      c'.returned = [some none, some none, some (some (.error .unknownState))] :=
  ⟨_, _, run_replay twoFlows [(0, .calm 0), (1, .calm 600), (2, .calm 600)] (by decide),
    by decide, by decide⟩

/-- With the second flow begun at 300, the first can still be taken at 600. -/
theorem take_live_iff_calm :
    ∃ es c' e r flow, (flowStore .tagged (Vector.replicate 32 7)).Run twoFlows es c' ∧ e ∈ es ∧
      e.call = ⟨.take "s1", r⟩ ∧ r = .ok flow ∧ flow.verifier = "v1" ∧
      flow.tenantId = "tenant-a" := by
  let sched : List (ℕ × SqlEnv) := [(0, .calm 0), (1, .calm 300), (2, .calm 600)]
  have hrun := run_replay (m := flowStore .tagged (Vector.replicate 32 7)) twoFlows sched (by decide)
  have hfault := env_replay (P := fun env => ∀ o, env.fault o = none)
    (m := flowStore .tagged (Vector.replicate 32 7)) twoFlows sched (by decide)
    (by simp [sched, SqlEnv.calm])
  obtain ⟨flow, hok⟩ := (take_live_iff hrun (show _ = [] ++ _ :: ([_] ++ _ :: []) from rfl) rfl rfl
    rfl (by decide) (by decide) hfault (by decide) (by decide)).mpr (by decide)
  exact ⟨_, _, _, _, flow, hrun, .tail _ (.tail _ (.head _)), rfl, hok⟩

end UniMail
