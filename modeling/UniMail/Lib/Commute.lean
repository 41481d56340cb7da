import UniMail.Lib.Monitor
import Mathlib.Data.List.Nodup

/-!
# Reordering a run

Two adjacent steps of different calls that concern different parts of the world can be exchanged
(`Footprints.commute`). If a relation `Conflict` names all pairs that cannot, the steps of a call can be
put off to the end of a run, where they meet no conflict (`Commutes.defer`); a run whose calls can be
put off one by one is equivalent to a sequential one (`Commutes.serialize`): every call sees the same,
and operations that conflict with each other stay in their order.
-/

namespace Interaction

variable {S : Signature} {W Env α : Type} {m : Machine S W Env}

/-! ### Exchanging two steps -/

/-- The two steps, `f` right after `e`, can also be taken the other way round. -/
def Exchanges (m : Machine S W Env) (e f : Event S W Env α) : Prop :=
  ∃ f' e' : Event S W Env α, f'.view = f.view ∧ e'.view = e.view ∧
    m.Run e.before [f', e'] f.after

/-- Steps of different calls can be exchanged if their operations can. -/
theorem exchanges_of_exec {e f : Event S W Env α} (he : m.Step e) (hf : m.Step f)
    (hadjacent : f.before = e.after) (hthread : e.thread ≠ f.thread)
    (hexec : ∃ w, m.exec f.thread f.op f.env e.before.world = some (f.reply, w) ∧
      m.exec e.thread e.op e.env w = some (e.reply, f.after.world)) : Exchanges m e f := by
  obtain ⟨k, hpool, _, hafter⟩ := he
  obtain ⟨k', hpool', _, hafter'⟩ := id hf
  obtain ⟨w, hfirst, hsecond⟩ := hexec
  rw [hadjacent, hafter, List.getElem?_set_ne hthread] at hpool'
  let mid : Cfg S W α := ⟨w, e.before.pool.set f.thread (k' f.reply)⟩
  refine ⟨⟨e.before, f.thread, f.env, f.op, f.reply, mid⟩,
    ⟨mid, e.thread, e.env, e.op, e.reply, f.after⟩, rfl, rfl, rfl, ⟨k', hpool', hfirst, rfl⟩, rfl,
    ⟨k, ?_, hsecond, ?_⟩, rfl⟩
  · exact (List.getElem?_set_ne (Ne.symm hthread)).trans hpool
  · rw [hafter', hadjacent, hafter]
    exact List.set_comm _ _ hthread

/-! ### Parts of the world -/

/-- The world falls into parts, and each operation is about one of them: where `pre` holds, it leaves
the others as they are, and its reply and what it does depend on its own part only. -/
structure Footprints {ι : Type} {V : ι → Type} (m : Machine S W Env) (part : (k : ι) → W → V k)
    (on : ℕ → S.Op → ι) (pre : S.Op → W → Prop) : Prop where
  ext : ∀ w w' : W, (∀ k, part k w = part k w') → w = w'
  frame : ∀ i o env w r w', pre o w → m.exec i o env w = some (r, w') → ∀ k, k ≠ on i o →
    part k w' = part k w
  same : ∀ i o env w r w' v, pre o w → m.exec i o env w = some (r, w') →
    part (on i o) v = part (on i o) w → pre o v ∧ ∃ v', m.exec i o env v = some (r, v') ∧
      part (on i o) v' = part (on i o) w'

/-- Operations on different parts commute. -/
theorem Footprints.commute {ι : Type} {V : ι → Type} {part : (k : ι) → W → V k}
    {on : ℕ → S.Op → ι} {pre : S.Op → W → Prop} (h : Footprints m part on pre) {i j : ℕ}
    {o o' : S.Op} {env env' : Env} {r : S.Reply o} {r' : S.Reply o'} {w w₁ w₂ : W} (hpre : pre o w)
    (hexec : m.exec i o env w = some (r, w₁)) (hpre' : pre o' w₁)
    (hexec' : m.exec j o' env' w₁ = some (r', w₂)) (hpart : on i o ≠ on j o') :
    ∃ v, m.exec j o' env' w = some (r', v) ∧ m.exec i o env v = some (r, w₂) := by
  have hunseen := h.frame i o env w r w₁ hpre hexec (on j o') (Ne.symm hpart)
  obtain ⟨hpre₀, v, hfirst, hv⟩ := h.same j o' env' w₁ r' w₂ w hpre' hexec' hunseen.symm
  have hkept := h.frame j o' env' w r' v hpre₀ hfirst (on i o) hpart
  obtain ⟨hprev, v₂, hsecond, hv₂⟩ := h.same i o env w r w₁ v hpre hexec hkept
  have heq : v₂ = w₂ := by
    apply h.ext v₂ w₂
    intro k
    have hframe₂ := h.frame i o env v r v₂ hprev hsecond k
    have hframe' := h.frame j o' env' w₁ r' w₂ hpre' hexec' k
    by_cases hk : k = on i o
    · subst hk
      exact hv₂.trans (hframe' hpart).symm
    · rw [hframe₂ hk]
      by_cases hk' : k = on j o'
      · subst hk'
        exact hv
      · rw [hframe' hk', h.frame i o env w r w₁ hpre hexec k hk,
          h.frame j o' env' w r' v hpre₀ hfirst k hk']
  exact ⟨v, hfirst, heq ▸ hsecond⟩

/-! ### Putting the steps of a call off -/

/-- Adjacent steps of different calls can be exchanged unless they conflict, in all configurations that
satisfy the invariant. -/
structure Commutes (m : Machine S W Env) (Inv : Cfg S W α → Prop) (Conflict : S.Op → S.Op → Prop) :
    Prop where
  step : ∀ e, m.Step e → Inv e.before → Inv e.after
  exchange : ∀ e f, Inv e.before → m.Step e → m.Step f → f.before = e.after → e.thread ≠ f.thread →
    ¬ Conflict e.op f.op → Exchanges m e f

/-- The steps of call `i` meet no conflict after them. -/
def Deferrable (Conflict : S.Op → S.Op → Prop) (i : ℕ) (es : List (Event S W Env α)) : Prop :=
  es.Pairwise fun e f => e.thread = i → f.thread ≠ i → ¬ Conflict e.op f.op

/-- A call can be put off if up to its step `k` it does nothing that conflicts with anything, and
nothing after `k` does. -/
theorem Deferrable.of_last {Conflict : S.Op → S.Op → Prop} {i : ℕ}
    {past post : List (Event S W Env α)} {k : Event S W Env α}
    (hpast : ∀ e ∈ past, e.thread = i → ∀ o, ¬ Conflict e.op o)
    (hpost : ∀ f ∈ post, ∀ o, ¬ Conflict o f.op) : Deferrable Conflict i (past ++ k :: post) := by
  refine List.pairwise_append.mpr ⟨?_, List.pairwise_cons.mpr ⟨?_, ?_⟩, ?_⟩
  · exact List.pairwise_of_forall_mem_list fun e he f _ hi _ => hpast e he hi f.op
  · exact fun f hf _ _ => hpost f hf k.op
  · exact List.pairwise_of_forall_mem_list fun e _ f hf _ _ => hpost f hf e.op
  · intro e he f _ hi _
    exact hpast e he hi f.op

namespace Commutes

variable {Inv : Cfg S W α → Prop} {Conflict : S.Op → S.Op → Prop} (hm : Commutes m Inv Conflict)
  {c c' : Cfg S W α} {es : List (Event S W Env α)}
include hm

/-- A step can be put off past steps of other calls. -/
theorem push {e : Event S W Env α} (h : m.Run c (e :: es) c') (hinv : Inv c)
    (hes : ∀ f ∈ es, f.thread ≠ e.thread ∧ ¬ Conflict e.op f.op) :
    ∃ es' e', m.Run c (es' ++ [e']) c' ∧ es'.map Event.view = es.map Event.view ∧
      e'.view = e.view := by
  induction es generalizing c e with
  | nil => exact ⟨[], e, h, rfl, rfl⟩
  | cons f es ih =>
    obtain ⟨rfl, hstep, hbefore, hstep', hrest⟩ := h
    obtain ⟨hthread, hconflict⟩ := hes f List.mem_cons_self
    obtain ⟨f', e', hf', he', hrun⟩ :=
      hm.exchange e f hinv hstep hstep' hbefore (Ne.symm hthread) hconflict
    obtain ⟨hfirst, hstep₁, hsecond, hstep₂, hlast⟩ := hrun
    have hview : e'.thread = e.thread ∧ e'.op = e.op :=
      ⟨congrArg Prod.fst he', congrArg (fun v => v.2.1) he'⟩
    have hrun' : m.Run f'.after (e' :: es) c' := by
      refine ⟨hsecond, hstep₂, ?_⟩
      rw [← hlast]
      exact hrest
    have hinv' : Inv f'.after := hm.step f' hstep₁ (hfirst ▸ hinv)
    obtain ⟨es', e'', hrun'', hviews, hlast'⟩ := ih hrun' hinv' fun g hg => by
      rw [hview.1, hview.2]
      exact hes g (List.mem_cons_of_mem _ hg)
    refine ⟨f' :: es', e'', ⟨hfirst, hstep₁, hrun''⟩, ?_, hlast'.trans he'⟩
    rw [List.map_cons, List.map_cons, hviews, hf']

/-- **Putting a call off.** -/
theorem defer {i : ℕ} (h : m.Run c es c') (hinv : Inv c) (hes : Deferrable Conflict i es) :
    ∃ es₁ es₂, m.Run c (es₁ ++ es₂) c' ∧
      es₁.map Event.view = (es.filter fun e => e.thread ≠ i).map Event.view ∧
      es₂.map Event.view = (es.filter fun e => e.thread = i).map Event.view := by
  induction es generalizing c with
  | nil => exact ⟨[], [], h, rfl, rfl⟩
  | cons e es ih =>
    obtain ⟨rfl, hstep, hrest⟩ := h
    obtain ⟨hhead, htail⟩ := List.pairwise_cons.mp hes
    obtain ⟨es₁, es₂, hrun, hothers, hown⟩ := ih hrest (hm.step e hstep hinv) htail
    by_cases hi : e.thread = i
    · obtain ⟨d, hrun₁, hrun₂⟩ := Machine.Run.append_iff.mp hrun
      have hpass : ∀ f ∈ es₁, f.thread ≠ e.thread ∧ ¬ Conflict e.op f.op := by
        intro f hf
        have hview : f.view ∈ (es.filter fun e => e.thread ≠ i).map Event.view := by
          rw [← hothers]
          exact List.mem_map_of_mem hf
        obtain ⟨g, hg, hview⟩ := List.mem_map.mp hview
        obtain ⟨hg, hne⟩ := List.mem_filter.mp hg
        have hthread : g.thread = f.thread := congrArg Prod.fst hview
        have hop : g.op = f.op := congrArg (fun v => v.2.1) hview
        rw [← hthread, ← hop]
        have hne : g.thread ≠ i := of_decide_eq_true hne
        exact ⟨hi ▸ hne, hhead g hg hi hne⟩
      obtain ⟨es₁', e', hrun₁', hviews, hview⟩ := hm.push ⟨rfl, hstep, hrun₁⟩ hinv hpass
      refine ⟨es₁', e' :: es₂, ?_, ?_, ?_⟩
      · have := Machine.Run.append_iff.mpr ⟨d, hrun₁', hrun₂⟩
        rwa [List.append_assoc] at this
      · rw [hviews, hothers, List.filter_cons_of_neg (by simp [hi])]
      · rw [List.map_cons, hown, hview, List.filter_cons_of_pos (by simp [hi]), List.map_cons]
    · refine ⟨e :: es₁, es₂, ⟨rfl, hstep, hrun⟩, ?_, ?_⟩
      · rw [List.map_cons, hothers, List.filter_cons_of_pos (by simp [hi]), List.map_cons]
      · rw [hown, List.filter_cons_of_neg (by simp [hi])]

end Commutes

/-! ### One call after the other -/

/-- The calls of `order` run one after the other, each as far as it gets. -/
inductive Sequential (m : Machine S W Env) (c : Cfg S W α) :
    List ℕ → List (Event S W Env α) → Cfg S W α → Prop
  | nil : Sequential m c [] [] c
  | snoc {order : List ℕ} {es block : List (Event S W Env α)} {d c' : Cfg S W α} {i : ℕ}
      (h : Sequential m c order es d) (hi : i ∉ order) (hblock : m.Run d block c')
      (hthread : ∀ e ∈ block, e.thread = i) : Sequential m c (order ++ [i]) (es ++ block) c'

namespace Sequential

variable {c c' : Cfg S W α} {order : List ℕ} {es : List (Event S W Env α)}

theorem run (h : Sequential m c order es c') : m.Run c es c' := by
  induction h with
  | nil => exact rfl
  | snoc _ _ hblock _ ih => exact Machine.Run.append_iff.mpr ⟨_, ih, hblock⟩

theorem nodup (h : Sequential m c order es c') : order.Nodup := by
  induction h with
  | nil => exact List.nodup_nil
  | snoc _ hi _ _ ih =>
    rw [List.nodup_append']
    exact ⟨ih, List.nodup_singleton _, List.disjoint_singleton.mpr hi⟩

/-- Calls without a step can be put at the end. -/
theorem extend (h : Sequential m c order es c') {l : List ℕ} (hl : l.Nodup)
    (hdisjoint : ∀ i ∈ l, i ∉ order) : Sequential m c (order ++ l) es c' := by
  induction l generalizing order with
  | nil => rwa [List.append_nil]
  | cons i l ih =>
    obtain ⟨hi, hl⟩ := List.nodup_cons.mp hl
    have hsnoc : Sequential m c (order ++ [i]) (es ++ []) c' :=
      .snoc h (hdisjoint i List.mem_cons_self) rfl (fun _ he => nomatch he)
    rw [List.append_nil] at hsnoc
    have hextend := ih hsnoc hl fun j hj hmem => by
      rcases List.mem_append.mp hmem with hmem | hmem
      · exact hdisjoint j (List.mem_cons_of_mem _ hj) hmem
      · exact hi (List.mem_singleton.mp hmem ▸ hj)
    rwa [List.append_assoc] at hextend

end Sequential

/-- Filtering the two halves of a list keeps the order, if no selected element of the second half comes
before one of the first. -/
theorem filter_halves {β : Type} {p q : β → Bool} {l : List β}
    (h : l.Pairwise fun a b => p a = true → p b = false → ¬ (q a = true ∧ q b = true)) :
    (l.filter fun a => !p a).filter q ++ (l.filter p).filter q = l.filter q := by
  induction l with
  | nil => rfl
  | cons a l ih =>
    obtain ⟨hhead, htail⟩ := List.pairwise_cons.mp h
    have hrest := ih htail
    cases hp : p a with
    | false =>
      cases hq : q a <;> simpa [List.filter_cons, hp, hq] using hrest
    | true =>
      cases hq : q a with
      | true =>
        have hnone : (l.filter fun a => !p a).filter q = [] := by
          rw [List.filter_eq_nil_iff]
          intro b hb hqb
          obtain ⟨hb, hpb⟩ := List.mem_filter.mp hb
          exact hhead b hb hp (by simpa using hpb) ⟨hq, hqb⟩
        rw [hnone, List.nil_append] at hrest
        rw [List.filter_cons_of_neg (by simp [hp]), hnone, List.nil_append, List.filter_cons_of_pos hp,
          List.filter_cons_of_pos hq, List.filter_cons_of_pos hq, hrest]
      | false => simpa [List.filter_cons, hp, hq] using hrest

/-- The last element of a list that satisfies a predicate, and what comes before and after it. -/
theorem exists_last {β : Type} {p : β → Bool} {l : List β} (h : ∃ a ∈ l, p a = true) :
    ∃ past a post, l = past ++ a :: post ∧ p a = true ∧ ∀ b ∈ post, p b = false := by
  obtain ⟨a, hfind⟩ : ∃ a, l.reverse.find? p = some a := by
    obtain ⟨a, ha, hp⟩ := h
    exact Option.isSome_iff_exists.mp (List.find?_isSome.mpr ⟨a, List.mem_reverse.mpr ha, hp⟩)
  obtain ⟨hp, before, after, hl, hbefore⟩ := List.find?_eq_some_iff_append.mp hfind
  refine ⟨after.reverse, a, before.reverse, ?_, hp, fun b hb => ?_⟩
  · rw [← List.reverse_reverse l, hl, List.reverse_append, List.reverse_cons, List.append_assoc]
    rfl
  · simpa using hbefore b (List.mem_reverse.mp hb)

/-- What is seen of the steps of call `i`. -/
def viewsOf (i : ℕ) (es : List (Event S W Env α)) : List (ℕ × ((o : S.Op) × Env × S.Reply o)) :=
  (es.map Event.view).filter fun v => v.1 = i

/-- What is seen of the steps with an operation of `obs`. -/
def viewsWith (obs : S.Op → Bool) (es : List (Event S W Env α)) :
    List (ℕ × ((o : S.Op) × Env × S.Reply o)) :=
  (es.map Event.view).filter fun v => obs v.2.1

/-- A step that is seen among those of `es` that pass a test has the thread of one of them. -/
theorem exists_of_views {p : Event S W Env α → Bool} {es es₁ : List (Event S W Env α)}
    (h : es₁.map Event.view = (es.filter p).map Event.view) {e₁ : Event S W Env α} (he₁ : e₁ ∈ es₁) :
    ∃ e ∈ es, p e = true ∧ e.thread = e₁.thread := by
  have hview : e₁.view ∈ (es.filter p).map Event.view := by
    rw [← h]
    exact List.mem_map_of_mem he₁
  obtain ⟨e, he, hview⟩ := List.mem_map.mp hview
  obtain ⟨he, hp⟩ := List.mem_filter.mp he
  exact ⟨e, he, hp, congrArg Prod.fst hview⟩

section Serialize

variable {Inv : Cfg S W α → Prop} {Conflict : S.Op → S.Op → Prop}

/-- What is seen does not change when a call is put off. -/
theorem views_defer {i : ℕ} {es es₁ es₂ : List (Event S W Env α)} (hes : Deferrable Conflict i es)
    (hothers : es₁.map Event.view = (es.filter fun e => e.thread ≠ i).map Event.view)
    (hown : es₂.map Event.view = (es.filter fun e => e.thread = i).map Event.view) :
    (∀ j, viewsOf j es₁ ++ viewsOf j es₂ = viewsOf j es) ∧
      ∀ obs : S.Op → Bool, (∀ o o', obs o → obs o' → Conflict o o') →
        viewsWith obs es₁ ++ viewsWith obs es₂ = viewsWith obs es := by
  have hothers' : es₁.map Event.view = (es.map Event.view).filter fun v => !decide (v.1 = i) := by
    rw [hothers, List.filter_map]
    congr 2
    funext e
    exact decide_not
  have hown' : es₂.map Event.view = (es.map Event.view).filter fun v => v.1 = i := by
    rw [hown, List.filter_map]
    rfl
  refine ⟨fun j => ?_, fun obs hobs => ?_⟩
  · rw [viewsOf, viewsOf, viewsOf, hothers', hown']
    refine filter_halves (List.pairwise_of_forall_mem_list fun a _ b _ ha hb hboth => ?_)
    have hj : a.1 = b.1 := (of_decide_eq_true hboth.1).trans (of_decide_eq_true hboth.2).symm
    exact of_decide_eq_false hb (hj ▸ of_decide_eq_true ha)
  · rw [viewsWith, viewsWith, viewsWith, hothers', hown']
    refine filter_halves (List.pairwise_map.mpr (hes.imp fun {e f} hconflict he hf hboth => ?_))
    exact hconflict (of_decide_eq_true he) (of_decide_eq_false hf) (hobs _ _ hboth.1 hboth.2)

/-- **Serialization.** If in every run from `c` some call can be put off, every such run is equivalent
to a sequential one. -/
theorem Commutes.serialize (hm : Commutes m Inv Conflict) {c : Cfg S W α} (hinv : Inv c)
    (hpick : ∀ es c', m.Run c es c' → es ≠ [] →
      ∃ i, (∃ e ∈ es, e.thread = i) ∧ Deferrable Conflict i es)
    {es : List (Event S W Env α)} {c' : Cfg S W α} (h : m.Run c es c') :
    ∃ order es', Sequential m c order es' c' ∧ (∀ i ∈ order, ∃ e ∈ es, e.thread = i) ∧
      (∀ i, viewsOf i es' = viewsOf i es) ∧
      ∀ obs : S.Op → Bool, (∀ o o', obs o → obs o' → Conflict o o') →
        viewsWith obs es' = viewsWith obs es := by
  induction hn : es.length using Nat.strongRecOn generalizing es c' with
  | ind n ih =>
    by_cases hempty : es = []
    · subst hempty
      obtain rfl : c' = c := h
      exact ⟨[], [], .nil, (fun _ hi => nomatch hi), fun _ => rfl, fun _ _ => rfl⟩
    obtain ⟨i, ⟨e, he, hi⟩, hdefer⟩ := hpick es c' h hempty
    obtain ⟨es₁, es₂, hrun, hothers, hown⟩ := hm.defer h hinv hdefer
    obtain ⟨d, hrun₁, hrun₂⟩ := Machine.Run.append_iff.mp hrun
    -- The calls before it: fewer steps, none of them of call `i`.
    have hlength : es₁.length < n := by
      have hlt : (es.filter fun e => e.thread ≠ i).length < es.length :=
        List.length_filter_lt_length_iff_exists.mpr ⟨e, he, by simp [hi]⟩
      have hmap := congrArg List.length hothers
      rw [List.length_map, List.length_map] at hmap
      omega
    have hothers₁ : ∀ e ∈ es₁, e.thread ≠ i ∧ ∃ e' ∈ es, e'.thread = e.thread := by
      intro e₁ he₁
      obtain ⟨e', he', hne, hthread⟩ := exists_of_views hothers he₁
      exact ⟨hthread ▸ of_decide_eq_true hne, e', he', hthread⟩
    have hown₂ : ∀ e ∈ es₂, e.thread = i := by
      intro e₂ he₂
      obtain ⟨e', _, heq, hthread⟩ := exists_of_views hown he₂
      exact hthread ▸ of_decide_eq_true heq
    obtain ⟨order, es', hsequential, horder, hviews, hobserved⟩ := ih _ hlength hrun₁ rfl
    have hfresh : i ∉ order := fun hmem => by
      obtain ⟨e₁, he₁, hthread⟩ := horder i hmem
      exact (hothers₁ e₁ he₁).1 hthread
    obtain ⟨hthreads, hobs⟩ := views_defer hdefer hothers hown
    refine ⟨order ++ [i], es' ++ es₂, .snoc hsequential hfresh hrun₂ hown₂, ?_, ?_, ?_⟩
    · intro j hj
      rcases List.mem_append.mp hj with hj | hj
      · obtain ⟨e₁, he₁, rfl⟩ := horder j hj
        exact (hothers₁ e₁ he₁).2
      · exact ⟨e, he, hi.trans (List.mem_singleton.mp hj).symm⟩
    · intro j
      rw [← hthreads j, ← hviews j, viewsOf, List.map_append, List.filter_append]
      rfl
    · intro obs hself
      rw [← hobs obs hself, ← hobserved obs hself, viewsWith, List.map_append, List.filter_append]
      rfl

end Serialize

end Interaction
