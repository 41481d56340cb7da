import Mathlib.Data.List.Sort

/-!
# The first elements of a merge

The first `k` elements of the stable sort of some sorted lists put together need only the first `k`
of each (`take_mergeSort_flatten`). The stable sort of a concatenation is the merge of the two stable
sorts (`mergeSort_append`), and a merge looks at no more of its lists than it has yielded
(`take_merge`).
-/

namespace TopK

open List

variable {α : Type} {le : α → α → Bool}

/-- The comparison puts any two elements in order, and ties are a class. -/
structure Preorders (le : α → α → Bool) : Prop where
  total : ∀ a b, le a b || le b a
  trans : ∀ a b c, le a b → le b c → le a c

/-- Insert before the first element that is not smaller. -/
def insert (le : α → α → Bool) (a : α) (l : List α) : List α := l.orderedInsert (fun a b => le a b) a

@[simp] theorem insert_nil (a : α) : insert le a [] = [a] := rfl

theorem insert_cons_of_le {a b : α} (h : le a b) (l : List α) : insert le a (b :: l) = a :: b :: l :=
  orderedInsert_cons_of_le _ l h

theorem insert_cons_of_not_le {a b : α} (h : ¬ le a b) (l : List α) :
    insert le a (b :: l) = b :: insert le a l :=
  orderedInsert_of_not_le _ l h

/-- Smaller elements stay in front. -/
theorem insert_append {a : α} {l₁ : List α} (h : ∀ b ∈ l₁, ¬ le a b) (l₂ : List α) :
    insert le a (l₁ ++ l₂) = l₁ ++ insert le a l₂ := by
  induction l₁ with
  | nil => rfl
  | cons b l₁ ih =>
    rw [cons_append, insert_cons_of_not_le (h b mem_cons_self), cons_append]
    exact congrArg (b :: ·) (ih fun c hc => h c (mem_cons_of_mem b hc))

namespace Preorders

variable (hle : Preorders le)
include hle

theorem of_not {a b : α} (h : ¬ le a b) : le b a := by
  have := hle.total a b
  simpa [h] using this

theorem mergeSort_cons (a : α) (l : List α) : mergeSort (a :: l) le = insert le a (mergeSort l le) := by
  obtain ⟨l₁, l₂, hcons, hl, hlt⟩ := List.mergeSort_cons hle.trans hle.total a l
  have hsorted := pairwise_mergeSort hle.trans hle.total (a :: l)
  rw [hcons, pairwise_append] at hsorted
  have htail : insert le a l₂ = a :: l₂ := by
    cases l₂ with
    | nil => rfl
    | cons b l₂ => exact insert_cons_of_le ((pairwise_cons.mp hsorted.2.1).1 b mem_cons_self) l₂
  rw [hcons, hl, insert_append (fun b hb => by simpa using hlt b hb), htail]

/-- The sort element by element, from the last one on. -/
theorem mergeSort_eq_foldr (l : List α) : mergeSort l le = l.foldr (insert le) [] := by
  induction l with
  | nil => rw [mergeSort_nil, foldr_nil]
  | cons a l ih => rw [hle.mergeSort_cons, ih, foldr_cons]

/-- An element inserted on the left of a merge comes before its equals on the right. -/
theorem merge_insert (x : α) (xs ys : List α) :
    merge (insert le x xs) ys le = insert le x (merge xs ys le) := by
  induction xs generalizing ys with
  | nil =>
    induction ys with
    | nil => rw [merge_right, merge_right]
    | cons b ys ih =>
      rw [nil_merge] at ih ⊢
      by_cases hxb : le x b
      · rw [insert_nil, cons_merge_cons_pos _ _ _ hxb, insert_cons_of_le hxb, nil_merge]
      · rw [insert_nil, cons_merge_cons_neg _ _ _ hxb, insert_cons_of_not_le hxb]
        exact congrArg (b :: ·) ih
  | cons a xs ihx =>
    induction ys with
    | nil => rw [merge_right, merge_right]
    | cons b ys ihy =>
      by_cases hxa : le x a
      · rw [insert_cons_of_le hxa] at ihy ⊢
        by_cases hxb : le x b
        · -- The new element comes first; the head of the old merge is `a` or `b`.
          rw [cons_merge_cons_pos _ _ _ hxb, cons_merge_cons]
          split
          · rw [insert_cons_of_le hxa]
          · rw [insert_cons_of_le hxb]
        · have hab : ¬ le a b := fun hab => hxb (hle.trans x a b hxa hab)
          rw [cons_merge_cons_neg _ _ _ hxb, cons_merge_cons_neg _ _ _ hab,
            insert_cons_of_not_le hxb]
          exact congrArg (b :: ·) ihy
      · rw [insert_cons_of_not_le hxa] at ihy ⊢
        by_cases hab : le a b
        · rw [cons_merge_cons_pos _ _ _ hab, cons_merge_cons_pos _ _ _ hab,
            insert_cons_of_not_le hxa]
          exact congrArg (a :: ·) (ihx (b :: ys))
        · have hxb : ¬ le x b := fun hxb => hxa (hle.trans x b a hxb (hle.of_not hab))
          rw [cons_merge_cons_neg _ _ _ hab, cons_merge_cons_neg _ _ _ hab,
            insert_cons_of_not_le hxb]
          exact congrArg (b :: ·) ihy

/-- **Sorting a concatenation** is merging the sorted parts. -/
theorem mergeSort_append (xs ys : List α) :
    mergeSort (xs ++ ys) le = merge (mergeSort xs le) (mergeSort ys le) le := by
  induction xs with
  | nil => rw [nil_append, mergeSort_nil, nil_merge]
  | cons x xs ih => rw [cons_append, hle.mergeSort_cons, ih, hle.mergeSort_cons, hle.merge_insert]

end Preorders

/-! ### The first elements -/

theorem take_cons_take (k : ℕ) (a : α) (l : List α) : (a :: l.take k).take k = (a :: l).take k := by
  cases k with
  | zero => rfl
  | succ k => rw [take_succ_cons, take_succ_cons, take_take, Nat.min_eq_left (Nat.le_succ k)]

/-- The first `k` elements of a merge come from the first `k` of each list. -/
theorem take_merge (k : ℕ) (xs ys : List α) :
    (merge xs ys le).take k = (merge (xs.take k) (ys.take k) le).take k := by
  induction k generalizing xs ys with
  | zero => rfl
  | succ k ih =>
    match xs, ys with
    | [], ys => rw [take_nil, nil_merge, nil_merge, take_take, Nat.min_self]
    | x :: xs, [] => rw [take_nil, merge_right, merge_right, take_take, Nat.min_self]
    | x :: xs, y :: ys =>
      rw [take_succ_cons, take_succ_cons, cons_merge_cons, cons_merge_cons]
      split
      · refine congrArg (x :: ·) ((ih xs (y :: ys)).trans ?_)
        rw [ih (xs.take k) (y :: ys.take k), take_cons_take, take_take, Nat.min_self]
      · refine congrArg (y :: ·) ((ih (x :: xs) ys).trans ?_)
        rw [ih (x :: xs.take k) (ys.take k), take_cons_take, take_take, Nat.min_self]

theorem take_merge_congr {k : ℕ} {xs xs' ys ys' : List α} (hx : xs.take k = xs'.take k)
    (hy : ys.take k = ys'.take k) : (merge xs ys le).take k = (merge xs' ys' le).take k := by
  rw [take_merge, hx, hy, ← take_merge]

/-- **The first `k`** of sorted lists put together and sorted are those of their first `k`. -/
theorem Preorders.take_mergeSort_flatten (hle : Preorders le) (k : ℕ) {ls : List (List α)}
    (hsorted : ∀ l ∈ ls, l.Pairwise fun a b => le a b) :
    ((ls.map (take k)).flatten.mergeSort le).take k = (ls.flatten.mergeSort le).take k := by
  induction ls with
  | nil => rfl
  | cons l ls ih =>
    have hl : l.Pairwise fun a b => le a b := hsorted l mem_cons_self
    have hrest := ih fun l hl => hsorted l (mem_cons_of_mem _ hl)
    rw [map_cons, flatten_cons, flatten_cons, hle.mergeSort_append, hle.mergeSort_append,
      mergeSort_of_pairwise hl, mergeSort_of_pairwise (hl.sublist (take_sublist k l))]
    refine take_merge_congr ?_ hrest
    rw [take_take, Nat.min_self]

end TopK
