import Mathlib.Data.List.Nodup

/-!
# Tables with a primary key

A table is a list of rows, in insertion order, no two with the same key; the uniqueness is part of
the type. `find` selects the row of a key. `insert`, `upsert`, `update` and `filter` are the SQL
statements `INSERT`, `INSERT … ON CONFLICT DO UPDATE`, `UPDATE` and `DELETE`, each with the lemma
that says what `find` sees after it.
-/

namespace Relational

/-- Rows of type `ρ`, no two with the same `key`. -/
structure Table (κ ρ : Type) (key : ρ → κ) where
  rows : List ρ
  nodup : (rows.map key).Nodup

namespace Table

variable {κ ρ : Type} {key : ρ → κ}

theorem ext {t t' : Table κ ρ key} (h : t.rows = t'.rows) : t = t' := by
  cases t
  cases t'
  cases h
  rfl

/-- The table without rows. -/
def empty : Table κ ρ key := ⟨[], List.nodup_nil⟩

/-- Keep the rows that satisfy `p`: `DELETE … WHERE NOT p`. -/
def filter (t : Table κ ρ key) (p : ρ → Bool) : Table κ ρ key :=
  ⟨t.rows.filter p, (List.filter_sublist.map key).nodup t.nodup⟩

/-- Rewrite every row by a function that keeps its key: `UPDATE`. -/
def update (t : Table κ ρ key) (f : ρ → ρ) (hf : ∀ r, key (f r) = key r) : Table κ ρ key :=
  ⟨t.rows.map f, by simpa [Function.comp_def, hf] using t.nodup⟩

theorem eq_of_key_eq (t : Table κ ρ key) {r r' : ρ} (hr : r ∈ t.rows) (hr' : r' ∈ t.rows)
    (h : key r = key r') : r = r' :=
  List.inj_on_of_nodup_map t.nodup hr hr' h

variable [DecidableEq κ]

/-- The row with key `k`. -/
def find (t : Table κ ρ key) (k : κ) : Option ρ := t.rows.find? fun r => key r = k

theorem find_eq_none {t : Table κ ρ key} {k : κ} : t.find k = none ↔ ∀ r ∈ t.rows, key r ≠ k := by
  simp [find]

theorem find_eq_some {t : Table κ ρ key} {k : κ} {r : ρ} :
    t.find k = some r ↔ r ∈ t.rows ∧ key r = k := by
  constructor
  · intro h
    exact ⟨List.mem_of_find?_eq_some h, by simpa using List.find?_some h⟩
  · rintro ⟨hr, rfl⟩
    cases h : t.find (key r) with
    | none => exact absurd rfl (find_eq_none.mp h r hr)
    | some r' =>
      have hr' := List.mem_of_find?_eq_some h
      have hk : key r' = key r := by simpa using List.find?_some h
      rw [t.eq_of_key_eq hr' hr hk]

theorem find_key {t : Table κ ρ key} {r : ρ} (hr : r ∈ t.rows) : t.find (key r) = some r :=
  find_eq_some.mpr ⟨hr, rfl⟩

@[simp] theorem find_empty (k : κ) : (empty : Table κ ρ key).find k = none := rfl

/-- Add a row whose key is free: `INSERT`. -/
def insert (t : Table κ ρ key) (r : ρ) (h : t.find (key r) = none) : Table κ ρ key :=
  ⟨t.rows ++ [r], by
    rw [List.map_append, List.nodup_append']
    refine ⟨t.nodup, List.nodup_singleton _, ?_⟩
    simpa [List.disjoint_singleton, eq_comm] using find_eq_none.mp h⟩

/-- Add the row, or put it in the place of the row with its key. -/
def upsert (t : Table κ ρ key) (r : ρ) : Table κ ρ key :=
  if h : t.find (key r) = none then t.insert r h
  else t.update (fun x => if key x = key r then r else x) (by grind)

theorem find_insert (t : Table κ ρ key) (r : ρ) (h : t.find (key r) = none) (k : κ) :
    (t.insert r h).find k = if key r = k then some r else t.find k := by
  by_cases hk : key r = k
  · rw [if_pos hk]
    exact find_eq_some.mpr ⟨by simp [insert], hk⟩
  · simp [insert, find, hk]

theorem find_update (t : Table κ ρ key) (f : ρ → ρ) (hf : ∀ r, key (f r) = key r) (k : κ) :
    (t.update f hf).find k = (t.find k).map f := by
  have hkeys : (fun r => decide (key r = k)) ∘ f = fun r => decide (key r = k) := by
    funext r
    simp [hf]
  rw [find, update, List.find?_map, hkeys]
  rfl

theorem find_upsert (t : Table κ ρ key) (r : ρ) (k : κ) :
    (t.upsert r).find k = if key r = k then some r else t.find k := by
  unfold upsert
  split
  · rename_i h
    exact find_insert t r h k
  · rename_i h
    rw [find_update]
    obtain ⟨x, hx⟩ := Option.ne_none_iff_exists'.mp h
    by_cases hk : key r = k
    · subst hk
      simp [hx, (find_eq_some.mp hx).2]
    · rw [if_neg hk]
      cases hf : t.find k with
      | none => rfl
      | some y => simp [(find_eq_some.mp hf).2, Ne.symm hk]

theorem find_filter (t : Table κ ρ key) (p : ρ → Bool) (k : κ) :
    (t.filter p).find k = (t.find k).filter p := by
  cases h : t.find k with
  | none =>
    rw [find_eq_none] at h
    exact find_eq_none.mpr fun r hr => h r (List.mem_filter.mp hr).1
  | some r =>
    obtain ⟨hr, hk⟩ := find_eq_some.mp h
    by_cases hp : p r
    · simp only [Option.filter_some, hp, if_true]
      exact find_eq_some.mpr ⟨List.mem_filter.mpr ⟨hr, hp⟩, hk⟩
    · simp only [Option.filter_some, hp, if_false, Bool.false_eq_true]
      refine find_eq_none.mpr fun r' hr' hk' => hp ?_
      obtain ⟨hmem, hp'⟩ := List.mem_filter.mp hr'
      rwa [← t.eq_of_key_eq hmem hr (hk'.trans hk.symm)]

@[simp] theorem rows_insert (t : Table κ ρ key) (r : ρ) (h : t.find (key r) = none) :
    (t.insert r h).rows = t.rows ++ [r] := rfl

omit [DecidableEq κ] in
@[simp] theorem rows_update (t : Table κ ρ key) (f : ρ → ρ) (hf : ∀ r, key (f r) = key r) :
    (t.update f hf).rows = t.rows.map f := rfl

omit [DecidableEq κ] in
@[simp] theorem rows_filter (t : Table κ ρ key) (p : ρ → Bool) :
    (t.filter p).rows = t.rows.filter p := rfl

theorem mem_upsert {t : Table κ ρ key} {r x : ρ} :
    x ∈ (t.upsert r).rows ↔ x = r ∨ (x ∈ t.rows ∧ key x ≠ key r) := by
  have hx := find_eq_some (t := t.upsert r) (k := key x) (r := x)
  rw [find_upsert] at hx
  by_cases hk : key r = key x
  · simp only [hk, if_true, Option.some.injEq, and_true] at hx
    rw [← hx]
    grind
  · rw [if_neg hk, find_eq_some] at hx
    grind

theorem rows_upsert (t : Table κ ρ key) (r : ρ) :
    (t.upsert r).rows = if (t.find (key r)).isSome then t.rows.map fun x => if key x = key r then r else x
      else t.rows ++ [r] := by
  unfold upsert
  by_cases h : t.find (key r) = none
  · rw [dif_pos h, if_neg (by simp [h])]
    rfl
  · rw [dif_neg h, if_pos (Option.isSome_iff_ne_none.mpr h)]
    rfl

/-! ### Tables with the same rows -/

/-- The rows are those that `find` selects for the keys, in their order. -/
theorem rows_eq (t : Table κ ρ key) : t.rows = (t.rows.map key).filterMap t.find := by
  have hfind : ∀ r ∈ t.rows, (t.find ∘ key) r = some r := fun r hr => find_key hr
  rw [List.filterMap_map, List.filterMap_congr hfind, List.filterMap_some]

/-- A table is determined by its keys and what `find` selects. -/
theorem ext_find {t t' : Table κ ρ key} (hkeys : t.rows.map key = t'.rows.map key)
    (hfind : ∀ k, t.find k = t'.find k) : t = t' := by
  apply ext
  rw [t.rows_eq, t'.rows_eq, hkeys, funext hfind]

omit [DecidableEq κ] in
theorem keys_update (t : Table κ ρ key) (f : ρ → ρ) (hf : ∀ r, key (f r) = key r) :
    (t.update f hf).rows.map key = t.rows.map key := by
  simp [Function.comp_def, hf]

/-- A row put in the place of another keeps the keys. -/
theorem keys_upsert {t : Table κ ρ key} {r : ρ} (h : t.find (key r) ≠ none) :
    (t.upsert r).rows.map key = t.rows.map key := by
  rw [upsert, dif_neg h, keys_update]

end Table

end Relational
