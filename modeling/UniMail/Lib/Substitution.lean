import Mathlib.Data.List.Infix

/-!
# Escaping by replacement

A table gives each special letter a text (`Table`). `replaceAll` replaces the letters one after the
other over the whole word, `escape` replaces each letter of the word once, and `unescape` reads the
texts back from left to right.

The replacements agree with the single pass if no text contains a letter that is replaced later
(`replaceAll_eq_escape`). If moreover every text begins with a special letter and none begins another,
nothing is lost (`unescape_escape`).
-/

namespace Substitution

variable {α : Type} [DecidableEq α]

/-- Each letter with the text that stands for it. -/
abbrev Table (α : Type) := List (α × List α)

/-- Replace a letter by a text wherever it occurs. -/
def replace (a : α) (text l : List α) : List α := l.flatMap fun x => if x = a then text else [x]

/-- Replace one letter after the other. -/
def replaceAll (table : Table α) (l : List α) : List α :=
  table.foldl (fun l s => replace s.1 s.2 l) l

/-- What stands for a letter. -/
def escapeLetter (table : Table α) (x : α) : List α := (table.lookup x).getD [x]

/-- Replace each letter once. -/
def escape (table : Table α) (l : List α) : List α := l.flatMap (escapeLetter table)

/-- Read a word from left to right: where a text of the table begins, its letter. -/
def unescape (table : Table α) : List α → List α
  | [] => []
  | x :: l => match table.find? fun s => s.2.isPrefixOf (x :: l) with
    | some s => s.1 :: unescape table (l.drop (s.2.length - 1))
    | none => x :: unescape table l
termination_by l => l.length

variable {table : Table α}

theorem escapeLetter_of_notMem {x : α} (h : ∀ s ∈ table, s.1 ≠ x) : escapeLetter table x = [x] := by
  have hnone : table.lookup x = none := by
    rw [List.lookup_eq_none_iff]
    intro s hs
    simpa using Ne.symm (h s hs)
  rw [escapeLetter, hnone]
  rfl

/-- A letter of the table is escaped by its text, if it is there once. -/
theorem escapeLetter_of_mem (hdistinct : (table.map Prod.fst).Nodup) {s : α × List α}
    (hs : s ∈ table) : escapeLetter table s.1 = s.2 := by
  induction table with
  | nil => cases hs
  | cons t table ih =>
    rw [List.map_cons, List.nodup_cons] at hdistinct
    unfold escapeLetter
    rcases List.mem_cons.mp hs with rfl | hs
    · rw [List.lookup_cons_self]
      rfl
    · have hne : (s.1 == t.1) = false := by
        rw [beq_eq_false_iff_ne]
        rintro heq
        exact hdistinct.1 (heq ▸ List.mem_map_of_mem hs)
      rw [List.lookup_cons, hne]
      exact ih hdistinct.2 hs

/-! ### One pass after the other -/

/-- No letter that is replaced later occurs in a text, or is replaced twice. -/
def Staged (table : Table α) : Prop := table.Pairwise fun s t => t.1 ∉ s.2 ∧ t.1 ≠ s.1

omit [DecidableEq α] in
theorem Staged.distinct (h : Staged table) : (table.map Prod.fst).Nodup := by
  rw [List.nodup_iff_pairwise_ne, List.pairwise_map]
  exact h.imp fun hst => hst.2.symm

theorem escape_of_notMem {l : List α} (h : ∀ s ∈ table, s.1 ∉ l) : escape table l = l := by
  induction l with
  | nil => rfl
  | cons x l ih =>
    have hx : escapeLetter table x = [x] :=
      escapeLetter_of_notMem fun s hs heq => h s hs (heq ▸ List.mem_cons_self)
    show escapeLetter table x ++ escape table l = _
    rw [hx, ih fun s hs hmem => h s hs (List.mem_cons_of_mem _ hmem), List.singleton_append]

/-- **The passes come to the same as a single one.** -/
theorem replaceAll_eq_escape (h : Staged table) (l : List α) : replaceAll table l = escape table l := by
  induction table generalizing l with
  | nil => exact (escape_of_notMem (by simp)).symm
  | cons s table ih =>
    obtain ⟨hs, htable⟩ := List.pairwise_cons.mp h
    show replaceAll table (replace s.1 s.2 l) = _
    rw [ih htable, escape, replace, List.flatMap_assoc]
    apply List.flatMap_congr
    intro x _
    by_cases hx : x = s.1
    · -- The text is left alone by the later passes.
      subst hx
      rw [if_pos rfl, escapeLetter, List.lookup_cons_self]
      exact escape_of_notMem fun t ht => (hs t ht).1
    · have hne : (x == s.1) = false := by simpa using hx
      rw [if_neg hx, List.flatMap_cons, List.flatMap_nil, List.append_nil, escapeLetter, escapeLetter,
        List.lookup_cons, hne]

/-! ### Reading back -/

/-- The texts can be told apart from what else is written: each begins with a letter that is replaced
itself, and none begins another. -/
structure Code (table : Table α) : Prop where
  staged : Staged table
  marked : ∀ s ∈ table, ∃ t ∈ table, s.2.head? = some t.1
  separate : ∀ s ∈ table, ∀ t ∈ table, s.2 <+: t.2 → s = t

namespace Code

variable (h : Code table)
include h

/-- Where a text begins, no other does. -/
theorem find_text {s : α × List α} (hs : s ∈ table) (l : List α) :
    (table.find? fun t => t.2.isPrefixOf (s.2 ++ l)) = some s := by
  cases hfind : table.find? fun t => t.2.isPrefixOf (s.2 ++ l) with
  | none =>
    have hnot := List.find?_eq_none.mp hfind s hs
    simp at hnot
  | some t =>
    have ht := List.mem_of_find?_eq_some hfind
    have hbegins := List.find?_some hfind
    have hpre : t.2 <+: s.2 ++ l := List.isPrefixOf_iff_prefix.mp hbegins
    rcases List.prefix_or_prefix_of_prefix hpre (List.prefix_append s.2 l) with hts | hst
    · exact congrArg some (h.separate t ht s hs hts)
    · exact congrArg some (h.separate s hs t ht hst).symm

theorem unescape_text {s : α × List α} (hs : s ∈ table) (l : List α) :
    unescape table (s.2 ++ l) = s.1 :: unescape table l := by
  obtain ⟨t, _, hhead⟩ := h.marked s hs
  obtain ⟨tail, htext⟩ := List.head?_eq_some_iff.mp hhead
  have hfind := h.find_text hs l
  have hdrop : (tail ++ l).drop (s.2.length - 1) = l := by
    rw [htext, List.length_cons, Nat.add_sub_cancel, List.drop_left]
  rw [htext, List.cons_append] at hfind ⊢
  rw [unescape, hfind]
  simp only [hdrop]

/-- No text begins with a letter that is left alone. -/
theorem unescape_letter {x : α} (hx : ∀ s ∈ table, s.1 ≠ x) (l : List α) :
    unescape table (x :: l) = x :: unescape table l := by
  have hfind : (table.find? fun s => s.2.isPrefixOf (x :: l)) = none := by
    rw [List.find?_eq_none]
    intro s hs hpre
    obtain ⟨t, ht, hhead⟩ := h.marked s hs
    obtain ⟨tail, htext⟩ := List.head?_eq_some_iff.mp hhead
    rw [List.isPrefixOf_iff_prefix, htext, List.cons_prefix_cons] at hpre
    exact hx t ht hpre.1
  rw [unescape, hfind]

/-- **Nothing is lost.** -/
theorem unescape_escape (l : List α) : unescape table (escape table l) = l := by
  induction l with
  | nil =>
    show unescape table [] = []
    rw [unescape]
  | cons x l ih =>
    show unescape table (escapeLetter table x ++ escape table l) = _
    by_cases hx : ∃ s ∈ table, s.1 = x
    · obtain ⟨s, hs, rfl⟩ := hx
      rw [escapeLetter_of_mem h.staged.distinct hs, h.unescape_text hs, ih]
    · push Not at hx
      rw [escapeLetter_of_notMem hx, List.singleton_append, h.unescape_letter hx, ih]

/-- A letter of the table that is in no text does not occur. -/
theorem notMem_escape {s : α × List α} (hs : s ∈ table) (htexts : ∀ t ∈ table, s.1 ∉ t.2)
    (l : List α) : s.1 ∉ escape table l := by
  intro hmem
  obtain ⟨x, _, hx⟩ := List.mem_flatMap.mp hmem
  by_cases hspecial : ∃ t ∈ table, t.1 = x
  · obtain ⟨t, ht, rfl⟩ := hspecial
    rw [escapeLetter_of_mem h.staged.distinct ht] at hx
    exact htexts t ht hx
  · push Not at hspecial
    rw [escapeLetter_of_notMem hspecial, List.mem_singleton] at hx
    exact hspecial s hs hx

/-- A letter of the table that only begins texts begins one wherever it occurs. -/
theorem begins_text {s : α × List α} (hs : s ∈ table) (htexts : ∀ t ∈ table, s.1 ∉ t.2.tail)
    (l : List α) {past rest : List α} (heq : escape table l = past ++ s.1 :: rest) :
    ∃ t ∈ table, t.2 <+: s.1 :: rest := by
  induction l generalizing past with
  | nil =>
    have hlen := congrArg List.length heq
    simp [escape] at hlen
  | cons x l ih =>
    change escapeLetter table x ++ escape table l = _ at heq
    rcases List.append_eq_append_iff.mp heq with ⟨past', _, hrest⟩ | ⟨text, hletter, hrest⟩
    · exact ih hrest
    · cases text with
      | nil =>
        apply ih
        rw [List.nil_append]
        exact hrest.symm
      | cons y text =>
        -- It is in what stands for `x`, so at the head of it.
        obtain ⟨rfl, rfl⟩ := List.cons.inj hrest
        by_cases hspecial : ∃ t ∈ table, t.1 = x
        · obtain ⟨t, ht, rfl⟩ := hspecial
          rw [escapeLetter_of_mem h.staged.distinct ht] at hletter
          cases past with
          | nil =>
            refine ⟨t, ht, ?_⟩
            rw [hletter]
            exact List.prefix_append (s.1 :: text) (escape table l)
          | cons z past =>
            refine absurd ?_ (htexts t ht)
            rw [hletter]
            simp
        · push Not at hspecial
          rw [escapeLetter_of_notMem hspecial] at hletter
          have hx : s.1 ∈ [x] := hletter ▸ List.mem_append_right _ List.mem_cons_self
          exact absurd (List.mem_singleton.mp hx) (hspecial s hs)

end Code

end Substitution
