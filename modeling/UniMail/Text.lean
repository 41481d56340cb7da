import Mathlib.Data.List.DropRight

/-!
# The `str` functions of the source

`trim`, `split`, `split_once` and `strip_prefix` as Rust defines them, over the characters of a
string. The lemmas say how trimming an entry first changes neither side of its first separator.
-/

namespace UniMail

namespace Text

/-- The Unicode property `White_Space`, `char::is_whitespace`. -/
def isWhitespace (c : Char) : Bool :=
  (9 ≤ c.val && c.val ≤ 13) || c.val = 0x20 || c.val = 0x85 || c.val = 0xA0 || c.val = 0x1680 ||
    (0x2000 ≤ c.val && c.val ≤ 0x200A) || c.val = 0x2028 || c.val = 0x2029 || c.val = 0x202F ||
    c.val = 0x205F || c.val = 0x3000

/-- Drop the white space at both ends. -/
def trimChars (l : List Char) : List Char := (l.dropWhile isWhitespace).rdropWhile isWhitespace

/-- `str::trim`. -/
def trim (s : String) : String := String.ofList (trimChars s.toList)

/-- `str::split` at a character. -/
def split (sep : Char) (s : String) : List String := (s.toList.splitOn sep).map String.ofList

/-- What stands before the first `sep`: everything where there is none. -/
def before {α : Type} [DecidableEq α] (sep : α) (l : List α) : List α := l.takeWhile (· ≠ sep)

/-- What stands after the first `sep`: nothing where there is none. -/
def after {α : Type} [DecidableEq α] (sep : α) (l : List α) : List α := (l.dropWhile (· ≠ sep)).tail

/-- `str::split_once` at a character. -/
def splitOnce (sep : Char) (s : String) : Option (String × String) :=
  if sep ∈ s.toList then
    some (String.ofList (before sep s.toList), String.ofList (after sep s.toList))
  else none

/-- `str::strip_prefix`. -/
def stripPrefix (pre s : String) : Option String :=
  if pre.toList <+: s.toList then some (String.ofList (s.toList.drop pre.length)) else none

/-! ### Trimming -/

theorem rdropWhile_append_of_pos {p : Char → Bool} {l v : List Char} (hv : ∀ c ∈ v, p c) :
    (l ++ v).rdropWhile p = l.rdropWhile p := by
  rw [List.rdropWhile, List.rdropWhile, List.reverse_append,
    List.dropWhile_append_of_pos (by simpa using hv)]

/-- White space around a text does not count. -/
theorem trimChars_append {u l v : List Char} (hu : ∀ c ∈ u, isWhitespace c)
    (hv : ∀ c ∈ v, isWhitespace c) : trimChars (u ++ l ++ v) = trimChars l := by
  unfold trimChars
  rw [List.append_assoc, List.dropWhile_append_of_pos hu, List.dropWhile_append]
  split
  · rename_i h
    rw [List.isEmpty_iff] at h
    rw [List.dropWhile_eq_nil_iff.mpr hv, h]
  · exact rdropWhile_append_of_pos hv

/-- A text is its trimmed core between two runs of white space. -/
theorem exists_trimChars (l : List Char) :
    ∃ u v, l = u ++ trimChars l ++ v ∧ (∀ c ∈ u, isWhitespace c) ∧ ∀ c ∈ v, isWhitespace c := by
  refine ⟨l.takeWhile isWhitespace, (l.dropWhile isWhitespace).rtakeWhile isWhitespace, ?_,
    fun c => List.mem_takeWhile_imp, fun c => List.mem_rtakeWhile_imp⟩
  rw [List.append_assoc, trimChars, List.rdropWhile_append_rtakeWhile,
    List.takeWhile_append_dropWhile]

theorem trimChars_trimChars (l : List Char) : trimChars (trimChars l) = trimChars l := by
  obtain ⟨u, v, hl, hu, hv⟩ := exists_trimChars l
  conv_rhs => rw [hl, trimChars_append hu hv]

@[simp] theorem trimChars_eq_nil {l : List Char} : trimChars l = [] ↔ ∀ c ∈ l, isWhitespace c := by
  constructor
  · intro h
    obtain ⟨u, v, hl, hu, hv⟩ := exists_trimChars l
    rw [hl, h, List.append_nil]
    simpa [or_imp, forall_and] using ⟨hu, hv⟩
  · intro h
    rw [trimChars, List.dropWhile_eq_nil_iff.mpr h, List.rdropWhile_nil]

section Separator

variable {α : Type} [DecidableEq α]

/-- A text without the separator passes the test on each of its characters. -/
theorem ne_of_not_mem {sep : α} {l : List α} (h : sep ∉ l) : ∀ c ∈ l, decide (c ≠ sep) := by
  intro c hc
  simp only [decide_eq_true_eq]
  rintro rfl
  exact h hc

theorem before_eq_self {sep : α} {l : List α} (h : sep ∉ l) : before sep l = l :=
  List.takeWhile_eq_self_iff.mpr (ne_of_not_mem h)

theorem after_eq_nil {sep : α} {l : List α} (h : sep ∉ l) : after sep l = [] := by
  rw [after, List.dropWhile_eq_nil_iff.mpr (ne_of_not_mem h), List.tail_nil]

omit [DecidableEq α] in
theorem notMem_flatMap {β : Type} {f : α → List β} {sep : α} {sep' : β}
    (hother : ∀ c, c ≠ sep → sep' ∉ f c) {l : List α} (h : sep ∉ l) : sep' ∉ l.flatMap f := by
  rw [List.mem_flatMap]
  rintro ⟨c, hc, hmem⟩
  exact hother c (fun heq => h (heq ▸ hc)) hmem

section Encoded

variable {β : Type} [DecidableEq β] {f : α → List β} {sep : α} {sep' : β} (hsep : f sep = [sep'])
  (hother : ∀ c, c ≠ sep → sep' ∉ f c)
include hsep hother

/-- Where only the separator is encoded by the separator, cutting and encoding commute. -/
theorem before_flatMap (l : List α) : before sep' (l.flatMap f) = (before sep l).flatMap f := by
  by_cases hmem : sep ∈ l
  · obtain ⟨u, v, rfl, hu⟩ := List.eq_append_cons_of_mem hmem
    rw [List.flatMap_append, List.flatMap_cons, hsep, before, before,
      List.takeWhile_append_of_pos (ne_of_not_mem hu),
      List.takeWhile_append_of_pos (ne_of_not_mem (notMem_flatMap hother hu))]
    simp
  · rw [before_eq_self hmem, before_eq_self (notMem_flatMap hother hmem)]

theorem after_flatMap (l : List α) : after sep' (l.flatMap f) = (after sep l).flatMap f := by
  by_cases hmem : sep ∈ l
  · obtain ⟨u, v, rfl, hu⟩ := List.eq_append_cons_of_mem hmem
    rw [List.flatMap_append, List.flatMap_cons, hsep, after, after,
      List.dropWhile_append_of_pos (ne_of_not_mem hu),
      List.dropWhile_append_of_pos (ne_of_not_mem (notMem_flatMap hother hu))]
    simp
  · rw [after_eq_nil hmem, after_eq_nil (notMem_flatMap hother hmem), List.flatMap_nil]

theorem splitOn_encoded (l : List α) :
    (l.flatMap f).splitOn sep' = (l.splitOn sep).map fun part => part.flatMap f := by
  induction hn : l.length using Nat.strong_induction_on generalizing l with | _ n ih
  subst hn
  by_cases hmem : sep ∈ l
  · obtain ⟨u, v, rfl, hu⟩ := List.eq_append_cons_of_mem hmem
    rw [List.flatMap_append, List.flatMap_cons, hsep, List.singleton_append,
      List.splitOn_append_cons_self_of_not_mem (notMem_flatMap hother hu),
      List.splitOn_append_cons_self_of_not_mem hu, List.map_cons,
      ih v.length (by simp only [List.length_append, List.length_cons]; omega) v rfl]
  · rw [List.splitOn_eq_singleton hmem, List.splitOn_eq_singleton (notMem_flatMap hother hmem),
      List.map_singleton]

end Encoded

variable {sep : Char}

theorem before_append {u t v : List Char} (hu : sep ∉ u) (ht : sep ∈ t) :
    before sep (u ++ t ++ v) = u ++ before sep t := by
  rw [before, List.append_assoc, List.takeWhile_append_of_pos (ne_of_not_mem hu),
    List.takeWhile_append, if_neg]
  · rfl
  · intro hlen
    have hself : before sep t = t := (List.takeWhile_sublist _).eq_of_length hlen
    have hmem : sep ∈ before sep t := by rwa [hself]
    simpa using List.mem_takeWhile_imp hmem

theorem after_append {u t v : List Char} (hu : sep ∉ u) (ht : sep ∈ t) :
    after sep (u ++ t ++ v) = after sep t ++ v := by
  rw [after, List.append_assoc, List.dropWhile_append_of_pos (ne_of_not_mem hu),
    List.dropWhile_append, if_neg]
  · have hne : t.dropWhile (· ≠ sep) ≠ [] := by
      rw [Ne, List.dropWhile_eq_nil_iff]
      exact fun h => by simpa using h sep ht
    rw [List.tail_append_of_ne_nil hne, after]
  · rw [List.isEmpty_iff, List.dropWhile_eq_nil_iff]
    exact fun h => by simpa using h sep ht

variable (hsep : isWhitespace sep = false)
include hsep

/-- Trimming an entry first does not change what stands before its first separator. -/
theorem trimChars_before (l : List Char) :
    trimChars (before sep (trimChars l)) = trimChars (before sep l) := by
  obtain ⟨u, v, hl, hu, hv⟩ := exists_trimChars l
  have hnu : sep ∉ u := fun h => by simp [hu sep h] at hsep
  have hnv : sep ∉ v := fun h => by simp [hv sep h] at hsep
  by_cases ht : sep ∈ trimChars l
  · conv_rhs => rw [hl, before_append hnu ht]
    simpa using (trimChars_append (v := []) hu (by simp)).symm
  · have hnl : sep ∉ l := by
      rw [hl]
      simp [hnu, hnv, ht]
    rw [before_eq_self ht, before_eq_self hnl, trimChars_trimChars]

/-- Nor what stands after it. -/
theorem trimChars_after (l : List Char) :
    trimChars (after sep (trimChars l)) = trimChars (after sep l) := by
  obtain ⟨u, v, hl, hu, hv⟩ := exists_trimChars l
  have hnu : sep ∉ u := fun h => by simp [hu sep h] at hsep
  have hnv : sep ∉ v := fun h => by simp [hv sep h] at hsep
  by_cases ht : sep ∈ trimChars l
  · conv_rhs => rw [hl, after_append hnu ht]
    simpa using (trimChars_append (u := []) (by simp) hv).symm
  · have hnl : sep ∉ l := by
      rw [hl]
      simp [hnu, hnv, ht]
    rw [after_eq_nil ht, after_eq_nil hnl]

end Separator

/-! ### On strings -/

theorem trim_eq_empty {s : String} : trim s = "" ↔ ∀ c ∈ s.toList, isWhitespace c := by
  rw [← trimChars_eq_nil, trim, ← String.ofList_nil, String.ofList_inj]

theorem trim_eq_self {s : String} (hs : ∀ c ∈ s.toList, isWhitespace c = false) : trim s = s := by
  have hdrop : s.toList.dropWhile isWhitespace = s.toList := by
    apply List.dropWhile_eq_self_iff.mpr
    intro hpos
    simp [hs _ (List.getElem_mem hpos)]
  have hrdrop : s.toList.rdropWhile isWhitespace = s.toList := by
    apply List.rdropWhile_eq_self_iff.mpr
    intro hne
    simp [hs _ (List.getLast_mem hne)]
  rw [trim, trimChars, hdrop, hrdrop, String.ofList_toList]

theorem stripPrefix_eq_some {pre s t : String} : stripPrefix pre s = some t ↔ s = pre ++ t := by
  unfold stripPrefix
  constructor
  · intro h
    split at h
    · rename_i hpre
      obtain ⟨rest, hrest⟩ := hpre
      have ht : t.toList = rest := by
        rw [← Option.some.inj h, String.toList_ofList, ← hrest, ← String.length_toList,
          List.drop_left]
      rw [← String.toList_inj, String.toList_append, ht, hrest]
    · simp at h
  · rintro rfl
    rw [if_pos (by simp), String.toList_append, ← String.length_toList, List.drop_left,
      String.ofList_toList]

end Text

end UniMail
