import UniMail.Lib.Rfc3339
import UniMail.Storage.Accounts
import UniMail.Storage.Tokens

/-!
# Persisted timestamps

The stores keep instants as the text chrono prints and let SQLite compare the texts. What is used of
chrono is `Chrono.Prints` for the comparison, and `Chrono.Reads` where a text is parsed again: years
outside of 0000 to 9999 are printed with a sign, and such a text is rejected. `Chrono.released`
follows both. Within these years a comparison of texts is one of instants
(`timestamps_compare`).
-/

namespace UniMail

open Relational Rfc3339

/-- Nanoseconds from 0000-01-01 to the Unix epoch. -/
def EPOCH : Int := 719528 * DAY

/-- The instant is in one of the years 0000 to 9999. -/
def InYears (t : Int) : Prop := 0 ≤ t + EPOCH ∧ t + EPOCH < END

instance (t : Int) : Decidable (InYears t) := inferInstanceAs (Decidable (_ ∧ _))

/-- Nanoseconds since 0000-01-01. -/
def sinceYearZero (t : Int) : ℕ := (t + EPOCH).toNat

theorem sinceYearZero_lt {t t' : Int} (h : t < t') (ht : InYears t) (ht' : InYears t') :
    sinceYearZero t < sinceYearZero t' ∧ sinceYearZero t' < END := by
  have hlow := ht.1
  have hhigh := ht'.2
  unfold sinceYearZero
  omega

theorem sinceYearZero_sub {t : Int} (ht : InYears t) :
    sinceYearZero t < END ∧ (sinceYearZero t : Int) - EPOCH = t := by
  obtain ⟨hlow, hhigh⟩ := ht
  unfold sinceYearZero
  omega

/-- The text of an instant of these years. -/
def fourDigitYear (t : DateTime) : String := String.ofList (stamp (sinceYearZero t))

/-- `to_rfc3339` prints the years 0000 to 9999 with four digits. -/
def Chrono.Prints (chrono : Chrono) : Prop :=
  ∀ t, InYears t → chrono.toRfc3339 t = fourDigitYear t

/-- `to_rfc3339` prints the years before 0000 with a sign, so that they come before those years as
texts as well. -/
def Chrono.Signs (chrono : Chrono) : Prop :=
  ∀ t, t + EPOCH < 0 → ∃ cs, chrono.toRfc3339 t = String.ofList ('-' :: cs)

/-- `parse_from_rfc3339` reads what is printed for these years, and nothing else that is printed. -/
structure Chrono.Reads (chrono : Chrono) : Prop where
  read : ∀ t, InYears t → chrono.parseFromRfc3339 (chrono.toRfc3339 t) = some t
  reject : ∀ t, ¬ InYears t → chrono.parseFromRfc3339 (chrono.toRfc3339 t) = none

/-! ### The order of texts -/

theorem fourDigitYear_lt {t t' : DateTime} (h : t < t') (ht : InYears t) (ht' : InYears t') :
    fourDigitYear t < fourDigitYear t' := by
  obtain ⟨hlt, hend⟩ := sinceYearZero_lt h ht ht'
  have hlists := stamp_lt hlt hend
  show (fourDigitYear t).toList < (fourDigitYear t').toList
  rwa [fourDigitYear, fourDigitYear, String.toList_ofList, String.toList_ofList]

theorem fourDigitYear_lt_iff {t t' : DateTime} (ht : InYears t) (ht' : InYears t') :
    fourDigitYear t < fourDigitYear t' ↔ t < t' := by
  constructor
  · intro h
    by_contra hle
    rcases Int.lt_or_eq_of_le (Int.not_lt.mp hle) with hlt | heq
    · exact lt_asymm h (fourDigitYear_lt hlt ht' ht)
    · rw [heq] at h
      exact lt_irrefl _ h
  · intro h
    exact fourDigitYear_lt h ht ht'

section Compare

variable {chrono : Chrono} (hprints : chrono.Prints) {t t' : DateTime}
include hprints

/-- **Comparing timestamps as text is comparing them as instants.** -/
theorem toRfc3339_lt_iff (ht : InYears t) (ht' : InYears t') :
    chrono.toRfc3339 t < chrono.toRfc3339 t' ↔ t < t' := by
  rw [hprints t ht, hprints t' ht']
  exact fourDigitYear_lt_iff ht ht'

theorem toRfc3339_le_iff (ht : InYears t) (ht' : InYears t') :
    chrono.toRfc3339 t ≤ chrono.toRfc3339 t' ↔ t ≤ t' := by
  rw [← not_lt, toRfc3339_lt_iff hprints ht' ht, not_lt]

/-- With the years before 0000 as well, on one side. -/
theorem toRfc3339_lt_iff_signed (hsigns : chrono.Signs) (ht : InYears t) (ht' : t' + EPOCH < END) :
    chrono.toRfc3339 t < chrono.toRfc3339 t' ↔ t < t' := by
  by_cases hearly : t' + EPOCH < 0
  · obtain ⟨cs, hcs⟩ := hsigns t' hearly
    have hminus : String.ofList ('-' :: cs) < fourDigitYear t := by
      show (String.ofList ('-' :: cs)).toList < (fourDigitYear t).toList
      rw [fourDigitYear, String.toList_ofList, String.toList_ofList]
      exact minus_lt_stamp cs _
    rw [hprints t ht, hcs]
    constructor
    · exact fun hlt => absurd hlt (lt_asymm hminus)
    · intro hlt
      have hsum : t + EPOCH < t' + EPOCH := Int.add_lt_add_right hlt EPOCH
      exact absurd (hsum.trans hearly) (Int.not_lt.mpr ht.1)
  · exact toRfc3339_lt_iff hprints ht ⟨Int.not_lt.mp hearly, ht'⟩

end Compare

/-! ### The trip of an instant through its text -/

section Trip

variable {chrono : Chrono} (hreads : chrono.Reads)
include hreads

theorem trip_eq (t : DateTime) :
    chrono.parseFromRfc3339 (chrono.toRfc3339 t) = if InYears t then some t else none := by
  by_cases ht : InYears t
  · rw [if_pos ht, hreads.read t ht]
  · rw [if_neg ht, hreads.reject t ht]

theorem trip_bind (t : Option DateTime) :
    (t.bind fun t => chrono.parseFromRfc3339 (chrono.toRfc3339 t)) = t ↔
      ∀ x, t = some x → InYears x := by
  cases t with
  | none => simp
  | some x =>
    rw [Option.bind_some, trip_eq hreads]
    by_cases hx : InYears x <;> simp [hx]

end Trip

/-! ### Queries -/

/-- The last use of every account with a token, as the rows have it. -/
def UsedAt (chrono : Chrono) (db : Db) (used : String → Option DateTime) : Prop :=
  ∀ row ∈ db.tokens.rows, row.lastUsedAt = (used row.accountId).map chrono.toRfc3339 ∧
    ∀ t, used row.accountId = some t → InYears t

/-- The last change of every account, as the rows have it. -/
def UpdatedAt (chrono : Chrono) (db : Db) (updated : String → DateTime) : Prop :=
  ∀ row ∈ db.accounts.rows, row.updatedAt = chrono.toRfc3339 (updated row.id) ∧
    InYears (updated row.id)

section Queries

variable {chrono : Chrono} (hprints : chrono.Prints) {db : Db}

theorem nodup_listInactive (scan : Scan) (cutoff : DateTime) :
    (SqliteTokenStore.listInactive chrono scan cutoff db).Nodup :=
  (scan.perm _).nodup_iff.mpr ((List.filter_sublist.map TokenRow.accountId).nodup db.tokens.nodup)

/-- What `list_inactive` looks at is the row of the account. -/
theorem mem_listInactive_row (scan : Scan) (cutoff : DateTime) (id : String) :
    id ∈ SqliteTokenStore.listInactive chrono scan cutoff db ↔ ∃ row, db.tokens.find id = some row ∧
      ∀ s, row.lastUsedAt = some s → s < chrono.toRfc3339 cutoff := by
  rw [SqliteTokenStore.listInactive, (scan.perm _).mem_iff]
  constructor
  · intro h
    obtain ⟨row, hrow, rfl⟩ := List.mem_map.mp h
    obtain ⟨hmem, hp⟩ := List.mem_filter.mp hrow
    refine ⟨row, Table.find_key hmem, fun s hs => ?_⟩
    rw [hs] at hp
    exact of_decide_eq_true hp
  · rintro ⟨row, hrow, hlt⟩
    obtain ⟨hmem, rfl⟩ := Table.find_eq_some.mp hrow
    refine List.mem_map_of_mem (List.mem_filter.mpr ⟨hmem, ?_⟩)
    cases hs : row.lastUsedAt with
    | none => rfl
    | some s => exact decide_eq_true (hlt s hs)

/-- The idle accounts are those never used and those used before the cutoff. -/
theorem mem_listInactive {used : String → Option DateTime} (hused : UsedAt chrono db used)
    {cutoff : DateTime}
    (hcutoff : ∀ t, InYears t → (chrono.toRfc3339 t < chrono.toRfc3339 cutoff ↔ t < cutoff))
    (scan : Scan) (id : String) :
    id ∈ SqliteTokenStore.listInactive chrono scan cutoff db ↔
      (∃ row, db.tokens.find id = some row) ∧ ∀ t, used id = some t → t < cutoff := by
  have hidle : ∀ row, db.tokens.find id = some row →
      ((∀ s, row.lastUsedAt = some s → s < chrono.toRfc3339 cutoff) ↔
        ∀ t, used id = some t → t < cutoff) := by
    intro row hrow
    obtain ⟨hmem, rfl⟩ := Table.find_eq_some.mp hrow
    obtain ⟨htext, hyears⟩ := hused row hmem
    rw [htext]
    cases hu : used row.accountId with
    | none => simp
    | some t =>
      have hlt := hcutoff t (hyears t hu)
      simp only [Option.map_some, Option.some.injEq, forall_eq']
      exact hlt
  rw [mem_listInactive_row]
  constructor
  · rintro ⟨row, hrow, hlt⟩
    exact ⟨⟨row, hrow⟩, (hidle row hrow).mp hlt⟩
  · rintro ⟨⟨row, hrow⟩, hlt⟩
    exact ⟨row, hrow, (hidle row hrow).mpr hlt⟩

include hprints

/-- Accounts that a query sorts come back latest change first. -/
theorem pairwise_orderByUpdatedDesc {updated : String → DateTime}
    (hupdated : UpdatedAt chrono db updated) (p : AccountRow → Bool) :
    (orderByUpdatedDesc (queryAccounts db p)).Pairwise fun a b =>
      updated b.id ≤ updated a.id := by
  have hsorted : (orderByUpdatedDesc (queryAccounts db p)).Pairwise fun a b =>
      b.updatedAt ≤ a.updatedAt := by
    have : IsTrans Account fun a b => b.updatedAt ≤ a.updatedAt := ⟨fun _ _ _ h h' => h'.trans h⟩
    have : Std.Total fun a b : Account => b.updatedAt ≤ a.updatedAt := ⟨fun a b => le_total _ _⟩
    exact List.pairwise_insertionSort _ _
  have hmem : ∀ a ∈ orderByUpdatedDesc (queryAccounts db p),
      a.updatedAt = chrono.toRfc3339 (updated a.id) ∧ InYears (updated a.id) := by
    intro a ha
    rw [orderByUpdatedDesc, List.mem_insertionSort, queryAccounts] at ha
    obtain ⟨row, hrow, rfl⟩ := List.mem_map.mp ha
    exact hupdated row (List.mem_filter.mp hrow).1
  apply hsorted.imp_of_mem
  intro a b ha hb hle
  obtain ⟨hta, hya⟩ := hmem a ha
  obtain ⟨htb, hyb⟩ := hmem b hb
  rw [hta, htb] at hle
  exact (toRfc3339_le_iff hprints hyb hya).mp hle

/-- **The queries that compare timestamps compare instants.** `list_inactive` returns the accounts
with a token that was never used or used before the cutoff, each once; `list` and `list_all` return
the accounts of the tenant and all accounts, in the order of their last change, latest first. -/
theorem timestamps_compare (db : Db) :
    (∀ used, UsedAt chrono db used → ∀ cutoff, InYears cutoff → ∀ scan,
      (SqliteTokenStore.listInactive chrono scan cutoff db).Nodup ∧
      ∀ id, id ∈ SqliteTokenStore.listInactive chrono scan cutoff db ↔
        (∃ row, db.tokens.find id = some row) ∧ ∀ t, used id = some t → t < cutoff) ∧
    ∀ updated, UpdatedAt chrono db updated →
      (∀ tenantId, (SqliteAccountStore.list tenantId db).Perm
          (queryAccounts db fun row => row.tenantId = tenantId) ∧
        (SqliteAccountStore.list tenantId db).Pairwise fun a b => updated b.id ≤ updated a.id) ∧
      (SqliteAccountStore.listAll db).Perm (db.accounts.rows.map AccountRow.toAccount) ∧
      (SqliteAccountStore.listAll db).Pairwise fun a b => updated b.id ≤ updated a.id := by
  refine ⟨fun used hused cutoff hcutoff scan => ⟨nodup_listInactive scan cutoff, ?_⟩,
    fun updated h => ⟨fun tenantId => ⟨?_, ?_⟩, ?_, ?_⟩⟩
  · exact mem_listInactive hused (fun t ht => toRfc3339_lt_iff hprints ht hcutoff) scan
  · exact List.perm_insertionSort _ _
  · exact pairwise_orderByUpdatedDesc hprints h _
  · refine (List.perm_insertionSort _ _).trans (.of_eq ?_)
    rw [queryAccounts, List.filter_true]
  · exact pairwise_orderByUpdatedDesc hprints h _

end Queries

/-! ### The released codec -/

/-- Years outside of 0000 to 9999 are printed with a sign and at least four digits; the rest of the
date repeats every 400 years. -/
def signedYear (t : DateTime) : String :=
  let n := (t + EPOCH + 700 * 146097 * DAY).toNat
  let year : Int := (Calendar.civil (n / DAY)).year - 280000
  let width := max 4 (Nat.toDigits 10 year.natAbs).length
  String.ofList ((if year < 0 then '-' else '+') :: (digits width year.natAbs ++ (stamp n).drop 4))

/-- The codec of chrono 0.4.45, without leap seconds. -/
def Chrono.released : Chrono where
  toRfc3339 t := if InYears t then fourDigitYear t else signedYear t
  parseFromRfc3339 s := (readStamp s.toList).map (· - EPOCH)

theorem number_cons {c : Char} (hc : c.isDigit = false) (cs : List Char) :
    number (c :: cs) = none := by
  have hnone : ∀ cs : List Char, cs.foldl (fun acc c => acc.bind fun v =>
      if c.isDigit then some (10 * v + (c.toNat - 48)) else none) (none : Option ℕ) = none := by
    intro cs
    induction cs with
    | nil => rfl
    | cons c cs ih => exact ih
  rw [number, List.foldl_cons, Option.bind_some, if_neg (by simp [hc])]
  exact hnone cs

/-- A text that begins with a sign is rejected. -/
theorem readStamp_sign {c : Char} (hc : c.isDigit = false) (cs : List Char) :
    readStamp (c :: cs) = none := by
  have hfield : readField 4 (c :: cs) = none := by
    unfold readField
    split
    · rw [List.take_succ_cons, number_cons hc, Option.map_none]
    · rfl
  unfold readStamp
  rw [hfield]
  rfl

theorem released_prints : Chrono.released.Prints := fun _ ht => if_pos ht

theorem released_signs : Chrono.released.Signs := by
  intro t ht
  have hyears : ¬ InYears t := fun h => Int.not_lt.mpr h.1 ht
  have hday : (t + EPOCH + 700 * 146097 * DAY).toNat / DAY < Calendar.daysBeforeYear 280000 := by
    have hdays : Calendar.daysBeforeYear 280000 = 700 * 146097 := by decide
    have hpos : 0 < DAY := by decide
    rw [hdays, Nat.div_lt_iff_lt_mul hpos]
    omega
  have hyear := Calendar.year_civil_lt hday
  have hprint : Chrono.released.toRfc3339 t = signedYear t := if_neg hyears
  rw [hprint]
  unfold signedYear
  dsimp only
  rw [if_pos (by omega)]
  exact ⟨_, rfl⟩

theorem released_reads : Chrono.released.Reads where
  read t ht := by
    obtain ⟨hend, hback⟩ := sinceYearZero_sub ht
    have hread := readStamp_stamp hend
    simp only [Chrono.released, if_pos ht, fourDigitYear, String.toList_ofList, hread,
      Option.map_some, hback]
  reject t ht := by
    simp only [Chrono.released, if_neg ht, signedYear, String.toList_ofList]
    rw [readStamp_sign, Option.map_none]
    split <;> rfl

/-- Two accounts changed and used in the same second, at instants with and without a fraction. -/
def sameSecond : Db :=
  let key : Key := Vector.replicate 32 7
  let account := fun id email t =>
    (⟨id, "tenant-a", email, none, "microsoft", .active, "", Chrono.released.toRfc3339 t⟩ : Account)
  let token := fun t => (⟨"at", "rt", none, none, some t, 0⟩ : StoredToken)
  let accounts := (SqliteAccountStore.create (account "acc-2" "b@x" 120000000)
    (SqliteAccountStore.create (account "acc-1" "a@x" 0) .empty).2).2
  (SqliteTokenStore.upsert .tagged .released key "acc-2" (token 123456000) zeroNonces
    (SqliteTokenStore.upsert .tagged .released key "acc-1" (token 123000000) zeroNonces accounts).2).2

theorem timestamps_compare_sameSecond :
    SqliteTokenStore.listInactive .released .table 123456000 sameSecond = ["acc-1"] ∧
      (∀ id, id ∈ SqliteTokenStore.listInactive .released .table 123456000 sameSecond ↔
        (∃ row, sameSecond.tokens.find id = some row) ∧
          ∀ t, (if id = "acc-1" then some (123000000 : DateTime) else some 123456000) = some t →
            t < 123456000) ∧
      (SqliteAccountStore.list "tenant-a" sameSecond).map Account.id = ["acc-2", "acc-1"] ∧
      (SqliteAccountStore.list "tenant-a" sameSecond).Pairwise fun a b =>
        (if b.id = "acc-1" then (0 : DateTime) else 120000000) ≤
          if a.id = "acc-1" then (0 : DateTime) else 120000000 := by
  have hused : UsedAt .released sameSecond fun id =>
      if id = "acc-1" then some (123000000 : DateTime) else some 123456000 := by
    have hrows : ∀ row ∈ sameSecond.tokens.rows,
        (row.accountId = "acc-1" ∧
          row.lastUsedAt = some (Chrono.released.toRfc3339 123000000)) ∨
        (row.accountId = "acc-2" ∧
          row.lastUsedAt = some (Chrono.released.toRfc3339 123456000)) := by
      decide +kernel
    intro row hrow
    rcases hrows row hrow with ⟨hid, htext⟩ | ⟨hid, htext⟩ <;> rw [hid, htext] <;>
      exact ⟨rfl, by rintro t h; cases h; decide⟩
  have hupdated : UpdatedAt .released sameSecond fun id =>
      if id = "acc-1" then (0 : DateTime) else 120000000 := by
    have hrows : ∀ row ∈ sameSecond.accounts.rows,
        (row.id = "acc-1" ∧ row.updatedAt = Chrono.released.toRfc3339 0) ∨
        (row.id = "acc-2" ∧ row.updatedAt = Chrono.released.toRfc3339 120000000) := by
      decide +kernel
    intro row hrow
    rcases hrows row hrow with ⟨hid, htext⟩ | ⟨hid, htext⟩ <;> rw [hid, htext] <;>
      exact ⟨rfl, by decide⟩
  obtain ⟨htokens, haccounts⟩ := timestamps_compare released_prints sameSecond
  exact ⟨by decide +kernel, (htokens _ hused 123456000 (by decide) .table).2, by decide +kernel,
    ((haccounts _ hupdated).1 "tenant-a").2⟩

end UniMail
