import UniMail.Auth.AccessToken
import UniMail.Auth.Batch

/-!
# Renewing idle accounts

`refresh_stale` takes the accounts idle at a cutoff and refreshes each of them once. A refresh that
succeeds writes the present time into the row, which is not before the cutoff, so the account is not
idle any more; one that fails leaves the row. So what is idle at the same cutoff afterwards is what
failed (`refresh_stale_drains_iff`), unless a grant overflows and the batch aborts
(`overflow_leaves_idle`).
-/

namespace UniMail

open Interaction Relational

variable {aead : Aead} {chrono : Chrono} {key : Key} {oauth : OAuthClient} {i : ℕ} {w w' : World}
  {ls : List (Label AppSig World Env)} {batch : List Attempt}

/-- `Utc::now() - Duration::days(d)`, where neither panics. -/
def cutoffAt (d : Int) (now : DateTime) : Option DateTime :=
  (Duration.days d).bind fun span => now.checkedAdd (-span)

/-- The account has a token that was never used, or not since the cutoff. -/
def Idle (db : Db) (used : String → Option DateTime) (cutoff : DateTime) (id : String) : Prop :=
  (∃ row, db.tokens.find id = some row) ∧ ∀ t, used id = some t → t < cutoff

/-- The accounts idle at the cutoff are refreshed one after the other, each once; those that fail are
idle afterwards, and no other account; what was not renewed is as it was. -/
structure Drained (aead : Aead) (chrono : Chrono) (key : Key) (oauth : OAuthClient) (i : ℕ)
    (used : String → Option DateTime) (cutoff : DateTime) (w : World)
    (ls : List (Label AppSig World Env)) (r : Outcome Nat) (w' : World) (batch : List Attempt) :
    Prop where
  runs : Batch aead chrono key oauth i w batch w'
  labels : ∃ prior, ls = prior ++ labelsOf batch ∧ attempts prior = []
  once : (batch.map Attempt.accountId).Nodup
  idle : ∀ id, id ∈ batch.map Attempt.accountId ↔ Idle w.db used cutoff id
  counted : r = .ok (batch.countP fun attempt => attempt.result.isOk)
  listedOnce : ∀ scan, (SqliteTokenStore.listInactive chrono scan cutoff w'.db).Nodup
  remaining : ∀ scan id, id ∈ SqliteTokenStore.listInactive chrono scan cutoff w'.db ↔
    ∃ attempt ∈ batch, attempt.accountId = id ∧ attempt.result ≠ .ok ()
  kept : ∀ id, (∀ attempt ∈ batch, attempt.accountId = id → attempt.result ≠ .ok ()) →
    w'.db.tokens.find id = w.db.tokens.find id

/-! ### The clock -/

theorem cutoff_le {d : Int} (hd : 0 ≤ d) {now cutoff : DateTime} (h : cutoffAt d now = some cutoff) :
    cutoff ≤ now := by
  obtain ⟨span, hspan, hadd⟩ := Option.bind_eq_some_iff.mp h
  unfold Duration.days at hspan
  split at hspan
  · have hpos : 0 ≤ span := by
      rw [← Option.some.inj hspan]
      exact Int.mul_nonneg (Int.mul_nonneg hd (by decide)) (by decide)
    unfold DateTime.checkedAdd at hadd
    split at hadd
    · have heq : now + -span = cutoff := Option.some.inj hadd
      rw [← heq]
      exact Int.add_le_of_le_sub_left (by simpa using hpos)
    · cases hadd
  · cases hspan

/-! ### The rows after the batch -/

/-- The row of a renewed account has the time of its renewal. -/
theorem Batch.renewed (h : Batch aead chrono key oauth i w batch w')
    (hnodup : (batch.map Attempt.accountId).Nodup) {attempt : Attempt} (ha : attempt ∈ batch)
    (hcalm : Calm attempt.labels) (hok : attempt.result = .ok ()) :
    ∃ t ∈ readings attempt.labels, ∃ row, w'.db.tokens.find attempt.accountId = some row ∧
      row.lastUsedAt = some (chrono.toRfc3339 t) := by
  obtain ⟨w₁, w₂, hexec, _, hafter⟩ := h.attempted hnodup ha
  obtain ⟨_, hrun⟩ := exec_refreshAccount hcalm hexec
  rw [hok] at hrun
  rw [hafter.token]
  generalize w₂.db = db₂ at hrun
  cases hrun with
  | stored current response now expiresAt lastUsedAt updatedAt nonces ha _ _ _ _ hread =>
    let token := storedToken (response.tokenSet expiresAt)
      (response.refreshToken.getD current.refreshToken) lastUsedAt updatedAt
    refine ⟨lastUsedAt, hread, token.toRow aead chrono key attempt.accountId nonces, ?_, rfl⟩
    exact (SqliteTokenStore.find_stored ..).trans (if_pos rfl)

/-- An account without a successful attempt keeps its row. -/
theorem Batch.kept (h : Batch aead chrono key oauth i w batch w')
    (hnodup : (batch.map Attempt.accountId).Nodup) (hcalm : Calm (labelsOf batch)) {id : String}
    (hid : ∀ attempt ∈ batch, attempt.accountId = id → attempt.result ≠ .ok ()) :
    w'.db.tokens.find id = w.db.tokens.find id := by
  by_cases hmem : id ∈ batch.map Attempt.accountId
  · obtain ⟨attempt, ha, rfl⟩ := List.mem_map.mp hmem
    refine h.failed hnodup ha (fun l hl => hcalm l ?_) (hid attempt ha rfl)
    exact List.mem_flatten_of_mem (List.mem_map_of_mem ha) hl
  · exact (h.others hmem).token

/-- **What is idle after the batch is what failed.** -/
theorem Batch.remaining (h : Batch aead chrono key oauth i w batch w') {scan₀ : Scan}
    {cutoff : DateTime}
    (hids : batch.map Attempt.accountId = SqliteTokenStore.listInactive chrono scan₀ cutoff w.db)
    (hcalm : Calm (labelsOf batch))
    (hlate : ∀ t ∈ readings (labelsOf batch),
      ¬ chrono.toRfc3339 t < chrono.toRfc3339 cutoff) (scan : Scan) (id : String) :
    id ∈ SqliteTokenStore.listInactive chrono scan cutoff w'.db ↔
      ∃ attempt ∈ batch, attempt.accountId = id ∧ attempt.result ≠ .ok () := by
  have hnodup : (batch.map Attempt.accountId).Nodup := hids ▸ nodup_listInactive scan₀ cutoff
  by_cases hrenewed : ∃ attempt ∈ batch, attempt.accountId = id ∧ attempt.result = .ok ()
  · obtain ⟨attempt, ha, rfl, hok⟩ := hrenewed
    have hlabels : ∀ l ∈ attempt.labels, l ∈ labelsOf batch := fun l hl =>
      List.mem_flatten_of_mem (List.mem_map_of_mem ha) hl
    obtain ⟨t, ht, row, hrow, hused⟩ := h.renewed hnodup ha (fun l hl => hcalm l (hlabels l hl)) hok
    have hread : t ∈ readings (labelsOf batch) := by
      obtain ⟨l, hl, hlt⟩ := List.mem_filterMap.mp ht
      exact List.mem_filterMap.mpr ⟨l, hlabels l hl, hlt⟩
    constructor
    · intro hlisted
      obtain ⟨row', hrow', hlt⟩ := (mem_listInactive_row scan cutoff _).mp hlisted
      obtain rfl := Option.some.inj (hrow.symm.trans hrow')
      exact absurd (hlt _ hused) (hlate t hread)
    · rintro ⟨attempt', ha', hid, hfailed⟩
      obtain rfl := List.inj_on_of_nodup_map hnodup ha' ha hid
      exact absurd hok hfailed
  · have hnot : ∀ attempt ∈ batch, attempt.accountId = id → attempt.result ≠ .ok () :=
      fun attempt ha hid hok => hrenewed ⟨attempt, ha, hid, hok⟩
    have hsame : id ∈ SqliteTokenStore.listInactive chrono scan cutoff w'.db ↔
        id ∈ batch.map Attempt.accountId := by
      rw [hids, mem_listInactive_row, mem_listInactive_row, h.kept hnodup hcalm hnot]
    rw [hsame]
    constructor
    · intro hmem
      obtain ⟨attempt, ha, hid⟩ := List.mem_map.mp hmem
      exact ⟨attempt, ha, hid, hnot attempt ha hid⟩
    · rintro ⟨attempt, ha, rfl, _⟩
      exact List.mem_map_of_mem ha

/-! ### The whole call -/

/-- From a world where no refresh mutex is held, the call is never kept waiting. -/
theorem completes_refreshStale (hunheld : Unheld w) (d : Int) :
    Completes (system aead chrono key) i (TokenManager.refreshStale oauth d).run (fun _ _ => True)
      w := by
  unfold TokenManager.refreshStale
  apply completes_op_bind (by simp)
  intro env now w₁ hnow
  obtain ⟨_, rfl⟩ := utcNow_eq hnow
  refine completes_orPanic_bind (fun span => ?_) fun _ => trivial
  refine completes_orPanic_bind (fun cutoff => ?_) fun _ => trivial
  apply completes_op_bind (by simp)
  intro env reply w₂ hlist
  have hunheld₂ : Unheld w₂ := by
    intro id
    rw [locks_frame (by simp [Op.lock?]) hlist]
    exact hunheld id
  cases reply with
  | error e => trivial
  | ok ids => exact (completes_refreshIds ids hunheld₂).mono fun _ _ _ => trivial

/-- A calm call reads the clock, lists the accounts idle at the cutoff, and refreshes them. -/
theorem exec_refreshStale {d : Int} {r : Outcome Nat} {now cutoff : DateTime}
    (h : Exec (system aead chrono key) i (TokenManager.refreshStale oauth d).run w ls r w')
    (hcalm : Calm ls) (hhead : (readings ls).head? = some now)
    (hcutoff : cutoffAt d now = some cutoff) :
    ∃ scan prior ls₂, ls = prior ++ ls₂ ∧ attempts prior = [] ∧ readings ls = now :: readings ls₂ ∧
      grants ls = grants ls₂ ∧ Calm ls₂ ∧
      Exec (system aead chrono key) i (TokenManager.refreshIds oauth
        (SqliteTokenStore.listInactive chrono scan cutoff w.db)).run w ls₂ r w' := by
  unfold TokenManager.refreshStale at h
  obtain ⟨env, _, w₁, ls₁, hnow, hspan, rfl⟩ := exec_op_bind h
  obtain ⟨rfl, rfl⟩ := utcNow_eq hnow
  obtain rfl : env.now = now := Option.some.inj hhead
  obtain ⟨span, hdays, hadd⟩ := Option.bind_eq_some_iff.mp hcutoff
  rw [hdays] at hspan
  change Exec _ i (orPanic _ (DateTime.checkedAdd env.now (-span)) >>= _).run _ _ _ _ at hspan
  rw [hadd] at hspan
  obtain ⟨env₁, reply, w₂, ls₂, hlist, hloop, rfl⟩ := exec_op_bind hspan
  obtain ⟨hfault, hcalm₂⟩ := calm_cons.mp (calm_cons.mp hcalm).2
  obtain ⟨rfl, rfl⟩ := storage_calm hfault (Option.some.inj hlist)
  refine ⟨env₁.scan, [_, _], ls₂, rfl, rfl, rfl, ?_, hcalm₂, hloop⟩
  rw [grants_cons (by simp), grants_cons (by simp)]

/-- The texts of the cutoff and of an instant compare as they do. -/
theorem lt_cutoff_iff (hprints : chrono.Prints) (hsigns : chrono.Signs) {now cutoff t : DateTime}
    (hle : cutoff ≤ now) (hnow : InYears now) (ht : InYears t) :
    chrono.toRfc3339 t < chrono.toRfc3339 cutoff ↔ t < cutoff :=
  toRfc3339_lt_iff_signed hprints hsigns ht
    (lt_of_le_of_lt (Int.add_le_add_right hle EPOCH) hnow.2)

/-- **`refresh_stale` drains exactly the idle accounts, if no grant overflows.** From a world where no
refresh mutex is held it is never kept waiting. -/
theorem refresh_stale_drains_iff (hprints : chrono.Prints) (hsigns : chrono.Signs)
    {used : String → Option DateTime} (hused : UsedAt chrono w.db used) (hunheld : Unheld w) {d : Int}
    (hd : 0 ≤ d) :
    Completes (system aead chrono key) i (TokenManager.refreshStale oauth d).run (fun _ _ => True)
      w ∧
    ∀ ls r w', Exec (system aead chrono key) i (TokenManager.refreshStale oauth d).run w ls r w' →
      Calm ls → (readings ls).Pairwise (· ≤ ·) → (∀ t ∈ readings ls, InYears t) →
      ∀ now cutoff, (readings ls).head? = some now → cutoffAt d now = some cutoff →
        ((∃ batch, Drained aead chrono key oauth i used cutoff w ls r w' batch) ↔
          ∀ g ∈ grants ls, Representable g) := by
  refine ⟨completes_refreshStale hunheld d, ?_⟩
  intro ls r w' h hcalm hclock hyears now cutoff hhead hcutoff
  obtain ⟨scan, prior, ls₂, hls, hprior, hread, hgrants, hcalm₂, hloop⟩ :=
    exec_refreshStale h hcalm hhead hcutoff
  rw [hgrants]
  rw [hread] at hclock hyears
  have hle := cutoff_le hd hcutoff
  have hnow : InYears now := hyears now List.mem_cons_self
  have hcompare : ∀ t, InYears t → (chrono.toRfc3339 t < chrono.toRfc3339 cutoff ↔ t < cutoff) :=
    fun t ht => lt_cutoff_iff hprints hsigns hle hnow ht
  rcases exec_refreshIds hloop with ⟨batch, hbatch, hids, rfl, rfl⟩ | haborted
  · obtain ⟨_, hrepresentable⟩ := hbatch.shown hcalm₂
    have hlate : ∀ t ∈ readings (labelsOf batch),
        ¬ chrono.toRfc3339 t < chrono.toRfc3339 cutoff := by
      intro t ht
      rw [hcompare t (hyears t (List.mem_cons_of_mem _ ht))]
      exact Int.not_lt.mpr (hle.trans (List.rel_of_pairwise_cons hclock ht))
    have hnodup : (batch.map Attempt.accountId).Nodup := hids ▸ nodup_listInactive scan cutoff
    refine ⟨fun _ => hrepresentable, fun _ => ⟨batch, ?_⟩⟩
    exact {
      runs := hbatch
      labels := ⟨prior, hls, hprior⟩
      once := hnodup
      idle := fun id => by rw [hids, mem_listInactive hused hcompare]; rfl
      counted := rfl
      listedOnce := fun scan => nodup_listInactive scan cutoff
      remaining := hbatch.remaining hids hcalm₂ hlate
      kept := fun id hid => hbatch.kept hnodup hcalm₂ hid }
  · obtain ⟨⟨msg, hpanic⟩, g, hg, hover⟩ := haborted.overflow hcalm₂
    constructor
    · rintro ⟨batch, hdrained⟩
      rw [hpanic] at hdrained
      cases hdrained.counted
    · exact fun hall => absurd (hall g hg) hover

/-! ### Two runs -/

/-- Three accounts: one whose token was never used, one used at the start of the first day, and one
used at noon of the second. -/
def idleAccounts : World where
  db :=
    let account := fun id email => ({ sampleAccount with id, emailAddress := email } : Account)
    let create := fun db account => (SqliteAccountStore.create account db).2
    let store := fun db (x : String × StoredToken) =>
      (SqliteTokenStore.upsert .tagged .released sampleKey x.1 x.2 zeroNonces db).2
    let accounts := [account "acc-1" "a@x", account "acc-2" "b@x", account "acc-3" "c@x"].foldl
      create .empty
    [("acc-1", ⟨"at-1", "rt-1", none, none, none, 0⟩),
      ("acc-2", ⟨"at-2", "rt-2", none, none, some 0, 0⟩),
      ("acc-3", ⟨"at-4", "rt-4", none, none, some (Duration.hours 36), 0⟩)].foldl store accounts
  locks _ := none

def idleUsed (id : String) : Option DateTime :=
  if id = "acc-1" then none else if id = "acc-2" then some 0 else some (Duration.hours 36)

theorem usedAt_idleAccounts : UsedAt .released idleAccounts.db idleUsed := by
  have hrows : ∀ row ∈ idleAccounts.db.tokens.rows,
      row.lastUsedAt = (idleUsed row.accountId).map Chrono.released.toRfc3339 := by
    decide +kernel
  intro row hrow
  refine ⟨hrows row hrow, fun t ht => ?_⟩
  unfold idleUsed at ht
  split at ht
  · cases ht
  · split at ht <;> cases ht <;> decide

theorem unheld_idleAccounts : Unheld idleAccounts := by
  intro id j h
  cases h

/-- At six o'clock of the third day, accounts idle for a day are renewed. -/
def thirdDay (first : Except String TokenResponse) :
    Option (List (Label AppSig World Env) × Outcome Nat × World) :=
  releasedSystem.runAlone 0 { answering first with now := Duration.hours 54 }
    (TokenManager.refreshStale sampleOauth 1).run idleAccounts

/-- What the two runs have in common. -/
def thirdDayChecks (run : List (Label AppSig World Env) × Outcome Nat × World) : Bool :=
  (readings run.1).head? = some (Duration.hours 54) ∧ (readings run.1).Pairwise (· ≤ ·) ∧
    (∀ t ∈ readings run.1, InYears t) ∧ run.1.all fun l => l.env.fault.isNone

/-- A reply that is good for ten trillion seconds leaves both accounts idle. -/
theorem overflow_leaves_idle :
    ∃ ls w', Exec releasedSystem 0 (TokenManager.refreshStale sampleOauth 1).run idleAccounts ls
        (.error (.panic "`DateTime + TimeDelta` overflowed")) w' ∧
      (Calm ls ∧ (readings ls).Pairwise (· ≤ ·) ∧ ∀ t ∈ readings ls, InYears t) ∧
      cutoffAt 1 (Duration.hours 54) = some (Duration.hours 30) ∧
      attempts ls = ["acc-1"] ∧
      SqliteTokenStore.listInactive .released .table (Duration.hours 30) w'.db = ["acc-1", "acc-2"] ∧
      ¬ ∃ batch, Drained .tagged .released sampleKey sampleOauth 0 idleUsed (Duration.hours 30)
        idleAccounts ls (.error (.panic "`DateTime + TimeDelta` overflowed")) w' batch := by
  let run := thirdDay (.ok ⟨"at-9", none, some 10000000000000, none⟩)
  have hchecks : run.any (fun run => thirdDayChecks run ∧
      run.2.1 = .error (.panic "`DateTime + TimeDelta` overflowed") ∧ attempts run.1 = ["acc-1"] ∧
      SqliteTokenStore.listInactive .released .table (Duration.hours 30) run.2.2.db =
        ["acc-1", "acc-2"]) = true := by
    decide +kernel
  obtain ⟨⟨ls, r, w'⟩, hrun, hcommon, rfl, hattempts, hidle⟩ := exists_of_any hchecks
  obtain ⟨_, hclock, hyears, hcalm⟩ := of_decide_eq_true hcommon
  refine ⟨ls, w', exec_of_runAlone hrun, ⟨calm_of_all hcalm, hclock, hyears⟩, by decide, hattempts, hidle, ?_⟩
  rintro ⟨batch, hdrained⟩
  cases hdrained.counted

/-- When the first renewal is denied, the second account is renewed and the first stays idle. -/
theorem refresh_stale_drains_denied :
    ∃ ls w' batch, Exec releasedSystem 0 (TokenManager.refreshStale sampleOauth 1).run idleAccounts
        ls (.ok 1) w' ∧
      SqliteTokenStore.listInactive .released .table (Duration.hours 30) w'.db = ["acc-1"] ∧
      Drained .tagged .released sampleKey sampleOauth 0 idleUsed (Duration.hours 30) idleAccounts ls
        (.ok 1) w' batch := by
  let run := thirdDay (.error "invalid_grant")
  have hchecks : run.any (fun run => thirdDayChecks run ∧ run.2.1 = .ok 1 ∧
      (∀ g ∈ grants run.1, Representable g) ∧
      SqliteTokenStore.listInactive .released .table (Duration.hours 30) run.2.2.db = ["acc-1"]) = true := by
    decide +kernel
  obtain ⟨⟨ls, r, w'⟩, hrun, hcommon, rfl, hrepresentable, hidle⟩ := exists_of_any hchecks
  obtain ⟨hhead, hclock, hyears, hcalm⟩ := of_decide_eq_true hcommon
  have hexec := exec_of_runAlone hrun
  obtain ⟨_, hall⟩ := refresh_stale_drains_iff released_prints released_signs usedAt_idleAccounts
    unheld_idleAccounts (d := 1) (by decide)
  obtain ⟨batch, hdrained⟩ := (hall ls _ w' hexec (calm_of_all hcalm) hclock hyears (Duration.hours 54)
    (Duration.hours 30) hhead (by decide)).mpr hrepresentable
  exact ⟨ls, w', batch, hexec, hidle, hdrained⟩

end UniMail
