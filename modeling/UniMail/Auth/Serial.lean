import UniMail.Auth.Exclusion

/-!
# Refreshes one after the other

Any number of refreshes of any accounts run concurrently against a token endpoint with a state.
`refreshes_serialize` says that every interleaving is equivalent to a sequential one: the call that
last takes a mutex or sends a request can be put off to the end of the run, and so on with the rest.
Every request presents what the last successful refresh of its account left, and an endpoint whose
refresh tokens are good for one use never sees one again after a success.

`TurnInv` relates the events so far to the world and the ghost states; `Lineage` says where the refresh
tokens come from that are presented and stored.
-/

namespace UniMail

open Interaction

variable {P : Type} {aead : Aead} {chrono : Chrono} {key : Key} {endpoint : TokenEndpoint P}
  {oauth : OAuthClient} {α : Type}

/-! ### Steps of refreshes commute -/

/-- Every refresh finds in the world what it expects. -/
def Guarded (aead : Aead) (key : Key) (w : World) (γ : ℕ → String × Turn) : Prop :=
  ∀ i, (γ i).2.Guard aead key w i (γ i).1

section Steps

variable {e : Event AppSig (World × P) Env α} {γ : ℕ → String × Turn}

theorem guarded_step (hstep : (served aead chrono key endpoint).Step e)
    (h : Guarded aead key e.before.world.1 γ) (ho : turnMonitor.allows (γ e.thread) e.op) :
    Guarded aead key e.after.world.1
      (Function.update γ e.thread (turnMonitor.next (γ e.thread) e.op e.reply)) := by
  obtain ⟨_, _, hexec, _⟩ := hstep
  intro i
  by_cases hi : i = e.thread
  · subst hi
    rw [Function.update_self]
    exact (h e.thread).own ho hexec
  · rw [Function.update_of_ne hi]
    exact (h e.thread).other ho hexec (Ne.symm hi) (h i)

/-- The calls of the pool are refreshes on their way. -/
def Refreshing (aead : Aead) (key : Key) (c : Cfg AppSig (World × P) (Outcome Unit)) : Prop :=
  ∃ γ, PoolFollows turnMonitor (fun g r => g.2 = .done r.isOk) γ c.pool ∧
    Guarded aead key c.world.1 γ

theorem refreshes_commute (endpoint : TokenEndpoint P) :
    Commutes (served aead chrono key endpoint) (Refreshing aead key) Op.Conflicts where
  step e hstep := by
    rintro ⟨γ, hpool, hguard⟩
    exact ⟨_, hpool.step hstep trivial, guarded_step hstep hguard (hpool.allows hstep)⟩
  exchange e f := by
    rintro ⟨γ, hpool, hguard⟩ he hf hbefore hthread hconflict
    have hallows := hpool.allows he
    have hpool' := hpool.step he trivial
    rw [← hbefore] at hpool'
    have hallows' := hpool'.allows hf
    rw [Function.update_of_ne (Ne.symm hthread)] at hallows'
    apply exchanges_of_exec he hf hbefore hthread
    obtain ⟨_, _, hexec, _⟩ := he
    obtain ⟨_, _, hexec', _⟩ := hf
    rw [hbefore] at hexec'
    exact exchange_exec hthread (hguard e.thread) hallows (hguard f.thread) hallows' hconflict hexec
      hexec'

end Steps

/-! ### What a run has done so far -/

/-- The refresh token that an operation stores for the account. -/
def Op.saves (accountId : String) : (o : Op) → Op.Reply o → Option String
  | .tokensUpsert id record, .ok _ => if id = accountId then some record.refreshToken else none
  | _, _ => none

/-- The refresh tokens stored for the account along a run, in order of time. -/
def savedTokens {W : Type} (accountId : String) (es : List (Event AppSig W Env α)) : List String :=
  es.filterMap fun e => e.op.saves accountId e.reply

/-- The refresh token the last successful refresh of the account left, or else the stored one. -/
def leftBehind {W : Type} (aead : Aead) (key : Key) (w : World) (past : List (Event AppSig W Env α))
    (accountId : String) : Option String :=
  (savedTokens accountId past).getLast?.or (storedRefreshToken aead key w.db accountId)

/-- After it a refresh takes no mutex and sends no request. -/
def Op.closes : Op → Bool
  | .token _ => true
  | .release _ => true
  | _ => false

/-- It takes a mutex or sends a request. -/
def Op.opens : Op → Bool
  | .token _ => true
  | .acquire _ => true
  | _ => false

/-- The refresh is past its request. -/
def Turn.late : Turn → Bool
  | .granted _ => true
  | .ending _ => true
  | .done _ => true
  | _ => false

theorem conflicts_closes_opens {o o' : Op} (h : o.Conflicts o') :
    o.closes = true ∧ o'.opens = true := by
  cases o with
  | token => cases o' <;> first | exact ⟨rfl, rfl⟩ | exact h.elim
  | release => cases o' <;> first | exact ⟨rfl, rfl⟩ | exact h.elim
  | _ => exact h.elim

section Turns

variable {t : Turn} {id id' : String} {o : Op} {r : Op.Reply o} {i : ℕ} {env : Env}
  {s s' : World × P}

theorem Turn.Allows.not_late (ho : t.Allows id o) (hopens : o.opens = true) : t.late = false := by
  cases ho with
  | acquire => rfl
  | present => rfl
  | clock | lock | get | store | release => cases hopens

theorem Turn.Allows.late (ho : t.Allows id o) (h : t.late = true ∨ o.closes = true) :
    (t.next o r).late = true := by
  cases ho with
  | clock =>
    rw [Turn.next_utcNow]
    simpa [Op.closes] using h
  | lock => simp [Turn.late, Op.closes] at h
  | acquire => simp [Turn.late, Op.closes] at h
  | get => simp [Turn.late, Op.closes] at h
  | present => cases r <;> rfl
  | store => cases r <;> rfl
  | release =>
    rw [Turn.next_release]
    rfl

/-- A refresh has succeeded from the moment it stores its token. -/
theorem Turn.Allows.saved_iff (ho : t.Allows id o) :
    (t.next o r).saved = true ↔ t.saved = true ∨ o.saves id r ≠ none := by
  cases ho with
  | clock => simp [Op.saves]
  | lock => simp [Turn.next, Turn.saved, Op.saves]
  | acquire => simp [Turn.next, Turn.saved, Op.saves]
  | get => rcases r with e | _ | token <;> simp [Turn.next, Turn.saved, Op.saves]
  | present => cases r <;> simp [Turn.next, Turn.saved, Op.saves]
  | store => cases r <;> simp [Turn.next, Turn.saved, Op.saves]
  | release => simp [Turn.saved, Op.saves]

/-- A step changes the stored refresh token of an account only by storing one. -/
theorem storedRefreshToken_served (ho : t.Allows id o)
    (hexec : (served aead chrono key endpoint).exec i o env s = some (r, s')) :
    storedRefreshToken aead key s'.1.db id' =
      (o.saves id' r).or (storedRefreshToken aead key s.1.db id') := by
  have hframe : o.writesTokens = false → (∀ request, o ≠ .token request) →
      storedRefreshToken aead key s'.1.db id' = storedRefreshToken aead key s.1.db id' := by
    intro hwrites hrequest
    rw [storedRefreshToken, tokens_frame hwrites ((served_iff hrequest).mp hexec).1]
    rfl
  cases ho with
  | store token =>
    obtain ⟨hsystem, _⟩ := (served_iff (by simp)).mp hexec
    cases r with
    | ok _ =>
      obtain ⟨ha, hdb, _⟩ := tokensUpsert_ok hsystem
      rw [hdb, storedRefreshToken_upsertRow]
      by_cases hid : id = id' <;> simp [Op.saves, hid]
    | error e =>
      rw [tokensUpsert_error hsystem]
      rfl
  | present =>
    rw [(served_token hexec).1]
    rfl
  | clock | lock | acquire | get | release => exact hframe rfl (by simp)

end Turns

/-! ### Along a run -/

/-- The refreshes before their first step. -/
def refreshPool (oauth : OAuthClient) (ids : List String) : List (Prog AppSig (Outcome Unit)) :=
  ids.map fun id => (TokenManager.refreshAccount oauth id).run

/-- Their ghost states. -/
def firstTurns (ids : List String) (i : ℕ) : String × Turn := ((ids[i]?).getD "", .start)

/-- The events so far account for the world `d`, which was `w` at first, and for the ghost states. -/
structure TurnInv (aead : Aead) (key : Key) (ids : List String) (w : World)
    (past : List (Event AppSig (World × P) Env α)) (d : World) (γ : ℕ → String × Turn) : Prop where
  guarded : Guarded aead key d γ
  account : ∀ i, (γ i).1 = (ids[i]?).getD ""
  stored : ∀ id, storedRefreshToken aead key d.db id = leftBehind aead key w past id
  late : ∀ e ∈ past, e.op.closes = true → (γ e.thread).2.late = true
  saved : ∀ i, (γ i).2.saved = true ↔ ∃ e ∈ past, e.thread = i ∧ e.op.saves (γ i).1 e.reply ≠ none

section Run

variable {ids : List String} {w : World} {s : World × P} {c' : Cfg AppSig (World × P) (Outcome Unit)}
  {γ : ℕ → String × Turn}

theorem savedTokens_snoc {W : Type} (id : String) (past : List (Event AppSig W Env α))
    (e : Event AppSig W Env α) :
    savedTokens id (past ++ [e]) = savedTokens id past ++ (e.op.saves id e.reply).toList :=
  filterMap_snoc ..

theorem leftBehind_snoc {W : Type} (id : String) (past : List (Event AppSig W Env α))
    (e : Event AppSig W Env α) : leftBehind aead key w (past ++ [e]) id =
      (e.op.saves id e.reply).or (leftBehind aead key w past id) := by
  unfold leftBehind
  rw [savedTokens_snoc, List.getLast?_append, Option.or_assoc]
  cases e.op.saves id e.reply <;> rfl

variable {past : List (Event AppSig (World × P) Env α)} {e : Event AppSig (World × P) Env α}

section TurnStep

variable (h : TurnInv aead key ids w past e.before.world.1 γ)
  (ho : turnMonitor.allows (γ e.thread) e.op)
include h ho

theorem late_step : ∀ f ∈ past ++ [e], f.op.closes = true →
    (Function.update γ e.thread (turnMonitor.next (γ e.thread) e.op e.reply) f.thread).2.late =
      true := by
  intro f hf hcloses
  have hallows : (γ e.thread).2.Allows (γ e.thread).1 e.op := ho
  by_cases hi : f.thread = e.thread
  · rw [hi, Function.update_self]
    apply hallows.late
    rcases List.mem_append.mp hf with hf | hf
    · exact Or.inl (hi ▸ h.late f hf hcloses)
    · obtain rfl := List.mem_singleton.mp hf
      exact Or.inr hcloses
  · rw [Function.update_of_ne hi]
    rcases List.mem_append.mp hf with hf | hf
    · exact h.late f hf hcloses
    · exact absurd (congrArg Event.thread (List.mem_singleton.mp hf)) hi

theorem success_step (i : ℕ) :
    (Function.update γ e.thread (turnMonitor.next (γ e.thread) e.op e.reply) i).2.saved = true ↔
      ∃ f ∈ past ++ [e], f.thread = i ∧ f.op.saves (γ i).1 f.reply ≠ none := by
  have hallows : (γ e.thread).2.Allows (γ e.thread).1 e.op := ho
  have hsplit : (∃ f ∈ past ++ [e], f.thread = i ∧ f.op.saves (γ i).1 f.reply ≠ none) ↔
      (γ i).2.saved = true ∨ e.thread = i ∧ e.op.saves (γ i).1 e.reply ≠ none := by
    rw [h.saved]
    simp only [List.mem_append, List.mem_singleton, or_and_right, exists_or, exists_eq_left]
  rw [hsplit]
  by_cases hi : i = e.thread
  · subst hi
    rw [Function.update_self]
    apply hallows.saved_iff.trans
    simp
  · rw [Function.update_of_ne hi]
    simp [Ne.symm hi]

theorem turnInv_step (hstep : (served aead chrono key endpoint).Step e) :
    TurnInv aead key ids w (past ++ [e]) e.after.world.1
      (Function.update γ e.thread (turnMonitor.next (γ e.thread) e.op e.reply)) := by
  have haccount : ∀ i, (Function.update γ e.thread
      (turnMonitor.next (γ e.thread) e.op e.reply) i).1 = (γ i).1 := by
    intro i
    by_cases hi : i = e.thread
    · subst hi
      rw [Function.update_self]
      rfl
    · rw [Function.update_of_ne hi]
  have hguarded := guarded_step hstep h.guarded ho
  obtain ⟨_, _, hexec, _⟩ := hstep
  refine ⟨hguarded, fun i => (haccount i).trans (h.account i), fun id => ?_, late_step h ho,
    fun i => ?_⟩
  · rw [storedRefreshToken_served ho hexec, h.stored, leftBehind_snoc]
  · rw [haccount]
    exact success_step h ho i

end TurnStep

theorem pool_follows (oauth : OAuthClient) (ids : List String) :
    PoolFollows turnMonitor (fun g r => g.2 = .done r.isOk) (firstTurns ids)
      (refreshPool oauth ids) := by
  intro i p hp
  obtain ⟨id, hid, rfl⟩ := Option.map_eq_some_iff.mp ((List.getElem?_map ..).symm.trans hp)
  have hfirst : firstTurns ids i = (id, .start) := by
    unfold firstTurns
    rw [hid]
    rfl
  rw [hfirst]
  refine follows_mono ?_ turn_refreshAccount
  rintro g r rfl
  rfl

theorem turnInv_first (ids : List String) (w : World) :
    TurnInv aead key ids w ([] : List (Event AppSig (World × P) Env α)) w (firstTurns ids) where
  guarded _ := trivial
  account _ := rfl
  stored _ := rfl
  late _ hf := absurd hf List.not_mem_nil
  saved i := by simp [firstTurns, Turn.saved]

variable {es : List (Event AppSig (World × P) Env (Outcome Unit))}

theorem turnInv_run
    (h : (served aead chrono key endpoint).Run ⟨s, refreshPool oauth ids⟩ es c') :
    TurnInv aead key ids s.1 es c'.world.1 (ghosts turnMonitor (firstTurns ids) es) ∧
      PoolFollows turnMonitor (fun g r => g.2 = .done r.isOk)
        (ghosts turnMonitor (firstTurns ids) es) c'.pool := by
  refine h.follows (I := fun past d γ => TurnInv aead key ids s.1 past d.world.1 γ)
    (turnInv_first ids s.1) (pool_follows oauth ids) ?_
  intro past e post _ hstep _ hinv ho
  refine ⟨trivial, ?_⟩
  rw [ghosts_snoc]
  exact turnInv_step hinv ho hstep

/-- What is known at a step of a run. -/
theorem turnInv_at {past post : List (Event AppSig (World × P) Env (Outcome Unit))}
    {e : Event AppSig (World × P) Env (Outcome Unit)}
    (h : (served aead chrono key endpoint).Run ⟨s, refreshPool oauth ids⟩ (past ++ e :: post) c') :
    TurnInv aead key ids s.1 past e.before.world.1 (ghosts turnMonitor (firstTurns ids) past) ∧
      turnMonitor.allows (ghosts turnMonitor (firstTurns ids) past e.thread) e.op := by
  obtain ⟨hpast, hstep, _⟩ := h.split
  obtain ⟨hinv, hpool⟩ := turnInv_run hpast
  exact ⟨hinv, hpool.allows hstep⟩

/-- The account of a call that steps. -/
theorem account_at {past post : List (Event AppSig (World × P) Env (Outcome Unit))}
    {e : Event AppSig (World × P) Env (Outcome Unit)}
    (h : (served aead chrono key endpoint).Run ⟨s, refreshPool oauth ids⟩ (past ++ e :: post) c') :
    ids[e.thread]? = some (ghosts turnMonitor (firstTurns ids) past e.thread).1 := by
  obtain ⟨hpast, ⟨k, hpool, _⟩, _⟩ := h.split
  have hlength : e.before.pool.length = ids.length :=
    hpast.pool_length.trans (List.length_map ..)
  have hlt : e.thread < ids.length := hlength ▸ (List.getElem?_eq_some_iff.mp hpool).1
  rw [(turnInv_at h).1.account, List.getElem?_eq_getElem hlt]
  rfl

/-! ### The sequential order -/

/-- The call that last takes a mutex or sends a request can be put off. -/
theorem exists_deferrable
    (h : (served aead chrono key endpoint).Run ⟨s, refreshPool oauth ids⟩ es c') (hes : es ≠ []) :
    ∃ i, (∃ e ∈ es, e.thread = i) ∧ Deferrable Op.Conflicts i es := by
  by_cases hopens : ∃ e ∈ es, e.op.opens = true
  · obtain ⟨past, k, post, rfl, hk, hpost⟩ :=
      exists_last (p := fun e : Event AppSig (World × P) Env (Outcome Unit) => e.op.opens) hopens
    refine ⟨k.thread, ⟨k, by simp, rfl⟩, Deferrable.of_last ?_ ?_⟩
    · intro e he hthread o hconflict
      obtain ⟨hinv, hallows⟩ := turnInv_at h
      have hlate := hinv.late e he (conflicts_closes_opens hconflict).1
      rw [hthread, hallows.not_late hk] at hlate
      cases hlate
    · intro f hf o hconflict
      cases (hpost f hf).symm.trans (conflicts_closes_opens hconflict).2
  · obtain ⟨e, es, rfl⟩ := List.exists_cons_of_ne_nil hes
    refine ⟨e.thread, ⟨e, List.mem_cons_self, rfl⟩, ?_⟩
    apply List.pairwise_of_forall_mem_list
    intro _ _ f hf _ _ hconflict
    exact hopens ⟨f, hf, (conflicts_closes_opens hconflict).2⟩

/-- A sequential run with the same steps of each call, the same requests in the same order, and the
same end. -/
theorem exists_sequential
    (h : (served aead chrono key endpoint).Run ⟨s, refreshPool oauth ids⟩ es c') :
    ∃ order es', order.Perm (List.range ids.length) ∧
      Sequential (served aead chrono key endpoint) ⟨s, refreshPool oauth ids⟩ order es' c' ∧
      (∀ i, viewsOf i es' = viewsOf i es) ∧ viewsWith Op.isToken es' = viewsWith Op.isToken es := by
  have hinv : Refreshing aead key ⟨s, refreshPool oauth ids⟩ :=
    ⟨firstTurns ids, pool_follows oauth ids, fun _ => trivial⟩
  obtain ⟨order, es', hsequential, horder, hviews, hobserved⟩ :=
    (refreshes_commute endpoint).serialize hinv (fun es c' => exists_deferrable) h
  have hlt : ∀ i ∈ order, i < ids.length := by
    intro i hi
    obtain ⟨e, he, rfl⟩ := horder i hi
    obtain ⟨past, post, rfl⟩ := List.append_of_mem he
    exact (List.getElem?_eq_some_iff.mp (account_at h)).1
  let idle := (List.range ids.length).filter fun i => i ∉ order
  have hidle : idle.Nodup := List.nodup_range.filter _
  have hextend := hsequential.extend hidle fun i hi => of_decide_eq_true (List.mem_filter.mp hi).2
  refine ⟨order ++ idle, es', ?_, hextend, hviews, hobserved Op.isToken ?_⟩
  · apply (List.perm_ext_iff_of_nodup hextend.nodup List.nodup_range).mpr
    intro i
    by_cases hi : i ∈ order
    · simp [hi, hlt i hi]
    · simp [idle, hi]
  · intro o o' ho ho'
    cases o with
    | token => cases o' with
      | token => trivial
      | _ => cases ho'
    | _ => cases ho

/-! ### The requests -/

theorem Turn.Allows.of_token {t : Turn} {id : String} {request : TokenRequest}
    (ho : t.Allows id (.token request)) : ∃ rt, t = .read rt ∧ request = .refresh rt := by
  cases ho with
  | present rt => exact ⟨rt, rfl, rfl⟩

/-- A request presents what the last successful refresh of the account left. -/
theorem request_at {past : List (Event AppSig (World × P) Env α)}
    {e : Event AppSig (World × P) Env α} {request : TokenRequest} {d : World}
    (hinv : TurnInv aead key ids w past d γ) (ho : turnMonitor.allows (γ e.thread) e.op)
    (hop : e.op = .token request) : ∃ rt, request = .refresh rt ∧ (γ e.thread).2 = .read rt ∧
      leftBehind aead key w past (γ e.thread).1 = some rt := by
  have hallows : (γ e.thread).2.Allows (γ e.thread).1 (.token request) := hop ▸ ho
  obtain ⟨rt, hread, rfl⟩ := hallows.of_token
  have hguard := hinv.guarded e.thread
  rw [hread] at hguard
  exact ⟨rt, rfl, hread, (hinv.stored _).symm.trans hguard.2⟩

end Run

/-! ### Where the refresh tokens come from -/

/-- The refresh token granted by the endpoint. -/
def Op.grants : (o : Op) → Op.Reply o → Option String
  | .token _, .ok response => response.refreshToken
  | _, _ => none

/-- A refresh that is granted comes with a refresh token. -/
def Op.rotates : (o : Op) → Op.Reply o → Bool
  | .token _, .ok response => response.refreshToken.isSome
  | _, _ => true

/-- The refresh tokens granted along a run, in order of time. -/
def grantedTokens {W : Type} (es : List (Event AppSig W Env α)) : List String :=
  es.filterMap fun e => e.op.grants e.reply

/-- The endpoint rotates refresh tokens that are good for one use: no two grants have the same one, it
is not one of those stored at first, and these are of one account each. -/
structure SingleUse {W : Type} (aead : Aead) (key : Key) (w : World)
    (es : List (Event AppSig W Env α)) : Prop where
  rotates : ∀ e ∈ es, e.op.rotates e.reply = true
  once : (grantedTokens es).Nodup
  new : ∀ rt ∈ grantedTokens es, ∀ id, storedRefreshToken aead key w.db id ≠ some rt
  apart : ∀ id id' rt, storedRefreshToken aead key w.db id = some rt →
    storedRefreshToken aead key w.db id' = some rt → id = id'

/-- Where the refresh tokens of the events so far come from; `acc` is the account of a call. -/
structure Lineage {W : Type} (aead : Aead) (key : Key) (w : World) (acc : ℕ → String)
    (past : List (Event AppSig W Env α)) (γ : ℕ → String × Turn) : Prop where
  presented : ∀ f ∈ past, ∀ rt, f.op = .token (.refresh rt) →
    storedRefreshToken aead key w.db (acc f.thread) = some rt ∨
      rt ∈ savedTokens (acc f.thread) past
  held : ∀ j rt, (γ j).2 = .granted rt →
    ∃ g ∈ past, g.thread = j ∧ g.op.grants g.reply = some rt
  saved : ∀ id, ∀ rt ∈ savedTokens id past,
    ∃ g ∈ past, acc g.thread = id ∧ g.op.grants g.reply = some rt
  fresh : ∀ j rt, (γ j).2 = .granted rt → ∀ f ∈ past, acc f.thread = acc j →
    f.op ≠ .token (.refresh rt)
  spent : ∀ before f mid rt, past = before ++ f :: mid → f.op = .token (.refresh rt) →
    savedTokens (acc f.thread) mid ≠ [] → (savedTokens (acc f.thread) past).getLast? ≠ some rt

section Lineage

variable {W : Type} {w : World} {acc : ℕ → String} {past : List (Event AppSig W Env α)}
  {e : Event AppSig W Env α} {γ : ℕ → String × Turn} {t : Turn} {id id' rt : String} {o : Op}
  {r : Op.Reply o}

theorem grantedTokens_snoc (past : List (Event AppSig W Env α)) (e : Event AppSig W Env α) :
    grantedTokens (past ++ [e]) = grantedTokens past ++ (e.op.grants e.reply).toList :=
  filterMap_snoc ..

theorem SingleUse.of_append {es : List (Event AppSig W Env α)}
    (h : SingleUse aead key w (past ++ es)) : SingleUse aead key w past := by
  have happend : grantedTokens (past ++ es) = grantedTokens past ++ grantedTokens es :=
    List.filterMap_append
  refine ⟨fun e he => h.rotates e (List.mem_append_left _ he), ?_, fun rt hrt => ?_, h.apart⟩
  · exact (List.nodup_append'.mp (happend ▸ h.once)).1
  · exact h.new rt (happend ▸ List.mem_append_left _ hrt)

/-- One refresh token is granted to one call. -/
theorem SingleUse.thread_eq (h : SingleUse aead key w past) {g g' : Event AppSig W Env α}
    (hg : g ∈ past) (hg' : g' ∈ past) (hgrants : g.op.grants g.reply = some rt)
    (hgrants' : g'.op.grants g'.reply = some rt) : g.thread = g'.thread := by
  have hpairwise := List.pairwise_filterMap.mp h.once
  obtain ⟨before, after, rfl⟩ := List.append_of_mem hg
  obtain ⟨_, hafter, hbefore⟩ := List.pairwise_append.mp hpairwise
  rcases List.mem_append.mp hg' with hg' | hg'
  · exact absurd rfl (hbefore g' hg' g List.mem_cons_self rt hgrants' rt hgrants)
  rcases List.mem_cons.mp hg' with rfl | hg'
  · rfl
  · exact absurd rfl ((List.pairwise_cons.mp hafter).1 g' hg' rt hgrants rt hgrants')

/-- Only a step that grants a refresh token makes a refresh hold another one to write. -/
theorem Turn.Allows.next_granted (ho : t.Allows id o) (hrotates : o.rotates r = true)
    (h : t.next o r = .granted rt) :
    t = .granted rt ∧ o = .utcNow ∨ o.isToken = true ∧ o.grants r = some rt := by
  cases ho with
  | clock =>
    rw [Turn.next_utcNow] at h
    exact Or.inl ⟨h, rfl⟩
  | present rt₀ =>
    cases r with
    | ok response =>
      obtain ⟨new, hnew⟩ := Option.isSome_iff_exists.mp hrotates
      have hgranted := Turn.granted.inj h
      rw [hnew, Option.getD_some] at hgranted
      exact Or.inr ⟨rfl, hnew.trans (congrArg some hgranted)⟩
    | error => cases h
  | lock => cases h
  | acquire => cases h
  | get => rcases r with e | _ | token <;> cases h
  | store => cases r <;> cases h
  | release =>
    rw [Turn.next_release] at h
    cases h

theorem Turn.Allows.of_saves (ho : t.Allows id o) (h : o.saves id' r = some rt) :
    id = id' ∧ t = .granted rt ∧ o.isToken = false := by
  cases ho with
  | store token =>
    cases r with
    | ok _ =>
      obtain ⟨hid, hrt⟩ := Option.ite_none_right_eq_some.mp h
      exact ⟨hid, congrArg Turn.granted (Option.some.inj hrt), rfl⟩
    | error => cases h
  | _ => cases h

theorem mem_savedTokens_snoc (h : rt ∈ savedTokens id past) : rt ∈ savedTokens id (past ++ [e]) := by
  rw [savedTokens_snoc]
  exact List.mem_append_left _ h

/-- What a refresh presents was stored at first or by an earlier refresh. -/
theorem stored_or_saved (h : leftBehind aead key w past id = some rt) :
    storedRefreshToken aead key w.db id = some rt ∨ rt ∈ savedTokens id past := by
  rcases Option.or_eq_some_iff.mp h with hlast | ⟨_, hstored⟩
  · exact Or.inr (List.mem_of_getLast? hlast)
  · exact Or.inl hstored

namespace Lineage

variable (h : Lineage aead key w acc past γ) (hsingle : SingleUse aead key w past)
include h hsingle

/-- A refresh token belongs to one account. -/
theorem account_eq
    (hid : storedRefreshToken aead key w.db id = some rt ∨ rt ∈ savedTokens id past)
    (hid' : storedRefreshToken aead key w.db id' = some rt ∨ rt ∈ savedTokens id' past) :
    id = id' := by
  have hgranted : ∀ {id}, rt ∈ savedTokens id past → rt ∈ grantedTokens past := by
    intro id hsaved
    obtain ⟨g, hg, _, hgrants⟩ := h.saved id rt hsaved
    exact List.mem_filterMap.mpr ⟨g, hg, hgrants⟩
  rcases hid with hid | hid <;> rcases hid' with hid' | hid'
  · exact hsingle.apart id id' rt hid hid'
  · exact absurd hid (hsingle.new rt (hgranted hid') id)
  · exact absurd hid' (hsingle.new rt (hgranted hid) id')
  · obtain ⟨g, hg, haccount, hgrants⟩ := h.saved id rt hid
    obtain ⟨g', hg', haccount', hgrants'⟩ := h.saved id' rt hid'
    rw [← haccount, ← haccount', hsingle.thread_eq hg hg' hgrants hgrants']

end Lineage

end Lineage

section Step

variable {ids : List String} {w d : World} {acc : ℕ → String}
  {past : List (Event AppSig (World × P) Env α)} {e : Event AppSig (World × P) Env α}
  {γ : ℕ → String × Turn} (hinv : TurnInv aead key ids w past d γ) (hacc : ∀ i, (γ i).1 = acc i)
  (ho : turnMonitor.allows (γ e.thread) e.op) (h : Lineage aead key w acc past γ)
  (hsingle : SingleUse aead key w (past ++ [e]))

include hinv hacc ho h in
theorem presented_step : ∀ f ∈ past ++ [e], ∀ rt, f.op = .token (.refresh rt) →
    storedRefreshToken aead key w.db (acc f.thread) = some rt ∨
      rt ∈ savedTokens (acc f.thread) (past ++ [e]) := by
  intro f hf rt hop
  rcases List.mem_append.mp hf with hf | hf
  · exact (h.presented f hf rt hop).imp_right mem_savedTokens_snoc
  · obtain rfl := List.mem_singleton.mp hf
    obtain ⟨rt', heq, _, hleft⟩ := request_at hinv ho hop
    obtain rfl : rt = rt' := TokenRequest.refresh.inj heq
    rw [hacc] at hleft
    exact (stored_or_saved hleft).imp_right mem_savedTokens_snoc

include ho h hsingle in
theorem held_step : ∀ j rt,
    (Function.update γ e.thread (turnMonitor.next (γ e.thread) e.op e.reply) j).2 = .granted rt →
      ∃ g ∈ past ++ [e], g.thread = j ∧ g.op.grants g.reply = some rt := by
  intro j rt hgranted
  have hpast : (γ j).2 = .granted rt →
      ∃ g ∈ past ++ [e], g.thread = j ∧ g.op.grants g.reply = some rt := by
    intro hheld
    obtain ⟨g, hg, hrest⟩ := h.held j rt hheld
    exact ⟨g, List.mem_append_left _ hg, hrest⟩
  by_cases hj : j = e.thread
  · subst hj
    rw [Function.update_self] at hgranted
    have hallows : (γ e.thread).2.Allows (γ e.thread).1 e.op := ho
    have hrotates := hsingle.rotates e (by simp)
    rcases hallows.next_granted hrotates hgranted with ⟨hheld, _⟩ | ⟨_, hgrants⟩
    · exact hpast hheld
    · exact ⟨e, by simp, rfl, hgrants⟩
  · rw [Function.update_of_ne hj] at hgranted
    exact hpast hgranted

include hacc ho h in
theorem saved_step : ∀ id, ∀ rt ∈ savedTokens id (past ++ [e]),
    ∃ g ∈ past ++ [e], acc g.thread = id ∧ g.op.grants g.reply = some rt := by
  intro id rt hrt
  rw [savedTokens_snoc] at hrt
  rcases List.mem_append.mp hrt with hrt | hrt
  · obtain ⟨g, hg, hrest⟩ := h.saved id rt hrt
    exact ⟨g, List.mem_append_left _ hg, hrest⟩
  · have hallows : (γ e.thread).2.Allows (γ e.thread).1 e.op := ho
    obtain ⟨hid, hheld, _⟩ := hallows.of_saves (Option.mem_toList.mp hrt)
    obtain ⟨g, hg, hthread, hgrants⟩ := h.held e.thread rt hheld
    refine ⟨g, List.mem_append_left _ hg, ?_, hgrants⟩
    rw [hthread, ← hacc, hid]

include hinv hacc ho h hsingle in
theorem fresh_step : ∀ j rt,
    (Function.update γ e.thread (turnMonitor.next (γ e.thread) e.op e.reply) j).2 = .granted rt →
      ∀ f ∈ past ++ [e], acc f.thread = acc j → f.op ≠ .token (.refresh rt) := by
  intro j rt hgranted f hf haccount hop
  have hallows : (γ e.thread).2.Allows (γ e.thread).1 e.op := ho
  by_cases hj : j = e.thread
  · subst hj
    rw [Function.update_self] at hgranted
    rcases hallows.next_granted (hsingle.rotates e (by simp)) hgranted with
      ⟨hheld, hclock⟩ | ⟨htoken, hgrants⟩
    · rcases List.mem_append.mp hf with hf | hf
      · exact h.fresh e.thread rt hheld f hf haccount hop
      · obtain rfl := List.mem_singleton.mp hf
        cases hclock.symm.trans hop
    · -- The grant is new, so nobody has presented it.
      have hgranted : rt ∈ grantedTokens (past ++ [e]) :=
        List.mem_filterMap.mpr ⟨e, by simp, hgrants⟩
      rcases presented_step hinv hacc ho h f hf rt hop with hstored | hsaved
      · exact hsingle.new rt hgranted _ hstored
      · have hnone : e.op.saves (acc f.thread) e.reply = none := by
          by_contra hne
          obtain ⟨rt', hsaves⟩ := Option.ne_none_iff_exists'.mp hne
          exact absurd ((hallows.of_saves hsaves).2.2.symm.trans htoken) Bool.false_ne_true
        rw [savedTokens_snoc, hnone, Option.toList_none, List.append_nil] at hsaved
        obtain ⟨g, hg, _, hgrants'⟩ := h.saved _ rt hsaved
        have honce := hsingle.once
        rw [grantedTokens_snoc, hgrants, Option.toList_some] at honce
        have hdisjoint := (List.nodup_append'.mp honce).2.2
        exact hdisjoint (List.mem_filterMap.mpr ⟨g, hg, hgrants'⟩) List.mem_cons_self
  · rw [Function.update_of_ne hj] at hgranted
    rcases List.mem_append.mp hf with hf | hf
    · exact h.fresh j rt hgranted f hf haccount hop
    · -- Both calls would hold the mutex.
      obtain rfl := List.mem_singleton.mp hf
      obtain ⟨_, _, hread, _⟩ := request_at hinv ho hop
      have hheld := (hinv.guarded f.thread).holds (by rw [hread]; rfl)
      have hheld' := (hinv.guarded j).holds (by rw [hgranted]; rfl)
      rw [hacc, haccount, ← hacc] at hheld
      exact hj (Option.some.inj (Option.some.inj (hheld'.symm.trans hheld)))

include hacc ho h in
theorem spent_step : ∀ before f mid rt, past ++ [e] = before ++ f :: mid →
    f.op = .token (.refresh rt) → savedTokens (acc f.thread) mid ≠ [] →
      (savedTokens (acc f.thread) (past ++ [e])).getLast? ≠ some rt := by
  intro before f mid rt hsplit hop hmid hlast
  rcases List.eq_nil_or_concat' mid with rfl | ⟨mid, e', rfl⟩
  · exact hmid rfl
  rw [← List.cons_append, ← List.append_assoc] at hsplit
  obtain ⟨hpast, heq⟩ := List.append_inj' hsplit rfl
  obtain rfl : e = e' := List.singleton_inj.mp heq
  have hallows : (γ e.thread).2.Allows (γ e.thread).1 e.op := ho
  rw [savedTokens_snoc] at hlast hmid
  cases hsaves : e.op.saves (acc f.thread) e.reply with
  | none =>
    rw [hsaves, Option.toList_none, List.append_nil] at hlast hmid
    exact h.spent before f mid rt hpast hop hmid hlast
  | some rt' =>
    rw [hsaves, Option.toList_some, List.getLast?_concat] at hlast
    obtain ⟨haccount, hheld, _⟩ := hallows.of_saves hsaves
    rw [Option.some.inj hlast] at hheld
    refine h.fresh e.thread rt hheld f ?_ ?_ hop
    · rw [hpast]
      simp
    · rw [← haccount, hacc]

include hinv hacc ho h hsingle in
theorem lineage_step : Lineage aead key w acc (past ++ [e])
    (Function.update γ e.thread (turnMonitor.next (γ e.thread) e.op e.reply)) where
  presented := presented_step hinv hacc ho h
  held := held_step ho h hsingle
  saved := saved_step hacc ho h
  fresh := fresh_step hinv hacc ho h hsingle
  spent := spent_step hacc ho h

end Step

/-! ### The theorem -/

/-- What a run of refreshes amounts to. -/
structure SerialRun (aead : Aead) (chrono : Chrono) (key : Key) (endpoint : TokenEndpoint P)
    (oauth : OAuthClient) (ids : List String) (s : World × P)
    (es : List (Event AppSig (World × P) Env (Outcome Unit)))
    (c' : Cfg AppSig (World × P) (Outcome Unit)) : Prop where
  /-- In some order of the calls, one after the other, every call takes the same steps with the same
  replies, the requests come in the same order, and the end is the same: the results, the database,
  the mutexes and the state of the endpoint. -/
  sequential : ∃ order es', order.Perm (List.range ids.length) ∧
    Sequential (served aead chrono key endpoint) ⟨s, refreshPool oauth ids⟩ order es' c' ∧
    (∀ i, viewsOf i es' = viewsOf i es) ∧ viewsWith Op.isToken es' = viewsWith Op.isToken es
  /-- A refresh is successful if it has stored its token. -/
  successful : ∀ i id r, ids[i]? = some id → c'.returned[i]? = some (some r) →
    (r.isOk = true ↔ ∃ e ∈ es, e.thread = i ∧ e.op.saves id e.reply ≠ none)
  /-- Every request presents what the last successful refresh of the account left. -/
  presented : ∀ past e post request, es = past ++ e :: post → e.op = .token request →
    ∃ id rt, ids[e.thread]? = some id ∧ request = .refresh rt ∧
      leftBehind aead key s.1 past id = some rt
  /-- A refresh token for one use is not presented again after a success. -/
  once : SingleUse aead key s.1 es → ∀ before f mid e post rt,
    es = before ++ f :: mid ++ e :: post → f.op = .token (.refresh rt) →
      e.op = .token (.refresh rt) →
        ∃ id, ids[f.thread]? = some id ∧ ids[e.thread]? = some id ∧ savedTokens id mid = []

section Theorem

variable {ids : List String} {s : World × P}
  {es : List (Event AppSig (World × P) Env (Outcome Unit))}
  {c' : Cfg AppSig (World × P) (Outcome Unit)}

theorem lineage_run
    (h : (served aead chrono key endpoint).Run ⟨s, refreshPool oauth ids⟩ es c')
    (hsingle : SingleUse aead key s.1 es) :
    Lineage aead key s.1 (fun i => (ids[i]?).getD "") es (ghosts turnMonitor (firstTurns ids) es) := by
  have h0 : Lineage aead key s.1 (fun i => (ids[i]?).getD "")
      ([] : List (Event AppSig (World × P) Env (Outcome Unit))) (firstTurns ids) := by
    refine ⟨fun _ hf => ?_, fun _ _ hgranted => ?_, fun _ _ hrt => ?_, fun _ _ hgranted => ?_, ?_⟩
    · exact absurd hf List.not_mem_nil
    · cases hgranted
    · exact absurd hrt List.not_mem_nil
    · cases hgranted
    · intro before f mid rt hsplit
      simp at hsplit
  have hrun := h.follows (I := fun past d γ => TurnInv aead key ids s.1 past d.world.1 γ ∧
    Lineage aead key s.1 (fun i => (ids[i]?).getD "") past γ) ⟨turnInv_first ids s.1, h0⟩
    (pool_follows oauth ids) (by
      rintro past e post hes hstep _ ⟨hinv, hlineage⟩ ho
      have hsofar : es = past ++ [e] ++ post := by simp [hes]
      rw [ghosts_snoc]
      refine ⟨trivial, turnInv_step hinv ho hstep, ?_⟩
      exact lineage_step hinv hinv.account ho hlineage (hsofar ▸ hsingle).of_append)
  exact hrun.1.2

/-- **Concurrent refreshes serialize**, in every run of any refreshes, whatever the endpoint does. -/
theorem refreshes_serialize
    (h : (served aead chrono key endpoint).Run ⟨s, refreshPool oauth ids⟩ es c') :
    SerialRun aead chrono key endpoint oauth ids s es c' where
  sequential := exists_sequential h
  successful i id r hid hreturned := by
    obtain ⟨hinv, hpool⟩ := turnInv_run h
    have hdone := hpool i _ (Cfg.returned_eq_some.mp hreturned)
    have hsaved := hinv.saved i
    rw [hdone, hinv.account, hid] at hsaved
    exact hsaved
  presented := by
    rintro past e post request rfl hop
    obtain ⟨hinv, ho⟩ := turnInv_at h
    obtain ⟨rt, hrequest, _, hleft⟩ := request_at hinv ho hop
    exact ⟨_, rt, account_at h, hrequest, hleft⟩
  once := by
    rintro hsingle before f mid e post rt rfl hop hop'
    obtain ⟨hinv, ho⟩ := turnInv_at h
    have hsofar := hsingle.of_append
    have hlineage := lineage_run h.split.1 hsofar
    obtain ⟨rt', heq, _, hleft⟩ := request_at hinv ho hop'
    obtain rfl : rt = rt' := TokenRequest.refresh.inj heq
    rw [hinv.account] at hleft
    -- The two requests are about one account.
    have haccount : (ids[f.thread]?).getD "" = (ids[e.thread]?).getD "" :=
      hlineage.account_eq hsofar (hlineage.presented f (by simp) rt hop) (stored_or_saved hleft)
    rw [← haccount] at hleft
    have he := account_at h
    rw [List.append_assoc, List.cons_append] at h
    have hf := account_at h
    rw [hf, he, Option.getD_some, Option.getD_some] at haccount
    refine ⟨_, hf, haccount ▸ he, ?_⟩
    -- What was stored in between would have been presented.
    rw [hf, Option.getD_some] at hleft
    by_contra hmid
    have hspent := hlineage.spent before f mid rt rfl hop
    simp only [hf, Option.getD_some] at hspent
    rcases Option.or_eq_some_iff.mp hleft with hlast | ⟨hnone, _⟩
    · exact hspent hmid hlast
    · refine hmid (List.eq_nil_iff_forall_not_mem.mpr fun x hx => ?_)
      obtain ⟨g, hg, hsaves⟩ := List.mem_filterMap.mp hx
      have hmem : x ∈ savedTokens _ (before ++ f :: mid) :=
        List.mem_filterMap.mpr ⟨g, by simp [hg], hsaves⟩
      rw [List.getLast?_eq_none_iff.mp hnone] at hmem
      exact List.not_mem_nil hmem

end Theorem

/-- An endpoint that accepts the first token of its list, once, and grants the next one. -/
def rotating : TokenEndpoint (List String) where
  respond _ request tokens := match request, tokens with
    | .refresh rt, valid :: new :: rest =>
      if rt = valid then (.ok ⟨"at-1", some new, none, none⟩, new :: rest)
      else (.error "invalid_grant", tokens)
    | _, _ => (.error "invalid_grant", tokens)

theorem stored_connected {expiry : Int} {id rt : String}
    (h : storedRefreshToken .tagged sampleKey (connected expiry).db id = some rt) :
    id = "acc-1" ∧ rt = "rt-0" := by
  obtain ⟨row, hrow, hrt⟩ := Option.bind_eq_some_iff.mp h
  obtain ⟨hmem, rfl⟩ := Relational.Table.find_eq_some.mp hrow
  obtain rfl := List.mem_singleton.mp hmem
  have hstored := refreshToken_of_toToken (toToken_toRow .tagged (.ofTable firstDay) sampleKey "acc-1"
    (Vector.replicate NONCE_LEN 0, Vector.replicate NONCE_LEN 0)
    ⟨"at-0", "rt-0", none, some (Duration.hours expiry), none, 0⟩ 0)
  exact ⟨rfl, Option.some.inj (hrt.symm.trans hstored)⟩

abbrev rotatingSystem : Machine AppSig (World × List String) Env :=
  served .tagged (.ofTable firstDay) sampleKey rotating

/-- Two refreshes of one account, and one of an account without a token. -/
def threeRefreshes : Cfg AppSig (World × List String) (Outcome Unit) :=
  ⟨(connected 9, ["rt-0", "rt-1", "rt-2"]), refreshPool sampleOauth ["acc-1", "acc-2", "acc-1"]⟩

/-- The calls take turns. -/
def takingTurns : List (ℕ × Env) :=
  [0, 2, 1, 0, 0, 1, 0, 1, 0, 0, 1, 0, 0, 2, 2, 2, 2, 2, 2, 2].map fun i =>
    (i, Env.calm 1 (.error ""))

theorem threeRefreshes_run : (rotatingSystem.replay threeRefreshes takingTurns).isSome = true := by
  decide +kernel

theorem refreshes_serialize_rotating : ∃ es c', rotatingSystem.Run threeRefreshes es c' ∧
    c'.returned = [some (.ok ()), some (.error (.err notConnected)), some (.ok ())] ∧
    c'.world.2 = ["rt-2"] ∧ SingleUse .tagged sampleKey threeRefreshes.world.1 es ∧
    SerialRun .tagged (.ofTable firstDay) sampleKey rotating sampleOauth ["acc-1", "acc-2", "acc-1"]
      threeRefreshes.world es c' := by
  have hrun := run_replay threeRefreshes takingTurns threeRefreshes_run
  refine ⟨_, _, hrun, by decide +kernel, by decide +kernel, ?_, refreshes_serialize hrun⟩
  refine ⟨by decide +kernel, by decide +kernel, fun rt hrt id hstored => ?_, ?_⟩
  · obtain ⟨_, rfl⟩ := stored_connected hstored
    exact absurd hrt (by decide +kernel)
  · intro id id' rt hid hid'
    rw [(stored_connected hid).1, (stored_connected hid').1]

end UniMail
