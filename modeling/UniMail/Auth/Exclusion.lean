import UniMail.Auth.Rotation
import UniMail.Lib.Commute

/-!
# The refresh mutex

Any number of refreshes of any accounts run concurrently against a token endpoint with a state
(`served`). The world falls into regions (`Region`): the mutex of each account, its token row, the
state of the endpoint, what a refresh leaves alone. Operations on different regions commute
(`footprints`).

The ghost state of a refresh is its account and how far it is (`Turn`). `Turn.Guard` says what it finds
in the world then; above all, that it holds the mutex from `acquire` to `release`. So two refreshes
are not at one region next to each other (`exchange_exec`), unless both send a request to the endpoint,
or one releases a mutex and the other takes it (`Op.Conflicts`).
-/

namespace UniMail

open Interaction Relational

/-! ### A token endpoint with a state -/

/-- A token endpoint: its answer to a request and its next state. -/
structure TokenEndpoint (P : Type) where
  respond : Env → TokenRequest → P → Except String TokenResponse × P

section Served

variable {P : Type} (aead : Aead) (chrono : Chrono) (key : Key) (endpoint : TokenEndpoint P)

/-- The system where the endpoint answers the token requests. -/
def served : Machine AppSig (World × P) Env where
  exec i o env s := match o with
    | .token request =>
      let answer := endpoint.respond env request s.2
      some (answer.1, s.1, answer.2)
    | o => ((system aead chrono key).exec i o env s.1).map fun result => (result.1, result.2, s.2)

variable {aead chrono key endpoint} {i : ℕ} {env : Env} {s s' : World × P}

theorem served_token {request : TokenRequest} {r : Except String TokenResponse}
    (h : (served aead chrono key endpoint).exec i (.token request) env s = some (r, s')) :
    s'.1 = s.1 ∧ r = (endpoint.respond env request s.2).1 ∧
      s'.2 = (endpoint.respond env request s.2).2 := by
  cases h
  exact ⟨rfl, rfl, rfl⟩

/-- Every other operation is the one of the system. -/
theorem served_iff {o : Op} {r : Op.Reply o} (ho : ∀ request, o ≠ .token request) :
    (served aead chrono key endpoint).exec i o env s = some (r, s') ↔
      (system aead chrono key).exec i o env s.1 = some (r, s'.1) ∧ s'.2 = s.2 := by
  have hexec : (served aead chrono key endpoint).exec i o env s =
      ((system aead chrono key).exec i o env s.1).map fun result => (result.1, result.2, s.2) := by
    cases o with
    | token request => exact absurd rfl (ho request)
    | _ => rfl
  rw [hexec, Option.map_eq_some_iff]
  constructor
  · rintro ⟨_, hsystem, heq⟩
    cases heq
    exact ⟨hsystem, rfl⟩
  · rintro ⟨hsystem, hstate⟩
    exact ⟨_, hsystem, congrArg (fun p => (r, s'.1, p)) hstate.symm⟩

end Served

/-! ### The regions of the world -/

/-- The mutex of an account, its token row, the rest of the database, the endpoint, the clock as a
call reads it. -/
inductive Region
  | lock (accountId : String)
  | row (accountId : String)
  | rest
  | endpoint
  | clock (i : ℕ)
  deriving DecidableEq

/-- What is in a region. The rest of the database has the order of the token rows. -/
abbrev Region.Value (P : Type) : Region → Type
  | .lock _ => Option (Option ℕ)
  | .row _ => Option TokenRow
  | .rest => Table String AccountRow AccountRow.id × FlowTable × List String
  | .endpoint => P
  | .clock _ => Unit

def region {P : Type} : (k : Region) → World × P → k.Value P
  | .lock id, s => s.1.locks id
  | .row id, s => s.1.db.tokens.find id
  | .rest, s => (s.1.db.accounts, s.1.db.oauthFlows, s.1.db.tokens.rows.map TokenRow.accountId)
  | .endpoint, s => s.2
  | .clock _, _ => ()

/-- The region an operation of a refresh is about. -/
def Op.region (i : ℕ) : Op → Region
  | .accountLock id => .lock id
  | .acquire id => .lock id
  | .release id => .lock id
  | .tokensGet id => .row id
  | .tokensUpsert id _ => .row id
  | .token _ => .endpoint
  | .utcNow => .clock i
  | _ => .rest

/-- An operation of a refresh; it writes an account's row only where there is one. -/
def Op.Refreshes {P : Type} : Op → World × P → Prop
  | .tokensUpsert id _, s => s.1.db.tokens.find id ≠ none
  | .accountLock _, _ => True
  | .acquire _, _ => True
  | .release _, _ => True
  | .tokensGet _, _ => True
  | .token _, _ => True
  | .utcNow, _ => True
  | _, _ => False

section Regions

variable {P : Type} {aead : Aead} {chrono : Chrono} {key : Key} {endpoint : TokenEndpoint P}
  {i : ℕ} {env : Env} {s s' : World × P}

theorem region_ext (h : ∀ k, region k s = region k s') : s = s' := by
  have hrest := h .rest
  simp only [region, Prod.mk.injEq] at hrest
  obtain ⟨haccounts, hflows, hkeys⟩ := hrest
  have htokens := Table.ext_find hkeys fun id => h (.row id)
  have hdb := Db.ext haccounts htokens hflows
  have hlocks : s.1.locks = s'.1.locks := funext fun id => h (.lock id)
  obtain ⟨⟨db, locks⟩, p⟩ := s
  obtain ⟨⟨db', locks'⟩, p'⟩ := s'
  obtain rfl : db = db' := hdb
  obtain rfl : locks = locks' := hlocks
  obtain rfl : p = p' := h .endpoint
  rfl

theorem Op.region_of_lock {o : Op} {id : String} (h : o.lock? = some id) : o.region i = .lock id := by
  cases o with
  | accountLock | acquire | release => exact congrArg Region.lock (Option.some.inj h)
  | _ => simp [Op.lock?] at h

/-- A region other than that of the operation is as before, if the database is. -/
theorem region_frame {o : Op} {r : Op.Reply o} (ho : ∀ request, o ≠ .token request)
    (hdb : s'.1.db = s.1.db)
    (h : (served aead chrono key endpoint).exec i o env s = some (r, s')) {k : Region}
    (hk : k ≠ o.region i) : region k s' = region k s := by
  obtain ⟨hsystem, hstate⟩ := (served_iff ho).mp h
  cases k with
  | lock id => exact locks_frame (fun hlock => hk (Op.region_of_lock hlock).symm) hsystem
  | row id => simp only [region, hdb]
  | rest => simp only [region, hdb]
  | endpoint => exact hstate
  | clock j => rfl

/-- The row that is there is replaced, whatever else is in the database. -/
theorem served_upsert {id : String} {token : StoredToken} (hrow : s.1.db.tokens.find id ≠ none) :
    ∃ r s', (served aead chrono key endpoint).exec i (.tokensUpsert id token) env s = some (r, s') ∧
      s'.1.locks = s.1.locks ∧ s'.2 = s.2 ∧ region .rest s' = region .rest s ∧
      (∀ id', s'.1.db.tokens.find id' = if r = .ok () ∧ id = id'
        then some (token.toRow aead chrono key id env.nonces) else s.1.db.tokens.find id') ∧
      r = (match env.fault with
        | some msg => .error (.storage msg)
        | none => .ok ()) := by
  obtain ⟨ha, hupsert⟩ := SqliteTokenStore.upsert_present aead chrono key hrow token env.nonces
  cases hfault : env.fault with
  | some msg =>
    refine ⟨_, s, (served_iff (by simp)).mpr ⟨?_, rfl⟩, rfl, rfl, rfl, ?_, rfl⟩
    · simp [system, Env.storage, hfault]
    · simp
  | none =>
    refine ⟨.ok (), (⟨SqliteTokenStore.upsertRow s.1.db
      (token.toRow aead chrono key id env.nonces) ha, s.1.locks⟩, s.2),
      (served_iff (by simp)).mpr ⟨?_, rfl⟩, rfl, rfl, ?_, ?_, rfl⟩
    · simp [system, Env.storage, hfault, hupsert]
    · have hkeys := Table.keys_upsert (r := token.toRow aead chrono key id env.nonces) hrow
      exact congrArg (fun keys => (s.1.db.accounts, s.1.db.oauthFlows, keys)) hkeys
    · intro id'
      rw [SqliteTokenStore.find_stored]
      simp

/-- An operation of a refresh leaves the other regions as they are. -/
theorem served_frame {o : Op} {r : Op.Reply o} (hpre : o.Refreshes s)
    (h : (served aead chrono key endpoint).exec i o env s = some (r, s')) {k : Region}
    (hk : k ≠ o.region i) : region k s' = region k s := by
  cases o with
  | token request =>
    obtain ⟨hworld, _, _⟩ := served_token h
    cases k with
    | endpoint => exact absurd rfl hk
    | clock j => rfl
    | _ => simp only [region, hworld]
  | tokensUpsert id token =>
    obtain ⟨r', s'', hexec, hlocks, hstate, hrest, hrows, _⟩ := served_upsert hpre
    obtain ⟨rfl, rfl⟩ := Prod.mk.inj (Option.some.inj (hexec.symm.trans h))
    cases k with
    | lock id' => exact congrFun hlocks id'
    | row id' =>
      have hne : id ≠ id' := fun heq => hk (congrArg Region.row heq.symm)
      exact (hrows id').trans (if_neg fun hboth => hne hboth.2)
    | rest => exact hrest
    | endpoint => exact hstate
    | clock j => rfl
  | accountLock | acquire | release | tokensGet | utcNow =>
    exact region_frame (by simp) (db_frame rfl ((served_iff (by simp)).mp h).1) h hk
  | _ => exact hpre.elim

/-- What an operation of a refresh does to its region, and its reply, depend on that region only. -/
theorem served_same {o : Op} {r : Op.Reply o} {v : World × P} (hpre : o.Refreshes s)
    (h : (served aead chrono key endpoint).exec i o env s = some (r, s'))
    (hregion : region (o.region i) v = region (o.region i) s) :
    o.Refreshes v ∧ ∃ v', (served aead chrono key endpoint).exec i o env v = some (r, v') ∧
      region (o.region i) v' = region (o.region i) s' := by
  cases o with
  | token request =>
    have hstate : v.2 = s.2 := hregion
    obtain ⟨hworld, rfl, hnext⟩ := served_token h
    refine ⟨trivial, (v.1, (endpoint.respond env request v.2).2), ?_, ?_⟩
    · simp only [served, hstate]
    · simp only [Op.region, region, hnext, hstate]
  | tokensUpsert id token =>
    have hrow : v.1.db.tokens.find id = s.1.db.tokens.find id := hregion
    obtain ⟨r', s'', hexec, _, _, _, hrows, hr⟩ := served_upsert hpre
    obtain ⟨rfl, rfl⟩ := Prod.mk.inj (Option.some.inj (hexec.symm.trans h))
    have hpre' : v.1.db.tokens.find id ≠ none := hrow ▸ hpre
    obtain ⟨r', v', hexec', _, _, _, hrows', hr'⟩ :=
      @served_upsert P aead chrono key endpoint i env v id token hpre'
    obtain rfl : r' = _ := hr'.trans hr.symm
    refine ⟨hpre', v', hexec', ?_⟩
    simp only [Op.region, region, hrows, hrows', hrow]
  | tokensGet id =>
    have hrow : v.1.db.tokens.find id = s.1.db.tokens.find id := hregion
    obtain ⟨hsystem, _⟩ := (served_iff (by simp)).mp h
    have hdb := db_frame rfl hsystem
    have hget : (SqliteTokenStore.get aead chrono key id env.now v.1.db, v.1.db).1 =
        SqliteTokenStore.get aead chrono key id env.now s.1.db :=
      SqliteTokenStore.get_congr hrow env.now
    obtain ⟨w', hexec, hw'⟩ := storage_lockstep hget (Option.some.inj hsystem)
    have hdb' : w'.db = v.1.db := by rcases hw' with ⟨_, rfl⟩ | ⟨_, rfl⟩ <;> rfl
    refine ⟨trivial, (w', v.2), (served_iff (by simp)).mpr ⟨congrArg some hexec, rfl⟩, ?_⟩
    simp only [Op.region, region, hdb, hdb', hrow]
  | utcNow =>
    obtain ⟨hsystem, _⟩ := (served_iff (by simp)).mp h
    obtain ⟨rfl, _⟩ := utcNow_eq hsystem
    exact ⟨trivial, v, (served_iff (by simp)).mpr ⟨rfl, rfl⟩, rfl⟩
  | accountLock id =>
    have hlock : v.1.locks id = s.1.locks id := hregion
    obtain ⟨hsystem, _⟩ := (served_iff (by simp)).mp h
    have hsome : (system aead chrono key).exec i (.accountLock id) env v.1 ≠ none :=
      exec_ne_none (by simp)
    obtain ⟨⟨⟨⟩, w'⟩, hexec⟩ := Option.ne_none_iff_exists'.mp hsome
    refine ⟨trivial, (w', v.2), (served_iff (by simp)).mpr ⟨hexec, rfl⟩, ?_⟩
    exact (accountLock_eq hexec).2.trans (hlock ▸ (accountLock_eq hsystem).2.symm)
  | acquire id =>
    have hlock : v.1.locks id = s.1.locks id := hregion
    obtain ⟨hsystem, _⟩ := (served_iff (by simp)).mp h
    obtain ⟨hfree, hworld⟩ := acquire_iff.mp hsystem
    refine ⟨trivial, (_, v.2), (served_iff (by simp)).mpr
      ⟨acquire_iff.mpr ⟨hlock.trans hfree, rfl⟩, rfl⟩, ?_⟩
    simp only [Op.region, region, hworld, Function.update_self]
  | release id =>
    obtain ⟨hsystem, _⟩ := (served_iff (by simp)).mp h
    have hworld := (Prod.mk.inj (Option.some.inj hsystem)).2
    refine ⟨trivial, (_, v.2), (served_iff (by simp)).mpr ⟨rfl, rfl⟩, ?_⟩
    simp only [Op.region, region, ← hworld, Function.update_self]
  | _ => exact hpre.elim

theorem footprints (endpoint : TokenEndpoint P) :
    Footprints (served aead chrono key endpoint) region Op.region Op.Refreshes where
  ext _ _ := region_ext
  frame _ _ _ _ _ _ hpre h _ := served_frame hpre h
  same _ _ _ _ _ _ _ := served_same

end Regions

/-! ### How far a refresh is -/

/-- A refresh has not started, has the entry of the mutex, has the mutex, has read a refresh token, has
been granted one to write, is about to release the mutex, has returned. From the write on it knows
whether that succeeded. -/
inductive Turn
  | start
  | waiting
  | holding
  | read (refreshToken : String)
  | granted (refreshToken : String)
  | ending (saved : Bool)
  | done (saved : Bool)

namespace Turn

/-- Where the guard of the mutex can be dropped. -/
def ends : Turn → Bool
  | .read _ => true
  | .granted _ => true
  | .ending _ => true
  | _ => false

/-- The refresh wrote its token. -/
def saved : Turn → Bool
  | .ending saved => saved
  | .done saved => saved
  | _ => false

/-- What a refresh of the account can do next. -/
inductive Allows (accountId : String) : Turn → Op → Prop
  | clock (t : Turn) : Allows accountId t .utcNow
  | lock : Allows accountId .start (.accountLock accountId)
  | acquire : Allows accountId .waiting (.acquire accountId)
  | get : Allows accountId .holding (.tokensGet accountId)
  | present (refreshToken : String) :
    Allows accountId (.read refreshToken) (.token (.refresh refreshToken))
  | store (token : StoredToken) :
    Allows accountId (.granted token.refreshToken) (.tokensUpsert accountId token)
  | release (t : Turn) (h : t.ends = true) : Allows accountId t (.release accountId)

theorem Allows.lock_eq {accountId id : String} {t : Turn} {o : Op} {i : ℕ} (h : Allows accountId t o)
    (hlock : o.region i = .lock id) : id = accountId := by
  cases h with
  | lock => exact (Region.lock.inj hlock).symm
  | acquire => exact (Region.lock.inj hlock).symm
  | release => exact (Region.lock.inj hlock).symm
  | clock | get | present | store => cases hlock

def next : Turn → (o : Op) → Op.Reply o → Turn
  | .start, .accountLock _, _ => .waiting
  | .waiting, .acquire _, _ => .holding
  | .holding, .tokensGet _, .ok (some token) => .read token.refreshToken
  | .holding, .tokensGet _, _ => .ending false
  | .read refreshToken, .token _, .ok response =>
    .granted (response.refreshToken.getD refreshToken)
  | .read _, .token _, .error _ => .ending false
  | .granted _, .tokensUpsert _ _, .ok _ => .ending true
  | .granted _, .tokensUpsert _ _, .error _ => .ending false
  | t, .release _, _ => .done t.saved
  | t, _, _ => t

@[simp] theorem next_utcNow (t : Turn) (r : DateTime) : t.next .utcNow r = t := by
  cases t <;> rfl

@[simp] theorem next_release (t : Turn) (id : String) (r : Unit) :
    t.next (.release id) r = .done t.saved := by
  cases t <;> rfl

end Turn

/-- The ghost state of a refresh: its account, and how far it is. -/
def turnMonitor : Monitor AppSig (String × Turn) where
  allows g o := g.2.Allows g.1 o
  expects _ _ _ := True
  next g o r := (g.1, g.2.next o r)

section Walk

variable {oauth : OAuthClient} {accountId : String} {α : Type}

theorem turn_clock : turnMonitor.Silent .utcNow :=
  fun g => ⟨.clock g.2, fun r => Prod.ext rfl (Turn.next_utcNow g.2 r)⟩

/-- The refresh can release the mutex; it has succeeded where it has written its token. -/
def Stops (accountId : String) (g : String × Turn) (r : Outcome α) : Prop :=
  g.1 = accountId ∧ g.2.ends = true ∧ g.2.saved = r.isOk

theorem turn_refreshLocked :
    Follows turnMonitor (Stops accountId) (accountId, .holding)
      (TokenManager.refreshLocked oauth accountId).run := by
  unfold TokenManager.refreshLocked
  refine follows_op .get fun r _ => follows_check_bind (fun current hr => ?_) fun e hr => ?_
  · subst hr
    cases current with
    | none => exact ⟨rfl, rfl, rfl⟩
    | some current =>
      refine (follows_run_bind _ _ _).mpr (follows_requestTokens turn_clock
        (.present current.refreshToken) (fun _ => ⟨rfl, rfl, rfl⟩) (fun _ _ => ⟨rfl, rfl, rfl⟩)
        fun response _ => ⟨fun tokenSet _ htokens => ?_, fun _ => ⟨rfl, rfl, rfl⟩⟩)
      refine follows_op_silent (turn_clock _) fun _ _ =>
        follows_op_silent (turn_clock _) fun _ _ => ?_
      rw [htokens]
      refine follows_op (.store (storedToken tokenSet _ _ _)) fun r _ => ?_
      cases r <;> exact ⟨rfl, rfl, rfl⟩
  · subst hr
    exact ⟨rfl, rfl, rfl⟩

/-- **The protocol of a refresh.** -/
theorem turn_refreshAccount :
    Follows turnMonitor (fun g r => g = (accountId, .done r.isOk)) (accountId, .start)
      (TokenManager.refreshAccount oauth accountId).run := by
  unfold TokenManager.refreshAccount
  refine follows_op .lock fun _ _ => follows_op .acquire fun _ _ => ?_
  refine (follows_bind _ _ _).mpr (follows_mono ?_ turn_refreshLocked)
  rintro ⟨_, t⟩ r ⟨rfl, hends, hsaved⟩
  refine ⟨.release t hends, fun _ _ => ?_⟩
  exact Prod.ext rfl ((Turn.next_release t _ _).trans (congrArg Turn.done hsaved))

end Walk

/-! ### Exclusion -/

/-- What a refresh of the account by call `i` finds in the world. -/
def Turn.Guard (aead : Aead) (key : Key) (w : World) (i : ℕ) (id : String) : Turn → Prop
  | .start => True
  | .waiting => w.locks id ≠ none
  | .holding => w.locks id = some (some i)
  | .read rt => w.locks id = some (some i) ∧ storedRefreshToken aead key w.db id = some rt
  | .granted _ => w.locks id = some (some i) ∧ w.db.tokens.find id ≠ none
  | .ending _ => w.locks id = some (some i)
  | .done _ => True

section Exclusion

variable {P : Type} {aead : Aead} {chrono : Chrono} {key : Key} {endpoint : TokenEndpoint P}
  {i j : ℕ} {env : Env} {s s' : World × P} {w w' : World} {o : Op} {r : Op.Reply o} {t t' : Turn}
  {id id' : String}

/-- Where the mutex can be released, it is held. -/
theorem Turn.Guard.holds (h : t.Guard aead key w i id) (hends : t.ends = true) :
    w.locks id = some (some i) := by
  cases t with
  | read => exact h.1
  | granted => exact h.1
  | ending => exact h
  | start | waiting | holding | done => cases hends

theorem find_of_stored {db : Db} {rt : String} (h : storedRefreshToken aead key db id = some rt) :
    db.tokens.find id ≠ none := by
  obtain ⟨row, hrow, _⟩ := Option.bind_eq_some_iff.mp h
  exact Option.ne_none_iff_exists'.mpr ⟨row, hrow⟩

/-- It is kept as long as the entry of the mutex is, and while the mutex is held, the row. -/
theorem Turn.Guard.mono (h : t.Guard aead key w i id) (hentry : w.locks id ≠ none → w'.locks id ≠ none)
    (hheld : w.locks id = some (some i) →
      w'.locks id = some (some i) ∧ w'.db.tokens.find id = w.db.tokens.find id) :
    t.Guard aead key w' i id := by
  cases t with
  | start => trivial
  | waiting => exact hentry h
  | holding => exact (hheld h).1
  | read rt =>
    obtain ⟨hlocks, hrow⟩ := hheld h.1
    exact ⟨hlocks, (congrArg (Option.bind · _) hrow).trans h.2⟩
  | granted rt =>
    obtain ⟨hlocks, hrow⟩ := hheld h.1
    exact ⟨hlocks, fun hnone => h.2 (hrow.symm.trans hnone)⟩
  | ending saved => exact (hheld h).1
  | done saved => trivial

theorem Turn.Guard.refreshes (h : t.Guard aead key s.1 i id) (ho : t.Allows id o) :
    o.Refreshes s := by
  cases ho with
  | store token => exact h.2
  | _ => trivial

/-- The call that steps. -/
theorem Turn.Guard.own (h : t.Guard aead key s.1 i id) (ho : t.Allows id o)
    (hexec : (served aead chrono key endpoint).exec i o env s = some (r, s')) :
    (t.next o r).Guard aead key s'.1 i id := by
  cases ho with
  | clock =>
    obtain ⟨hsystem, _⟩ := (served_iff (by simp)).mp hexec
    rw [Turn.next_utcNow, (utcNow_eq hsystem).2]
    exact h
  | lock =>
    obtain ⟨hsystem, _⟩ := (served_iff (by simp)).mp hexec
    exact fun hnone => Option.some_ne_none _ ((accountLock_eq hsystem).2.symm.trans hnone)
  | acquire =>
    obtain ⟨hsystem, _⟩ := (served_iff (by simp)).mp hexec
    obtain ⟨_, hworld⟩ := acquire_iff.mp hsystem
    rw [hworld]
    exact Function.update_self ..
  | get =>
    obtain ⟨hsystem, _⟩ := (served_iff (by simp)).mp hexec
    have hworld : s'.1 = s.1 := storage_read (Option.some.inj hsystem)
    rw [hworld]
    rcases r with e | _ | token
    · exact h
    · exact h
    · exact ⟨h, storedRefreshToken_of_get (tokensGet_some hsystem).2⟩
  | present rt =>
    rw [(served_token hexec).1]
    cases r with
    | ok response => exact ⟨h.1, find_of_stored h.2⟩
    | error e => exact h.1
  | store token =>
    obtain ⟨hsystem, _⟩ := (served_iff (by simp)).mp hexec
    have hlocks : s'.1.locks id = s.1.locks id := locks_frame (by simp [Op.lock?]) hsystem
    cases r <;> exact hlocks.trans h.1
  | release =>
    rw [Turn.next_release]
    trivial

/-- Two calls do not hold one mutex. -/
theorem not_held_twice (hij : i ≠ j) (h : w.locks id = some (some i)) : w.locks id ≠ some (some j) :=
  fun h' => hij (Option.some.inj (Option.some.inj (h.symm.trans h')))

section Other

variable (h : t.Guard aead key s.1 i id) (ho : t.Allows id o)
  (hexec : (served aead chrono key endpoint).exec i o env s = some (r, s'))
include h ho hexec

/-- The entry of a mutex stays. -/
theorem entry_kept (hentry : s.1.locks id' ≠ none) : s'.1.locks id' ≠ none := by
  by_cases hk : Region.lock id' = o.region i
  · cases ho with
    | lock =>
      obtain rfl := Region.lock.inj hk
      obtain ⟨hsystem, _⟩ := (served_iff (by simp)).mp hexec
      exact fun hnone => Option.some_ne_none _ ((accountLock_eq hsystem).2.symm.trans hnone)
    | acquire =>
      obtain rfl := Region.lock.inj hk
      obtain ⟨hsystem, _⟩ := (served_iff (by simp)).mp hexec
      simp [(acquire_iff.mp hsystem).2]
    | release =>
      obtain rfl := Region.lock.inj hk
      obtain ⟨hsystem, _⟩ := (served_iff (by simp)).mp hexec
      simp [← (Prod.mk.inj (Option.some.inj hsystem)).2]
    | clock | get | present | store => cases hk
  · have hframe : s'.1.locks id' = s.1.locks id' := served_frame (h.refreshes ho) hexec hk
    exact fun hnone => hentry (hframe.symm.trans hnone)

/-- A mutex that another call holds stays with it. -/
theorem holder_kept (hij : i ≠ j) (hheld : s.1.locks id' = some (some j)) :
    s'.1.locks id' = some (some j) := by
  by_cases hk : Region.lock id' = o.region i
  · cases ho with
    | lock =>
      obtain rfl := Region.lock.inj hk
      obtain ⟨hsystem, _⟩ := (served_iff (by simp)).mp hexec
      rw [(accountLock_eq hsystem).2, hheld]
      rfl
    | acquire =>
      obtain rfl := Region.lock.inj hk
      obtain ⟨hsystem, _⟩ := (served_iff (by simp)).mp hexec
      cases hheld.symm.trans (acquire_iff.mp hsystem).1
    | release _ hends =>
      obtain rfl := Region.lock.inj hk
      exact absurd hheld (not_held_twice hij (h.holds hends))
    | clock | get | present | store => cases hk
  · have hframe : s'.1.locks id' = s.1.locks id' := served_frame (h.refreshes ho) hexec hk
    exact hframe.trans hheld

/-- So does the row of the account. -/
theorem row_kept (hij : i ≠ j) (hheld : s.1.locks id' = some (some j)) :
    s'.1.db.tokens.find id' = s.1.db.tokens.find id' := by
  by_cases hk : Region.row id' = o.region i
  · cases ho with
    | get =>
      obtain ⟨hsystem, _⟩ := (served_iff (by simp)).mp hexec
      exact congrArg (fun w => w.db.tokens.find id') (storage_read (Option.some.inj hsystem))
    | store token =>
      obtain rfl := Region.row.inj hk
      exact absurd hheld (not_held_twice hij h.1)
    | clock | lock | acquire | present | release => cases hk
  · exact served_frame (h.refreshes ho) hexec hk

/-- The other calls. -/
theorem Turn.Guard.other (hij : i ≠ j) (hother : t'.Guard aead key s.1 j id') :
    t'.Guard aead key s'.1 j id' :=
  hother.mono (entry_kept h ho hexec) fun hheld =>
    ⟨holder_kept h ho hexec hij hheld, row_kept h ho hexec hij hheld⟩

end Other

/-- The entry of a mutex that is there is found, and nothing changes. -/
theorem lock_found (h : s.1.locks id ≠ none) {u : Unit} :
    (served aead chrono key endpoint).exec i (.accountLock id) env s = some (u, s') ↔ s' = s := by
  obtain ⟨holder, hholder⟩ := Option.ne_none_iff_exists'.mp h
  simp [served, system, hholder, eq_comm]

/-! ### What does not commute -/

/-- Two requests to the endpoint do not commute, nor the release of a mutex and its next acquisition. -/
def Op.Conflicts : Op → Op → Prop
  | .token _, .token _ => True
  | .release id, .acquire id' => id = id'
  | _, _ => False

variable {env' : Env} {s₁ s₂ : World × P} {o' : Op} {r' : Op.Reply o'}

/-- A lookup of an entry that is there can be done earlier. -/
theorem lookup_earlier (hij : i ≠ j) (h : t.Guard aead key s.1 i id) (ho : t.Allows id o)
    (hentry : s.1.locks id' ≠ none) {u : Unit}
    (hexec : (served aead chrono key endpoint).exec i o env s = some (r, s₁))
    (hexec' : (served aead chrono key endpoint).exec j (.accountLock id') env' s₁ = some (u, s₂)) :
    ∃ v, (served aead chrono key endpoint).exec j (.accountLock id') env' s = some (u, v) ∧
      (served aead chrono key endpoint).exec i o env v = some (r, s₂) := by
  have hwaiting : Turn.waiting.Guard aead key s.1 j id' := hentry
  obtain rfl := (lock_found (h.other ho hexec hij hwaiting)).mp hexec'
  exact ⟨s, (lock_found hentry).mpr rfl, hexec⟩

/-- It can be done later as well. -/
theorem lookup_later (hij : i ≠ j) (h' : t'.Guard aead key s.1 j id') (ho' : t'.Allows id' o')
    (hentry : s.1.locks id ≠ none) {u : Unit}
    (hexec : (served aead chrono key endpoint).exec i (.accountLock id) env s = some (u, s₁))
    (hexec' : (served aead chrono key endpoint).exec j o' env' s₁ = some (r', s₂)) :
    ∃ v, (served aead chrono key endpoint).exec j o' env' s = some (r', v) ∧
      (served aead chrono key endpoint).exec i (.accountLock id) env v = some (u, s₂) := by
  obtain rfl := (lock_found hentry).mp hexec
  have hwaiting : Turn.waiting.Guard aead key s₁.1 i id := hentry
  exact ⟨s₂, hexec', (lock_found (h'.other ho' hexec' (Ne.symm hij) hwaiting)).mpr rfl⟩

/-- Of two lookups of one entry, either creates it if it is not there. -/
theorem lookup_twice {u u' : Unit}
    (hexec : (served aead chrono key endpoint).exec i (.accountLock id) env s = some (u, s₁))
    (hexec' : (served aead chrono key endpoint).exec j (.accountLock id) env' s₁ = some (u', s₂)) :
    ∃ v, (served aead chrono key endpoint).exec j (.accountLock id) env' s = some (u', v) ∧
      (served aead chrono key endpoint).exec i (.accountLock id) env v = some (u, s₂) := by
  obtain ⟨hsystem, _⟩ := (served_iff (by simp)).mp hexec
  have hpresent : s₁.1.locks id ≠ none := fun hnone =>
    Option.some_ne_none _ ((accountLock_eq hsystem).2.symm.trans hnone)
  obtain rfl := (lock_found hpresent).mp hexec'
  exact ⟨s₂, hexec, (lock_found hpresent).mpr rfl⟩

/-- Steps of two calls at one mutex can be exchanged, except for a release and the next acquisition. -/
theorem exchange_locks (hij : i ≠ j) (h : t.Guard aead key s.1 i id) (ho : t.Allows id o)
    (h' : t'.Guard aead key s.1 j id) (ho' : t'.Allows id o') (hlock : o.region i = .lock id)
    (hlock' : o'.region j = .lock id) (hconflict : ¬ o.Conflicts o')
    (hexec : (served aead chrono key endpoint).exec i o env s = some (r, s₁))
    (hexec' : (served aead chrono key endpoint).exec j o' env' s₁ = some (r', s₂)) :
    ∃ v, (served aead chrono key endpoint).exec j o' env' s = some (r', v) ∧
      (served aead chrono key endpoint).exec i o env v = some (r, s₂) := by
  have hpresent : ∀ {holder : Option ℕ}, s.1.locks id = some holder → s.1.locks id ≠ none :=
    fun hsome => Option.ne_none_iff_exists'.mpr ⟨_, hsome⟩
  cases ho with
  | lock =>
    cases ho' with
    | lock => exact lookup_twice hexec hexec'
    | acquire => exact lookup_later hij h' .acquire h' hexec hexec'
    | release _ hends =>
      exact lookup_later hij h' (.release _ hends) (hpresent (h'.holds hends)) hexec hexec'
    | clock | get | present | store => cases hlock'
  | acquire =>
    obtain ⟨hsystem, _⟩ := (served_iff (by simp)).mp hexec
    have hfree := (acquire_iff.mp hsystem).1
    cases ho' with
    | lock => exact lookup_earlier hij h .acquire (hpresent hfree) hexec hexec'
    | acquire =>
      obtain ⟨hsystem', _⟩ := (served_iff (by simp)).mp hexec'
      have hheld : s₁.1.locks id = some (some i) := h.own .acquire hexec
      cases hheld.symm.trans (acquire_iff.mp hsystem').1
    | release _ hends => cases hfree.symm.trans (h'.holds hends)
    | clock | get | present | store => cases hlock'
  | release _ hends =>
    have hheld := h.holds hends
    cases ho' with
    | lock => exact lookup_earlier hij h (.release _ hends) (hpresent hheld) hexec hexec'
    | acquire => exact absurd rfl hconflict
    | release _ hends' => exact absurd (h'.holds hends') (not_held_twice hij hheld)
    | clock | get | present | store => cases hlock'
  | clock | get | present | store => cases hlock

/-- A call that is at the row of an account holds its mutex. -/
theorem Turn.Guard.holds_row (h : t.Guard aead key s.1 i id) (ho : t.Allows id o)
    (hrow : o.region i = .row id') : id' = id ∧ s.1.locks id = some (some i) := by
  cases ho with
  | get => exact ⟨(Region.row.inj hrow).symm, h⟩
  | store token => exact ⟨(Region.row.inj hrow).symm, h.1⟩
  | clock | lock | acquire | present | release => cases hrow

/-- The steps of two calls can be exchanged unless they conflict. -/
theorem exchange_exec (hij : i ≠ j) (h : t.Guard aead key s.1 i id) (ho : t.Allows id o)
    (h' : t'.Guard aead key s.1 j id') (ho' : t'.Allows id' o') (hconflict : ¬ o.Conflicts o')
    (hexec : (served aead chrono key endpoint).exec i o env s = some (r, s₁))
    (hexec' : (served aead chrono key endpoint).exec j o' env' s₁ = some (r', s₂)) :
    ∃ v, (served aead chrono key endpoint).exec j o' env' s = some (r', v) ∧
      (served aead chrono key endpoint).exec i o env v = some (r, s₂) := by
  have hafter := h.other ho hexec hij h'
  by_cases hregion : o.region i = o'.region j
  swap
  · exact (footprints endpoint).commute (h.refreshes ho) hexec (hafter.refreshes ho') hexec' hregion
  cases hat : o.region i with
  | lock x =>
    have hat' := hregion.symm.trans hat
    obtain rfl := ho.lock_eq hat
    obtain rfl := ho'.lock_eq hat'
    exact exchange_locks hij h ho h' ho' hat hat' hconflict hexec hexec'
  | row x =>
    obtain ⟨rfl, hheld⟩ := h.holds_row ho hat
    obtain ⟨rfl, hheld'⟩ := h'.holds_row ho' (hregion.symm.trans hat)
    exact absurd hheld' (not_held_twice hij hheld)
  | clock | endpoint | rest =>
    cases ho with
    | clock =>
      cases ho' with
      | clock => exact absurd (Region.clock.inj hregion) hij
      | _ => cases hregion
    | present =>
      cases ho' with
      | present => exact absurd trivial hconflict
      | _ => cases hregion
    | lock | acquire | get | store | release => cases hat

end Exclusion

end UniMail
