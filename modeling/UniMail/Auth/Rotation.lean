import UniMail.Auth.Callback

/-!
# The stored refresh token never goes backwards

Calls of `get_access_token`, `refresh_account` and `complete_flow` interleave. Each of the three
writers of a token row first reads the row or is granted a token and then writes the whole record, so
a stale record can be written back. `stored_never_older` shows that this is the only way: if nothing
is written while another call still carries an older token of the account to its own write, and no
refresh reply without a refresh token comes in while the row is newer than the token presented, then
no write replaces a refresh token by an older one. `bump_goes_backwards` is a run where the activity
bump does.

The proof gives every call the token it holds as a ghost state (`heldMonitor`): a call only writes
the token it holds. Along the run the row is never newer than a token some call carries to its write.
-/

namespace UniMail

open Interaction Relational

/-! ### The order of issue -/

/-- The refresh token the provider issues at a step, if it does. -/
def issuedToken {α : Type} : Event AppSig World Env α → Option String
  | ⟨_, _, _, .token _, .ok response, _⟩ => response.refreshToken
  | _ => none

/-- A request to the token endpoint. -/
def Op.isToken : Op → Bool
  | .token _ => true
  | _ => false

/-- The refresh tokens issued along a run, in order of time. -/
def issued {α : Type} (es : List (Event AppSig World Env α)) : List String :=
  es.filterMap issuedToken

/-- When a token was issued: 0 if that was before the run. -/
def issuedAt (l : List String) (rt : String) : ℕ := if rt ∈ l then l.idxOf rt + 1 else 0

theorem issuedAt_le (l : List String) (rt : String) : issuedAt l rt ≤ l.length := by
  unfold issuedAt
  split
  · rename_i h
    exact List.idxOf_lt_length_of_mem h
  · exact Nat.zero_le _

theorem issuedAt_append_of_ne {l : List String} {rt new : String} (h : rt ≠ new) :
    issuedAt (l ++ [new]) rt = issuedAt l rt := by
  unfold issuedAt
  by_cases hmem : rt ∈ l
  · rw [if_pos hmem, if_pos (by simp [hmem]), List.idxOf_append_of_mem hmem]
  · rw [if_neg hmem, if_neg (by simp [hmem, h])]

theorem issuedAt_append_self {l : List String} {new : String} (h : new ∉ l) :
    issuedAt (l ++ [new]) new = l.length + 1 := by
  unfold issuedAt
  rw [if_pos (by simp), List.idxOf_append_of_notMem h]
  simp

section Stored

variable (aead : Aead) (key : Key)

/-- The refresh token in a row. -/
def TokenRow.refreshToken (row : TokenRow) : Option String :=
  match decrypt aead key row.refreshTokenEncrypted with
  | .error _ => none
  | .ok bytes => (fromUtf8 bytes).toOption

/-- The refresh token the store holds for an account. -/
def storedRefreshToken (db : Db) (accountId : String) : Option String :=
  (db.tokens.find accountId).bind (TokenRow.refreshToken aead key)

/-- When the stored refresh token of an account was issued. -/
def storedAt (l : List String) (db : Db) (accountId : String) : ℕ :=
  match storedRefreshToken aead key db accountId with
  | some rt => issuedAt l rt
  | none => 0

end Stored

variable {aead : Aead} {chrono : Chrono} {key : Key} {oauth : OAuthClient} {α : Type}

theorem refreshToken_of_toToken {row : TokenRow} {now : DateTime} {token : StoredToken}
    (h : row.toToken aead chrono key now = .ok token) :
    row.refreshToken aead key = some token.refreshToken := by
  obtain ⟨_, refresh, _, refreshToken, _, hr, _, hru, rfl⟩ := toToken_eq_ok.mp h
  simp [TokenRow.refreshToken, hr, hru, Except.toOption]

/-- What `get` reads is the stored refresh token. -/
theorem storedRefreshToken_of_get {accountId : String} {now : DateTime} {db : Db}
    {token : StoredToken} (h : SqliteTokenStore.get aead chrono key accountId now db = .ok (some token)) :
    storedRefreshToken aead key db accountId = some token.refreshToken := by
  obtain ⟨row, hrow, htoken⟩ := SqliteTokenStore.get_some h
  rw [storedRefreshToken, hrow]
  exact refreshToken_of_toToken htoken

/-- What `upsert` writes becomes the stored refresh token, of that account only. -/
theorem storedRefreshToken_upsertRow {db : Db} {accountId : String} {token : StoredToken}
    {nonces : Nonce × Nonce} (ha : db.accounts.find accountId ≠ none) (id : String) :
    storedRefreshToken aead key
        (SqliteTokenStore.upsertRow db (token.toRow aead chrono key accountId nonces) ha) id =
      if accountId = id then some token.refreshToken else storedRefreshToken aead key db id := by
  have hfind := SqliteTokenStore.find_upsertRow db (token.toRow aead chrono key accountId nonces) ha
    id
  unfold storedRefreshToken
  by_cases hid : accountId = id
  · rw [hfind.trans (if_pos hid), if_pos hid]
    simp [TokenRow.refreshToken, StoredToken.toRow, decrypt_encrypt, Except.toOption]
  · rw [hfind.trans (if_neg hid), if_neg hid]

/-! ### What a call holds -/

/-- The refresh token a call holds: read from the row of an account or granted by a refresh of it
(`ofAccount`), or granted by a code exchange, for an account still to be found (`granted`). -/
inductive Held
  | nothing
  | ofAccount (accountId refreshToken : String)
  | granted (refreshToken : String)

/-- The call may write `rt` to the row of `accountId`. -/
def Held.Covers : Held → String → String → Prop
  | .nothing, _, _ => False
  | .ofAccount a rt', accountId, rt => accountId = a ∧ rt = rt'
  | .granted rt', _, rt => rt = rt'

/-- What the call holds after an operation. -/
def Held.next (g : Held) : (o : Op) → Op.Reply o → Held
  | .tokensGet accountId, .ok (some token) => .ofAccount accountId token.refreshToken
  | .tokensGet _, _ => .nothing
  | .tokensUpsert _ _, _ => .nothing
  | .token (.exchangeCode _ _), .ok response =>
    match response.refreshToken with
    | some rt => .granted rt
    | none => .nothing
  | .token (.refresh _), .ok response =>
    match g, response.refreshToken with
    | .ofAccount accountId _, some rt => .ofAccount accountId rt
    | g, none => g
    | _, some _ => .nothing
  | .token _, .error _ => .nothing
  | _, _ => g

/-- The operations after which a call holds something else. -/
def Op.renews : Op → Bool
  | .tokensGet _ => true
  | .tokensUpsert _ _ => true
  | .token _ => true
  | _ => false

/-- A call writes only the token it holds, presents it for a refresh, and deletes nothing. -/
def heldMonitor : Monitor AppSig Held where
  allows g o := match o with
    | .tokensUpsert accountId token => g.Covers accountId token.refreshToken
    | .token (.refresh rt) => ∃ accountId, g = .ofAccount accountId rt
    | .tokensDelete _ => False
    | .accountsDelete _ _ => False
    | _ => True
  expects _ _ _ := True
  next := Held.next

theorem heldMonitor_next (g : Held) {o : Op} (ho : o.renews = false) (r : Op.Reply o) :
    heldMonitor.next g o r = g := by
  cases o <;> simp_all [Op.renews, heldMonitor, Held.next]

/-! ### The calls follow the protocol -/

section Protocol

/-- Every operation of the call is one the monitor allows; its result does not matter. -/
abbrev Obeys (g : Held) (p : Prog AppSig (Outcome α)) : Prop :=
  Follows heldMonitor (fun _ _ => True) g p

theorem silent_of_not_renews {o : Op} (hallows : ∀ g, heldMonitor.allows g o)
    (ho : o.renews = false) : heldMonitor.Silent o :=
  fun g => ⟨hallows g, heldMonitor_next g ho⟩

theorem silent_utcNow : heldMonitor.Silent .utcNow := silent_of_not_renews (fun _ => trivial) rfl

theorem heldMonitor_rules (accountId : String) :
    TokenRules heldMonitor accountId (fun _ => True) fun g rt => g = .ofAccount accountId rt where
  clock := silent_utcNow
  lock o ho _ _ := by
    simp only [List.mem_cons, List.not_mem_nil, or_false] at ho
    rcases ho with rfl | rfl | rfl <;> exact ⟨trivial, fun _ => rfl⟩
  base _ _ _ := trivial
  get _ _ := trivial
  got _ _ _ := trivial
  read _ _ _ := rfl
  present _ _ h := ⟨accountId, h⟩
  denied _ _ _ _ := trivial
  granted _ rt response h := by
    -- The call holds the token of the reply, or the presented one where the reply has none.
    subst h
    cases hrt : response.refreshToken <;> simp [heldMonitor, Held.next, hrt]
  write _ _ h := by
    subst h
    exact ⟨rfl, rfl⟩
  wrote _ _ _ _ := trivial

theorem heldMonitor_flowRules : FlowRules heldMonitor fun g stage => match stage with
    | .granted _ rt | .chosen _ rt _ | .missing _ rt _ | .present _ rt _ => g = .granted rt
    | _ => True where
  clock := ⟨silent_utcNow, silent_of_not_renews (fun _ => trivial) rfl⟩
  resolve _ := silent_of_not_renews (fun _ => trivial) rfl
  stop _ _ _ _ := trivial
  untaken _ _ _ := trivial
  take _ _ _ := ⟨trivial, fun r _ => by cases r <;> trivial⟩
  exchange g flow code _ := by
    refine ⟨trivial, fun r _ => ⟨trivial, ?_⟩⟩
    rintro response rt rfl hrt
    simp [heldMonitor, Held.next, hrt]
  lookup g flow rt email h := by
    refine ⟨trivial, fun r _ => ?_⟩
    cases r with
    | ok existing => exact fun _ _ => h
    | error e => exact h
  draw _ _ _ h := ⟨trivial, fun _ _ _ _ _ _ => h⟩
  ensure _ _ _ _ h := ⟨trivial, fun r _ => by cases r <;> exact h⟩
  create _ _ _ _ h := by
    refine ⟨trivial, fun r _ => ?_⟩
    cases r with
    | ok _ => exact h
    | error e => trivial
  store g flow account token h := by
    subst h
    exact ⟨rfl, fun r _ => by cases r <;> trivial⟩

/-- The calls that read, refresh and grant tokens. -/
def Call.UsesTokens : Call → Prop
  | .getAccessToken _ => True
  | .refreshAccount _ => True
  | .completeFlow _ _ => True
  | _ => False

theorem obeys_call {call : Call} (hcall : call.UsesTokens) (g : Held) :
    Obeys g (call.prog oauth) := by
  have hresult : ∀ {β : Type} {x : Async β} {f : β → Return},
      Obeys g x.run → Obeys g (ExceptT.run (do return f (← x))) := by
    intro β x f hx
    refine (follows_run_bind _ _ _).mpr (follows_mono (fun g r _ => ?_) hx)
    cases r <;> trivial
  cases call with
  | getAccessToken accountId =>
    exact hresult ((heldMonitor_rules accountId).follows_getAccessToken trivial)
  | refreshAccount accountId =>
    exact hresult (f := fun _ => .unit) ((heldMonitor_rules accountId).follows_refreshAccount trivial)
  | completeFlow code state =>
    refine hresult (follows_mono ?_ (heldMonitor_flowRules.follows_completeFlow trivial))
    exact fun _ _ _ => trivial
  | _ => exact hcall.elim

end Protocol

/-! ### Tokens carried to a write -/

/-- The call can still write `rt` to the row of `accountId` without reading or being granted another
token before. -/
abbrev Carries (accountId rt : String) (p : Prog AppSig α) : Prop :=
  p.Reaches (fun o : Op => o.renews = false)
    fun o : Op => ∃ token, o = .tokensUpsert accountId token ∧ token.refreshToken = rt

/-- A call carries only what it holds. -/
theorem covers_of_carries {accountId rt : String} {β : Type} {Q : Held → Outcome β → Prop}
    {p : Prog AppSig (Outcome β)} (h : Carries accountId rt p) {g : Held}
    (hp : Follows heldMonitor Q g p) : g.Covers accountId rt := by
  refine h.ghost (P := fun g => g.Covers accountId rt) hp (fun _ _ _ => trivial) ?_ ?_
  · intro g o r ho hcovers
    rwa [heldMonitor_next g ho] at hcovers
  · rintro g o ⟨token, rfl, rfl⟩ hallows
    exact hallows

/-- The refresh tokens of an account: those that the run stores in its row. -/
def TokenOf (accountId : String) (es : List (Event AppSig World Env α)) (rt : String) : Prop :=
  ∃ e ∈ es, ∃ token, e.call = ⟨.tokensUpsert accountId token, .ok ()⟩ ∧ token.refreshToken = rt

/-- The step keeps the order of the tokens `own`: it does not write to the row while another call carries
an older one to it, and it is not a reply without a refresh token after which the call carries the token
it presented although the row is newer. -/
structure Orderly (aead : Aead) (key : Key) (accountId : String) (own : String → Prop)
    (past : List (Event AppSig World Env α)) (e : Event AppSig World Env α) : Prop where
  write : ∀ token, e.call = ⟨.tokensUpsert accountId token, .ok ()⟩ →
    ∀ (j : ℕ) p rt, j ≠ e.thread → e.before.pool[j]? = some p → Carries accountId rt p → own rt →
      issuedAt (issued past) token.refreshToken ≤ issuedAt (issued past) rt
  reply : ∀ presented response, e.call = ⟨.token (.refresh presented), .ok response⟩ →
    response.refreshToken = none → ∀ p, e.after.pool[e.thread]? = some p →
      Carries accountId presented p → own presented →
        storedAt aead key (issued past) e.before.world.db accountId ≤
          issuedAt (issued past) presented

/-- The token is one that was stored at the start or issued since. -/
def Known (aead : Aead) (key : Key) (start : Db) (accountId : String) (l : List String)
    (rt : String) : Prop :=
  rt ∈ l ∨ storedRefreshToken aead key start accountId = some rt

/-- Along the run: the tokens in the row and in the hands of the calls are known, and the row is not
newer than one of the tokens `own` that a call carries to it. -/
structure InOrder (aead : Aead) (key : Key) (start : Db) (accountId : String) (own : String → Prop)
    (past : List (Event AppSig World Env α)) (c : Cfg AppSig World α) (γ : ℕ → Held) : Prop where
  row : ∀ rt, storedRefreshToken aead key c.world.db accountId = some rt →
    Known aead key start accountId (issued past) rt
  held : ∀ j rt, (γ j).Covers accountId rt → Known aead key start accountId (issued past) rt
  carried : ∀ (j : ℕ) p rt, c.pool[j]? = some p → Carries accountId rt p → own rt →
    storedAt aead key (issued past) c.world.db accountId ≤ issuedAt (issued past) rt

/-! ### One step -/

theorem issued_snoc (past : List (Event AppSig World Env α)) (e : Event AppSig World Env α) :
    issued (past ++ [e]) = issued past ++ (issuedToken e).toList :=
  filterMap_snoc ..

theorem Known.mono {start : Db} {accountId rt : String} {l l' : List String}
    (h : Known aead key start accountId l rt) : Known aead key start accountId (l ++ l') rt :=
  h.imp_left fun hmem => List.mem_append_left _ hmem

/-- A new grant is a new refresh token, so it does not move the ones that are known. -/
theorem issuedAt_known {start : Db} {accountId rt : String}
    {past : List (Event AppSig World Env α)} {e : Event AppSig World Env α}
    (hfresh : ∀ new, issuedToken e = some new → ¬ Known aead key start accountId (issued past) new)
    (h : Known aead key start accountId (issued past) rt) :
    issuedAt (issued (past ++ [e])) rt = issuedAt (issued past) rt := by
  rw [issued_snoc]
  cases hnew : issuedToken e with
  | none => simp
  | some new =>
    apply issuedAt_append_of_ne
    rintro rfl
    exact hfresh _ hnew h

/-- The stored refresh token changes only by a successful write of the account's row. -/
theorem storedRefreshToken_step {e : Event AppSig World Env α} {g : Held}
    (hstep : (system aead chrono key).Step e) (hallows : heldMonitor.allows g e.op)
    (accountId : String) :
    (∃ token, e.call = ⟨.tokensUpsert accountId token, .ok ()⟩ ∧
        storedRefreshToken aead key e.after.world.db accountId = some token.refreshToken) ∨
      storedRefreshToken aead key e.after.world.db accountId =
        storedRefreshToken aead key e.before.world.db accountId := by
  obtain ⟨before, i, env, o, r, after⟩ := e
  obtain ⟨k, _, hexec, _⟩ := hstep
  by_cases ho : o.writesTokens = false
  · apply Or.inr
    have htokens : after.world.db.tokens = before.world.db.tokens := tokens_frame ho hexec
    simp only [storedRefreshToken, htokens]
  · cases o with
    | tokensUpsert id token =>
      cases r with
      | error err =>
        rw [show after.world = before.world from tokensUpsert_error hexec]
        exact Or.inr rfl
      | ok _ =>
        obtain ⟨ha, hdb, _⟩ := tokensUpsert_ok hexec
        rw [hdb, storedRefreshToken_upsertRow]
        by_cases hid : id = accountId
        · subst hid
          exact Or.inl ⟨token, rfl, if_pos rfl⟩
        · exact Or.inr (if_neg hid)
    | tokensDelete id => exact hallows.elim
    | accountsDelete tenantId id => exact hallows.elim
    | _ => exact absurd rfl ho

/-- What a call holds after an operation, it held before, read, or was granted. -/
theorem next_covers {g : Held} {o : Op} {r : Op.Reply o} {accountId rt : String}
    (hallows : heldMonitor.allows g o) (h : (heldMonitor.next g o r).Covers accountId rt) :
    (o.renews = false ∧ g.Covers accountId rt) ∨
      (∃ token, (⟨o, r⟩ : (o : Op) × Op.Reply o) = ⟨.tokensGet accountId, .ok (some token)⟩ ∧
        rt = token.refreshToken) ∨
      (∃ request response, (⟨o, r⟩ : (o : Op) × Op.Reply o) = ⟨.token request, .ok response⟩ ∧
        response.refreshToken = some rt) ∨
      ∃ response, (⟨o, r⟩ : (o : Op) × Op.Reply o) = ⟨.token (.refresh rt), .ok response⟩ ∧
        response.refreshToken = none ∧ g.Covers accountId rt := by
  by_cases ho : o.renews = false
  · rw [heldMonitor_next g ho] at h
    exact Or.inl ⟨ho, h⟩
  apply Or.inr
  cases o with
  | tokensGet id =>
    cases r with
    | error e => exact h.elim
    | ok token? =>
      cases token? with
      | none => exact h.elim
      | some token =>
        obtain ⟨rfl, rfl⟩ := h
        exact Or.inl ⟨token, rfl, rfl⟩
  | tokensUpsert id token => exact h.elim
  | token request =>
    apply Or.inr
    cases request with
    | exchangeCode code verifier =>
      cases r with
      | error e => exact h.elim
      | ok response =>
        simp only [heldMonitor, Held.next] at h
        cases hrt : response.refreshToken with
        | none => simp [hrt, Held.Covers] at h
        | some new =>
          simp only [hrt, Held.Covers] at h
          subst h
          exact Or.inl ⟨_, response, rfl, hrt⟩
    | refresh presented =>
      obtain ⟨id, rfl⟩ := hallows
      cases r with
      | error e => exact h.elim
      | ok response =>
        simp only [heldMonitor, Held.next] at h
        cases hrt : response.refreshToken with
        | none =>
          simp only [hrt, Held.Covers] at h
          obtain ⟨rfl, rfl⟩ := h
          exact Or.inr ⟨response, rfl, hrt, rfl, rfl⟩
        | some new =>
          simp only [hrt, Held.Covers] at h
          obtain ⟨rfl, rfl⟩ := h
          exact Or.inl ⟨_, response, rfl, hrt⟩
  | _ => exact absurd rfl ho

theorem issuedToken_of_call {e : Event AppSig World Env α} {request : TokenRequest}
    {response : TokenResponse} (h : e.call = ⟨.token request, .ok response⟩) :
    issuedToken e = response.refreshToken := by
  obtain ⟨before, i, env, o, r, after⟩ := e
  cases h
  rfl

/-- A token that is read is the stored one. -/
theorem storedRefreshToken_of_read {e : Event AppSig World Env α}
    (hstep : (system aead chrono key).Step e) {accountId : String} {token : StoredToken}
    (h : e.call = ⟨.tokensGet accountId, .ok (some token)⟩) :
    storedRefreshToken aead key e.before.world.db accountId = some token.refreshToken := by
  obtain ⟨before, i, env, o, r, after⟩ := e
  cases h
  obtain ⟨k, _, hexec, _⟩ := hstep
  exact storedRefreshToken_of_get (tokensGet_some hexec).2

theorem storedAt_of_stored {db : Db} {accountId rt : String} {l : List String}
    (h : storedRefreshToken aead key db accountId = some rt) :
    storedAt aead key l db accountId = issuedAt l rt := by
  rw [storedAt, h]

theorem storedAt_le (l : List String) (db : Db) (accountId : String) :
    storedAt aead key l db accountId ≤ l.length := by
  unfold storedAt
  split
  · exact issuedAt_le _ _
  · exact Nat.zero_le _

section Step

variable {start : Db} {accountId : String} {own : String → Prop} {past : List (Event AppSig World Env (Outcome α))}
  {e : Event AppSig World Env (Outcome α)} {γ : ℕ → Held} {Q : Held → Outcome α → Prop}
  (hstep : (system aead chrono key).Step e)
  (hpool : PoolFollows heldMonitor Q γ e.before.pool)
  (hfresh : ∀ new, issuedToken e = some new → ¬ Known aead key start accountId (issued past) new)
  (h : InOrder aead key start accountId own past e.before γ)
include hstep hpool h

/-- The token a call holds after its step is known: it was in the row or has just been issued. -/
theorem known_next {rt : String}
    (hcovers : (heldMonitor.next (γ e.thread) e.op e.reply).Covers accountId rt) :
    Known aead key start accountId (issued (past ++ [e])) rt := by
  rw [issued_snoc]
  rcases next_covers (hpool.allows hstep) hcovers with
    ⟨_, hold⟩ | ⟨token, hcall, rfl⟩ | ⟨request, response, hcall, hrt⟩ | ⟨response, _, _, hold⟩
  · exact (h.held _ _ hold).mono
  · exact (h.row _ (storedRefreshToken_of_read hstep hcall)).mono
  · refine Or.inl (List.mem_append_right _ ?_)
    rw [issuedToken_of_call hcall, hrt]
    exact List.mem_singleton_self _
  · exact (h.held _ _ hold).mono

include hfresh

/-- What the row holds after the step: what was there, or a token the call held. -/
theorem storedAt_step :
    (∃ token, e.call = ⟨.tokensUpsert accountId token, .ok ()⟩ ∧
        storedRefreshToken aead key e.after.world.db accountId = some token.refreshToken ∧
        Known aead key start accountId (issued past) token.refreshToken ∧
        storedAt aead key (issued (past ++ [e])) e.after.world.db accountId =
          issuedAt (issued past) token.refreshToken) ∨
      storedRefreshToken aead key e.after.world.db accountId =
          storedRefreshToken aead key e.before.world.db accountId ∧
        storedAt aead key (issued (past ++ [e])) e.after.world.db accountId =
          storedAt aead key (issued past) e.before.world.db accountId := by
  have hallows := hpool.allows hstep
  rcases storedRefreshToken_step hstep hallows accountId with ⟨token, hcall, hstored⟩ | hsame
  · have hop : e.op = .tokensUpsert accountId token := congrArg Sigma.fst hcall
    rw [hop] at hallows
    have hknown := h.held _ _ hallows
    refine Or.inl ⟨token, hcall, hstored, hknown, ?_⟩
    rw [storedAt_of_stored hstored, issuedAt_known hfresh hknown]
  · refine Or.inr ⟨hsame, ?_⟩
    unfold storedAt
    rw [hsame]
    cases hrow : storedRefreshToken aead key e.before.world.db accountId with
    | none => rfl
    | some rt => exact issuedAt_known hfresh (h.row rt hrow)

/-- The row is not newer than what the stepping call carries to it afterwards. -/
theorem carried_next (horderly : Orderly aead key accountId own past e) {p : Prog AppSig (Outcome α)}
    {rt : String} (hp : e.after.pool[e.thread]? = some p) (hcarries : Carries accountId rt p)
    (hown : own rt) :
    storedAt aead key (issued (past ++ [e])) e.after.world.db accountId ≤
      issuedAt (issued (past ++ [e])) rt := by
  have hcovers : (heldMonitor.next (γ e.thread) e.op e.reply).Covers accountId rt := by
    have hfollows := hpool.step hstep trivial e.thread p hp
    rw [Function.update_self] at hfollows
    exact covers_of_carries hcarries hfollows
  have hcases := next_covers (hpool.allows hstep) hcovers
  -- The call has not just written the row, so the row is as before.
  have hsame : storedAt aead key (issued (past ++ [e])) e.after.world.db accountId =
      storedAt aead key (issued past) e.before.world.db accountId := by
    rcases storedAt_step hstep hpool hfresh h with ⟨token, hcall, _⟩ | ⟨_, hsame⟩
    · have hop : e.op = .tokensUpsert accountId token := congrArg Sigma.fst hcall
      rcases hcases with ⟨ho, _⟩ | ⟨_, hcall', _⟩ | ⟨_, _, hcall', _⟩ | ⟨_, hcall', _⟩
      · simp [hop, Op.renews] at ho
      all_goals exact absurd (congrArg Sigma.fst (hcall.symm.trans hcall')) (by simp)
    · exact hsame
  rw [hsame]
  rcases hcases with
    ⟨ho, hold⟩ | ⟨token, hcall, rfl⟩ | ⟨request, response, hcall, hrt⟩ | ⟨response, hcall, hnone, hold⟩
  · rw [issuedAt_known hfresh (h.held _ _ hold)]
    obtain ⟨k, hbefore, _, hafter⟩ := hstep
    have hlt := (List.getElem?_eq_some_iff.mp hbefore).1
    rw [hafter, List.getElem?_set_self hlt, Option.some.injEq] at hp
    subst hp
    exact h.carried e.thread _ rt hbefore (Prog.Reaches.pass e.reply ho hcarries) hown
  · have hrow := storedRefreshToken_of_read hstep hcall
    rw [issuedAt_known hfresh (h.row _ hrow), storedAt_of_stored hrow]
  · have hissued : issuedToken e = some rt := (issuedToken_of_call hcall).trans hrt
    have hnew : rt ∉ issued past := fun hmem => hfresh rt hissued (Or.inl hmem)
    rw [issued_snoc, hissued, Option.toList_some, issuedAt_append_self hnew]
    exact (storedAt_le _ _ _).trans (Nat.le_succ _)
  · rw [issuedAt_known hfresh (h.held _ _ hold)]
    exact horderly.reply rt response hcall hnone p hp hcarries hown

/-- **The step lemma.** -/
theorem inOrder_step (horderly : Orderly aead key accountId own past e) :
    InOrder aead key start accountId own (past ++ [e]) e.after
      (Function.update γ e.thread (heldMonitor.next (γ e.thread) e.op e.reply)) where
  row rt hrow := by
    rw [issued_snoc]
    rcases storedAt_step hstep hpool hfresh h with ⟨token, _, hstored, hknown, _⟩ | ⟨hsame, _⟩
    · rw [hstored, Option.some.injEq] at hrow
      exact (hrow ▸ hknown).mono
    · exact (h.row rt (hsame ▸ hrow)).mono
  held j rt hj := by
    by_cases hje : j = e.thread
    · subst hje
      rw [Function.update_self] at hj
      exact known_next hstep hpool h hj
    · rw [Function.update_of_ne hje] at hj
      rw [issued_snoc]
      exact (h.held j rt hj).mono
  carried j p rt hp hcarries hown := by
    rcases hstep.pool_cases hp with ⟨rfl, _⟩ | ⟨hje, hbefore⟩
    · exact carried_next hstep hpool hfresh h horderly hp hcarries hown
    · have hknown := h.held j rt (covers_of_carries hcarries (hpool j p hbefore))
      rw [issuedAt_known hfresh hknown]
      rcases storedAt_step hstep hpool hfresh h with ⟨token, hcall, _, _, hat⟩ | ⟨_, hsame⟩
      · rw [hat]
        exact horderly.write token hcall j p rt hje hbefore hcarries hown
      · rw [hsame]
        exact h.carried j p rt hbefore hcarries hown

end Step

/-! ### Runs -/

/-- The write of a row of `accountId` at step `e` puts an older refresh token in the place of a newer
one. -/
def GoesBackwards (aead : Aead) (key : Key) (accountId : String)
    (past : List (Event AppSig World Env α)) (e : Event AppSig World Env α) : Prop :=
  ∃ token, e.call = ⟨.tokensUpsert accountId token, .ok ()⟩ ∧
    issuedAt (issued past) token.refreshToken <
      storedAt aead key (issued past) e.before.world.db accountId

/-- Each new grant is a new refresh token. -/
def FreshGrants (aead : Aead) (key : Key) (start : Db) (accountId : String)
    (es : List (Event AppSig World Env α)) : Prop :=
  (issued es).Nodup ∧ ∀ rt ∈ issued es, storedRefreshToken aead key start accountId ≠ some rt

instance (aead : Aead) (key : Key) (start : Db) (accountId : String)
    (es : List (Event AppSig World Env α)) : Decidable (FreshGrants aead key start accountId es) :=
  inferInstanceAs (Decidable (_ ∧ _))

/-- So it is not known before it is issued. -/
theorem FreshGrants.not_known {start : Db} {accountId rt : String}
    {past post : List (Event AppSig World Env α)} {e : Event AppSig World Env α}
    (h : FreshGrants aead key start accountId (past ++ e :: post)) (he : issuedToken e = some rt) :
    ¬ Known aead key start accountId (issued past) rt := by
  have hissued : issued (past ++ e :: post) = issued past ++ rt :: issued post := by
    simp [issued, he]
  rw [FreshGrants, hissued] at h
  rintro (hmem | hstart)
  · exact (List.nodup_append'.mp h.1).2.2 hmem List.mem_cons_self
  · exact h.2 rt (by simp) hstart

theorem follows_calls (oauth : OAuthClient) {calls : List Call} (hcalls : ∀ call ∈ calls, call.UsesTokens) :
    PoolFollows heldMonitor (fun _ (_ : Outcome Return) => True) (fun _ => .nothing)
      (calls.map (Call.prog oauth)) := by
  intro i p hp
  rw [List.getElem?_map, Option.map_eq_some_iff] at hp
  obtain ⟨call, hcall, rfl⟩ := hp
  exact obeys_call (hcalls call (List.mem_of_getElem? hcall)) _

/-- **No write of the row goes backwards**, in every run of the calls whose steps are orderly. -/
theorem stored_never_older {calls : List Call} (hcalls : ∀ call ∈ calls, call.UsesTokens)
    {w : World} {es : List (Event AppSig World Env (Outcome Return))}
    {c' : Cfg AppSig World (Outcome Return)}
    (h : (system aead chrono key).Run ⟨w, calls.map (Call.prog oauth)⟩ es c') (accountId : String)
    (hfresh : FreshGrants aead key w.db accountId es)
    (horderly : ∀ past e post, es = past ++ e :: post →
      Orderly aead key accountId (TokenOf accountId es) past e) :
    ∀ past e post, es = past ++ e :: post → ¬ GoesBackwards aead key accountId past e := by
  rintro past e post rfl ⟨token, hcall, hlt⟩
  have hstart := follows_calls oauth hcalls
  have h0 : InOrder aead key w.db accountId (TokenOf accountId (past ++ e :: post))
      ([] : List (Event AppSig World Env (Outcome Return)))
      ⟨w, calls.map (Call.prog oauth)⟩ fun _ => .nothing :=
    ⟨fun rt hrt => Or.inr hrt, fun _ _ hcovers => hcovers.elim,
      fun j p rt hp hcarries _ => (covers_of_carries hcarries (hstart j p hp)).elim⟩
  have hI := (h.split.1.follows (I := InOrder aead key w.db accountId
    (TokenOf accountId (past ++ e :: post))) h0 hstart (by
    intro past' e' post' hes hstep hfollows hI _
    have hes' : past ++ e :: post = past' ++ e' :: (post' ++ e :: post) := by simp [hes]
    refine ⟨trivial, ?_⟩
    rw [ghosts_snoc]
    exact inOrder_step hstep hfollows (fun _ => (hes' ▸ hfresh).not_known) hI
      (horderly past' e' _ hes'))).1
  have hown : TokenOf accountId (past ++ e :: post) token.refreshToken :=
    ⟨e, by simp, token, hcall, rfl⟩
  -- The call carries its own token to this write.
  obtain ⟨before, i, env, o, r, after⟩ := e
  cases hcall
  obtain ⟨k, hbefore, _, _⟩ := h.split.2.1
  have hcarried := hI.carried i _ token.refreshToken hbefore
    (Prog.Reaches.here ⟨token, rfl, rfl⟩) hown
  exact absurd hlt (not_lt.mpr hcarried)

/-! ### Two runs -/

def bumpAndRefresh : Cfg AppSig World (Outcome Return) :=
  ⟨connected 9, [Call.getAccessToken "acc-1", .refreshAccount "acc-1"].map (Call.prog sampleOauth)⟩

/-- The first call reads the row for a cache hit, the second one refreshes it, and then the activity
bump of the first puts the refresh token `rt-0` back in the place of `rt-1`. -/
theorem bump_goes_backwards :
    ∃ es c', sampleSystem.Run bumpAndRefresh es c' ∧
      FreshGrants .tagged sampleKey bumpAndRefresh.world.db "acc-1" es ∧
      ∃ past e post, es = past ++ e :: post ∧ GoesBackwards .tagged sampleKey "acc-1" past e :=
  let reply := .ok ⟨"at-1", some "rt-1", some 3600, none⟩
  ⟨_, _, run_replay bumpAndRefresh
    ([0, 1, 1, 1, 1, 1, 1, 1, 1, 1, 0, 0, 0, 0].map fun i => (i, Env.calm 1 reply))
    (by decide +kernel), by decide +kernel, [_, _, _, _, _, _, _, _, _, _, _, _, _], _, [], rfl,
    _, rfl, by decide +kernel⟩

/-- What a call carries it holds in its ghost state. -/
theorem covers_of_run {calls : List Call} (hcalls : ∀ call ∈ calls, call.UsesTokens) {w : World}
    {past post : List (Event AppSig World Env (Outcome Return))}
    {e : Event AppSig World Env (Outcome Return)} {c' : Cfg AppSig World (Outcome Return)}
    (h : (system aead chrono key).Run ⟨w, calls.map (Call.prog oauth)⟩ (past ++ e :: post) c')
    {j : ℕ} {p : Prog AppSig (Outcome Return)} {accountId rt : String}
    (hp : e.before.pool[j]? = some p) (hcarries : Carries accountId rt p) :
    (ghosts heldMonitor (fun _ => .nothing) past j).Covers accountId rt := by
  have hfollows := (h.split.1.follows (I := fun _ _ _ => True) trivial (follows_calls oauth hcalls)
    fun _ _ _ _ _ _ _ _ => ⟨trivial, trivial⟩).2
  exact covers_of_carries hcarries (hfollows j p hp)

/-- The token that a step writes to a row, with the account. -/
def written (e : Event AppSig World Env α) : Option (String × String) :=
  match e.call with
  | ⟨.tokensUpsert accountId token, .ok _⟩ => some (accountId, token.refreshToken)
  | _ => none

/-- The token that a call holds is none, or not older than `rt`. -/
def Held.atLeast (l : List String) (rt : String) : Held → Bool
  | .nothing => true
  | .ofAccount _ rt' => decide (issuedAt l rt ≤ issuedAt l rt')
  | .granted rt' => decide (issuedAt l rt ≤ issuedAt l rt')

theorem Held.le_of_atLeast {l : List String} {rt accountId rt' : String} {g : Held}
    (h : g.atLeast l rt = true) (hcovers : g.Covers accountId rt') :
    issuedAt l rt ≤ issuedAt l rt' := by
  cases g with
  | nothing => exact hcovers.elim
  | ofAccount a rt₀ =>
    obtain ⟨_, rfl⟩ := hcovers
    exact of_decide_eq_true h
  | granted rt₀ =>
    obtain rfl := hcovers
    exact of_decide_eq_true h

/-- Each step writes nothing newer than what any of the other `n` calls holds, and each reply of the token
endpoint brings a refresh token. -/
def HeldInOrder (n : ℕ) (es : List (Event AppSig World Env α)) : Prop :=
  (∀ k < es.length, ∀ e ∈ es[k]?, ∀ w ∈ written e, ∀ j < n, j ≠ e.thread →
      (ghosts heldMonitor (fun _ => .nothing) (es.take k) j).atLeast (issued (es.take k)) w.2) ∧
    ∀ e ∈ es, e.op.isToken = true → (issuedToken e).isSome

instance (n : ℕ) (es : List (Event AppSig World Env α)) : Decidable (HeldInOrder n es) :=
  inferInstanceAs (Decidable (_ ∧ _))

/-- Such steps are orderly. -/
theorem orderly_of_held {calls : List Call} (hcalls : ∀ call ∈ calls, call.UsesTokens) {w : World}
    {es : List (Event AppSig World Env (Outcome Return))} {c' : Cfg AppSig World (Outcome Return)}
    (h : (system aead chrono key).Run ⟨w, calls.map (Call.prog oauth)⟩ es c')
    (hheld : HeldInOrder calls.length es) (accountId : String) (own : String → Prop) :
    ∀ past e post, es = past ++ e :: post → Orderly aead key accountId own past e := by
  obtain ⟨hheld, hissues⟩ := hheld
  rintro past e post rfl
  constructor
  · intro token hcall j p rt hj hp hcarries _
    have hwritten : written e = some (accountId, token.refreshToken) := by
      rw [written, hcall]
    have hthread : j < calls.length := by
      have hlt := (List.getElem?_eq_some_iff.mp hp).1
      rwa [h.split.1.pool_length, List.length_map] at hlt
    have hleast := hheld past.length (by simp) e (by simp) _ hwritten j hthread hj
    rw [List.take_left] at hleast
    exact Held.le_of_atLeast hleast (covers_of_run hcalls h hp hcarries)
  · intro presented response hcall hnone p _ _ _
    have hop : e.op = .token (.refresh presented) := congrArg Sigma.fst hcall
    have hissue := hissues e (by simp) (hop ▸ rfl)
    simp [issuedToken_of_call hcall, hnone] at hissue

def bumpsAndRefresh : List Call :=
  [.getAccessToken "acc-1", .getAccessToken "acc-1", .refreshAccount "acc-1"]

/-- The refresh has the mutex, two calls read the row for a cache hit and both write `rt-0` back, the one
while the other carries it to its own write, and then the refresh reads the row and stores `rt-1`. -/
theorem stored_never_older_interleaved :
    ∃ es c', sampleSystem.Run ⟨connected 9, bumpsAndRefresh.map (Call.prog sampleOauth)⟩ es c' ∧
      es.map Event.thread = [2, 2, 0, 1, 0, 0, 0, 1, 1, 1, 0, 1, 2, 2, 2, 2, 2, 2, 2] ∧
      es.filterMap written = [("acc-1", "rt-0"), ("acc-1", "rt-0"), ("acc-1", "rt-1")] ∧
      ∀ past e post, es = past ++ e :: post →
        ¬ GoesBackwards .tagged sampleKey "acc-1" past e := by
  let threads := [2, 2, 0, 1, 0, 0, 0, 1, 1, 1, 0, 1, 2, 2, 2, 2, 2, 2, 2]
  let run := sampleSystem.replay ⟨connected 9, bumpsAndRefresh.map (Call.prog sampleOauth)⟩
    (threads.map fun i => (i, Env.calm 1 (.ok ⟨"at-1", some "rt-1", some 3600, none⟩)))
  have hchecks : run.any (fun run => run.1.map Event.thread = threads ∧
      run.1.filterMap written = [("acc-1", "rt-0"), ("acc-1", "rt-0"), ("acc-1", "rt-1")] ∧
      FreshGrants .tagged sampleKey (connected 9).db "acc-1" run.1 ∧ HeldInOrder 3 run.1) = true := by
    decide +kernel
  obtain ⟨⟨es, c'⟩, hreplay, hthreads, hwritten, hfresh, hheld⟩ := exists_of_any hchecks
  have hrun := run_of_replay hreplay
  have hcalls : ∀ call ∈ bumpsAndRefresh, call.UsesTokens := by
    simp [bumpsAndRefresh, Call.UsesTokens]
  exact ⟨es, c', hrun, hthreads, hwritten, stored_never_older hcalls hrun "acc-1" hfresh
    (orderly_of_held hcalls hrun hheld _ _)⟩

end UniMail
