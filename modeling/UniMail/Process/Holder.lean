import UniMail.Process.Walk

/-!
# The tokens a call holds

`holderMonitor` follows the tokens that come into the hands of a call: those it reads from a row are of the
account of the row, those it is granted for a refresh token are of the accounts of that one, and those it
is granted for a code are of no account until it has stored them. A call presents, writes and sends
tokens of the account it does so for (`holder_task`).
-/

namespace UniMail

open Interaction

variable {oauth : OAuthClient} {server : MailServer}

/-! ### What a call holds -/

/-- Where a call is with a consent: it has none, it has been granted the tokens, or it has stored them
for the account. -/
inductive Consent
  | none
  | granted (response : TokenResponse) (refreshToken : String)
  | stored (accountId : String)

/-- The accounts a call names, those it is given or finds, and the access and refresh tokens it has seen,
with their account. -/
structure Holder where
  named : Account → Prop
  found : Account → Prop
  access : List (String × String)
  refresh : List (String × String)
  consent : Consent

/-- The accounts that `refreshToken` was seen for, with a new token. -/
def Holder.share (g : Holder) (refreshToken new : String) : List (String × String) :=
  (g.refresh.filter fun x => x.2 = refreshToken).map fun x => (x.1, new)

theorem Holder.mem_share {g : Holder} {refreshToken new id t : String} :
    (id, t) ∈ g.share refreshToken new ↔ (id, refreshToken) ∈ g.refresh ∧ t = new := by
  unfold share
  constructor
  · intro h
    obtain ⟨⟨id', rt⟩, hx, heq⟩ := List.mem_map.mp h
    obtain ⟨hmem, hrt⟩ := List.mem_filter.mp hx
    cases heq
    simp only [decide_eq_true_eq] at hrt
    exact ⟨hrt ▸ hmem, rfl⟩
  · rintro ⟨hmem, rfl⟩
    exact List.mem_map.mpr ⟨(id, refreshToken), List.mem_filter.mpr ⟨hmem, by simp⟩, rfl⟩

/-- A call presents, writes and sends tokens of the account it does so for, or those it was granted for a
consent. -/
def holderMonitor : Monitor AppSig Holder where
  allows g o := match o with
    | .tokensGet _ => g.consent = .none
    | .token (.refresh rt) => g.consent = .none ∧ ∃ id, (id, rt) ∈ g.refresh
    | .token (.exchangeCode _ _) => g.consent = .none ∧ g.refresh = []
    | .tokensUpsert id token =>
      g.consent = .none ∧ (id, token.accessToken) ∈ g.access ∧ (id, token.refreshToken) ∈ g.refresh ∨
        ∃ response, g.consent = .granted response token.refreshToken ∧
          token.accessToken = response.accessToken
    | .graph request => ∃ account, (g.named account ∧ g.found account) ∧
        (account.id, request.bearer) ∈ g.access
    | _ => True
  expects g o r := match o, r with
    | .accountsGet tenant id, .ok account =>
      g.found account ∧ account.tenantId = tenant ∧ account.id = id
    | .accountsGetByEmail tenant email, .ok account => g.found account ∧ account.tenantId = tenant ∧
        sqliteLower account.emailAddress = sqliteLower email
    | _, _ => True
  next g o r := match o, r with
    | .tokensGet id, .ok (some token) =>
      { g with
        access := (id, token.accessToken) :: g.access
        refresh := (id, token.refreshToken) :: g.refresh }
    | .token (.refresh rt), .ok response =>
      { g with
        access := g.share rt response.accessToken ++ g.access
        refresh := (match response.refreshToken with
          | some new => g.share rt new
          | none => []) ++ g.refresh }
    | .token (.exchangeCode _ _), .ok response =>
      { g with
        consent := match response.refreshToken with
          | some refreshToken => .granted response refreshToken
          | none => .none }
    | .tokensUpsert id _, .ok _ =>
      { g with
        consent := match g.consent with
          | .granted _ _ => .stored id
          | consent => consent }
    | _, _ => g

/-! ### The tasks follow the protocol -/

section Protocol

variable {P F : Account → Prop} {g : Holder} {accountId : String}

/-- Between its pieces a task that is no consent. -/
structure Working (P F : Account → Prop) (g : Holder) : Prop where
  named : g.named = P
  found : g.found = F
  consent : g.consent = .none

/-- It has seen the tokens of the account. -/
structure HoldsToken (P F : Account → Prop) (accountId : String) (token : StoredToken) (g : Holder) :
    Prop where
  working : Working P F g
  access : (accountId, token.accessToken) ∈ g.access
  refresh : (accountId, token.refreshToken) ∈ g.refresh

theorem holder_silent {o : Op} (hallows : ∀ g, holderMonitor.allows g o)
    (hnext : ∀ g r, holderMonitor.next g o r = g) : holderMonitor.Silent o :=
  fun g => ⟨hallows g, hnext g⟩

theorem holder_utcNow : holderMonitor.Silent .utcNow :=
  holder_silent (fun _ => trivial) fun _ _ => rfl

/-- A call that is no consent stays what it is when it writes. -/
theorem holder_upsert {token : StoredToken} (h : HoldsToken P F accountId token g) :
    holderMonitor.SilentAt g (.tokensUpsert accountId token) := by
  refine ⟨Or.inl ⟨h.working.consent, h.access, h.refresh⟩, fun r => ?_⟩
  have hconsent := h.working.consent
  obtain ⟨named, found, access, refresh, consent⟩ := g
  cases r with
  | error e => rfl
  | ok _ =>
    cases hconsent
    rfl

theorem holder_refreshLocked (hg : Working P F g) :
    Stays holderMonitor (Working P F) g (TokenManager.refreshLocked oauth accountId).run := by
  unfold TokenManager.refreshLocked
  refine follows_op hg.consent fun r _ => follows_check_bind (fun current hr => ?_) fun e hr => ?_
  · subst hr
    cases current with
    | none => exact hg
    | some current =>
      have hread : Working P F (holderMonitor.next g (.tokensGet accountId) (.ok (some current))) :=
        ⟨hg.named, hg.found, hg.consent⟩
      refine (follows_run_bind _ _ _).mpr (follows_requestTokens holder_utcNow
        ⟨hg.consent, accountId, List.mem_cons_self⟩ (fun _ => hread) (fun _ _ => hread)
        fun response _ => ⟨fun ts haccess hrefresh => ?_, fun _ => ⟨hg.named, hg.found, hg.consent⟩⟩)
      refine follows_op_silent (holder_utcNow _) fun lastUsedAt _ =>
        follows_op_silent (holder_utcNow _) fun updatedAt _ => ?_
      refine stays_op_bind (holder_upsert ⟨⟨hg.named, hg.found, hg.consent⟩, ?_, ?_⟩) fun _ =>
        stays_check ⟨hg.named, hg.found, hg.consent⟩ _
      · apply List.mem_append_left
        exact Holder.mem_share.mpr ⟨List.mem_cons_self, haccess⟩
      · -- The token of the reply, or the presented one where the reply has none.
        show (accountId, ts.refreshToken.getD current.refreshToken) ∈ _
        rw [hrefresh]
        cases hrt : response.refreshToken with
        | none => exact List.mem_append_right _ List.mem_cons_self
        | some new =>
          apply List.mem_append_left
          simp only [hrt]
          exact Holder.mem_share.mpr ⟨List.mem_cons_self, rfl⟩
  · subst hr
    exact hg

theorem holder_refreshAccount (hg : Working P F g) :
    Stays holderMonitor (Working P F) g (TokenManager.refreshAccount oauth accountId).run := by
  unfold TokenManager.refreshAccount
  refine follows_op_silent ⟨trivial, fun _ => rfl⟩ fun _ _ =>
    follows_op_silent ⟨trivial, fun _ => rfl⟩ fun _ _ => ?_
  refine (follows_bind _ _ _).mpr (follows_mono (fun g r hg => ?_) (holder_refreshLocked hg))
  exact follows_silent ⟨trivial, fun _ => rfl⟩ fun _ _ => hg

/-- The access tokens of the account that the call has seen. -/
abbrev SeenFor (accountId : String) (g : Holder) (t : String) : Prop := (accountId, t) ∈ g.access

theorem holder_writeUsage {token : StoredToken} (h : HoldsToken P F accountId token g) :
    Stays holderMonitor (HoldsToken P F accountId token) g
      (TokenManager.writeUsage accountId token).run := by
  unfold TokenManager.writeUsage
  refine stays_op_bind (holder_utcNow _) fun _ => stays_op_bind (holder_utcNow _) fun _ => ?_
  exact stays_op_bind (holder_upsert ⟨h.working, h.access, h.refresh⟩) fun _ => h

theorem holder_bumpLastUsed {token : StoredToken} (h : HoldsToken P F accountId token g) :
    Stays holderMonitor (HoldsToken P F accountId token) g
      (TokenManager.bumpLastUsed accountId token).run := by
  unfold TokenManager.bumpLastUsed
  cases token.lastUsedAt with
  | none => exact holder_writeUsage h
  | some last =>
    refine stays_op_bind (holder_utcNow _) fun now => ?_
    split
    · exact holder_writeUsage h
    · exact h

theorem holder_refreshAndGet (hg : Working P F g) :
    Yields holderMonitor (Working P F) (SeenFor accountId) g
      (TokenManager.refreshAndGet oauth accountId).run := by
  unfold TokenManager.refreshAndGet
  refine (follows_run_bind _ _ _).mpr (follows_mono (fun g r hg => ?_) (holder_refreshAccount hg))
  cases r with
  | error e => exact ⟨hg, fun _ h => by simp at h⟩
  | ok _ =>
    refine follows_op hg.consent fun r _ => follows_check_bind (fun token hr => ?_) fun e hr => ?_
    · subst hr
      cases token with
      | none => exact ⟨hg, fun _ h => by cases h⟩
      | some token =>
        refine ⟨⟨hg.named, hg.found, hg.consent⟩, fun t ht => ?_⟩
        cases ht
        exact List.mem_cons_self
    · subst hr
      exact ⟨hg, fun _ h => by simp at h⟩

theorem holder_getCached {token : StoredToken} (h : HoldsToken P F accountId token g) :
    Yields holderMonitor (Working P F) (SeenFor accountId) g
      (TokenManager.getCached oauth accountId token).run := by
  unfold TokenManager.getCached
  cases token.expiresAt with
  | none => exact holder_refreshAndGet h.working
  | some expiresAt =>
    refine follows_op_silent (holder_utcNow _) fun now _ =>
      follows_orPanic_bind (fun limit _ => ?_) ⟨h.working, fun _ h => by simp at h⟩
    split
    · refine (follows_run_bind _ _ _).mpr (follows_mono (fun g r h => ?_) (holder_bumpLastUsed h))
      cases r with
      | error e => exact ⟨h.working, fun _ h => by simp at h⟩
      | ok _ =>
        refine ⟨h.working, fun t ht => ?_⟩
        cases ht
        exact h.access
    · exact holder_refreshAndGet h.working

/-- **An access token that a call comes by is one of the account.** -/
theorem holder_getAccessToken (hg : Working P F g) :
    Yields holderMonitor (Working P F) (SeenFor accountId) g
      (TokenManager.getAccessToken oauth accountId).run := by
  unfold TokenManager.getAccessToken
  refine follows_op hg.consent fun r _ => follows_check_bind (fun token hr => ?_) fun e hr => ?_
  · subst hr
    cases token with
    | none => exact holder_refreshAndGet hg
    | some token =>
      exact holder_getCached ⟨⟨hg.named, hg.found, hg.consent⟩, List.mem_cons_self, List.mem_cons_self⟩
  · subst hr
    exact ⟨hg, fun _ h => by simp at h⟩

theorem holder_rules (P F : Account → Prop) :
    TaskRules holderMonitor (Working P F) (fun g id t => SeenFor id g t) P
      fun account => P account ∧ F account where
  plain o ho g _ := by
    cases o with
    | accountsList | accountsListAll | accountsSetStatus | accountsDelete | tokensDelete
    | tokensListInactive | flowsInsert | utcNow | newPkce | newCsrf =>
      exact ⟨trivial, fun _ => rfl⟩
    | _ => simp [Op.plain] at ho
  lookup g tenantId id hg hnamed := ⟨trivial, fun r hr => ⟨hg, fun account hok => by
    subst hok
    obtain ⟨hfound, htenant, hid⟩ := hr
    exact ⟨hnamed account htenant hid, hg.found ▸ hfound⟩⟩⟩
  lookupEmail g tenantId email hg hnamed := ⟨trivial, fun r hr => ⟨hg, fun account hok => by
    subst hok
    obtain ⟨hfound, htenant, hemail⟩ := hr
    exact ⟨hnamed account htenant hemail, hg.found ▸ hfound⟩⟩⟩
  refresh _ _ _ hg := holder_refreshAccount hg
  access _ _ _ hg := holder_getAccessToken hg
  mail g account request hg hsubject hseen :=
    ⟨⟨account, by rw [hg.named, hg.found]; exact hsubject, hseen⟩, fun _ => rfl⟩

/-! A consent works with the tokens it was granted. -/

theorem holder_flowAccount {tenantId : String} {identity : ResolvedIdentity} :
    Stays holderMonitor (fun g' => g' = g) g (TokenManager.flowAccount tenantId identity).run := by
  unfold TokenManager.flowAccount
  refine stays_op_bind ⟨trivial, fun _ => rfl⟩ fun r => ?_
  cases r with
  | ok existing => exact stays_op_bind ⟨trivial, fun _ => rfl⟩ fun _ => rfl
  | error e =>
    cases e with
    | notFound msg =>
      exact stays_op_bind ⟨trivial, fun _ => rfl⟩ fun _ =>
        stays_op_bind ⟨trivial, fun _ => rfl⟩ fun _ =>
          stays_op_bind ⟨trivial, fun _ => rfl⟩ fun _ => rfl
    | _ => rfl

theorem holder_ensureAccount {tenantId : String} {account : Account} :
    Stays holderMonitor (fun g' => g' = g) g (TokenManager.ensureAccount tenantId account).run := by
  unfold TokenManager.ensureAccount
  refine stays_op_bind ⟨trivial, fun _ => rfl⟩ fun r => ?_
  cases r with
  | ok _ => rfl
  | error e =>
    exact stays_op_bind ⟨trivial, fun _ => rfl⟩ fun _ => follows_check (fun _ _ => rfl) fun _ _ => rfl

theorem holder_connect {tenantId : String} {tokenSet : TokenSet} {response : TokenResponse}
    {refreshToken : String} (hg : g.consent = .granted response refreshToken)
    (haccess : tokenSet.accessToken = response.accessToken) :
    Stays holderMonitor (fun _ => True) g
      (TokenManager.connect tenantId tokenSet refreshToken).run := by
  unfold TokenManager.connect
  refine stays_op_bind ⟨trivial, fun _ => rfl⟩ fun r => stays_check_bind trivial fun identity => ?_
  refine (follows_run_bind _ _ _).mpr (follows_mono (fun g' r h => ?_) holder_flowAccount)
  subst h
  cases r with
  | error e => trivial
  | ok account =>
    refine stays_op_bind (holder_utcNow _) fun _ => stays_op_bind (holder_utcNow _) fun _ => ?_
    refine (follows_run_bind _ _ _).mpr (follows_mono (fun g' r h => ?_) holder_ensureAccount)
    subst h
    cases r with
    | error e => trivial
    | ok _ =>
      refine follows_op (Or.inr ⟨response, hg, haccess⟩) fun r _ => ?_
      exact stays_check_bind trivial fun _ => trivial

theorem holder_completeFlow {code state : String} (hconsent : g.consent = .none)
    (hrefresh : g.refresh = []) :
    Stays holderMonitor (fun _ => True) g (TokenManager.completeFlow oauth code state).run := by
  unfold TokenManager.completeFlow
  refine follows_op trivial fun r _ => follows_check_bind (fun flow _ => ?_) fun _ _ => trivial
  refine (follows_run_bind _ _ _).mpr (follows_requestTokens holder_utcNow ⟨hconsent, hrefresh⟩
    (fun _ => trivial) (fun _ _ => trivial) fun response _ => ⟨fun ts haccess hrt => ?_,
      fun _ => trivial⟩)
  dsimp only
  rw [hrt]
  cases hgranted : response.refreshToken with
  | none => trivial
  | some refreshToken =>
    refine holder_connect ?_ haccess
    show (match response.refreshToken with
      | some refreshToken => Consent.granted response refreshToken
      | none => .none) = _
    rw [hgranted]

theorem holder_callback {params : CallbackParams} (hconsent : g.consent = .none)
    (hrefresh : g.refresh = []) :
    Stays holderMonitor (fun _ => True) g (completeCallback oauth params).run :=
  follows_completeCallback (fun _ => trivial) fun _ _ => holder_completeFlow hconsent hrefresh

/-- **Every task** presents, writes and sends tokens of its account. -/
theorem holder_task {task : Task} (hgiven : ∀ limit account, task = .fetch limit account → F account) :
    Follows holderMonitor (fun _ _ => True) ⟨task.Names server, F, [], [], .none⟩
      (task.prog server) := by
  refine (holder_rules (task.Names server) F).follows_task ⟨rfl, rfl, rfl⟩ (fun _ h => h) ?_
    (fun _ _ => trivial) fun _ _ => holder_callback rfl rfl
  rintro limit account rfl
  exact ⟨rfl, hgiven limit account rfl⟩

end Protocol

end UniMail
