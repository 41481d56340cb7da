import UniMail.Auth.AccessToken
import UniMail.Provider.Graph

/-!
# One retry

`send_authorized` composes two token fetches, each of which may refresh, a forced refresh and two
requests. The ghost state of a call (`SendGhost`) is the request that was answered with 401, what has
become of the refresh since then, and the access token the record is known to hold.
`sendMonitor` allows a second request only for the token of the last refresh, once it is stored, and
`follows_sendAuthorized_once` walks through the call.

`mail_accepted_once` reads off every run what the monitor says: at most two requests go out, and the
second one carries a token that was issued after the first was rejected.
-/

namespace UniMail

open Interaction

variable {aead : Aead} {chrono : Chrono} {key : Key} {oauth : OAuthClient} {graph : MicrosoftGraph}
  {account : Account} {accountId : String} {α : Type}

/-! ### What a call shows -/

/-- The operations of one call, with the replies. -/
abbrev Calls := List ((o : Op) × Op.Reply o)

/-- The requests to Graph with their answers. -/
def sends (calls : Calls) : List (GraphRequest × Except String GraphResponse) :=
  calls.filterMap fun
    | ⟨.graph request, answer⟩ => some (request, answer)
    | _ => none

/-- The replies to the refresh requests. -/
def refreshReplies (calls : Calls) : List (Except String TokenResponse) :=
  calls.filterMap fun
    | ⟨.token (.refresh _), reply⟩ => some reply
    | _ => none

/-- Graph reports that it does not accept the access token. -/
def Unauthorized : Except String GraphResponse → Prop
  | .ok response => response.status = 401
  | .error _ => False

instance : DecidablePred Unauthorized
  | .ok response => inferInstanceAs (Decidable (response.status = 401))
  | .error _ => .isFalse not_false

/-- The last refresh requested in `calls` has succeeded, with this response. -/
structure Renews (accountId : String) (calls : Calls) (response : TokenResponse) : Prop where
  last : (refreshReplies calls).getLast? = some (.ok response)
  stored : ∃ token : StoredToken, ⟨.tokensUpsert accountId token, .ok ()⟩ ∈ calls ∧
    token.accessToken = response.accessToken

/-- A request is accepted at most once, and repeated only with a renewed token. -/
structure AcceptedOnce (accountId : String) (calls : Calls) : Prop where
  atMostTwice : (sends calls).length ≤ 2
  accepted : ((sends calls).filter fun s => ¬ Unauthorized s.2).length ≤ 1
  renewed : ∀ past first answer between second answer' rest,
    calls = past ++ ⟨.graph first, answer⟩ :: between ++ ⟨.graph second, answer'⟩ :: rest →
      Unauthorized answer ∧ ∃ response, Renews accountId between response ∧
        second = { first with bearer := response.accessToken }

@[simp] theorem sends_append (calls calls' : Calls) :
    sends (calls ++ calls') = sends calls ++ sends calls' :=
  List.filterMap_append ..

@[simp] theorem sends_graph (request : GraphRequest) (answer : Except String GraphResponse)
    (calls : Calls) : sends (⟨.graph request, answer⟩ :: calls) = (request, answer) :: sends calls :=
  rfl

@[simp] theorem refreshReplies_append (calls calls' : Calls) :
    refreshReplies (calls ++ calls') = refreshReplies calls ++ refreshReplies calls' :=
  List.filterMap_append ..

/-- The first request of a call splits its operations in one way. -/
theorem sends_split {past past' rest rest' : Calls} {first first' : GraphRequest}
    {answer answer' : Except String GraphResponse} (hpast : sends past = [])
    (hpast' : sends past' = [])
    (h : past ++ ⟨.graph first, answer⟩ :: rest = past' ++ ⟨.graph first', answer'⟩ :: rest') :
    past = past' ∧ first = first' ∧ answer = answer' ∧ rest = rest' := by
  induction past generalizing past' with
  | nil =>
    cases past' with
    | nil =>
      cases h
      exact ⟨rfl, rfl, rfl, rfl⟩
    | cons c past' =>
      obtain ⟨rfl, _⟩ := List.cons.inj h
      simp at hpast'
  | cons c past ih =>
    cases past' with
    | nil =>
      obtain ⟨rfl, _⟩ := List.cons.inj h
      simp at hpast
    | cons c' past' =>
      obtain ⟨rfl, htail⟩ := List.cons.inj h
      have hsplit : ∀ l : Calls, sends (c :: l) = sends [c] ++ sends l := fun l => sends_append [c] l
      rw [hsplit, List.append_eq_nil_iff] at hpast hpast'
      obtain ⟨rfl, hrest⟩ := ih hpast.2 hpast'.2 htail
      exact ⟨rfl, hrest⟩

/-! ### The protocol -/

/-- How far the call is: nothing is sent, a request was answered with 401, or no request is left. -/
inductive SendStage
  | unsent
  | rejected (first : GraphRequest)
  | over

/-- What has become of the refresh: none is granted, one is, or its token is stored too. -/
inductive Renewal
  | missing
  | granted (response : TokenResponse)
  | stored (response : TokenResponse)

structure SendGhost where
  stage : SendStage
  renewal : Renewal
  held : Option String

def SendStage.next (stage : SendStage) (request : GraphRequest) (answer : Except String GraphResponse) :
    SendStage :=
  match stage with
  | .unsent => if Unauthorized answer then .rejected request else .over
  | _ => .over

def Renewal.write (renewal : Renewal) (token : StoredToken) : Renewal :=
  match renewal with
  | .granted response =>
    if token.accessToken = response.accessToken then .stored response else .granted response
  | renewal => renewal

def SendGhost.next (g : SendGhost) : (o : Op) → Op.Reply o → SendGhost
  | .graph request, answer => { g with stage := g.stage.next request answer, renewal := .missing }
  | .token (.refresh _), .ok response => { g with renewal := .granted response }
  | .token (.refresh _), .error _ => { g with renewal := .missing }
  | .tokensGet _, .ok (some token) => { g with held := some token.accessToken }
  | .tokensUpsert _ token, .ok _ =>
    { g with renewal := g.renewal.write token, held := some token.accessToken }
  | _, _ => g

/-- A second request repeats the first with the access token of the last refresh. -/
def SendGhost.mayRequest (g : SendGhost) (request : GraphRequest) : Prop :=
  match g.stage with
  | .unsent => True
  | .rejected first => ∃ response, g.renewal = .stored response ∧
      request = { first with bearer := response.accessToken }
  | .over => False

def sendMonitor (accountId : String) : Monitor AppSig SendGhost where
  allows g o := match o with
    | .graph request => g.mayRequest request
    | .tokensGet id => id = accountId
    | .tokensUpsert id _ => id = accountId
    | o => o.writesTokens = false
  expects g o r := match o, r with
    | .tokensGet _, .ok (some token) => ∀ t, g.held = some t → token.accessToken = t
    | _, _ => True
  next := SendGhost.next

/-- The last refresh has succeeded, and the record is known to hold its access token. -/
def SendGhost.Renewed (g : SendGhost) : Prop :=
  ∃ response, g.renewal = .stored response ∧ g.held = some response.accessToken

theorem send_silent {o : Op} (hallows : ∀ g, (sendMonitor accountId).allows g o)
    (hnext : ∀ g r, SendGhost.next g o r = g) : (sendMonitor accountId).Silent o :=
  fun g => ⟨hallows g, hnext g⟩

theorem send_silent_utcNow : (sendMonitor accountId).Silent .utcNow :=
  send_silent (fun _ => rfl) fun _ _ => rfl

/-- A refresh that succeeds leaves its token in the record. -/
theorem send_refreshLocked (g : SendGhost) :
    Follows (sendMonitor accountId) (fun g' r => g'.stage = g.stage ∧ (r = .ok () → g'.Renewed)) g
      (TokenManager.refreshLocked oauth accountId).run := by
  have hnow : (sendMonitor accountId).Silent .utcNow := send_silent_utcNow
  unfold TokenManager.refreshLocked
  refine follows_op rfl fun r _ => follows_check_bind (fun current hr => ?_) fun e hr => ?_
  · subst hr
    cases current with
    | none => exact ⟨rfl, nofun⟩
    | some current =>
      refine (follows_run_bind _ _ _).mpr (follows_requestTokens hnow rfl (fun _ => ⟨rfl, nofun⟩)
        (fun _ _ => ⟨rfl, nofun⟩) fun response _ => ⟨fun ts hts _ => ?_, fun _ => ⟨rfl, nofun⟩⟩)
      refine follows_op_silent (hnow _) fun _ _ => follows_op_silent (hnow _) fun _ _ => ?_
      refine follows_op rfl fun r _ => follows_check (fun u hr => ?_) fun e hr => ?_
      · subst hr
        refine ⟨rfl, fun _ => ⟨response, ?_, congrArg some hts⟩⟩
        exact if_pos hts
      · subst hr
        exact ⟨rfl, nofun⟩
  · subst hr
    exact ⟨rfl, nofun⟩

theorem send_refreshAccount (g : SendGhost) :
    Follows (sendMonitor accountId) (fun g' r => g'.stage = g.stage ∧ (r = .ok () → g'.Renewed)) g
      (TokenManager.refreshAccount oauth accountId).run := by
  unfold TokenManager.refreshAccount
  refine follows_op rfl fun _ _ => follows_op rfl fun _ _ => ?_
  refine (follows_bind _ _ _).mpr (follows_mono (fun g' r hr => ?_) (send_refreshLocked g))
  exact follows_op (f := fun _ => ExceptT.mk (.ret r)) rfl fun _ _ => hr

/-- The record is written back: it holds the same access token as before. -/
theorem send_writeUsage {token : StoredToken} {g : SendGhost} (hg : g.held = some token.accessToken) :
    Follows (sendMonitor accountId)
      (fun g' _ => g'.stage = g.stage ∧ g'.held = g.held ∧ (g.Renewed → g'.Renewed)) g
      (TokenManager.writeUsage accountId token).run := by
  have hnow : (sendMonitor accountId).Silent .utcNow := send_silent_utcNow
  unfold TokenManager.writeUsage
  refine follows_op_silent (hnow _) fun _ _ => follows_op_silent (hnow _) fun _ _ => ?_
  apply follows_op rfl
  intro r _
  cases r with
  | error e => exact ⟨rfl, rfl, id⟩
  | ok u =>
    refine ⟨rfl, hg.symm, ?_⟩
    rintro ⟨response, hstored, hheld⟩
    refine ⟨response, ?_, hg.symm.trans hheld⟩
    show g.renewal.write _ = _
    rw [hstored]
    rfl

theorem send_bumpLastUsed {token : StoredToken} {g : SendGhost}
    (hg : g.held = some token.accessToken) :
    Follows (sendMonitor accountId)
      (fun g' _ => g'.stage = g.stage ∧ g'.held = g.held ∧ (g.Renewed → g'.Renewed)) g
      (TokenManager.bumpLastUsed accountId token).run := by
  unfold TokenManager.bumpLastUsed
  cases token.lastUsedAt with
  | none => exact send_writeUsage hg
  | some last =>
    apply follows_op_silent (send_silent_utcNow _)
    intro now _
    split
    · exact send_writeUsage hg
    · exact ⟨rfl, rfl, id⟩

/-- A token that a call for it returns is the one in the record; a renewed one stays so. -/
def Fetched (g g' : SendGhost) (r : Outcome String) : Prop :=
  g'.stage = g.stage ∧ ∀ token, r = .ok token → g'.held = some token ∧ (g.Renewed → g'.Renewed)

theorem Fetched.failed (g : SendGhost) (e : Failure) : Fetched g g (.error e) := ⟨rfl, nofun⟩

/-- What is read is what the record is known to hold. -/
theorem SendGhost.Renewed.read {g : SendGhost} {token : StoredToken} (h : g.Renewed)
    (hexpects : ∀ t, g.held = some t → token.accessToken = t) :
    SendGhost.Renewed { g with held := some token.accessToken } := by
  obtain ⟨response, hstored, hheld⟩ := h
  exact ⟨response, hstored, congrArg some (hexpects _ hheld)⟩

theorem send_refreshAndGet (g : SendGhost) :
    Follows (sendMonitor accountId) (Fetched g) g
      (TokenManager.refreshAndGet oauth accountId).run := by
  unfold TokenManager.refreshAndGet
  refine (follows_run_bind _ _ _).mpr (follows_mono (fun g' r hr => ?_) (send_refreshAccount g))
  obtain ⟨hstage, hrenewed⟩ := hr
  cases r with
  | error e => exact ⟨hstage, nofun⟩
  | ok u =>
    refine follows_op rfl fun r hexpects => follows_check_bind (fun token hr => ?_) fun e hr => ?_
    · subst hr
      cases token with
      | none => exact ⟨hstage, nofun⟩
      | some token =>
        refine ⟨hstage, ?_⟩
        rintro _ ⟨⟩
        exact ⟨rfl, fun _ => (hrenewed rfl).read hexpects⟩
    · subst hr
      exact ⟨hstage, nofun⟩

theorem send_getCached {token : StoredToken} {g : SendGhost}
    (hg : g.held = some token.accessToken) :
    Follows (sendMonitor accountId) (Fetched g) g
      (TokenManager.getCached oauth accountId token).run := by
  unfold TokenManager.getCached
  cases token.expiresAt with
  | none => exact send_refreshAndGet g
  | some expiresAt =>
    apply follows_op_silent (send_silent_utcNow _)
    intro now _
    refine follows_orPanic_bind (fun limit _ => ?_) (Fetched.failed g _)
    split
    · refine (follows_run_bind _ _ _).mpr (follows_mono (fun g' r hr => ?_) (send_bumpLastUsed hg))
      obtain ⟨hstage, hheld, hrenewed⟩ := hr
      cases r with
      | error e => exact ⟨hstage, nofun⟩
      | ok u =>
        refine ⟨hstage, ?_⟩
        rintro _ ⟨⟩
        exact ⟨hheld.trans hg, hrenewed⟩
    · exact send_refreshAndGet g

theorem send_getAccessToken (g : SendGhost) :
    Follows (sendMonitor accountId) (Fetched g) g
      (TokenManager.getAccessToken oauth accountId).run := by
  unfold TokenManager.getAccessToken
  refine follows_op rfl fun r hexpects => follows_check_bind (fun token hr => ?_) fun e hr => ?_
  · subst hr
    cases token with
    | none => exact send_refreshAndGet g
    | some token =>
      refine follows_mono (fun g' r hr => ⟨hr.1, fun t ht => ?_⟩) (send_getCached rfl)
      obtain ⟨hheld, hrenewed⟩ := hr.2 t ht
      exact ⟨hheld, fun h => hrenewed (h.read hexpects)⟩
  · subst hr
    exact Fetched.failed g _

/-! ### The call -/

theorem send_send {method : Method} {url bearer : String} {body : Option Json} {g : SendGhost}
    (hg : g.mayRequest { method, url, bearer, body }) :
    Follows (sendMonitor accountId) (fun g' r => ∀ response, r = .ok response →
        response.status = 401 → g.stage = .unsent →
          g'.stage = .rejected { method, url, bearer, body }) g
      (MicrosoftGraph.send method url bearer body).run := by
  unfold MicrosoftGraph.send
  refine follows_op hg fun answer _ => follows_check (fun response hr => ?_) fun e _ => nofun
  cases answer with
  | error e => cases hr
  | ok answer =>
    cases hr
    rintro _ ⟨⟩ hstatus hunsent
    show g.stage.next _ _ = _
    rw [hunsent]
    exact if_pos hstatus

/-- `send_authorized` repeats its request only with a token that is renewed. -/
theorem follows_sendAuthorized_once {method : Method} {url : String} {body : Option Json}
    {g : SendGhost} (hg : g.stage = .unsent) :
    Follows (sendMonitor account.id) (fun _ _ => True) g
      (graph.sendAuthorized account method url body).run := by
  unfold MicrosoftGraph.sendAuthorized
  refine (follows_run_bind _ _ _).mpr (follows_mono (fun g₁ r hfetched => ?_) (send_getAccessToken g))
  cases r with
  | error e => trivial
  | ok token =>
    have hunsent : g₁.stage = .unsent := hfetched.1.trans hg
    have hmay : g₁.mayRequest { method, url, bearer := token, body } := by
      unfold SendGhost.mayRequest
      rw [hunsent]
      trivial
    refine (follows_run_bind _ _ _).mpr (follows_mono (fun g₂ r hsent => ?_) (send_send hmay))
    cases r with
    | error e => trivial
    | ok response =>
      dsimp only
      split
      · rename_i hstatus
        have hrejected := hsent response rfl hstatus hunsent
        refine (follows_run_bind _ _ _).mpr
          (follows_mono (fun g₃ r hrefreshed => ?_) (send_refreshAccount g₂))
        cases r with
        | error e => trivial
        | ok u =>
          refine (follows_run_bind _ _ _).mpr
            (follows_mono (fun g₄ r hfetched => ?_) (send_getAccessToken g₃))
          cases r with
          | error e => trivial
          | ok token' =>
            -- What is fetched after the refresh is the token the refresh stored.
            obtain ⟨hheld, hrenewed⟩ := hfetched.2 token' rfl
            obtain ⟨response', hstored, hheld'⟩ := hrenewed (hrefreshed.2 rfl)
            obtain rfl := Option.some.inj (hheld.symm.trans hheld')
            refine follows_mono (fun _ _ _ => trivial) (send_send ?_)
            unfold SendGhost.mayRequest
            rw [hfetched.1, hrefreshed.1, hrejected]
            exact ⟨response', hstored, rfl⟩
      · trivial

theorem follows_sendMessage_once {recipient subject body : String} {g : SendGhost}
    (hg : g.stage = .unsent) :
    Follows (sendMonitor account.id) (fun _ _ => True) g
      (graph.sendMessage account recipient subject body).run := by
  unfold MicrosoftGraph.sendMessage
  refine follows_check_bind (fun url _ => ?_) fun _ _ => trivial
  refine (follows_run_bind _ _ _).mpr
    (follows_mono (fun g r _ => ?_) (follows_sendAuthorized_once hg))
  cases r with
  | error e => trivial
  | ok response =>
    dsimp only
    split <;> trivial

/-! ### What the stages show -/

/-- What the operations of the call have to do with its ghost state. -/
inductive Renewal.Shows (accountId : String) (between : Calls) : Renewal → Prop
  | missing : Shows accountId between .missing
  | granted {response : TokenResponse}
      (hlast : (refreshReplies between).getLast? = some (.ok response)) :
      Shows accountId between (.granted response)
  | stored {response : TokenResponse} (h : Renews accountId between response) :
      Shows accountId between (.stored response)

inductive SendStage.Shows (accountId : String) (renewal : Renewal) : Calls → SendStage → Prop
  | unsent {calls : Calls} (hcalls : sends calls = []) : Shows accountId renewal calls .unsent
  | rejected {past between : Calls} {first : GraphRequest} {answer : Except String GraphResponse}
      (hpast : sends past = []) (hbetween : sends between = []) (hanswer : Unauthorized answer)
      (hrenewal : renewal.Shows accountId between) :
      Shows accountId renewal (past ++ ⟨.graph first, answer⟩ :: between) (.rejected first)
  | once {past rest : Calls} {first : GraphRequest} {answer : Except String GraphResponse}
      (hpast : sends past = []) (hrest : sends rest = []) :
      Shows accountId renewal (past ++ ⟨.graph first, answer⟩ :: rest) .over
  | twice {past between rest : Calls} {first : GraphRequest}
      {answer answer' : Except String GraphResponse} {response : TokenResponse}
      (hpast : sends past = []) (hbetween : sends between = []) (hrest : sends rest = [])
      (hanswer : Unauthorized answer) (hrenews : Renews accountId between response) :
      Shows accountId renewal (past ++ ⟨.graph first, answer⟩ ::
        (between ++ ⟨.graph { first with bearer := response.accessToken }, answer'⟩ :: rest)) .over

section Shows

variable {between calls : Calls} {renewal renewal' : Renewal} {stage : SendStage} {g : SendGhost}

theorem refreshReplies_snoc {c : (o : Op) × Op.Reply o} (hc : refreshReplies [c] = []) :
    refreshReplies (between ++ [c]) = refreshReplies between := by
  rw [refreshReplies_append, hc, List.append_nil]

/-- An operation that is no refresh request keeps what is known of the refresh. -/
theorem Renewal.Shows.snoc {c : (o : Op) × Op.Reply o} (h : renewal.Shows accountId between)
    (hc : refreshReplies [c] = []) : renewal.Shows accountId (between ++ [c]) := by
  have hreplies : refreshReplies (between ++ [c]) = refreshReplies between := refreshReplies_snoc hc
  cases h with
  | missing => exact .missing
  | granted hlast => exact .granted (hreplies ▸ hlast)
  | stored h =>
    obtain ⟨token, hmem, htoken⟩ := h.stored
    exact .stored ⟨hreplies ▸ h.last, token, List.mem_append_left _ hmem, htoken⟩

theorem Renewal.Shows.write {token : StoredToken} {u : Unit} (h : renewal.Shows accountId between) :
    (renewal.write token).Shows accountId (between ++ [⟨.tokensUpsert accountId token, .ok u⟩]) := by
  have hsnoc := h.snoc (c := ⟨.tokensUpsert accountId token, .ok u⟩) rfl
  cases h with
  | missing => exact hsnoc
  | stored h => exact hsnoc
  | granted hlast =>
    unfold Renewal.write
    dsimp only
    split
    · rename_i htoken
      exact .stored ⟨(congrArg List.getLast? (refreshReplies_snoc rfl)).trans hlast, token, by simp,
        htoken⟩
    · exact hsnoc

/-- An operation that is no request to Graph leaves the call at its stage. -/
theorem SendStage.Shows.snoc {c : (o : Op) × Op.Reply o} (h : stage.Shows accountId renewal calls)
    (hc : sends [c] = []) (hrenewal : ∀ between, renewal.Shows accountId between →
      renewal'.Shows accountId (between ++ [c])) :
    stage.Shows accountId renewal' (calls ++ [c]) := by
  have hsends : ∀ l : Calls, sends l = [] → sends (l ++ [c]) = [] := by
    intro l hl
    rw [sends_append, hl, hc, List.append_nil]
  cases h with
  | unsent hcalls => exact .unsent (hsends _ hcalls)
  | rejected hpast hbetween hanswer h =>
    rw [List.append_assoc, List.cons_append]
    exact .rejected hpast (hsends _ hbetween) hanswer (hrenewal _ h)
  | once hpast hrest =>
    rw [List.append_assoc, List.cons_append]
    exact .once hpast (hsends _ hrest)
  | twice hpast hbetween hrest hanswer hrenews =>
    simp only [List.append_assoc, List.cons_append]
    exact .twice hpast hbetween (hsends _ hrest) hanswer hrenews

theorem SendStage.Shows.request {request : GraphRequest} {answer : Except String GraphResponse}
    (h : g.stage.Shows accountId g.renewal calls) (hmay : g.mayRequest request) :
    (g.stage.next request answer).Shows accountId .missing (calls ++ [⟨.graph request, answer⟩]) := by
  obtain ⟨stage, renewal, held⟩ := g
  unfold SendGhost.mayRequest at hmay
  cases h with
  | unsent hcalls =>
    show SendStage.Shows _ _ _ (if _ then _ else _)
    split
    · rename_i hanswer
      exact .rejected hcalls rfl hanswer .missing
    · exact .once hcalls rfl
  | rejected hpast hbetween hanswer hrenewal =>
    obtain ⟨response, hstored, rfl⟩ := hmay
    obtain rfl : renewal = .stored response := hstored
    cases hrenewal with
    | stored hrenews =>
      rw [List.append_assoc, List.cons_append]
      exact .twice hpast hbetween rfl hanswer hrenews
  | once => exact hmay.elim
  | twice => exact hmay.elim

theorem SendStage.Shows.step {o : Op} {r : Op.Reply o} (h : g.stage.Shows accountId g.renewal calls)
    (hallows : (sendMonitor accountId).allows g o) :
    (g.next o r).stage.Shows accountId (g.next o r).renewal (calls ++ [⟨o, r⟩]) := by
  cases o with
  | graph request => exact h.request hallows
  | tokensUpsert id token =>
    obtain rfl : id = accountId := hallows
    cases r with
    | error e => exact h.snoc rfl fun _ h => h.snoc rfl
    | ok u => exact h.snoc rfl fun _ h => h.write
  | tokensGet id => cases r with
    | error e => exact h.snoc rfl fun _ h => h.snoc rfl
    | ok token => cases token <;> exact h.snoc rfl fun _ h => h.snoc rfl
  | token request => cases request with
    | exchangeCode code verifier => exact h.snoc rfl fun _ h => h.snoc rfl
    | refresh refreshToken => cases r with
      | error e => exact h.snoc rfl fun _ _ => .missing
      | ok response =>
        refine h.snoc rfl fun between _ => .granted ?_
        rw [refreshReplies_append]
        exact List.getLast?_concat ..
  | _ => exact h.snoc rfl fun _ h => h.snoc rfl

theorem SendStage.Shows.acceptedOnce (h : stage.Shows accountId renewal calls) :
    AcceptedOnce accountId calls := by
  -- A call with at most one request cannot be split at two of them.
  have hfew : (sends calls).length ≤ 1 → AcceptedOnce accountId calls := by
    intro hlen
    refine ⟨by omega, (List.length_filter_le ..).trans hlen, ?_⟩
    rintro past first answer between second answer' rest rfl
    simp only [sends_append, sends_graph, List.length_append, List.length_cons] at hlen
    omega
  cases h with
  | unsent hcalls => exact hfew (by simp [hcalls])
  | rejected hpast hbetween => exact hfew (by simp [hpast, hbetween])
  | once hpast hrest => exact hfew (by simp [hpast, hrest])
  | twice hpast hbetween hrest hanswer hrenews =>
    refine ⟨by simp [hpast, hbetween, hrest], ?_, ?_⟩
    · rw [sends_append, sends_graph, sends_append, sends_graph, hpast, hbetween, hrest,
        List.nil_append, List.filter_cons_of_neg (by simpa using hanswer)]
      exact List.length_filter_le ..
    · intro past' first' answer' between' second' answer'' rest' heq
      have hlen := congrArg (fun l => (sends l).length) heq
      simp only [sends_append, sends_graph, List.length_append, List.length_cons, hpast, hbetween,
        hrest, List.length_nil] at hlen
      have hpast' : sends past' = [] := List.length_eq_zero_iff.mp (by omega)
      have hbetween' : sends between' = [] := List.length_eq_zero_iff.mp (by omega)
      rw [List.append_assoc, List.cons_append] at heq
      obtain ⟨rfl, rfl, rfl, htail⟩ := sends_split hpast hpast' heq
      obtain ⟨rfl, rfl, rfl, rfl⟩ := sends_split hbetween hbetween' htail
      exact ⟨hanswer, _, hrenews, rfl⟩

end Shows

/-- The record of the account, if it can be read, has the access token that the call knows. -/
def Tracks (aead : Aead) (chrono : Chrono) (key : Key) (accountId : String) (g : SendGhost) (db : Db) :
    Prop :=
  ∀ t, g.held = some t → ∀ token, Reads aead chrono key accountId db token → token.accessToken = t

theorem reads_congr {db db' : Db} (h : db'.tokens.find accountId = db.tokens.find accountId)
    {token : StoredToken} :
    Reads aead chrono key accountId db' token ↔ Reads aead chrono key accountId db token := by
  unfold Reads SqliteTokenStore.get
  rw [h]

theorem held_congr {g : SendGhost} {db db' : Db}
    (h : db'.tokens.find accountId = db.tokens.find accountId)
    (hheld : Tracks aead chrono key accountId g db) : Tracks aead chrono key accountId g db' :=
  fun t ht token hreads => hheld t ht token ((reads_congr h).mp hreads)

/-- What the call knows of the record remains true, and so the record answers as expected. -/
theorem Tracks.step {i : ℕ} {g : SendGhost} {o : Op} {r : Op.Reply o} {env : Env} {w w' : World}
    (hheld : Tracks aead chrono key accountId g w.db) (hallows : (sendMonitor accountId).allows g o)
    (hexec : (system aead chrono key).exec i o env w = some (r, w')) :
    (sendMonitor accountId).expects g o r ∧ Tracks aead chrono key accountId (g.next o r) w'.db := by
  cases o with
  | tokensGet id =>
    obtain rfl : id = accountId := hallows
    have hdb : w'.db = w.db := db_frame rfl hexec
    cases r with
    | error e => exact ⟨trivial, held_congr (congrArg (·.tokens.find id) hdb) hheld⟩
    | ok token => cases token with
      | none => exact ⟨trivial, held_congr (congrArg (·.tokens.find id) hdb) hheld⟩
      | some token =>
        have hreads : Reads aead chrono key id w.db token := ⟨env.now, (tokensGet_some hexec).2⟩
        refine ⟨fun t ht => hheld t ht token hreads, ?_⟩
        rintro _ ⟨⟩ token' ⟨now', hget⟩
        obtain ⟨kept, hkept, hsame, _⟩ := sameGrant_read hreads now'
        rw [hdb, hkept] at hget
        cases hget
        exact hsame
  | tokensUpsert id token =>
    obtain rfl : id = accountId := hallows
    cases r with
    | error e =>
      obtain rfl := tokensUpsert_error hexec
      exact ⟨trivial, hheld⟩
    | ok u =>
      obtain ⟨ha, hdb, _⟩ := tokensUpsert_ok hexec
      refine ⟨trivial, ?_⟩
      rintro _ ⟨⟩ token' ⟨now', hget⟩
      rw [hdb, SqliteTokenStore.get_upsertRow] at hget
      cases hget
      rfl
  | token request =>
    have htokens : w'.db.tokens = w.db.tokens := tokens_frame rfl hexec
    refine ⟨trivial, held_congr (congrArg (·.find accountId) htokens) ?_⟩
    cases request with
    | exchangeCode => exact hheld
    | refresh => cases r <;> exact hheld
  | graph request =>
    have htokens : w'.db.tokens = w.db.tokens := tokens_frame rfl hexec
    exact ⟨trivial, held_congr (congrArg (·.find accountId) htokens) hheld⟩
  | _ =>
    have htokens : w'.db.tokens = w.db.tokens := tokens_frame hallows hexec
    exact ⟨trivial, held_congr (congrArg (·.find accountId) htokens) hheld⟩

/-- The calls that send a mail request, whatever is made of their results. -/
inductive MailCall (graph : MicrosoftGraph) (account : Account) : Prog AppSig α → Prop
  | authorized (method : Method) (url : String) (body : Option Json)
      (f : Outcome GraphResponse → α) :
      MailCall graph account ((graph.sendAuthorized account method url body).run.map f)
  | message (recipient subject body : String) (f : Outcome Unit → α) :
      MailCall graph account ((graph.sendMessage account recipient subject body).run.map f)

theorem MailCall.follows {p : Prog AppSig α} (h : MailCall graph account p) :
    Follows (sendMonitor account.id) (fun _ _ => True) ⟨.unsent, .missing, none⟩ p := by
  cases h with
  | authorized method url body f =>
    exact (follows_bind _ _ _).mpr (follows_sendAuthorized_once rfl)
  | message recipient subject body f =>
    exact (follows_bind _ _ _).mpr (follows_sendMessage_once rfl)

/-- No other call changes the record of the account. -/
def NoOtherWriter (i : ℕ) (accountId : String) (es : List (Event AppSig World Env α)) : Prop :=
  ∀ e ∈ es, e.thread ≠ i →
    e.after.world.db.tokens.find accountId = e.before.world.db.tokens.find accountId

/-- **A mail request is accepted at most once, and repeated only with a renewed token.** -/
theorem mail_accepted_once {i : ℕ} {p : Prog AppSig α} {c c' : Cfg AppSig World α}
    {es : List (Event AppSig World Env α)} (hrun : (system aead chrono key).Run c es c')
    (hcall : c.pool[i]? = some p) (hp : MailCall graph account p)
    (hwriter : NoOtherWriter i account.id es) : AcceptedOnce account.id (callsOf i es) := by
  suffices ∃ g : SendGhost, g.stage.Shows account.id g.renewal (callsOf i es) ∧
      Tracks aead chrono key account.id g c'.world.db by
    obtain ⟨g, hshows, _⟩ := this
    exact hshows.acceptedOnce
  apply hrun.follows_one (I := fun past w g => g.stage.Shows account.id g.renewal (callsOf i past) ∧
    Tracks aead chrono key account.id g w.db) hcall hp.follows ⟨.unsent rfl, nofun⟩
  · rintro past e g hi ⟨hshows, hheld⟩ hallows hexec
    obtain ⟨hexpects, hheld'⟩ := hheld.step hallows hexec
    refine ⟨hexpects, ?_, hheld'⟩
    rw [callsOf_snoc, if_pos hi]
    exact hshows.step hallows
  · rintro past e g he hi ⟨hshows, hheld⟩
    refine ⟨?_, held_congr (hwriter e he hi) hheld⟩
    rw [callsOf_snoc, if_neg hi]
    exact hshows

/-! ### A run -/

/-- A client whose URLs are taken as they are written. -/
def plainGraph : MicrosoftGraph where
  baseUrl := "https://graph"
  crates := {
    parseUrl := .ok
    appendPair := fun url key value => url ++ key ++ value
    pushSegment := fun url segment => some (url ++ segment)
    displayStatus := toString
    parseJson := fun _ => .ok .null }
  tokens := sampleOauth

/-- Graph accepts the renewed token only. -/
def renewedOnly : Env :=
  { Env.calm 1 (.ok ⟨"at-1", none, some 3600, none⟩) with
    graph := fun request => .ok ⟨if request.bearer = "at-1" then 202 else 401, some ""⟩ }

/-- A message is sent while an account of another tenant is disconnected. -/
def sendingAndDisconnecting : Cfg AppSig World (Outcome Unit) :=
  ⟨connected 9, [(plainGraph.sendMessage sampleAccount "b@x" "Hello" "Hi").run.map id,
    (TokenManager.disconnect { sampleAccount with id := "acc-9", tenantId := "tenant-b" }).run]⟩

def sendingTurns : List (ℕ × Env) :=
  [0, 0, 1, 0, 0, 0, 0, 1, 0, 0, 0, 0, 0, 0, 0, 0, 0, 0, 0, 0, 0].map fun i => (i, renewedOnly)

theorem sending_run : (sampleSystem.replay sendingAndDisconnecting sendingTurns).isSome = true := by
  decide +kernel

/-- The first request is answered with 401, the second is accepted. -/
theorem mail_accepted_once_renewed :
    ∃ es c', sampleSystem.Run sendingAndDisconnecting es c' ∧
      AcceptedOnce "acc-1" (callsOf 0 es) ∧
      ((sends (callsOf 0 es)).map fun s => s.1.bearer) = ["at-0", "at-1"] := by
  have hrun := run_replay (m := sampleSystem) sendingAndDisconnecting sendingTurns sending_run
  have hsends : ((sends (callsOf 0
      ((sampleSystem.replay sendingAndDisconnecting sendingTurns).get sending_run).1)).map
        fun s => s.1.bearer) = ["at-0", "at-1"] := by
    decide +kernel
  have hquiet : ∀ e ∈ ((sampleSystem.replay sendingAndDisconnecting sendingTurns).get
      sending_run).1, e.thread ≠ 0 →
        e.after.world.db.tokens.find "acc-1" = e.before.world.db.tokens.find "acc-1" := by
    decide +kernel
  have hcall : MailCall plainGraph sampleAccount
      ((plainGraph.sendMessage sampleAccount "b@x" "Hello" "Hi").run.map id) := .message ..
  exact ⟨_, _, hrun, mail_accepted_once hrun rfl hcall hquiet, hsends⟩

end UniMail
