import UniMail.Auth.Service

/-!
# OAuth 2.0 client for the Microsoft identity platform

The Authorization Code + PKCE flow. Every call first builds the configured client, which fails on a
URL of the configuration that does not parse. The URL parser belongs to the `url` crate and comes
with the client (`parseUrl`).
-/

namespace UniMail

open Interaction

/-- Scopes requested at consent time. -/
def SCOPES : List String :=
  ["offline_access", "User.Read", "Mail.Read", "Mail.ReadWrite", "Mail.Send", "openid", "profile",
    "email"]

/-- A token set returned by the identity provider. -/
structure TokenSet where
  accessToken : String
  refreshToken : Option String
  expiresAt : Option DateTime
  scopes : Option (List String)
  deriving DecidableEq, Repr

structure OAuthClient where
  clientId : String
  authUrl : String
  tokenUrl : String
  redirectUri : String
  parseUrl : String → Except String String

/-- The consent URL the user opens in a browser. -/
structure ConsentUrl where
  authUrl : String
  clientId : String
  redirectUri : String
  scopes : List String
  challenge : String
  state : String
  deriving DecidableEq, Repr

/-- When a token that is good for `secs` seconds at `now` expires; `none` is a panic. -/
def expiryAfter (secs : Nat) (now : DateTime) : Option DateTime :=
  now.checkedAdd ((Duration.fromStd secs).getD (Duration.hours 1))

/-- Map a token response into our provider-agnostic `TokenSet`. -/
def tokenSetFrom (response : TokenResponse) : Async TokenSet :=
  let tokenSet := fun expiresAt => {
    accessToken := response.accessToken
    refreshToken := response.refreshToken
    expiresAt
    scopes := response.scopes }
  match response.expiresIn with
  | none => return tokenSet none
  | some secs => do
    let now ← op .utcNow
    let expiresAt ← orPanic "`DateTime + TimeDelta` overflowed" (expiryAfter secs now)
    return tokenSet (some expiresAt)

namespace OAuthClient

variable (oauth : OAuthClient)

/-- Build the configured client, that is parse the three URLs. -/
def client : Result Unit := do
  let _ ← (oauth.parseUrl oauth.authUrl).mapError fun e => AppError.config s!"invalid AUTH_URL: {e}"
  let _ ← (oauth.parseUrl oauth.tokenUrl).mapError fun e =>
    AppError.config s!"invalid TOKEN_URL: {e}"
  let _ ← (oauth.parseUrl oauth.redirectUri).mapError fun e =>
    AppError.config s!"invalid REDIRECT_URI: {e}"

/-- Begin the authorization flow: the consent URL, the PKCE verifier and the CSRF state. -/
def authorizeUrl : Async (ConsentUrl × String × String) := do
  let (challenge, verifier) ← op .newPkce
  check oauth.client
  let csrf ← op .newCsrf
  let authUrl := {
    authUrl := oauth.authUrl
    clientId := oauth.clientId
    redirectUri := oauth.redirectUri
    scopes := SCOPES
    challenge
    state := csrf }
  return (authUrl, verifier, csrf)

/-- A request to the token endpoint by the configured client. -/
def requestTokens (request : TokenRequest) (failed : String → AppError) : Async TokenSet := do
  check oauth.client
  match ← op (.token request) with
  | .ok response => tokenSetFrom response
  | .error e => throw (.err (failed e))

/-- Exchange an authorization code for a token set. -/
def exchangeCode (code verifier : String) : Async TokenSet :=
  oauth.requestTokens (.exchangeCode code verifier) fun e => .auth s!"token exchange failed: {e}"

/-- Exchange a refresh token for a fresh token set. -/
def refresh (refreshToken : String) : Async TokenSet :=
  oauth.requestTokens (.refresh refreshToken) fun e => .tokenExpired s!"refresh failed: {e}"

end OAuthClient

/-! ### The protocol of a request -/

section Follows

variable {G : Type} {M : Monitor AppSig G} {Q : G → Outcome TokenSet → Prop} {g : G}

/-- `token_set_from` reads the clock, at most. -/
theorem follows_tokenSetFrom {response : TokenResponse} (hnow : M.Silent .utcNow)
    (hok : ∀ ts, ts.accessToken = response.accessToken → ts.refreshToken = response.refreshToken →
      Q g (.ok ts))
    (herror : ∀ e, Q g (.error e)) : Follows M Q g (tokenSetFrom response).run := by
  unfold tokenSetFrom
  cases response.expiresIn with
  | none => exact hok _ rfl rfl
  | some secs =>
    apply follows_op_silent (hnow g)
    intro now _
    exact follows_orPanic_bind (fun t _ => hok _ rfl rfl) (herror _)

/-- A request fails before it is sent, is denied, or is granted; then the call can still panic. -/
theorem follows_requestTokens {oauth : OAuthClient} {request : TokenRequest}
    {failed : String → AppError} (hnow : M.Silent .utcNow) (hallows : M.allows g (.token request))
    (hunsent : ∀ e, Q g (.error e))
    (hdenied : ∀ e, M.expects g (.token request) (.error e) →
      Q (M.next g (.token request) (.error e)) (.error (.err (failed e))))
    (hgranted : ∀ response, M.expects g (.token request) (.ok response) →
      (∀ ts, ts.accessToken = response.accessToken → ts.refreshToken = response.refreshToken →
        Q (M.next g (.token request) (.ok response)) (.ok ts)) ∧
      ∀ e, Q (M.next g (.token request) (.ok response)) (.error e)) :
    Follows M Q g (oauth.requestTokens request failed).run := by
  refine follows_check_bind (fun _ _ => ?_) fun e _ => hunsent _
  apply follows_op hallows
  intro r hr
  cases r with
  | ok response =>
    obtain ⟨hok, herror⟩ := hgranted response hr
    exact follows_tokenSetFrom hnow hok herror
  | error e => exact hdenied e hr

end Follows

end UniMail
