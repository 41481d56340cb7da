import UniMail.Provider.Graph

/-!
# The profile of a mailbox

`fetch_profile` asks Graph at `/me` whose an access token is. It reports the address the profile has as
`mail`, or as `userPrincipalName` where it has no `mail`, unless this is empty; an empty `mail` is not
replaced. How the text is deserialized is left to the crate `serde_json`, as `parseProfile`.
-/

namespace UniMail

structure Profile where
  mail : Option String
  userPrincipalName : Option String
  displayName : Option String

/-- Resolves a freshly-consented account's identity via Graph `/me`. -/
structure GraphIdentityResolver where
  graph : MicrosoftGraph
  parseProfile : String → Except String Profile

namespace GraphIdentityResolver

variable (resolver : GraphIdentityResolver) (http : GraphRequest → Except String GraphResponse)

/-- Fetch `/me` and extract email + display name. -/
def fetchProfile (accessToken : String) : Result ResolvedIdentity := do
  let url ← resolver.graph.url s!"{resolver.graph.baseUrl}/me"
  let response ← (http { method := .GET, url, bearer := accessToken, body := none }).mapError .provider
  let text := response.text.getD ""
  if MicrosoftGraph.isSuccess response.status then
    let profile ← (resolver.parseProfile text).mapError fun e => .auth s!"invalid profile: {e}"
    match (profile.mail.or profile.userPrincipalName).filter (· ≠ "") with
    | some email => return ⟨email, profile.displayName⟩
    | none => throw (.auth "account profile did not include an email address")
  else
    let status := resolver.graph.crates.displayStatus response.status
    throw (.auth
      s!"could not fetch account profile ({status}): {resolver.graph.graphErrorMessage text}")

/-- Graph answers a request for `/me` that bears the access token with the profile. -/
def Answers (accessToken : String) (profile : Profile) : Prop :=
  ∃ url response, resolver.graph.url s!"{resolver.graph.baseUrl}/me" = .ok url ∧
    http { method := .GET, url, bearer := accessToken, body := none } = .ok response ∧
    MicrosoftGraph.isSuccess response.status = true ∧
    resolver.parseProfile (response.text.getD "") = .ok profile

variable {resolver http}

/-- The identity is that of the profile Graph answers with, and it has an address. -/
theorem fetchProfile_eq_ok {accessToken : String} {identity : ResolvedIdentity} :
    resolver.fetchProfile http accessToken = .ok identity ↔
      ∃ profile, resolver.Answers http accessToken profile ∧
        profile.mail.or profile.userPrincipalName = some identity.email ∧ identity.email ≠ "" ∧
        profile.displayName = identity.displayName := by
  unfold fetchProfile Answers
  constructor
  · intro h
    obtain ⟨url, hurl, h⟩ := bind_eq_ok.mp h
    obtain ⟨response, hresponse, h⟩ := bind_eq_ok.mp h
    dsimp only at h
    split at h
    · rename_i hsuccess
      obtain ⟨profile, hprofile, h⟩ := bind_eq_ok.mp h
      split at h
      · rename_i email hemail
        cases h
        obtain ⟨hsome, hne⟩ := Option.filter_eq_some_iff.mp hemail
        exact ⟨profile, ⟨url, response, hurl, mapError_eq_ok.mp hresponse, hsuccess,
          mapError_eq_ok.mp hprofile⟩, hsome, of_decide_eq_true hne, rfl⟩
      · cases h
    · cases h
  · rintro ⟨profile, ⟨url, response, hurl, hresponse, hsuccess, hprofile⟩, hemail, hne, hname⟩
    refine bind_eq_ok.mpr ⟨url, hurl, bind_eq_ok.mpr ⟨response, mapError_eq_ok.mpr hresponse, ?_⟩⟩
    have hfilter : (profile.mail.or profile.userPrincipalName).filter (· ≠ "") = some identity.email :=
      Option.filter_eq_some_iff.mpr ⟨hemail, decide_eq_true hne⟩
    dsimp only
    rw [if_pos hsuccess]
    refine bind_eq_ok.mpr ⟨profile, mapError_eq_ok.mpr hprofile, ?_⟩
    rw [hfilter, hname]
    rfl

end GraphIdentityResolver

end UniMail
