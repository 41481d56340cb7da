import UniMail.Auth.ClockRange
import UniMail.Config.CallbackAddr
import UniMail.Config.EncryptionKey

/-!
# The configuration

`from_env` reads fourteen variables. Three are required: loading fails exactly where one of them is unset,
no Unicode or blank or the key is no encoding, and the error names the first of them
(`from_env_fails_iff`). All
others fall back to their defaults. Every configuration whose texts are not blank can be written down
(`AppConfig.toEnviron`) and is loaded as it is (`from_env_to_environ`).
-/

namespace UniMail

open Text

/-- The environment: the bytes of a variable, if it is set. -/
abbrev Environ := String → Option Bytes

def COMMON_AUTH_URL : String := "https://login.microsoftonline.com/common/oauth2/v2.0/authorize"

def COMMON_TOKEN_URL : String := "https://login.microsoftonline.com/common/oauth2/v2.0/token"

def GRAPH_BASE_URL : String := "https://graph.microsoft.com/v1.0"

/-- Application configuration: all fields of `Config`. -/
structure AppConfig where
  clientId : String
  clientSecret : String
  redirectUri : String
  authUrl : String
  tokenUrl : String
  graphBaseUrl : String
  encryptionKey : Key
  databasePath : String
  apiKeys : ApiKeys
  defaultTenantId : String
  apiBindAddr : String
  callbackBindAddr : Option String
  tokenInactivityDays : Int
  refreshIntervalSecs : Nat

/-- `u64::from_str`. -/
def parseU64 (s : String) : Option Nat :=
  let digits := match s.toList with
    | '+' :: l => l
    | l => l
  ((parseDigits digits).map Int.toNat).filter (· ≤ 18446744073709551615)

section FromEnv

variable (decode : String → Option Bytes) (environ : Environ)

/-- `env(key)` in the environment. -/
def Environ.get (key : String) : Result String := env key (envVar (environ key))

/-- `env(key).unwrap_or_else(default)`. -/
def Environ.getOr (key default : String) : String := (environ.get key).toOption.getD default

/-- Load configuration from the environment. -/
def AppConfig.fromEnv : Outcome AppConfig := do
  let clientId ← (environ.get "CLIENT_ID").mapError .err
  let clientSecret ← (environ.get "CLIENT_SECRET").mapError .err
  let redirectUri := environ.getOr "REDIRECT_URI" "http://localhost"
  let encryptionKey ← parseKey decode (← (environ.get "ENCRYPTION_KEY").mapError .err)
  let apiKeys := parseApiKeys (environ.getOr "API_KEYS" "")
  return {
    clientId
    clientSecret
    redirectUri
    authUrl := environ.getOr "AUTH_URL" COMMON_AUTH_URL
    tokenUrl := environ.getOr "TOKEN_URL" COMMON_TOKEN_URL
    graphBaseUrl := environ.getOr "GRAPH_BASE_URL" GRAPH_BASE_URL
    encryptionKey
    databasePath := environ.getOr "DATABASE_PATH" "./unimail.db"
    apiKeys
    defaultTenantId := environ.getOr "DEFAULT_TENANT_ID" "default"
    apiBindAddr := environ.getOr "API_BIND_ADDR" "0.0.0.0:8080"
    callbackBindAddr := (environ.get "CALLBACK_BIND_ADDR").toOption.filter fun v => trim v ≠ ""
    tokenInactivityDays := ((environ.get "TOKEN_INACTIVITY_DAYS").toOption.bind parseI64).getD 90
    refreshIntervalSecs := ((environ.get "REFRESH_INTERVAL_SECS").toOption.bind parseU64).getD 21600 }

end FromEnv

/-! ### Numbers -/

theorem parseU64_toString {n : Nat} (hn : n ≤ 18446744073709551615) : parseU64 (toString n) = some n := by
  have hdigits : ∀ c ∈ Nat.toDigits 10 n, Radix.isDigit 10 c :=
    Radix.isDigit_toDigits (by omega) (by omega) n
  have htext : (toString n).toList = Nat.toDigits 10 n := by
    show (Nat.repr n).toList = _
    rw [Nat.repr_eq_ofList_toDigits, String.toList_ofList]
  -- A digit is no sign.
  have hsign : (match (toString n).toList with
      | '+' :: l => l
      | l => l) = Nat.toDigits 10 n := by
    rw [htext]
    generalize Nat.toDigits 10 n = l at hdigits
    split
    · exact absurd (hdigits '+' List.mem_cons_self) (by decide)
    · rfl
  unfold parseU64
  dsimp only
  rw [hsign, parseDigits_toDigits, Option.map_some, Int.toNat_natCast]
  exact Option.filter_some_pos (by simpa using hn)

/-! ### API keys -/

/-- An entry of `API_KEYS`. -/
def entryText (key tenant : String) : List Char := key.toList ++ '=' :: tenant.toList

/-- A key and a tenant that can be written as an entry. -/
structure PlainEntry (key tenant : String) : Prop where
  key_trim : trim key = key
  key_comma : ',' ∉ key.toList
  key_equals : '=' ∉ key.toList
  tenant_trim : trim tenant = tenant
  tenant_comma : ',' ∉ tenant.toList

/-- The text of a map of keys; the parser puts the last entry first. -/
def apiKeysText (keys : ApiKeys) : String :=
  String.ofList ([','].intercalate (keys.entries.reverse.map fun e => entryText e.1 e.2))

section Entries

variable {key tenant : String} (h : PlainEntry key tenant)
include h

theorem PlainEntry.entryKey_eq : entryKey (String.ofList (entryText key tenant)) = key := by
  rw [entryKey, String.toList_ofList, entryText, before, List.takeWhile_append_of_pos
    (ne_of_not_mem h.key_equals)]
  simp [h.key_trim]

theorem PlainEntry.entryTenant_eq : entryTenant (String.ofList (entryText key tenant)) = tenant := by
  rw [entryTenant, String.toList_ofList, entryText, after, List.dropWhile_append_of_pos
    (ne_of_not_mem h.key_equals)]
  simp [h.tenant_trim]

theorem PlainEntry.comma : ',' ∉ entryText key tenant := by
  simp [entryText, h.key_comma, h.tenant_comma]

end Entries

/-- An entry is not blank. -/
theorem trim_entryText (key tenant : String) : trim (String.ofList (entryText key tenant)) ≠ "" := by
  intro hblank
  have hspace := trim_eq_empty.mp hblank '=' (by simp [entryText])
  exact absurd hspace (by decide)

/-- The entries of the text. -/
theorem entries_text {l : List (Sigma fun _ : String => String)} (h : ∀ e ∈ l, PlainEntry e.1 e.2)
    (hne : l ≠ []) :
    entries (String.ofList ([','].intercalate (l.map fun e => entryText e.1 e.2))) =
      l.map fun e => String.ofList (entryText e.1 e.2) := by
  have hsplit : ([','].intercalate (l.map fun e => entryText e.1 e.2)).splitOn ',' =
      l.map fun e => entryText e.1 e.2 := by
    apply List.splitOn_intercalate
    · intro t ht
      obtain ⟨e, he, rfl⟩ := List.mem_map.mp ht
      exact (h e he).comma
    · simpa using hne
  rw [entries, split, String.toList_ofList, hsplit, List.map_map]
  apply List.filter_eq_self.mpr
  intro s hs
  obtain ⟨e, _, rfl⟩ := List.mem_map.mp hs
  exact decide_eq_true (trim_entryText e.1 e.2)

/-- The entries, inserted from the last to the first, make the map. -/
theorem insert_entries (keys : ApiKeys) :
    keys.entries.reverse.foldl (fun map e => map.insert e.1 e.2) (∅ : ApiKeys) = keys := by
  obtain ⟨l, hl⟩ := keys
  apply AList.ext
  dsimp only
  induction l with
  | nil => rfl
  | cons e l ih =>
    obtain ⟨hnew, hrest⟩ := List.nodupKeys_cons.mp hl
    rw [List.reverse_cons, List.foldl_append, List.foldl_cons, List.foldl_nil, AList.entries_insert,
      ih hrest, List.kerase_of_notMem_keys hnew]

/-- **The keys are read back.** -/
theorem parseApiKeys_text {keys : ApiKeys} (h : ∀ e ∈ keys.entries, PlainEntry e.1 e.2) :
    parseApiKeys (apiKeysText keys) = keys := by
  have hplain : ∀ e ∈ keys.entries.reverse, PlainEntry e.1 e.2 :=
    fun e he => h e (List.mem_reverse.mp he)
  have hentries : entries (apiKeysText keys) =
      keys.entries.reverse.map fun e => String.ofList (entryText e.1 e.2) := by
    by_cases hne : keys.entries.reverse = []
    · rw [apiKeysText, hne]
      decide
    · exact entries_text hplain hne
  rw [parseApiKeys_eq, hentries, List.foldl_map]
  refine Eq.trans (List.foldl_ext _ _ _ fun map e he => ?_) (insert_entries keys)
  rw [(hplain e he).entryKey_eq, (hplain e he).entryTenant_eq]

/-! ### Loading -/

section Load

variable {environ : Environ} (name : String) {value default : String}

theorem Environ.get_set (hset : environ name = some (asBytes value)) (h : trim value ≠ "") :
    environ.get name = .ok value := by
  unfold Environ.get
  rw [hset, envVar_asBytes]
  exact if_neg h

theorem Environ.getOr_set (hset : environ name = some (asBytes value)) (h : trim value ≠ "") :
    environ.getOr name default = value := by
  unfold Environ.getOr
  rw [Environ.get_set name hset h]
  rfl

theorem Environ.getOr_blank (hset : environ name = some (asBytes value)) (h : trim value = "") :
    environ.getOr name default = default := by
  unfold Environ.getOr Environ.get
  rw [hset, envVar_asBytes]
  show (Except.toOption (if trim value = "" then _ else _)).getD default = default
  rw [if_pos h]
  rfl

end Load

/-- The text of a map of keys is blank only if it is empty. -/
theorem blank_apiKeysText {keys : ApiKeys} (h : trim (apiKeysText keys) = "") : apiKeysText keys = "" := by
  by_cases hne : keys.entries.reverse = []
  · rw [apiKeysText, hne]
    rfl
  · obtain ⟨e, l, hl⟩ := List.exists_cons_of_ne_nil hne
    have hspace := trim_eq_empty.mp h '=' (by
      rw [apiKeysText, hl, String.toList_ofList, List.map_cons]
      cases l with
      | nil => simp [entryText, List.intercalate]
      | cons e' l => simp [entryText, List.intercalate])
    exact absurd hspace (by decide)

namespace AppConfig

/-- The part that the API gate reads. -/
def gate (config : AppConfig) : Config := ⟨config.apiKeys, config.defaultTenantId⟩

/-- The part that `callback_addr` reads. -/
def callback (config : AppConfig) : CallbackConfig := ⟨config.redirectUri, config.callbackBindAddr⟩

/-- An environment that holds the configuration. -/
def toEnviron (config : AppConfig) : Environ
  | "CLIENT_ID" => some (asBytes config.clientId)
  | "CLIENT_SECRET" => some (asBytes config.clientSecret)
  | "REDIRECT_URI" => some (asBytes config.redirectUri)
  | "AUTH_URL" => some (asBytes config.authUrl)
  | "TOKEN_URL" => some (asBytes config.tokenUrl)
  | "GRAPH_BASE_URL" => some (asBytes config.graphBaseUrl)
  | "ENCRYPTION_KEY" => some (asBytes (Base64.encode config.encryptionKey.toList))
  | "DATABASE_PATH" => some (asBytes config.databasePath)
  | "API_KEYS" => some (asBytes (apiKeysText config.apiKeys))
  | "DEFAULT_TENANT_ID" => some (asBytes config.defaultTenantId)
  | "API_BIND_ADDR" => some (asBytes config.apiBindAddr)
  | "CALLBACK_BIND_ADDR" => config.callbackBindAddr.map asBytes
  | "TOKEN_INACTIVITY_DAYS" => some (asBytes (toString config.tokenInactivityDays))
  | "REFRESH_INTERVAL_SECS" => some (asBytes (toString config.refreshIntervalSecs))
  | _ => none

/-- A configuration that can be written down. -/
structure Expressible (config : AppConfig) : Prop where
  texts : ∀ s ∈ [config.clientId, config.clientSecret, config.redirectUri, config.authUrl,
    config.tokenUrl, config.graphBaseUrl, config.databasePath, config.defaultTenantId,
    config.apiBindAddr], trim s ≠ ""
  apiKeys : ∀ e ∈ config.apiKeys.entries, PlainEntry e.1 e.2
  callbackBindAddr : ∀ v, config.callbackBindAddr = some v → trim v ≠ ""
  tokenInactivityDays : -9223372036854775808 ≤ config.tokenInactivityDays ∧
    config.tokenInactivityDays ≤ 9223372036854775807
  refreshIntervalSecs : config.refreshIntervalSecs ≤ 18446744073709551615

section Load

variable {config : AppConfig} (h : config.Expressible)

theorem load_apiKeys : config.toEnviron.getOr "API_KEYS" "" = apiKeysText config.apiKeys := by
  have hset : config.toEnviron "API_KEYS" = some (asBytes (apiKeysText config.apiKeys)) := rfl
  by_cases hblank : trim (apiKeysText config.apiKeys) = ""
  · rw [Environ.getOr_blank "API_KEYS" hset hblank, blank_apiKeysText hblank]
  · exact Environ.getOr_set "API_KEYS" hset hblank

include h

theorem load_callbackBindAddr :
    ((config.toEnviron.get "CALLBACK_BIND_ADDR").toOption.filter fun v => trim v ≠ "") =
      config.callbackBindAddr := by
  have hset : config.toEnviron "CALLBACK_BIND_ADDR" = config.callbackBindAddr.map asBytes := rfl
  cases haddr : config.callbackBindAddr with
  | none =>
    unfold Environ.get
    rw [hset, haddr]
    rfl
  | some v =>
    have hv := h.callbackBindAddr v haddr
    rw [haddr] at hset
    rw [Environ.get_set "CALLBACK_BIND_ADDR" hset hv]
    exact Option.filter_some_pos (by simpa using hv)

theorem load_tokenInactivityDays :
    ((config.toEnviron.get "TOKEN_INACTIVITY_DAYS").toOption.bind parseI64).getD 90 =
      config.tokenInactivityDays := by
  have hset : config.toEnviron "TOKEN_INACTIVITY_DAYS" =
      some (asBytes (toString config.tokenInactivityDays)) := rfl
  rw [Environ.get_set "TOKEN_INACTIVITY_DAYS" hset (trim_toString _)]
  show ((parseI64 (toString config.tokenInactivityDays)).getD 90) = _
  rw [parseI64_toString h.tokenInactivityDays.1 h.tokenInactivityDays.2, Option.getD_some]

theorem load_refreshIntervalSecs :
    ((config.toEnviron.get "REFRESH_INTERVAL_SECS").toOption.bind parseU64).getD 21600 =
      config.refreshIntervalSecs := by
  have hset : config.toEnviron "REFRESH_INTERVAL_SECS" =
      some (asBytes (toString config.refreshIntervalSecs)) := rfl
  have hblank : trim (toString config.refreshIntervalSecs) ≠ "" := trim_toString config.refreshIntervalSecs
  rw [Environ.get_set "REFRESH_INTERVAL_SECS" hset hblank]
  show ((parseU64 (toString config.refreshIntervalSecs)).getD 21600) = _
  rw [parseU64_toString h.refreshIntervalSecs, Option.getD_some]

end Load

/-- **A configuration that is written down is loaded as it is.** -/
theorem from_env_to_environ {decode : String → Option Bytes}
    (hdecode : ∀ s bytes, decode s = some bytes ↔ s = Base64.encode bytes) {config : AppConfig}
    (h : config.Expressible) : fromEnv decode config.toEnviron = .ok config := by
  have htexts := h.texts
  simp only [List.forall_mem_cons] at htexts
  obtain ⟨hid, hsecret, hredirect, hauth, htoken, hgraph, hpath, htenant, hbind, _⟩ := htexts
  have hencodes : Encodes config.encryptionKey (Base64.encode config.encryptionKey.toList) := Or.inr rfl
  have hkey : parseKey decode (Base64.encode config.encryptionKey.toList) = .ok config.encryptionKey := by
    rw [parseKey_eq_ok hdecode, hencodes.trim_eq]
    exact hencodes
  have hkeyText : trim (Base64.encode config.encryptionKey.toList) ≠ "" := by
    rw [hencodes.trim_eq]
    exact hencodes.ne_empty
  have hget : ∀ name value, config.toEnviron name = some (asBytes value) → trim value ≠ "" →
      config.toEnviron.get name = .ok value := fun name _ => Environ.get_set name
  have hgetOr : ∀ name value default, config.toEnviron name = some (asBytes value) → trim value ≠ "" →
      config.toEnviron.getOr name default = value := fun name _ _ => Environ.getOr_set name
  refine bind_eq_ok.mpr ⟨_, mapError_eq_ok.mpr (hget "CLIENT_ID" _ rfl hid), ?_⟩
  refine bind_eq_ok.mpr ⟨_, mapError_eq_ok.mpr (hget "CLIENT_SECRET" _ rfl hsecret), ?_⟩
  refine bind_eq_ok.mpr ⟨_, mapError_eq_ok.mpr (hget "ENCRYPTION_KEY" _ rfl hkeyText), ?_⟩
  refine bind_eq_ok.mpr ⟨_, hkey, ?_⟩
  rw [load_apiKeys, parseApiKeys_text h.apiKeys, load_callbackBindAddr h, load_tokenInactivityDays h,
    load_refreshIntervalSecs h, hgetOr "REDIRECT_URI" _ _ rfl hredirect,
    hgetOr "AUTH_URL" _ _ rfl hauth, hgetOr "TOKEN_URL" _ _ rfl htoken,
    hgetOr "GRAPH_BASE_URL" _ _ rfl hgraph, hgetOr "DATABASE_PATH" _ _ rfl hpath,
    hgetOr "DEFAULT_TENANT_ID" _ _ rfl htenant, hgetOr "API_BIND_ADDR" _ _ rfl hbind]
  rfl

/-! ### The parts of a configuration -/

/-- What `from_env` loads is what the gate, the callback address, the key and the background renewal are
each said to be loaded with. -/
theorem fromEnv_parts {decode : String → Option Bytes} {environ : Environ} {config : AppConfig}
    (h : fromEnv decode environ = .ok config) :
    config.gate = ⟨Config.apiKeysFromEnv (envVar (environ "API_KEYS")),
        environ.getOr "DEFAULT_TENANT_ID" "default"⟩ ∧
      config.callback = .fromEnv (envVar (environ "REDIRECT_URI")) (envVar (environ "CALLBACK_BIND_ADDR")) ∧
      encryptionKeyFromEnv decode (envVar (environ "ENCRYPTION_KEY")) = .ok config.encryptionKey ∧
      config.tokenInactivityDays =
        UniMail.tokenInactivityDays (envVar (environ "TOKEN_INACTIVITY_DAYS")) := by
  obtain ⟨clientId, _, h⟩ := bind_eq_ok.mp h
  obtain ⟨clientSecret, _, h⟩ := bind_eq_ok.mp h
  obtain ⟨raw, hraw, h⟩ := bind_eq_ok.mp h
  obtain ⟨key, hkey, h⟩ := bind_eq_ok.mp h
  obtain rfl := Except.ok.inj h
  refine ⟨congrArg (fun keys => (⟨keys, _⟩ : Config)) ?_, rfl, bind_eq_ok.mpr ⟨raw, hraw, hkey⟩, rfl⟩
  apply congrArg parseApiKeys
  unfold Environ.getOr Environ.get
  cases env "API_KEYS" (envVar (environ "API_KEYS")) <;> rfl

/-! ### Failing -/

/-- What is said of a text that encodes no key. -/
def keyMessage (raw : String) : String :=
  if (asBytes (trim raw)).length = 64 then "ENCRYPTION_KEY must be 64 hex characters"
  else "ENCRYPTION_KEY must be exactly 32 bytes (64 hex chars or base64)"

def requiredNames : List String := ["CLIENT_ID", "CLIENT_SECRET", "ENCRYPTION_KEY"]

/-- The variable is set to a text that is not blank. -/
def Given (environ : Environ) (name : String) : Prop :=
  ∃ v, environ name = some (asBytes v) ∧ trim v ≠ ""

/-- What is said of a variable that is not: it is unset or its value is no Unicode, or it is blank. -/
def Missing (environ : Environ) (name message : String) : Prop :=
  (∀ v, environ name ≠ some (asBytes v)) ∧
      message = s!"missing required environment variable {name}" ∨
    (∃ v, environ name = some (asBytes v) ∧ trim v = "") ∧
      message = s!"environment variable {name} is empty"

theorem get_eq_ok {environ : Environ} {name v : String} :
    environ.get name = .ok v ↔ environ name = some (asBytes v) ∧ trim v ≠ "" := by
  unfold Environ.get env
  cases hvar : envVar (environ name) with
  | none => simp [envVar_eq_none.mp hvar]
  | some v' =>
    rw [envVar_eq_some.mp hvar]
    dsimp only
    split
    · rename_i hblank
      simp only [reduceCtorEq, Option.some.injEq, ne_eq, false_iff, not_and, not_not]
      intro hv
      rwa [← asBytes_inj hv]
    · rename_i hblank
      constructor
      · rintro ⟨⟩
        exact ⟨rfl, hblank⟩
      · rintro ⟨hv, _⟩
        rw [asBytes_inj (Option.some.inj hv)]

theorem get_eq_error {environ : Environ} {name : String} {e : AppError} :
    environ.get name = .error e ↔ ∃ message, Missing environ name message ∧ e = .config message := by
  unfold Environ.get env
  cases hvar : envVar (environ name) with
  | none =>
    have hunset := envVar_eq_none.mp hvar
    constructor
    · intro h
      exact ⟨_, Or.inl ⟨hunset, rfl⟩, (Except.error.inj h).symm⟩
    · rintro ⟨_, ⟨_, rfl⟩ | ⟨⟨v, hv, _⟩, _⟩, rfl⟩
      · rfl
      · exact absurd hv (hunset v)
  | some v =>
    have hset := envVar_eq_some.mp hvar
    dsimp only
    split
    · rename_i hblank
      constructor
      · intro h
        exact ⟨_, Or.inr ⟨⟨v, hset, hblank⟩, rfl⟩, (Except.error.inj h).symm⟩
      · rintro ⟨_, ⟨hunset, _⟩ | ⟨_, rfl⟩, rfl⟩
        · exact absurd hset (hunset v)
        · rfl
    · rename_i hblank
      constructor
      · intro h
        cases h
      · rintro ⟨_, ⟨hunset, _⟩ | ⟨⟨v', hv', hblank'⟩, _⟩, _⟩
        · exact absurd hset (hunset v)
        · exact absurd (asBytes_inj (Option.some.inj (hset.symm.trans hv')) ▸ hblank') hblank

/-- The first required variable that is not given, with what is said of it. -/
def firstMissing (environ : Environ) : Option AppError :=
  requiredNames.findSome? fun name =>
    match environ.get name with
    | .ok _ => none
    | .error e => some e

theorem firstMissing_eq_some {environ : Environ} {e : AppError} :
    firstMissing environ = some e ↔ ∃ earlier name later message,
      requiredNames = earlier ++ name :: later ∧ (∀ other ∈ earlier, Given environ other) ∧
      Missing environ name message ∧ e = .config message := by
  have hfound : ∀ name, (match environ.get name with
      | .ok _ => none
      | .error e => some e) = some e ↔ ∃ message, Missing environ name message ∧ e = .config message := by
    intro name
    rw [← get_eq_error]
    cases environ.get name <;> simp
  have hpassed : ∀ name, (match environ.get name with
      | .ok _ => none
      | .error e => some e) = none ↔ Given environ name := by
    intro name
    simp only [Given, ← get_eq_ok]
    cases environ.get name <;> simp
  rw [firstMissing, List.findSome?_eq_some_iff]
  simp only [hfound, hpassed]
  constructor
  · rintro ⟨earlier, name, later, hnames, ⟨message, hmissing, he⟩, hgiven⟩
    exact ⟨earlier, name, later, message, hnames, hgiven, hmissing, he⟩
  · rintro ⟨earlier, name, later, message, hnames, hgiven, hmissing, he⟩
    exact ⟨earlier, name, later, hnames, ⟨message, hmissing, he⟩, hgiven⟩

theorem firstMissing_eq_none {environ : Environ} :
    firstMissing environ = none ↔ ∀ name ∈ requiredNames, Given environ name := by
  rw [firstMissing, List.findSome?_eq_none_iff]
  refine forall₂_congr fun name _ => ?_
  simp only [Given, ← get_eq_ok]
  cases environ.get name <;> simp

section Fails

variable {decode : String → Option Bytes}
  (hdecode : ∀ s bytes, decode s = some bytes ↔ s = Base64.encode bytes)
include hdecode

theorem parseKey_eq_error (raw : String) (failure : Failure) :
    parseKey decode raw = .error failure ↔
      (¬ ∃ key, Encodes key (trim raw)) ∧ failure = .err (.config (keyMessage raw)) := by
  have hok := parseKey_eq_ok hdecode raw
  have hfails : ∀ failure, parseKey decode raw = .error failure →
      failure = .err (.config (keyMessage raw)) := by
    intro failure h
    unfold parseKey at h
    unfold keyMessage
    by_cases hlen : (asBytes (trim raw)).length = 64
    · rw [if_pos hlen] at h ⊢
      split at h
      · cases h
      · exact (Except.error.inj h).symm
      · rename_i hdigits
        cases hexDecode_eq_error hdigits
    · rw [if_neg hlen] at h ⊢
      split at h
      · cases h
      · exact (Except.error.inj h).symm
  constructor
  · intro h
    refine ⟨?_, hfails failure h⟩
    rintro ⟨key, hkey⟩
    rw [(hok key).mpr hkey] at h
    cases h
  · rintro ⟨hnone, rfl⟩
    cases hparse : parseKey decode raw with
    | ok key => exact absurd ⟨key, (hok key).mp hparse⟩ hnone
    | error failure => rw [hfails failure hparse]

omit hdecode in
/-- Where a required variable is missing, the first that is decides. -/
theorem fromEnv_of_missing {environ : Environ} {e : AppError} (h : firstMissing environ = some e) :
    fromEnv decode environ = .error (.err e) := by
  unfold firstMissing requiredNames at h
  unfold fromEnv
  cases hid : environ.get "CLIENT_ID" with
  | error e' =>
    simp only [List.findSome?, hid, Option.some.injEq] at h
    rw [h]
    rfl
  | ok clientId =>
    cases hsecret : environ.get "CLIENT_SECRET" with
    | error e' =>
      simp only [List.findSome?, hid, hsecret, Option.some.injEq] at h
      rw [h]
      rfl
    | ok clientSecret =>
      cases hkey : environ.get "ENCRYPTION_KEY" with
      | error e' =>
        simp only [List.findSome?, hid, hsecret, hkey, Option.some.injEq] at h
        rw [h]
        rfl
      | ok raw => simp [List.findSome?, hid, hsecret, hkey] at h

omit hdecode in
/-- Where none is, the key decides. -/
theorem fromEnv_of_given {environ : Environ} (h : ∀ name ∈ requiredNames, Given environ name) :
    ∃ raw, environ "ENCRYPTION_KEY" = some (asBytes raw) ∧
      ∀ failure, fromEnv decode environ = .error failure ↔ parseKey decode raw = .error failure := by
  have hload : ∀ name ∈ requiredNames, ∃ v, environ.get name = .ok v ∧
      environ name = some (asBytes v) := by
    intro name hname
    obtain ⟨v, hv, hne⟩ := h name hname
    exact ⟨v, get_eq_ok.mpr ⟨hv, hne⟩, hv⟩
  obtain ⟨clientId, hid, _⟩ := hload "CLIENT_ID" (by simp [requiredNames])
  obtain ⟨clientSecret, hsecret, _⟩ := hload "CLIENT_SECRET" (by simp [requiredNames])
  obtain ⟨raw, hraw, hset⟩ := hload "ENCRYPTION_KEY" (by simp [requiredNames])
  refine ⟨raw, hset, fun failure => ?_⟩
  have hpass : ∀ (value : String) (f : String → Outcome AppConfig),
      ((Except.ok value : Result String).mapError Failure.err >>= f) = f value := fun _ _ => rfl
  unfold fromEnv
  rw [hid, hsecret, hraw, hpass, hpass, hpass]
  constructor
  · intro hfails
    rcases bind_eq_error.mp hfails with hfails | ⟨key, hkey, hfails⟩
    · exact hfails
    · cases hfails
  · exact fun hfails => bind_eq_error.mpr (Or.inl hfails)

/-- **Loading fails** exactly where a required variable is unset, no Unicode or blank, and the error names
the first of them and says which, or where the key is no encoding. No other variable matters, and nothing
panics. -/
theorem from_env_fails_iff (environ : Environ) (failure : Failure) :
    fromEnv decode environ = .error failure ↔
      (∃ earlier name later message,
        ["CLIENT_ID", "CLIENT_SECRET", "ENCRYPTION_KEY"] = earlier ++ name :: later ∧
        (∀ other ∈ earlier, Given environ other) ∧ Missing environ name message ∧
        failure = .err (.config message)) ∨
      (∀ name ∈ ["CLIENT_ID", "CLIENT_SECRET", "ENCRYPTION_KEY"], Given environ name) ∧
        ∃ raw, environ "ENCRYPTION_KEY" = some (asBytes raw) ∧ (¬ ∃ key, Encodes key (trim raw)) ∧
          failure = .err (.config (keyMessage raw)) := by
  constructor
  · intro h
    cases hmissing : firstMissing environ with
    | some e =>
      rw [fromEnv_of_missing hmissing] at h
      obtain ⟨earlier, name, later, message, hnames, hgiven, hmessage, rfl⟩ :=
        firstMissing_eq_some.mp hmissing
      exact Or.inl ⟨earlier, name, later, message, hnames, hgiven, hmessage, (Except.error.inj h).symm⟩
    | none =>
      have hgiven := firstMissing_eq_none.mp hmissing
      obtain ⟨raw, hraw, hfails⟩ := fromEnv_of_given hgiven
      rw [hfails, parseKey_eq_error hdecode] at h
      exact Or.inr ⟨hgiven, raw, hraw, h⟩
  · rintro (⟨earlier, name, later, message, hnames, hgiven, hmessage, rfl⟩ | ⟨hgiven, raw, hraw, h⟩)
    · exact fromEnv_of_missing
        (firstMissing_eq_some.mpr ⟨earlier, name, later, message, hnames, hgiven, hmessage, rfl⟩)
    · obtain ⟨raw', hraw', hfails⟩ := fromEnv_of_given hgiven
      obtain rfl := asBytes_inj (Option.some.inj (hraw.symm.trans hraw'))
      rw [hfails, parseKey_eq_error hdecode]
      exact h

end Fails

/-! ### Two environments -/

def sampleConfig : AppConfig where
  clientId := "client"
  clientSecret := "secret"
  redirectUri := "http://localhost"
  authUrl := COMMON_AUTH_URL
  tokenUrl := COMMON_TOKEN_URL
  graphBaseUrl := GRAPH_BASE_URL
  encryptionKey := Vector.replicate 32 7
  databasePath := ":memory:"
  apiKeys := ((∅ : ApiKeys).insert "sk-b" "").insert "sk-a" "tenant-1"
  defaultTenantId := "default"
  apiBindAddr := "127.0.0.1:0"
  callbackBindAddr := none
  tokenInactivityDays := -1
  refreshIntervalSecs := 18446744073709551615

theorem sampleConfig_expressible : sampleConfig.Expressible where
  texts := by decide
  apiKeys := by
    intro e he
    have hcases : e = ⟨"sk-a", "tenant-1"⟩ ∨ e = ⟨"sk-b", ""⟩ := by
      have hentries : sampleConfig.apiKeys.entries = [⟨"sk-a", "tenant-1"⟩, ⟨"sk-b", ""⟩] := by decide
      rw [hentries] at he
      simpa using he
    rcases hcases with rfl | rfl
    · exact ⟨by decide, by decide, by decide, by decide, by decide⟩
    · exact ⟨by decide, by decide, by decide, by decide, by decide⟩
  callbackBindAddr := nofun
  tokenInactivityDays := by decide
  refreshIntervalSecs := by decide

theorem from_env_to_environ_sample :
    fromEnv Base64.decode sampleConfig.toEnviron = .ok sampleConfig :=
  from_env_to_environ (fun _ _ => Base64.decode_eq_some) sampleConfig_expressible

/-- The secret is blank and the key is missing. -/
def blankSecret : Environ
  | "CLIENT_ID" => some (asBytes "client")
  | "CLIENT_SECRET" => some (asBytes " ")
  | _ => none

/-- The client is the byte `E9`, which is no UTF-8. -/
def strayClient : Environ
  | "CLIENT_ID" => some [0xE9]
  | _ => none

theorem from_env_fails_iff_blank :
    fromEnv Base64.decode blankSecret =
        .error (.err (.config "environment variable CLIENT_SECRET is empty")) ∧
      fromEnv Base64.decode strayClient =
        .error (.err (.config "missing required environment variable CLIENT_ID")) := by
  have hdecode : ∀ s bytes, Base64.decode s = some bytes ↔ s = Base64.encode bytes :=
    fun _ _ => Base64.decode_eq_some
  refine ⟨(from_env_fails_iff hdecode blankSecret _).mpr (Or.inl ?_),
    (from_env_fails_iff hdecode strayClient _).mpr (Or.inl ?_)⟩
  · refine ⟨["CLIENT_ID"], "CLIENT_SECRET", ["ENCRYPTION_KEY"], _, rfl, ?_, Or.inr ⟨?_, rfl⟩, by decide⟩
    · simpa using ⟨"client", rfl, by decide⟩
    · exact ⟨" ", rfl, by decide⟩
  · refine ⟨[], "CLIENT_ID", ["CLIENT_SECRET", "ENCRYPTION_KEY"], _, rfl, nofun, Or.inl ⟨?_, rfl⟩,
      by decide⟩
    exact envVar_eq_none.mp (by decide : envVar (strayClient "CLIENT_ID") = none)

end AppConfig

end UniMail
