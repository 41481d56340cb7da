import UniMail.Config
import UniMail.Lib.Percent

/-!
# The API key gate

`extract_api_key`, `resolve_tenant` and the middleware around them, together with `parse_api_keys`.
`gate_exact_iff` says for which values of `API_KEYS` and which requests the gate admits exactly the
configured keys. A value without any entry, such as `","`, and one that is not Unicode open the API
although they are not blank; an entry with an empty key, such as `"=tenant-a"`, admits a request whose
credential is empty; and a header that is no visible ASCII is passed over (`gate_fails_open`).
-/

namespace UniMail

open Text

/-- The first value of the two headers, as bytes. -/
structure Request where
  authorization : Option Bytes
  xApiKey : Option Bytes

/-- `HeaderValue::to_str`: the visible ASCII characters and the tab. -/
def toStr (value : Bytes) : Option String :=
  if value.all fun b => (32 ≤ b && b < 127) || b = 9 then
    some (String.ofList (value.map fun b => Char.ofNat b.toNat))
  else none

/-- The text of a header that is there and has one. -/
def headerText (value : Option Bytes) : Option String := value.bind toStr

/-- Extract the API key from the `Authorization` or `X-API-Key` header. -/
def extractApiKey (request : Request) : Option String :=
  match (headerText request.authorization).bind (stripPrefix "Bearer ") with
  | some key => some (trim key)
  | none => (headerText request.xApiKey).map trim

/-- Resolve the tenant for an API key, honouring the "open in dev" default. -/
def resolveTenant (config : Config) (key : Option String) : Option String :=
  if config.apiKeys.entries = [] then some config.defaultTenantId
  else
    match key with
    | none => none
    | some key =>
      match config.apiKeys.lookup key with
      | some tenant => if tenant = "" then some config.defaultTenantId else some tenant
      | none => none

/-- Validate the API key and resolve the tenant, or answer 401. -/
def apiKeyMiddleware (config : Config) (request : Request) : Except (Nat × String) String :=
  match resolveTenant config (extractApiKey request) with
  | some tenant => .ok tenant
  | none => .error (401, "invalid or missing API key")

/-- The gate of a server that was started with the value `value` of `API_KEYS`. -/
def gate (value : Option Bytes) (defaultTenantId : String) (request : Request) :
    Except (Nat × String) String :=
  apiKeyMiddleware ⟨Config.apiKeysFromEnv (envVar value), defaultTenantId⟩ request

/-! ### What the gate should admit -/

/-- The variable is unset or blank. -/
def Blank (value : Option Bytes) : Prop := ∀ raw, value = some raw → ∃ v, raw = asBytes v ∧ trim v = ""

/-- The header starts with `Bearer `. -/
def IsBearer (header : Option Bytes) : Prop := ∃ rest, header = some (asBytes "Bearer " ++ rest)

/-- The request presents the key `k`: the trimmed credential when `Authorization` starts with
`Bearer `, otherwise the trimmed `X-API-Key`. -/
def Presents (request : Request) (k : String) : Prop :=
  (∃ cred, request.authorization = some (asBytes ("Bearer " ++ cred)) ∧ k = trim cred) ∨
    ¬ IsBearer request.authorization ∧ ∃ v, request.xApiKey = some (asBytes v) ∧ k = trim v

/-- The key of an entry, if it is a text. -/
def keyOf (entry : Bytes) : Option String := (fromUtf8 (before 61 entry)).toOption.map trim

/-- The tenant of an entry, if it is a text; empty where the entry names none. -/
def tenantOf (entry : Bytes) : Option String := (fromUtf8 (after 61 entry)).toOption.map trim

/-- The last comma-separated entry with the key `k` is one of the tenant, or names no tenant and this is
the default one. -/
def EntryOf (raw : Bytes) (defaultTenantId k tenant : String) : Prop :=
  ∃ entry t, ((raw.splitOn 44).filter fun e => keyOf e = some k).getLast? = some entry ∧
    tenantOf entry = some t ∧ tenant = if t = "" then defaultTenantId else t

/-- The request presents a key that is not empty, of an entry of the tenant. -/
def PresentsEntry (raw : Bytes) (defaultTenantId : String) (request : Request) (tenant : String) : Prop :=
  ∃ k, Presents request k ∧ k ≠ "" ∧ EntryOf raw defaultTenantId k tenant

/-- The tenants under which exactly the configured keys are admitted. -/
def AdmitsConfigured (value : Option Bytes) (defaultTenantId : String) (request : Request)
    (tenant : String) : Prop :=
  (Blank value ∧ tenant = defaultTenantId) ∨
    ∃ raw, value = some raw ∧ PresentsEntry raw defaultTenantId request tenant

/-! ### When it does -/

/-- The header that carries the key has visible ASCII characters only. -/
def Legible (request : Request) : Prop :=
  (∀ rest, request.authorization = some (asBytes "Bearer " ++ rest) →
      toStr (asBytes "Bearer " ++ rest) ≠ none) ∧
    (¬ IsBearer request.authorization → ∀ v, request.xApiKey = some v → toStr v ≠ none)

/-- The trimmed `X-API-Key`, if it has visible ASCII characters only: the key that takes the place of a
credential that is not legible. -/
def Fallback (request : Request) (k : String) : Prop :=
  ∃ value s, request.xApiKey = some value ∧ toStr value = some s ∧ k = trim s

/-- The key that is `read` and the presented one, if it is not empty, belong to entries of the same tenant,
or neither belongs to an entry. -/
def SameEntry (read : String → Prop) (v defaultTenantId : String) (request : Request) : Prop :=
  ∀ tenant, (∃ k entry, read k ∧ lastEntry (entries v) k = some entry ∧
      tenant = if entryTenant entry = "" then defaultTenantId else entryTenant entry) ↔
    PresentsEntry (asBytes v) defaultTenantId request tenant

/-- The variable is unset or blank. Or it is Unicode and has an entry that is not blank, and the request
is legible and does not present an empty key that is also that of an entry, or it is not legible and
that makes no difference. Or the variable opens the API although it is set, and the request presents a
key of the default tenant. -/
def NoGap (value : Option Bytes) (defaultTenantId : String) (request : Request) : Prop :=
  Blank value ∨ ∃ raw, value = some raw ∧
    ((∃ v, raw = asBytes v ∧ entries v ≠ [] ∧
        (Legible request ∧ ¬ (Presents request "" ∧ ∃ e ∈ entries v, entryKey e = "") ∨
          ¬ Legible request ∧ SameEntry (Fallback request) v defaultTenantId request)) ∨
      (∀ v, raw = asBytes v → entries v = []) ∧
        PresentsEntry raw defaultTenantId request defaultTenantId)

/-! ### Texts and their bytes -/

/-- A header that can be read is the bytes of its text. -/
theorem asBytes_of_toStr {value : Bytes} {s : String} (h : toStr value = some s) : asBytes s = value := by
  unfold toStr at h
  split at h
  · rename_i hall
    rw [List.all_eq_true] at hall
    rw [← Option.some.inj h, asBytes_eq, String.toList_ofList, List.flatMap_map]
    have hbyte : ∀ b ∈ value, String.utf8EncodeChar (Char.ofNat b.toNat) = [b] := by
      intro b hb
      have hvisible := hall b hb
      have hlt : b.toNat < 128 := by
        simp only [Bool.or_eq_true, Bool.and_eq_true, decide_eq_true_eq, UInt8.le_iff_toNat_le,
          UInt8.lt_iff_toNat_lt] at hvisible
        rcases hvisible with ⟨_, hlt⟩ | rfl
        · exact hlt.trans (by decide)
        · decide
      rw [Percent.utf8EncodeChar_ofNat hlt, UInt8.ofNat_toNat]
    calc value.flatMap (fun b => String.utf8EncodeChar (Char.ofNat b.toNat))
        = value.flatMap fun b => [b] := List.flatMap_congr hbyte
      _ = value := List.flatMap_singleton' value
  · cases h

theorem asBytes_of_headerText {header : Option Bytes} {s : String} (h : headerText header = some s) :
    header = some (asBytes s) := by
  obtain ⟨value, rfl, hvalue⟩ := Option.bind_eq_some_iff.mp h
  rw [asBytes_of_toStr hvalue]

/-- The text of a header that starts with `Bearer ` does. -/
theorem toStr_bearer {rest : Bytes} {s : String} (h : toStr (asBytes "Bearer " ++ rest) = some s) :
    ∃ cred, s = "Bearer " ++ cred ∧ rest = asBytes cred := by
  have hbytes := asBytes_of_toStr h
  unfold toStr at h
  split at h
  · have hs := Option.some.inj h
    rw [List.map_append, String.ofList_append] at hs
    have hbearer : String.ofList ((asBytes "Bearer ").map fun b => Char.ofNat b.toNat) = "Bearer " := by
      decide
    rw [hbearer] at hs
    refine ⟨_, hs.symm, ?_⟩
    rw [← hs, asBytes_append] at hbytes
    exact (List.append_cancel_left hbytes).symm
  · cases h

section Entry

theorem equals_utf8 : String.utf8EncodeChar '=' = [61] ∧
    ∀ c, c ≠ '=' → 61 ∉ String.utf8EncodeChar c :=
  ⟨by decide, fun _ => notMem_utf8EncodeChar (c := '=') (by decide)⟩

theorem comma_utf8 : String.utf8EncodeChar ',' = [44] ∧
    ∀ c, c ≠ ',' → 44 ∉ String.utf8EncodeChar c :=
  ⟨by decide, fun _ => notMem_utf8EncodeChar (c := ',') (by decide)⟩

variable (e v : String)

theorem before_asBytes : before 61 (asBytes e) = asBytes (String.ofList (before '=' e.toList)) := by
  rw [asBytes_eq, asBytes_eq, String.toList_ofList]
  exact before_flatMap equals_utf8.1 equals_utf8.2 _

theorem after_asBytes : after 61 (asBytes e) = asBytes (String.ofList (after '=' e.toList)) := by
  rw [asBytes_eq, asBytes_eq, String.toList_ofList]
  exact after_flatMap equals_utf8.1 equals_utf8.2 _

theorem splitOn_asBytes : (asBytes v).splitOn 44 = (split ',' v).map asBytes := by
  rw [asBytes_eq, split, List.map_map]
  refine (splitOn_encoded comma_utf8.1 comma_utf8.2 _).trans ?_
  apply List.map_congr_left
  intro part _
  rw [Function.comp_apply, asBytes_eq, String.toList_ofList]

theorem keyOf_asBytes : keyOf (asBytes e) = some (entryKey e) := by
  rw [keyOf, before_asBytes, fromUtf8_asBytes]
  rfl

theorem tenantOf_asBytes : tenantOf (asBytes e) = some (entryTenant e) := by
  rw [tenantOf, after_asBytes, fromUtf8_asBytes]
  rfl

/-- In a Unicode value the entries are those of its text. -/
theorem entryOf_asBytes {d k tenant : String} :
    EntryOf (asBytes v) d k tenant ↔ ∃ entry, lastEntry (split ',' v) k = some entry ∧
      tenant = if entryTenant entry = "" then d else entryTenant entry := by
  have hfilter : ((asBytes v).splitOn 44).filter (fun e => keyOf e = some k) =
      ((split ',' v).filter fun e => entryKey e = k).map asBytes := by
    rw [splitOn_asBytes, List.filter_map]
    simp [Function.comp_def, keyOf_asBytes]
  rw [EntryOf, hfilter, List.getLast?_map]
  constructor
  · rintro ⟨entry, t, hlast, ht, htenant⟩
    obtain ⟨e, he, rfl⟩ := Option.map_eq_some_iff.mp hlast
    rw [tenantOf_asBytes] at ht
    obtain rfl := Option.some.inj ht
    exact ⟨e, he, htenant⟩
  · rintro ⟨e, he, htenant⟩
    exact ⟨asBytes e, entryTenant e, Option.map_eq_some_iff.mpr ⟨e, he, rfl⟩, tenantOf_asBytes e, htenant⟩

end Entry

/-! ### The two sides compared -/

theorem presents_unique {request : Request} {k k' : String} (h : Presents request k)
    (h' : Presents request k') : k = k' := by
  have hbearer : ∀ {cred}, request.authorization = some (asBytes ("Bearer " ++ cred)) →
      IsBearer request.authorization := fun {cred} hcred => ⟨asBytes cred, by rw [hcred, asBytes_append]⟩
  rcases h with ⟨cred, hcred, rfl⟩ | ⟨hno, v, hv, rfl⟩
  · rcases h' with ⟨cred', hcred', rfl⟩ | ⟨hno, _⟩
    · rw [(String.append_right_inj _).mp (asBytes_inj (Option.some.inj (hcred.symm.trans hcred')))]
    · exact absurd (hbearer hcred) hno
  · rcases h' with ⟨cred', hcred', _⟩ | ⟨_, v', hv', rfl⟩
    · exact absurd (hbearer hcred') hno
    · rw [asBytes_inj (Option.some.inj (hv.symm.trans hv'))]

/-- A request presents the key of at most one entry, so at most one tenant. -/
theorem PresentsEntry.unique {raw : Bytes} {d tenant tenant' : String} {request : Request}
    (h : PresentsEntry raw d request tenant) (h' : PresentsEntry raw d request tenant') :
    tenant = tenant' := by
  obtain ⟨k, hk, _, entry, t, hlast, ht, rfl⟩ := h
  obtain ⟨k', hk', _, entry', t', hlast', ht', rfl⟩ := h'
  obtain rfl := presents_unique hk hk'
  obtain rfl := Option.some.inj (hlast.symm.trans hlast')
  obtain rfl := Option.some.inj (ht.symm.trans ht')
  rfl

theorem strip_of_not_bearer {header : Option Bytes} (h : ¬ IsBearer header) :
    (headerText header).bind (stripPrefix "Bearer ") = none := by
  rw [Option.bind_eq_none_iff]
  intro s hs
  cases hstrip : stripPrefix "Bearer " s with
  | none => rfl
  | some cred =>
    rw [stripPrefix_eq_some.mp hstrip] at hs
    exact absurd ⟨_, (asBytes_of_headerText hs).trans (congrArg some (asBytes_append ..))⟩ h

/-- From a request that is not legible the fallback is read. -/
theorem extractApiKey_eq_fallback {request : Request} (hlegible : ¬ Legible request) {k : String} :
    extractApiKey request = some k ↔ Fallback request k := by
  have hstrip : (headerText request.authorization).bind (stripPrefix "Bearer ") = none := by
    by_cases hbearer : IsBearer request.authorization
    · obtain ⟨rest, hrest⟩ := hbearer
      cases hs : toStr (asBytes "Bearer " ++ rest) with
      | none => rw [hrest, headerText, Option.bind_some, hs, Option.bind_none]
      | some s =>
        refine absurd ⟨fun rest' hrest' => ?_, fun hno => absurd ⟨rest, hrest⟩ hno⟩ hlegible
        rw [← Option.some.inj (hrest.symm.trans hrest'), hs]
        exact Option.some_ne_none s
    · exact strip_of_not_bearer hbearer
  rw [extractApiKey, hstrip]
  constructor
  · intro hk
    obtain ⟨s, hs, rfl⟩ := Option.map_eq_some_iff.mp hk
    obtain ⟨value, hvalue, hs⟩ := Option.bind_eq_some_iff.mp hs
    exact ⟨value, s, hvalue, hs, rfl⟩
  · rintro ⟨value, s, hvalue, hs, rfl⟩
    rw [hvalue, headerText, Option.bind_some, hs, Option.map_some]

/-- From a legible request the presented key is read. -/
theorem extractApiKey_eq_some {request : Request} (hlegible : Legible request) {k : String} :
    extractApiKey request = some k ↔ Presents request k := by
  obtain ⟨hauthorization, hxApiKey⟩ := hlegible
  unfold extractApiKey
  by_cases hbearer : IsBearer request.authorization
  · obtain ⟨rest, hrest⟩ := hbearer
    obtain ⟨s, hs⟩ := Option.ne_none_iff_exists'.mp (hauthorization rest hrest)
    obtain ⟨cred, rfl, rfl⟩ := toStr_bearer hs
    have hpresented : Presents request (trim cred) := by
      refine Or.inl ⟨cred, ?_, rfl⟩
      rw [hrest, asBytes_append]
    have hstrip : (headerText request.authorization).bind (stripPrefix "Bearer ") = some cred := by
      rw [hrest, headerText, Option.bind_some, hs, Option.bind_some, stripPrefix_eq_some]
    rw [hstrip]
    constructor
    · intro hk
      exact Option.some.inj hk ▸ hpresented
    · exact fun hk => congrArg some (presents_unique hpresented hk)
  · rw [strip_of_not_bearer hbearer]
    constructor
    · intro hk
      obtain ⟨v, hv, rfl⟩ := Option.map_eq_some_iff.mp hk
      exact Or.inr ⟨hbearer, v, asBytes_of_headerText hv, rfl⟩
    · rintro (⟨cred, hcred, _⟩ | ⟨_, v, hv, rfl⟩)
      · exact absurd ⟨_, hcred.trans (congrArg some (asBytes_append ..))⟩ hbearer
      · obtain ⟨s, hs⟩ := Option.ne_none_iff_exists'.mp (hxApiKey hbearer _ hv)
        have hsame := asBytes_inj (asBytes_of_toStr hs)
        rw [headerText, hv, Option.bind_some, hs, Option.map_some, hsame]

/-- A blank entry has the empty key. -/
theorem entryKey_of_blank {entry : String} (h : trim entry = "") : entryKey entry = "" := by
  rw [trim_eq_empty] at h
  rw [entryKey, trim_eq_empty, String.toList_ofList]
  exact fun c hc => h c ((List.takeWhile_sublist _).mem hc)

/-- So only the entries the parser keeps can have a key that is not empty. -/
theorem lastEntry_split {v k : String} (hk : k ≠ "") :
    lastEntry (split ',' v) k = lastEntry (entries v) k := by
  have hfilter : (entries v).filter (fun e => entryKey e = k) =
      (split ',' v).filter fun e => entryKey e = k := by
    rw [entries, List.filter_filter]
    apply List.filter_congr
    intro e _
    by_cases hkey : entryKey e = k
    · have hblank : trim e ≠ "" := fun h => hk (hkey ▸ entryKey_of_blank h)
      simp [hkey, hblank]
    · simp [hkey]
  rw [lastEntry, lastEntry, hfilter]

/-- What the request presents of a Unicode value, by the entries that the parser keeps. -/
theorem presentsEntry_asBytes {v d tenant : String} {request : Request} :
    PresentsEntry (asBytes v) d request tenant ↔
      ∃ k entry, Presents request k ∧ k ≠ "" ∧ lastEntry (entries v) k = some entry ∧
        tenant = if entryTenant entry = "" then d else entryTenant entry := by
  rw [PresentsEntry]
  refine exists_congr fun k => ?_
  rw [entryOf_asBytes]
  constructor
  · rintro ⟨hk, hne, entry, hlast, htenant⟩
    exact ⟨entry, hk, hne, lastEntry_split hne ▸ hlast, htenant⟩
  · rintro ⟨entry, hk, hne, hlast, htenant⟩
    exact ⟨hk, hne, entry, (lastEntry_split hne).symm ▸ hlast, htenant⟩

theorem mem_of_lastEntry {l : List String} {k entry : String} (h : lastEntry l k = some entry) :
    entry ∈ l ∧ entryKey entry = k := by
  simpa using List.mem_of_getLast? h

theorem exists_lastEntry {l : List String} {k e : String} (he : e ∈ l) (hk : entryKey e = k) :
    ∃ entry, lastEntry l k = some entry := by
  refine Option.isSome_iff_exists.mp (List.getLast?_isSome.mpr ?_)
  exact List.ne_nil_of_mem (List.mem_filter.mpr ⟨he, by simpa using hk⟩)

/-- A blank value has no entries. -/
theorem entries_of_blank {v : String} (h : trim v = "") : entries v = [] := by
  rw [trim_eq_empty] at h
  have hsplit : split ',' v = [v] := by
    have hsep : ∀ c ∈ v.toList, (c == ',') = false := by
      intro c hc
      rw [beq_eq_false_iff_ne]
      rintro rfl
      exact absurd (h _ hc) (by decide)
    rw [split, List.splitOn, List.splitOnP_eq_singleton hsep, List.map_singleton,
      String.ofList_toList]
  rw [entries, hsplit, List.filter_singleton, trim_eq_empty.mpr h]
  rfl

/-- The gate of a value from which the text `v` is parsed. -/
theorem gate_eq_ok {value : Option Bytes} {d tenant : String} {request : Request}
    {v : String} (hv : Config.apiKeysFromEnv (envVar value) = parseApiKeys v) :
    gate value d request = .ok tenant ↔
      if entries v = [] then tenant = d
      else ∃ k entry, extractApiKey request = some k ∧ lastEntry (entries v) k = some entry ∧
        tenant = if entryTenant entry = "" then d else entryTenant entry := by
  have hok : gate value d request = .ok tenant ↔
      resolveTenant ⟨parseApiKeys v, d⟩ (extractApiKey request) = some tenant := by
    rw [gate, apiKeyMiddleware, hv]
    split <;> simp_all
  rw [hok]
  simp only [resolveTenant, parseApiKeys_isEmpty, lookup_parseApiKeys]
  split
  · simp [eq_comm]
  · cases extractApiKey request with
    | none => simp
    | some k =>
      cases hlast : lastEntry (entries v) k with
      | none => simp [hlast]
      | some entry =>
        simp only [Option.some.injEq, exists_and_left, exists_eq_left', hlast, Option.map_some]
        split <;> simp [eq_comm]

theorem apiKeysFromEnv_of_blank {value : Option Bytes} (h : Blank value) :
    Config.apiKeysFromEnv (envVar value) = parseApiKeys "" := by
  cases value with
  | none => rfl
  | some raw =>
    obtain ⟨v, rfl, hv⟩ := h raw rfl
    simp [Config.apiKeysFromEnv, envVar_asBytes, env, hv]

theorem apiKeysFromEnv_some {v : String} (h : trim v ≠ "") :
    Config.apiKeysFromEnv (envVar (some (asBytes v))) = parseApiKeys v := by
  simp [Config.apiKeysFromEnv, envVar_asBytes, env, h]

/-- A blank variable opens the API, as it should. -/
theorem gate_of_blank {value : Option Bytes} (h : Blank value) (d tenant : String)
    (request : Request) :
    gate value d request = .ok tenant ↔ AdmitsConfigured value d request tenant := by
  rw [gate_eq_ok (apiKeysFromEnv_of_blank h), if_pos (by decide)]
  constructor
  · exact fun hd => Or.inl ⟨h, hd⟩
  · rintro (⟨_, hd⟩ | ⟨raw, rfl, hpresents⟩)
    · exact hd
    · obtain ⟨v, rfl, hv⟩ := h raw rfl
      obtain ⟨k, entry, _, _, hlast, _⟩ := presentsEntry_asBytes.mp hpresents
      simp [entries_of_blank hv, lastEntry] at hlast

/-- For a variable that is not blank, only the key of an entry should be admitted. -/
theorem admitsConfigured_some {raw : Bytes} {d tenant : String} {request : Request}
    (h : ¬ Blank (some raw)) :
    AdmitsConfigured (some raw) d request tenant ↔ PresentsEntry raw d request tenant := by
  simp [AdmitsConfigured, h]

/-- Where the API is open although the variable is set, it is right for the default tenant only. -/
theorem open_exact_iff {raw : Bytes} {d : String} {request : Request} :
    (∀ tenant, tenant = d ↔ PresentsEntry raw d request tenant) ↔ PresentsEntry raw d request d := by
  constructor
  · exact fun h => (h d).mp rfl
  · intro h tenant
    constructor
    · rintro rfl
      exact h
    · exact fun h' => h'.unique h

/-- From a legible request the code goes wrong only with an empty key. -/
theorem legible_exact_iff {v d : String} {request : Request} (hlegible : Legible request) :
    SameEntry (extractApiKey request = some ·) v d request ↔
      ¬ (Presents request "" ∧ ∃ e ∈ entries v, entryKey e = "") := by
  simp only [SameEntry, extractApiKey_eq_some hlegible, presentsEntry_asBytes]
  constructor
  · rintro hexact ⟨hpresents, e, he, hkey⟩
    obtain ⟨entry, hentry⟩ := exists_lastEntry he hkey
    obtain ⟨k, _, hk, hne, _⟩ := (hexact _).mp ⟨"", entry, hpresents, hentry, rfl⟩
    exact hne (presents_unique hk hpresents)
  · intro hgap tenant
    constructor
    · rintro ⟨k, entry, hk, hlast, htenant⟩
      refine ⟨k, entry, hk, ?_, hlast, htenant⟩
      rintro rfl
      obtain ⟨hmem, hkey⟩ := mem_of_lastEntry hlast
      exact hgap ⟨hk, entry, hmem, hkey⟩
    · rintro ⟨k, entry, hk, _, hlast, htenant⟩
      exact ⟨k, entry, hk, hlast, htenant⟩

/-- The condition for a Unicode value that is not blank. -/
theorem noGap_asBytes {v d : String} {request : Request} (hblank : ¬ Blank (some (asBytes v))) :
    NoGap (some (asBytes v)) d request ↔
      if entries v = [] then PresentsEntry (asBytes v) d request d
      else SameEntry (extractApiKey request = some ·) v d request := by
  have hsame : ∀ P : String → Prop, (∃ v', asBytes v = asBytes v' ∧ P v') ↔ P v := fun P =>
    ⟨fun ⟨v', hv', h⟩ => asBytes_inj hv' ▸ h, fun h => ⟨v, rfl, h⟩⟩
  have hall : (∀ v', asBytes v = asBytes v' → entries v' = []) ↔ entries v = [] :=
    ⟨fun h => h v rfl, fun h v' hv' => asBytes_inj hv' ▸ h⟩
  simp only [NoGap, hblank, false_or, Option.some.injEq, exists_eq_left', hsame, hall]
  split
  · rename_i hnil
    simp [hnil]
  · rename_i hnil
    by_cases hlegible : Legible request
    · simp [hnil, hlegible, legible_exact_iff hlegible]
    · simp [hnil, hlegible, SameEntry, extractApiKey_eq_fallback hlegible]

/-- **When the gate admits exactly the configured keys.** -/
theorem gate_exact_iff (value : Option Bytes) (defaultTenantId : String) (request : Request) :
    (∀ tenant, gate value defaultTenantId request = .ok tenant ↔
      AdmitsConfigured value defaultTenantId request tenant) ↔
    NoGap value defaultTenantId request := by
  by_cases hblank : Blank value
  · exact ⟨fun _ => Or.inl hblank, fun _ tenant => gate_of_blank hblank _ tenant request⟩
  obtain ⟨raw, rfl⟩ : ∃ raw, value = some raw := by
    refine Option.ne_none_iff_exists'.mp ?_
    rintro rfl
    exact hblank nofun
  simp only [admitsConfigured_some hblank]
  by_cases htext : ∃ v, raw = asBytes v
  · obtain ⟨v, rfl⟩ := htext
    have hv : trim v ≠ "" := fun hv => hblank fun raw' hraw => ⟨v, (Option.some.inj hraw).symm, hv⟩
    rw [noGap_asBytes hblank]
    simp only [gate_eq_ok (apiKeysFromEnv_some hv)]
    split
    · exact open_exact_iff
    · exact Iff.rfl
  · -- A value that is not Unicode is dropped, so the API is open.
    have hno : ∀ v, raw ≠ asBytes v := fun v hv => htext ⟨v, hv⟩
    have hkeys : Config.apiKeysFromEnv (envVar (some raw)) = parseApiKeys "" := by
      rw [envVar_eq_none.mpr fun v hv => hno v (Option.some.inj hv)]
      rfl
    have hgate : ∀ tenant, gate (some raw) defaultTenantId request = .ok tenant ↔
        tenant = defaultTenantId := fun tenant => by
      rw [gate_eq_ok hkeys, if_pos (by decide)]
    simp only [hgate, open_exact_iff, NoGap, hblank, false_or, Option.some.injEq, exists_eq_left', hno,
      false_and, exists_false, false_implies, implies_true, true_and]

/-- The API with `API_KEYS=,` admits a request without any key, and with `API_KEYS==tenant-a` one whose
key is empty. With a value that is not Unicode it admits a request without any key, and where the
credential is no visible ASCII it takes the other header. -/
theorem gate_fails_open :
    (gate (some (asBytes ",")) "default" ⟨none, none⟩ = .ok "default" ∧
      ¬ AdmitsConfigured (some (asBytes ",")) "default" ⟨none, none⟩ "default") ∧
    (gate (some (asBytes "=tenant-a")) "default" ⟨none, some []⟩ = .ok "tenant-a" ∧
      ¬ AdmitsConfigured (some (asBytes "=tenant-a")) "default" ⟨none, some []⟩ "tenant-a") ∧
    (gate (some [0x73, 0x6B, 0x2D, 0xE9]) "default" ⟨none, none⟩ = .ok "default" ∧
      ¬ AdmitsConfigured (some [0x73, 0x6B, 0x2D, 0xE9]) "default" ⟨none, none⟩ "default") ∧
    gate (some (asBytes "sk-a")) "default" ⟨some (asBytes "Bearer " ++ [0xE9]), some (asBytes "sk-a")⟩ =
        .ok "default" ∧
      ¬ AdmitsConfigured (some (asBytes "sk-a")) "default"
        ⟨some (asBytes "Bearer " ++ [0xE9]), some (asBytes "sk-a")⟩ "default" := by
  have hset : ∀ {v : String}, trim v ≠ "" → ¬ Blank (some (asBytes v)) := by
    intro v hv hblank
    obtain ⟨v', hbytes, hv'⟩ := hblank _ rfl
    exact hv (asBytes_inj hbytes ▸ hv')
  have hbare : ∀ k, ¬ Presents ⟨none, none⟩ k := by
    rintro k (⟨cred, hcred, _⟩ | ⟨_, v, hv, _⟩)
    · cases hcred
    · cases hv
  refine ⟨⟨by decide, ?_⟩, ⟨by decide, ?_⟩, ⟨by decide, ?_⟩, by decide, ?_⟩
  · rw [admitsConfigured_some (hset (by decide))]
    rintro ⟨k, hk, _⟩
    exact hbare k hk
  · rw [admitsConfigured_some (hset (by decide))]
    rintro ⟨k, hk, hne, _⟩
    have hempty : Presents ⟨none, some []⟩ "" := Or.inr ⟨nofun, "", rfl, by decide⟩
    exact hne (presents_unique hk hempty)
  · have hnot : ¬ Blank (some [0x73, 0x6B, 0x2D, 0xE9]) := by
      intro hblank
      obtain ⟨v, hv, _⟩ := hblank _ rfl
      have hunread : envVar (some [0x73, 0x6B, 0x2D, 0xE9]) = none := by decide
      rw [hv, envVar_asBytes] at hunread
      cases hunread
    rw [admitsConfigured_some hnot]
    rintro ⟨k, hk, _⟩
    exact hbare k hk
  · rw [admitsConfigured_some (hset (by decide))]
    rintro ⟨k, ⟨cred, hcred, _⟩ | ⟨hno, _⟩, _⟩
    · have hunread : envVar (some (asBytes "Bearer " ++ [0xE9])) = none := by decide
      rw [show some (asBytes "Bearer " ++ [0xE9]) = some (asBytes ("Bearer " ++ cred)) from hcred,
        envVar_asBytes] at hunread
      cases hunread
    · exact hno ⟨[0xE9], rfl⟩

end UniMail
