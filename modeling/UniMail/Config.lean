import Mathlib.Data.List.AList
import UniMail.Error
import UniMail.Storage.Crypto
import UniMail.Text

/-!
# Environment-driven configuration: the API keys

`env` and `parse_api_keys`. `lookup_parseApiKeys` says what the tolerant parser amounts to: a key
maps to the tenant of the last entry that is not blank and has that key.
-/

namespace UniMail

open Text

/-- `std::env::var` of a variable with these bytes: it fails where the variable is unset and where its
value is not Unicode. -/
def envVar (value : Option Bytes) : Option String := value.bind fun bytes => (fromUtf8 bytes).toOption

@[simp] theorem envVar_asBytes (v : String) : envVar (some (asBytes v)) = some v := by
  simp [envVar, Except.toOption]

theorem envVar_eq_some {value : Option Bytes} {v : String} :
    envVar value = some v ↔ value = some (asBytes v) := by
  constructor
  · intro h
    obtain ⟨raw, rfl, hraw⟩ := Option.bind_eq_some_iff.mp h
    cases htext : fromUtf8 raw with
    | error e => simp [htext, Except.toOption] at hraw
    | ok v' =>
      rw [htext] at hraw
      rw [← Option.some.inj hraw, asBytes_of_fromUtf8 htext]
  · rintro rfl
    exact envVar_asBytes v

theorem envVar_eq_none {value : Option Bytes} :
    envVar value = none ↔ ∀ v, value ≠ some (asBytes v) := by
  simp only [Option.eq_none_iff_forall_ne_some, ne_eq, envVar_eq_some]

/-- Read a required environment variable, given what `std::env::var` found. -/
def env (key : String) (value : Option String) : Result String :=
  match value with
  | none => .error (.config s!"missing required environment variable {key}")
  | some v =>
    if trim v = "" then .error (.config s!"environment variable {key} is empty") else .ok v

/-- Map of API key to tenant id. -/
abbrev ApiKeys := AList fun _ : String => String

/-- One entry of `API_KEYS`, without the white space around it. -/
def insertPart (map : ApiKeys) (part : String) : ApiKeys :=
  match splitOnce '=' part with
  | some (key, tenant) => map.insert (trim key) (trim tenant)
  | none => map.insert part ""

/-- Parse `API_KEYS` into a key to tenant map. -/
def parseApiKeys (raw : String) : ApiKeys :=
  (((split ',' raw).map trim).filter (· ≠ "")).foldl insertPart ∅

/-- The fields of the configuration that the API gate reads. -/
structure Config where
  apiKeys : ApiKeys
  defaultTenantId : String

/-- The API keys `from_env` loads when `std::env::var` found `value`. -/
def Config.apiKeysFromEnv (value : Option String) : ApiKeys :=
  parseApiKeys (match env "API_KEYS" value with
    | .ok raw => raw
    | .error _ => "")

/-! ### Entries -/

/-- The key of an entry: the text before the first `=`, trimmed. -/
def entryKey (entry : String) : String := trim (String.ofList (before '=' entry.toList))

/-- The tenant of an entry: the text after the first `=`, trimmed, empty where there is none. -/
def entryTenant (entry : String) : String := trim (String.ofList (after '=' entry.toList))

/-- The entries that the parser keeps: those that are not blank. -/
def entries (raw : String) : List String := (split ',' raw).filter fun e => trim e ≠ ""

/-- An entry adds its key with its tenant. -/
theorem insertPart_trim (map : ApiKeys) (entry : String) :
    insertPart map (trim entry) = map.insert (entryKey entry) (entryTenant entry) := by
  have hsep : isWhitespace '=' = false := by decide
  have hkey : entryKey entry =
      trim (String.ofList (before '=' (trimChars entry.toList))) := by
    simp [entryKey, trim, trimChars_before hsep]
  have htenant : entryTenant entry =
      trim (String.ofList (after '=' (trimChars entry.toList))) := by
    simp [entryTenant, trim, trimChars_after hsep]
  rw [hkey, htenant]
  unfold insertPart splitOnce
  have hchars : (trim entry).toList = trimChars entry.toList := by simp [trim]
  rw [hchars]
  by_cases h : '=' ∈ trimChars entry.toList
  · rw [if_pos h]
  · rw [if_neg h, before_eq_self h, after_eq_nil h]
    simp [trim, trimChars_trimChars]
    rfl

theorem parseApiKeys_eq (raw : String) :
    parseApiKeys raw =
      (entries raw).foldl (fun map e => map.insert (entryKey e) (entryTenant e)) ∅ := by
  have hfilter : ((split ',' raw).map trim).filter (· ≠ "") = (entries raw).map trim := by
    rw [entries, List.filter_map]
    rfl
  simp only [parseApiKeys, hfilter, List.foldl_map, insertPart_trim]

/-- The last entry with the key `k`. -/
def lastEntry (l : List String) (k : String) : Option String :=
  (l.filter fun e => entryKey e = k).getLast?

/-- **What the parser amounts to.** -/
theorem lookup_parseApiKeys (raw k : String) :
    (parseApiKeys raw).lookup k = (lastEntry (entries raw) k).map entryTenant := by
  rw [parseApiKeys_eq]
  induction entries raw using List.reverseRecOn with
  | nil => rfl
  | append_singleton l e ih =>
    rw [List.foldl_append, List.foldl_cons, List.foldl_nil]
    by_cases hk : entryKey e = k
    · subst hk
      simp [AList.lookup_insert, lastEntry]
    · rw [AList.lookup_insert_ne (Ne.symm hk), ih]
      simp [lastEntry, hk]

example : (parseApiKeys "sk-a=tenant-1, sk-b ,sk-c=tenant-2").lookup "sk-b" = some "" := by decide

/-- The map is empty when no entry is left. -/
theorem parseApiKeys_isEmpty (raw : String) :
    (parseApiKeys raw).entries = [] ↔ entries raw = [] := by
  rw [parseApiKeys_eq]
  induction entries raw using List.reverseRecOn with
  | nil => simp
  | append_singleton l e ih => simp [AList.entries_insert]

end UniMail
