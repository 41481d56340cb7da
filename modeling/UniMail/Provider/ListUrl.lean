import UniMail.Lib.FormUrl
import UniMail.Provider.MessageUrl

/-!
# The URL of a listing

`list_messages` appends three pairs to the query of its URL: the limit, the fields, and a search term or
an order. The term is what a client sends. How `append_pair` writes a pair is the business of the `url`
crate (`QueryCrate`); what is written reads back as these three pairs (`list_query_exact`), so that no
search term adds a parameter, changes one, or ends the query.
-/

namespace UniMail

open Interaction Text

variable {aead : Aead} {chrono : Chrono} {key : Key} {graph : MicrosoftGraph} {α : Type}

/-! ### The crate -/

def pairBytes (p : String × String) : FormUrl.Pair := (asBytes p.1, asBytes p.2)

/-- The text of a query. -/
def queryText (pairs : List (String × String)) : String :=
  String.ofList (FormUrl.serialize (pairs.map pairBytes))

/-- A URL without query and fragment. -/
def Bare (url : String) : Prop := '?' ∉ url.toList ∧ '#' ∉ url.toList

/-- What is assumed of the `url` crate: the first pair that is appended begins the query, a further one is
set off by `&`, and both are form-encoded. -/
structure QueryCrate (crates : WebCrates) : Prop where
  first : ∀ url name value, Bare url →
    crates.appendPair url name value = url ++ "?" ++ queryText [(name, value)]
  further : ∀ url query name value, Bare url → query ≠ "" → '#' ∉ query.toList →
    crates.appendPair (url ++ "?" ++ query) name value =
      url ++ "?" ++ query ++ "&" ++ queryText [(name, value)]

/-- The URL has a query of these pairs, and nothing after it. -/
def Asks (url : String) (pairs : List (String × String)) (text : String) : Prop :=
  ∃ query : String, text = url ++ "?" ++ query ∧ '#' ∉ query.toList ∧
    FormUrl.parse query.toList = pairs.map pairBytes

theorem queryText_asks (url : String) (pairs : List (String × String)) :
    Asks url pairs (url ++ "?" ++ queryText pairs) := by
  refine ⟨_, rfl, ?_, ?_⟩
  · rw [queryText, String.toList_ofList]
    exact FormUrl.notMem_serialize _
  · rw [queryText, String.toList_ofList, FormUrl.parse_serialize]

theorem queryText_ne_empty {pairs : List (String × String)} (h : pairs ≠ []) : queryText pairs ≠ "" := by
  intro hempty
  have hparse := FormUrl.parse_serialize (pairs.map pairBytes)
  have hnil : FormUrl.serialize (pairs.map pairBytes) = [] := by
    rw [queryText] at hempty
    simpa using hempty
  rw [hnil] at hparse
  exact h (List.map_eq_nil_iff.mp hparse.symm)

theorem queryText_snoc {pairs : List (String × String)} (h : pairs ≠ []) (p : String × String) :
    queryText (pairs ++ [p]) = queryText pairs ++ "&" ++ queryText [p] := by
  have hmap : pairs.map pairBytes ≠ [] := by simpa using h
  have hone : FormUrl.serialize [pairBytes p] = FormUrl.pairText (pairBytes p) := by
    simp [FormUrl.serialize]
  rw [← String.toList_inj]
  simp only [queryText, String.toList_append, String.toList_ofList, List.map_append, List.map_cons,
    List.map_nil, FormUrl.serialize_snoc hmap, hone]
  simp

/-- One more pair. -/
theorem QueryCrate.appendPair {crates : WebCrates} (hcrate : QueryCrate crates) {url : String}
    (hurl : Bare url) {pairs : List (String × String)} (h : pairs ≠ []) (name value : String) :
    crates.appendPair (url ++ "?" ++ queryText pairs) name value =
      url ++ "?" ++ queryText (pairs ++ [(name, value)]) := by
  have hfree : '#' ∉ (queryText pairs).toList := by
    rw [queryText, String.toList_ofList]
    exact FormUrl.notMem_serialize _
  rw [hcrate.further url _ name value hurl (queryText_ne_empty h) hfree, queryText_snoc h]
  simp only [String.append_assoc]

/-! ### The listing -/

/-- A search for the phrase, or the newest messages first. -/
def selection : Option String → String × String
  | some qs =>
    if trim qs ≠ "" then
      ("$search", "\"" ++ String.ofList (qs.toList.filter (· ≠ '"')) ++ "\"")
    else ("$orderby", "receivedDateTime desc")
  | none => ("$orderby", "receivedDateTime desc")

/-- What a listing asks for. -/
def listPairs (limit : Nat) (query : Option String) : List (String × String) :=
  [("$top", toString limit), ("$select", MESSAGE_SELECT), selection query]

section Url

variable (hcrate : QueryCrate graph.crates) {url : String} (hurl : Bare url)
  (hparse : graph.crates.parseUrl (graph.baseUrl ++ "/me/messages") = .ok url)
include hcrate hurl hparse

theorem listUrl_eq (limit : Nat) (query : Option String) :
    graph.listUrl limit query = .ok (url ++ "?" ++ queryText (listPairs limit query)) := by
  have hformat : graph.url s!"{graph.baseUrl}/me/messages" = .ok url :=
    congrArg (Except.mapError _) hparse
  have hpairs : ∀ p : String × String,
      graph.crates.appendPair (graph.crates.appendPair (graph.crates.appendPair url "$top"
        (toString limit)) "$select" MESSAGE_SELECT) p.1 p.2 =
      url ++ "?" ++ queryText [("$top", toString limit), ("$select", MESSAGE_SELECT), p] := by
    intro p
    rw [hcrate.first url _ _ hurl, hcrate.appendPair hurl (by simp), hcrate.appendPair hurl (by simp)]
    rfl
  unfold MicrosoftGraph.listUrl listPairs
  rw [hformat, ← hpairs]
  cases query with
  | none => rfl
  | some qs =>
    by_cases hblank : trim qs = ""
    · simp [selection, hblank]
    · simp [selection, hblank]

/-- The requests of `list_messages` go to the URL of the listing. -/
theorem url_listMessages {limit : Nat} {query : Option String} {account : Account} :
    Follows (urlMonitor (url ++ "?" ++ queryText (listPairs limit query))) (fun _ _ => True) ()
      (graph.listMessages account limit query).run := by
  unfold MicrosoftGraph.listMessages
  apply follows_check_ok (listUrl_eq hcrate hurl hparse limit query)
  refine (follows_run_bind _ _ _).mpr (follows_mono (fun _ r _ => ?_) url_getJson)
  cases r <;> trivial

/-- **A listing asks for what it was called with, whatever the search term is.** -/
theorem list_query_exact {i limit : ℕ} {query : Option String} {account : Account}
    {f : Outcome (List Email) → α} {c c' : Cfg AppSig World α} {es : List (Event AppSig World Env α)}
    (hrun : (system aead chrono key).Run c es c')
    (hcall : c.pool[i]? = some ((graph.listMessages account limit query).run.map f)) :
    ∀ e ∈ es, e.thread = i → ∀ request, e.op = .graph request →
      Asks url (listPairs limit query) request.url := by
  have hfollows : Follows (urlMonitor (url ++ "?" ++ queryText (listPairs limit query)))
      (fun _ _ => True) () ((graph.listMessages account limit query).run.map f) :=
    (follows_bind _ _ _).mpr (url_listMessages hcrate hurl hparse)
  intro e he hi request hop
  obtain ⟨_, hallows⟩ := hrun.allowed_one hcall hfollows (fun _ _ _ => trivial) e he hi
  rw [hallows request hop]
  exact queryText_asks url _

end Url

/-! ### A run -/

/-- `append_pair` on a URL without a fragment. -/
def appendForm (url name value : String) : String :=
  if '?' ∈ url.toList then
    (if after '?' url.toList = [] then url else url ++ "&") ++ queryText [(name, value)]
  else url ++ "?" ++ queryText [(name, value)]

def queryGraph : MicrosoftGraph := { defaultGraph with
  crates := { defaultGraph.crates with appendPair := appendForm } }

theorem queryCrate_form : QueryCrate queryGraph.crates where
  first := by
    intro url name value hurl
    exact if_neg hurl.1
  further := by
    intro url query name value hurl hne _
    have htext : (url ++ "?" ++ query).toList = url.toList ++ '?' :: query.toList := by simp
    have hbare : ∀ c ∈ url.toList, decide (c ≠ '?') = true := ne_of_not_mem hurl.1
    have hafter : after '?' (url ++ "?" ++ query).toList = query.toList := by
      rw [htext, after, List.dropWhile_append_of_pos hbare]
      simp
    have hquery : query.toList ≠ [] := by simpa using hne
    show appendForm _ _ _ = _
    rw [appendForm, if_pos (by simp), hafter, if_neg hquery]

def hostileTerm : String := "a&$top=9 \"é\"#"

/-- A search while an account of another tenant is disconnected. -/
def searching : Cfg AppSig World (Outcome Unit) :=
  ⟨connected 9, [(queryGraph.listMessages sampleAccount 5 (some hostileTerm)).run.map fun _ => .ok (),
    (TokenManager.disconnect { sampleAccount with id := "acc-9", tenantId := "tenant-b" }).run]⟩

def searchTurns : List (ℕ × Env) := [0, 0, 1, 0, 1, 0, 0, 0].map fun i => (i, renewedOnly)

theorem search_run : (sampleSystem.replay searching searchTurns).isSome = true := by
  decide +kernel

/-- The separators of the search term are part of the term. -/
theorem list_query_exact_hostile : ∃ es c', sampleSystem.Run searching es c' ∧
    (∀ e ∈ es, e.thread = 0 → ∀ request, e.op = .graph request →
      Asks "https://graph.microsoft.com/v1.0/me/messages"
        [("$top", "5"), ("$select", MESSAGE_SELECT), ("$search", "\"a&$top=9 é#\"")] request.url) ∧
    sends (callsOf 0 es) ≠ [] := by
  have hrun := run_replay (m := sampleSystem) searching searchTurns search_run
  have hsends : sends (callsOf 0 ((sampleSystem.replay searching searchTurns).get search_run).1) ≠ [] := by
    decide +kernel
  have hbare : Bare "https://graph.microsoft.com/v1.0/me/messages" := by
    unfold Bare
    decide
  have hpairs : listPairs 5 (some hostileTerm) =
      [("$top", "5"), ("$select", MESSAGE_SELECT), ("$search", "\"a&$top=9 é#\"")] := by decide
  refine ⟨_, _, hrun, ?_, hsends⟩
  rw [← hpairs]
  exact list_query_exact queryCrate_form hbare (by decide) hrun rfl

end UniMail
