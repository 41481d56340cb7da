import UniMail.Lib.Percent
import UniMail.Provider.Retry

/-!
# The URL of a message

`get_message` formats the base URL and `/me/messages/`, parses the text, and pushes the message id as
one more path segment. What `push` does is the business of the `url` crate (`UrlCrate`): it adds a
slash of its own unless the path is just a slash. The path it finds ends in one already, so that an
empty segment comes before the id (`message_url_segments`), and no id gets a URL of its own form
(`message_never_addressed`).
-/

namespace UniMail

open Interaction Text

variable {aead : Aead} {chrono : Chrono} {key : Key} {graph : MicrosoftGraph} {α : Type}

/-! ### Paths -/

/-- The path segments of an `https` URL: what stands between the slashes after the host. -/
def pathSegments (url : String) : List String :=
  (split '/' (String.ofList (before '#' (before '?' url.toList)))).drop 3

/-- A path: each segment after a slash. -/
def pathOf (segments : List String) : String := String.join (segments.map ("/" ++ ·))

def httpsUrl (host path : String) : String := "https://" ++ host ++ path

/-- No character that ends a segment, a path or a query. -/
def Plain (s : String) : Prop := ∀ c ∈ s.toList, c ≠ '/' ∧ c ≠ '?' ∧ c ≠ '#'

/-! ### The crate -/

/-- A segment as `push` writes it: without tabs and newlines, and percent-encoded. -/
def encodeSegment (reserved : UInt8 → Bool) (segment : String) : String :=
  String.ofList (Percent.encode reserved
    (asBytes (String.ofList (segment.toList.filter fun c => c ∉ ['\t', '\n', '\r']))))

/-- The path after `PathSegmentsMut::push`. -/
def pushed (reserved : UInt8 → Bool) (path segment : String) : String :=
  if segment = "." ∨ segment = ".." then path
  else (if path = "/" then path else path ++ "/") ++ encodeSegment reserved segment

/-- What is assumed of the `url` crate: `/`, `?`, `#`, `%` and the bytes outside ASCII are reserved
in a segment, which others are is left open, and `push` extends the path. -/
structure UrlCrate (crates : WebCrates) (reserved : UInt8 → Bool) : Prop where
  reserves : Percent.Reserves reserved
  separators : ∀ b : UInt8, Char.ofNat b.toNat ∈ ['/', '?', '#'] → reserved b
  push : ∀ host segments segment, Plain host → (∀ s ∈ segments, Plain s) → segments ≠ [] →
    crates.pushSegment (httpsUrl host (pathOf segments)) segment =
      some (httpsUrl host (pushed reserved (pathOf segments) segment))

/-- The URL addresses the message of the mailbox under the base path, and nothing else. -/
def Addresses (base : List String) (messageId url : String) : Prop :=
  ∃ s, pathSegments url = base ++ ["me", "messages", s] ∧ Percent.decode s.toList = asBytes messageId

theorem pathOf_append (segments segments' : List String) :
    pathOf (segments ++ segments') = pathOf segments ++ pathOf segments' := by
  rw [pathOf, pathOf, pathOf, List.map_append, String.join_append]

theorem toList_pathOf (segments : List String) :
    (pathOf segments).toList = segments.flatMap fun s => '/' :: s.toList := by
  induction segments with
  | nil => rfl
  | cons s segments ih =>
    have hcons : pathOf (s :: segments) = "/" ++ s ++ pathOf segments := by
      rw [← List.singleton_append, pathOf_append]
      simp [pathOf]
    rw [hcons, String.toList_append, String.toList_append, ih, List.flatMap_cons]
    rfl

theorem Plain.notMem {s : String} (h : Plain s) :
    '/' ∉ s.toList ∧ '?' ∉ s.toList ∧ '#' ∉ s.toList :=
  ⟨fun hc => (h _ hc).1 rfl, fun hc => (h _ hc).2.1 rfl, fun hc => (h _ hc).2.2 rfl⟩

theorem splitOn_flatMap {l : List Char} (hl : '/' ∉ l) {segments : List String}
    (h : ∀ s ∈ segments, Plain s) :
    (l ++ segments.flatMap fun s => '/' :: s.toList).splitOn '/' =
      l :: segments.map String.toList := by
  induction segments generalizing l with
  | nil => rw [List.flatMap_nil, List.append_nil, List.splitOn_eq_singleton hl, List.map_nil]
  | cons s segments ih =>
    obtain ⟨hs, hrest⟩ := List.forall_mem_cons.mp h
    rw [List.flatMap_cons, List.cons_append, List.splitOn_append_cons_self_of_not_mem hl,
      ih hs.notMem.1 hrest, List.map_cons]

/-- The segments of a path are read off the URL. -/
theorem pathSegments_httpsUrl {host : String} {segments : List String} (hhost : Plain host)
    (h : ∀ s ∈ segments, Plain s) : pathSegments (httpsUrl host (pathOf segments)) = segments := by
  have hall : ∀ s ∈ "" :: host :: segments, Plain s := by
    intro s hs
    rcases List.mem_cons.mp hs with rfl | hs
    · simp [Plain]
    · rcases List.mem_cons.mp hs with rfl | hs
      · exact hhost
      · exact h s hs
  -- The scheme and the host are set off by slashes as well.
  have htext : (httpsUrl host (pathOf segments)).toList =
      "https:".toList ++ ("" :: host :: segments).flatMap fun s => '/' :: s.toList := by
    rw [httpsUrl, String.toList_append, String.toList_append, toList_pathOf]
    rfl
  have hfree : ∀ c, c = '?' ∨ c = '#' →
      c ∉ "https:".toList ++ ("" :: host :: segments).flatMap fun s => '/' :: s.toList := by
    intro c hc hmem
    rcases List.mem_append.mp hmem with hmem | hmem
    · rcases hc with rfl | rfl <;> simp at hmem
    · obtain ⟨s, hs, hcs⟩ := List.mem_flatMap.mp hmem
      rcases List.mem_cons.mp hcs with rfl | hcs
      · rcases hc with hc | hc <;> cases hc
      · rcases hc with rfl | rfl
        · exact (hall s hs).notMem.2.1 hcs
        · exact (hall s hs).notMem.2.2 hcs
  unfold pathSegments split
  rw [htext, before_eq_self (hfree '?' (Or.inl rfl)), before_eq_self (hfree '#' (Or.inr rfl)),
    String.toList_ofList, splitOn_flatMap (by decide) hall]
  simp

/-! ### The URL -/

/-- The path before the id is more than a slash. -/
theorem path_ne_slash (base : List String) : pathOf (base ++ ["me", "messages", ""]) ≠ "/" := by
  intro h
  have hsuffix : (pathOf ["me", "messages", ""]).toList.length = 13 := by decide
  have hlen := congrArg (fun s => s.toList.length) h
  rw [pathOf_append, String.toList_append, List.length_append, hsuffix] at hlen
  simp at hlen

section Url

variable {reserved : UInt8 → Bool} (hurl : UrlCrate graph.crates reserved)
include hurl

theorem UrlCrate.plain_encodeSegment (segment : String) : Plain (encodeSegment reserved segment) := by
  have hfree : ∀ c ∈ ['/', '?', '#'], c ∉ (encodeSegment reserved segment).toList := by
    intro c hc
    have hne : c ≠ '%' ∧ Radix.isDigit 16 c = false := by
      have hall : ∀ c ∈ ['/', '?', '#'], c ≠ '%' ∧ Radix.isDigit 16 c = false := by
        simp only [List.mem_cons, List.not_mem_nil, or_false, forall_eq_or_imp, forall_eq]
        decide
      exact hall c hc
    rw [encodeSegment, String.toList_ofList]
    apply Percent.notMem_encode _ hne.1 hne.2
    rintro b rfl
    exact hurl.separators b hc
  intro c hc
  refine ⟨?_, ?_, ?_⟩ <;> rintro rfl <;> exact hfree _ (by simp) hc

/-- What is appended decodes to the id, but for its tabs and newlines. -/
theorem UrlCrate.decode_encodeSegment (segment : String) :
    Percent.decode (encodeSegment reserved segment).toList =
      asBytes (String.ofList (segment.toList.filter fun c => c ∉ ['\t', '\n', '\r'])) := by
  rw [encodeSegment, String.toList_ofList, Percent.decode_encode hurl.reserves]

variable {host : String} {base : List String} (hhost : Plain host) (hbase : ∀ s ∈ base, Plain s)
  (hconfig : graph.baseUrl = httpsUrl host (pathOf base))
  (hparse : graph.crates.parseUrl (graph.baseUrl ++ "/me/messages/") =
    .ok (graph.baseUrl ++ "/me/messages/"))
include hhost hbase hconfig hparse

/-- The URL has an empty segment before the one of the id, or in its place. -/
theorem message_url_segments (messageId : String) :
    ∃ url, graph.messageUrl messageId = .ok url ∧ pathSegments url = base ++ ["me", "messages", ""] ++
      if messageId = "." ∨ messageId = ".." then [] else [encodeSegment reserved messageId] := by
  have hplain : ∀ s ∈ base ++ ["me", "messages", ""], Plain s := by
    intro s hs
    rcases List.mem_append.mp hs with hs | hs
    · exact hbase s hs
    · have hall : ∀ s ∈ ["me", "messages", ""], Plain s := by simp [Plain]
      exact hall s hs
  have htext : graph.baseUrl ++ "/me/messages/" =
      httpsUrl host (pathOf (base ++ ["me", "messages", ""])) := by
    rw [hconfig, pathOf_append, httpsUrl, httpsUrl, String.append_assoc, String.append_assoc,
      String.append_assoc]
    rfl
  have hpush := hurl.push host (base ++ ["me", "messages", ""]) messageId hhost hplain (by simp)
  have hformat : graph.url s!"{graph.baseUrl}/me/messages/" =
      .ok (httpsUrl host (pathOf (base ++ ["me", "messages", ""]))) := by
    rw [← htext]
    exact congrArg (Except.mapError _) hparse
  refine ⟨httpsUrl host (pushed reserved (pathOf (base ++ ["me", "messages", ""])) messageId), ?_, ?_⟩
  · simp only [MicrosoftGraph.messageUrl, hformat, bind, Except.bind, hpush]
    rfl
  · by_cases hdot : messageId = "." ∨ messageId = ".."
    · rw [if_pos hdot, pushed, if_pos hdot, List.append_nil, pathSegments_httpsUrl hhost hplain]
    · have hsegment : pathOf (base ++ ["me", "messages", ""]) ++ "/" ++
          encodeSegment reserved messageId =
          pathOf (base ++ ["me", "messages", ""] ++ [encodeSegment reserved messageId]) := by
        rw [pathOf_append _ [encodeSegment reserved messageId], String.append_assoc]
        simp [pathOf]
      rw [if_neg hdot, pushed, if_neg hdot, if_neg (path_ne_slash base), hsegment]
      apply pathSegments_httpsUrl hhost
      intro s hs
      rcases List.mem_append.mp hs with hs | hs
      · exact hplain s hs
      · obtain rfl := List.mem_singleton.mp hs
        exact hurl.plain_encodeSegment messageId

end Url

/-! ### The request -/

/-- Every request to Graph goes to this URL. -/
def urlMonitor (url : String) : Monitor AppSig Unit where
  allows _ o := ∀ request, o = .graph request → request.url = url
  expects _ _ _ := True
  next _ _ _ := ()

theorem url_rules (url accountId : String) :
    TokenRules (urlMonitor url) accountId (fun _ => True) (fun _ _ => True) where
  clock _ := ⟨nofun, fun _ => rfl⟩
  lock := by
    intro o ho g _
    refine ⟨?_, fun _ => rfl⟩
    rintro request rfl
    simp at ho
  base _ _ _ := trivial
  get _ _ := nofun
  got _ _ _ := trivial
  read _ _ _ := trivial
  present _ _ _ := nofun
  denied _ _ _ _ := trivial
  granted _ _ _ _ := trivial
  write _ _ _ := nofun
  wrote _ _ _ _ := trivial

theorem url_send {url bearer : String} {method : Method} {body : Option Json} :
    Follows (urlMonitor url) (fun _ _ => True) ()
      (MicrosoftGraph.send method url bearer body).run := by
  unfold MicrosoftGraph.send
  refine follows_op ?_ fun _ _ => follows_check (fun _ _ => trivial) fun _ _ => trivial
  rintro request ⟨⟩
  rfl

theorem url_sendAuthorized {url : String} {account : Account} {method : Method} {body : Option Json} :
    Follows (urlMonitor url) (fun _ _ => True) ()
      (graph.sendAuthorized account method url body).run := by
  have hrules := url_rules url account.id
  unfold MicrosoftGraph.sendAuthorized
  refine (follows_run_bind _ _ _).mpr (follows_mono (fun _ r _ => ?_)
    (hrules.follows_getAccessToken trivial))
  cases r with
  | error e => trivial
  | ok token =>
    refine (follows_run_bind _ _ _).mpr (follows_mono (fun _ r _ => ?_) url_send)
    cases r with
    | error e => trivial
    | ok response =>
      dsimp only
      split
      · refine (follows_run_bind _ _ _).mpr (follows_mono (fun _ r _ => ?_)
          (hrules.follows_refreshAccount trivial))
        cases r with
        | error e => trivial
        | ok _ =>
          refine (follows_run_bind _ _ _).mpr (follows_mono (fun _ r _ => ?_)
            (hrules.follows_getAccessToken trivial))
          cases r with
          | error e => trivial
          | ok token => exact url_send
      · trivial

theorem url_getJson {url : String} {account : Account} :
    Follows (urlMonitor url) (fun _ _ => True) () (graph.getJson account url).run := by
  unfold MicrosoftGraph.getJson
  refine (follows_run_bind _ _ _).mpr (follows_mono (fun _ r _ => ?_) url_sendAuthorized)
  cases r with
  | error e => trivial
  | ok response => exact follows_check (fun _ _ => trivial) fun _ _ => trivial

theorem url_getMessage {url messageId : String} {account : Account}
    (hurl : graph.messageUrl messageId = .ok url) :
    Follows (urlMonitor url) (fun _ _ => True) () (graph.getMessage account messageId).run := by
  unfold MicrosoftGraph.getMessage
  apply follows_check_ok hurl
  refine (follows_run_bind _ _ _).mpr (follows_mono (fun _ r _ => ?_) url_getJson)
  cases r with
  | error e => trivial
  | ok json =>
    dsimp only
    split <;> trivial

/-- The requests of `get_message` go to the URL of the message. -/
theorem getMessage_requests {i : ℕ} {url messageId : String} {account : Account}
    {f : Outcome Email → α} {c c' : Cfg AppSig World α} {es : List (Event AppSig World Env α)}
    (hurl : graph.messageUrl messageId = .ok url) (hrun : (system aead chrono key).Run c es c')
    (hcall : c.pool[i]? = some ((graph.getMessage account messageId).run.map f)) :
    ∀ s ∈ sends (callsOf i es), s.1.url = url := by
  have hfollows : Follows (urlMonitor url) (fun _ _ => True) ()
      ((graph.getMessage account messageId).run.map f) :=
    (follows_bind _ _ _).mpr (url_getMessage hurl)
  suffices ∃ _ : Unit, ∀ s ∈ sends (callsOf i es), s.1.url = url by
    obtain ⟨_, h⟩ := this
    exact h
  apply hrun.follows_one (I := fun past _ _ => ∀ s ∈ sends (callsOf i past), s.1.url = url) hcall
    hfollows (by simp [callsOf, sends])
  · intro past e g hi hsends hallows _
    refine ⟨trivial, ?_⟩
    rw [callsOf_snoc, if_pos hi, sends_append]
    intro s hs
    rcases List.mem_append.mp hs with hs | hs
    · exact hsends s hs
    · -- The last operation is a request to Graph.
      unfold sends at hs
      obtain ⟨⟨o, r⟩, hmem, hs⟩ := List.mem_filterMap.mp hs
      obtain heq := List.mem_singleton.mp hmem
      have hop : o = e.op := congrArg Sigma.fst heq
      cases o with
      | graph request =>
        cases hs
        exact hallows request hop.symm
      | _ => cases hs
  · intro past e g _ hi hsends
    rw [callsOf_snoc, if_neg hi]
    exact hsends

/-- A call of `get_message` requests the URL in some run. -/
def MessageRequested (graph : MicrosoftGraph) (messageId url : String) : Prop :=
  ∃ (aead : Aead) (chrono : Chrono) (key : Key) (i : ℕ) (account : Account)
    (c c' : Cfg AppSig World (Outcome Email)) (es : List (Event AppSig World Env (Outcome Email))),
    (system aead chrono key).Run c es c' ∧
      c.pool[i]? = some ((graph.getMessage account messageId).run.map id) ∧
      ∃ s ∈ sends (callsOf i es), s.1.url = url

theorem not_addresses {base : List String} {messageId url : String} {rest : List String}
    (hsegments : pathSegments url = base ++ ["me", "messages", ""] ++ rest)
    (hrest : rest = [] → asBytes messageId ≠ []) : ¬ Addresses base messageId url := by
  rintro ⟨s, hs, hdecode⟩
  rw [hsegments, List.append_assoc, List.append_cancel_left_eq] at hs
  obtain ⟨rfl, rfl⟩ : s = "" ∧ rest = [] := by simpa [eq_comm] using hs
  exact hrest rfl hdecode.symm

/-- **No message id gets the URL of its message.** -/
theorem message_never_addressed {reserved : UInt8 → Bool} (hurl : UrlCrate graph.crates reserved)
    {host : String} {base : List String} (hhost : Plain host) (hbase : ∀ s ∈ base, Plain s)
    (hconfig : graph.baseUrl = httpsUrl host (pathOf base))
    (hparse : graph.crates.parseUrl (graph.baseUrl ++ "/me/messages/") =
      .ok (graph.baseUrl ++ "/me/messages/")) (messageId : String) :
    (∃ url, graph.messageUrl messageId = .ok url ∧ ¬ Addresses base messageId url) ∧
      ∀ url, MessageRequested graph messageId url → ¬ Addresses base messageId url := by
  obtain ⟨url, hok, hsegments⟩ := message_url_segments hurl hhost hbase hconfig hparse messageId
  have hnot : ¬ Addresses base messageId url := by
    apply not_addresses hsegments
    intro hrest
    by_cases hdot : messageId = "." ∨ messageId = ".."
    · rcases hdot with rfl | rfl <;> decide
    · rw [if_neg hdot] at hrest
      cases hrest
  refine ⟨⟨url, hok, hnot⟩, ?_⟩
  rintro url' ⟨aead, chrono, key, i, account, c, c', es, hrun, hcall, s, hs, rfl⟩
  rw [getMessage_requests hok hrun hcall s hs]
  exact hnot

/-! ### The default base URL -/

/-- The bytes that are reserved in a path segment of an `https` URL. -/
def segmentReserved (b : UInt8) : Bool :=
  b.toNat ≤ 32 || 127 ≤ b.toNat || b ∈ [34, 35, 37, 47, 60, 62, 63, 92, 94, 96, 123, 125]

/-- `push` on a URL of a host with a path. -/
def pushHttps (url segment : String) : Option String :=
  (stripPrefix "https://" url).map fun rest =>
    httpsUrl (String.ofList (before '/' rest.toList))
      (pushed segmentReserved (String.ofList (rest.toList.dropWhile (· ≠ '/'))) segment)

/-- The default configuration, with URLs that are in normal form already. -/
def defaultGraph : MicrosoftGraph where
  baseUrl := "https://graph.microsoft.com/v1.0"
  crates := { plainGraph.crates with pushSegment := pushHttps }
  tokens := sampleOauth

theorem urlCrate_default : UrlCrate defaultGraph.crates segmentReserved where
  reserves := by
    rintro b (rfl | hb)
    · decide
    · simp only [segmentReserved, Bool.or_eq_true, decide_eq_true_eq]
      omega
  separators := by
    intro b hb
    have hall : ∀ n < 256, Char.ofNat n ∈ ['/', '?', '#'] → segmentReserved (UInt8.ofNat n) := by
      decide +kernel
    simpa using hall b.toNat b.toNat_lt hb
  push := by
    intro host segments segment hhost hsegments hne
    obtain ⟨s, segments, rfl⟩ := List.exists_cons_of_ne_nil hne
    have hpath : (pathOf (s :: segments)).toList =
        '/' :: (s.toList ++ segments.flatMap fun s => '/' :: s.toList) := toList_pathOf _
    have hstrip : stripPrefix "https://" (httpsUrl host (pathOf (s :: segments))) =
        some (host ++ pathOf (s :: segments)) := by
      rw [stripPrefix_eq_some, httpsUrl, String.append_assoc]
    have hhead : ∀ c ∈ host.toList, decide (c ≠ '/') = true := ne_of_not_mem hhost.notMem.1
    have hbefore : before '/' (host ++ pathOf (s :: segments)).toList = host.toList := by
      rw [String.toList_append, hpath, before, List.takeWhile_append_of_pos hhead]
      simp
    have hafter : (host ++ pathOf (s :: segments)).toList.dropWhile (· ≠ '/') =
        (pathOf (s :: segments)).toList := by
      rw [String.toList_append, hpath, List.dropWhile_append_of_pos hhead]
      simp
    show pushHttps _ _ = _
    rw [pushHttps, hstrip, Option.map_some, hbefore, hafter, String.ofList_toList,
      String.ofList_toList]

/-- The URL that is requested for an id. -/
theorem message_never_addressed_default :
    defaultGraph.messageUrl "AAMkAD/1=" =
        .ok "https://graph.microsoft.com/v1.0/me/messages//AAMkAD%2F1=" ∧
      (∃ url, defaultGraph.messageUrl "AAMkAD/1=" = .ok url ∧
        ¬ Addresses ["v1.0"] "AAMkAD/1=" url) := by
  have hhost : Plain "graph.microsoft.com" := by simp [Plain]
  have hbase : ∀ s ∈ ["v1.0"], Plain s := by simp [Plain]
  exact ⟨by decide, (message_never_addressed urlCrate_default hhost hbase (by decide) rfl "AAMkAD/1=").1⟩

/-- The default base URL does not address an ordinary id either (`Addresses`): there is an empty segment
before it. -/
theorem message_url_slashes :
    defaultGraph.messageUrl "AAMk" = .ok "https://graph.microsoft.com/v1.0/me/messages//AAMk" ∧
      ¬ Addresses ["v1.0"] "AAMk" "https://graph.microsoft.com/v1.0/me/messages//AAMk" := by
  have hsegments : pathSegments "https://graph.microsoft.com/v1.0/me/messages//AAMk" =
      ["v1.0"] ++ ["me", "messages", ""] ++ ["AAMk"] := by
    decide
  exact ⟨by decide, not_addresses hsegments nofun⟩

end UniMail
