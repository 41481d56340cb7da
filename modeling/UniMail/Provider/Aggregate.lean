import UniMail.Auth.Callback
import UniMail.Lib.TopK
import UniMail.Provider.Inbox

/-!
# The unified inbox is exact

`aggregate_unified_inbox` asks every account for `limit` messages only and sorts what it gets.
`unified_inbox_exact` says that this is the top of all mailboxes put together, for any provider that
keeps the contract of `list_messages` (`Contract`), however the fetches interleave.
-/

namespace UniMail

open Interaction TopK

/-- Abstraction over a mail backend. -/
structure EmailProvider where
  listMessages : Account → Nat → Option String → Async (List Email)
  getMessage : Account → String → Async Email
  sendMessage : Account → String → String → String → Async Unit

def MicrosoftGraph.provider (graph : MicrosoftGraph) : EmailProvider :=
  ⟨graph.listMessages, graph.getMessage, graph.sendMessage⟩

/-- The messages with their owning account. -/
def unify (account : Account) (messages : List Email) : List UnifiedEmail :=
  messages.map fun email => { email, account := { id := account.id, email := account.emailAddress } }

/-- What becomes of the outcome of `list_messages`: a failing account is skipped. -/
def skipFailed (account : Account) : Outcome (List Email) → Outcome (List UnifiedEmail)
  | .ok messages => .ok (unify account messages)
  | .error (.err _) => .ok []
  | .error (.panic msg) => .error (.panic msg)

namespace EmailProvider

variable (provider : EmailProvider)

/-- Fetch the messages of an account. -/
def fetchOne (limit : Nat) (account : Account) : Async (List UnifiedEmail) := do
  let messages := match ← outcome (provider.listMessages account limit none) with
    | .ok messages => messages
    | .error _ => []
  return unify account messages

/-- The fetches of all accounts. -/
def fetchAll (limit : Nat) (accounts : List Account) :
    List (Prog AppSig (Outcome (List UnifiedEmail))) :=
  accounts.map fun account => (provider.fetchOne limit account).run

/-- The calls of `list_messages` below them. -/
def listings (limit : Nat) (accounts : List Account) : List (Prog AppSig (Outcome (List Email))) :=
  accounts.map fun account => (provider.listMessages account limit none).run

theorem fetchOne_run (limit : Nat) (account : Account) :
    (provider.fetchOne limit account).run =
      (provider.listMessages account limit none).run.map (skipFailed account) := by
  unfold fetchOne outcome
  rw [run_bind, ExceptT.run_mk, bind_assoc]
  apply congrArg (Prog.bind _)
  funext r
  rcases r with (e | msg) | messages <;> rfl

end EmailProvider

/-- With Graph as the provider these are the fetches of the unified inbox. -/
theorem fetchAll_graph (graph : MicrosoftGraph) (limit : Nat) (accounts : List Account) :
    graph.provider.fetchAll limit accounts = fetches graph limit accounts := rfl

/-- `Aggregates m chrono provider accounts limit w r w'`: `aggregate_unified_inbox`, run from world
`w`, returns `r` and leaves the world `w'`. -/
inductive Aggregates (m : Machine AppSig World Env) (chrono : Chrono) (provider : EmailProvider)
    (accounts : List Account) (limit : Nat) (w : World) : Outcome (List UnifiedEmail) → World → Prop
  | intro {es : List (Event AppSig World Env (Outcome (List UnifiedEmail)))}
      {c : Cfg AppSig World (Outcome (List UnifiedEmail))}
      {results : Outcome (List (List UnifiedEmail))}
      (hrun : m.Run ⟨w, provider.fetchAll limit accounts⟩ es c) (hjoin : Joined c results) :
      Aggregates m chrono provider accounts limit w (results.map (mergeInbox chrono limit)) c.world

/-! ### The contract and the specification -/

variable {m : Machine AppSig World Env} {chrono : Chrono} {provider : EmailProvider}
  {mailbox : Account → Option (List Email)} {w : World}

/-- The answer of `list_messages` for a mailbox; a failing account has none. -/
def Answers (limit : Nat) : Option (List Email) → Outcome (List Email) → Prop
  | some messages, r => r = .ok (messages.take limit)
  | none, r => ∃ e, r = .error (.err e)

/-- **The contract of a provider.** The mailboxes are ordered newest first; however the calls of
`list_messages` interleave, each returns the first messages of its account's mailbox, or an error if
the account fails; and none is left waiting. -/
structure EmailProvider.Contract (m : Machine AppSig World Env) (chrono : Chrono) (w : World)
    (provider : EmailProvider) (mailbox : Account → Option (List Email)) : Prop where
  newest : ∀ account messages, mailbox account = some messages → messages.Pairwise fun a b =>
    compareReceivedDesc chrono a.receivedAt b.receivedAt ≠ .gt
  answers : ∀ limit accounts es (c : Cfg AppSig World (Outcome (List Email))) (i : ℕ) account r,
    m.Run ⟨w, provider.listings limit accounts⟩ es c → accounts[i]? = some account →
      c.pool[i]? = some (.ret r) → Answers limit (mailbox account) r
  returns : ∀ limit accounts es (c : Cfg AppSig World (Outcome (List Email))),
    m.Run ⟨w, provider.listings limit accounts⟩ es c → m.Stuck c →
      ∀ (i : ℕ) account, accounts[i]? = some account → ∃ r, c.pool[i]? = some (.ret r)

/-- `a` does not come after `b` in the unified inbox. -/
def newestFirst (chrono : Chrono) (a b : UnifiedEmail) : Bool :=
  compareReceivedDesc chrono a.email.receivedAt b.email.receivedAt ≠ .gt

/-- The complete mailboxes of the accounts that do not fail, with their owning accounts. -/
def mailboxesOf (mailbox : Account → Option (List Email)) (accounts : List Account) :
    List (List UnifiedEmail) :=
  accounts.filterMap fun account => (mailbox account).map (unify account)

/-- What the unified inbox is for: the newest `limit` messages of all mailboxes. -/
def newestOf (chrono : Chrono) (mailbox : Account → Option (List Email)) (accounts : List Account)
    (limit : Nat) : List UnifiedEmail :=
  ((mailboxesOf mailbox accounts).flatten.mergeSort (newestFirst chrono)).take limit

/-! ### The order of the messages -/

/-- The order of dates, with no date at the end. -/
theorem compareReceivedDesc_ne_gt {a b : Option String} :
    compareReceivedDesc chrono a b ≠ .gt ↔ ∀ t', b.bind chrono.parseFromRfc3339 = some t' →
      ∃ t, a.bind chrono.parseFromRfc3339 = some t ∧ t' ≤ t := by
  unfold compareReceivedDesc
  cases a.bind chrono.parseFromRfc3339 with
  | none => cases b.bind chrono.parseFromRfc3339 <;> simp
  | some t =>
    cases b.bind chrono.parseFromRfc3339 with
    | none => simp
    | some t' => simp [compare_le_iff_le]

theorem compareReceivedDesc_swap {a b : Option String} :
    compareReceivedDesc chrono b a = (compareReceivedDesc chrono a b).swap := by
  unfold compareReceivedDesc
  cases a.bind chrono.parseFromRfc3339 with
  | none => cases b.bind chrono.parseFromRfc3339 <;> rfl
  | some t =>
    cases b.bind chrono.parseFromRfc3339 with
    | none => rfl
    | some t' => exact Std.OrientedOrd.eq_swap

theorem preorders_newestFirst : Preorders (newestFirst chrono) where
  total a b := by
    simp only [newestFirst, Bool.or_eq_true, decide_eq_true_eq, compareReceivedDesc_ne_gt]
    generalize a.email.receivedAt.bind chrono.parseFromRfc3339 = t
    generalize b.email.receivedAt.bind chrono.parseFromRfc3339 = t'
    cases t with
    | none => exact Or.inr fun _ h => nomatch h
    | some t =>
      cases t' with
      | none => exact Or.inl fun _ h => nomatch h
      | some t' => simpa using le_total t' t
  trans a b c hab hbc := by
    simp only [newestFirst, decide_eq_true_eq, compareReceivedDesc_ne_gt] at hab hbc ⊢
    intro t'' hc
    obtain ⟨t', hb, hle⟩ := hbc t'' hc
    obtain ⟨t, ha, hle'⟩ := hab t' hb
    exact ⟨t, ha, hle.trans hle'⟩

/-! ### What the fetches return -/

/-- What is fetched of an account. -/
def fetched (mailbox : Account → Option (List Email)) (limit : Nat) (account : Account) :
    List UnifiedEmail :=
  (((mailbox account).map (unify account)).map (List.take limit)).getD []

theorem skipFailed_answers {limit : Nat} {account : Account} {r : Outcome (List Email)}
    (h : Answers limit (mailbox account) r) :
    skipFailed account r = .ok (fetched mailbox limit account) := by
  unfold fetched
  cases hmailbox : mailbox account with
  | none =>
    rw [hmailbox] at h
    obtain ⟨e, rfl⟩ := h
    rfl
  | some messages =>
    rw [hmailbox] at h
    obtain rfl : r = .ok (messages.take limit) := h
    exact congrArg Except.ok List.map_take

/-- The same for thread `i`, which fetches the account at `i`. -/
def skipFailedAt (accounts : List Account) (i : ℕ) (r : Outcome (List Email)) :
    Outcome (List UnifiedEmail) :=
  (accounts[i]?.map fun account => skipFailed account r).getD (.ok [])

theorem skipFailedAt_eq {accounts : List Account} {i : ℕ} {account : Account}
    (h : accounts[i]? = some account) : skipFailedAt accounts i = skipFailed account := by
  funext r
  rw [skipFailedAt, h]
  rfl

/-- The fetches are the calls of `list_messages` with their failures skipped. -/
theorem fetchAll_maps (provider : EmailProvider) (limit : Nat) (accounts : List Account) (w : World) :
    (⟨w, provider.listings limit accounts⟩ : Cfg AppSig World (Outcome (List Email))).Maps
      (skipFailedAt accounts) ⟨w, provider.fetchAll limit accounts⟩ := by
  refine ⟨rfl, fun i => ?_⟩
  simp only [EmailProvider.fetchAll, EmailProvider.listings, List.getElem?_map, Option.map_map]
  cases haccount : accounts[i]? with
  | none => rfl
  | some account =>
    rw [skipFailedAt_eq haccount]
    exact congrArg some (provider.fetchOne_run limit account)

section Fetches

variable (h : provider.Contract m chrono w mailbox) {limit : Nat} {accounts : List Account}
  {es : List (Event AppSig World Env (Outcome (List UnifiedEmail)))}
  {c : Cfg AppSig World (Outcome (List UnifiedEmail))}
  (hrun : m.Run ⟨w, provider.fetchAll limit accounts⟩ es c)
include h hrun

/-- A fetch that has returned has the first messages of its account. -/
theorem returned_fetch {i : ℕ} {account : Account} {r : Outcome (List UnifiedEmail)}
    (haccount : accounts[i]? = some account) (hr : c.pool[i]? = some (.ret r)) :
    r = .ok (fetched mailbox limit account) := by
  obtain ⟨es₀, c₀, hlist, hmaps⟩ := hrun.unmap (fetchAll_maps provider limit accounts w)
  obtain ⟨p, hp, hret⟩ := Option.map_eq_some_iff.mp ((hmaps.2 i).symm.trans hr)
  cases p with
  | call o k => cases hret
  | ret r₀ =>
    have hanswer := h.answers limit accounts es₀ c₀ i account r₀ hlist haccount hp
    obtain rfl := Prog.ret.inj hret
    rw [skipFailedAt_eq haccount]
    exact skipFailed_answers hanswer

/-- When no fetch can go on, all have returned. -/
theorem returned_of_stuck (hstuck : m.Stuck c) :
    c.returned = (accounts.map (fetched mailbox limit)).map fun messages => some (.ok messages) := by
  obtain ⟨es₀, c₀, hlist, hmaps⟩ := hrun.unmap (fetchAll_maps provider limit accounts w)
  apply List.ext_getElem?
  intro i
  have hlength : c.pool.length = accounts.length :=
    hrun.pool_length.trans (List.length_map ..)
  rw [Cfg.returned, List.getElem?_map, List.getElem?_map, List.getElem?_map]
  cases haccount : accounts[i]? with
  | none =>
    have hi : c.pool[i]? = none := by
      rw [List.getElem?_eq_none_iff] at haccount ⊢
      omega
    rw [hi]
    rfl
  | some account =>
    obtain ⟨r₀, hr₀⟩ := h.returns limit accounts es₀ c₀ hlist (hmaps.stuck hstuck) i account haccount
    have hc : c.pool[i]? = some (.ret (skipFailedAt accounts i r₀)) := by
      rw [hmaps.2 i, hr₀]
      rfl
    rw [hc, returned_fetch h hrun haccount hc]
    rfl

/-- `join_all` returns the first messages of all accounts. -/
theorem joined_eq {results : Outcome (List (List UnifiedEmail))} (hjoin : Joined c results) :
    results = .ok (accounts.map (fetched mailbox limit)) := by
  have hlength : c.pool.length = accounts.length :=
    hrun.pool_length.trans (List.length_map ..)
  cases hjoin with
  | all lists hall =>
    refine congrArg Except.ok (List.ext_getElem? fun i => ?_)
    have hi := congrArg (fun l => l[i]?) hall
    simp only [Cfg.returned, List.getElem?_map] at hi
    rw [List.getElem?_map]
    cases haccount : accounts[i]? with
    | none =>
      have hnone : c.pool[i]? = none := by
        rw [List.getElem?_eq_none_iff] at haccount ⊢
        omega
      rw [hnone] at hi
      exact Option.map_eq_none_iff.mp hi.symm
    | some account =>
      have hlt : i < c.pool.length := hlength ▸ (List.getElem?_eq_some_iff.mp haccount).1
      rw [List.getElem?_eq_getElem hlt] at hi
      obtain ⟨messages, hmessages, hreturned⟩ := Option.map_eq_some_iff.mp hi.symm
      have hc : c.pool[i]? = some (.ret (.ok messages)) := by
        rw [List.getElem?_eq_getElem hlt, Prog.returned_eq_some.mp hreturned.symm]
      rw [hmessages, Except.ok.inj (returned_fetch h hrun haccount hc)]
      rfl
  | panic msg hpanic =>
    obtain ⟨p, hp, hreturned⟩ := List.mem_map.mp hpanic
    obtain ⟨i, hi⟩ := List.mem_iff_getElem?.mp hp
    rw [Prog.returned_eq_some.mp hreturned] at hi
    have hlt : i < accounts.length := hlength ▸ (List.getElem?_eq_some_iff.mp hi).1
    cases returned_fetch h hrun (List.getElem?_eq_getElem hlt) hi

end Fetches

/-! ### The first messages suffice -/

theorem flatten_getD {α β : Type} (f : α → Option (List β)) (l : List α) :
    (l.map fun a => (f a).getD []).flatten = (l.filterMap f).flatten := by
  induction l with
  | nil => rfl
  | cons a l ih =>
    rw [List.map_cons, List.flatten_cons, ih, List.filterMap_cons]
    cases f a <;> rfl

/-- The merge of what is fetched is the top of all mailboxes. -/
theorem mergeInbox_fetched (h : provider.Contract m chrono w mailbox) (limit : Nat)
    (accounts : List Account) :
    mergeInbox chrono limit (accounts.map (fetched mailbox limit)) =
      newestOf chrono mailbox accounts limit := by
  have hsorted : ∀ l ∈ mailboxesOf mailbox accounts,
      l.Pairwise fun a b => newestFirst chrono a b := by
    intro l hl
    obtain ⟨account, _, hl⟩ := List.mem_filterMap.mp hl
    obtain ⟨messages, hmailbox, rfl⟩ := Option.map_eq_some_iff.mp hl
    refine List.pairwise_map.mpr ((h.newest account messages hmailbox).imp fun hab => ?_)
    exact decide_eq_true hab
  have hflatten : (accounts.map (fetched mailbox limit)).flatten =
      ((mailboxesOf mailbox accounts).map (List.take limit)).flatten := by
    rw [mailboxesOf, List.map_filterMap]
    exact flatten_getD _ accounts
  rw [newestOf, ← preorders_newestFirst.take_mergeSort_flatten limit hsorted, ← hflatten]
  rfl

/-! ### What the specification says -/

/-- The top is newer than what is left out. -/
theorem newestOf_omits (mailbox : Account → Option (List Email)) (accounts : List Account)
    (limit : Nat) : ∃ omitted,
      (newestOf chrono mailbox accounts limit ++ omitted).Perm
        (mailboxesOf mailbox accounts).flatten ∧
      ∀ x ∈ newestOf chrono mailbox accounts limit, ∀ y ∈ omitted,
        compareReceivedDesc chrono y.email.receivedAt x.email.receivedAt ≠ .lt := by
  let sorted := (mailboxesOf mailbox accounts).flatten.mergeSort (newestFirst chrono)
  refine ⟨sorted.drop limit, ?_, fun x hx y hy hlt => ?_⟩
  · rw [newestOf, List.take_append_drop]
    exact List.mergeSort_perm _ _
  · have hpairwise : sorted.Pairwise fun a b => newestFirst chrono a b :=
      List.pairwise_mergeSort preorders_newestFirst.trans preorders_newestFirst.total _
    rw [← List.take_append_drop limit sorted, List.pairwise_append] at hpairwise
    have hle := of_decide_eq_true (hpairwise.2.2 x hx y hy)
    rw [compareReceivedDesc_swap, Ordering.swap_eq_lt] at hlt
    exact hle hlt

theorem newestOf_prefix (mailbox : Account → Option (List Email)) (accounts : List Account)
    {limit limit' : Nat} (h : limit ≤ limit') :
    newestOf chrono mailbox accounts limit <+: newestOf chrono mailbox accounts limit' :=
  List.take_prefix_take_left h

theorem newestOf_failing {account : Account} (h : mailbox account = none) (before after : List Account)
    (limit : Nat) : newestOf chrono mailbox (before ++ account :: after) limit =
      newestOf chrono mailbox (before ++ after) limit := by
  have hmailboxes : mailboxesOf mailbox (before ++ account :: after) =
      mailboxesOf mailbox (before ++ after) := by
    simp only [mailboxesOf, List.filterMap_append, List.filterMap_cons, h, Option.map_none]
  rw [newestOf, hmailboxes, newestOf]

/-- **The unified inbox is exact.** It is the top of the mailboxes of the accounts that do not fail;
no message left out is newer than one returned, a smaller limit returns a prefix, and a failing account
changes nothing about the others. -/
theorem unified_inbox_exact (h : provider.Contract m chrono w mailbox) (accounts : List Account) :
    (∀ limit r w', Aggregates m chrono provider accounts limit w r w' →
      r = .ok (newestOf chrono mailbox accounts limit)) ∧
    (∀ limit es c, m.Run ⟨w, provider.fetchAll limit accounts⟩ es c → m.Stuck c →
      Aggregates m chrono provider accounts limit w (.ok (newestOf chrono mailbox accounts limit))
        c.world) ∧
    (∀ limit, ∃ omitted, (newestOf chrono mailbox accounts limit ++ omitted).Perm
        (mailboxesOf mailbox accounts).flatten ∧
      ∀ x ∈ newestOf chrono mailbox accounts limit, ∀ y ∈ omitted,
        compareReceivedDesc chrono y.email.receivedAt x.email.receivedAt ≠ .lt) ∧
    (∀ limit limit', limit ≤ limit' →
      newestOf chrono mailbox accounts limit <+: newestOf chrono mailbox accounts limit') ∧
    ∀ before account after, accounts = before ++ account :: after → mailbox account = none →
      ∀ limit, newestOf chrono mailbox accounts limit =
        newestOf chrono mailbox (before ++ after) limit := by
  refine ⟨?_, ?_, newestOf_omits mailbox accounts, fun _ _ => newestOf_prefix mailbox accounts, ?_⟩
  · rintro limit r w' ⟨hrun, hjoin⟩
    obtain rfl := joined_eq h hrun hjoin
    exact congrArg Except.ok (mergeInbox_fetched h limit accounts)
  · intro limit es c hrun hstuck
    rw [← mergeInbox_fetched h limit accounts]
    exact .intro hrun (.all _ (returned_of_stuck h hrun hstuck))
  · rintro before account after rfl hfails limit
    exact newestOf_failing hfails before after limit

/-! ### A provider with fixed mailboxes -/

/-- The provider that has the mailboxes at hand. -/
def EmailProvider.ofMailboxes (mailbox : Account → Option (List Email)) : EmailProvider where
  listMessages account limit _ := check (match mailbox account with
    | some messages => .ok (messages.take limit)
    | none => .error (.provider "mailbox unavailable"))
  getMessage _ _ := check (.error (.provider "message unavailable"))
  sendMessage _ _ _ _ := check (.error (.provider "send failed"))

theorem listings_ofMailboxes {limit : ℕ} {accounts : List Account} {i : ℕ}
    {p : Prog AppSig (Outcome (List Email))}
    (h : ((EmailProvider.ofMailboxes mailbox).listings limit accounts)[i]? = some p) :
    ∃ account r, accounts[i]? = some account ∧ p = .ret r ∧ Answers limit (mailbox account) r := by
  rw [EmailProvider.listings, List.getElem?_map] at h
  obtain ⟨account, haccount, rfl⟩ := Option.map_eq_some_iff.mp h
  unfold EmailProvider.ofMailboxes
  cases hmailbox : mailbox account with
  | none => exact ⟨account, _, haccount, rfl, hmailbox ▸ ⟨_, rfl⟩⟩
  | some messages => exact ⟨account, _, haccount, rfl, hmailbox ▸ rfl⟩

/-- Its calls never step. -/
theorem run_ofMailboxes {limit : ℕ} {accounts : List Account}
    {es : List (Event AppSig World Env (Outcome (List Email)))}
    {c : Cfg AppSig World (Outcome (List Email))}
    (h : m.Run ⟨w, (EmailProvider.ofMailboxes mailbox).listings limit accounts⟩ es c) :
    c.pool = (EmailProvider.ofMailboxes mailbox).listings limit accounts := by
  cases es with
  | nil => exact congrArg Cfg.pool h
  | cons e es =>
    obtain ⟨hbefore, ⟨k, hpool, _⟩, _⟩ := h
    rw [hbefore] at hpool
    obtain ⟨_, _, _, hret, _⟩ := listings_ofMailboxes hpool
    cases hret

theorem contract_ofMailboxes (hnewest : ∀ account messages, mailbox account = some messages →
      messages.Pairwise fun a b => compareReceivedDesc chrono a.receivedAt b.receivedAt ≠ .gt) :
    (EmailProvider.ofMailboxes mailbox).Contract m chrono w mailbox where
  newest := hnewest
  answers limit accounts es c i account r hrun haccount hr := by
    rw [run_ofMailboxes hrun] at hr
    obtain ⟨account', r', haccount', hret, hanswer⟩ := listings_ofMailboxes hr
    obtain rfl := Option.some.inj (haccount.symm.trans haccount')
    exact Prog.ret.inj hret ▸ hanswer
  returns limit accounts es c hrun _ i account haccount := by
    have hpool : c.pool[i]? =
        some ((EmailProvider.ofMailboxes mailbox).listMessages account limit none).run := by
      rw [run_ofMailboxes hrun, EmailProvider.listings, List.getElem?_map, haccount]
      rfl
    rw [run_ofMailboxes hrun] at hpool
    obtain ⟨_, r, _, hret, _⟩ := listings_ofMailboxes hpool
    exact ⟨r, by rw [run_ofMailboxes hrun, hpool, hret]⟩

/-- A message received at the time. -/
def messageAt (id : String) (receivedAt : Option String) : Email :=
  ⟨id, none, none, [], none, none, receivedAt, false⟩

/-- The third account fails. -/
def sampleMailbox (account : Account) : Option (List Email) :=
  if account.id = "acc-1" then
    some [messageAt "m1" (some "1970-01-01T02:00:00+00:00"),
      messageAt "m2" (some "1970-01-01T01:00:00+00:00")]
  else if account.id = "acc-2" then
    some [messageAt "m3" (some "1970-01-01T02:00:00+00:00"), messageAt "m4" (some "yesterday")]
  else none

def sampleMailboxes : EmailProvider := .ofMailboxes sampleMailbox

/-- The tie goes to the first account, and the message without a usable date is left out. -/
theorem unified_inbox_exact_tie : ∃ inbox w',
    Aggregates sampleSystem (.ofTable firstDay) sampleMailboxes
      [{ sampleAccount with id := "acc-3" }, sampleAccount, { sampleAccount with id := "acc-2" }] 3
      (connected 9) (.ok inbox) w' ∧
    inbox.map (fun x => (x.email.id, x.account.id)) =
      [("m1", "acc-1"), ("m3", "acc-2"), ("m2", "acc-1")] := by
  have hnewest : ∀ account messages, sampleMailbox account = some messages →
      messages.Pairwise fun a b =>
        compareReceivedDesc (.ofTable firstDay) a.receivedAt b.receivedAt ≠ .gt := by
    intro account messages h
    unfold sampleMailbox at h
    split at h
    · cases h
      decide
    · split at h
      · cases h
        decide
      · cases h
  have hcontract := contract_ofMailboxes (m := sampleSystem) (w := connected 9) hnewest
  have hexact := unified_inbox_exact hcontract
    [{ sampleAccount with id := "acc-3" }, sampleAccount, { sampleAccount with id := "acc-2" }]
  refine ⟨_, _, hexact.2.1 3 [] _ rfl (stuck_of_returned ?_), ?_⟩
  · decide
  · rw [newestOf, preorders_newestFirst.mergeSort_eq_foldr]
    decide

end UniMail
