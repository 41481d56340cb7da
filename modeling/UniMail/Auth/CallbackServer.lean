import UniMail.Auth.Callback
import UniMail.Auth.Page

/-!
# The one-shot callback server

`serve_callback_once` serves requests until a handler has signalled, lets those it has accepted run to
their ends, and returns what is in the result slot. Every handler writes the slot, so a stray request
that ends after the callback replaces its outcome.

The server and its handlers are calls of one pool over `ServerWorld`: the process, the slot, the
sender of the shutdown signal and the accepted requests. `callback_once_reports` is proved with a
stage for each call (`serverMonitor`) and the invariant `Reports`: while no handler writes over a
success, the slot holds every success there has been.
-/

namespace UniMail

open Interaction

variable {aead : Aead} {chrono : Chrono} {key : Key} {oauth : OAuthClient}

/-! ### The server -/

/-- What the server and its handlers do: an operation of the token manager, or one on the state they
share. `respond` ends a request, and `serve` ends when the server has shut down. -/
inductive ServerOp
  | app (o : Op)
  | bind (addr : String)
  | accept
  | store (result : Result Account)
  | signal
  | respond
  | serve
  | takeResult

abbrev ServerOp.Reply : ServerOp → Type
  | .app o => Op.Reply o
  | .bind _ => Except String Unit
  | .takeResult => Option (Result Account)
  | .accept | .store _ | .signal | .respond | .serve => Unit

abbrev ServerSig : Signature := ⟨ServerOp, ServerOp.Reply⟩

structure ServerEnv where
  app : Env
  bind : String → Except String Unit

/-- The process with the state of its callback server. `sender` says that the shutdown signal can
still be sent, and `running` has the threads of the requests that are accepted and not ended. -/
structure ServerWorld where
  app : World
  bound : Bool
  slot : Option (Result Account)
  sender : Bool
  shutdown : Bool
  running : List ℕ

/-- After the shutdown signal no request is accepted, and the server ends with the last one. -/
def server (aead : Aead) (chrono : Chrono) (key : Key) : Machine ServerSig ServerWorld ServerEnv where
  exec i o env w := match o with
    | .app o => ((system aead chrono key).exec i o env.app w.app).map fun r =>
      (r.1, { w with app := r.2 })
    | .bind addr => some (env.bind addr, { w with bound := (env.bind addr).isOk })
    | .accept =>
      if w.bound ∧ ¬ w.shutdown then some ((), { w with running := i :: w.running }) else none
    | .store result => some ((), { w with slot := some result })
    | .signal => some ((), { w with sender := false, shutdown := w.shutdown || w.sender })
    | .respond => some ((), { w with running := w.running.filter (· ≠ i) })
    | .serve => if w.shutdown ∧ w.running = [] then some ((), w) else none
    | .takeResult => some (w.slot, { w with slot := none })

/-- A call of the server or of a handler. -/
abbrev Serving (α : Type) := ExceptT Failure (Prog ServerSig) α

def serverOp (o : ServerOp) : Serving (ServerOp.Reply o) :=
  ExceptT.lift (Prog.perform (S := ServerSig) o)

/-- A call of the token manager by a handler. -/
def viaApp {α : Type} (call : Async α) : Serving α :=
  ExceptT.mk (call.run.via (T := ServerSig) .app fun _ r => r)

/-- The page that tells how the callback went. -/
def callbackResponse : Result Account → Page
  | .ok account => successResponse account
  | .error e => errorResponse e.display

def handleCallback (oauth : OAuthClient) (params : CallbackParams) : Serving Page := do
  let result ← viaApp (outcome (completeCallback oauth params))
  let response := callbackResponse result
  -- Store the outcome before signalling shutdown.
  serverOp (.store result)
  serverOp .signal
  return response

/-- A request, however its handler ends. -/
def serveRequest (oauth : OAuthClient) (params : CallbackParams) : Serving Page := ExceptT.mk do
  let _ ← Prog.perform (S := ServerSig) .accept
  let response ← (handleCallback oauth params).run
  let _ ← Prog.perform (S := ServerSig) .respond
  return response

/-- Serve exactly one callback, then return the connected account. -/
def serveCallbackOnce (addr : String) : Serving Account := do
  match ← serverOp (.bind addr) with
  | .error e => throw (.err (.io s!"bind {addr}: {e}"))
  | .ok _ =>
    serverOp .serve
    match ← serverOp .takeResult with
    | some (.ok account) => return account
    | some (.error e) => throw (.err e)
    | none => throw (.err (.auth "callback completed without a result"))

/-- What a call of the pool returns. -/
inductive ServerReturn
  | account (r : Outcome Account)
  | response (r : Outcome Page)
  deriving DecidableEq

/-- The server with the requests that reach it. -/
def serving (oauth : OAuthClient) (addr : String) (requests : List CallbackParams) (w : World) :
    Cfg ServerSig ServerWorld ServerReturn where
  world := ⟨w, false, none, true, false, []⟩
  pool := (serveCallbackOnce addr).run.map .account ::
    requests.map fun params => (serveRequest oauth params).run.map .response

/-! ### What the calls do -/

/-- How far the server is, or a handler. -/
inductive ServerStage
  | unbound
  | listening
  | drained
  | took (slot : Option (Result Account))
  | failed
  | waiting
  | handling
  | stored
  | signalled
  | ended

def ServerStage.next : ServerStage → (o : ServerOp) → ServerOp.Reply o → ServerStage
  | _, .bind _, .ok _ => .listening
  | _, .bind _, .error _ => .failed
  | _, .serve, _ => .drained
  | _, .takeResult, slot => .took slot
  | _, .accept, _ => .handling
  | _, .store _, _ => .stored
  | _, .signal, _ => .signalled
  | _, .respond, _ => .ended
  | g, .app _, _ => g

/-- A handler stores and signals, unless it panics; the server takes the slot after it is drained. -/
def serverMonitor : Monitor ServerSig ServerStage where
  allows g o := match o with
    | .app o => g = .handling ∧ o.lock? = none
    | .bind _ => g = .unbound
    | .serve => g = .listening
    | .takeResult => g = .drained
    | .accept => g = .waiting
    | .store _ => g = .handling
    | .signal => g = .stored
    | .respond => g = .handling ∨ g = .signalled
  expects _ _ _ := True
  next := ServerStage.next

/-- What the server makes of the slot. -/
def reported : Option (Result Account) → Outcome Account
  | some (.ok account) => .ok account
  | some (.error e) => .error (.err e)
  | none => .error (.err (.auth "callback completed without a result"))

/-- The server returns what it took from the slot, unless it could not bind; a handler has ended. -/
def Returns (g : ServerStage) : ServerReturn → Prop
  | .account result => g = .failed ∨ ∃ slot, g = .took slot ∧ result = reported slot
  | .response _ => g = .ended

theorem follows_serverOp {β : Type} {Q : ServerStage → Except Failure β → Prop} {g : ServerStage}
    {o : ServerOp} {f : ServerOp.Reply o → Serving β} (hallows : serverMonitor.allows g o)
    (hf : ∀ r, Follows serverMonitor Q (g.next o r) (f r).run) :
    Follows serverMonitor Q g (serverOp o >>= f).run :=
  ⟨hallows, fun r _ => hf r⟩

theorem follows_serveCallbackOnce (addr : String) :
    Follows serverMonitor Returns .unbound ((serveCallbackOnce addr).run.map .account) := by
  apply (follows_bind _ _ _).mpr
  unfold serveCallbackOnce
  refine follows_serverOp rfl fun r => ?_
  cases r with
  | error e => exact Or.inl rfl
  | ok _ =>
    refine follows_serverOp rfl fun _ => follows_serverOp rfl fun slot => ?_
    rcases slot with _ | e | account <;> exact Or.inr ⟨_, rfl, rfl⟩

/-- `complete_flow` takes no mutex, so it never waits. -/
def neverWaits : Monitor AppSig Unit where
  allows _ o := o.lock? = none
  expects _ _ _ := True
  next _ _ _ := ()

theorem neverWaits_flowRules : FlowRules neverWaits fun _ _ => True where
  clock := ⟨fun _ => ⟨rfl, fun _ => rfl⟩, fun _ => ⟨rfl, fun _ => rfl⟩⟩
  resolve _ _ := ⟨rfl, fun _ => rfl⟩
  stop _ _ _ _ := trivial
  untaken _ _ _ := trivial
  take _ _ _ := ⟨rfl, fun _ _ => trivial⟩
  exchange _ _ _ _ := ⟨rfl, fun _ _ => ⟨trivial, fun _ _ _ _ => trivial⟩⟩
  lookup _ _ _ _ _ := ⟨rfl, fun r _ => by cases r <;> simp⟩
  draw _ _ _ _ := ⟨rfl, fun _ _ _ _ _ _ => trivial⟩
  ensure _ _ _ _ _ := ⟨rfl, fun _ _ => trivial⟩
  create _ _ _ _ _ := ⟨rfl, fun _ _ => trivial⟩
  store _ _ _ _ _ := ⟨rfl, fun _ _ => trivial⟩

theorem neverWaits_completeCallback (params : CallbackParams) :
    Follows neverWaits (fun _ _ => True) () (completeCallback oauth params).run := by
  unfold completeCallback
  split
  · trivial
  · split
    · exact follows_mono (fun _ _ _ => trivial)
        (neverWaits_flowRules.follows_completeFlow trivial)
    · trivial

theorem neverWaits_outcome {α : Type} {body : Async α}
    (h : Follows neverWaits (fun _ _ => True) () body.run) :
    Follows neverWaits (fun _ _ => True) () (outcome body).run := by
  refine (follows_bind _ _ _).mpr (follows_mono (fun _ r _ => ?_) h)
  rcases r with (e | msg) | a <;> trivial

theorem follows_handleCallback (params : CallbackParams) :
    Follows serverMonitor (fun g _ => g = .handling ∨ g = .signalled) .handling
      (handleCallback oauth params).run := by
  have hwaits : Follows neverWaits (fun _ _ => True) ()
      (outcome (completeCallback oauth params)).run :=
    neverWaits_outcome (neverWaits_completeCallback params)
  unfold handleCallback
  refine (follows_run_bind _ _ _).mpr (follows_via hwaits (fun _ _ _ => trivial)
    (fun _ o ho => ⟨⟨rfl, ho⟩, fun _ => rfl⟩) ?_)
  intro r
  cases r with
  | error e => exact Or.inl rfl
  | ok result =>
    refine follows_serverOp rfl fun _ => follows_serverOp rfl fun _ => ?_
    exact Or.inr rfl

theorem follows_serveRequest (params : CallbackParams) :
    Follows serverMonitor Returns .waiting ((serveRequest oauth params).run.map .response) := by
  refine (follows_bind _ _ _).mpr ⟨rfl, fun _ _ => ?_⟩
  apply (follows_bind (handleCallback oauth params).run _ _).mpr
  apply follows_mono _ (follows_handleCallback params)
  intro g r hg
  exact ⟨hg, fun _ _ => rfl⟩

/-! ### The slot -/

/-- What a step stores in the slot. -/
def ServerOp.stored? : ServerOp → Option (Result Account)
  | .store result => some result
  | _ => none

/-- What the handlers have stored. -/
def storedBy {α : Type} (es : List (Event ServerSig ServerWorld ServerEnv α)) :
    List (Result Account) :=
  es.filterMap fun e => e.op.stored?

/-- A handled request has completed the flow: its outcome is stored, or it is about to be. -/
def Completed {α : Type} (es : List (Event ServerSig ServerWorld ServerEnv α))
    (c : Cfg ServerSig ServerWorld α) (account : Account) : Prop :=
  .ok account ∈ storedBy es ∨ ∃ p ∈ c.pool, p.next? = some (.store (.ok account))

/-- Storing the outcome would lose the success that is in the slot. -/
def loses (slot : Option (Result Account)) (stored : Option (Result Account)) : Bool :=
  match slot, stored with
  | some (.ok account), some result => result ≠ .ok account
  | _, _ => false

/-- No handler writes over a success. -/
def NoSuccessLost {α : Type} (es : List (Event ServerSig ServerWorld ServerEnv α)) : Prop :=
  ∀ e ∈ es, loses e.before.world.slot e.op.stored? = false

/-- What is stored next to a success is the same. -/
theorem eq_of_not_loses {account : Account} {result : Result Account}
    (h : loses (some (.ok account)) (some result) = false) : result = .ok account := by
  simpa [loses] using h

/-- The stages of the server, and not of a handler. -/
def ServerStage.isServer : ServerStage → Bool
  | .unbound | .listening | .drained | .took _ | .failed => true
  | .waiting | .handling | .stored | .signalled | .ended => false

/-- The request is accepted and has not ended. -/
def ServerStage.inFlight : ServerStage → Bool
  | .handling | .stored | .signalled => true
  | _ => false

/-- No request can have been accepted. -/
def ServerStage.isClosed : ServerStage → Bool
  | .unbound | .failed => true
  | _ => false

/-- No request is in flight any more. -/
def ServerStage.isDrained : ServerStage → Bool
  | .drained | .took _ => true
  | _ => false

/-- The slot, or what the server took from it. -/
def ServerStage.holding : ServerStage → Option (Result Account) → Option (Result Account)
  | .took slot, _ => slot
  | _, slot => slot

/-- The slot holds every success there has been, and nobody can write it once the server has taken
what it holds; once an outcome is stored, the shutdown is signalled or about to be. -/
structure Reports (stored : List (Result Account)) (w : ServerWorld) (γ : ℕ → ServerStage) :
    Prop where
  roles : ∀ i, (γ i).isServer = true ↔ i = 0
  running : ∀ i, i ∈ w.running ↔ (γ i).inFlight = true
  closed : (γ 0).isClosed = true → w.bound = false ∧ w.running = [] ∧ stored = []
  drained : (γ 0).isDrained = true → w.shutdown = true ∧ w.running = []
  kept : ∀ account, .ok account ∈ stored → (γ 0).holding w.slot = some (.ok account)
  sender : w.sender = true ∨ w.shutdown = true
  signals : stored ≠ [] → w.shutdown = true ∨ ∃ i, γ i = .stored

namespace Reports

variable {stored : List (Result Account)} {w : ServerWorld} {γ : ℕ → ServerStage} {i : ℕ}

theorem listening_of (h : Reports stored w γ) (hclosed : ¬ (γ 0).isClosed = true)
    (hdrained : ¬ (γ 0).isDrained = true) : γ 0 = .listening := by
  have hserver := (h.roles 0).mpr rfl
  cases hg : γ 0 with
  | listening => rfl
  | unbound | failed => simp [hg, ServerStage.isClosed] at hclosed
  | drained | took slot => simp [hg, ServerStage.isDrained] at hdrained
  | waiting | handling | stored | signalled | ended => simp [hg, ServerStage.isServer] at hserver

/-- While a request is in flight, the server listens. -/
theorem listening (h : Reports stored w γ) (hi : (γ i).inFlight = true) : γ 0 = .listening := by
  have hmem := (h.running i).mpr hi
  apply h.listening_of
  · intro hclosed
    simp [(h.closed hclosed).2.1] at hmem
  · intro hdrained
    simp [(h.drained hdrained).2] at hmem

/-- A step of a handler: the server listens before and after it. -/
theorem of_handler (h : Reports stored w γ) {g : ServerStage} {stored' : List (Result Account)}
    {w' : ServerWorld} (hlistening : γ 0 = .listening) (hi : (γ i).isServer = false)
    (hg : g.isServer = false) (hrunning : ∀ j, j ≠ i → (j ∈ w'.running ↔ j ∈ w.running))
    (hself : i ∈ w'.running ↔ g.inFlight = true)
    (hkept : ∀ account, .ok account ∈ stored' → w'.slot = some (.ok account))
    (hsender : w'.sender = true ∨ w'.shutdown = true)
    (hsignals : stored' ≠ [] → w'.shutdown = true ∨ g = .stored ∨ ∃ j, j ≠ i ∧ γ j = .stored) :
    Reports stored' w' (Function.update γ i g) := by
  have hi0 : i ≠ 0 := fun hi0 => by simp [(h.roles i).mpr hi0] at hi
  have h0 : Function.update γ i g 0 = .listening := by
    rw [Function.update_of_ne (Ne.symm hi0), hlistening]
  refine ⟨fun j => ?_, fun j => ?_, by rw [h0]; nofun, by rw [h0]; nofun, by rwa [h0], hsender,
    fun hne => ?_⟩
  · by_cases hji : j = i
    · rw [hji, Function.update_self, hg]
      simp [hi0]
    · rw [Function.update_of_ne hji]
      exact h.roles j
  · by_cases hji : j = i
    · rw [hji, Function.update_self]
      exact hself
    · rw [Function.update_of_ne hji, hrunning j hji]
      exact h.running j
  · rcases hsignals hne with hdown | rfl | ⟨j, hji, hj⟩
    · exact Or.inl hdown
    · exact Or.inr ⟨i, Function.update_self ..⟩
    · exact Or.inr ⟨j, (Function.update_of_ne hji ..).trans hj⟩

/-- A step of the server: no request begins or ends. -/
theorem of_server (h : Reports stored w γ) {g : ServerStage} {w' : ServerWorld}
    (hi : (γ i).isServer = true) (hg : g.isServer = true) (hrunning : w'.running = w.running)
    (hsender : w'.sender = w.sender) (hshutdown : w'.shutdown = w.shutdown)
    (hclosed : g.isClosed = true → w'.bound = false ∧ w.running = [] ∧ stored = [])
    (hdrained : g.isDrained = true → w.shutdown = true ∧ w.running = [])
    (hkept : g.holding w'.slot = (γ 0).holding w.slot) :
    Reports stored w' (Function.update γ i g) := by
  obtain rfl := (h.roles i).mp hi
  have hquiet : ∀ g : ServerStage, g.isServer = true → g.inFlight = false ∧ g ≠ .stored := by
    intro g hg
    cases g <;> simp_all [ServerStage.isServer, ServerStage.inFlight]
  refine ⟨fun j => ?_, fun j => ?_, ?_, ?_, ?_, ?_, fun hne => ?_⟩
  · by_cases hj : j = 0
    · rw [hj, Function.update_self, hg]
      simp
    · rw [Function.update_of_ne hj]
      exact h.roles j
  · rw [hrunning, h.running j]
    by_cases hj : j = 0
    · rw [hj, Function.update_self, (hquiet _ hg).1, (hquiet _ hi).1]
    · rw [Function.update_of_ne hj]
  · rw [Function.update_self, hrunning]
    exact hclosed
  · rw [Function.update_self, hrunning, hshutdown]
    exact hdrained
  · rw [Function.update_self, hkept]
    exact h.kept
  · rw [hsender, hshutdown]
    exact h.sender
  · rw [hshutdown]
    apply (h.signals hne).imp_right
    rintro ⟨j, hj⟩
    have hj0 : j ≠ 0 := fun hj0 => (hquiet _ hi).2 (hj0 ▸ hj)
    exact ⟨j, (Function.update_of_ne hj0 ..).trans hj⟩

theorem quiet {o : ServerOp} (ho : o.stored? = none) (h : Reports stored w γ) :
    Reports (stored ++ o.stored?.toList) w γ := by
  rw [ho]
  exact (List.append_nil stored).symm ▸ h

/-- Whoever is about to signal still is, unless it is the thread that steps. -/
theorem signals_other (h : Reports stored w γ) (hi : γ i ≠ .stored) (hne : stored ≠ []) :
    w.shutdown = true ∨ ∃ j, j ≠ i ∧ γ j = .stored := by
  apply (h.signals hne).imp_right
  rintro ⟨j, hj⟩
  exact ⟨j, fun hji => hi (hji ▸ hj), hj⟩

/-- With no request in flight and an outcome stored, the server can end. -/
theorem ended (h : Reports stored w γ) (hquiet : ∀ i, (γ i).inFlight = false)
    (hstored : stored ≠ []) : w.shutdown = true ∧ w.running = [] := by
  constructor
  · apply (h.signals hstored).resolve_right
    rintro ⟨i, hi⟩
    simpa [hi, ServerStage.inFlight] using hquiet i
  · apply List.eq_nil_iff_forall_not_mem.mpr
    intro i hi
    simpa [hquiet i] using (h.running i).mp hi

section Steps

variable {env : ServerEnv} {w' : ServerWorld}

theorem bind {addr : String} {r : Except String Unit} (h : Reports stored w γ) (hi : γ i = .unbound)
    (hexec : (server aead chrono key).exec i (.bind addr) env w = some (r, w')) :
    Reports stored w' (Function.update γ i ((γ i).next (.bind addr) r)) := by
  obtain ⟨rfl, rfl⟩ := Prod.mk.inj (Option.some.inj hexec)
  obtain rfl : i = 0 := (h.roles i).mp (by rw [hi]; rfl)
  obtain ⟨_, hrunning, hstored⟩ := h.closed (by rw [hi]; rfl)
  have hkept : (γ 0).holding w.slot = w.slot := by
    rw [hi]
    rfl
  cases hbind : env.bind addr with
  | ok u => exact h.of_server (by rw [hi]; rfl) rfl rfl rfl rfl nofun nofun hkept.symm
  | error e =>
    exact h.of_server (by rw [hi]; rfl) rfl rfl rfl rfl (fun _ => ⟨rfl, hrunning, hstored⟩) nofun
      hkept.symm

theorem accept (h : Reports stored w γ) (hi : γ i = .waiting)
    (hexec : (server aead chrono key).exec i .accept env w = some ((), w')) :
    Reports stored w' (Function.update γ i .handling) := by
  obtain ⟨hopen, heq⟩ := Option.ite_none_right_eq_some.mp hexec
  cases heq
  have hlistening : γ 0 = .listening := by
    apply h.listening_of
    · intro hclosed
      simp [(h.closed hclosed).1] at hopen
    · intro hdrained
      exact hopen.2 (h.drained hdrained).1
  have hkept := h.kept
  rw [hlistening] at hkept
  refine h.of_handler hlistening (by rw [hi]; rfl) rfl ?_ ?_ hkept h.sender ?_
  · intro j hj
    simp [hj]
  · simp [ServerStage.inFlight]
  · intro hne
    exact (h.signals_other (by rw [hi]; nofun) hne).imp_right Or.inr

/-- An earlier success is still in the slot: what is stored over it is the same. -/
theorem store {result : Result Account} (h : Reports stored w γ) (hi : γ i = .handling)
    (hlost : loses w.slot (some result) = false) :
    Reports (stored ++ [result]) { w with slot := some result } (Function.update γ i .stored) := by
  have hlistening := h.listening (i := i) (by rw [hi]; rfl)
  refine h.of_handler hlistening (by rw [hi]; rfl) rfl (fun _ _ => Iff.rfl) ?_ ?_ h.sender
    fun _ => Or.inr (Or.inl rfl)
  · rw [h.running i, hi]
    rfl
  · intro account hmem
    rcases List.mem_append.mp hmem with hmem | hmem
    · have hkept := h.kept account hmem
      rw [hlistening] at hkept
      rw [show w.slot = some (.ok account) from hkept] at hlost
      exact congrArg some (eq_of_not_loses hlost)
    · exact congrArg some (List.mem_singleton.mp hmem).symm

theorem signal (h : Reports stored w γ) (hi : γ i = .stored) :
    Reports stored { w with sender := false, shutdown := w.shutdown || w.sender }
      (Function.update γ i .signalled) := by
  have hlistening := h.listening (i := i) (by rw [hi]; rfl)
  have hkept := h.kept
  rw [hlistening] at hkept
  have hdown : (w.shutdown || w.sender) = true := by
    rcases h.sender with hs | hs <;> simp [hs]
  refine h.of_handler hlistening (by rw [hi]; rfl) rfl (fun _ _ => Iff.rfl) ?_ hkept
    (Or.inr hdown) fun _ => Or.inl hdown
  rw [h.running i, hi]
  rfl

theorem respond (h : Reports stored w γ) (hi : γ i = .handling ∨ γ i = .signalled) :
    Reports stored { w with running := w.running.filter (· ≠ i) } (Function.update γ i .ended) := by
  have hflight : (γ i).inFlight = true := by
    rcases hi with hi | hi <;> rw [hi] <;> rfl
  have hserver : (γ i).isServer = false := by
    rcases hi with hi | hi <;> rw [hi] <;> rfl
  have hstage : γ i ≠ .stored := by
    rcases hi with hi | hi <;> rw [hi] <;> nofun
  have hlistening := h.listening hflight
  have hkept := h.kept
  rw [hlistening] at hkept
  refine h.of_handler hlistening hserver rfl ?_ ?_ hkept h.sender ?_
  · intro j hj
    simp [hj]
  · simp [ServerStage.inFlight]
  · intro hne
    exact (h.signals_other hstage hne).imp_right Or.inr

theorem serve (h : Reports stored w γ) (hi : γ i = .listening)
    (hexec : (server aead chrono key).exec i .serve env w = some ((), w')) :
    Reports stored w' (Function.update γ i .drained) := by
  obtain rfl : i = 0 := (h.roles i).mp (by rw [hi]; rfl)
  obtain ⟨hdown, heq⟩ := Option.ite_none_right_eq_some.mp hexec
  cases heq
  refine h.of_server (by rw [hi]; rfl) rfl rfl rfl rfl nofun (fun _ => hdown) ?_
  rw [hi]
  rfl

theorem takeResult (h : Reports stored w γ) (hi : γ i = .drained) :
    Reports stored { w with slot := none } (Function.update γ i (.took w.slot)) := by
  obtain rfl : i = 0 := (h.roles i).mp (by rw [hi]; rfl)
  have hdown := h.drained (by rw [hi]; rfl)
  refine h.of_server (by rw [hi]; rfl) rfl rfl rfl rfl nofun (fun _ => hdown) ?_
  rw [hi]
  rfl

/-- **Every allowed step keeps it**, if it loses no success. -/
theorem step {o : ServerOp} {r : ServerOp.Reply o} (h : Reports stored w γ)
    (hallows : serverMonitor.allows (γ i) o)
    (hexec : (server aead chrono key).exec i o env w = some (r, w'))
    (hlost : loses w.slot o.stored? = false) :
    Reports (stored ++ o.stored?.toList) w' (Function.update γ i ((γ i).next o r)) := by
  cases o with
  | app o =>
    obtain ⟨⟨r', app'⟩, _, heq⟩ := Option.map_eq_some_iff.mp hexec
    cases heq
    apply quiet rfl
    show Reports stored _ (Function.update γ i (γ i))
    rw [Function.update_eq_self]
    exact ⟨h.roles, h.running, h.closed, h.drained, h.kept, h.sender, h.signals⟩
  | bind addr => exact quiet rfl (h.bind hallows hexec)
  | accept => exact quiet rfl (h.accept hallows hexec)
  | store result =>
    cases hexec
    exact h.store hallows hlost
  | signal =>
    cases hexec
    exact quiet rfl (h.signal hallows)
  | respond =>
    cases hexec
    exact quiet rfl (h.respond hallows)
  | serve => exact quiet rfl (h.serve hallows hexec)
  | takeResult =>
    cases hexec
    exact quiet rfl (h.takeResult hallows)

end Steps

end Reports

/-! ### Runs -/

/-- How far the calls of the pool are at the start. -/
def starts (i : ℕ) : ServerStage := if i = 0 then .unbound else .waiting

theorem reports_start (w : World) : Reports [] ⟨w, false, none, true, false, []⟩ starts where
  roles i := by
    unfold starts
    split <;> simp_all [ServerStage.isServer]
  running i := by
    unfold starts
    split <;> simp [ServerStage.inFlight]
  closed _ := ⟨rfl, rfl, rfl⟩
  drained := nofun
  kept := nofun
  sender := Or.inl rfl
  signals h := absurd rfl h

theorem serving_follows (addr : String) (requests : List CallbackParams) (w : World) :
    PoolFollows serverMonitor Returns starts (serving oauth addr requests w).pool := by
  intro i p hp
  cases i with
  | zero =>
    obtain rfl := Option.some.inj hp
    exact follows_serveCallbackOnce addr
  | succ i =>
    obtain ⟨params, _, rfl⟩ := List.mem_map.mp (List.mem_of_getElem? hp)
    exact follows_serveRequest params

theorem storedBy_snoc {α : Type} (es : List (Event ServerSig ServerWorld ServerEnv α))
    (e : Event ServerSig ServerWorld ServerEnv α) :
    storedBy (es ++ [e]) = storedBy es ++ e.op.stored?.toList :=
  filterMap_snoc ..

/-- An operation the monitor allows can be performed, unless the server is closed or has to wait for
requests. -/
theorem server_exec {g : ServerStage} {o : ServerOp} {w : ServerWorld} {i : ℕ}
    (hallows : serverMonitor.allows g o) (hg : g ≠ .waiting)
    (hserve : g = .listening → w.shutdown = true ∧ w.running = []) (env : ServerEnv) :
    (server aead chrono key).exec i o env w ≠ none := by
  cases o with
  | app o =>
    have hne : (system aead chrono key).exec i o env.app w.app ≠ none := by
      apply exec_ne_none
      intro id hid
      rw [hid] at hallows
      cases hallows.2
    simpa [server] using hne
  | accept => exact absurd hallows hg
  | serve =>
    have hdown := hserve hallows
    simp [server, hdown]
  | bind | store | signal | respond | takeResult => exact nofun

section Ends

variable {c : Cfg ServerSig ServerWorld ServerReturn} {stored : List (Result Account)}
  {γ : ℕ → ServerStage} (hpool : PoolFollows serverMonitor Returns γ c.pool)

/-- The environment in which a call that can step does. -/
def ServerEnv.calm : ServerEnv := ⟨Env.calm 0 (.error ""), fun _ => .ok ()⟩

include hpool

theorem handling_of_storing {p : Prog ServerSig ServerReturn} {result : Result Account}
    (hp : p ∈ c.pool) (hnext : p.next? = some (.store result)) : ∃ i, γ i = .handling := by
  obtain ⟨i, hi⟩ := List.mem_iff_getElem?.mp hp
  cases p with
  | ret r => cases hnext
  | call o k =>
    obtain rfl : o = .store result := Option.some.inj hnext
    exact ⟨i, (hpool i _ hi).1⟩

/-- A call that cannot step has returned, unless it waits for a request or for those in flight. -/
theorem server_returned (hstuck : (server aead chrono key).Stuck c) {i : ℕ}
    {p : Prog ServerSig ServerReturn} (hp : c.pool[i]? = some p) (hg : γ i ≠ .waiting)
    (hserve : γ i = .listening → c.world.shutdown = true ∧ c.world.running = []) :
    ∃ r, p = .ret r ∧ Returns (γ i) r := by
  have hfollows := hpool i p hp
  cases p with
  | ret r => exact ⟨r, rfl, hfollows⟩
  | call o k =>
    exact absurd (hstuck.exec hp ServerEnv.calm) (server_exec hfollows.1 hg hserve _)

/-- When no call can step, no request is in flight. -/
theorem quiet_of_stuck (hstuck : (server aead chrono key).Stuck c)
    (hlength : ∀ i, (γ i).inFlight = true → i < c.pool.length) (i : ℕ) :
    (γ i).inFlight = false := by
  apply Bool.eq_false_iff.mpr
  intro hi
  have hp := List.getElem?_eq_getElem (hlength i hi)
  obtain ⟨r, _, hr⟩ := server_returned hpool hstuck hp
    (by rintro hg; simp [hg, ServerStage.inFlight] at hi)
    (by rintro hg; simp [hg, ServerStage.inFlight] at hi)
  cases r with
  | account result =>
    rcases hr with hg | ⟨slot, hg, _⟩ <;> simp [hg, ServerStage.inFlight] at hi
  | response r => simp [show γ i = .ended from hr, ServerStage.inFlight] at hi

/-- What the server returns is the success that was stored. -/
theorem account_of_returned (hreports : Reports stored c.world γ) {account : Account}
    (hstored : .ok account ∈ stored) {r : Outcome Account}
    (hr : c.returned[0]? = some (some (.account r))) : r = .ok account := by
  have hreturns : Returns (γ 0) (.account r) := hpool 0 _ (Cfg.returned_eq_some.mp hr)
  rcases hreturns with hg | ⟨slot, hg, rfl⟩
  · simp [(hreports.closed (by rw [hg]; rfl)).2.2] at hstored
  · have hkept := hreports.kept account hstored
    rw [hg] at hkept
    rw [show slot = some (.ok account) from hkept]
    rfl

/-- When no call can step and the server can end, it has returned. -/
theorem returned_of_ended (hreports : Reports stored c.world γ)
    (hstuck : (server aead chrono key).Stuck c) (hlt : 0 < c.pool.length)
    (hended : c.world.shutdown = true ∧ c.world.running = []) :
    ∃ r, c.returned[0]? = some (some (.account r)) := by
  have hserver := (hreports.roles 0).mpr rfl
  have hp := List.getElem?_eq_getElem hlt
  obtain ⟨r, hr, hreturns⟩ := server_returned hpool hstuck hp
    (by rintro hg; simp [hg, ServerStage.isServer] at hserver) fun _ => hended
  rw [hr] at hp
  cases r with
  | account result => exact ⟨result, Cfg.returned_eq_some.mpr hp⟩
  | response r => simp [show γ 0 = .ended from hreturns, ServerStage.isServer] at hserver

end Ends

section Runs

variable {addr : String} {requests : List CallbackParams} {w : World}
  {c' : Cfg ServerSig ServerWorld ServerReturn}
  {es : List (Event ServerSig ServerWorld ServerEnv ServerReturn)}
  (h : (server aead chrono key).Run (serving oauth addr requests w) es c')
include h

theorem reports_run (hlost : NoSuccessLost es) :
    ∃ γ, (Reports (storedBy es) c'.world γ ∧ ∀ i, (γ i).inFlight = true → i < c'.pool.length) ∧
      PoolFollows serverMonitor Returns γ c'.pool := by
  refine ⟨_, h.follows (I := fun past c γ => Reports (storedBy past) c.world γ ∧
    ∀ i, (γ i).inFlight = true → i < c.pool.length) ⟨reports_start w, fun i hi => ?_⟩
    (serving_follows addr requests w) ?_⟩
  · unfold starts at hi
    split at hi <;> cases hi
  · rintro past e post hes he _ ⟨hreports, hpool⟩ hallows
    refine ⟨trivial, ?_⟩
    obtain ⟨k, hk, hexec, _⟩ := id he
    rw [storedBy_snoc, ghosts_snoc]
    refine ⟨hreports.step hallows hexec (hlost e (by simp [hes])), fun i hi => ?_⟩
    rw [he.pool_length]
    by_cases hie : i = e.thread
    · rw [hie]
      exact (List.getElem?_eq_some_iff.mp hk).1
    · rw [Function.update_of_ne hie] at hi
      exact hpool i hi

/-- **The connection that was made is reported**, when no handler writes over a success: what the
server returns is the account, and it has returned when no call can step any more. -/
theorem callback_once_reports (hlost : NoSuccessLost es) {account : Account}
    (hcompleted : Completed es c' account) :
    (∀ r, c'.returned[0]? = some (some (.account r)) → r = .ok account) ∧
      ((server aead chrono key).Stuck c' →
        c'.returned[0]? = some (some (.account (.ok account)))) := by
  obtain ⟨γ, ⟨hreports, hlength⟩, hpool⟩ := reports_run h hlost
  constructor
  · intro r hr
    -- The server listens while an outcome is about to be stored.
    have hstored : .ok account ∈ storedBy es := by
      apply hcompleted.resolve_right
      rintro ⟨p, hp, hnext⟩
      obtain ⟨i, hi⟩ := handling_of_storing hpool hp hnext
      have hlistening := hreports.listening (i := i) (by rw [hi]; rfl)
      have hreturns : Returns (γ 0) (.account r) := hpool 0 _ (Cfg.returned_eq_some.mp hr)
      rcases hreturns with hg | ⟨slot, hg, _⟩ <;> simp [hlistening] at hg
    exact account_of_returned hpool hreports hstored hr
  · intro hstuck
    have hquiet := quiet_of_stuck hpool hstuck hlength
    have hstored : .ok account ∈ storedBy es := by
      apply hcompleted.resolve_right
      rintro ⟨p, hp, hnext⟩
      obtain ⟨i, hi⟩ := handling_of_storing hpool hp hnext
      simpa [hi, ServerStage.inFlight] using hquiet i
    have hlt : 0 < c'.pool.length := by
      rw [h.pool_length]
      exact Nat.succ_pos _
    obtain ⟨r, hr⟩ := returned_of_ended hpool hreports hstuck hlt
      (hreports.ended hquiet (List.ne_nil_of_mem hstored))
    rwa [account_of_returned hpool hreports hstored hr] at hr

end Runs

/-! ### Two requests -/

/-- A process whose database holds the flow of tenant `tenant-a`. -/
def pendingFlow : World where
  db := { Db.empty with
    oauthFlows := FlowStore.afterInsert .tagged sampleKey (Env.calm 0 (.error "")).sql "verifier"
      "tenant-a" "csrf" .empty }
  locks _ := none

abbrev sampleServer : Machine ServerSig ServerWorld ServerEnv :=
  server .tagged (.ofTable firstDay) sampleKey

/-- A stray request for an icon and the redirect of the browser. -/
def iconAndRedirect : Cfg ServerSig ServerWorld ServerReturn :=
  serving sampleOauth "127.0.0.1:80"
    [⟨none, none, none, none⟩, ⟨some "code", some "csrf", none, none⟩] pendingFlow

def inTurns (threads : List ℕ) : List (ℕ × ServerEnv) :=
  threads.map fun i =>
    (i, ⟨Env.calm 0 (.ok ⟨"at-1", some "rt-1", none, none⟩), fun _ => .ok ()⟩)

/-- Both requests are accepted, the icon's handler ends, and then the flow is completed. -/
def iconFirst : List (ℕ × ServerEnv) :=
  inTurns ([0, 1, 2, 1, 1, 1] ++ List.replicate 12 2 ++ [2, 2, 2, 0, 0])

/-- The flow is completed, and then the icon's handler ends. -/
def iconLast : List (ℕ × ServerEnv) :=
  inTurns ([0, 1, 2] ++ List.replicate 12 2 ++ [2, 2, 2, 1, 1, 1, 0, 0])

theorem iconFirst_run : (sampleServer.replay iconAndRedirect iconFirst).isSome = true := by
  decide +kernel

theorem iconLast_run : (sampleServer.replay iconAndRedirect iconLast).isSome = true := by
  decide +kernel

def connectedAccount : Account := { sampleAccount with id := "acc-2" }

theorem callback_once_reports_iconFirst : ∃ es c',
    sampleServer.Run iconAndRedirect es c' ∧ Completed es c' connectedAccount ∧
      c'.returned[0]? = some (some (.account (.ok connectedAccount))) := by
  have hrun := run_replay (m := sampleServer) iconAndRedirect iconFirst iconFirst_run
  have hlost : NoSuccessLost ((sampleServer.replay iconAndRedirect iconFirst).get
      iconFirst_run).1 := by
    show ∀ e ∈ _, loses _ _ = false
    decide +kernel
  have hcompleted : Completed ((sampleServer.replay iconAndRedirect iconFirst).get iconFirst_run).1
      ((sampleServer.replay iconAndRedirect iconFirst).get iconFirst_run).2 connectedAccount := by
    apply Or.inl
    decide +kernel
  have hstuck : sampleServer.Stuck
      ((sampleServer.replay iconAndRedirect iconFirst).get iconFirst_run).2 := by
    apply stuck_of_returned
    decide +kernel
  exact ⟨_, _, hrun, hcompleted, (callback_once_reports hrun hlost hcompleted).2 hstuck⟩

/-- The flow is completed, and the server reports the failure of the stray request. -/
theorem callback_once_loses : ∃ es c',
    sampleServer.Run iconAndRedirect es c' ∧ Completed es c' connectedAccount ∧
      c'.returned[0]? = some (some (.account
        (.error (.err (.auth "missing code or state parameter in callback"))))) := by
  have hrun := run_replay (m := sampleServer) iconAndRedirect iconLast iconLast_run
  have hcompleted : Completed ((sampleServer.replay iconAndRedirect iconLast).get iconLast_run).1
      ((sampleServer.replay iconAndRedirect iconLast).get iconLast_run).2 connectedAccount := by
    apply Or.inl
    decide +kernel
  refine ⟨_, _, hrun, hcompleted, ?_⟩
  decide +kernel

end UniMail
