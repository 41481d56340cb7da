import UniMail.Config
import UniMail.Lib.SocketAddr

/-!
# The callback address

`callback_addr` parses `CALLBACK_BIND_ADDR` as a socket address and returns its host and port apart;
`add_account` and `serve` put a colon between them and parse the text again. The host of an IPv6
address has no brackets, so that only IPv4 addresses come back (`callback_addr_bound_iff`).
-/

namespace UniMail

open Net Text

/-- What `callback_addr` reads off a redirect URI. -/
structure RedirectUrl where
  hostStr : Option String
  port : Option UInt16
  scheme : String

/-- The fields of the configuration that `callback_addr` reads. -/
structure CallbackConfig where
  redirectUri : String
  callbackBindAddr : Option String

/-- What `from_env` loads when the variables have these values. -/
def CallbackConfig.fromEnv (redirectUri callbackBindAddr : Option String) : CallbackConfig where
  redirectUri := (env "REDIRECT_URI" redirectUri).toOption.getD "http://localhost"
  callbackBindAddr :=
    (env "CALLBACK_BIND_ADDR" callbackBindAddr).toOption.filter fun v => trim v ≠ ""

/-- Parse a socket address of the configuration; `invalid` makes the message of the parser's. -/
def parseSocketAddr (invalid : String → String) (addr : String) : Result SocketAddr :=
  match SocketAddr.parse addr with
  | some addr => .ok addr
  | none => .error (.config (invalid "invalid socket address syntax"))

section Addr

variable (newRedirectUrl : String → Except String RedirectUrl) (config : CallbackConfig)

/-- Host/port the callback server should bind to. -/
def callbackAddr : Result (String × UInt16) :=
  match config.callbackBindAddr with
  | some addr => do
    let addr ← parseSocketAddr (fun e => s!"invalid CALLBACK_BIND_ADDR '{addr}': {e}") addr
    return (addr.ip, addr.port)
  | none => do
    let url ← (newRedirectUrl config.redirectUri).mapError fun e =>
      .config s!"invalid REDIRECT_URI: {e}"
    let host := url.hostStr.getD "127.0.0.1"
    let port := url.port.getD (if url.scheme = "https" then 443 else 80)
    -- "localhost" resolves to both v4/v6; bind explicitly for reliability.
    return (if host = "localhost" then "127.0.0.1" else host, port)

/-- The address that is made of `callback_addr` again. -/
def rejoinedAddr (invalid : String → UInt16 → String → String) : Result SocketAddr := do
  let (host, port) ← callbackAddr newRedirectUrl config
  parseSocketAddr (invalid host port) s!"{host}:{port}"

/-- Where `add_account` serves the callback. -/
def addAccountAddr : Result SocketAddr :=
  rejoinedAddr newRedirectUrl config fun host port e => s!"invalid callback address {host}:{port}: {e}"

/-- Where `serve` listens for callbacks. -/
def serveAddr : Result SocketAddr :=
  rejoinedAddr newRedirectUrl config fun _ _ e => s!"invalid callback address: {e}"

/-- `callback_addr` succeeds, and both commands bind the address. -/
structure Binds (addr : SocketAddr) : Prop where
  resolved : ∃ host port, callbackAddr newRedirectUrl config = .ok (host, port)
  addAccount : addAccountAddr newRedirectUrl config = .ok addr
  serve : serveAddr newRedirectUrl config = .ok addr

end Addr

theorem parseSocketAddr_ok {invalid : String → String} {s : String} {addr : SocketAddr} :
    parseSocketAddr invalid s = .ok addr ↔ SocketAddr.parse s = some addr := by
  unfold parseSocketAddr
  cases SocketAddr.parse s <;> simp

theorem hostPort_eq (ip : List Char) (port : UInt16) :
    s!"{String.ofList ip}:{port}" = String.ofList (ip ++ ':' :: decimal port.toNat) := by
  apply String.toList_inj.mp
  have hport : (toString port).toList = decimal port.toNat := by
    show (Nat.repr port.toNat).toList = _
    rw [Nat.repr_eq_ofList_toDigits, String.toList_ofList]
    rfl
  simp [toString, ← hport]

section Configured

variable {newRedirectUrl : String → Except String RedirectUrl} {redirectUri : Option String}

/-- An address is not blank, so that it is loaded as it is. -/
theorem fromEnv_display (addr : SocketAddr) :
    (CallbackConfig.fromEnv redirectUri (some addr.display)).callbackBindAddr =
      some addr.display := by
  have hcolon : ':' ∈ addr.display.toList := by
    rw [SocketAddr.display, String.toList_ofList]
    cases addr <;> simp [SocketAddr.chars]
  have hblank : trim addr.display ≠ "" := by
    intro h
    exact absurd (trim_eq_empty.mp h ':' hcolon) (by decide)
  simp [CallbackConfig.fromEnv, env, hblank, Except.toOption]

/-- The address is taken apart. -/
theorem callbackAddr_display (addr : SocketAddr) :
    callbackAddr newRedirectUrl (.fromEnv redirectUri (some addr.display)) =
      .ok (addr.ip, addr.port) := by
  unfold callbackAddr
  rw [fromEnv_display]
  exact bind_eq_ok.mpr ⟨addr, parseSocketAddr_ok.mpr (parse_display addr), rfl⟩

theorem rejoinedAddr_display (invalid : String → UInt16 → String → String) (addr : SocketAddr) :
    rejoinedAddr newRedirectUrl (.fromEnv redirectUri (some addr.display)) invalid =
      parseSocketAddr (invalid addr.ip addr.port) s!"{addr.ip}:{addr.port}" := by
  unfold rejoinedAddr
  rw [callbackAddr_display]
  rfl

/-- An IPv4 address comes back. -/
theorem rejoinedAddr_v4 (invalid : String → UInt16 → String → String) (ip : Ipv4Addr)
    (port : UInt16) :
    rejoinedAddr newRedirectUrl (.fromEnv redirectUri (some (SocketAddr.v4 ip port).display))
      invalid = .ok (.v4 ip port) := by
  rw [rejoinedAddr_display]
  apply parseSocketAddr_ok.mpr
  show SocketAddr.parse s!"{String.ofList ip.display}:{port}" = _
  rw [hostPort_eq]
  exact parse_display (.v4 ip port)

/-- An IPv6 address is refused: the command ends with an error. -/
theorem rejoinedAddr_v6 (invalid : String → UInt16 → String → String) (ip : Ipv6Addr)
    (port : UInt16) (scopeId : UInt32) :
    rejoinedAddr newRedirectUrl
      (.fromEnv redirectUri (some (SocketAddr.v6 ip port scopeId).display)) invalid =
        .error (.config (invalid (String.ofList ip.display) port "invalid socket address syntax")) := by
  rw [rejoinedAddr_display]
  have hnone : SocketAddr.parse s!"{(SocketAddr.v6 ip port scopeId).ip}:{port}" = none := by
    show SocketAddr.parse s!"{String.ofList ip.display}:{port}" = _
    rw [hostPort_eq]
    exact parse_unbracketed ip port
  show parseSocketAddr _ s!"{(SocketAddr.v6 ip port scopeId).ip}:{port}" = _
  rw [parseSocketAddr, hnone]
  rfl

/-- **The address that is configured is bound exactly if it is an IPv4 address.** -/
theorem callback_addr_bound_iff (newRedirectUrl : String → Except String RedirectUrl)
    (redirectUri : Option String) (addr : SocketAddr) :
    Binds newRedirectUrl (.fromEnv redirectUri (some addr.display)) addr ↔
      ∃ ip port, addr = .v4 ip port := by
  constructor
  · intro h
    cases addr with
    | v4 ip port => exact ⟨ip, port, rfl⟩
    | v6 ip port scopeId =>
      have hserve := h.serve
      rw [serveAddr, rejoinedAddr_v6] at hserve
      cases hserve
  · rintro ⟨ip, port, rfl⟩
    exact ⟨⟨_, _, callbackAddr_display _⟩, rejoinedAddr_v4 .., rejoinedAddr_v4 ..⟩

/-- The loopback address of IPv6 is not. -/
theorem callback_addr_loopback_v6 :
    SocketAddr.parse "[::1]:8080" = some (.v6 ⟨#v[0, 0, 0, 0, 0, 0, 0, 1]⟩ 8080 0) ∧
      ¬ Binds (fun _ => .error "relative URL without a base")
        (.fromEnv none (some "[::1]:8080")) (.v6 ⟨#v[0, 0, 0, 0, 0, 0, 0, 1]⟩ 8080 0) := by
  refine ⟨by decide, fun h => ?_⟩
  have hserve : serveAddr (fun _ => .error "relative URL without a base")
      (.fromEnv none (some "[::1]:8080")) =
        .error (.config "invalid callback address: invalid socket address syntax") := by
    decide
  cases hserve.symm.trans h.serve

end Configured

end UniMail
