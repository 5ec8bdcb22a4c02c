import TokioTungstenite.Model.Tls

/-! # `connect` (`connect.rs`)

A connection is made in three steps: the endpoint is read off the URI, the endpoint is dialled, and the stream is
encrypted if need be and handed to the handshake.
-/

namespace TokioTungstenite

open Execution Text

variable {feat : Features} {net : Net}

/-- `format!("{domain}:{port}")`. -/
def addr (domain : Str) (port : ℕ) : Str := domain ++ ':' :: display port

/-- `connect`, from the dialled socket on. -/
def connected (request : net.Request) (config : Option net.WebSocketConfig) (disableNagle : Bool)
    (connector : Option (Connector feat net)) (socket : net.Stream) :
    net.Io feat (Except WsError (net.WebSocket × net.Response)) := do
  if disableNagle then
    match ← (NetOp.setNodelay socket).perform with
    | .error e => return .error (.io e)
    | .ok () => clientAsyncTlsWithConfig (.ok request) socket config connector
  else clientAsyncTlsWithConfig (.ok request) socket config connector

/-- `connect`. -/
def connect (request : net.Request) (config : Option net.WebSocketConfig) (disableNagle : Bool)
    (connector : Option (Connector feat net)) : net.Io feat (Except WsError (net.WebSocket × net.Response)) := do
  match domain feat request with
  | .error e => return .error e
  | .ok domain =>
    match port request with
    | none => return .error (.url .unsupportedUrlScheme)
    | some port =>
      match ← (NetOp.tcpConnect (addr domain port)).perform with
      | .error e => return .error (.io e)
      | .ok socket => connected request config disableNagle connector socket

/-- `connect_async_tls_with_config`, from what `into_client_request` answered. -/
def connectAsyncTlsWithConfig (request : Except WsError net.Request) (config : Option net.WebSocketConfig)
    (disableNagle : Bool) (connector : Option (Connector feat net)) :
    net.Io feat (Except WsError (net.WebSocket × net.Response)) :=
  match request with
  | .error e => return .error e
  | .ok request => connect request config disableNagle connector

/-- `connect_async_with_config`. -/
def connectAsyncWithConfig (request : Except WsError net.Request) (config : Option net.WebSocketConfig)
    (disableNagle : Bool) : net.Io feat (Except WsError (net.WebSocket × net.Response)) :=
  connectAsyncTlsWithConfig request config disableNagle none

/-- `connect_async`. -/
def connectAsync (request : Except WsError net.Request) : net.Io feat (Except WsError (net.WebSocket × net.Response)) :=
  connectAsyncWithConfig request none false

/-! ## What a connection attempt performs -/

/-- The program performs exactly these operations, whatever they answer, and ends with the result. -/
abbrev Net.Runs {α : Type} (program : net.Io feat α) (es : List (NetEvent feat net)) (result : α) : Prop :=
  Exec (anyAnswer (netIo feat net)) program () es result ()

/-- An endpoint was dialled. -/
def NetEvent.Dials (event : NetEvent feat net) : Prop := ∃ addr, event.1 = .tcpConnect addr

/-- A connection was opened. -/
def NetEvent.Opens (event : NetEvent feat net) : Prop := ∃ addr socket, event = ⟨.tcpConnect addr, .ok socket⟩

/-- The first operation of a program, and what follows its answer. -/
theorem runs_perform_iff {α : Type} {op : NetOp feat net} {f : op.Answer → net.Io feat α}
    {es : List (NetEvent feat net)} {result : α} : net.Runs (op.perform >>= f) es result ↔
      ∃ (answer : op.Answer) (rest : List (NetEvent feat net)),
        es = ⟨op, answer⟩ :: rest ∧ net.Runs (f answer) rest result := by
  change Exec (anyAnswer _) (.perform op f) () es result () ↔ _
  rw [Exec.perform_iff]
  constructor
  · rintro ⟨e, answer, middle, rest, rfl, rfl, run⟩
    exact ⟨answer, rest, rfl, run⟩
  · rintro ⟨answer, rest, rfl, run⟩
    exact ⟨_, answer, (), rest, rfl, rfl, run⟩

theorem runs_return_iff {α : Type} {value result : α} {es : List (NetEvent feat net)} :
    net.Runs (pure value : net.Io feat α) es result ↔ es = [] ∧ result = value := by
  simp [Net.Runs]

variable {request : net.Request} {config : Option net.WebSocketConfig} {disableNagle : Bool}
  {connector : Option (Connector feat net)} {es : List (NetEvent feat net)}
  {result : Except WsError (net.WebSocket × net.Response)}

/-- `connect` is refused before it dials, or dials its endpoint once and first. -/
theorem runs_connect_iff : net.Runs (connect request config disableNagle connector) es result ↔
    (∃ e, domain feat request = .error e ∧ es = [] ∧ result = .error e) ∨
    ∃ d, domain feat request = .ok d ∧
      ((port request = none ∧ es = [] ∧ result = .error (.url .unsupportedUrlScheme)) ∨
        ∃ n, port request = some n ∧
          ((∃ e, es = [⟨.tcpConnect (addr d n), .error e⟩] ∧ result = .error (.io e)) ∨
            ∃ socket rest, es = ⟨.tcpConnect (addr d n), .ok socket⟩ :: rest ∧
              net.Runs (connected request config disableNagle connector socket) rest result)) := by
  unfold connect
  cases domain feat request with
  | error e => simp
  | ok d =>
    cases port request with
    | none => simp
    | some n =>
      constructor
      · intro run
        obtain ⟨answer, rest, rfl, tail⟩ := runs_perform_iff.mp run
        cases answer with
        | error e =>
          obtain ⟨rfl, rfl⟩ := runs_return_iff.mp tail
          exact .inr ⟨d, rfl, .inr ⟨n, rfl, .inl ⟨e, rfl, rfl⟩⟩⟩
        | ok socket => exact .inr ⟨d, rfl, .inr ⟨n, rfl, .inr ⟨socket, rest, rfl, tail⟩⟩⟩
      · rintro (⟨e, ⟨⟩, -⟩ | ⟨d', same, ⟨⟨⟩, -⟩ | ⟨n', same', dialled⟩⟩)
        cases same
        cases same'
        refine runs_perform_iff.mpr ?_
        rcases dialled with ⟨e, rfl, rfl⟩ | ⟨socket, rest, rfl, run⟩
        · exact ⟨.error e, [], rfl, runs_return_iff.mpr ⟨rfl, rfl⟩⟩
        · exact ⟨.ok socket, rest, rfl, run⟩

/-! ## After the dial -/

/-- The operation is not a dial. -/
def NetOp.NoDial : NetOp feat net → Prop
  | .tcpConnect _ => False
  | _ => True

/-- Not a URL error. -/
def NotUrl {α : Type} (result : Except WsError α) : Prop := ∀ e, result ≠ .error (.url e)

section Dialled

variable {socket : net.Stream} {d : Str} {mode : Mode}

/-- TLS dials nothing and raises no URL error. -/
theorem native_satisfies (enabled : feat.nativeTls = true) (conn : Option net.NativeTlsConnector) :
    (NativeTls.wrapStream enabled socket d mode conn).Satisfies NetOp.NoDial NotUrl := by
  cases mode with
  | plain => rintro e ⟨⟩
  | tls =>
    cases conn with
    | some conn =>
      refine (Program.All.lift trivial).bind fun answer => ?_
      cases answer <;> rintro e ⟨⟩
    | none =>
      refine (Program.All.lift trivial).bind fun made => ?_
      cases made with
      | error e => rintro e ⟨⟩
      | ok conn =>
        refine (Program.All.lift trivial).bind fun answer => ?_
        cases answer <;> rintro e ⟨⟩

private theorem defaultConfig_satisfies : (Rustls.defaultConfig : net.Io feat _).Satisfies NetOp.NoDial NotUrl := by
  unfold Rustls.defaultConfig
  split
  · refine (Program.All.lift trivial).bind fun loaded => ?_
    dsimp only
    split
    · rintro e ⟨⟩
    · refine (Program.All.lift trivial).bind fun made => ?_
      rintro e ⟨⟩
  · refine (Program.All.lift trivial).bind fun made => ?_
    rintro e ⟨⟩

theorem rustls_satisfies (enabled : feat.rustlsTls = true) (conn : Option net.ClientConfig) :
    (Rustls.wrapStream enabled socket d mode conn).Satisfies NetOp.NoDial NotUrl := by
  cases mode with
  | plain => rintro e ⟨⟩
  | tls =>
    cases conn with
    | some config =>
      refine (Program.All.lift trivial).bind fun name => ?_
      cases name with
      | none => rintro e ⟨⟩
      | some name =>
        refine (Program.All.lift trivial).bind fun answer => ?_
        cases answer <;> rintro e ⟨⟩
    | none =>
      refine defaultConfig_satisfies.bind fun made notUrl => ?_
      cases made with
      | error e =>
        intro e' same
        exact notUrl e' (congrArg Except.error (Except.error.inj same))
      | ok config =>
        refine (Program.All.lift trivial).bind fun name => ?_
        cases name with
        | none => rintro e ⟨⟩
        | some name =>
          refine (Program.All.lift trivial).bind fun answer => ?_
          cases answer <;> rintro e ⟨⟩

private theorem noDial_wrapStream : (wrapStream socket d mode connector).All NetOp.NoDial := by
  unfold wrapStream
  split
  · exact (native_satisfies _ _).all
  · exact (rustls_satisfies _ _).all
  · cases mode <;> trivial
  · split
    · exact (native_satisfies _ _).all
    · split
      · exact (rustls_satisfies _ _).all
      · cases mode <;> trivial

private theorem noDial_clientAsyncTls (request : Except WsError net.Request) :
    (clientAsyncTlsWithConfig request socket config connector).All NetOp.NoDial := by
  cases request with
  | error e => trivial
  | ok request =>
    unfold clientAsyncTlsWithConfig
    dsimp only
    split
    · trivial
    · split
      · trivial
      · refine noDial_wrapStream.bind fun wrapped => ?_
        cases wrapped with
        | error e => trivial
        | ok stream => exact ⟨trivial, fun _ => trivial⟩

/-- Nothing dials after the dial. -/
theorem noDial_connected : (connected request config disableNagle connector socket).All NetOp.NoDial := by
  unfold connected
  split
  · refine (Program.All.lift trivial).bind fun answer => ?_
    cases answer with
    | error e => trivial
    | ok done => exact noDial_clientAsyncTls _
  · exact noDial_clientAsyncTls _

end Dialled

end TokioTungstenite
