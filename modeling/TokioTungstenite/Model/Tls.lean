import TokioTungstenite.Model.Uri
import TokioTungstenite.Execution.Program

/-! # Connectors and TLS (`tls.rs`)

What opens, configures, encrypts or uses a stream is an operation of the interface `netIo`; everything else is
decided by the code here. The features decide which connectors exist, so a connector carries the proof that its
feature is enabled.
-/

namespace TokioTungstenite

open Execution

/-- `MaybeTlsStream`. -/
inductive MaybeTlsStream (feat : Features) (net : Net)
  | plain (s : net.Stream)
  | nativeTls (enabled : feat.nativeTls = true) (s : net.NativeTlsStream)
  | rustls (enabled : feat.rustlsTls = true) (s : net.RustlsStream)

/-- `Connector`. -/
inductive Connector (feat : Features) (net : Net)
  | plain
  | nativeTls (enabled : feat.nativeTls = true) (connector : net.NativeTlsConnector)
  | rustls (enabled : feat.rustlsTls = true) (config : net.ClientConfig)

/-- The operations of other crates that this code performs. -/
inductive NetOp (feat : Features) (net : Net)
  /-- `TcpStream::connect` -/
  | tcpConnect (addr : Str)
  | setNodelay (socket : net.Stream)
  /-- `native_tls::TlsConnector::new` -/
  | nativeTlsConnector
  | nativeTlsConnect (connector : net.NativeTlsConnector) (domain : Str) (socket : net.Stream)
  /-- `rustls_native_certs::load_native_certs`: certificates, and its errors as they are printed. -/
  | loadNativeCerts
  /-- A root store with these certificates, and the client configuration built on it. -/
  | clientConfig (certs : List net.Certificate) (webpkiRoots : Bool)
  /-- `ServerName::try_from` -/
  | serverName (domain : Str)
  | rustlsConnect (config : net.ClientConfig) (domain : net.ServerName) (socket : net.Stream)
  /-- `client_async_with_config`: the handshake of tungstenite on the stream. -/
  | clientAsyncWithConfig (request : net.Request) (stream : MaybeTlsStream feat net)
      (config : Option net.WebSocketConfig)

variable {feat : Features} {net : Net}

@[reducible] def NetOp.Answer : NetOp feat net → Type
  | .tcpConnect _ => Except IoError net.Stream
  | .setNodelay _ => Except IoError Unit
  | .nativeTlsConnector => Except String net.NativeTlsConnector
  | .nativeTlsConnect _ _ _ => Except String net.NativeTlsStream
  | .loadNativeCerts => List net.Certificate × String
  | .clientConfig _ _ => net.ClientConfig
  | .serverName _ => Option net.ServerName
  | .rustlsConnect _ _ _ => Except IoError net.RustlsStream
  | .clientAsyncWithConfig _ _ _ => Except WsError (net.WebSocket × net.Response)

@[reducible] def netIo (feat : Features) (net : Net) : PFunctor := ⟨NetOp feat net, NetOp.Answer⟩

/-- One operation, with its answer. -/
abbrev NetEvent (feat : Features) (net : Net) := (netIo feat net).Idx

/-- A program that performs such operations. -/
abbrev Net.Io (feat : Features) (net : Net) (α : Type) := Program (netIo feat net) α

def NetOp.perform (op : NetOp feat net) : net.Io feat op.Answer := .lift (P := netIo feat net) op

/-- `encryption::native_tls::wrap_stream`. -/
def NativeTls.wrapStream (enabled : feat.nativeTls = true) (socket : net.Stream) (domain : Str) (mode : Mode)
    (tlsConnector : Option net.NativeTlsConnector) : net.Io feat (Except WsError (MaybeTlsStream feat net)) := do
  match mode with
  | .plain => return .ok (.plain socket)
  | .tls =>
    let tryConnector ← match tlsConnector with
      | some connector => pure (.ok connector)
      | none => NetOp.nativeTlsConnector.perform
    match tryConnector with
    | .error e => return .error (.tls (.native e))
    | .ok connector =>
      match ← (NetOp.nativeTlsConnect connector domain socket).perform with
      | .error e => return .error (.tls (.native e))
      | .ok s => return .ok (.nativeTls enabled s)

/-- The configuration `encryption::rustls::wrap_stream` makes when it is given none. Finding no native root
certificates is fatal only without the feature for the webpki roots. -/
def Rustls.defaultConfig : net.Io feat (Except WsError net.ClientConfig) := do
  if feat.rustlsTlsNativeRoots then
    let (certs, errors) ← NetOp.loadNativeCerts.perform
    if certs.isEmpty ∧ feat.rustlsTlsWebpkiRoots = false then
      return .error (.io ⟨.notFound, "no native root CA certificates found (errors: " ++ errors ++ ")"⟩)
    else return .ok (← (NetOp.clientConfig certs feat.rustlsTlsWebpkiRoots).perform)
  else return .ok (← (NetOp.clientConfig [] feat.rustlsTlsWebpkiRoots).perform)

/-- `encryption::rustls::wrap_stream`. -/
def Rustls.wrapStream (enabled : feat.rustlsTls = true) (socket : net.Stream) (domain : Str) (mode : Mode)
    (tlsConnector : Option net.ClientConfig) : net.Io feat (Except WsError (MaybeTlsStream feat net)) := do
  match mode with
  | .plain => return .ok (.plain socket)
  | .tls =>
    let made ← match tlsConnector with
      | some config => pure (.ok config)
      | none => Rustls.defaultConfig
    match made with
    | .error e => return .error e
    | .ok config =>
      match ← (NetOp.serverName domain).perform with
      | none => return .error (.tls .invalidDnsName)
      | some domain =>
        match ← (NetOp.rustlsConnect config domain socket).perform with
        | .error e => return .error (.io e)
        | .ok s => return .ok (.rustls enabled s)

/-- `encryption::plain::wrap_stream`. -/
def Plain.wrapStream (socket : net.Stream) (mode : Mode) : net.Io feat (Except WsError (MaybeTlsStream feat net)) :=
  match mode with
  | .plain => return .ok (.plain socket)
  | .tls => return .error (.url .tlsFeatureNotEnabled)

/-- The `match connector` of `client_async_tls_with_config`: without a connector the features choose. -/
def wrapStream (socket : net.Stream) (domain : Str) (mode : Mode) (connector : Option (Connector feat net)) :
    net.Io feat (Except WsError (MaybeTlsStream feat net)) :=
  match connector with
  | some (.nativeTls enabled conn) => NativeTls.wrapStream enabled socket domain mode (some conn)
  | some (.rustls enabled conn) => Rustls.wrapStream enabled socket domain mode (some conn)
  | some .plain => Plain.wrapStream socket mode
  | none =>
    if enabled : feat.nativeTls = true then NativeTls.wrapStream enabled socket domain mode none
    else if enabled : feat.rustlsTls = true then Rustls.wrapStream enabled socket domain mode none
    else Plain.wrapStream socket mode

/-- `client_async_tls_with_config`, from what `into_client_request` answered. The domain is needed, and checked,
only where TLS is compiled in. -/
def clientAsyncTlsWithConfig (request : Except WsError net.Request) (stream : net.Stream)
    (config : Option net.WebSocketConfig) (connector : Option (Connector feat net)) :
    net.Io feat (Except WsError (net.WebSocket × net.Response)) := do
  match request with
  | .error e => return .error e
  | .ok request =>
    match if feat.nativeTls ∨ feat.rustlsTls then domain feat request else .ok [] with
    | .error e => return .error e
    | .ok domain =>
      -- the domain and the mode are checked first: the URL must be valid
      match net.uriMode (net.uri request) with
      | .error e => return .error e
      | .ok mode =>
        match ← wrapStream stream domain mode connector with
        | .error e => return .error e
        | .ok stream => (NetOp.clientAsyncWithConfig request stream config).perform

end TokioTungstenite
