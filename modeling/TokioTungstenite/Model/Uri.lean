import TokioTungstenite.Model.Basic
import TokioTungstenite.Text.Decimal

/-! # URIs, as `connect` reads them

The `http` crate parses a URI and tungstenite classifies its scheme. What this crate calls of them is the
structure `Net`; what it relies on there is `Net.Documented`. An `Authority` is the text of an authority, cut
where the grammar of URIs cuts it.
-/

namespace TokioTungstenite

open Text

/-- The characters of a `str`. -/
abbrev Str := List Char

/-- The authority of a URI: `[userinfo@]host[:port]`. -/
structure Authority where
  userinfo : Option Str
  /-- An IPv6 literal keeps its brackets. -/
  host : Str
  /-- What stands after the colon; `some []` is an empty port part. -/
  port : Option Str
  host_literal : ':' ∈ host → ∃ literal, host = '[' :: (literal ++ [']'])
  host_plain : '@' ∉ host
  port_plain : ∀ p ∈ port, ':' ∉ p ∧ '@' ∉ p

def Authority.userinfoText (authority : Authority) : Str :=
  match authority.userinfo with
  | some userinfo => userinfo ++ ['@']
  | none => []

def Authority.portText (authority : Authority) : Str :=
  match authority.port with
  | some port => ':' :: port
  | none => []

/-- The authority as it is written. -/
def Authority.text (authority : Authority) : Str := authority.userinfoText ++ authority.host ++ authority.portText

/-- `tungstenite::stream::Mode`. -/
inductive Mode
  | plain
  | tls
deriving DecidableEq, Repr

/-- The features of the crate that decide which code is compiled. -/
structure Features where
  nativeTls : Bool
  /-- `__rustls-tls` -/
  rustlsTls : Bool
  rustlsTlsNativeRoots : Bool
  rustlsTlsWebpkiRoots : Bool
  native_roots : rustlsTlsNativeRoots = true → rustlsTls = true
  webpki_roots : rustlsTlsWebpkiRoots = true → rustlsTls = true

/-- The crates under `connect` and `tls`: their types, and their functions that do no I/O. -/
structure Net where
  Request : Type
  Uri : Type
  /-- `Request::uri` -/
  uri : Request → Uri
  authority : Uri → Option Authority
  host : Uri → Option Str
  portU16 : Uri → Option ℕ
  schemeStr : Uri → Option String
  /-- `tungstenite::client::uri_mode` -/
  uriMode : Uri → Except WsError Mode
  /-- The stream the WebSocket runs on; a `TcpStream` in `connect`. -/
  Stream : Type
  NativeTlsConnector : Type
  NativeTlsStream : Type
  Certificate : Type
  ClientConfig : Type
  ServerName : Type
  RustlsStream : Type
  WebSocketConfig : Type
  WebSocket : Type
  Response : Type

/-- The URI functions, as they are documented. -/
structure Net.Documented (net : Net) : Prop where
  host : ∀ uri, net.host uri = (net.authority uri).map Authority.host
  /-- The text after the last colon, if that is a 16-bit number. -/
  portU16 : ∀ uri, net.portU16 uri =
    (net.authority uri).bind fun authority => (rsplitOnce ':' authority.text).bind fun cut => parse? 65536 cut.2
  plain : ∀ uri, net.schemeStr uri = some "ws" → net.uriMode uri = .ok .plain
  tls : ∀ uri, net.schemeStr uri = some "wss" → net.uriMode uri = .ok .tls
  unsupported : ∀ uri, net.schemeStr uri ≠ some "ws" → net.schemeStr uri ≠ some "wss" →
    net.uriMode uri = .error (.url .unsupportedUrlScheme)

variable {net : Net}

/-- `domain`: rustls expects IPv6 addresses without the surrounding brackets. -/
def domain (feat : Features) (request : net.Request) : Except WsError Str :=
  match net.host (net.uri request) with
  | some d =>
    if feat.rustlsTls = true ∧ d.head? = some '[' ∧ d.getLast? = some ']' then .ok d.tail.dropLast else .ok d
  | none => .error (.url .noHostName)

/-- The port a scheme stands for. -/
def schemePort (scheme : Option String) : Option ℕ :=
  match scheme with
  | some "wss" => some 443
  | some "ws" => some 80
  | _ => none

/-- `request.uri().port_u16().or_else(…)`. -/
def port (request : net.Request) : Option ℕ :=
  (net.portU16 (net.uri request)).or (schemePort (net.schemeStr (net.uri request)))

theorem schemePort_eq_none_iff {scheme : Option String} :
    schemePort scheme = none ↔ scheme ≠ some "ws" ∧ scheme ≠ some "wss" := by
  unfold schemePort
  split <;> simp_all

/-- The scheme of a URI whose mode is TLS. -/
theorem Net.Documented.wss_of_uriMode (documented : net.Documented) {uri : net.Uri} (moded : net.uriMode uri = .ok .tls) :
    net.schemeStr uri = some "wss" := by
  have notWs : net.schemeStr uri ≠ some "ws" := by
    intro ws
    rw [documented.plain uri ws] at moded
    cases moded
  by_contra notWss
  rw [documented.unsupported uri notWs notWss] at moded
  cases moded

/-- A scheme that is refused stands for no port. -/
theorem Net.Documented.schemePort_of_uriMode (documented : net.Documented) {uri : net.Uri} {e : WsError}
    (refused : net.uriMode uri = .error e) : schemePort (net.schemeStr uri) = none := by
  refine schemePort_eq_none_iff.mpr ⟨fun ws => ?_, fun wss => ?_⟩
  · rw [documented.plain uri ws] at refused
    cases refused
  · rw [documented.tls uri wss] at refused
    cases refused

/-- Without a port part the last colon, if any, is followed by the end of the user info or of an IPv6 literal. -/
private theorem parse?_of_portless {authority : Authority} {before after : Str} (portless : authority.port = none)
    (cut : rsplitOnce ':' authority.text = some (before, after)) : parse? 65536 after = none := by
  rw [Authority.text, Authority.portText, portless, List.append_nil] at cut
  by_cases colon : ':' ∈ authority.host
  · obtain ⟨literal, bracketed⟩ := authority.host_literal colon
    rw [bracketed, ← List.cons_append, ← List.append_assoc] at cut
    exact parse?_eq_none (mem_of_rsplitOnce (by decide) cut) (by decide) (by decide)
  · unfold Authority.userinfoText at cut
    cases userinfo : authority.userinfo with
    | none =>
      rw [userinfo, List.nil_append, rsplitOnce_eq_none_iff.mpr colon] at cut
      cases cut
    | some userinfo' =>
      rw [userinfo, List.append_assoc, List.singleton_append] at cut
      have past : ':' ∉ '@' :: authority.host := by simp [colon]
      exact parse?_eq_none (mem_of_rsplitOnce past cut) (by decide) (by decide)

/-- So `port_u16` is the number written in the port part, and nothing else. -/
theorem Net.Documented.portU16_eq (documented : net.Documented) {uri : net.Uri} {authority : Authority}
    (written : net.authority uri = some authority) : net.portU16 uri = authority.port.bind (parse? 65536) := by
  rw [documented.portU16, written, Option.bind_some]
  cases port : authority.port with
  | none =>
    cases cut : rsplitOnce ':' authority.text with
    | none => rfl
    | some cut' => exact parse?_of_portless port cut
  | some digits =>
    have last := (authority.port_plain digits port).1
    rw [Authority.text, Authority.portText, port, rsplitOnce_append last]
    rfl

/-! ## An instance -/

/-- A URI that has been cut into its scheme and its authority. -/
structure ParsedUri where
  scheme : Option String
  authority : Option Authority

/-- Parsed URIs, with the functions as they are documented; the other types are left trivial. -/
def Net.parsed : Net where
  Request := ParsedUri
  Uri := ParsedUri
  uri request := request
  authority := ParsedUri.authority
  host uri := uri.authority.map Authority.host
  portU16 uri := uri.authority.bind fun authority => (rsplitOnce ':' authority.text).bind fun cut => parse? 65536 cut.2
  schemeStr := ParsedUri.scheme
  uriMode uri :=
    match uri.scheme with
    | some "ws" => .ok .plain
    | some "wss" => .ok .tls
    | _ => .error (.url .unsupportedUrlScheme)
  Stream := Unit
  NativeTlsConnector := Unit
  NativeTlsStream := Unit
  Certificate := Unit
  ClientConfig := Unit
  ServerName := Unit
  RustlsStream := Unit
  WebSocketConfig := Unit
  WebSocket := Unit
  Response := Unit

theorem Net.parsed_documented : Net.parsed.Documented where
  host _ := rfl
  portU16 _ := rfl
  plain uri scheme := by
    change uri.scheme = _ at scheme
    simp only [Net.parsed, scheme]
  tls uri scheme := by
    change uri.scheme = _ at scheme
    simp only [Net.parsed, scheme]
  unsupported uri notPlain notTls := by
    change uri.scheme ≠ _ at notPlain
    change uri.scheme ≠ _ at notTls
    simp only [Net.parsed]

end TokioTungstenite
