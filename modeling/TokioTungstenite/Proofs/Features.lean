import TokioTungstenite.Execution.Translation
import TokioTungstenite.Proofs.Endpoint

/-! # What a feature changes

The features of a crate are united over all that depend on it, so a build may have more of them than one of its users
asked for. The operations of a build with fewer features are read here as operations of the build with more.
-/

namespace TokioTungstenite

open Execution Text

variable {feat feat' : Features} {net : Net}

/-- Every feature of `feat` is one of `feat'`. -/
structure Features.Extends (feat feat' : Features) : Prop where
  nativeTls : feat.nativeTls = true → feat'.nativeTls = true
  rustlsTls : feat.rustlsTls = true → feat'.rustlsTls = true
  nativeRoots : feat.rustlsTlsNativeRoots = true → feat'.rustlsTlsNativeRoots = true
  webpkiRoots : feat.rustlsTlsWebpkiRoots = true → feat'.rustlsTlsWebpkiRoots = true

section Lift

variable (more : feat.Extends feat')

def MaybeTlsStream.lift : MaybeTlsStream feat net → MaybeTlsStream feat' net
  | .plain s => .plain s
  | .nativeTls enabled s => .nativeTls (more.nativeTls enabled) s
  | .rustls enabled s => .rustls (more.rustlsTls enabled) s

def Connector.lift : Connector feat net → Connector feat' net
  | .plain => .plain
  | .nativeTls enabled connector => .nativeTls (more.nativeTls enabled) connector
  | .rustls enabled config => .rustls (more.rustlsTls enabled) config

def NetOp.lift : NetOp feat net → NetOp feat' net
  | .tcpConnect addr => .tcpConnect addr
  | .setNodelay socket => .setNodelay socket
  | .nativeTlsConnector => .nativeTlsConnector
  | .nativeTlsConnect connector domain socket => .nativeTlsConnect connector domain socket
  | .loadNativeCerts => .loadNativeCerts
  | .clientConfig certs webpkiRoots => .clientConfig certs webpkiRoots
  | .serverName domain => .serverName domain
  | .rustlsConnect config domain socket => .rustlsConnect config domain socket
  | .clientAsyncWithConfig request stream config => .clientAsyncWithConfig request (stream.lift more) config

/-- An operation has the same answers in both builds. -/
def NetOp.unlift : (op : NetOp feat net) → (op.lift more).Answer → op.Answer
  | .tcpConnect _, answer | .setNodelay _, answer | .nativeTlsConnector, answer | .nativeTlsConnect _ _ _, answer
  | .loadNativeCerts, answer | .clientConfig _ _, answer | .serverName _, answer | .rustlsConnect _ _ _, answer
  | .clientAsyncWithConfig _ _ _, answer => answer

/-- The operations of a build as operations of one with more features. -/
def Features.Extends.translation : Translation (netIo feat net) (netIo feat' net) where
  op := NetOp.lift more
  answer := NetOp.unlift more

end Lift

/-- The TLS that a build uses where it is given no connector. -/
inductive DefaultTls
  | none
  | nativeTls
  | rustls (nativeRoots webpkiRoots : Bool)
deriving DecidableEq

def Features.defaultTls (feat : Features) : DefaultTls :=
  if feat.nativeTls then .nativeTls
  else if feat.rustlsTls then .rustls feat.rustlsTlsNativeRoots feat.rustlsTlsWebpkiRoots
  else .none

/-- A host in the brackets of an IPv6 literal. -/
def Bracketed (host : Str) : Prop := host.head? = some '[' ∧ host.getLast? = some ']'

section Wraps

variable (more : feat.Extends feat') {socket : net.Stream} {d : Str} {mode : Mode}

private theorem native_lift (enabled : feat.nativeTls = true) (conn : Option net.NativeTlsConnector) :
    Except.map (MaybeTlsStream.lift more) <$>
        (NativeTls.wrapStream enabled socket d mode conn).translate more.translation =
      NativeTls.wrapStream (more.nativeTls enabled) socket d mode conn := by
  cases mode with
  | plain => rfl
  | tls =>
    have given (conn : net.NativeTlsConnector) : Except.map (MaybeTlsStream.lift more) <$>
          (NativeTls.wrapStream enabled socket d .tls (some conn)).translate more.translation =
        NativeTls.wrapStream (more.nativeTls enabled) socket d .tls (some conn) := by
      refine congrArg (Program.perform _) (funext fun answer => ?_)
      cases answer <;> rfl
    cases conn with
    | some conn => exact given conn
    | none =>
      refine congrArg (Program.perform _) (funext fun made => ?_)
      cases made with
      | error e => rfl
      | ok conn => exact given conn

private theorem defaultConfig_lift (native : feat.rustlsTlsNativeRoots = feat'.rustlsTlsNativeRoots)
    (webpki : feat.rustlsTlsWebpkiRoots = feat'.rustlsTlsWebpkiRoots) :
    (Rustls.defaultConfig : net.Io feat (Except WsError net.ClientConfig)).translate more.translation =
      Rustls.defaultConfig := by
  unfold Rustls.defaultConfig
  rw [native, webpki]
  split
  · refine congrArg (Program.perform _) (funext fun loaded => ?_)
    exact Program.translate_ite _ rfl rfl
  · rfl

private theorem rustls_lift (enabled : feat.rustlsTls = true) (conn : Option net.ClientConfig)
    (roots : conn = none → feat.rustlsTlsNativeRoots = feat'.rustlsTlsNativeRoots ∧
      feat.rustlsTlsWebpkiRoots = feat'.rustlsTlsWebpkiRoots) :
    Except.map (MaybeTlsStream.lift more) <$>
        (Rustls.wrapStream enabled socket d mode conn).translate more.translation =
      Rustls.wrapStream (more.rustlsTls enabled) socket d mode conn := by
  cases mode with
  | plain => rfl
  | tls =>
    have given (config : net.ClientConfig) : Except.map (MaybeTlsStream.lift more) <$>
          (Rustls.wrapStream enabled socket d .tls (some config)).translate more.translation =
        Rustls.wrapStream (more.rustlsTls enabled) socket d .tls (some config) := by
      refine congrArg (Program.perform _) (funext fun name => ?_)
      cases name with
      | none => rfl
      | some name =>
        refine congrArg (Program.perform _) (funext fun answer => ?_)
        cases answer <;> rfl
    cases conn with
    | some config => exact given config
    | none =>
      obtain ⟨native, webpki⟩ := roots rfl
      change _ <$> (Rustls.defaultConfig >>= _).translate more.translation = Rustls.defaultConfig >>= _
      rw [Program.translate_bind, defaultConfig_lift more native webpki, map_bind]
      refine congrArg (Rustls.defaultConfig >>= ·) (funext fun made => ?_)
      cases made with
      | error e => rfl
      | ok config => exact given config

private theorem plain_lift : Except.map (MaybeTlsStream.lift more) <$>
      (Plain.wrapStream socket mode : net.Io feat (Except WsError (MaybeTlsStream feat net))).translate
        more.translation = Plain.wrapStream socket mode := by
  cases mode <;> rfl

private theorem wrapStream_plain {connector : Option (Connector feat net)} :
    wrapStream socket d .plain connector = return .ok (.plain socket) := by
  unfold wrapStream
  repeat' split
  all_goals rfl

/-- A build uses no TLS of its own exactly where it has none. -/
private theorem defaultTls_eq_none_iff :
    feat.defaultTls = .none ↔ feat.nativeTls = false ∧ feat.rustlsTls = false := by
  unfold Features.defaultTls
  split_ifs <;> simp_all

private theorem wrapStream_none_native (native : feat.nativeTls = true) :
    wrapStream socket d mode (none : Option (Connector feat net)) = NativeTls.wrapStream native socket d mode none :=
  dif_pos native

private theorem wrapStream_none_rustls (noNative : feat.nativeTls = false) (rustls : feat.rustlsTls = true) :
    wrapStream socket d mode (none : Option (Connector feat net)) = Rustls.wrapStream rustls socket d mode none :=
  (dif_neg (by simp [noNative])).trans (dif_pos rustls)

private theorem wrapStream_none_plain (noNative : feat.nativeTls = false) (noRustls : feat.rustlsTls = false) :
    wrapStream socket d mode (none : Option (Connector feat net)) = Plain.wrapStream socket mode :=
  (dif_neg (by simp [noNative])).trans (dif_neg (by simp [noRustls]))

private theorem Features.Extends.defaultTls (more : feat.Extends feat') (some : feat.defaultTls ≠ .none) :
    feat'.defaultTls ≠ .none := by
  intro none
  obtain ⟨noNative, noRustls⟩ := defaultTls_eq_none_iff.mp none
  refine some (defaultTls_eq_none_iff.mpr ⟨?_, ?_⟩)
  · by_contra native
    simp [more.nativeTls (by simpa using native)] at noNative
  · by_contra rustls
    simp [more.rustlsTls (by simpa using rustls)] at noRustls

/-- The two builds wrap a stream alike: the one names the same domain or knows no TLS, and without a connector they
use the same default. -/
private theorem wrapStream_lift (socket : net.Stream) {d' : Str} {connector : Option (Connector feat net)}
    (named : feat.defaultTls ≠ .none → d = d')
    (default : connector = none → mode = .tls → feat.defaultTls = feat'.defaultTls) :
    Except.map (MaybeTlsStream.lift more) <$> (wrapStream socket d mode connector).translate more.translation =
      wrapStream socket d' mode (connector.map (Connector.lift more)) := by
  cases mode with
  | plain =>
    rw [wrapStream_plain, wrapStream_plain]
    rfl
  | tls =>
    cases connector with
    | some connector =>
      cases connector with
      | plain =>
        simp only [wrapStream, Option.map_some, Connector.lift]
        exact plain_lift more
      | nativeTls enabled conn =>
        obtain rfl : d = d' := named (by simp [defaultTls_eq_none_iff, enabled])
        simp only [wrapStream, Option.map_some, Connector.lift]
        exact native_lift more enabled (some conn)
      | rustls enabled conn =>
        obtain rfl : d = d' := named (by simp [defaultTls_eq_none_iff, enabled])
        simp only [wrapStream, Option.map_some, Connector.lift]
        exact rustls_lift more enabled (some conn) (by simp)
    | none =>
      have same := default rfl rfl
      rw [Option.map_none]
      cases native : feat.nativeTls with
      | true =>
        obtain rfl : d = d' := named (by simp [defaultTls_eq_none_iff, native])
        rw [wrapStream_none_native native, wrapStream_none_native (more.nativeTls native)]
        exact native_lift more native none
      | false =>
        have native' : feat'.nativeTls = false := by
          by_contra native'
          unfold Features.defaultTls at same
          split_ifs at same <;> simp_all
        cases rustls : feat.rustlsTls with
        | true =>
          have rustls' := more.rustlsTls rustls
          have roots : feat.rustlsTlsNativeRoots = feat'.rustlsTlsNativeRoots ∧
              feat.rustlsTlsWebpkiRoots = feat'.rustlsTlsWebpkiRoots := by
            simpa [Features.defaultTls, native, native', rustls, rustls'] using same
          obtain rfl : d = d' := named (by simp [defaultTls_eq_none_iff, rustls])
          rw [wrapStream_none_rustls native rustls, wrapStream_none_rustls native' rustls']
          exact rustls_lift more rustls none fun _ => roots
        | false =>
          have rustls' : feat'.rustlsTls = false := by
            have none : feat.defaultTls = .none := defaultTls_eq_none_iff.mpr ⟨native, rustls⟩
            exact (defaultTls_eq_none_iff.mp (same ▸ none)).2
          rw [wrapStream_none_plain native rustls, wrapStream_none_plain native' rustls']
          exact plain_lift more

end Wraps

section Attempt

variable (more : feat.Extends feat') {request : net.Request} {config : Option net.WebSocketConfig}
  {disableNagle : Bool} {connector : Option (Connector feat net)} {socket : net.Stream} {host : Str}

/-- Where the URI names a host, there is a domain; it is read off the host where the build has TLS. -/
private theorem exists_named (feat : Features) (named : net.host (net.uri request) = some host) :
    ∃ d, (if feat.nativeTls = true ∨ feat.rustlsTls = true then domain feat request else .ok []) = .ok d ∧
      (feat.defaultTls ≠ .none → domain feat request = .ok d) := by
  obtain ⟨d, read⟩ : ∃ d, domain feat request = .ok d := exists_domain named
  by_cases tls : feat.nativeTls = true ∨ feat.rustlsTls = true
  · exact ⟨d, by rw [if_pos tls, read], fun _ => read⟩
  · refine ⟨[], if_neg tls, fun some => (some (defaultTls_eq_none_iff.mpr ?_)).elim⟩
    simpa using tls

/-- What is done with a stream once it is wrapped, or could not be. -/
def handOver (request : net.Request) (config : Option net.WebSocketConfig) :
    Except WsError (MaybeTlsStream feat net) → net.Io feat (Except WsError (net.WebSocket × net.Response))
  | .error e => return .error e
  | .ok stream => (NetOp.clientAsyncWithConfig request stream config).perform

private theorem clientAsyncTls_eq {d : Str} {mode : Mode}
    (read : (if feat.nativeTls = true ∨ feat.rustlsTls = true then domain feat request else .ok []) = .ok d)
    (moded : net.uriMode (net.uri request) = .ok mode) :
    clientAsyncTlsWithConfig (.ok request) socket config connector =
      wrapStream socket d mode connector >>= handOver request config := by
  unfold clientAsyncTlsWithConfig
  dsimp only
  rw [read]
  dsimp only
  rw [moded]
  dsimp only
  refine congrArg _ (funext fun made => ?_)
  cases made <;> rfl

private theorem clientAsyncTls_lift (named : net.host (net.uri request) = some host)
    (same : domain feat request = domain feat' request)
    (default : connector = none → net.uriMode (net.uri request) = .ok .tls → feat.defaultTls = feat'.defaultTls) :
    (clientAsyncTlsWithConfig (.ok request) socket config connector).translate more.translation =
      clientAsyncTlsWithConfig (.ok request) socket config (connector.map (Connector.lift more)) := by
  obtain ⟨d, read, names⟩ := exists_named feat named
  obtain ⟨d', read', names'⟩ := exists_named feat' named
  have alike (some : feat.defaultTls ≠ .none) : d = d' :=
    Except.ok.inj ((names some).symm.trans (same.trans (names' (more.defaultTls some))))
  cases moded : net.uriMode (net.uri request) with
  | error e =>
    unfold clientAsyncTlsWithConfig
    dsimp only
    rw [read, read']
    dsimp only
    rw [moded]
    rfl
  | ok mode =>
    have wrapped := wrapStream_lift more socket alike fun given tls => default given (tls ▸ moded)
    rw [clientAsyncTls_eq read moded, clientAsyncTls_eq read' moded, Program.translate_bind, ← wrapped, bind_map_left]
    refine congrArg _ (funext fun made => ?_)
    cases made <;> rfl

/-- What the default TLS of a build performs first. -/
def DefaultTls.first? : DefaultTls → Option (NetOp feat net)
  | .none => Option.none
  | .nativeTls => some .nativeTlsConnector
  | .rustls true _ => some .loadNativeCerts
  | .rustls false webpkiRoots => some (.clientConfig [] webpkiRoots)

private theorem first?_default {d : Str} :
    (wrapStream socket d .tls (none : Option (Connector feat net)) >>= handOver request config).first? =
      feat.defaultTls.first? := by
  unfold Features.defaultTls
  cases native : feat.nativeTls with
  | true =>
    rw [wrapStream_none_native native]
    rfl
  | false =>
    cases rustls : feat.rustlsTls with
    | true =>
      rw [wrapStream_none_rustls native rustls]
      simp only [Rustls.wrapStream, Rustls.defaultConfig]
      cases roots : feat.rustlsTlsNativeRoots <;> rfl
    | false =>
      rw [wrapStream_none_plain native rustls]
      rfl

/-- The first operation tells the defaults apart, but for the webpki roots beside native ones. -/
private theorem eq_or_nativeRoots {chosen chosen' : DefaultTls}
    (first : (chosen.first? : Option (NetOp feat net)).map (NetOp.lift more) = chosen'.first?) :
    chosen = chosen' ∨ ∃ webpki webpki', chosen = .rustls true webpki ∧ chosen' = .rustls true webpki' := by
  rcases chosen with _ | _ | ⟨_ | _, webpki⟩ <;> rcases chosen' with _ | _ | ⟨_ | _, webpki'⟩ <;>
    simp_all [DefaultTls.first?, NetOp.lift]

/-- Native roots are loaded first; if there are none, the webpki roots decide whether that is an error. -/
private theorem loads (request : net.Request) (config : Option net.WebSocketConfig) (socket : net.Stream) (d : Str)
    {webpki : Bool} (chosen : feat.defaultTls = .rustls true webpki) :
    ∃ next : List net.Certificate × String → net.Io feat (Except WsError (net.WebSocket × net.Response)),
      wrapStream socket d .tls none >>= handOver request config = .perform .loadNativeCerts next ∧
        (next ([], "")).first? = if webpki then some (.clientConfig [] true) else none := by
  unfold Features.defaultTls at chosen
  split_ifs at chosen with native rustls
  obtain ⟨roots, rfl⟩ := DefaultTls.rustls.inj chosen
  rw [wrapStream_none_rustls (by simpa using native) rustls]
  simp only [Rustls.wrapStream, Rustls.defaultConfig, roots, ↓reduceIte]
  refine ⟨_, rfl, ?_⟩
  cases webpki : feat.rustlsTlsWebpkiRoots <;> rfl

/-- Conversely, for `wss` without a connector, the builds go the same way only with the same default. -/
private theorem defaultTls_of_lift (named : net.host (net.uri request) = some host)
    (moded : net.uriMode (net.uri request) = .ok .tls)
    (same : (clientAsyncTlsWithConfig (.ok request) socket config none).translate more.translation =
      clientAsyncTlsWithConfig (.ok request) socket config none) : feat.defaultTls = feat'.defaultTls := by
  obtain ⟨d, read, -⟩ := exists_named feat named
  obtain ⟨d', read', -⟩ := exists_named feat' named
  rw [clientAsyncTls_eq read moded, clientAsyncTls_eq read' moded] at same
  have first := congrArg Program.first? same
  rw [Program.first?_translate, first?_default, first?_default] at first
  rcases eq_or_nativeRoots more first with alike | ⟨webpki, webpki', chosen, chosen'⟩
  · exact alike
  · obtain ⟨next, loaded, after⟩ := loads request config socket d chosen
    obtain ⟨next', loaded', after'⟩ := loads request config socket d' chosen'
    rw [loaded, loaded', Program.translate_perform] at same
    have without : (next ([], "")).translate more.translation = next' ([], "") :=
      Program.perform_inj_iff.mp same ([], "")
    have then' := congrArg Program.first? without
    rw [Program.first?_translate, after, after'] at then'
    have roots : webpki = webpki' := by
      cases webpki <;> cases webpki' <;> first | rfl | cases then'
    rw [chosen, chosen', roots]

end Attempt

/-- The two builds read the URI alike, and choose the same TLS where the choice is theirs. -/
def Agrees (feat feat' : Features) (request : net.Request) (connector : Option (Connector feat net)) : Prop :=
  ∀ host p, net.host (net.uri request) = some host → port request = some p →
    (Bracketed host → feat.rustlsTls = feat'.rustlsTls) ∧
      (connector = none → net.uriMode (net.uri request) = .ok .tls → feat.defaultTls = feat'.defaultTls)

section Connect

variable {request : net.Request} {config : Option net.WebSocketConfig} {disableNagle : Bool}
  {connector : Option (Connector feat net)} {host d d' : Str}

private theorem trim_ne (bracketed : Bracketed host) : host.tail.dropLast ≠ host := by
  intro same
  have shorter := congrArg List.length same
  rw [List.length_dropLast, List.length_tail] at shorter
  have empty : host = [] := List.length_eq_zero_iff.mp (by omega)
  simp [Bracketed, empty] at bracketed

/-- The domain of a host depends on a feature only where the host is bracketed. -/
private theorem domain_eq_iff (named : net.host (net.uri request) = some host) :
    domain feat request = domain feat' request ↔ (Bracketed host → feat.rustlsTls = feat'.rustlsTls) := by
  unfold domain
  rw [named]
  dsimp only
  by_cases bracketed : Bracketed host
  · have differ := trim_ne bracketed
    obtain ⟨opened, closed⟩ := bracketed
    cases feat.rustlsTls <;> cases feat'.rustlsTls <;>
      simp [Bracketed, opened, closed, differ, differ.symm]
  · have plain (feat : Features) : ¬(feat.rustlsTls = true ∧ host.head? = some '[' ∧ host.getLast? = some ']') :=
      fun trims => bracketed trims.2
    rw [if_neg (plain feat), if_neg (plain feat')]
    simp [bracketed]

private theorem addr_injective {p : ℕ} (same : addr d p = addr d' p) : d = d' := List.append_cancel_right same

private theorem connected_lift_iff (more : feat.Extends feat') {socket : net.Stream}
    (named : net.host (net.uri request) = some host) (same : domain feat request = domain feat' request) :
    (connected request config disableNagle connector socket).translate more.translation =
        connected request config disableNagle (connector.map (Connector.lift more)) socket ↔
      (connector = none → net.uriMode (net.uri request) = .ok .tls → feat.defaultTls = feat'.defaultTls) := by
  have plain : (clientAsyncTlsWithConfig (.ok request) socket config connector).translate more.translation =
        clientAsyncTlsWithConfig (.ok request) socket config (connector.map (Connector.lift more)) ↔
      (connector = none → net.uriMode (net.uri request) = .ok .tls → feat.defaultTls = feat'.defaultTls) := by
    constructor
    · rintro unchanged rfl moded
      exact defaultTls_of_lift more named moded unchanged
    · exact clientAsyncTls_lift more named same
  cases disableNagle with
  | false => exact plain
  | true =>
    rw [← plain]
    refine Program.perform_inj_iff.trans ⟨fun unchanged => unchanged (.ok ()), fun unchanged answer => ?_⟩
    cases answer with
    | error e => rfl
    | ok done => exact unchanged

/-- A request that is not refused is dialled first. -/
private theorem exists_dialled (config : Option net.WebSocketConfig) (disableNagle : Bool)
    (connector : Option (Connector feat net)) {p : ℕ} (read : domain feat request = .ok d)
    (chosen : port request = some p) :
    ∃ next : Except IoError net.Stream → net.Io feat (Except WsError (net.WebSocket × net.Response)),
      connect request config disableNagle connector = .perform (.tcpConnect (addr d p)) next ∧
        (∀ e, next (.error e) = return .error (.io e)) ∧
        ∀ socket, next (.ok socket) = connected request config disableNagle connector socket := by
  unfold connect
  rw [read]
  dsimp only
  rw [chosen]
  exact ⟨_, rfl, fun e => rfl, fun socket => rfl⟩

private theorem connect_unchanged_iff [Nonempty net.Stream] (more : feat.Extends feat') :
    (connect request config disableNagle connector).translate more.translation =
        connect request config disableNagle (connector.map (Connector.lift more)) ↔
      Agrees feat feat' request connector := by
  cases named : net.host (net.uri request) with
  | none =>
    have unnamed (feat : Features) : domain feat request = .error (.url .noHostName) := by
      unfold domain
      rw [named]
    simp [connect, unnamed, Agrees, named]
  | some host =>
    obtain ⟨d, read⟩ : ∃ d, domain feat request = .ok d := exists_domain named
    obtain ⟨d', read'⟩ : ∃ d, domain feat' request = .ok d := exists_domain named
    cases chosen : port request with
    | none => simp [connect, read, read', chosen, Agrees]
    | some p =>
      obtain ⟨next, dials, fails, goesOn⟩ := exists_dialled config disableNagle connector read chosen
      obtain ⟨next', dials', fails', goesOn'⟩ :=
        exists_dialled config disableNagle (connector.map (Connector.lift more)) read' chosen
      have agrees : Agrees feat feat' request connector ↔ domain feat request = domain feat' request ∧
          (connector = none → net.uriMode (net.uri request) = .ok .tls → feat.defaultTls = feat'.defaultTls) := by
        simp [Agrees, named, chosen, domain_eq_iff named]
      rw [agrees, dials, dials', Program.translate_perform]
      constructor
      · intro unchanged
        have dialled : (.tcpConnect (addr d p) : NetOp feat' net) = .tcpConnect (addr d' p) :=
          Option.some.inj (congrArg Program.first? unchanged)
        obtain rfl := addr_injective (NetOp.tcpConnect.inj dialled)
        have same : domain feat request = domain feat' request := read.trans read'.symm
        obtain ⟨socket⟩ := ‹Nonempty net.Stream›
        have after : (next (.ok socket)).translate more.translation = next' (.ok socket) :=
          Program.perform_inj_iff.mp unchanged (.ok socket)
        rw [goesOn, goesOn'] at after
        exact ⟨same, (connected_lift_iff more named same).mp after⟩
      · rintro ⟨same, default⟩
        obtain rfl : d = d' := Except.ok.inj (read.symm.trans (same.trans read'))
        refine Program.perform_inj_iff.mpr fun answer => ?_
        cases answer with
        | error e =>
          change (next (.error e)).translate more.translation = _
          rw [fails, fails']
          rfl
        | ok socket =>
          change (next (.ok socket)).translate more.translation = _
          rw [goesOn, goesOn']
          exact (connected_lift_iff more named same).mpr default

end Connect

/-- More features change nothing that an attempt does, on any answers, exactly where the builds agree. -/
theorem attempt_unchanged_iff [Nonempty net.Stream] (more : feat.Extends feat') {request : Except WsError net.Request}
    {config : Option net.WebSocketConfig} {disableNagle : Bool} {connector : Option (Connector feat net)} :
    (connectAsyncTlsWithConfig request config disableNagle connector).translate more.translation =
        connectAsyncTlsWithConfig request config disableNagle (connector.map (Connector.lift more)) ↔
      ∀ accepted, request = .ok accepted → Agrees feat feat' accepted connector := by
  cases request with
  | error e => simp [connectAsyncTlsWithConfig]
  | ok accepted =>
    simp only [connectAsyncTlsWithConfig, Except.ok.injEq, forall_eq']
    exact connect_unchanged_iff more

/-- `wss://[::1]:8443` without a connector: with native TLS compiled in, another default is used. -/
theorem attempt_unchanged_iff_native : ∃ more : Features.noTls.Extends { Features.noTls with nativeTls := true },
    (connectAsyncTlsWithConfig (.ok literalRequest) none false
      (none : Option (Connector .noTls Net.parsed))).translate more.translation ≠
        connectAsyncTlsWithConfig (.ok literalRequest) none false none := by
  refine ⟨⟨nofun, nofun, nofun, nofun⟩, fun unchanged => ?_⟩
  have : Nonempty Net.parsed.Stream := ⟨()⟩
  obtain ⟨-, same⟩ := (attempt_unchanged_iff _).mp unchanged _ rfl literalAuthority.host 8443 rfl (by decide)
  exact absurd (same rfl rfl) (by decide)

end TokioTungstenite
