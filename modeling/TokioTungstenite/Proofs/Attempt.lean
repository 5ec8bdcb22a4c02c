import TokioTungstenite.Execution.Accounting
import TokioTungstenite.Proofs.UrlErrors

/-! # What a connection attempt does

Every operation of an attempt may fail. The first failure is the last operation, and its error, mapped as the code
maps it, is the result; any other error was raised before the operation it forbids. And the handshake of tungstenite
runs on one stream only: the dialled socket itself for `ws`, and for `wss` what a TLS handshake made of that socket,
for the host of the URI and with the connector that was given.
-/

namespace TokioTungstenite

open Execution

variable {feat : Features} {net : Net}

/-! ## Failures -/

/-- An answer that is a failure, with the error the code makes of it. Finding no native root certificates is one only
without the feature for the webpki roots. -/
def NetOp.failure : (op : NetOp feat net) → op.Answer → Option WsError
  | .tcpConnect _, .error e => some (.io e)
  | .setNodelay _, .error e => some (.io e)
  | .nativeTlsConnector, .error e => some (.tls (.native e))
  | .nativeTlsConnect _ _ _, .error e => some (.tls (.native e))
  | .loadNativeCerts, (certs, errors) =>
      if certs.isEmpty ∧ feat.rustlsTlsWebpkiRoots = false then
        some (.io ⟨.notFound, "no native root CA certificates found (errors: " ++ errors ++ ")"⟩)
      else none
  | .serverName _, none => some (.tls .invalidDnsName)
  | .rustlsConnect _ _ _, .error e => some (.io e)
  | .clientAsyncWithConfig _ _ _, .error e => some e
  | _, _ => none

section Stops

variable {socket : net.Stream} {d : Str} {mode : Mode} {connector : Option (Connector feat net)}

variable {request : net.Request} {config : Option net.WebSocketConfig} {disableNagle : Bool}

end Stops

/-- How a default rustls configuration is made: of the native root certificates, if those are to be used, and of the
webpki roots. -/
inductive DefaultConfig : List (NetEvent feat net) → net.ClientConfig → Prop
  | nativeRoots (roots : feat.rustlsTlsNativeRoots = true) (certs : List net.Certificate) (errors : String)
      (config : net.ClientConfig) (found : certs.isEmpty = false ∨ feat.rustlsTlsWebpkiRoots = true) :
      DefaultConfig
        [⟨.loadNativeCerts, (certs, errors)⟩, ⟨.clientConfig certs feat.rustlsTlsWebpkiRoots, config⟩] config
  | webpkiRoots (roots : feat.rustlsTlsNativeRoots = false) (config : net.ClientConfig) :
      DefaultConfig [⟨.clientConfig [] feat.rustlsTlsWebpkiRoots, config⟩] config

/-- What a TLS handshake makes of a socket, for the domain: with the connector that was given, or with a default one
of the first TLS that is compiled in. The plain connector makes nothing of it. -/
inductive Encrypted (socket : net.Stream) (d : Str) :
    Option (Connector feat net) → List (NetEvent feat net) → MaybeTlsStream feat net → Prop
  | native (enabled : feat.nativeTls = true) (connector : net.NativeTlsConnector) (s : net.NativeTlsStream) :
      Encrypted socket d (some (.nativeTls enabled connector)) [⟨.nativeTlsConnect connector d socket, .ok s⟩]
        (.nativeTls enabled s)
  | nativeDefault (enabled : feat.nativeTls = true) (connector : net.NativeTlsConnector) (s : net.NativeTlsStream) :
      Encrypted socket d none
        [⟨.nativeTlsConnector, .ok connector⟩, ⟨.nativeTlsConnect connector d socket, .ok s⟩] (.nativeTls enabled s)
  | rustls (enabled : feat.rustlsTls = true) (config : net.ClientConfig) (name : net.ServerName)
      (s : net.RustlsStream) :
      Encrypted socket d (some (.rustls enabled config))
        [⟨.serverName d, some name⟩, ⟨.rustlsConnect config name socket, .ok s⟩] (.rustls enabled s)
  | rustlsDefault (noNative : feat.nativeTls = false) (enabled : feat.rustlsTls = true)
      {made : List (NetEvent feat net)} {config : net.ClientConfig} (name : net.ServerName) (s : net.RustlsStream) :
      DefaultConfig made config →
      Encrypted socket d none (made ++ [⟨.serverName d, some name⟩, ⟨.rustlsConnect config name socket, .ok s⟩])
        (.rustls enabled s)

/-- What the mode of a URI makes of a socket: nothing else for `ws`, and never the socket itself for `wss`. -/
inductive Secured (socket : net.Stream) (d : Str) (connector : Option (Connector feat net)) :
    Mode → List (NetEvent feat net) → MaybeTlsStream feat net → Prop
  | plain : Secured socket d connector .plain [] (.plain socket)
  | tls {made : List (NetEvent feat net)} {stream : MaybeTlsStream feat net} :
      Encrypted socket d connector made stream → Secured socket d connector .tls made stream

/-- The operation is not the handshake of tungstenite. -/
def NetOp.NoHandshake : NetOp feat net → Prop
  | .clientAsyncWithConfig _ _ _ => False
  | _ => True

/-- A run that succeeds, or gets as far as the handshake of tungstenite. -/
def ReachesHandshake {α : Type} (es : List (NetEvent feat net)) (result : Except WsError α) : Prop :=
  (∃ made, result = .ok made) ∨ ∃ event ∈ es, ¬ event.1.NoHandshake

section ReachesHandshake

variable {α : Type} {event : NetEvent feat net} {es : List (NetEvent feat net)} {result : Except WsError α}

private theorem not_reachesHandshake {e : WsError} (none : ∀ event ∈ es, event.1.NoHandshake) :
    ¬ ReachesHandshake es (.error e : Except WsError α) := by
  rintro (⟨made, ⟨⟩⟩ | ⟨event, mem, handshakes⟩)
  exact handshakes (none event mem)

private theorem ReachesHandshake.cons (reaches : ReachesHandshake es result) : ReachesHandshake (event :: es) result :=
  reaches.imp_right fun ⟨event, mem, handshakes⟩ => ⟨event, List.mem_cons_of_mem _ mem, handshakes⟩

private theorem ReachesHandshake.tail (other : event.1.NoHandshake)
    (reaches : ReachesHandshake (event :: es) result) : ReachesHandshake es result := by
  refine reaches.imp_right fun ⟨handshake, mem, handshakes⟩ => ?_
  rcases List.mem_cons.mp mem with rfl | mem
  · exact (handshakes other).elim
  · exact ⟨handshake, mem, handshakes⟩

end ReachesHandshake

section Wraps

variable {socket : net.Stream} {d : Str} {mode : Mode} {connector : Option (Connector feat net)}
  {es : List (NetEvent feat net)} {stream : MaybeTlsStream feat net}

private theorem native_ok_iff (enabled : feat.nativeTls = true) (conn : net.NativeTlsConnector) :
    net.Runs (NativeTls.wrapStream enabled socket d .tls (some conn)) es (.ok stream) ↔
      ∃ s, es = [⟨.nativeTlsConnect conn d socket, .ok s⟩] ∧ stream = .nativeTls enabled s := by
  refine runs_perform_iff.trans ⟨?_, ?_⟩
  · rintro ⟨answer, rest, rfl, run⟩
    cases answer with
    | error e => cases (runs_return_iff.mp run).2
    | ok s =>
      obtain ⟨rfl, same⟩ := runs_return_iff.mp run
      exact ⟨s, rfl, Except.ok.inj same⟩
  · rintro ⟨s, rfl, rfl⟩
    exact ⟨.ok s, [], rfl, runs_return_iff.mpr ⟨rfl, rfl⟩⟩

private theorem native_none_iff (enabled : feat.nativeTls = true) :
    net.Runs (NativeTls.wrapStream enabled socket d .tls none) es (.ok stream) ↔
      ∃ conn rest, es = ⟨.nativeTlsConnector, .ok conn⟩ :: rest ∧
        net.Runs (NativeTls.wrapStream enabled socket d .tls (some conn)) rest (.ok stream) := by
  refine runs_perform_iff.trans ⟨?_, ?_⟩
  · rintro ⟨answer, rest, rfl, run⟩
    cases answer with
    | error e => cases (runs_return_iff.mp run).2
    | ok conn => exact ⟨conn, rest, rfl, run⟩
  · rintro ⟨conn, rest, rfl, run⟩
    exact ⟨.ok conn, rest, rfl, run⟩

private theorem rustls_ok_iff (enabled : feat.rustlsTls = true) (config : net.ClientConfig) :
    net.Runs (Rustls.wrapStream enabled socket d .tls (some config)) es (.ok stream) ↔
      ∃ name s, es = [⟨.serverName d, some name⟩, ⟨.rustlsConnect config name socket, .ok s⟩] ∧
        stream = .rustls enabled s := by
  refine runs_perform_iff.trans ⟨?_, ?_⟩
  · rintro ⟨answer, rest, rfl, run⟩
    cases answer with
    | none => cases (runs_return_iff.mp run).2
    | some name =>
      obtain ⟨answer, rest, rfl, tail⟩ := runs_perform_iff.mp run
      cases answer with
      | error e => cases (runs_return_iff.mp tail).2
      | ok s =>
        obtain ⟨rfl, same⟩ := runs_return_iff.mp tail
        exact ⟨name, s, rfl, Except.ok.inj same⟩
  · rintro ⟨name, s, rfl, rfl⟩
    exact ⟨some name, _, rfl, runs_perform_iff.mpr ⟨.ok s, [], rfl, runs_return_iff.mpr ⟨rfl, rfl⟩⟩⟩

private theorem defaultConfig_ok_iff {config : net.ClientConfig} :
    net.Runs (Rustls.defaultConfig : net.Io feat (Except WsError net.ClientConfig)) es (.ok config) ↔
      DefaultConfig es config := by
  unfold Rustls.defaultConfig
  constructor
  · intro run
    split at run
    · next roots =>
      obtain ⟨⟨certs, errors⟩, rest, rfl, tail⟩ := runs_perform_iff.mp run
      dsimp only at tail
      split at tail
      · cases (runs_return_iff.mp tail).2
      · next found =>
        obtain ⟨made, rest, rfl, done⟩ := runs_perform_iff.mp tail
        obtain ⟨rfl, same⟩ := runs_return_iff.mp done
        obtain rfl := Except.ok.inj same
        exact .nativeRoots roots certs errors config (by grind)
    · next roots =>
      obtain ⟨made, rest, rfl, done⟩ := runs_perform_iff.mp run
      obtain ⟨rfl, same⟩ := runs_return_iff.mp done
      obtain rfl := Except.ok.inj same
      exact .webpkiRoots (by simpa using roots) config
  · rintro (⟨roots, certs, errors, config, found⟩ | ⟨roots, config⟩)
    · have fine : ¬ (certs.isEmpty = true ∧ feat.rustlsTlsWebpkiRoots = false) := by grind
      rw [if_pos roots]
      refine runs_perform_iff.mpr ⟨(certs, errors), _, rfl, ?_⟩
      dsimp only
      rw [if_neg fine]
      exact runs_perform_iff.mpr ⟨config, [], rfl, runs_return_iff.mpr ⟨rfl, rfl⟩⟩
    · rw [if_neg (by simp [roots])]
      exact runs_perform_iff.mpr ⟨config, [], rfl, runs_return_iff.mpr ⟨rfl, rfl⟩⟩

private theorem rustls_none_iff (enabled : feat.rustlsTls = true) :
    net.Runs (Rustls.wrapStream enabled socket d .tls none) es (.ok stream) ↔
      ∃ made config rest, es = made ++ rest ∧ DefaultConfig made config ∧
        net.Runs (Rustls.wrapStream enabled socket d .tls (some config)) rest (.ok stream) := by
  refine Exec.bind_iff.trans ⟨?_, ?_⟩
  · rintro ⟨made, answer, middle, rest, rfl, run, tail⟩
    cases answer with
    | error e => cases (runs_return_iff.mp tail).2
    | ok config => exact ⟨made, config, rest, rfl, defaultConfig_ok_iff.mp run, tail⟩
  · rintro ⟨made, config, rest, rfl, run, tail⟩
    exact ⟨made, .ok config, (), rest, rfl, defaultConfig_ok_iff.mpr run, tail⟩

private theorem wraps_plain_iff :
    net.Runs (wrapStream socket d .plain connector) es (.ok stream) ↔ es = [] ∧ stream = .plain socket := by
  have at_once : wrapStream socket d .plain connector = pure (.ok (.plain socket)) := by
    unfold wrapStream
    repeat' split
    all_goals rfl
  rw [at_once, runs_return_iff, Except.ok.injEq]

private theorem wraps_tls_iff :
    net.Runs (wrapStream socket d .tls connector) es (.ok stream) ↔ Encrypted socket d connector es stream := by
  constructor
  · intro run
    rcases connector with _ | _ | ⟨enabled, conn⟩ | ⟨enabled, config⟩
    · unfold wrapStream at run
      dsimp only at run
      split at run
      · next enabled =>
        obtain ⟨conn, rest, rfl, tail⟩ := (native_none_iff enabled).mp run
        obtain ⟨s, rfl, rfl⟩ := (native_ok_iff enabled conn).mp tail
        exact .nativeDefault enabled conn s
      · next noNative =>
        split at run
        · next enabled =>
          obtain ⟨made, config, rest, rfl, default, tail⟩ := (rustls_none_iff enabled).mp run
          obtain ⟨name, s, rfl, rfl⟩ := (rustls_ok_iff enabled config).mp tail
          exact .rustlsDefault (by simpa using noNative) enabled name s default
        · cases (runs_return_iff.mp run).2
    · cases (runs_return_iff.mp run).2
    · obtain ⟨s, rfl, rfl⟩ := (native_ok_iff enabled conn).mp run
      exact .native enabled conn s
    · obtain ⟨name, s, rfl, rfl⟩ := (rustls_ok_iff enabled config).mp run
      exact .rustls enabled config name s
  · intro encrypted
    cases encrypted with
    | native enabled conn s => exact (native_ok_iff enabled conn).mpr ⟨s, rfl, rfl⟩
    | nativeDefault enabled conn s =>
      unfold wrapStream
      dsimp only
      rw [dif_pos enabled]
      exact (native_none_iff enabled).mpr ⟨conn, _, rfl, (native_ok_iff enabled conn).mpr ⟨s, rfl, rfl⟩⟩
    | rustls enabled config name s => exact (rustls_ok_iff enabled config).mpr ⟨name, s, rfl, rfl⟩
    | rustlsDefault noNative enabled name s default =>
      unfold wrapStream
      dsimp only
      rw [dif_neg (by simp [noNative]), dif_pos enabled]
      exact (rustls_none_iff enabled).mpr ⟨_, _, _, rfl, default, (rustls_ok_iff enabled _).mpr ⟨name, s, rfl, rfl⟩⟩

private theorem secured_iff :
    net.Runs (wrapStream socket d mode connector) es (.ok stream) ↔ Secured socket d connector mode es stream := by
  cases mode with
  | plain =>
    rw [wraps_plain_iff]
    constructor
    · rintro ⟨rfl, rfl⟩
      exact .plain
    · rintro ⟨⟩
      exact ⟨rfl, rfl⟩
  | tls =>
    rw [wraps_tls_iff]
    constructor
    · exact .tls
    · rintro (_ | encrypted)
      exact encrypted

/-- TLS is compiled in wherever a stream is encrypted. -/
private theorem compiled_of_encrypted (encrypted : Encrypted socket d connector es stream) :
    feat.nativeTls = true ∨ feat.rustlsTls = true := by
  cases encrypted with
  | native enabled => exact .inl enabled
  | nativeDefault enabled => exact .inl enabled
  | rustls enabled => exact .inr enabled
  | rustlsDefault _ enabled => exact .inr enabled

/-- Without TLS the domain is not looked at. -/
private theorem secured_domain_iff :
    Secured socket (if feat.nativeTls = true ∨ feat.rustlsTls = true then d else []) connector mode es stream ↔
      Secured socket d connector mode es stream := by
  by_cases compiled : feat.nativeTls = true ∨ feat.rustlsTls = true
  · rw [if_pos compiled]
  · constructor
    · rintro (_ | encrypted)
      · exact .plain
      · exact (compiled (compiled_of_encrypted encrypted)).elim
    · rintro (_ | encrypted)
      · exact .plain
      · exact (compiled (compiled_of_encrypted encrypted)).elim

end Wraps

section Handshakes

variable {socket : net.Stream} {d : Str} {mode : Mode} {connector : Option (Connector feat net)}

private theorem native_noHandshake (enabled : feat.nativeTls = true) (conn : Option net.NativeTlsConnector) :
    (NativeTls.wrapStream enabled socket d mode conn).All NetOp.NoHandshake := by
  cases mode with
  | plain => trivial
  | tls =>
    have given (conn : net.NativeTlsConnector) :
        (NativeTls.wrapStream enabled socket d .tls (some conn)).All NetOp.NoHandshake := by
      refine ⟨trivial, fun answer => ?_⟩
      cases answer <;> trivial
    cases conn with
    | some conn => exact given conn
    | none =>
      refine ⟨trivial, fun made => ?_⟩
      cases made with
      | error e => trivial
      | ok conn => exact given conn

private theorem defaultConfig_noHandshake :
    (Rustls.defaultConfig : net.Io feat (Except WsError net.ClientConfig)).All NetOp.NoHandshake := by
  unfold Rustls.defaultConfig
  split
  · refine (Program.All.lift trivial).bind fun loaded => ?_
    dsimp only
    split
    · trivial
    · exact ⟨trivial, fun made => trivial⟩
  · exact ⟨trivial, fun made => trivial⟩

private theorem rustls_noHandshake (enabled : feat.rustlsTls = true) (conn : Option net.ClientConfig) :
    (Rustls.wrapStream enabled socket d mode conn).All NetOp.NoHandshake := by
  cases mode with
  | plain => trivial
  | tls =>
    have given (config : net.ClientConfig) :
        (Rustls.wrapStream enabled socket d .tls (some config)).All NetOp.NoHandshake := by
      refine ⟨trivial, fun name => ?_⟩
      cases name with
      | none => trivial
      | some name =>
        refine ⟨trivial, fun answer => ?_⟩
        cases answer <;> trivial
    cases conn with
    | some config => exact given config
    | none =>
      refine defaultConfig_noHandshake.bind fun made => ?_
      cases made with
      | error e => trivial
      | ok config => exact given config

private theorem wrapStream_noHandshake :
    (wrapStream socket d mode connector).All NetOp.NoHandshake := by
  have plain : (Plain.wrapStream socket mode : net.Io feat _).All NetOp.NoHandshake := by
    cases mode <;> trivial
  unfold wrapStream
  split
  · exact native_noHandshake _ _
  · exact rustls_noHandshake _ _
  · exact plain
  · split
    · exact native_noHandshake _ _
    · split
      · exact rustls_noHandshake _ _
      · exact plain

variable {request : net.Request} {config : Option net.WebSocketConfig} {disableNagle : Bool}
  {es : List (NetEvent feat net)} {result : Except WsError (net.WebSocket × net.Response)}

/-- `client_async_tls_with_config` hands on what the mode makes of its stream, or fails before the handshake. -/
private theorem clientAsyncTls_iff (checked : domain feat request = .ok d) :
    net.Runs (clientAsyncTlsWithConfig (.ok request) socket config connector) es result ∧ ReachesHandshake es result ↔
      ∃ mode tls stream, net.uriMode (net.uri request) = .ok mode ∧ Secured socket d connector mode tls stream ∧
        es = tls ++ [⟨.clientAsyncWithConfig request stream config, result⟩] := by
  have again : (if feat.nativeTls = true ∨ feat.rustlsTls = true then domain feat request else .ok []) =
      .ok (if feat.nativeTls = true ∨ feat.rustlsTls = true then d else []) := checked_again checked
  unfold clientAsyncTlsWithConfig
  dsimp only
  rw [again]
  dsimp only
  cases moded : net.uriMode (net.uri request) with
  | error e =>
    constructor
    · rintro ⟨run, reaches⟩
      obtain ⟨rfl, rfl⟩ := runs_return_iff.mp run
      exact (not_reachesHandshake (by simp) reaches).elim
    · rintro ⟨mode, tls, stream, ⟨⟩, -⟩
  | ok mode =>
    constructor
    · rintro ⟨run, reaches⟩
      obtain ⟨first, wrapped, middle, rest, rfl, wraps, tail⟩ := Exec.bind_iff.mp run
      cases wrapped with
      | error e =>
        obtain ⟨rfl, rfl⟩ := runs_return_iff.mp tail
        rw [List.append_nil] at reaches
        exact (not_reachesHandshake (Exec.good_of_satisfies wrapStream_noHandshake wraps) reaches).elim
      | ok stream =>
        obtain ⟨event, rfl, rfl⟩ := Exec.lift_iff.mp tail
        exact ⟨mode, first, stream, rfl, secured_domain_iff.mp (secured_iff.mp wraps), rfl⟩
    · rintro ⟨mode', tls, stream, same, secured, rfl⟩
      cases same
      have wraps := secured_iff.mpr (secured_domain_iff.mpr secured)
      refine ⟨Exec.bind wraps (Exec.lift_iff.mpr ⟨_, rfl, rfl⟩), .inr ?_⟩
      exact ⟨_, List.mem_append_right _ (List.mem_singleton_self _), id⟩

/-- How Nagle's algorithm is disabled, if that is asked for. -/
def nodelayed (disableNagle : Bool) (socket : net.Stream) : List (NetEvent feat net) :=
  if disableNagle then [⟨.setNodelay socket, .ok ()⟩] else []

private theorem connected_iff (checked : domain feat request = .ok d) :
    net.Runs (connected request config disableNagle connector socket) es result ∧ ReachesHandshake es result ↔
      ∃ mode tls stream, net.uriMode (net.uri request) = .ok mode ∧ Secured socket d connector mode tls stream ∧
        es = nodelayed disableNagle socket ++ tls ++ [⟨.clientAsyncWithConfig request stream config, result⟩] := by
  unfold connected nodelayed
  cases disableNagle with
  | false => exact clientAsyncTls_iff checked
  | true =>
    constructor
    · rintro ⟨run, reaches⟩
      obtain ⟨answer, rest, rfl, tail⟩ := runs_perform_iff.mp run
      cases answer with
      | error e =>
        obtain ⟨rfl, rfl⟩ := runs_return_iff.mp tail
        exact (not_reachesHandshake (List.forall_mem_singleton.mpr (by trivial)) reaches).elim
      | ok done =>
        have shaken := (clientAsyncTls_iff checked).mp ⟨tail, reaches.tail (by trivial)⟩
        obtain ⟨mode, tls, stream, moded, secured, rfl⟩ := shaken
        exact ⟨mode, tls, stream, moded, secured, rfl⟩
    · rintro ⟨mode, tls, stream, moded, secured, rfl⟩
      obtain ⟨run, reaches⟩ := (clientAsyncTls_iff checked).mpr ⟨mode, tls, stream, moded, secured, rfl⟩
      exact ⟨runs_perform_iff.mpr ⟨.ok (), _, rfl, run⟩, reaches.cons⟩

/-- A connection attempt succeeds, or gets as far as the handshake of tungstenite, just as follows: it dials its
endpoint, disables Nagle's algorithm if asked to, makes of the socket what the mode of the URI asks for, and hands
this to the handshake, with the request and the configuration as they were given; the answer is the result. -/
theorem reaches_handshake_iff :
    net.Runs (connect request config disableNagle connector) es result ∧ ReachesHandshake es result ↔
    ∃ d n mode socket tls stream, domain feat request = .ok d ∧ port request = some n ∧
      net.uriMode (net.uri request) = .ok mode ∧ Secured socket d connector mode tls stream ∧
      es = ⟨.tcpConnect (addr d n), .ok socket⟩ ::
        (nodelayed disableNagle socket ++ tls ++ [⟨.clientAsyncWithConfig request stream config, result⟩]) := by
  rw [runs_connect_iff]
  constructor
  · rintro ⟨attempt, reaches⟩
    rcases attempt with
      ⟨e, -, rfl, rfl⟩ | ⟨d, checked, ⟨-, rfl, rfl⟩ | ⟨n, chosen, ⟨e, rfl, rfl⟩ | ⟨socket, rest, rfl, run⟩⟩⟩
    · exact (not_reachesHandshake (by simp) reaches).elim
    · exact (not_reachesHandshake (by simp) reaches).elim
    · exact (not_reachesHandshake (List.forall_mem_singleton.mpr (by trivial)) reaches).elim
    · obtain ⟨mode, tls, stream, moded, secured, rfl⟩ := (connected_iff checked).mp ⟨run, reaches.tail (by trivial)⟩
      exact ⟨d, n, mode, socket, tls, stream, checked, chosen, moded, secured, rfl⟩
  · rintro ⟨d, n, mode, socket, tls, stream, checked, chosen, moded, secured, rfl⟩
    obtain ⟨run, reaches⟩ := (connected_iff checked).mpr ⟨mode, tls, stream, moded, secured, rfl⟩
    exact ⟨.inr ⟨d, checked, .inr ⟨n, chosen, .inr ⟨socket, _, rfl, run⟩⟩⟩, reaches.cons⟩

end Handshakes

end TokioTungstenite
