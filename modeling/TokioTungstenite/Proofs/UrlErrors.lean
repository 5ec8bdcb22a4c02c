import TokioTungstenite.Proofs.Endpoint

/-! # Which URL errors come too late

`client_async_tls_with_config` checks the domain and the mode before it touches its stream, and the plain
connector refuses TLS without touching it either. `connect` dials before it calls that function, so of its own URL
errors only the missing host and the missing port come before the dial: an unsupported scheme with an explicit
port, and `wss` without TLS, are refused after a connection was opened.
-/

namespace TokioTungstenite

open Execution Text

variable {feat : Features} {net : Net}

/-- The handshake of tungstenite answered that error. -/
def NetEvent.Passes (e : UrlError) (event : NetEvent feat net) : Prop :=
  ∃ request stream config, event = ⟨.clientAsyncWithConfig request stream config, .error (.url e)⟩

/-- The result is a URL error that no other crate's operation answered: this crate or `uri_mode` raised it. -/
def RaisedHere {α : Type} (es : List (NetEvent feat net)) (result : Except WsError α) : Prop :=
  ∃ e, result = .error (.url e) ∧ ∀ event ∈ es, ¬ event.Passes e

theorem RaisedHere.tail {α : Type} {event : NetEvent feat net} {es : List (NetEvent feat net)}
    {result : Except WsError α} (raised : RaisedHere (event :: es) result) : RaisedHere es result := by
  obtain ⟨e, refused, notPassed⟩ := raised
  exact ⟨e, refused, fun event mem => notPassed event (List.mem_cons_of_mem _ mem)⟩

/-- The operation may read from or write to the stream. -/
def NetOp.UsesStream : NetOp feat net → Prop
  | .nativeTlsConnect _ _ _ | .rustlsConnect _ _ _ | .clientAsyncWithConfig _ _ _ => True
  | _ => False

/-- No URL error is raised after I/O: `connect` raises none after it opened a connection, and
`client_async_tls_with_config` none after it used its stream. -/
structure UrlCheckedFirst (request : net.Request) (connector : Option (Connector feat net)) : Prop where
  connect : ∀ config disableNagle es result, net.Runs (connect request config disableNagle connector) es result →
    RaisedHere es result → ∀ event ∈ es, ¬ event.Opens
  clientAsyncTls : ∀ stream config es result,
    net.Runs (clientAsyncTlsWithConfig (.ok request) stream config connector) es result →
    RaisedHere es result → ∀ event ∈ es, ¬ event.1.UsesStream

/-- The stream is wrapped by the plain connector: it was asked for, or no TLS is compiled in. -/
def WrapsPlain (connector : Option (Connector feat net)) : Prop :=
  match connector with
  | some .plain => True
  | some _ => False
  | none => feat.nativeTls = false ∧ feat.rustlsTls = false

/-- A check of `client_async_tls_with_config` fails: that of the domain, that of the mode, or the plain connector
on being asked for TLS. -/
def CheckFails (request : net.Request) (connector : Option (Connector feat net)) : Prop :=
  (∃ e, domain feat request = .error e) ∨ (∃ e, net.uriMode (net.uri request) = .error e) ∨
    net.uriMode (net.uri request) = .ok .tls ∧ WrapsPlain connector

/-- The request gets as far as the dial, and is refused after it. -/
def RefusedLate (request : net.Request) (connector : Option (Connector feat net)) : Prop :=
  net.host (net.uri request) ≠ none ∧
    (net.portU16 (net.uri request) ≠ none ∧ net.schemeStr (net.uri request) ≠ some "ws" ∧
        net.schemeStr (net.uri request) ≠ some "wss" ∨
      net.schemeStr (net.uri request) = some "wss" ∧ WrapsPlain connector)

/-! ## What raises a URL error -/

/-- Wrapping a stream raises a URL error only where the plain connector meets TLS, and then does nothing else. -/
theorem wrapStream_url {socket : net.Stream} {d : Str} {mode : Mode} {connector : Option (Connector feat net)}
    {es : List (NetEvent feat net)} {e : UrlError}
    (run : net.Runs (wrapStream socket d mode connector) es (.error (.url e))) :
    es = [] ∧ mode = .tls ∧ WrapsPlain connector := by
  have plain : net.Runs (Plain.wrapStream socket mode) es (.error (.url e)) → es = [] ∧ mode = .tls := by
    intro run
    cases mode with
    | plain => cases (runs_return_iff.mp run).2
    | tls => exact ⟨(runs_return_iff.mp run).1, rfl⟩
  unfold wrapStream at run
  split at run
  · exact (Exec.expected_of_satisfies (native_satisfies _ _) run e rfl).elim
  · exact (Exec.expected_of_satisfies (rustls_satisfies _ _) run e rfl).elim
  · exact ⟨(plain run).1, (plain run).2, trivial⟩
  · split at run
    · exact (Exec.expected_of_satisfies (native_satisfies _ _) run e rfl).elim
    · split at run
      · exact (Exec.expected_of_satisfies (rustls_satisfies _ _) run e rfl).elim
      · next noNative noRustls => exact ⟨(plain run).1, (plain run).2, by simpa using noNative, by simpa using noRustls⟩

/-! ## The two functions -/

section Connecting

variable {request : net.Request} {config : Option net.WebSocketConfig} {connector : Option (Connector feat net)}
  {stream : net.Stream} {es : List (NetEvent feat net)} {result : Except WsError (net.WebSocket × net.Response)}

/-- `client_async_tls_with_config` raises a URL error only where a check fails, and has performed nothing before. -/
theorem checkFails_of_clientAsyncTls
    (run : net.Runs (clientAsyncTlsWithConfig (.ok request) stream config connector) es result)
    (raised : RaisedHere es result) : es = [] ∧ CheckFails request connector := by
  obtain ⟨e, rfl, notPassed⟩ := raised
  unfold clientAsyncTlsWithConfig at run
  dsimp only at run
  split at run
  · next e' checked =>
    refine ⟨(runs_return_iff.mp run).1, .inl ⟨e', ?_⟩⟩
    split at checked
    · exact checked
    · cases checked
  · split at run
    · next e' refused => exact ⟨(runs_return_iff.mp run).1, .inr (.inl ⟨e', refused⟩)⟩
    · next mode moded =>
      obtain ⟨first, wrapped, middle, rest, rfl, wraps, run⟩ := Exec.bind_iff.mp run
      cases wrapped with
      | error e' =>
        obtain ⟨rfl, same⟩ := runs_return_iff.mp run
        obtain rfl := (Except.error.inj same).symm
        obtain ⟨rfl, rfl, plain⟩ := wrapStream_url wraps
        exact ⟨rfl, .inr (.inr ⟨moded, plain⟩)⟩
      | ok wrapped =>
        obtain ⟨event, rfl, rfl⟩ := Exec.lift_iff.mp run
        exact (notPassed _ (List.mem_append_right _ (List.mem_singleton_self _)) ⟨request, wrapped, config, rfl⟩).elim

/-- From the dial on, nothing is raised before `client_async_tls_with_config`. -/
theorem checkFails_of_connected {disableNagle : Bool}
    (run : net.Runs (connected request config disableNagle connector stream) es result)
    (raised : RaisedHere es result) : CheckFails request connector := by
  unfold connected at run
  split at run
  · obtain ⟨answer, rest, rfl, tail⟩ := runs_perform_iff.mp run
    cases answer with
    | error io =>
      obtain ⟨-, rfl⟩ := runs_return_iff.mp tail
      obtain ⟨e, refused, -⟩ := raised
      cases refused
    | ok done => exact (checkFails_of_clientAsyncTls tail raised.tail).2
  · exact (checkFails_of_clientAsyncTls run raised).2

/-- A domain that passes in `connect` passes again where TLS is compiled in. -/
theorem checked_again {d : Str} (checked : domain feat request = .ok d) :
    (if feat.nativeTls = true ∨ feat.rustlsTls = true then domain feat request else .ok []) =
      .ok (if feat.nativeTls = true ∨ feat.rustlsTls = true then d else []) := by
  split
  · exact checked
  · rfl

/-- An unsupported scheme is refused. -/
private theorem runs_of_unsupported {d : Str} {e : WsError} (checked : domain feat request = .ok d)
    (refused : net.uriMode (net.uri request) = .error e) :
    net.Runs (clientAsyncTlsWithConfig (.ok request) stream config connector) [] (.error e) := by
  unfold clientAsyncTlsWithConfig
  dsimp only
  rw [checked_again checked, refused]
  exact runs_return_iff.mpr ⟨rfl, rfl⟩

private theorem wrapStream_of_plain {d : Str} {mode : Mode} (plain : WrapsPlain connector) :
    wrapStream stream d mode connector = Plain.wrapStream stream mode := by
  cases connector with
  | some connector =>
    cases connector with
    | plain => rfl
    | nativeTls _ _ => exact plain.elim
    | rustls _ _ => exact plain.elim
  | none =>
    obtain ⟨noNative, noRustls⟩ := plain
    rw [wrapStream, dif_neg (by simp [noNative]), dif_neg (by simp [noRustls])]

/-- TLS is refused by the plain connector. -/
private theorem runs_of_plain {d : Str} (checked : domain feat request = .ok d)
    (moded : net.uriMode (net.uri request) = .ok .tls) (plain : WrapsPlain connector) :
    net.Runs (clientAsyncTlsWithConfig (.ok request) stream config connector) []
      (.error (.url .tlsFeatureNotEnabled)) := by
  unfold clientAsyncTlsWithConfig
  dsimp only
  rw [checked_again checked, moded]
  dsimp only
  rw [wrapStream_of_plain plain]
  exact runs_return_iff.mpr ⟨rfl, rfl⟩

end Connecting

/-! ## The condition -/

variable {request : net.Request} {connector : Option (Connector feat net)} (documented : net.Documented)

theorem domain_ok_iff : (∃ d, domain feat request = .ok d) ↔ net.host (net.uri request) ≠ none := by
  constructor
  · rintro ⟨d, checked⟩ unnamed
    rw [domain, unnamed] at checked
    cases checked
  · intro named
    obtain ⟨host, named⟩ := Option.ne_none_iff_exists'.mp named
    exact exists_domain named

include documented

/-- Past the dial, `client_async_tls_with_config` refuses just the requests that are refused late. -/
theorem refusedLate_of_checkFails {d : Str} {n : ℕ} (checked : domain feat request = .ok d)
    (chosen : port request = some n) (fails : CheckFails request connector) : RefusedLate request connector := by
  refine ⟨domain_ok_iff.mp ⟨d, checked⟩, ?_⟩
  rcases fails with ⟨e, refused⟩ | ⟨e, refused⟩ | ⟨moded, plain⟩
  · rw [checked] at refused
    cases refused
  · have portless := documented.schemePort_of_uriMode refused
    have explicit : net.portU16 (net.uri request) = some n := by rwa [port, portless, Option.or_none] at chosen
    exact .inl ⟨Option.ne_none_iff_exists'.mpr ⟨n, explicit⟩, schemePort_eq_none_iff.mp portless⟩
  · exact .inr ⟨documented.wss_of_uriMode moded, plain⟩

/-- A request that is refused late is refused with an open connection. -/
theorem not_urlCheckedFirst (stream : net.Stream) (late : RefusedLate request connector) :
    ¬ UrlCheckedFirst request connector := by
  rintro ⟨silent, -⟩
  obtain ⟨named, reason⟩ := late
  obtain ⟨d, checked⟩ := domain_ok_iff.mpr named
  have refused : ∃ e n, port request = some n ∧
      net.Runs (clientAsyncTlsWithConfig (.ok request) stream none connector) [] (.error (.url e)) := by
    rcases reason with ⟨explicit, notWs, notWss⟩ | ⟨wss, plain⟩
    · obtain ⟨n, explicit⟩ := Option.ne_none_iff_exists'.mp explicit
      refine ⟨.unsupportedUrlScheme, n, by rw [port, explicit, Option.some_or], ?_⟩
      exact runs_of_unsupported checked (documented.unsupported _ notWs notWss)
    · obtain ⟨n, chosen⟩ : ∃ n, port request = some n := by
        rw [port, wss]
        cases net.portU16 (net.uri request) <;> exact ⟨_, rfl⟩
      exact ⟨.tlsFeatureNotEnabled, n, chosen, runs_of_plain checked (documented.tls _ wss) plain⟩
  obtain ⟨e, n, chosen, refused⟩ := refused
  have run : net.Runs (connect request none false connector) [⟨.tcpConnect (addr d n), .ok stream⟩] (.error (.url e)) :=
    runs_connect_iff.mpr (.inr ⟨d, checked, .inr ⟨n, chosen, .inr ⟨stream, [], rfl, refused⟩⟩⟩)
  refine silent none false _ _ run ⟨e, rfl, ?_⟩ _ (List.mem_singleton_self _) ⟨_, stream, rfl⟩
  rintro event mem ⟨request', wrapped, config, rfl⟩
  cases List.mem_singleton.mp mem

/-- URL errors come before any I/O if and only if the request is not refused late; `stream` is a socket that a
dial may answer. -/
theorem url_errors_first_iff (stream : net.Stream) :
    UrlCheckedFirst request connector ↔ ¬ RefusedLate request connector := by
  constructor
  · exact fun first late => not_urlCheckedFirst documented stream late first
  · intro early
    refine ⟨?_, ?_⟩
    · intro config disableNagle es result run raised event mem opens
      rcases runs_connect_iff.mp run with ⟨e, -, rfl, -⟩ | ⟨d, checked, ⟨-, rfl, -⟩ | ⟨n, chosen, attempt⟩⟩
      · cases mem
      · cases mem
      · rcases attempt with ⟨e, rfl, -⟩ | ⟨socket, rest, rfl, tail⟩
        · obtain rfl := List.mem_singleton.mp mem
          obtain ⟨_, _, same⟩ := opens
          cases same
        · exact early (refusedLate_of_checkFails documented checked chosen (checkFails_of_connected tail raised.tail))
    · intro stream config es result run raised event mem
      obtain ⟨rfl, -⟩ := checkFails_of_clientAsyncTls run raised
      cases mem

omit documented

/-! ## A request of either kind -/

/-- `http://user:1234@[::1]:8443` -/
def httpRequest : Net.parsed.Request := ⟨some "http", some literalAuthority⟩

/-- Without TLS, `connect` dials for `http` with a port and for `wss`, and refuses both afterwards. -/
theorem urls_refused_late : (¬ UrlCheckedFirst httpRequest (none : Option (Connector .noTls Net.parsed))) ∧
    ¬ UrlCheckedFirst literalRequest (none : Option (Connector .noTls Net.parsed)) := by
  refine ⟨not_urlCheckedFirst Net.parsed_documented () ⟨by decide, .inl ⟨by decide, by decide, by decide⟩⟩, ?_⟩
  exact not_urlCheckedFirst Net.parsed_documented () ⟨by decide, .inr ⟨rfl, rfl, rfl⟩⟩

/-- With native TLS, nothing is wrong with `wss`. -/
theorem url_errors_first_iff_native : UrlCheckedFirst literalRequest
    (none : Option (Connector { Features.noTls with nativeTls := true } Net.parsed)) := by
  refine (url_errors_first_iff Net.parsed_documented ()).mpr ?_
  rintro ⟨-, ⟨-, -, notWss⟩ | ⟨-, native, -⟩⟩
  · exact notWss rfl
  · cases native

end TokioTungstenite
