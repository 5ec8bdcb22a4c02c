import TokioTungstenite.Model.Connect

/-! # Which endpoint `connect` dials

The endpoint a URI names is its host, and the port written in its authority or else the one its scheme stands
for. `connect` dials that endpoint except where a port is written that is no 16-bit number: `port_u16` answers
the same there as where no port is written, and the port of the scheme is dialled instead.
-/

namespace TokioTungstenite

open Execution Text

variable {feat : Features} {net : Net}

/-! ## What the URI names -/

/-- The port a URI names. -/
def namedPort (authority : Authority) (scheme : Option String) : Option ℕ :=
  match authority.port with
  | some (c :: digits) => parse? 65536 (c :: digits)
  | _ => schemePort scheme

/-- A port part that is not empty and not a 16-bit number. -/
def UnusablePort (authority : Authority) : Prop :=
  ∃ digits, authority.port = some digits ∧ digits ≠ [] ∧ parse? 65536 digits = none

/-- The host and the port an address text denotes: it is cut at its last colon. -/
def endpoint (addr : Str) : Option (Str × ℕ) :=
  (rsplitOnce ':' addr).bind fun cut => (parse? 65536 cut.2).map fun n => (cut.1, n)

/-- The host, up to the removal of one enclosing pair of brackets. -/
def NamesHost (host dialled : Str) : Prop := dialled = host ∨ host = '[' :: (dialled ++ [']'])

theorem endpoint_addr {domain : Str} {n : ℕ} (below : n < 65536) : endpoint (addr domain n) = some (domain, n) := by
  have last : ':' ∉ display n := not_mem_display rfl
  rw [endpoint, addr, rsplitOnce_append last, Option.bind_some, parse?_display below, Option.map_some]

/-- The domain is the host, with or without its brackets. -/
theorem namesHost_of_domain {request : net.Request} {host d : Str} (named : net.host (net.uri request) = some host)
    (checked : domain feat request = .ok d) : NamesHost host d := by
  rw [domain, named] at checked
  dsimp only at checked
  split at checked
  · next bracketed =>
    obtain ⟨-, first, last⟩ := bracketed
    obtain rfl := Except.ok.inj checked
    cases host with
    | nil => cases first
    | cons c rest =>
      obtain rfl := Option.some.inj first
      cases rest with
      | nil => cases last
      | cons d more =>
        rw [List.getLast?_cons_cons] at last
        exact .inr (congrArg _ (List.dropLast_append_getLast? _ last).symm)
  · exact .inl (Except.ok.inj checked).symm

variable {request : net.Request} {authority : Authority} (documented : net.Documented)
  (written : net.authority (net.uri request) = some authority)

include documented written

/-- The port that is dialled is a 16-bit number. -/
theorem port_lt {n : ℕ} (chosen : port request = some n) : n < 65536 := by
  rw [port, documented.portU16_eq written, Option.or_eq_some_iff] at chosen
  rcases chosen with read | ⟨-, default⟩
  · obtain ⟨digits, -, parsed⟩ := Option.bind_eq_some_iff.mp read
    exact lt_of_parse? parsed
  · unfold schemePort at default
    split at default
    · cases default
      decide
    · cases default
      decide
    · cases default

/-- The port chosen is the port named, unless an unusable port gives way to that of the scheme. -/
theorem port_eq_namedPort (usable : UnusablePort authority → schemePort (net.schemeStr (net.uri request)) = none) :
    port request = namedPort authority (net.schemeStr (net.uri request)) := by
  rw [port, documented.portU16_eq written, namedPort]
  split
  · next c digits some =>
    rw [some, Option.bind_some]
    cases parsed : parse? 65536 (c :: digits) with
    | some n => rfl
    | none => rw [Option.none_or, usable ⟨_, some, List.cons_ne_nil _ _, parsed⟩]
  · next empty =>
    have unread : authority.port.bind (parse? 65536) = none := by
      rcases port : authority.port with _ | (_ | ⟨c, digits⟩)
      · rfl
      · exact parse?_nil _
      · exact (empty c digits port).elim
    rw [unread, Option.none_or]

theorem port_of_unusable (unusable : UnusablePort authority) :
    port request = schemePort (net.schemeStr (net.uri request)) := by
  obtain ⟨digits, some, -, parsed⟩ := unusable
  rw [port, documented.portU16_eq written, some, Option.bind_some, parsed, Option.none_or]

omit documented written in
theorem namedPort_of_unusable (unusable : UnusablePort authority) (scheme : Option String) :
    namedPort authority scheme = none := by
  obtain ⟨digits, some, nonempty, parsed⟩ := unusable
  obtain ⟨c, rest, rfl⟩ := List.exists_cons_of_ne_nil nonempty
  rw [namedPort, some]
  exact parsed

/-! ## What is dialled -/

/-- Every connection attempt for the request dials the endpoint its URI names, and none if it names none. -/
structure DialsNamed (feat : Features) (request : net.Request) (authority : Authority) : Prop where
  dialled : ∀ config disableNagle (connector : Option (Connector feat net)) es result,
    net.Runs (connect request config disableNagle connector) es result →
    ∀ event ∈ es, ∀ addr, event.1 = .tcpConnect addr → ∃ host n, endpoint addr = some (host, n) ∧
      NamesHost authority.host host ∧ namedPort authority (net.schemeStr (net.uri request)) = some n
  refused : namedPort authority (net.schemeStr (net.uri request)) = none →
    ∀ config disableNagle (connector : Option (Connector feat net)) es result,
    net.Runs (connect request config disableNagle connector) es result →
    (∀ event ∈ es, ¬ event.Dials) ∧ ∃ e, result = .error e

omit documented written in
/-- A connection attempt dials at most once, the endpoint that was read off the URI. -/
theorem dialled_eq {config : Option net.WebSocketConfig} {disableNagle : Bool} {connector : Option (Connector feat net)}
    {es : List (NetEvent feat net)} {result : Except WsError (net.WebSocket × net.Response)}
    (run : net.Runs (connect request config disableNagle connector) es result) {event : NetEvent feat net}
    (mem : event ∈ es) {dialled : Str} (dials : event.1 = .tcpConnect dialled) :
    ∃ d n, domain feat request = .ok d ∧ port request = some n ∧ dialled = addr d n := by
  rcases runs_connect_iff.mp run with ⟨e, -, rfl, -⟩ | ⟨d, checked, ⟨-, rfl, -⟩ | ⟨n, chosen, attempt⟩⟩
  · cases mem
  · cases mem
  · refine ⟨d, n, checked, chosen, ?_⟩
    rcases attempt with ⟨e, rfl, -⟩ | ⟨socket, rest, rfl, tail⟩
    · obtain rfl := List.mem_singleton.mp mem
      exact (NetOp.tcpConnect.inj dials).symm
    · rcases List.mem_cons.mp mem with rfl | later
      · exact (NetOp.tcpConnect.inj dials).symm
      · have noDial := Exec.good_of_satisfies noDial_connected tail event later
        rw [dials] at noDial
        exact noDial.elim

omit documented written in
theorem exists_domain {host : Str} (named : net.host (net.uri request) = some host) :
    ∃ d, domain feat request = .ok d := by
  rw [domain, named]
  dsimp only
  split <;> exact ⟨_, rfl⟩

/-- Next to a scheme with a port of its own, an unusable port is ignored: the scheme's port is dialled. -/
theorem not_dialsNamed (unusable : UnusablePort authority) {n : ℕ}
    (scheme : schemePort (net.schemeStr (net.uri request)) = some n) : ¬ DialsNamed feat request authority := by
  rintro ⟨-, refused⟩
  have named : net.host (net.uri request) = some authority.host := by rw [documented.host, written, Option.map_some]
  obtain ⟨d, checked⟩ : ∃ d, domain feat request = .ok d := exists_domain named
  have chosen : port request = some n := (port_of_unusable documented written unusable).trans scheme
  have run : net.Runs (connect request none false (none : Option (Connector feat net)))
      [⟨.tcpConnect (addr d n), .error .wouldBlock⟩] (.error (.io .wouldBlock)) :=
    runs_connect_iff.mpr (.inr ⟨d, checked, .inr ⟨n, chosen, .inl ⟨_, rfl, rfl⟩⟩⟩)
  obtain ⟨silent, -⟩ := refused (namedPort_of_unusable unusable _) none false none _ _ run
  exact silent _ (List.mem_singleton_self _) ⟨_, rfl⟩

/-- `connect` dials exactly the endpoint its URI names if and only if no unusable port is written next to a
scheme that has a port of its own. -/
theorem dials_named_endpoint_iff : DialsNamed feat request authority ↔
    ¬ (UnusablePort authority ∧
      (net.schemeStr (net.uri request) = some "ws" ∨ net.schemeStr (net.uri request) = some "wss")) := by
  have named : net.host (net.uri request) = some authority.host := by rw [documented.host, written, Option.map_some]
  constructor
  · rintro dials ⟨unusable, scheme⟩
    cases known : schemePort (net.schemeStr (net.uri request)) with
    | some n => exact not_dialsNamed documented written unusable known dials
    | none =>
      obtain ⟨notWs, notWss⟩ := schemePort_eq_none_iff.mp known
      exact scheme.elim notWs notWss
  · intro usable
    have same : port request = namedPort authority (net.schemeStr (net.uri request)) := by
      refine port_eq_namedPort documented written fun unusable => ?_
      rw [schemePort_eq_none_iff]
      exact ⟨fun ws => usable ⟨unusable, .inl ws⟩, fun wss => usable ⟨unusable, .inr wss⟩⟩
    refine ⟨?_, ?_⟩
    · intro config disableNagle connector es result run event mem dialled dials
      obtain ⟨d, n, checked, chosen, rfl⟩ := dialled_eq run mem dials
      exact ⟨d, n, endpoint_addr (port_lt documented written chosen), namesHost_of_domain named checked, same ▸ chosen⟩
    · intro unnamed config disableNagle connector es result run
      rw [← same] at unnamed
      refine ⟨?_, ?_⟩
      · rintro event mem ⟨dialled, dials⟩
        obtain ⟨d, n, -, chosen, -⟩ := dialled_eq run mem dials
        rw [unnamed] at chosen
        cases chosen
      · rcases runs_connect_iff.mp run with ⟨e, -, -, rfl⟩ | ⟨d, -, ⟨-, -, rfl⟩ | ⟨n, chosen, -⟩⟩
        · exact ⟨e, rfl⟩
        · exact ⟨_, rfl⟩
        · rw [unnamed] at chosen
          cases chosen

omit documented written

/-! ## Two endpoints -/

/-- Neither TLS feature. -/
def Features.noTls : Features where
  nativeTls := false
  rustlsTls := false
  rustlsTlsNativeRoots := false
  rustlsTlsWebpkiRoots := false
  native_roots := by decide
  webpki_roots := by decide

/-- `example.com:99999` -/
def exampleAuthority : Authority where
  userinfo := none
  host := ['e', 'x', 'a', 'm', 'p', 'l', 'e', '.', 'c', 'o', 'm']
  port := some ['9', '9', '9', '9', '9']
  host_literal colon := absurd colon (by decide)
  host_plain := by decide
  port_plain := by decide

/-- `user:1234@[::1]:8443` -/
def literalAuthority : Authority where
  userinfo := some ['u', 's', 'e', 'r', ':', '1', '2', '3', '4']
  host := ['[', ':', ':', '1', ']']
  port := some ['8', '4', '4', '3']
  host_literal _ := ⟨[':', ':', '1'], rfl⟩
  host_plain := by decide
  port_plain := by decide

def exampleRequest : Net.parsed.Request := ⟨some "ws", some exampleAuthority⟩

def literalRequest : Net.parsed.Request := ⟨some "wss", some literalAuthority⟩

/-- Asked for port 99999 of a host, `connect` dials its port 80. -/
theorem dials_other_port : ¬ DialsNamed .noTls exampleRequest exampleAuthority :=
  not_dialsNamed Net.parsed_documented rfl ⟨_, rfl, by decide, by decide⟩ (n := 80) rfl

theorem dials_named_endpoint_iff_literal : DialsNamed .noTls literalRequest literalAuthority := by
  refine (dials_named_endpoint_iff Net.parsed_documented rfl).mpr ?_
  rintro ⟨⟨digits, written, -, unread⟩, -⟩
  obtain rfl := Option.some.inj written
  exact absurd unread (by decide)

end TokioTungstenite
