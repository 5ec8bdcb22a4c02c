import TokioTungstenite.Model.Stream

/-! # The handshake futures (`handshake.rs`)

An asynchronous handshake runs tungstenite's resumable handshake one step at a time. The future that starts
it and the future that resumes it each keep what they need in an `Option`, take it out when polled, and panic
if it is not there. `handshake` awaits one after the other, so the compiler turns it into a state machine
over the two; that machine is `HandshakeFuture`. A poll that panics answers `none`.
-/

namespace TokioTungstenite

open Execution

variable {R : HandshakeRole}

/-- `StartedHandshake`. -/
inductive StartedHandshake (R : HandshakeRole)
  | done (r : R.FinalResult)
  | mid (s : R.Mid)

/-- What a step of the handshake answers. -/
abbrev HandshakeResult (R : HandshakeRole) := Except (HandshakeError R.Mid) R.FinalResult

/-- `StartedHandshakeFuture::poll`: the closure runs on the adapted stream. -/
def StartedHandshakeFuture.poll (self : Option (R.F × R.S)) (ctx : Waker) :
    Program (outer R) (Option (Poll (Except (HandshakeError R.Mid) (StartedHandshake R)) × Option (R.F × R.S))) := do
  match self with
  | none => return none
  | some (f, stream) =>
    AllowStd.new ctx
    match ← (Call.start f stream).perform with
    | .ok r => return some (.ready (.ok (.done r)), none)
    | .error (.interrupted mid) => return some (.ready (.ok (.mid mid)), none)
    | .error (.failure e) => return some (.ready (.error (.failure e)), none)

/-- `MidHandshake::poll`: the machine is resumed once, and put back if it was interrupted again. -/
def MidHandshake.poll (self : Option R.Mid) (cx : Waker) :
    Program (outer R) (Option (Poll (HandshakeResult R) × Option R.Mid)) := do
  match self with
  | none => return none
  | some s =>
    AllowStd.setWaker .read cx
    match ← (Call.handshake s).perform with
    | .ok stream => return some (.ready (.ok stream), none)
    | .error (.failure e) => return some (.ready (.error (.failure e)), none)
    | .error (.interrupted mid) => return some (.pending, some mid)

/-- The future of `handshake`: not yet polled, at its first or second `await`, or done. -/
inductive HandshakeFuture (R : HandshakeRole)
  | unresumed (stream : R.S) (f : R.F)
  | starting (start : Option (R.F × R.S))
  | resuming (mid : Option R.Mid)
  | returned

namespace HandshakeFuture

/-- `MidHandshake(Some(s)).await`. -/
def awaitMid (mid : Option R.Mid) (cx : Waker) :
    Program (outer R) (Option (Poll (HandshakeResult R)) × HandshakeFuture R) := do
  match ← MidHandshake.poll mid cx with
  | none => return (none, .returned)
  | some (.pending, mid) => return (some .pending, .resuming mid)
  | some (.ready res, _) => return (some (.ready res), .returned)

/-- `match start.await? { … }`: an interrupted machine is awaited in the same poll. -/
def awaitStart (start : Option (R.F × R.S)) (cx : Waker) :
    Program (outer R) (Option (Poll (HandshakeResult R)) × HandshakeFuture R) := do
  match ← StartedHandshakeFuture.poll start cx with
  | none => return (none, .returned)
  | some (.pending, start) => return (some .pending, .starting start)
  | some (.ready (.error e), _) => return (some (.ready (.error e)), .returned)
  | some (.ready (.ok (.done r)), _) => return (some (.ready (.ok r)), .returned)
  | some (.ready (.ok (.mid s)), _) => awaitMid (some s) cx

/-- `handshake`, polled. -/
def poll (self : HandshakeFuture R) (cx : Waker) :
    Program (outer R) (Option (Poll (HandshakeResult R)) × HandshakeFuture R) :=
  match self with
  | .unresumed stream f => awaitStart (some (f, stream)) cx
  | .starting start => awaitStart start cx
  | .resuming mid => awaitMid mid cx
  | .returned => return (none, .returned)

end HandshakeFuture

/-- How `client_handshake` finishes: the WebSocket is wrapped, with flags as `WebSocketStream::new` sets them. -/
def clientHandshake {W Response : Type} (result : W × Response) : (W × Flags) × Response :=
  ((result.1, WebSocketStream.new), result.2)

/-- How `server_handshake` finishes. -/
def serverHandshake {W : Type} (s : W) : W × Flags := (s, WebSocketStream.new)

/-- The `map_err` of `client_async_with_config` and `accept_hdr_async_with_config`; `display` is how the
error would be shown. -/
def publicError {Mid : Type} (display : Mid → String) : HandshakeError Mid → WsError
  | .failure e => e
  | .interrupted mid => .io ⟨.other, display mid⟩

/-- `client_async_with_config` and `accept_hdr_async_with_config`, polled: they await the handshake of their
role, which ends as `finish` says, and map its error. -/
def publicPoll {Out : Type} (finish : R.FinalResult → Out) (display : R.Mid → String) (self : HandshakeFuture R)
    (cx : Waker) : Program (outer R) (Option (Poll (Except WsError Out)) × HandshakeFuture R) := do
  let (polled, self) ← self.poll cx
  return (polled.map (Poll.map fun r => (r.map finish).mapError (publicError display)), self)

/-- What is observed of one poll. -/
structure PollLabel (R : HandshakeRole) (Out : Type) where
  cx : Waker
  events : List (OuterEvent R)
  answer : Option (Poll (Except WsError Out))

/-- One poll of the handshake future, with any waker. -/
def PollStep {Out : Type} (T : Tungstenite R) (finish : R.FinalResult → Out) (display : R.Mid → String)
    (s : HandshakeFuture R × T.State) (label : PollLabel R Out) (t : HandshakeFuture R × T.State) : Prop :=
  Exec T.handler (publicPoll finish display s.1 label.cx) s.2 label.events (label.answer, t.1) t.2

/-- Any number of polls. -/
abbrev PollRun {Out : Type} (T : Tungstenite R) (finish : R.FinalResult → Out) (display : R.Mid → String) :
    HandshakeFuture R × T.State → List (PollLabel R Out) → HandshakeFuture R × T.State → Prop :=
  Path (PollStep T finish display)

/-- `SkippedHandshakeFuture::poll`: the closure that makes the WebSocket does no I/O. -/
def SkippedHandshakeFuture.poll {S W : Type} (self : Option ((S → W) × S)) (ctx : Waker) :
    Program (outer R) (Option (Poll W) × Option ((S → W) × S)) := do
  match self with
  | none => return (none, none)
  | some (f, stream) =>
    AllowStd.new ctx
    return (some (.ready (f stream)), none)

/-- `without_handshake`, polled for the first time. -/
def withoutHandshake {S W : Type} (stream : S) (f : S → W) (ctx : Waker) :
    Program (outer R) (Option (Poll (W × Flags))) := do
  let (polled, _) ← SkippedHandshakeFuture.poll (some (f, stream)) ctx
  return polled.map (Poll.map fun ws => (ws, WebSocketStream.new))

end TokioTungstenite
