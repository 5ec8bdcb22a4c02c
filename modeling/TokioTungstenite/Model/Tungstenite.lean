import TokioTungstenite.Model.Compat

/-! # tungstenite, as this crate sees it

The WebSocket protocol itself is the business of the `tungstenite` crate. The code here calls it
through `Call`, and tungstenite touches the network only through the blocking stream it was given, so
a call is known by the blocking operations it makes, its answer and the state it leaves. The structure
`Tungstenite` is an arbitrary such implementation: it may be nondeterministic, keep any state, and need
not return. What a result assumes of it is stated where the result is.
-/

namespace TokioTungstenite

open Execution

/-- `tungstenite::handshake::HandshakeRole`, with what the handshake future is started from. -/
structure HandshakeRole where
  /-- The closure that starts the handshake. -/
  F : Type
  /-- The inner stream. -/
  S : Type
  /-- `MidHandshake<Role>`: the interrupted machine, with the stream inside it. -/
  Mid : Type
  FinalResult : Type

/-- `tungstenite::handshake::HandshakeError`. -/
inductive HandshakeError (Mid : Type)
  | interrupted (mid : Mid)
  | failure (error : WsError)

/-- The calls of the crate into tungstenite: the four operations of a `WebSocket`, the start of a
handshake on the adapted stream, and one resumption of an interrupted handshake. -/
inductive Call (R : HandshakeRole)
  | read
  | write (item : Message)
  | flush
  | close (frame : Option CloseFrame)
  | start (f : R.F) (stream : R.S)
  | handshake (mid : R.Mid)

@[reducible] def Call.Answer {R : HandshakeRole} : Call R → Type
  | .read => Except WsError Message
  | .write _ | .flush | .close _ => Except WsError Unit
  | .start _ _ | .handshake _ => Except (HandshakeError R.Mid) R.FinalResult

/-- What the code of this crate does: register a waker in one slot of one proxy, or call tungstenite. -/
inductive OuterOp (R : HandshakeRole)
  | register (proxy : Proxy) (slot : ContextWaker) (waker : Waker)
  | call (c : Call R)

@[reducible] def OuterOp.Answer {R : HandshakeRole} : OuterOp R → Type
  | .register _ _ _ => Unit
  | .call c => c.Answer

@[reducible] def outer (R : HandshakeRole) : PFunctor := ⟨OuterOp R, OuterOp.Answer⟩

variable {R : HandshakeRole}

/-- `AtomicWaker::register`. -/
def register (proxy : Proxy) (slot : ContextWaker) (waker : Waker) : Program (outer R) Unit :=
  .lift (P := outer R) (.register proxy slot waker)

def Call.perform (c : Call R) : Program (outer R) c.Answer := .lift (P := outer R) (.call c)

namespace AllowStd

/-- `AllowStd::set_waker`: one waker goes into the same slot of both proxies. -/
def setWaker (kind : ContextWaker) (waker : Waker) : Program (outer R) Unit :=
  match kind with
  | .read => do
    register .writeWakerProxy .read waker
    register .readWakerProxy .read waker
  | .write => do
    register .writeWakerProxy .write waker
    register .readWakerProxy .write waker

/-- `AllowStd::new`: the handshake waker goes into the read slot of both fresh proxies. -/
def new (waker : Waker) : Program (outer R) Unit := do
  register .writeWakerProxy .read waker
  register .readWakerProxy .read waker

end AllowStd

/-- What is recorded of one outer operation. A call into tungstenite carries the blocking operations it
made, each with the inner poll that served it. -/
inductive OuterEvent (R : HandshakeRole)
  | register (proxy : Proxy) (slot : ContextWaker) (waker : Waker)
  | call (c : Call R) (io : List IoEvent) (r : c.Answer)

/-- An implementation of tungstenite: `exec c s std r t` says that in state `s` the call `c` may make
exactly the blocking operations `std`, answer `r` and leave the state `t`. -/
structure Tungstenite (R : HandshakeRole) where
  State : Type
  exec : (c : Call R) → State → List StdEvent → c.Answer → State → Prop

namespace Tungstenite

variable (T : Tungstenite R)

/-- A flush: by `flush` itself, or by `close`, which ends as one. -/
def Flushes (s : T.State) (std : List StdEvent) (r : Except WsError Unit) (t : T.State) : Prop :=
  T.exec .flush s std r t ∨ ∃ frame, T.exec (.close frame) s std r t

/-- A call as the crate runs it: every blocking operation is served by the adapter. -/
structure Calls (c : Call R) (s : T.State) (io : List IoEvent) (r : c.Answer) (t : T.State) : Prop where
  exec : T.exec c s (io.map Prod.fst) r t
  served : ∀ event ∈ io, Performs event

/-- Slots are not part of tungstenite's state, so registering leaves that state alone. -/
def handler : Handler (outer R) T.State (OuterEvent R)
  | .register proxy slot waker, s, e, _, t => e = .register proxy slot waker ∧ t = s
  | .call c, s, e, r, t => ∃ io, e = .call c io r ∧ T.Calls c s io r t

end Tungstenite

/-- The registrations `set_waker` makes, in order. -/
def registrations (kind : ContextWaker) (waker : Waker) : List (OuterEvent R) :=
  [.register .writeWakerProxy kind waker, .register .readWakerProxy kind waker]

section Exec

variable {T : Tungstenite R} {s t : T.State} {es : List (OuterEvent R)} {done : Unit}

@[simp] theorem exec_register_iff {proxy : Proxy} {slot : ContextWaker} {waker : Waker} :
    Exec T.handler (register proxy slot waker) s es done t ↔ es = [.register proxy slot waker] ∧ t = s := by
  change Exec T.handler (.perform (OuterOp.register proxy slot waker) .pure) s es done t ↔ _
  simp only [Exec.perform_iff, Tungstenite.handler, Exec.pure_iff]
  constructor
  · rintro ⟨_, _, _, _, rfl, ⟨rfl, rfl⟩, rfl, -, rfl⟩
    exact ⟨rfl, rfl⟩
  · rintro ⟨rfl, rfl⟩
    exact ⟨_, (), t, [], rfl, ⟨rfl, rfl⟩, rfl, trivial, rfl⟩

@[simp] theorem exec_call_iff {c : Call R} {r : c.Answer} :
    Exec T.handler c.perform s es r t ↔ ∃ io, es = [.call c io r] ∧ T.Calls c s io r t := by
  change Exec T.handler (.perform (OuterOp.call c) .pure) s es r t ↔ _
  simp only [Exec.perform_iff, Tungstenite.handler, Exec.pure_iff]
  constructor
  · rintro ⟨_, _, _, _, rfl, ⟨io, rfl, calls⟩, rfl, rfl, rfl⟩
    exact ⟨io, rfl, calls⟩
  · rintro ⟨io, rfl, calls⟩
    exact ⟨_, r, t, [], rfl, ⟨io, rfl, calls⟩, rfl, rfl, rfl⟩

/-- Two registrations in a row, whatever their waker is for. -/
private theorem exec_register_twice {kind : ContextWaker} {waker : Waker} :
    Exec T.handler (register .writeWakerProxy kind waker >>= fun _ => register .readWakerProxy kind waker)
      s es done t ↔ es = registrations kind waker ∧ t = s := by
  simp only [Exec.bind_iff, exec_register_iff]
  constructor
  · rintro ⟨_, _, _, _, rfl, ⟨rfl, rfl⟩, rfl, rfl⟩
    exact ⟨rfl, rfl⟩
  · rintro ⟨rfl, rfl⟩
    exact ⟨[_], (), t, [_], rfl, ⟨rfl, rfl⟩, rfl, rfl⟩

@[simp] theorem exec_setWaker_iff {kind : ContextWaker} {waker : Waker} :
    Exec T.handler (AllowStd.setWaker kind waker) s es done t ↔ es = registrations kind waker ∧ t = s := by
  cases kind <;> exact exec_register_twice

@[simp] theorem exec_new_iff {waker : Waker} :
    Exec T.handler (AllowStd.new waker) s es done t ↔ es = registrations .read waker ∧ t = s :=
  exec_register_twice

end Exec

end TokioTungstenite
