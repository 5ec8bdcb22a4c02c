import TokioTungstenite.Model.Tungstenite
import TokioTungstenite.Execution.Path

/-! # `WebSocketStream` (`lib.rs`)

The stream wraps a tungstenite `WebSocket` and three flags. Its operations are translated as programs
that take the flags and return them updated; the wrapped WebSocket is the state of the implementation
that handles the calls. `Step` is one outer operation from start to answer, labelled with everything
that is observable of it: the registrations, the call into tungstenite with its I/O, and the answer.
-/

namespace TokioTungstenite

open Execution

/-- The fields a `WebSocketStream` adds to its `inner`. -/
structure Flags where
  closing : Bool
  ended : Bool
  /-- Tungstenite is probably ready to receive more data: `false` once `start_send` blocks. -/
  ready : Bool
deriving DecidableEq, Repr

variable {R : HandshakeRole}

namespace WebSocketStream

/-- `WebSocketStream::new`. -/
def new : Flags := { closing := false, ended := false, ready := true }

/-- `WebSocketStream::with_context`. -/
def withContext (ctx : Option (ContextWaker × Waker)) (c : Call R) : Program (outer R) c.Answer := do
  match ctx with
  | some (kind, waker) => AllowStd.setWaker kind waker
  | none => pure ()
  c.perform

/-- What `poll_next` makes of the answer of `read`. -/
def nextResult (self : Flags) (read : Except WsError Message) : Poll (Option (Except WsError Message)) × Flags :=
  match cvt read with
  | .pending => (.pending, self)
  | .ready (.ok v) => (.ready (some (.ok v)), self)
  | .ready (.error e) =>
    let self := { self with ended := true }
    if e.isClosed then (.ready none, self) else (.ready (some (.error e)), self)

/-- `Stream::poll_next`. -/
def pollNext (self : Flags) (cx : Waker) : Program (outer R) (Poll (Option (Except WsError Message)) × Flags) :=
  -- the error has already been returned to the user, the stream is fused
  if self.ended then return (.ready none, self)
  else return nextResult self (← withContext (some (.read, cx)) .read)

/-- `FusedStream::is_terminated`. -/
def isTerminated (self : Flags) : Bool := self.ended

/-- What `poll_ready` makes of the answer of `flush`. -/
def readyResult (self : Flags) (flushed : Except WsError Unit) : Poll (Except WsError Unit) × Flags :=
  match cvt flushed with
  | .pending => (.pending, self)
  | .ready r => (.ready r, { self with ready := true })

/-- `Sink::poll_ready`. -/
def pollReady (self : Flags) (cx : Waker) : Program (outer R) (Poll (Except WsError Unit) × Flags) :=
  if self.ready then return (.ready (.ok ()), self)
  -- currently blocked, so try to flush the blockage away
  else return readyResult self (← withContext (some (.write, cx)) .flush)

/-- What `start_send` makes of the answer of `write`. -/
def sentResult (self : Flags) (written : Except WsError Unit) : Except WsError Unit × Flags :=
  match written with
  | .ok () => (.ok (), { self with ready := true })
  | .error e =>
    -- a blocked message was accepted and queued, so it is not an error
    if e.isWouldBlock then (.ok (), { self with ready := false }) else (.error e, { self with ready := true })

/-- `Sink::start_send`. -/
def startSend (self : Flags) (item : Message) : Program (outer R) (Except WsError Unit × Flags) := do
  return sentResult self (← withContext none (.write item))

/-- What `poll_flush` makes of the answer of `flush`. -/
def flushResult (self : Flags) (flushed : Except WsError Unit) : Poll (Except WsError Unit) × Flags :=
  match cvt flushed with
  | .pending => (.pending, self)
  | .ready r =>
    let self := { self with ready := true }
    match r with
    -- the connection has just been closed: flushing completed, not an error
    | .error .connectionClosed => (.ready (.ok ()), self)
    | other => (.ready other, self)

/-- `Sink::poll_flush`. -/
def pollFlush (self : Flags) (cx : Waker) : Program (outer R) (Poll (Except WsError Unit) × Flags) := do
  return flushResult self (← withContext (some (.write, cx)) .flush)

/-- What `poll_close` makes of the answer of the call it made. -/
def closeResult (self : Flags) (res : Except WsError Unit) : Poll (Except WsError Unit) × Flags :=
  match res with
  | .ok () => (.ready (.ok ()), self)
  | .error .connectionClosed => (.ready (.ok ()), self)
  | .error err => if err.isWouldBlock then (.pending, { self with closing := true }) else (.ready (.error err), self)

/-- `Sink::poll_close`. -/
def pollClose (self : Flags) (cx : Waker) : Program (outer R) (Poll (Except WsError Unit) × Flags) := do
  let self := { self with ready := true }
  -- after queueing it, `flush` drives the close handshake to completion
  let res ← if self.closing then withContext (some (.write, cx)) .flush
    else withContext (some (.write, cx)) (.close none)
  return closeResult self res

/-- One poll of the future of `SinkExt::send`: an item not yet given to the sink is fed to it as soon as
the sink is ready, and then the sink is flushed. The future keeps the item until it is fed. -/
def sendPoll (self : Flags) (item : Option Message) (cx : Waker) :
    Program (outer R) ((Poll (Except WsError Unit) × Option Message) × Flags) := do
  match item with
  | none => Prod.map (·, none) id <$> pollFlush self cx
  | some item =>
    match ← pollReady self cx with
    | (.pending, self) => return ((.pending, some item), self)
    | (.ready (.error e), self) => return ((.ready (.error e), some item), self)
    | (.ready (.ok _), self) =>
      match ← startSend self item with
      | (.error e, self) => return ((.ready (.error e), none), self)
      | (.ok _, self) => Prod.map (·, none) id <$> pollFlush self cx

/-- `WebSocketStream::close`: the future sends one Close message. -/
def close (msg : Option CloseFrame) : Option Message := some (.close msg)

end WebSocketStream

/-- The outer operations on a `WebSocketStream`. `dropNext` drops a pending `next()` future, which
holds nothing but the reference to the stream. -/
inductive Op
  | pollNext (cx : Waker)
  | isTerminated
  | dropNext
  | pollReady (cx : Waker)
  | startSend (item : Message)
  | pollFlush (cx : Waker)
  | pollClose (cx : Waker)
deriving DecidableEq, Repr

inductive Answer
  | next (polled : Poll (Option (Except WsError Message)))
  | terminated (fused : Bool)
  | dropped
  | sink (polled : Poll (Except WsError Unit))
  | sent (result : Except WsError Unit)
deriving DecidableEq

def Answer.isPending : Answer → Bool
  | .next .pending | .sink .pending => true
  | _ => false

/-- The half of the API an operation belongs to and the waker it was polled with. -/
def Op.context : Op → Option (ContextWaker × Waker)
  | .pollNext cx => some (.read, cx)
  | .pollReady cx | .pollFlush cx | .pollClose cx => some (.write, cx)
  | .isTerminated | .dropNext | .startSend _ => none

def Op.run (self : Flags) : Op → Program (outer R) (Answer × Flags)
  | .pollNext cx => Prod.map .next id <$> WebSocketStream.pollNext self cx
  | .isTerminated => return (.terminated (WebSocketStream.isTerminated self), self)
  | .dropNext => return (.dropped, self)
  | .pollReady cx => Prod.map .sink id <$> WebSocketStream.pollReady self cx
  | .startSend item => Prod.map .sent id <$> WebSocketStream.startSend self item
  | .pollFlush cx => Prod.map .sink id <$> WebSocketStream.pollFlush self cx
  | .pollClose cx => Prod.map .sink id <$> WebSocketStream.pollClose self cx

/-- A `WebSocketStream`: its `inner` WebSocket and the flags. -/
structure WebSocketStream (T : Tungstenite R) where
  inner : T.State
  flags : Flags

/-- What is observed of one outer operation. -/
structure Label (R : HandshakeRole) where
  op : Op
  events : List (OuterEvent R)
  answer : Answer

/-- One outer operation, run to its answer. Operations never overlap: each holds `&mut self`. -/
def Step (T : Tungstenite R) (s : WebSocketStream T) (label : Label R) (t : WebSocketStream T) : Prop :=
  Exec T.handler (label.op.run s.flags) s.inner label.events (label.answer, t.flags) t.inner

/-- Any number of outer operations, in any order. -/
abbrev Run (T : Tungstenite R) : WebSocketStream T → List (Label R) → WebSocketStream T → Prop := Path (Step T)

/-- One use of the public interface: an outer operation, or a poll of the future of `close` or any `send`. -/
inductive ApiLabel (R : HandshakeRole)
  | op (label : Label R)
  | sendPoll (item : Option Message) (cx : Waker) (events : List (OuterEvent R))
      (answer : Poll (Except WsError Unit) × Option Message)

def ApiStep (T : Tungstenite R) (s : WebSocketStream T) (label : ApiLabel R) (t : WebSocketStream T) : Prop :=
  match label with
  | .op label => Step T s label t
  | .sendPoll item cx events answer =>
      Exec T.handler (WebSocketStream.sendPoll s.flags item cx) s.inner events (answer, t.flags) t.inner

/-- Any number of uses, in any order. A `send` future may be dropped after any of its polls. -/
abbrev ApiRun (T : Tungstenite R) : WebSocketStream T → List (ApiLabel R) → WebSocketStream T → Prop :=
  Path (ApiStep T)

end TokioTungstenite
