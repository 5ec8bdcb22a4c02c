import TokioTungstenite.Model.Lifecycle
import TokioTungstenite.Model.OutputBuffer

/-! # What the results assume of tungstenite

Each structure is the part of tungstenite's behaviour that one group of results rests on, over an arbitrary
implementation with an output buffer, and a lifecycle where closing matters. All of them are met together by
the reference implementation.
-/

namespace TokioTungstenite

variable {R : HandshakeRole} {T : Tungstenite R}

/-! ## Queueing -/

/-- A write was taken if it succeeded or blocked: a blocked message stays queued. -/
def writeTaken : Except WsError Unit → Bool
  | .ok () => true
  | .error e => e.isWouldBlock

/-- The messages a call queues for the user: the message of a write that was taken. A user pong goes
through the WebSocket's own control frames. -/
def queuedBy : (c : Call R) → c.Answer → List Message
  | .write item, r => if writeTaken r && !item.isPong then [item] else []
  | _, _ => []

/-- What the send path assumes of tungstenite besides its FIFO buffer. A write queues its message once
and answers `Ok` or `WouldBlock`, or answers another error and does not queue it; no other call queues
user frames; a `flush` that answers `Ok` or `ConnectionClosed` has emptied the buffer. -/
structure QueuesOnce (B : OutputBuffer T) (encodes : Message → Bytes → Prop) : Prop where
  queues : ∀ {c : Call R} {s std r t new}, T.exec c s std r t → B.log t = B.log s ++ new →
    userMessages new = queuedBy c r
  encodes : ∀ {c : Call R} {s std r t new}, T.exec c s std r t → B.log t = B.log s ++ new →
    ∀ item frame, (Origin.user item, frame) ∈ new → encodes item frame
  flushEmpties : ∀ {s std t} {r : Except WsError Unit}, T.exec .flush s std r t →
    r = .ok () ∨ r = .error .connectionClosed → B.out t = []

/-! ## Backpressure and rejection -/

/-- What backpressure assumes of tungstenite, with `writeBufferSize` as configured and `frameLength` the
length of the frame of a message. -/
structure Buffers (L : Lifecycle T) (B : OutputBuffer T) (writeBufferSize : ℕ) (frameLength : Message → ℕ) : Prop where
  /-- A write queues at most the frame of its message, and nothing when it rejects it. -/
  writeQueues : ∀ {item s std t new} {r : Except WsError Unit}, T.exec (.write item) s std r t →
    B.log t = B.log s ++ new → userBytes (new.flatMap Entry.bytes) ≤ frameLength item
  rejected : ∀ {item s std t new e}, T.exec (.write item) s std (.error e) t → (∀ io, e ≠ .io io) →
    B.log t = B.log s ++ new → userBytes (new.flatMap Entry.bytes) = 0
  /-- No other call queues anything for the user. -/
  othersQueue : ∀ {c : Call R} {s std r t new}, T.exec c s std r t → (∀ item, c ≠ .write item) →
    B.log t = B.log s ++ new → userBytes (new.flatMap Entry.bytes) = 0
  /-- A write that answers `Ok` has left at most `writeBufferSize` bytes. -/
  writeOk : ∀ {item s std t}, T.exec (.write item) s std (.ok ()) t → (B.out t).length ≤ writeBufferSize
  /-- A write on a connection that is not active is rejected. -/
  writeOfInactive : ∀ {item s std t} {r : Except WsError Unit}, ¬L.active s → T.exec (.write item) s std r t →
    ∃ e, r = .error e ∧ ∀ io, e ≠ .io io
  /-- A flush answers `Ok` or `ConnectionClosed` only with the buffer empty. -/
  flushEmpties : ∀ {s std t} {r : Except WsError Unit}, T.exec .flush s std r t →
    r = .ok () ∨ r = .error .connectionClosed → B.out t = []

/-- What retrying assumes of tungstenite, with its `maxWriteBufferSize` as configured: on an active connection
a write is rejected with `WriteBufferFull` exactly when the frame does not fit, and changes nothing then. -/
structure RejectsFull (L : Lifecycle T) (B : OutputBuffer T) (maxWriteBufferSize : ℕ) (frameLength : Message → ℕ) :
    Prop where
  onlyFull : ∀ {item back s std t}, L.active s → T.exec (.write item) s std (.error (.writeBufferFull back)) t →
    maxWriteBufferSize < (B.out s).length + frameLength item
  whenFull : ∀ {item s}, L.active s → maxWriteBufferSize < (B.out s).length + frameLength item →
    ∃ back io t, T.Calls (.write item) s io (.error (.writeBufferFull back)) t ∧ B.out t = B.out s ∧
      ((∀ code, item ≠ .close code) → L.active t)

/-! ## Flushing -/

/-- What closing assumes of tungstenite. `closes` is a history variable: the Close frames queued so far. -/
structure ClosesOnce (L : Lifecycle T) (closes : T.State → List (Option CloseFrame)) : Prop where
  /-- `close(c)` on an active connection, also when it is called as `write(Close(c))`, leaves that state and
  tries to queue one Close frame carrying `c`. -/
  closeOfActive : ∀ {c s t std} {r : Except WsError Unit}, L.active s →
    T.exec (.close c) s std r t ∨ T.exec (.write (.close c)) s std r t →
    ¬L.active t ∧ (closes t = closes s ∨ closes t = closes s ++ [c])
  /-- `close(c)` on a connection that is not active is exactly `flush`. -/
  closeOfInactive : ∀ {c s t std} {r : Except WsError Unit}, ¬L.active s →
    (T.exec (.close c) s std r t ↔ T.exec .flush s std r t)
  /-- A write on a connection that is not active is rejected without effect. -/
  writeOfInactive : ∀ {item s t std} {r : Except WsError Unit}, ¬L.active s → T.exec (.write item) s std r t →
    t = s ∧ std = [] ∧ ∃ e, r = .error e ∧ e.isWouldBlock = false
  /-- Any other write, and `flush`, queue no Close frame. -/
  writeOther : ∀ {item s t std} {r : Except WsError Unit}, (∀ c, item ≠ .close c) → T.exec (.write item) s std r t →
    closes t = closes s
  flushKeeps : ∀ {s t std} {r : Except WsError Unit}, T.exec .flush s std r t → closes t = closes s
  /-- `read` queues a Close frame only in reply to the peer's, and leaves the active state then. -/
  readReplies : ∀ {s t std} {r : Except WsError Message}, T.exec .read s std r t →
    closes t = closes s ∨ (L.active s ∧ ¬L.active t ∧ ∃ c, closes t = closes s ++ [c])

end TokioTungstenite
