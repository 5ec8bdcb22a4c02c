import TokioTungstenite.Model.Basic
import TokioTungstenite.Execution.Program

/-! # The blocking adapter and its waker proxies (`compat.rs`)

`AllowStd` gives tungstenite blocking `Read` and `Write` over an asynchronous stream. It owns two
waker proxies with two slots each. The proxies are shared with the inner stream, which may fire them
at any moment, so their slots live in shared memory: the code touches them only through the
operation `register` of the interface `Outer`. Everything the adapter asks of the inner stream goes
through the interface `innerIo`, which records the proxy that was handed to each poll.
-/

namespace TokioTungstenite

open Execution

/-- Which half of the API an operation belongs to, and which of the two proxies an inner poll gets. -/
inductive ContextWaker
  | read
  | write
deriving DecidableEq, Repr

/-- The two waker proxies of an `AllowStd`. -/
inductive Proxy
  | writeWakerProxy
  | readWakerProxy
deriving DecidableEq, Repr

/-- `WakerProxy::wake_by_ref`: the slots a firing wakes, in order. -/
def Proxy.wakeByRef (proxy : Proxy) : List (Proxy × ContextWaker) := [(proxy, .read), (proxy, .write)]

/-- The buffer handed to `poll_read`: what was filled never exceeds its capacity. -/
structure ReadBuf (capacity : ℕ) where
  filled : Bytes
  bounded : filled.length ≤ capacity
deriving DecidableEq

/-- One poll of the inner stream; `ctx` is the proxy its context was made from. -/
inductive InnerOp
  | pollRead (ctx : Proxy) (capacity : ℕ)
  | pollWrite (ctx : Proxy) (buf : Bytes)
  | pollFlush (ctx : Proxy)
deriving DecidableEq, Repr

/-- The proxy the inner stream was handed. -/
def InnerOp.ctx : InnerOp → Proxy
  | .pollRead ctx _ | .pollWrite ctx _ | .pollFlush ctx => ctx

/-- `poll_read` fills a buffer besides answering; the other polls only answer. -/
@[reducible] def InnerOp.Answer : InnerOp → Type
  | .pollRead _ capacity => ReadBuf capacity × Poll (Except IoError Unit)
  | .pollWrite _ _ => Poll (Except IoError ℕ)
  | .pollFlush _ => Poll (Except IoError Unit)

instance : (op : InnerOp) → DecidableEq op.Answer
  | .pollRead _ capacity => inferInstanceAs (DecidableEq (ReadBuf capacity × Poll (Except IoError Unit)))
  | .pollWrite _ _ => inferInstanceAs (DecidableEq (Poll (Except IoError ℕ)))
  | .pollFlush _ => inferInstanceAs (DecidableEq (Poll (Except IoError Unit)))

/-- The inner `AsyncRead + AsyncWrite`. -/
@[reducible] def innerIo : PFunctor := ⟨InnerOp, InnerOp.Answer⟩

abbrev InnerEvent := innerIo.Idx

/-- Poll the inner stream once. -/
def InnerOp.poll (op : InnerOp) : Program innerIo op.Answer := .lift (P := innerIo) op

/-- A call of tungstenite on the blocking stream it was given. -/
inductive StdOp
  | read (capacity : ℕ)
  | write (buf : Bytes)
  | flush
deriving DecidableEq, Repr

@[reducible] def StdOp.Answer : StdOp → Type
  | .read _ => Except IoError Bytes
  | .write _ => Except IoError ℕ
  | .flush => Except IoError Unit

instance : (op : StdOp) → DecidableEq op.Answer
  | .read _ => inferInstanceAs (DecidableEq (Except IoError Bytes))
  | .write _ => inferInstanceAs (DecidableEq (Except IoError ℕ))
  | .flush => inferInstanceAs (DecidableEq (Except IoError Unit))

/-- The blocking `Read + Write` that tungstenite calls. -/
@[reducible] def stdIo : PFunctor := ⟨StdOp, StdOp.Answer⟩

abbrev StdEvent := stdIo.Idx

namespace AllowStd

/-- `AllowStd::with_context`: the context of an inner poll is made from the proxy of its kind. -/
def withContext {α : Type} (kind : ContextWaker) (f : Proxy → Program innerIo α) : Program innerIo α :=
  match kind with
  | .read => f .readWakerProxy
  | .write => f .writeWakerProxy

/-- `<AllowStd as Read>::read`. A poll that is not `Ready(Ok)` reports no bytes. -/
def read (capacity : ℕ) : Program innerIo (Except IoError Bytes) := do
  let (buf, polled) ← withContext .read fun ctx => (InnerOp.pollRead ctx capacity).poll
  match polled with
  | .ready (.ok _) => return .ok buf.filled
  | .ready (.error err) => return .error err
  | .pending => return .error .wouldBlock

/-- `<AllowStd as Write>::write`. -/
def write (buf : Bytes) : Program innerIo (Except IoError ℕ) := do
  match ← withContext .write fun ctx => (InnerOp.pollWrite ctx buf).poll with
  | .ready r => return r
  | .pending => return .error .wouldBlock

/-- `<AllowStd as Write>::flush`. -/
def flush : Program innerIo (Except IoError Unit) := do
  match ← withContext .write fun ctx => (InnerOp.pollFlush ctx).poll with
  | .ready r => return r
  | .pending => return .error .wouldBlock

/-- The blocking stream as tungstenite sees it. -/
def serve : (op : StdOp) → Program innerIo op.Answer
  | .read capacity => read capacity
  | .write buf => write buf
  | .flush => flush

end AllowStd

/-- One blocking call together with the inner poll it made. -/
abbrev IoEvent := StdEvent × InnerEvent

/-- `Performs (std, inner)`: the adapter answers the blocking call `std` by the single poll `inner`. -/
def Performs (event : IoEvent) : Prop :=
  Exec (anyAnswer innerIo) (AllowStd.serve event.1.1) () [event.2] event.1.2 ()

/-- What `Read::read` reports of an inner poll. -/
def readResult {capacity : ℕ} : ReadBuf capacity × Poll (Except IoError Unit) → Except IoError Bytes
  | (buf, .ready (.ok _)) => .ok buf.filled
  | (_, .ready (.error err)) => .error err
  | (_, .pending) => .error .wouldBlock

/-- What `Write::write` and `Write::flush` report of an inner poll. -/
def blockingResult {α : Type} : Poll (Except IoError α) → Except IoError α
  | .ready r => r
  | .pending => .error .wouldBlock

/-- A program that makes one inner poll and computes its result from the answer. -/
private theorem exec_poll_bind_iff {α : Type} {op : InnerOp} {f : op.Answer → Program innerIo α}
    {report : op.Answer → α} (reports : ∀ polled, f polled = .pure (report polled)) {inner : InnerEvent} {r : α} :
    Exec (anyAnswer innerIo) (op.poll >>= f) () [inner] r () ↔
      ∃ polled, inner = ⟨op, polled⟩ ∧ r = report polled := by
  change Exec (anyAnswer innerIo) (.perform op f) () [inner] r () ↔ _
  simp only [Exec.perform_iff, anyAnswer, reports, Exec.pure_iff]
  constructor
  · rintro ⟨_, polled, _, _, events, rfl, rfl, rfl, _⟩
    exact ⟨polled, (List.cons.inj events).1, rfl⟩
  · rintro ⟨polled, rfl, rfl⟩
    exact ⟨_, polled, (), [], rfl, rfl, rfl, rfl, trivial⟩

theorem performs_read_iff {capacity : ℕ} {r : Except IoError Bytes} {inner : InnerEvent} :
    Performs (⟨.read capacity, r⟩, inner) ↔
      ∃ polled, inner = ⟨.pollRead .readWakerProxy capacity, polled⟩ ∧ r = readResult polled := by
  apply exec_poll_bind_iff
  rintro ⟨buf, (_ | _) | _⟩ <;> rfl

theorem performs_write_iff {buf : Bytes} {r : Except IoError ℕ} {inner : InnerEvent} :
    Performs (⟨.write buf, r⟩, inner) ↔
      ∃ polled, inner = ⟨.pollWrite .writeWakerProxy buf, polled⟩ ∧ r = blockingResult polled := by
  apply exec_poll_bind_iff
  rintro (_ | _) <;> rfl

theorem performs_flush_iff {r : Except IoError Unit} {inner : InnerEvent} :
    Performs (⟨.flush, r⟩, inner) ↔
      ∃ polled, inner = ⟨.pollFlush .writeWakerProxy, polled⟩ ∧ r = blockingResult polled := by
  apply exec_poll_bind_iff
  rintro (_ | _) <;> rfl

/-- `cvt`: a blocked operation is `Pending`, everything else is `Ready`. -/
def cvt {α : Type} (r : Except WsError α) : Poll (Except WsError α) :=
  match r with
  | .ok v => .ready (.ok v)
  | .error e => if e.isWouldBlock then .pending else .ready (.error e)

@[simp] theorem cvt_ok {α : Type} (v : α) : cvt (.ok v) = .ready (.ok v) := rfl

theorem cvt_blocked {α : Type} {e : WsError} (blocked : e.isWouldBlock = true) :
    cvt (.error e : Except WsError α) = .pending := if_pos blocked

theorem cvt_failed {α : Type} {e : WsError} (failed : e.isWouldBlock = false) :
    cvt (.error e : Except WsError α) = .ready (.error e) := by simp only [cvt, failed, Bool.false_eq_true, ↓reduceIte]

end TokioTungstenite
