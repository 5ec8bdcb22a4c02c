import TokioTungstenite.Model.Handshake
import Mathlib.Logic.Function.Basic

/-! # The adapter next to an inner stream that fires at any moment

Here the waker slots are shared memory. An outer operation runs its program one step at a time: it registers a
waker, enters a call into tungstenite, polls the inner stream, leaves the call, answers. Between any two of
these steps the inner stream may fire a proxy, and a firing wakes its two slots one after the other. For each
of its event sources the inner stream keeps only the proxy it was handed last, by whichever poll. The programs
are those of `WebSocketStream` and of the handshake future; outer operations never overlap.
-/

namespace TokioTungstenite

open Execution

/-- A waker slot: an `AtomicWaker` of one of the proxies. -/
abbrev Slot := Proxy × ContextWaker

variable {R : HandshakeRole}

/-- What owns the `AllowStd`: a handshake future, then the stream it resolves to. -/
inductive Owner (R : HandshakeRole)
  | handshake (future : HandshakeFuture R)
  | stream (flags : Flags)

/-- An outer operation: a poll of the handshake future, or one on the stream. -/
inductive Use
  | handshake (cx : Waker)
  | stream (op : Op)

/-- The side an operation belongs to, and the waker it was polled with. -/
def Use.context : Use → Option (ContextWaker × Waker)
  | .handshake cx => some (.read, cx)
  | .stream op => op.context

/-- What an outer operation answers. A handshake that panics answers `none`. -/
inductive Reply (R : HandshakeRole)
  | handshake (polled : Option (Poll (HandshakeResult R)))
  | stream (answer : Answer)

def Reply.isPending : Reply R → Bool
  | .handshake (some .pending) => true
  | .stream answer => answer.isPending
  | _ => false

/-- A handshake that succeeds hands its `AllowStd` on to a new stream. -/
def Owner.afterHandshake (polled : Option (Poll (HandshakeResult R))) (future : HandshakeFuture R) : Owner R :=
  match polled with
  | some (.ready (.ok _)) => .stream WebSocketStream.new
  | _ => .handshake future

/-- The program of an outer operation, if its owner has that operation. -/
def Owner.start : Owner R → Use → Option (Program (outer R) (Reply R × Owner R))
  | .handshake future, .handshake cx =>
    some ((fun (polled, future) => (.handshake polled, .afterHandshake polled future)) <$> future.poll cx)
  | .stream flags, .stream op => some (Prod.map .stream .stream <$> op.run flags)
  | _, _ => none

/-- The task that has `&mut` access: between operations, at the next step of one, or inside a call that has
made the blocking operations `std` so far. -/
inductive Thread (T : Tungstenite R)
  | idle (owner : Owner R)
  | running (program : Program (outer R) (Reply R × Owner R))
  | calling (c : Call R) (std : List StdEvent) (next : c.Answer → Program (outer R) (Reply R × Owner R))

/-- A moment of the system: `sources` is what the inner stream keeps for each event source, `firing` the slots
each firing in progress has yet to wake. -/
structure Config (T : Tungstenite R) (E : Type) where
  thread : Thread T
  inner : T.State
  slots : Slot → Option Waker
  sources : E → Option Proxy
  firing : List (List Slot)

inductive MicroLabel (R : HandshakeRole) (E : Type)
  | invoke (use : Use)
  | register (slot : Slot) (waker : Waker)
  | enter (c : Call R)
  /-- A blocking operation; the sources of `armed` keep the proxy handed to its inner poll. -/
  | io (event : IoEvent) (armed : List E)
  | leave (c : Call R) (r : c.Answer)
  | answer (reply : Reply R)
  /-- A proxy is fired, by a source that keeps it or for no reason. -/
  | fire (source : Option E) (proxy : Proxy)
  /-- `AtomicWaker::wake`: the waker in the slot, if any, is taken and woken. -/
  | wake (slot : Slot) (taken : Option Waker)

namespace MicroLabel

variable {E : Type}

def isAnswer : MicroLabel R E → Bool
  | .answer _ => true
  | _ => false

end MicroLabel

variable {E : Type} [DecidableEq E]

/-- One step of the task that runs an operation, or of the inner stream. -/
inductive MicroStep (T : Tungstenite R) : Config T E → MicroLabel R E → Config T E → Prop
  | invoke {cfg : Config T E} {owner : Owner R} {use : Use} {program : Program (outer R) (Reply R × Owner R)} :
      cfg.thread = .idle owner → owner.start use = some program →
      MicroStep T cfg (.invoke use) { cfg with thread := .running program }
  | register {cfg : Config T E} {proxy : Proxy} {kind : ContextWaker} {waker : Waker}
      {next : Unit → Program (outer R) (Reply R × Owner R)} :
      cfg.thread = .running (.perform (.register proxy kind waker) next) →
      MicroStep T cfg (.register (proxy, kind) waker)
        { cfg with thread := .running (next ()), slots := Function.update cfg.slots (proxy, kind) (some waker) }
  | enter {cfg : Config T E} {c : Call R} {next : c.Answer → Program (outer R) (Reply R × Owner R)} :
      cfg.thread = .running (.perform (.call c) next) →
      MicroStep T cfg (.enter c) { cfg with thread := .calling c [] next }
  | io {cfg : Config T E} {c : Call R} {std : List StdEvent} {next : c.Answer → Program (outer R) (Reply R × Owner R)}
      {event : IoEvent} {armed : List E} :
      cfg.thread = .calling c std next → Performs event →
      MicroStep T cfg (.io event armed)
        { cfg with
          thread := .calling c (std ++ [event.1]) next
          sources := fun e => if e ∈ armed then some event.2.1.ctx else cfg.sources e }
  | leave {cfg : Config T E} {c : Call R} {std : List StdEvent}
      {next : c.Answer → Program (outer R) (Reply R × Owner R)} {r : c.Answer} {inner : T.State} :
      cfg.thread = .calling c std next → T.exec c cfg.inner std r inner →
      MicroStep T cfg (.leave c r) { cfg with thread := .running (next r), inner := inner }
  | answer {cfg : Config T E} {reply : Reply R} {owner : Owner R} :
      cfg.thread = .running (.pure (reply, owner)) →
      MicroStep T cfg (.answer reply) { cfg with thread := .idle owner }
  | fire {cfg : Config T E} {proxy : Proxy} :
      MicroStep T cfg (.fire none proxy) { cfg with firing := proxy.wakeByRef :: cfg.firing }
  | fireSource {cfg : Config T E} {e : E} {proxy : Proxy} : cfg.sources e = some proxy →
      MicroStep T cfg (.fire (some e) proxy)
        { cfg with sources := Function.update cfg.sources e none, firing := proxy.wakeByRef :: cfg.firing }
  | wake {cfg : Config T E} {slot : Slot} {rest : List Slot} {before after : List (List Slot)} :
      cfg.firing = before ++ (slot :: rest) :: after →
      MicroStep T cfg (.wake slot (cfg.slots slot))
        { cfg with slots := Function.update cfg.slots slot none, firing := before ++ rest :: after }

/-- Any interleaving of the task and the inner stream. -/
abbrev MicroRun (T : Tungstenite R) : Config T E → List (MicroLabel R E) → Config T E → Prop := Path (MicroStep T)

end TokioTungstenite
