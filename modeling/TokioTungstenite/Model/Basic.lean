import Mathlib.Control.Monad.Basic
import Mathlib.Data.Nat.Notation

/-! # Polls, wakers, messages and errors

The vocabulary the crate takes from the standard library and from tungstenite. `Result<T, E>` is
`Except E T`. Error and message types list the variants the crate names, raises or passes through;
the payloads of variants it only passes through are kept as opaque data.
-/

namespace TokioTungstenite

abbrev Bytes := List UInt8

/-- `std::task::Poll`. -/
inductive Poll (α : Type)
  | ready (value : α)
  | pending
deriving DecidableEq, Repr

/-- `Poll::map`. -/
def Poll.map {α β : Type} (f : α → β) : Poll α → Poll β
  | .ready value => .ready (f value)
  | .pending => .pending

/-- `std::task::Waker`: a handle that wakes one task. -/
structure Waker where
  task : ℕ
deriving DecidableEq, Repr

inductive ErrorKind
  | wouldBlock
  | connectionRefused
  | connectionReset
  | brokenPipe
  | notFound
  | other
deriving DecidableEq, Repr

/-- `std::io::Error`: its kind and what it displays as. -/
structure IoError where
  kind : ErrorKind
  message : String
deriving DecidableEq, Repr

/-- `std::io::Error::from(ErrorKind::WouldBlock)`. -/
def IoError.wouldBlock : IoError := ⟨.wouldBlock, "operation would block"⟩

structure CloseFrame where
  code : UInt16
  reason : String
deriving DecidableEq, Repr

/-- `tungstenite::Message`. -/
inductive Message
  | text (data : String)
  | binary (data : Bytes)
  | ping (data : Bytes)
  | pong (data : Bytes)
  | close (frame : Option CloseFrame)
  | frame (raw : Bytes)
deriving DecidableEq, Repr

/-- A user `Pong` is sent as one of the WebSocket's control frames. -/
def Message.isPong : Message → Bool
  | .pong _ => true
  | _ => false

inductive UrlError
  | tlsFeatureNotEnabled
  | noHostName
  | unableToConnect (address : String)
  | unsupportedUrlScheme
  | emptyHostName
  | noPathOrQuery
deriving DecidableEq, Repr

inductive TlsError
  | native (detail : String)
  | rustls (detail : String)
  | invalidDnsName
deriving DecidableEq, Repr

inductive ProtocolError
  | sendAfterClosing
  | receivedAfterClosing
  | resetWithoutClosingHandshake
  | other (code : ℕ)
deriving DecidableEq, Repr

/-- `tungstenite::Error`. -/
inductive WsError
  | connectionClosed
  | alreadyClosed
  | io (error : IoError)
  | tls (error : TlsError)
  | capacity (size limit : ℕ)
  | protocol (error : ProtocolError)
  | writeBufferFull (message : Message)
  | utf8 (detail : String)
  | attackAttempt
  | url (error : UrlError)
  | http (status : ℕ)
  | httpFormat (detail : String)
deriving DecidableEq, Repr

/-- The guard `Io(e) if e.kind() == WouldBlock`. -/
def WsError.isWouldBlock : WsError → Bool
  | .io error => error.kind == .wouldBlock
  | _ => false

/-- The guard `AlreadyClosed | ConnectionClosed`. -/
def WsError.isClosed : WsError → Bool
  | .alreadyClosed | .connectionClosed => true
  | _ => false

theorem WsError.isWouldBlock_iff {error : WsError} :
    error.isWouldBlock = true ↔ ∃ io, error = .io io ∧ io.kind = .wouldBlock := by
  cases error <;> simp [isWouldBlock]

theorem WsError.isWouldBlock_of_not_io {error : WsError} (kind : ∀ io, error ≠ .io io) :
    error.isWouldBlock = false := by
  cases error with
  | io e => exact (kind e rfl).elim
  | _ => rfl

@[simp] theorem WsError.isWouldBlock_wouldBlock : (WsError.io .wouldBlock).isWouldBlock = true := rfl

end TokioTungstenite
