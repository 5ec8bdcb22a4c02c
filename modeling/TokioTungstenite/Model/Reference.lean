import TokioTungstenite.Model.OutputBuffer

/-! # A reference WebSocket

An executable implementation of `Tungstenite` in the shape of the real one: an output buffer with its two
size limits, one slot for a pending reply, and the phases of the close handshake. It shows that what the
results assume can be met all at once, and on it their promises can be tried. Every chunk read is taken as
one whole frame with a zero mask, and its blocking stream only ever makes progress or blocks.
-/

namespace TokioTungstenite

open Execution

variable {R : HandshakeRole}

/-! ## Programs over an output buffer -/

/-- What a WebSocket does with its output buffer and its blocking stream. `write` hands over the contents. -/
inductive BufferOp
  | length
  | queue (entry : Entry)
  | write
  | flush
  | read (capacity : ℕ)

@[reducible] def BufferOp.Answer : BufferOp → Type
  | .length => ℕ
  | .queue _ => Unit
  | .write => Except IoError ℕ
  | .flush => Except IoError Unit
  | .read _ => Except IoError Bytes

@[reducible] def bufferIo : PFunctor := ⟨BufferOp, BufferOp.Answer⟩

def BufferOp.perform (op : BufferOp) : Program bufferIo op.Answer := .lift (P := bufferIo) op

/-- The buffer and its log. -/
structure Buffer where
  out : List OutByte
  log : List Entry

def Buffer.queue (s : Buffer) (entry : Entry) : Buffer := { out := s.out ++ entry.bytes, log := s.log ++ [entry] }

/-- Exactly the count reported is dropped from the front. -/
def Buffer.wrote (s : Buffer) : Except IoError ℕ → Buffer
  | .ok n => { s with out := s.out.drop n }
  | .error _ => s

/-- The length is what it is; the blocking stream may answer anything. -/
def bufferHandler : Handler bufferIo Buffer (List BufStep)
  | .length, s, steps, length, t => steps = [] ∧ length = s.out.length ∧ t = s
  | .queue entry, s, steps, _, t => steps = [.queue entry] ∧ t = s.queue entry
  | .write, s, steps, r, t => steps = [.io ⟨.write (s.out.map Prod.snd), r⟩] ∧ t = s.wrote r
  | .flush, s, steps, r, t => steps = [.io ⟨.flush, r⟩] ∧ t = s
  | .read capacity, s, steps, r, t => steps = [.io ⟨.read capacity, r⟩] ∧ t = s

/-- Replay a program on a record of its blocking operations: check each against the buffer it had, feed its
answer back, and compute the result and the buffer it left. -/
def replay? {α : Type} : Program bufferIo α → Buffer → List StdEvent → Option (α × Buffer)
  | .pure value, s, [] => some (value, s)
  | .perform .length next, s, std => replay? (next s.out.length) s std
  | .perform (.queue entry) next, s, std => replay? (next ()) (s.queue entry) std
  | .perform .write next, s, ⟨.write buf, r⟩ :: std =>
      if buf = s.out.map Prod.snd then replay? (next r) (s.wrote r) std else none
  | .perform .flush next, s, ⟨.flush, r⟩ :: std => replay? (next r) s std
  | .perform (.read capacity) next, s, ⟨.read offered, r⟩ :: std =>
      if offered = capacity then replay? (next r) s std else none
  | _, _, _ => none

/-! ## Frames -/

inductive Role
  | server
  | client
deriving DecidableEq, Repr

namespace Reference

/-- The opcode byte of a final frame. -/
def opcode : Message → UInt8
  | .text _ => 0x81
  | .binary _ | .frame _ => 0x82
  | .ping _ => 0x89
  | .pong _ => 0x8a
  | .close _ => 0x88

def payload : Message → Bytes
  | .text data => data.toUTF8.toList
  | .binary data | .ping data | .pong data | .frame data => data
  | .close none => []
  | .close (some frame) => [(frame.code >>> 8).toUInt8, frame.code.toUInt8] ++ frame.reason.toUTF8.toList

/-- The length field: one byte, or a marker and two or eight bytes, big-endian. -/
def lengthField (n : ℕ) (mask : UInt8) : Bytes :=
  if n < 126 then [mask ||| n.toUInt8]
  else if n < 65536 then (mask ||| 126) :: [n / 256, n].map Nat.toUInt8
  else (mask ||| 127) :: (List.range 8).map fun i => (n / 256 ^ (7 - i)).toUInt8

/-- A client masks what it sends. -/
def frame (role : Role) (item : Message) : Bytes :=
  let data := payload item
  match role with
  | .server => opcode item :: lengthField data.length 0 ++ data
  | .client => opcode item :: lengthField data.length 0x80 ++ [0, 0, 0, 0] ++ data

/-- The message of one whole short frame, as the other side sent it. -/
def message (role : Role) (chunk : Bytes) : Message :=
  let data := match role with
    | .server => chunk.drop 6
    | .client => chunk.drop 2
  match chunk.head? with
  | some 0x88 => .close none
  | some 0x89 => .ping data
  | some 0x8a => .pong data
  | _ => .binary data

/-! ## The protocol -/

/-- `WebSocketState`. -/
inductive Phase
  | active
  | closedByUs
  | closedByPeer
  | closeAcknowledged
  | terminated
deriving DecidableEq, Repr

def Phase.canRead : Phase → Bool
  | .active | .closedByUs => true
  | _ => false

structure Config where
  role : Role
  writeBufferSize : ℕ
  maxWriteBufferSize : ℕ

/-- What the WebSocket keeps besides its buffer. `closes` is a history variable. -/
structure Protocol where
  phase : Phase
  /-- The control frame still to be sent in reply, `additional_send`. -/
  reply : Option Bytes
  /-- A reply was queued but not yet flushed, `unflushed_additional`. -/
  unflushed : Bool
  closes : List (Option CloseFrame)
deriving DecidableEq

def fresh : Protocol := { phase := .active, reply := none, unflushed := false, closes := [] }

/-- Write the buffer out until it is empty or a write blocks. -/
def drain : ℕ → Program bufferIo (Except WsError Unit)
  | 0 => return .ok ()
  | fuel + 1 => do
    if (← BufferOp.length.perform) = 0 then return .ok ()
    else match ← BufferOp.write.perform with
      | .ok _ => drain fuel
      | .error e => return .error (.io e)

def writeOutBuffer : Program bufferIo (Except WsError Unit) := do drain (← BufferOp.length.perform)

def sendReply (self : Protocol) : Program bufferIo Protocol := do
  match self.reply with
  | none => return self
  | some bytes =>
    (BufferOp.queue (.control, bytes)).perform
    return { self with reply := none }

variable (config : Config)

/-- A server that can no longer read has nothing to wait for once its buffer is out. -/
def flush (self : Protocol) : Program bufferIo (Except WsError Unit × Protocol) := do
  let self ← sendReply self
  match ← writeOutBuffer with
  | .error e => return (.error e, self)
  | .ok _ =>
    if config.role = .server ∧ self.phase.canRead = false then
      return (.error .connectionClosed, { self with phase := .terminated })
    else match ← BufferOp.flush.perform with
      | .error e => return (.error (.io e), self)
      | .ok _ => return (.ok (), { self with unflushed := false })

/-- A close leaves the active state before any I/O, also when its frame finds no room. -/
def close (origin : Origin) (code : Option CloseFrame) (self : Protocol) :
    Program bufferIo (Except WsError Unit × Protocol) :=
  if self.phase = .active then do
    let self := { self with phase := .closedByUs }
    let bytes := frame config.role (.close code)
    if config.maxWriteBufferSize < (← BufferOp.length.perform) + bytes.length then
      return (.error (.writeBufferFull (.close code)), self)
    else
      (BufferOp.queue (origin, bytes)).perform
      flush config { self with closes := self.closes ++ [code] }
  else flush config self

def origin (item : Message) : Origin := if item.isPong then .control else .user item

def write (item : Message) (self : Protocol) : Program bufferIo (Except WsError Unit × Protocol) := do
  if self.phase = .terminated then return (.error .alreadyClosed, self)
  else if self.phase ≠ .active then return (.error (.protocol .sendAfterClosing), self)
  else match item with
    | .close code => close config (.user (.close code)) code self
    | item =>
      let bytes := frame config.role item
      if config.maxWriteBufferSize < (← BufferOp.length.perform) + bytes.length then
        return (.error (.writeBufferFull item), self)
      else
        (BufferOp.queue (origin item, bytes)).perform
        if config.writeBufferSize < (← BufferOp.length.perform) then return (← writeOutBuffer, self)
        else return (.ok (), self)

/-- What a frame of the other side does to the protocol. -/
def receive (item : Message) (self : Protocol) : Protocol :=
  match item, self.phase with
  | .close code, .active =>
      { self with
        phase := .closedByPeer
        reply := some (frame config.role (.close code))
        closes := self.closes ++ [code] }
  | .close _, .closedByUs => { self with phase := .closeAcknowledged }
  | .ping data, .active => { self with reply := some (frame config.role (.pong data)) }
  | _, _ => self

/-- Read one frame. -/
def readFrame (self : Protocol) : Program bufferIo (Except WsError Message × Protocol) := do
  match ← (BufferOp.read 4096).perform with
  | .error e => return (.error (.io e), self)
  | .ok chunk =>
    let item := message config.role chunk
    return (.ok item, receive config item self)

/-- A reply is flushed first; when that blocks the WebSocket reads on and tries again later. -/
def read (self : Protocol) : Program bufferIo (Except WsError Message × Protocol) := do
  if self.phase = .terminated then return (.error .alreadyClosed, self)
  else if self.reply.isSome ∨ self.unflushed = true then
    match ← flush config self with
    | (.ok _, self) => readFrame config self
    | (.error e, self) =>
      if e.isWouldBlock then readFrame config { self with unflushed := true } else return (.error e, self)
  else if config.role = .server ∧ self.phase.canRead = false then
    return (.error .connectionClosed, { self with phase := .terminated })
  else readFrame config self

/-- The machine answers the calls of a WebSocket; handshakes are none of its business. -/
def machine (c : Call R) (self : Protocol) : Program bufferIo (c.Answer × Protocol) :=
  match c with
  | .read => read config self
  | .write item => write config item self
  | .flush => flush config self
  | .close code => close config .control code self
  | .start _ _ | .handshake _ => return (.error (.failure .alreadyClosed), self)

end Reference

/-- The blocking stream takes some of what it is given, or blocks. -/
def StdEvent.WellBehaved : StdEvent → Prop
  | ⟨.write buf, .ok n⟩ => 0 < n ∧ n ≤ buf.length
  | ⟨.write _, .error e⟩ | ⟨.read _, .error e⟩ | ⟨.flush, .error e⟩ => e.kind = .wouldBlock
  | _ => True

/-- The reference implementation. -/
def reference (R : HandshakeRole) (config : Reference.Config) : Tungstenite R where
  State := Reference.Protocol × Buffer
  exec c s std r t := ∃ es, Exec bufferHandler (Reference.machine config c s.1) s.2 es (r, t.1) t.2 ∧
    std = es.flatten.filterMap BufStep.event? ∧ ∀ event ∈ std, event.WellBehaved

/-- No handshake, as for a WebSocket made from a raw socket. -/
def noHandshake : HandshakeRole := ⟨Unit, Unit, Unit, Unit⟩

/-- Buffers so small that every case is met within a few frames. -/
abbrev Reference.smallConfig (role : Role) : Config := { role, writeBufferSize := 4, maxWriteBufferSize := 6 }

abbrev Reference.small (role : Role) : Tungstenite noHandshake := reference noHandshake (smallConfig role)

/-- A fresh stream over the reference. -/
def Reference.start (role : Role) : WebSocketStream (small role) := ⟨(fresh, ⟨[], []⟩), WebSocketStream.new⟩

end TokioTungstenite
