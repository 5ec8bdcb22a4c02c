import TokioTungstenite.Execution.PrefixCode
import TokioTungstenite.Model.Assumptions
import TokioTungstenite.Model.Interleaving

/-! # Two adapters on one connection

Two adapters, each with its own tungstenite, are joined by two pipes. A pipe takes what the inner stream of one end
accepts and fills the reads of the other from its front, in portions of any size and at any time. The ends
interleave poll by poll, with each other and with the firings of both.
-/

namespace TokioTungstenite

open Execution

variable {R R' : HandshakeRole}

/-! ## The pipes -/

section Labels

variable {E : Type}

/-- The bytes the inner stream accepts. -/
def MicroLabel.accepted : MicroLabel R E → Bytes
  | .io event _ => InnerEvent.accepted event.2
  | _ => []

/-- The bytes the inner stream fills. -/
def MicroLabel.filled : MicroLabel R E → Bytes
  | .io event _ => InnerEvent.filled event.2
  | _ => []

/-- The contract of `poll_read`, for a label. -/
def MicroLabel.FillsWhenReady : MicroLabel R E → Prop
  | .io event _ => InnerEvent.FillsWhenReady event.2
  | _ => True

end Labels

/-- Both ends, and the bytes under way to each. -/
structure Connection (T : Tungstenite R) (T' : Tungstenite R') (E E' : Type) where
  left : Config T E
  right : Config T' E'
  toRight : Bytes
  toLeft : Bytes

variable {T : Tungstenite R} {T' : Tungstenite R'} {E E' : Type} [DecidableEq E] [DecidableEq E']

/-- A step of one end: its inner stream puts what it accepts into one pipe and fills from the other. -/
inductive ConnectionStep (T : Tungstenite R) (T' : Tungstenite R') :
    Connection T T' E E' → MicroLabel R E ⊕ MicroLabel R' E' → Connection T T' E E' → Prop
  | left {c : Connection T T' E E'} {label : MicroLabel R E} {next : Config T E} {rest : Bytes} :
      MicroStep T c.left label next → label.FillsWhenReady → c.toLeft = label.filled ++ rest →
      ConnectionStep T T' c (.inl label)
        { c with left := next, toRight := c.toRight ++ label.accepted, toLeft := rest }
  | right {c : Connection T T' E E'} {label : MicroLabel R' E'} {next : Config T' E'} {rest : Bytes} :
      MicroStep T' c.right label next → label.FillsWhenReady → c.toRight = label.filled ++ rest →
      ConnectionStep T T' c (.inr label)
        { c with right := next, toRight := rest, toLeft := c.toLeft ++ label.accepted }

/-- Any interleaving of the two ends. -/
abbrev ConnectionRun (T : Tungstenite R) (T' : Tungstenite R') :
    Connection T T' E E' → List (MicroLabel R E ⊕ MicroLabel R' E') → Connection T T' E E' → Prop :=
  Path (ConnectionStep T T')

/-- What each end did. -/
def lefts {α β : Type} (ls : List (α ⊕ β)) : List α := ls.filterMap Sum.getLeft?

def rights {α β : Type} (ls : List (α ⊕ β)) : List β := ls.filterMap Sum.getRight?

/-! ## What delivery assumes of the two tungstenites -/

/-- The wire format: each message is encoded as a word of a prefix code, and read back by `decode`. Some messages
are not carried as they are: a raw frame, or a Close with a code that may not be sent. -/
structure WireFormat extends PrefixCode UInt8 where
  encodes : Message → Bytes → Prop
  carries : Message → Prop
  decode : Bytes → Message
  word_of_encodes : ∀ {item : Message} {frame : Bytes}, carries item → encodes item frame → word frame
  decode_of_encodes : ∀ {item : Message} {frame : Bytes}, carries item → encodes item frame → decode frame = item

/-- The call writes only a message the format carries. -/
def Call.Carried (F : WireFormat) : Call R → Prop
  | .write item => F.carries item
  | _ => True

/-- What the sender queues, it queues once and in the format, its own control frames included. -/
structure Sends (B : OutputBuffer T) (F : WireFormat) : Prop extends QueuesOnce B F.encodes where
  control : ∀ {c : Call R} {s std r t new}, c.Carried F → T.exec c s std r t → B.log t = B.log s ++ new →
    ∀ frame, (Origin.control, frame) ∈ new → F.word frame

/-- The messages a call returns. -/
def Call.received : (c : Call R) → c.Answer → List Message
  | .read, .ok v => [v]
  | _, _ => []

/-- What the receiver keeps of its input. While words arrive, each message `read` returns is the next word; and a
`read` that blocks has no whole word left. -/
structure Receives (T : Tungstenite R) (F : WireFormat) where
  inp : T.State → Bytes
  consumes : ∀ {c : Call R} {s : T.State} {std : List StdEvent} {r : c.Answer} {t : T.State} {stream : List Bytes},
    T.exec c s std r t → (∀ w ∈ stream, F.word w) → inp s ++ std.flatMap StdEvent.reported <+: stream.flatten →
    ∃ words : List Bytes, (∀ w ∈ words, F.word w) ∧
      inp s ++ std.flatMap StdEvent.reported = words.flatten ++ inp t ∧ c.received r = words.map F.decode
  blocked : ∀ {s : T.State} {std : List StdEvent} {e : WsError} {t : T.State},
    T.exec .read s std (.error e) t → e.isWouldBlock = true → ∀ w, F.word w → ¬ w <+: inp t

end TokioTungstenite
