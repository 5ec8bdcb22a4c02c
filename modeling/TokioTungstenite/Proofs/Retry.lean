import TokioTungstenite.Proofs.Reference

/-! # Retrying a message that was rejected for lack of room

`start_send` sets `ready` on every rejection, so after `WriteBufferFull` the next `poll_ready` answers
`Ready(Ok)` at once and flushes nothing. A caller that takes this for room is rejected again, as often as it
tries. The promise holds only where the message is not rejected in the first place.
-/

namespace TokioTungstenite

open Execution WebSocketStream

variable {R : HandshakeRole} {T : Tungstenite R}

/-- The answer of a `start_send` whose message was rejected for lack of room. -/
def Answer.isFull : Answer → Bool
  | .sent (.error (.writeBufferFull _)) => true
  | _ => false

/-- A `flush`, or a `close` that ends as one, has succeeded. -/
def CallRecord.flushed : CallRecord R → Bool
  | ⟨.flush, _, .ok _⟩ | ⟨.close _, _, .ok _⟩ => true
  | _ => false

namespace RejectsFull

variable {L : Lifecycle T} {B : OutputBuffer T} {maxWriteBufferSize : ℕ} {frameLength : Message → ℕ}
  {s : WebSocketStream T} {item : Message}

/-- Where the frame does not fit, `start_send` may reject it, change no buffer and leave `ready` set. -/
theorem exists_rejection (H : RejectsFull L B maxWriteBufferSize frameLength) (active : L.active s.inner)
    (full : maxWriteBufferSize < (B.out s.inner).length + frameLength item) :
    ∃ (rejection : Label R) (u : WebSocketStream T), Step T s rejection u ∧ rejection.op = .startSend item ∧
      rejection.answer.isFull = true ∧ u.flags.ready = true ∧ B.out u.inner = B.out s.inner ∧
      ((∀ code, item ≠ .close code) → L.active u.inner) := by
  obtain ⟨back, io, t, calls, same, still⟩ := H.whenFull active full
  have rejected : sentResult s.flags (.error (.writeBufferFull back)) =
    (.error (.writeBufferFull back), { s.flags with ready := true }) := rfl
  refine ⟨_, ⟨t, { s.flags with ready := true }⟩, step_startSend_iff.mpr ⟨io, _, rfl, calls, rfl, ?_⟩, rfl, ?_⟩
  · rw [rejected]
  · exact ⟨rfl, rfl, same, still⟩

/-- After a rejection `poll_ready` answers `Ready(Ok)` at once, with nothing flushed. -/
private theorem poll_after_rejection (ready : s.flags.ready = true) (cx : Waker) :
    Step T s ⟨.pollReady cx, [], .sink (.ready (.ok ()))⟩ s := step_pollReady_iff.mpr (.inl ⟨ready, rfl, rfl, rfl⟩)

/-- A caller that polls and retries at once can be rejected any number of times in a row. -/
theorem rejected_again (H : RejectsFull L B maxWriteBufferSize frameLength) (active : L.active s.inner)
    (notClose : ∀ code, item ≠ .close code)
    (full : maxWriteBufferSize < (B.out s.inner).length + frameLength item) (cx : Waker) (n : ℕ) :
    ∃ (rejections : List (Label R)) (t : WebSocketStream T), rejections.length = n ∧
      Run T s (rejections.flatMap fun rejection => [rejection, ⟨.pollReady cx, [], .sink (.ready (.ok ()))⟩]) t ∧
      ∀ rejection ∈ rejections, rejection.op = .startSend item ∧ rejection.answer.isFull = true := by
  induction n generalizing s with
  | zero => exact ⟨[], s, rfl, .nil s, by simp⟩
  | succ n ih =>
    obtain ⟨rejection, u, step, send, rejected, ready, same, still⟩ := H.exists_rejection active full
    obtain ⟨rest, t, length, run, all⟩ := ih (still notClose) (same ▸ full)
    refine ⟨rejection :: rest, t, congrArg Nat.succ length, ?_, List.forall_mem_cons.mpr ⟨⟨send, rejected⟩, all⟩⟩
    exact .cons step (.cons (poll_after_rejection ready cx) run)

end RejectsFull

end TokioTungstenite
