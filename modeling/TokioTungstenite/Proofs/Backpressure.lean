import TokioTungstenite.Proofs.Reference

/-! # Backpressure

A caller that follows the `Sink` protocol never makes tungstenite buffer more than the frame of one message
beyond the write buffer size. The flag `ready` alone does not say how much is buffered: `poll_close` sets it
whatever happened, and the reader drains the buffer without touching it. The invariant `Bounded` therefore
speaks of `ready` only while the connection is active, and `poll_close` leaves the active state.
-/

namespace TokioTungstenite

open Execution WebSocketStream

variable {R : HandshakeRole} {T : Tungstenite R}

/-- The answers a run may contain: any success, any rejection of a message, a closed connection, and any
answer of `poll_close`, which has closed the connection. -/
def Label.Unbroken (label : Label R) : Prop :=
  match label.op, label.answer with
  | .startSend _, .sent (.error e) => ∀ io, e ≠ .io io
  | .pollReady _, .sink (.ready (.error e)) | .pollFlush _, .sink (.ready (.error e)) => e = .connectionClosed
  | _, _ => True

/-- A `poll_ready` has answered `Ready(Ok)` since the last `start_send`. -/
def granted (ls : List (Label R)) : Bool :=
  ls.foldl (fun before label =>
    match label.op, label.answer with
    | .pollReady _, .sink (.ready (.ok _)) => true
    | .startSend _, _ => false
    | _, _ => before) false

/-- The `Sink` protocol: every `start_send` has been granted. -/
def FollowsProtocol (ls : List (Label R)) : Prop :=
  ∀ past label future, ls = past ++ label :: future → ∀ item, label.op = .startSend item → granted past = true

/-- The last message a `start_send` accepted. -/
def lastAccepted (ls : List (Label R)) : Option Message :=
  ls.foldl (fun before label =>
    match label.op, label.answer with
    | .startSend item, .sent (.ok _) => some item
    | _, _ => before) none

theorem FollowsProtocol.past {past future : List (Label R)} (protocol : FollowsProtocol (past ++ future)) :
    FollowsProtocol past := fun before label after same =>
  protocol before label (after ++ future) (by rw [same, List.append_assoc, List.cons_append])

@[simp] theorem granted_concat (ls : List (Label R)) (label : Label R) :
    granted (ls ++ [label]) = match label.op, label.answer with
      | .pollReady _, .sink (.ready (.ok _)) => true
      | .startSend _, _ => false
      | _, _ => granted ls := List.foldl_concat ..

@[simp] theorem lastAccepted_concat (ls : List (Label R)) (label : Label R) :
    lastAccepted (ls ++ [label]) = match label.op, label.answer with
      | .startSend item, .sent (.ok _) => some item
      | _, _ => lastAccepted ls := List.foldl_concat ..

/-- An unbroken flush of `poll_ready` or `poll_flush` either blocked, and left the flags alone, or emptied
the buffer. -/
private theorem readyResult_cases {self : Flags} {r : Except WsError Unit} {cx : Waker} {es : List (OuterEvent R)}
    (unbroken : Label.Unbroken ⟨.pollReady cx, es, .sink (readyResult self r).1⟩) :
    (readyResult self r).2 = self ∨ r = .ok () ∨ r = .error .connectionClosed := by
  rcases r with e | ⟨⟩
  · cases blocked : e.isWouldBlock with
    | true => exact .inl (by rw [readyResult, cvt_blocked blocked])
    | false =>
      simp only [readyResult, cvt_failed blocked] at unbroken
      exact .inr (.inr (congrArg Except.error unbroken))
  · exact .inr (.inl rfl)

private theorem flushResult_cases {self : Flags} {r : Except WsError Unit} {cx : Waker} {es : List (OuterEvent R)}
    (unbroken : Label.Unbroken ⟨.pollFlush cx, es, .sink (flushResult self r).1⟩) :
    (flushResult self r).2 = self ∨ r = .ok () ∨ r = .error .connectionClosed := by
  rcases r with e | ⟨⟩
  · cases blocked : e.isWouldBlock with
    | true => exact .inl (by rw [flushResult, cvt_blocked blocked])
    | false =>
      by_cases closed : e = .connectionClosed
      · exact .inr (.inr (congrArg Except.error closed))
      · rw [flushResult_failed _ blocked closed] at unbroken
        exact (closed unbroken).elim
  · exact .inr (.inl rfl)

variable {L : Lifecycle T} {B : OutputBuffer T} {writeBufferSize : ℕ} {frameLength : Message → ℕ}

variable {s t : WebSocketStream T} {label : Label R} {ls : List (Label R)}

private theorem flushResult_ready_of_ready {self : Flags} {r : Except WsError Unit} (ready : self.ready = true) :
    (flushResult self r).2.ready = true := by
  unfold flushResult
  repeat' split
  all_goals first | rfl | exact ready

/-- Only `start_send` clears the flag. -/
theorem Step.ready_of_ready (step : Step T s label t) (notSend : ∀ item, label.op ≠ .startSend item)
    (ready : s.flags.ready = true) : t.flags.ready = true := by
  obtain ⟨op, es, a⟩ := label
  cases op with
  | startSend item => exact (notSend item rfl).elim
  | pollNext cx =>
    rcases step_pollNext_iff.mp step with ⟨-, -, -, rfl⟩ | ⟨-, io, r, -, -, -, flags⟩
    · exact ready
    · rwa [flags, nextResult_ready]
  | isTerminated =>
    obtain ⟨-, -, rfl⟩ := step_isTerminated_iff.mp step
    exact ready
  | dropNext =>
    obtain ⟨-, -, rfl⟩ := step_dropNext_iff.mp step
    exact ready
  | pollReady cx =>
    rcases step_pollReady_iff.mp step with ⟨-, -, -, rfl⟩ | ⟨cleared, -⟩
    · exact ready
    · rw [ready] at cleared
      contradiction
  | pollFlush cx =>
    obtain ⟨io, r, -, -, -, flags⟩ := step_pollFlush_iff.mp step
    rw [flags, flushResult_ready_of_ready ready]
  | pollClose cx =>
    rcases step_pollClose_iff.mp step with ⟨-, io, r, -, -, -, flags⟩ | ⟨-, io, r, -, -, -, flags⟩ <;>
      rw [flags, closeResult_ready]

/-- A `poll_ready` that answers `Ready(Ok)` leaves the flag set. -/
theorem Step.ready_of_pollReady {cx : Waker} {es : List (OuterEvent R)} {done : Unit}
    (step : Step T s ⟨.pollReady cx, es, .sink (.ready (.ok done))⟩ t) : t.flags.ready = true := by
  rcases step_pollReady_iff.mp step with ⟨ready, -, -, rfl⟩ | ⟨-, io, r, -, -, answer, flags⟩
  · exact ready
  · obtain rfl := (readyResult_ok_iff _ _).mp (Answer.sink.inj answer).symm
    rw [flags]
    rfl

namespace Buffers

/-- Whatever does not write leaves at most the user bytes that were buffered. -/
theorem step_drains (H : Buffers L B writeBufferSize frameLength) (step : Step T s label t)
    (notSend : ∀ item, label.op ≠ .startSend item) : userBytes (B.out t.inner) ≤ userBytes (B.out s.inner) := by
  rcases step.calls_cases with ⟨-, same⟩ | ⟨c, io, r, made, -, calls⟩
  · rw [same]
  · have notWrite : ∀ item, c ≠ .write item := by
      rintro item rfl
      exact notSend item (Op.eq_startSend_of_call? made)
    obtain ⟨new, logged, bounded⟩ := B.calls_userBytes calls
    have none := H.othersQueue calls.exec notWrite logged
    omega

/-- While the connection is active the flag is set, short of `start_send`, only where it was set before or
where the buffer has just been emptied. -/
theorem ready_cases (H : Buffers L B writeBufferSize frameLength) (step : Step T s label t)
    (unbroken : label.Unbroken) (notSend : ∀ item, label.op ≠ .startSend item) (closing : L.ClosingInactive s)
    (active : L.active t.inner) (ready : t.flags.ready = true) : s.flags.ready = true ∨ B.out t.inner = [] := by
  obtain ⟨op, es, a⟩ := label
  cases op with
  | startSend item => exact (notSend item rfl).elim
  | pollNext cx =>
    rcases step_pollNext_iff.mp step with ⟨-, -, -, rfl⟩ | ⟨-, io, r, -, -, -, flags⟩
    · exact .inl ready
    · exact .inl (by rwa [flags, nextResult_ready] at ready)
  | isTerminated =>
    obtain ⟨-, -, rfl⟩ := step_isTerminated_iff.mp step
    exact .inl ready
  | dropNext =>
    obtain ⟨-, -, rfl⟩ := step_dropNext_iff.mp step
    exact .inl ready
  | pollReady cx =>
    rcases step_pollReady_iff.mp step with ⟨before, -⟩ | ⟨before, io, r, -, calls, rfl, flags⟩
    · exact .inl before
    · rcases readyResult_cases unbroken with same | flushed
      · exact .inl (by rwa [flags, same] at ready)
      · exact .inr (H.flushEmpties calls.exec flushed)
  | pollFlush cx =>
    obtain ⟨io, r, -, calls, rfl, flags⟩ := step_pollFlush_iff.mp step
    rcases flushResult_cases unbroken with same | flushed
    · exact .inl (by rwa [flags, same] at ready)
    · exact .inr (H.flushEmpties calls.exec flushed)
  | pollClose cx =>
    rcases step_pollClose_iff.mp step with ⟨before, io, r, -, calls, -⟩ | ⟨-, io, r, -, calls, -⟩
    · exact (closing before (L.neverReturns calls.exec active)).elim
    · exact (L.closeLeaves calls.exec active).elim

/-- The invariant that bounds the buffer. -/
structure Bounded (L : Lifecycle T) (B : OutputBuffer T) (writeBufferSize : ℕ) (frameLength : Message → ℕ)
    (ls : List (Label R)) (t : WebSocketStream T) : Prop where
  /-- While the connection is active, a stream that is ready has room. -/
  room : L.active t.inner → t.flags.ready = true → userBytes (B.out t.inner) ≤ writeBufferSize
  /-- Whatever happened, only the last message accepted can exceed the write buffer size. -/
  total : userBytes (B.out t.inner) ≤ writeBufferSize + (lastAccepted ls).elim 0 frameLength
  /-- A granted stream is ready. -/
  ready : granted ls = true → t.flags.ready = true
  closing : L.ClosingInactive t

/-- `start_send` keeps the bound: it writes only when there is room, and clears the flag when it blocks. -/
theorem Bounded.startSend (H : Buffers L B writeBufferSize frameLength) {item : Message} {es : List (OuterEvent R)}
    {a : Answer} (before : Bounded L B writeBufferSize frameLength ls s)
    (step : Step T s ⟨.startSend item, es, a⟩ t) (unbroken : Label.Unbroken ⟨.startSend item, es, a⟩)
    (allowed : granted ls = true) :
    Bounded L B writeBufferSize frameLength (ls ++ [⟨.startSend item, es, a⟩]) t := by
  have closing := L.closingInactive_step step before.closing
  have stays := L.active_step step
  obtain ⟨io, r, -, calls, rfl, flags⟩ := step_startSend_iff.mp step
  obtain ⟨new, logged, bounded⟩ := B.calls_userBytes calls
  have queued := H.writeQueues calls.exec logged
  have room := fun active => before.room active (before.ready allowed)
  have total := before.total
  rcases r with e | ⟨⟩
  · cases blocked : e.isWouldBlock with
    | true =>
      have active : L.active s.inner := by
        by_contra inactive
        obtain ⟨_, same, notIo⟩ := H.writeOfInactive inactive calls.exec
        obtain ⟨io, rfl, -⟩ := WsError.isWouldBlock_iff.mp blocked
        exact notIo io (Except.error.inj same).symm
      have accepted : sentResult s.flags (.error e) = (.ok (), { s.flags with ready := false }) := if_pos blocked
      rw [accepted] at flags ⊢
      refine ⟨fun _ ready => by simp [flags] at ready, ?_, by simp, closing⟩
      have := room active
      simp only [lastAccepted_concat, Option.elim_some]
      omega
    | false =>
      have refused : sentResult s.flags (.error e) = (.error e, { s.flags with ready := true }) := by
        simp [sentResult, blocked]
      rw [refused] at flags unbroken ⊢
      have none := H.rejected calls.exec unbroken logged
      refine ⟨fun active _ => ?_, ?_, by simp, closing⟩
      · have := room (stays active)
        omega
      · simp only [lastAccepted_concat]
        omega
  · have fits := (userBytes_le_length _).trans (H.writeOk calls.exec)
    refine ⟨fun _ _ => fits, ?_, by simp, closing⟩
    exact fits.trans (Nat.le_add_right _ _)

/-- Every other operation keeps the bound: it adds nothing, and grants only what is ready. -/
theorem Bounded.other (H : Buffers L B writeBufferSize frameLength)
    (before : Bounded L B writeBufferSize frameLength ls s) (step : Step T s label t) (unbroken : label.Unbroken)
    (notSend : ∀ item, label.op ≠ .startSend item) :
    Bounded L B writeBufferSize frameLength (ls ++ [label]) t := by
  have drained := H.step_drains step notSend
  have last : lastAccepted (ls ++ [label]) = lastAccepted ls := by
    rw [lastAccepted_concat]
    obtain ⟨op, es, a⟩ := label
    cases op <;> first | rfl | exact (notSend _ rfl).elim
  refine ⟨fun active ready => ?_, ?_, ?_, L.closingInactive_step step before.closing⟩
  · rcases H.ready_cases step unbroken notSend before.closing active ready with ready | empty
    · exact drained.trans (before.room (L.active_step step active) ready)
    · simp [empty, userBytes]
  · rw [last]
    exact drained.trans before.total
  · intro allowed
    rw [granted_concat] at allowed
    obtain ⟨op, es, a⟩ := label
    dsimp only at allowed
    split at allowed
    · exact Step.ready_of_pollReady step
    · exact (notSend _ rfl).elim
    · exact step.ready_of_ready notSend (before.ready allowed)

/-- The invariant holds wherever an unbroken run that follows the protocol has got to. -/
theorem run_bounded (H : Buffers L B writeBufferSize frameLength) (run : Run T s ls t)
    (closing : s.flags.closing = false) (room : userBytes (B.out s.inner) ≤ writeBufferSize)
    (protocol : FollowsProtocol ls) (unbroken : ∀ label ∈ ls, label.Unbroken) :
    Bounded L B writeBufferSize frameLength ls t := by
  have initial : Bounded L B writeBufferSize frameLength [] s :=
    ⟨fun _ _ => room, by simpa [lastAccepted] using room, by simp [granted], fun set => by simp [closing] at set⟩
  revert protocol unbroken
  refine run.history (motive := fun ls t => FollowsProtocol ls → (∀ label ∈ ls, label.Unbroken) →
    Bounded L B writeBufferSize frameLength ls t) (fun _ _ => initial) ?_
  intro past now label next _ ih step protocol unbroken
  rw [List.forall_mem_append, List.forall_mem_singleton] at unbroken
  have before := ih protocol.past unbroken.1
  by_cases send : ∃ item, label.op = .startSend item
  · obtain ⟨item, same⟩ := send
    obtain ⟨op, es, a⟩ := label
    obtain rfl : op = .startSend item := same
    exact before.startSend H step unbroken.2 (protocol past _ [] rfl item rfl)
  · exact before.other H step unbroken.2 fun item same => send ⟨item, same⟩

end Buffers

/-- Backpressure bounds the queue: over every run that follows the protocol, the user bytes buffered exceed
the write buffer size by at most the frame of the last message accepted, and not at all where the next
`start_send` is granted on an active connection. -/
theorem backpressure_bounds (H : Buffers L B writeBufferSize frameLength) (run : Run T s ls t)
    (closing : s.flags.closing = false) (room : userBytes (B.out s.inner) ≤ writeBufferSize)
    (protocol : FollowsProtocol ls) (unbroken : ∀ label ∈ ls, label.Unbroken) :
    userBytes (B.out t.inner) ≤ writeBufferSize + (lastAccepted ls).elim 0 frameLength ∧
      (granted ls = true → L.active t.inner → userBytes (B.out t.inner) ≤ writeBufferSize) := by
  have bounded := H.run_bounded run closing room protocol unbroken
  exact ⟨bounded.total, fun allowed active => bounded.room active (bounded.ready allowed)⟩

/-! A granted message whose frame exceeds the write buffer size by one byte, and blocks. -/

private def largeItem : Message := .binary [1, 2, 3]

private def largeFrame : Bytes := [0x82, 3, 1, 2, 3]

private def granting : Label noHandshake := ⟨.pollReady ⟨0⟩, [], .sink (.ready (.ok ()))⟩

private def blockedSend : Label noHandshake where
  op := .startSend largeItem
  events := [.call (.write largeItem)
    [(⟨.write largeFrame, .error .wouldBlock⟩, ⟨.pollWrite .writeWakerProxy largeFrame, .pending⟩)]
    (.error (.io .wouldBlock))]
  answer := .sent (.ok ())

private def afterBlock : WebSocketStream (Reference.small .server) where
  inner := (Reference.fresh, ⟨Entry.bytes (.user largeItem, largeFrame), [(.user largeItem, largeFrame)]⟩)
  flags := { WebSocketStream.new with ready := false }

private theorem blocked_run :
    Run (Reference.small .server) (Reference.start .server) [granting, blockedSend] afterBlock := by
  refine .cons (step_pollReady_iff.mpr (.inl ⟨rfl, rfl, rfl, rfl⟩)) (.single ?_)
  refine step_startSend_iff.mpr ⟨_, _, rfl, reference_calls rfl ?_ ?_, rfl, rfl⟩
  · simp [StdEvent.WellBehaved, IoError.wouldBlock]
  · exact List.forall_mem_singleton.mpr (performs_write_iff.mpr ⟨.pending, rfl, rfl⟩)

private theorem blocked_protocol : FollowsProtocol [granting, blockedSend] := by
  intro past label future split item send
  rcases past with _ | ⟨first, _ | ⟨second, rest⟩⟩
  · obtain ⟨rfl, -⟩ := List.cons.inj split
    cases send
  · obtain ⟨rfl, -⟩ := List.cons.inj split
    rfl
  · simp at split

theorem backpressure_bounds_blocked : userBytes (Entry.bytes (.user largeItem, largeFrame)) ≤ 4 + 5 :=
  (backpressure_bounds (reference_buffers noHandshake (Reference.smallConfig .server)) blocked_run rfl
    (Nat.zero_le _) blocked_protocol (by simp [Label.Unbroken, granting, blockedSend])).1

end TokioTungstenite
