import TokioTungstenite.Proofs.Reference

/-! # The send path

The bytes the inner stream accepts are, at every moment of every run, a prefix of the concatenation of
the frames queued, and the user frames among those are exactly the messages `start_send` took, in
order. Conservation is a law of the output buffer (`OutputBuffer.run_conserves`); what is added here is
that `start_send` answers `Ok` exactly when its message was queued.
-/

namespace TokioTungstenite

open Execution WebSocketStream

variable {R : HandshakeRole} {T : Tungstenite R}

/-- The messages `start_send` took, user pongs aside. -/
def Label.taken (label : Label R) : List Message :=
  match label.op, label.answer with
  | .startSend item, .sent (.ok ()) => if item.isPong then [] else [item]
  | _, _ => []

theorem sentResult_ok_iff (self : Flags) (r : Except WsError Unit) :
    (sentResult self r).1 = .ok () ↔ writeTaken r = true := by
  rcases r with e | v
  · cases blocked : e.isWouldBlock <;> simp [sentResult, writeTaken, blocked]
  · simp [sentResult, writeTaken]

variable {s t : WebSocketStream T} {ls : List (Label R)}

/-- `start_send` answers `Ok` exactly for a write that was taken, and no other operation writes. -/
theorem Step.taken_eq {label : Label R} (step : Step T s label t) :
    label.taken = label.calls.flatMap fun record => queuedBy record.call record.answer := by
  obtain ⟨op, es, a⟩ := label
  cases op with
  | pollNext cx => rcases step_pollNext_iff.mp step with ⟨-, rfl, rfl, -⟩ | ⟨-, io, r, rfl, -, rfl, -⟩ <;> rfl
  | isTerminated =>
    obtain ⟨rfl, rfl, -⟩ := step_isTerminated_iff.mp step
    rfl
  | dropNext =>
    obtain ⟨rfl, rfl, -⟩ := step_dropNext_iff.mp step
    rfl
  | pollReady cx => rcases step_pollReady_iff.mp step with ⟨-, rfl, rfl, -⟩ | ⟨-, io, r, rfl, -, rfl, -⟩ <;> rfl
  | startSend item =>
    obtain ⟨io, r, rfl, -, rfl, -⟩ := step_startSend_iff.mp step
    change Label.taken ⟨.startSend item, _, .sent (sentResult s.flags r).1⟩ = queuedBy (.write item) r ++ []
    have answered := sentResult_ok_iff s.flags r
    cases queued : writeTaken r with
    | true => cases pong : item.isPong <;> simp [Label.taken, answered.mpr queued, queuedBy, queued, pong]
    | false =>
      obtain ⟨e, failed⟩ : ∃ e, (sentResult s.flags r).1 = .error e := by
        rcases sent : (sentResult s.flags r).1 with e | v
        · exact ⟨e, rfl⟩
        · rw [answered.mp sent] at queued
          contradiction
      simp [Label.taken, failed, queuedBy, queued]
  | pollFlush cx =>
    obtain ⟨io, r, rfl, -, rfl, -⟩ := step_pollFlush_iff.mp step
    rfl
  | pollClose cx =>
    rcases step_pollClose_iff.mp step with ⟨-, io, r, rfl, -, rfl, -⟩ | ⟨-, io, r, rfl, -, rfl, -⟩ <;> rfl

variable {B : OutputBuffer T} {encodes : Message → Bytes → Prop}

/-- Over a run the frames queued for the user are those of the messages `start_send` took. -/
theorem QueuesOnce.run_queues (Q : QueuesOnce B encodes) (run : Run T s ls t) :
    ∃ new, B.log t.inner = B.log s.inner ++ new ∧ userMessages new = ls.flatMap Label.taken ∧
      ∀ item frame, (Origin.user item, frame) ∈ new → encodes item frame := by
  induction run with
  | nil => exact ⟨[], by simp, rfl, by simp⟩
  | @cons s middle t label ls step _ ih =>
    obtain ⟨new, logged, users, encoded⟩ := ih
    rw [List.flatMap_cons, step.taken_eq]
    rcases step.calls_cases with ⟨none, same⟩ | ⟨c, io, r, -, one, calls⟩
    · exact ⟨new, same ▸ logged, by simp [none, users], encoded⟩
    · obtain ⟨first, here, -⟩ := B.calls_conserve calls
      refine ⟨first ++ new, by rw [logged, here, List.append_assoc], ?_, ?_⟩
      · simp [one, users, Q.queues calls.exec here]
      · intro item frame member
        exact (List.mem_append.mp member).elim (Q.encodes calls.exec here item frame) (encoded item frame)

/-- A `poll_flush` that answers `Ready(Ok)` leaves nothing waiting. -/
theorem QueuesOnce.waiting_of_pollFlush (Q : QueuesOnce B encodes) {cx : Waker} {es : List (OuterEvent R)}
    (step : Step T s ⟨.pollFlush cx, es, .sink (.ready (.ok ()))⟩ t) : B.waiting t.inner = [] := by
  obtain ⟨io, r, -, calls, answer, -⟩ := step_pollFlush_iff.mp step
  have flushed := (flushResult_ok_iff _ _).mp (Answer.sink.inj answer).symm
  rw [OutputBuffer.waiting, Q.flushEmpties calls.exec flushed, List.map_nil]

/-- A `poll_close` that answers `Ready(Ok)` leaves nothing waiting, if `close` empties the buffer as
`flush` does. -/
theorem QueuesOnce.waiting_of_pollClose (Q : QueuesOnce B encodes) {cx : Waker} {es : List (OuterEvent R)}
    (closeEmpties : ∀ {s std t} {r : Except WsError Unit}, T.exec (.close none) s std r t →
      r = .ok () ∨ r = .error .connectionClosed → B.out t = [])
    (step : Step T s ⟨.pollClose cx, es, .sink (.ready (.ok ()))⟩ t) : B.waiting t.inner = [] := by
  rcases step_pollClose_iff.mp step with ⟨-, io, r, -, calls, answer, -⟩ | ⟨-, io, r, -, calls, answer, -⟩
  · have flushed := (closeResult_ok_iff _ _).mp (Answer.sink.inj answer).symm
    rw [OutputBuffer.waiting, Q.flushEmpties calls.exec flushed, List.map_nil]
  · have closed := (closeResult_ok_iff _ _).mp (Answer.sink.inj answer).symm
    rw [OutputBuffer.waiting, closeEmpties calls.exec closed, List.map_nil]

/-- The send path loses, duplicates and reorders nothing. Over any run the bytes accepted, then those
waiting, are the frames queued, in order; the user frames among them are those of the messages taken,
in order and once each; and once `poll_flush` answers `Ready(Ok)` all of them have been accepted. -/
theorem send_path_faithful (Q : QueuesOnce B encodes) (run : Run T s ls t) :
    ∃ new, B.log t.inner = B.log s.inner ++ new ∧
      acceptedBytes ls ++ B.waiting t.inner = B.waiting s.inner ++ new.flatMap Prod.snd ∧
      userMessages new = ls.flatMap Label.taken ∧
      (∀ item frame, (Origin.user item, frame) ∈ new → encodes item frame) ∧
      (∀ past cx es, ls = past ++ [⟨.pollFlush cx, es, .sink (.ready (.ok ()))⟩] →
        acceptedBytes ls = B.waiting s.inner ++ new.flatMap Prod.snd) ∧
      ((∀ {s std t} {r : Except WsError Unit}, T.exec (.close none) s std r t →
          r = .ok () ∨ r = .error .connectionClosed → B.out t = []) →
        ∀ past cx es, ls = past ++ [⟨.pollClose cx, es, .sink (.ready (.ok ()))⟩] →
          acceptedBytes ls = B.waiting s.inner ++ new.flatMap Prod.snd) := by
  obtain ⟨new, logged, users, encoded⟩ := Q.run_queues run
  obtain ⟨new', logged', conserved⟩ := B.run_conserves run
  obtain rfl : new = new' := List.append_cancel_left (logged.symm.trans logged')
  refine ⟨new, logged, conserved, users, encoded, ?_, ?_⟩
  · rintro past cx es rfl
    obtain ⟨before, -, last⟩ := Path.concat_iff.mp run
    rw [← conserved, Q.waiting_of_pollFlush last, List.append_nil]
  · rintro closeEmpties past cx es rfl
    obtain ⟨before, -, last⟩ := Path.concat_iff.mp run
    rw [← conserved, Q.waiting_of_pollClose closeEmpties last, List.append_nil]

/-! A server accepts a message of one byte, and then flushes it out whole. -/

private def answerItem : Message := .binary [0x2a]

private def accepted : Label noHandshake :=
  ⟨.startSend answerItem, [.call (.write answerItem) [] (.ok ())], .sent (.ok ())⟩

private def flushedOut : Label noHandshake where
  op := .pollFlush ⟨0⟩
  events := registrations .write ⟨0⟩ ++
    [.call .flush [(⟨.write [0x82, 0x01, 0x2a], .ok 3⟩,
        ⟨.pollWrite .writeWakerProxy [0x82, 0x01, 0x2a], .ready (.ok 3)⟩),
      (⟨.flush, .ok ()⟩, ⟨.pollFlush .writeWakerProxy, .ready (.ok ())⟩)] (.ok ())]
  answer := .sink (.ready (.ok ()))

private def answerEntry : Entry := (.user answerItem, [0x82, 0x01, 0x2a])

private def afterAccept : WebSocketStream (Reference.small .server) :=
  ⟨(Reference.fresh, ⟨answerEntry.bytes, [answerEntry]⟩), WebSocketStream.new⟩

private def afterFlush : WebSocketStream (Reference.small .server) :=
  ⟨(Reference.fresh, ⟨[], [answerEntry]⟩), WebSocketStream.new⟩

private theorem accept_step : Step (Reference.small .server) (Reference.start .server) accepted afterAccept :=
  step_startSend_iff.mpr ⟨[], .ok (), rfl, reference_calls rfl (by simp) (by simp), rfl, rfl⟩

private theorem flush_step : Step (Reference.small .server) afterAccept flushedOut afterFlush := by
  refine step_pollFlush_iff.mpr ⟨_, _, rfl, reference_calls rfl ?_ ?_, rfl, rfl⟩
  · simp [StdEvent.WellBehaved]
  · refine List.forall_mem_cons.mpr ⟨performs_write_iff.mpr ⟨.ready (.ok 3), rfl, rfl⟩, ?_⟩
    exact List.forall_mem_singleton.mpr (performs_flush_iff.mpr ⟨.ready (.ok ()), rfl, rfl⟩)

private theorem send_run : Run (Reference.small .server) (Reference.start .server) [accepted, flushedOut] afterFlush :=
  .cons accept_step (.single flush_step)

theorem send_path_faithful_oneMessage : ∃ new, [answerEntry] = [] ++ new ∧
    acceptedBytes [accepted, flushedOut] ++ [] = [] ++ new.flatMap Prod.snd ∧ userMessages new = [answerItem] := by
  obtain ⟨new, logged, conserved, users, -⟩ :=
    send_path_faithful (reference_queuesOnce noHandshake (Reference.smallConfig .server)) send_run
  exact ⟨new, logged, conserved, users⟩

end TokioTungstenite
