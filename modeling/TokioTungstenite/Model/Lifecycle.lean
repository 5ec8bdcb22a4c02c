import TokioTungstenite.Model.Observations

/-! # The life of a connection

A WebSocket is active until its close handshake begins, and never again afterwards. The `closing` flag
of a `WebSocketStream` is set by one branch of `poll_close` only, and never reset; what connects the two
is that the branch has just called `close`.
-/

namespace TokioTungstenite

open Execution WebSocketStream

variable {R : HandshakeRole} {T : Tungstenite R}

/-- When an implementation is active: `close` leaves that state, and nothing returns to it. -/
structure Lifecycle (T : Tungstenite R) where
  active : T.State → Prop
  closeLeaves : ∀ {frame : Option CloseFrame} {s t : T.State} {std : List StdEvent} {r : Except WsError Unit},
    T.exec (.close frame) s std r t → ¬active t
  neverReturns : ∀ {c : Call R} {s t : T.State} {std : List StdEvent} {r : c.Answer},
    T.exec c s std r t → active t → active s

namespace Lifecycle

variable (L : Lifecycle T) {s t : WebSocketStream T} {ls : List (Label R)}

theorem active_step {label : Label R} (step : Step T s label t) (active : L.active t.inner) : L.active s.inner := by
  rcases step.calls_cases with ⟨-, same⟩ | ⟨c, io, r, -, -, calls⟩
  · exact same ▸ active
  · exact L.neverReturns calls.exec active

/-- A connection that is active now has always been. -/
theorem active_run (run : Run T s ls t) (active : L.active t.inner) : L.active s.inner := by
  induction run with
  | nil => exact active
  | cons step _ ih => exact L.active_step step (ih active)

/-- Once the stream is `closing`, its connection is no longer active. -/
def ClosingInactive (s : WebSocketStream T) : Prop := s.flags.closing = true → ¬L.active s.inner

private theorem closingInactive_of_call {c : Call R} {io : List IoEvent} {r : c.Answer}
    (before : L.ClosingInactive s) (calls : T.Calls c s.inner io r t.inner)
    (flags : t.flags.closing = s.flags.closing) : L.ClosingInactive t := fun closing active =>
  before (flags ▸ closing) (L.neverReturns calls.exec active)

theorem closingInactive_step {label : Label R} (step : Step T s label t) (before : L.ClosingInactive s) :
    L.ClosingInactive t := by
  obtain ⟨op, es, a⟩ := label
  cases op with
  | pollNext cx =>
    rcases step_pollNext_iff.mp step with ⟨-, -, -, rfl⟩ | ⟨-, io, r, -, calls, -, flags⟩
    · exact before
    · exact L.closingInactive_of_call before calls (by rw [flags, nextResult_closing])
  | isTerminated =>
    obtain ⟨-, -, rfl⟩ := step_isTerminated_iff.mp step
    exact before
  | dropNext =>
    obtain ⟨-, -, rfl⟩ := step_dropNext_iff.mp step
    exact before
  | pollReady cx =>
    rcases step_pollReady_iff.mp step with ⟨-, -, -, rfl⟩ | ⟨-, io, r, -, calls, -, flags⟩
    · exact before
    · exact L.closingInactive_of_call before calls (by rw [flags, readyResult_closing])
  | startSend item =>
    obtain ⟨io, r, -, calls, -, flags⟩ := step_startSend_iff.mp step
    exact L.closingInactive_of_call before calls (by rw [flags, sentResult_closing])
  | pollFlush cx =>
    obtain ⟨io, r, -, calls, -, flags⟩ := step_pollFlush_iff.mp step
    exact L.closingInactive_of_call before calls (by rw [flags, flushResult_closing])
  | pollClose cx =>
    rcases step_pollClose_iff.mp step with ⟨closing, io, r, -, calls, -, -⟩ | ⟨-, io, r, -, calls, -, -⟩
    · exact fun _ active => before closing (L.neverReturns calls.exec active)
    · exact fun _ => L.closeLeaves calls.exec

/-- The invariant of every run that begins with a stream that is not `closing`. -/
theorem closingInactive_run (run : Run T s ls t) (before : L.ClosingInactive s) : L.ClosingInactive t :=
  run.invariant (fun _ _ _ _ good step => L.closingInactive_step step good) (fun _ _ => trivial) before

end Lifecycle

end TokioTungstenite
