import TokioTungstenite.Model.Steps

/-! # What a run shows of the network and of tungstenite

Functions of a label or of its I/O, all read off what was recorded: which bytes the inner stream
filled and accepted, what the adapter reported of them, which calls were made. They are the vocabulary
in which the results about whole runs are stated.
-/

namespace TokioTungstenite

open Execution WebSocketStream

variable {R : HandshakeRole}

/-- One completed call with everything observed of it. -/
structure CallRecord (R : HandshakeRole) where
  call : Call R
  io : List IoEvent
  answer : call.Answer

def OuterEvent.record? : OuterEvent R → Option (CallRecord R)
  | .register _ _ _ => none
  | .call c io r => some ⟨c, io, r⟩

namespace Label

def calls (label : Label R) : List (CallRecord R) := label.events.filterMap OuterEvent.record?

def io (label : Label R) : List IoEvent := label.calls.flatMap CallRecord.io

end Label

/-- The bytes a blocking operation reported as read. -/
def StdEvent.reported : StdEvent → Bytes
  | ⟨.read _, .ok bytes⟩ => bytes
  | _ => []

/-- The bytes an inner poll filled, whatever it answered. -/
def InnerEvent.filled : InnerEvent → Bytes
  | ⟨.pollRead _ _, (buf, _)⟩ => buf.filled
  | _ => []

/-- The bytes an inner poll accepted for writing. -/
def InnerEvent.accepted : InnerEvent → Bytes
  | ⟨.pollWrite _ buf, .ready (.ok n)⟩ => buf.take n
  | _ => []

/-- The bytes an operation on the blocking stream reported as written. -/
def StdEvent.written : StdEvent → Bytes
  | ⟨.write buf, .ok n⟩ => buf.take n
  | _ => []

/-- The bytes the adapter reported as read over a run. -/
def reportedBytes (ls : List (Label R)) : Bytes :=
  (ls.flatMap Label.io).flatMap fun event => StdEvent.reported event.1

/-- The bytes the inner stream filled over a run. -/
def filledBytes (ls : List (Label R)) : Bytes :=
  (ls.flatMap Label.io).flatMap fun event => InnerEvent.filled event.2

/-- The bytes the inner stream accepted over a run. -/
def acceptedBytes (ls : List (Label R)) : Bytes :=
  (ls.flatMap Label.io).flatMap fun event => InnerEvent.accepted event.2

/-- The contract of `poll_read`: bytes are filled only by an answer `Ready(Ok)`. -/
def InnerEvent.FillsWhenReady : InnerEvent → Prop
  | ⟨.pollRead _ _, (buf, polled)⟩ => polled = .ready (.ok ()) ∨ buf.filled = []
  | _ => True

/-- The adapter reports exactly the bytes that were filled. -/
theorem Performs.reported_eq_filled {event : IoEvent} (performs : Performs event)
    (contract : InnerEvent.FillsWhenReady event.2) :
    StdEvent.reported event.1 = InnerEvent.filled event.2 := by
  rcases event with ⟨⟨op, r⟩, inner⟩
  cases op with
  | read capacity =>
    obtain ⟨⟨buf, polled⟩, rfl, rfl⟩ := performs_read_iff.mp performs
    rcases polled with (err | ⟨⟩) | _
    · simpa [StdEvent.reported, InnerEvent.filled, readResult, InnerEvent.FillsWhenReady, eq_comm] using contract
    · rfl
    · simpa [StdEvent.reported, InnerEvent.filled, readResult, InnerEvent.FillsWhenReady, eq_comm] using contract
  | write buf =>
    obtain ⟨polled, rfl, rfl⟩ := performs_write_iff.mp performs
    rfl
  | flush =>
    obtain ⟨polled, rfl, rfl⟩ := performs_flush_iff.mp performs
    rfl

/-- The adapter reports exactly the bytes that were accepted. -/
theorem Performs.written_eq_accepted {event : IoEvent} (performs : Performs event) :
    StdEvent.written event.1 = InnerEvent.accepted event.2 := by
  rcases event with ⟨⟨op, r⟩, inner⟩
  cases op with
  | read capacity =>
    obtain ⟨polled, rfl, rfl⟩ := performs_read_iff.mp performs
    rfl
  | write buf =>
    obtain ⟨polled, rfl, rfl⟩ := performs_write_iff.mp performs
    rcases polled with (err | n) | _ <;> rfl
  | flush =>
    obtain ⟨polled, rfl, rfl⟩ := performs_flush_iff.mp performs
    rfl

theorem written_eq_accepted_all {io : List IoEvent} (served : ∀ event ∈ io, Performs event) :
    (io.map Prod.fst).flatMap StdEvent.written = io.flatMap fun event => InnerEvent.accepted event.2 := by
  rw [List.flatMap_map]
  exact List.flatMap_congr fun event member => (served event member).written_eq_accepted

/-- The call an operation makes into tungstenite, if it makes one. -/
def Op.call? (self : Flags) : Op → Option (Call R)
  | .pollNext _ => if self.ended then none else some .read
  | .isTerminated | .dropNext => none
  | .pollReady _ => if self.ready then none else some .flush
  | .startSend item => some (.write item)
  | .pollFlush _ => some .flush
  | .pollClose _ => if self.closing then some .flush else some (.close none)

/-- The calls the operations make: `close` with no frame of its own, and no handshake. -/
theorem Op.call?_cases {op : Op} {self : Flags} {c : Call R} (made : op.call? self = some c) :
    c = .read ∨ (∃ item, c = .write item) ∨ c = .flush ∨ c = .close none := by
  cases op <;> simp only [call?, Option.ite_none_left_eq_some, reduceCtorEq, Option.some.injEq] at made
  case pollClose => split_ifs at made <;> simp_all
  all_goals grind

/-- Only `start_send` writes. -/
theorem Op.eq_startSend_of_call? {op : Op} {self : Flags} {item : Message}
    (made : op.call? (R := R) self = some (.write item)) : op = .startSend item := by
  cases op <;> simp only [call?, Option.ite_none_left_eq_some, reduceCtorEq, Option.some.injEq] at made
  case pollClose => split_ifs at made <;> simp_all
  all_goals simp_all

/-- Only `poll_next` reads. -/
theorem Op.eq_pollNext_of_call? {op : Op} {self : Flags} (made : op.call? (R := R) self = some .read) :
    ∃ cx, op = .pollNext cx := by
  cases op <;> simp only [call?, Option.ite_none_left_eq_some, reduceCtorEq, Option.some.injEq] at made
  case pollNext cx => exact ⟨cx, rfl⟩
  case pollClose => split_ifs at made <;> cases made
  all_goals cases made.2

variable {T : Tungstenite R} {s t : WebSocketStream T} {label : Label R}

@[simp] theorem filterMap_contextEvents (ctx : Option (ContextWaker × Waker)) :
    (contextEvents (R := R) ctx).filterMap OuterEvent.record? = [] := by
  rcases ctx with _ | ⟨_ | _, waker⟩ <;> rfl

/-- The I/O of an operation that registers its waker and makes one call. -/
@[simp] theorem Label.io_registered {op : Op} {kind : ContextWaker} {waker : Waker} {c : Call R} {io : List IoEvent}
    {r : c.Answer} {a : Answer} : Label.io ⟨op, registrations kind waker ++ [.call c io r], a⟩ = io :=
  List.append_nil io

/-- Everything an operation does to its WebSocket is at most one call. -/
theorem Step.shape (step : Step T s label t) :
    (label.op.call? (R := R) s.flags = none ∧ label.events = [] ∧ t.inner = s.inner) ∨
    ∃ c io r, label.op.call? s.flags = some c ∧ label.events = contextEvents label.op.context ++ [.call c io r] ∧
      T.Calls c s.inner io r t.inner := by
  obtain ⟨op, es, a⟩ := label
  cases op with
  | pollNext cx =>
    rcases step_pollNext_iff.mp step with ⟨ended, rfl, -, rfl⟩ | ⟨ended, io, r, rfl, calls, -, -⟩
    · exact .inl ⟨by simp [Op.call?, ended], rfl, rfl⟩
    · exact .inr ⟨_, io, r, by simp [Op.call?, ended], rfl, calls⟩
  | isTerminated =>
    obtain ⟨rfl, -, rfl⟩ := step_isTerminated_iff.mp step
    exact .inl ⟨rfl, rfl, rfl⟩
  | dropNext =>
    obtain ⟨rfl, -, rfl⟩ := step_dropNext_iff.mp step
    exact .inl ⟨rfl, rfl, rfl⟩
  | pollReady cx =>
    rcases step_pollReady_iff.mp step with ⟨ready, rfl, -, rfl⟩ | ⟨ready, io, r, rfl, calls, -, -⟩
    · exact .inl ⟨by simp [Op.call?, ready], rfl, rfl⟩
    · exact .inr ⟨_, io, r, by simp [Op.call?, ready], rfl, calls⟩
  | startSend item =>
    obtain ⟨io, r, rfl, calls, -, -⟩ := step_startSend_iff.mp step
    exact .inr ⟨_, io, r, rfl, rfl, calls⟩
  | pollFlush cx =>
    obtain ⟨io, r, rfl, calls, -, -⟩ := step_pollFlush_iff.mp step
    exact .inr ⟨_, io, r, rfl, rfl, calls⟩
  | pollClose cx =>
    rcases step_pollClose_iff.mp step with ⟨closing, io, r, rfl, calls, -, -⟩ | ⟨closing, io, r, rfl, calls, -, -⟩
    · exact .inr ⟨_, io, r, by simp [Op.call?, closing], rfl, calls⟩
    · exact .inr ⟨_, io, r, by simp [Op.call?, closing], rfl, calls⟩

/-- The same, in terms of the calls recorded. -/
theorem Step.calls_cases (step : Step T s label t) :
    (label.calls = [] ∧ t.inner = s.inner) ∨
    ∃ c io r, label.op.call? s.flags = some c ∧ label.calls = [⟨c, io, r⟩] ∧ T.Calls c s.inner io r t.inner := by
  rcases step.shape with ⟨-, none, same⟩ | ⟨c, io, r, made, events, calls⟩
  · exact .inl ⟨by simp [Label.calls, none], same⟩
  · exact .inr ⟨c, io, r, made, by simp [Label.calls, events, OuterEvent.record?], calls⟩

/-- Every inner poll of a run was served by the adapter. -/
theorem Step.performs (step : Step T s label t) : ∀ event ∈ label.io, Performs event := by
  rcases step.calls_cases with ⟨none, -⟩ | ⟨c, io, r, -, one, calls⟩
  · simp [Label.io, none]
  · simpa [Label.io, one] using calls.served

theorem Run.performs {ls : List (Label R)} (run : Run T s ls t) :
    ∀ event ∈ ls.flatMap Label.io, Performs event := by
  refine run.history (motive := fun ls _ => ∀ event ∈ ls.flatMap Label.io, Performs event) (by simp) ?_
  intro past now label next _ before step event member
  simp only [List.flatMap_append, List.flatMap_singleton, List.mem_append] at member
  exact member.elim (before event) (step.performs event)

end TokioTungstenite
