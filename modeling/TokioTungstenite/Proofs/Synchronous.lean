import TokioTungstenite.Proofs.History
import TokioTungstenite.Proofs.Delivery

/-! # A stream that never blocks

Over an inner stream that is always ready nothing is left of the asynchronous interface but its names: a
`WebSocketStream` is then the blocking WebSocket it wraps, whose calls are made one by one. The machine
`Synchronous` keeps no flag but that the messages have ended, and has no answer `Pending`.
-/

namespace TokioTungstenite

open Execution WebSocketStream

variable {R : HandshakeRole} {T : Tungstenite R}

/-- The item that a blocking read yields. -/
def readItem : Except WsError Message → Option (Except WsError Message)
  | .ok v => some (.ok v)
  | .error e => if e.isClosed then none else some (.error e)

/-- What a blocking flush or close answers: a closed connection has nothing left to flush. -/
def flushed : Except WsError Unit → Except WsError Unit
  | .error .connectionClosed => .ok ()
  | r => r

/-- What an operation does where nothing blocks. -/
def Op.blocking (ended : Bool) : Op → Plan R
  | .pollNext _ => if ended then .answer (.next (.ready none)) else .call .read fun r => .next (.ready (readItem r))
  | .isTerminated => .answer (.terminated ended)
  | .dropNext => .answer .dropped
  | .pollReady _ => .answer (.sink (.ready (.ok ())))
  | .startSend item => .call (.write item) fun r => .sent r
  | .pollFlush _ => .call .flush fun r => .sink (.ready (flushed r))
  | .pollClose _ => .call (.close none) fun r => .sink (.ready (flushed r))

/-- One operation on the blocking WebSocket. -/
def Synchronous (T : Tungstenite R) (before : T.State × Bool) (label : Label R) (after : T.State × Bool) : Prop :=
  (label.op.blocking before.2).Executes T before.1 label after.1 ∧ after.2 = (before.2 || label.ends)

/-- The inner stream was always ready. -/
def Label.NeverBlocked (label : Label R) : Prop := ∀ event ∈ label.io, ¬InnerEvent.Blocked event.2

variable {s t : WebSocketStream T} {u v : T.State} {past ls : List (Label R)} {label : Label R}

section Replies

/-- Two plans with the same call have the same executions, if they translate what it can answer alike. -/
private theorem executes_congr {c : Call R} {reply reply' : c.Answer → Answer}
    (same : ∀ io r, label.io = io → T.Calls c u io r v → reply r = reply' r) :
    (Plan.call c reply).Executes T u label v ↔ (Plan.call c reply').Executes T u label v := by
  have made {io : List IoEvent} {r : c.Answer}
      (events : label.events = contextEvents label.op.context ++ [.call c io r]) : label.io = io := by
    simp [Label.io, Label.calls, events, OuterEvent.record?]
  constructor
  · rintro ⟨io, r, events, calls, answered⟩
    exact ⟨io, r, events, calls, answered.trans (same io r (made events) calls)⟩
  · rintro ⟨io, r, events, calls, answered⟩
    exact ⟨io, r, events, calls, answered.trans (same io r (made events) calls).symm⟩

private theorem free_of_calls (blocks : BlocksWithStream T) (never : label.NeverBlocked) {c : Call R}
    {io : List IoEvent} {r : c.Answer} (made : label.io = io) (calls : T.Calls c u io r v) : ¬c.Blocked r := by
  intro blocked
  obtain ⟨event, mem, stalled⟩ := blocks.exists_io calls blocked
  exact never event (made ▸ mem) stalled

private theorem isWouldBlock_of_free {α : Type} {r : Except WsError α} {e : WsError}
    (free : ¬∃ e, r = .error e ∧ e.isWouldBlock = true) (failed : r = .error e) : e.isWouldBlock = false := by
  by_contra blocked
  exact free ⟨e, failed, by simpa using blocked⟩

private theorem nextReply_eq {r : Except WsError Message} (free : ¬Call.Blocked (R := R) .read r) :
    nextReply r = .ready (readItem r) := by
  cases r with
  | ok v => rfl
  | error e =>
    have failed := isWouldBlock_of_free free rfl
    cases closed : e.isClosed <;> simp [nextReply, readItem, failed, closed]

private theorem sentReply_eq {r : Except WsError Unit} (free : ¬∃ e, r = .error e ∧ e.isWouldBlock = true) :
    sentReply r = r := by
  cases r with
  | ok v => rfl
  | error e => simp [sentReply, isWouldBlock_of_free free rfl]

private theorem flushReply_eq {r : Except WsError Unit} (free : ¬∃ e, r = .error e ∧ e.isWouldBlock = true) :
    flushReply r = .ready (flushed r) := by
  cases r with
  | ok v => rfl
  | error e =>
    have failed := isWouldBlock_of_free free rfl
    cases e <;> simp_all [flushReply, flushed]

end Replies

/-- Where nothing blocks and nothing has blocked before, an operation does what it does on the blocking WebSocket. -/
private theorem executes_iff_blocking (blocks : BlocksWithStream T) (never : label.NeverBlocked)
    (closing : isClosing past = false) (blocked : isBlocked past = false) :
    (label.op.plan past).Executes T u label v ↔ (label.op.blocking (hasEnded past)).Executes T u label v := by
  cases op : label.op with
  | pollNext cx =>
    simp only [Op.plan, Op.blocking]
    split
    · rfl
    · apply executes_congr
      intro io r made calls
      rw [nextReply_eq (free_of_calls blocks never made calls)]
  | isTerminated => rfl
  | dropNext => rfl
  | pollReady cx => simp [Op.plan, Op.blocking, blocked]
  | startSend item =>
    apply executes_congr
    intro io r made calls
    rw [sentReply_eq (free_of_calls blocks never made calls)]
  | pollFlush cx =>
    apply executes_congr
    intro io r made calls
    rw [flushReply_eq (free_of_calls blocks never made calls)]
  | pollClose cx =>
    simp only [Op.plan, Op.blocking, closing, Bool.false_eq_true, ↓reduceIte]
    apply executes_congr
    intro io r made calls
    rw [flushReply_eq (free_of_calls blocks never made calls)]

/-- And then it shows nothing that has blocked. -/
private theorem free_of_blocking {ended : Bool} (executes : (label.op.blocking ended).Executes T u label v)
    (blocks : BlocksWithStream T) (never : label.NeverBlocked) :
    label.waitsToClose = false ∧ label.blockage?.getD false = false := by
  cases op : label.op <;> rw [op] at executes
  case pollNext cx => simp [Label.waitsToClose, Label.blockage?, op]
  case isTerminated => simp [Label.waitsToClose, Label.blockage?, op]
  case dropNext => simp [Label.waitsToClose, Label.blockage?, op]
  case pollReady cx =>
    obtain ⟨-, answered, -⟩ := executes
    simp [Label.waitsToClose, Label.blockage?, op, answered]
  case startSend item =>
    obtain ⟨io, r, events, calls, answered⟩ := executes
    have made : label.calls = [⟨.write item, io, r⟩] := by simp [Label.calls, events, OuterEvent.record?]
    have free := free_of_calls blocks never (by simp [Label.io, made]) calls
    cases r with
    | ok v => simp [Label.waitsToClose, Label.blockage?, Label.writeBlocked, op, made]
    | error e =>
      have failed := isWouldBlock_of_free free rfl
      simp [Label.waitsToClose, Label.blockage?, Label.writeBlocked, op, made, failed]
  case pollFlush cx =>
    obtain ⟨io, r, -, -, answered⟩ := executes
    simp [Label.waitsToClose, Label.blockage?, op, answered]
  case pollClose cx =>
    obtain ⟨io, r, -, -, answered⟩ := executes
    simp [Label.waitsToClose, Label.blockage?, op, answered]

/-- A run of the blocking WebSocket knows of the past only whether the messages have ended. -/
private theorem forgets (blocks : BlocksWithStream T) {ended : Bool}
    (path : Path (Synchronous T) (u, false) ls (v, ended)) (never : ∀ label ∈ ls, label.NeverBlocked) :
    ended = hasEnded ls ∧ isClosing ls = false ∧ isBlocked ls = false := by
  induction ls using List.reverseRecOn generalizing v ended with
  | nil =>
    obtain ⟨-, rfl⟩ := Prod.mk.inj (Path.nil_iff.mp path)
    exact ⟨rfl, rfl, rfl⟩
  | append_singleton past label ih =>
    obtain ⟨⟨w, ended'⟩, before, executes, last⟩ := Path.concat_iff.mp path
    rw [List.forall_mem_append, List.forall_mem_singleton] at never
    obtain ⟨rfl, closing, blocked⟩ := ih before never.1
    obtain ⟨waits, shown⟩ := free_of_blocking executes blocks never.2
    rw [hasEnded_concat, isClosing_concat, isBlocked_concat, closing, blocked, waits]
    exact ⟨last, rfl, shown⟩

private theorem run_iff_memory (blocks : BlocksWithStream T) (never : ∀ label ∈ ls, label.NeverBlocked) :
    Run T ⟨u, new⟩ ls t ↔ Path (Synchronous T) (u, false) ls (t.inner, hasEnded ls) ∧ t.flags = memory ls := by
  induction ls using List.reverseRecOn generalizing t with
  | nil =>
    constructor
    · intro run
      obtain rfl := Path.nil_iff.mp run
      exact ⟨.nil _, rfl⟩
    · rintro ⟨path, remembers⟩
      obtain ⟨same, -⟩ := Prod.mk.inj (Path.nil_iff.mp path)
      exact Path.nil_iff.mpr (same_iff.mpr ⟨remembers, same⟩)
  | append_singleton past label ih =>
    rw [List.forall_mem_append, List.forall_mem_singleton] at never
    have forgotten {v : T.State} {ended : Bool} (path : Path (Synchronous T) (u, false) past (v, ended)) :=
      forgets blocks path never.1
    constructor
    · intro run
      obtain ⟨now, before, step⟩ := Path.concat_iff.mp run
      obtain ⟨path, remembers⟩ := (ih never.1).mp before
      obtain ⟨-, closing, blocked⟩ := forgotten path
      obtain ⟨executes, remembers'⟩ := (step_iff_executes remembers).mp step
      have blocking := (executes_iff_blocking blocks never.2 closing blocked).mp executes
      exact ⟨Path.concat_iff.mpr ⟨_, path, blocking, hasEnded_concat past label⟩, remembers'⟩
    · rintro ⟨path, remembers⟩
      obtain ⟨⟨w, ended⟩, before, blocking, -⟩ := Path.concat_iff.mp path
      obtain ⟨rfl, closing, blocked⟩ := forgotten before
      have run : Run T ⟨u, new⟩ past ⟨w, memory past⟩ := (ih never.1).mpr ⟨before, rfl⟩
      have executes := (executes_iff_blocking blocks never.2 closing blocked).mpr blocking
      exact Path.concat_iff.mpr ⟨_, run, (step_iff_executes rfl).mpr ⟨executes, remembers⟩⟩

/-- Over an inner stream that never blocks, the runs of a fresh stream are those of the blocking WebSocket. -/
theorem run_iff_synchronous (blocks : BlocksWithStream T) (never : ∀ label ∈ ls, label.NeverBlocked) :
    Run T ⟨u, new⟩ ls t ↔
      Path (Synchronous T) (u, false) ls (t.inner, t.flags.ended) ∧ t.flags.closing = false ∧
        t.flags.ready = true := by
  rw [run_iff_memory blocks never]
  constructor
  · rintro ⟨path, remembers⟩
    obtain ⟨-, closing, blocked⟩ := forgets blocks path never
    simp [remembers, memory, path, closing, blocked]
  · rintro ⟨path, open', ready⟩
    obtain ⟨ended, closing, blocked⟩ := forgets blocks path never
    refine ⟨ended ▸ path, ?_⟩
    obtain ⟨inner, flags⟩ := t
    obtain ⟨_, _, _⟩ := flags
    simp_all [memory]

/-! A byte is sent and flushed out, and nothing blocks. -/

private theorem tiny_blocksWithStream : BlocksWithStream tiny := by
  intro c s std r t exec blocked
  cases c with
  | write item =>
    obtain ⟨b, -, -, rfl, -⟩ := exec
    obtain ⟨e, ⟨⟩, -⟩ := blocked
  | flush =>
    obtain ⟨-, rfl, -⟩ := exec
    obtain ⟨e, ⟨⟩, -⟩ := blocked
  | read =>
    obtain ⟨-, ⟨b, -, rfl⟩ | ⟨rfl, -⟩⟩ := exec
    · obtain ⟨e, ⟨⟩, -⟩ := blocked
    · exact ⟨_, List.mem_singleton_self _, rfl⟩
  | _ => exact exec.elim

private def tinySends : List (Label noHandshake) :=
  [⟨.startSend (.binary [7]), [.call (.write (.binary [7])) [] (.ok ())], .sent (.ok ())⟩,
    ⟨.pollFlush ⟨1⟩, registrations .write ⟨1⟩ ++ [.call .flush [tinySent, tinyFlushed] (.ok ())],
      .sink (.ready (.ok ()))⟩]

private theorem tinySends_run :
    Run tiny ⟨⟨[], []⟩, new⟩ tinySends ⟨⟨[], [(.user (.binary [7]), tinyFrame 7)]⟩, new⟩ := by
  have served : ∀ event ∈ [tinySent, tinyFlushed], Performs event := by
    rintro event (_ | ⟨_, _ | ⟨_, ⟨⟩⟩⟩)
    · exact performs_write_iff.mpr ⟨_, rfl, rfl⟩
    · exact performs_flush_iff.mpr ⟨_, rfl, rfl⟩
  have sends : Step tiny ⟨⟨[], []⟩, new⟩
      ⟨.startSend (.binary [7]), [.call (.write (.binary [7])) [] (.ok ())], .sent (.ok ())⟩
      ⟨⟨Entry.bytes (.user (.binary [7]), tinyFrame 7), [(.user (.binary [7]), tinyFrame 7)]⟩, new⟩ :=
    step_startSend_iff.mpr ⟨_, _, rfl, ⟨⟨7, rfl, rfl, rfl, rfl⟩, by simp⟩, rfl, rfl⟩
  refine .cons sends (.single (step_pollFlush_iff.mpr ⟨_, .ok (), rfl, ⟨?_, served⟩, rfl, rfl⟩))
  exact ⟨rfl, rfl, rfl⟩

theorem run_iff_synchronous_tiny : Path (Synchronous tiny) (⟨[], []⟩, false) tinySends
    (⟨[], [(.user (.binary [7]), tinyFrame 7)]⟩, false) := by
  have never : ∀ label ∈ tinySends, label.NeverBlocked := by
    rintro label (_ | ⟨_, _ | ⟨_, ⟨⟩⟩⟩) event mem
    · cases mem
    · rcases mem with _ | ⟨_, _ | ⟨_, ⟨⟩⟩⟩ <;> exact id
  exact ((run_iff_synchronous tiny_blocksWithStream never).mp tinySends_run).1

end TokioTungstenite
