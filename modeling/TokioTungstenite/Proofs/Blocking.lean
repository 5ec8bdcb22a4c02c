import TokioTungstenite.Execution.Accounting
import TokioTungstenite.Proofs.Life

/-! # Why an operation is pending

An operation answers `Pending` only after a call into tungstenite that blocked, and if tungstenite blocks only where
its stream did, then only after an inner poll that was pending. That poll was made with the wakers in place. So a
task is never forgotten: once nothing is left that could fire, every task that is waiting has been woken.
-/

namespace TokioTungstenite

open Execution WebSocketStream

variable {R : HandshakeRole} {T : Tungstenite R}

/-! ## What blocks -/

/-- A call that blocked: the answers for which an operation is pending, or a write is only queued. The start of a
handshake does not block, since an interrupted handshake is resumed at once. -/
def Call.Blocked : (c : Call R) → c.Answer → Prop
  | .read, r => ∃ e, (r : Except WsError Message) = .error e ∧ e.isWouldBlock = true
  | .write _, r | .flush, r | .close _, r => ∃ e, (r : Except WsError Unit) = .error e ∧ e.isWouldBlock = true
  | .start _ _, _ => False
  | .handshake _, r => ∃ mid, (r : HandshakeResult R) = .error (.interrupted mid)

/-- A blocking operation that would block. -/
def StdEvent.Blocked : StdEvent → Prop
  | ⟨.read _, .error e⟩ | ⟨.write _, .error e⟩ | ⟨.flush, .error e⟩ => e.kind = .wouldBlock
  | _ => False

/-- An inner poll that is pending, or says so with an error. -/
def Poll.Blocked {α : Type} : Poll (Except IoError α) → Prop
  | .pending => True
  | .ready (.error e) => e.kind = .wouldBlock
  | .ready (.ok _) => False

def InnerEvent.Blocked : InnerEvent → Prop
  | ⟨.pollRead _ _, (_, polled)⟩ => polled.Blocked
  | ⟨.pollWrite _ _, polled⟩ => polled.Blocked
  | ⟨.pollFlush _, polled⟩ => polled.Blocked

/-- tungstenite blocks only where its stream did. -/
def BlocksWithStream (T : Tungstenite R) : Prop :=
  ∀ {c : Call R} {s : T.State} {std : List StdEvent} {r : c.Answer} {t : T.State}, T.exec c s std r t → c.Blocked r →
    ∃ event ∈ std, event.Blocked

/-- The adapter reports a blocked poll as `WouldBlock`, and no other. -/
theorem Performs.blocked_iff {event : IoEvent} (performs : Performs event) :
    StdEvent.Blocked event.1 ↔ InnerEvent.Blocked event.2 := by
  rcases event with ⟨⟨op, r⟩, inner⟩
  cases op with
  | read capacity =>
    obtain ⟨⟨buf, polled⟩, rfl, rfl⟩ := performs_read_iff.mp performs
    rcases polled with (e | ⟨⟩) | _ <;>
      simp [StdEvent.Blocked, InnerEvent.Blocked, Poll.Blocked, readResult, IoError.wouldBlock]
  | write buf =>
    obtain ⟨polled, rfl, rfl⟩ := performs_write_iff.mp performs
    rcases polled with (e | n) | _ <;>
      simp [StdEvent.Blocked, InnerEvent.Blocked, Poll.Blocked, blockingResult, IoError.wouldBlock]
  | flush =>
    obtain ⟨polled, rfl, rfl⟩ := performs_flush_iff.mp performs
    rcases polled with (e | ⟨⟩) | _ <;>
      simp [StdEvent.Blocked, InnerEvent.Blocked, Poll.Blocked, blockingResult, IoError.wouldBlock]

/-- A call that blocked polled the inner stream in vain. -/
theorem BlocksWithStream.exists_io (blocks : BlocksWithStream T) {c : Call R} {s t : T.State} {io : List IoEvent}
    {r : c.Answer} (calls : T.Calls c s io r t) (blocked : c.Blocked r) : ∃ event ∈ io, InnerEvent.Blocked event.2 := by
  obtain ⟨std, mem, blocked⟩ := blocks calls.exec blocked
  obtain ⟨event, made, rfl⟩ := List.mem_map.mp mem
  exact ⟨event, made, (calls.served event made).blocked_iff.mp blocked⟩

/-! ## What an operation makes of a blocked call -/

section Results

variable (self : Flags)

theorem cvt_pending_iff {α : Type} {r : Except WsError α} :
    cvt r = .pending ↔ ∃ e, r = .error e ∧ e.isWouldBlock = true := by
  rcases r with e | v
  · cases blocked : e.isWouldBlock <;> simp [cvt, blocked]
  · simp

/-- `poll_next` is pending exactly when its read blocked. -/
theorem nextResult_pending_iff (r : Except WsError Message) :
    (nextResult self r).1 = .pending ↔ Call.Blocked (R := R) .read r := by
  change _ ↔ ∃ e, r = .error e ∧ e.isWouldBlock = true
  rw [← cvt_pending_iff]
  unfold nextResult
  repeat' split
  all_goals simp_all

/-- `poll_ready` is pending exactly when its flush blocked. -/
theorem readyResult_pending_iff (r : Except WsError Unit) :
    (readyResult self r).1 = .pending ↔ Call.Blocked (R := R) .flush r := by
  change _ ↔ ∃ e, r = .error e ∧ e.isWouldBlock = true
  rw [← cvt_pending_iff]
  unfold readyResult
  split <;> simp_all

/-- `poll_flush` is pending exactly when its flush blocked. -/
theorem flushResult_pending_iff (r : Except WsError Unit) :
    (flushResult self r).1 = .pending ↔ Call.Blocked (R := R) .flush r := by
  change _ ↔ ∃ e, r = .error e ∧ e.isWouldBlock = true
  rw [← cvt_pending_iff]
  unfold flushResult
  repeat' split
  all_goals simp_all

end Results

/-! ## What a pending operation did -/

/-- The last thing the operation did was a call that blocked, made with its waker in the slots of its side. -/
def Backed (T : Tungstenite R) (context : Option (ContextWaker × Waker)) (es : List (OuterEvent R)) (t : T.State) :
    Prop :=
  ∃ before kind waker c io r u, context = some (kind, waker) ∧
    es = before ++ (registrations kind waker ++ [.call c io r]) ∧ T.Calls c u io r t ∧ c.Blocked r

private theorem Backed.of_call {kind : ContextWaker} {waker : Waker} {c : Call R} {io : List IoEvent} {r : c.Answer}
    {u t : T.State} (calls : T.Calls c u io r t) (blocked : c.Blocked r) :
    Backed T (some (kind, waker)) (registrations kind waker ++ [.call c io r]) t :=
  ⟨[], kind, waker, c, io, r, u, rfl, rfl, calls, blocked⟩

private theorem next_pending {polled : Poll (Option (Except WsError Message))}
    (pending : (Answer.next polled).isPending = true) : polled = .pending := by
  cases polled with
  | pending => rfl
  | ready value => cases pending

private theorem sink_pending {polled : Poll (Except WsError Unit)} (pending : (Answer.sink polled).isPending = true) :
    polled = .pending := by
  cases polled with
  | pending => rfl
  | ready value => cases pending

/-- An operation of the stream that is pending made one call, which blocked. -/
theorem Step.backed {s t : WebSocketStream T} {label : Label R} (step : Step T s label t)
    (pending : label.answer.isPending = true) : Backed T label.op.context label.events t.inner := by
  obtain ⟨op, es, a⟩ := label
  cases op with
  | pollNext cx =>
    rcases step_pollNext_iff.mp step with ⟨-, -, rfl, -⟩ | ⟨-, io, r, rfl, calls, rfl, -⟩
    · cases pending
    · exact .of_call calls ((nextResult_pending_iff _ _).mp (next_pending pending))
  | isTerminated =>
    obtain ⟨-, rfl, -⟩ := step_isTerminated_iff.mp step
    cases pending
  | dropNext =>
    obtain ⟨-, rfl, -⟩ := step_dropNext_iff.mp step
    cases pending
  | pollReady cx =>
    rcases step_pollReady_iff.mp step with ⟨-, -, rfl, -⟩ | ⟨-, io, r, rfl, calls, rfl, -⟩
    · cases pending
    · exact .of_call calls ((readyResult_pending_iff _ _).mp (sink_pending pending))
  | startSend item =>
    obtain ⟨io, r, -, -, rfl, -⟩ := step_startSend_iff.mp step
    cases pending
  | pollFlush cx =>
    obtain ⟨io, r, rfl, calls, rfl, -⟩ := step_pollFlush_iff.mp step
    exact .of_call calls ((flushResult_pending_iff _ _).mp (sink_pending pending))
  | pollClose cx =>
    rcases step_pollClose_iff.mp step with ⟨-, io, r, rfl, calls, rfl, -⟩ | ⟨-, io, r, rfl, calls, rfl, -⟩
    · exact .of_call calls ((closeResult_pending_iff _ _).mp (sink_pending pending))
    · exact .of_call calls ((closeResult_pending_iff _ _).mp (sink_pending pending))

private theorem blocked_of_polledOnce {r : HandshakeResult R} {mid : R.Mid} (pending : polledOnce r = .pending) :
    (Call.handshake mid).Blocked r := by
  rcases r with (mid' | e) | r
  · exact ⟨mid', rfl⟩
  all_goals cases pending

private theorem awaitMid_backed {mid : R.Mid} {cx : Waker} {s t : T.State} {es : List (OuterEvent R)}
    {future : HandshakeFuture R}
    (run : Exec T.handler (HandshakeFuture.awaitMid (some mid) cx) s es (some .pending, future) t) :
    Backed T (some (.read, cx)) es t := by
  obtain ⟨io, r, rfl, calls, answer, -⟩ := exec_awaitMid run
  exact .of_call calls (blocked_of_polledOnce (Option.some.inj answer).symm)

private theorem awaitStart_backed {f : R.F} {stream : R.S} {cx : Waker} {s t : T.State} {es : List (OuterEvent R)}
    {future : HandshakeFuture R}
    (run : Exec T.handler (HandshakeFuture.awaitStart (some (f, stream)) cx) s es (some .pending, future) t) :
    Backed T (some (.read, cx)) es t := by
  obtain ⟨io, r, middle, rest, rfl, calls, ⟨final, -, -, answer, -⟩ | ⟨mid, -, resumed⟩⟩ := exec_awaitStart run
  · rcases r with (mid | e) | r
    · exact (final mid rfl).elim
    all_goals cases answer
  · obtain ⟨before, kind, waker, c, io', r', u, context, rfl, calls', blocked⟩ := awaitMid_backed resumed
    refine ⟨registrations .read cx ++ .call (.start f stream) io r :: before, kind, waker, c, io', r', u, context, ?_,
      calls', blocked⟩
    rw [List.append_assoc, List.cons_append]

/-- A poll of the handshake that is pending ended with a resumption that was interrupted. -/
theorem handshake_backed {future future' : HandshakeFuture R} {cx : Waker} {s t : T.State} {es : List (OuterEvent R)}
    (run : Exec T.handler (future.poll cx) s es (some .pending, future') t) : Backed T (some (.read, cx)) es t := by
  rcases future with ⟨stream, f⟩ | (_ | ⟨f, stream⟩) | (_ | mid) | _
  · exact awaitStart_backed run
  · cases (Exec.return_iff.mp run).2.1
  · exact awaitStart_backed run
  · cases (Exec.return_iff.mp run).2.1
  · exact awaitMid_backed run
  · cases (Exec.return_iff.mp run).2.1

/-- Every `Pending` answer is backed: the operation registered its own waker in the slot of its side of both
proxies, and then made a call into tungstenite in which an inner poll was pending. -/
theorem pending_backed (blocks : BlocksWithStream T) {s t : Owner R × T.State} {label : OuterLabel R}
    (step : OuterStep T s label t) (pending : label.reply.isPending = true) :
    ∃ before kind waker c io r, label.use.context = some (kind, waker) ∧
      label.events = before ++ (registrations kind waker ++ [.call c io r]) ∧
      ∃ event ∈ io, InnerEvent.Blocked event.2 := by
  have backed : Backed T label.use.context label.events t.2 := by
    obtain ⟨owner, u⟩ := s
    obtain ⟨owner', v⟩ := t
    obtain ⟨use, es, reply⟩ := label
    obtain ⟨program, starts, run⟩ := step
    cases owner with
    | handshake future =>
      cases use with
      | stream op => cases starts
      | handshake cx =>
        obtain rfl := Option.some.inj starts
        obtain ⟨⟨polled, future'⟩, ran, same⟩ := exec_map_iff.mp run
        obtain ⟨rfl, -⟩ := Prod.mk.inj same
        rcases polled with _ | (_ | _)
        · cases pending
        · cases pending
        · exact handshake_backed ran
    | stream flags =>
      cases use with
      | handshake cx => cases starts
      | stream op =>
        obtain rfl := Option.some.inj starts
        obtain ⟨⟨answer, flags'⟩, ran, same⟩ := exec_map_iff.mp run
        obtain ⟨rfl, rfl⟩ := Prod.mk.inj same
        have streamed : Step T ⟨u, flags⟩ ⟨op, es, answer⟩ ⟨v, flags'⟩ := ran
        exact streamed.backed pending
  obtain ⟨before, kind, waker, c, io, r, u, context, events, calls, blocked⟩ := backed
  exact ⟨before, kind, waker, c, io, r, context, events, blocks.exists_io calls blocked⟩

/-! A read that is blocked, of a WebSocket whose stream blocks every read and every flush. -/

private theorem stalled_blocks : BlocksWithStream stalled := by
  intro c s std r t exec blocked
  cases c with
  | read =>
    obtain ⟨rfl, -⟩ := exec
    exact ⟨_, List.mem_singleton_self _, rfl⟩
  | flush =>
    obtain ⟨rfl, -⟩ := exec
    exact ⟨_, List.mem_singleton_self _, rfl⟩
  | _ => exact exec.elim

private def blockedNext : OuterLabel noHandshake where
  use := .stream (.pollNext ⟨1⟩)
  events := registrations .read ⟨1⟩ ++ [.call .read [stalledRead] (.error (.io .wouldBlock))]
  reply := .stream (.next .pending)

theorem pending_backed_stalled : ∃ before kind waker c io r, blockedNext.use.context = some (kind, waker) ∧
    blockedNext.events = before ++ (registrations kind waker ++ [.call c io r]) ∧
    ∃ event ∈ io, InnerEvent.Blocked event.2 := by
  have calls : stalled.Calls .read () [stalledRead] (.error (.io .wouldBlock)) () :=
    ⟨⟨rfl, rfl⟩, List.forall_mem_singleton.mpr (performs_read_iff.mpr ⟨_, rfl, rfl⟩)⟩
  have streamed : Step stalled ⟨(), WebSocketStream.new⟩
      ⟨.pollNext ⟨1⟩, blockedNext.events, .next .pending⟩ ⟨(), WebSocketStream.new⟩ :=
    step_pollNext_iff.mpr (.inr ⟨rfl, _, _, rfl, calls, rfl, rfl⟩)
  have step : OuterStep stalled (.stream WebSocketStream.new, ()) blockedNext (.stream WebSocketStream.new, ()) :=
    ⟨_, rfl, exec_map_iff.mpr ⟨_, streamed, rfl⟩⟩
  exact pending_backed stalled_blocks step rfl

/-! ## No task is forgotten -/

/-- The operation is a call that blocked. -/
def OuterOp.Blocks : (op : OuterOp R) → op.Answer → Prop
  | .register _ _ _, _ => False
  | .call c, r => c.Blocked r

section Programs

private theorem unless_register (proxy : Proxy) (kind : ContextWaker) (waker : Waker) :
    (register (R := R) proxy kind waker).Unless OuterOp.Blocks fun _ => True := .lift fun _ => .inr trivial

private theorem unless_perform (c : Call R) : c.perform.Unless OuterOp.Blocks fun r => ¬ c.Blocked r :=
  .lift fun _ => Classical.em _

private theorem unless_setWaker (kind : ContextWaker) (waker : Waker) :
    (AllowStd.setWaker (R := R) kind waker).Unless OuterOp.Blocks fun _ => True := by
  cases kind <;> exact (unless_register _ _ _).bind fun _ _ => unless_register _ _ _

private theorem unless_withContext (context : Option (ContextWaker × Waker)) (c : Call R) :
    (withContext context c).Unless OuterOp.Blocks fun r => ¬ c.Blocked r := by
  rcases context with _ | ⟨kind, waker⟩
  · exact unless_perform c
  · exact (unless_setWaker kind waker).bind fun _ _ => unless_perform c

private theorem ready_of_next {polled : Poll (Option (Except WsError Message))} (ready : polled ≠ .pending) :
    (Answer.next polled).isPending = false := by
  cases polled with
  | pending => exact (ready rfl).elim
  | ready value => rfl

private theorem ready_of_sink {polled : Poll (Except WsError Unit)} (ready : polled ≠ .pending) :
    (Answer.sink polled).isPending = false := by
  cases polled with
  | pending => exact (ready rfl).elim
  | ready value => rfl

/-- An operation of the stream is not pending, unless its call blocked. -/
private theorem unless_run (flags : Flags) (op : Op) :
    (op.run (R := R) flags).Unless OuterOp.Blocks fun value => value.1.isPending = false := by
  cases op with
  | pollNext cx =>
    refine .map (fun value => value.1 ≠ .pending) ?_ fun value ready => ready_of_next ready
    unfold pollNext
    split
    · simp [Program.Unless, pure]
    · exact (unless_withContext _ _).bind fun r ready => mt (nextResult_pending_iff _ _).mp ready
  | isTerminated => rfl
  | dropNext => rfl
  | pollReady cx =>
    refine .map (fun value => value.1 ≠ .pending) ?_ fun value ready => ready_of_sink ready
    unfold pollReady
    split
    · simp [Program.Unless, pure]
    · exact (unless_withContext _ _).bind fun r ready => mt (readyResult_pending_iff _ _).mp ready
  | startSend item =>
    refine .map (fun _ => True) ?_ fun value _ => rfl
    exact (unless_withContext _ _).bind fun r _ => trivial
  | pollFlush cx =>
    refine .map (fun value => value.1 ≠ .pending) ?_ fun value ready => ready_of_sink ready
    exact (unless_withContext _ _).bind fun r ready => mt (flushResult_pending_iff _ _).mp ready
  | pollClose cx =>
    refine .map (fun value => value.1 ≠ .pending) ?_ fun value ready => ready_of_sink ready
    unfold pollClose
    dsimp only
    split
    all_goals exact (unless_withContext _ _).bind fun r ready => mt (closeResult_pending_iff _ _).mp ready

private theorem unless_awaitMid (mid : Option R.Mid) (cx : Waker) :
    (HandshakeFuture.awaitMid mid cx).Unless OuterOp.Blocks fun value => value.1 ≠ some .pending := by
  have polls : (MidHandshake.poll mid cx).Unless OuterOp.Blocks fun value => ∀ kept, value ≠ some (.pending, kept) := by
    cases mid with
    | none => simp [MidHandshake.poll, Program.Unless, pure]
    | some s =>
      refine (unless_setWaker .read cx).bind fun _ _ => (unless_perform (.handshake s)).bind fun r ready => ?_
      rcases r with (mid | e) | r
      · exact (ready ⟨mid, rfl⟩).elim
      all_goals simp [Program.Unless, pure]
  refine polls.bind fun value ready => ?_
  rcases value with _ | ⟨_ | _, kept⟩
  · simp [Program.Unless, pure]
  · simp [Program.Unless, pure]
  · exact (ready kept rfl).elim

private theorem unless_awaitStart (start : Option (R.F × R.S)) (cx : Waker) :
    (HandshakeFuture.awaitStart start cx).Unless OuterOp.Blocks fun value => value.1 ≠ some .pending := by
  have polls : (StartedHandshakeFuture.poll start cx).Unless OuterOp.Blocks
      fun value => ∀ kept, value ≠ some (.pending, kept) := by
    rcases start with _ | ⟨f, stream⟩
    · simp [StartedHandshakeFuture.poll, Program.Unless, pure]
    · refine ((unless_register _ _ _).bind fun _ _ => unless_register _ _ _).bind fun _ _ => ?_
      refine (unless_perform (.start f stream)).bind fun r _ => ?_
      rcases r with (mid | e) | r <;> simp [Program.Unless, pure]
  refine polls.bind fun value ready => ?_
  rcases value with _ | ⟨(_ | r | s) | _, kept⟩
  · simp [Program.Unless, pure]
  · simp [Program.Unless, pure]
  · simp [Program.Unless, pure]
  · exact unless_awaitMid (some s) cx
  · exact (ready kept rfl).elim

/-- No operation is pending, unless one of its calls blocked. -/
theorem unless_start {owner : Owner R} {use : Use} {program : Program (outer R) (Reply R × Owner R)}
    (starts : owner.start use = some program) :
    program.Unless OuterOp.Blocks fun value => value.1.isPending = false := by
  cases owner with
  | handshake future =>
    cases use with
    | stream op => cases starts
    | handshake cx =>
      obtain rfl := Option.some.inj starts
      have polls : (future.poll cx).Unless OuterOp.Blocks fun value => value.1 ≠ some .pending := by
        cases future with
        | unresumed stream f => exact unless_awaitStart _ cx
        | starting start => exact unless_awaitStart _ cx
        | resuming mid => exact unless_awaitMid _ cx
        | returned => simp [HandshakeFuture.poll, Program.Unless, pure]
      refine .map (fun value => value.1 ≠ some .pending) polls ?_
      rintro ⟨_ | (_ | _), future'⟩ ready
      · rfl
      · rfl
      · exact (ready rfl).elim
  | stream flags =>
    cases use with
    | handshake cx => cases starts
    | stream op =>
      obtain rfl := Option.some.inj starts
      exact .map (fun value => value.1.isPending = false) (unless_run flags op) fun value ready => ready

end Programs

section Waiting

variable {E : Type}

/-- A poll of the inner stream was pending. -/
def Polled (past : List (MicroLabel R E)) : Prop := ∃ event armed, .io event armed ∈ past ∧ InnerEvent.Blocked event.2

/-- The task will not answer `Pending`, unless a call of it blocks. -/
def Thread.Unless : Thread T → Prop
  | .idle _ => False
  | .running program => program.Unless OuterOp.Blocks fun value => value.1.isPending = false
  | .calling c _ next => ∀ r, c.Blocked r ∨ (next r).Unless OuterOp.Blocks fun value => value.1.isPending = false

/-- What the call in progress did so far was heard. -/
def Thread.Heard (past : List (MicroLabel R E)) : Thread T → Prop
  | .calling _ std _ => ∀ made ∈ std, ∃ event armed, .io event armed ∈ past ∧ Performs event ∧ event.1 = made
  | _ => True

/-- The operation in progress was blocked by a pending poll, or will not answer `Pending`. -/
def Honest (past : List (MicroLabel R E)) (cfg : Config T E) : Prop :=
  Polled past ∨ cfg.thread.Unless ∧ cfg.thread.Heard past

variable {past labels during later : List (MicroLabel R E)} {label : MicroLabel R E} {cfg next t : Config T E}

private theorem Polled.append (polled : Polled past) : Polled (past ++ labels) := by
  obtain ⟨event, armed, mem, blocked⟩ := polled
  exact ⟨event, armed, List.mem_append_left _ mem, blocked⟩

private theorem Thread.Heard.concat {thread : Thread T} (heard : thread.Heard past) :
    thread.Heard (past ++ [label]) := by
  cases thread with
  | idle owner => trivial
  | running program => trivial
  | calling c std next =>
    intro made mem
    obtain ⟨event, armed, before, rest⟩ := heard made mem
    exact ⟨event, armed, List.mem_append_left _ before, rest⟩

variable [DecidableEq E] {kind : ContextWaker} {waker : Waker}

/-- An operation begins by registering its waker. -/
private theorem opening_of_invoke {use : Use} (context : use.context = some (kind, waker))
    (invoked : MicroStep T cfg (.invoke use) next) : Opening kind waker [.invoke use] next := by
  cases invoked with
  | invoke thread starts =>
    refine .fresh rfl ((all_start starts).mono fun op => keeps_of_for ?_) (opens_start starts context)
    intro waker' same
    exact (Prod.mk.inj (Option.some.inj (same.symm.trans context))).2

/-- Every step of the operation but its answer keeps it honest. -/
theorem Honest.step (blocks : BlocksWithStream T) (honest : Honest past cfg) (step : MicroStep T cfg label next)
    (own : label.isAnswer = false) : Honest (past ++ [label]) next := by
  rcases honest with polled | ⟨answers, heard⟩
  · exact .inl polled.append
  cases step with
  | invoke thread =>
    rw [thread] at answers
    exact answers.elim
  | register thread =>
    rw [thread] at answers
    exact .inr ⟨(answers ()).resolve_left id, trivial⟩
  | enter thread =>
    rw [thread] at answers
    exact .inr ⟨answers, by simp [Thread.Heard]⟩
  | @io c std rest event armed thread performs =>
    rw [thread] at answers heard
    refine .inr ⟨answers, fun made mem => ?_⟩
    rcases List.mem_append.mp mem with before | last
    · obtain ⟨event', armed', heard, rest⟩ := heard made before
      exact ⟨event', armed', List.mem_append_left _ heard, rest⟩
    · obtain rfl := List.mem_singleton.mp last
      exact ⟨event, armed, List.mem_append_right _ (List.mem_singleton_self _), performs, rfl⟩
  | @leave c std rest r inner thread exec =>
    rw [thread] at answers heard
    rcases answers r with blocked | answers
    · obtain ⟨made, mem, stopped⟩ := blocks exec blocked
      obtain ⟨event, armed, before, performs, rfl⟩ := heard made mem
      exact .inl ⟨event, armed, List.mem_append_left _ before, performs.blocked_iff.mp stopped⟩
    · exact .inr ⟨answers, trivial⟩
  | answer thread => cases own
  | fire => exact .inr ⟨answers, heard.concat⟩
  | fireSource => exact .inr ⟨answers, heard.concat⟩
  | wake => exact .inr ⟨answers, heard.concat⟩

private theorem Honest.run (blocks : BlocksWithStream T) (honest : Honest past cfg) (run : MicroRun T cfg labels t)
    (own : ∀ label ∈ labels, label.isAnswer = false) : Honest (past ++ labels) t := by
  induction run generalizing past with
  | nil => simpa using honest
  | @cons cfg middle t label rest step _ ih =>
    rw [List.forall_mem_cons] at own
    rw [List.append_cons]
    exact ih (honest.step blocks step own.1) own.2

/-- A pending operation polled the inner stream in vain. -/
theorem polled_of_pending (blocks : BlocksWithStream T) {use : Use} {reply : Reply R}
    (run : MicroRun T cfg (.invoke use :: (during ++ [.answer reply])) t) (pending : reply.isPending = true)
    (own : ∀ label ∈ during, label.isAnswer = false) : Polled during := by
  obtain ⟨start, invoked, run⟩ := Path.cons_iff.mp run
  obtain ⟨last, during_run, answers⟩ := Path.concat_iff.mp run
  have honest : Honest ([] : List (MicroLabel R E)) start := by
    cases invoked with
    | invoke thread starts => exact .inr ⟨unless_start starts, trivial⟩
  have ended := honest.run blocks during_run own
  rw [List.nil_append] at ended
  rcases ended with polled | ⟨ready, -⟩
  · exact polled
  · cases answers with
    | answer thread =>
      rw [thread] at ready
      exact absurd (ready.symm.trans pending) (by decide)

/-- The sources a poll of an operation armed keep a proxy or fire one, until another operation of its side begins. -/
private theorem armed_of_io {use : Use} (context : use.context = some (kind, waker)) {event : IoEvent}
    {armed : List E} {e : E} (kept : e ∈ armed)
    (run : MicroRun T cfg (.invoke use :: (during ++ .io event armed :: later)) t)
    (own : ∀ label ∈ during, label.isAnswer = false) (other : ∀ label ∈ during ++ later, label.Other kind) :
    Armed kind waker e (.invoke use :: (during ++ .io event armed :: later)) t := by
  obtain ⟨start, invoked, run⟩ := Path.cons_iff.mp run
  have opening : Opening kind waker [.invoke use] start := opening_of_invoke context invoked
  obtain ⟨x, y, before, polls, after⟩ := run.cut
  rw [List.forall_mem_append] at other
  have io_other : (MicroLabel.io event armed : MicroLabel R E).Other kind := by rintro use ⟨⟩
  have guarded : Guarded kind waker ([.invoke use] ++ during ++ [.io event armed]) y := by
    refine opening.guarded before polls other.1 own io_other (by rintro reply ⟨⟩) ?_
    cases polls
    rintro program ⟨⟩
  have keeps : Armed kind waker e ([.invoke use] ++ during ++ [.io event armed]) y := by
    cases polls with
    | io => exact .inl ⟨event.2.1.ctx, if_pos kept⟩
  have reached := keeps.run guarded after other.2
  rwa [List.append_assoc, List.append_assoc] at reached

/-- The same of any poll of an operation that has answered. -/
theorem armed_of_mem {use : Use} {reply : Reply R} (context : use.context = some (kind, waker)) {event : IoEvent}
    {armed : List E} {e : E} (polled : .io event armed ∈ during) (kept : e ∈ armed)
    (run : MicroRun T cfg (.invoke use :: (during ++ .answer reply :: later)) t)
    (own : ∀ label ∈ during, label.isAnswer = false) (other : ∀ label ∈ during ++ later, label.Other kind) :
    Armed kind waker e (.invoke use :: (during ++ .answer reply :: later)) t := by
  obtain ⟨before, after, rfl⟩ := List.append_of_mem polled
  rw [List.append_assoc, List.cons_append] at run other ⊢
  rw [List.forall_mem_append] at own
  rw [List.forall_mem_append, List.forall_mem_cons] at other
  have answer_other : (MicroLabel.answer reply : MicroLabel R E).Other kind := by rintro use ⟨⟩
  have others : ∀ label ∈ before ++ (after ++ .answer reply :: later), label.Other kind := by
    have rest := List.forall_mem_append.mp other.2.2
    exact List.forall_mem_append.mpr ⟨other.1, List.forall_mem_append.mpr
      ⟨rest.1, List.forall_mem_cons.mpr ⟨answer_other, rest.2⟩⟩⟩
  exact armed_of_io context kept run own.1 others

/-- A poll that is pending leaves its proxy with a source. A poll that answers the error `WouldBlock` is no
different to the adapter, so it has to do the same. -/
def Arms (labels : List (MicroLabel R E)) : Prop :=
  ∀ event armed, .io event armed ∈ labels → InnerEvent.Blocked event.2 → armed ≠ []

/-- Nothing is left that could fire: no source keeps a proxy, and no firing has a slot yet to wake. -/
structure Quiet (cfg : Config T E) : Prop where
  sources : ∀ e, cfg.sources e = none
  firing : ∀ slots ∈ cfg.firing, slots = []

omit [DecidableEq E] in
/-- A source that was armed and keeps no proxy has woken its task, once the firings are over. -/
theorem Armed.woken {e : E} (armed : Armed kind waker e past t) (fired : t.sources e = none)
    (ended : ∀ slots ∈ t.firing, slots = []) : Woken waker past := by
  rcases armed with ⟨proxy, kept⟩ | ⟨proxy, woken | ⟨slots, mem, owes⟩⟩
  · rw [fired] at kept
    cases kept
  · exact woken
  · rw [ended slots mem] at owes
    cases owes

/-- No task is forgotten: one whose latest poll on its side answered `Pending` has been woken since that poll began,
once the inner stream has fired all it was left with. -/
theorem no_task_forgotten (blocks : BlocksWithStream T) {use : Use} {reply : Reply R}
    (context : use.context = some (kind, waker))
    (run : MicroRun T cfg (.invoke use :: (during ++ .answer reply :: later)) t) (pending : reply.isPending = true)
    (own : ∀ label ∈ during, label.isAnswer = false) (other : ∀ label ∈ during ++ later, label.Other kind)
    (arms : Arms during) (quiet : Quiet t) : Woken waker (.invoke use :: (during ++ .answer reply :: later)) := by
  have polled : Polled during := by
    rw [← List.cons_append] at run
    obtain ⟨x, y, first, answers, -⟩ := run.cut
    exact polled_of_pending blocks (first.append (.single answers)) pending own
  obtain ⟨event, armed, mem, blocked⟩ := polled
  obtain ⟨e, kept⟩ := List.exists_mem_of_ne_nil armed (arms event armed mem blocked)
  exact (armed_of_mem context mem kept run own other).woken (quiet.sources e) quiet.firing

/-! The reader's poll and then the writer's are blocked on one source. The source keeps the write proxy only, and its
firing wakes them both. -/

private def stalledDrained : List (MicroLabel noHandshake Unit) :=
  stalledLater ++ [.wake (.writeWakerProxy, .write) (some ⟨2⟩)]

private theorem stalledDrained_run : ∃ t, MicroRun stalled stalledStart
    (.invoke (.stream (.pollNext ⟨1⟩)) :: (stalledReading ++ .answer (.stream (.next .pending)) :: stalledDrained)) t ∧
      Quiet t := by
  have reads : MicroRun stalled stalledStart
      (.invoke (.stream (.pollNext ⟨1⟩)) :: (stalledReading ++ [.answer (.stream (.next .pending))])) stalledReader :=
    poll_run rfl rfl (performs_read_iff.mpr ⟨_, rfl, rfl⟩) ⟨rfl, rfl⟩ rfl
  have writes : MicroRun stalled stalledReader stalledWriting stalledWriter :=
    poll_run rfl rfl (performs_flush_iff.mpr ⟨_, rfl, rfl⟩) ⟨rfl, rfl⟩ rfl
  have fires : ∃ t, MicroRun stalled stalledWriter [.fire (some ()) .writeWakerProxy,
      .wake (.writeWakerProxy, .read) (some ⟨1⟩), .wake (.writeWakerProxy, .write) (some ⟨2⟩)] t ∧ Quiet t := by
    refine ⟨_, .cons (.fireSource rfl) (.cons (.wake (List.nil_append _).symm)
      (.single (.wake (List.nil_append _).symm))), ?_, ?_⟩
    · rintro ⟨⟩
      rfl
    · exact List.forall_mem_singleton.mpr rfl
  obtain ⟨t, fires, quiet⟩ := fires
  exact ⟨t, by simpa [stalledDrained, stalledLater] using reads.append (writes.append fires), quiet⟩

theorem no_task_forgotten_stalled : Woken ⟨1⟩ (.invoke (.stream (.pollNext ⟨1⟩)) ::
    (stalledReading ++ .answer (.stream (.next .pending)) :: stalledDrained)) := by
  obtain ⟨t, run, quiet⟩ := stalledDrained_run
  refine no_task_forgotten stalled_blocks rfl run rfl (by decide) ?_ ?_ quiet
  · rintro label mem use rfl waker context
    obtain rfl : use = .stream (.pollFlush ⟨2⟩) := by
      simpa [stalledReading, stalledDrained, stalledLater, stalledWriting, pollLabels] using mem
    cases context
  · intro event armed mem blocked
    obtain ⟨-, rfl⟩ : event = stalledRead ∧ armed = [()] := by simpa [stalledReading, pollLabels] using mem
    simp

end Waiting

end TokioTungstenite
