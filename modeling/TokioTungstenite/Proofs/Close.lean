import TokioTungstenite.Proofs.Reference

/-! # Closing

There are three ways to close: `poll_close`, which has a branch of its own for a stream that is already
`closing`, the inherent `close`, and a Close message given to the `Sink`. On every stream a run can reach,
`poll_close` acts the same whichever of its branches it takes, and a connection queues at most one Close
frame over its whole life.
-/

namespace TokioTungstenite

open Execution WebSocketStream

variable {R : HandshakeRole} {T : Tungstenite R} {s t : WebSocketStream T}

namespace ClosesOnce

variable {L : Lifecycle T} {closes : T.State → List (Option CloseFrame)}

/-- From `s` to `t` at most one Close frame was queued, and none unless the connection left the active state. -/
def AtMostOne (L : Lifecycle T) (closes : T.State → List (Option CloseFrame)) (s t : T.State) : Prop :=
  closes t = closes s ∨ (L.active s ∧ ¬L.active t ∧ ∃ c, closes t = closes s ++ [c])

/-- The opening and closing states of the two halves decide which of them may have queued the frame. -/
theorem AtMostOne.trans {a b c : T.State} (first : AtMostOne L closes a b) (second : AtMostOne L closes b c)
    (back : L.active b → L.active a) (stays : L.active c → L.active b) : AtMostOne L closes a c := by
  rcases first with same | ⟨active, left, frame, queued⟩
  · rcases second with same' | ⟨active, left, frame, queued⟩
    · exact .inl (same'.trans same)
    · exact .inr ⟨back active, left, frame, queued.trans (by rw [same])⟩
  · rcases second with same' | ⟨active', -⟩
    · exact .inr ⟨active, fun again => left (stays again), frame, same'.trans queued⟩
    · exact (left active').elim

/-- One operation queues at most one Close frame, and leaves the active state when it does. -/
theorem step_atMostOne (C : ClosesOnce L closes) {label : Label R} (step : Step T s label t) :
    AtMostOne L closes s.inner t.inner := by
  have closing : ∀ {frame std} {r : Except WsError Unit}, L.active s.inner →
      T.exec (.close frame) s.inner std r t.inner ∨ T.exec (.write (.close frame)) s.inner std r t.inner →
      AtMostOne L closes s.inner t.inner := by
    intro frame std r active exec
    obtain ⟨left, queued⟩ := C.closeOfActive active exec
    exact queued.imp_right fun queued => ⟨active, left, frame, queued⟩
  rcases step.calls_cases with ⟨-, same⟩ | ⟨c, io, r, made, -, exec, -⟩
  · exact .inl (congrArg closes same)
  rcases Op.call?_cases made with rfl | ⟨item, rfl⟩ | rfl | rfl
  · exact C.readReplies exec
  · by_cases active : L.active s.inner
    · by_cases close : ∃ frame, item = .close frame
      · obtain ⟨frame, rfl⟩ := close
        exact closing active (.inr exec)
      · exact .inl (C.writeOther (fun frame same => close ⟨frame, same⟩) exec)
    · obtain ⟨same, -⟩ := C.writeOfInactive active exec
      exact .inl (congrArg closes same)
  · exact .inl (C.flushKeeps exec)
  · by_cases active : L.active s.inner
    · exact closing active (.inl exec)
    · exact .inl (C.flushKeeps ((C.closeOfInactive active).mp exec))

/-- Over a whole run at most one Close frame is queued. -/
theorem run_atMostOne (C : ClosesOnce L closes) {ls : List (Label R)} (run : Run T s ls t) :
    AtMostOne L closes s.inner t.inner := by
  induction run with
  | nil => exact .inl rfl
  | cons step rest ih => exact (C.step_atMostOne step).trans ih (L.active_step step) (L.active_run rest)

end ClosesOnce

/-- `poll_close` with its branch taken as told: `flush` if `flushes`, and `close(None)` otherwise. -/
def pollCloseBranch (flushes : Bool) (self : Flags) (cx : Waker) :
    Program (outer R) (Poll (Except WsError Unit) × Flags) := do
  let self := { self with ready := true }
  let res ← if flushes then withContext (some (.write, cx)) .flush
    else withContext (some (.write, cx)) (.close none)
  return closeResult self res

theorem pollClose_eq_branch (self : Flags) (cx : Waker) :
    pollClose (R := R) self cx = pollCloseBranch self.closing self cx := rfl

/-- An event with `close(None)` read as `flush`. -/
def OuterEvent.asFlush : OuterEvent R → OuterEvent R
  | .call (.close none) io r => .call .flush io r
  | event => event

private theorem exec_flushBranch_iff {self : Flags} {cx : Waker} {u v : T.State} {es : List (OuterEvent R)}
    {a : Poll (Except WsError Unit) × Flags} :
    Exec T.handler (pollCloseBranch true self cx) u es a v ↔
      ∃ io r, es = registrations .write cx ++ [.call .flush io r] ∧ T.Calls .flush u io r v ∧
        a = closeResult { self with ready := true } r := by
  simp only [pollCloseBranch, ↓reduceIte, bind_pure_comp]
  exact exec_result_iff .flush

private theorem exec_closeBranch_iff {self : Flags} {cx : Waker} {u v : T.State} {es : List (OuterEvent R)}
    {a : Poll (Except WsError Unit) × Flags} :
    Exec T.handler (pollCloseBranch false self cx) u es a v ↔
      ∃ io r, es = registrations .write cx ++ [.call (.close none) io r] ∧ T.Calls (.close none) u io r v ∧
        a = closeResult { self with ready := true } r := by
  simp only [pollCloseBranch, Bool.false_eq_true, ↓reduceIte, bind_pure_comp]
  exact exec_result_iff (.close none)

/-- On a connection that is not active the two branches of `poll_close` have the same executions: the
same I/O, the same answer, the same flags and the same state after. -/
theorem ClosesOnce.branches_agree {L : Lifecycle T} {closes : T.State → List (Option CloseFrame)}
    (C : ClosesOnce L closes) {self : Flags} {cx : Waker} {u v : T.State} {es : List (OuterEvent R)}
    {a : Poll (Except WsError Unit) × Flags} (inactive : ¬L.active u) :
    Exec T.handler (pollCloseBranch true self cx) u es a v ↔
      ∃ es', es = es'.map OuterEvent.asFlush ∧ Exec T.handler (pollCloseBranch false self cx) u es' a v := by
  constructor
  · intro flushed
    obtain ⟨io, r, rfl, calls, rfl⟩ := exec_flushBranch_iff.mp flushed
    have closed : T.Calls (.close none) u io r v := ⟨(C.closeOfInactive inactive).mpr calls.exec, calls.served⟩
    exact ⟨_, rfl, exec_closeBranch_iff.mpr ⟨io, r, rfl, closed, rfl⟩⟩
  · rintro ⟨_, rfl, closed⟩
    obtain ⟨io, r, rfl, calls, rfl⟩ := exec_closeBranch_iff.mp closed
    have flushed : T.Calls .flush u io r v := ⟨(C.closeOfInactive inactive).mp calls.exec, calls.served⟩
    exact exec_flushBranch_iff.mpr ⟨io, r, rfl, flushed, rfl⟩

/-- What `poll_close` makes of the one call it made: `Pending` exactly when the call blocked, success exactly
when it succeeded or found the connection closed, and any other error as it is. -/
def Label.AnswersClose (label : Label R) : Prop :=
  ∃ (io : List IoEvent) (r : Except WsError Unit),
    (label.calls = [⟨.flush, io, r⟩] ∨ label.calls = [⟨.close none, io, r⟩]) ∧
    (label.answer = .sink .pending ↔ ∃ e, r = .error e ∧ e.isWouldBlock = true) ∧
    (label.answer = .sink (.ready (.ok ())) ↔ r = .ok () ∨ r = .error .connectionClosed) ∧
    ∀ e, label.answer = .sink (.ready (.error e)) ↔
      r = .error e ∧ e.isWouldBlock = false ∧ e ≠ .connectionClosed

private theorem answersClose_of_result {self : Flags} {label : Label R} {io : List IoEvent} {r : Except WsError Unit}
    (calls : label.calls = [⟨.flush, io, r⟩] ∨ label.calls = [⟨.close none, io, r⟩])
    (answer : label.answer = .sink (closeResult self r).1) : label.AnswersClose := by
  refine ⟨io, r, calls, ?_, ?_, fun e => ?_⟩
  · rw [answer, Answer.sink.injEq, closeResult_pending_iff]
  · rw [answer, Answer.sink.injEq, closeResult_ok_iff]
  · rw [answer, Answer.sink.injEq, closeResult_error_iff]

theorem Step.answersClose {cx : Waker} {es : List (OuterEvent R)} {a : Answer}
    (step : Step T s ⟨.pollClose cx, es, a⟩ t) : Label.AnswersClose ⟨.pollClose cx, es, a⟩ := by
  rcases step_pollClose_iff.mp step with ⟨-, io, r, rfl, -, rfl, -⟩ | ⟨-, io, r, rfl, -, rfl, -⟩
  · exact answersClose_of_result (.inl rfl) rfl
  · exact answersClose_of_result (.inr rfl) rfl

variable {L : Lifecycle T} {closes : T.State → List (Option CloseFrame)} {ls : List (ApiLabel R)}

/-- A run of the public interface is, for its WebSocket and flags, a run of outer operations. -/
theorem ApiRun.exists_run (run : ApiRun T s ls t) : ∃ ops, Run T s ops t := by
  induction run with
  | nil s => exact ⟨[], .nil s⟩
  | cons step _ ih =>
    obtain ⟨first, here⟩ := step.exists_run
    obtain ⟨rest, there⟩ := ih
    exact ⟨first ++ rest, here.append there⟩

theorem ApiRun.answersClose (run : ApiRun T s ls t) (cx : Waker) (es : List (OuterEvent R)) (a : Answer)
    (member : .op ⟨.pollClose cx, es, a⟩ ∈ ls) : Label.AnswersClose ⟨.pollClose cx, es, a⟩ := by
  obtain ⟨before, after, rfl⟩ := List.append_of_mem member
  obtain ⟨u, v, -, step, -⟩ := run.cut
  exact Step.answersClose step

/-- The two close paths agree on every reachable stream, `poll_close` is pending exactly when its call
blocked, and over the whole run at most one Close frame is queued. -/
theorem close_paths_agree (C : ClosesOnce L closes) (run : ApiRun T s ls t) (fresh : s.flags.closing = false) :
    (t.flags.closing = true → ¬L.active t.inner ∧ ∀ cx es a v,
      Exec T.handler (pollCloseBranch true t.flags cx) t.inner es a v ↔
        ∃ es', es = es'.map OuterEvent.asFlush ∧
          Exec T.handler (pollCloseBranch false t.flags cx) t.inner es' a v) ∧
    (∀ cx es a, .op ⟨.pollClose cx, es, a⟩ ∈ ls → Label.AnswersClose ⟨.pollClose cx, es, a⟩) ∧
    (closes t.inner = closes s.inner ∨
      (L.active s.inner ∧ ¬L.active t.inner ∧ ∃ c, closes t.inner = closes s.inner ++ [c])) := by
  obtain ⟨ops, operations⟩ := run.exists_run
  have unset : L.ClosingInactive s := fun closing => by rw [fresh] at closing; contradiction
  refine ⟨fun closing => ?_, run.answersClose, C.run_atMostOne operations⟩
  have inactive := L.closingInactive_run operations unset closing
  exact ⟨inactive, fun cx es a v => C.branches_agree inactive⟩

/-! A server closes, and its Close frame blocks. -/

private def blockedClose : Label noHandshake where
  op := .pollClose ⟨0⟩
  events := registrations .write ⟨0⟩ ++
    [.call (.close none) [(⟨.write [0x88, 0], .error .wouldBlock⟩, ⟨.pollWrite .writeWakerProxy [0x88, 0], .pending⟩)]
      (.error (.io .wouldBlock))]
  answer := .sink .pending

private def afterClose : WebSocketStream (Reference.small .server) where
  inner := (⟨.closedByUs, none, false, [none]⟩, ⟨Entry.bytes (.control, [0x88, 0]), [(.control, [0x88, 0])]⟩)
  flags := { WebSocketStream.new with closing := true }

private theorem close_run :
    ApiRun (Reference.small .server) (Reference.start .server) [.op blockedClose] afterClose := by
  refine .single (step_pollClose_iff.mpr (.inr ⟨rfl, _, _, rfl, reference_calls rfl ?_ ?_, rfl, rfl⟩))
  · simp [StdEvent.WellBehaved, IoError.wouldBlock]
  · exact List.forall_mem_singleton.mpr (performs_write_iff.mpr ⟨.pending, rfl, rfl⟩)

theorem close_paths_agree_blocked :
    ¬(referenceLifecycle noHandshake (Reference.smallConfig .server)).active afterClose.inner ∧
      blockedClose.AnswersClose := by
  obtain ⟨agree, answers, -⟩ :=
    close_paths_agree (reference_closesOnce noHandshake (Reference.smallConfig .server)) close_run rfl
  exact ⟨(agree rfl).1, answers _ _ _ (List.mem_singleton_self _)⟩

end TokioTungstenite
