import TokioTungstenite.Model.Stream

/-! # What one outer operation can do

Every operation makes at most one call into tungstenite, after at most one registration of its waker
in both proxies, and then computes its answer and its flags from the answer of that call. The lemmas
here say so once for each operation; no later proof unfolds a program.
-/

namespace TokioTungstenite

open Execution WebSocketStream

variable {R : HandshakeRole} {T : Tungstenite R}

/-! ## What an answer does to the flags -/

section Results

variable (self : Flags) (r : Except WsError Unit)

@[simp] theorem nextResult_closing (read : Except WsError Message) :
    (nextResult self read).2.closing = self.closing := by
  unfold nextResult
  repeat' split
  all_goals rfl

@[simp] theorem nextResult_ready (read : Except WsError Message) : (nextResult self read).2.ready = self.ready := by
  unfold nextResult
  repeat' split
  all_goals rfl

@[simp] theorem readyResult_closing : (readyResult self r).2.closing = self.closing := by
  unfold readyResult
  split <;> rfl

@[simp] theorem readyResult_ended : (readyResult self r).2.ended = self.ended := by
  unfold readyResult
  split <;> rfl

@[simp] theorem sentResult_closing : (sentResult self r).2.closing = self.closing := by
  unfold sentResult
  repeat' split
  all_goals rfl

@[simp] theorem sentResult_ended : (sentResult self r).2.ended = self.ended := by
  unfold sentResult
  repeat' split
  all_goals rfl

@[simp] theorem flushResult_closing : (flushResult self r).2.closing = self.closing := by
  unfold flushResult
  repeat' split
  all_goals rfl

@[simp] theorem flushResult_ended : (flushResult self r).2.ended = self.ended := by
  unfold flushResult
  repeat' split
  all_goals rfl

@[simp] theorem closeResult_ready : (closeResult self r).2.ready = self.ready := by
  unfold closeResult
  repeat' split
  all_goals rfl

@[simp] theorem closeResult_ended : (closeResult self r).2.ended = self.ended := by
  unfold closeResult
  repeat' split
  all_goals rfl

/-- `start_send` passes on every error but a blocked write. -/
theorem sentResult_error_iff {e : WsError} :
    (sentResult self r).1 = .error e ↔ r = .error e ∧ e.isWouldBlock = false := by
  rcases r with e' | v
  · cases blocked : e'.isWouldBlock <;> simp only [sentResult, blocked] <;> grind
  · simp [sentResult]

/-- `poll_flush` answers `Ready(Ok)` exactly when the flush succeeded or found the connection closed. -/
theorem flushResult_ok_iff : (flushResult self r).1 = .ready (.ok ()) ↔ r = .ok () ∨ r = .error .connectionClosed := by
  rcases r with e | v
  · cases blocked : e.isWouldBlock with
    | true =>
      obtain ⟨io, rfl, _⟩ := WsError.isWouldBlock_iff.mp blocked
      simp [flushResult, cvt_blocked blocked]
    | false =>
      simp only [flushResult, cvt_failed blocked]
      cases e <;> simp
  · simp [flushResult]

/-- `poll_flush` passes every other failure on. -/
theorem flushResult_failed {e : WsError} (failed : e.isWouldBlock = false) (live : e ≠ .connectionClosed) :
    flushResult self (.error e) = (.ready (.error e), { self with ready := true }) := by
  simp only [flushResult, cvt_failed failed]
  cases e <;> simp_all

/-- `poll_close` answers `Ready(Ok)` exactly when its call succeeded or found the connection closed. -/
theorem closeResult_ok_iff : (closeResult self r).1 = .ready (.ok ()) ↔ r = .ok () ∨ r = .error .connectionClosed := by
  rcases r with e | v
  · cases e
    case io error => cases blocked : (WsError.io error).isWouldBlock <;> simp [closeResult, blocked]
    all_goals simp [closeResult, WsError.isWouldBlock]
  · simp [closeResult]

/-- `poll_close` is pending exactly when its call blocked. -/
theorem closeResult_pending_iff : (closeResult self r).1 = .pending ↔ ∃ e, r = .error e ∧ e.isWouldBlock = true := by
  rcases r with e | v
  · cases e
    case io error => cases blocked : (WsError.io error).isWouldBlock <;> simp [closeResult, blocked]
    all_goals simp [closeResult, WsError.isWouldBlock]
  · simp [closeResult]

/-- `poll_close` passes every other error on. -/
theorem closeResult_error_iff {error : WsError} : (closeResult self r).1 = .ready (.error error) ↔
    r = .error error ∧ error.isWouldBlock = false ∧ error ≠ .connectionClosed := by
  rcases r with e | v
  · cases e
    case io error =>
      cases blocked : (WsError.io error).isWouldBlock <;>
        simp only [closeResult, blocked, Bool.false_eq_true, ↓reduceIte, Poll.ready.injEq, reduceCtorEq, false_iff] <;>
        grind
    all_goals simp [closeResult, WsError.isWouldBlock]
    all_goals grind [WsError.isWouldBlock]
  · simp [closeResult]

/-- `poll_ready` answers `Ready(Ok)` after a flush exactly when that flush succeeded. -/
theorem readyResult_ok_iff : (readyResult self r).1 = .ready (.ok ()) ↔ r = .ok () := by
  rcases r with e | v
  · cases blocked : e.isWouldBlock <;> simp [readyResult, cvt, blocked]
  · simp [readyResult]

end Results

/-- What `with_context` registers before it makes its call. -/
def contextEvents : Option (ContextWaker × Waker) → List (OuterEvent R)
  | some (kind, waker) => registrations kind waker
  | none => []

@[simp] theorem contextEvents_some (kind : ContextWaker) (waker : Waker) :
    contextEvents (R := R) (some (kind, waker)) = registrations kind waker := rfl

@[simp] theorem contextEvents_none : contextEvents (R := R) none = [] := rfl

section Programs

variable {s t : T.State} {es : List (OuterEvent R)} {ctx : Option (ContextWaker × Waker)}

theorem exec_withContext_iff {c : Call R} {r : c.Answer} :
    Exec T.handler (withContext ctx c) s es r t ↔
      ∃ io, es = contextEvents ctx ++ [.call c io r] ∧ T.Calls c s io r t := by
  cases ctx with
  | none => exact exec_call_iff
  | some context =>
    simp only [withContext, Exec.bind_iff, exec_setWaker_iff, exec_call_iff]
    constructor
    · rintro ⟨_, _, _, _, rfl, ⟨rfl, rfl⟩, io, rfl, calls⟩
      exact ⟨io, rfl, calls⟩
    · rintro ⟨io, rfl, calls⟩
      exact ⟨_, (), s, _, rfl, ⟨rfl, rfl⟩, io, rfl, calls⟩

theorem exec_map_iff {α β : Type} {program : Program (outer R) α} {f : α → β} {result : β} :
    Exec T.handler (f <$> program) s es result t ↔
      ∃ value, Exec T.handler program s es value t ∧ result = f value := by
  simp only [← bind_pure_comp, Exec.bind_iff, Exec.return_iff]
  constructor
  · rintro ⟨first, value, _, _, rfl, run, rfl, rfl, rfl⟩
    exact ⟨value, by simpa using run, rfl⟩
  · rintro ⟨value, run, rfl⟩
    exact ⟨es, value, t, [], by simp, run, rfl, rfl, rfl⟩

/-- The body every operation shares: one call in a context, a result computed from its answer. -/
theorem exec_result_iff {β : Type} (c : Call R) {result : c.Answer → β} {value : β} :
    Exec T.handler (result <$> withContext ctx c) s es value t ↔
      ∃ io r, es = contextEvents ctx ++ [.call c io r] ∧ T.Calls c s io r t ∧ value = result r := by
  simp only [exec_map_iff, exec_withContext_iff]
  constructor
  · rintro ⟨r, ⟨io, rfl, calls⟩, rfl⟩
    exact ⟨io, r, rfl, calls, rfl⟩
  · rintro ⟨io, r, rfl, calls, rfl⟩
    exact ⟨r, ⟨io, rfl, calls⟩, rfl⟩

private theorem exec_operation_iff {β : Type} (c : Call R) {tag : β → Answer} {result : c.Answer → β × Flags}
    {a : Answer} {flags : Flags} :
    Exec T.handler (Prod.map tag id <$> result <$> withContext ctx c) s es (a, flags) t ↔
      ∃ io r, es = contextEvents ctx ++ [.call c io r] ∧ T.Calls c s io r t ∧
        a = tag (result r).1 ∧ flags = (result r).2 := by
  simp only [Functor.map_map, exec_result_iff, Prod.ext_iff, Prod.map_fst, Prod.map_snd, id_eq]

private theorem exec_answered_iff {β : Type} {tag : β → Answer} {value : β} {self flags : Flags} {a : Answer} :
    Exec T.handler (Prod.map tag id <$> (return (value, self))) s es (a, flags) t ↔
      es = [] ∧ a = tag value ∧ flags = self ∧ t = s := by
  simp only [map_pure, Exec.return_iff, Prod.map_apply, id_eq, Prod.mk.injEq, and_assoc]

end Programs

variable {s t : WebSocketStream T} {es : List (OuterEvent R)} {a : Answer} {cx : Waker} {item : Message}

theorem same_iff : t = s ↔ t.flags = s.flags ∧ t.inner = s.inner := by
  obtain ⟨inner, flags⟩ := t
  obtain ⟨inner', flags'⟩ := s
  simp only [WebSocketStream.mk.injEq, and_comm]

/-- `poll_next` on a fused stream does nothing; otherwise it registers and reads once. -/
theorem step_pollNext_iff : Step T s ⟨.pollNext cx, es, a⟩ t ↔
    (s.flags.ended = true ∧ es = [] ∧ a = .next (.ready none) ∧ t = s) ∨
    (s.flags.ended = false ∧ ∃ io r, es = registrations .read cx ++ [.call .read io r] ∧
      T.Calls .read s.inner io r t.inner ∧ a = .next (nextResult s.flags r).1 ∧
      t.flags = (nextResult s.flags r).2) := by
  unfold Step Op.run pollNext
  cases ended : s.flags.ended with
  | true => simp only [↓reduceIte, exec_answered_iff, same_iff, true_and, Bool.true_eq_false, false_and, or_false]
  | false =>
    simp only [Bool.false_eq_true, ↓reduceIte, bind_pure_comp, false_and, true_and, false_or]
    exact exec_operation_iff .read

/-- `poll_ready` does nothing while `ready`; otherwise it registers and flushes once. -/
theorem step_pollReady_iff : Step T s ⟨.pollReady cx, es, a⟩ t ↔
    (s.flags.ready = true ∧ es = [] ∧ a = .sink (.ready (.ok ())) ∧ t = s) ∨
    (s.flags.ready = false ∧ ∃ io r, es = registrations .write cx ++ [.call .flush io r] ∧
      T.Calls .flush s.inner io r t.inner ∧ a = .sink (readyResult s.flags r).1 ∧
      t.flags = (readyResult s.flags r).2) := by
  unfold Step Op.run pollReady
  cases ready : s.flags.ready with
  | true => simp only [↓reduceIte, exec_answered_iff, same_iff, true_and, Bool.true_eq_false, false_and, or_false]
  | false =>
    simp only [Bool.false_eq_true, ↓reduceIte, bind_pure_comp, false_and, true_and, false_or]
    exact exec_operation_iff .flush

/-- `start_send` registers nothing and writes once. -/
theorem step_startSend_iff : Step T s ⟨.startSend item, es, a⟩ t ↔
    ∃ io r, es = [.call (.write item) io r] ∧ T.Calls (.write item) s.inner io r t.inner ∧
      a = .sent (sentResult s.flags r).1 ∧ t.flags = (sentResult s.flags r).2 := by
  unfold Step Op.run startSend
  simp only [bind_pure_comp]
  exact exec_operation_iff (.write item)

/-- `poll_flush` registers and flushes once. -/
theorem step_pollFlush_iff : Step T s ⟨.pollFlush cx, es, a⟩ t ↔
    ∃ io r, es = registrations .write cx ++ [.call .flush io r] ∧ T.Calls .flush s.inner io r t.inner ∧
      a = .sink (flushResult s.flags r).1 ∧ t.flags = (flushResult s.flags r).2 := by
  unfold Step Op.run pollFlush
  simp only [bind_pure_comp]
  exact exec_operation_iff .flush

/-- `poll_close` registers, then flushes once it is `closing` and closes until then. -/
theorem step_pollClose_iff : Step T s ⟨.pollClose cx, es, a⟩ t ↔
    (s.flags.closing = true ∧ ∃ io r, es = registrations .write cx ++ [.call .flush io r] ∧
      T.Calls .flush s.inner io r t.inner ∧ a = .sink (closeResult { s.flags with ready := true } r).1 ∧
      t.flags = (closeResult { s.flags with ready := true } r).2) ∨
    (s.flags.closing = false ∧ ∃ io r, es = registrations .write cx ++ [.call (.close none) io r] ∧
      T.Calls (.close none) s.inner io r t.inner ∧ a = .sink (closeResult { s.flags with ready := true } r).1 ∧
      t.flags = (closeResult { s.flags with ready := true } r).2) := by
  unfold Step Op.run pollClose
  cases closing : s.flags.closing with
  | true =>
    simp only [closing, ↓reduceIte, bind_pure_comp, true_and, Bool.true_eq_false, false_and, or_false]
    exact exec_operation_iff .flush
  | false =>
    simp only [closing, Bool.false_eq_true, ↓reduceIte, bind_pure_comp, false_and, true_and, false_or]
    exact exec_operation_iff (.close none)

theorem step_isTerminated_iff : Step T s ⟨.isTerminated, es, a⟩ t ↔
    es = [] ∧ a = .terminated s.flags.ended ∧ t = s := by
  simp only [Step, Op.run, isTerminated, Exec.return_iff, Prod.mk.injEq, same_iff, and_assoc]

theorem step_dropNext_iff : Step T s ⟨.dropNext, es, a⟩ t ↔ es = [] ∧ a = .dropped ∧ t = s := by
  simp only [Step, Op.run, Exec.return_iff, Prod.mk.injEq, same_iff, and_assoc]

section Send

variable {u : T.State} {program : Program (outer R) (Poll (Except WsError Unit) × Flags)}
  {value : Poll (Except WsError Unit) × Flags} {answer : Poll (Except WsError Unit) × Option Message}

theorem step_of_pollReady (run : Exec T.handler (pollReady s.flags cx) s.inner es value u) :
    Step T s ⟨.pollReady cx, es, .sink value.1⟩ ⟨u, value.2⟩ := exec_map_iff.mpr ⟨value, run, rfl⟩

theorem step_of_startSend {value : Except WsError Unit × Flags}
    (run : Exec T.handler (startSend s.flags item) s.inner es value u) :
    Step T s ⟨.startSend item, es, .sent value.1⟩ ⟨u, value.2⟩ := exec_map_iff.mpr ⟨value, run, rfl⟩

theorem step_of_flushing {inner : T.State} {flags : Flags}
    (run : Exec T.handler (Prod.map (·, (none : Option Message)) id <$> pollFlush flags cx) inner es
      (answer, t.flags) t.inner) : Step T ⟨inner, flags⟩ ⟨.pollFlush cx, es, .sink answer.1⟩ t := by
  obtain ⟨value, flushed, same⟩ := exec_map_iff.mp run
  obtain ⟨rfl, updated⟩ := Prod.mk.inj same
  exact exec_map_iff.mpr ⟨value, flushed, congrArg (Answer.sink value.1, ·) updated⟩

theorem eq_of_return {inner : T.State} {flags : Flags} {kept : Option Message}
    {polled : Poll (Except WsError Unit)}
    (run : Exec T.handler (return ((polled, kept), flags)) inner es (answer, t.flags) t.inner) :
    ⟨inner, flags⟩ = t := by
  obtain ⟨-, same, reached⟩ := Exec.return_iff.mp run
  exact (same_iff.mpr ⟨congrArg Prod.snd same, reached⟩).symm

/-- A poll of a `send` future is a run of at most three operations of the `Sink`. -/
theorem exists_run_of_sendPoll {pending : Option Message}
    (run : Exec T.handler (sendPoll s.flags pending cx) s.inner es (answer, t.flags) t.inner) : ∃ ls, Run T s ls t := by
  cases pending with
  | none => exact ⟨_, .single (step_of_flushing run)⟩
  | some item =>
    obtain ⟨_, ⟨ready, flags⟩, middle, _, rfl, first, rest⟩ := Exec.bind_iff.mp run
    have readied := step_of_pollReady first
    rcases ready with (e | ⟨⟩) | _
    · obtain rfl := eq_of_return rest
      exact ⟨_, .single readied⟩
    · obtain ⟨_, ⟨sent, flags'⟩, middle', _, rfl, second, rest⟩ := Exec.bind_iff.mp rest
      have fed := step_of_startSend (s := ⟨middle, flags⟩) second
      rcases sent with e | ⟨⟩
      · obtain rfl := eq_of_return rest
        exact ⟨_, .cons readied (.single fed)⟩
      · exact ⟨_, .cons readied (.cons fed (.single (step_of_flushing rest)))⟩
    · obtain rfl := eq_of_return rest
      exact ⟨_, .single readied⟩

end Send

theorem ApiStep.exists_run {label : ApiLabel R} (step : ApiStep T s label t) : ∃ ls, Run T s ls t := by
  cases label with
  | op label => exact ⟨[label], .single step⟩
  | sendPoll pending cx es answer => exact exists_run_of_sendPoll step

end TokioTungstenite
