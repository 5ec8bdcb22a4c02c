import TokioTungstenite.Model.Observations

/-! # What the flags remember

The three flags are all that a stream keeps of its own past. The machine `Recorded` has no flags: it keeps the
record of the operations done, and each operation looks up in it which call to make. A fresh `WebSocketStream`
is that machine, and its flags are at all times a function of the record.
-/

namespace TokioTungstenite

open Execution WebSocketStream

variable {R : HandshakeRole} {T : Tungstenite R}

namespace Label

/-- `poll_next` yielded a final item: an error, or the end of the stream. -/
def ends (label : Label R) : Bool :=
  match label.answer with
  | .next (.ready none) | .next (.ready (some (.error _))) => true
  | _ => false

/-- `poll_close` waits for what it has to write. -/
def waitsToClose (label : Label R) : Bool :=
  match label.op, label.answer with
  | .pollClose _, .sink .pending => true
  | _, _ => false

/-- The write that was made blocked. -/
def writeBlocked (label : Label R) : Bool :=
  match label.calls with
  | [⟨.write _, _, .error e⟩] => e.isWouldBlock
  | _ => false

/-- What an operation shows of the last write: whether it is blocked, or nothing. -/
def blockage? (label : Label R) : Option Bool :=
  match label.op, label.answer with
  | .startSend _, _ => some label.writeBlocked
  | .pollReady _, .sink .pending | .pollFlush _, .sink .pending => none
  | .pollReady _, _ | .pollFlush _, _ | .pollClose _, _ => some false
  | _, _ => none

end Label

/-- A final item has been yielded. -/
def hasEnded (past : List (Label R)) : Bool := past.any Label.ends

/-- A `poll_close` has come to wait. -/
def isClosing (past : List (Label R)) : Bool := past.any Label.waitsToClose

/-- The last thing shown of the last write is that it is blocked. -/
def isBlocked (past : List (Label R)) : Bool := (past.filterMap Label.blockage?).getLast? = some true

/-- A read that blocked is retried, one on a closed connection is the end. -/
def nextReply : Except WsError Message → Poll (Option (Except WsError Message))
  | .ok v => .ready (some (.ok v))
  | .error e => if e.isWouldBlock then .pending else if e.isClosed then .ready none else .ready (some (.error e))

/-- A message whose write blocked has been accepted. -/
def sentReply : Except WsError Unit → Except WsError Unit
  | .ok () => .ok ()
  | .error e => if e.isWouldBlock then .ok () else .error e

/-- A flush is finished by a closed connection too. -/
def flushReply : Except WsError Unit → Poll (Except WsError Unit)
  | .ok () | .error .connectionClosed => .ready (.ok ())
  | .error e => if e.isWouldBlock then .pending else .ready (.error e)

/-- What an operation is to do: answer at once, or make one call and translate its answer. -/
inductive Plan (R : HandshakeRole)
  | answer (a : Answer)
  | call (c : Call R) (reply : c.Answer → Answer)

/-- The plan of an operation, decided by the record alone. -/
def Op.plan (past : List (Label R)) : Op → Plan R
  | .pollNext _ => if hasEnded past then .answer (.next (.ready none)) else .call .read fun r => .next (nextReply r)
  | .isTerminated => .answer (.terminated (hasEnded past))
  | .dropNext => .answer .dropped
  | .pollReady _ => if isBlocked past then .call .flush fun r => .sink (cvt r) else .answer (.sink (.ready (.ok ())))
  | .startSend item => .call (.write item) fun r => .sent (sentReply r)
  | .pollFlush _ => .call .flush fun r => .sink (flushReply r)
  | .pollClose _ =>
      if isClosing past then .call .flush fun r => .sink (flushReply r)
      else .call (.close none) fun r => .sink (flushReply r)

/-- A plan carried out on a WebSocket, with what is observed of it. -/
def Plan.Executes (T : Tungstenite R) (u : T.State) (label : Label R) (v : T.State) : Plan R → Prop
  | .answer a => label.events = [] ∧ label.answer = a ∧ v = u
  | .call c reply => ∃ io r, label.events = contextEvents label.op.context ++ [.call c io r] ∧ T.Calls c u io r v ∧
      label.answer = reply r

/-- One operation of the machine without flags: the plan is made from the record, and the operation is recorded. -/
def Recorded (T : Tungstenite R) (before : T.State × List (Label R)) (label : Label R)
    (after : T.State × List (Label R)) : Prop :=
  (label.op.plan before.2).Executes T before.1 label after.1 ∧ after.2 = before.2 ++ [label]

/-- The flags that a record amounts to. -/
def memory (past : List (Label R)) : Flags where
  closing := isClosing past
  ended := hasEnded past
  ready := !isBlocked past

/-- What an operation adds to the flags of the record. -/
def Label.update (label : Label R) (self : Flags) : Flags where
  closing := self.closing || label.waitsToClose
  ended := self.ended || label.ends
  ready := (label.blockage?.map not).getD self.ready

section Concat

variable (past : List (Label R)) (label : Label R)

theorem hasEnded_concat : hasEnded (past ++ [label]) = (hasEnded past || label.ends) := by simp [hasEnded]

theorem isClosing_concat : isClosing (past ++ [label]) = (isClosing past || label.waitsToClose) := by simp [isClosing]

theorem isBlocked_concat : isBlocked (past ++ [label]) = label.blockage?.getD (isBlocked past) := by
  cases shown : label.blockage? <;> simp [isBlocked, List.filterMap_append, shown]

theorem memory_concat : memory (past ++ [label]) = label.update (memory past) := by
  simp only [memory, Label.update, hasEnded_concat, isClosing_concat, isBlocked_concat]
  cases label.blockage? <;> rfl

end Concat

section Results

variable (self : Flags) (cx : Waker) (r : Except WsError Unit) (events : List (OuterEvent R))

private theorem update_next (polled : Poll (Option (Except WsError Message))) :
    Label.update ⟨.pollNext cx, events, .next polled⟩ self =
      { self with ended := self.ended || Label.ends (R := R) ⟨.pollNext cx, events, .next polled⟩ } := by
  simp [Label.update, Label.waitsToClose, Label.blockage?]

private theorem update_flush {op : Op} (flush : op = .pollReady cx ∨ op = .pollFlush cx)
    (polled : Poll (Except WsError Unit)) :
    Label.update ⟨op, events, .sink polled⟩ self = { self with ready := self.ready || polled != .pending } := by
  rcases flush with rfl | rfl <;>
    cases polled <;> simp [Label.update, Label.ends, Label.waitsToClose, Label.blockage?]

private theorem update_close (polled : Poll (Except WsError Unit)) :
    Label.update ⟨.pollClose cx, events, .sink polled⟩ self =
      { self with closing := self.closing || polled == .pending, ready := true } := by
  cases polled <;> simp [Label.update, Label.ends, Label.waitsToClose, Label.blockage?]

private theorem update_send (item : Message) (sent : Except WsError Unit) :
    Label.update ⟨.startSend item, events, .sent sent⟩ self =
      { self with ready := !Label.writeBlocked (R := R) ⟨.startSend item, events, .sent sent⟩ } := by
  simp [Label.update, Label.ends, Label.waitsToClose, Label.blockage?]

/-- A blocked read leaves the flags, a message too, and any other answer ends the stream. -/
private theorem nextResult_eq (read : Except WsError Message) : nextResult self read =
    (nextReply read, Label.update ⟨.pollNext cx, events, .next (nextReply read)⟩ self) := by
  rw [update_next]
  rcases read with e | v
  · cases blocked : e.isWouldBlock with
    | true => simp [nextResult, nextReply, Label.ends, cvt_blocked blocked, blocked]
    | false =>
      cases closed : e.isClosed <;> simp [nextResult, nextReply, Label.ends, cvt_failed blocked, blocked, closed]
  · simp [nextResult, nextReply, Label.ends]

private theorem readyResult_eq :
    readyResult self r = (cvt r, Label.update ⟨.pollReady cx, events, .sink (cvt r)⟩ self) := by
  rw [update_flush self cx events (.inl rfl)]
  unfold readyResult
  split <;> simp_all

private theorem sentResult_eq (item : Message) (io : List IoEvent) : sentResult self r =
    (sentReply r, Label.update (R := R) ⟨.startSend item, [.call (.write item) io r], .sent (sentReply r)⟩ self) := by
  rw [update_send]
  rcases r with e | v
  · cases blocked : e.isWouldBlock <;>
      simp [sentResult, sentReply, Label.writeBlocked, Label.calls, OuterEvent.record?, blocked]
  · simp [sentResult, sentReply, Label.writeBlocked, Label.calls, OuterEvent.record?]

private theorem flushResult_eq : flushResult self r =
    (flushReply r, Label.update ⟨.pollFlush cx, events, .sink (flushReply r)⟩ self) := by
  rw [update_flush self cx events (.inr rfl)]
  rcases r with e | v
  · cases blocked : e.isWouldBlock with
    | true =>
      obtain ⟨io, rfl, _⟩ := WsError.isWouldBlock_iff.mp blocked
      simp [flushResult, flushReply, cvt_blocked blocked, blocked]
    | false =>
      by_cases closed : e = .connectionClosed
      · subst closed
        simp [flushResult, flushReply, cvt_failed blocked]
      · have failed : flushReply (.error e) = .ready (.error e) := by cases e <;> simp_all [flushReply]
        rw [flushResult_failed self blocked closed, failed]
        simp
  · simp [flushResult, flushReply]

private theorem closeResult_eq : closeResult { self with ready := true } r =
    (flushReply r, Label.update ⟨.pollClose cx, events, .sink (flushReply r)⟩ self) := by
  rw [update_close]
  rcases r with e | v
  · cases e
    case io error => cases blocked : (WsError.io error).isWouldBlock <;> simp [closeResult, flushReply, blocked]
    all_goals simp [closeResult, flushReply, WsError.isWouldBlock]
  · simp [closeResult, flushReply]

end Results

variable {s t : WebSocketStream T} {past ls : List (Label R)} {label : Label R}

/-- An operation that does nothing shows nothing that the flags do not already say. -/
private theorem idle_iff (ends : label.ends = true → s.flags.ended = true) (waits : label.waitsToClose = false)
    (shown : ∀ blocked, label.blockage? = some blocked → s.flags.ready = !blocked) :
    t = s ↔ t.inner = s.inner ∧ t.flags = label.update s.flags := by
  have same : label.update s.flags = s.flags := by
    have ended : (s.flags.ended || label.ends) = s.flags.ended := by
      cases last : label.ends <;> simp_all
    have ready : (label.blockage?.map not).getD s.flags.ready = s.flags.ready := by
      cases last : label.blockage? <;> simp_all
    simp only [Label.update, waits, Bool.or_false, ended, ready]
  rw [same, same_iff, and_comm]

/-- An operation that makes a call answers and remembers what that call answered. -/
private theorem called_iff {β : Type} (op : Op) {es : List (OuterEvent R)} {a : Answer} {c : Call R}
    {tag : β → Answer} {result : c.Answer → β × Flags} {reply : c.Answer → β}
    (results : ∀ io r, result r =
      (reply r, Label.update ⟨op, contextEvents op.context ++ [.call c io r], tag (reply r)⟩ s.flags)) :
    (∃ io r, es = contextEvents op.context ++ [.call c io r] ∧ T.Calls c s.inner io r t.inner ∧
        a = tag (result r).1 ∧ t.flags = (result r).2) ↔
      (Plan.call c fun r => tag (reply r)).Executes T s.inner ⟨op, es, a⟩ t.inner ∧
        t.flags = Label.update ⟨op, es, a⟩ s.flags := by
  constructor
  · rintro ⟨io, r, rfl, calls, rfl, remembered⟩
    rw [results io r] at remembered ⊢
    exact ⟨⟨io, r, rfl, calls, rfl⟩, remembered⟩
  · rintro ⟨⟨io, r, events, calls, answered⟩, remembered⟩
    dsimp only at events answered
    subst events answered
    have same := results io r
    exact ⟨io, r, rfl, calls, by rw [same], by rw [same, remembered]⟩

/-- On a stream whose flags are those of the record, an operation does what the record plans for it. -/
theorem step_iff_executes (remembers : s.flags = memory past) :
    Step T s label t ↔
      (label.op.plan past).Executes T s.inner label t.inner ∧ t.flags = memory (past ++ [label]) := by
  have ended : s.flags.ended = hasEnded past := congrArg Flags.ended remembers
  have closing : s.flags.closing = isClosing past := congrArg Flags.closing remembers
  have ready : s.flags.ready = !isBlocked past := congrArg Flags.ready remembers
  rw [memory_concat, ← remembers]
  obtain ⟨op, es, a⟩ := label
  cases op with
  | pollNext cx =>
    rw [step_pollNext_iff, ended]
    cases fused : hasEnded past with
    | true =>
      simp only [Op.plan, Plan.Executes, fused, ↓reduceIte, true_and, Bool.true_eq_false, false_and, or_false,
        and_assoc, and_congr_right_iff]
      rintro rfl rfl
      exact idle_iff (fun _ => ended.trans fused) rfl (by simp [Label.blockage?])
    | false =>
      simp only [Op.plan, fused, Bool.false_eq_true, ↓reduceIte, true_and, false_and, false_or]
      apply called_iff (.pollNext cx)
      intro io r
      apply nextResult_eq
  | isTerminated =>
    rw [step_isTerminated_iff, ended]
    simp only [Op.plan, Plan.Executes, and_assoc, and_congr_right_iff]
    rintro rfl rfl
    exact idle_iff (by simp [Label.ends]) rfl (by simp [Label.blockage?])
  | dropNext =>
    rw [step_dropNext_iff]
    simp only [Op.plan, Plan.Executes, and_assoc, and_congr_right_iff]
    rintro rfl rfl
    exact idle_iff (by simp [Label.ends]) rfl (by simp [Label.blockage?])
  | pollReady cx =>
    rw [step_pollReady_iff, ready]
    cases blocked : isBlocked past with
    | true =>
      simp only [Op.plan, blocked, Bool.not_true, Bool.false_eq_true, ↓reduceIte, true_and, false_and, false_or]
      apply called_iff (.pollReady cx)
      intro io r
      apply readyResult_eq
    | false =>
      simp only [Op.plan, Plan.Executes, blocked, Bool.not_false, Bool.false_eq_true, ↓reduceIte, true_and,
        Bool.true_eq_false, false_and, or_false, and_assoc, and_congr_right_iff]
      rintro rfl rfl
      exact idle_iff (by simp [Label.ends]) rfl (by simp [Label.blockage?, ready, blocked])
  | startSend item =>
    rw [step_startSend_iff]
    apply called_iff (.startSend item)
    intro io r
    exact sentResult_eq s.flags r item io
  | pollFlush cx =>
    rw [step_pollFlush_iff]
    apply called_iff (.pollFlush cx)
    intro io r
    apply flushResult_eq
  | pollClose cx =>
    rw [step_pollClose_iff, closing]
    cases waiting : isClosing past with
    | true =>
      simp only [Op.plan, waiting, ↓reduceIte, true_and, Bool.true_eq_false, false_and, or_false]
      apply called_iff (.pollClose cx)
      intro io r
      apply closeResult_eq
    | false =>
      simp only [Op.plan, waiting, Bool.false_eq_true, ↓reduceIte, true_and, false_and, false_or]
      apply called_iff (.pollClose cx)
      intro io r
      apply closeResult_eq

/-- A fresh stream is the machine without flags, and its flags are those of its record. -/
theorem run_iff_recorded {u : T.State} :
    Run T ⟨u, new⟩ ls t ↔ Path (Recorded T) (u, []) ls (t.inner, ls) ∧ t.flags = memory ls := by
  induction ls using List.reverseRecOn generalizing t with
  | nil =>
    constructor
    · intro run
      obtain rfl := Path.nil_iff.mp run
      exact ⟨.nil _, rfl⟩
    · rintro ⟨recorded, remembers⟩
      obtain ⟨same, -⟩ := Prod.mk.inj (Path.nil_iff.mp recorded)
      exact Path.nil_iff.mpr (same_iff.mpr ⟨remembers, same⟩)
  | append_singleton past label ih =>
    constructor
    · intro run
      obtain ⟨now, before, step⟩ := Path.concat_iff.mp run
      obtain ⟨recorded, remembers⟩ := ih.mp before
      obtain ⟨executes, remembers⟩ := (step_iff_executes remembers).mp step
      have last : Recorded T (now.inner, past) label (t.inner, past ++ [label]) := ⟨executes, rfl⟩
      exact ⟨Path.concat_iff.mpr ⟨_, recorded, last⟩, remembers⟩
    · rintro ⟨recorded, remembers⟩
      obtain ⟨⟨v, past'⟩, before, executes, appended⟩ := Path.concat_iff.mp recorded
      obtain rfl : past = past' := List.append_cancel_right appended
      have run : Run T ⟨u, new⟩ past ⟨v, memory past⟩ := ih.mpr ⟨before, rfl⟩
      exact Path.concat_iff.mpr ⟨_, run, (step_iff_executes rfl).mpr ⟨executes, remembers⟩⟩

end TokioTungstenite
