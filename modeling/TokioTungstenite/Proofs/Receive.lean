import TokioTungstenite.Proofs.Reference

/-! # The receive path

Over every run that mixes `poll_next`, dropped `next()` futures, `is_terminated` and the whole `Sink`
half, with tungstenite's `read` arbitrary: the adapter reports exactly the bytes the inner reader
filled, `poll_next` yields exactly the messages `read` returned, and its answers are those of a fused
stream. The run is cut at the one label that ends the stream; `Live` and `Fused` say what each
operation of the reading half does before and after it.
-/

namespace TokioTungstenite

open Execution WebSocketStream

variable {R : HandshakeRole} {T : Tungstenite R} {s t : WebSocketStream T} {ls : List (Label R)}

/-- The messages `poll_next` yielded. -/
def Label.yielded (label : Label R) : List Message :=
  match label.answer with
  | .next (.ready (some (.ok v))) => [v]
  | _ => []

/-- The messages tungstenite's `read` returned. -/
def CallRecord.received : CallRecord R → List Message
  | ⟨.read, _, .ok v⟩ => [v]
  | _ => []

def Op.isSink : Op → Bool
  | .pollReady _ | .startSend _ | .pollFlush _ | .pollClose _ => true
  | .pollNext _ | .isTerminated | .dropNext => false

/-- An operation on a stream that has not ended: `poll_next` reads exactly once, and is pending exactly
when that read blocked. -/
inductive Label.Live : Label R → Prop
  | item (cx : Waker) (io : List IoEvent) (v : Message) :
      Live ⟨.pollNext cx, registrations .read cx ++ [.call .read io (.ok v)], .next (.ready (some (.ok v)))⟩
  | pending (cx : Waker) (io : List IoEvent) (e : WsError) (blocked : e.isWouldBlock = true) :
      Live ⟨.pollNext cx, registrations .read cx ++ [.call .read io (.error e)], .next .pending⟩
  | terminated : Live ⟨.isTerminated, [], .terminated false⟩
  | dropped : Live ⟨.dropNext, [], .dropped⟩
  | sink (label : Label R) (half : label.op.isSink = true) : Live label

/-- The one `poll_next` that ends the stream. Its read failed: a closed connection is the end of the
stream, any other error is its last item. -/
inductive Label.Ends : Label R → Prop
  | closed (cx : Waker) (io : List IoEvent) (e : WsError) (closed : e.isClosed = true) :
      Ends ⟨.pollNext cx, registrations .read cx ++ [.call .read io (.error e)], .next (.ready none)⟩
  | failed (cx : Waker) (io : List IoEvent) (e : WsError) (unblocked : e.isWouldBlock = false)
      (unclosed : e.isClosed = false) :
      Ends ⟨.pollNext cx, registrations .read cx ++ [.call .read io (.error e)], .next (.ready (some (.error e)))⟩

/-- An operation on a fused stream: `poll_next` registers nothing, reads nothing and answers `None`. -/
inductive Label.Fused : Label R → Prop
  | next (cx : Waker) : Fused ⟨.pollNext cx, [], .next (.ready none)⟩
  | terminated : Fused ⟨.isTerminated, [], .terminated true⟩
  | dropped : Fused ⟨.dropNext, [], .dropped⟩
  | sink (label : Label R) (half : label.op.isSink = true) : Fused label

/-- The shape of a run of a stream whose `ended` flag is as given. -/
inductive FusedShape : List (Label R) → Bool → Prop
  | live {ls : List (Label R)} (all : ∀ label ∈ ls, label.Live) : FusedShape ls false
  | ended {live dead : List (Label R)} {last : Label R} (before : ∀ label ∈ live, label.Live)
      (ends : last.Ends) (after : ∀ label ∈ dead, label.Fused) : FusedShape (live ++ last :: dead) true

/-- The `Sink` half never touches `ended`. -/
theorem Step.ended_of_isSink {label : Label R} (step : Step T s label t) (half : label.op.isSink = true) :
    t.flags.ended = s.flags.ended := by
  obtain ⟨op, es, a⟩ := label
  cases op with
  | pollNext | isTerminated | dropNext => cases half
  | pollReady cx =>
    rcases step_pollReady_iff.mp step with ⟨-, -, -, rfl⟩ | ⟨-, io, r, -, -, -, flags⟩
    · rfl
    · rw [flags, readyResult_ended]
  | startSend item =>
    obtain ⟨io, r, -, -, -, flags⟩ := step_startSend_iff.mp step
    rw [flags, sentResult_ended]
  | pollFlush cx =>
    obtain ⟨io, r, -, -, -, flags⟩ := step_pollFlush_iff.mp step
    rw [flags, flushResult_ended]
  | pollClose cx =>
    rcases step_pollClose_iff.mp step with ⟨-, io, r, -, -, -, flags⟩ | ⟨-, io, r, -, -, -, flags⟩ <;>
      rw [flags, closeResult_ended]

/-- A step of a live stream either keeps it live or is the one that ends it. -/
theorem Step.live_or_ends {label : Label R} (step : Step T s label t) (live : s.flags.ended = false) :
    (t.flags.ended = false ∧ label.Live) ∨ (t.flags.ended = true ∧ label.Ends) := by
  by_cases half : label.op.isSink = true
  · exact .inl ⟨(step.ended_of_isSink half).trans live, .sink _ half⟩
  obtain ⟨op, es, a⟩ := label
  cases op with
  | pollReady | startSend | pollFlush | pollClose => exact (half rfl).elim
  | isTerminated =>
    obtain ⟨rfl, rfl, rfl⟩ := step_isTerminated_iff.mp step
    exact .inl ⟨live, live ▸ .terminated⟩
  | dropNext =>
    obtain ⟨rfl, rfl, rfl⟩ := step_dropNext_iff.mp step
    exact .inl ⟨live, .dropped⟩
  | pollNext cx =>
    rcases step_pollNext_iff.mp step with ⟨ended, -⟩ | ⟨-, io, r, rfl, -, rfl, flags⟩
    · rw [live] at ended
      contradiction
    rcases r with e | v
    · cases blocked : e.isWouldBlock with
      | true =>
        simp only [nextResult, cvt_blocked blocked] at flags ⊢
        exact .inl ⟨flags ▸ live, .pending cx io e blocked⟩
      | false =>
        simp only [nextResult, cvt_failed blocked] at flags ⊢
        cases closed : e.isClosed with
        | true =>
          simp only [closed, ↓reduceIte] at flags ⊢
          exact .inr ⟨by rw [flags], .closed cx io e closed⟩
        | false =>
          simp only [closed, Bool.false_eq_true, ↓reduceIte] at flags ⊢
          exact .inr ⟨by rw [flags], .failed cx io e blocked closed⟩
    · exact .inl ⟨by rw [flags]; exact live, .item cx io v⟩

/-- A fused stream stays fused. -/
theorem Step.fused {label : Label R} (step : Step T s label t) (ended : s.flags.ended = true) :
    t.flags.ended = true ∧ label.Fused := by
  by_cases half : label.op.isSink = true
  · exact ⟨(step.ended_of_isSink half).trans ended, .sink _ half⟩
  obtain ⟨op, es, a⟩ := label
  cases op with
  | pollReady | startSend | pollFlush | pollClose => exact (half rfl).elim
  | isTerminated =>
    obtain ⟨rfl, rfl, rfl⟩ := step_isTerminated_iff.mp step
    exact ⟨ended, ended ▸ .terminated⟩
  | dropNext =>
    obtain ⟨rfl, rfl, rfl⟩ := step_dropNext_iff.mp step
    exact ⟨ended, .dropped⟩
  | pollNext cx =>
    rcases step_pollNext_iff.mp step with ⟨-, rfl, rfl, rfl⟩ | ⟨live, -⟩
    · exact ⟨ended, .next cx⟩
    · rw [ended] at live
      contradiction

/-- The shape of a whole run, by induction on its last step. -/
theorem Run.fusedShape (run : Run T s ls t) (fresh : s.flags.ended = false) : FusedShape ls t.flags.ended := by
  refine run.history (motive := fun ls t => FusedShape ls t.flags.ended) (fresh ▸ .live (by simp)) ?_
  intro past now label next _ shape step
  cases ended : now.flags.ended with
  | false =>
    rw [ended] at shape
    obtain ⟨live⟩ := shape
    rcases step.live_or_ends ended with ⟨still, here⟩ | ⟨final, here⟩
    · rw [still]
      exact .live (List.forall_mem_append.mpr ⟨live, List.forall_mem_singleton.mpr here⟩)
    · rw [final]
      exact .ended live here (by simp)
  | true =>
    rw [ended] at shape
    obtain ⟨still, here⟩ := step.fused ended
    rw [still]
    cases shape with
    | ended before ends after =>
      rw [List.append_assoc, List.cons_append]
      exact .ended before ends (List.forall_mem_append.mpr ⟨after, List.forall_mem_singleton.mpr here⟩)

/-- One operation yields exactly what its read returned: only `poll_next` reads, and it passes on
every message. -/
theorem Step.yielded_eq {label : Label R} (step : Step T s label t) :
    label.yielded = label.calls.flatMap CallRecord.received := by
  obtain ⟨op, es, a⟩ := label
  cases op with
  | pollNext cx =>
    rcases step_pollNext_iff.mp step with ⟨-, rfl, rfl, rfl⟩ | ⟨-, io, r, rfl, -, rfl, -⟩
    · rfl
    · have calls : Label.calls ⟨.pollNext cx, registrations .read cx ++ [.call .read io r],
          .next (nextResult s.flags r).1⟩ = [⟨.read, io, r⟩] := rfl
      rw [calls]
      rcases r with e | v
      · simp only [Label.yielded, nextResult, List.flatMap_singleton, CallRecord.received]
        cases blocked : e.isWouldBlock with
        | true => rw [cvt_blocked blocked]
        | false =>
          rw [cvt_failed blocked]
          cases closed : e.isClosed <;> simp only [closed, Bool.false_eq_true, ↓reduceIte]
      · rfl
  | isTerminated =>
    obtain ⟨rfl, rfl, -⟩ := step_isTerminated_iff.mp step
    rfl
  | dropNext =>
    obtain ⟨rfl, rfl, -⟩ := step_dropNext_iff.mp step
    rfl
  | pollReady cx => rcases step_pollReady_iff.mp step with ⟨-, rfl, rfl, -⟩ | ⟨-, io, r, rfl, -, rfl, -⟩ <;> rfl
  | startSend item =>
    obtain ⟨io, r, rfl, -, rfl, -⟩ := step_startSend_iff.mp step
    rfl
  | pollFlush cx =>
    obtain ⟨io, r, rfl, -, rfl, -⟩ := step_pollFlush_iff.mp step
    rfl
  | pollClose cx =>
    rcases step_pollClose_iff.mp step with ⟨-, io, r, rfl, -, rfl, -⟩ | ⟨-, io, r, rfl, -, rfl, -⟩ <;> rfl

theorem Run.yielded_eq (run : Run T s ls t) :
    ls.flatMap Label.yielded = (ls.flatMap Label.calls).flatMap CallRecord.received := by
  induction run with
  | nil => rfl
  | cons step _ ih => simp only [List.flatMap_cons, List.flatMap_append, ih, step.yielded_eq]

/-- Dropping a pending `next()` changes nothing: the run without the drops is a run between the same states. -/
theorem Run.without_drops (run : Run T s ls t) : Run T s (ls.filter fun label => label.op != .dropNext) t := by
  induction run with
  | nil s => exact .nil s
  | @cons s middle t label ls step _ ih =>
    by_cases drop : label.op = .dropNext
    · obtain ⟨op, es, a⟩ := label
      obtain rfl : op = .dropNext := drop
      obtain ⟨-, -, rfl⟩ := step_dropNext_iff.mp step
      simpa using ih
    · rw [List.filter_cons_of_pos (by simpa using drop)]
      exact .cons step ih

/-- What the adapter reports over a run is what the inner reader filled. -/
theorem Run.reported_eq_filled (run : Run T s ls t)
    (contract : ∀ event ∈ ls.flatMap Label.io, InnerEvent.FillsWhenReady event.2) :
    reportedBytes ls = filledBytes ls :=
  List.flatMap_congr fun event member => (run.performs event member).reported_eq_filled (contract event member)

/-- The receive path is faithful, cancel-safe and fused. -/
theorem receive_faithful (run : Run T s ls t) (fresh : s.flags.ended = false)
    (contract : ∀ event ∈ ls.flatMap Label.io, InnerEvent.FillsWhenReady event.2) :
    reportedBytes ls = filledBytes ls ∧
      ls.flatMap Label.yielded = (ls.flatMap Label.calls).flatMap CallRecord.received ∧
      Run T s (ls.filter fun label => label.op != .dropNext) t ∧
      FusedShape ls t.flags.ended :=
  ⟨run.reported_eq_filled contract, run.yielded_eq, run.without_drops, run.fusedShape fresh⟩

/-! A client reads one binary frame of three bytes. -/

private def chunk : Bytes := [0x82, 0x01, 0x2a]

private def oneFrame : Label noHandshake where
  op := .pollNext ⟨0⟩
  events := registrations .read ⟨0⟩ ++
    [.call .read [(⟨.read 4096, .ok chunk⟩, ⟨.pollRead .readWakerProxy 4096, (⟨chunk, by decide⟩, .ready (.ok ()))⟩)]
      (.ok (.binary [0x2a]))]
  answer := .next (.ready (some (.ok (.binary [0x2a]))))

private theorem oneFrame_run :
    Run (Reference.small .client) (Reference.start .client) [oneFrame] (Reference.start .client) := by
  refine .single (step_pollNext_iff.mpr (.inr ⟨rfl, _, _, rfl, ?_, rfl, rfl⟩))
  refine reference_calls rfl ?_ ?_
  · simp [StdEvent.WellBehaved]
  · exact List.forall_mem_singleton.mpr (performs_read_iff.mpr ⟨_, rfl, rfl⟩)

theorem receive_faithful_oneFrame : reportedBytes [oneFrame] = filledBytes [oneFrame] ∧
    [oneFrame].flatMap Label.yielded = ([oneFrame].flatMap Label.calls).flatMap CallRecord.received ∧
    Run (Reference.small .client) (Reference.start .client) ([oneFrame].filter fun label => label.op != .dropNext)
      (Reference.start .client) ∧
    FusedShape [oneFrame] false :=
  receive_faithful oneFrame_run rfl (by simp [oneFrame, InnerEvent.FillsWhenReady])

end TokioTungstenite
