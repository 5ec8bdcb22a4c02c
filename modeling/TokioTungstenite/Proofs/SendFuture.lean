import TokioTungstenite.Proofs.Close
import TokioTungstenite.Proofs.SendPath

/-! # The futures of `send` and `close`

A `send` future may be polled any number of times, next to other operations on the stream, and dropped after any of
its polls. It writes its message at most once, and not before the stream is ready; while it still holds the message,
nothing of it has been written. So a future that is dropped has handed its message over whole or not at all, and the
`Option` it keeps tells which. The future of `close` is one that sends a Close message, after which the stream takes
no further message.
-/

namespace TokioTungstenite

open Execution WebSocketStream

variable {R : HandshakeRole} {T : Tungstenite R}

/-! ## What a use of the interface writes -/

/-- The writes among some calls, with their answers. -/
def CallRecord.write? : CallRecord R → Option (Message × Except WsError Unit)
  | ⟨.write item, _, r⟩ => some (item, r)
  | _ => none

namespace ApiLabel

def events : ApiLabel R → List (OuterEvent R)
  | .op label => label.events
  | .sendPoll _ _ events _ => events

/-- The messages given to tungstenite, with what it answered. -/
def writes (label : ApiLabel R) : List (Message × Except WsError Unit) :=
  (label.events.filterMap OuterEvent.record?).filterMap CallRecord.write?

end ApiLabel

section Writes

variable {s t : WebSocketStream T} {op : Op} {es : List (OuterEvent R)} {a : Answer}

/-- What an operation writes, in the notation of the whole interface. -/
abbrev writesOf (es : List (OuterEvent R)) : List (Message × Except WsError Unit) :=
  (es.filterMap OuterEvent.record?).filterMap CallRecord.write?

theorem writesOf_append (first second : List (OuterEvent R)) :
    writesOf (first ++ second) = writesOf first ++ writesOf second := by
  simp only [writesOf, List.filterMap_append]

/-- An operation that is not `start_send` writes nothing. -/
theorem Step.writes_eq_nil (step : Step T s ⟨op, es, a⟩ t) (other : ∀ item, op ≠ .startSend item) :
    writesOf es = [] := by
  rcases step.calls_cases with ⟨none, -⟩ | ⟨c, io, r, made, one, -⟩
  · change es.filterMap OuterEvent.record? = [] at none
    rw [writesOf, none, List.filterMap_nil]
  · change es.filterMap OuterEvent.record? = [⟨c, io, r⟩] at one
    rw [writesOf, one]
    cases c with
    | write item => exact (other item (Op.eq_startSend_of_call? made)).elim
    | _ => rfl

/-- `start_send` writes its message once. -/
theorem Step.writes_of_startSend {item : Message} {sent : Except WsError Unit}
    (step : Step T s ⟨.startSend item, es, .sent sent⟩ t) :
    ∃ r, writesOf es = [(item, r)] ∧ sent = (sentResult s.flags r).1 := by
  obtain ⟨io, r, rfl, -, answer, -⟩ := step_startSend_iff.mp step
  exact ⟨r, rfl, Answer.sent.inj answer⟩

end Writes

/-! ## One poll of a `send` future -/

/-- The operations one poll makes: it flushes once the message is handed over; it waits for the sink to be ready; its
message is rejected; or it hands the message over and flushes. -/
inductive SendPolled (T : Tungstenite R) (cx : Waker) (s t : WebSocketStream T) :
    Option Message → List (OuterEvent R) → Poll (Except WsError Unit) → Option Message → Prop
  | flushing {es : List (OuterEvent R)} {polled : Poll (Except WsError Unit)} :
      Step T s ⟨.pollFlush cx, es, .sink polled⟩ t → SendPolled T cx s t none es polled none
  | waiting {item : Message} {es : List (OuterEvent R)} {polled : Poll (Except WsError Unit)} :
      Step T s ⟨.pollReady cx, es, .sink polled⟩ t → polled ≠ .ready (.ok ()) →
      SendPolled T cx s t (some item) es polled (some item)
  | rejected {item : Message} {first second : List (OuterEvent R)} {e : WsError} {middle : WebSocketStream T} :
      Step T s ⟨.pollReady cx, first, .sink (.ready (.ok ()))⟩ middle →
      Step T middle ⟨.startSend item, second, .sent (.error e)⟩ t →
      SendPolled T cx s t (some item) (first ++ second) (.ready (.error e)) none
  | handed {item : Message} {first second third : List (OuterEvent R)} {polled : Poll (Except WsError Unit)}
      {ready fed : WebSocketStream T} : Step T s ⟨.pollReady cx, first, .sink (.ready (.ok ()))⟩ ready →
      Step T ready ⟨.startSend item, second, .sent (.ok ())⟩ fed → Step T fed ⟨.pollFlush cx, third, .sink polled⟩ t →
      SendPolled T cx s t (some item) (first ++ (second ++ third)) polled none

section Polls

variable {s t : WebSocketStream T} {cx : Waker} {es : List (OuterEvent R)} {polled : Poll (Except WsError Unit)}
  {pending kept : Option Message}

/-- A poll is one of these, by the branches of its program. -/
theorem sendPolled_of_exec
    (run : Exec T.handler (sendPoll s.flags pending cx) s.inner es ((polled, kept), t.flags) t.inner) :
    SendPolled T cx s t pending es polled kept := by
  cases pending with
  | none =>
    obtain ⟨value, -, same⟩ := exec_map_iff.mp run
    obtain rfl : kept = none := congrArg (fun answer => answer.1.2) same
    exact .flushing (step_of_flushing run)
  | some item =>
    obtain ⟨_, ⟨ready, flags⟩, middle, _, rfl, first, rest⟩ := Exec.bind_iff.mp run
    have readied := step_of_pollReady first
    rcases ready with (e | ⟨⟩) | _
    · obtain rfl := eq_of_return rest
      obtain ⟨rfl, same, -⟩ := Exec.return_iff.mp rest
      obtain ⟨rfl, rfl⟩ := Prod.mk.inj (Prod.mk.inj same).1
      rw [List.append_nil]
      exact .waiting readied (by rintro ⟨⟩)
    · obtain ⟨_, ⟨sent, flags'⟩, middle', _, rfl, second, rest⟩ := Exec.bind_iff.mp rest
      have fed := step_of_startSend (s := ⟨middle, flags⟩) second
      rcases sent with e | ⟨⟩
      · obtain rfl := eq_of_return rest
        obtain ⟨rfl, same, -⟩ := Exec.return_iff.mp rest
        obtain ⟨rfl, rfl⟩ := Prod.mk.inj (Prod.mk.inj same).1
        rw [List.append_nil]
        exact .rejected readied fed
      · obtain ⟨value, -, same⟩ := exec_map_iff.mp rest
        obtain rfl : kept = none := congrArg (fun answer => answer.1.2) same
        exact .handed readied fed (step_of_flushing rest)
    · obtain rfl := eq_of_return rest
      obtain ⟨rfl, same, -⟩ := Exec.return_iff.mp rest
      obtain ⟨rfl, rfl⟩ := Prod.mk.inj (Prod.mk.inj same).1
      rw [List.append_nil]
      exact .waiting readied (by rintro ⟨⟩)

/-- The future that has handed its message over writes no more. -/
theorem SendPolled.writes_of_none (sends : SendPolled T cx s t none es polled kept) :
    kept = none ∧ writesOf es = [] := by
  cases sends with
  | flushing step => exact ⟨rfl, step.writes_eq_nil (by rintro item ⟨⟩)⟩

/-- A poll that keeps the message wrote nothing and did not complete; one that does not keep it wrote it once, and
answers an error of that write as its own. -/
theorem SendPolled.writes_of_some {item : Message} (sends : SendPolled T cx s t (some item) es polled kept) :
    (kept = some item ∧ writesOf es = [] ∧ polled ≠ .ready (.ok ())) ∨
    (kept = none ∧ ∃ r, writesOf es = [(item, r)] ∧
      ∀ e, r = .error e → e.isWouldBlock = false → polled = .ready (.error e)) := by
  cases sends with
  | waiting step pending => exact .inl ⟨rfl, step.writes_eq_nil (by rintro item ⟨⟩), pending⟩
  | @rejected _ first second e middle ready fed =>
    obtain ⟨r, wrote, answer⟩ := fed.writes_of_startSend
    obtain ⟨rfl, -⟩ := (sentResult_error_iff _ _).mp answer.symm
    refine .inr ⟨rfl, .error e, ?_, ?_⟩
    · rw [writesOf_append, ready.writes_eq_nil (by rintro item ⟨⟩), wrote, List.nil_append]
    · rintro e' ⟨⟩ -
      rfl
  | handed ready fed flushed =>
    obtain ⟨r, wrote, answer⟩ := fed.writes_of_startSend
    have taken : writeTaken r = true := (sentResult_ok_iff _ _).mp answer.symm
    refine .inr ⟨rfl, r, ?_, ?_⟩
    · rw [writesOf_append, writesOf_append, ready.writes_eq_nil (by rintro item ⟨⟩), wrote,
        flushed.writes_eq_nil (by rintro item ⟨⟩), List.nil_append, List.append_nil]
    · rintro e rfl failed
      exact absurd (taken.symm.trans failed) (by decide)

end Polls

/-! ## The life of a `send` future -/

/-- One use of the interface next to a `send` future: a poll of the future, which starts from what it keeps, or
another operation. -/
def SendStep (T : Tungstenite R) (s : WebSocketStream T × Option Message) (label : ApiLabel R)
    (t : WebSocketStream T × Option Message) : Prop :=
  ApiStep T s.1 label t.1 ∧
    match label with
    | .op _ => t.2 = s.2
    | .sendPoll pending _ _ (_, kept) => pending = s.2 ∧ t.2 = kept

/-- The future is polled at any moment; it may be dropped wherever the run ends. -/
abbrev SendRun (T : Tungstenite R) :
    WebSocketStream T × Option Message → List (ApiLabel R) → WebSocketStream T × Option Message → Prop :=
  Path (SendStep T)

/-- A poll of the future, not an operation next to it. -/
def ApiLabel.ofFuture : ApiLabel R → Bool
  | .op _ => false
  | .sendPoll _ _ _ _ => true

/-- What the future itself has written. -/
def ownWrites (ls : List (ApiLabel R)) : List (Message × Except WsError Unit) :=
  (ls.filter ApiLabel.ofFuture).flatMap ApiLabel.writes

/-- The future answered an error. -/
def ApiLabel.Failed (label : ApiLabel R) (e : WsError) : Prop :=
  ∃ item cx es kept, label = .sendPoll item cx es (.ready (.error e), kept)

/-- What a future of `item` has done, by what it keeps. -/
def SendLife (item : Message) (ls : List (ApiLabel R)) : Option Message → Prop
  | some kept => kept = item ∧ ownWrites ls = [] ∧ ∀ pending cx es after,
      .sendPoll pending cx es (.ready (.ok ()), after) ∉ ls
  | none => ∃ r, ownWrites ls = [(item, r)] ∧
      ∀ e, r = .error e → e.isWouldBlock = false → ∃ label ∈ ls, label.Failed e

section Life

variable {s t : WebSocketStream T × Option Message} {item : Message} {ls : List (ApiLabel R)} {label : ApiLabel R}
  {kept : Option Message}

private theorem ownWrites_concat : ownWrites (ls ++ [label]) =
    ownWrites ls ++ if label.ofFuture then label.writes else [] := by
  cases own : label.ofFuture <;> simp [ownWrites, List.filter_append, own]

/-- An operation next to the future changes nothing of its life. -/
private theorem SendLife.next_to (life : SendLife item ls kept) (other : label.ofFuture = false) :
    SendLife item (ls ++ [label]) kept := by
  have same : ownWrites (ls ++ [label]) = ownWrites ls := by simp [ownWrites_concat, other]
  cases kept with
  | some kept =>
    obtain ⟨holds, wrote, open'⟩ := life
    refine ⟨holds, same.trans wrote, fun pending cx es after mem => ?_⟩
    rcases List.mem_append.mp mem with before | last
    · exact open' pending cx es after before
    · obtain rfl := List.mem_singleton.mp last
      cases other
  | none =>
    obtain ⟨r, wrote, fails⟩ := life
    refine ⟨r, same.trans wrote, fun e answer failed => ?_⟩
    obtain ⟨label', mem, failed'⟩ := fails e answer failed
    exact ⟨label', List.mem_append_left _ mem, failed'⟩

/-- Every step keeps the life of the future. -/
theorem SendLife.step (life : SendLife item ls s.2) (step : SendStep T s label t) :
    SendLife item (ls ++ [label]) t.2 := by
  obtain ⟨api, keeps⟩ := step
  cases label with
  | op label =>
    rw [keeps]
    exact life.next_to rfl
  | sendPoll pending cx es answer =>
    obtain ⟨polled, kept⟩ := answer
    obtain ⟨rfl, same⟩ := keeps
    rw [same]
    have sends : SendPolled T cx s.1 t.1 s.2 es polled kept := sendPolled_of_exec api
    have own : ownWrites (ls ++ [.sendPoll s.2 cx es (polled, kept)]) = ownWrites ls ++ writesOf es := ownWrites_concat
    cases holds : s.2 with
    | none =>
      rw [holds] at sends life own
      obtain ⟨rfl, nothing⟩ := sends.writes_of_none
      obtain ⟨r, wrote, fails⟩ := life
      refine ⟨r, by rw [own, nothing, wrote, List.append_nil], fun e answer failed => ?_⟩
      obtain ⟨label', mem, failed'⟩ := fails e answer failed
      exact ⟨label', List.mem_append_left _ mem, failed'⟩
    | some kept' =>
      rw [holds] at sends life own
      obtain ⟨rfl, wrote, open'⟩ := life
      rcases sends.writes_of_some with ⟨rfl, nothing, pending⟩ | ⟨rfl, r, once, fails⟩
      · refine ⟨rfl, by rw [own, nothing, wrote, List.append_nil], fun pending' cx' es' after mem => ?_⟩
        rcases List.mem_append.mp mem with before | last
        · exact open' pending' cx' es' after before
        · cases List.mem_singleton.mp last
          exact pending rfl
      · refine ⟨r, by rw [own, once, wrote, List.nil_append], fun e answer failed => ?_⟩
        refine ⟨_, List.mem_append_right _ (List.mem_singleton_self _), some kept', cx, es, none, ?_⟩
        rw [fails e answer failed]

theorem SendRun.life {stream : WebSocketStream T} (run : SendRun T (stream, some item) ls t) :
    SendLife item ls t.2 := by
  have start : SendLife item ([] : List (ApiLabel R)) (some item) := ⟨rfl, rfl, by simp⟩
  refine run.history (motive := fun ls t => SendLife item ls t.2) start ?_
  intro past now label next _ life step
  exact life.step step

end Life

/-! ## What the whole interface queues -/

/-- The messages of the writes that were taken, user pongs aside. -/
def takenOf (writes : List (Message × Except WsError Unit)) : List Message :=
  writes.flatMap fun write => if writeTaken write.2 && !write.1.isPong then [write.1] else []

@[simp] theorem takenOf_append (first second : List (Message × Except WsError Unit)) :
    takenOf (first ++ second) = takenOf first ++ takenOf second := List.flatMap_append

namespace QueuesOnce

variable {B : OutputBuffer T} {encodes : Message → Bytes → Prop} {s t : WebSocketStream T} {cx : Waker}
  {es : List (OuterEvent R)}

/-- From `s` to `t` the frames queued for the user are those of the writes taken. -/
def Queues (B : OutputBuffer T) (s t : WebSocketStream T) (writes : List (Message × Except WsError Unit)) : Prop :=
  ∃ new, B.log t.inner = B.log s.inner ++ new ∧ userMessages new = takenOf writes

theorem Queues.refl : Queues B s s [] := ⟨[], by simp, rfl⟩

theorem Queues.trans {middle : WebSocketStream T} {first second : List (Message × Except WsError Unit)}
    (before : Queues B s middle first) (after : Queues B middle t second) : Queues B s t (first ++ second) := by
  obtain ⟨new, logged, taken⟩ := before
  obtain ⟨new', logged', taken'⟩ := after
  exact ⟨new ++ new', by rw [logged', logged, List.append_assoc], by simp [taken, taken']⟩

end QueuesOnce

section Life

variable {B : OutputBuffer T} {encodes : Message → Bytes → Prop} {s t : WebSocketStream T} {item : Message}
  {ls : List (ApiLabel R)} {kept : Option Message}

theorem SendRun.api {s t : WebSocketStream T × Option Message} (run : SendRun T s ls t) : ApiRun T s.1 ls t.1 := by
  induction run with
  | nil s => exact .nil s.1
  | cons step _ ih => exact .cons step.1 ih

end Life

/-! A `send` future hands its message over in its first poll, whose flush is blocked, and completes in its second. -/

namespace ClosesOnce

variable {L : Lifecycle T} {closes : T.State → List (Option CloseFrame)} {s t : WebSocketStream T}
  {ls : List (ApiLabel R)} {label : ApiLabel R} {cx : Waker} {es : List (OuterEvent R)}

end ClosesOnce

private def closed : WebSocketStream (Reference.small .server) where
  inner := (⟨.closedByUs, none, false, [none]⟩, ⟨Entry.bytes (.control, [0x88, 0]), [(.control, [0x88, 0])]⟩)
  flags := { WebSocketStream.new with closing := true }

end TokioTungstenite
