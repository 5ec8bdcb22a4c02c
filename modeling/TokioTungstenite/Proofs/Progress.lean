import TokioTungstenite.Proofs.Delivery

/-! # What sleeping tells

That no message is lost on the way and that no task is forgotten come together here. A reader whose poll was pending
has read all that had arrived, and as long as it has not been woken nothing more has arrived. So there is no moment at
which a message lies in a pipe and the task that should read it sleeps, and none at which the reader and the writer of
a pipe wait for each other.
-/

namespace TokioTungstenite

open Execution

variable {R R' : HandshakeRole} {T : Tungstenite R} {T' : Tungstenite R'}

/-! ## What sleeping rests on -/

/-- An inner read that is pending, or says so with an error. -/
def InnerEvent.BlockedRead (event : InnerEvent) : Prop :=
  InnerEvent.Blocked event ∧ ∃ ctx capacity, event.1 = .pollRead ctx capacity

/-- An inner write or flush that is pending, or says so with an error. -/
def InnerEvent.BlockedWrite (event : InnerEvent) : Prop :=
  InnerEvent.Blocked event ∧ ∀ ctx capacity, event.1 ≠ .pollRead ctx capacity

/-- tungstenite takes its input with `read` alone, and a `read` blocks only where a read of its stream did. -/
structure ReadsAlone {F : WireFormat} (D : Receives T F) : Prop where
  keeps : ∀ {c : Call R} {s : T.State} {std : List StdEvent} {r : c.Answer} {t : T.State}, T.exec c s std r t →
    c ≠ .read → D.inp t = D.inp s
  blocked : ∀ {s : T.State} {std : List StdEvent} {e : WsError} {t : T.State}, T.exec .read s std (.error e) t →
    e.isWouldBlock = true → ∃ event ∈ std, StdEvent.Blocked event ∧ ∃ capacity, event.1 = .read capacity

/-- A flush blocks only where a write or a flush of its stream did. -/
def FlushBlocksOnWrite (T : Tungstenite R) : Prop :=
  ∀ {s : T.State} {std : List StdEvent} {e : WsError} {t : T.State}, T.Flushes s std (.error e) t →
    e.isWouldBlock = true → ∃ event ∈ std, StdEvent.Blocked event ∧ ∀ capacity, event.1 ≠ .read capacity

/-- What the inner stream does with the sources that wait for the pipe to be `ready`. A poll that `stops` for it leaves
its proxy with one of them. While the pipe is ready none of them keeps a proxy, and what they have fired is over. -/
structure WakesWhen {E : Type} (ready : Prop) (stops : InnerEvent → Prop) (waiting : Set E)
    (polls : List (MicroLabel R E)) (cfg : Config T E) : Prop where
  arms : ∀ event armed, .io event armed ∈ polls → stops event.2 → ∃ e ∈ armed, e ∈ waiting
  fires : ready → (∀ e ∈ waiting, cfg.sources e = none) ∧ ∀ slots ∈ cfg.firing, slots = []

/-- A task sleeps on a side: its latest poll there, `op`, took the steps `during` and was pending with the answer `a`,
and the task has not been woken since that poll began. -/
inductive Asleep {E : Type} (kind : ContextWaker) (op : Op) (a : Answer) (during : List (MicroLabel R E)) :
    List (MicroLabel R E) → Prop
  | intro {past later : List (MicroLabel R E)} {waker : Waker} (context : op.context = some (kind, waker))
      (own : ∀ label ∈ during, label.isAnswer = false) (other : ∀ label ∈ during ++ later, label.Other kind)
      (unwoken : ¬ Woken waker (.invoke (.stream op) :: (during ++ .answer (.stream a) :: later))) :
      Asleep kind op a during (past ++ .invoke (.stream op) :: (during ++ .answer (.stream a) :: later))

section Calls

variable {F : WireFormat} {s t : WebSocketStream T} {ls : List (Label R)} {label : Label R}

/-- The inner poll of a blocking operation that blocked. -/
private theorem Performs.pollRead_iff {event : IoEvent} (performs : Performs event) :
    (∃ capacity, event.1.1 = .read capacity) ↔ ∃ ctx capacity, event.2.1 = .pollRead ctx capacity := by
  obtain ⟨⟨op, r⟩, inner⟩ := event
  cases op with
  | read capacity =>
    obtain ⟨polled, rfl, -⟩ := performs_read_iff.mp performs
    exact iff_of_true ⟨_, rfl⟩ ⟨_, _, rfl⟩
  | write buf =>
    obtain ⟨polled, rfl, -⟩ := performs_write_iff.mp performs
    simp
  | flush =>
    obtain ⟨polled, rfl, -⟩ := performs_flush_iff.mp performs
    simp

/-- A poll that yields nothing yet made an inner read that blocked, and leaves no whole word. -/
private theorem ReadsAlone.of_pending {D : Receives T F} (alone : ReadsAlone D) (step : Step T s label t)
    (pending : label.answer = .next .pending) :
    (∃ event ∈ label.io, InnerEvent.BlockedRead event.2) ∧ ∀ w, F.word w → ¬ w <+: D.inp t.inner := by
  obtain ⟨op, es, a⟩ := label
  obtain rfl : a = .next .pending := pending
  cases op with
  | pollNext cx =>
    rcases step_pollNext_iff.mp step with ⟨-, -, answer, -⟩ | ⟨-, io, r, rfl, calls, answer, -⟩
    · cases answer
    · obtain ⟨e, rfl, blocked⟩ := (nextResult_pending_iff (R := R) _ _).mp (Answer.next.inj answer).symm
      refine ⟨?_, D.blocked calls.exec blocked⟩
      obtain ⟨made, mem, stopped, reads⟩ := alone.blocked calls.exec blocked
      obtain ⟨event, among, rfl⟩ := List.mem_map.mp mem
      have performs := calls.served event among
      rw [Label.io_registered]
      exact ⟨event, among, performs.blocked_iff.mp stopped, performs.pollRead_iff.mp reads⟩
  | isTerminated => cases (step_isTerminated_iff.mp step).2.1
  | dropNext => cases (step_dropNext_iff.mp step).2.1
  | pollReady cx =>
    rcases step_pollReady_iff.mp step with ⟨-, -, answer, -⟩ | ⟨-, io, r, -, -, answer, -⟩ <;> cases answer
  | startSend item =>
    obtain ⟨io, r, -, -, answer, -⟩ := step_startSend_iff.mp step
    cases answer
  | pollFlush cx =>
    obtain ⟨io, r, -, -, answer, -⟩ := step_pollFlush_iff.mp step
    cases answer
  | pollClose cx =>
    rcases step_pollClose_iff.mp step with ⟨-, io, r, -, -, answer, -⟩ | ⟨-, io, r, -, -, answer, -⟩ <;> cases answer

/-- A flush that blocked made an inner write or flush that blocked. -/
private theorem FlushBlocksOnWrite.exists_io (blocks : FlushBlocksOnWrite T) {u v : T.State} {io : List IoEvent}
    {e : WsError} (flushes : T.Flushes u (io.map Prod.fst) (.error e) v) (served : ∀ event ∈ io, Performs event)
    (blocked : e.isWouldBlock = true) : ∃ event ∈ io, InnerEvent.BlockedWrite event.2 := by
  obtain ⟨made, mem, stopped, writes⟩ := blocks flushes blocked
  obtain ⟨event, among, rfl⟩ := List.mem_map.mp mem
  have performs := served event among
  refine ⟨event, among, performs.blocked_iff.mp stopped, fun ctx capacity reads => ?_⟩
  obtain ⟨capacity, reads⟩ := performs.pollRead_iff.mpr ⟨ctx, capacity, reads⟩
  exact writes capacity reads

/-- A poll of the write side that is pending made an inner write or flush that blocked. -/
private theorem FlushBlocksOnWrite.of_pending (blocks : FlushBlocksOnWrite T) (step : Step T s label t)
    (pending : label.answer = .sink .pending) : ∃ event ∈ label.io, InnerEvent.BlockedWrite event.2 := by
  obtain ⟨op, es, a⟩ := label
  obtain rfl : a = .sink .pending := pending
  cases op with
  | pollNext cx =>
    rcases step_pollNext_iff.mp step with ⟨-, -, answer, -⟩ | ⟨-, io, r, -, -, answer, -⟩ <;> cases answer
  | isTerminated => cases (step_isTerminated_iff.mp step).2.1
  | dropNext => cases (step_dropNext_iff.mp step).2.1
  | pollReady cx =>
    rcases step_pollReady_iff.mp step with ⟨-, -, answer, -⟩ | ⟨-, io, r, rfl, calls, answer, -⟩
    · cases answer
    · obtain ⟨e, rfl, blocked⟩ := (readyResult_pending_iff (R := R) _ _).mp (Answer.sink.inj answer).symm
      rw [Label.io_registered]
      exact blocks.exists_io (.inl calls.exec) calls.served blocked
  | startSend item =>
    obtain ⟨io, r, -, -, answer, -⟩ := step_startSend_iff.mp step
    cases answer
  | pollFlush cx =>
    obtain ⟨io, r, rfl, calls, answer, -⟩ := step_pollFlush_iff.mp step
    obtain ⟨e, rfl, blocked⟩ := (flushResult_pending_iff (R := R) _ _).mp (Answer.sink.inj answer).symm
    rw [Label.io_registered]
    exact blocks.exists_io (.inl calls.exec) calls.served blocked
  | pollClose cx =>
    rcases step_pollClose_iff.mp step with ⟨-, io, r, rfl, calls, answer, -⟩ | ⟨-, io, r, rfl, calls, answer, -⟩
    · obtain ⟨e, rfl, blocked⟩ := (closeResult_pending_iff _ _).mp (Answer.sink.inj answer).symm
      rw [Label.io_registered]
      exact blocks.exists_io (.inl calls.exec) calls.served blocked
    · obtain ⟨e, rfl, blocked⟩ := (closeResult_pending_iff _ _).mp (Answer.sink.inj answer).symm
      rw [Label.io_registered]
      exact blocks.exists_io (.inr ⟨none, calls.exec⟩) calls.served blocked

/-- Operations that do not read leave the input alone. -/
private theorem ReadsAlone.keeps_run {D : Receives T F} (alone : ReadsAlone D) (run : Run T s ls t)
    (others : ∀ label ∈ ls, ∀ cx, label.op ≠ .pollNext cx) : D.inp t.inner = D.inp s.inner := by
  induction run with
  | nil => rfl
  | cons step _ ih =>
    rw [List.forall_mem_cons] at others
    rw [ih others.2]
    rcases step.calls_cases with ⟨-, same⟩ | ⟨c, io, r, made, -, calls⟩
    · rw [same]
    · refine alone.keeps calls.exec ?_
      rintro rfl
      obtain ⟨cx, read⟩ := Op.eq_pollNext_of_call? made
      exact others.1 cx read

end Calls

/-! ## The poll that was pending -/

section Asleep

variable {E : Type} {F : WireFormat} {during later : List (MicroLabel R E)} {op : Op} {a : Answer} {cx : Waker}
  {flags : Flags} {owner : Owner R}

/-- A poll that is heard was made. -/
private theorem io_of_polls {labels : List (MicroLabel R E)} {event : IoEvent}
    (heard : event ∈ (labels.flatMap MicroLabel.heard).flatMap Heard.polls) : ∃ armed, .io event armed ∈ labels := by
  obtain ⟨shown, among, polls⟩ := List.mem_flatMap.mp heard
  obtain ⟨label, mem, shows⟩ := List.mem_flatMap.mp among
  cases label with
  | io event' armed =>
    obtain rfl := List.mem_singleton.mp shows
    obtain rfl := List.mem_singleton.mp polls
    exact ⟨armed, mem⟩
  | fire | wake => cases shows
  | _ =>
    obtain rfl := List.mem_singleton.mp shows
    cases polls

variable [DecidableEq E] {cfg next : Config T E}

/-- The last whole operation of an interleaving that ends with its answer, and its inner polls. -/
private theorem MicroRun.last_step (start : cfg.thread = .idle (.stream flags))
    (run : MicroRun T cfg (.invoke (.stream op) :: (during ++ [.answer (.stream a)])) next) :
    ∃ flags' s label, next.thread = .idle (.stream flags') ∧ Step T s label ⟨next.inner, flags'⟩ ∧ label.answer = a ∧
      ∀ event ∈ label.io, ∃ armed, .io event armed ∈ during := by
  obtain ⟨owner, idle⟩ : ∃ owner, next.thread = .idle owner := by
    rw [← List.cons_append] at run
    obtain ⟨last, -, answers⟩ := Path.concat_iff.mp run
    cases answers with
    | answer => exact ⟨_, rfl⟩
  obtain ⟨flags', labels, rfl, streamed, shown⟩ := MicroRun.serial start run idle
  have polls : ((MicroLabel.invoke (.stream op) :: (during ++ [.answer (.stream a)])).flatMap
      MicroLabel.heard).flatMap Heard.polls = labels.flatMap Label.io := by
    rw [shown, polls_heardOf]
  obtain rfl | ⟨past, last, rfl⟩ := labels.eq_nil_or_concat
  · cases shown
  rw [List.concat_eq_append] at shown streamed polls
  obtain ⟨before, -, step⟩ := Path.concat_iff.mp streamed
  refine ⟨flags', before, last, idle, step, ?_, fun event mem => ?_⟩
  · -- the last answer heard is that of the last operation
    simp only [heardOf, List.flatMap_append, List.flatMap_cons, List.flatMap_nil, List.append_nil, OuterLabel.heard,
      MicroLabel.heard, ← List.cons_append, ← List.append_assoc] at shown
    obtain ⟨-, same⟩ := List.append_inj' shown rfl
    exact (Reply.stream.inj (Heard.answer.inj (List.singleton_inj.mp same))).symm
  · have heard : event ∈ (past ++ [last]).flatMap Label.io := by
      rw [List.flatMap_append, List.flatMap_singleton]
      exact List.mem_append_right _ mem
    rw [← polls] at heard
    obtain ⟨armed, mem⟩ := io_of_polls heard
    exact ⟨armed, by simpa using mem⟩

variable {kind : ContextWaker} {ls : List (MicroLabel R E)}

/-- The latest poll of a task that sleeps, as one operation, and what followed it. -/
private theorem Asleep.latest (asleep : Asleep kind op a during ls) (start : cfg.thread = .idle (.stream flags))
    (run : MicroRun T cfg ls next) :
    ∃ middle flags' s label later, middle.thread = .idle (.stream flags') ∧ Step T s label ⟨middle.inner, flags'⟩ ∧
      label.answer = a ∧ (∀ event ∈ label.io, ∃ armed, .io event armed ∈ during) ∧ MicroRun T middle later next ∧
      ∀ label ∈ later, label.Other kind := by
  obtain @⟨past, later, waker, context, own, other, unwoken⟩ := asleep
  obtain ⟨before, first, latest⟩ := Path.append_iff.mp run
  obtain ⟨flags', between⟩ : ∃ flags', before.thread = .idle (.stream flags') := by
    obtain ⟨polling, invokes, -⟩ := Path.cons_iff.mp latest
    cases invokes with
    | @invoke owner _ _ idle starts =>
      obtain ⟨flags', -, rfl, -⟩ := MicroRun.serial start first idle
      exact ⟨flags', idle⟩
  rw [List.append_cons, ← List.cons_append] at latest
  obtain ⟨middle, polls, rest⟩ := Path.append_iff.mp latest
  obtain ⟨flags', s, label, between', step, answer, made⟩ := MicroRun.last_step between polls
  exact ⟨middle, flags', s, label, later, between', step, answer, made, rest,
    fun label mem => other label (List.mem_append_right _ mem)⟩

/-- A task that sleeps waits for what is not ready. -/
private theorem Asleep.not_ready {ready : Prop} {stops : InnerEvent → Prop} {waiting : Set E}
    (asleep : Asleep kind op a during ls) (run : MicroRun T cfg ls next)
    (wakes : WakesWhen ready stops waiting during next)
    (stopped : ∃ event armed, .io event armed ∈ during ∧ stops event.2) : ¬ ready := by
  obtain @⟨past, later, waker, context, own, other, unwoken⟩ := asleep
  obtain ⟨before, -, latest⟩ := Path.append_iff.mp run
  obtain ⟨event, armed, mem, stops⟩ := stopped
  obtain ⟨e, kept, waits⟩ := wakes.arms event armed mem stops
  have use_context : (Use.stream op).context = some (kind, waker) := context
  have keeps := armed_of_mem use_context mem kept latest own other
  intro ready
  obtain ⟨fired, ended⟩ := wakes.fires ready
  exact unwoken (keeps.woken (fired e waits) ended)

/-- Nothing lies in the pipe of a reader that sleeps. -/
private theorem ReadsAlone.pipe_empty {D : Receives T F} (alone : ReadsAlone D) {waiting : Set E} {pipe : Bytes}
    (asleep : Asleep .read op (.next .pending) during ls) (start : cfg.thread = .idle (.stream flags))
    (run : MicroRun T cfg ls next) (wakes : WakesWhen (pipe ≠ []) InnerEvent.BlockedRead waiting during next) :
    pipe = [] := by
  obtain ⟨middle, flags', s, label, later, -, step, answer, made, -⟩ := asleep.latest start run
  obtain ⟨⟨event, mem, reads⟩, -⟩ := alone.of_pending step answer
  obtain ⟨armed, mem⟩ := made event mem
  exact not_not.mp (asleep.not_ready run wakes ⟨event, armed, mem, reads⟩)

/-- A reader that sleeps has no whole word left. -/
private theorem ReadsAlone.stuck {D : Receives T F} (alone : ReadsAlone D)
    (asleep : Asleep .read op (.next .pending) during ls) (start : cfg.thread = .idle (.stream flags))
    (run : MicroRun T cfg ls next) (idle : next.thread = .idle owner) : ∀ w, F.word w → ¬ w <+: D.inp next.inner := by
  obtain ⟨middle, flags', s, label, later, between, step, answer, -, rest, other⟩ := asleep.latest start run
  obtain ⟨flags'', labels, -, streamed, shown⟩ := MicroRun.serial between rest idle
  have same : D.inp next.inner = D.inp middle.inner := by
    refine alone.keeps_run streamed fun label mem cx reads => ?_
    have heard : .invoke (.stream (.pollNext cx)) ∈ later.flatMap MicroLabel.heard := by
      rw [shown, ← reads]
      exact List.mem_flatMap.mpr ⟨label, mem, List.mem_cons_self⟩
    exact other _ (invoked_of_heard heard) _ rfl cx rfl
  rw [same]
  exact (alone.of_pending step answer).2

/-- The pipe of a writer that sleeps is not empty. -/
private theorem FlushBlocksOnWrite.pipe_nonempty (blocks : FlushBlocksOnWrite T) {waiting : Set E} {pipe : Bytes}
    (asleep : Asleep .write op (.sink .pending) during ls) (start : cfg.thread = .idle (.stream flags))
    (run : MicroRun T cfg ls next) (wakes : WakesWhen (pipe = []) InnerEvent.BlockedWrite waiting during next) :
    pipe ≠ [] := by
  obtain ⟨middle, flags', s, label, later, -, step, answer, made, -⟩ := asleep.latest start run
  obtain ⟨event, mem, writes⟩ := blocks.of_pending step answer
  obtain ⟨armed, mem⟩ := made event mem
  exact asleep.not_ready run wakes ⟨event, armed, mem, writes⟩

end Asleep

/-! ## Both ends -/

section Connected

variable {E E' : Type} [DecidableEq E] [DecidableEq E'] {c d : Connection T T' E E'}
  {ls : List (MicroLabel R E ⊕ MicroLabel R' E')} {flags flags' : Flags} {owner : Owner R} {owner' : Owner R'}
  {F : WireFormat} {D : Receives T' F} {op op' : Op} {waiting : Set E'} {reading : List (MicroLabel R' E')}

/-- A reader that sleeps has received everything: nothing is under way to it, and once nothing waits in the sender's
buffer it has yielded every message that the sender took, in order and once each. -/
theorem asleep_received_all {B : OutputBuffer T} (S : Sends B F) (alone : ReadsAlone D)
    (start : c.left.thread = .idle (.stream flags)) (start' : c.right.thread = .idle (.stream flags'))
    (fresh : B.waiting c.left.inner = [] ∧ c.toRight = [] ∧ D.inp c.right.inner = []) (run : ConnectionRun T T' c ls d)
    (idle : d.left.thread = .idle owner) (idle' : d.right.thread = .idle owner')
    (carried : ∀ item, .invoke (.stream (.startSend item)) ∈ lefts ls → F.carries item)
    (asleep : Asleep .read op (.next .pending) reading (rights ls))
    (wakes : WakesWhen (d.toRight ≠ []) InnerEvent.BlockedRead waiting reading d.right) :
    d.toRight = [] ∧ (B.waiting d.left.inner = [] →
      ∃ ofLeft ofRight arrived, (lefts ls).flatMap MicroLabel.heard = heardOf ofLeft ∧
        (rights ls).flatMap MicroLabel.heard = heardOf ofRight ∧
        userMessages arrived = ofLeft.flatMap Label.taken ∧
        ofRight.flatMap Label.yielded = arrived.map (fun entry => F.decode entry.2) ∧
        ∀ item frame, (Origin.user item, frame) ∈ arrived → F.decode frame = item) := by
  have clear : d.toRight = [] := alone.pipe_empty asleep start' run.right.1 wakes
  refine ⟨clear, fun flushed => ?_⟩
  obtain ⟨_, ofLeft, left, shown, accepts, -⟩ := MicroRun.operations run.left.1 start idle run.left.2
  obtain ⟨_, ofRight, right, shown', -, reports⟩ := MicroRun.operations run.right.1 start' idle' run.right.2
  obtain ⟨piped, -⟩ := run.pipes
  rw [fresh.2.1, List.nil_append, ← accepts, ← reports, ← List.nil_append (reportedBytes _), ← fresh.2.2] at piped
  obtain ⟨arrived, missing, users, yielded, decodes, all⟩ :=
    arrived_of_runs S D left right (carried_of_heard shown carried) fresh.1 piped
  obtain rfl := all flushed clear (alone.stuck asleep start' run.right.1 idle')
  rw [List.append_nil] at users
  exact ⟨ofLeft, ofRight, arrived, shown, shown', users, yielded, decodes⟩

/-- The writer and the reader of a pipe never wait for each other: while the reader sleeps, the writer does not. -/
theorem never_both_asleep (blocks : FlushBlocksOnWrite T) (alone : ReadsAlone D) {draining : Set E}
    {writing : List (MicroLabel R E)} (start : c.left.thread = .idle (.stream flags))
    (start' : c.right.thread = .idle (.stream flags')) (run : ConnectionRun T T' c ls d)
    (asleep : Asleep .read op (.next .pending) reading (rights ls))
    (wakes : WakesWhen (d.toRight ≠ []) InnerEvent.BlockedRead waiting reading d.right)
    (wakes' : WakesWhen (d.toRight = []) InnerEvent.BlockedWrite draining writing d.left) :
    ¬ Asleep .write op' (.sink .pending) writing (lefts ls) := by
  intro asleep'
  have lies : d.toRight ≠ [] := blocks.pipe_nonempty asleep' start run.left.1 wakes'
  exact lies (alone.pipe_empty asleep start' run.right.1 wakes)

end Connected

/-! The two WebSockets whose messages are single bytes: the reader sleeps, and has yielded the byte. -/

private theorem tiny_alone : ReadsAlone tinyReceives where
  keeps _ _ := rfl
  blocked := by
    rintro s std e t ⟨-, ⟨b, -, ⟨⟩⟩ | ⟨rfl, -⟩⟩ -
    exact ⟨_, List.mem_singleton_self _, rfl, 4096, rfl⟩

private theorem tiny_blocks : FlushBlocksOnWrite tiny := by
  rintro s std e t (⟨rfl, ⟨⟩, -⟩ | ⟨frame, ⟨⟩⟩)

private theorem tiny_asleep : Asleep .read (.pollNext ⟨2⟩) (.next .pending) tinyReading (rights tinyLabels) := by
  have shape : rights tinyLabels = .invoke (.stream (.pollNext ⟨2⟩)) ::
      (pollLabels (.read, ⟨2⟩) .read tinyRead [] (.ok (.binary [7])) ++
        [.answer (.stream (.next (.ready (some (.ok (.binary [7]))))))]) ++
      .invoke (.stream (.pollNext ⟨2⟩)) :: (tinyReading ++ .answer (.stream (.next .pending)) :: []) := rfl
  have own : ∀ label ∈ tinyReading, label.isAnswer = false := by decide
  have other : ∀ label ∈ tinyReading ++ [], label.Other .read := by
    rintro label mem use rfl
    simp [tinyReading, pollLabels] at mem
  rw [shape]
  refine .intro rfl own other ?_
  rintro ⟨slot, mem⟩
  simp [tinyReading, pollLabels] at mem

private theorem tiny_wakes {right : Config tiny Unit} :
    WakesWhen ([] ≠ ([] : Bytes)) InnerEvent.BlockedRead Set.univ tinyReading right := by
  refine ⟨?_, fun lies => (lies rfl).elim⟩
  intro event armed mem _
  obtain ⟨-, rfl⟩ : event = tinyBlocked ∧ armed = [()] := by simpa [tinyReading, pollLabels] using mem
  exact ⟨(), List.mem_singleton_self _, trivial⟩

theorem asleep_received_all_tiny : ∃ ofLeft ofRight arrived, tinyLeft.flatMap MicroLabel.heard = heardOf ofLeft ∧
    tinyRight.flatMap MicroLabel.heard = heardOf ofRight ∧ userMessages arrived = ofLeft.flatMap Label.taken ∧
    ofRight.flatMap Label.yielded = arrived.map (fun entry => tinyFormat.decode entry.2) ∧
    ∀ item frame, (Origin.user item, frame) ∈ arrived → tinyFormat.decode frame = item := by
  obtain ⟨left, right, run, idle, idle', flushed, -⟩ := tiny_connected
  have received := asleep_received_all tiny_sends tiny_alone rfl rfl ⟨rfl, rfl, rfl⟩ run idle idle' tiny_carried
    tiny_asleep tiny_wakes
  exact received.2 flushed

/-- Its writer has flushed, and does not sleep. -/
theorem never_both_asleep_tiny :
    ¬ Asleep .write (.pollFlush ⟨1⟩) (.sink .pending) tinyFlushing (lefts tinyLabels) := by
  obtain ⟨left, right, run, -, -, -, quiet⟩ := tiny_connected
  have wakes : WakesWhen (([] : Bytes) = []) InnerEvent.BlockedWrite Set.univ tinyFlushing left := by
    refine ⟨?_, fun _ => ⟨fun e _ => quiet.sources e, quiet.firing⟩⟩
    intro event armed mem stops
    obtain ⟨rfl, -⟩ | ⟨rfl, -⟩ : (event = tinySent ∧ armed = []) ∨ event = tinyFlushed ∧ armed = [] := by
      simpa [tinyFlushing] using mem
    · exact stops.1.elim
    · exact stops.1.elim
  exact never_both_asleep tiny_blocks tiny_alone rfl rfl run tiny_asleep tiny_wakes wakes

end TokioTungstenite
