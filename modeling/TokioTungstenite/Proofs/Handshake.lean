import TokioTungstenite.Model.Handshake
import TokioTungstenite.Model.Steps

/-! # The handshake driver refines the plain retry loop

The loop starts the handshake and resumes it until it is no longer interrupted. `LoopStep` is one round of
it, over the same states of tungstenite. Every run of the asynchronous driver performs a path of the loop,
cut into polls: the first poll starts it and resumes it once if it was interrupted, every later poll resumes
it exactly once, and the poll that ends the loop answers with its result.
-/

namespace TokioTungstenite

open Execution

variable {R : HandshakeRole} {T : Tungstenite R}

/-! ## The plain loop -/

/-- One step of the handshake machine. -/
inductive Attempt (R : HandshakeRole)
  | start (f : R.F) (stream : R.S)
  | resume (mid : R.Mid)

/-- A step that was made, with everything observed of it. -/
structure AttemptRecord (R : HandshakeRole) where
  attempt : Attempt R
  io : List IoEvent
  result : HandshakeResult R

def AttemptRecord.event (record : AttemptRecord R) : OuterEvent R :=
  match record.attempt with
  | .start f stream => .call (.start f stream) record.io record.result
  | .resume mid => .call (.handshake mid) record.io record.result

/-- The step leads from `s` to `t`. -/
def AttemptRecord.Made (T : Tungstenite R) (record : AttemptRecord R) (s t : T.State) : Prop :=
  match record.attempt with
  | .start f stream => T.Calls (.start f stream) s record.io record.result t
  | .resume mid => T.Calls (.handshake mid) s record.io record.result t

/-- Where the loop stands. -/
inductive Progress (R : HandshakeRole)
  | initial (stream : R.S) (f : R.F)
  | interrupted (mid : R.Mid)
  | finished (result : Except WsError R.FinalResult)

namespace Progress

/-- A step leaves the machine interrupted or ends the loop. -/
def settle : HandshakeResult R → Progress R
  | .ok r => .finished (.ok r)
  | .error (.failure e) => .finished (.error e)
  | .error (.interrupted mid) => .interrupted mid

/-- What the loop does next. -/
def next? : Progress R → Option (Attempt R)
  | .initial stream f => some (.start f stream)
  | .interrupted mid => some (.resume mid)
  | .finished _ => none

/-- The future that has come this far. -/
def future : Progress R → HandshakeFuture R
  | .initial stream f => .unresumed stream f
  | .interrupted mid => .resuming (some mid)
  | .finished _ => .returned

/-- What a poll that ends here answers. -/
def answer {Out : Type} (finish : R.FinalResult → Out) : Progress R → Poll (Except WsError Out)
  | .finished result => .ready (result.map finish)
  | .initial _ _ | .interrupted _ => .pending

end Progress

/-- One round of the loop. -/
structure LoopStep (T : Tungstenite R) (s : Progress R × T.State) (record : AttemptRecord R)
    (t : Progress R × T.State) :
    Prop where
  next : s.1.next? = some record.attempt
  made : record.Made T s.2 t.2
  settled : t.1 = .settle record.result

/-- `a` was interrupted, and `b` resumes exactly the machine it returned. -/
def Resumes (a b : AttemptRecord R) : Prop := ∃ mid, a.result = .error (.interrupted mid) ∧ b.attempt = .resume mid

/-! ## One poll -/

/-- What one resumption answers its future, before errors are mapped. -/
def polledOnce : HandshakeResult R → Poll (HandshakeResult R)
  | .error (.interrupted _) => .pending
  | r => .ready r

section Exec

variable {s t : T.State} {es : List (OuterEvent R)} {cx : Waker} {future : HandshakeFuture R}
  {polled : Option (Poll (HandshakeResult R))}

/-- A call in the context of a waker for the handshake: both read slots are set, then the call is made. -/
private theorem exec_registered {α : Type} {c : Call R} {set : Program (outer R) Unit}
    {f : c.Answer → Program (outer R) α}
    {a : α} (sets : ∀ {s t : T.State} {es done}, Exec T.handler set s es done t → es = registrations .read cx ∧ t = s)
    (run : Exec T.handler (set >>= fun _ => c.perform >>= f) s es a t) :
    ∃ io r middle rest, es = registrations .read cx ++ .call c io r :: rest ∧ T.Calls c s io r middle ∧
      Exec T.handler (f r) middle rest a t := by
  obtain ⟨first, done, same, rest, rfl, registered, tail⟩ := Exec.bind_iff.mp run
  obtain ⟨rfl, rfl⟩ := sets registered
  obtain ⟨called, r, middle, rest, rfl, call, ending⟩ := Exec.bind_iff.mp tail
  obtain ⟨io, rfl, calls⟩ := exec_call_iff.mp call
  exact ⟨io, r, middle, rest, rfl, calls, ending⟩

/-- Awaiting an interrupted machine resumes it once. -/
theorem exec_awaitMid {mid : R.Mid}
    (run : Exec T.handler (HandshakeFuture.awaitMid (some mid) cx) s es (polled, future) t) :
    ∃ io r, es = registrations .read cx ++ [.call (.handshake mid) io r] ∧ T.Calls (.handshake mid) s io r t ∧
      polled = some (polledOnce r) ∧ future = (Progress.settle r).future := by
  obtain ⟨_, answer, middle, rest, rfl, resumed, tail⟩ := Exec.bind_iff.mp run
  obtain ⟨io, r, middle, ended, rfl, calls, ending⟩ := exec_registered exec_setWaker_iff.mp resumed
  refine ⟨io, r, ?_⟩
  rcases r with (mid' | e) | r
  all_goals
    obtain ⟨rfl, rfl, rfl⟩ := Exec.return_iff.mp ending
    obtain ⟨rfl, returned, rfl⟩ := Exec.return_iff.mp tail
    obtain ⟨rfl, rfl⟩ := Prod.mk.inj returned
    exact ⟨List.append_nil _, calls, rfl, rfl⟩

/-- The first poll starts the machine, and resumes it once if it was interrupted. -/
theorem exec_awaitStart {f : R.F} {stream : R.S}
    (run : Exec T.handler (HandshakeFuture.awaitStart (some (f, stream)) cx) s es (polled, future) t) :
    ∃ io r middle rest, es = registrations .read cx ++ .call (.start f stream) io r :: rest ∧
      T.Calls (.start f stream) s io r middle ∧
      ((∀ mid, r ≠ .error (.interrupted mid)) ∧ rest = [] ∧ t = middle ∧ polled = some (polledOnce r) ∧
          future = (Progress.settle r).future ∨
        ∃ mid, r = .error (.interrupted mid) ∧
          Exec T.handler (HandshakeFuture.awaitMid (some mid) cx) middle rest (polled, future) t) := by
  obtain ⟨_, answer, _, rest, rfl, started, tail⟩ := Exec.bind_iff.mp run
  obtain ⟨io, r, middle, ended, rfl, calls, ending⟩ := exec_registered exec_new_iff.mp started
  refine ⟨io, r, middle, rest, ?_⟩
  rcases r with (mid | e) | r
  all_goals obtain ⟨rfl, rfl, rfl⟩ := Exec.return_iff.mp ending
  · exact ⟨by simp, calls, .inr ⟨mid, rfl, tail⟩⟩
  all_goals
    obtain ⟨rfl, returned, rfl⟩ := Exec.return_iff.mp tail
    obtain ⟨rfl, rfl⟩ := Prod.mk.inj returned
    exact ⟨by simp, calls, .inl ⟨by simp, rfl, rfl, rfl, rfl⟩⟩

/-- Conversely, a call made in the context of a waker. -/
private theorem registered_exec {α : Type} {c : Call R} {set : Program (outer R) Unit}
    {f : c.Answer → Program (outer R) α}
    {io : List IoEvent} {r : c.Answer} {a : α} (sets : Exec T.handler set s (registrations .read cx) () s)
    (calls : T.Calls c s io r t) (returns : f r = .pure a) :
    Exec T.handler (set >>= fun _ => c.perform >>= f) s (registrations .read cx ++ [.call c io r]) a t :=
  sets.bind ((exec_call_iff.mpr ⟨io, rfl, calls⟩).bind_return returns)

/-- Any resumption the machine can make is made by awaiting it. -/
theorem awaitMid_exec {mid : R.Mid} {io : List IoEvent} {r : HandshakeResult R}
    (calls : T.Calls (.handshake mid) s io r t) :
    Exec T.handler (HandshakeFuture.awaitMid (some mid) cx) s (registrations .read cx ++ [.call (.handshake mid) io r])
      (some (polledOnce r), (Progress.settle r).future) t := by
  rcases r with (mid' | e) | r
  all_goals exact (registered_exec (exec_setWaker_iff.mpr ⟨rfl, rfl⟩) calls rfl).bind_return rfl

/-- Any start of the machine that is not interrupted is a first poll. -/
theorem awaitStart_exec {f : R.F} {stream : R.S} {io : List IoEvent} {r : HandshakeResult R}
    (calls : T.Calls (.start f stream) s io r t) (final : ∀ mid, r ≠ .error (.interrupted mid)) :
    Exec T.handler (HandshakeFuture.awaitStart (some (f, stream)) cx) s
      (registrations .read cx ++ [.call (.start f stream) io r])
      (some (polledOnce r), (Progress.settle r).future) t := by
  rcases r with (mid | e) | r
  · exact (final mid rfl).elim
  all_goals exact (registered_exec (exec_new_iff.mpr ⟨rfl, rfl⟩) calls rfl).bind_return rfl

/-- Any start that is interrupted, with any resumption after it, is a first poll. -/
theorem awaitStart_interrupted_exec {f : R.F} {stream : R.S} {mid : R.Mid} {io io' : List IoEvent}
    {r : HandshakeResult R}
    {middle : T.State} (calls : T.Calls (.start f stream) s io (.error (.interrupted mid)) middle)
    (resumes : T.Calls (.handshake mid) middle io' r t) :
    Exec T.handler (HandshakeFuture.awaitStart (some (f, stream)) cx) s
      (registrations .read cx ++ [.call (.start f stream) io (.error (.interrupted mid))] ++
        (registrations .read cx ++ [.call (.handshake mid) io' r]))
      (some (polledOnce r), (Progress.settle r).future) t :=
  (registered_exec (exec_new_iff.mpr ⟨rfl, rfl⟩) calls rfl).bind (awaitMid_exec resumes)

end Exec

section Polls

variable {Out : Type} {finish : R.FinalResult → Out} {display : R.Mid → String} {s t : T.State}
  {future : HandshakeFuture R} {label : PollLabel R Out}

/-- A poll makes the steps of its round: before each, the waker of this poll has been set in the read slot of
both proxies, and the last decides the answer. -/
structure Drives (finish : R.FinalResult → Out) (label : PollLabel R Out) (round : List (AttemptRecord R)) : Prop where
  events : label.events = round.flatMap fun record => registrations .read label.cx ++ [record.event]
  answer : ∃ last, round.getLast? = some last ∧ label.answer = some ((Progress.settle last.result).answer finish)

/-- The first poll runs the closure once, and resumes the machine once if that was interrupted. -/
def FirstRound (stream : R.S) (f : R.F) (round : List (AttemptRecord R)) : Prop :=
  ∃ start, start.attempt = .start f stream ∧
    ((∀ mid, start.result ≠ .error (.interrupted mid)) ∧ round = [start] ∨
      ∃ resume, Resumes start resume ∧ round = [start, resume])

/-- Every later poll resumes the machine exactly once. -/
def LaterRound (round : List (AttemptRecord R)) : Prop := ∃ record mid, record.attempt = .resume mid ∧ round = [record]

private theorem answer_settle (r : HandshakeResult R) :
    (some (polledOnce r)).map (Poll.map fun r => (r.map finish).mapError (publicError display)) =
      some ((Progress.settle r).answer finish) := by
  rcases r with (mid | e) | r <;> rfl

private theorem exec_publicPoll {self : HandshakeFuture R} {cx : Waker} {es : List (OuterEvent R)}
    {answer : Option (Poll (Except WsError Out))}
    (run : Exec T.handler (publicPoll finish display self cx) s es (answer, future) t) :
    ∃ polled, Exec T.handler (self.poll cx) s es (polled, future) t ∧
      answer = polled.map (Poll.map fun r => (r.map finish).mapError (publicError display)) := by
  obtain ⟨first, ⟨polled, future'⟩, middle, rest, rfl, inner, tail⟩ := Exec.bind_iff.mp run
  obtain ⟨rfl, returned, rfl⟩ := Exec.return_iff.mp tail
  obtain ⟨rfl, rfl⟩ := Prod.mk.inj returned
  exact ⟨polled, by simpa using inner, rfl⟩

/-- A poll of an interrupted handshake is one round of the loop. -/
theorem poll_interrupted {mid : R.Mid} (step : PollStep T finish display (.resuming (some mid), s) label (future, t)) :
    ∃ record, LoopStep T (.interrupted mid, s) record (.settle record.result, t) ∧ LaterRound [record] ∧
      Drives finish label [record] ∧ future = (Progress.settle record.result).future := by
  obtain ⟨polled, run, answer⟩ := exec_publicPoll step
  obtain ⟨io, r, events, calls, rfl, rfl⟩ := exec_awaitMid run
  have looped : LoopStep T (.interrupted mid, s) ⟨.resume mid, io, r⟩ (.settle r, t) := ⟨rfl, calls, rfl⟩
  refine ⟨_, looped, ⟨_, mid, rfl, rfl⟩, ⟨?_, _, rfl, ?_⟩, rfl⟩
  · rw [events, List.flatMap_singleton]
    rfl
  · exact answer.trans (answer_settle _)

/-- The first poll is one or two rounds of the loop. -/
theorem poll_initial {stream : R.S} {f : R.F}
    (step : PollStep T finish display (.unresumed stream f, s) label (future, t)) :
    ∃ round last, round.getLast? = some last ∧
      Path (LoopStep T) (.initial stream f, s) round (.settle last.result, t) ∧ FirstRound stream f round ∧
      Drives finish label round ∧ future = (Progress.settle last.result).future := by
  obtain ⟨polled, run, answer⟩ := exec_publicPoll step
  obtain ⟨io, r, middle, rest, events, calls, ended | ⟨mid, rfl, resumed⟩⟩ := exec_awaitStart run
  · obtain ⟨final, rfl, rfl, rfl, rfl⟩ := ended
    have first : LoopStep T (.initial stream f, s) ⟨.start f stream, io, r⟩ (.settle r, t) := ⟨rfl, calls, rfl⟩
    have shape : FirstRound stream f [⟨.start f stream, io, r⟩] := ⟨_, rfl, .inl ⟨final, rfl⟩⟩
    refine ⟨_, _, rfl, .single first, shape, ⟨?_, _, rfl, ?_⟩, rfl⟩
    · rw [events, List.flatMap_singleton]
      rfl
    · exact answer.trans (answer_settle _)
  · obtain ⟨io', r', rfl, calls', rfl, rfl⟩ := exec_awaitMid resumed
    have first : LoopStep T (.initial stream f, s) ⟨.start f stream, io, .error (.interrupted mid)⟩
        (.interrupted mid, middle) := ⟨rfl, calls, rfl⟩
    have second : LoopStep T (.interrupted mid, middle) ⟨.resume mid, io', r'⟩ (.settle r', t) := ⟨rfl, calls', rfl⟩
    have shape : FirstRound stream f [⟨.start f stream, io, .error (.interrupted mid)⟩, ⟨.resume mid, io', r'⟩] :=
      ⟨_, rfl, .inr ⟨_, ⟨mid, rfl, rfl⟩, rfl⟩⟩
    refine ⟨_, _, rfl, .cons first (.single second), shape, ⟨?_, _, rfl, ?_⟩, rfl⟩
    · rw [events, List.flatMap_cons, List.flatMap_singleton, List.append_assoc]
      rfl
    · exact answer.trans (answer_settle _)

/-- A poll whose steps end with the result `r` answers it. -/
private theorem poll_of_exec {self : HandshakeFuture R} {cx : Waker} {es : List (OuterEvent R)} {r : HandshakeResult R}
    (run : Exec T.handler (self.poll cx) s es (some (polledOnce r), (Progress.settle r).future) t) :
    PollStep T finish display (self, s) ⟨cx, es, some ((Progress.settle r).answer finish)⟩
      ((Progress.settle r).future, t) :=
  run.bind_return (congrArg (Program.pure <| Prod.mk · (Progress.settle r).future) (answer_settle r))

/-- Every round of the loop after the first poll is made by a poll with any waker. -/
theorem poll_of_resume {mid : R.Mid} {record : AttemptRecord R} {p : Progress R} (cx : Waker)
    (looped : LoopStep T (.interrupted mid, s) record (p, t)) :
    PollStep T finish display (.resuming (some mid), s)
      ⟨cx, registrations .read cx ++ [record.event], some (p.answer finish)⟩ (p.future, t) := by
  obtain ⟨attempt, io, r⟩ := record
  obtain ⟨next, made, settled⟩ := looped
  obtain rfl := Option.some.inj next
  obtain rfl : p = .settle r := settled
  exact poll_of_exec (awaitMid_exec made)

private theorem settle_eq_interrupted {r : HandshakeResult R} {mid : R.Mid}
    (same : .interrupted mid = Progress.settle r) :
    r = .error (.interrupted mid) := by
  rcases r with (mid' | e) | r <;> cases same
  rfl

/-- The first two rounds of the loop, when the first is interrupted, are made by a first poll with any waker. -/
theorem poll_of_interrupted_start {stream : R.S} {f : R.F} {mid : R.Mid} {first second : AttemptRecord R}
    {p : Progress R}
    {middle : T.State} (cx : Waker) (started : LoopStep T (.initial stream f, s) first (.interrupted mid, middle))
    (looped : LoopStep T (.interrupted mid, middle) second (p, t)) :
    PollStep T finish display (.unresumed stream f, s)
      ⟨cx, registrations .read cx ++ [first.event] ++ (registrations .read cx ++ [second.event]),
        some (p.answer finish)⟩ (p.future, t) := by
  obtain ⟨attempt, io, r⟩ := first
  obtain ⟨next, made, settled⟩ := started
  obtain rfl := Option.some.inj next
  obtain rfl : r = .error (.interrupted mid) := settle_eq_interrupted settled
  obtain ⟨attempt', io', r'⟩ := second
  obtain ⟨next', made', settled'⟩ := looped
  obtain rfl := Option.some.inj next'
  obtain rfl : p = .settle r' := settled'
  exact poll_of_exec (awaitStart_interrupted_exec made made')

/-- A first round of the loop that is not interrupted is made by a first poll with any waker. -/
theorem poll_of_start {stream : R.S} {f : R.F} {record : AttemptRecord R} {p : Progress R} (cx : Waker)
    (started : LoopStep T (.initial stream f, s) record (p, t))
    (final : ∀ mid, record.result ≠ .error (.interrupted mid)) :
    PollStep T finish display (.unresumed stream f, s)
      ⟨cx, registrations .read cx ++ [record.event], some (p.answer finish)⟩ (p.future, t) := by
  obtain ⟨attempt, io, r⟩ := record
  obtain ⟨next, made, settled⟩ := started
  obtain rfl := Option.some.inj next
  obtain rfl : p = .settle r := settled
  exact poll_of_exec (awaitStart_exec made final)

end Polls

/-! ## A whole run -/

section Runs

variable {Out : Type} {finish : R.FinalResult → Out} {display : R.Mid → String} {s t : T.State}
  {future : HandshakeFuture R} {label : PollLabel R Out} {labels : List (PollLabel R Out)}

/-- The future is not polled again once it answered `Ready`. -/
def NoPollAfterReady (labels : List (PollLabel R Out)) : Prop :=
  ∀ label ∈ labels.dropLast, ∀ r, label.answer ≠ some (.ready r)

/-- Two steps of the loop in a row: the second resumes the machine the first returned. -/
private theorem LoopStep.resumes {x y z : Progress R × T.State} {a b : AttemptRecord R} (first : LoopStep T x a y)
    (second : LoopStep T y b z) : Resumes a b := by
  have next := second.next
  rw [first.settled] at next
  rcases result : a.result with (mid | e) | r <;> rw [result] at next
  · exact ⟨mid, result, (Option.some.inj next).symm⟩
  all_goals cases next

/-- Along the loop every resumption is given the machine the step before it returned. -/
theorem loop_chain {x y : Progress R × T.State} {records : List (AttemptRecord R)}
    (path : Path (LoopStep T) x records y) : records.IsChain Resumes := by
  induction path with
  | nil => exact .nil
  | cons first rest ih =>
    cases rest with
    | nil => exact .singleton _
    | cons second rest => exact .cons_cons (first.resumes second) ih

/-- A poll that ended the loop is the last one. -/
private theorem last_of_finished {round : List (AttemptRecord R)} {last : AttemptRecord R}
    (polled : NoPollAfterReady (label :: labels))
    (drives : Drives finish label round) (ends : round.getLast? = some last) (result : Except WsError R.FinalResult)
    (finished : Progress.settle last.result = .finished result) : labels = [] := by
  by_contra more
  obtain ⟨last', same, answered⟩ := drives.answer
  obtain rfl := Option.some.inj (ends.symm.trans same)
  rw [finished] at answered
  refine polled label ?_ _ answered
  rw [List.dropLast_cons_of_ne_nil more]
  exact List.mem_cons_self

private theorem NoPollAfterReady.tail (polled : NoPollAfterReady (label :: labels)) : NoPollAfterReady labels := by
  intro later mem
  cases labels with
  | nil => cases mem
  | cons next rest => exact polled later (List.mem_cons_of_mem _ mem)

/-- The poll that answers `Ready` is the one that ended the loop. -/
private theorem returns_of_last {round : List (AttemptRecord R)} {rounds : List (List (AttemptRecord R))}
    {last : AttemptRecord R} {p : Progress R} (polled : NoPollAfterReady (label :: labels))
    (drives : Drives finish label round)
    (ends : round.getLast? = some last) (driven : labels.Forall₂ (Drives finish) rounds)
    (path : Path (LoopStep T) (.settle last.result, s) rounds.flatten (p, t)) {r : Except WsError Out}
    (answered : label.answer = some (.ready r)) : ∃ result, p = .finished result ∧ r = result.map finish := by
  obtain ⟨last', same, answer⟩ := drives.answer
  obtain rfl := Option.some.inj (ends.symm.trans same)
  have answer := Option.some.inj (answer.symm.trans answered)
  cases settled : Progress.settle last.result with
  | initial stream f => cases settled ▸ answer
  | interrupted mid => cases settled ▸ answer
  | finished result =>
    obtain rfl := last_of_finished polled drives ends result settled
    obtain rfl := List.forall₂_nil_left_iff.mp driven
    obtain ⟨rfl, -⟩ := Prod.mk.inj (Path.nil_iff.mp path)
    rw [settled] at answer
    exact ⟨result, settled, (Poll.ready.inj answer).symm⟩

/-- The rounds after the first: one resumption for each poll, up to the poll that ends the loop. -/
private theorem later_rounds {r : HandshakeResult R} (polled : NoPollAfterReady labels)
    (run : PollRun T finish display ((Progress.settle r).future, s) labels (future, t))
    (live : ∀ result, Progress.settle r = .finished result → labels = []) :
    ∃ rounds p, Path (LoopStep T) (.settle r, s) rounds.flatten (p, t) ∧ labels.Forall₂ (Drives finish) rounds ∧
      (∀ round ∈ rounds, LaterRound round) ∧ future = p.future ∧
      ∀ label ∈ labels, ∀ r, label.answer = some (.ready r) →
        ∃ result, p = .finished result ∧ r = result.map finish := by
  induction labels generalizing r s with
  | nil =>
    obtain ⟨rfl, rfl⟩ := Prod.mk.inj (Path.nil_iff.mp run)
    exact ⟨[], .settle r, .nil _, .nil, by simp, rfl, by simp⟩
  | cons label rest ih =>
    obtain ⟨⟨middle, u⟩, step, run⟩ := Path.cons_iff.mp run
    rcases r with (mid | e) | r
    · obtain ⟨record, looped, later, drives, rfl⟩ := poll_interrupted step
      obtain ⟨rounds, p, path, driven, shapes, reached, returns⟩ :=
        ih polled.tail run (last_of_finished polled drives rfl)
      refine ⟨[record] :: rounds, p, .cons looped path, .cons drives driven, ?_, reached, ?_⟩
      · exact List.forall_mem_cons.mpr ⟨later, shapes⟩
      · exact List.forall_mem_cons.mpr ⟨fun r => returns_of_last polled drives rfl driven path, returns⟩
    · cases live _ rfl
    · cases live _ rfl

/-- The rounds of a run: the first poll's, then those of the polls after it. -/
def Rounds (stream : R.S) (f : R.F) : List (List (AttemptRecord R)) → Prop
  | [] => True
  | first :: later => FirstRound stream f first ∧ ∀ round ∈ later, LaterRound round

/-- The polls `labels` of a future started from `f` and `stream` are the loop, cut into `rounds`. -/
structure DrivesLoop (T : Tungstenite R) (finish : R.FinalResult → Out) (stream : R.S) (f : R.F) (s : T.State)
    (labels : List (PollLabel R Out)) (reached : HandshakeFuture R × T.State) (rounds : List (List (AttemptRecord R)))
    (p : Progress R) : Prop where
  /-- All steps of all polls, in order, are a path of the loop. -/
  loop : Path (LoopStep T) (.initial stream f, s) rounds.flatten (p, reached.2)
  /-- Each poll makes the steps of its round in the context of its own waker, and answers the last. -/
  drives : labels.Forall₂ (Drives finish) rounds
  /-- `f` runs once, in the first poll; each later poll resumes once. -/
  cut : Rounds stream f rounds
  /-- No machine is lost or resumed twice. -/
  chain : rounds.flatten.IsChain Resumes
  /-- The future holds exactly what the loop would resume next. -/
  future : reached.1 = p.future
  /-- No poll panics. -/
  answered : ∀ label ∈ labels, label.answer ≠ none
  /-- A `Ready` answer is the result the loop returns. -/
  returns : ∀ label ∈ labels, ∀ r, label.answer = some (.ready r) →
    ∃ result, p = .finished result ∧ r = result.map finish
  /-- The error arm for an interrupted handshake is never reached: what fails is a step of the loop. -/
  failure : ∀ label ∈ labels, ∀ e, label.answer = some (.ready (.error e)) →
    ∃ record ∈ rounds.flatten, record.result = .error (.failure e)

private theorem exists_round {labels : List (PollLabel R Out)} {rounds : List (List (AttemptRecord R))}
    (driven : labels.Forall₂ (Drives finish) rounds) :
    ∀ label ∈ labels, ∃ round ∈ rounds, Drives finish label round := by
  induction driven with
  | nil => simp
  | cons drives _ ih =>
    refine List.forall_mem_cons.mpr ⟨⟨_, List.mem_cons_self, drives⟩, fun label mem => ?_⟩
    obtain ⟨round, later, drives⟩ := ih label mem
    exact ⟨round, List.mem_cons_of_mem _ later, drives⟩

private theorem answer_error {r : HandshakeResult R} {e : WsError}
    (answered : (Progress.settle r).answer finish = .ready (.error e)) : r = .error (.failure e) := by
  rcases r with (mid | e') | r <;> cases answered
  rfl

/-- The asynchronous driver refines the plain retry loop. -/
theorem handshake_refines_loop {stream : R.S} {f : R.F}
    (run : PollRun T finish display (.unresumed stream f, s) labels (future, t)) (polled : NoPollAfterReady labels) :
    ∃ rounds p, DrivesLoop T finish stream f s labels (future, t) rounds p := by
  cases labels with
  | nil =>
    obtain ⟨rfl, rfl⟩ := Prod.mk.inj (Path.nil_iff.mp run)
    exact ⟨[], .initial stream f, .nil _, .nil, trivial, .nil, rfl, by simp, by simp, by simp⟩
  | cons label rest =>
    obtain ⟨⟨middle, u⟩, step, run⟩ := Path.cons_iff.mp run
    obtain ⟨round, last, ends, looped, shape, drives, rfl⟩ := poll_initial step
    obtain ⟨rounds, p, path, driven, shapes, reached, returns⟩ :=
      later_rounds polled.tail run (last_of_finished polled drives ends)
    have loop := looped.append path
    have all : (label :: rest).Forall₂ (Drives finish) (round :: rounds) := .cons drives driven
    refine ⟨round :: rounds, p, loop, all, ⟨shape, shapes⟩, loop_chain loop, reached, ?_, ?_, ?_⟩
    · intro label mem
      obtain ⟨_, _, drives⟩ := exists_round all label mem
      obtain ⟨last, _, answer⟩ := drives.answer
      simp [answer]
    · exact List.forall_mem_cons.mpr ⟨fun r => returns_of_last polled drives ends driven path, returns⟩
    · intro label mem e answered
      obtain ⟨round, made, drives⟩ := exists_round all label mem
      obtain ⟨last, ends, answer⟩ := drives.answer
      exact ⟨last, List.mem_flatten.mpr ⟨round, made, List.mem_of_getLast? ends⟩,
        answer_error (Option.some.inj (answer.symm.trans answered))⟩

/-- The loop does nothing after it returned. -/
private theorem path_of_finished {result : Except WsError R.FinalResult} {records : List (AttemptRecord R)}
    {x : Progress R × T.State} (path : Path (LoopStep T) (.finished result, s) records x) :
    x = (.finished result, s) := by
  cases path with
  | nil => rfl
  | cons step _ => cases step.next

/-- Polls of the future answer that result in the end. -/
def Returns (T : Tungstenite R) (finish : R.FinalResult → Out) (display : R.Mid → String)
    (start : HandshakeFuture R × T.State) (result : Except WsError R.FinalResult) (t : T.State) : Prop :=
  ∃ labels last, PollRun T finish display start (labels ++ [last]) (.returned, t) ∧
    last.answer = some (.ready (result.map finish))

/-- A poll returns what the loop returns from there: at once if it ended the loop, else later. -/
private theorem Returns.of_poll {start : HandshakeFuture R × T.State} {r : HandshakeResult R}
    {records : List (AttemptRecord R)} {result : Except WsError R.FinalResult}
    (polled : PollStep T finish display start label ((Progress.settle r).future, s))
    (answers : label.answer = some ((Progress.settle r).answer finish))
    (path : Path (LoopStep T) (.settle r, s) records (.finished result, t))
    (later : ∀ mid, Path (LoopStep T) (.interrupted mid, s) records (.finished result, t) →
      Returns T finish display (.resuming (some mid), s) result t) : Returns T finish display start result t := by
  rcases r with (mid | e) | r
  · obtain ⟨labels, last, run, answer⟩ := later mid path
    exact ⟨label :: labels, last, .cons polled run, answer⟩
  all_goals
    obtain ⟨same, rfl⟩ := Prod.mk.inj (path_of_finished path)
    obtain rfl := Progress.finished.inj same
    exact ⟨[], label, .single polled, answers⟩

private theorem returns_of_interrupted {mid : R.Mid} {records : List (AttemptRecord R)}
    {result : Except WsError R.FinalResult}
    (cx : Waker) (path : Path (LoopStep T) (.interrupted mid, s) records (.finished result, t)) :
    Returns T finish display (.resuming (some mid), s) result t := by
  induction records generalizing mid s with
  | nil => cases path
  | cons record rest ih =>
    obtain ⟨⟨p, u⟩, step, path⟩ := Path.cons_iff.mp path
    obtain rfl : p = .settle record.result := step.settled
    exact .of_poll (poll_of_resume cx step) rfl path fun mid => ih

/-- Conversely the driver realises the loop: whatever the loop returns, polls with any waker return. -/
theorem returns_of_loop {stream : R.S} {f : R.F} {records : List (AttemptRecord R)}
    {result : Except WsError R.FinalResult}
    (cx : Waker) (path : Path (LoopStep T) (.initial stream f, s) records (.finished result, t)) :
    Returns T finish display (.unresumed stream f, s) result t := by
  cases path with
  | @cons _ first _ start rest started path =>
  obtain ⟨p, u⟩ := first
  obtain rfl : p = .settle start.result := started.settled
  by_cases interrupted : ∃ mid, start.result = .error (.interrupted mid)
  · obtain ⟨mid, interrupted⟩ := interrupted
    rw [interrupted] at started path
    -- the first poll also makes the second step
    cases path with
    | @cons _ second _ resume rest resumed path =>
    obtain ⟨p, v⟩ := second
    obtain rfl : p = .settle resume.result := resumed.settled
    exact .of_poll (poll_of_interrupted_start cx started resumed) rfl path fun mid => returns_of_interrupted cx
  · have final := not_exists.mp interrupted
    exact .of_poll (poll_of_start cx started final) rfl path fun mid => returns_of_interrupted cx

end Runs

/-- A stream made without a handshake is ready in the first poll: its waker is in the read slot of both
proxies, and no call was made. -/
theorem withoutHandshake_iff {S W : Type} {stream : S} {f : S → W} {ctx : Waker} {s t : T.State}
    {es : List (OuterEvent R)} {answer : Option (Poll (W × Flags))} :
    Exec T.handler (withoutHandshake stream f ctx) s es answer t ↔
      es = registrations .read ctx ∧ answer = some (.ready (f stream, WebSocketStream.new)) ∧ t = s := by
  simp only [withoutHandshake, SkippedHandshakeFuture.poll, bind_assoc, pure_bind, Exec.bind_iff, exec_new_iff,
    Exec.return_iff]
  constructor
  · rintro ⟨_, _, _, _, rfl, ⟨rfl, rfl⟩, rfl, rfl, rfl⟩
    exact ⟨List.append_nil _, rfl, rfl⟩
  · rintro ⟨rfl, rfl, rfl⟩
    exact ⟨_, (), t, [], (List.append_nil _).symm, ⟨rfl, rfl⟩, rfl, rfl, rfl⟩

/-! ## A handshake that is interrupted twice -/

section Countdown

/-- The role of a machine that counts its interruptions down. -/
def countdownRole : HandshakeRole where
  F := Unit
  S := Unit
  Mid := ℕ
  FinalResult := Unit × String

/-- A step at a count reads once, and is interrupted while the count has not run out. -/
def countdownStep : ℕ → StdEvent × HandshakeResult countdownRole
  | 0 => (⟨.read 1, .ok [10]⟩, .ok ((), "101"))
  | count + 1 => (⟨.read 1, .error .wouldBlock⟩, .error (.interrupted count))

def countdown : Tungstenite countdownRole where
  State := Unit
  exec c _ std r _ :=
    match c with
    | .start _ _ => std = [(countdownStep 2).1] ∧ r = (countdownStep 2).2
    | .handshake mid => std = [(countdownStep mid).1] ∧ r = (countdownStep mid).2
    | _ => False

/-- A read the inner stream leaves pending, and one it answers. -/
def countdownIo (polled : ReadBuf 1 × Poll (Except IoError Unit)) : IoEvent :=
  (⟨.read 1, readResult polled⟩, ⟨.pollRead .readWakerProxy 1, polled⟩)

def countdownBlocked : IoEvent := countdownIo (⟨[], by decide⟩, .pending)

def countdownArrived : IoEvent := countdownIo (⟨[10], by decide⟩, .ready (.ok ()))

theorem countdownIo_served (polled : ReadBuf 1 × Poll (Except IoError Unit)) :
    ∀ event ∈ [countdownIo polled], Performs event := by
  rw [List.forall_mem_singleton]
  exact performs_read_iff.mpr ⟨polled, rfl, rfl⟩

/-- Two polls with different wakers. -/
def countdownPolls {Out : Type} (finish : Unit × String → Out) : List (PollLabel countdownRole Out) :=
  [⟨⟨1⟩, registrations .read ⟨1⟩ ++ .call (.start () ()) [countdownBlocked] (.error (.interrupted (1 : ℕ))) ::
      (registrations .read ⟨1⟩ ++ [.call (.handshake (1 : ℕ)) [countdownBlocked] (.error (.interrupted (0 : ℕ)))]),
      some .pending⟩,
    ⟨⟨2⟩, registrations .read ⟨2⟩ ++ [.call (.handshake (0 : ℕ)) [countdownArrived] (.ok ((), "101"))],
      some (.ready (.ok (finish ((), "101"))))⟩]

private theorem countdown_run {Out : Type} (finish : Unit × String → Out) (display : ℕ → String) :
    PollRun countdown finish display (.unresumed () (), ()) (countdownPolls finish) (.returned, ()) := by
  have start : LoopStep countdown (.initial () (), ()) ⟨.start () (), [countdownBlocked], .error (.interrupted (1 : ℕ))⟩
      (.interrupted (1 : ℕ), ()) := ⟨rfl, ⟨⟨rfl, rfl⟩, countdownIo_served _⟩, rfl⟩
  have again : LoopStep countdown (.interrupted (1 : ℕ), ())
      ⟨.resume (1 : ℕ), [countdownBlocked], .error (.interrupted (0 : ℕ))⟩ (.interrupted (0 : ℕ), ()) := ⟨rfl, ⟨⟨rfl, rfl⟩, countdownIo_served _⟩, rfl⟩
  have last : LoopStep countdown (.interrupted (0 : ℕ), ()) ⟨.resume (0 : ℕ), [countdownArrived], .ok ((), "101")⟩
      (.finished (.ok ((), "101")), ()) := ⟨rfl, ⟨⟨rfl, rfl⟩, countdownIo_served _⟩, rfl⟩
  exact .cons (poll_of_interrupted_start ⟨1⟩ start again) (.single (poll_of_resume ⟨2⟩ last))

/-- As a client and as a server. -/
theorem handshake_refines_loop_countdown :
    (∃ rounds p, DrivesLoop countdown clientHandshake () () () (countdownPolls clientHandshake)
        (.returned, ()) rounds p) ∧
      ∃ rounds p, DrivesLoop countdown serverHandshake () () () (countdownPolls serverHandshake)
        (.returned, ()) rounds p :=
  ⟨handshake_refines_loop (countdown_run clientHandshake toString) (by simp [NoPollAfterReady, countdownPolls]),
    handshake_refines_loop (countdown_run serverHandshake toString) (by simp [NoPollAfterReady, countdownPolls])⟩

end Countdown

end TokioTungstenite
