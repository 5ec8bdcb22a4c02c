import TokioTungstenite.Model.Assumptions
import TokioTungstenite.Model.Reference

/-! # The reference WebSocket meets the assumptions

Whatever is written against the interface of the output buffer has a FIFO output buffer. The other
assumptions follow from one specification for each program of the reference.
-/

namespace TokioTungstenite

open Execution Reference

variable {R : HandshakeRole} {config : Reference.Config}

section Programs

variable {α : Type} {s t : Buffer} {es : List (List BufStep)}

private theorem exec_op_iff {op : BufferOp} {f : op.Answer → Program bufferIo α} {a : α} :
    Exec bufferHandler (op.perform >>= f) s es a t ↔ ∃ steps answer middle rest, es = steps :: rest ∧
      bufferHandler op s steps answer middle ∧ Exec bufferHandler (f answer) middle rest a t := Exec.perform_iff

theorem exec_length_iff {f : ℕ → Program bufferIo α} {a : α} :
    Exec bufferHandler (BufferOp.length.perform >>= f) s es a t ↔
      ∃ rest, es = [] :: rest ∧ Exec bufferHandler (f s.out.length) s rest a t := by
  rw [exec_op_iff]
  constructor
  · rintro ⟨_, _, _, rest, rfl, ⟨rfl, rfl, rfl⟩, run⟩
    exact ⟨rest, rfl, run⟩
  · rintro ⟨rest, rfl, run⟩
    exact ⟨_, _, _, rest, rfl, ⟨rfl, rfl, rfl⟩, run⟩

theorem exec_queue_iff {entry : Entry} {f : Unit → Program bufferIo α} {a : α} :
    Exec bufferHandler ((BufferOp.queue entry).perform >>= f) s es a t ↔
      ∃ rest, es = [.queue entry] :: rest ∧ Exec bufferHandler (f ()) (s.queue entry) rest a t := by
  rw [exec_op_iff]
  constructor
  · rintro ⟨_, _, _, rest, rfl, ⟨rfl, rfl⟩, run⟩
    exact ⟨rest, rfl, run⟩
  · rintro ⟨rest, rfl, run⟩
    exact ⟨_, (), _, rest, rfl, ⟨rfl, rfl⟩, run⟩

theorem exec_write_iff {f : Except IoError ℕ → Program bufferIo α} {a : α} :
    Exec bufferHandler (BufferOp.write.perform >>= f) s es a t ↔
      ∃ r rest, es = [.io ⟨.write (s.out.map Prod.snd), r⟩] :: rest ∧
        Exec bufferHandler (f r) (s.wrote r) rest a t := by
  rw [exec_op_iff]
  constructor
  · rintro ⟨_, r, _, rest, rfl, ⟨rfl, rfl⟩, run⟩
    exact ⟨r, rest, rfl, run⟩
  · rintro ⟨r, rest, rfl, run⟩
    exact ⟨_, r, _, rest, rfl, ⟨rfl, rfl⟩, run⟩

theorem exec_flush_iff {f : Except IoError Unit → Program bufferIo α} {a : α} :
    Exec bufferHandler (BufferOp.flush.perform >>= f) s es a t ↔
      ∃ r rest, es = [.io ⟨.flush, r⟩] :: rest ∧ Exec bufferHandler (f r) s rest a t := by
  rw [exec_op_iff]
  constructor
  · rintro ⟨_, r, _, rest, rfl, ⟨rfl, rfl⟩, run⟩
    exact ⟨r, rest, rfl, run⟩
  · rintro ⟨r, rest, rfl, run⟩
    exact ⟨_, r, _, rest, rfl, ⟨rfl, rfl⟩, run⟩

theorem exec_read_iff {capacity : ℕ} {f : Except IoError Bytes → Program bufferIo α} {a : α} :
    Exec bufferHandler ((BufferOp.read capacity).perform >>= f) s es a t ↔
      ∃ r rest, es = [.io ⟨.read capacity, r⟩] :: rest ∧ Exec bufferHandler (f r) s rest a t := by
  rw [exec_op_iff]
  constructor
  · rintro ⟨_, r, _, rest, rfl, ⟨rfl, rfl⟩, run⟩
    exact ⟨r, rest, rfl, run⟩
  · rintro ⟨r, rest, rfl, run⟩
    exact ⟨_, r, _, rest, rfl, ⟨rfl, rfl⟩, run⟩

private theorem handsContents_append {out : List OutByte} {first second : List BufStep} :
    HandsContents out (first ++ second) ↔
      HandsContents out first ∧ HandsContents (Fifo.run out (first.flatMap BufStep.ops)) second := by
  induction first generalizing out with
  | nil => simp [HandsContents]
  | cons step rest ih => simp only [List.cons_append, HandsContents, ih, List.flatMap_cons, Fifo.run_append, and_assoc]

/-- What the steps of a program do to a buffer is the history of an output buffer. -/
structure Replays (s : Buffer) (steps : List BufStep) (t : Buffer) : Prop where
  hands : HandsContents s.out steps
  out : t.out = Fifo.run s.out (steps.flatMap BufStep.ops)
  log : t.log = s.log ++ steps.filterMap BufStep.entry?

private theorem replays_of_handler {op : BufferOp} {steps : List BufStep} {answer : op.Answer}
    (handled : bufferHandler op s steps answer t) : Replays s steps t := by
  cases op with
  | length =>
    obtain ⟨rfl, -, rfl⟩ := handled
    exact ⟨trivial, rfl, (List.append_nil _).symm⟩
  | queue entry =>
    obtain ⟨rfl, rfl⟩ := handled
    exact ⟨⟨fun _ _ same => (nomatch same), trivial⟩, rfl, rfl⟩
  | write =>
    obtain ⟨rfl, rfl⟩ := handled
    refine ⟨⟨fun _ _ same => (by cases same; rfl), trivial⟩, ?_, ?_⟩
    · rcases answer with _ | _ <;> rfl
    · rcases answer with _ | _ <;> exact (List.append_nil _).symm
  | flush =>
    obtain ⟨rfl, rfl⟩ := handled
    exact ⟨⟨fun _ _ same => (nomatch same), trivial⟩, rfl, (List.append_nil _).symm⟩
  | read capacity =>
    obtain ⟨rfl, rfl⟩ := handled
    exact ⟨⟨fun _ _ same => (nomatch same), trivial⟩, rfl, (List.append_nil _).symm⟩

/-- Any program over the interface keeps a FIFO buffer. -/
theorem replays_of_exec {program : Program bufferIo α} {a : α} (run : Exec bufferHandler program s es a t) :
    Replays s es.flatten t := by
  induction run with
  | pure => exact ⟨trivial, rfl, (List.append_nil _).symm⟩
  | perform handled _ ih =>
    have first := replays_of_handler handled
    rw [List.flatten_cons]
    refine ⟨handsContents_append.mpr ⟨first.hands, first.out ▸ ih.hands⟩, ?_, ?_⟩
    · rw [ih.out, first.out, List.flatMap_append, Fifo.run_append]
    · rw [ih.log, first.log, List.filterMap_append, List.append_assoc]

/-- The blocking operations among the steps of a program. -/
def stdEvents (es : List (List BufStep)) : List StdEvent := es.flatten.filterMap BufStep.event?

@[simp] theorem stdEvents_nil : stdEvents [] = [] := rfl

@[simp] theorem stdEvents_append (first second : List (List BufStep)) :
    stdEvents (first ++ second) = stdEvents first ++ stdEvents second := by simp [stdEvents]

@[simp] theorem stdEvents_silent (rest : List (List BufStep)) : stdEvents ([] :: rest) = stdEvents rest := rfl

@[simp] theorem stdEvents_queue (entry : Entry) (rest : List (List BufStep)) :
    stdEvents ([.queue entry] :: rest) = stdEvents rest := rfl

@[simp] theorem stdEvents_io (event : StdEvent) (rest : List (List BufStep)) :
    stdEvents ([.io event] :: rest) = event :: stdEvents rest := rfl

/-- A replayed record is an execution. -/
theorem exec_of_replay {program : Program bufferIo α} {std : List StdEvent} {a : α}
    (replayed : replay? program s std = some (a, t)) :
    ∃ es, Exec bufferHandler program s es a t ∧ std = stdEvents es := by
  induction program generalizing s std with
  | pure value =>
    cases std with
    | nil =>
      cases replayed
      exact ⟨[], .pure _ _, rfl⟩
    | cons => cases replayed
  | perform op next ih =>
    cases op with
    | length =>
      obtain ⟨es, run, rfl⟩ := ih _ replayed
      exact ⟨_, .perform ⟨rfl, rfl, rfl⟩ run, rfl⟩
    | queue entry =>
      obtain ⟨es, run, rfl⟩ := ih _ replayed
      exact ⟨_, .perform ⟨rfl, rfl⟩ run, rfl⟩
    | write =>
      rcases std with _ | ⟨⟨op, r⟩, rest⟩
      · cases replayed
      cases op with
      | write buf =>
        simp only [replay?] at replayed
        split_ifs at replayed with contents
        subst contents
        obtain ⟨es, run, rfl⟩ := ih r replayed
        exact ⟨_, .perform ⟨rfl, rfl⟩ run, rfl⟩
      | read | flush => cases replayed
    | flush =>
      rcases std with _ | ⟨⟨op, r⟩, rest⟩
      · cases replayed
      cases op with
      | flush =>
        obtain ⟨es, run, rfl⟩ := ih r replayed
        exact ⟨_, .perform ⟨rfl, rfl⟩ run, rfl⟩
      | read | write => cases replayed
    | read capacity =>
      rcases std with _ | ⟨⟨op, r⟩, rest⟩
      · cases replayed
      cases op with
      | read offered =>
        simp only [replay?] at replayed
        split_ifs at replayed with same
        subst same
        obtain ⟨es, run, rfl⟩ := ih r replayed
        exact ⟨_, .perform ⟨rfl, rfl⟩ run, rfl⟩
      | write | flush => cases replayed

/-- Draining queues nothing, and either empties the buffer or blocks. -/
theorem exec_drain {fuel : ℕ} {r : Except WsError Unit} (run : Exec bufferHandler (drain fuel) s es r t)
    (behaved : ∀ event ∈ stdEvents es, event.WellBehaved) (enough : s.out.length ≤ fuel) :
    t.log = s.log ∧ (r = .ok () ∧ t.out = [] ∨ ∃ e, r = .error (.io e) ∧ e.kind = .wouldBlock) := by
  induction fuel generalizing s es with
  | zero =>
    obtain ⟨-, rfl, rfl⟩ := Exec.return_iff.mp run
    exact ⟨rfl, .inl ⟨rfl, List.eq_nil_of_length_eq_zero (Nat.le_zero.mp enough)⟩⟩
  | succ fuel ih =>
    obtain ⟨rest, rfl, body⟩ := exec_length_iff.mp run
    split at body
    · next empty =>
      obtain ⟨-, rfl, rfl⟩ := Exec.return_iff.mp body
      exact ⟨rfl, .inl ⟨rfl, List.eq_nil_of_length_eq_zero empty⟩⟩
    · next nonempty =>
      obtain ⟨written, rest, rfl, tail⟩ := exec_write_iff.mp body
      obtain ⟨here, later⟩ := List.forall_mem_cons.mp behaved
      rcases written with e | n
      · obtain ⟨-, rfl, rfl⟩ := Exec.return_iff.mp tail
        exact ⟨rfl, .inr ⟨e, rfl, here⟩⟩
      · have shorter : (s.out.drop n).length ≤ fuel := by
          have positive : 0 < n := here.1
          rw [List.length_drop]
          omega
        exact ih (s := s.wrote (.ok n)) tail later shorter

/-- The same of the whole buffer. -/
theorem exec_writeOutBuffer {r : Except WsError Unit} (run : Exec bufferHandler writeOutBuffer s es r t)
    (behaved : ∀ event ∈ stdEvents es, event.WellBehaved) :
    t.log = s.log ∧ (r = .ok () ∧ t.out = [] ∨ ∃ e, r = .error (.io e) ∧ e.kind = .wouldBlock) := by
  obtain ⟨rest, rfl, drained⟩ := exec_length_iff.mp run
  exact exec_drain drained (by simpa using behaved) le_rfl

/-- What a pending reply adds to the log. -/
def replyEntries (self : Protocol) : List Entry := self.reply.toList.map (Origin.control, ·)

theorem exec_sendReply {self self' : Protocol} (run : Exec bufferHandler (sendReply self) s es self' t) :
    self' = { self with reply := none } ∧ stdEvents es = [] ∧ t.log = s.log ++ replyEntries self := by
  obtain ⟨phase, reply, unflushed, closes⟩ := self
  cases reply with
  | none =>
    obtain ⟨rfl, rfl, rfl⟩ := Exec.return_iff.mp run
    exact ⟨rfl, rfl, (List.append_nil _).symm⟩
  | some bytes =>
    obtain ⟨rest, rfl, tail⟩ := exec_queue_iff.mp run
    obtain ⟨rfl, rfl, rfl⟩ := Exec.return_iff.mp tail
    exact ⟨rfl, rfl, rfl⟩

/-- A server that can no longer read. -/
def ServerClosed (config : Reference.Config) (self : Protocol) : Prop :=
  config.role = .server ∧ self.phase.canRead = false

/-- How a flush can end. -/
inductive FlushEnds (config : Reference.Config) (self : Protocol) (std : List StdEvent) (t : Buffer) :
    Except WsError Unit → Phase → Prop
  | flushed (before : List StdEvent) (events : std = before ++ [⟨.flush, .ok ()⟩]) (empty : t.out = []) :
      FlushEnds config self std t (.ok ()) self.phase
  | closed (server : ServerClosed config self) (empty : t.out = []) :
      FlushEnds config self std t (.error .connectionClosed) .terminated
  | blocked (e : IoError) (kind : e.kind = .wouldBlock) : FlushEnds config self std t (.error (.io e)) self.phase

/-- The specification of `flush`. -/
structure FlushSpec (config : Reference.Config) (p : Protocol) (s : Buffer) (std : List StdEvent)
    (r : Except WsError Unit) (p' : Protocol) (t : Buffer) : Prop where
  log : t.log = s.log ++ replyEntries p
  closes : p'.closes = p.closes
  ends : FlushEnds config p std t r p'.phase

theorem exec_flush {self self' : Protocol} {r : Except WsError Unit}
    (run : Exec bufferHandler (flush config self) s es (r, self') t)
    (behaved : ∀ event ∈ stdEvents es, event.WellBehaved) : FlushSpec config self s (stdEvents es) r self' t := by
  obtain ⟨first, sent, middle, rest, rfl, reply, body⟩ := Exec.bind_iff.mp run
  obtain ⟨rfl, none, logged⟩ := exec_sendReply reply
  obtain ⟨second, written, drained, rest, rfl, write, tail⟩ := Exec.bind_iff.mp body
  rw [stdEvents_append, stdEvents_append, none, List.nil_append] at behaved ⊢
  obtain ⟨quiet, later⟩ := List.forall_mem_append.mp behaved
  obtain ⟨same, outcome⟩ := exec_writeOutBuffer write quiet
  rcases outcome with ⟨rfl, empty⟩ | ⟨e, rfl, kind⟩
  · dsimp only at tail
    split_ifs at tail with closed
    · obtain ⟨rfl, returned, rfl⟩ := Exec.return_iff.mp tail
      obtain ⟨rfl, rfl⟩ := Prod.mk.inj returned
      exact ⟨same.trans logged, rfl, .closed closed empty⟩
    · obtain ⟨flushed, last, rfl, ending⟩ := exec_flush_iff.mp tail
      rcases flushed with e | ⟨⟩
      · obtain ⟨rfl, returned, rfl⟩ := Exec.return_iff.mp ending
        obtain ⟨rfl, rfl⟩ := Prod.mk.inj returned
        exact ⟨same.trans logged, rfl, .blocked e (later _ List.mem_cons_self)⟩
      · obtain ⟨rfl, returned, rfl⟩ := Exec.return_iff.mp ending
        obtain ⟨rfl, rfl⟩ := Prod.mk.inj returned
        exact ⟨same.trans logged, rfl, .flushed _ rfl empty⟩
  · obtain ⟨rfl, returned, rfl⟩ := Exec.return_iff.mp tail
    obtain ⟨rfl, rfl⟩ := Prod.mk.inj returned
    exact ⟨same.trans logged, rfl, .blocked e kind⟩

/-- A close of an active connection has left that state before its frame is queued. -/
def leaving (self : Protocol) : Protocol := { self with phase := .closedByUs }

def closing (code : Option CloseFrame) (self : Protocol) : Protocol :=
  { self with phase := .closedByUs, closes := self.closes ++ [code] }

/-- How a close can end. -/
inductive CloseEnds (config : Reference.Config) (origin : Origin) (code : Option CloseFrame) (self : Protocol)
    (s : Buffer) (std : List StdEvent) (r : Except WsError Unit) (self' : Protocol) (t : Buffer) : Prop
  | full (active : self.phase = .active)
      (exceeds : config.maxWriteBufferSize < s.out.length + (frame config.role (.close code)).length)
      (silent : std = []) (rejected : r = .error (.writeBufferFull (.close code))) (left : self' = leaving self)
      (same : t = s)
  | queued (active : self.phase = .active)
      (flush : FlushSpec config (closing code self) (s.queue (origin, frame config.role (.close code))) std r self' t)
  | inactive (inactive : self.phase ≠ .active) (flush : FlushSpec config self s std r self' t)

theorem exec_close {origin : Origin} {code : Option CloseFrame} {self self' : Protocol} {r : Except WsError Unit}
    (run : Exec bufferHandler (close config origin code self) s es (r, self') t)
    (behaved : ∀ event ∈ stdEvents es, event.WellBehaved) :
    CloseEnds config origin code self s (stdEvents es) r self' t := by
  unfold close at run
  split_ifs at run with active
  · obtain ⟨rest, rfl, checked⟩ := exec_length_iff.mp run
    split_ifs at checked with exceeds
    · obtain ⟨rfl, returned, rfl⟩ := Exec.return_iff.mp checked
      obtain ⟨rfl, rfl⟩ := Prod.mk.inj returned
      exact .full active exceeds rfl rfl rfl rfl
    · obtain ⟨rest, rfl, tail⟩ := exec_queue_iff.mp checked
      have flushed : FlushSpec config (closing code self) _ (stdEvents rest) r self' t := exec_flush tail behaved
      exact .queued active flushed
  · exact .inactive active (exec_flush run behaved)

/-- How a write of a message can end. -/
inductive WriteEnds (config : Reference.Config) (item : Message) (self : Protocol) (s : Buffer) (std : List StdEvent) :
    Except WsError Unit → Protocol → Buffer → Prop
  | rejected (e : WsError) (inactive : self.phase ≠ .active) (kind : ∀ io, e ≠ .io io)
      (other : ∀ back, e ≠ .writeBufferFull back) (silent : std = []) :
      WriteEnds config item self s std (.error e) self s
  | full (active : self.phase = .active) (other : ∀ code, item ≠ .close code)
      (exceeds : config.maxWriteBufferSize < s.out.length + (frame config.role item).length) (silent : std = []) :
      WriteEnds config item self s std (.error (.writeBufferFull item)) self s
  | closeFull (code : Option CloseFrame) (same : item = .close code) (active : self.phase = .active)
      (exceeds : config.maxWriteBufferSize < s.out.length + (frame config.role item).length) (silent : std = []) :
      WriteEnds config item self s std (.error (.writeBufferFull item)) (leaving self) s
  | closed (code : Option CloseFrame) (same : item = .close code) (active : self.phase = .active)
      (r : Except WsError Unit) (self' : Protocol) (t : Buffer)
      (flush : FlushSpec config (closing code self) (s.queue (.user item, frame config.role item)) std r self' t) :
      WriteEnds config item self s std r self' t
  | queued (active : self.phase = .active) (other : ∀ code, item ≠ .close code) (r : Except WsError Unit) (t : Buffer)
      (log : t.log = s.log ++ [(origin item, frame config.role item)])
      (ends : r = .ok () ∧ t.out.length ≤ config.writeBufferSize ∨ ∃ e, r = .error (.io e) ∧ e.kind = .wouldBlock) :
      WriteEnds config item self s std r self t

/-- The branch of `write` for a message that is no Close. -/
private theorem exec_write_message {item : Message} {self self' : Protocol} {r : Except WsError Unit}
    (other : ∀ code, item ≠ .close code) (active : self.phase = .active)
    (run : Exec bufferHandler (write config item self) s es (r, self') t)
    (behaved : ∀ event ∈ stdEvents es, event.WellBehaved) : WriteEnds config item self s (stdEvents es) r self' t := by
  have body : Exec bufferHandler (do
      if config.maxWriteBufferSize < (← BufferOp.length.perform) + (frame config.role item).length then
        return (.error (.writeBufferFull item), self)
      else
        (BufferOp.queue (origin item, frame config.role item)).perform
        if config.writeBufferSize < (← BufferOp.length.perform) then return (← writeOutBuffer, self)
        else return (.ok (), self)) s es (r, self') t := by
    cases item
    case close code => exact (other code rfl).elim
    all_goals simpa [write, active] using run
  obtain ⟨rest, rfl, checked⟩ := exec_length_iff.mp body
  split_ifs at checked with exceeds
  · obtain ⟨rfl, returned, rfl⟩ := Exec.return_iff.mp checked
    obtain ⟨rfl, rfl⟩ := Prod.mk.inj returned
    exact .full active other exceeds rfl
  obtain ⟨rest, rfl, queued⟩ := exec_queue_iff.mp checked
  obtain ⟨rest, rfl, sized⟩ := exec_length_iff.mp queued
  split_ifs at sized with drains
  · obtain ⟨drained, written, middle, rest, rfl, write, tail⟩ := Exec.bind_iff.mp sized
    obtain ⟨rfl, returned, rfl⟩ := Exec.return_iff.mp tail
    obtain ⟨rfl, rfl⟩ := Prod.mk.inj returned
    have quiet : ∀ event ∈ stdEvents drained, event.WellBehaved := by simpa using behaved
    obtain ⟨same, outcome⟩ := exec_writeOutBuffer write quiet
    refine .queued active other _ _ same (outcome.imp_left fun ⟨ok, empty⟩ => ⟨ok, ?_⟩)
    simp [empty]
  · obtain ⟨rfl, returned, rfl⟩ := Exec.return_iff.mp sized
    obtain ⟨rfl, rfl⟩ := Prod.mk.inj returned
    exact .queued active other _ _ rfl (.inl ⟨rfl, Nat.le_of_not_lt drains⟩)

/-- The specification of `write`. -/
theorem exec_write {item : Message} {self self' : Protocol} {r : Except WsError Unit}
    (run : Exec bufferHandler (write config item self) s es (r, self') t)
    (behaved : ∀ event ∈ stdEvents es, event.WellBehaved) : WriteEnds config item self s (stdEvents es) r self' t := by
  by_cases active : self.phase = .active
  · by_cases close : ∃ code, item = .close code
    · obtain ⟨code, rfl⟩ := close
      have closed : Exec bufferHandler (close config (.user (.close code)) code self) s es (r, self') t := by
        simpa [write, active] using run
      rcases exec_close closed behaved with ⟨-, exceeds, silent, rfl, left, rfl⟩ | ⟨-, flush⟩ | ⟨inactive, -⟩
      · exact left ▸ .closeFull code rfl active exceeds silent
      · exact .closed code rfl active r self' t flush
      · exact (inactive active).elim
    · exact exec_write_message (fun code same => close ⟨code, same⟩) active run behaved
  · unfold write at run
    split_ifs at run with terminated
    all_goals
      obtain ⟨rfl, returned, rfl⟩ := Exec.return_iff.mp run
      obtain ⟨rfl, rfl⟩ := Prod.mk.inj returned
    · exact .rejected .alreadyClosed active (by simp) (by simp) rfl
    · exact .rejected (.protocol .sendAfterClosing) active (by simp) (by simp) rfl

/-- Only control frames were queued. -/
def OnlyControl (s t : Buffer) : Prop := ∃ new, t.log = s.log ++ new ∧ ∀ entry ∈ new, entry.1 = .control

theorem FlushSpec.onlyControl {self self' : Protocol} {std : List StdEvent} {r : Except WsError Unit}
    (flush : FlushSpec config self s std r self' t) : OnlyControl s t := by
  refine ⟨_, flush.log, fun entry member => ?_⟩
  obtain ⟨bytes, -, rfl⟩ := List.mem_map.mp member
  rfl

theorem FlushEnds.active {self : Protocol} {std : List StdEvent} {r : Except WsError Unit} {phase : Phase}
    (ends : FlushEnds config self std t r phase) (active : phase = .active) : self.phase = .active := by
  cases ends with
  | flushed | blocked => exact active
  | closed => cases active

theorem FlushEnds.of_ok {self : Protocol} {std : List StdEvent} {phase : Phase}
    (ends : FlushEnds config self std t (.ok ()) phase) :
    (∃ before, std = before ++ [⟨.flush, .ok ()⟩]) ∧ t.out = [] := by
  cases ends with
  | flushed before events empty => exact ⟨⟨before, events⟩, empty⟩

theorem FlushEnds.of_closed {self : Protocol} {std : List StdEvent} {phase : Phase}
    (ends : FlushEnds config self std t (.error .connectionClosed) phase) : ServerClosed config self ∧ t.out = [] := by
  cases ends with
  | closed server empty => exact ⟨server, empty⟩

section WriteEnds

variable {item : Message} {self self' : Protocol} {std : List StdEvent} {r : Except WsError Unit}

theorem WriteEnds.active (ends : WriteEnds config item self s std r self' t) (active : self'.phase = .active) :
    self.phase = .active := by
  cases ends with
  | rejected => exact active
  | full was | closeFull _ _ was | closed _ _ was | queued was => exact was

theorem WriteEnds.of_inactive (ends : WriteEnds config item self s std r self' t) (inactive : self.phase ≠ .active) :
    self' = self ∧ t = s ∧ std = [] ∧ ∃ e, r = .error e ∧ ∀ io, e ≠ .io io := by
  cases ends with
  | rejected e _ kind _ silent => exact ⟨rfl, rfl, silent, e, rfl, kind⟩
  | full active | closeFull _ _ active | closed _ _ active | queued active => exact (inactive active).elim

theorem WriteEnds.closes_of_close {code : Option CloseFrame}
    (ends : WriteEnds config (.close code) self s std r self' t) (active : self.phase = .active) :
    self'.phase ≠ .active ∧ (self'.closes = self.closes ∨ self'.closes = self.closes ++ [code]) := by
  cases ends with
  | rejected _ inactive => exact (inactive active).elim
  | full _ other | queued _ other => exact (other code rfl).elim
  | closeFull => exact ⟨Phase.noConfusion, .inl rfl⟩
  | closed _ same _ _ _ _ flush =>
    cases same
    exact ⟨fun still => (nomatch flush.ends.active still), .inr flush.closes⟩

theorem WriteEnds.closes_of_other (ends : WriteEnds config item self s std r self' t)
    (other : ∀ code, item ≠ .close code) : self'.closes = self.closes := by
  cases ends with
  | rejected | full | queued => rfl
  | closeFull code same | closed code same => exact (other code same).elim

theorem WriteEnds.length_of_ok (ends : WriteEnds config item self s std (.ok ()) self' t) :
    t.out.length ≤ config.writeBufferSize := by
  generalize ok : (.ok () : Except WsError Unit) = r at ends
  cases ends with
  | rejected | full | closeFull => cases ok
  | closed _ _ _ _ _ _ flush =>
    subst ok
    simp [flush.ends.of_ok.2]
  | queued _ _ _ _ _ ends =>
    rcases ends with ⟨-, fits⟩ | ⟨e, rfl, -⟩
    · exact fits
    · cases ok

end WriteEnds

/-- The specification of `read`: it queues nothing for the user, and counts a Close frame only when it leaves
the active state to reply to the peer's. -/
structure ReadSpec (p p' : Protocol) (s t : Buffer) : Prop where
  quiet : OnlyControl s t
  active : p'.phase = .active → p.phase = .active
  closes : p'.closes = p.closes ∨ (p.phase = .active ∧ p'.phase ≠ .active ∧ ∃ c, p'.closes = p.closes ++ [c])

private theorem receive_spec (config : Reference.Config) (item : Message) (self : Protocol) :
    ((receive config item self).phase = .active → self.phase = .active) ∧
      ((receive config item self).closes = self.closes ∨ (self.phase = .active ∧
        (receive config item self).phase ≠ .active ∧ ∃ c, (receive config item self).closes = self.closes ++ [c])) := by
  unfold receive
  split
  · next active => exact ⟨fun _ => active, .inr ⟨active, by simp, _, rfl⟩⟩
  · exact ⟨fun active => by simp at active, .inl rfl⟩
  · next active => exact ⟨fun _ => active, .inl rfl⟩
  · exact ⟨id, .inl rfl⟩

private theorem exec_readFrame {p q p' : Protocol} {r : Except WsError Message}
    (run : Exec bufferHandler (readFrame config q) s es (r, p') t) (closes : q.closes = p.closes)
    (active : q.phase = .active → p.phase = .active) {first : Buffer} (quiet : OnlyControl first s) :
    ReadSpec p p' first t := by
  obtain ⟨chunk, rest, rfl, tail⟩ := exec_read_iff.mp run
  rcases chunk with e | bytes
  · obtain ⟨rfl, returned, rfl⟩ := Exec.return_iff.mp tail
    obtain ⟨rfl, rfl⟩ := Prod.mk.inj returned
    exact ⟨quiet, active, .inl closes⟩
  · obtain ⟨rfl, returned, rfl⟩ := Exec.return_iff.mp tail
    obtain ⟨rfl, rfl⟩ := Prod.mk.inj returned
    obtain ⟨was, replied⟩ := receive_spec config (message config.role bytes) q
    refine ⟨quiet, active ∘ was, replied.imp (fun same => same.trans closes) fun ⟨now, left, c, queued⟩ => ?_⟩
    exact ⟨active now, left, c, by rw [queued, closes]⟩

theorem OnlyControl.refl (s : Buffer) : OnlyControl s s := ⟨[], (List.append_nil _).symm, by simp⟩

theorem exec_read {p p' : Protocol} {r : Except WsError Message}
    (run : Exec bufferHandler (read config p) s es (r, p') t)
    (behaved : ∀ event ∈ stdEvents es, event.WellBehaved) : ReadSpec p p' s t := by
  unfold Reference.read at run
  split_ifs at run with terminated pending closed
  · obtain ⟨rfl, returned, rfl⟩ := Exec.return_iff.mp run
    obtain ⟨rfl, rfl⟩ := Prod.mk.inj returned
    exact ⟨.refl _, id, .inl rfl⟩
  · obtain ⟨first, ⟨flushed, q⟩, middle, rest, rfl, flush, tail⟩ := Exec.bind_iff.mp run
    rw [stdEvents_append, List.forall_mem_append] at behaved
    have spec := exec_flush flush behaved.1
    rcases flushed with e | ⟨⟩
    · dsimp only at tail
      split_ifs at tail with blocked
      · exact exec_readFrame tail spec.closes spec.ends.active spec.onlyControl
      · obtain ⟨rfl, returned, rfl⟩ := Exec.return_iff.mp tail
        obtain ⟨rfl, rfl⟩ := Prod.mk.inj returned
        exact ⟨spec.onlyControl, spec.ends.active, .inl spec.closes⟩
    · exact exec_readFrame tail spec.closes spec.ends.active spec.onlyControl
  · obtain ⟨rfl, returned, rfl⟩ := Exec.return_iff.mp run
    obtain ⟨rfl, rfl⟩ := Prod.mk.inj returned
    exact ⟨.refl _, fun active => (nomatch active), .inl rfl⟩
  · exact exec_readFrame run rfl id (.refl _)

end Programs

/-! ## The assumptions -/

/-- The buffer of the reference is an output buffer. -/
def referenceBuffer (R : HandshakeRole) (config : Reference.Config) : OutputBuffer (reference R config) where
  out s := s.2.out
  log s := s.2.log
  history := by
    rintro c s std r t ⟨es, run, rfl, -⟩
    have replays := replays_of_exec run
    exact ⟨es.flatten, rfl, replays.hands, replays.out, replays.log⟩

/-- A close leaves the active phase, and no call returns to it. -/
def referenceLifecycle (R : HandshakeRole) (config : Reference.Config) : Lifecycle (reference R config) where
  active s := s.1.phase = .active
  closeLeaves := by
    rintro frame s t std r ⟨es, run, rfl, behaved⟩ active
    rcases exec_close run behaved with ⟨-, -, -, -, left, -⟩ | ⟨-, spec⟩ | ⟨inactive, spec⟩
    · rw [left] at active
      cases active
    · cases spec.ends.active active
    · exact inactive (spec.ends.active active)
  neverReturns := by
    rintro c s t std r ⟨es, run, rfl, behaved⟩ active
    cases c with
    | read => exact (exec_read run behaved).active active
    | flush => exact (exec_flush run behaved).ends.active active
    | close frame =>
      rcases exec_close run behaved with ⟨was, -⟩ | ⟨was, -⟩ | ⟨-, spec⟩
      · exact was
      · exact was
      · exact spec.ends.active active
    | write item => exact (exec_write run behaved).active active
    | start | handshake =>
      obtain ⟨-, returned, -⟩ := Exec.return_iff.mp run
      exact (congrArg (fun result => result.2.phase) returned).symm.trans active

section Assumptions

private theorem userBytes_append (first second : List OutByte) :
    userBytes (first ++ second) = userBytes first + userBytes second := List.countP_append

variable {s t : Protocol × Buffer} {new : List Entry}

/-- What was queued is what the log grew by. -/
private theorem new_eq {queued : List Entry}
    (logged : (referenceBuffer R config).log t = (referenceBuffer R config).log s ++ new)
    (log : t.2.log = s.2.log ++ queued) : new = queued := List.append_cancel_left (logged.symm.trans log)

private theorem control_of_onlyControl (quiet : OnlyControl s.2 t.2)
    (logged : (referenceBuffer R config).log t = (referenceBuffer R config).log s ++ new) :
    ∀ entry ∈ new, entry.1 = .control := by
  obtain ⟨queued, log, control⟩ := quiet
  exact new_eq logged log ▸ control

private theorem userMessages_of_control (control : ∀ entry ∈ new, entry.1 = .control) : userMessages new = [] := by
  rw [userMessages, List.filterMap_eq_nil_iff]
  intro entry member
  rw [control entry member]
  rfl

private theorem userBytes_of_control (control : ∀ entry ∈ new, entry.1 = .control) :
    userBytes (new.flatMap Entry.bytes) = 0 := by
  rw [userBytes, List.countP_eq_zero]
  intro byte member
  obtain ⟨entry, here, inside⟩ := List.mem_flatMap.mp member
  obtain ⟨value, -, rfl⟩ := List.mem_map.mp inside
  simp [control entry here, Origin.message?]

/-- Every call but a write queues control frames only. -/
private theorem onlyControl_of_exec {c : Call R} {std : List StdEvent} {r : c.Answer}
    (exec : (reference R config).exec c s std r t) (notWrite : ∀ item, c ≠ .write item) : OnlyControl s.2 t.2 := by
  obtain ⟨es, run, rfl, behaved⟩ := exec
  cases c with
  | read => exact (exec_read run behaved).quiet
  | flush => exact (exec_flush run behaved).onlyControl
  | close frame =>
    rcases exec_close run behaved with ⟨-, -, -, -, -, same⟩ | ⟨-, spec⟩ | ⟨-, spec⟩
    · exact same ▸ .refl _
    · obtain ⟨queued, log, control⟩ := spec.onlyControl
      refine ⟨(.control, Reference.frame config.role (.close frame)) :: queued, ?_, ?_⟩
      · rw [log, Buffer.queue, List.append_assoc, List.singleton_append]
      · exact List.forall_mem_cons.mpr ⟨rfl, control⟩
    · exact spec.onlyControl
  | write item => exact (notWrite item rfl).elim
  | start | handshake =>
    obtain ⟨-, -, same⟩ := Exec.return_iff.mp run
    exact same ▸ .refl _

/-- Right after a close of our own the flush succeeds or blocks. -/
private theorem taken_of_closing {code : Option CloseFrame} {p : Protocol} {std : List StdEvent} {u : Buffer}
    {r : Except WsError Unit} {phase : Phase} (ends : FlushEnds config (closing code p) std u r phase) :
    writeTaken r = true := by
  cases ends with
  | flushed => rfl
  | closed server => exact (Bool.noConfusion server.2)
  | blocked e kind => exact WsError.isWouldBlock_iff.mpr ⟨e, rfl, kind⟩

/-- What a write queues for its message: the frame if the write was taken, and nothing otherwise. -/
private theorem queued_of_write {item : Message} {std : List StdEvent} {r : Except WsError Unit}
    (ends : WriteEnds config item s.1 s.2 std r t.1 t.2) :
    ∃ controls,
      t.2.log = s.2.log ++ ((if writeTaken r then [(origin item, frame config.role item)] else []) ++ controls) ∧
      ∀ entry ∈ controls, entry.1 = .control := by
  obtain ⟨p, s⟩ := s
  obtain ⟨p', t⟩ := t
  dsimp only at ends ⊢
  cases ends with
  | rejected e inactive kind other silent =>
    have untaken : writeTaken (.error e) = false := WsError.isWouldBlock_of_not_io kind
    exact ⟨[], by simp [untaken], by simp⟩
  | full | closeFull => exact ⟨[], by simp [writeTaken, WsError.isWouldBlock], by simp⟩
  | closed code same active _ _ _ flush =>
    refine ⟨replyEntries (closing code p), ?_, fun entry member => ?_⟩
    · rw [taken_of_closing flush.ends, flush.log, same]
      exact List.append_assoc ..
    · obtain ⟨bytes, -, rfl⟩ := List.mem_map.mp member
      rfl
  | queued active _ _ _ log ends =>
    have taken : writeTaken r = true := by
      rcases ends with ⟨rfl, -⟩ | ⟨e, rfl, kind⟩
      · rfl
      · exact WsError.isWouldBlock_iff.mpr ⟨e, rfl, kind⟩
    exact ⟨[], by simp [taken, log], by simp⟩

/-- What the reference encodes a message as. -/
def Encodes (config : Reference.Config) (item : Message) (bytes : Bytes) : Prop := bytes = frame config.role item

private theorem userMessages_origin (item : Message) (bytes : Bytes) :
    userMessages [(origin item, bytes)] = if item.isPong then [] else [item] := by
  cases item <;> rfl

private theorem flushEmpties {std : List StdEvent} {r : Except WsError Unit}
    (exec : (reference R config).exec .flush s std r t) (done : r = .ok () ∨ r = .error .connectionClosed) :
    t.2.out = [] := by
  obtain ⟨es, run, rfl, behaved⟩ := exec
  have ends := (exec_flush run behaved).ends
  rcases done with rfl | rfl
  · exact ends.of_ok.2
  · exact ends.of_closed.2

theorem reference_queuesOnce (R : HandshakeRole) (config : Reference.Config) :
    QueuesOnce (referenceBuffer R config) (Encodes config) where
  queues := by
    intro c s std r t new exec logged
    by_cases write : ∃ item, c = .write item
    · obtain ⟨item, rfl⟩ := write
      obtain ⟨es, run, rfl, behaved⟩ := exec
      obtain ⟨controls, log, control⟩ := queued_of_write (exec_write run behaved)
      rw [new_eq logged log, userMessages_append, userMessages_of_control control, List.append_nil, queuedBy]
      cases writeTaken r with
      | false => rfl
      | true => cases pong : item.isPong <;> simp [userMessages_origin, pong]
    · have quiet := onlyControl_of_exec exec fun item same => write ⟨item, same⟩
      rw [userMessages_of_control (control_of_onlyControl quiet logged)]
      cases c with
      | write item => exact (write ⟨item, rfl⟩).elim
      | _ => rfl
  encodes := by
    intro c s std r t new exec logged item bytes member
    by_cases write : ∃ item, c = .write item
    · obtain ⟨item', rfl⟩ := write
      obtain ⟨es, run, rfl, behaved⟩ := exec
      obtain ⟨controls, log, control⟩ := queued_of_write (exec_write run behaved)
      rw [new_eq logged log, List.mem_append] at member
      rcases member with queued | member
      · split_ifs at queued
        · obtain ⟨same, rfl⟩ := Prod.mk.inj (List.mem_singleton.mp queued)
          rw [origin] at same
          split_ifs at same
          rw [Origin.user.inj same, Encodes]
        · cases queued
      · cases control _ member
    · have quiet := onlyControl_of_exec exec fun item same => write ⟨item, same⟩
      cases control_of_onlyControl quiet logged _ member
  flushEmpties := fun exec done => flushEmpties exec done

theorem reference_closesOnce (R : HandshakeRole) (config : Reference.Config) :
    ClosesOnce (referenceLifecycle R config) fun s => s.1.closes where
  closeOfActive := by
    rintro c s t std r active (⟨es, run, rfl, behaved⟩ | ⟨es, run, rfl, behaved⟩)
    · rcases exec_close run behaved with ⟨-, -, -, -, left, -⟩ | ⟨-, spec⟩ | ⟨inactive, -⟩
      · exact ⟨by simp [referenceLifecycle, left, leaving], .inl (by rw [left]; rfl)⟩
      · exact ⟨fun still => (nomatch spec.ends.active still), .inr spec.closes⟩
      · exact (inactive active).elim
    · have ends : WriteEnds config (.close c) s.1 s.2 (stdEvents es) r t.1 t.2 := exec_write run behaved
      exact ends.closes_of_close active
  closeOfInactive := by
    intro c s t std r inactive
    have same : Reference.close config .control c s.1 = Reference.flush config s.1 := if_neg inactive
    simp only [reference, machine, same]
  writeOfInactive := by
    rintro item s t std r inactive ⟨es, run, rfl, behaved⟩
    obtain ⟨same, same', silent, e, rfl, kind⟩ := (exec_write run behaved).of_inactive inactive
    exact ⟨Prod.ext same same', silent, e, rfl, WsError.isWouldBlock_of_not_io kind⟩
  writeOther := by
    rintro item s t std r other ⟨es, run, rfl, behaved⟩
    exact (exec_write run behaved).closes_of_other other
  flushKeeps := by
    rintro s t std r ⟨es, run, rfl, behaved⟩
    exact (exec_flush run behaved).closes
  readReplies := by
    rintro s t std r ⟨es, run, rfl, behaved⟩
    exact (exec_read run behaved).closes

theorem reference_buffers (R : HandshakeRole) (config : Reference.Config) :
    Buffers (referenceLifecycle R config) (referenceBuffer R config) config.writeBufferSize
      fun item => (frame config.role item).length where
  writeQueues := by
    rintro item s std t new r ⟨es, run, rfl, behaved⟩ logged
    obtain ⟨controls, log, control⟩ := queued_of_write (exec_write run behaved)
    rw [new_eq logged log, List.flatMap_append, userBytes_append, userBytes_of_control control, Nat.add_zero]
    split_ifs
    · exact (userBytes_le_length _).trans (by simp [Entry.bytes])
    · exact Nat.zero_le _
  rejected := by
    rintro item s std t new e ⟨es, run, rfl, behaved⟩ notIo logged
    obtain ⟨controls, log, control⟩ := queued_of_write (exec_write run behaved)
    have untaken : writeTaken (.error e) = false := WsError.isWouldBlock_of_not_io notIo
    rw [new_eq logged log, untaken]
    simpa using userBytes_of_control control
  othersQueue := by
    intro c s std r t new exec notWrite logged
    exact userBytes_of_control (control_of_onlyControl (onlyControl_of_exec exec notWrite) logged)
  writeOk := by
    rintro item s std t ⟨es, run, rfl, behaved⟩
    exact (exec_write run behaved).length_of_ok
  writeOfInactive := by
    rintro item s std t r inactive ⟨es, run, rfl, behaved⟩
    exact ((exec_write run behaved).of_inactive inactive).2.2.2
  flushEmpties := fun exec done => flushEmpties exec done

end Assumptions

/-- A call of the reference, from a replay of its program and the polls that served it. -/
theorem reference_calls {c : Call R} {s t : Protocol × Buffer} {io : List IoEvent} {r : c.Answer}
    (replayed : replay? (machine config c s.1) s.2 (io.map Prod.fst) = some ((r, t.1), t.2))
    (behaved : ∀ event ∈ io, event.1.WellBehaved) (served : ∀ event ∈ io, Performs event) :
    (reference R config).Calls c s io r t := by
  obtain ⟨es, run, events⟩ := exec_of_replay replayed
  exact ⟨⟨es, run, events, List.forall_mem_map.mpr behaved⟩, served⟩

end TokioTungstenite
