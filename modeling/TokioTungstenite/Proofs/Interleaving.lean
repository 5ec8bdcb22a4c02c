import TokioTungstenite.Execution.Simulation
import TokioTungstenite.Proofs.Wakeup

/-! # Interleavings are runs of whole operations

Leaving out the firings, an interleaving is a run of whole operations, each an execution of its program, and every
such run has interleavings. The two systems simulate each other: the serial one takes an operation when the
interleaved one answers it, and owes until then what the operation has shown. So what is proved of whole
operations holds of every interleaving.
-/

namespace TokioTungstenite

open Execution

variable {R : HandshakeRole}

/-! ## Whole operations -/

/-- What is observed of one outer operation. -/
structure OuterLabel (R : HandshakeRole) where
  use : Use
  events : List (OuterEvent R)
  reply : Reply R

/-- One outer operation, run to its answer. -/
def OuterStep (T : Tungstenite R) (s : Owner R × T.State) (label : OuterLabel R) (t : Owner R × T.State) : Prop :=
  ∃ program, s.1.start label.use = some program ∧ Exec T.handler program s.2 label.events (label.reply, t.1) t.2

/-- Any number of outer operations. -/
abbrev OuterRun (T : Tungstenite R) : Owner R × T.State → List (OuterLabel R) → Owner R × T.State → Prop :=
  Path (OuterStep T)

/-! ## What both systems show -/

/-- What is heard of an outer operation, in the order it happens. -/
inductive Heard (R : HandshakeRole)
  | invoke (use : Use)
  | register (slot : Slot) (waker : Waker)
  | enter (c : Call R)
  | io (event : IoEvent)
  | leave (c : Call R) (r : c.Answer)
  | answer (reply : Reply R)

/-- Firings and wakes are not heard, nor is which sources a poll armed. -/
def MicroLabel.heard {E : Type} : MicroLabel R E → List (Heard R)
  | .invoke use => [.invoke use]
  | .register slot waker => [.register slot waker]
  | .enter c => [.enter c]
  | .io event _ => [.io event]
  | .leave c r => [.leave c r]
  | .answer reply => [.answer reply]
  | .fire _ _ | .wake _ _ => []

def OuterEvent.heard : OuterEvent R → List (Heard R)
  | .register proxy slot waker => [.register (proxy, slot) waker]
  | .call c io r => .enter c :: (io.map .io ++ [.leave c r])

def OuterLabel.heard (label : OuterLabel R) : List (Heard R) :=
  .invoke label.use :: (label.events.flatMap OuterEvent.heard ++ [.answer label.reply])

section Simulations

variable {T : Tungstenite R} {E : Type}

/-! ## Interleavings, in series -/

/-- Whatever completes `rest` completes the program that has left the events `done`. -/
def Completes (T : Tungstenite R) (program : Program (outer R) (Reply R × Owner R)) (s : T.State)
    (done : List (OuterEvent R)) (inner : T.State) (rest : Program (outer R) (Reply R × Owner R)) : Prop :=
  ∀ es value t, Exec T.handler rest inner es value t → Exec T.handler program s (done ++ es) value t

section Completes

variable {program : Program (outer R) (Reply R × Owner R)} {s inner : T.State} {done : List (OuterEvent R)}

theorem Completes.start : Completes T program s [] s program := fun _ _ _ run => run

theorem Completes.register {proxy : Proxy} {kind : ContextWaker} {waker : Waker}
    {next : Unit → Program (outer R) (Reply R × Owner R)}
    (completes : Completes T program s done inner (.perform (.register proxy kind waker) next)) :
    Completes T program s (done ++ [.register proxy kind waker]) inner (next ()) := by
  intro es value t run
  rw [List.append_assoc]
  exact completes _ value t (.perform ⟨rfl, rfl⟩ run)

theorem Completes.call {c : Call R} {next : c.Answer → Program (outer R) (Reply R × Owner R)} {io : List IoEvent}
    {r : c.Answer} {after : T.State} (completes : Completes T program s done inner (.perform (.call c) next))
    (calls : T.Calls c inner io r after) : Completes T program s (done ++ [.call c io r]) after (next r) := by
  intro es value t run
  rw [List.append_assoc]
  exact completes _ value t (.perform ⟨io, rfl, calls⟩ run)

end Completes

/-- Where the interleaved task stands: between operations, or in one that began at the serial state and has shown
what is owed. -/
inductive Stands (cfg : Config T E) : List (Heard R) → Owner R × T.State → Prop
  | idle {owner : Owner R} : cfg.thread = .idle owner → Stands cfg [] (owner, cfg.inner)
  | running {owner : Owner R} {s : T.State} {use : Use} {program rest : Program (outer R) (Reply R × Owner R)}
      {done : List (OuterEvent R)} : cfg.thread = .running rest → owner.start use = some program →
      Completes T program s done cfg.inner rest →
      Stands cfg (.invoke use :: done.flatMap OuterEvent.heard) (owner, s)
  | calling {owner : Owner R} {s : T.State} {use : Use} {program : Program (outer R) (Reply R × Owner R)}
      {done : List (OuterEvent R)} {c : Call R} {std : List StdEvent}
      {next : c.Answer → Program (outer R) (Reply R × Owner R)} {io : List IoEvent} :
      cfg.thread = .calling c std next → owner.start use = some program →
      Completes T program s done cfg.inner (.perform (.call c) next) → io.map Prod.fst = std →
      (∀ event ∈ io, Performs event) →
      Stands cfg (.invoke use :: (done.flatMap OuterEvent.heard ++ .enter c :: io.map .io)) (owner, s)

variable {cfg next : Config T E} {label : MicroLabel R E} {owed : List (Heard R)} {a : Owner R × T.State}

/-- A step of the inner stream leaves the task where it stands. -/
private theorem Stands.frame (stands : Stands cfg owed a) (thread : next.thread = cfg.thread)
    (inner : next.inner = cfg.inner) : Stands next owed a := by
  cases stands with
  | idle idle =>
    rw [← inner]
    exact .idle (thread.trans idle)
  | running running starts completes => exact .running (thread.trans running) starts (inner ▸ completes)
  | calling calling starts completes made served =>
    exact .calling (thread.trans calling) starts (inner ▸ completes) made served

/-- A matched step without an operation of the serial system. -/
private theorem Stands.owing {heard owed' : List (Heard R)} (stands : Stands next owed' a)
    (same : owed ++ heard = owed') :
    ∃ seen owed' b, Observed (OuterStep T) OuterLabel.heard a seen b ∧ Stands next owed' b ∧
      owed ++ heard = seen ++ owed' :=
  ⟨[], owed', a, .nil a, stands, same⟩

variable [DecidableEq E]

/-- Every interleaved step is matched; only an answer takes an operation of the serial system. -/
theorem Stands.step (stands : Stands cfg owed a) (step : MicroStep T cfg label next) :
    ∃ seen owed' b, Observed (OuterStep T) OuterLabel.heard a seen b ∧ Stands next owed' b ∧
      owed ++ label.heard = seen ++ owed' := by
  cases step with
  | @invoke owner use program thread starts =>
    cases stands with
    | idle idle =>
      obtain rfl := Thread.idle.inj (idle.symm.trans thread)
      exact Stands.owing (.running rfl starts .start) rfl
    | running running => cases running.symm.trans thread
    | calling calling => cases calling.symm.trans thread
  | @register proxy kind waker rest thread =>
    cases stands with
    | idle idle => cases idle.symm.trans thread
    | calling calling => cases calling.symm.trans thread
    | running running starts completes =>
      obtain rfl := Thread.running.inj (running.symm.trans thread)
      refine Stands.owing (.running rfl starts completes.register) ?_
      rw [List.flatMap_append, List.flatMap_singleton, List.cons_append]
      rfl
  | @enter c rest thread =>
    cases stands with
    | idle idle => cases idle.symm.trans thread
    | calling calling => cases calling.symm.trans thread
    | running running starts completes =>
      obtain rfl := Thread.running.inj (running.symm.trans thread)
      exact Stands.owing (.calling rfl starts completes (List.map_nil (f := Prod.fst)) (by simp)) rfl
  | @io c std rest event armed thread performs =>
    cases stands with
    | idle idle => cases idle.symm.trans thread
    | running running => cases running.symm.trans thread
    | @calling owner s use program done c' std' next' io calling starts completes made served =>
      cases calling.symm.trans thread
      have made' : (io ++ [event]).map Prod.fst = std ++ [event.1] := by
        rw [List.map_append, made, List.map_singleton]
      have served' := List.forall_mem_append.mpr ⟨served, List.forall_mem_singleton.mpr performs⟩
      refine Stands.owing (.calling rfl starts completes made' served') ?_
      simp [MicroLabel.heard]
  | @leave c std rest r inner thread exec =>
    cases stands with
    | idle idle => cases idle.symm.trans thread
    | running running => cases running.symm.trans thread
    | @calling owner s use program done c' std' next' io calling starts completes made served =>
      cases calling.symm.trans thread
      have calls : T.Calls c cfg.inner io r inner := ⟨by rw [made]; exact exec, served⟩
      refine Stands.owing (.running rfl starts (completes.call calls)) ?_
      simp [MicroLabel.heard, OuterEvent.heard]
  | @answer reply owner thread =>
    cases stands with
    | idle idle => cases idle.symm.trans thread
    | calling calling => cases calling.symm.trans thread
    | @running owner' s use program rest done running starts completes =>
      obtain rfl := Thread.running.inj (running.symm.trans thread)
      have exec := completes [] _ _ (.pure (reply, owner) cfg.inner)
      rw [List.append_nil] at exec
      have whole : OuterStep T (owner', s) ⟨use, done, reply⟩ (owner, cfg.inner) := ⟨program, starts, exec⟩
      exact ⟨_, [], _, .single whole, .idle rfl, (List.append_nil _).symm⟩
  | fire => exact Stands.owing (stands.frame rfl rfl) (List.append_nil _)
  | fireSource => exact Stands.owing (stands.frame rfl rfl) (List.append_nil _)
  | wake => exact Stands.owing (stands.frame rfl rfl) (List.append_nil _)

/-- Interleavings are simulated by whole operations. -/
def serialized (T : Tungstenite R) (E : Type) [DecidableEq E] :
    Simulation (MicroStep (E := E) T) MicroLabel.heard (OuterStep T) OuterLabel.heard where
  rel cfg owed a := Stands cfg owed a
  matched stands step := stands.step step

/-! ## Whole operations, interleaved -/

/-- The blocking operations of a call, one after the other. -/
private theorem observed_io {c : Call R} {std : List StdEvent}
    {rest : c.Answer → Program (outer R) (Reply R × Owner R)} {io : List IoEvent}
    (calling : cfg.thread = .calling c std rest) (served : ∀ event ∈ io, Performs event) :
    ∃ cfg' : Config T E, Observed (MicroStep T) MicroLabel.heard cfg (io.map .io) cfg' ∧
      cfg'.thread = .calling c (std ++ io.map Prod.fst) rest ∧ cfg'.inner = cfg.inner := by
  induction io generalizing cfg std with
  | nil => exact ⟨cfg, .nil cfg, by simpa using calling, rfl⟩
  | cons event io ih =>
    rw [List.forall_mem_cons] at served
    obtain ⟨polled, polls, calling', same⟩ : ∃ polled, MicroStep T cfg (.io event []) polled ∧
        polled.thread = .calling c (std ++ [event.1]) rest ∧ polled.inner = cfg.inner :=
      ⟨_, .io calling served.1, rfl, rfl⟩
    obtain ⟨cfg', more, reached, inner⟩ := ih calling' served.2
    exact ⟨cfg', (Observed.single polls).append more, by simpa using reached, inner.trans same⟩

/-- A call, from its entry to its answer. -/
private theorem observed_call {c : Call R} {rest : c.Answer → Program (outer R) (Reply R × Owner R)}
    {io : List IoEvent} {r : c.Answer} {after : T.State} (running : cfg.thread = .running (.perform (.call c) rest))
    (calls : T.Calls c cfg.inner io r after) :
    ∃ cfg' : Config T E, Observed (MicroStep T) MicroLabel.heard cfg (OuterEvent.call c io r).heard cfg' ∧
      cfg'.thread = .running (rest r) ∧ cfg'.inner = after := by
  obtain ⟨entered, enters, calling, same⟩ : ∃ entered, MicroStep T cfg (.enter c) entered ∧
      entered.thread = .calling c [] rest ∧ entered.inner = cfg.inner := ⟨_, .enter running, rfl, rfl⟩
  obtain ⟨polled, polls, reached, same'⟩ := observed_io calling calls.served
  have exec : T.exec c polled.inner (io.map Prod.fst) r after := by
    rw [same', same]
    exact calls.exec
  have leaves := MicroStep.leave reached exec
  exact ⟨_, (Observed.single enters).append (polls.append (.single leaves)), rfl, rfl⟩

/-- A program of the task is run without a firing. -/
theorem observed_exec {program : Program (outer R) (Reply R × Owner R)} {s t : T.State} {es : List (OuterEvent R)}
    {value : Reply R × Owner R} (run : Exec T.handler program s es value t) (running : cfg.thread = .running program)
    (inner : cfg.inner = s) :
    ∃ cfg' : Config T E, Observed (MicroStep T) MicroLabel.heard cfg (es.flatMap OuterEvent.heard) cfg' ∧
      cfg'.thread = .running (.pure value) ∧ cfg'.inner = t := by
  induction run generalizing cfg with
  | pure value s => exact ⟨cfg, .nil cfg, running, inner⟩
  | @perform op next s middle t e es answer value handled _ ih =>
    rw [List.flatMap_cons]
    cases op with
    | register proxy kind waker =>
      obtain ⟨rfl, rfl⟩ := handled
      obtain ⟨after, registers, running', same⟩ : ∃ after, MicroStep T cfg (.register (proxy, kind) waker) after ∧
          after.thread = .running (next ()) ∧ after.inner = cfg.inner := ⟨_, .register running, rfl, rfl⟩
      obtain ⟨cfg', more, reached, inner'⟩ := ih running' (same.trans inner)
      exact ⟨cfg', (Observed.single registers).append more, reached, inner'⟩
    | call c =>
      obtain ⟨io, rfl, calls⟩ := handled
      rw [← inner] at calls
      obtain ⟨after, called, running', inner'⟩ := observed_call running calls
      obtain ⟨cfg', more, reached, inner''⟩ := ih running' inner'
      exact ⟨cfg', called.append more, reached, inner''⟩

/-- An outer operation is run without a firing. -/
theorem observed_step {owner : Owner R} {s : T.State} {label : OuterLabel R} {b : Owner R × T.State}
    (step : OuterStep T (owner, s) label b) (idle : cfg.thread = .idle owner) (inner : cfg.inner = s) :
    ∃ cfg' : Config T E, Observed (MicroStep T) MicroLabel.heard cfg label.heard cfg' ∧
      cfg'.thread = .idle b.1 ∧ cfg'.inner = b.2 := by
  obtain ⟨program, starts, run⟩ := step
  obtain ⟨invoked, invokes, running, same⟩ : ∃ invoked, MicroStep T cfg (.invoke label.use) invoked ∧
      invoked.thread = .running program ∧ invoked.inner = cfg.inner := ⟨_, .invoke idle starts, rfl, rfl⟩
  obtain ⟨polled, runs, done, inner'⟩ := observed_exec run running (same.trans inner)
  have answers := MicroStep.answer done
  exact ⟨_, (Observed.single invokes).append (runs.append (.single answers)), rfl, inner'⟩

/-- Whole operations are simulated by interleavings, and nothing is ever owed. -/
def interleaved (T : Tungstenite R) (E : Type) [DecidableEq E] :
    Simulation (OuterStep T) OuterLabel.heard (MicroStep (E := E) T) MicroLabel.heard where
  rel a owed cfg := owed = [] ∧ cfg.thread = .idle a.1 ∧ cfg.inner = a.2
  matched := by
    rintro ⟨owner, s⟩ label b owed cfg ⟨rfl, idle, inner⟩ step
    obtain ⟨cfg', runs, idle', inner'⟩ := observed_step step idle inner
    exact ⟨_, [], cfg', runs, ⟨rfl, idle', inner'⟩, (List.append_nil _).symm⟩

/-- Between operations nothing is owed: an interleaving shows what a run of whole operations shows. -/
theorem serial_of_observed {owner owner' : Owner R} {seen : List (Heard R)} {cfg' : Config T E}
    (idle : cfg.thread = .idle owner) (observes : Observed (MicroStep T) MicroLabel.heard cfg seen cfg')
    (idle' : cfg'.thread = .idle owner') :
    Observed (OuterStep T) OuterLabel.heard (owner, cfg.inner) seen (owner', cfg'.inner) := by
  have settled : ∀ owed b, Stands cfg' owed b → owed = [] ∧ b = (owner', cfg'.inner) := by
    intro owed b stands
    cases stands with
    | idle same =>
      obtain rfl := Thread.idle.inj (same.symm.trans idle')
      exact ⟨rfl, rfl⟩
    | running running => cases running.symm.trans idle'
    | calling calling => cases calling.symm.trans idle'
  obtain ⟨b, serial, stands⟩ := (serialized T E).observed (.idle idle) (fun owed b stands => (settled owed b stands).1)
    observes
  obtain ⟨-, rfl⟩ := settled [] b stands
  exact serial

/-- Between operations, the interleavings show exactly what the runs of whole operations show. -/
theorem interleaving_iff_serial {owner owner' : Owner R} {seen : List (Heard R)} {t : T.State}
    (idle : cfg.thread = .idle owner) :
    (∃ cfg' : Config T E, Observed (MicroStep T) MicroLabel.heard cfg seen cfg' ∧ cfg'.thread = .idle owner' ∧
      cfg'.inner = t) ↔ Observed (OuterStep T) OuterLabel.heard (owner, cfg.inner) seen (owner', t) := by
  constructor
  · rintro ⟨cfg', observes, idle', rfl⟩
    exact serial_of_observed idle observes idle'
  · intro observes
    obtain ⟨cfg', runs, -, idle', inner⟩ := (interleaved T E).observed ⟨rfl, idle, rfl⟩ (fun _ _ rel => rel.1) observes
    exact ⟨cfg', runs, idle', inner⟩

end Simulations

/-- A reader's poll, in which the write proxy fires between the two registrations and takes the waker registered
first. -/
def stalledFired : List (MicroLabel noHandshake Unit) :=
  [.invoke (.stream (.pollNext ⟨1⟩)), .register (.writeWakerProxy, .read) ⟨1⟩, .fire none .writeWakerProxy,
    .wake (.writeWakerProxy, .read) (some ⟨1⟩), .register (.readWakerProxy, .read) ⟨1⟩,
    .wake (.writeWakerProxy, .write) none, .enter .read, .io stalledRead [()], .leave .read (.error (.io .wouldBlock)),
    .answer (.stream (.next .pending))]

theorem stalledFired_run :
    ∃ cfg', MicroRun stalled stalledStart stalledFired cfg' ∧ cfg'.thread = .idle (.stream WebSocketStream.new) := by
  have performs : Performs stalledRead := performs_read_iff.mpr ⟨_, rfl, rfl⟩
  have exec : stalled.exec .read () [stalledRead.1] (.error (.io .wouldBlock)) () := ⟨rfl, rfl⟩
  exact ⟨_, .cons (.invoke rfl rfl) (.cons (.register rfl) (.cons .fire (.cons (.wake (List.nil_append _).symm)
    (.cons (.register rfl) (.cons (.wake (List.nil_append _).symm) (.cons (.enter rfl) (.cons (.io rfl performs)
      (.cons (.leave rfl exec) (.single (.answer rfl)))))))))), rfl⟩

/-- In series, that is a poll without the firing. -/
theorem interleaving_iff_serial_stalled : Observed (OuterStep stalled) OuterLabel.heard
    (.stream WebSocketStream.new, ()) (stalledFired.flatMap MicroLabel.heard) (.stream WebSocketStream.new, ()) := by
  obtain ⟨cfg', run, idle⟩ := stalledFired_run
  exact (interleaving_iff_serial rfl).mp ⟨cfg', ⟨_, run, rfl⟩, idle, rfl⟩

end TokioTungstenite
