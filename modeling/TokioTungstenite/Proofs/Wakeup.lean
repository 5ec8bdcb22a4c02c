import TokioTungstenite.Model.Interleaving
import TokioTungstenite.Proofs.Reference

/-! # No wake-up is lost

An operation that answers `Pending` has put its waker in the slot of its side in both proxies before it entered
tungstenite, and nothing but a wake of that slot takes it out again before the next operation of that side. So
from the moment the call is entered, whichever proxy is fired wakes the task, and each source that a poll of the
operation armed keeps one of the two proxies until it fires.
-/

namespace TokioTungstenite

open Execution

variable {R : HandshakeRole}

/-! ## What an operation registers -/

/-- The operation registers no waker but the one of its context. -/
def OuterOp.For (context : Option (ContextWaker × Waker)) : OuterOp R → Prop
  | .register _ kind waker => context = some (kind, waker)
  | .call _ => True

section Registers

variable {context : Option (ContextWaker × Waker)} {kind : ContextWaker} {waker : Waker}

private theorem all_register (proxy : Proxy) :
    (register (R := R) proxy kind waker).All (OuterOp.For (some (kind, waker))) := .lift rfl

private theorem all_perform (c : Call R) : c.perform.All (OuterOp.For context) := .lift trivial

private theorem all_setWaker : (AllowStd.setWaker (R := R) kind waker).All (OuterOp.For (some (kind, waker))) := by
  cases kind <;> exact (all_register _).bind fun _ => all_register _

private theorem all_new : (AllowStd.new (R := R) waker).All (OuterOp.For (some (.read, waker))) :=
  (all_register _).bind fun _ => all_register _

private theorem all_withContext (c : Call R) : (WebSocketStream.withContext context c).All (OuterOp.For context) := by
  rcases context with _ | ⟨kind, waker⟩
  · exact all_perform c
  · exact all_setWaker.bind fun _ => all_perform c

private theorem all_run (flags : Flags) (op : Op) : (op.run (R := R) flags).All (OuterOp.For op.context) := by
  cases op with
  | pollNext cx =>
    refine .map _ ?_
    unfold WebSocketStream.pollNext
    split
    · trivial
    · exact (all_withContext _).bind fun _ => trivial
  | isTerminated => trivial
  | dropNext => trivial
  | pollReady cx =>
    refine .map _ ?_
    unfold WebSocketStream.pollReady
    split
    · trivial
    · exact (all_withContext _).bind fun _ => trivial
  | startSend item => exact .map _ ((all_withContext _).bind fun _ => trivial)
  | pollFlush cx => exact .map _ ((all_withContext _).bind fun _ => trivial)
  | pollClose cx =>
    refine .map _ ?_
    unfold WebSocketStream.pollClose
    dsimp only
    split <;> exact (all_withContext _).bind fun _ => trivial

private theorem all_awaitMid (mid : Option R.Mid) (cx : Waker) :
    (HandshakeFuture.awaitMid mid cx).All (OuterOp.For (some (.read, cx))) := by
  refine .bind ?_ fun resumed => ?_
  · cases mid with
    | none => trivial
    | some s =>
      refine all_setWaker.bind fun _ => (all_perform _).bind fun r => ?_
      rcases r with (mid | e) | r <;> trivial
  · rcases resumed with _ | ⟨_ | _, _⟩ <;> trivial

private theorem all_awaitStart (start : Option (R.F × R.S)) (cx : Waker) :
    (HandshakeFuture.awaitStart start cx).All (OuterOp.For (some (.read, cx))) := by
  refine .bind ?_ fun started => ?_
  · rcases start with _ | ⟨f, stream⟩
    · trivial
    · refine all_new.bind fun _ => (all_perform _).bind fun r => ?_
      rcases r with (mid | e) | r <;> trivial
  · rcases started with _ | ⟨(_ | r | s) | _, _⟩
    · trivial
    · trivial
    · trivial
    · exact all_awaitMid (some s) cx
    · trivial

/-- The program of an operation registers no waker but the one it was polled with, in the slots of its side. -/
theorem all_start {owner : Owner R} {use : Use} {program : Program (outer R) (Reply R × Owner R)}
    (starts : owner.start use = some program) : program.All (OuterOp.For use.context) := by
  cases owner with
  | handshake future =>
    cases use with
    | stream op => cases starts
    | handshake cx =>
      obtain rfl := Option.some.inj starts
      refine .map _ ?_
      cases future with
      | unresumed stream f => exact all_awaitStart _ cx
      | starting start => exact all_awaitStart _ cx
      | resuming mid => exact all_awaitMid _ cx
      | returned => trivial
  | stream flags =>
    cases use with
    | handshake cx => cases starts
    | stream op =>
      obtain rfl := Option.some.inj starts
      exact .map _ (all_run flags op)

end Registers

/-- Both registrations come first, then the call; or the operation answers at once, and not `Pending`. -/
def Opens (kind : ContextWaker) (waker : Waker) (program : Program (outer R) (Reply R × Owner R)) : Prop :=
  (∃ reply owner, program = .pure (reply, owner) ∧ reply.isPending = false) ∨
    ∃ c next, program = .perform (.register .writeWakerProxy kind waker) fun _ =>
      .perform (.register .readWakerProxy kind waker) fun _ => .perform (.call c) next

theorem opens_start {owner : Owner R} {use : Use} {program : Program (outer R) (Reply R × Owner R)}
    {kind : ContextWaker}
    {waker : Waker} (starts : owner.start use = some program) (context : use.context = some (kind, waker)) :
    Opens kind waker program := by
  cases owner with
  | handshake future =>
    cases use with
    | stream op => cases starts
    | handshake cx =>
      obtain rfl := Option.some.inj starts
      cases context
      rcases future with ⟨stream, f⟩ | (_ | ⟨f, stream⟩) | (_ | mid) | _
      · exact .inr ⟨.start f stream, _, rfl⟩
      · exact .inl ⟨_, _, rfl, rfl⟩
      · exact .inr ⟨.start f stream, _, rfl⟩
      · exact .inl ⟨_, _, rfl, rfl⟩
      · exact .inr ⟨.handshake mid, _, rfl⟩
      · exact .inl ⟨_, _, rfl, rfl⟩
  | stream flags =>
    cases use with
    | handshake cx => cases starts
    | stream op =>
      obtain rfl := Option.some.inj starts
      obtain ⟨closing, ended, ready⟩ := flags
      cases op with
      | pollNext cx =>
        cases context
        cases ended
        · exact .inr ⟨.read, _, rfl⟩
        · exact .inl ⟨_, _, rfl, rfl⟩
      | pollReady cx =>
        cases context
        cases ready
        · exact .inr ⟨.flush, _, rfl⟩
        · exact .inl ⟨_, _, rfl, rfl⟩
      | pollFlush cx =>
        cases context
        exact .inr ⟨.flush, _, rfl⟩
      | pollClose cx =>
        cases context
        cases closing
        · exact .inr ⟨.close none, _, rfl⟩
        · exact .inr ⟨.flush, _, rfl⟩
      | isTerminated => cases context
      | dropNext => cases context
      | startSend item => cases context

/-! ## What a waiting task rests on -/

section Waiting

variable {T : Tungstenite R} {E : Type} {kind : ContextWaker} {waker : Waker}

/-- The waker has been woken. -/
def Woken (waker : Waker) (past : List (MicroLabel R E)) : Prop := ∃ slot, .wake slot (some waker) ∈ past

/-- The operation puts no other waker into a slot of that side. -/
def OuterOp.Keeps (kind : ContextWaker) (waker : Waker) : OuterOp R → Prop
  | .register _ kind' waker' => kind' = kind → waker' = waker
  | .call _ => True

/-- Whatever the task has yet to do. -/
def Thread.All (good : OuterOp R → Prop) : Thread T → Prop
  | .idle _ => True
  | .running program => program.All good
  | .calling _ _ next => ∀ r, (next r).All good

/-- Both proxies hold the waker in the slot of its side, unless it has been woken, and the task will not replace it. -/
structure Guarded (kind : ContextWaker) (waker : Waker) (past : List (MicroLabel R E)) (cfg : Config T E) : Prop where
  keeps : cfg.thread.All (OuterOp.Keeps kind waker)
  held : Woken waker past ∨ ∀ proxy, cfg.slots (proxy, kind) = some waker

/-- A firing of the proxy has woken the waker or will. -/
def Owed (kind : ContextWaker) (waker : Waker) (proxy : Proxy) (past : List (MicroLabel R E)) (cfg : Config T E) :
    Prop :=
  Woken waker past ∨ ∃ slots ∈ cfg.firing, (proxy, kind) ∈ slots

/-- The source keeps a proxy, or fired the one it kept. -/
def Armed (kind : ContextWaker) (waker : Waker) (e : E) (past : List (MicroLabel R E)) (cfg : Config T E) : Prop :=
  (∃ proxy, cfg.sources e = some proxy) ∨ ∃ proxy, Owed kind waker proxy past cfg

/-- The operation begins none on that side. -/
def MicroLabel.Other (kind : ContextWaker) (label : MicroLabel R E) : Prop :=
  ∀ use, label = .invoke use → ∀ waker, use.context ≠ some (kind, waker)

variable {past : List (MicroLabel R E)} {cfg next : Config T E} {label : MicroLabel R E}

private theorem Woken.concat (woken : Woken waker past) : Woken waker (past ++ [label]) := by
  obtain ⟨slot, mem⟩ := woken
  exact ⟨slot, List.mem_append_left _ mem⟩

private theorem Woken.of_wake {slot : Slot} (holds : cfg.slots slot = some waker) :
    Woken waker (past ++ [.wake slot (cfg.slots slot)]) := by
  rw [holds]
  exact ⟨slot, List.mem_append_right _ (List.mem_singleton_self _)⟩

theorem keeps_of_for {context : Option (ContextWaker × Waker)} {op : OuterOp R}
    (side : ∀ waker', context = some (kind, waker') → waker' = waker) (registers : op.For context) :
    op.Keeps kind waker := by
  cases op with
  | call c => trivial
  | register proxy kind' waker' =>
    rintro rfl
    exact side waker' registers

/-- A slot that holds the waker keeps it while another is woken, and its own wake wakes the task. -/
private theorem held_of_wake {slot own : Slot} (held : Woken waker past ∨ cfg.slots own = some waker) :
    Woken waker (past ++ [.wake slot (cfg.slots slot)]) ∨ Function.update cfg.slots slot none own = some waker := by
  rcases held with woken | held
  · exact .inl woken.concat
  rcases eq_or_ne own slot with rfl | differ
  · exact .inl (.of_wake held)
  · exact .inr ((Function.update_of_ne differ _ _).trans held)

variable [DecidableEq E]

/-- Every step but the start of another operation on that side keeps the waker guarded. -/
theorem Guarded.step (guarded : Guarded kind waker past cfg) (step : MicroStep T cfg label next)
    (other : label.Other kind) :
    Guarded kind waker (past ++ [label]) next := by
  obtain ⟨keeps, held⟩ := guarded
  cases step with
  | @invoke owner use program thread starts =>
    refine ⟨(all_start starts).mono fun op => keeps_of_for ?_, held.imp_left .concat⟩
    intro waker' context
    exact (other use rfl waker' context).elim
  | @register proxy kind' waker' rest thread =>
    rw [thread] at keeps
    refine ⟨keeps.2 (), held.imp .concat fun held proxy' => ?_⟩
    rcases eq_or_ne (proxy', kind) (proxy, kind') with same | differ
    · obtain rfl := keeps.1 (congrArg Prod.snd same).symm
      exact (congrArg _ same).trans (Function.update_self ..)
    · exact (Function.update_of_ne differ _ _).trans (held proxy')
  | @enter c rest thread =>
    rw [thread] at keeps
    exact ⟨keeps.2, held.imp_left .concat⟩
  | io thread performs =>
    rw [thread] at keeps
    exact ⟨keeps, held.imp_left .concat⟩
  | leave thread exec =>
    rw [thread] at keeps
    exact ⟨keeps _, held.imp_left .concat⟩
  | answer thread => exact ⟨trivial, held.imp_left .concat⟩
  | fire => exact ⟨keeps, held.imp_left .concat⟩
  | fireSource => exact ⟨keeps, held.imp_left .concat⟩
  | @wake slot rest before after firing =>
    have each (proxy : Proxy) : Woken waker past ∨ cfg.slots (proxy, kind) = some waker :=
      held.imp_right fun held => held proxy
    exact ⟨keeps, forall_or_left.mp fun proxy => held_of_wake (each proxy)⟩

/-- A firing in progress stays owed until it reaches the slot, and there it finds the waker. -/
theorem Owed.step {proxy : Proxy} (owed : Owed kind waker proxy past cfg) (guarded : Guarded kind waker past cfg)
    (step : MicroStep T cfg label next) : Owed kind waker proxy (past ++ [label]) next := by
  rcases owed with woken | ⟨slots, mem, owes⟩
  · exact .inl woken.concat
  cases step with
  | fire => exact .inr ⟨slots, List.mem_cons_of_mem _ mem, owes⟩
  | fireSource => exact .inr ⟨slots, List.mem_cons_of_mem _ mem, owes⟩
  | @wake slot rest before after firing =>
    rcases eq_or_ne slot (proxy, kind) with rfl | differ
    · exact .inl (guarded.held.elim .concat fun held => .of_wake (held proxy))
    · rw [firing] at mem
      rcases List.mem_append.mp mem with first | later
      · exact .inr ⟨slots, List.mem_append_left _ first, owes⟩
      · rcases List.mem_cons.mp later with rfl | later
        · have owes := (List.mem_cons.mp owes).resolve_left differ.symm
          exact .inr ⟨rest, List.mem_append_right _ List.mem_cons_self, owes⟩
        · exact .inr ⟨slots, List.mem_append_right _ (List.mem_cons_of_mem _ later), owes⟩
  | _ => exact .inr ⟨slots, mem, owes⟩

/-- A source that keeps a proxy keeps one until it fires it. -/
theorem Armed.step {e : E} (armed : Armed kind waker e past cfg) (guarded : Guarded kind waker past cfg)
    (step : MicroStep T cfg label next) : Armed kind waker e (past ++ [label]) next := by
  rcases armed with ⟨proxy, kept⟩ | ⟨proxy, owed⟩
  · cases step with
    | @io c std rest event sources thread performs =>
      refine .inl ?_
      by_cases rearmed : e ∈ sources
      · exact ⟨_, if_pos rearmed⟩
      · exact ⟨proxy, (if_neg rearmed).trans kept⟩
    | @fireSource e' proxy' fires =>
      rcases eq_or_ne e e' with rfl | differ
      · refine .inr ⟨proxy', .inr ⟨_, List.mem_cons_self, ?_⟩⟩
        cases kind <;> simp [Proxy.wakeByRef]
      · exact .inl ⟨proxy, (Function.update_of_ne differ _ _).trans kept⟩
    | _ => exact .inl ⟨proxy, kept⟩
  · exact .inr ⟨proxy, owed.step guarded step⟩

/-- The operation has yet to register in one of the proxies. -/
inductive Opening (kind : ContextWaker) (waker : Waker) (past : List (MicroLabel R E)) (cfg : Config T E) : Prop
  | fresh {program : Program (outer R) (Reply R × Owner R)} : cfg.thread = .running program →
      program.All (OuterOp.Keeps kind waker) → Opens kind waker program → Opening kind waker past cfg
  | half {c : Call R} {rest : c.Answer → Program (outer R) (Reply R × Owner R)} :
      cfg.thread = .running (.perform (.register .readWakerProxy kind waker) fun _ => .perform (.call c) rest) →
      (∀ r, (rest r).All (OuterOp.Keeps kind waker)) →
      Woken waker past ∨ cfg.slots (.writeWakerProxy, kind) = some waker → Opening kind waker past cfg

omit [DecidableEq E] in
private theorem Opening.running (opening : Opening kind waker past cfg) : ∃ program, cfg.thread = .running program := by
  cases opening with
  | fresh thread => exact ⟨_, thread⟩
  | half thread => exact ⟨_, thread⟩

omit [DecidableEq E] in
/-- A step of the inner stream that only begins a firing. -/
private theorem Opening.frame (opening : Opening kind waker past cfg) (thread : next.thread = cfg.thread)
    (slots : next.slots = cfg.slots) : Opening kind waker (past ++ [label]) next := by
  cases opening with
  | fresh running keeps opens => exact .fresh (thread.trans running) keeps opens
  | half running keeps held => exact .half (thread.trans running) keeps (slots ▸ held.imp_left .concat)

omit [DecidableEq E] in
/-- Each of the two registrations leads on, and after the second both proxies hold the waker. -/
private theorem Opening.register {proxy : Proxy} {kind' : ContextWaker} {waker' : Waker}
    {rest : Unit → Program (outer R) (Reply R × Owner R)} (opening : Opening kind waker past cfg)
    (thread : cfg.thread = .running (.perform (.register proxy kind' waker') rest))
    (after : next.thread = .running (rest ()))
    (slots : next.slots = Function.update cfg.slots (proxy, kind') (some waker')) :
    Opening kind waker (past ++ [label]) next ∨ Guarded kind waker (past ++ [label]) next := by
  cases opening with
  | fresh running keeps opens =>
    obtain rfl := Thread.running.inj (thread.symm.trans running)
    rcases opens with ⟨reply', owner', same, _⟩ | ⟨c, rest', same⟩
    · cases same
    · cases same
      have held : next.slots (.writeWakerProxy, kind) = some waker := by rw [slots, Function.update_self]
      exact .inl (.half after (keeps.2 () |>.2 () |>.2) (.inr held))
  | half running keeps held =>
    cases thread.symm.trans running
    refine .inr ⟨by rw [after]; exact ⟨trivial, keeps⟩, held.imp .concat fun held proxy => ?_⟩
    rw [slots]
    cases proxy with
    | readWakerProxy => exact Function.update_self ..
    | writeWakerProxy =>
      have differ : (Proxy.writeWakerProxy, kind) ≠ (Proxy.readWakerProxy, kind) := by simp
      exact (Function.update_of_ne differ (some waker) cfg.slots).trans held

/-- The registrations of an operation, with firings between them; an operation that has not made them does not
answer `Pending`. -/
theorem Opening.step (opening : Opening kind waker past cfg) (step : MicroStep T cfg label next)
    (pending : ∀ reply, label = .answer reply → reply.isPending = true) :
    Opening kind waker (past ++ [label]) next ∨ Guarded kind waker (past ++ [label]) next := by
  have busy := opening.running
  cases step with
  | invoke thread =>
    obtain ⟨program, running⟩ := busy
    cases thread.symm.trans running
  | io thread =>
    obtain ⟨program, running⟩ := busy
    cases thread.symm.trans running
  | leave thread =>
    obtain ⟨program, running⟩ := busy
    cases thread.symm.trans running
  | fire => exact .inl (opening.frame rfl rfl)
  | fireSource => exact .inl (opening.frame rfl rfl)
  | @answer reply owner thread =>
    cases opening with
    | half running => cases thread.symm.trans running
    | fresh running _ opens =>
      obtain rfl := Thread.running.inj (thread.symm.trans running)
      rcases opens with ⟨reply', owner', same, answers⟩ | ⟨c, rest, same⟩
      · cases same
        exact absurd (pending reply rfl) (by simp [answers])
      · cases same
  | @enter c rest thread =>
    cases opening with
    | half running => cases thread.symm.trans running
    | fresh running _ opens =>
      obtain rfl := Thread.running.inj (thread.symm.trans running)
      rcases opens with ⟨reply', owner', same, _⟩ | ⟨c', rest', same⟩ <;> cases same
  | register thread => exact opening.register thread rfl rfl
  | @wake slot rest before after firing =>
    cases opening with
    | fresh running keeps opens => exact .inl (.fresh running keeps opens)
    | half running keeps held => exact .inl (.half running keeps (held_of_wake held))

variable {labels during later : List (MicroLabel R E)} {t : Config T E}

/-- What every step keeps of a guarded waker is kept by every run. -/
private theorem Guarded.carry (guarded : Guarded kind waker past cfg) (good : List (MicroLabel R E) → Config T E → Prop)
    (keeps : ∀ past cfg label next, Guarded kind waker past cfg → good past cfg → MicroStep T cfg label next →
      good (past ++ [label]) next) (run : MicroRun T cfg labels t) (other : ∀ label ∈ labels, label.Other kind)
    (initial : good past cfg) : Guarded kind waker (past ++ labels) t ∧ good (past ++ labels) t := by
  induction run generalizing past with
  | nil => exact ⟨by simpa using guarded, by simpa using initial⟩
  | cons step _ ih =>
    rw [List.forall_mem_cons] at other
    rw [List.append_cons]
    exact ih (guarded.step step other.1) other.2 (keeps _ _ _ _ guarded initial step)

/-- A waker stays guarded until another operation of its side begins. -/
theorem Guarded.run (guarded : Guarded kind waker past cfg) (run : MicroRun T cfg labels t)
    (other : ∀ label ∈ labels, label.Other kind) : Guarded kind waker (past ++ labels) t :=
  (guarded.carry (fun _ _ => True) (fun _ _ _ _ _ _ _ => trivial) run other trivial).1

theorem Owed.run {proxy : Proxy} (owed : Owed kind waker proxy past cfg) (guarded : Guarded kind waker past cfg)
    (run : MicroRun T cfg labels t) (other : ∀ label ∈ labels, label.Other kind) :
    Owed kind waker proxy (past ++ labels) t :=
  (guarded.carry (Owed kind waker proxy) (fun _ _ _ _ guarded owed step => owed.step guarded step) run other owed).2

theorem Armed.run {e : E} (armed : Armed kind waker e past cfg) (guarded : Guarded kind waker past cfg)
    (run : MicroRun T cfg labels t) (other : ∀ label ∈ labels, label.Other kind) :
    Armed kind waker e (past ++ labels) t :=
  (guarded.carry (Armed kind waker e) (fun _ _ _ _ guarded armed step => armed.step guarded step) run other armed).2

/-- Until its answer, an operation is opening or its waker is guarded. -/
private theorem Opening.run (opening : Opening kind waker past cfg) (run : MicroRun T cfg during t)
    (other : ∀ label ∈ during, label.Other kind) (own : ∀ label ∈ during, label.isAnswer = false) :
    Opening kind waker (past ++ during) t ∨ Guarded kind waker (past ++ during) t := by
  induction run generalizing past with
  | nil => exact .inl (by simpa using opening)
  | @cons cfg middle t label rest step tail ih =>
    rw [List.forall_mem_cons] at other own
    rw [List.append_cons]
    rcases opening.step step (by rintro reply rfl; cases own.1) with opening | guarded
    · exact ih opening other.2 own.2
    · exact .inr (guarded.run tail other.2)

/-- Once the operation is past its registrations, its waker is guarded. -/
theorem Opening.guarded (opening : Opening kind waker past cfg) (run : MicroRun T cfg during t)
    (step : MicroStep T t label next) (other : ∀ label ∈ during, label.Other kind)
    (own : ∀ label ∈ during, label.isAnswer = false) (here : label.Other kind)
    (pending : ∀ reply, label = .answer reply → reply.isPending = true)
    (through : ∀ program, next.thread ≠ .running program) :
    Guarded kind waker (past ++ during ++ [label]) next := by
  rcases opening.run run other own with opening | guarded
  · rcases opening.step step pending with opening | guarded
    · obtain ⟨program, running⟩ := opening.running
      exact (through program running).elim
    · exact guarded
  · exact guarded.step step here

/-- What a task that was polled with `waker` on one side, and answered `Pending`, rests on; `past` is everything
since that poll began and `during` its part up to the answer. -/
structure Wakes (kind : ContextWaker) (waker : Waker) (during past : List (MicroLabel R E)) (t : Config T E) :
    Prop where
  /-- The task has been woken, or whichever proxy fires next wakes it. -/
  held : Woken waker past ∨ ∀ proxy, t.slots (proxy, kind) = some waker
  /-- A firing begun after the poll entered its call has woken the task, or has yet to reach its slot. -/
  fired : ∀ before c after, past = before ++ .enter c :: after → ∀ source proxy, .fire source proxy ∈ after →
    Owed kind waker proxy past t
  /-- A source the poll armed keeps a proxy, or fired one: no source forgets the task. -/
  armed : ∀ event sources, .io event sources ∈ during → ∀ e ∈ sources, Armed kind waker e past t

/-- A firing is owed from its start. -/
private theorem Guarded.fired {proxy : Proxy} {source : Option E} (guarded : Guarded kind waker past cfg)
    (run : MicroRun T cfg labels t) (other : ∀ label ∈ labels, label.Other kind) (fires : .fire source proxy ∈ labels) :
    Owed kind waker proxy (past ++ labels) t := by
  obtain ⟨first, second, rfl⟩ := List.append_of_mem fires
  obtain ⟨x, y, left, step, right⟩ := run.cut
  rw [List.forall_mem_append, List.forall_mem_cons] at other
  have before := guarded.run left other.1
  have owed : Owed kind waker proxy (past ++ first ++ [.fire source proxy]) y := by
    have reached : (proxy, kind) ∈ proxy.wakeByRef := by cases kind <;> simp [Proxy.wakeByRef]
    cases step with
    | fire => exact .inr ⟨_, List.mem_cons_self, reached⟩
    | fireSource => exact .inr ⟨_, List.mem_cons_self, reached⟩
  simpa using owed.run (before.step step other.2.1) right other.2.2

/-- Once the operation entered its call its waker is guarded, up to its answer and from there on. -/
private theorem Opening.entered {reply : Reply R} {before after : List (MicroLabel R E)} {c : Call R}
    (opening : Opening kind waker past cfg) (run : MicroRun T cfg (during ++ .answer reply :: later) t)
    (pending : reply.isPending = true) (own : ∀ label ∈ during, label.isAnswer = false)
    (other : ∀ label ∈ during ++ later, label.Other kind)
    (cut : during ++ .answer reply :: later = before ++ .enter c :: after) :
    ∃ y, Guarded kind waker (past ++ before ++ [.enter c]) y ∧ MicroRun T y after t ∧
      ∀ label ∈ after, label.Other kind := by
  obtain ⟨own_other, later_other⟩ := List.forall_mem_append.mp other
  have answer_other : (MicroLabel.answer reply : MicroLabel R E).Other kind := by rintro use ⟨⟩
  have enter_other : (MicroLabel.enter c : MicroLabel R E).Other kind := by rintro use ⟨⟩
  rcases List.append_eq_append_iff.mp cut with ⟨more, rfl, rest⟩ | ⟨more, rfl, rest⟩
  · -- the call was entered by a later operation
    cases more with
    | nil => cases rest
    | cons first more =>
      obtain ⟨rfl, rfl⟩ := List.cons.inj rest
      obtain ⟨x, y, left, answers, right⟩ := run.cut
      have answered : Guarded kind waker (past ++ during ++ [.answer reply]) y := by
        refine opening.guarded left answers own_other own answer_other (by rintro reply' ⟨⟩; exact pending) ?_
        cases answers
        rintro program ⟨⟩
      obtain ⟨u, v, toEnter, enters, tail⟩ := right.cut
      obtain ⟨before_other, after_other⟩ := List.forall_mem_append.mp later_other
      have guarded := (answered.run toEnter before_other).step enters enter_other
      exact ⟨v, by simpa using guarded, tail, (List.forall_mem_cons.mp after_other).2⟩
  · -- the call was entered by the operation itself
    cases more with
    | nil => cases rest
    | cons first more =>
      obtain ⟨rfl, rfl⟩ := List.cons.inj rest
      rw [List.append_assoc] at run
      obtain ⟨u, v, toEnter, enters, tail⟩ := run.cut
      rw [List.forall_mem_append, List.forall_mem_cons] at own own_other
      refine ⟨v, ?_, tail, ?_⟩
      · refine opening.guarded toEnter enters own_other.1 own.1 enter_other (by rintro reply' ⟨⟩) ?_
        cases enters
        rintro program ⟨⟩
      · exact List.forall_mem_append.mpr ⟨own_other.2.2, List.forall_mem_cons.mpr ⟨answer_other, later_other⟩⟩

/-- No wake-up is lost between the task that reads and the task that writes. -/
theorem no_lost_wakeup {use : Use} {reply : Reply R} (context : use.context = some (kind, waker))
    (run : MicroRun T cfg (.invoke use :: (during ++ .answer reply :: later)) t) (pending : reply.isPending = true)
    (own : ∀ label ∈ during, label.isAnswer = false) (other : ∀ label ∈ during ++ later, label.Other kind) :
    Wakes kind waker during (.invoke use :: (during ++ .answer reply :: later)) t := by
  obtain ⟨start, invoked, run⟩ := Path.cons_iff.mp run
  have opening : Opening kind waker [.invoke use] start := by
    cases invoked with
    | invoke thread starts =>
      refine .fresh rfl ((all_start starts).mono fun op => keeps_of_for ?_) (opens_start starts context)
      intro waker' same
      exact (Prod.mk.inj (Option.some.inj (same.symm.trans context))).2
  obtain ⟨own_other, later_other⟩ := List.forall_mem_append.mp other
  obtain ⟨x, y, left, answers, right⟩ := run.cut
  have answered : Guarded kind waker ([.invoke use] ++ during ++ [.answer reply]) y := by
    refine opening.guarded left answers own_other own (by rintro use' ⟨⟩) (by rintro reply' ⟨⟩; exact pending) ?_
    cases answers
    rintro program ⟨⟩
  have since : [.invoke use] ++ during ++ [.answer reply] ++ later =
      .invoke use :: (during ++ .answer reply :: later) := by simp
  refine ⟨?_, ?_, ?_⟩
  · have guarded := answered.run right later_other
    rw [since] at guarded
    exact guarded.held
  · intro before c after cut source proxy fires
    cases before with
    | nil => cases cut
    | cons first before =>
      obtain ⟨rfl, split⟩ := List.cons.inj cut
      obtain ⟨z, guarded, tail, others⟩ := opening.entered run pending own other split
      have owed := guarded.fired tail others fires
      rw [split]
      simpa using owed
  · intro event sources polled e armed
    obtain ⟨first, second, rfl⟩ := List.append_of_mem polled
    obtain ⟨u, v, toPoll, polls, rest⟩ := left.cut
    rw [List.forall_mem_append, List.forall_mem_cons] at own own_other
    have guarded : Guarded kind waker ([.invoke use] ++ first ++ [.io event sources]) v := by
      refine opening.guarded toPoll polls own_other.1 own.1 own_other.2.1 (by rintro reply' ⟨⟩) ?_
      cases polls
      rintro program ⟨⟩
    have kept : Armed kind waker e ([.invoke use] ++ first ++ [.io event sources]) v := by
      cases polls with
      | io => exact .inl ⟨event.2.1.ctx, if_pos armed⟩
    have others : ∀ label ∈ second ++ .answer reply :: later, label.Other kind := by
      refine List.forall_mem_append.mpr ⟨own_other.2.2, List.forall_mem_cons.mpr ⟨?_, later_other⟩⟩
      rintro use' ⟨⟩
    simpa using kept.run guarded (rest.append (.cons answers right)) others

/-- The steps of an operation that makes one call with one inner poll, nothing in between. -/
def pollLabels (context : ContextWaker × Waker) (c : Call R) (event : IoEvent) (armed : List E) (r : c.Answer) :
    List (MicroLabel R E) :=
  [.register (.writeWakerProxy, context.1) context.2, .register (.readWakerProxy, context.1) context.2, .enter c,
    .io event armed, .leave c r]

/-- Where they lead. -/
def Config.polled (cfg : Config T E) (owner : Owner R) (context : ContextWaker × Waker) (event : IoEvent)
    (armed : List E) (inner : T.State) : Config T E where
  thread := .idle owner
  inner := inner
  slots := Function.update (Function.update cfg.slots (.writeWakerProxy, context.1) (some context.2))
    (.readWakerProxy, context.1) (some context.2)
  sources e := if e ∈ armed then some event.2.1.ctx else cfg.sources e
  firing := cfg.firing

theorem poll_run {owner owner' : Owner R} {use : Use} {context : ContextWaker × Waker} {c : Call R} {event : IoEvent}
    {armed : List E} {r : c.Answer} {next : c.Answer → Program (outer R) (Reply R × Owner R)} {reply : Reply R}
    {inner : T.State} (idle : cfg.thread = .idle owner)
    (starts : owner.start use = some (.perform (.register .writeWakerProxy context.1 context.2) fun _ =>
      .perform (.register .readWakerProxy context.1 context.2) fun _ => .perform (.call c) next))
    (performs : Performs event) (exec : T.exec c cfg.inner [event.1] r inner)
    (returns : next r = .pure (reply, owner')) :
    MicroRun T cfg (.invoke use :: (pollLabels context c event armed r ++ [.answer reply]))
      (cfg.polled owner' context event armed inner) :=
  .cons (.invoke idle starts) (.cons (.register rfl) (.cons (.register rfl) (.cons (.enter rfl)
    (.cons (.io rfl performs) (.cons (.leave rfl exec) (.single (.answer (congrArg Thread.running returns))))))))

end Waiting

/-! ## A reader and a writer on one socket -/

section Stalled

/-- A WebSocket whose stream blocks every read and every flush. -/
def stalled : Tungstenite noHandshake where
  State := Unit
  exec c _ std r _ :=
    match c with
    | .read => std = [⟨.read 1, .error .wouldBlock⟩] ∧ r = .error (.io .wouldBlock)
    | .flush => std = [⟨.flush, .error .wouldBlock⟩] ∧ r = .error (.io .wouldBlock)
    | _ => False

def stalledRead : IoEvent :=
  (⟨.read 1, .error .wouldBlock⟩, ⟨.pollRead .readWakerProxy 1, (⟨[], Nat.zero_le _⟩, .pending)⟩)

def stalledFlush : IoEvent := (⟨.flush, .error .wouldBlock⟩, ⟨.pollFlush .writeWakerProxy, .pending⟩)

def stalledStart : Config stalled Unit where
  thread := .idle (.stream WebSocketStream.new)
  inner := ()
  slots _ := none
  sources _ := none
  firing := []

/-- The reader's poll up to its answer, and the writer's poll. -/
def stalledReading : List (MicroLabel noHandshake Unit) :=
  pollLabels (.read, ⟨1⟩) .read stalledRead [()] (.error (.io .wouldBlock))

def stalledWriting : List (MicroLabel noHandshake Unit) :=
  .invoke (.stream (.pollFlush ⟨2⟩)) :: (pollLabels (.write, ⟨2⟩) .flush stalledFlush [()] (.error (.io .wouldBlock)) ++
    [.answer (.stream (.sink .pending))])

/-- The writer's poll overwrites the proxy the only source keeps; the source fires that one, and the firing
reaches the reader's slot. -/
def stalledLater : List (MicroLabel noHandshake Unit) :=
  stalledWriting ++ [.fire (some ()) .writeWakerProxy, .wake (.writeWakerProxy, .read) (some ⟨1⟩)]

/-- Where the two polls lead. -/
def stalledReader : Config stalled Unit :=
  stalledStart.polled (.stream WebSocketStream.new) (.read, ⟨1⟩) stalledRead [()] ()

def stalledWriter : Config stalled Unit :=
  stalledReader.polled (.stream WebSocketStream.new) (.write, ⟨2⟩) stalledFlush [()] ()

private theorem stalled_run : ∃ t, MicroRun stalled stalledStart
    (.invoke (.stream (.pollNext ⟨1⟩)) :: (stalledReading ++ .answer (.stream (.next .pending)) :: stalledLater)) t := by
  have reads : MicroRun stalled stalledStart
      (.invoke (.stream (.pollNext ⟨1⟩)) :: (stalledReading ++ [.answer (.stream (.next .pending))])) stalledReader :=
    poll_run rfl rfl (performs_read_iff.mpr ⟨_, rfl, rfl⟩) ⟨rfl, rfl⟩ rfl
  have writes : MicroRun stalled stalledReader stalledWriting stalledWriter :=
    poll_run rfl rfl (performs_flush_iff.mpr ⟨_, rfl, rfl⟩) ⟨rfl, rfl⟩ rfl
  have fires : ∃ t, MicroRun stalled stalledWriter
      [.fire (some ()) .writeWakerProxy, .wake (.writeWakerProxy, .read) (some ⟨1⟩)] t :=
    ⟨_, .cons (.fireSource rfl) (.single (.wake (List.nil_append _).symm))⟩
  obtain ⟨t, fires⟩ := fires
  exact ⟨t, by simpa [stalledLater] using reads.append (writes.append fires)⟩

/-- The reader polls, then the writer does, and the socket fires the proxy the writer's poll handed it. -/
theorem no_lost_wakeup_stalled : ∃ t : Config stalled Unit, Wakes .read ⟨1⟩ stalledReading
    (.invoke (.stream (.pollNext ⟨1⟩)) :: (stalledReading ++ .answer (.stream (.next .pending)) :: stalledLater)) t := by
  obtain ⟨t, run⟩ := stalled_run
  refine ⟨t, no_lost_wakeup rfl run rfl (by decide) ?_⟩
  rintro label mem use rfl waker context
  obtain rfl : use = .stream (.pollFlush ⟨2⟩) := by
    simpa [stalledReading, stalledLater, stalledWriting, pollLabels] using mem
  cases context

end Stalled

end TokioTungstenite
