import Mathlib.Algebra.GroupWithZero.Nat
import TokioTungstenite.Execution.Accounting
import TokioTungstenite.Proofs.Interleaving

/-! # Who is woken, and how often

A firing wakes the task that polled last, never one whose waker has been replaced, and never a task of the other
side in its place. Each registration is consumed by at most one wake, so however often the proxies fire, a poll
leads to at most one wake from each.
-/

namespace TokioTungstenite

open Execution

variable {R : HandshakeRole} {T : Tungstenite R} {E : Type}

/-! ## The task that polled last -/

/-- The label puts a waker into the slot or takes it out. -/
def MicroLabel.Touches (slot : Slot) : MicroLabel R E → Prop
  | .register slot' _ | .wake slot' _ => slot' = slot
  | _ => False

/-- The operation in progress: it was invoked after all others. -/
def Invoked (use : Use) (past : List (MicroLabel R E)) : Prop :=
  ∃ before during, past = before ++ .invoke use :: during ∧ ∀ use', .invoke use' ∉ during

/-- The last to touch the slot was an operation polled with the waker, on the side of the slot. -/
def Latest (slot : Slot) (waker : Waker) (past : List (MicroLabel R E)) : Prop :=
  ∃ before use after, past = before ++ .register slot waker :: after ∧ Invoked use before ∧
    use.context = some (slot.2, waker) ∧ ∀ label ∈ after, ¬ label.Touches slot

/-- The task registers no waker but that of the operation in progress. -/
def Thread.Serves (past : List (MicroLabel R E)) : Thread T → Prop
  | .idle _ => True
  | .running program => ∃ use, Invoked use past ∧ program.All (OuterOp.For use.context)
  | .calling _ _ next => ∃ use, Invoked use past ∧ ∀ r, (next r).All (OuterOp.For use.context)

/-- A slot holds the waker put there last. -/
structure Attributed (past : List (MicroLabel R E)) (cfg : Config T E) : Prop where
  serves : cfg.thread.Serves past
  latest : ∀ slot waker, cfg.slots slot = some waker → Latest slot waker past

section Concat

variable {past : List (MicroLabel R E)} {label : MicroLabel R E} {slot : Slot} {waker : Waker} {use : Use}

private theorem Invoked.concat (invoked : Invoked use past) (within : ∀ use', label ≠ .invoke use') :
    Invoked use (past ++ [label]) := by
  obtain ⟨before, during, rfl, none⟩ := invoked
  refine ⟨before, during ++ [label], by simp, fun use' mem => ?_⟩
  rcases List.mem_append.mp mem with mem | mem
  · exact none use' mem
  · exact within use' (List.mem_singleton.mp mem).symm

private theorem Thread.Serves.concat {thread : Thread T} (serves : thread.Serves past)
    (within : ∀ use', label ≠ .invoke use') : thread.Serves (past ++ [label]) := by
  cases thread with
  | idle owner => trivial
  | running program =>
    obtain ⟨use, invoked, all⟩ := serves
    exact ⟨use, invoked.concat within, all⟩
  | calling c std next =>
    obtain ⟨use, invoked, all⟩ := serves
    exact ⟨use, invoked.concat within, all⟩

private theorem Latest.concat (latest : Latest slot waker past) (other : ¬ label.Touches slot) :
    Latest slot waker (past ++ [label]) := by
  obtain ⟨before, use, after, rfl, invoked, context, untouched⟩ := latest
  refine ⟨before, use, after ++ [label], by simp, invoked, context, ?_⟩
  exact List.forall_mem_append.mpr ⟨untouched, List.forall_mem_singleton.mpr other⟩

private theorem Latest.of_register (invoked : Invoked use past) (context : use.context = some (slot.2, waker)) :
    Latest slot waker (past ++ [.register slot waker]) := ⟨past, use, [], rfl, invoked, context, by simp⟩

end Concat

variable {past rest labels : List (MicroLabel R E)} {label : MicroLabel R E} {cfg next t : Config T E}

/-- A step that touches no slot. -/
private theorem Attributed.untouched (attributed : Attributed past cfg) (serves : next.thread.Serves (past ++ [label]))
    (slots : next.slots = cfg.slots) (other : ∀ slot, ¬ label.Touches slot) :
    Attributed (past ++ [label]) next :=
  ⟨serves, fun slot waker holds => (attributed.latest slot waker (slots ▸ holds)).concat (other slot)⟩

variable [DecidableEq E]

/-- Every step keeps the slots attributed. -/
theorem Attributed.step (attributed : Attributed past cfg) (step : MicroStep T cfg label next) :
    Attributed (past ++ [label]) next := by
  have serves := attributed.serves
  cases step with
  | @invoke owner use program thread starts =>
    have invoked : Invoked use (past ++ [.invoke use]) := ⟨past, [], rfl, by simp⟩
    exact attributed.untouched ⟨use, invoked, all_start starts⟩ rfl fun slot => id
  | @register proxy kind waker rest thread =>
    rw [thread] at serves
    obtain ⟨use, invoked, registers, all⟩ := serves
    refine ⟨⟨use, invoked.concat (by simp), all ()⟩, fun slot waker' holds => ?_⟩
    rcases eq_or_ne slot (proxy, kind) with rfl | differ
    · simp only [Function.update_self, Option.some.injEq] at holds
      obtain rfl := holds
      exact .of_register invoked registers
    · simp only [Function.update_of_ne differ] at holds
      exact (attributed.latest slot waker' holds).concat differ.symm
  | @enter c rest thread =>
    rw [thread] at serves
    obtain ⟨use, invoked, all⟩ := serves
    exact attributed.untouched ⟨use, invoked.concat (by simp), all.2⟩ rfl fun slot => id
  | io thread performs =>
    rw [thread] at serves
    obtain ⟨use, invoked, all⟩ := serves
    exact attributed.untouched ⟨use, invoked.concat (by simp), all⟩ rfl fun slot => id
  | leave thread exec =>
    rw [thread] at serves
    obtain ⟨use, invoked, all⟩ := serves
    exact attributed.untouched ⟨use, invoked.concat (by simp), all _⟩ rfl fun slot => id
  | answer thread => exact attributed.untouched trivial rfl fun slot => id
  | fire => exact attributed.untouched (serves.concat (by simp)) rfl fun slot => id
  | fireSource => exact attributed.untouched (serves.concat (by simp)) rfl fun slot => id
  | @wake slot rest before after firing =>
    refine ⟨serves.concat (by simp), fun slot' waker holds => ?_⟩
    rcases eq_or_ne slot' slot with rfl | differ
    · simp only [Function.update_self, reduceCtorEq] at holds
    · simp only [Function.update_of_ne differ] at holds
      exact (attributed.latest slot' waker holds).concat differ.symm

/-- A wake takes what is in the slot. -/
theorem MicroStep.taken {slot : Slot} {taken : Option Waker} (step : MicroStep T cfg (.wake slot taken) next) :
    cfg.slots slot = taken := by
  cases step with
  | wake => rfl

theorem attributed_of_run {owner : Owner R} (idle : cfg.thread = .idle owner) (fresh : ∀ slot, cfg.slots slot = none)
    (run : MicroRun T cfg labels t) : Attributed labels t := by
  refine run.history (motive := Attributed) ⟨?_, ?_⟩ fun _ _ _ _ _ attributed step => attributed.step step
  · rw [idle]
    trivial
  · intro slot waker holds
    cases (fresh slot).symm.trans holds

/-- A wake finds the waker of the operation of its side that registered in the slot last: no waker is woken after it
was replaced, and none twice. -/
theorem wakes_latest {owner : Owner R} {slot : Slot} {waker : Waker} (idle : cfg.thread = .idle owner)
    (fresh : ∀ slot, cfg.slots slot = none) (run : MicroRun T cfg (past ++ .wake slot (some waker) :: rest) t) :
    Latest slot waker past := by
  obtain ⟨before, after, left, wake, -⟩ := run.cut
  have attributed := attributed_of_run idle fresh left
  exact attributed.latest slot waker wake.taken

/-- The firing in the middle of the reader's poll wakes the reader. -/
theorem wakes_latest_stalled : Latest (.writeWakerProxy, .read) ⟨1⟩ (stalledFired.take 3) := by
  obtain ⟨cfg', run, -⟩ := stalledFired_run
  have cut : MicroRun stalled stalledStart
      (stalledFired.take 3 ++ .wake (.writeWakerProxy, .read) (some ⟨1⟩) :: stalledFired.drop 4) cfg' := run
  exact wakes_latest rfl (fun _ => rfl) cut

/-! ## How often -/

section Budget

omit [DecidableEq E]

/-- One slot of a side, if that is the side. -/
def share (kind kind' : ContextWaker) : ℕ := if kind' = kind then 1 else 0

/-- A registration on a side. -/
def OuterOp.cost (kind : ContextWaker) : OuterOp R → ℕ
  | .register _ kind' _ => share kind kind'
  | .call _ => 0

/-- The registrations an operation may make on a side: one in each proxy. A handshake may start and be resumed in
the same poll. -/
def Use.budget (kind : ContextWaker) (use : Use) : ℕ :=
  match use with
  | .handshake _ => 4 * share kind .read
  | .stream op => (op.context.map fun context => 2 * share kind context.1).getD 0

variable {kind : ContextWaker} {waker : Waker}

private theorem within_register {proxy : Proxy} {kind' : ContextWaker} :
    (register (R := R) proxy kind' waker).Within (OuterOp.cost kind) (share kind kind') := .lift le_rfl

private theorem within_perform (c : Call R) : c.perform.Within (OuterOp.cost kind) 0 := .lift le_rfl

private theorem within_twice {kind' : ContextWaker} {first second : Proxy} :
    (register (R := R) first kind' waker >>= fun _ => register second kind' waker).Within (OuterOp.cost kind)
      (2 * share kind kind') := by
  rw [Nat.two_mul]
  exact within_register.bind fun _ => within_register

private theorem within_setWaker {kind' : ContextWaker} :
    (AllowStd.setWaker (R := R) kind' waker).Within (OuterOp.cost kind) (2 * share kind kind') := by
  cases kind' <;> exact within_twice

private theorem within_withContext (context : Option (ContextWaker × Waker)) (c : Call R) :
    (WebSocketStream.withContext context c).Within (OuterOp.cost kind)
      ((context.map fun context => 2 * share kind context.1).getD 0) := by
  rcases context with _ | ⟨kind', waker⟩
  · exact within_perform c
  · exact within_setWaker.bind_free fun _ => within_perform c

/-- What is computed from an answer costs nothing. -/
private theorem within_return {α β : Type} {program : Program (outer R) α} {f : α → β} {budget : ℕ}
    (within : program.Within (OuterOp.cost kind) budget) :
    (program >>= fun value => return f value).Within (OuterOp.cost kind) budget := by
  rw [bind_pure_comp]
  exact within.map f

private theorem within_run (flags : Flags) (op : Op) :
    (op.run (R := R) flags).Within (OuterOp.cost kind) ((Use.stream op).budget kind) := by
  cases op with
  | pollNext cx =>
    refine .map _ ?_
    unfold WebSocketStream.pollNext
    split
    · trivial
    · exact within_return (within_withContext (some (.read, cx)) _)
  | isTerminated => trivial
  | dropNext => trivial
  | pollReady cx =>
    refine .map _ ?_
    unfold WebSocketStream.pollReady
    split
    · trivial
    · exact within_return (within_withContext (some (.write, cx)) _)
  | startSend item => exact .map _ (within_return (within_withContext none _))
  | pollFlush cx => exact .map _ (within_return (within_withContext (some (.write, cx)) _))
  | pollClose cx =>
    refine .map _ ?_
    unfold WebSocketStream.pollClose
    dsimp only
    split <;> exact within_return (within_withContext (some (.write, cx)) _)

private theorem within_new : (AllowStd.new (R := R) waker).Within (OuterOp.cost kind) (2 * share kind .read) :=
  within_twice

private theorem within_awaitMid (mid : Option R.Mid) (cx : Waker) :
    (HandshakeFuture.awaitMid mid cx).Within (OuterOp.cost kind) (2 * share kind .read) := by
  refine .bind_free ?_ fun resumed => ?_
  · cases mid with
    | none => trivial
    | some s =>
      refine within_setWaker.bind_free fun _ => (within_perform _).bind_free fun r => ?_
      rcases r with (mid | e) | r <;> trivial
  · rcases resumed with _ | ⟨_ | _, _⟩ <;> trivial

private theorem within_awaitStart (start : Option (R.F × R.S)) (cx : Waker) :
    (HandshakeFuture.awaitStart start cx).Within (OuterOp.cost kind) (4 * share kind .read) := by
  have twice : 4 * share kind .read = 2 * share kind .read + 2 * share kind .read := by omega
  rw [twice]
  refine .bind ?_ fun started => ?_
  · rcases start with _ | ⟨f, stream⟩
    · trivial
    · refine within_new.bind_free fun _ => (within_perform _).bind_free fun r => ?_
      rcases r with (mid | e) | r <;> trivial
  · rcases started with _ | ⟨(_ | r | s) | _, _⟩
    · trivial
    · trivial
    · trivial
    · exact within_awaitMid (some s) cx
    · trivial

/-- The program of an operation keeps to its budget. -/
theorem within_start {owner : Owner R} {use : Use} {program : Program (outer R) (Reply R × Owner R)}
    (starts : owner.start use = some program) : program.Within (OuterOp.cost kind) (use.budget kind) := by
  cases owner with
  | handshake future =>
    cases use with
    | stream op => cases starts
    | handshake cx =>
      obtain rfl := Option.some.inj starts
      refine .map _ ?_
      cases future with
      | unresumed stream f => exact within_awaitStart _ cx
      | starting start => exact within_awaitStart _ cx
      | resuming mid => exact (within_awaitMid _ cx).mono (Nat.mul_le_mul_right _ (by decide))
      | returned => trivial
  | stream flags =>
    cases use with
    | handshake cx => cases starts
    | stream op =>
      obtain rfl := Option.some.inj starts
      exact .map _ (within_run flags op)

/-- What a task may still register. -/
def Thread.Within (kind : ContextWaker) (budget : ℕ) : Thread T → Prop
  | .idle _ => True
  | .running program => program.Within (OuterOp.cost kind) budget
  | .calling _ _ next => ∀ r, (next r).Within (OuterOp.cost kind) budget

def occupied : Option Waker → ℕ
  | some _ => 1
  | none => 0

/-- The wakers held for a side. -/
def held (kind : ContextWaker) (slots : Slot → Option Waker) : ℕ :=
  occupied (slots (.writeWakerProxy, kind)) + occupied (slots (.readWakerProxy, kind))

theorem held_update (kind : ContextWaker) (slots : Slot → Option Waker) (slot : Slot) (content : Option Waker) :
    held kind (Function.update slots slot content) + share kind slot.2 * occupied (slots slot) =
      held kind slots + share kind slot.2 * occupied content := by
  obtain ⟨proxy, kind'⟩ := slot
  rcases eq_or_ne kind' kind with rfl | differ
  · cases proxy <;> simp [held, share] <;> omega
  · have other (proxy' : Proxy) : Function.update slots (proxy, kind') content (proxy', kind) = slots (proxy', kind) :=
      Function.update_of_ne (by simp [differ.symm]) _ _
    simp [held, share, other, differ]

namespace MicroLabel

/-- A task of the side is woken. -/
def wakes (kind : ContextWaker) : MicroLabel R E → ℕ
  | .wake slot taken => share kind slot.2 * occupied taken
  | _ => 0

/-- An operation that starts may register as much as its budget. -/
def budget (kind : ContextWaker) : MicroLabel R E → ℕ
  | .invoke use => use.budget kind
  | _ => 0

end MicroLabel

end Budget

/-- Every step is paid for: by the operation it starts, the budget of the task or the waker it takes. -/
theorem spent_step {kind : ContextWaker} {budget : ℕ} (within : cfg.thread.Within kind budget)
    (step : MicroStep T cfg label next) : ∃ left, next.thread.Within kind left ∧
      label.wakes kind + held kind next.slots + left ≤ budget + held kind cfg.slots + label.budget kind := by
  cases step with
  | @invoke owner use program thread starts =>
    refine ⟨use.budget kind, within_start starts, ?_⟩
    simp only [MicroLabel.wakes, MicroLabel.budget]
    omega
  | @register proxy kind' waker rest thread =>
    rw [thread] at within
    obtain ⟨paid, left⟩ := within
    refine ⟨budget - share kind kind', left (), ?_⟩
    have updated := held_update kind cfg.slots (proxy, kind') (some waker)
    simp only [MicroLabel.wakes, MicroLabel.budget, OuterOp.cost, occupied] at *
    omega
  | @enter c rest thread =>
    rw [thread] at within
    refine ⟨budget, within.2, ?_⟩
    simp only [MicroLabel.wakes, MicroLabel.budget]
    omega
  | io thread performs =>
    rw [thread] at within
    refine ⟨budget, within, ?_⟩
    simp only [MicroLabel.wakes, MicroLabel.budget]
    omega
  | leave thread exec =>
    rw [thread] at within
    refine ⟨budget, within _, ?_⟩
    simp only [MicroLabel.wakes, MicroLabel.budget]
    omega
  | answer thread =>
    refine ⟨0, trivial, ?_⟩
    simp only [MicroLabel.wakes, MicroLabel.budget]
    omega
  | fire =>
    refine ⟨budget, within, ?_⟩
    simp only [MicroLabel.wakes, MicroLabel.budget]
    omega
  | fireSource =>
    refine ⟨budget, within, ?_⟩
    simp only [MicroLabel.wakes, MicroLabel.budget]
    omega
  | @wake slot rest before after firing =>
    refine ⟨budget, within, ?_⟩
    have updated := held_update kind cfg.slots slot none
    simp only [MicroLabel.wakes, MicroLabel.budget, occupied] at *
    omega

theorem spent_run {kind : ContextWaker} {budget : ℕ} (within : cfg.thread.Within kind budget)
    (run : MicroRun T cfg labels t) : ∃ left, t.thread.Within kind left ∧
      (labels.map (MicroLabel.wakes kind)).sum + held kind t.slots + left ≤
        budget + held kind cfg.slots + (labels.map (MicroLabel.budget kind)).sum := by
  induction run generalizing budget with
  | nil => exact ⟨budget, within, by simp; omega⟩
  | cons step _ ih =>
    obtain ⟨middle, within', first⟩ := spent_step within step
    obtain ⟨left, within'', second⟩ := ih within'
    refine ⟨left, within'', ?_⟩
    simp only [List.map_cons, List.sum_cons]
    omega

/-- However often the proxies fire, the tasks of a side are woken at most once for each registration their polls
may make: twice for a poll of the stream, and four times for a poll of the handshake. -/
theorem wakes_le_budget {owner : Owner R} (kind : ContextWaker) (idle : cfg.thread = .idle owner)
    (fresh : ∀ slot, cfg.slots slot = none) (run : MicroRun T cfg labels t) :
    (labels.map (MicroLabel.wakes kind)).sum ≤ (labels.map (MicroLabel.budget kind)).sum := by
  have resting : cfg.thread.Within kind 0 := by
    rw [idle]
    trivial
  obtain ⟨left, -, spent⟩ := spent_run resting run
  have empty : held kind cfg.slots = 0 := by simp [held, fresh, occupied]
  omega

theorem wakes_le_budget_stalled : (stalledFired.map (MicroLabel.wakes .read)).sum ≤ 2 := by
  obtain ⟨cfg', run, -⟩ := stalledFired_run
  exact wakes_le_budget .read rfl (fun _ => rfl) run

end TokioTungstenite
