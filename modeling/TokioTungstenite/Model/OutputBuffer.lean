import TokioTungstenite.Model.Observations
import TokioTungstenite.Execution.Fifo

/-! # tungstenite's output buffer

What several results assume of a WebSocket is that it keeps one first-in-first-out output buffer: whole
frames are queued at its back, and it drains only by handing its current contents to `Write::write` and
dropping from the front exactly the count reported. `OutputBuffer` is that assumption. The origin of
each byte and the log of the frames queued so far are history variables: no code looks at them.
-/

namespace TokioTungstenite

open Execution

variable {R : HandshakeRole}

/-- Who queued a frame: a `write` for the user, or the WebSocket for itself (pong and close frames). -/
inductive Origin
  | user (item : Message)
  | control
deriving DecidableEq, Repr

def Origin.message? : Origin → Option Message
  | .user item => some item
  | .control => none

/-- A byte in the buffer, with the origin of its frame. -/
abbrev OutByte := Origin × UInt8

/-- A frame that was queued, with its origin. -/
abbrev Entry := Origin × Bytes

def Entry.bytes (entry : Entry) : List OutByte := entry.2.map (entry.1, ·)

/-- One step of a call, as far as its buffer is concerned. -/
inductive BufStep
  | queue (entry : Entry)
  | io (event : StdEvent)

namespace BufStep

def event? : BufStep → Option StdEvent
  | .queue _ => none
  | .io event => some event

def entry? : BufStep → Option Entry
  | .queue entry => some entry
  | .io _ => none

/-- Queueing appends a frame; a successful write drops the reported count; nothing else changes the buffer. -/
def ops : BufStep → List (Fifo.Op OutByte)
  | .queue entry => [.push entry.bytes]
  | .io ⟨.write _, .ok n⟩ => [.pop n]
  | .io _ => []

end BufStep

/-- Every write of a call hands over the contents the buffer has at that point. -/
def HandsContents : List OutByte → List BufStep → Prop
  | _, [] => True
  | buffer, step :: rest =>
      (∀ buf r, step = .io ⟨.write buf, r⟩ → buf = buffer.map Prod.snd) ∧
        HandsContents (Fifo.run buffer step.ops) rest

/-- A FIFO output buffer of an implementation, with the log of all frames queued into it. -/
structure OutputBuffer (T : Tungstenite R) where
  out : T.State → List OutByte
  log : T.State → List Entry
  history : ∀ {c : Call R} {s : T.State} {std : List StdEvent} {r : c.Answer} {t : T.State},
    T.exec c s std r t → ∃ steps : List BufStep, std = steps.filterMap BufStep.event? ∧
      HandsContents (out s) steps ∧ out t = Fifo.run (out s) (steps.flatMap BufStep.ops) ∧
      log t = log s ++ steps.filterMap BufStep.entry?

/-- The bytes of user frames among some bytes of the buffer. -/
def userBytes (bytes : List OutByte) : ℕ := bytes.countP fun byte => byte.1.message?.isSome

theorem userBytes_le_length (bytes : List OutByte) : userBytes bytes ≤ bytes.length := List.countP_le_length

/-- The messages whose frames are among some entries, in order. -/
def userMessages (entries : List Entry) : List Message := entries.filterMap fun entry => entry.1.message?

@[simp] theorem userMessages_append (first second : List Entry) :
    userMessages (first ++ second) = userMessages first ++ userMessages second := List.filterMap_append

@[simp] theorem Entry.bytes_map_snd (entry : Entry) : entry.bytes.map Prod.snd = entry.2 := by
  simp [Entry.bytes]

/-- What a history of steps pushes is the frames it queued. -/
theorem pushed_steps (steps : List BufStep) :
    Fifo.pushed (steps.flatMap BufStep.ops) = (steps.filterMap BufStep.entry?).flatMap Entry.bytes := by
  induction steps with
  | nil => rfl
  | cons step rest ih =>
    rw [List.flatMap_cons, Fifo.pushed, List.flatMap_append]
    change Fifo.pushed step.ops ++ Fifo.pushed (rest.flatMap BufStep.ops) = _
    rw [ih]
    rcases step with entry | ⟨op, r⟩
    · simp [BufStep.ops, Fifo.pushed, Fifo.Op.added, BufStep.entry?]
    · rcases op with _ | buf | _
      · rfl
      · rcases r with _ | n <;> rfl
      · rfl

/-- What a history of steps takes out is what its writes reported as written. -/
theorem taken_steps (buffer : List OutByte) (steps : List BufStep) (hands : HandsContents buffer steps) :
    (Fifo.taken buffer (steps.flatMap BufStep.ops)).map Prod.snd =
      (steps.filterMap BufStep.event?).flatMap StdEvent.written := by
  induction steps generalizing buffer with
  | nil => rfl
  | cons step rest ih =>
    obtain ⟨contents, hands⟩ := hands
    rw [List.flatMap_cons, Fifo.taken_append, List.map_append, ih _ hands]
    rcases step with entry | ⟨op, r⟩
    · rfl
    · rcases op with _ | buf | _
      · rfl
      · obtain rfl := contents buf r rfl
        rcases r with _ | n
        · rfl
        · simp only [BufStep.ops, Fifo.taken, Fifo.Op.removed, List.append_nil, List.map_take]
          rfl
      · rfl

namespace OutputBuffer

variable {T : Tungstenite R} (B : OutputBuffer T)

/-- The bytes waiting in the buffer. -/
def waiting (s : T.State) : Bytes := (B.out s).map Prod.snd

/-- Over one call, what it wrote, then what waits, is what waited, then what was queued. -/
theorem exec_conserves {c : Call R} {s t : T.State} {std : List StdEvent} {r : c.Answer} (exec : T.exec c s std r t) :
    ∃ new, B.log t = B.log s ++ new ∧
      std.flatMap StdEvent.written ++ B.waiting t = B.waiting s ++ new.flatMap Prod.snd := by
  obtain ⟨steps, events, hands, left, logged⟩ := B.history exec
  refine ⟨_, logged, ?_⟩
  have conserved := congrArg (List.map Prod.snd) (Fifo.taken_append_run (B.out s) (steps.flatMap BufStep.ops))
  rw [List.map_append, List.map_append, taken_steps _ _ hands, ← events, ← left, pushed_steps] at conserved
  rw [waiting, conserved, waiting]
  congr 1
  simp only [List.map_flatMap, Entry.bytes_map_snd]

/-- What a call wrote is what the inner stream accepted. -/
theorem calls_conserve {c : Call R} {s t : T.State} {io : List IoEvent} {r : c.Answer} (calls : T.Calls c s io r t) :
    ∃ new, B.log t = B.log s ++ new ∧
      io.flatMap (fun event => InnerEvent.accepted event.2) ++ B.waiting t = B.waiting s ++ new.flatMap Prod.snd := by
  rw [← written_eq_accepted_all calls.served]
  exact B.exec_conserves calls.exec

/-- A call leaves at most the user bytes that waited before, and those it queued. -/
theorem calls_userBytes {c : Call R} {s t : T.State} {io : List IoEvent} {r : c.Answer} (calls : T.Calls c s io r t) :
    ∃ new, B.log t = B.log s ++ new ∧
      userBytes (B.out t) ≤ userBytes (B.out s) + userBytes (new.flatMap Entry.bytes) := by
  obtain ⟨steps, -, -, left, logged⟩ := B.history calls.exec
  refine ⟨_, logged, ?_⟩
  rw [left, ← pushed_steps]
  exact Fifo.countP_run_le _ _ _

variable {s t : WebSocketStream T} {ls : List (Label R)}

/-- The conservation law of the send path: over any run, the bytes the inner stream accepted, then the
bytes still waiting, are the bytes that waited at first, then the frames queued since, in order. -/
theorem run_conserves (run : Run T s ls t) :
    ∃ new, B.log t.inner = B.log s.inner ++ new ∧
      acceptedBytes ls ++ B.waiting t.inner = B.waiting s.inner ++ new.flatMap Prod.snd := by
  induction run with
  | nil => exact ⟨[], by simp [acceptedBytes]⟩
  | @cons s middle t label ls step _ ih =>
    obtain ⟨new, logged, conserved⟩ := ih
    rcases step.calls_cases with ⟨none, same⟩ | ⟨c, io, r, -, one, calls⟩
    · refine ⟨new, same ▸ logged, ?_⟩
      simpa [acceptedBytes, Label.io, none, same] using conserved
    · obtain ⟨first, here, drained⟩ := B.calls_conserve calls
      refine ⟨first ++ new, by rw [logged, here, List.append_assoc], ?_⟩
      calc
        acceptedBytes (label :: ls) ++ B.waiting t.inner
            = io.flatMap (fun event => InnerEvent.accepted event.2) ++
                (acceptedBytes ls ++ B.waiting t.inner) := by
          simp only [acceptedBytes, Label.io, one, List.flatMap_cons, List.flatMap_nil, List.append_nil,
            List.flatMap_append, List.append_assoc]
        _ = B.waiting s.inner ++ first.flatMap Prod.snd ++ new.flatMap Prod.snd := by
          rw [conserved, ← List.append_assoc, drained]
        _ = B.waiting s.inner ++ (first ++ new).flatMap Prod.snd := by
          rw [List.flatMap_append, List.append_assoc]

end OutputBuffer

end TokioTungstenite
