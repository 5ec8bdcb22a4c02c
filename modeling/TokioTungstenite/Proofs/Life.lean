import TokioTungstenite.Proofs.Handshake
import TokioTungstenite.Proofs.Interleaving

/-! # The life of an adapter

An `AllowStd` is first owned by a handshake future. That future answers `Pending` until it answers `Ready` once. If
the handshake failed, the future panics whenever it is polled again, and does nothing else. If it succeeded, all
that follows is a run of a fresh `WebSocketStream`.
-/

namespace TokioTungstenite

open Execution

variable {R : HandshakeRole} {T : Tungstenite R}

/-- An operation of the stream, among those of its adapter. -/
def Label.outer (label : Label R) : OuterLabel R := ⟨.stream label.op, label.events, .stream label.answer⟩

namespace OuterLabel

/-- A poll of the handshake future that answers `Pending`. -/
def Waits (label : OuterLabel R) : Prop := label.reply = .handshake (some .pending)

/-- A poll of the handshake future that panics, and does nothing else. -/
def Panics (label : OuterLabel R) : Prop := label.reply = .handshake none ∧ label.events = []

end OuterLabel

/-- The shapes of a life, from the first poll of the handshake future to any moment between operations. -/
inductive Life (T : Tungstenite R) : List (OuterLabel R) → Owner R × T.State → Prop
  | pending {waits : List (OuterLabel R)} {p : Progress R} {t : T.State} : (∀ label ∈ waits, label.Waits) →
      p.next? ≠ none → Life T waits (.handshake p.future, t)
  | failed {waits panics : List (OuterLabel R)} {last : OuterLabel R} {e : WsError} {t : T.State} :
      (∀ label ∈ waits, label.Waits) → last.reply = .handshake (some (.ready (.error (.failure e)))) →
      (∀ label ∈ panics, label.Panics) → Life T (waits ++ last :: panics) (.handshake .returned, t)
  | connected {waits : List (OuterLabel R)} {last : OuterLabel R} {r : R.FinalResult} {u t : T.State} {flags : Flags}
      {labels : List (Label R)} : (∀ label ∈ waits, label.Waits) → last.reply = .handshake (some (.ready (.ok r))) →
      Run T ⟨u, WebSocketStream.new⟩ labels ⟨t, flags⟩ →
      Life T (waits ++ last :: labels.map Label.outer) (.stream flags, t)

variable {s : T.State} {ls : List (OuterLabel R)} {reached : Owner R × T.State}

/-- One more poll before the others. -/
private theorem Life.wait {label : OuterLabel R} (waits : label.Waits) (life : Life T ls reached) :
    Life T (label :: ls) reached := by
  cases life with
  | pending before live => exact .pending (List.forall_mem_cons.mpr ⟨waits, before⟩) live
  | failed before last panics => exact .failed (List.forall_mem_cons.mpr ⟨waits, before⟩) last panics
  | connected before last run => exact .connected (List.forall_mem_cons.mpr ⟨waits, before⟩) last run

/-- A poll of a handshake that is not over answers the last step it made. -/
theorem poll_live {p : Progress R} {cx : Waker} {es : List (OuterEvent R)}
    {polled : Option (Poll (HandshakeResult R))} {future : HandshakeFuture R} {t : T.State} (live : p.next? ≠ none)
    (run : Exec T.handler (p.future.poll cx) s es (polled, future) t) :
    ∃ r, polled = some (polledOnce r) ∧ future = (Progress.settle r).future := by
  cases p with
  | finished result => exact (live rfl).elim
  | interrupted mid =>
    obtain ⟨io, r, -, -, answer, next⟩ := exec_awaitMid run
    exact ⟨r, answer, next⟩
  | initial stream f =>
    obtain ⟨io, r, middle, rest, -, -, ⟨-, -, -, answer, next⟩ | ⟨mid, -, resumed⟩⟩ := exec_awaitStart run
    · exact ⟨r, answer, next⟩
    · obtain ⟨io', r', -, -, answer, next⟩ := exec_awaitMid resumed
      exact ⟨r', answer, next⟩

/-- Between operations of a stream, what was executed is a run of the stream. -/
theorem OuterRun.stream {flags : Flags} (run : OuterRun T (.stream flags, s) ls reached) :
    ∃ flags' t labels, reached = (.stream flags', t) ∧ Run T ⟨s, flags⟩ labels ⟨t, flags'⟩ ∧
      ls = labels.map Label.outer := by
  induction ls generalizing flags s with
  | nil =>
    obtain rfl := Path.nil_iff.mp run
    exact ⟨flags, s, [], rfl, .nil _, rfl⟩
  | cons label rest ih =>
    obtain ⟨⟨owner, u⟩, ⟨program, starts, exec⟩, tail⟩ := Path.cons_iff.mp run
    obtain ⟨use, events, reply⟩ := label
    cases use with
    | handshake cx => cases starts
    | stream op =>
      obtain rfl := Option.some.inj starts
      obtain ⟨⟨answer, flags'⟩, ran, same⟩ := exec_map_iff.mp exec
      obtain ⟨rfl, rfl⟩ := Prod.mk.inj same
      obtain ⟨flags'', t, labels, rfl, streamed, rfl⟩ := ih tail
      have step : Step T ⟨s, flags⟩ ⟨op, events, answer⟩ ⟨u, flags'⟩ := ran
      exact ⟨flags'', t, ⟨op, events, answer⟩ :: labels, rfl, .cons step streamed, rfl⟩

/-- A handshake future that has returned panics for ever. -/
theorem OuterRun.returned (run : OuterRun T (.handshake .returned, s) ls reached) :
    reached = (.handshake .returned, s) ∧ ∀ label ∈ ls, label.Panics := by
  induction ls with
  | nil => exact ⟨Path.nil_iff.mp run, by simp⟩
  | cons label rest ih =>
    obtain ⟨middle, ⟨program, starts, exec⟩, tail⟩ := Path.cons_iff.mp run
    obtain ⟨use, events, reply⟩ := label
    cases use with
    | stream op => cases starts
    | handshake cx =>
      obtain rfl := Option.some.inj starts
      obtain ⟨value, polled, same⟩ := exec_map_iff.mp exec
      obtain ⟨rfl, rfl, reached⟩ := Exec.return_iff.mp polled
      obtain ⟨rfl, owner⟩ := Prod.mk.inj same
      obtain rfl : middle = (.handshake .returned, s) := Prod.ext owner reached
      obtain ⟨ended, panics⟩ := ih tail
      exact ⟨ended, List.forall_mem_cons.mpr ⟨⟨rfl, rfl⟩, panics⟩⟩

/-- By induction on the polls: each answers `Pending` and leaves a handshake that is not over, or ends it. -/
theorem life_of_run {p : Progress R} (live : p.next? ≠ none) (run : OuterRun T (.handshake p.future, s) ls reached) :
    Life T ls reached := by
  induction ls generalizing p s with
  | nil =>
    obtain rfl := Path.nil_iff.mp run
    exact .pending (by simp) live
  | cons label rest ih =>
    obtain ⟨⟨owner, u⟩, ⟨program, starts, exec⟩, tail⟩ := Path.cons_iff.mp run
    obtain ⟨use, events, reply⟩ := label
    cases use with
    | stream op => cases starts
    | handshake cx =>
      obtain rfl := Option.some.inj starts
      obtain ⟨⟨polled, future⟩, ran, same⟩ := exec_map_iff.mp exec
      obtain ⟨rfl, rfl⟩ := Prod.mk.inj same
      obtain ⟨r, rfl, rfl⟩ := poll_live live ran
      rcases r with (mid | e) | r
      · have interrupted : (Progress.interrupted mid : Progress R).next? ≠ none := by simp [Progress.next?]
        exact (ih interrupted tail).wait rfl
      · obtain ⟨rfl, panics⟩ := OuterRun.returned tail
        let last : OuterLabel R := ⟨.handshake cx, events, .handshake (some (.ready (.error (.failure e))))⟩
        have ended : Life T ([] ++ last :: rest) (.handshake .returned, u) := .failed (by simp) rfl panics
        exact ended
      · obtain ⟨flags, t, labels, rfl, streamed, rfl⟩ := OuterRun.stream tail
        let last : OuterLabel R := ⟨.handshake cx, events, .handshake (some (.ready (.ok r)))⟩
        have connected : Life T ([] ++ last :: labels.map Label.outer) (.stream flags, t) :=
          .connected (by simp) rfl streamed
        exact connected

variable {E : Type} [DecidableEq E]

/-- However the inner stream fires in between, an adapter started from a closure and a stream leads such a life. -/
theorem adapter_life {cfg cfg' : Config T E} {stream : R.S} {f : R.F} {owner : Owner R} {seen : List (Heard R)}
    (start : cfg.thread = .idle (.handshake (.unresumed stream f)))
    (observes : Observed (MicroStep T) MicroLabel.heard cfg seen cfg') (idle : cfg'.thread = .idle owner) :
    ∃ ls, seen = ls.flatMap OuterLabel.heard ∧ Life T ls (owner, cfg'.inner) := by
  obtain ⟨ls, run, shown⟩ := serial_of_observed start observes idle
  have live : (Progress.initial stream f).next? ≠ none := by simp [Progress.next?]
  exact ⟨ls, shown, life_of_run live run⟩

/-! The handshake that is interrupted twice ends in its second poll, and the stream is asked whether it is fused. -/

private def firstPoll : OuterLabel countdownRole where
  use := .handshake ⟨1⟩
  events := registrations .read ⟨1⟩ ++ [.call (.start () ()) [countdownBlocked] (.error (.interrupted (1 : ℕ)))] ++
    (registrations .read ⟨1⟩ ++ [.call (.handshake (1 : ℕ)) [countdownBlocked] (.error (.interrupted (0 : ℕ)))])
  reply := .handshake (some .pending)

private def secondPoll : OuterLabel countdownRole where
  use := .handshake ⟨2⟩
  events := registrations .read ⟨2⟩ ++ [.call (.handshake (0 : ℕ)) [countdownArrived] (.ok ((), "101"))]
  reply := .handshake (some (.ready (.ok ((), "101"))))

private def countdownLife : List (OuterLabel countdownRole) :=
  [firstPoll, secondPoll, ⟨.stream .isTerminated, [], .stream (.terminated false)⟩]

private theorem countdownLife_run :
    OuterRun countdown (.handshake (.unresumed () ()), ()) countdownLife (.stream WebSocketStream.new, ()) := by
  have started : countdown.Calls (.start () ()) () [countdownBlocked] (.error (.interrupted (1 : ℕ))) () :=
    ⟨⟨rfl, rfl⟩, countdownIo_served _⟩
  have again : countdown.Calls (.handshake (1 : ℕ)) () [countdownBlocked] (.error (.interrupted (0 : ℕ))) () :=
    ⟨⟨rfl, rfl⟩, countdownIo_served _⟩
  have last : countdown.Calls (.handshake (0 : ℕ)) () [countdownArrived] (.ok ((), "101")) () :=
    ⟨⟨rfl, rfl⟩, countdownIo_served _⟩
  have first : OuterStep countdown (.handshake (.unresumed () ()), ()) firstPoll
      (.handshake (.resuming (some (0 : ℕ))), ()) :=
    ⟨_, rfl, exec_map_iff.mpr ⟨_, awaitStart_interrupted_exec started again, rfl⟩⟩
  have second : OuterStep countdown (.handshake (.resuming (some (0 : ℕ))), ()) secondPoll
      (.stream WebSocketStream.new, ()) := ⟨_, rfl, exec_map_iff.mpr ⟨_, awaitMid_exec last, rfl⟩⟩
  exact .cons first (.cons second (.single ⟨_, rfl, .pure _ _⟩))

private def countdownStart : Config countdown Unit where
  thread := .idle (.handshake (.unresumed () ()))
  inner := ()
  slots _ := none
  sources _ := none
  firing := []

theorem adapter_life_countdown : ∃ ls, countdownLife.flatMap OuterLabel.heard = ls.flatMap OuterLabel.heard ∧
    Life countdown ls (.stream WebSocketStream.new, ()) := by
  have related : (interleaved countdown Unit).rel (.handshake (.unresumed () ()), ()) [] countdownStart :=
    ⟨rfl, rfl, rfl⟩
  obtain ⟨cfg', runs, -, idle, -⟩ := (interleaved countdown Unit).observed related (fun _ _ rel => rel.1)
    ⟨countdownLife, countdownLife_run, rfl⟩
  exact adapter_life rfl runs idle

end TokioTungstenite
