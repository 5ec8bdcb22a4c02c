import TokioTungstenite.Model.Connection
import TokioTungstenite.Proofs.Blocking
import TokioTungstenite.Proofs.Receive
import TokioTungstenite.Proofs.SendPath

/-! # End to end

What one end yields is, message by message, what the other end took. The sender's conservation law says that the
bytes put into the pipe are the first of the frames queued, the pipe keeps them in order, and the receiver's adapter
reports exactly what came out of it. So the receiver reads off a stream of words, and a prefix code has one reading.
-/

namespace TokioTungstenite

open Execution

variable {R R' : HandshakeRole} {T : Tungstenite R} {T' : Tungstenite R'}

/-! ## The ends, in series -/

/-- The inner poll that is heard, if any. -/
def Heard.polls : Heard R → List IoEvent
  | .io event => [event]
  | _ => []

/-- What is heard of the operations of a stream. -/
def heardOf (ls : List (Label R)) : List (Heard R) := ls.flatMap fun label => label.outer.heard

section Heard

variable {E : Type}

theorem accepted_of_heard (ls : List (MicroLabel R E)) : ls.flatMap MicroLabel.accepted =
    ((ls.flatMap MicroLabel.heard).flatMap Heard.polls).flatMap fun event => InnerEvent.accepted event.2 := by
  rw [List.flatMap_assoc, List.flatMap_assoc]
  refine List.flatMap_congr fun label _ => ?_
  cases label <;> simp [MicroLabel.accepted, MicroLabel.heard, Heard.polls]

theorem filled_of_heard (ls : List (MicroLabel R E)) : ls.flatMap MicroLabel.filled =
    ((ls.flatMap MicroLabel.heard).flatMap Heard.polls).flatMap fun event => InnerEvent.filled event.2 := by
  rw [List.flatMap_assoc, List.flatMap_assoc]
  refine List.flatMap_congr fun label _ => ?_
  cases label <;> simp [MicroLabel.filled, MicroLabel.heard, Heard.polls]

private theorem polls_of_events (es : List (OuterEvent R)) :
    (es.flatMap OuterEvent.heard).flatMap Heard.polls = (es.filterMap OuterEvent.record?).flatMap CallRecord.io := by
  induction es with
  | nil => rfl
  | cons event rest ih =>
    rw [List.flatMap_cons, List.flatMap_append, ih]
    cases event with
    | register proxy slot waker => rfl
    | call c io r =>
      have polls : (io.map Heard.io).flatMap (Heard.polls (R := R)) = io := by
        rw [List.flatMap_map]
        exact List.flatMap_singleton' io
      simp [OuterEvent.heard, OuterEvent.record?, Heard.polls, polls]

/-- The polls that are heard of some operations are their I/O. -/
theorem polls_heardOf (ls : List (Label R)) : (heardOf ls).flatMap Heard.polls = ls.flatMap Label.io := by
  rw [heardOf, List.flatMap_assoc]
  refine List.flatMap_congr fun label _ => ?_
  simp [Label.outer, OuterLabel.heard, Label.io, Label.calls, Heard.polls, polls_of_events]

variable [DecidableEq E]

/-- Between operations of a stream, an end has run whole operations. -/
theorem MicroRun.serial {cfg cfg' : Config T E} {ls : List (MicroLabel R E)} {flags : Flags} {owner : Owner R}
    (start : cfg.thread = .idle (.stream flags)) (run : MicroRun T cfg ls cfg') (idle : cfg'.thread = .idle owner) :
    ∃ flags' labels, owner = .stream flags' ∧ Run T ⟨cfg.inner, flags⟩ labels ⟨cfg'.inner, flags'⟩ ∧
      ls.flatMap MicroLabel.heard = heardOf labels := by
  obtain ⟨outer, whole, shown⟩ := serial_of_observed start ⟨ls, run, rfl⟩ idle
  obtain ⟨flags', t, labels, reached, streamed, rfl⟩ := OuterRun.stream whole
  obtain ⟨rfl, rfl⟩ := Prod.mk.inj reached
  exact ⟨flags', labels, rfl, streamed, shown.trans (List.flatMap_map _ _ _)⟩

end Heard

/-! ## The words sent -/

section Sender

variable {B : OutputBuffer T} {F : WireFormat} {s t : WebSocketStream T} {ls : List (Label R)} {label : Label R}

/-- Every message handed to `start_send` is one the format carries. -/
def Carried (F : WireFormat) (ls : List (Label R)) : Prop :=
  ∀ label ∈ ls, ∀ item, label.op = .startSend item → F.carries item

/-- A message taken was handed to `start_send`. -/
theorem Label.op_of_mem_taken {item : Message} (taken : item ∈ label.taken) : label.op = .startSend item := by
  obtain ⟨op, es, a⟩ := label
  simp only [Label.taken] at taken
  split at taken
  · split_ifs at taken
    · cases taken
    · exact congrArg Op.startSend (List.mem_singleton.mp taken).symm
  · cases taken

/-- The control frames an operation queues are words. -/
private theorem Sends.control_step (S : Sends B F) (step : Step T s label t)
    (carried : ∀ item, label.op = .startSend item → F.carries item) :
    ∃ new, B.log t.inner = B.log s.inner ++ new ∧ ∀ frame, (Origin.control, frame) ∈ new → F.word frame := by
  rcases step.calls_cases with ⟨-, same⟩ | ⟨c, io, r, made, -, calls⟩
  · exact ⟨[], by simp [same], by simp⟩
  · obtain ⟨new, logged, -⟩ := B.calls_conserve calls
    refine ⟨new, logged, S.control ?_ calls.exec logged⟩
    cases c with
    | write item => exact carried item (Op.eq_startSend_of_call? made)
    | _ => trivial

private theorem Sends.control_run (S : Sends B F) (run : Run T s ls t) (carried : Carried F ls) :
    ∃ new, B.log t.inner = B.log s.inner ++ new ∧ ∀ frame, (Origin.control, frame) ∈ new → F.word frame := by
  induction run with
  | nil => exact ⟨[], by simp, by simp⟩
  | cons step _ ih =>
    obtain ⟨here, rest⟩ := List.forall_mem_cons.mp carried
    obtain ⟨first, logged, words⟩ := S.control_step step here
    obtain ⟨new, logged', words'⟩ := ih rest
    refine ⟨first ++ new, by rw [logged', logged, List.append_assoc], fun frame mem => ?_⟩
    exact (List.mem_append.mp mem).elim (words frame) (words' frame)

/-- A sender puts words into its pipe, and those of its user are the messages taken. -/
theorem Sends.run_words (S : Sends B F) (run : Run T s ls t) (carried : Carried F ls) :
    ∃ new, acceptedBytes ls ++ B.waiting t.inner = B.waiting s.inner ++ new.flatMap Prod.snd ∧
      userMessages new = ls.flatMap Label.taken ∧ (∀ entry ∈ new, F.word entry.2) ∧
      ∀ item frame, (Origin.user item, frame) ∈ new → F.decode frame = item := by
  obtain ⟨new, logged, users, encoded⟩ := S.run_queues run
  obtain ⟨new', logged', conserved⟩ := B.run_conserves run
  obtain rfl : new = new' := List.append_cancel_left (logged.symm.trans logged')
  obtain ⟨new', logged', control⟩ := S.control_run run carried
  obtain rfl : new = new' := List.append_cancel_left (logged.symm.trans logged')
  have carries (item : Message) (frame : Bytes) (mem : (Origin.user item, frame) ∈ new) : F.carries item := by
    have queued : item ∈ userMessages new := List.mem_filterMap.mpr ⟨_, mem, rfl⟩
    rw [users] at queued
    obtain ⟨label, performed, taken⟩ := List.mem_flatMap.mp queued
    exact carried label performed item (Label.op_of_mem_taken taken)
  refine ⟨new, conserved, users, ?_, fun item frame mem => ?_⟩
  · rintro ⟨_ | item, frame⟩ mem
    · exact F.word_of_encodes (carries _ frame mem) (encoded _ frame mem)
    · exact control frame mem
  · exact F.decode_of_encodes (carries item frame mem) (encoded item frame mem)

end Sender

/-! ## The words received -/

section Receiver

variable {F : WireFormat} {s t : WebSocketStream T} {ls : List (Label R)} {label : Label R} {stream : List Bytes}

private theorem received_eq (record : CallRecord R) : record.received = record.call.received record.answer := by
  obtain ⟨c, io, r⟩ := record
  cases c with
  | read => rcases r with e | v <;> rfl
  | _ => rfl

/-- While words arrive, an operation yields the words it takes out of the input. -/
theorem Receives.step_words (D : Receives T F) (step : Step T s label t) (words : ∀ w ∈ stream, F.word w)
    (begins : D.inp s.inner ++ reportedBytes [label] <+: stream.flatten) :
    ∃ read : List Bytes, (∀ w ∈ read, F.word w) ∧
      D.inp s.inner ++ reportedBytes [label] = read.flatten ++ D.inp t.inner ∧ label.yielded = read.map F.decode := by
  rw [step.yielded_eq]
  rcases step.calls_cases with ⟨none, same⟩ | ⟨c, io, r, -, one, calls⟩
  · exact ⟨[], by simp, by simp [reportedBytes, Label.io, none, same], by simp [none]⟩
  · have reported : reportedBytes [label] = (io.map Prod.fst).flatMap StdEvent.reported := by
      simp [reportedBytes, Label.io, one, List.flatMap_map]
    rw [reported] at begins ⊢
    obtain ⟨read, valid, consumed, returned⟩ := D.consumes calls.exec words begins
    exact ⟨read, valid, consumed, by simp [one, received_eq, returned]⟩

/-- By induction on the run: what each operation leaves in the input is the beginning of the words still to come. -/
theorem Receives.run_words (D : Receives T F) (run : Run T s ls t) (words : ∀ w ∈ stream, F.word w)
    (begins : D.inp s.inner ++ reportedBytes ls <+: stream.flatten) :
    ∃ read : List Bytes, (∀ w ∈ read, F.word w) ∧
      D.inp s.inner ++ reportedBytes ls = read.flatten ++ D.inp t.inner ∧
      ls.flatMap Label.yielded = read.map F.decode := by
  induction run generalizing stream with
  | nil s => exact ⟨[], by simp, by simp [reportedBytes], rfl⟩
  | @cons s middle t label ls step _ ih =>
    have split : reportedBytes (label :: ls) = reportedBytes [label] ++ reportedBytes ls := by simp [reportedBytes]
    rw [split, ← List.append_assoc] at begins ⊢
    obtain ⟨first, valid, consumed, yielded⟩ := D.step_words step words ((List.prefix_append _ _).trans begins)
    rw [consumed, List.append_assoc] at begins
    -- the words read are the first of the stream, and the input begins the rest of it
    obtain ⟨rest, rfl⟩ := F.prefix_of_flatten valid words ((List.prefix_append _ _).trans begins)
    rw [List.flatten_append] at begins
    have later := (List.forall_mem_append.mp words).2
    obtain ⟨second, valid', consumed', yielded'⟩ := ih later ((List.prefix_append_right_inj _).mp begins)
    refine ⟨first ++ second, List.forall_mem_append.mpr ⟨valid, valid'⟩, ?_, ?_⟩
    · rw [consumed, List.append_assoc, consumed', List.flatten_append, List.append_assoc]
    · rw [List.flatMap_cons, yielded, yielded', List.map_append]

end Receiver

/-! ## One direction -/

/-- The last operation is a `poll_flush` that answered `Ready(Ok)`. -/
def Flushed (ls : List (Label R)) : Prop := ∃ past cx es, ls = past ++ [⟨.pollFlush cx, es, .sink (.ready (.ok ()))⟩]

/-- The last operation is a `poll_next` that answered `Pending`. -/
def Drained (ls : List (Label R)) : Prop := ∃ past cx es, ls = past ++ [⟨.pollNext cx, es, .next .pending⟩]

/-- The frames that arrived are the first of those sent. Those of the user carry the messages taken, in order and once
each, and what was yielded is what the frames that arrived carry. No message is missing once the sender has flushed,
nothing is under way and the receiver waits for more. -/
def Delivers (F : WireFormat) (sent : List (Label R)) (received : List (Label R')) (underWay : Bytes) : Prop :=
  ∃ arrived missing : List Entry, userMessages (arrived ++ missing) = sent.flatMap Label.taken ∧
    received.flatMap Label.yielded = arrived.map (fun entry => F.decode entry.2) ∧
    (∀ item frame, (Origin.user item, frame) ∈ arrived → F.decode frame = item) ∧
    (Flushed sent → underWay = [] → Drained received → missing = [])

section Direction

variable {B : OutputBuffer T} {F : WireFormat} {s t : WebSocketStream T} {s' t' : WebSocketStream T'}
  {sent : List (Label R)} {received : List (Label R')} {underWay : Bytes}

/-- A receiver that waits for more has no whole word left. -/
theorem Receives.stuck_of_drained (D : Receives T' F) (run : Run T' s' received t') (drained : Drained received) :
    ∀ w, F.word w → ¬ w <+: D.inp t'.inner := by
  obtain ⟨past, cx, es, rfl⟩ := drained
  obtain ⟨before, -, last⟩ := Path.concat_iff.mp run
  rcases step_pollNext_iff.mp last with ⟨-, -, answer, -⟩ | ⟨-, io, r, -, calls, answer, -⟩
  · cases answer
  · obtain ⟨e, rfl, blocked⟩ := (nextResult_pending_iff (R := R') _ _).mp (Answer.next.inj answer).symm
    exact D.blocked calls.exec blocked

/-- What the sender sent is what the receiver has already read, then what it reports, then what is under way. So it
arrives as it was sent, and all of it once nothing waits in the sender or is under way, and the receiver has no whole
word left. -/
theorem arrived_of_runs (S : Sends B F) (D : Receives T' F) (sends : Run T s sent t) (receives : Run T' s' received t')
    (carried : Carried F sent) (nothing : B.waiting s.inner = [])
    (piped : acceptedBytes sent = D.inp s'.inner ++ reportedBytes received ++ underWay) :
    ∃ arrived missing : List Entry, userMessages (arrived ++ missing) = sent.flatMap Label.taken ∧
      received.flatMap Label.yielded = arrived.map (fun entry => F.decode entry.2) ∧
      (∀ item frame, (Origin.user item, frame) ∈ arrived → F.decode frame = item) ∧
      (B.waiting t.inner = [] → underWay = [] → (∀ w, F.word w → ¬ w <+: D.inp t'.inner) → missing = []) := by
  obtain ⟨frames, conserved, users, words, decodes⟩ := S.run_words sends carried
  rw [nothing, List.nil_append, piped, List.append_assoc, List.flatMap_def] at conserved
  have stream : ∀ w ∈ frames.map Prod.snd, F.word w := by
    intro w mem
    obtain ⟨entry, queued, rfl⟩ := List.mem_map.mp mem
    exact words entry queued
  obtain ⟨read, valid, consumed, yielded⟩ := D.run_words receives stream ⟨_, conserved⟩
  rw [consumed, List.append_assoc] at conserved
  obtain ⟨unread, split⟩ := F.prefix_of_flatten valid stream ⟨_, conserved⟩
  obtain ⟨arrived, missing, rfl, rfl, rfl⟩ := List.map_eq_append_iff.mp split.symm
  refine ⟨arrived, missing, users, by rw [yielded, List.map_map]; rfl, ?_, ?_⟩
  · exact fun item frame mem => decodes item frame (List.mem_append_left _ mem)
  · intro flushed clear stuck
    rw [clear, flushed, List.append_nil, List.append_nil] at conserved
    have whole := F.eq_of_flatten valid stream conserved stuck
    rw [List.map_append, List.self_eq_append_right] at whole
    exact List.map_eq_nil_iff.mp whole

theorem delivers_of_runs (S : Sends B F) (D : Receives T' F) (sends : Run T s sent t) (receives : Run T' s' received t')
    (carried : Carried F sent) (nothing : B.waiting s.inner = [])
    (piped : acceptedBytes sent = D.inp s'.inner ++ reportedBytes received ++ underWay) :
    Delivers F sent received underWay := by
  obtain ⟨arrived, missing, users, yielded, decodes, all⟩ := arrived_of_runs S D sends receives carried nothing piped
  refine ⟨arrived, missing, users, yielded, decodes, fun flushed clear drained => ?_⟩
  obtain ⟨past, cx, es, rfl⟩ := flushed
  obtain ⟨before, -, last⟩ := Path.concat_iff.mp sends
  exact all (S.waiting_of_pollFlush last) clear (D.stuck_of_drained receives drained)

end Direction

/-! ## Both directions -/

section Ends

variable {E : Type} {ls : List (MicroLabel R E)} {F : WireFormat}

private theorem fills_of_labels (contract : ∀ label ∈ ls, label.FillsWhenReady) :
    ∀ event ∈ (ls.flatMap MicroLabel.heard).flatMap Heard.polls, InnerEvent.FillsWhenReady event.2 := by
  intro event mem
  obtain ⟨heard, mem, polls⟩ := List.mem_flatMap.mp mem
  obtain ⟨label, mem, shows⟩ := List.mem_flatMap.mp mem
  have fills := contract label mem
  cases label with
  | io event' armed =>
    obtain rfl := List.mem_singleton.mp shows
    obtain rfl := List.mem_singleton.mp polls
    exact fills
  | fire | wake => cases shows
  | _ =>
    obtain rfl := List.mem_singleton.mp shows
    cases polls

theorem invoked_of_heard {use : Use} (heard : .invoke use ∈ ls.flatMap MicroLabel.heard) :
    .invoke use ∈ ls := by
  obtain ⟨label, mem, shows⟩ := List.mem_flatMap.mp heard
  cases label with
  | invoke use' =>
    obtain rfl := Heard.invoke.inj (List.mem_singleton.mp shows)
    exact mem
  | _ => simp [MicroLabel.heard] at shows

theorem carried_of_heard {labels : List (Label R)} (shown : ls.flatMap MicroLabel.heard = heardOf labels)
    (carried : ∀ item, .invoke (.stream (.startSend item)) ∈ ls → F.carries item) : Carried F labels := by
  intro label mem item op
  refine carried item (invoked_of_heard ?_)
  rw [shown, ← op]
  exact List.mem_flatMap.mpr ⟨label, mem, List.mem_cons_self⟩

variable [DecidableEq E] {cfg cfg' : Config T E} {flags : Flags} {owner : Owner R}

/-- What an end did between two moments without an operation, as whole operations with the same bytes. -/
theorem MicroRun.operations (run : MicroRun T cfg ls cfg') (start : cfg.thread = .idle (.stream flags))
    (idle : cfg'.thread = .idle owner) (contract : ∀ label ∈ ls, label.FillsWhenReady) :
    ∃ flags' labels, Run T ⟨cfg.inner, flags⟩ labels ⟨cfg'.inner, flags'⟩ ∧
      ls.flatMap MicroLabel.heard = heardOf labels ∧ acceptedBytes labels = ls.flatMap MicroLabel.accepted ∧
      reportedBytes labels = ls.flatMap MicroLabel.filled := by
  obtain ⟨flags', labels, -, streamed, shown⟩ := MicroRun.serial start run idle
  have polls : (ls.flatMap MicroLabel.heard).flatMap Heard.polls = labels.flatMap Label.io := by
    rw [shown, polls_heardOf]
  have fills := fills_of_labels contract
  rw [polls] at fills
  refine ⟨flags', labels, streamed, shown, ?_, ?_⟩
  · rw [accepted_of_heard, polls, acceptedBytes]
  · rw [streamed.reported_eq_filled fills, filled_of_heard, polls, filledBytes]

end Ends

section Connected

variable {E E' : Type} [DecidableEq E] [DecidableEq E'] {c d : Connection T T' E E'}
  {ls : List (MicroLabel R E ⊕ MicroLabel R' E')}

theorem ConnectionRun.left (run : ConnectionRun T T' c ls d) :
    MicroRun T c.left (lefts ls) d.left ∧ ∀ label ∈ lefts ls, label.FillsWhenReady := by
  induction run with
  | nil => exact ⟨.nil _, by simp [lefts]⟩
  | cons step _ ih =>
    cases step with
    | left here contract => exact ⟨.cons here ih.1, List.forall_mem_cons.mpr ⟨contract, ih.2⟩⟩
    | right here contract => exact ih

theorem ConnectionRun.right (run : ConnectionRun T T' c ls d) :
    MicroRun T' c.right (rights ls) d.right ∧ ∀ label ∈ rights ls, label.FillsWhenReady := by
  induction run with
  | nil => exact ⟨.nil _, by simp [rights]⟩
  | cons step _ ih =>
    cases step with
    | left here contract => exact ih
    | right here contract => exact ⟨.cons here ih.1, List.forall_mem_cons.mpr ⟨contract, ih.2⟩⟩

private theorem flatMap_lefts {α β γ : Type} (f : α → List γ) (ls : List (α ⊕ β)) :
    ls.flatMap (Sum.elim f fun _ => []) = (lefts ls).flatMap f := by
  induction ls with
  | nil => rfl
  | cons label rest ih =>
    cases label with
    | inl label => exact congrArg (f label ++ ·) ih
    | inr label => exact ih

private theorem flatMap_rights {α β γ : Type} (f : β → List γ) (ls : List (α ⊕ β)) :
    ls.flatMap (Sum.elim (fun _ => []) f) = (rights ls).flatMap f := by
  induction ls with
  | nil => rfl
  | cons label rest ih =>
    cases label with
    | inl label => exact ih
    | inr label => exact congrArg (f label ++ ·) ih

/-- A pipe loses, duplicates and reorders nothing. -/
theorem ConnectionRun.pipes (run : ConnectionRun T T' c ls d) :
    c.toRight ++ (lefts ls).flatMap MicroLabel.accepted = (rights ls).flatMap MicroLabel.filled ++ d.toRight ∧
      c.toLeft ++ (rights ls).flatMap MicroLabel.accepted = (lefts ls).flatMap MicroLabel.filled ++ d.toLeft := by
  simp only [← flatMap_lefts, ← flatMap_rights]
  refine ⟨run.conserves fun s label t step => ?_, run.conserves fun s label t step => ?_⟩
  · cases step with
    | left => simp
    | right here contract takes => simpa using takes
  · cases step with
    | left here contract takes => simpa using takes
    | right => simp

/-- Two new streams on a connection that has carried nothing. -/
structure Connection.Fresh (B : OutputBuffer T) (B' : OutputBuffer T') {F F' : WireFormat} (D : Receives T' F)
    (D' : Receives T F') (c : Connection T T' E E') : Prop where
  left : c.left.thread = .idle (.stream WebSocketStream.new)
  right : c.right.thread = .idle (.stream WebSocketStream.new)
  toRight : c.toRight = []
  toLeft : c.toLeft = []
  waiting : B.waiting c.left.inner = [] ∧ B'.waiting c.right.inner = []
  input : D.inp c.right.inner = [] ∧ D'.inp c.left.inner = []

/-- Two adapters deliver to each other, in both directions at once, however their operations, their polls and the
firings of their wakers interleave, and however the pipes cut up the bytes. -/
theorem duplex_delivery {B : OutputBuffer T} {B' : OutputBuffer T'} {F F' : WireFormat} (S : Sends B F)
    (S' : Sends B' F') (D : Receives T' F) (D' : Receives T F') {owner : Owner R} {owner' : Owner R'}
    (fresh : c.Fresh B B' D D') (run : ConnectionRun T T' c ls d) (idle : d.left.thread = .idle owner)
    (idle' : d.right.thread = .idle owner')
    (carried : ∀ item, .invoke (.stream (.startSend item)) ∈ lefts ls → F.carries item)
    (carried' : ∀ item, .invoke (.stream (.startSend item)) ∈ rights ls → F'.carries item) :
    ∃ ofLeft ofRight, (lefts ls).flatMap MicroLabel.heard = heardOf ofLeft ∧
      (rights ls).flatMap MicroLabel.heard = heardOf ofRight ∧
      Delivers F ofLeft ofRight d.toRight ∧ Delivers F' ofRight ofLeft d.toLeft := by
  obtain ⟨flags, ofLeft, left, shown, accepts, reports⟩ :=
    MicroRun.operations run.left.1 fresh.left idle run.left.2
  obtain ⟨flags', ofRight, right, shown', accepts', reports'⟩ :=
    MicroRun.operations run.right.1 fresh.right idle' run.right.2
  obtain ⟨toRight, toLeft⟩ := run.pipes
  rw [fresh.toRight, List.nil_append, ← accepts, ← reports'] at toRight
  rw [fresh.toLeft, List.nil_append, ← accepts', ← reports] at toLeft
  refine ⟨ofLeft, ofRight, shown, shown', ?_, ?_⟩
  · refine delivers_of_runs S D left right (carried_of_heard shown carried) fresh.waiting.1 ?_
    rw [fresh.input.1, List.nil_append, toRight]
  · refine delivers_of_runs S' D' right left (carried_of_heard shown' carried') fresh.waiting.2 ?_
    rw [fresh.input.2, List.nil_append, toLeft]

/-- A stream made without a handshake from one that was half read yields what the other end sent from the beginning:
`part` of it had been read before and is handed over, and the rest lay in the pipe or came later. -/
theorem adopted_delivery {B : OutputBuffer T} {F : WireFormat} (S : Sends B F) (D : Receives T' F) {start : Config T E}
    {early : List (MicroLabel R E)} {part : Bytes} {A : Type} {stream : A} {adopt : A → T'.State} {cx : Waker}
    {u v : T'.State} {es : List (OuterEvent R')} {flags flags' : Flags} {owner : Owner R} {owner' : Owner R'}
    (begins : start.thread = .idle (.stream flags) ∧ B.waiting start.inner = [])
    (before : MicroRun T start early c.left) (contract : ∀ label ∈ early, label.FillsWhenReady)
    (halved : early.flatMap MicroLabel.accepted = part ++ c.toRight)
    (adopted : Exec T'.handler (withoutHandshake stream adopt cx) u es (some (.ready (c.right.inner, flags'))) v)
    (keeps : D.inp (adopt stream) = part) (start' : c.right.thread = .idle (.stream flags'))
    (run : ConnectionRun T T' c ls d) (idle : d.left.thread = .idle owner) (idle' : d.right.thread = .idle owner')
    (carried : ∀ item, .invoke (.stream (.startSend item)) ∈ early ++ lefts ls → F.carries item) :
    ∃ ofLeft ofRight, (early ++ lefts ls).flatMap MicroLabel.heard = heardOf ofLeft ∧
      (rights ls).flatMap MicroLabel.heard = heardOf ofRight ∧ Delivers F ofLeft ofRight d.toRight := by
  obtain ⟨-, made, -⟩ := withoutHandshake_iff.mp adopted
  obtain ⟨inner, -⟩ := Prod.mk.inj (Poll.ready.inj (Option.some.inj made))
  have fills : ∀ label ∈ early ++ lefts ls, label.FillsWhenReady := List.forall_mem_append.mpr ⟨contract, run.left.2⟩
  obtain ⟨_, ofLeft, left, shown, accepts, -⟩ :=
    MicroRun.operations (before.append run.left.1) begins.1 idle fills
  obtain ⟨_, ofRight, right, shown', -, reports⟩ := MicroRun.operations run.right.1 start' idle' run.right.2
  refine ⟨ofLeft, ofRight, shown, shown', delivers_of_runs S D left right (carried_of_heard shown carried) begins.2 ?_⟩
  calc
    acceptedBytes ofLeft = early.flatMap MicroLabel.accepted ++ (lefts ls).flatMap MicroLabel.accepted := by
      rw [accepts, List.flatMap_append]
    _ = part ++ ((rights ls).flatMap MicroLabel.filled ++ d.toRight) := by
      rw [halved, List.append_assoc, run.pipes.1]
    _ = D.inp c.right.inner ++ reportedBytes ofRight ++ d.toRight := by
      rw [inner, keeps, reports, List.append_assoc]

end Connected

/-! Two WebSockets whose messages are single bytes, each in a final, unmasked binary frame: the left one sends a byte
and flushes it out, and the right one reads it and waits for more. -/

def tinyFrame (b : UInt8) : Bytes := [0x82, 1, b]

def tiny : Tungstenite noHandshake where
  State := Buffer
  exec c s std r t :=
    match c with
    | .write item => ∃ b, item = .binary [b] ∧ std = [] ∧ r = .ok () ∧ t = s.queue (.user item, tinyFrame b)
    | .flush => std = [⟨.write (s.out.map Prod.snd), .ok s.out.length⟩, ⟨.flush, .ok ()⟩] ∧ r = .ok () ∧
        t = s.wrote (.ok s.out.length)
    | .read => t = s ∧ ((∃ b, std = [⟨.read 4096, .ok (tinyFrame b)⟩] ∧ r = .ok (.binary [b])) ∨
        (std = [⟨.read 4096, .error .wouldBlock⟩] ∧ r = .error (.io .wouldBlock)))
    | _ => False

def tinyBuffer : OutputBuffer tiny where
  out := Buffer.out
  log := Buffer.log
  history := by
    intro c s std r t exec
    cases c with
    | write item =>
      obtain ⟨b, rfl, rfl, rfl, rfl⟩ := exec
      exact ⟨[.queue (.user (.binary [b]), tinyFrame b)], rfl, ⟨by rintro buf r ⟨⟩, trivial⟩, rfl, rfl⟩
    | flush =>
      obtain ⟨rfl, rfl, rfl⟩ := exec
      refine ⟨[.io ⟨.write (s.out.map Prod.snd), .ok s.out.length⟩, .io ⟨.flush, .ok ()⟩], rfl, ⟨?_, ?_, trivial⟩, rfl,
        (List.append_nil _).symm⟩
      · rintro buf r ⟨⟩
        rfl
      · rintro buf r ⟨⟩
    | read =>
      obtain ⟨rfl, ⟨b, rfl, rfl⟩ | ⟨rfl, rfl⟩⟩ := exec
      · exact ⟨[.io ⟨.read 4096, .ok (tinyFrame b)⟩], rfl, ⟨by rintro buf r ⟨⟩, trivial⟩, rfl,
          (List.append_nil _).symm⟩
      · exact ⟨[.io ⟨.read 4096, .error .wouldBlock⟩], rfl, ⟨by rintro buf r ⟨⟩, trivial⟩, rfl,
          (List.append_nil _).symm⟩
    | _ => exact exec.elim

def tinyFormat : WireFormat where
  word w := ∃ b, w = tinyFrame b
  nonempty := by
    rintro w ⟨b, rfl⟩
    exact List.cons_ne_nil 0x82 [1, b]
  prefixFree := by
    rintro w w' ⟨b, rfl⟩ ⟨b', rfl⟩ begins
    exact begins.eq_of_length rfl
  encodes item frame := ∃ b, item = .binary [b] ∧ frame = tinyFrame b
  carries item := ∃ b, item = .binary [b]
  decode frame := .binary (frame.drop 2)
  word_of_encodes := by
    rintro item frame - ⟨b, -, encoded⟩
    exact ⟨b, encoded⟩
  decode_of_encodes := by
    rintro item frame - ⟨b, rfl, rfl⟩
    rfl

/-- A call queues nothing, or is the write of a byte and queues that. -/
private theorem tiny_queues {c : Call noHandshake} {s t : Buffer} {std : List StdEvent} {r : c.Answer}
    {new : List Entry} (exec : tiny.exec c s std r t) (logged : t.log = s.log ++ new) :
    (new = [] ∧ queuedBy c r = []) ∨
      ∃ b, new = [(.user (.binary [b]), tinyFrame b)] ∧ queuedBy c r = [.binary [b]] := by
  cases c with
  | write item =>
    obtain ⟨b, rfl, rfl, rfl, rfl⟩ := exec
    obtain rfl := List.append_cancel_left logged
    exact .inr ⟨b, rfl, rfl⟩
  | flush =>
    obtain ⟨rfl, rfl, rfl⟩ := exec
    exact .inl ⟨List.self_eq_append_right.mp logged, rfl⟩
  | read =>
    obtain ⟨rfl, -⟩ := exec
    exact .inl ⟨List.self_eq_append_right.mp logged, rfl⟩
  | _ => exact exec.elim

theorem tiny_sends : Sends tinyBuffer tinyFormat where
  queues exec logged := by
    rcases tiny_queues exec logged with ⟨rfl, queued⟩ | ⟨b, rfl, queued⟩
    · exact queued.symm
    · exact queued.symm
  encodes exec logged item frame mem := by
    rcases tiny_queues exec logged with ⟨rfl, -⟩ | ⟨b, rfl, -⟩
    · cases mem
    · cases List.mem_singleton.mp mem
      exact ⟨b, rfl, rfl⟩
  flushEmpties := by
    rintro s std t r ⟨rfl, rfl, rfl⟩ -
    exact List.drop_length
  control _ exec logged frame mem := by
    rcases tiny_queues exec logged with ⟨rfl, -⟩ | ⟨b, rfl, -⟩
    · cases mem
    · cases List.mem_singleton.mp mem

def tinyReceives : Receives tiny tinyFormat where
  inp _ := []
  consumes := by
    intro c s std r t stream exec _ _
    cases c with
    | write item =>
      obtain ⟨b, rfl, rfl, rfl, rfl⟩ := exec
      exact ⟨[], by simp, rfl, rfl⟩
    | flush =>
      obtain ⟨rfl, rfl, rfl⟩ := exec
      exact ⟨[], by simp, rfl, rfl⟩
    | read =>
      obtain ⟨rfl, ⟨b, rfl, rfl⟩ | ⟨rfl, rfl⟩⟩ := exec
      · exact ⟨[tinyFrame b], List.forall_mem_singleton.mpr ⟨b, rfl⟩, rfl, rfl⟩
      · exact ⟨[], by simp, rfl, rfl⟩
    | _ => exact exec.elim
  blocked _ _ w word begins := tinyFormat.nonempty word (List.prefix_nil.mp begins)

def tinySent : IoEvent :=
  (⟨.write (tinyFrame 7), .ok 3⟩, ⟨.pollWrite .writeWakerProxy (tinyFrame 7), .ready (.ok 3)⟩)

def tinyFlushed : IoEvent := (⟨.flush, .ok ()⟩, ⟨.pollFlush .writeWakerProxy, .ready (.ok ())⟩)

def tinyRead : IoEvent :=
  (⟨.read 4096, .ok (tinyFrame 7)⟩,
    ⟨.pollRead .readWakerProxy 4096, (⟨tinyFrame 7, by decide⟩, .ready (.ok ()))⟩)

def tinyBlocked : IoEvent :=
  (⟨.read 4096, .error .wouldBlock⟩, ⟨.pollRead .readWakerProxy 4096, (⟨[], by decide⟩, .pending)⟩)

def tinyFlushing : List (MicroLabel noHandshake Unit) :=
  [.register (.writeWakerProxy, .write) ⟨1⟩, .register (.readWakerProxy, .write) ⟨1⟩, .enter .flush, .io tinySent [],
    .io tinyFlushed [], .leave .flush (.ok ())]

def tinyReading : List (MicroLabel noHandshake Unit) :=
  pollLabels (.read, ⟨2⟩) .read tinyBlocked [()] (.error (.io .wouldBlock))

def tinyLeft : List (MicroLabel noHandshake Unit) :=
  [.invoke (.stream (.startSend (.binary [7]))), .enter (.write (.binary [7])), .leave (.write (.binary [7])) (.ok ()),
    .answer (.stream (.sent (.ok ())))] ++
  .invoke (.stream (.pollFlush ⟨1⟩)) :: (tinyFlushing ++ [.answer (.stream (.sink (.ready (.ok ()))))])

def tinyRight : List (MicroLabel noHandshake Unit) :=
  .invoke (.stream (.pollNext ⟨2⟩)) :: (pollLabels (.read, ⟨2⟩) .read tinyRead [] (.ok (.binary [7])) ++
    [.answer (.stream (.next (.ready (some (.ok (.binary [7]))))))]) ++
  .invoke (.stream (.pollNext ⟨2⟩)) :: (tinyReading ++ [.answer (.stream (.next .pending))])

def tinyConfig (buffer : Buffer) : Config tiny Unit where
  thread := .idle (.stream WebSocketStream.new)
  inner := buffer
  slots _ := none
  sources _ := none
  firing := []

private theorem tinyLeft_run : ∃ cfg, MicroRun tiny (tinyConfig ⟨[], []⟩) tinyLeft cfg ∧
    cfg.thread = .idle (.stream WebSocketStream.new) ∧ tinyBuffer.waiting cfg.inner = [] ∧ Quiet cfg := by
  have sends : MicroRun tiny (tinyConfig ⟨[], []⟩)
      [.invoke (.stream (.startSend (.binary [7]))), .enter (.write (.binary [7])),
        .leave (.write (.binary [7])) (.ok ()), .answer (.stream (.sent (.ok ())))]
      (tinyConfig ⟨Entry.bytes (.user (.binary [7]), tinyFrame 7), [(.user (.binary [7]), tinyFrame 7)]⟩) :=
    .cons (.invoke rfl rfl) (.cons (.enter rfl) (.cons (.leave rfl ⟨7, rfl, rfl, rfl, rfl⟩) (.single (.answer rfl))))
  have written : Performs tinySent := performs_write_iff.mpr ⟨_, rfl, rfl⟩
  have flushed : Performs tinyFlushed := performs_flush_iff.mpr ⟨_, rfl, rfl⟩
  refine ⟨_, sends.append (.cons (.invoke rfl rfl) (.cons (.register rfl) (.cons (.register rfl) (.cons (.enter rfl)
    (.cons (.io rfl written) (.cons (.io rfl flushed) (.cons (.leave rfl ⟨rfl, rfl, rfl⟩)
      (.single (.answer rfl))))))))), rfl, rfl, fun _ => rfl, ?_⟩
  rintro slots ⟨⟩

private theorem tinyRight_run : ∃ cfg, MicroRun tiny (tinyConfig ⟨[], []⟩) tinyRight cfg ∧
    cfg.thread = .idle (.stream WebSocketStream.new) := by
  have reads : MicroRun tiny (tinyConfig ⟨[], []⟩)
      (.invoke (.stream (.pollNext ⟨2⟩)) :: (pollLabels (.read, ⟨2⟩) .read tinyRead [] (.ok (.binary [7])) ++
        [.answer (.stream (.next (.ready (some (.ok (.binary [7]))))))]))
      ((tinyConfig ⟨[], []⟩).polled (.stream WebSocketStream.new) (.read, ⟨2⟩) tinyRead [] ⟨[], []⟩) :=
    poll_run rfl rfl (performs_read_iff.mpr ⟨_, rfl, rfl⟩) ⟨rfl, .inl ⟨7, rfl, rfl⟩⟩ rfl
  exact ⟨_, reads.append (poll_run rfl rfl (performs_read_iff.mpr ⟨_, rfl, rfl⟩) ⟨rfl, .inr ⟨rfl, rfl⟩⟩ rfl), rfl⟩

/-- Every step of the left end keeps the contract of `poll_read`. -/
private theorem tinyLeft_fills : ∀ label ∈ tinyLeft, label.FillsWhenReady := by
  simp [tinyLeft, tinyFlushing, MicroLabel.FillsWhenReady, InnerEvent.FillsWhenReady, tinySent, tinyFlushed]

private theorem tinyLeft_carried (item : Message) (mem : .invoke (.stream (.startSend item)) ∈ tinyLeft) :
    tinyFormat.carries item := by
  obtain rfl : item = .binary [7] := by simpa [tinyLeft, tinyFlushing] using mem
  exact ⟨7, rfl⟩

section Alone

variable {E E' : Type} [DecidableEq E] [DecidableEq E'] {toRight toLeft rest : Bytes}

/-- An end may run alone while the pipe to it has what it reads. -/
private theorem alone_left {cfg next : Config T E} {right : Config T' E'} {ls : List (MicroLabel R E)}
    (run : MicroRun T cfg ls next) (contract : ∀ label ∈ ls, label.FillsWhenReady) :
    ConnectionRun T T' ⟨cfg, right, toRight, ls.flatMap MicroLabel.filled ++ rest⟩ (ls.map .inl)
      ⟨next, right, toRight ++ ls.flatMap MicroLabel.accepted, rest⟩ := by
  induction run generalizing toRight with
  | nil => simp
  | @cons cfg middle next label ls step _ ih =>
    rw [List.forall_mem_cons] at contract
    have first : ConnectionStep T T' ⟨cfg, right, toRight, (label :: ls).flatMap MicroLabel.filled ++ rest⟩ (.inl label)
        ⟨middle, right, toRight ++ label.accepted, ls.flatMap MicroLabel.filled ++ rest⟩ :=
      .left step contract.1 (by rw [List.flatMap_cons, List.append_assoc])
    rw [List.flatMap_cons (f := MicroLabel.accepted), ← List.append_assoc]
    exact .cons first (ih contract.2)

private theorem alone_right {left : Config T E} {cfg next : Config T' E'} {ls : List (MicroLabel R' E')}
    (run : MicroRun T' cfg ls next) (contract : ∀ label ∈ ls, label.FillsWhenReady) :
    ConnectionRun T T' ⟨left, cfg, ls.flatMap MicroLabel.filled ++ rest, toLeft⟩ (ls.map .inr)
      ⟨left, next, rest, toLeft ++ ls.flatMap MicroLabel.accepted⟩ := by
  induction run generalizing toLeft with
  | nil => simp
  | @cons cfg middle next label ls step _ ih =>
    rw [List.forall_mem_cons] at contract
    have first : ConnectionStep T T' ⟨left, cfg, (label :: ls).flatMap MicroLabel.filled ++ rest, toLeft⟩ (.inr label)
        ⟨left, middle, ls.flatMap MicroLabel.filled ++ rest, toLeft ++ label.accepted⟩ :=
      .right step contract.1 (by rw [List.flatMap_cons, List.append_assoc])
    rw [List.flatMap_cons (f := MicroLabel.accepted), ← List.append_assoc]
    exact .cons first (ih contract.2)

end Alone

def tinyLabels : List (MicroLabel noHandshake Unit ⊕ MicroLabel noHandshake Unit) :=
  tinyLeft.map .inl ++ tinyRight.map .inr

theorem tiny_connected : ∃ left right, ConnectionRun tiny tiny
    ⟨tinyConfig ⟨[], []⟩, tinyConfig ⟨[], []⟩, [], []⟩ tinyLabels ⟨left, right, [], []⟩ ∧
    left.thread = .idle (.stream WebSocketStream.new) ∧ right.thread = .idle (.stream WebSocketStream.new) ∧
    tinyBuffer.waiting left.inner = [] ∧ Quiet left := by
  obtain ⟨left, sends, idle, settled⟩ := tinyLeft_run
  obtain ⟨right, reads, idle'⟩ := tinyRight_run
  have fills : ∀ label ∈ tinyRight, label.FillsWhenReady := by
    simp [tinyRight, tinyReading, pollLabels, MicroLabel.FillsWhenReady, InnerEvent.FillsWhenReady, tinyRead,
      tinyBlocked]
  have first : ConnectionRun tiny tiny ⟨tinyConfig ⟨[], []⟩, tinyConfig ⟨[], []⟩, [], []⟩ (tinyLeft.map .inl)
      ⟨left, tinyConfig ⟨[], []⟩, tinyFrame 7, []⟩ := alone_left sends tinyLeft_fills
  have second : ConnectionRun tiny tiny ⟨left, tinyConfig ⟨[], []⟩, tinyFrame 7, []⟩ (tinyRight.map .inr)
      ⟨left, right, [], []⟩ := alone_right reads fills
  exact ⟨left, right, first.append second, idle, idle', settled⟩

theorem tiny_carried (item : Message) (mem : .invoke (.stream (.startSend item)) ∈ lefts tinyLabels) :
    tinyFormat.carries item := tinyLeft_carried item mem

theorem duplex_delivery_tiny : ∃ ofLeft ofRight, tinyLeft.flatMap MicroLabel.heard = heardOf ofLeft ∧
    tinyRight.flatMap MicroLabel.heard = heardOf ofRight ∧ Delivers tinyFormat ofLeft ofRight [] ∧
    Delivers tinyFormat ofRight ofLeft [] := by
  obtain ⟨left, right, run, idle, idle', -⟩ := tiny_connected
  have silent : ∀ item, .invoke (.stream (.startSend item)) ∈ rights tinyLabels → tinyFormat.carries item := by
    intro item mem
    simp [tinyLabels, rights, tinyLeft, tinyFlushing, tinyRight, tinyReading, pollLabels] at mem
  exact duplex_delivery tiny_sends tiny_sends tinyReceives tinyReceives ⟨rfl, rfl, rfl, rfl, ⟨rfl, rfl⟩, ⟨rfl, rfl⟩⟩
    run idle idle' tiny_carried silent

/-! The same sender, and a receiver that is handed the first two bytes of the frame with the stream. -/

private def handed : Tungstenite noHandshake where
  State := Bytes
  exec c s std r t :=
    match c with
    | .read => (∃ chunk b, s ++ chunk = tinyFrame b ++ t ∧ std = [⟨.read 4096, .ok chunk⟩] ∧ r = .ok (.binary [b])) ∨
        (t = s ∧ (∀ b, ¬ tinyFrame b <+: s) ∧ std = [⟨.read 4096, .error .wouldBlock⟩] ∧ r = .error (.io .wouldBlock))
    | _ => False

private def handedReceives : Receives handed tinyFormat where
  inp := id
  consumes := by
    intro c s std r t stream exec _ _
    cases c with
    | read =>
      rcases exec with ⟨chunk, b, read, rfl, rfl⟩ | ⟨rfl, -, rfl, rfl⟩
      · have reported : List.flatMap StdEvent.reported [⟨.read 4096, .ok chunk⟩] = chunk := List.append_nil chunk
        refine ⟨[tinyFrame b], List.forall_mem_singleton.mpr ⟨b, rfl⟩, ?_, rfl⟩
        rw [reported]
        exact read
      · exact ⟨[], by simp, List.append_nil _, rfl⟩
    | _ => exact exec.elim
  blocked := by
    rintro s std e t (⟨chunk, b, -, -, ⟨⟩⟩ | ⟨rfl, stuck, -, -⟩) - w ⟨b, rfl⟩
    exact stuck b

private def handedConfig (inner : Bytes) : Config handed Unit where
  thread := .idle (.stream WebSocketStream.new)
  inner := inner
  slots _ := none
  sources _ := none
  firing := []

private def handedRead : IoEvent :=
  (⟨.read 4096, .ok [7]⟩, ⟨.pollRead .readWakerProxy 4096, (⟨[7], by decide⟩, .ready (.ok ()))⟩)

private def handedRight : List (MicroLabel noHandshake Unit) :=
  .invoke (.stream (.pollNext ⟨2⟩)) :: (pollLabels (.read, ⟨2⟩) .read handedRead [] (.ok (.binary [7])) ++
    [.answer (.stream (.next (.ready (some (.ok (.binary [7]))))))])

theorem adopted_delivery_tiny : ∃ ofLeft ofRight, tinyLeft.flatMap MicroLabel.heard = heardOf ofLeft ∧
    handedRight.flatMap MicroLabel.heard = heardOf ofRight ∧ Delivers tinyFormat ofLeft ofRight [] := by
  obtain ⟨left, sends, idle, -⟩ := tinyLeft_run
  have fills : ∀ label ∈ handedRight, label.FillsWhenReady := by
    simp [handedRight, pollLabels, MicroLabel.FillsWhenReady, InnerEvent.FillsWhenReady, handedRead]
  have carried : ∀ item, .invoke (.stream (.startSend item)) ∈ tinyLeft ++ [] → tinyFormat.carries item := by
    rw [List.append_nil]
    exact tinyLeft_carried
  obtain ⟨right, reads, idle'⟩ : ∃ right, MicroRun handed (handedConfig [0x82, 1]) handedRight right ∧
      right.thread = .idle (.stream WebSocketStream.new) :=
    ⟨(handedConfig [0x82, 1]).polled _ (.read, ⟨2⟩) handedRead [] [], poll_run rfl rfl
      (performs_read_iff.mpr ⟨_, rfl, rfl⟩) (.inl ⟨[7], 7, rfl, rfl, rfl⟩) rfl, rfl⟩
  have adopted : Exec handed.handler (withoutHandshake () (fun _ : Unit => [0x82, 1]) ⟨2⟩) [] (registrations .read ⟨2⟩)
      (some (.ready ((handedConfig [0x82, 1]).inner, WebSocketStream.new))) [] :=
    withoutHandshake_iff.mpr ⟨rfl, rfl, rfl⟩
  have run : ConnectionRun tiny handed ⟨left, handedConfig [0x82, 1], [7], []⟩ (handedRight.map .inr)
      ⟨left, right, [], []⟩ := alone_right reads fills
  have halved : tinyLeft.flatMap MicroLabel.accepted = [0x82, 1] ++ [7] := rfl
  have keeps : handedReceives.inp [0x82, 1] = [0x82, 1] := rfl
  have delivered := adopted_delivery tiny_sends handedReceives ⟨rfl, rfl⟩ sends tinyLeft_fills halved adopted keeps rfl
    run idle idle' carried
  exact delivered

end TokioTungstenite
