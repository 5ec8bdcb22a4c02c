import TokioTungstenite.Execution.Program

/-! # What a program spends, and what explains its result

Three properties of a program along each of its paths, whatever its operations answer. `Within` bounds the cost of
the operations it performs. `Unless` says that the program returns what is expected of it, unless some operation
gave a marked answer on the way. `FailStop` says the same of failures, which besides are the end: nothing is performed
after a failure, and its error is returned. All three compose with the program.
-/

namespace Execution.Program

variable {P : PFunctor.{0, 0}} {α β : Type}

/-- The operations performed cost no more than the budget. -/
def Within (cost : P.A → ℕ) : Program P α → ℕ → Prop
  | .pure _, _ => True
  | .perform op next, budget => cost op ≤ budget ∧ ∀ answer, (next answer).Within cost (budget - cost op)

namespace Within

variable {cost : P.A → ℕ} {program : Program P α} {f : α → Program P β} {budget more : ℕ}

theorem mono (within : program.Within cost budget) (le : budget ≤ more) : program.Within cost more := by
  induction program generalizing budget more with
  | pure value => trivial
  | perform op next ih =>
    obtain ⟨paid, rest⟩ := within
    exact ⟨paid.trans le, fun answer => ih answer (rest answer) (Nat.sub_le_sub_right le _)⟩

theorem lift {op : P.A} (paid : cost op ≤ budget) : (Program.lift op).Within cost budget := ⟨paid, fun _ => trivial⟩

/-- What the first part leaves of its budget is spent by the rest. -/
theorem bind (first : program.Within cost budget) (rest : ∀ value, (f value).Within cost more) :
    (program >>= f).Within cost (budget + more) := by
  induction program generalizing budget with
  | pure value => exact (rest value).mono (Nat.le_add_left _ _)
  | perform op next ih =>
    obtain ⟨paid, left⟩ := first
    refine ⟨paid.trans (Nat.le_add_right _ _), fun answer => ?_⟩
    have spent : budget + more - cost op = budget - cost op + more := by omega
    rw [spent]
    exact ih answer (left answer)

/-- What costs nothing may follow. -/
theorem bind_free (first : program.Within cost budget) (free : ∀ value, (f value).Within cost 0) :
    (program >>= f).Within cost budget := first.bind free

theorem map (g : α → β) (within : program.Within cost budget) : (g <$> program).Within cost budget := by
  rw [← bind_pure_comp]
  exact within.bind_free fun _ => trivial

end Within

/-- On every path an operation gives a marked answer, or the value returned is as expected. -/
def Unless (marked : (op : P.A) → P.B op → Prop) (expected : α → Prop) : Program P α → Prop
  | .pure value => expected value
  | .perform op next => ∀ answer, marked op answer ∨ (next answer).Unless marked expected

namespace Unless

variable {marked : (op : P.A) → P.B op → Prop} {between : α → Prop} {expected : β → Prop} {program : Program P α}
  {f : α → Program P β}

theorem lift {op : P.A} {expected : P.B op → Prop} (explains : ∀ answer, marked op answer ∨ expected answer) :
    (Program.lift op).Unless marked expected := explains

/-- Sequencing passes on what the first part is expected to return. -/
theorem bind (first : program.Unless marked between)
    (rest : ∀ value, between value → (f value).Unless marked expected) : (program >>= f).Unless marked expected := by
  induction program with
  | pure value => exact rest value first
  | perform op next ih => exact fun answer => (first answer).imp_right (ih answer)

theorem map (between : α → Prop) {g : α → β} (first : program.Unless marked between)
    (gives : ∀ value, between value → expected (g value)) : (g <$> program).Unless marked expected := by
  rw [← bind_pure_comp]
  exact first.bind gives

end Unless

/-- After an answer that is a failure nothing is performed, and its error is returned; without a failure the value
returned is as expected. -/
def FailStop {ε : Type} (failure : (op : P.A) → P.B op → Option ε) (expected : Except ε α → Prop) :
    Program P (Except ε α) → Prop
  | .pure value => expected value
  | .perform op next => ∀ answer,
      match failure op answer with
      | some e => next answer = .pure (.error e)
      | none => (next answer).FailStop failure expected

namespace FailStop

variable {ε : Type} {failure : (op : P.A) → P.B op → Option ε} {between : Except ε α → Prop}
  {expected : Except ε β → Prop}

theorem mono {weaker : Except ε α → Prop} {program : Program P (Except ε α)}
    (stops : program.FailStop failure between) (weaken : ∀ result, between result → weaker result) :
    program.FailStop failure weaker := by
  induction program with
  | pure value => exact weaken value stops
  | perform op next ih =>
    intro answer
    have here := stops answer
    cases failed : failure op answer with
    | some e =>
      rw [failed] at here
      exact here
    | none =>
      rw [failed] at here
      exact ih answer here

/-- Sequencing, with errors of the first part passed on as they are. -/
theorem bind {program : Program P (Except ε α)} {f : Except ε α → Program P (Except ε β)}
    (first : program.FailStop failure between) (passes : ∀ e, f (.error e) = .pure (.error e))
    (raised : ∀ e, between (.error e) → expected (.error e))
    (rest : ∀ value, between (.ok value) → (f (.ok value)).FailStop failure expected) :
    (program >>= f).FailStop failure expected := by
  induction program with
  | pure value =>
    change (f value).FailStop failure expected
    cases value with
    | error e =>
      rw [passes e]
      exact raised e first
    | ok value => exact rest value first
  | perform op next ih =>
    intro answer
    have here := first answer
    cases failed : failure op answer with
    | some e =>
      rw [failed] at here
      change next answer >>= f = _
      rw [show next answer = .pure (.error e) from here]
      exact passes e
    | none =>
      rw [failed] at here
      exact ih answer here

end FailStop

end Execution.Program

namespace Execution.Exec

variable {P : PFunctor.{0, 0}} {ε α : Type} {failure : (op : P.A) → P.B op → Option ε} {expected : Except ε α → Prop}
  {program : Program P (Except ε α)} {es : List P.Idx} {result : Except ε α}

end Execution.Exec
