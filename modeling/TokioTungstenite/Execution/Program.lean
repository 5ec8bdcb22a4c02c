import Mathlib.Data.PFunctor.Univariate.Basic

/-! # Programs over an interface, and their handled executions

A `Program P α` is finite code that performs operations of the interface `P` and returns an `α`:
the polynomial functor lists the operations (`P.A`) and the answers of each (`P.B`). A `Handler`
says what one operation may do to an ambient state and which event records it. `Exec` runs a whole
program against a handler; its inversion lemmas read a program off one statement at a time, so that
clients never unfold the definition.
-/

namespace Execution

/-- Code that either returns, or performs one operation and continues with its answer. -/
inductive Program (P : PFunctor.{0, 0}) (α : Type) : Type
  | pure (value : α)
  | perform (op : P.A) (next : P.B op → Program P α)

namespace Program

variable {P : PFunctor.{0, 0}} {α β : Type}

def bind : Program P α → (α → Program P β) → Program P β
  | .pure value, f => f value
  | .perform op next, f => .perform op fun answer => (next answer).bind f

instance : Monad (Program P) where
  pure := .pure
  bind := .bind

/-- The program that performs one operation and returns its answer. -/
def lift (op : P.A) : Program P (P.B op) := .perform op .pure

@[simp] theorem pure_bind (value : α) (f : α → Program P β) : (.pure value : Program P α) >>= f = f value := rfl

@[simp] theorem lift_bind (op : P.A) (f : P.B op → Program P β) : lift op >>= f = .perform op f := rfl

private theorem bind_pure_self (program : Program P α) : program.bind .pure = program := by
  induction program with
  | pure value => rfl
  | perform op next ih => exact congrArg (Program.perform op) (funext ih)

private theorem bind_assoc' {γ : Type} (program : Program P α) (f : α → Program P β) (g : β → Program P γ) :
    (program.bind f).bind g = program.bind fun value => (f value).bind g := by
  induction program with
  | pure value => rfl
  | perform op next ih => exact congrArg (Program.perform op) (funext ih)

instance : LawfulMonad (Program P) :=
  LawfulMonad.mk' (Program P) bind_pure_self (fun _ _ => rfl) bind_assoc'

/-- Every operation the program may come to perform is good, and every value it may come to return is expected. -/
def Satisfies (good : P.A → Prop) (expected : α → Prop) : Program P α → Prop
  | .pure value => expected value
  | .perform op next => good op ∧ ∀ answer, (next answer).Satisfies good expected

/-- Every operation the program may come to perform is good. -/
abbrev All (good : P.A → Prop) (program : Program P α) : Prop := program.Satisfies good fun _ => True

section Satisfies

variable {good weaker : P.A → Prop} {between : α → Prop} {expected : β → Prop} {program : Program P α}
  {f : α → Program P β}

theorem All.lift {op : P.A} (holds : good op) : (Program.lift op).All good := ⟨holds, fun _ => trivial⟩

/-- Sequencing passes on what the first part is expected to return. -/
theorem Satisfies.bind (first : program.Satisfies good between)
    (rest : ∀ value, between value → (f value).Satisfies good expected) : (program >>= f).Satisfies good expected := by
  induction program with
  | pure value => exact rest value first
  | perform op next ih => exact ⟨first.1, fun answer => ih answer (first.2 answer)⟩

theorem All.bind (first : program.All good) (rest : ∀ value, (f value).Satisfies good expected) :
    (program >>= f).Satisfies good expected := Satisfies.bind first fun value _ => rest value

theorem All.map (g : α → β) (all : program.All good) : (g <$> program).All good := by
  rw [← bind_pure_comp]
  exact all.bind fun _ => trivial

theorem Satisfies.mono (weaken : ∀ op, good op → weaker op) (satisfies : program.Satisfies good between) :
    program.Satisfies weaker between := by
  induction program with
  | pure value => exact satisfies
  | perform op next ih => exact ⟨weaken op satisfies.1, fun answer => ih answer (satisfies.2 answer)⟩

theorem Satisfies.all (satisfies : program.Satisfies good between) : program.All good := by
  induction program with
  | pure value => trivial
  | perform op next ih => exact ⟨satisfies.1, fun answer => ih answer (satisfies.2 answer)⟩

end Satisfies

end Program

/-- `handler op s e b t`: in state `s` the operation `op` may answer `b` and leave the state `t`,
an occurrence recorded as the event `e`. -/
abbrev Handler (P : PFunctor.{0, 0}) (σ ε : Type) := (op : P.A) → σ → ε → P.B op → σ → Prop

/-- `Exec handler program s es a t`: handled from `s`, the program leaves the events `es`, returns
`a` and ends in `t`. -/
inductive Exec {P : PFunctor.{0, 0}} {σ ε α : Type} (handler : Handler P σ ε) :
    Program P α → σ → List ε → α → σ → Prop
  | pure (value : α) (s : σ) : Exec handler (.pure value) s [] value s
  | perform {op : P.A} {next : P.B op → Program P α} {s middle t : σ} {e : ε} {es : List ε}
      {answer : P.B op} {value : α} : handler op s e answer middle →
      Exec handler (next answer) middle es value t →
      Exec handler (.perform op next) s (e :: es) value t

namespace Exec

variable {P : PFunctor.{0, 0}} {σ ε α β : Type} {handler : Handler P σ ε} {s t : σ} {es : List ε}

@[simp] theorem pure_iff {value result : α} :
    Exec handler (.pure value) s es result t ↔ es = [] ∧ result = value ∧ t = s := by
  constructor
  · rintro ⟨⟩
    exact ⟨rfl, rfl, rfl⟩
  · rintro ⟨rfl, rfl, rfl⟩
    exact .pure _ _

/-- `pure` as do-notation writes it. -/
@[simp] theorem return_iff {value result : α} :
    Exec handler (Pure.pure value : Program P α) s es result t ↔ es = [] ∧ result = value ∧ t = s := pure_iff

theorem perform_iff {op : P.A} {next : P.B op → Program P α} {result : α} :
    Exec handler (.perform op next) s es result t ↔
      ∃ e answer middle rest, es = e :: rest ∧ handler op s e answer middle ∧
        Exec handler (next answer) middle rest result t := by
  constructor
  · rintro (_ | ⟨handled, rest⟩)
    exact ⟨_, _, _, _, rfl, handled, rest⟩
  · rintro ⟨e, answer, middle, rest, rfl, handled, continues⟩
    exact .perform handled continues

@[simp] theorem lift_iff {op : P.A} {result : P.B op} :
    Exec handler (.lift op) s es result t ↔ ∃ e, es = [e] ∧ handler op s e result t := by
  simp only [Program.lift, perform_iff, pure_iff]
  constructor
  · rintro ⟨e, answer, middle, rest, rfl, handled, rfl, rfl, rfl⟩
    exact ⟨e, rfl, handled⟩
  · rintro ⟨e, rfl, handled⟩
    exact ⟨e, result, t, [], rfl, handled, rfl, rfl, rfl⟩

/-- Sequencing splits the events at the state the first part leaves. -/
theorem bind_iff {program : Program P α} {f : α → Program P β} {result : β} :
    Exec handler (program >>= f) s es result t ↔
      ∃ first value middle second, es = first ++ second ∧ Exec handler program s first value middle ∧
        Exec handler (f value) middle second result t := by
  constructor
  · intro run
    induction program generalizing s es with
    | pure value => exact ⟨[], value, s, es, rfl, .pure value s, run⟩
    | perform op next ih =>
      obtain ⟨e, answer, middle, rest, rfl, handled, continues⟩ := perform_iff.mp run
      obtain ⟨first, value, reached, second, rfl, left, right⟩ := ih answer continues
      exact ⟨e :: first, value, reached, second, rfl, .perform handled left, right⟩
  · rintro ⟨first, value, middle, second, rfl, left, right⟩
    induction left with
    | pure value s => exact right
    | perform handled _ ih => exact .perform handled (ih right)

/-- Runs of two programs in a row. -/
theorem bind {program : Program P α} {f : α → Program P β} {first second : List ε} {value : α} {result : β} {middle : σ}
    (left : Exec handler program s first value middle) (right : Exec handler (f value) middle second result t) :
    Exec handler (program >>= f) s (first ++ second) result t :=
  bind_iff.mpr ⟨first, value, middle, second, rfl, left, right⟩

/-- A program that returns at once after another adds no events. -/
theorem bind_return {program : Program P α} {f : α → Program P β} {value : α} {result : β}
    (left : Exec handler program s es value t) (returns : f value = .pure result) :
    Exec handler (program >>= f) s es result t :=
  bind_iff.mpr ⟨es, value, t, [], (List.append_nil es).symm, left, returns ▸ .pure result t⟩

/-- A program returns only what is expected of it. -/
theorem expected_of_satisfies {good : P.A → Prop} {expected : α → Prop} {program : Program P α} {value : α}
    (satisfies : program.Satisfies good expected) (run : Exec handler program s es value t) : expected value := by
  induction run with
  | pure => exact satisfies
  | perform _ _ ih => exact ih (satisfies.2 _)

end Exec

/-- The handler that answers anything and records exactly the operation with its answer. -/
def anyAnswer (P : PFunctor.{0, 0}) : Handler P Unit P.Idx := fun op _ e answer _ => e = ⟨op, answer⟩

/-- A program performs only what is good. -/
theorem Exec.good_of_satisfies {P : PFunctor.{0, 0}} {α : Type} {program : Program P α} {good : P.A → Prop}
    {expected : α → Prop} {es : List P.Idx} {value : α} (satisfies : program.Satisfies good expected)
    (run : Exec (anyAnswer P) program () es value ()) : ∀ e ∈ es, good e.1 := by
  induction program generalizing es with
  | pure returned =>
    obtain ⟨rfl, -, -⟩ := Exec.pure_iff.mp run
    simp
  | perform op next ih =>
    obtain ⟨e, answer, middle, rest, rfl, rfl, tail⟩ := Exec.perform_iff.mp run
    exact List.forall_mem_cons.mpr ⟨satisfies.1, ih answer (satisfies.2 answer) tail⟩

end Execution
