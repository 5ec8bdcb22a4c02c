import TokioTungstenite.Execution.Program

/-! # Programs read over another interface

A translation names for each operation of one interface an operation of another, and reads its answers back. A
program over the first interface is then a program over the second, and translating respects how programs are put
together. Two programs over different interfaces are compared by translating one of them.
-/

namespace Execution

/-- Each operation of `P` as one of `Q`, whose answers are read as answers of `P`. -/
structure Translation (P Q : PFunctor.{0, 0}) where
  op : P.A → Q.A
  answer : (op' : P.A) → Q.B (op op') → P.B op'

namespace Program

variable {P Q : PFunctor.{0, 0}} {α β : Type} (φ : Translation P Q)

/-- The program with its operations translated. -/
def translate : Program P α → Program Q α
  | .pure value => .pure value
  | .perform op next => .perform (φ.op op) fun answer => (next (φ.answer op answer)).translate

@[simp] theorem translate_pure (value : α) : (.pure value : Program P α).translate φ = .pure value := rfl

@[simp] theorem translate_return (value : α) : (return value : Program P α).translate φ = return value := rfl

@[simp] theorem translate_perform (op : P.A) (next : P.B op → Program P α) :
    (Program.perform op next).translate φ =
      .perform (φ.op op) fun answer => (next (φ.answer op answer)).translate φ := rfl

/-- Translation respects sequencing. -/
theorem translate_bind (program : Program P α) (f : α → Program P β) :
    (program >>= f).translate φ = program.translate φ >>= fun value => (f value).translate φ := by
  induction program with
  | pure value => rfl
  | perform op next ih => exact congrArg (Program.perform (φ.op op)) (funext fun answer => ih (φ.answer op answer))

/-- A choice the code makes by itself is the same choice in the translation. -/
theorem translate_ite {c : Prop} [Decidable c] {yes no : Program P α} {yes' no' : Program Q α}
    (same : yes.translate φ = yes') (same' : no.translate φ = no') :
    (if c then yes else no).translate φ = if c then yes' else no' := by
  split
  · exact same
  · exact same'

/-- The operation that a program performs first, if it performs any. -/
def first? : Program P α → Option P.A
  | .pure _ => none
  | .perform op _ => some op

theorem first?_translate (program : Program P α) : (program.translate φ).first? = program.first?.map φ.op := by
  cases program <;> rfl

/-- Programs that perform first are equal only if they perform the same, and continue alike on every answer. -/
theorem perform_inj_iff {op : P.A} {next next' : P.B op → Program P α} :
    Program.perform op next = .perform op next' ↔ ∀ answer, next answer = next' answer := by
  rw [Program.perform.injEq, heq_eq_eq, and_iff_right rfl, funext_iff]

end Program

end Execution
