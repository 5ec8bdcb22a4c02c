import Mathlib.Data.List.Count

/-! # First-in-first-out buffers

A buffer only ever grows at its back and shrinks at its front. `run` is what is left after a history
of such operations and `taken` is what has been removed. The conservation law `taken_append_run` is
the whole correctness of a FIFO: nothing is lost, duplicated or reordered, wherever the history stops.
-/

namespace Execution.Fifo

variable {α : Type*}

/-- One operation on a buffer: append a block at the back, or drop some elements at the front. -/
inductive Op (α : Type*)
  | push (block : List α)
  | pop (count : ℕ)

def Op.apply : Op α → List α → List α
  | .push block, buffer => buffer ++ block
  | .pop count, buffer => buffer.drop count

/-- The elements an operation removes. -/
def Op.removed : Op α → List α → List α
  | .push _, _ => []
  | .pop count, buffer => buffer.take count

/-- The elements an operation adds. -/
def Op.added : Op α → List α
  | .push block => block
  | .pop _ => []

def run : List α → List (Op α) → List α
  | buffer, [] => buffer
  | buffer, op :: ops => run (op.apply buffer) ops

def taken : List α → List (Op α) → List α
  | _, [] => []
  | buffer, op :: ops => op.removed buffer ++ taken (op.apply buffer) ops

def pushed (ops : List (Op α)) : List α := ops.flatMap Op.added

@[simp] theorem run_nil (buffer : List α) : run buffer [] = buffer := rfl

@[simp] theorem taken_nil (buffer : List α) : taken buffer [] = [] := rfl

@[simp] theorem run_append (buffer : List α) (first second : List (Op α)) :
    run buffer (first ++ second) = run (run buffer first) second := by
  induction first generalizing buffer with
  | nil => rfl
  | cons op rest ih => exact ih (op.apply buffer)

@[simp] theorem taken_append (buffer : List α) (first second : List (Op α)) :
    taken buffer (first ++ second) = taken buffer first ++ taken (run buffer first) second := by
  induction first generalizing buffer with
  | nil => rfl
  | cons op rest ih => simp only [List.cons_append, taken, run, ih, List.append_assoc]

theorem pushed_cons (op : Op α) (ops : List (Op α)) : pushed (op :: ops) = op.added ++ pushed ops :=
  List.flatMap_cons

private theorem Op.removed_append_apply (op : Op α) (buffer : List α) :
    op.removed buffer ++ op.apply buffer = buffer ++ op.added := by
  cases op with
  | push block => rfl
  | pop count => simp [removed, apply, added]

/-- Conservation: what was taken, then what is left, is what was there, then what was pushed. -/
theorem taken_append_run (buffer : List α) (ops : List (Op α)) :
    taken buffer ops ++ run buffer ops = buffer ++ pushed ops := by
  induction ops generalizing buffer with
  | nil => simp [pushed]
  | cons op rest ih =>
    calc
      op.removed buffer ++ taken (op.apply buffer) rest ++ run (op.apply buffer) rest
          = op.removed buffer ++ (op.apply buffer ++ pushed rest) := by rw [List.append_assoc, ih]
      _ = buffer ++ (op.added ++ pushed rest) := by
        rw [← List.append_assoc, op.removed_append_apply, List.append_assoc]
      _ = buffer ++ pushed (op :: rest) := by rw [pushed_cons]

/-- A buffer holds no more marked elements than it did, and those pushed since. -/
theorem countP_run_le (marked : α → Bool) (buffer : List α) (ops : List (Op α)) :
    (run buffer ops).countP marked ≤ buffer.countP marked + (pushed ops).countP marked := by
  have conserved := congrArg (List.countP marked) (taken_append_run buffer ops)
  simp only [List.countP_append] at conserved
  omega

end Execution.Fifo
