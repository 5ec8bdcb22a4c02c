import Mathlib.Data.List.Infix

/-! # Prefix codes

A code is a set of non-empty words of which none begins another. Words written one after the other are then read
back in one way only, wherever the reader stops: what it has read is the first of the words written, and if nothing
more can be read off what is left, it has read them all.
-/

namespace Execution

/-- Non-empty words of which none begins another. -/
structure PrefixCode (α : Type*) where
  word : List α → Prop
  nonempty : ∀ {w : List α}, word w → w ≠ []
  prefixFree : ∀ {w w' : List α}, word w → word w' → w <+: w' → w = w'

namespace PrefixCode

variable {α : Type*} (C : PrefixCode α) {w w' stream rest : List α} {read written : List (List α)}

/-- A stream begins with at most one word. -/
theorem unique_head (first : C.word w) (second : C.word w') (begins : w <+: stream) (begins' : w' <+: stream) :
    w = w' := by
  rcases List.prefix_or_prefix_of_prefix begins begins' with le | ge
  · exact C.prefixFree first second le
  · exact (C.prefixFree second first ge).symm

/-- What was read is the first of what was written. -/
theorem prefix_of_flatten (reads : ∀ w ∈ read, C.word w) (writes : ∀ w ∈ written, C.word w)
    (begins : read.flatten <+: written.flatten) : read <+: written := by
  induction read generalizing written with
  | nil => exact List.nil_prefix
  | cons w read ih =>
    rw [List.forall_mem_cons] at reads
    rw [List.flatten_cons] at begins
    cases written with
    | nil =>
      have none := (List.append_eq_nil_iff.mp (List.prefix_nil.mp begins)).1
      exact (C.nonempty reads.1 none).elim
    | cons w' written =>
      rw [List.forall_mem_cons] at writes
      rw [List.flatten_cons] at begins
      have here : w <+: w' ++ written.flatten := (List.prefix_append w read.flatten).trans begins
      obtain rfl := C.unique_head reads.1 writes.1 here (List.prefix_append w' written.flatten)
      have later := (List.prefix_append_right_inj w).mp begins
      exact (List.prefix_cons_inj w).mpr (ih reads.2 writes.2 later)

/-- If what is left begins with no word, everything written has been read. -/
theorem eq_of_flatten (reads : ∀ w ∈ read, C.word w) (writes : ∀ w ∈ written, C.word w)
    (all : read.flatten ++ rest = written.flatten) (stuck : ∀ w, C.word w → ¬ w <+: rest) : read = written := by
  have begins : read.flatten <+: written.flatten := ⟨rest, all⟩
  obtain ⟨unread, rfl⟩ := C.prefix_of_flatten reads writes begins
  rw [List.flatten_append, List.append_cancel_left_eq] at all
  cases unread with
  | nil => exact (List.append_nil read).symm
  | cons w unread =>
    have word : C.word w := writes w (List.mem_append_right _ List.mem_cons_self)
    exact (stuck w word (all ▸ List.prefix_append w unread.flatten)).elim

end PrefixCode

end Execution
