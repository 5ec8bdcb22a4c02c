import Mathlib.Data.List.Basic
import Mathlib.Data.Nat.Notation

/-! # Decimal numbers at the end of a text

A text is a list of characters. `rsplitOnce` cuts it at the last occurrence of a separator, and `parse` reads
a decimal number below a bound, an optional plus sign before it, as integer types do. What is written as the
digits of a number after a separator is found there again.
-/

namespace Text

variable {α : Type*} [DecidableEq α]

/-- Cut at the last occurrence of the separator. -/
def rsplitOnce (separator : α) : List α → Option (List α × List α)
  | [] => none
  | c :: rest =>
    match rsplitOnce separator rest with
    | some (before, after) => some (c :: before, after)
    | none => if c = separator then some ([], rest) else none

theorem rsplitOnce_eq_none_iff {separator : α} {text : List α} :
    rsplitOnce separator text = none ↔ separator ∉ text := by
  induction text with
  | nil => simp [rsplitOnce]
  | cons c rest ih =>
    rw [rsplitOnce, List.mem_cons, not_or, ← ih]
    cases found : rsplitOnce separator rest with
    | none => simp [eq_comm]
    | some cut => simp

theorem rsplitOnce_eq_some_iff {separator : α} {text before after : List α} :
    rsplitOnce separator text = some (before, after) ↔ text = before ++ separator :: after ∧ separator ∉ after := by
  induction text generalizing before after with
  | nil => simp [rsplitOnce]
  | cons c rest ih =>
    rw [rsplitOnce]
    cases found : rsplitOnce separator rest with
    | none =>
      have absent := rsplitOnce_eq_none_iff.mp found
      constructor
      · intro here
        split_ifs at here with same
        obtain ⟨rfl, rfl⟩ := Prod.mk.inj (Option.some.inj here)
        exact ⟨by rw [same, List.nil_append], absent⟩
      · rintro ⟨same, last⟩
        cases before with
        | nil =>
          obtain ⟨rfl, rfl⟩ := List.cons.inj same
          exact if_pos rfl
        | cons d before =>
          obtain ⟨rfl, rfl⟩ := List.cons.inj same
          exact absurd (List.mem_append_right _ List.mem_cons_self) absent
    | some cut =>
      obtain ⟨before', after'⟩ := cut
      obtain ⟨rfl, last'⟩ := ih.mp found
      constructor
      · intro here
        obtain ⟨rfl, rfl⟩ := Prod.mk.inj (Option.some.inj here)
        exact ⟨rfl, last'⟩
      · rintro ⟨same, last⟩
        cases before with
        | nil =>
          obtain ⟨rfl, rfl⟩ := List.cons.inj same
          exact absurd (List.mem_append_right _ List.mem_cons_self) last
        | cons d before =>
          obtain ⟨rfl, rest⟩ := List.cons.inj same
          have again := ih.mpr ⟨rest, last⟩
          obtain ⟨rfl, rfl⟩ := Prod.mk.inj (Option.some.inj (found.symm.trans again))
          rfl

/-- The digits of a number. -/
def display (n : ℕ) : List Char := Nat.toDigits 10 n

theorem isDigit_of_mem_display {n : ℕ} {c : Char} (mem : c ∈ display n) : c.isDigit = true :=
  Nat.isDigit_of_mem_toDigits (by decide) (by decide) mem

/-- The number that some digits denote, if there are any and nothing else. -/
def digits? (text : List Char) : Option ℕ :=
  if text.isEmpty = false ∧ text.all Char.isDigit = true then some (Nat.ofDigitChars 10 text 0) else none

/-- An optional plus sign is skipped. -/
def unsigned : List Char → List Char
  | '+' :: rest => rest
  | text => text

/-- A number below `bound`, after an optional plus sign. -/
def parse? (bound : ℕ) (text : List Char) : Option ℕ := (digits? (unsigned text)).filter (· < bound)

theorem unsigned_eq_self {text : List Char} (signless : '+' ∉ text) : unsigned text = text := by
  unfold unsigned
  split
  · exact absurd List.mem_cons_self signless
  · rfl

theorem mem_unsigned {text : List Char} {c : Char} (mem : c ∈ text) (signless : c ≠ '+') : c ∈ unsigned text := by
  unfold unsigned
  split
  · exact (List.mem_cons.mp mem).resolve_left signless
  · exact mem

theorem digits?_display (n : ℕ) : digits? (display n) = some n := by
  have nonempty : (display n).isEmpty = false := List.isEmpty_eq_false_iff.mpr Nat.toDigits_ne_nil
  have digits : (display n).all Char.isDigit = true := List.all_eq_true.mpr fun c => isDigit_of_mem_display
  rw [digits?, if_pos ⟨nonempty, digits⟩]
  exact congrArg some Nat.ofDigitChars_ten_toDigits

theorem not_mem_display {n : ℕ} {c : Char} (letter : c.isDigit = false) : c ∉ display n := by
  intro mem
  exact absurd (isDigit_of_mem_display mem) (by simp [letter])

/-- Digits are read back. -/
theorem parse?_display {bound n : ℕ} (below : n < bound) : parse? bound (display n) = some n := by
  rw [parse?, unsigned_eq_self (not_mem_display rfl), digits?_display]
  simpa using below

theorem parse?_nil (bound : ℕ) : parse? bound [] = none := rfl

/-- A text with a character that is neither a digit nor a plus sign is no number. -/
theorem parse?_eq_none {bound : ℕ} {text : List Char} {c : Char} (mem : c ∈ text) (letter : c.isDigit = false)
    (signless : c ≠ '+') : parse? bound text = none := by
  have malformed : digits? (unsigned text) = none := by
    refine if_neg fun all => ?_
    have digit := List.all_eq_true.mp all.2 c (mem_unsigned mem signless)
    rw [letter] at digit
    cases digit
  rw [parse?, malformed, Option.filter_none]

/-- What was read is below the bound. -/
theorem lt_of_parse? {bound n : ℕ} {text : List Char} (parsed : parse? bound text = some n) : n < bound := by
  simpa using (Option.filter_eq_some_iff.mp parsed).2

/-- A character past every separator is past the cut. -/
theorem mem_of_rsplitOnce {separator c : α} {first second before after : List α} (past : separator ∉ c :: second)
    (cut : rsplitOnce separator (first ++ c :: second) = some (before, after)) : c ∈ after := by
  obtain ⟨split, last⟩ := rsplitOnce_eq_some_iff.mp cut
  rcases List.append_eq_append_iff.mp split with ⟨more, rfl, rest⟩ | ⟨more, rfl, rest⟩
  · exact (past (rest ▸ List.mem_append_right _ List.mem_cons_self)).elim
  · cases more with
    | nil =>
      obtain ⟨rfl, rfl⟩ := List.cons.inj rest
      exact (past List.mem_cons_self).elim
    | cons d more =>
      obtain ⟨rfl, rfl⟩ := List.cons.inj rest
      exact List.mem_append_right _ List.mem_cons_self

/-- What is written after the last separator is found there. -/
theorem rsplitOnce_append {separator : α} {before after : List α} (last : separator ∉ after) :
    rsplitOnce separator (before ++ separator :: after) = some (before, after) :=
  rsplitOnce_eq_some_iff.mpr ⟨rfl, last⟩

end Text
