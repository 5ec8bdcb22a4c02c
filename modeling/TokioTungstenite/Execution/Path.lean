import Mathlib.Data.List.Induction

/-! # Finite labelled runs

`Path step s es t` is a finite run of an arbitrary labelled step relation from `s` to `t` that
carries exactly the labels `es`. Runs compose and can be cut at any label. The rules below are the
only inductions over runs that a client needs: an invariant of the states, and an invariant that
ties the state reached to the whole history of labels before it.
-/

namespace Execution

variable {σ ε : Type*}

/-- A finite run carrying exactly its labels. -/
inductive Path (step : σ → ε → σ → Prop) : σ → List ε → σ → Prop
  | nil (s : σ) : Path step s [] s
  | cons {s middle t : σ} {e : ε} {es : List ε} :
      step s e middle → Path step middle es t → Path step s (e :: es) t

namespace Path

variable {step : σ → ε → σ → Prop} {s middle t : σ} {e : ε} {es first second : List ε}

@[simp] theorem nil_iff : Path step s [] t ↔ t = s := by
  constructor
  · intro path
    cases path
    rfl
  · rintro rfl
    exact .nil _

theorem cons_iff : Path step s (e :: es) t ↔ ∃ middle, step s e middle ∧ Path step middle es t := by
  constructor
  · intro path
    cases path with
    | cons head tail => exact ⟨_, head, tail⟩
  · rintro ⟨middle, head, tail⟩
    exact .cons head tail

theorem single (head : step s e t) : Path step s [e] t := .cons head (.nil t)

@[simp] theorem single_iff : Path step s [e] t ↔ step s e t := by
  simp only [cons_iff, nil_iff]
  constructor
  · rintro ⟨middle, head, rfl⟩
    exact head
  · intro head
    exact ⟨t, head, rfl⟩

/-- Runs compose at their shared endpoint. -/
theorem append (left : Path step s first middle) (right : Path step middle second t) :
    Path step s (first ++ second) t := by
  induction left with
  | nil => exact right
  | cons head _ ih => exact .cons head (ih right)

/-- A run can be cut between any two labels. -/
theorem append_iff : Path step s (first ++ second) t ↔
    ∃ middle, Path step s first middle ∧ Path step middle second t := by
  constructor
  · intro path
    induction first generalizing s with
    | nil => exact ⟨s, .nil s, path⟩
    | cons e rest ih =>
      obtain ⟨next, head, tail⟩ := cons_iff.mp path
      obtain ⟨middle, left, right⟩ := ih tail
      exact ⟨middle, .cons head left, right⟩
  · rintro ⟨middle, left, right⟩
    exact left.append right

theorem concat_iff : Path step s (es ++ [e]) t ↔ ∃ middle, Path step s es middle ∧ step middle e t := by
  simp only [append_iff, single_iff]

/-- Cutting out one label: what led to it, the step itself, and what followed. -/
theorem cut (path : Path step s (first ++ e :: second) t) :
    ∃ before after, Path step s first before ∧ step before e after ∧ Path step after second t := by
  obtain ⟨before, left, rest⟩ := append_iff.mp path
  obtain ⟨after, head, right⟩ := cons_iff.mp rest
  exact ⟨before, after, left, head, right⟩

/-- A predicate kept by every step whose label is allowed holds wherever an allowed run ends. -/
theorem invariant {allowed : ε → Prop} {good : σ → Prop}
    (keeps : ∀ s e t, allowed e → good s → step s e t → good t)
    (path : Path step s es t) (labels : ∀ e ∈ es, allowed e) (initial : good s) : good t := by
  induction path with
  | nil => exact initial
  | cons head _ ih =>
    rw [List.forall_mem_cons] at labels
    exact ih labels.2 (keeps _ _ _ labels.1 initial head)

/-- Induction on the last step: the predicate ties the state reached to the labels that led there. -/
theorem history {motive : List ε → σ → Prop} (initial : motive [] s)
    (keeps : ∀ past now e next, Path step s past now → motive past now → step now e next →
      motive (past ++ [e]) next)
    (path : Path step s es t) : motive es t := by
  induction es using List.reverseRecOn generalizing t with
  | nil =>
    obtain rfl := nil_iff.mp path
    exact initial
  | append_singleton past e ih =>
    obtain ⟨now, before, last⟩ := concat_iff.mp path
    exact keeps past now e t before (ih before) last

/-- What a queue held, then what was put in, is what was taken out, then what it holds. -/
theorem conserves {α : Type*} {queue : σ → List α} {gives takes : ε → List α}
    (law : ∀ s e t, step s e t → queue s ++ gives e = takes e ++ queue t) (path : Path step s es t) :
    queue s ++ es.flatMap gives = es.flatMap takes ++ queue t := by
  induction path with
  | nil s => simp
  | @cons s middle t e es head _ ih =>
    calc
      queue s ++ (e :: es).flatMap gives = queue s ++ gives e ++ es.flatMap gives := by
        rw [List.flatMap_cons, List.append_assoc]
      _ = takes e ++ (queue middle ++ es.flatMap gives) := by rw [law s e middle head, List.append_assoc]
      _ = (e :: es).flatMap takes ++ queue t := by rw [ih, List.flatMap_cons, List.append_assoc]

end Path

end Execution
