import TokioTungstenite.Execution.Path

/-! # Simulation up to what is observed

Two systems are compared by what their runs show. A fine-grained system may show the parts of an action before
the coarse one takes the action as a whole, so a simulation relates their states together with the observations
that the coarse system still owes. Two systems that simulate each other with nothing owed in between have the
same observed runs.
-/

namespace Execution

variable {σ τ ε δ ω : Type*}

/-- A run from `s` to `t` that shows `seen`. -/
def Observed (step : σ → ε → σ → Prop) (sees : ε → List ω) (s : σ) (seen : List ω) (t : σ) : Prop :=
  ∃ es, Path step s es t ∧ seen = es.flatMap sees

namespace Observed

variable {step : σ → ε → σ → Prop} {sees : ε → List ω} {s middle t : σ} {e : ε} {seen first second : List ω}

theorem nil (s : σ) : Observed step sees s [] s := ⟨[], .nil s, rfl⟩

theorem single (head : step s e t) : Observed step sees s (sees e) t :=
  ⟨[e], .single head, (List.flatMap_singleton sees e).symm⟩

/-- Observed runs compose. -/
theorem append (left : Observed step sees s first middle) (right : Observed step sees middle second t) :
    Observed step sees s (first ++ second) t := by
  obtain ⟨es, path, rfl⟩ := left
  obtain ⟨es', path', rfl⟩ := right
  exact ⟨es ++ es', path.append path', List.flatMap_append.symm⟩

end Observed

/-- `rel s owed a`: the coarse system stands at `a` and has yet to show `owed` of what the fine one has shown. Every
fine step is matched by a coarse run that shows what was owed and what the step adds, up to what is owed after it. -/
structure Simulation (fine : σ → ε → σ → Prop) (sees : ε → List ω) (coarse : τ → δ → τ → Prop)
    (shows : δ → List ω) where
  rel : σ → List ω → τ → Prop
  matched : ∀ {s e t owed a}, rel s owed a → fine s e t →
    ∃ seen owed' b, Observed coarse shows a seen b ∧ rel t owed' b ∧ owed ++ sees e = seen ++ owed'

namespace Simulation

variable {fine : σ → ε → σ → Prop} {sees : ε → List ω} {coarse : τ → δ → τ → Prop} {shows : δ → List ω}

/-- A whole run is matched by a coarse run. -/
theorem run (sim : Simulation fine sees coarse shows) {s t : σ} {es : List ε} {owed : List ω} {a : τ}
    (related : sim.rel s owed a) (path : Path fine s es t) :
    ∃ seen owed' b, Observed coarse shows a seen b ∧ sim.rel t owed' b ∧
      owed ++ es.flatMap sees = seen ++ owed' := by
  induction path generalizing owed a with
  | nil => exact ⟨[], owed, a, .nil a, related, List.append_nil _⟩
  | @cons s middle t e es head _ ih =>
    obtain ⟨first, owed₁, b, left, related₁, shown₁⟩ := sim.matched related head
    obtain ⟨second, owed₂, c, right, related₂, shown₂⟩ := ih related₁
    refine ⟨first ++ second, owed₂, c, left.append right, related₂, ?_⟩
    calc
      owed ++ (e :: es).flatMap sees = owed ++ sees e ++ es.flatMap sees := by
        rw [List.flatMap_cons, List.append_assoc]
      _ = first ++ (owed₁ ++ es.flatMap sees) := by rw [shown₁, List.append_assoc]
      _ = first ++ second ++ owed₂ := by rw [shown₂, List.append_assoc]

/-- Between states related with nothing owed, the coarse system has every observed run of the fine one. -/
theorem observed (sim : Simulation fine sees coarse shows) {s t : σ} {seen : List ω} {a : τ}
    (related : sim.rel s [] a) (settled : ∀ owed b, sim.rel t owed b → owed = [])
    (observes : Observed fine sees s seen t) : ∃ b, Observed coarse shows a seen b ∧ sim.rel t [] b := by
  obtain ⟨es, path, rfl⟩ := observes
  obtain ⟨seen, owed, b, runs, related', shown⟩ := sim.run related path
  obtain rfl := settled owed b related'
  rw [List.nil_append, List.append_nil] at shown
  exact ⟨b, shown ▸ runs, related'⟩

end Simulation

end Execution
