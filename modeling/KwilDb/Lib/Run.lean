import Mathlib.Logic.Relation

/-!
# Invariants of a transition relation

The runs of a system are the paths of its step relation from an initial state
(`Relation.ReflTransGen`). A predicate that holds initially and that every step keeps holds at
the end of every run.
-/

namespace KwilDb.Lib

open Relation

variable {σ : Type} {step : σ → σ → Prop} {P : σ → Prop} {s t : σ}

/-- **The invariant rule.** -/
theorem ReflTransGen.invariant (hs : P s) (hstep : ∀ {a b}, P a → step a b → P b)
    (h : ReflTransGen step s t) : P t := by
  induction h with
  | refl => exact hs
  | tail _ hab ih => exact hstep ih hab

/-- **The invariant rule under an assumption on the end of the run.** An assumption `Q` that
holds before a step whenever it holds after it (a fact about what the run has produced so far)
holds all along a run that ends in it, and the steps may use it. -/
theorem ReflTransGen.invariant_of_final {Q : σ → Prop} (hs : P s)
    (hback : ∀ {a b}, step a b → Q b → Q a) (hstep : ∀ {a b}, P a → Q b → step a b → P b)
    (h : ReflTransGen step s t) (ht : Q t) : P t := by
  induction h with
  | refl => exact hs
  | tail _ hab ih => exact hstep (ih (hback hab ht)) ht hab

end KwilDb.Lib
