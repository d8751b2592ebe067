import Mathlib.Data.List.Induction

/-!
# `Lib/Run.lean` — runs of a machine with named events

A machine is a partial step: an event that a state does not admit has no successor. A run is a
list of events, and a state reached along it is the state after one of its prefixes. One rule
carries a property of the events so far and the state they lead to (`run_invariant`).
-/

set_option autoImplicit false

namespace StanoPlatform
namespace Lib

variable {σ ε : Type}

/-- The state after a list of events, if each of them was possible. -/
def run (step : σ → ε → Option σ) (s : σ) : List ε → Option σ
  | [] => some s
  | e :: es => (step s e).bind fun s' => run step s' es

theorem run_append (step : σ → ε → Option σ) (s : σ) (es es' : List ε) :
    run step s (es ++ es') = (run step s es).bind fun t => run step t es' := by
  induction es generalizing s with
  | nil => rfl
  | cons e es ih => cases h : step s e <;> simp [run, h, ih]

theorem run_snoc (step : σ → ε → Option σ) (s : σ) (es : List ε) (e : ε) :
    run step s (es ++ [e]) = (run step s es).bind fun t => step t e := by
  rw [run_append]
  refine congrArg _ (funext fun t => ?_)
  cases h : step t e <;> simp [run, h]

/-- **The invariant rule.** -/
theorem run_invariant {step : σ → ε → Option σ} {s t : σ} {es : List ε} (I : List ε → σ → Prop)
    (hstart : I [] s)
    (hstep : ∀ es t t' e, I es t → step t e = some t' → I (es ++ [e]) t')
    (hrun : run step s es = some t) : I es t := by
  induction es using List.reverseRecOn generalizing t with
  | nil =>
    cases hrun
    exact hstart
  | append_singleton es e ih =>
    rw [run_snoc, Option.bind_eq_some_iff] at hrun
    obtain ⟨t', ht', hlast⟩ := hrun
    exact hstep es t' t e (ih ht') hlast

end Lib
end StanoPlatform
