import Mathlib.Order.Basic

/-!
# `Lib/Loop.lean` — `while` loops

A `while` loop is a partial step: `none` when the condition fails. `whileLoop` runs it with as
much fuel as a measure of its start, and the two rules below are all a proof about a loop needs:
an invariant of the step is an invariant of the loop (`whileLoop_invariant`), and a measure that
every step decreases means the loop has really left by its condition and not by the fuel
(`whileLoop_exit`).
-/

set_option autoImplicit false

namespace StanoPlatform
namespace Lib

variable {σ : Type}

def rounds (step : σ → Option σ) : Nat → σ → σ
  | 0, s => s
  | n + 1, s =>
    match step s with
    | none => s
    | some s' => rounds step n s'

/-- The loop, with the fuel its measure grants. -/
def whileLoop (measure : σ → Nat) (step : σ → Option σ) (s : σ) : σ :=
  rounds step (measure s) s

/-- The states in which the loop, entered at `s`, evaluates its condition. -/
inductive AtHead (step : σ → Option σ) (s : σ) : σ → Prop
  | enter : AtHead step s s
  | again {t t' : σ} : AtHead step s t → step t = some t' → AtHead step s t'

theorem AtHead.invariant {step : σ → Option σ} {I : σ → Prop} {s t : σ}
    (hstep : ∀ t t', I t → step t = some t' → I t') (hs : I s) (h : AtHead step s t) : I t := by
  induction h with
  | enter => exact hs
  | again _ ht ih => exact hstep _ _ ih ht

theorem AtHead.head {step : σ → Option σ} {s s' t : σ} (hs : step s = some s')
    (h : AtHead step s' t) : AtHead step s t := by
  induction h with
  | enter => exact .again .enter hs
  | again _ ht ih => exact .again ih ht

theorem rounds_atHead {step : σ → Option σ} : ∀ (n : Nat) (s : σ), AtHead step s (rounds step n s)
  | 0, _ => .enter
  | n + 1, s => by
    rw [rounds]
    cases h : step s with
    | none => exact .enter
    | some s' => exact (rounds_atHead n s').head h

theorem whileLoop_atHead {measure : σ → Nat} {step : σ → Option σ} (s : σ) :
    AtHead step s (whileLoop measure step s) := rounds_atHead _ _

/-- **The invariant rule.** -/
theorem whileLoop_invariant {measure : σ → Nat} {step : σ → Option σ} {I : σ → Prop}
    (hstep : ∀ t t', I t → step t = some t' → I t') {s : σ} (hs : I s) :
    I (whileLoop measure step s) := (whileLoop_atHead s).invariant hstep hs

theorem rounds_exit {measure : σ → Nat} {step : σ → Option σ}
    (hdec : ∀ s s', step s = some s' → measure s' < measure s) :
    ∀ (n : Nat) (s : σ), measure s ≤ n → step (rounds step n s) = none
  | 0, s, hn => by
    rw [rounds]
    cases h : step s with
    | none => rfl
    | some s' => exact absurd (hdec s s' h) (by omega)
  | n + 1, s, hn => by
    rw [rounds]
    cases h : step s with
    | none => exact h
    | some s' => exact rounds_exit hdec n s' (by have := hdec s s' h; omega)

/-- **The exit rule**: under a decreasing measure the loop ends because its condition fails. -/
theorem whileLoop_exit {measure : σ → Nat} {step : σ → Option σ}
    (hdec : ∀ s s', step s = some s' → measure s' < measure s) (s : σ) :
    step (whileLoop measure step s) = none := rounds_exit hdec _ s (Nat.le_refl _)

/-! ## Two loops in step -/

variable {τ : Type} {f : τ → σ}

theorem rounds_map {step : σ → Option σ} {step' : τ → Option τ}
    (hstep : ∀ t, (step' t).map f = step (f t)) :
    ∀ (n : Nat) (t : τ), f (rounds step' n t) = rounds step n (f t)
  | 0, _ => rfl
  | n + 1, t => by
    rw [rounds, rounds, ← hstep t]
    cases step' t with
    | none => rfl
    | some t' => exact rounds_map hstep n t'

/-- A loop that carries more along does what the loop does. -/
theorem whileLoop_map {measure : σ → Nat} {step : σ → Option σ} {step' : τ → Option τ}
    (hstep : ∀ t, (step' t).map f = step (f t)) (t : τ) :
    f (whileLoop (fun t => measure (f t)) step' t) = whileLoop measure step (f t) :=
  rounds_map hstep _ t

/-- The same of a `for` that may stop. -/
theorem foldlM_map {α : Type} {visit : σ → α → Option σ} {visit' : τ → α → Option τ}
    (hvisit : ∀ t a, (visit' t a).map f = visit (f t) a) (l : List α) (t : τ) :
    (l.foldlM visit' t).map f = l.foldlM visit (f t) := by
  induction l generalizing t with
  | nil => rfl
  | cons a l ih =>
    rw [List.foldlM_cons, List.foldlM_cons, ← hvisit t a]
    cases visit' t a with
    | none => rfl
    | some t' => exact ih t'

end Lib
end StanoPlatform
