import Mathlib.Data.List.Basic

/-!
# `Lib/Doing.lean` — programs that do things, and may stop on the way

What was done stays done where a program stops behind it, and what a guard does when it is dropped
is done on every way out. Two rules are enough to follow one: what stopped did no more than it did
(`bind_of_error`), and what came through did all of it (`result_bind_eq_ok`).
-/

set_option autoImplicit false

namespace StanoPlatform
namespace Lib

/-- What is done, in order, and how it ends. -/
structure Doing (A E α : Type) where
  acts : List A
  result : Except E α

namespace Doing

variable {A E α β : Type}

instance : Monad (Doing A E) where
  pure a := { acts := [], result := .ok a }
  bind d f :=
    match d.result with
    | .ok a => { acts := d.acts ++ (f a).acts, result := (f a).result }
    | .error e => { acts := d.acts, result := .error e }

def act (a : A) : Doing A E Unit := { acts := [a], result := .ok () }

def ofExcept (r : Except E α) : Doing A E α := { acts := [], result := r }

/-- A guard is held meanwhile; what it does when it is dropped may depend on what was done. -/
def dropping (drop : List A → List A) (d : Doing A E α) : Doing A E α :=
  { d with acts := d.acts ++ drop d.acts }

variable {d : Doing A E α} {f : α → Doing A E β} {a : α} {b : β} {e : E}

theorem bind_of_ok (h : d.result = .ok a) :
    d >>= f = { acts := d.acts ++ (f a).acts, result := (f a).result } := by
  simp only [bind, h]

theorem bind_of_error (h : d.result = .error e) :
    d >>= f = { acts := d.acts, result := .error e } := by
  simp only [bind, h]

theorem result_bind_eq_ok :
    (d >>= f).result = .ok b ↔ ∃ a, d.result = .ok a ∧ (f a).result = .ok b := by
  cases h : d.result with
  | ok a => simp [bind_of_ok h]
  | error e => simp [bind_of_error h]

theorem acts_bind_of_ok (h : (d >>= f).result = .ok b) : ∃ a, d.result = .ok a ∧
    (f a).result = .ok b ∧ (d >>= f).acts = d.acts ++ (f a).acts := by
  obtain ⟨a, ha, hb⟩ := result_bind_eq_ok.mp h
  exact ⟨a, ha, hb, by rw [bind_of_ok ha]⟩

/-! ## What is done at most -/

/-- Nothing else is done. -/
def Only (P : A → Prop) (d : Doing A E α) : Prop := ∀ a ∈ d.acts, P a

variable {P Q : A → Prop}

theorem only_pure : Only P (pure a : Doing A E α) := nofun

theorem only_ofExcept {r : Except E α} : Only P (ofExcept r : Doing A E α) := nofun

theorem only_act {a : A} (h : P a) : Only P (act a : Doing A E Unit) := by
  rintro _ (_ | ⟨_, ⟨⟩⟩)
  exact h

theorem Only.bind (hd : Only P d) (hf : ∀ a, Only P (f a)) : Only P (d >>= f) := by
  cases h : d.result with
  | ok a =>
    rw [bind_of_ok h]
    intro x hx
    exact (List.mem_append.mp hx).elim (hd x) (hf a x)
  | error e =>
    rw [bind_of_error h]
    exact hd

theorem Only.ite {c : Prop} [Decidable c] {d d' : Doing A E α} (hd : Only P d) (hd' : Only P d') :
    Only P (if c then d else d') := by
  split
  · exact hd
  · exact hd'

theorem Only.mono (h : Only P d) (himp : ∀ a, P a → Q a) : Only Q d := fun a ha => himp a (h a ha)

end Doing

end Lib
end StanoPlatform
