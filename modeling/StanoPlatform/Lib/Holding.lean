import Mathlib.Logic.Relation
import Mathlib.Data.List.Nodup

/-!
# `Lib/Holding.lean` — who holds what

Parties take resources nobody holds and give them back last first, like threads with nested
locks. Two things are general about that: taking and giving back keep each resource with one
holder (`Holding`), and if whoever waits waits for something below all it holds, in an order that
cannot be descended for ever, then nobody waits in vain (`no_circular_wait`).
-/

set_option autoImplicit false

namespace StanoPlatform
namespace Lib

open Relation

variable {ι R : Type}

/-- `holds i` are the resources `i` has, most recent first: each resource in use is held once, by
one of them. -/
structure Holding (inUse : R → Prop) (holds : ι → List R) : Prop where
  nodup : ∀ i, (holds i).Nodup
  unique : ∀ i j r, r ∈ holds i → r ∈ holds j → i = j
  inUse_iff : ∀ r, inUse r ↔ ∃ i, r ∈ holds i

section

variable [DecidableEq ι] {inUse inUse' : R → Prop} {holds : ι → List R} {i : ι} {r : R}

/-- One of them takes what is free, which nobody else can hold. -/
theorem Holding.take (h : Holding inUse holds) (hfree : ¬ inUse r)
    (hin : ∀ k, inUse' k ↔ k = r ∨ inUse k) :
    Holding inUse' (Function.update holds i (r :: holds i)) := by
  have hnot : ∀ j, r ∉ holds j := fun j hj => hfree ((h.inUse_iff r).mpr ⟨j, hj⟩)
  have hmem : ∀ j k, k ∈ Function.update holds i (r :: holds i) j ↔
      (j = i ∧ k = r) ∨ k ∈ holds j := by
    intro j k
    by_cases hj : j = i
    · subst hj; simp
    · simp [hj]
  constructor
  · intro j
    by_cases hj : j = i
    · subst hj
      rw [Function.update_self]
      exact List.nodup_cons.mpr ⟨hnot j, h.nodup j⟩
    · rw [Function.update_of_ne hj]
      exact h.nodup j
  · intro j j' k hk hk'
    rw [hmem] at hk hk'
    rcases hk with ⟨rfl, rfl⟩ | hk <;> rcases hk' with ⟨rfl, hr⟩ | hk'
    · rfl
    · exact absurd hk' (hnot _)
    · exact absurd (hr ▸ hk) (hnot _)
    · exact h.unique j j' k hk hk'
  · intro k
    rw [hin, h.inUse_iff]
    simp only [hmem]
    constructor
    · rintro (rfl | ⟨j, hj⟩)
      · exact ⟨i, .inl ⟨rfl, rfl⟩⟩
      · exact ⟨j, .inr hj⟩
    · rintro ⟨j, ⟨-, rfl⟩ | hj⟩
      · exact .inl rfl
      · exact .inr ⟨j, hj⟩

/-- One of them gives back what it took last. Nobody else held it, so nobody does afterwards. -/
theorem Holding.release (h : Holding inUse holds) {rest : List R} (htop : holds i = r :: rest)
    (hin : ∀ k, inUse' k ↔ k ≠ r ∧ inUse k) : Holding inUse' (Function.update holds i rest) := by
  have hri : r ∈ holds i := htop ▸ List.mem_cons_self
  have hrest : r ∉ rest ∧ rest.Nodup := List.nodup_cons.mp (htop ▸ h.nodup i)
  have hmem : ∀ j k, k ∈ Function.update holds i rest j ↔ k ≠ r ∧ k ∈ holds j := by
    intro j k
    by_cases hj : j = i
    · subst hj
      rw [Function.update_self, htop, List.mem_cons]
      exact ⟨fun hk => ⟨fun hkr => hrest.1 (hkr ▸ hk), .inr hk⟩, fun hk => hk.2.resolve_left hk.1⟩
    · rw [Function.update_of_ne hj]
      exact ⟨fun hk => ⟨fun hkr => hj (h.unique j i k hk (hkr ▸ hri)), hk⟩, fun hk => hk.2⟩
  constructor
  · intro j
    by_cases hj : j = i
    · subst hj
      rw [Function.update_self]
      exact hrest.2
    · rw [Function.update_of_ne hj]
      exact h.nodup j
  · intro j j' k hk hk'
    exact h.unique j j' k ((hmem j k).mp hk).2 ((hmem j' k).mp hk').2
  · intro k
    rw [hin, h.inUse_iff]
    simp only [hmem]
    exact ⟨fun ⟨hne, j, hj⟩ => ⟨j, hne, hj⟩, fun ⟨j, hne, hj⟩ => ⟨hne, j, hj⟩⟩

end

/-- **No circular wait.** If whatever is waited for is held by someone, everyone who holds
something is waiting, and what they wait for lies strictly below everything they hold, then nobody
is waiting: the descent from holder to holder would not end. -/
theorem no_circular_wait {E : R → R → Prop} (hwf : WellFounded fun b a => E a b)
    (holds awaits : ι → R → Prop) (hbusy : ∀ i r, awaits i r → ∃ j, holds j r)
    (hstuck : ∀ j r, holds j r → ∃ r', awaits j r')
    (hbelow : ∀ j r r', holds j r → awaits j r' → TransGen E r r') : ∀ i r, ¬ awaits i r := by
  intro i r
  induction r using hwf.transGen.induction generalizing i with
  | _ r ih =>
    intro hr
    obtain ⟨j, hj⟩ := hbusy i r hr
    obtain ⟨r', hr'⟩ := hstuck j r hj
    exact ih r' (Relation.transGen_swap.mpr (hbelow j r r' hj hr')) j hr'

end Lib
end StanoPlatform
