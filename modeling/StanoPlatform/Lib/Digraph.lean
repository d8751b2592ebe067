import Mathlib.Logic.Relation
import Mathlib.Data.List.Chain
import Mathlib.Order.WellFoundedSet

/-!
# `Lib/Digraph.lean` — cycles of a relation

What a cycle detector is specified by, over any relation `E` on any type: which vertices lie
on a directed cycle, which share a strongly connected component, what a *listed* cycle is, and
the one consequence of having no cycle that programs spend — a relation with finitely many
sources and no cycle can be descended along (`Acyclic.wellFounded`).
-/

set_option autoImplicit false

namespace StanoPlatform
namespace Lib

open Relation

variable {K : Type} {E : K → K → Prop}

def OnCycle (E : K → K → Prop) (k : K) : Prop := TransGen E k k

def Acyclic (E : K → K → Prop) : Prop := ∀ k, ¬ OnCycle E k

/-- `a` and `b` reach one another: the same strongly connected component. -/
def SameComponent (E : K → K → Prop) (a b : K) : Prop :=
  ReflTransGen E a b ∧ ReflTransGen E b a

/-- A cycle written out: at least one vertex, no vertex twice, an edge from each to the next
and one from the last back to the first. -/
structure IsCycle (E : K → K → Prop) (c : List K) : Prop where
  ne_nil : c ≠ []
  nodup : c.Nodup
  chain : c.IsChain E
  closes : E (c.getLast ne_nil) (c.head ne_nil)

/-! ## Reachability along a chain -/

theorem reach_of_chain_cons : ∀ {l : List K} {a : K}, (a :: l).IsChain E →
    ∀ x ∈ a :: l, ReflTransGen E a x := by
  intro l
  induction l with
  | nil =>
    intro a _ x hx
    rcases List.mem_singleton.mp hx with rfl
    exact .refl
  | cons b l ih =>
    intro a hc x hx
    rcases List.mem_cons.mp hx with rfl | hx
    · exact .refl
    · rw [List.isChain_cons_cons] at hc
      exact .head hc.1 (ih hc.2 x hx)

theorem chain_reach_last : ∀ {l : List K} (hne : l ≠ []), l.IsChain E →
    ∀ x ∈ l, ReflTransGen E x (l.getLast hne) := by
  intro l
  induction l with
  | nil => intro hne; exact absurd rfl hne
  | cons a l ih =>
    intro hne hc x hx
    cases l with
    | nil =>
      rcases List.mem_singleton.mp hx with rfl
      exact .refl
    | cons b l =>
      rw [List.isChain_cons_cons] at hc
      rw [List.getLast_cons (by simp)]
      have hb := ih (by simp) hc.2
      rcases List.mem_cons.mp hx with rfl | hx
      · exact .head hc.1 (hb b List.mem_cons_self)
      · exact hb x hx

theorem IsCycle.sameComponent {c : List K} (h : IsCycle E c) {a b : K} (ha : a ∈ c)
    (hb : b ∈ c) : SameComponent E a b := by
  have hfwd : ∀ x ∈ c, ∀ y ∈ c, ReflTransGen E x y := by
    intro x hx y hy
    have hhead : ReflTransGen E (c.head h.ne_nil) y := by
      obtain ⟨d, l, hd⟩ := List.exists_cons_of_ne_nil h.ne_nil
      have hc := h.chain
      subst hd
      exact reach_of_chain_cons hc y hy
    exact (chain_reach_last h.ne_nil h.chain x hx).trans (.head h.closes hhead)
  exact ⟨hfwd a ha b hb, hfwd b hb a ha⟩

theorem IsCycle.onCycle {c : List K} (h : IsCycle E c) {a : K} (ha : a ∈ c) : OnCycle E a := by
  have hlast := (h.sameComponent ha (List.getLast_mem h.ne_nil)).1
  have hhead := (h.sameComponent (List.head_mem h.ne_nil) ha).1
  exact .trans_right hlast (.head' h.closes hhead)

/-- Every member has an edge out of it: to the next one, or from the last to the first. -/
theorem IsCycle.exists_edge {c : List K} (h : IsCycle E c) {a : K} (ha : a ∈ c) :
    ∃ b, E a b := by
  obtain ⟨b, hb, -⟩ := TransGen.head'_iff.mp (h.onCycle ha)
  exact ⟨b, hb⟩

theorem SameComponent.symm {a b : K} (h : SameComponent E a b) : SameComponent E b a :=
  ⟨h.2, h.1⟩

theorem SameComponent.trans {a b c : K} (h : SameComponent E a b) (h' : SameComponent E b c) :
    SameComponent E a c :=
  ⟨h.1.trans h'.1, h'.2.trans h.2⟩

/-! ## No cycle -/

theorem Acyclic.mono {E' : K → K → Prop} (h : Acyclic E) (hs : ∀ a b, E' a b → E a b) :
    Acyclic E' := fun k hk => h k (TransGen.mono hs k k hk)

/-- What goes down a rank goes in no circle. -/
theorem acyclic_of_rank (rank : K → Nat) (h : ∀ a b, E a b → rank b < rank a) : Acyclic E := by
  intro k hk
  have hlt : ∀ a b, TransGen E a b → rank b < rank a := by
    intro a b hab
    induction hab with
    | single hab => exact h _ _ hab
    | tail _ hbc ih => exact (h _ _ hbc).trans ih
  exact (hlt k k hk).false

/-- **An acyclic relation with finitely many sources is well founded downwards**: there is no
endless descent, so a property of every vertex may be proved from its successors'. -/
theorem Acyclic.wellFounded (h : Acyclic E) {s : Set K} (hs : s.Finite)
    (hsrc : ∀ a b, E a b → a ∈ s) : WellFounded fun b a => E a b := by
  have hord : IsStrictOrder K (fun b a => TransGen E a b) :=
    { irrefl := fun a ha => h a ha
      trans := fun _ _ _ hab hbc => hbc.trans hab }
  have hwf : s.WellFoundedOn (fun b a => TransGen E a b) := hs.wellFoundedOn
  rw [Set.wellFoundedOn_iff] at hwf
  -- an edge whose target is no source ends the descent at once: only edges inside `s` go on
  have hacc : ∀ a, Acc (fun b a => E a b) a := by
    have hout : ∀ a, a ∉ s → Acc (fun b a => E a b) a :=
      fun a ha => ⟨a, fun b hb => absurd (hsrc a b hb) ha⟩
    intro a
    induction a using hwf.induction with
    | _ a ih =>
      refine ⟨a, fun b hb => ?_⟩
      by_cases hbs : b ∈ s
      · exact ih b ⟨.single hb, hbs, hsrc a b hb⟩
      · exact hout b hbs
  exact ⟨hacc⟩

end Lib
end StanoPlatform
