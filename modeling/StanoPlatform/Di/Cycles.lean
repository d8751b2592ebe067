import StanoPlatform.Di.Container

/-!
# `Di/Cycles.lean` — what `detect_cycles` reports

`findCycles_spec` at the container: its keys are the registered types, its edges the declared
dependencies, and an `Order` of the factory map is the order in which the hash table happens to
yield the roots. Nothing is assumed of the declared lists — repeats, self-dependencies and ids
nobody registered are all lists.

From `Container::detect_cycles`. A cycle is listed by the names of its types, each once, beginning
with the one that was met again. A type that is declared as a dependency and not registered has no
list of its own and is looked at all the same, as in the source.
-/

set_option autoImplicit false

namespace StanoPlatform
namespace Di

open Lib

namespace Container

/-- `a` was registered with `b` among its dependencies. -/
def Declares (c : Container) : TypeId → TypeId → Prop := Edge (depsOf c.dependencies)

def cyclic (c : Container) (cycle : List TypeId) : ContainerError :=
  .cyclicDependency (cycle.map c.nameOf)

theorem Wf.detectCycles {c : Container} (h : c.Wf) (roots : HashMap.Order c.factories) :
    ∃ cycles, findCycles c.dependencies roots.1 = some cycles ∧
      c.detectCycles roots.1 = some (cycles.map c.cyclic) ∧
      (∀ cycle ∈ cycles, IsCycle c.Declares cycle) ∧
      ∀ id, OnCycle c.Declares id →
        ∃ cycle ∈ cycles, ∀ m ∈ cycle, SameComponent c.Declares id m := by
  obtain ⟨cycles, hfind, hreal, hall⟩ := findCycles_spec c.dependencies roots.1
    (fun a b hab => roots.mem_iff.mpr (h.source hab))
  exact ⟨cycles, hfind, by rw [Container.detectCycles, hfind]; rfl, hreal, hall⟩

theorem Wf.detectCycles_eq_nil {c : Container} (h : c.Wf) (roots : HashMap.Order c.factories) :
    c.detectCycles roots.1 = some [] ↔ Acyclic c.Declares := by
  obtain ⟨cycles, -, hdetect, hreal, hall⟩ := h.detectCycles roots
  rw [hdetect]
  constructor
  · intro hnil id hid
    obtain ⟨cycle, hcycle, -⟩ := hall id hid
    rw [List.map_eq_nil_iff.mp (Option.some.inj hnil)] at hcycle
    exact absurd hcycle (by simp)
  · intro hac
    cases cycles with
    | nil => rfl
    | cons cycle cycles =>
      have hcycle := hreal cycle List.mem_cons_self
      obtain ⟨id, l, hl⟩ := List.exists_cons_of_ne_nil hcycle.ne_nil
      exact absurd (hcycle.onCycle (hl ▸ List.mem_cons_self)) (hac id)

/-- With no cycle declared, `validate` is its loop. -/
theorem Wf.validate_of_acyclic {c : Container} (h : c.Wf) (hac : Acyclic c.Declares)
    (roots : HashMap.Order c.factories) (slots : List TypeId) :
    c.validate roots.1 slots = (do
      let errors ← c.validateLoop slots []
      return verdict errors) := by
  rw [validate, (h.detectCycles_eq_nil roots).mpr hac]
  rfl

/-- With a cycle declared, `validate` is its verdict: it touches no slot. -/
theorem Wf.validate_of_cycle {c : Container} (h : c.Wf) (hcyc : ¬ Acyclic c.Declares)
    (roots : HashMap.Order c.factories) (slots : List TypeId) :
    ∃ cycles, cycles ≠ [] ∧ (∀ cycle ∈ cycles, IsCycle c.Declares cycle) ∧
      c.validate roots.1 slots = .ret (.error (cycles.map c.cyclic)) := by
  obtain ⟨cycles, -, hdetect, hreal, -⟩ := h.detectCycles roots
  have hne : cycles ≠ [] := by
    rintro rfl
    exact hcyc ((h.detectCycles_eq_nil roots).mp hdetect)
  refine ⟨cycles, hne, hreal, ?_⟩
  obtain ⟨cycle, rest, rfl⟩ := List.exists_cons_of_ne_nil hne
  rw [validate, hdetect]
  rfl

/-- **Cycle detection is complete, component by component.** Whatever was registered and in
whatever order the roots come, the search returns, every type on a cycle of declared
dependencies shares its component with a whole reported cycle, and so there is no report exactly
when there is no cycle. -/
theorem detectCycles_complete (setups : List Setup)
    (roots : HashMap.Order (built setups).factories) :
    ∃ cycles, findCycles (built setups).dependencies roots.1 = some cycles ∧
      (built setups).detectCycles roots.1 = some (cycles.map (built setups).cyclic) ∧
      (∀ id ∈ (built setups).factories, OnCycle (built setups).Declares id →
        ∃ cycle ∈ cycles, ∀ m ∈ cycle, SameComponent (built setups).Declares id m) ∧
      ((built setups).detectCycles roots.1 = some [] ↔ Acyclic (built setups).Declares) := by
  have hwf := wf_built setups
  obtain ⟨cycles, hfind, hdetect, -, hall⟩ := hwf.detectCycles roots
  exact ⟨cycles, hfind, hdetect, fun id _ hid => hall id hid, hwf.detectCycles_eq_nil roots⟩

/-- **Every reported cycle is real**, and neither fallback is ever taken: the members of a report
are distinct registered types, each with a name, each declaring the next and the last the first;
and wherever the loop meets a gray child, that child is on the path. -/
theorem detectCycles_sound (setups : List Setup)
    (roots : HashMap.Order (built setups).factories) :
    (∃ cycles, findCycles (built setups).dependencies roots.1 = some cycles ∧
      (built setups).detectCycles roots.1 = some (cycles.map (built setups).cyclic) ∧
      ∀ cycle ∈ cycles, IsCycle (built setups).Declares cycle ∧ ∀ id ∈ cycle,
        id ∈ (built setups).factories ∧
          (built setups).typeNames.get id = some ((built setups).nameOf id)) ∧
    ∀ s, LoopHead (built setups).dependencies roots.1 s → ∀ node i below dep,
      s.stack = (node, i) :: below →
      (depsOf (built setups).dependencies node)[i]? = some dep → colorOf s.colors dep = .gray →
      ∃ start, s.path.idxOf? dep = some start := by
  have hwf := wf_built setups
  refine ⟨?_, fun s hs node i below dep hst hdep hg => ?_⟩
  · obtain ⟨cycles, hfind, hdetect, hreal, -⟩ := hwf.detectCycles roots
    refine ⟨cycles, hfind, hdetect, fun cycle hcycle => ⟨hreal cycle hcycle, fun id hid => ?_⟩⟩
    obtain ⟨b, hb⟩ := (hreal cycle hcycle).exists_edge hid
    exact ⟨hwf.source hb, hwf.nameOf (hwf.source hb)⟩
  · obtain ⟨done, hinv⟩ := hs.inv
    obtain ⟨start, hstart, -⟩ := hinv.report hst hdep hg
    exact ⟨start, hstart⟩

end Container

end Di
end StanoPlatform
