import StanoPlatform.Di.Coherence
import StanoPlatform.Di.Service

/-!
# `Di/Operations.lean` — what holds whatever is done to a container

Registration, lookups and `validate`, in any order, with any types. Registration keeps the
container well formed (`Wf.apply`), and so does every tick of a run (`Tick.wf`), so it is well
formed always, in the middle of a factory as well. What a lookup can come back with is read off
that: the four maps never disagree, and the two storage conventions never meet in one slot.

An operation is one method of `Container` that registers, looks up or validates, with its arguments.
`ApplicationContext` has the same ones, so a list of operations is a history of either. There is one
thread here; with more of them a lookup may have to wait, and that is `Di/Threads.lean`.
-/

set_option autoImplicit false

namespace StanoPlatform
namespace Di

open Lib Relation

inductive Operation where
  | setup (s : Setup)
  | call (call : Call)

namespace World

/-- Registration, between two runs. -/
def setup (w : World) (s : Setup) : World := { w with container := w.container.setup s }

/-- One operation after another. A panic ends a lookup and not the sequence; a lookup that hangs
is the last operation. -/
def operate : World → List Operation → World
  | w, [] => w
  | w, .setup s :: operations => operate (w.setup s) operations
  | w, .call call :: operations =>
    match w.run (call.prog w.container) with
    | (w', .error _) => w'
    | (w', .ok _) => operate w' operations

end World

/-! ## Well formed always -/

theorem World.operate_wf {w : World} (hw : w.container.Wf) (operations : List Operation) :
    (w.operate operations).container.Wf := by
  induction operations generalizing w with
  | nil => exact hw
  | cons operation operations ih =>
    cases operation with
    | setup s => exact ih (hw.setup s)
    | call call =>
      have hrun := (World.run_runs w (call.prog w.container)).ticks.wf hw
      rw [operate]
      rcases h : w.run (call.prog w.container) with ⟨w', e | o⟩
      · rwa [h] at hrun
      · rw [h] at hrun
        exact ih hrun

/-- The four maps have the same keys, and a filled slot holds an `Arc<T>` under the id of a
concrete type, an `Arc<Arc<U>>` under the id of a trait. -/
structure Container.Consistent (c : Container) : Prop where
  singletons : ∀ id, id ∈ c.singletons ↔ id ∈ c.factories
  typeNames : ∀ id, id ∈ c.typeNames ↔ id ∈ c.factories
  dependencies : ∀ id, id ∈ c.dependencies ↔ id ∈ c.factories
  concrete : ∀ T a, (∀ u, T ≠ .traitObject u) →
    c.singletons.get (TypeId.of T) = some (.full a) → ∃ p : Arc T, a = ⟨T, p⟩
  dynTrait : ∀ U a, c.singletons.get (TraitObject.typeId U) = some (.full a) →
    ∃ p : Arc (.arc U), a = ⟨.arc U, p⟩

theorem Container.Wf.consistent {c : Container} (h : c.Wf) : c.Consistent where
  singletons := h.singletons
  typeNames := h.typeNames
  dependencies := h.dependencies
  concrete T a hT ha := by
    obtain ⟨p, -, heq⟩ := AnyArc.downcast_eq_some ((h.filled _ a ha).trans (storedType_of_ne hT))
    exact ⟨p, heq⟩
  dynTrait U a ha := by
    obtain ⟨p, -, heq⟩ := AnyArc.downcast_eq_some (h.filled _ a ha)
    exact ⟨p, heq⟩

/-! ## What a lookup comes back with -/

namespace World

/-- The factory of `id` was started, and panicked. -/
def Unwound (w w' : World) (id : TypeId) : Prop :=
  ∃ earlier, w'.trace = .unwound id :: earlier ∧ w.trace <:+ earlier

theorem getOrInit_wf (depth : Nat) {w : World} (hwf : w.container.Wf) (id : TypeId) :
    (id ∉ w.container.factories ∧ getOrInit (depth + 1) w id = (w, .ok .unregistered)) ∨
    (id ∈ w.container.factories ∧
      ((∃ w' e, getOrInit (depth + 1) w id = (w', .error e)) ∨
        (∃ w' a, getOrInit (depth + 1) w id = (w', .ok (.ready a)) ∧ a.ty = storedType id) ∨
        ∃ w', getOrInit (depth + 1) w id = (w', .ok .panicked) ∧ w.Unwound w' id)) := by
  have hmem : ∀ {lock}, w.slot id = some lock → id ∈ w.container.factories :=
    fun hs => (hwf.singletons id).mp (HashMap.mem_of_get hs)
  rcases initWith_cases (getOrInit depth) w id with
    ⟨hs, h⟩ | ⟨a, hs, h⟩ | ⟨hs, h⟩ | ⟨hs, hf, -⟩ |
      ⟨f, w', hs, hf, ⟨e, -, h⟩ | ⟨a, ha, h⟩ | ⟨hp, h⟩⟩
  · refine .inl ⟨fun hid => ?_, h⟩
    exact HashMap.get_eq_none_iff.mp hs ((hwf.singletons id).mpr hid)
  · exact .inr ⟨hmem hs, .inr (.inl ⟨_, a, h, hwf.filled id a hs⟩)⟩
  · exact .inr ⟨hmem hs, .inl ⟨_, _, h⟩⟩
  · exact absurd (hmem hs) (HashMap.get_eq_none_iff.mp hf)
  · exact .inr ⟨hmem hs, .inl ⟨_, _, h⟩⟩
  · exact .inr ⟨hmem hs, .inr (.inl ⟨_, a, h, hwf.builds id f hf _ a (Prog.exec_returns _ ha)⟩)⟩
  · have hticks := (Prog.exec_rel Runs.refl Runs.trans (getOrInit_runs depth) (f w.now)
      (w.enter id)).ticks
    rw [hp] at hticks
    have htrace : w.trace <:+ w'.trace := (List.suffix_cons _ _).trans hticks.trace
    exact .inr ⟨hmem hs, .inr (.inr ⟨_, h, w'.trace, rfl, htrace⟩)⟩

/-- **What a lookup owes its caller**: it fails iff the key is not registered, and says so;
otherwise it panics only where the factory did. -/
structure LooksUp {α : Type} (w : World) (id : TypeId) (name : String)
    (lookup : Prog (Except ContainerError α)) (has : Bool) : Prop where
  errors : ∀ e, (w.run lookup).2 = .ok (.returned (.error e)) → e = .notRegistered name
  notRegistered : (w.run lookup).2 = .ok (.returned (.error (.notRegistered name))) ↔ has = false
  panicked : (w.run lookup).2 = .ok .panicked → w.Unwound (w.run lookup).1 id

/-- A lookup that downcasts to the type that is stored under its key. -/
theorem looksUp_access {α : Type} {w : World} (hwf : w.container.Wf) {id : TypeId} {T : RustType}
    (hT : storedType id = T) (found : Arc T → α) (name : String) :
    w.LooksUp id name (Container.access id T found name)
      (w.container.factories.containsKey id) := by
  have hhas : w.container.factories.containsKey id = false ↔ id ∉ w.container.factories := by
    rw [← HashMap.containsKey_iff, Bool.not_eq_true]
  -- not registered; stopped on the way; found, at the type that is stored; or its factory panicked
  rcases getOrInit_wf w.container.singletons.len hwf id with
    ⟨hid, h⟩ | ⟨hid, ⟨w', e, h⟩ | ⟨w', a, h, ha⟩ | ⟨w', h, hunwound⟩⟩
  · have hrun : w.run (Container.access id T found name) =
        (w, .ok (.returned (.error (.notRegistered name)))) := by
      rw [run, Container.access, Prog.exec, h]
      rfl
    refine ⟨?_, ?_, ?_⟩ <;> simp [hrun, hhas, hid]
  · have hrun : w.run (Container.access id T found name) = (w', .error e) := by
      rw [run, Container.access, Prog.exec, h]
    refine ⟨?_, ?_, ?_⟩ <;> simp [hrun, hhas, hid]
  · obtain ⟨p, hp, -⟩ := AnyArc.downcast_eq_some (ha.trans hT)
    have hrun : w.run (Container.access id T found name) =
        (w', .ok (.returned (.ok (found p)))) := by
      rw [run, Container.access, Prog.exec, h]
      simp only [hp, Prog.exec]
    refine ⟨?_, ?_, ?_⟩ <;> simp [hrun, hhas, hid]
  · have hrun : w.run (Container.access id T found name) = (w', .ok .panicked) := by
      rw [run, Container.access, Prog.exec, h]
      rfl
    refine ⟨?_, ?_, ?_⟩ <;> simp [hrun, hhas, hid, hunwound]

/-- Running `p` from a world asks for `id` in another: directly, or from inside a factory that a
lookup has started. -/
inductive Asked : ∀ {α : Type}, Nat → Prog α → World → World → TypeId → Prop
  | here {α : Type} {depth : Nat} {w : World} {id : TypeId} {k : Resolution → Prog α} :
      Asked depth (.resolve id k) w w id
  | peek {α : Type} {depth : Nat} {w w' : World} {id id' : TypeId} {k : Bool → Prog α}
      (h : Asked depth (k (w.isSet id)) w w' id') : Asked depth (.peek id k) w w' id'
  | inside {α : Type} {depth : Nat} {w w' : World} {id id' : TypeId} {k : Resolution → Prog α}
      {f : Factory} (hs : w.slot id = some .empty) (hf : w.container.factories.get id = some f)
      (h : Asked depth (f w.now) (w.enter id) w' id') : Asked (depth + 1) (.resolve id k) w w' id'
  | after {α : Type} {depth : Nat} {w w₁ w' : World} {id id' : TypeId} {k : Resolution → Prog α}
      {r : Resolution} (hcall : getOrInit depth w id = (w₁, .ok r))
      (h : Asked depth (k r) w₁ w' id') : Asked depth (.resolve id k) w w' id'

/-- A lookup in the middle of a run is made in a world the run has come to. -/
theorem Asked.ticks {α : Type} {depth : Nat} {p : Prog α} {w w' : World} {id : TypeId}
    (h : Asked depth p w w' id) : Ticks w w' := by
  induction h with
  | here => exact .refl
  | peek _ ih => exact ih
  | inside hs hf _ ih => exact .head (.enter hs hf) ih
  | @after _ depth w _ _ id _ _ _ hcall _ ih =>
    have hruns := getOrInit_runs depth w id
    rw [hcall] at hruns
    exact hruns.ticks.trans ih

end World

open World in
/-- **What holds after any operations, and in the middle of one.** The maps and the slots are
consistent; every lookup fails iff its type is not registered, and otherwise has a factory to run:
no branch of a downcast that fails or of a factory that is not found is ever taken. -/
theorem operations_consistent (operations : List Operation) (w : World)
    (hw : Ticks ((World.start .new).operate operations) w) :
    w.container.Consistent ∧
    (∀ T, (∀ u, T ≠ .traitObject u) →
      w.LooksUp (TypeId.of T) (typeName T) (Container.tryGet T) (w.container.has T)) ∧
    (∀ U, w.LooksUp (TraitObject.typeId U) (typeName U) (Container.tryGetTrait U)
      (w.container.hasTrait U)) ∧
    ∀ (α : Type) (p : Prog α) (depth : Nat) (w' : World) (id : TypeId), Asked depth p w w' id →
      w'.slot id = some .empty → ∃ f, w'.container.factories.get id = some f := by
  have hwf : w.container.Wf := hw.wf (operate_wf Container.wf_new operations)
  refine ⟨hwf.consistent, fun T hT => ?_, fun U => ?_, fun α p depth w' id hasked hs => ?_⟩
  · exact looksUp_access hwf (storedType_of_ne hT) (fun p => p) (typeName T)
  · have hU : storedType (TraitObject.typeId U) = .arc U := rfl
    rw [Container.tryGetTrait_eq]
    exact looksUp_access hwf hU Arc.inner (typeName U)
  · have hmem := (hasked.ticks.wf hwf).singletons id
    exact HashMap.mem_iff_get.mp (hmem.mp (HashMap.mem_of_get hs))

/-! ### A service registered twice over -/

def clock : RustType := .named "app::SystemClock"

def dynClock : RustType := .named "dyn app::Clock"

/-- Under its own type as an instance, under a trait with a factory that panics, looked up both
ways, validated, and registered once more. -/
def clockOperations : List Operation :=
  [.setup (.registration (.registerInstance clock (Arc.at _ 7))),
    .setup (.registration (.registerTrait dynClock fun _ => .panic)),
    .call (.tryGet clock), .call (.getTrait dynClock),
    .call (.validate [clock, .traitObject dynClock] [clock, .traitObject dynClock]),
    .setup (.registration (.registerTrait dynClock fun _ => .ret (Arc.at _ 9))),
    .call (.tryGetTrait dynClock)]

theorem operations_consistent_clock :
    ((World.start .new).operate clockOperations).container.Consistent ∧
      ((World.start .new).operate clockOperations).LooksUp (TypeId.of clock) "app::SystemClock"
        (Container.tryGet clock) true := by
  obtain ⟨hconsistent, hconcrete, -⟩ :=
    operations_consistent clockOperations ((World.start .new).operate clockOperations) .refl
  exact ⟨hconsistent, hconcrete clock (by simp [clock])⟩

end Di
end StanoPlatform
