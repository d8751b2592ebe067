import StanoPlatform.Di.Cycles
import StanoPlatform.Di.World

/-!
# `Di/Service.lean` — what `#[service]` generates

Every field of a service is an `Arc<T>` or an `Arc<dyn U>`, and the macro derives two things from
the list of fields: the ids it declares as dependencies, and the calls the factory makes. They
are derived *together*, which is the whole reason the declared graph can be trusted — `generated`
is that factory, with whatever the constructor does after the last call left open.

From the code in the `quote!` of `service_struct` in `stano-di-macros/src/lib.rs`, as it runs. How
the macro gets from the struct to that code is `Macros/Service.lean`. `DynComponent` and
`Injectable` are marker traits; what they do at run time is `Container::get` and `get_trait`.
-/

set_option autoImplicit false

namespace StanoPlatform
namespace Di

open Lib

/-- The type of a field: `Arc<T>`, where `get` wants a `T: Clone` — which `TraitObject` is not —
or `Arc<dyn U>`. -/
inductive Dep where
  | concrete (T : RustType) (clone : ∀ u, T ≠ .traitObject u)
  | dynTrait (U : RustType)

namespace Dep

def key : Dep → TypeId
  | .concrete T _ => TypeId.of T
  | .dynTrait U => TraitObject.typeId U

/-- The argument passed to `Self::new`: `container.get::<T>()` or `container.get_trait::<U>()`.
The erased `Arc` is what the slot held. -/
def get : Dep → Prog AnyArc
  | .concrete T _ => do
    let p ← Container.get T
    return ⟨T, p⟩
  | .dynTrait U => do
    let p ← Container.getTrait U
    return ⟨.arc U, Arc.new p⟩

def getAll : List Dep → Prog (List AnyArc)
  | [] => .ret []
  | d :: ds => do
    let a ← d.get
    let as ← getAll ds
    return a :: as

/-- One call: it panics unless the slot has what its key promises. -/
theorem get_eq (d : Dep) : ∃ k, d.get = .resolve d.key k ∧ k .unregistered = .panic ∧
    k .panicked = .panic ∧ ∀ a, a.ty = storedType d.key → k (.ready a) = .ret a := by
  cases d with
  | concrete T clone =>
    refine ⟨_, rfl, rfl, rfl, fun a ha => ?_⟩
    obtain ⟨p, -, rfl⟩ := AnyArc.downcast_eq_some (T := T) (ha.trans (storedType_of_ne clone))
    simp only [AnyArc.downcast_mk]
    rfl
  | dynTrait U =>
    refine ⟨_, rfl, rfl, rfl, fun a ha => ?_⟩
    obtain ⟨p, -, rfl⟩ := AnyArc.downcast_eq_some (T := .arc U) ha
    simp only [AnyArc.downcast_mk]
    rfl

theorem resolves_get {d : Dep} {id : TypeId} (h : d.get.Resolves id) : id = d.key := by
  cases d with
  | concrete T clone =>
    rcases h with h | ⟨_ | _ | a, h⟩
    · exact h
    · exact h.elim
    · exact h.elim
    · cases hd : a.downcast T <;> · simp only [hd] at h; exact h.elim
  | dynTrait U =>
    rcases h with h | ⟨_ | _ | a, h⟩
    · exact h
    · exact h.elim
    · exact h.elim
    · cases hd : a.downcast (.arc U) <;> · simp only [hd] at h; exact h.elim

theorem resolves_getAll {id : TypeId} : ∀ {deps : List Dep}, (getAll deps).Resolves id →
    id ∈ deps.map key := by
  intro deps
  induction deps with
  | nil => intro h; exact h.elim
  | cons d ds ih =>
    intro h
    rcases Prog.resolves_bind h with h | ⟨a, -, h⟩
    · exact resolves_get h ▸ List.mem_cons_self
    · rcases Prog.resolves_bind h with h | ⟨as, -, h⟩
      · exact List.mem_cons_of_mem _ (ih h)
      · exact h.elim

end Dep

/-- Resolve the dependencies in order, then panic or build — the same way each time. -/
def generated (deps : List Dep) (panics : Bool) (make : Nat → List AnyArc → AnyArc) : Factory :=
  fun now => do
    let fields ← Dep.getAll deps
    if panics then .panic else return make now fields

theorem resolves_generated {deps : List Dep} {panics : Bool}
    {make : Nat → List AnyArc → AnyArc} {now : Nat} {id : TypeId}
    (h : (generated deps panics make now).Resolves id) : id ∈ deps.map Dep.key := by
  rcases Prog.resolves_bind h with h | ⟨fields, -, h⟩
  · exact Dep.resolves_getAll h
  · split at h <;> exact h.elim

/-- Every factory of the container is a generated one, for the dependencies it declares;
`panics` says which constructors do. -/
def Container.Generated (c : Container) (panics : TypeId → Bool) : Prop :=
  ∀ id f, c.factories.get id = some f → ∃ deps make,
    c.dependencies.get id = some (deps.map Dep.key) ∧ f = generated deps (panics id) make

theorem Container.Generated.asks {c : Container} {panics : TypeId → Bool}
    (h : c.Generated panics) {a b : TypeId} (hab : c.Asks a b) : c.Declares a b := by
  obtain ⟨f, now, hf, hb⟩ := hab
  obtain ⟨deps, make, hdeps, rfl⟩ := h a f hf
  show b ∈ depsOf c.dependencies a
  rw [depsOf, hdeps]
  exact resolves_generated hb

theorem Container.generated_new (panics : TypeId → Bool) : Container.new.Generated panics :=
  fun id f h => absurd h (by rw [Container.new, HashMap.get_empty]; simp)

theorem Container.Generated.apply {c : Container} {panics : TypeId → Bool}
    (h : c.Generated panics) (r : Registration) (deps : List Dep)
    (make : Nat → List AnyArc → AnyArc) (hdeps : r.deps = deps.map Dep.key)
    (hf : r.wrappedFactory = generated deps (panics r.key) make) :
    (c.apply r).Generated panics := by
  intro id f hget
  rw [Container.apply_eq_put] at hget ⊢
  rw [Container.put, HashMap.get_insert] at hget
  rw [Container.put, HashMap.get_insert]
  split at hget
  · rename_i hid
    rw [if_pos hid, hid, hdeps, ← Option.some.inj hget, hf]
    exact ⟨deps, make, rfl, rfl⟩
  · rename_i hid
    rw [if_neg hid]
    exact h id f hget

/-! ## Services -/

/-- `Arc::new(Self::new(..))`: the address of the new instance. -/
def Arc.at (path : String) (address : Nat) : Arc (.named path) := address

/-- `arc as Arc<dyn Trait>`: the same instance. -/
def Arc.unsize {path : String} (p : Arc (.named path)) (traitPath : String) :
    Arc (.named traitPath) := p

/-- A struct under `#[service]` or `#[service(dyn Trait)]`: its name and path, the trait if one
is given, its fields, and where the instance built at each point of the history goes. -/
structure Service where
  structName : String
  path : String
  traitPath : Option String
  fields : List Dep
  alloc : Nat → Nat

namespace Service

def dependencyIds (s : Service) : List TypeId := s.fields.map Dep.key

def build (s : Service) : Nat → Prog (Arc (.named s.path)) := fun now => do
  let _ ← Dep.getAll s.fields
  return Arc.at s.path (s.alloc now)

def registration (s : Service) : Registration :=
  match s.traitPath with
  | some traitPath =>
    .registerTraitWithDeps (.named traitPath)
      (fun now => do
        let instance_ ← s.build now
        return instance_.unsize traitPath)
      s.structName s.dependencyIds
  | none => .registerWithDeps (.named s.path) s.build s.structName s.dependencyIds

def register (s : Service) : RegisterFn := [s.registration]

def erase (s : Service) (address : Nat) : AnyArc :=
  match s.traitPath with
  | some traitPath => ⟨.arc (.named traitPath), Arc.new (Arc.at traitPath address)⟩
  | none => ⟨.named s.path, Arc.at s.path address⟩

theorem deps_registration (s : Service) : s.registration.deps = s.fields.map Dep.key := by
  unfold registration
  split <;> rfl

theorem slot_registration (s : Service) : s.registration.slot = .empty := by
  unfold registration
  split <;> rfl

/-- **A service's factory is a generated one**, whose constructor never panics. -/
theorem wrappedFactory_registration (s : Service) : s.registration.wrappedFactory =
    generated s.fields false (fun now _ => s.erase (s.alloc now)) := by
  unfold registration erase
  cases s.traitPath with
  | none =>
    funext now
    exact Prog.bind_assoc _ _ _
  | some traitPath =>
    funext now
    exact (congrArg (· >>= _) (Prog.bind_assoc _ _ _)).trans (Prog.bind_assoc _ _ _)

end Service

end Di
end StanoPlatform
