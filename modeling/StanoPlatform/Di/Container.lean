import StanoPlatform.Di.Prog
import StanoPlatform.Di.CycleSearch

/-!
# `Di/Container.lean` — `stano_di::Container`

The four maps, the ways to fill them, and the ways to read them. Registration takes `&mut self`
and touches no slot but its own, so it is a function of containers. Everything that takes `&self`
may run factories, so it is a `Prog`; which container answers it is the evaluator's business
(`Di/World.lean`).

Every registration ends with the same four inserts (`Container.put`), and what one does is read
off five projections of `Registration` — the lemma that says so (`apply_eq_put`) is the only one
that looks at which method was called.

From `stano-di/src/container.rs`. A Rust `HashMap` is a `Finmap`, and where the source iterates over
one the order is an argument (`Lib/HashMap.lean`). A `TypeId` identifies a type. The texts of panics
and of `Display` are left out; the errors of `validate` keep the names they carry.
-/

set_option autoImplicit false

namespace StanoPlatform
namespace Di

open Lib

structure Container where
  factories : HashMap TypeId Factory
  singletons : HashMap TypeId (OnceLock AnyArc)
  typeNames : HashMap TypeId String
  dependencies : HashMap TypeId (List TypeId)

namespace Container

def new : Container := ⟨∅, ∅, ∅, ∅⟩

/-! ## Registration -/

/-- The inserts every registration method ends with. -/
def put (c : Container) (typeId : TypeId) (wrappedFactory : Factory) (slot : OnceLock AnyArc)
    (typeName : String) (deps : List TypeId) : Container :=
  { factories := c.factories.insert typeId wrappedFactory
    singletons := c.singletons.insert typeId slot
    typeNames := c.typeNames.insert typeId typeName
    dependencies := c.dependencies.insert typeId deps }

def registerWithDeps (c : Container) (T : RustType) (factory : Nat → Prog (Arc T))
    (typeName : String) (deps : List TypeId) : Container :=
  let typeId := TypeId.of T
  let wrappedFactory : Factory := fun now => do
    let instance_ ← factory now
    return ⟨T, instance_⟩
  c.put typeId wrappedFactory .empty typeName deps

/-- The instance is wrapped once more: the slot holds an `Arc<Arc<dyn U>>`. -/
def registerTraitWithDeps (c : Container) (U : RustType) (factory : Nat → Prog (Arc U))
    (typeName : String) (deps : List TypeId) : Container :=
  let typeId := TraitObject.typeId U
  let wrappedFactory : Factory := fun now => do
    let instance_ ← factory now
    return ⟨.arc U, Arc.new instance_⟩
  c.put typeId wrappedFactory .empty typeName deps

def register (c : Container) (T : RustType) (factory : Nat → Prog (Arc T)) : Container :=
  c.registerWithDeps T factory (typeName T) []

def registerTrait (c : Container) (U : RustType) (factory : Nat → Prog (Arc U)) : Container :=
  c.registerTraitWithDeps U factory (typeName U) []

def registerInstance (c : Container) (T : RustType) (instance_ : Arc T) : Container :=
  let typeId := TypeId.of T
  let wrappedFactory : Factory := fun _ => return ⟨T, instance_⟩
  c.put typeId wrappedFactory (.full ⟨T, instance_⟩) (typeName T) []

end Container

inductive Registration where
  | registerWithDeps (T : RustType) (factory : Nat → Prog (Arc T)) (typeName : String)
      (deps : List TypeId)
  | registerTraitWithDeps (U : RustType) (factory : Nat → Prog (Arc U)) (typeName : String)
      (deps : List TypeId)
  | register (T : RustType) (factory : Nat → Prog (Arc T))
  | registerTrait (U : RustType) (factory : Nat → Prog (Arc U))
  | registerInstance (T : RustType) (instance_ : Arc T)

/-- A `Component::register`, or the callback of a `ServiceRegistration`: the registrations it
makes. -/
abbrev RegisterFn : Type := List Registration

namespace Container

def apply (c : Container) : Registration → Container
  | .registerWithDeps T factory typeName deps => c.registerWithDeps T factory typeName deps
  | .registerTraitWithDeps U factory typeName deps =>
    c.registerTraitWithDeps U factory typeName deps
  | .register T factory => c.register T factory
  | .registerTrait U factory => c.registerTrait U factory
  | .registerInstance T instance_ => c.registerInstance T instance_

def registerComponent (c : Container) (component : RegisterFn) : Container :=
  component.foldl apply c

/-- `register_all`, over the order in which `inventory::iter` yields the submissions. -/
def registerAll (c : Container) (inventory : List RegisterFn) : Container :=
  inventory.foldl registerComponent c

end Container

inductive Setup where
  | registration (r : Registration)
  | registerComponent (component : RegisterFn)
  | registerAll (inventory : List RegisterFn)

def Setup.registrations : Setup → List Registration
  | .registration r => [r]
  | .registerComponent component => component
  | .registerAll inventory => inventory.flatten

namespace Container

def setup (c : Container) : Setup → Container
  | .registration r => c.apply r
  | .registerComponent component => c.registerComponent component
  | .registerAll inventory => c.registerAll inventory

def built (setups : List Setup) : Container := setups.foldl setup new

theorem registerAll_eq (inventory : List RegisterFn) (c : Container) :
    c.registerAll inventory = inventory.flatten.foldl apply c := by
  induction inventory generalizing c with
  | nil => rfl
  | cons component inventory ih =>
    rw [List.flatten_cons, List.foldl_append]
    exact ih (c.registerComponent component)

theorem setup_eq (c : Container) (s : Setup) : c.setup s = s.registrations.foldl apply c := by
  cases s with
  | registration r => rfl
  | registerComponent component => rfl
  | registerAll inventory => exact registerAll_eq inventory c

theorem foldl_setup_eq (setups : List Setup) (c : Container) :
    setups.foldl setup c = (setups.flatMap Setup.registrations).foldl apply c := by
  induction setups generalizing c with
  | nil => rfl
  | cons s setups ih =>
    rw [List.foldl_cons, ih, setup_eq, List.flatMap_cons, List.foldl_append]

end Container

namespace Registration

def key : Registration → TypeId
  | .registerWithDeps T _ _ _ | .register T _ | .registerInstance T _ => TypeId.of T
  | .registerTraitWithDeps U _ _ _ | .registerTrait U _ => TraitObject.typeId U

def wrappedFactory : Registration → Factory
  | .registerWithDeps T factory _ _ | .register T factory => fun now => do
    let instance_ ← factory now
    return ⟨T, instance_⟩
  | .registerTraitWithDeps U factory _ _ | .registerTrait U factory => fun now => do
    let instance_ ← factory now
    return ⟨.arc U, Arc.new instance_⟩
  | .registerInstance T instance_ => fun _ => return ⟨T, instance_⟩

def slot : Registration → OnceLock AnyArc
  | .registerInstance T instance_ => .full ⟨T, instance_⟩
  | _ => .empty

def name : Registration → String
  | .registerWithDeps _ _ typeName _ | .registerTraitWithDeps _ _ typeName _ => typeName
  | .register T _ | .registerTrait T _ | .registerInstance T _ => typeName T

def deps : Registration → List TypeId
  | .registerWithDeps _ _ _ deps | .registerTraitWithDeps _ _ _ deps => deps
  | .register _ _ | .registerTrait _ _ | .registerInstance _ _ => []

end Registration

namespace Container

/-- **Whatever method was called**, it comes to one `put`. -/
theorem apply_eq_put (c : Container) (r : Registration) :
    c.apply r = c.put r.key r.wrappedFactory r.slot r.name r.deps := by
  cases r <;> rfl

/-- A sequence of registrations is a batch of inserts into each of the four maps. -/
theorem foldl_apply_eq (rs : List Registration) (c : Container) :
    rs.foldl apply c =
      { factories := HashMap.insertAll Registration.key Registration.wrappedFactory c.factories rs
        singletons := HashMap.insertAll Registration.key Registration.slot c.singletons rs
        typeNames := HashMap.insertAll Registration.key Registration.name c.typeNames rs
        dependencies :=
          HashMap.insertAll Registration.key Registration.deps c.dependencies rs } := by
  induction rs generalizing c with
  | nil => rfl
  | cons r rs ih =>
    rw [List.foldl_cons, ih, apply_eq_put]
    rfl

/-! ## Resolution -/

def tryGet (T : RustType) : Prog (Except ContainerError (Arc T)) :=
  .resolve (TypeId.of T) fun
    | .unregistered => .ret (.error (.notRegistered (typeName T)))
    | .panicked => .panic
    | .ready instance_ =>
      match instance_.downcast T with
      | some p => .ret (.ok p)
      | none => .ret (.error (.downcastFailed (typeName T)))

def tryGetTrait (U : RustType) : Prog (Except ContainerError (Arc U)) :=
  .resolve (TraitObject.typeId U) fun
    | .unregistered => .ret (.error (.notRegistered (typeName U)))
    | .panicked => .panic
    | .ready instance_ =>
      match instance_.downcast (.arc U) with
      | some p => .ret (.ok p.inner)
      | none => .ret (.error (.downcastFailed (typeName U)))

/-- Both accessors resolve a key, and downcast what they get to the type they expect there. -/
def access {α : Type} (id : TypeId) (T : RustType) (found : Arc T → α) (name : String) :
    Prog (Except ContainerError α) :=
  .resolve id fun
    | .unregistered => .ret (.error (.notRegistered name))
    | .panicked => .panic
    | .ready instance_ =>
      match instance_.downcast T with
      | some p => .ret (.ok (found p))
      | none => .ret (.error (.downcastFailed name))

theorem tryGet_eq (T : RustType) :
    tryGet T = access (TypeId.of T) T (fun p => p) (typeName T) := rfl

theorem tryGetTrait_eq (U : RustType) :
    tryGetTrait U = access (TraitObject.typeId U) (.arc U) Arc.inner (typeName U) := by
  refine congrArg (Prog.resolve (TraitObject.typeId U)) (funext fun r => ?_)
  cases r with
  | unregistered | panicked => rfl
  | ready a => cases h : a.downcast (.arc U) <;> simp only [h]

/-- `.unwrap_or_else(|e| panic!("{}", e))`. -/
def orPanic {α : Type} : Except ContainerError α → Prog α
  | .ok a => .ret a
  | .error _ => .panic

def get (T : RustType) : Prog (Arc T) := tryGet T >>= orPanic

def getTrait (U : RustType) : Prog (Arc U) := tryGetTrait U >>= orPanic

def has (c : Container) (T : RustType) : Bool := c.factories.containsKey (TypeId.of T)

def hasTrait (c : Container) (U : RustType) : Bool :=
  c.factories.containsKey (TraitObject.typeId U)

def len (c : Container) : Nat := c.factories.len

def isEmpty (c : Container) : Bool := c.len == 0

/-! ## Startup validation -/

/-- `self.type_names.get(&id).copied().unwrap_or("unknown")`. -/
def nameOf (c : Container) (id : TypeId) : String := (c.typeNames.get id).getD "unknown"

/-- `detect_cycles`, over the order in which `factories.keys()` yields the roots. -/
def detectCycles (c : Container) (roots : List TypeId) : Option (List ContainerError) :=
  (findCycles c.dependencies roots).map fun cycles =>
    cycles.map fun cycle => .cyclicDependency (cycle.map c.nameOf)

/-- The `for` of `validate`, over the order in which `&self.singletons` yields the slots. -/
def validateLoop (c : Container) : List TypeId → List ContainerError → Prog (List ContainerError)
  | [], errors => .ret errors
  | id :: ids, errors =>
    .peek id fun isSet =>
      if isSet then c.validateLoop ids errors
      else
        match c.factories.get id with
        | none => c.validateLoop ids errors
        | some _ =>
          .resolve id fun
            | .panicked => c.validateLoop ids (errors ++ [.factoryPanic (c.nameOf id)])
            | .unregistered | .ready _ => c.validateLoop ids errors

def verdict (errors : List ContainerError) : Except (List ContainerError) Unit :=
  if errors.isEmpty then .ok () else .error errors

def validate (c : Container) (roots slots : List TypeId) :
    Prog (Except (List ContainerError) Unit) :=
  match c.detectCycles roots with
  | none => .panic
  | some errors =>
    if errors.isEmpty then do
      let errors ← c.validateLoop slots errors
      return verdict errors
    else .ret (.error errors)

/-! ## Well-formed containers -/

/-- What registration keeps true of the four maps: they have the same keys, and a slot holds —
and its factory builds — what the key promises, so that no downcast ever fails. -/
structure Wf (c : Container) : Prop where
  singletons : ∀ id, id ∈ c.singletons ↔ id ∈ c.factories
  typeNames : ∀ id, id ∈ c.typeNames ↔ id ∈ c.factories
  dependencies : ∀ id, id ∈ c.dependencies ↔ id ∈ c.factories
  filled : ∀ id a, c.singletons.get id = some (.full a) → a.ty = storedType id
  builds : ∀ id f, c.factories.get id = some f → ∀ now a, (f now).Returns a →
    a.ty = storedType id

theorem wf_new : new.Wf where
  singletons _ := Iff.rfl
  typeNames _ := Iff.rfl
  dependencies _ := Iff.rfl
  filled id a h := absurd h (by rw [new, HashMap.get_empty]; simp)
  builds id f h := absurd h (by rw [new, HashMap.get_empty]; simp)

end Container

/-- There is no instance of a `TraitObject`, so whoever hands the container one under its own
type has stored it at that type. -/
theorem storedType_of_arc {T : RustType} (p : Arc T) : storedType T = T :=
  storedType_of_ne fun u h => Empty.elim (h ▸ p : Arc (.traitObject u))

namespace Registration

theorem slot_typed (r : Registration) {a : AnyArc} (h : r.slot = .full a) :
    a.ty = storedType r.key := by
  cases r with
  | registerInstance T p => cases h; exact (storedType_of_arc p).symm
  | _ => exact absurd h (by simp [slot])

theorem builds_typed (r : Registration) {now : Nat} {a : AnyArc}
    (h : (r.wrappedFactory now).Returns a) : a.ty = storedType r.key := by
  cases r with
  | registerWithDeps T | register T =>
    obtain ⟨p, -, ha⟩ := Prog.returns_bind h
    rw [show a = ⟨T, p⟩ from ha]
    exact (storedType_of_arc p).symm
  | registerTraitWithDeps U | registerTrait U =>
    obtain ⟨p, -, ha⟩ := Prog.returns_bind h
    rw [show a = ⟨.arc U, Arc.new p⟩ from ha]
    rfl
  | registerInstance T p =>
    rw [show a = ⟨T, p⟩ from h]
    exact (storedType_of_arc p).symm

/-- A slot is registered empty or full, never half-way. -/
theorem slot_ne_initializing (r : Registration) : r.slot ≠ .initializing := by
  cases r <;> simp [slot]

end Registration

namespace Container

/-- **Registration keeps the container well formed**, whichever method it is and whatever was
registered under the key before. -/
theorem Wf.apply {c : Container} (h : c.Wf) (r : Registration) : (c.apply r).Wf := by
  -- every registration makes the same four inserts, under one key
  rw [apply_eq_put]
  have hkeys : ∀ {V W : Type} {m : HashMap TypeId V} {m' : HashMap TypeId W} (v : V) (w : W),
      (∀ id, id ∈ m ↔ id ∈ m') → ∀ id, id ∈ m.insert r.key v ↔ id ∈ m'.insert r.key w := by
    intro V W m m' v w hm id
    rw [Finmap.mem_insert, Finmap.mem_insert, hm]
  refine ⟨hkeys _ _ h.singletons, hkeys _ _ h.typeNames, hkeys _ _ h.dependencies, ?_, ?_⟩
  · intro id a ha
    rw [put, HashMap.get_insert] at ha
    split at ha
    · rename_i hid
      rw [hid]
      exact r.slot_typed (Option.some.inj ha)
    · exact h.filled id a ha
  · intro id f hf now a ha
    rw [put, HashMap.get_insert] at hf
    split at hf
    · rename_i hid
      rw [← Option.some.inj hf] at ha
      rw [hid]
      exact r.builds_typed ha
    · exact h.builds id f hf now a ha

theorem Wf.foldl_apply {c : Container} (h : c.Wf) (rs : List Registration) :
    (rs.foldl Container.apply c).Wf := by
  induction rs generalizing c with
  | nil => exact h
  | cons r rs ih => exact ih (h.apply r)

theorem Wf.setup {c : Container} (h : c.Wf) (s : Setup) : (c.setup s).Wf := by
  rw [setup_eq]
  exact h.foldl_apply _

theorem wf_built (setups : List Setup) : (built setups).Wf := by
  rw [built, foldl_setup_eq]
  exact wf_new.foldl_apply _

theorem built_eq (setups : List Setup) :
    built setups = (setups.flatMap Setup.registrations).foldl apply new := foldl_setup_eq setups new

theorem mem_built {setups : List Setup} {id : TypeId} : id ∈ (built setups).factories ↔
    ∃ r ∈ setups.flatMap Setup.registrations, r.key = id := by
  rw [built_eq, foldl_apply_eq, HashMap.mem_insertAll]
  exact or_iff_right (Finmap.notMem_empty)

/-- One order in which the factories may come: as they were first registered. -/
def registrationOrder (setups : List Setup) : HashMap.Order (built setups).factories :=
  ⟨((setups.flatMap Setup.registrations).map Registration.key).dedup, List.nodup_dedup _,
    fun id => by rw [List.mem_dedup, List.mem_map, mem_built]⟩

def slotOrder (setups : List Setup) : HashMap.Order (built setups).singletons :=
  (registrationOrder setups).congr fun id => ((wf_built setups).singletons id).symm

theorem built_ne_initializing (setups : List Setup) (id : TypeId) :
    (built setups).singletons.get id ≠ some .initializing := by
  rw [built_eq, foldl_apply_eq]
  intro h
  rw [HashMap.get_insertAll, new, HashMap.get_empty, Option.or_none, Option.map_eq_some_iff] at h
  obtain ⟨r, -, hr⟩ := h
  exact r.slot_ne_initializing hr

theorem Wf.source {c : Container} (h : c.Wf) {a b : TypeId}
    (he : Edge (depsOf c.dependencies) a b) : a ∈ c.factories := by
  rw [← h.dependencies]
  cases hg : HashMap.get c.dependencies a with
  | none => rw [Edge, depsOf, hg] at he; exact absurd he (by simp)
  | some l => exact HashMap.mem_of_get hg

theorem Wf.nameOf {c : Container} (h : c.Wf) {id : TypeId} (hid : id ∈ c.factories) :
    c.typeNames.get id = some (c.nameOf id) := by
  obtain ⟨name, hname⟩ := HashMap.mem_iff_get.mp ((h.typeNames id).mpr hid)
  rw [Container.nameOf, hname]
  rfl

end Container

end Di
end StanoPlatform
