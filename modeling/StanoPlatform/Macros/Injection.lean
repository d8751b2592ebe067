import StanoPlatform.Di.Service
import StanoPlatform.Macros.Service

/-!
# `Macros/Injection.lean` — an expanded service against the container

`Di/Service.lean` starts from a list of dependencies and has the declared ids and the lookups made
of it together. The macro does not: it declares one of its vectors and looks up another, names the
constructor's parameters from a third and fills the fields from the first again. `Faithful` is what
that has to come to, and `Compiled.generated` is the way back to `Di/Service.lean`.

What a type in an expansion means is rustc's (`resolve`): two services may write one type
differently, and the container sees the type.

What rustc makes of the generated code is `Compiled`: the type that a type in the expansion names,
the instance that `Arc::new` holds, and the cast to a trait. Nothing is assumed of it. The generated
constructor is a struct expression, so once its lookups have gone well it comes back.
-/

set_option autoImplicit false

namespace StanoPlatform
namespace Macros

open Di

/-! ## Keys -/

section

variable (resolve : Ty → RustType)

def DependencyId.eval : DependencyId → TypeId
  | typeIdOf inner => TypeId.of (resolve inner)
  | traitObjectTypeId inner => TraitObject.typeId (resolve inner)

namespace GetCall

def run : GetCall → Prog AnyArc
  | get inner => do
    let p ← Container.get (resolve inner)
    return ⟨resolve inner, p⟩
  | getTrait inner => do
    let p ← Container.getTrait (resolve inner)
    return ⟨.arc (resolve inner), Arc.new p⟩

def runAll : List GetCall → Prog (List AnyArc)
  | [] => .ret []
  | call :: calls => do
    let a ← call.run resolve
    let as ← runAll calls
    return a :: as

def key : GetCall → TypeId
  | get inner => TypeId.of (resolve inner)
  | getTrait inner => TraitObject.typeId (resolve inner)

/-- The type the call downcasts to. -/
def expects : GetCall → RustType
  | get inner => resolve inner
  | getTrait inner => .arc (resolve inner)

/-- The container has an instance for the call, of the type it expects. -/
def Answered (answer : TypeId → Resolution) (call : GetCall) (a : AnyArc) : Prop :=
  answer (call.key resolve) = .ready a ∧ a.ty = call.expects resolve

/-- One look at the container, and a panic for everything but an instance of the type it expects: of
the type itself for `get`, of an `Arc` of it for `get_trait`. -/
theorem run_eq (call : GetCall) : ∃ k, call.run resolve = .resolve (call.key resolve) k ∧
    k .unregistered = .panic ∧ k .panicked = .panic ∧
    (∀ a, a.ty = call.expects resolve → k (.ready a) = .ret a) ∧
    ∀ a, a.ty ≠ call.expects resolve → k (.ready a) = .panic := by
  cases call with
  | get inner =>
    refine ⟨_, rfl, rfl, rfl, fun a ha => ?_, fun a ha => ?_⟩
    · replace ha : a.ty = resolve inner := ha
      obtain ⟨p, -, rfl⟩ := AnyArc.downcast_eq_some ha
      simp only [AnyArc.downcast_mk]
      rfl
    · replace ha : a.ty ≠ resolve inner := ha
      simp only [AnyArc.downcast, dif_neg ha]
      rfl
  | getTrait inner =>
    refine ⟨_, rfl, rfl, rfl, fun a ha => ?_, fun a ha => ?_⟩
    · replace ha : a.ty = .arc (resolve inner) := ha
      obtain ⟨p, -, rfl⟩ := AnyArc.downcast_eq_some ha
      simp only [AnyArc.downcast_mk]
      rfl
    · replace ha : a.ty ≠ .arc (resolve inner) := ha
      simp only [AnyArc.downcast, dif_neg ha]
      rfl

variable {resolve}

theorem resolves_run (call : GetCall) (id : TypeId) :
    (call.run resolve).Resolves id ↔ id = call.key resolve := by
  obtain ⟨k, hrun, hunregistered, hpanicked, hready, hmismatch⟩ := call.run_eq resolve
  rw [hrun]
  constructor
  · rintro (h | ⟨_ | _ | a, h⟩)
    · exact h
    · rw [hunregistered] at h
      exact h.elim
    · rw [hpanicked] at h
      exact h.elim
    · by_cases ha : a.ty = call.expects resolve
      · rw [hready a ha] at h
        exact h.elim
      · rw [hmismatch a ha] at h
        exact h.elim
  · exact .inl

/-- One call looks up one key, and returns what is there if that is as expected. -/
theorem lookups_run (answer : TypeId → Resolution) (call : GetCall) :
    (∃ a, call.Answered resolve answer a ∧
      (call.run resolve).lookups answer = ([call.key resolve], some a)) ∨
    (¬ ∃ a, call.Answered resolve answer a) ∧
      (call.run resolve).lookups answer = ([call.key resolve], none) := by
  obtain ⟨k, hrun, hunregistered, hpanicked, hready, hmismatch⟩ := call.run_eq resolve
  rw [hrun, Prog.lookups]
  unfold Answered
  cases answer (call.key resolve) with
  | unregistered =>
    rw [hunregistered]
    exact .inr ⟨by simp, rfl⟩
  | panicked =>
    rw [hpanicked]
    exact .inr ⟨by simp, rfl⟩
  | ready a =>
    by_cases ha : a.ty = call.expects resolve
    · rw [hready a ha]
      exact .inl ⟨a, ⟨rfl, ha⟩, rfl⟩
    · rw [hmismatch a ha]
      refine .inr ⟨?_, rfl⟩
      rintro ⟨b, hb, hty⟩
      cases hb
      exact ha hty

/-- **The calls are made in order**: the keys looked up are a prefix of theirs, and all of them when
every call returns. -/
theorem lookups_runAll (answer : TypeId → Resolution) (calls : List GetCall) :
    (∃ values, List.Forall₂ (Answered resolve answer) calls values ∧
      (runAll resolve calls).lookups answer = (calls.map (key resolve), some values)) ∨
    (¬ ∃ values, List.Forall₂ (Answered resolve answer) calls values) ∧
      ∃ looked, looked <+: calls.map (key resolve) ∧
        (runAll resolve calls).lookups answer = (looked, none) := by
  induction calls with
  | nil => exact .inl ⟨[], .nil, rfl⟩
  | cons call calls ih =>
    rw [runAll, Prog.lookups_bind]
    rcases lookups_run answer call with ⟨a, ha, hrun⟩ | ⟨hnone, hrun⟩
    · rw [hrun]
      simp only [Prog.lookups_bind]
      rcases ih with ⟨values, hvalues, hrest⟩ | ⟨hnone, looked, hpre, hrest⟩
      · rw [hrest]
        exact .inl ⟨a :: values, .cons ha hvalues, by simp [Prog.lookups, pure]⟩
      · rw [hrest]
        refine .inr ⟨?_, call.key resolve :: looked, ?_, rfl⟩
        · rintro ⟨_, _ | ⟨-, hvalues⟩⟩
          exact hnone ⟨_, hvalues⟩
        · exact (List.cons_prefix_cons).mpr ⟨rfl, hpre⟩
    · rw [hrun]
      refine .inr ⟨?_, [call.key resolve], ?_, rfl⟩
      · rintro ⟨_, _ | ⟨ha, -⟩⟩
        exact hnone ⟨_, ha⟩
      · exact (List.cons_prefix_cons).mpr ⟨rfl, List.nil_prefix⟩

theorem Answered.unique {answer : TypeId → Resolution} {call : GetCall} {a b : AnyArc}
    (ha : call.Answered resolve answer a) (hb : call.Answered resolve answer b) : a = b := by
  have h := ha.1.symm.trans hb.1
  cases h
  rfl

end GetCall

end

/-! ## An expansion, compiled -/

/-- `#struct_name`, as a type -/
def structTy (structName : String) : Ty := .path none false [.mk structName .none]

namespace ServiceExpansion

/-- `Self::new(..)`: the parameters are bound by position, and each field is filled from the
parameter of its name. -/
def new {α : Type} (expansion : ServiceExpansion) (args : List α) : List (String × Option α) :=
  let scope := (expansion.newParams.map (·.1)).zip args
  match expansion.constructorBody with
  | .unit => []
  | .fields inits => inits.map fun init => (init, scope.lookup init)

/-- What the compiler adds: the types that are named, the instance that `Arc::new` holds of the
struct filled in at each point of the history, and the cast to a trait. -/
structure Compiled (expansion : ServiceExpansion) where
  resolve : Ty → RustType
  arcNew : Nat → List (String × Option AnyArc) →
    Arc (resolve (structTy expansion.structDef.ident))
  asTrait : (traitTy : Ty) → Arc (resolve (structTy expansion.structDef.ident)) →
    Arc (resolve traitTy)

namespace Compiled

variable {expansion : ServiceExpansion} (c : expansion.Compiled)

def dependencyIds : List TypeId := expansion.dependencyIds.map (·.eval c.resolve)

def build : Nat → Prog (Arc (c.resolve (structTy expansion.structDef.ident))) := fun now => do
  let args ← GetCall.runAll c.resolve expansion.newCall
  return c.arcNew now (expansion.new args)

/-- What `register` has the container do. -/
def registration : Registration :=
  match expansion.registerCall with
  | .withDeps =>
    .registerWithDeps (c.resolve (structTy expansion.structDef.ident)) c.build
      expansion.structDef.ident c.dependencyIds
  | .traitWithDeps traitTy =>
    .registerTraitWithDeps (c.resolve traitTy)
      (fun now => do
        let instance_ ← c.build now
        return c.asTrait traitTy instance_)
      expansion.structDef.ident c.dependencyIds

end Compiled

/-- A field of type `Arc<inner>`, in a crate that reads types with `resolve`, is for the service. -/
def Provides {expansion : ServiceExpansion} (c : expansion.Compiled) (resolve : Ty → RustType)
    (inner : Ty) : Prop :=
  match expansion.registerCall with
  | .withDeps =>
    isTraitObject inner = false ∧ resolve inner = c.resolve (structTy expansion.structDef.ident)
  | .traitWithDeps traitTy => isTraitObject inner = true ∧ resolve inner = c.resolve traitTy

/-- **The expansion does with the fields what they say.** -/
structure Faithful (structDef : ItemStruct) (traitType : Option Ty)
    (expansion : ServiceExpansion) : Prop where
  -- a field `Arc<dyn Trait>`, and no other, is declared by its `TraitObject` key
  declares : List.Forall₂ (fun field id => ∃ inner, IsArc field.ty inner ∧
      id = if isTraitObject inner then .traitObjectTypeId inner else .typeIdOf inner)
    structDef.namedFields expansion.dependencyIds
  -- call by call, what is looked up is what is declared
  looksUp : ∀ resolve, List.Forall₂
    (fun (id : DependencyId) (call : GetCall) =>
      ∀ looked, (call.run resolve).Resolves looked ↔ looked = id.eval resolve)
    expansion.dependencyIds expansion.newCall
  -- so the whole of `build` looks up the declared keys in order, unless it panics on the way,
  inOrder : ∀ (c : expansion.Compiled) answer now,
    ((c.build now).lookups answer).1 <+: c.dependencyIds ∧
      (((c.build now).lookups answer).2 ≠ none →
        ((c.build now).lookups answer).1 = c.dependencyIds)
  -- which it does not when every call is answered; the answers are what the constructor gets
  builds : ∀ (c : expansion.Compiled) answer now values,
    List.Forall₂ (GetCall.Answered c.resolve answer) expansion.newCall values →
      (c.build now).lookups answer =
        (c.dependencyIds, some (c.arcNew now (expansion.new values)))
  takes : expansion.newParams = structDef.namedFields.map fun field => (field.ident, field.ty)
  -- fields of one struct have distinct names
  stores : (structDef.namedFields.map (·.ident)).Nodup →
    ∀ {α : Type} (values : List α), values.length = structDef.namedFields.length →
      expansion.new values = (structDef.namedFields.map (·.ident)).zip (values.map some)
  registers : expansion.structDef.ident = structDef.ident ∧
    (expansion.registerCall = match traitType with
      | none => .withDeps
      | some traitTy => .traitWithDeps traitTy) ∧
    ∀ c : expansion.Compiled, c.registration.deps = c.dependencyIds
  -- a field of any other service that is for this one looks up the key this one is under
  provides : ∀ (c : expansion.Compiled) clientDef clientTrait client,
    serviceStruct clientDef clientTrait = .ok client → ∀ resolve, List.Forall₂
      (fun (field : NamedField) (call : GetCall) => ∀ inner, IsArc field.ty inner →
        Provides c resolve inner →
          ∀ looked, (call.run resolve).Resolves looked ↔ looked = c.registration.key)
      clientDef.namedFields client.newCall

theorem key_ofInner (resolve : Ty → RustType) (inner : Ty) :
    (GetCall.ofInner inner).key resolve = (DependencyId.ofInner inner).eval resolve := by
  unfold GetCall.ofInner DependencyId.ofInner
  split <;> rfl

theorem keys_ofInner (resolve : Ty → RustType) (types : List Ty) :
    (types.map GetCall.ofInner).map (GetCall.key resolve) =
      (types.map DependencyId.ofInner).map (·.eval resolve) := by
  rw [List.map_map, List.map_map]
  exact List.map_congr_left fun inner _ => key_ofInner resolve inner

theorem map_lookup_zip {α : Type} {names : List String} {values : List α} (hnodup : names.Nodup)
    (hlength : values.length = names.length) :
    names.map (fun name => (name, (names.zip values).lookup name)) =
      names.zip (values.map some) := by
  induction names generalizing values with
  | nil => rfl
  | cons name names ih =>
    cases values with
    | nil => cases hlength
    | cons value values =>
      obtain ⟨hname, hnodup⟩ := List.nodup_cons.mp hnodup
      rw [List.map_cons, List.map_cons, List.zip_cons_cons, List.zip_cons_cons,
        List.lookup_cons_self, ← ih hnodup (Nat.succ.inj hlength)]
      -- no later field is called `name`
      refine congrArg _ (List.map_congr_left fun other hother => ?_)
      have hne : (other == name) = false := beq_false_of_ne fun h => hname (h ▸ hother)
      rw [List.lookup_cons, hne]

/-- Each argument ends up in the field its parameter is named after. -/
theorem new_eq_zip {expansion : ServiceExpansion} {fields : List NamedField}
    (hparams : expansion.newParams = fields.map fun field => (field.ident, field.ty))
    (hbody : expansion.constructorBody =
      if fields.isEmpty then .unit else .fields (fields.map (·.ident)))
    (hnodup : (fields.map (·.ident)).Nodup) {α : Type} {values : List α}
    (hlength : values.length = fields.length) :
    expansion.new values = (fields.map (·.ident)).zip (values.map some) := by
  have hnames : (fields.map fun field => (field.ident, field.ty)).map (·.1) =
      fields.map (·.ident) := List.map_map
  cases fields with
  | nil => simp [new, hbody]
  | cons field fields =>
    rw [new, hparams, hbody, hnames]
    exact map_lookup_zip hnodup (by rw [hlength, List.length_map])

namespace Compiled

variable {expansion : ServiceExpansion} (c : expansion.Compiled)

theorem deps_registration : c.registration.deps = c.dependencyIds := by
  unfold registration
  split <;> rfl

theorem key_registration {resolve : Ty → RustType} {inner : Ty} (h : Provides c resolve inner) :
    c.registration.key = (GetCall.ofInner inner).key resolve := by
  unfold Provides at h
  unfold registration GetCall.ofInner
  cases hcall : expansion.registerCall with
  | withDeps =>
    rw [hcall] at h
    rw [h.1]
    exact h.2.symm
  | traitWithDeps traitTy =>
    rw [hcall] at h
    rw [h.1]
    exact congrArg RustType.traitObject h.2.symm

theorem lookups_build (answer : TypeId → Resolution) (now : Nat) :
    (∃ values, List.Forall₂ (GetCall.Answered c.resolve answer) expansion.newCall values ∧
      (c.build now).lookups answer = (expansion.newCall.map (GetCall.key c.resolve),
        some (c.arcNew now (expansion.new values)))) ∨
    (¬ ∃ values, List.Forall₂ (GetCall.Answered c.resolve answer) expansion.newCall values) ∧
      ∃ looked, looked <+: expansion.newCall.map (GetCall.key c.resolve) ∧
        (c.build now).lookups answer = (looked, none) := by
  rw [build, Prog.lookups_bind]
  rcases GetCall.lookups_runAll answer expansion.newCall with
    ⟨values, hvalues, hrun⟩ | ⟨hnone, looked, hpre, hrun⟩
  · rw [hrun]
    exact .inl ⟨values, hvalues, by simp [Prog.lookups, pure]⟩
  · rw [hrun]
    exact .inr ⟨hnone, looked, hpre, rfl⟩

variable (hkeys : expansion.newCall.map (GetCall.key c.resolve) = c.dependencyIds)

include hkeys in
theorem lookups_prefix (answer : TypeId → Resolution) (now : Nat) :
    ((c.build now).lookups answer).1 <+: c.dependencyIds ∧
      (((c.build now).lookups answer).2 ≠ none →
        ((c.build now).lookups answer).1 = c.dependencyIds) := by
  rw [← hkeys]
  rcases c.lookups_build answer now with ⟨values, -, hrun⟩ | ⟨-, looked, hpre, hrun⟩
  · rw [hrun]
    exact ⟨List.prefix_refl _, fun _ => rfl⟩
  · rw [hrun]
    exact ⟨hpre, fun h => absurd rfl h⟩

include hkeys in
theorem lookups_of_answered {answer : TypeId → Resolution} {values : List AnyArc} (now : Nat)
    (hvalues : List.Forall₂ (GetCall.Answered c.resolve answer) expansion.newCall values) :
    (c.build now).lookups answer =
      (c.dependencyIds, some (c.arcNew now (expansion.new values))) := by
  rw [← hkeys]
  rcases c.lookups_build answer now with ⟨values', hvalues', hrun⟩ | ⟨hnone, -⟩
  · have hunique : Relator.RightUnique (GetCall.Answered c.resolve answer) :=
      fun _ _ _ => GetCall.Answered.unique
    rw [hrun, hunique.forall₂ hvalues hvalues']
  · exact absurd ⟨values, hvalues⟩ hnone

end Compiled

end ServiceExpansion

theorem IsArc.unique {ty inner inner' : Ty} (h : IsArc ty inner) (h' : IsArc ty inner') :
    inner = inner' := by
  have hsome := extractArcInner_eq_some.mpr h
  rw [extractArcInner_eq_some.mpr h'] at hsome
  exact (Option.some.inj hsome).symm

open ServiceExpansion in
/-- **`#[service]` generates what the fields ask for**, of every struct but those it rejects. -/
theorem serviceStruct_faithful (structDef : ItemStruct) (traitType : Option Ty) :
    (∀ expansion, serviceStruct structDef traitType = .ok expansion →
      expansion.Faithful structDef traitType) ∧
    ((∃ message, serviceStruct structDef traitType = .error message) ↔
      structDef.IsTuple ∨
        ∃ field ∈ structDef.namedFields, ¬ ∃ inner, IsArc field.ty inner) := by
  refine ⟨fun expansion hok => ?_, serviceStruct_error_iff structDef traitType⟩
  obtain ⟨types, htypes, rfl⟩ := serviceStruct_ok hok
  have harcs := inners_eq_some.mp htypes
  constructor
  case declares =>
    exact List.forall₂_map_right_iff.mpr (harcs.imp fun field inner harc => ⟨inner, harc, rfl⟩)
  case looksUp =>
    intro resolve
    refine List.forall₂_map_left_iff.mpr (List.forall₂_map_right_iff.mpr
      (List.forall₂_same.mpr fun inner _ looked => ?_))
    rw [GetCall.resolves_run, key_ofInner]
  case inOrder =>
    intro c answer now
    exact c.lookups_prefix (keys_ofInner c.resolve types) answer now
  case builds =>
    intro c answer now values hvalues
    exact c.lookups_of_answered (keys_ofInner c.resolve types) now hvalues
  case takes => rfl
  case stores =>
    intro hnodup α values hlength
    exact new_eq_zip rfl rfl hnodup hlength
  case registers =>
    exact ⟨rfl, by cases traitType <;> rfl, fun c => c.deps_registration⟩
  case provides =>
    intro c clientDef clientTrait client hclient resolve
    obtain ⟨clientTypes, hclientTypes, rfl⟩ := serviceStruct_ok hclient
    refine List.forall₂_map_right_iff.mpr ((inners_eq_some.mp hclientTypes).imp ?_)
    intro field inner' harc' inner harc hprovides looked
    rw [GetCall.resolves_run, c.key_registration hprovides, harc'.unique harc]

/-- `struct Dashboard { greeter: Arc<dyn Greeter>, counter: std::sync::Arc<Counter> }` -/
def dashboard : ItemStruct :=
  let arc (front : List PathSegment) (inner : Ty) : Ty :=
    .path none false (front ++ [.mk "Arc" (.angleBracketed [.type inner])])
  { attrs := [], vis := [], ident := "Dashboard", generics := ⟨[], []⟩
    fields := .named
      [ ⟨[], [], "greeter", arc [] (.traitObject true [.ident "Greeter"])⟩,
        ⟨[], [], "counter", arc [.mk "std" .none, .mk "sync" .none] (structTy "Counter")⟩ ] }

example : ((serviceStruct dashboard none).toOption.map fun expansion =>
      (expansion.dependencyIds, expansion.newCall, expansion.new [1, 2])) =
    some ([.traitObjectTypeId (.traitObject true [.ident "Greeter"]),
        .typeIdOf (structTy "Counter")],
      [.getTrait (.traitObject true [.ident "Greeter"]), .get (structTy "Counter")],
      [("greeter", some 1), ("counter", some 2)]) := rfl

/-! ## Back to the container -/

theorem exists_deps (resolve : Ty → RustType) (types : List Ty)
    (hclone : ∀ inner ∈ types, isTraitObject inner = false →
      ∀ u, resolve inner ≠ .traitObject u) :
    ∃ deps : List Dep,
      deps.map Dep.key = types.map (fun inner => (DependencyId.ofInner inner).eval resolve) ∧
      Dep.getAll deps = GetCall.runAll resolve (types.map .ofInner) := by
  induction types with
  | nil => exact ⟨[], rfl, rfl⟩
  | cons inner types ih =>
    obtain ⟨deps, hkeys, hcalls⟩ := ih fun inner' h => hclone inner' (List.mem_cons_of_mem _ h)
    cases hdyn : isTraitObject inner with
    | true =>
      refine ⟨.dynTrait (resolve inner) :: deps, ?_, ?_⟩
      · rw [List.map_cons, List.map_cons, hkeys, DependencyId.ofInner, if_pos hdyn]
        rfl
      · rw [Dep.getAll, hcalls, List.map_cons, GetCall.ofInner, if_pos hdyn]
        rfl
    | false =>
      refine ⟨.concrete (resolve inner) (hclone inner List.mem_cons_self hdyn) :: deps, ?_, ?_⟩
      · rw [List.map_cons, List.map_cons, hkeys, DependencyId.ofInner, if_neg (by simp [hdyn])]
        rfl
      · rw [Dep.getAll, hcalls, List.map_cons, GetCall.ofInner, if_neg (by simp [hdyn])]
        rfl

open ServiceExpansion Compiled in
/-- **The registration is one `Di/Service.lean` speaks of**, if what the fields want by `get` can be
cloned. For a trait, the instance is wrapped once more before it is stored. -/
theorem ServiceExpansion.Compiled.generated {structDef : ItemStruct} {traitType : Option Ty}
    {expansion : ServiceExpansion} (hok : serviceStruct structDef traitType = .ok expansion)
    (c : expansion.Compiled)
    (hclone : ∀ inner, .typeIdOf inner ∈ expansion.dependencyIds →
      ∀ u, c.resolve inner ≠ .traitObject u) :
    ∃ deps make, c.registration.deps = deps.map Dep.key ∧
      c.registration.wrappedFactory = Di.generated deps false make := by
  obtain ⟨types, -, hexpansion⟩ := serviceStruct_ok hok
  have hids : expansion.dependencyIds = types.map .ofInner := by rw [hexpansion]
  have hnew : expansion.newCall = types.map .ofInner := by rw [hexpansion]
  obtain ⟨deps, hkeys, hcalls⟩ := exists_deps c.resolve types fun inner hinner hdyn =>
    hclone inner <| hids ▸ List.mem_map.mpr ⟨inner, hinner, by
      rw [DependencyId.ofInner, if_neg (by simp [hdyn])]⟩
  have hdeps : c.registration.deps = deps.map Dep.key := by
    rw [c.deps_registration, Compiled.dependencyIds, hids, List.map_map, hkeys]
    rfl
  rw [← hnew] at hcalls
  unfold registration at hdeps ⊢
  cases hregister : expansion.registerCall with
  | withDeps =>
    rw [hregister] at hdeps
    refine ⟨deps, fun now args => ⟨_, c.arcNew now (expansion.new args)⟩, hdeps, ?_⟩
    funext now
    rw [Di.generated, hcalls]
    exact Prog.bind_assoc _ _ _
  | traitWithDeps traitTy =>
    rw [hregister] at hdeps
    refine ⟨deps, fun now args =>
      ⟨_, Arc.new (c.asTrait traitTy (c.arcNew now (expansion.new args)))⟩, hdeps, ?_⟩
    funext now
    rw [Di.generated, hcalls]
    exact (congrArg (· >>= _) (Prog.bind_assoc _ _ _)).trans (Prog.bind_assoc _ _ _)

/-- A service that made it through `rustc`. -/
structure Submission where
  structDef : ItemStruct
  traitType : Option Ty
  expansion : ServiceExpansion
  accepted : serviceStruct structDef traitType = .ok expansion
  compiled : expansion.Compiled
  -- `get` wants a `T: Clone`, and `TraitObject` is not
  clone : ∀ inner, .typeIdOf inner ∈ expansion.dependencyIds →
    ∀ u, compiled.resolve inner ≠ .traitObject u

def Submission.registerAll (container : Container) (submissions : List Submission) : Container :=
  submissions.foldl (fun container s => container.apply s.compiled.registration) container

theorem Submission.generated_registerAll (submissions : List Submission) {container : Container}
    (h : container.Generated fun _ => false) :
    (registerAll container submissions).Generated fun _ => false := by
  induction submissions generalizing container with
  | nil => exact h
  | cons s submissions ih =>
    obtain ⟨deps, make, hdeps, hfactory⟩ := s.compiled.generated s.accepted s.clone
    exact ih (h.apply s.compiled.registration deps make hdeps hfactory)

end Macros
end StanoPlatform
