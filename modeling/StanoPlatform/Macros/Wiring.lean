import StanoPlatform.Di.Wiring
import StanoPlatform.Macros.Injection

/-!
# `Macros/Wiring.lean` — an application of annotated structs

`build_context` hands in what it has made itself and lets `register_all` add the services of every
crate. Nothing of what becomes of them is written anywhere but in the fields of the structs: whether
the application starts (`starts_iff`), and what every instance is then made of (`instances_wired`),
can be read off the fields, whichever crate comes first, however the maps iterate and whoever asks
first.

From `build_context`, `register_all` and `#[service]`. What is submitted is any list of expanded
structs (`Submission`), each with what rustc makes of it; the order is the linker's.
-/

set_option autoImplicit false

namespace StanoPlatform
namespace Macros

open Di Lib

/-! ## What a factory returns -/

namespace ServiceExpansion.Compiled

variable {expansion : ServiceExpansion} (c : expansion.Compiled)

/-- What the container stores for the instance `p`. -/
def stored (p : Arc (c.resolve (structTy expansion.structDef.ident))) : AnyArc :=
  match expansion.registerCall with
  | .withDeps => ⟨_, p⟩
  | .traitWithDeps traitTy => ⟨.arc (c.resolve traitTy), Arc.new (c.asTrait traitTy p)⟩

theorem wrappedFactory_eq (now : Nat) :
    c.registration.wrappedFactory now = c.build now >>= fun p => .ret (c.stored p) := by
  unfold registration stored
  cases expansion.registerCall with
  | withDeps => rfl
  | traitWithDeps traitTy => exact Prog.bind_assoc _ _ _

theorem slot_registration : c.registration.slot = .empty := by
  unfold registration
  split <;> rfl

/-- Where it returns, every call has been answered. -/
theorem answered_of_lookups {answer : TypeId → Resolution} {now : Nat} {a : AnyArc}
    (h : ((c.registration.wrappedFactory now).lookups answer).2 = some a) :
    ∃ values, List.Forall₂ (GetCall.Answered c.resolve answer) expansion.newCall values ∧
      a = c.stored (c.arcNew now (expansion.new values)) := by
  rw [c.wrappedFactory_eq, Prog.lookups_bind] at h
  rcases c.lookups_build answer now with ⟨values, hvalues, hrun⟩ | ⟨-, looked, -, hrun⟩
  · rw [hrun] at h
    cases h
    exact ⟨values, hvalues, rfl⟩
  · rw [hrun] at h
    cases h

end ServiceExpansion.Compiled

namespace Submission

def key (s : Submission) : TypeId := s.compiled.registration.key

/-- The key of a field of type `Arc<inner>`. -/
def fieldKey (s : Submission) (inner : Ty) : TypeId :=
  (DependencyId.ofInner inner).eval s.compiled.resolve

def fieldNames (s : Submission) : List String := s.structDef.namedFields.map (·.ident)

/-- The slot of the type of the field, an `Arc<inner>`, holds `v`. -/
def Fills (s : Submission) (w : World) (field : NamedField) (v : AnyArc) : Prop :=
  ∃ inner, IsArc field.ty inner ∧ w.slot (s.fieldKey inner) = some (.full v)

/-- **The instance is a service built of what is there**, field by field. -/
def MadeOf (s : Submission) (w : World) (a : AnyArc) : Prop :=
  ∃ now values, List.Forall₂ (s.Fills w) s.structDef.namedFields values ∧
    a = s.compiled.stored (s.compiled.arcNew now (s.fieldNames.zip (values.map some)))

/-- The answers to the calls are what the slots of the fields hold. -/
theorem fills_of_answered {s : Submission} {w : World} {fields : List NamedField} {types : List Ty}
    (harcs : List.Forall₂ (fun field inner => IsArc field.ty inner) fields types) :
    ∀ {values : List AnyArc}, List.Forall₂ (GetCall.Answered s.compiled.resolve w.answer)
      (types.map .ofInner) values → List.Forall₂ (s.Fills w) fields values := by
  induction harcs with
  | nil =>
    intro values hvalues
    cases hvalues
    exact .nil
  | cons harc _ ih =>
    intro values hvalues
    cases hvalues with
    | cons hanswered hvalues =>
      refine .cons ⟨_, harc, ?_⟩ (ih hvalues)
      rw [fieldKey, ← ServiceExpansion.key_ofInner]
      exact World.answer_eq_ready.mp hanswered.1

theorem madeOf_of_left {s : Submission} (hnodup : s.fieldNames.Nodup) {w : World} {now : Nat}
    {a : AnyArc} (h : (s.compiled.registration.wrappedFactory now).Left w (.ret a)) :
    s.MadeOf w a := by
  obtain ⟨values, hvalues, rfl⟩ := s.compiled.answered_of_lookups h.lookups
  obtain ⟨types, htypes, hexpansion⟩ := serviceStruct_ok s.accepted
  have hnew : s.expansion.newCall = types.map .ofInner := by rw [hexpansion]
  rw [hnew] at hvalues
  have hfields := fills_of_answered (inners_eq_some.mp htypes) hvalues
  refine ⟨now, values, hfields, ?_⟩
  rw [ServiceExpansion.new_eq_zip (by rw [hexpansion]) (by rw [hexpansion]) hnodup
    hfields.length_eq.symm]
  rfl

/-! ## The application context -/

/-- `register_instance`. -/
def handed (a : AnyArc) : Registration := .registerInstance a.ty a.ptr

/-- `build_context`: what it hands in, and then `register_all`. -/
def context (instances : List AnyArc) (submissions : List Submission) : Container :=
  registerAll ((instances.map handed).foldl Container.apply .new) submissions

def setups (instances : List AnyArc) (submissions : List Submission) : List Setup :=
  (instances.map handed ++ submissions.map (·.compiled.registration)).map .registration

section

variable (instances : List AnyArc) (submissions : List Submission)

theorem flatMap_setups : (setups instances submissions).flatMap Setup.registrations =
    instances.map handed ++ submissions.map (·.compiled.registration) := by
  rw [setups, List.flatMap_map]
  exact List.flatMap_singleton' _

theorem context_eq : context instances submissions = .built (setups instances submissions) := by
  rw [Container.built_eq, flatMap_setups, List.foldl_append, context, registerAll]
  exact List.foldl_map.symm

theorem wf_context : (context instances submissions).Wf := by
  rw [context_eq]
  exact Container.wf_built _

theorem idle_context : (World.start (context instances submissions)).Idle := by
  rw [context_eq]
  exact World.idle_built _

theorem generated_context : (context instances submissions).Generated fun _ => false := by
  refine generated_registerAll submissions ?_
  have hhanded : ∀ c : Container, (c.Generated fun _ => false) →
      ((instances.map handed).foldl Container.apply c).Generated fun _ => false := by
    induction instances with
    | nil => exact fun c hc => hc
    | cons a instances ih =>
      intro c hc
      exact ih _ (hc.apply (handed a) [] (fun _ _ => a) rfl rfl)
  exact hhanded .new (Container.generated_new _)

end

variable {instances : List AnyArc} {submissions : List Submission}

theorem of_lastRegistration {id : TypeId} {r : Registration}
    (h : lastRegistration (setups instances submissions) id = some r) : r.key = id ∧
      ((∃ a ∈ instances, r = handed a) ∨ ∃ s ∈ submissions, r = s.compiled.registration) := by
  rw [lastRegistration, flatMap_setups] at h
  refine ⟨by simpa using List.find?_some h, ?_⟩
  rcases List.mem_append.mp (List.mem_reverse.mp (List.mem_of_find?_eq_some h)) with hr | hr
  · obtain ⟨a, ha, rfl⟩ := List.mem_map.mp hr
    exact .inl ⟨a, ha, rfl⟩
  · obtain ⟨s, hs, rfl⟩ := List.mem_map.mp hr
    exact .inr ⟨s, hs, rfl⟩

/-- Fields of one struct have distinct names. -/
def FieldsDistinct (submissions : List Submission) : Prop :=
  ∀ s ∈ submissions, s.fieldNames.Nodup

/-- An instance is what the last registration of its key makes it. A slot is full from the start, or
filled by the factory that was there at the start. -/
theorem of_wired (hfields : FieldsDistinct submissions) {w : World}
    (hw : World.Wired (World.start (context instances submissions)) w) {id : TypeId} {a : AnyArc}
    (hs : w.slot id = some (.full a)) :
    ∃ r, lastRegistration (setups instances submissions) id = some r ∧ r.key = id ∧
      ((a ∈ instances ∧ r = handed a) ∨
        ∃ s ∈ submissions, r = s.compiled.registration ∧ s.MadeOf w a) := by
  rcases hw id a hs with hs | ⟨f, now, hf, hleft⟩
  · have hs : (context instances submissions).singletons.get id = some (.full a) := hs
    rw [context_eq, Container.built_slot, Option.map_eq_some_iff] at hs
    obtain ⟨r, hr, hslot⟩ := hs
    obtain ⟨hkey, ⟨b, hb, rfl⟩ | ⟨s, -, rfl⟩⟩ := of_lastRegistration hr
    · cases hslot
      exact ⟨_, hr, hkey, .inl ⟨hb, rfl⟩⟩
    · rw [s.compiled.slot_registration] at hslot
      cases hslot
  · have hf : (context instances submissions).factories.get id = some f := hf
    rw [context_eq, Container.built_factory, Option.map_eq_some_iff] at hf
    obtain ⟨r, hr, rfl⟩ := hf
    obtain ⟨hkey, ⟨b, hb, rfl⟩ | ⟨s, hs', rfl⟩⟩ := of_lastRegistration hr
    · -- the factory that `register_instance` leaves hands out the instance
      have hreturns := hleft.lookups
      cases hreturns
      exact ⟨_, hr, hkey, .inl ⟨hb, rfl⟩⟩
    · exact ⟨_, hr, hkey, .inr ⟨s, hs', rfl, madeOf_of_left (hfields s hs') hleft⟩⟩

/-- **Every instance is made of what its fields name.** Whatever threads look up whatever, in
whatever order: an instance in a slot was handed in for its type, or is one of the services under
their key, and each of its fields holds the instance that everybody else is given for its type. -/
theorem instances_wired {ι : Type} [DecidableEq ι] (hfields : FieldsDistinct submissions)
    (programs : ι → Prog Unit) {m : Machine ι}
    (hm : Machine.Steps (.start (context instances submissions) programs) m) {id : TypeId}
    {a : AnyArc} (hs : m.world.slot id = some (.full a)) :
    (a ∈ instances ∧ TypeId.of a.ty = id) ∨
      ∃ s ∈ submissions, s.key = id ∧ s.MadeOf m.world a := by
  have hstrict := (generated_context instances submissions).strict
  have hwired := Machine.wired (idle_context instances submissions) hstrict programs hm
  obtain ⟨r, -, rfl, ⟨ha, rfl⟩ | ⟨s, hmem, rfl, hmade⟩⟩ := of_wired hfields hwired.1 hs
  · exact .inl ⟨ha, rfl⟩
  · exact .inr ⟨s, hmem, rfl, hmade⟩

/-! A `Dashboard` that is given its `Counter`, and a greeter for it. -/

/-- A type by the last name in it. -/
def pathOf : Ty → String
  | .path _ _ segments => match segments.getLast? with
    | some (.mk ident _) => ident
    | none => ""
  | .traitObject _ (.ident name :: _) => "dyn " ++ name
  | .traitObject _ _ | .other _ => ""

def compiledBy (expansion : ServiceExpansion) : expansion.Compiled :=
  { resolve := fun ty => .named (pathOf ty), arcNew := fun now _ => now, asTrait := fun _ p => p }

/-- An `Arc<Counter>` -/
def counter : AnyArc := ⟨.named "Counter", Arc.at "Counter" 7⟩

def dashboardService : Submission :=
  { structDef := dashboard
    traitType := none
    expansion :=
      { structDef := dashboard
        newParams := dashboard.namedFields.map fun field => (field.ident, field.ty)
        constructorBody := .fields ["greeter", "counter"]
        dependencyIds := [.traitObjectTypeId (.traitObject true [.ident "Greeter"]),
          .typeIdOf (structTy "Counter")]
        newCall := [.getTrait (.traitObject true [.ident "Greeter"]), .get (structTy "Counter")]
        registerCall := .withDeps }
    accepted := rfl
    compiled := compiledBy _
    clone := fun _ _ _ => nofun }

def greeterService : Submission :=
  { structDef :=
      { attrs := [], vis := [], ident := "EnglishGreeter", generics := ⟨[], []⟩, fields := .unit }
    traitType := some (.traitObject true [.ident "Greeter"])
    expansion :=
      { structDef :=
          { attrs := [], vis := [], ident := "EnglishGreeter", generics := ⟨[], []⟩
            fields := .unit }
        newParams := []
        constructorBody := .unit
        dependencyIds := []
        newCall := []
        registerCall := .traitWithDeps (.traitObject true [.ident "Greeter"]) }
    accepted := rfl
    compiled := compiledBy _
    clone := fun _ _ => nofun }

def office : List Submission := [dashboardService, greeterService]

theorem fieldsDistinct_office : FieldsDistinct office := by
  intro s hs
  rcases List.mem_cons.mp hs with rfl | hs
  · decide
  · cases List.mem_singleton.mp hs
    decide

/-- Somebody has asked for the dashboard. -/
theorem instances_wired_office : ∃ w, (World.start (context [counter] office)).run
      (Container.get (.named "Dashboard")).caught = (w, .ok (.returned ())) ∧
    ∃ a, w.slot (.named "Dashboard") = some (.full a) ∧ dashboardService.MadeOf w a := by
  obtain ⟨w, hrun⟩ : ∃ w, (World.start (context [counter] office)).run
      (Container.get (.named "Dashboard")).caught = (w, .ok (.returned ())) := ⟨_, rfl⟩
  obtain ⟨a, ha⟩ : ∃ a, w.slot (.named "Dashboard") = some (.full a) := by
    cases hrun
    exact ⟨_, rfl⟩
  have hsteps := Machine.run_steps hrun (fun _ : Unit => .client _) () rfl
  refine ⟨w, hrun, a, ha, ?_⟩
  rcases instances_wired fieldsDistinct_office _ hsteps ha with
    ⟨hcounter, hkey⟩ | ⟨s, hs, hkey, hmade⟩
  · rw [List.mem_singleton.mp hcounter] at hkey
    exact absurd hkey (by decide)
  · rcases List.mem_cons.mp hs with rfl | hs
    · exact hmade
    · cases List.mem_singleton.mp hs
      cases hkey

/-! ## Starting -/

/-- The service under `a` has a field for what is under `b`. -/
def Needs (submissions : List Submission) (a b : TypeId) : Prop :=
  ∃ s ∈ submissions, s.key = a ∧ b ∈ s.compiled.dependencyIds

def Provided (instances : List AnyArc) (submissions : List Submission) (id : TypeId) : Prop :=
  (∃ a ∈ instances, TypeId.of a.ty = id) ∨ ∃ s ∈ submissions, s.key = id

theorem mem_context {id : TypeId} :
    id ∈ (context instances submissions).factories ↔ Provided instances submissions id := by
  rw [context_eq, Container.mem_built, flatMap_setups, Provided]
  constructor
  · rintro ⟨r, hr, hkey⟩
    rcases List.mem_append.mp hr with hr | hr
    · obtain ⟨a, ha, rfl⟩ := List.mem_map.mp hr
      exact .inl ⟨a, ha, hkey⟩
    · obtain ⟨s, hs, rfl⟩ := List.mem_map.mp hr
      exact .inr ⟨s, hs, hkey⟩
  · rintro (⟨a, ha, hkey⟩ | ⟨s, hs, hkey⟩)
    · exact ⟨handed a, List.mem_append_left _ (List.mem_map_of_mem ha), hkey⟩
    · exact ⟨_, List.mem_append_right _ (List.mem_map_of_mem hs), hkey⟩

/-- Where no two services share a key, each of them is what was last registered under its own. -/
theorem lastRegistration_key (hkeys : (submissions.map key).Nodup) {s : Submission}
    (hs : s ∈ submissions) :
    lastRegistration (setups instances submissions) s.key = some s.compiled.registration := by
  rw [lastRegistration, flatMap_setups, List.reverse_append, List.find?_append]
  cases hfind : (submissions.map (·.compiled.registration)).reverse.find? (·.key = s.key) with
  | none =>
    have hnone := List.find?_eq_none.mp hfind s.compiled.registration
      (List.mem_reverse.mpr (List.mem_map_of_mem hs))
    exact absurd (decide_eq_true rfl) hnone
  | some r =>
    obtain ⟨s', hs', rfl⟩ := List.mem_map.mp
      (List.mem_reverse.mp (List.mem_of_find?_eq_some hfind))
    have hkey := List.find?_some hfind
    rw [decide_eq_true_eq] at hkey
    rw [List.inj_on_of_nodup_map hkeys hs' hs hkey]
    rfl

/-- An instance that is handed in declares nothing. -/
theorem declares_context (hkeys : (submissions.map key).Nodup) {a b : TypeId} :
    (context instances submissions).Declares a b ↔ Needs submissions a b := by
  have hdeps : (context instances submissions).dependencies.get a =
      (lastRegistration (setups instances submissions) a).map Registration.deps := by
    rw [context_eq, Container.built_eq, Container.foldl_apply_eq, HashMap.get_insertAll,
      Container.new, HashMap.get_empty, Option.or_none]
    rfl
  show b ∈ depsOf _ a ↔ _
  rw [depsOf, hdeps]
  constructor
  · intro h
    cases hr : lastRegistration (setups instances submissions) a with
    | none =>
      rw [hr] at h
      cases h
    | some r =>
      rw [hr] at h
      obtain ⟨hkey, ⟨_, -, rfl⟩ | ⟨s, hs, rfl⟩⟩ := of_lastRegistration hr
      · cases h
      · exact ⟨s, hs, hkey, s.compiled.deps_registration ▸ h⟩
  · rintro ⟨s, hs, rfl, hb⟩
    rw [lastRegistration_key hkeys hs, Option.map_some, s.compiled.deps_registration]
    exact hb

/-- Constructors that are made of moves do not panic: what cannot be resolved lacks something. -/
theorem resolvable_iff (hkeys : (submissions.map key).Nodup) :
    (∀ id, ¬ Container.Unresolvable (context instances submissions) (fun _ => false) id) ↔
      ∀ a b, Needs submissions a b → Provided instances submissions b := by
  constructor
  · intro h a b hab
    by_contra hb
    obtain ⟨s, hs, rfl, -⟩ := id hab
    refine h s.key (.unregistered ?_ ((declares_context hkeys).mpr hab) (mt mem_context.mp hb))
    rw [context_eq, Container.built_slot, lastRegistration_key hkeys hs]
    exact congrArg some s.compiled.slot_registration
  · intro h id hu
    induction hu with
    | panics _ h => cases h
    | unregistered _ hdep hmem =>
      exact hmem (mem_context.mpr (h _ _ ((declares_context hkeys).mp hdep)))
    | dependency _ _ _ ih => exact ih

/-- After a `validate` that passed, every service is there. -/
theorem made_of_validate (hfields : FieldsDistinct submissions)
    (hkeys : (submissions.map key).Nodup) {roots : List TypeId}
    (slots : HashMap.Order (context instances submissions).singletons) {w : World}
    (hrun : (World.start (context instances submissions)).run
      ((context instances submissions).validate roots slots.1) = (w, .ok (.returned (.ok ()))))
    {s : Submission} (hs : s ∈ submissions) :
    ∃ a, w.slot s.key = some (.full a) ∧ s.MadeOf w a := by
  have hstrict := (generated_context instances submissions).strict
  obtain ⟨hwarm, hticks⟩ := World.warm_of_validate
    (w := World.start (context instances submissions)) (wf_context instances submissions) slots hrun
  have hmem : s.key ∈ w.container.factories := by
    rw [hticks.rest.1]
    exact mem_context.mpr (.inr ⟨s, hs, rfl⟩)
  obtain ⟨a, ha⟩ := hwarm s.key hmem
  obtain ⟨r, hr, -, hmade⟩ := of_wired hfields
    (World.run_wired (idle_context instances submissions) hstrict hrun) ha
  rw [lastRegistration_key hkeys hs] at hr
  cases hr
  refine ⟨a, ha, ?_⟩
  rcases hmade with ⟨-, hhanded⟩ | ⟨s', hs', hregistration, hmade⟩
  · -- a service is not registered with its instance
    have hslot := s.compiled.slot_registration
    rw [hhanded] at hslot
    cases hslot
  · rwa [List.inj_on_of_nodup_map hkeys hs hs' (congrArg Registration.key hregistration)]

theorem validate_context (hkeys : (submissions.map key).Nodup)
    (roots : HashMap.Order (context instances submissions).factories)
    (slots : HashMap.Order (context instances submissions).singletons) :
    ∃ w result, (World.start (context instances submissions)).run
        ((context instances submissions).validate roots.1 slots.1) = (w, .ok (.returned result)) ∧
      (result = .ok () ↔ Acyclic (Needs submissions) ∧
        ∀ a b, Needs submissions a b → Provided instances submissions b) := by
  obtain ⟨w, result, hrun, hverdict⟩ :=
    validate_verdict (w := World.start (context instances submissions))
      (wf_context instances submissions) (idle_context instances submissions)
      (generated_context instances submissions) roots slots
  have hneeds : (context instances submissions).Declares = Needs submissions := by
    funext a b
    exact propext (declares_context hkeys)
  refine ⟨w, result, hrun, ?_⟩
  rw [hverdict, ← resolvable_iff hkeys, ← hneeds]
  rfl

/-- **Whether the application starts can be read off the fields.** If no two services share a key,
`validate` passes if and only if every field is provided for and they need each other in no circle,
in whatever order the services were registered and the maps iterate; and then every service is
there, made of what its fields name. -/
theorem starts_iff (hfields : FieldsDistinct submissions) (hkeys : (submissions.map key).Nodup)
    (roots : HashMap.Order (context instances submissions).factories)
    (slots : HashMap.Order (context instances submissions).singletons) :
    ∃ w result, (World.start (context instances submissions)).run
        ((context instances submissions).validate roots.1 slots.1) = (w, .ok (.returned result)) ∧
      (result = .ok () ↔ Acyclic (Needs submissions) ∧
        ∀ a b, Needs submissions a b → Provided instances submissions b) ∧
      (result = .ok () → ∀ s ∈ submissions, ∃ a, w.slot s.key = some (.full a) ∧ s.MadeOf w a) := by
  obtain ⟨w, result, hrun, hverdict⟩ := validate_context hkeys roots slots
  refine ⟨w, result, hrun, hverdict, ?_⟩
  rintro rfl s hs
  exact made_of_validate hfields hkeys slots hrun hs

theorem starts_iff_office : ∃ w roots slots,
    (World.start (context [counter] office)).run
      ((context [counter] office).validate roots slots) = (w, .ok (.returned (.ok ()))) ∧
    ∃ a, w.slot (.named "Dashboard") = some (.full a) ∧ dashboardService.MadeOf w a := by
  have roots : HashMap.Order (context [counter] office).factories := by
    rw [context_eq]
    exact Container.registrationOrder _
  have slots : HashMap.Order (context [counter] office).singletons :=
    roots.congr fun id => ((wf_context _ _).singletons id).symm
  -- the dashboard needs the two others, and they need nothing
  have hneeds : ∀ a b, Needs office a b → a = .named "Dashboard" ∧
      (b = .traitObject (.named "dyn Greeter") ∨ b = .named "Counter") := by
    rintro a b ⟨s, hs, rfl, hb⟩
    rcases List.mem_cons.mp hs with rfl | hs
    · rcases List.mem_cons.mp hb with rfl | hb
      · exact ⟨rfl, .inl rfl⟩
      · exact ⟨rfl, .inr (List.mem_singleton.mp hb)⟩
    · cases List.mem_singleton.mp hs
      cases hb
  obtain ⟨w, result, hrun, hstarts, hmade⟩ :=
    @starts_iff [counter] office fieldsDistinct_office (by decide) roots slots
  have hok : result = .ok () := by
    refine hstarts.mpr ⟨acyclic_of_rank (fun id => if id = .named "Dashboard" then 1 else 0) ?_, ?_⟩
    · intro a b hab
      obtain ⟨rfl, rfl | rfl⟩ := hneeds a b hab <;> decide
    · intro a b hab
      obtain ⟨-, rfl | rfl⟩ := hneeds a b hab
      · exact .inr ⟨greeterService, by simp [office], rfl⟩
      · exact .inl ⟨counter, by simp, rfl⟩
  cases hok
  exact ⟨w, roots.1, slots.1, hrun, hmade rfl dashboardService (by simp [office])⟩

end Submission

end Macros
end StanoPlatform
