import StanoPlatform.Macros.Wiring

/-!
# `Example/Context.lean` — `build_context`, and what the handlers get of it

The handlers look up a `dyn WidgetService`, and `Example/Serving.lean` has it be the
`WidgetServiceImpl` over the `SeaOrmWidgetRepository`. Nobody writes that down in the application:
it is what the fields of the two structs come to, once the inventory of the linker has been walked,
in one order or the other, and `validate` has passed.

From `build_context` in `stano-example-app/launcher/src/lib.rs` and the two annotated structs. What
rustc and `inventory` make of the crates is the parameter `Build`: the identity of the four types
and the order of the two submissions. Connecting to the database and migrating it come before, and
may fail; then there is no context and nothing here is about it.
-/

set_option autoImplicit false

namespace StanoPlatform
namespace Example

open Di Lib Macros

/-! ## The annotated structs -/

def arcTy (inner : Ty) : Ty := .path none false [.mk "Arc" (.angleBracketed [.type inner])]

def dbConfigTy : Ty := structTy "DbConfig"

def dynWidgetRepository : Ty := .traitObject true [.ident "WidgetRepository"]

def dynWidgetService : Ty := .traitObject true [.ident "WidgetService"]

/-- `pub struct #ident { #field: Arc<#inner> }` -/
def serviceDef (ident field : String) (inner : Ty) : ItemStruct :=
  { attrs := [], vis := [.ident "pub"], ident, generics := ⟨[], []⟩
    fields := .named [⟨[], [], field, arcTy inner⟩] }

def repositoryDef : ItemStruct := serviceDef "SeaOrmWidgetRepository" "db" dbConfigTy

def serviceImplDef : ItemStruct := serviceDef "WidgetServiceImpl" "repo" dynWidgetRepository

def repositoryExpansion : ServiceExpansion :=
  { structDef := repositoryDef
    newParams := [("db", arcTy dbConfigTy)]
    constructorBody := .fields ["db"]
    dependencyIds := [.typeIdOf dbConfigTy]
    newCall := [.get dbConfigTy]
    registerCall := .traitWithDeps dynWidgetRepository }

def serviceImplExpansion : ServiceExpansion :=
  { structDef := serviceImplDef
    newParams := [("repo", arcTy dynWidgetRepository)]
    constructorBody := .fields ["repo"]
    dependencyIds := [.traitObjectTypeId dynWidgetRepository]
    newCall := [.getTrait dynWidgetRepository]
    registerCall := .traitWithDeps dynWidgetService }

theorem serviceStruct_repository :
    serviceStruct repositoryDef (some dynWidgetRepository) = .ok repositoryExpansion := rfl

theorem serviceStruct_serviceImpl :
    serviceStruct serviceImplDef (some dynWidgetService) = .ok serviceImplExpansion := rfl

/-- What `rustc` makes of the two crates. -/
structure Build where
  repository : repositoryExpansion.Compiled
  serviceImpl : serviceImplExpansion.Compiled
  -- `DbConfig: Clone`
  clone : ∀ u, repository.resolve dbConfigTy ≠ .traitObject u
  -- both name the trait of the domain crate
  sameTrait : serviceImpl.resolve dynWidgetRepository = repository.resolve dynWidgetRepository
  twoTraits : serviceImpl.resolve dynWidgetService ≠ repository.resolve dynWidgetRepository

namespace Build

variable (b : Build)

theorem clone_repository : ∀ inner, .typeIdOf inner ∈ repositoryExpansion.dependencyIds →
    ∀ u, b.repository.resolve inner ≠ .traitObject u := by
  intro inner h
  cases List.mem_singleton.mp h
  exact b.clone

theorem clone_serviceImpl : ∀ inner, .typeIdOf inner ∈ serviceImplExpansion.dependencyIds →
    ∀ u, b.serviceImpl.resolve inner ≠ .traitObject u := by
  intro inner h
  cases List.mem_singleton.mp h

def repositorySubmission : Submission :=
  { structDef := repositoryDef
    traitType := some dynWidgetRepository
    expansion := repositoryExpansion
    accepted := serviceStruct_repository
    compiled := b.repository
    clone := b.clone_repository }

def serviceImplSubmission : Submission :=
  { structDef := serviceImplDef
    traitType := some dynWidgetService
    expansion := serviceImplExpansion
    accepted := serviceStruct_serviceImpl
    compiled := b.serviceImpl
    clone := b.clone_serviceImpl }

/-! Three keys. -/

def dbConfigKey : TypeId := TypeId.of (b.repository.resolve dbConfigTy)

theorem dbConfigKey_ne_repository : b.dbConfigKey ≠ b.repositorySubmission.key := b.clone _

theorem dbConfigKey_ne_serviceImpl : b.dbConfigKey ≠ b.serviceImplSubmission.key := b.clone _

theorem repository_ne_serviceImpl :
    b.repositorySubmission.key ≠ b.serviceImplSubmission.key := by
  intro h
  exact b.twoTraits (RustType.traitObject.inj h).symm

/-- `Arc::new(db)`. -/
abbrev DbConfig : Type := Arc (b.repository.resolve dbConfigTy)

/-- What `register_instance` is given. -/
def instanceOf (db : b.DbConfig) : AnyArc := ⟨b.repository.resolve dbConfigTy, db⟩

/-- `SeaOrmWidgetRepository { db }`, for whoever wants a `dyn WidgetRepository`. -/
def newRepository (now : Nat) (db : AnyArc) : AnyArc :=
  b.repository.stored (b.repository.arcNew now [("db", some db)])

/-- `WidgetServiceImpl { repo }`, as a `dyn WidgetService`. -/
def newServiceImpl (now : Nat) (repo : AnyArc) : Arc (b.serviceImpl.resolve dynWidgetService) :=
  b.serviceImpl.asTrait dynWidgetService (b.serviceImpl.arcNew now [("repo", some repo)])

/-- `ctx.get_trait::<dyn WidgetService>()`. -/
def getService : Prog (Arc (b.serviceImpl.resolve dynWidgetService)) :=
  Container.getTrait (b.serviceImpl.resolve dynWidgetService)

end Build

/-! ## Starting -/

open Submission

section

variable {b : Build} {submissions : List Submission}
  (hperm : [b.repositorySubmission, b.serviceImplSubmission].Perm submissions)

include hperm

theorem mem_submissions {s : Submission} :
    s ∈ submissions ↔ s = b.repositorySubmission ∨ s = b.serviceImplSubmission := by
  rw [← hperm.mem_iff]
  simp

theorem fieldsDistinct_submissions : FieldsDistinct submissions := by
  intro s hs
  obtain rfl | rfl := (mem_submissions hperm).mp hs <;> exact List.nodup_singleton _

theorem keys_submissions : (submissions.map key).Nodup := by
  refine (hperm.map key).nodup_iff.mp (List.nodup_cons.mpr ⟨?_, List.nodup_singleton _⟩)
  exact fun h => b.repository_ne_serviceImpl (List.mem_singleton.mp h)

/-- The service needs the repository, and that the connection. -/
theorem needs_submissions {id dep : TypeId} (h : Needs submissions id dep) :
    (id = b.repositorySubmission.key ∧ dep = b.dbConfigKey) ∨
      (id = b.serviceImplSubmission.key ∧ dep = b.repositorySubmission.key) := by
  obtain ⟨s, hs, rfl, hdep⟩ := h
  obtain rfl | rfl := (mem_submissions hperm).mp hs
  · exact .inl ⟨rfl, List.mem_singleton.mp hdep⟩
  · refine .inr ⟨rfl, (List.mem_singleton.mp hdep).trans ?_⟩
    exact congrArg RustType.traitObject b.sameTrait

theorem acyclic_submissions : Acyclic (Needs submissions) := by
  refine acyclic_of_rank (fun id => if id = b.serviceImplSubmission.key then 2
    else if id = b.repositorySubmission.key then 1 else 0) fun id dep h => ?_
  obtain ⟨rfl, rfl⟩ | ⟨rfl, rfl⟩ := needs_submissions hperm h
  · rw [if_neg b.repository_ne_serviceImpl, if_pos rfl, if_neg b.dbConfigKey_ne_serviceImpl,
      if_neg b.dbConfigKey_ne_repository]
    exact Nat.zero_lt_one
  · rw [if_pos rfl, if_neg b.repository_ne_serviceImpl, if_pos rfl]
    exact Nat.one_lt_two

theorem provided_submissions (db : b.DbConfig) {id dep : TypeId} (h : Needs submissions id dep) :
    Provided [b.instanceOf db] submissions dep := by
  obtain ⟨-, rfl⟩ | ⟨-, rfl⟩ := needs_submissions hperm h
  · exact .inl ⟨_, List.mem_singleton_self _, rfl⟩
  · exact .inr ⟨_, (mem_submissions hperm).mpr (.inl rfl), rfl⟩

/-- What is under the key of the connection is the connection. -/
theorem dbConfig_slot {db : b.DbConfig} {w : World}
    (hw : World.Wired (World.start (context [b.instanceOf db] submissions)) w) {a : AnyArc}
    (ha : w.slot b.dbConfigKey = some (.full a)) : a = b.instanceOf db := by
  obtain ⟨r, -, hkey, ⟨hmem, -⟩ | ⟨s, hs, rfl, -⟩⟩ :=
    of_wired (fieldsDistinct_submissions hperm) hw ha
  · exact List.mem_singleton.mp hmem
  · obtain rfl | rfl := (mem_submissions hperm).mp hs
    · exact absurd hkey.symm b.dbConfigKey_ne_repository
    · exact absurd hkey.symm b.dbConfigKey_ne_serviceImpl

end

theorem made_repository {b : Build} {w : World} {a : AnyArc}
    (h : b.repositorySubmission.MadeOf w a) :
    ∃ now db, w.slot b.dbConfigKey = some (.full db) ∧ a = b.newRepository now db := by
  obtain ⟨now, values, hvalues, rfl⟩ := h
  obtain ⟨db, _, ⟨inner, harc, hslot⟩, hnil, rfl⟩ := List.forall₂_cons_left_iff.mp hvalues
  cases hnil
  cases harc.unique ⟨none, false, [], [], rfl⟩
  exact ⟨now, db, hslot, rfl⟩

theorem made_serviceImpl {b : Build} {w : World} {a : AnyArc}
    (h : b.serviceImplSubmission.MadeOf w a) :
    ∃ now repo, w.slot b.repositorySubmission.key = some (.full repo) ∧
      a = ⟨_, Arc.new (b.newServiceImpl now repo)⟩ := by
  obtain ⟨now, values, hvalues, rfl⟩ := h
  obtain ⟨repo, _, ⟨inner, harc, hslot⟩, hnil, rfl⟩ := List.forall₂_cons_left_iff.mp hvalues
  cases hnil
  cases harc.unique ⟨none, false, [], [], rfl⟩
  have hkey : b.serviceImplSubmission.fieldKey dynWidgetRepository = b.repositorySubmission.key :=
    congrArg RustType.traitObject b.sameTrait
  exact ⟨now, repo, hkey ▸ hslot, rfl⟩

theorem getTrait_eq (U : RustType) : ∃ found,
    Container.getTrait U = .resolve (TraitObject.typeId U) found ∧
      ∀ p : Arc U, found (.ready ⟨.arc U, Arc.new p⟩) = .ret p := by
  refine ⟨_, rfl, fun p => ?_⟩
  simp only [AnyArc.downcast_mk]
  rfl

/-- `get_trait`, of what is there. -/
theorem step_getTrait {w : World} {U : RustType} {p : Arc U}
    (hs : w.slot (TraitObject.typeId U) = some (.full ⟨.arc U, Arc.new p⟩))
    (k : Arc U → Prog Unit) : ∃ w', (Thread.client (Container.getTrait U >>= k)).step w =
      some (w', .client (k p)) := by
  obtain ⟨found, hget, hfound⟩ := getTrait_eq U
  refine ⟨w.hit (TraitObject.typeId U) ⟨.arc U, Arc.new p⟩, ?_⟩
  rw [hget, Prog.resolve_bind, Thread.step, World.call, hs]
  show some (_, Thread.client (found _ >>= k)) = _
  rw [hfound]
  rfl

/-- **Every handler gets the service over the repository over the connection.** `validate` passes,
whichever crate comes first and however the maps iterate; and whatever requests are then served at
once, a handler that looks up a `dyn WidgetService` has, in one step, the one `WidgetServiceImpl`,
whose `repo` is the one `SeaOrmWidgetRepository`, whose `db` is what was connected at first. -/
theorem context_serves (b : Build) (db : b.DbConfig) {submissions : List Submission}
    (hperm : [b.repositorySubmission, b.serviceImplSubmission].Perm submissions)
    (roots : HashMap.Order (context [b.instanceOf db] submissions).factories)
    (slots : HashMap.Order (context [b.instanceOf db] submissions).singletons) :
    ∃ w built built', (World.start (context [b.instanceOf db] submissions)).run
        ((context [b.instanceOf db] submissions).validate roots.1 slots.1) =
          (w, .ok (.returned (.ok ()))) ∧
      ∀ {ι : Type} [DecidableEq ι] (programs : ι → Prog Unit) (m : Machine ι),
        Machine.Steps ⟨w, fun i => .client (programs i)⟩ m →
        m.world.container = w.container ∧
        ∀ i k, m.threads i = .client (b.getService >>= k) → ∃ w',
          (m.threads i).step m.world = some (w', .client
            (k (b.newServiceImpl built' (b.newRepository built (b.instanceOf db))))) := by
  have hfields := fieldsDistinct_submissions hperm
  have hkeys := keys_submissions hperm
  obtain ⟨w, result, hrun, hverdict⟩ := validate_context hkeys roots slots
  obtain rfl := hverdict.mpr
    ⟨acyclic_submissions hperm, fun _ _ h => provided_submissions hperm db h⟩
  have hwired := World.run_wired (idle_context _ _) (generated_context _ _).strict hrun
  -- the three instances, from the connection up
  obtain ⟨repo, hrepo, hmade⟩ :=
    made_of_validate hfields hkeys slots hrun ((mem_submissions hperm).mpr (.inl rfl))
  obtain ⟨built, db', hdb, rfl⟩ := made_repository hmade
  obtain rfl := dbConfig_slot hperm hwired hdb
  obtain ⟨service, hservice, hmade'⟩ :=
    made_of_validate hfields hkeys slots hrun ((mem_submissions hperm).mpr (.inr rfl))
  obtain ⟨built', repo', hrepo', rfl⟩ := made_serviceImpl hmade'
  rw [hrepo] at hrepo'
  cases hrepo'
  refine ⟨w, built, built', hrun, fun programs m hsteps => ?_⟩
  obtain ⟨hwarm, hticks⟩ := World.warm_of_validate
    (w := World.start (context [b.instanceOf db] submissions)) (wf_context _ _) slots hrun
  have hreads := (hwarm.steps (hticks.wf (wf_context _ _)) hsteps).1
  refine ⟨hreads.container, fun i k hi => ?_⟩
  rw [hi]
  exact step_getTrait ((hreads.slot _).trans hservice) k

theorem someBuild_twoTraits :
    (compiledBy serviceImplExpansion).resolve dynWidgetService ≠
      (compiledBy repositoryExpansion).resolve dynWidgetRepository := by
  decide

/-- Types by their last names. -/
def someBuild : Build :=
  { repository := compiledBy _
    serviceImpl := compiledBy _
    clone := nofun
    sameTrait := rfl
    twoTraits := someBuild_twoTraits }

def someDb : AnyArc := someBuild.instanceOf (Arc.at "DbConfig" 7)

/-- The services crate comes first. -/
def servicesFirst : List Submission :=
  [someBuild.serviceImplSubmission, someBuild.repositorySubmission]

theorem context_serves_servicesFirst : ∃ w roots slots built built',
    (World.start (context [someDb] servicesFirst)).run
      ((context [someDb] servicesFirst).validate roots slots) = (w, .ok (.returned (.ok ()))) ∧
    ∀ {ι : Type} [DecidableEq ι] (programs : ι → Prog Unit) (m : Machine ι),
      Machine.Steps ⟨w, fun i => .client (programs i)⟩ m →
      m.world.container = w.container ∧
      ∀ i k, m.threads i = .client (someBuild.getService >>= k) → ∃ w',
        (m.threads i).step m.world = some (w', .client
          (k (someBuild.newServiceImpl built' (someBuild.newRepository built someDb)))) := by
  have roots : HashMap.Order (context [someDb] servicesFirst).factories := by
    rw [context_eq]
    exact Container.registrationOrder _
  have slots : HashMap.Order (context [someDb] servicesFirst).singletons :=
    roots.congr fun id => ((wf_context _ _).singletons id).symm
  obtain ⟨w, built, built', hrun, hserves⟩ :=
    context_serves someBuild (Arc.at "DbConfig" 7) (.swap _ _ _) roots slots
  exact ⟨w, roots.1, slots.1, built, built', hrun, hserves⟩

end Example
end StanoPlatform
