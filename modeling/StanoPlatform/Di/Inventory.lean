import StanoPlatform.Di.Validate

/-!
# `Di/Inventory.lean` — `register_all` and the order of the linker

`inventory::iter` promises no order, and a registration *replaces* what its key held. So the
order is invisible exactly as long as no two services share a key, and where they do, the last
one yielded wins (`entry_registerServices`) without a word. Whether a key is taken at all never
depends on the order.

From `register_all` in `stano-di/src/lib.rs` and in `application_context.rs`. `inventory` is taken
to yield each submission once, in an order of which nothing is known: it is the list that the
definitions get, and a theorem about any permutation of it is one about any link order.
-/

set_option autoImplicit false

namespace StanoPlatform
namespace Di

open Lib

namespace Container

/-- `register_all`, when what was submitted is what `#[service]` generates. -/
def registerServices (c : Container) (services : List Service) : Container :=
  c.registerAll (services.map Service.register)

theorem registerServices_eq (c : Container) (services : List Service) :
    c.registerServices services = (services.map Service.registration).foldl apply c := by
  rw [registerServices, registerAll_eq]
  congr 1
  induction services with
  | nil => rfl
  | cons s services ih =>
    rw [List.map_cons, List.flatten_cons, ih]
    rfl

structure Entry where
  factory : Option Factory
  slot : Option (OnceLock AnyArc)
  name : Option String
  deps : Option (List TypeId)

def entry (c : Container) (id : TypeId) : Entry :=
  { factory := c.factories.get id
    slot := c.singletons.get id
    name := c.typeNames.get id
    deps := c.dependencies.get id }

theorem ext_entry {c c' : Container} (h : ∀ id, c.entry id = c'.entry id) : c = c' := by
  have hf : c.factories = c'.factories := HashMap.ext fun id => congrArg Entry.factory (h id)
  have hs : c.singletons = c'.singletons := HashMap.ext fun id => congrArg Entry.slot (h id)
  have hn : c.typeNames = c'.typeNames := HashMap.ext fun id => congrArg Entry.name (h id)
  have hd : c.dependencies = c'.dependencies := HashMap.ext fun id => congrArg Entry.deps (h id)
  cases c
  cases c'
  cases hf
  cases hs
  cases hn
  cases hd
  rfl

theorem entry_apply (c : Container) (r : Registration) (id : TypeId) :
    (c.apply r).entry id =
      if id = r.key then ⟨some r.wrappedFactory, some r.slot, some r.name, some r.deps⟩
      else c.entry id := by
  rw [apply_eq_put, entry, put]
  simp only [HashMap.get_insert]
  split <;> rfl

/-- **The last one wins**: a key is what the last service yielded for it made of it. -/
theorem entry_registerServices (c : Container) (front : List Service) (s : Service)
    {back : List Service} (hlast : ∀ s' ∈ back, s'.registration.key ≠ s.registration.key) :
    (c.registerServices (front ++ s :: back)).entry s.registration.key =
      ⟨some s.registration.wrappedFactory, some .empty, some s.registration.name,
        some s.dependencyIds⟩ := by
  have hskip : ∀ (l : List Service) (c : Container),
      (∀ s' ∈ l, s'.registration.key ≠ s.registration.key) →
      ((l.map Service.registration).foldl apply c).entry s.registration.key =
        c.entry s.registration.key := by
    intro l
    induction l with
    | nil => intro c _; rfl
    | cons s' l ih =>
      intro c hl
      rw [List.map_cons, List.foldl_cons, ih _ fun x hx => hl x (List.mem_cons_of_mem _ hx),
        entry_apply, if_neg (hl s' List.mem_cons_self).symm]
  rw [registerServices_eq, List.map_append, List.foldl_append, List.map_cons, List.foldl_cons,
    hskip back _ hlast, entry_apply, if_pos rfl, s.slot_registration, s.deps_registration]
  rfl

theorem mem_registerServices {c : Container} {services : List Service} {id : TypeId} :
    id ∈ (c.registerServices services).factories ↔
      id ∈ c.factories ∨ ∃ s ∈ services, s.registration.key = id := by
  rw [registerServices_eq, foldl_apply_eq, HashMap.mem_insertAll]
  simp

/-- A service's constructor never panics, whatever it replaces. -/
theorem Generated.registerServices {c : Container} {panics : TypeId → Bool}
    (h : c.Generated panics) (services : List Service) :
    (c.registerServices services).Generated fun id =>
      panics id && !services.any (·.registration.key = id) := by
  intro id f hf
  rw [registerServices_eq, foldl_apply_eq] at hf ⊢
  simp only [HashMap.get_insertAll] at hf ⊢
  -- the last of the services with this key, if there is one, is whose factory is there
  cases hlast : (services.map Service.registration).reverse.find? (·.key = id) with
  | none =>
    rw [hlast] at hf
    have hnone : services.any (·.registration.key = id) = false := by
      rw [List.find?_eq_none] at hlast
      rw [List.any_eq_false]
      intro s hs
      exact hlast _ (List.mem_reverse.mpr (List.mem_map_of_mem hs))
    obtain ⟨deps, make, hdeps, rfl⟩ := h id f hf
    exact ⟨deps, make, hdeps, by rw [hnone, Bool.not_false, Bool.and_true]⟩
  | some r =>
    rw [hlast] at hf
    obtain ⟨s, hs, rfl⟩ := List.mem_map.mp
      (List.mem_reverse.mp (List.mem_of_find?_eq_some hlast))
    have hkey : s.registration.key = id := by simpa using List.find?_some hlast
    have hany : services.any (·.registration.key = id) = true :=
      List.any_eq_true.mpr ⟨s, hs, by simpa using hkey⟩
    refine ⟨s.fields, fun now _ => s.erase (s.alloc now), congrArg some s.deps_registration, ?_⟩
    rw [hany, Bool.not_true, Bool.and_false, ← s.wrappedFactory_registration]
    exact (Option.some.inj hf).symm

theorem Wf.registerServices {c : Container} (h : c.Wf) (services : List Service) :
    (c.registerServices services).Wf := by
  rw [registerServices_eq]
  exact h.foldl_apply _

end Container

theorem World.Idle.registerServices {c : Container} (h : (World.start c).Idle)
    (services : List Service) : (World.start (c.registerServices services)).Idle := by
  intro id hid
  have hid : (c.registerServices services).singletons.get id = some .initializing := hid
  rw [Container.registerServices_eq, Container.foldl_apply_eq] at hid
  simp only [HashMap.get_insertAll, Option.or_eq_some_iff, Option.map_eq_some_iff] at hid
  rcases hid with ⟨r, -, hr⟩ | ⟨-, hc⟩
  · exact r.slot_ne_initializing hr
  · exact h id hc

namespace Container

/-- What one key resolves to depends on the order only through a clash on that key. -/
theorem entry_perm {c : Container} {services services' : List Service}
    (h : services.Perm services') {id : TypeId}
    (hid : ∀ s ∈ services, ∀ s' ∈ services, s.registration.key = id → s'.registration.key = id →
      s = s') :
    (c.registerServices services).entry id = (c.registerServices services').entry id := by
  have hperm := h.map Service.registration
  have hval : ∀ {V : Type} (val : Registration → V), ∀ r ∈ services.map Service.registration,
      ∀ r' ∈ services.map Service.registration, r.key = id → r'.key = id → val r = val r' := by
    intro V val r hr r' hr' hk hk'
    obtain ⟨s, hs, rfl⟩ := List.mem_map.mp hr
    obtain ⟨s', hs', rfl⟩ := List.mem_map.mp hr'
    rw [hid s hs s' hs' hk hk']
  rw [registerServices_eq, registerServices_eq, foldl_apply_eq, foldl_apply_eq, entry, entry]
  simp only [HashMap.get_insertAll_perm hperm (hval _)]

/-- **Auto-registration, up to clashes.** Two orders of the same services register the same keys;
a key that no two different services share ends up the same; and when no key is shared, the two
containers are one — so every run against them is the same run, and, over a container of generated
factories, the verdict of `validate` is too, whichever orders its maps then iterate in. A key that
is shared is what the service yielded last for it made of it. -/
theorem registerServices_perm {c : Container} {services services' : List Service}
    (h : services.Perm services') :
    (∀ T, (c.registerServices services).has T = (c.registerServices services').has T) ∧
    (∀ U, (c.registerServices services).hasTrait U = (c.registerServices services').hasTrait U) ∧
    (∀ id, (∀ s ∈ services, ∀ s' ∈ services, s.registration.key = id →
        s'.registration.key = id → s = s') →
      (c.registerServices services).entry id = (c.registerServices services').entry id) ∧
    ((∀ s ∈ services, ∀ s' ∈ services, s.registration.key = s'.registration.key → s = s') →
      c.registerServices services = c.registerServices services' ∧
      ∀ panics, c.Wf → (World.start c).Idle → c.Generated panics →
        ∀ (roots : HashMap.Order (c.registerServices services).factories)
          (slots : HashMap.Order (c.registerServices services).singletons)
          (roots' : HashMap.Order (c.registerServices services').factories)
          (slots' : HashMap.Order (c.registerServices services').singletons),
        ∃ w r w' r', (World.start (c.registerServices services)).run
              ((c.registerServices services).validate roots.1 slots.1) =
                (w, .ok (.returned r)) ∧
            (World.start (c.registerServices services')).run
              ((c.registerServices services').validate roots'.1 slots'.1) =
                (w', .ok (.returned r')) ∧ (r = .ok () ↔ r' = .ok ())) ∧
    ∀ front s back, services = front ++ s :: back →
      (∀ s' ∈ back, s'.registration.key ≠ s.registration.key) →
      (c.registerServices services).entry s.registration.key =
        ⟨some s.registration.wrappedFactory, some .empty, some s.registration.name,
          some s.dependencyIds⟩ := by
  have hcontains : ∀ id, (c.registerServices services).factories.containsKey id =
      (c.registerServices services').factories.containsKey id := by
    intro id
    rw [Bool.eq_iff_iff, HashMap.containsKey_iff, HashMap.containsKey_iff, mem_registerServices,
      mem_registerServices]
    simp only [h.mem_iff]
  refine ⟨fun T => hcontains _, fun U => hcontains _, fun id hid => entry_perm h hid,
    fun hall => ?_, ?_⟩
  swap
  · rintro front s back rfl hlast
    exact entry_registerServices c front s hlast
  -- the two containers are equal, so whatever is run on them is the same run
  have heq : c.registerServices services = c.registerServices services' :=
    ext_entry fun id => entry_perm h fun s hs s' hs' hk hk' => hall s hs s' hs' (hk.trans hk'.symm)
  refine ⟨heq, fun panics hwf hidle hgen roots slots roots' slots' => ?_⟩
  -- the order of the maps may still differ; the verdict does not depend on it
  have hverdict := fun l => validate_verdict (w := World.start (c.registerServices l))
    (hwf.registerServices l) (hidle.registerServices l) (hgen.registerServices l)
  obtain ⟨w, r, hrun, hr⟩ := hverdict services roots slots
  obtain ⟨w', r', hrun', hr'⟩ := hverdict services' roots' slots'
  refine ⟨w, r, w', r', hrun, hrun', hr.trans (Iff.trans ?_ hr'.symm)⟩
  rw [show (fun id => panics id && !services.any (·.registration.key = id)) =
    fun id => panics id && !services'.any (·.registration.key = id) by
      funext id
      rw [h.any_eq]]
  rw [show World.start (c.registerServices services) =
    World.start (c.registerServices services') by rw [heq]]

end Container

/-! `EnglishGreeter` needs nothing, `LoggingGreeter` a `Logger`; both are the `dyn Greeter`. -/

def logger : Service :=
  { structName := "Logger", path := "Logger", traitPath := none, fields := [], alloc := fun _ => 1 }

def englishGreeter : Service :=
  { structName := "EnglishGreeter", path := "EnglishGreeter", traitPath := some "dyn Greeter"
    fields := [], alloc := fun _ => 2 }

def loggingGreeter : Service :=
  { structName := "LoggingGreeter", path := "LoggingGreeter", traitPath := some "dyn Greeter"
    fields := [.concrete (.named "Logger") (named_ne_traitObject "Logger")], alloc := fun _ => 3 }

theorem registerServices_perm_logging :
    Container.new.registerServices [logger, loggingGreeter] =
      Container.new.registerServices [loggingGreeter, logger] :=
  ((Container.registerServices_perm (.swap loggingGreeter logger [])).2.2.2.1 (by
    intro s hs s' hs' hk
    have hne : logger.registration.key ≠ loggingGreeter.registration.key := by decide
    simp only [List.mem_cons, List.not_mem_nil, or_false] at hs hs'
    rcases hs with rfl | rfl <;> rcases hs' with rfl | rfl
    · rfl
    · exact absurd hk hne
    · exact absurd hk hne.symm
    · rfl)).1

/-- Both greeters at once: the order decides which one `get_trait` builds, and whether `validate`
passes when no `Logger` is there. -/
theorem register_all_clash :
    [logger, englishGreeter, loggingGreeter].Perm [logger, loggingGreeter, englishGreeter] ∧
    ((World.start (Container.new.registerServices [logger, englishGreeter, loggingGreeter])).run
        (Container.getTrait (.named "dyn Greeter"))).2 =
      .ok (.returned (Arc.at "dyn Greeter" 3)) ∧
    ((World.start (Container.new.registerServices [logger, loggingGreeter, englishGreeter])).run
        (Container.getTrait (.named "dyn Greeter"))).2 =
      .ok (.returned (Arc.at "dyn Greeter" 2)) ∧
    ((World.start (Container.new.registerServices [englishGreeter, loggingGreeter])).run
        ((Container.new.registerServices [englishGreeter, loggingGreeter]).validate
          [englishGreeter.registration.key] [englishGreeter.registration.key])).2 =
      .ok (.returned (.error [.factoryPanic "LoggingGreeter"])) ∧
    ((World.start (Container.new.registerServices [loggingGreeter, englishGreeter])).run
        ((Container.new.registerServices [loggingGreeter, englishGreeter]).validate
          [englishGreeter.registration.key] [englishGreeter.registration.key])).2 =
      .ok (.returned (.ok ())) :=
  ⟨.cons _ (.swap _ _ _), rfl, rfl, rfl, rfl⟩

end Di
end StanoPlatform
