import StanoPlatform.Di.Service

/-!
# `Di/Validate.lean` — what `validate` reports

`validate` walks the slots in hash order, and every factory it starts may fill, or fail to fill,
slots it has yet to come to. What comes out is nevertheless a least fixed point: a type is
`Unresolvable` if its own constructor panics, or a dependency of it is missing or unresolvable
itself. The invariant is one sentence — *no slot of an unresolvable type is ever full* — and it
turns every single `get_or_init` into a test of that predicate (`getOrInit_tests`), whatever was
resolved before it.

For factories that are not generated the fixed point has no meaning; whether `validate` comes back
at all still has one, and the last section is about that.

From `Container::validate`. The cycles come first; if there is one, no factory is started. A factory
that panics is caught (`catch_unwind`) and reported by the name it was registered with. The order in
which the slots are walked is an argument, so what is proved is proved of every seed of the map.
-/

set_option autoImplicit false

namespace StanoPlatform
namespace Di

open Lib Relation

namespace Container

/-- A type that cannot be resolved: its slot is empty, and its constructor panics, or some
declared dependency is not registered, or cannot be resolved itself. -/
inductive Unresolvable (c : Container) (panics : TypeId → Bool) : TypeId → Prop
  | panics {id : TypeId} (hs : c.singletons.get id = some .empty) (h : panics id = true) :
      Unresolvable c panics id
  | unregistered {id dep : TypeId} (hs : c.singletons.get id = some .empty)
      (hdep : c.Declares id dep) (h : dep ∉ c.factories) : Unresolvable c panics id
  | dependency {id dep : TypeId} (hs : c.singletons.get id = some .empty)
      (hdep : c.Declares id dep) (h : Unresolvable c panics dep) : Unresolvable c panics id

variable {c : Container} {panics : TypeId → Bool}

theorem Unresolvable.empty {id : TypeId} (h : Unresolvable c panics id) :
    c.singletons.get id = some .empty := by
  cases h <;> assumption

end Container

open Container World

/-- A state `validate` can be in: it comes from the start by ticks, and only what can be
resolved has been. -/
structure Resolving (w₀ : World) (panics : TypeId → Bool) (w : World) : Prop where
  ticks : Ticks w₀ w
  full : ∀ id a, w.slot id = some (.full a) → ¬ Unresolvable w₀.container panics id

section

variable {w₀ : World} {panics : TypeId → Bool}

theorem Resolving.start (w₀ : World) (panics : TypeId → Bool) : Resolving w₀ panics w₀ :=
  ⟨.refl, fun id a h hu => by
    have : w₀.slot id = some .empty := hu.empty
    rw [this] at h
    cases h⟩

theorem Resolving.factories {w : World} (h : Resolving w₀ panics w) :
    w.container.factories = w₀.container.factories := h.ticks.rest.1

theorem Resolving.registered {w : World} (h : Resolving w₀ panics w) (hwf : w₀.container.Wf)
    {id : TypeId} {lock : OnceLock AnyArc} (hlock : w.slot id = some lock) :
    id ∈ w₀.container.factories := by
  rw [← hwf.singletons]
  cases h₀ : w₀.slot id with
  | none => rw [(h.ticks.registered id).mpr h₀] at hlock; cases hlock
  | some lock₀ => exact HashMap.mem_of_get h₀

/-- What is empty was empty from the start: nothing was in progress, and what is full stays so. -/
theorem Resolving.empty {w : World} (h : Resolving w₀ panics w) (hidle : w₀.Idle) {id : TypeId}
    (hs : w.slot id = some .empty) : w₀.container.singletons.get id = some .empty := by
  cases h₀ : w₀.slot id with
  | none => rw [(h.ticks.registered id).mpr h₀] at hs; cases hs
  | some lock =>
    cases lock with
    | empty => exact h₀
    | initializing => exact absurd h₀ (hidle id)
    | full a => rw [h.ticks.full h₀] at hs; cases hs

/-- One slot may change, as long as it is not full for a type that cannot be resolved. -/
theorem Resolving.set {w w' : World} (h : Resolving w₀ panics w) (hticks : Ticks w₀ w')
    {id : TypeId} {lock : OnceLock AnyArc}
    (hslot : ∀ k, w'.slot k = if k = id then some lock else w.slot k)
    (hlock : ∀ a, lock = .full a → ¬ Unresolvable w₀.container panics id) :
    Resolving w₀ panics w' := by
  refine ⟨hticks, fun k a hk => ?_⟩
  rw [hslot] at hk
  split at hk
  · exact ‹k = id› ▸ hlock a (Option.some.inj hk)
  · exact h.full k a hk

def Tests (w₀ : World) (panics : TypeId → Bool) (id : TypeId) : Resolution → Prop
  | .unregistered => id ∉ w₀.container.factories
  | .panicked => Unresolvable w₀.container panics id
  | .ready a => id ∈ w₀.container.factories ∧ ¬ Unresolvable w₀.container panics id ∧
      a.ty = storedType id

/-- What the call for a dependency says, when it tests its key: it comes back if and only if the
dependency can be resolved. -/
theorem exec_get {init : World → TypeId → World × Except Stop Resolution}
    (hinit : ∀ {w w' id r}, Resolving w₀ panics w → init w id = (w', .ok r) →
      Resolving w₀ panics w' ∧ Tests w₀ panics id r)
    {d : Dep} {w w' : World} {o : Outcome AnyArc} (hw : Resolving w₀ panics w)
    (h : d.get.exec init w = (w', .ok o)) : Resolving w₀ panics w' ∧
      match o with
      | .returned _ => d.key ∈ w₀.container.factories ∧ ¬ Unresolvable w₀.container panics d.key
      | .panicked => d.key ∉ w₀.container.factories ∨ Unresolvable w₀.container panics d.key := by
  obtain ⟨k, hget, hun, hpan, hready⟩ := d.get_eq
  rw [hget] at h
  obtain ⟨w₁, r, hcall, hrest⟩ := Prog.exec_resolve_ok h
  obtain ⟨hw₁, htest⟩ := hinit hw hcall
  cases r with
  | unregistered =>
    rw [hun] at hrest
    cases hrest
    exact ⟨hw₁, .inl htest⟩
  | panicked =>
    rw [hpan] at hrest
    cases hrest
    exact ⟨hw₁, .inr htest⟩
  | ready a =>
    rw [hready a htest.2.2] at hrest
    cases hrest
    exact ⟨hw₁, htest.1, htest.2.1⟩

/-- The calls of a factory, one after another. -/
theorem exec_getAll {init : World → TypeId → World × Except Stop Resolution}
    (hinit : ∀ {w w' id r}, Resolving w₀ panics w → init w id = (w', .ok r) →
      Resolving w₀ panics w' ∧ Tests w₀ panics id r) :
    ∀ {deps : List Dep} {w w' : World} {o : Outcome (List AnyArc)}, Resolving w₀ panics w →
      (Dep.getAll deps).exec init w = (w', .ok o) → Resolving w₀ panics w' ∧
        match o with
        | .returned _ => ∀ d ∈ deps, d.key ∈ w₀.container.factories ∧
            ¬ Unresolvable w₀.container panics d.key
        | .panicked => ∃ d ∈ deps, d.key ∉ w₀.container.factories ∨
            Unresolvable w₀.container panics d.key := by
  intro deps
  induction deps with
  | nil =>
    intro w w' o hw h
    cases h
    exact ⟨hw, by simp⟩
  | cons d ds ih =>
    intro w w' o hw h
    rw [Dep.getAll] at h
    -- the first lookup goes well and then the rest does or does not, or the first fails
    rcases Prog.exec_bind_ok h with ⟨w₁, a, hcall, h⟩ | ⟨hcall, rfl⟩
    · obtain ⟨hw₁, hgood⟩ := exec_get hinit hw hcall
      rcases Prog.exec_bind_ok h with ⟨w₂, as, hrest, h⟩ | ⟨hrest, rfl⟩
      · obtain ⟨hw₂, hall⟩ := ih hw₁ hrest
        cases h
        exact ⟨hw₂, List.forall_mem_cons.mpr ⟨hgood, hall⟩⟩
      · obtain ⟨hw₂, d', hd', hbad⟩ := ih hw₁ hrest
        exact ⟨hw₂, d', List.mem_cons_of_mem _ hd', hbad⟩
    · obtain ⟨hw₁, hbad⟩ := exec_get hinit hw hcall
      exact ⟨hw₁, d, List.mem_cons_self, hbad⟩

/-- What a generated factory's own run says: its dependencies first, then its constructor. -/
theorem exec_generated {init : World → TypeId → World × Except Stop Resolution}
    (hinit : ∀ {w w' id r}, Resolving w₀ panics w → init w id = (w', .ok r) →
      Resolving w₀ panics w' ∧ Tests w₀ panics id r)
    {id : TypeId} {deps : List Dep} {make : Nat → List AnyArc → AnyArc} {now : Nat}
    (hempty : w₀.container.singletons.get id = some .empty)
    (hdeps : w₀.container.dependencies.get id = some (deps.map Dep.key))
    {w w' : World} {o : Outcome AnyArc} (hw : Resolving w₀ panics w)
    (ho : (generated deps (panics id) make now).exec init w = (w', .ok o)) :
    Resolving w₀ panics w' ∧ ((∃ a, o = .returned a) → ¬ Unresolvable w₀.container panics id) ∧
      (o = .panicked → Unresolvable w₀.container panics id) := by
  have hdeclares : ∀ d, w₀.container.Declares id d ↔ ∃ dep ∈ deps, dep.key = d := by
    intro d
    show d ∈ depsOf _ id ↔ _
    rw [depsOf, hdeps]
    exact List.mem_map
  rw [generated] at ho
  rcases Prog.exec_bind_ok ho with ⟨w₂, fields, hall, ho⟩ | ⟨hall, rfl⟩
  · obtain ⟨hw₂, hgood⟩ := exec_getAll hinit hw hall
    cases hp : panics id with
    | true =>
      simp only [hp, if_true, Prog.exec] at ho
      cases ho
      exact ⟨hw₂, by simp, fun _ => .panics hempty hp⟩
    | false =>
      simp only [hp, Bool.false_eq_true, if_false] at ho
      cases ho
      refine ⟨hw₂, fun _ hu => ?_, by simp⟩
      -- it would have to panic by itself, or on a dependency that was found to be fine
      cases hu with
      | panics _ h => rw [hp] at h; cases h
      | unregistered _ hd h =>
        obtain ⟨dep, hdep, rfl⟩ := (hdeclares _).mp hd
        exact h (hgood dep hdep).1
      | dependency _ hd h =>
        obtain ⟨dep, hdep, rfl⟩ := (hdeclares _).mp hd
        exact (hgood dep hdep).2 h
  · obtain ⟨hw₂, dep, hdep, hbad⟩ := exec_getAll hinit hw hall
    refine ⟨hw₂, by simp, fun _ => ?_⟩
    rcases hbad with hbad | hbad
    · exact .unregistered hempty ((hdeclares _).mpr ⟨dep, hdep, rfl⟩) hbad
    · exact .dependency hempty ((hdeclares _).mpr ⟨dep, hdep, rfl⟩) hbad

/-- **Every `get_or_init` is a test of `Unresolvable`**, whenever it is made. -/
theorem getOrInit_tests (hwf : w₀.container.Wf) (hidle : w₀.Idle)
    (hgen : w₀.container.Generated panics) {depth : Nat} {w w' : World} {id : TypeId}
    {r : Resolution} (hw : Resolving w₀ panics w) (hcall : getOrInit depth w id = (w', .ok r)) :
    Resolving w₀ panics w' ∧ Tests w₀ panics id r := by
  induction depth generalizing w w' id r with
  | zero => cases hcall
  | succ depth ih =>
    have hruns := getOrInit_runs (depth + 1) w id
    rw [hcall] at hruns
    have hticks : Ticks w₀ w' := hw.ticks.trans hruns.ticks
    rw [getOrInit] at hcall
    rcases initWith_cases (getOrInit depth) w id with
      ⟨hs, h⟩ | ⟨a, hs, h⟩ | ⟨-, h⟩ | ⟨hs, hf, h⟩ | ⟨f, w₁, hs, hf, hcase⟩
    · rw [h] at hcall; cases hcall
      refine ⟨hw, ?_⟩
      show id ∉ w₀.container.factories
      rw [← hwf.singletons]
      exact HashMap.get_eq_none_iff.mp ((hw.ticks.registered id).mp hs)
    · rw [h] at hcall; cases hcall
      exact ⟨⟨hticks, hw.full⟩, hw.registered hwf hs, hw.full id a hs,
        (hw.ticks.wf hwf).filled id a hs⟩
    · rw [h] at hcall; cases hcall
    · -- a slot without a factory: registration never makes one
      rw [hw.factories] at hf
      exact absurd (hw.registered hwf hs) (HashMap.get_eq_none_iff.mp hf)
    · have hempty := hw.empty hidle hs
      have hf₀ : w₀.container.factories.get id = some f := by rw [← hw.factories]; exact hf
      obtain ⟨deps, make, hdeps, rfl⟩ := hgen id f hf₀
      have henter : Resolving w₀ panics (w.enter id) :=
        hw.set (hw.ticks.tail (.enter hs hf)) (slot_enter w id) (by simp)
      -- the calls the factory makes are tests, one level down, and so its end is one of its own key
      rcases hcase with ⟨e, -, h⟩ | ⟨a, ha, h⟩ | ⟨hp, h⟩
      · rw [h] at hcall; cases hcall
      · rw [h] at hcall; cases hcall
        obtain ⟨hw₁, hres, -⟩ := exec_generated (fun h h' => ih h h') hempty hdeps henter ha
        have hres := hres ⟨a, rfl⟩
        exact ⟨hw₁.set hticks (slot_finish w₁ id · _ a) fun _ _ => hres, hw.registered hwf hs,
          hres, hwf.builds id _ hf₀ _ a (Prog.exec_returns _ ha)⟩
      · rw [h] at hcall; cases hcall
        obtain ⟨hw₁, -, hres⟩ := exec_generated (fun h h' => ih h h') hempty hdeps henter hp
        exact ⟨hw₁.set hticks (slot_unwind w₁ id) (by simp), hres rfl⟩

/-- What walking the slots `ids` comes to: the errors so far, and one for each unresolvable type
among them, where it was met; everything else among them is initialised. -/
structure Walked (w₀ : World) (panics : TypeId → Bool) (ids failed : List TypeId) (w' : World) :
    Prop where
  resolving : Resolving w₀ panics w'
  sublist : failed.Sublist ids
  mem_iff : ∀ id ∈ ids, id ∈ failed ↔ Unresolvable w₀.container panics id
  full : ∀ id ∈ ids, id ∉ failed → ∃ a, w'.slot id = some (.full a)

/-- A type that is initialised by the end of the walk was no error. -/
theorem Walked.cons_full {ids failed : List TypeId} {w' : World}
    (h : Walked w₀ panics ids failed w') {id : TypeId} {a : AnyArc}
    (ha : w'.slot id = some (.full a)) : Walked w₀ panics (id :: ids) failed w' := by
  have hres : ¬ Unresolvable w₀.container panics id := h.resolving.full id a ha
  refine ⟨h.resolving, h.sublist.cons id, fun k hk => ?_, fun k hk hkf => ?_⟩
  · rcases List.mem_cons.mp hk with rfl | hk
    · refine ⟨fun hf => ?_, fun hu => absurd hu hres⟩
      exact (h.mem_iff k (h.sublist.subset hf)).mp hf
    · exact h.mem_iff k hk
  · rcases List.mem_cons.mp hk with rfl | hk
    · exact ⟨a, ha⟩
    · exact h.full k hk hkf

theorem Walked.cons_unresolvable {ids failed : List TypeId} {w' : World}
    (h : Walked w₀ panics ids failed w') {id : TypeId}
    (hu : Unresolvable w₀.container panics id) :
    Walked w₀ panics (id :: ids) (id :: failed) w' := by
  refine ⟨h.resolving, h.sublist.cons_cons id, fun k hk => ?_, fun k hk hkf => ?_⟩
  · by_cases hkid : k = id
    · rw [hkid]
      exact ⟨fun _ => hu, fun _ => List.mem_cons_self⟩
    · rw [List.mem_cons, or_iff_right hkid]
      exact h.mem_iff k ((List.mem_cons.mp hk).resolve_left hkid)
  · rw [List.mem_cons, not_or] at hkf
    exact h.full k ((List.mem_cons.mp hk).resolve_left hkf.1) hkf.2

/-- **The loop of `validate`** walks the slots it is given. -/
theorem exec_validateLoop (hwf : w₀.container.Wf) (hidle : w₀.Idle)
    (hgen : w₀.container.Generated panics) {depth : Nat} :
    ∀ {ids : List TypeId} {errors : List ContainerError} {w w' : World}
      {o : Outcome (List ContainerError)}, (∀ id ∈ ids, id ∈ w₀.container.factories) →
      Resolving w₀ panics w →
      (w₀.container.validateLoop ids errors).exec (getOrInit depth) w = (w', .ok o) →
      ∃ failed, Walked w₀ panics ids failed w' ∧
        o = .returned (errors ++ failed.map fun id => .factoryPanic (w₀.container.nameOf id)) := by
  intro ids
  induction ids with
  | nil =>
    intro errors w w' o _ hw h
    cases h
    exact ⟨[], ⟨hw, .slnil, by simp, by simp⟩, by simp⟩
  | cons id ids ih =>
    intro errors w w' o hids hw h
    have hmem := hids id List.mem_cons_self
    have hids := fun k hk => hids k (.tail _ hk)
    -- the head was resolved, in this call or before it, and stays so while the rest is walked
    have hgood : ∀ {w₁ : World} {a : AnyArc}, Resolving w₀ panics w₁ →
        w₁.slot id = some (.full a) →
        (w₀.container.validateLoop ids errors).exec (getOrInit depth) w₁ = (w', .ok o) →
        ∃ failed, Walked w₀ panics (id :: ids) failed w' ∧
          o = .returned
            (errors ++ failed.map fun id => .factoryPanic (w₀.container.nameOf id)) := by
      intro w₁ a hw₁ hfull hrest
      obtain ⟨failed, hwalked, ho⟩ := ih hids hw₁ hrest
      have hruns := Prog.exec_rel Runs.refl Runs.trans (getOrInit_runs depth)
        (w₀.container.validateLoop ids errors) w₁
      rw [hrest] at hruns
      exact ⟨failed, hwalked.cons_full (hruns.ticks.full hfull), ho⟩
    rw [validateLoop, Prog.exec] at h
    cases hset : w.isSet id with
    | true =>
      obtain ⟨a, ha⟩ := isSet_iff.mp hset
      simp only [hset, if_true] at h
      exact hgood hw ha h
    | false =>
      obtain ⟨f, hf⟩ := HashMap.mem_iff_get.mp hmem
      simp only [hset, Bool.false_eq_true, if_false, hf] at h
      obtain ⟨w₁, r, hcall, h⟩ := Prog.exec_resolve_ok h
      obtain ⟨hw₁, htest⟩ := getOrInit_tests hwf hidle hgen hw hcall
      cases r with
      | unregistered => exact absurd hmem htest
      | ready a => exact hgood hw₁ (getOrInit_ready hcall) h
      | panicked =>
        obtain ⟨failed, hwalked, ho⟩ := ih hids hw₁ h
        exact ⟨id :: failed, hwalked.cons_unresolvable htest, by rw [ho]; simp⟩

end

/-- What `validate` tells, and leaves behind, when no cycle is declared. -/
structure Reports (w : World) (panics : TypeId → Bool) (w' : World)
    (result : Except (List ContainerError) Unit) : Prop where
  ok_iff : result = .ok () ↔ ∀ id, ¬ Unresolvable w.container panics id
  errors : ∀ errors, result = .error errors → ∃ failed : List TypeId, failed.Nodup ∧
    (∀ id, id ∈ failed ↔ Unresolvable w.container panics id) ∧
    errors = failed.map fun id => .factoryPanic (w.container.nameOf id)
  initialised : ∀ id ∈ w.container.factories, ¬ Unresolvable w.container panics id →
    ∃ a, w'.slot id = some (.full a)
  kept : ∀ id a, w.slot id = some (.full a) → w'.slot id = some (.full a)
  released : ∀ id, Unresolvable w.container panics id → w'.slot id = some .empty

theorem verdict_eq_ok {errors : List ContainerError} : verdict errors = .ok () ↔ errors = [] := by
  cases errors with
  | nil => simp [verdict]
  | cons e es => simp [verdict]

theorem verdict_eq_error {errors errors' : List ContainerError}
    (h : verdict errors = .error errors') : errors' = errors := by
  cases errors with
  | nil => cases h
  | cons e es => cases h; rfl

theorem Container.Wf.unresolvable_mem {c : Container} (h : c.Wf) {panics : TypeId → Bool}
    {id : TypeId} (hu : Unresolvable c panics id) : id ∈ c.factories :=
  (h.singletons id).mp (HashMap.mem_of_get hu.empty)

/-- Where nothing is in progress, what cannot be resolved is back where it was: it is registered,
and was never full. -/
theorem Container.Unresolvable.released {w w' : World} {panics : TypeId → Bool} {id : TypeId}
    (hu : Unresolvable w.container panics id) (hidle : w.Idle) (hset : Settles w w')
    (hres : Resolving w panics w') : w'.slot id = some .empty := by
  have hempty : w.slot id = some .empty := hu.empty
  cases hs : w'.slot id with
  | none =>
    rw [hset.ticks.registered, hempty] at hs
    cases hs
  | some lock =>
    cases lock with
    | empty => rfl
    | initializing => exact absurd hs (hidle.settles hset id)
    | full a => exact absurd hu (hres.full id a hs)

/-- With no cycle declared, the verdict is the fixed point. -/
theorem reports_of_acyclic {w : World} {panics : TypeId → Bool} (hwf : w.container.Wf)
    (hidle : w.Idle) (hgen : w.container.Generated panics) (hac : Acyclic w.container.Declares)
    (roots : HashMap.Order w.container.factories) (slots : HashMap.Order w.container.singletons) :
    ∃ w' result, w.run (w.container.validate roots.1 slots.1) = (w', .ok (.returned result)) ∧
      Reports w panics w' result := by
  have hslots : ∀ id, id ∈ slots.1 ↔ id ∈ w.container.factories := fun id => by
    rw [slots.mem_iff, hwf.singletons]
  rw [hwf.validate_of_acyclic hac roots slots.1, run, Prog.exec_bind]
  obtain ⟨w', o, hloop⟩ := run_ends (hac.mono fun _ _ => hgen.asks) hidle
    (w.container.validateLoop slots.1 [])
  have hset := run_settles hloop
  obtain ⟨failed, hwalked, rfl⟩ := exec_validateLoop hwf hidle hgen
    (fun id hid => (hslots id).mp hid) (.start w panics) hloop
  -- the loop has been at every slot, so what failed is all that could
  have hfailed : ∀ id, id ∈ failed ↔ Unresolvable w.container panics id := by
    intro id
    constructor
    · intro hf
      exact (hwalked.mem_iff id (hwalked.sublist.subset hf)).mp hf
    · intro hu
      exact (hwalked.mem_iff id ((hslots id).mpr (hwf.unresolvable_mem hu))).mpr hu
  rw [run] at hloop
  rw [hloop]
  refine ⟨w', verdict (failed.map fun id => .factoryPanic (w.container.nameOf id)), rfl, ?_⟩
  constructor
  · rw [verdict_eq_ok, List.map_eq_nil_iff]
    constructor
    · rintro rfl id hu
      exact absurd ((hfailed id).mpr hu) (by simp)
    · intro hnone
      exact List.eq_nil_iff_forall_not_mem.mpr fun id hf => hnone id ((hfailed id).mp hf)
  · intro errors herr
    exact ⟨failed, slots.nodup.sublist hwalked.sublist, hfailed, verdict_eq_error herr⟩
  · intro id hid hres
    exact hwalked.full id ((hslots id).mpr hid) fun hf => hres ((hfailed id).mp hf)
  · exact fun id a ha => hset.ticks.full ha
  · exact fun id hu => hu.released hidle hset hwalked.resolving

/-- With one, the verdict is the cycles, and nothing has happened. -/
theorem run_validate_of_cycle {w : World} (hwf : w.container.Wf)
    (hcyc : ¬ Acyclic w.container.Declares) (roots : HashMap.Order w.container.factories)
    (slots : HashMap.Order w.container.singletons) :
    ∃ cycles, cycles ≠ [] ∧ (∀ cycle ∈ cycles, IsCycle w.container.Declares cycle) ∧
      w.run (w.container.validate roots.1 slots.1) =
        (w, .ok (.returned (.error (cycles.map w.container.cyclic)))) := by
  obtain ⟨cycles, hne, hreal, hval⟩ := hwf.validate_of_cycle hcyc roots slots.1
  exact ⟨cycles, hne, hreal, by rw [hval]; rfl⟩

/-- Whether `validate` passes has nothing to do with how the maps iterate. -/
theorem validate_verdict {w : World} {panics : TypeId → Bool} (hwf : w.container.Wf)
    (hidle : w.Idle) (hgen : w.container.Generated panics)
    (roots : HashMap.Order w.container.factories) (slots : HashMap.Order w.container.singletons) :
    ∃ w' result, w.run (w.container.validate roots.1 slots.1) = (w', .ok (.returned result)) ∧
      (result = .ok () ↔ Acyclic w.container.Declares ∧
        ∀ id, ¬ Unresolvable w.container panics id) := by
  by_cases hac : Acyclic w.container.Declares
  · obtain ⟨w', result, hrun, hrep⟩ := reports_of_acyclic hwf hidle hgen hac roots slots
    exact ⟨w', result, hrun, hrep.ok_iff.trans (and_iff_right hac).symm⟩
  · obtain ⟨cycles, -, -, hrun⟩ := run_validate_of_cycle hwf hac roots slots
    exact ⟨_, _, hrun, by simp, fun h => absurd h.1 hac⟩

/-- **`validate` reports exactly what fails to resolve.** Whatever is already initialised and
however the maps iterate: a declared cycle is an error and nothing has run; without one, there is
one `FactoryPanic` for each unresolvable type and no other error, everything else is initialised,
what was initialised is as it was, and what failed is empty again. -/
theorem validate_reports {w : World} {panics : TypeId → Bool} (hwf : w.container.Wf)
    (hidle : w.Idle) (hgen : w.container.Generated panics)
    (roots : HashMap.Order w.container.factories) (slots : HashMap.Order w.container.singletons) :
    (¬ Acyclic w.container.Declares → ∃ cycles, cycles ≠ [] ∧
      (∀ cycle ∈ cycles, IsCycle w.container.Declares cycle) ∧
      w.run (w.container.validate roots.1 slots.1) =
        (w, .ok (.returned (.error (cycles.map w.container.cyclic))))) ∧
    (Acyclic w.container.Declares → ∃ w' result,
      w.run (w.container.validate roots.1 slots.1) = (w', .ok (.returned result)) ∧
        Reports w panics w' result) :=
  ⟨fun hcyc => run_validate_of_cycle hwf hcyc roots slots,
    fun hac => reports_of_acyclic hwf hidle hgen hac roots slots⟩

/-! A `Config` handed in, a `Leaf` whose constructor panics, and a `Root` that needs both. -/

def leafDep : Dep := .concrete (.named "Leaf") (named_ne_traitObject "Leaf")

def configDep : Dep := .concrete (.named "Config") (named_ne_traitObject "Config")

def root : Service :=
  { structName := "Root", path := "Root", traitPath := none, fields := [configDep, leafDep]
    alloc := fun now => now }

def faulty : List Setup :=
  [.registration (.registerInstance (.named "Config") (Arc.at "Config" 7)),
    .registration (.registerWithDeps (.named "Leaf") (fun _ => .panic) "Leaf" []),
    .registerAll [root.register]]

theorem generated_faulty : (built faulty).Generated (· == .named "Leaf") := by
  have hconfig := (Container.generated_new (· == .named "Leaf")).apply
    (.registerInstance (.named "Config") (Arc.at "Config" 7)) []
    (fun _ _ => ⟨.named "Config", Arc.at "Config" 7⟩) rfl rfl
  have hleaf := hconfig.apply (.registerWithDeps (.named "Leaf") (fun _ => .panic) "Leaf" []) []
    (fun _ _ => ⟨.named "Config", Arc.at "Config" 7⟩) rfl rfl
  exact hleaf.apply root.registration _ _ root.deps_registration root.wrappedFactory_registration

theorem validate_reports_faulty : ∃ w' result,
    (World.start (built faulty)).run
      ((built faulty).validate (registrationOrder faulty).1 (slotOrder faulty).1) =
        (w', .ok (.returned result)) ∧
      Reports (World.start (built faulty)) (· == .named "Leaf") w' result :=
  (validate_reports (wf_built faulty) (idle_built faulty) generated_faulty
    (registrationOrder faulty) (slotOrder faulty)).2
    (((wf_built faulty).detectCycles_eq_nil (registrationOrder faulty)).mp rfl)

/-! ## Any factories at all -/

theorem exec_validateLoop_returns {c : Container}
    {init : World → TypeId → World × Except Stop Resolution} :
    ∀ {ids : List TypeId} {errors : List ContainerError} {w w' : World}
      {o : Outcome (List ContainerError)},
      (c.validateLoop ids errors).exec init w = (w', .ok o) → ∃ errors', o = .returned errors' := by
  intro ids
  induction ids with
  | nil =>
    intro errors w w' o h
    cases h
    exact ⟨errors, rfl⟩
  | cons id ids ih =>
    intro errors w w' o h
    rw [validateLoop, Prog.exec] at h
    split at h
    · exact ih h
    · split at h
      · exact ih h
      · obtain ⟨w₁, r, -, hrest⟩ := Prog.exec_resolve_ok h
        cases r <;> exact ih hrest

/-- **`validate` never asks for what it is initialising** when every circle in what the factories
really ask for shows in what was declared — in particular when each asks only for what it was
registered with. The circle is then the verdict, and no factory has been started. -/
theorem validate_ends (setups : List Setup)
    (hcover : Acyclic (built setups).Declares → Acyclic (built setups).Asks)
    (roots : HashMap.Order (built setups).factories)
    (slots : HashMap.Order (built setups).singletons) :
    ∃ w' result, (World.start (built setups)).run ((built setups).validate roots.1 slots.1) =
        (w', .ok (.returned result)) ∧ (∀ id, .reentered id ∉ w'.trace) ∧
      ((¬ Acyclic (built setups).Asks ∨ ¬ Acyclic (built setups).Declares) →
        w' = World.start (built setups) ∧ ∃ cycles, cycles ≠ [] ∧
          (∀ cycle ∈ cycles, IsCycle (built setups).Declares cycle) ∧
          result = .error (cycles.map (built setups).cyclic)) := by
  by_cases hac : Acyclic (built setups).Declares
  · rw [(wf_built setups).validate_of_acyclic hac roots slots.1, run, Prog.exec_bind]
    obtain ⟨w', o, hloop⟩ := run_ends (w := World.start (built setups)) (hcover hac)
      (idle_built setups) ((built setups).validateLoop slots.1 [])
    have hset := run_settles hloop
    obtain ⟨errors, rfl⟩ := exec_validateLoop_returns hloop
    rw [run] at hloop
    rw [hloop]
    exact ⟨w', verdict errors, rfl, fun id hid => absurd (hset.reentered id hid) (by simp [start]),
      fun hcyc => hcyc.elim (absurd (hcover hac)) (absurd hac)⟩
  · obtain ⟨cycles, hne, hreal, hrun⟩ := run_validate_of_cycle
      (w := World.start (built setups)) (wf_built setups) hac roots slots
    exact ⟨_, _, hrun, by simp [start], fun _ => ⟨rfl, cycles, hne, hreal, rfl⟩⟩

theorem validate_ends_faulty : ∃ w' result,
    (World.start (built faulty)).run
      ((built faulty).validate (registrationOrder faulty).1 (slotOrder faulty).1) =
        (w', .ok (.returned result)) ∧ (∀ id, .reentered id ∉ w'.trace) ∧
      ((¬ Acyclic (built faulty).Asks ∨ ¬ Acyclic (built faulty).Declares) →
        w' = World.start (built faulty) ∧ ∃ cycles, cycles ≠ [] ∧
          (∀ cycle ∈ cycles, IsCycle (built faulty).Declares cycle) ∧
          result = .error (cycles.map (built faulty).cyclic)) :=
  validate_ends faulty (fun h => h.mono fun _ _ => generated_faulty.asks)
    (registrationOrder faulty) (slotOrder faulty)

/-- Two components that ask for each other, registered without dependencies. -/
def circular : List Setup :=
  [.registration (.register (.named "A") fun now => do
      let _ ← Container.get (.named "B")
      return Arc.at "A" now),
    .registration (.register (.named "B") fun now => do
      let _ ← Container.get (.named "A")
      return Arc.at "B" now)]

/-- Following what the factories ask for leads from `A` back to `A`, the declared graph is
empty, and `validate` ends up waiting for itself. -/
theorem validate_reenters_circular :
    OnCycle (built circular).Asks (.named "A") ∧
      (built circular).detectCycles (registrationOrder circular).1 = some [] ∧
      ∃ w', (World.start (built circular)).run
        ((built circular).validate (registrationOrder circular).1 (slotOrder circular).1) =
          (w', .error .deadlocked) ∧ .reentered (.named "A") ∈ w'.trace := by
  refine ⟨?_, rfl, ?_⟩
  · have hab : (built circular).Asks (.named "A") (.named "B") := by
      refine ⟨_, 0, rfl, ?_⟩
      exact Or.inl rfl
    have hba : (built circular).Asks (.named "B") (.named "A") := by
      refine ⟨_, 0, rfl, ?_⟩
      exact Or.inl rfl
    exact .tail (.single hab) hba
  · exact ⟨_, rfl, List.mem_cons_self⟩

end Di
end StanoPlatform
